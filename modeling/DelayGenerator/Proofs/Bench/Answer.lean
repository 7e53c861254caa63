/-
This file shows how answers come in. The framer finds lines in the chunks of an answer; the answer is
whole if none is found before the last chunk.
-/

import DelayGenerator.Bench.Basic
import DelayGenerator.Proofs.Line.Framer
import Mathlib.Algebra.GroupWithZero.Nat

namespace DelayGenerator.Delivery

/-- No chunk is empty. -/
theorem ne_nil_of_mem_cut {size room : Nat} {bytes chunk : List UInt8}
    (member : chunk ∈ cut size room bytes) : chunk ≠ [] := by
  induction bytes generalizing room chunk with
  | nil => contradiction
  | cons byte rest inductionHypothesis =>
      unfold cut at member
      split at member
      · rcases List.mem_cons.mp member with rfl | later
        · simp
        · exact inductionHypothesis later
      · split at member
        · rw [List.mem_singleton.mp member]
          simp
        · rename_i first others cutRest
          rcases List.mem_cons.mp member with rfl | later
          · simp
          · apply inductionHypothesis
            rw [cutRest]
            exact List.mem_cons_of_mem first later

/-- The first chunk fits into its room, and the others are of their size at most. -/
theorem length_le_of_cut_eq {size room : Nat} {bytes first : List UInt8} {others : List (List UInt8)}
    (parts : cut size room bytes = first :: others) :
    first.length ≤ max room 1 ∧ ∀ chunk ∈ others, chunk.length ≤ max size 1 := by
  induction bytes generalizing room first others with
  | nil => contradiction
  | cons byte rest inductionHypothesis =>
      unfold cut at parts
      split at parts
      · obtain ⟨rfl, rfl⟩ := List.cons.inj parts
        refine ⟨Nat.le_max_right _ _, ?_⟩
        intro chunk member
        cases cutRest : cut size size rest with
        | nil =>
            rw [cutRest] at member
            contradiction
        | cons next more =>
            obtain ⟨fits, further⟩ := inductionHypothesis cutRest
            rw [cutRest] at member
            rcases List.mem_cons.mp member with rfl | later
            · exact fits
            · exact further chunk later
      · split at parts
        · obtain ⟨rfl, rfl⟩ := List.cons.inj parts
          exact ⟨Nat.le_max_right _ _, fun chunk member => by contradiction⟩
        · rename_i next more cutRest
          obtain ⟨rfl, rfl⟩ := List.cons.inj parts
          obtain ⟨fits, further⟩ := inductionHypothesis cutRest
          refine ⟨?_, further⟩
          rw [List.length_cons]
          omega

/-- A chunk before the last one fills its room. -/
theorem length_of_cut_eq {size room : Nat} {bytes first : List UInt8} {others : List (List UInt8)}
    (parts : cut size room bytes = first :: others) (more : others ≠ []) : first.length = max room 1 := by
  induction bytes generalizing room first others with
  | nil => contradiction
  | cons byte rest inductionHypothesis =>
      unfold cut at parts
      split at parts
      · rename_i narrow
        obtain ⟨rfl, rfl⟩ := List.cons.inj parts
        rw [List.length_singleton]
        omega
      · split at parts
        · obtain ⟨rfl, rfl⟩ := List.cons.inj parts
          exact absurd rfl more
        · rename_i next further cutRest
          obtain ⟨rfl, rfl⟩ := List.cons.inj parts
          have length := inductionHypothesis cutRest more
          rw [List.length_cons]
          omega

/-- Bytes for which there is room come in one piece. -/
theorem cut_of_length_le {size room : Nat} {bytes : List UInt8} (some : bytes ≠ [])
    (fits : bytes.length ≤ room) : cut size room bytes = [bytes] := by
  induction bytes generalizing room with
  | nil => contradiction
  | cons byte rest inductionHypothesis =>
      rw [List.length_cons] at fits
      by_cases last : rest = []
      · subst last
        by_cases narrow : room ≤ 1 <;> simp [cut, narrow]
      · have length := List.length_pos_iff.mpr last
        have wide : ¬ room ≤ 1 := by omega
        have later := @inductionHypothesis (room - 1) last (by omega)
        simp only [cut, wide, if_false, later]

theorem length_le_of_mem_chunksOf {size : Nat} {bytes chunk : List UInt8}
    (member : chunk ∈ chunksOf (some size) bytes) : chunk.length ≤ max size 1 := by
  change chunk ∈ cut size size bytes at member
  cases parts : cut size size bytes with
  | nil =>
      rw [parts] at member
      contradiction
  | cons first others =>
      obtain ⟨fits, further⟩ := length_le_of_cut_eq parts
      rw [parts] at member
      rcases List.mem_cons.mp member with rfl | later
      · exact fits
      · exact further chunk later

/-- Bytes come in some chunk. -/
theorem chunksOf_ne_nil (size : Option Nat) {bytes : List UInt8} (some : bytes ≠ []) :
    chunksOf size bytes ≠ [] := by
  intro none
  apply some
  have whole := flattenChunksOf size bytes
  rw [none] at whole
  exact whole.symm

theorem payload_ne_nil {lines : List String} (some : lines ≠ []) : payload lines ≠ [] := by
  cases lines with
  | nil => contradiction
  | cons line rest => simp [payload]

/-- An answer ends with a newline. -/
theorem exists_payload_eq {lines : List String} (some : lines ≠ []) :
    ∃ bytes, payload lines = bytes ++ [Framer.newline] := by
  induction lines with
  | nil => contradiction
  | cons line rest inductionHypothesis =>
      have first : payload (line :: rest) = (Text.utf8 line ++ [0x0D, 0x0A]) ++ payload rest := rfl
      by_cases last : rest = []
      · subst last
        exact ⟨Text.utf8 line ++ [0x0D], by simp [payload, Framer.newline]⟩
      · obtain ⟨bytes, whole⟩ := inductionHypothesis last
        rw [first, whole]
        exact ⟨_, (List.append_assoc _ _ _).symm⟩

/-- After a whole answer the framer holds nothing. -/
theorem feed_payload (limit : Nat) (lines : List String) :
    ((Framer.empty limit).feed (payload lines)).1 = .empty limit := by
  by_cases none : lines = []
  · subst none
    rfl
  · obtain ⟨bytes, whole⟩ := exists_payload_eq none
    rw [whole]
    exact Framer.feed_newline (.empty limit) bytes

/-- The lines that the framer finds in an answer. -/
def framed (limit : Nat) (lines : List String) : List String :=
  ((Framer.empty limit).feed (payload lines)).2

/-- No line is complete before the last chunk of the answer has come in, whatever is held before. -/
def ComesWhole (framer : Framer) (size : Option Nat) (lines : List String) : Prop :=
  ∀ taken rest, chunksOf size (payload lines) = taken ++ rest → rest ≠ [] →
    (framer.feed taken.flatten).2 = []

/-- A chunk before the last one completes no line. -/
theorem ComesWhole.lines_eq_nil {framer : Framer} {size : Option Nat} {lines : List String}
    (whole : ComesWhole framer size lines) {taken rest : List (List UInt8)} {chunk : List UInt8}
    (chunks : chunksOf size (payload lines) = taken ++ chunk :: rest) (some : rest ≠ []) :
    ((framer.feed taken.flatten).1.feed chunk).2 = [] := by
  have none := whole (taken ++ [chunk]) rest (by simp [chunks]) some
  rw [List.flatten_append, List.flatten_singleton, Framer.feedAppend] at none
  exact (List.append_eq_nil_iff.mp none).2

/-- The last chunk completes the lines of the answer. -/
theorem ComesWhole.feed_last {framer : Framer} {size : Option Nat} {lines : List String}
    (whole : ComesWhole framer size lines) {taken : List (List UInt8)} {chunk : List UInt8}
    (chunks : chunksOf size (payload lines) = taken ++ [chunk]) :
    (framer.feed taken.flatten).1.feed chunk = framer.feed (payload lines) := by
  have none := whole taken [chunk] chunks (by simp)
  have flat := flattenChunksOf size (payload lines)
  rw [chunks, List.flatten_append, List.flatten_singleton] at flat
  rw [← flat, Framer.feedAppend, none, List.nil_append]

/-- No line of the answer is complete before its last chunk has come in. -/
def IsWhole (limit : Nat) (size : Option Nat) (lines : List String) : Prop :=
  ∀ taken rest, chunksOf size (payload lines) = taken ++ rest → rest ≠ [] →
    ((Framer.empty limit).feed taken.flatten).2 = []

theorem IsWhole.comesWhole {limit : Nat} {size : Option Nat} {lines : List String}
    (isWhole : IsWhole limit size lines) : ComesWhole (.empty limit) size lines := isWhole

/-- A chunk before the last one completes no line. -/
theorem IsWhole.lines_eq_nil {limit : Nat} {size : Option Nat} {lines : List String}
    (isWhole : IsWhole limit size lines) {taken rest : List (List UInt8)} {chunk : List UInt8}
    (chunks : chunksOf size (payload lines) = taken ++ chunk :: rest) (some : rest ≠ []) :
    (((Framer.empty limit).feed taken.flatten).1.feed chunk).2 = [] :=
  isWhole.comesWhole.lines_eq_nil chunks some

/-- The last chunk completes the lines of the answer. -/
theorem IsWhole.feed_last {limit : Nat} {size : Option Nat} {lines : List String}
    (isWhole : IsWhole limit size lines) {taken : List (List UInt8)} {chunk : List UInt8}
    (chunks : chunksOf size (payload lines) = taken ++ [chunk]) :
    ((Framer.empty limit).feed taken.flatten).1.feed chunk = (.empty limit, framed limit lines) := by
  rw [isWhole.comesWhole.feed_last chunks]
  exact Prod.ext (feed_payload limit lines) rfl

/-- An answer in one piece is whole. -/
theorem comesWhole_of_single {framer : Framer} {size : Option Nat} {lines : List String} {chunk : List UInt8}
    (single : chunksOf size (payload lines) = [chunk]) : ComesWhole framer size lines := by
  intro taken rest whole some
  rw [single] at whole
  cases taken with
  | nil => rfl
  | cons first more =>
      have length := congrArg List.length whole
      have positive := List.length_pos_iff.mpr some
      simp only [List.length_cons, List.length_nil, List.length_append] at length
      omega

theorem isWhole_none (limit : Nat) (lines : List String) : IsWhole limit none lines :=
  @comesWhole_of_single (.empty limit) none lines _ rfl

/-- The framer finds printable lines that fit, and nothing else. -/
theorem feed_payload_of_printable {limit : Nat} {lines : List String}
    (plain : ∀ line ∈ lines, Text.IsPrintable line ∧ line.length ≤ limit) :
    (Framer.empty limit).feed (payload lines) = (.empty limit, lines) := by
  induction lines with
  | nil => rfl
  | cons line rest inductionHypothesis =>
      obtain ⟨printable, short⟩ := plain line List.mem_cons_self
      have later := inductionHypothesis fun other member => plain other (List.mem_cons_of_mem line member)
      have first : payload (line :: rest) = (Text.utf8 line ++ [0x0D, Framer.newline]) ++ payload rest := rfl
      rw [first, Framer.feedAppend, Framer.feed_line printable short, later]
      rfl

theorem framed_line {limit : Nat} {line : String} (printable : Text.IsPrintable line)
    (short : line.length ≤ limit) : framed limit [line] = [line] := by
  rw [framed, feed_payload_of_printable]
  intro other member
  rw [List.mem_singleton.mp member]
  exact ⟨printable, short⟩

/-- A printable line is as long as its text and the end of the line. -/
theorem length_payload {lines : List String} (printable : ∀ line ∈ lines, Text.IsPrintable line) :
    (payload lines).length = (lines.map fun line => line.length + 2).sum := by
  induction lines with
  | nil => rfl
  | cons line rest inductionHypothesis =>
      have later := inductionHypothesis fun other member => printable other (List.mem_cons_of_mem line member)
      have own := Framer.length_utf8_of_printable (printable line List.mem_cons_self)
      rw [String.length_toList] at own
      have first : payload (line :: rest) = (Text.utf8 line ++ [0x0D, Framer.newline]) ++ payload rest := rfl
      rw [first, List.length_append, List.length_append, Text.utf8, own, later, List.map_cons, List.sum_cons]
      rfl

/-- Printable lines end with one newline each. -/
theorem count_payload {lines : List String} (printable : ∀ line ∈ lines, Text.IsPrintable line) :
    (payload lines).count Framer.newline = lines.length := by
  induction lines with
  | nil => rfl
  | cons line rest inductionHypothesis =>
      have later := inductionHypothesis fun other member => printable other (List.mem_cons_of_mem line member)
      have own := List.count_eq_zero.mpr (Framer.newline_not_mem_utf8 (printable line List.mem_cons_self))
      have first : payload (line :: rest) = (Text.utf8 line ++ [0x0D, Framer.newline]) ++ payload rest := rfl
      rw [first, List.count_append, List.count_append, Text.utf8, own, later, List.length_cons, Nat.zero_add,
        Nat.add_comm]
      rfl

/-- Whatever of an answer is still to come holds a newline. -/
theorem newline_mem_rest {size : Nat} {lines : List String} {taken rest : List (List UInt8)}
    (chunks : chunksOf (some size) (payload lines) = taken ++ rest) (more : rest ≠ []) :
    Framer.newline ∈ rest.flatten := by
  have flat := flattenChunksOf (some size) (payload lines)
  rw [chunks, List.flatten_append] at flat
  have bytes : rest.flatten ≠ [] := by
    intro none
    obtain ⟨chunk, member⟩ := List.exists_mem_of_ne_nil rest more
    have inside : chunk ∈ cut size size (payload lines) := by
      change chunk ∈ chunksOf (some size) (payload lines)
      rw [chunks]
      exact List.mem_append_right taken member
    exact ne_nil_of_mem_cut inside (List.flatten_eq_nil_iff.mp none chunk member)
  have answered : lines ≠ [] := by
    rintro rfl
    exact bytes (List.append_eq_nil_iff.mp flat).2
  obtain ⟨start, ends⟩ := exists_payload_eq answered
  have last := congrArg List.getLast? flat
  rw [List.getLast?_append, List.getLast?_eq_some_getLast bytes, ends, List.getLast?_concat,
    Option.some_or] at last
  rw [← Option.some.inj last]
  exact List.getLast_mem bytes

/-- One printable line comes in as a whole, whatever the chunks and whatever is held before. -/
theorem comesWhole_line (framer : Framer) {line : String} (printable : Text.IsPrintable line)
    (size : Option Nat) : ComesWhole framer size [line] := by
  cases size with
  | none => exact comesWhole_of_single rfl
  | some size =>
      intro taken rest chunks more
      apply Framer.lines_feed_of_not_mem
      -- The only newline is still to come.
      have flat := congrArg List.flatten chunks
      rw [flattenChunksOf, List.flatten_append] at flat
      have one := count_payload fun other member => (List.mem_singleton.mp member ▸ printable)
      rw [flat, List.count_append, List.length_singleton] at one
      have later := List.count_pos_iff.mpr (newline_mem_rest chunks more)
      exact List.count_eq_zero.mp (by omega)

theorem isWhole_line {limit : Nat} {line : String} (printable : Text.IsPrintable line)
    (size : Option Nat) : IsWhole limit size [line] :=
  comesWhole_line (.empty limit) printable size

end DelayGenerator.Delivery
