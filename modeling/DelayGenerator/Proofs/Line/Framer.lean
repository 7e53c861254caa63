/-
This file shows what the framer makes of lines and of parts of lines.
-/

import DelayGenerator.Line.Framer
import DelayGenerator.Text.Utf8

namespace DelayGenerator

/-- The characters of which a reply line consists. -/
def Text.IsPrintable (text : String) : Prop :=
  ∀ character ∈ text.toList, 0x20 ≤ character.toNat ∧ character.toNat ≤ 0x7E

instance (text : String) : Decidable (Text.IsPrintable text) :=
  List.decidableBAll (fun character : Char => 0x20 ≤ character.toNat ∧ character.toNat ≤ 0x7E) _

theorem Text.IsPrintable.append {first second : String} (printable : IsPrintable first)
    (also : IsPrintable second) : IsPrintable (first ++ second) := by
  intro character member
  rw [String.toList_append, List.mem_append] at member
  exact member.elim (printable character) (also character)

/-- A reply line as it can come in. -/
structure Text.IsLine (limit : Nat) (text : String) : Prop where
  printable : IsPrintable text
  length_le : text.length ≤ limit

namespace Framer

theorem limit_step (framer : Framer) (byte : UInt8) :
    (framer.step byte).1.limit = framer.limit := by
  unfold step
  split
  · rfl
  · split
    · rfl
    · split
      · rfl
      · split <;> rfl

theorem limit_feed (framer : Framer) (bytes : List UInt8) :
    (framer.feed bytes).1.limit = framer.limit := by
  induction bytes generalizing framer with
  | nil => rfl
  | cons byte rest inductionHypothesis =>
      exact (inductionHypothesis (framer.step byte).1).trans (framer.limit_step byte)

/-- Only a newline completes a line. -/
theorem lines_step_of_ne (framer : Framer) {byte : UInt8} (inside : byte ≠ newline) :
    (framer.step byte).2 = none := by
  have inside : (byte == newline) = false := by simpa using inside
  unfold step
  rw [inside]
  simp only [Bool.false_eq_true, if_false]
  split
  · rfl
  · split
    · rfl
    · split <;> rfl

theorem lines_feed_of_not_mem (framer : Framer) {bytes : List UInt8} (inside : newline ∉ bytes) :
    (framer.feed bytes).2 = [] := by
  induction bytes generalizing framer with
  | nil => rfl
  | cons byte rest inductionHypothesis =>
      have own : byte ≠ newline := fun same => inside (by rw [same]; exact List.mem_cons_self)
      have others : newline ∉ rest := fun member => inside (List.mem_cons_of_mem byte member)
      simp only [feed, framer.lines_step_of_ne own, Option.toList_none, List.nil_append]
      exact inductionHypothesis (framer.step byte).1 others

/-- After a newline nothing is held. -/
theorem feed_newline (framer : Framer) (bytes : List UInt8) :
    (framer.feed (bytes ++ [newline])).1 = empty framer.limit := by
  rw [feedAppend]
  change (empty (framer.feed bytes).1.limit) = _
  rw [limit_feed]

/-- A printable character is one byte. -/
theorem utf8_of_printable {character : Char}
    (printable : 0x20 ≤ character.toNat ∧ character.toNat ≤ 0x7E) :
    String.utf8EncodeChar character = [UInt8.ofNat character.toNat] := by
  have short : character.val.toNat ≤ 0x7F := by
    have upper := printable.2
    change character.val.toNat ≤ 0x7E at upper
    omega
  unfold String.utf8EncodeChar
  rw [if_pos short]
  rfl

/-- The byte of a printable character stands for it. -/
theorem printable?_of_printable {character : Char}
    (printable : 0x20 ≤ character.toNat ∧ character.toNat ≤ 0x7E) :
    printable? (UInt8.ofNat character.toNat) = some character := by
  obtain ⟨lower, upper⟩ := printable
  have value : (UInt8.ofNat character.toNat).toNat = character.toNat := by
    rw [UInt8.toNat_ofNat']
    exact Nat.mod_eq_of_lt (by omega)
  have within : (0x20 ≤ UInt8.ofNat character.toNat && UInt8.ofNat character.toNat ≤ 0x7E) = true := by
    simp only [Bool.and_eq_true, decide_eq_true_eq, UInt8.le_iff_toNat_le, value]
    exact ⟨lower, upper⟩
  unfold printable?
  rw [if_pos within, value, Char.ofNat_toNat]

/-- No printable character ends a line. -/
theorem beq_newline_of_printable {character : Char}
    (printable : 0x20 ≤ character.toNat ∧ character.toNat ≤ 0x7E) :
    (UInt8.ofNat character.toNat == newline) = false := by
  rw [beq_eq_false_iff_ne]
  intro same
  have found := printable?_of_printable printable
  rw [same] at found
  contradiction

/-- Printable characters are as many bytes. -/
theorem length_utf8_of_printable {characters : List Char}
    (printable : ∀ character ∈ characters, 0x20 ≤ character.toNat ∧ character.toNat ≤ 0x7E) :
    (characters.flatMap String.utf8EncodeChar).length = characters.length := by
  induction characters with
  | nil => rfl
  | cons character rest inductionHypothesis =>
      have later := inductionHypothesis fun other member =>
        printable other (List.mem_cons_of_mem character member)
      have first := printable character List.mem_cons_self
      rw [List.flatMap_cons, List.length_append, later, utf8_of_printable first,
        List.length_singleton, List.length_cons, Nat.add_comm]

theorem newline_not_mem_utf8 {characters : List Char}
    (printable : ∀ character ∈ characters, 0x20 ≤ character.toNat ∧ character.toNat ≤ 0x7E) :
    newline ∉ characters.flatMap String.utf8EncodeChar := by
  intro member
  obtain ⟨character, inside, encoded⟩ := List.mem_flatMap.mp member
  have own := printable character inside
  rw [utf8_of_printable own, List.mem_singleton] at encoded
  have other := beq_newline_of_printable own
  rw [← encoded] at other
  contradiction

/-- A printable character is added to what is held as long as there is room. -/
theorem step_of_printable {limit : Nat} {held : List Char} {character : Char}
    (printable : 0x20 ≤ character.toNat ∧ character.toNat ≤ 0x7E) (room : held.length < limit) :
    step ⟨limit, held, false⟩ (UInt8.ofNat character.toNat) =
      (⟨limit, held ++ [character], false⟩, none) := by
  unfold step
  rw [beq_newline_of_printable printable, printable?_of_printable printable]
  simp [Nat.not_le.mpr room]

/-- A printable character for which there is no room makes the framer skip the line. -/
theorem step_of_full {limit : Nat} {held : List Char} {character : Char}
    (printable : 0x20 ≤ character.toNat ∧ character.toNat ≤ 0x7E) (full : limit ≤ held.length) :
    step ⟨limit, held, false⟩ (UInt8.ofNat character.toNat) = (⟨limit, [], true⟩, none) := by
  unfold step
  rw [beq_newline_of_printable printable, printable?_of_printable printable]
  simp [full]

/-- Printable characters are held as they come. -/
theorem feed_of_printable {limit : Nat} {held characters : List Char}
    (printable : ∀ character ∈ characters, 0x20 ≤ character.toNat ∧ character.toNat ≤ 0x7E)
    (room : held.length + characters.length ≤ limit) :
    feed ⟨limit, held, false⟩ (characters.flatMap String.utf8EncodeChar) =
      (⟨limit, held ++ characters, false⟩, []) := by
  induction characters generalizing held with
  | nil => rw [List.append_nil]; rfl
  | cons character rest inductionHypothesis =>
      have own := printable character List.mem_cons_self
      rw [List.length_cons] at room
      have later := @inductionHypothesis (held ++ [character])
        (fun other member => printable other (List.mem_cons_of_mem character member))
        (by rw [List.length_append, List.length_singleton]; omega)
      rw [List.flatMap_cons, utf8_of_printable own, List.singleton_append]
      simp only [feed, step_of_printable own (by omega : held.length < limit), later]
      simp

/-- While a line is skipped, nothing but a newline matters. -/
theorem feed_of_skipping {framer : Framer} (skipping : framer.skipping = true) {bytes : List UInt8}
    (inside : newline ∉ bytes) : framer.feed bytes = (framer, []) := by
  induction bytes with
  | nil => rfl
  | cons byte rest inductionHypothesis =>
      have own : (byte == newline) = false := by
        rw [beq_eq_false_iff_ne]
        exact fun same => inside (by rw [same]; exact List.mem_cons_self)
      have stays : framer.step byte = (framer, none) := by
        unfold step
        rw [own]
        cases printable? byte <;> simp [skipping]
      simp only [feed, stays, inductionHypothesis fun member => inside (List.mem_cons_of_mem byte member)]
      rfl

/-- A line with more printable characters than there is room for is skipped. -/
theorem feed_of_long {limit : Nat} {held characters : List Char}
    (printable : ∀ character ∈ characters, 0x20 ≤ character.toNat ∧ character.toNat ≤ 0x7E)
    (within : held.length ≤ limit) (long : limit < held.length + characters.length) :
    feed ⟨limit, held, false⟩ (characters.flatMap String.utf8EncodeChar) = (⟨limit, [], true⟩, []) := by
  induction characters generalizing held with
  | nil => exact absurd long (Nat.not_lt_of_le within)
  | cons character rest inductionHypothesis =>
      have own := printable character List.mem_cons_self
      have others := fun other member => printable other (List.mem_cons_of_mem character member)
      rw [List.length_cons] at long
      rw [List.flatMap_cons, utf8_of_printable own, List.singleton_append]
      by_cases room : held.length < limit
      · have later := @inductionHypothesis (held ++ [character]) others
          (by rw [List.length_append, List.length_singleton]; omega)
          (by rw [List.length_append, List.length_singleton]; omega)
        simp only [feed, step_of_printable own room, later]
        rfl
      · have skips := @feed_of_skipping ⟨limit, [], true⟩ rfl _ (newline_not_mem_utf8 others)
        simp only [feed, step_of_full own (Nat.not_lt.mp room), skips]
        rfl

/-- The line that the framer makes of printable text, together with what it holds already: none if it is
too long. -/
def joined? (framer : Framer) (text : String) : Option String :=
  if framer.skipping ∨ framer.limit < framer.held.length + text.length then none
  else some (String.ofList (framer.held ++ text.toList))

theorem joined?_empty {limit : Nat} {text : String} (short : text.length ≤ limit) :
    (empty limit).joined? text = some text := by
  have room : ¬ (false = true ∨ limit < 0 + text.length) := by
    rw [Nat.zero_add]
    simpa using short
  exact (if_neg room).trans (by simp [empty])

/-- The end of a line completes what is held. -/
theorem feed_lineEnd (framer : Framer) :
    framer.feed [0x0D, newline] =
      (empty framer.limit, if framer.skipping then [] else [String.ofList framer.held]) := by
  have carriage : framer.step 0x0D = (framer, none) := rfl
  have ends : framer.step newline =
      (empty framer.limit, if framer.skipping then none else some (String.ofList framer.held)) := rfl
  simp only [feed, carriage, ends]
  cases framer.skipping <;> rfl

/-- A line of printable text is joined to what the framer holds. -/
theorem feed_line_of_isBounded {framer : Framer} (bounded : framer.held.length ≤ framer.limit)
    {text : String} (printable : Text.IsPrintable text) :
    framer.feed (Text.utf8 text ++ [0x0D, newline]) = (empty framer.limit, (framer.joined? text).toList) := by
  obtain ⟨limit, held, skipping⟩ := framer
  rw [feedAppend]
  unfold joined?
  cases skipping with
  | true =>
      have skips := @feed_of_skipping ⟨limit, held, true⟩ rfl _ (newline_not_mem_utf8 printable)
      rw [Text.utf8, skips, feed_lineEnd]
      simp
  | false =>
      by_cases long : limit < held.length + text.length
      · have skips := feed_of_long printable bounded (by rw [String.length_toList]; exact long)
        rw [Text.utf8, skips, feed_lineEnd]
        simp [long]
      · have holds := @feed_of_printable limit held _ printable
          (by rw [String.length_toList]; exact Nat.not_lt.mp long)
        rw [Text.utf8, holds, feed_lineEnd]
        simp [long]

/-- Printable text that fits into a line becomes exactly this line. -/
theorem feed_line {limit : Nat} {text : String} (printable : Text.IsPrintable text)
    (short : text.length ≤ limit) :
    (empty limit).feed (Text.utf8 text ++ [0x0D, newline]) = (empty limit, [text]) := by
  have bounded : (empty limit).held.length ≤ (empty limit).limit := Nat.zero_le limit
  rw [feed_line_of_isBounded bounded printable, joined?_empty short]
  rfl

/-- Every printable byte is followed by a newline, so that no line is left unfinished. -/
def EndsLines : List UInt8 → Prop
  | [] => True
  | byte :: rest => (printable? byte = none ∨ newline ∈ rest) ∧ EndsLines rest

instance decidableEndsLines : (bytes : List UInt8) → Decidable (EndsLines bytes)
  | [] => isTrue trivial
  | byte :: rest =>
    have : Decidable (EndsLines rest) := decidableEndsLines rest
    inferInstanceAs (Decidable ((printable? byte = none ∨ newline ∈ rest) ∧ EndsLines rest))

/-- A byte leaves nothing held if it ends the line, or if nothing has been held and it is dropped. -/
theorem step_eq_empty_iff {framer : Framer} {byte : UInt8} :
    (framer.step byte).1 = empty framer.limit ↔
      byte = newline ∨ printable? byte = none ∧ framer = empty framer.limit := by
  obtain ⟨limit, held, skipping⟩ := framer
  by_cases ends : byte = newline
  · simp [step, ends]
  · unfold step
    cases printable? byte <;> cases skipping <;> by_cases full : limit ≤ held.length <;>
      simp [ends, full, empty]

/-- Nothing is held exactly if every printable byte is followed by a newline. -/
theorem feed_eq_empty_iff {framer : Framer} {bytes : List UInt8} :
    (framer.feed bytes).1 = empty framer.limit ↔
      EndsLines bytes ∧ (newline ∈ bytes ∨ framer = empty framer.limit) := by
  induction bytes generalizing framer with
  | nil => simp [feed, EndsLines]
  | cons byte rest inductionHypothesis =>
      have later := @inductionHypothesis (framer.step byte).1
      rw [limit_step, step_eq_empty_iff] at later
      change ((framer.step byte).1.feed rest).1 = _ ↔ _
      rw [later, EndsLines, List.mem_cons]
      have dropped : printable? newline = none := rfl
      by_cases own : byte = newline
      · subst own
        simp [dropped]
      · have other : ¬ newline = byte := fun same => own same.symm
        simp only [own, other, false_or]
        grind

/-- Every line takes a byte. -/
theorem length_lines_le (framer : Framer) (bytes : List UInt8) :
    (framer.feed bytes).2.length ≤ bytes.length := by
  induction bytes generalizing framer with
  | nil => exact Nat.le_refl 0
  | cons byte rest inductionHypothesis =>
      have later := inductionHypothesis (framer.step byte).1
      have one : (framer.step byte).2.toList.length ≤ 1 := by
        cases (framer.step byte).2 <;> simp
      change ((framer.step byte).2.toList ++ ((framer.step byte).1.feed rest).2).length ≤ _
      rw [List.length_append, List.length_cons]
      omega

/-- Every line takes a newline. -/
theorem length_lines_le_count (framer : Framer) (bytes : List UInt8) :
    (framer.feed bytes).2.length ≤ bytes.count newline := by
  induction bytes generalizing framer with
  | nil => exact Nat.le_refl 0
  | cons byte rest inductionHypothesis =>
      have later := inductionHypothesis (framer.step byte).1
      have one : (framer.step byte).2.toList.length ≤ if byte == newline then 1 else 0 := by
        by_cases ends : byte = newline
        · cases (framer.step byte).2 <;> simp [ends]
        · simp [framer.lines_step_of_ne ends]
      change ((framer.step byte).2.toList ++ ((framer.step byte).1.feed rest).2).length ≤ _
      rw [List.length_append, List.count_cons]
      omega

/-- What every byte keeps is kept by every chunk, and so it is for the lines that are completed. -/
theorem feed_of_step {holds : Framer → Prop} {fine : String → Prop}
    (kept : ∀ framer, holds framer → ∀ byte,
      holds (framer.step byte).1 ∧ ∀ line ∈ (framer.step byte).2, fine line)
    {framer : Framer} (initially : holds framer) (bytes : List UInt8) :
    holds (framer.feed bytes).1 ∧ ∀ line ∈ (framer.feed bytes).2, fine line := by
  induction bytes generalizing framer with
  | nil => exact ⟨initially, fun _ member => absurd member List.not_mem_nil⟩
  | cons byte rest inductionHypothesis =>
      obtain ⟨next, first⟩ := kept framer initially byte
      obtain ⟨last, later⟩ := inductionHypothesis next
      refine ⟨last, fun line member => ?_⟩
      rcases List.mem_append.mp member with own | other
      · exact first line (Option.mem_toList.mp own)
      · exact later line other

/-- The unfinished line keeps within the limit. -/
structure IsBounded (limit : Nat) (framer : Framer) : Prop where
  limited : framer.limit = limit
  held : framer.held.length ≤ limit

theorem isBounded_empty (limit : Nat) : (empty limit).IsBounded limit := ⟨rfl, Nat.zero_le limit⟩

namespace IsBounded

variable {limit : Nat} {framer : Framer}

theorem reset (bounded : framer.IsBounded limit) : framer.reset.IsBounded limit :=
  ⟨bounded.limited, Nat.zero_le limit⟩

theorem step (bounded : framer.IsBounded limit) (byte : UInt8) :
    (framer.step byte).1.IsBounded limit ∧ ∀ line ∈ (framer.step byte).2, line.length ≤ limit := by
  refine ⟨⟨(framer.limit_step byte).trans bounded.limited, ?_⟩, ?_⟩
  · unfold Framer.step
    split
    · exact Nat.zero_le limit
    · split
      · exact bounded.held
      · split
        · exact bounded.held
        · split
          next => exact Nat.zero_le limit
          next fits =>
            rw [bounded.limited] at fits
            simp only [List.length_append, List.length_singleton]
            omega
  · intro line found
    by_cases inside : byte ≠ newline
    · rw [framer.lines_step_of_ne inside] at found
      contradiction
    · have same : (byte == newline) = true := by simpa using inside
      rw [Framer.step, if_pos same] at found
      dsimp only at found
      split at found
      · contradiction
      · cases found
        rw [String.length_ofList]
        exact bounded.held

/-- No line is longer than the limit. -/
theorem feed (bounded : framer.IsBounded limit) (bytes : List UInt8) :
    (framer.feed bytes).1.IsBounded limit ∧ ∀ line ∈ (framer.feed bytes).2, line.length ≤ limit :=
  feed_of_step (fun _ bounded byte => bounded.step byte) bounded bytes

end IsBounded

/-- The unfinished line keeps within the limit and consists of printable characters. -/
structure IsPlain (limit : Nat) (framer : Framer) : Prop where
  bounded : framer.IsBounded limit
  printable : Text.IsPrintable (String.ofList framer.held)

theorem isPlain_empty (limit : Nat) : (empty limit).IsPlain limit :=
  ⟨isBounded_empty limit, by simp [empty, Text.IsPrintable]⟩

/-- A byte that counts stands for a printable character. -/
theorem printable_of_printable? {byte : UInt8} {character : Char} (found : printable? byte = some character) :
    0x20 ≤ character.toNat ∧ character.toNat ≤ 0x7E := by
  unfold printable? at found
  split at found
  next within =>
    cases found
    simp only [Bool.and_eq_true, decide_eq_true_eq, UInt8.le_iff_toNat_le] at within
    obtain ⟨lower, upper⟩ : 0x20 ≤ byte.toNat ∧ byte.toNat ≤ 0x7E := within
    have valid : byte.toNat.isValidChar := Or.inl (by omega)
    rw [Char.ofNat, dif_pos valid]
    exact ⟨lower, upper⟩
  next => contradiction

namespace IsPlain

variable {limit : Nat} {framer : Framer}

theorem reset (plain : framer.IsPlain limit) : framer.reset.IsPlain limit :=
  ⟨plain.bounded.reset, (isPlain_empty limit).printable⟩

theorem step (plain : framer.IsPlain limit) (byte : UInt8) :
    (framer.step byte).1.IsPlain limit ∧ ∀ line ∈ (framer.step byte).2, Text.IsLine limit line := by
  obtain ⟨bounded, short⟩ := plain.bounded.step byte
  suffices printable : Text.IsPrintable (String.ofList (framer.step byte).1.held) ∧
      ∀ line ∈ (framer.step byte).2, Text.IsPrintable line from
    ⟨⟨bounded, printable.1⟩, fun line found => ⟨printable.2 line found, short line found⟩⟩
  have none : Text.IsPrintable (String.ofList []) := (isPlain_empty limit).printable
  unfold Framer.step
  split
  · refine ⟨none, fun line found => ?_⟩
    dsimp only at found
    split at found
    · contradiction
    · cases found
      exact plain.printable
  · split
    · exact ⟨plain.printable, by simp⟩
    next character known =>
      split
      · exact ⟨plain.printable, by simp⟩
      · split
        · exact ⟨none, by simp⟩
        · refine ⟨fun other member => ?_, by simp⟩
          rw [String.toList_ofList, List.mem_append, List.mem_singleton] at member
          rcases member with held | rfl
          · exact plain.printable other (by rwa [String.toList_ofList])
          · exact printable_of_printable? known

/-- Whatever bytes come in, the lines are printable and no longer than the limit. -/
theorem feed (plain : framer.IsPlain limit) (bytes : List UInt8) :
    (framer.feed bytes).1.IsPlain limit ∧ ∀ line ∈ (framer.feed bytes).2, Text.IsLine limit line :=
  feed_of_step (fun _ plain byte => plain.step byte) plain bytes

end IsPlain

/-- If chunks complete lines, one of them completes the first ones. -/
theorem exists_first_lines {framer : Framer} {chunks : List (List UInt8)}
    (some : (framer.feed chunks.flatten).2 ≠ []) :
    ∃ before chunk behind, chunks = before ++ chunk :: behind ∧
      (framer.feed before.flatten).2 = [] ∧
      ((framer.feed before.flatten).1.feed chunk).2 ≠ [] := by
  induction chunks generalizing framer with
  | nil => contradiction
  | cons first rest inductionHypothesis =>
      by_cases none : (framer.feed first).2 = []
      · rw [List.flatten_cons, feedAppend, none] at some
        obtain ⟨before, chunk, behind, parts, silent, found⟩ := inductionHypothesis some
        refine ⟨first :: before, chunk, behind, by rw [parts]; rfl, ?_, ?_⟩
        · rw [List.flatten_cons, feedAppend, none, silent]
          rfl
        · rw [List.flatten_cons, feedAppend]
          exact found
      · exact ⟨[], first, rest, rfl, rfl, none⟩

end Framer

end DelayGenerator
