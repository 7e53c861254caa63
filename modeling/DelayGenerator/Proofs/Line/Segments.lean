/-
This file shows that the framer cuts the reply stream where newlines stand, and nowhere else: the lines are the
segments between newlines, in whatever chunks the bytes come in.
-/

import DelayGenerator.Proofs.Line.Framer

namespace DelayGenerator

/-- ASCII decodes byte by byte. -/
theorem Text.decodeUtf8_of_ascii {bytes : List UInt8} (ascii : ∀ byte ∈ bytes, byte < 0x80) :
    decodeUtf8 bytes = String.ofList (bytes.map fun byte => Char.ofNat byte.toNat) := by
  have characters : decodeUtf8With none bytes = bytes.map fun byte => Char.ofNat byte.toNat := by
    induction bytes with
    | nil => rfl
    | cons byte rest inductionHypothesis =>
        have later := inductionHypothesis fun other member => ascii other (List.mem_cons_of_mem byte member)
        rw [decodeUtf8With, if_pos (ascii byte List.mem_cons_self), later, List.map_cons]
  rw [decodeUtf8, characters]

namespace Framer

/-- Whether a byte counts: printable ASCII. -/
def isShown (byte : UInt8) : Bool := 0x20 ≤ byte && byte ≤ 0x7E

/-- The bytes of a segment that count. -/
def shown (segment : List UInt8) : List UInt8 := segment.filter isShown

/-- The segments of the bytes that newlines end. -/
def ended (bytes : List UInt8) : List (List UInt8) := (bytes.splitOn newline).dropLast

/-- The bytes behind the last newline. -/
def unfinished (bytes : List UInt8) : List UInt8 := (bytes.splitOn newline).getLastD []

/-- The lines that bytes make: what counts of each segment that a newline ends, unless it is too much. -/
def linesOf (limit : Nat) (bytes : List UInt8) : List String :=
  (((ended bytes).map shown).filter fun line => line.length ≤ limit).map Text.decodeUtf8

/-- The framer in the middle of a line, as the bytes of this line tell it. -/
def midway (limit : Nat) (line : List UInt8) : Framer :=
  if (shown line).length ≤ limit then ⟨limit, (shown line).map fun byte => Char.ofNat byte.toNat, false⟩
  else ⟨limit, [], true⟩

theorem midway_nil (limit : Nat) : midway limit [] = empty limit := if_pos (Nat.zero_le limit)

theorem printable?_of_isShown {byte : UInt8} (counts : isShown byte = true) :
    printable? byte = some (Char.ofNat byte.toNat) := if_pos counts

theorem printable?_of_not_isShown {byte : UInt8} (dropped : isShown byte = false) :
    printable? byte = none := by
  unfold printable?
  rw [if_neg]
  exact Bool.eq_false_iff.mp dropped

theorem decodeUtf8_shown (segment : List UInt8) :
    Text.decodeUtf8 (shown segment) =
      String.ofList ((shown segment).map fun byte => Char.ofNat byte.toNat) := by
  apply Text.decodeUtf8_of_ascii
  intro byte member
  have counts := (List.mem_filter.mp member).2
  simp only [isShown, Bool.and_eq_true, decide_eq_true_eq, UInt8.le_iff_toNat_le] at counts
  have upper : byte.toNat ≤ 0x7E := counts.2
  exact UInt8.lt_iff_toNat_lt.mpr (Nat.lt_of_le_of_lt upper (by decide))

/-- A byte that ends no line belongs to the line under way. -/
theorem step_midway {limit : Nat} {byte : UInt8} (inside : byte ≠ newline) (line : List UInt8) :
    (midway limit line).step byte = (midway limit (line ++ [byte]), none) := by
  have other : (byte == newline) = false := by simpa using inside
  cases counts : isShown byte with
  | false =>
      have same : shown (line ++ [byte]) = shown line := by simp [shown, counts]
      have stays : midway limit (line ++ [byte]) = midway limit line := by rw [midway, same, midway]
      rw [stays]
      unfold step
      rw [other, printable?_of_not_isShown counts]
      rfl
  | true =>
      have more : shown (line ++ [byte]) = shown line ++ [byte] := by simp [shown, counts]
      have length : (shown line ++ [byte]).length = (shown line).length + 1 := List.length_append
      unfold step
      rw [other, printable?_of_isShown counts, midway, midway, more, length]
      by_cases room : (shown line).length < limit
      · have fits : ¬ limit ≤ (shown line).length := Nat.not_le_of_lt room
        simp [Nat.le_of_lt room, Nat.succ_le_of_lt room, fits]
      · have full : limit ≤ (shown line).length := Nat.not_lt.mp room
        have long : ¬ (shown line).length + 1 ≤ limit := room
        by_cases exact : (shown line).length ≤ limit <;> simp [exact, long, full]

/-- A newline ends the line under way. -/
theorem step_midway_newline (limit : Nat) (line : List UInt8) :
    (midway limit line).step newline = (midway limit [],
      if (shown line).length ≤ limit then some (Text.decodeUtf8 (shown line)) else none) := by
  rw [midway_nil, decodeUtf8_shown]
  unfold step midway
  by_cases fits : (shown line).length ≤ limit <;> simp [fits]

/-- Bytes behind the beginning of a line complete the lines that they make together with it. -/
theorem feed_midway {limit : Nat} {line : List UInt8} (inside : newline ∉ line) (bytes : List UInt8) :
    (midway limit line).feed bytes =
      (midway limit (unfinished (line ++ bytes)), linesOf limit (line ++ bytes)) := by
  induction bytes generalizing line with
  | nil =>
      have one : line.splitOn newline = [line] := List.splitOn_eq_singleton inside
      rw [List.append_nil, unfinished, linesOf, ended, one]
      rfl
  | cons byte rest inductionHypothesis =>
      by_cases ends : byte = newline
      · subst ends
        have cut : (line ++ newline :: rest).splitOn newline = line :: rest.splitOn newline :=
          List.splitOn_append_cons_self_of_not_mem inside rest
        have some : rest.splitOn newline ≠ [] := List.splitOn_ne_nil newline rest
        have last : unfinished (line ++ newline :: rest) = unfinished rest := by
          rw [unfinished, cut, unfinished]
          cases split : rest.splitOn newline with
          | nil => exact absurd split some
          | cons first others => rfl
        have before : ended (line ++ newline :: rest) = line :: ended rest := by
          rw [ended, cut, List.dropLast_cons_of_ne_nil some, ended]
        have later := @inductionHypothesis [] List.not_mem_nil
        rw [List.nil_append] at later
        simp only [feed, step_midway_newline, later, last, linesOf, before, List.map_cons, List.filter_cons]
        by_cases fits : (shown line).length ≤ limit <;> simp [fits]
      · have further : newline ∉ line ++ [byte] := by
          rw [List.mem_append, List.mem_singleton]
          rintro (early | same)
          · exact inside early
          · exact ends same.symm
        have later := inductionHypothesis further
        rw [List.append_assoc, List.singleton_append] at later
        simp [feed, step_midway ends, later]

/-- What comes to a framer: the next chunk of bytes, or a reset. -/
inductive Input where
  | chunk (bytes : List UInt8)
  | reset

/-- Takes an input and gives the lines that it completes. -/
def take (framer : Framer) : Input → Framer × List String
  | .chunk bytes => framer.feed bytes
  | .reset => (framer.reset, [])

/-- Takes inputs one after another and gives all lines. -/
def takeAll (framer : Framer) : List Input → Framer × List String
  | [] => (framer, [])
  | input :: rest =>
    let (next, lines) := framer.take input
    let (last, others) := next.takeAll rest
    (last, lines ++ others)

/-- The bytes from each reset to the next one, whatever their chunks: those before the first reset come first,
those since the latest one last. -/
def rounds : List Input → List (List UInt8)
  | [] => [[]]
  | .chunk bytes :: rest => (rounds rest).modifyHead (bytes ++ ·)
  | .reset :: rest => [] :: rounds rest

/-- The bytes since the latest reset. -/
def latest (inputs : List Input) : List UInt8 := (rounds inputs).getLastD []

theorem rounds_ne_nil (inputs : List Input) : rounds inputs ≠ [] := by
  induction inputs with
  | nil => exact List.cons_ne_nil _ _
  | cons input rest inductionHypothesis =>
      cases input with
      | reset => exact List.cons_ne_nil _ _
      | chunk bytes =>
          obtain ⟨first, others, same⟩ := List.exists_cons_of_ne_nil inductionHypothesis
          rw [rounds, same]
          exact List.cons_ne_nil _ _

/-- What inputs come to depends on the rounds alone; `bytes` have come in since the latest reset before. -/
theorem takeAll_feed (limit : Nat) (bytes : List UInt8) (inputs : List Input) :
    (((empty limit).feed bytes).1.takeAll inputs).1 =
        ((empty limit).feed (((rounds inputs).modifyHead (bytes ++ ·)).getLastD [])).1 ∧
      ((empty limit).feed bytes).2 ++ (((empty limit).feed bytes).1.takeAll inputs).2 =
        ((rounds inputs).modifyHead (bytes ++ ·)).flatMap fun round => ((empty limit).feed round).2 := by
  induction inputs generalizing bytes with
  | nil => simp [takeAll, rounds]
  | cons input rest inductionHypothesis =>
      cases input with
      | chunk more =>
          have later := inductionHypothesis (bytes ++ more)
          rw [feedAppend] at later
          have joined : ((rounds rest).modifyHead (more ++ ·)).modifyHead (bytes ++ ·) =
              (rounds rest).modifyHead (bytes ++ more ++ ·) := by
            rw [List.modifyHead_modifyHead]
            congr 1
            funext round
            exact (List.append_assoc bytes more round).symm
          simp only [takeAll, take, rounds, joined]
          rw [← List.append_assoc]
          exact later
      | reset =>
          have fresh : ((empty limit).feed bytes).1.reset = ((empty limit).feed []).1 := by
            rw [reset, limit_feed]
            rfl
          have later := inductionHypothesis []
          have same : (rounds rest).modifyHead ([] ++ ·) = rounds rest := congrFun List.modifyHead_id _
          rw [same] at later
          obtain ⟨first, others, parts⟩ := List.exists_cons_of_ne_nil (rounds_ne_nil rest)
          simp only [takeAll, take, rounds, fresh, List.modifyHead_cons, List.flatMap_cons, List.append_nil,
            List.nil_append]
          refine ⟨later.1.trans ?_, ?_⟩
          · rw [parts]
            rfl
          · rw [← later.2]
            rfl

/-- What a framer makes of its inputs, told by the bytes between resets alone. -/
structure CutsAtNewlines (limit : Nat) (inputs : List Input) : Prop where
  /-- In every round each segment that a newline ends becomes a line, unless too much of it counts. -/
  lines : ((empty limit).takeAll inputs).2 = (rounds inputs).flatMap (linesOf limit)
  /-- What counts of the unfinished segment is held, unless it is too much already. -/
  pending : ((empty limit).takeAll inputs).1.pending =
    if (shown (unfinished (latest inputs))).length ≤ limit then (shown (unfinished (latest inputs))).length else 0
  within : ((empty limit).takeAll inputs).1.pending ≤ limit
  /-- In which chunks the bytes come in does not matter. -/
  chunking : ∀ others : List Input, rounds others = rounds inputs →
    (empty limit).takeAll others = (empty limit).takeAll inputs

/-- In whatever chunks bytes come in, and whenever the framer is reset, it cuts the bytes at newlines. -/
theorem cutsAtNewlines (limit : Nat) (inputs : List Input) : CutsAtNewlines limit inputs := by
  have whole (bytes : List UInt8) :
      (empty limit).feed bytes = (midway limit (unfinished bytes), linesOf limit bytes) := by
    rw [← midway_nil]
    exact feed_midway List.not_mem_nil bytes
  have takes (inputs : List Input) : (empty limit).takeAll inputs =
      (midway limit (unfinished (latest inputs)), (rounds inputs).flatMap (linesOf limit)) := by
    have same : (rounds inputs).modifyHead ([] ++ ·) = rounds inputs := congrFun List.modifyHead_id _
    obtain ⟨last, lines⟩ := takeAll_feed limit [] inputs
    rw [same] at last lines
    refine Prod.ext (last.trans ?_) (lines.trans ?_)
    · rw [whole, latest]
    · simp only [whole]
  have pending : ((empty limit).takeAll inputs).1.pending =
      if (shown (unfinished (latest inputs))).length ≤ limit then (shown (unfinished (latest inputs))).length
      else 0 := by
    rw [takes, Framer.pending, midway]
    split
    · exact List.length_map _
    · rfl
  refine ⟨by rw [takes], pending, ?_, fun others same => ?_⟩
  · rw [pending]
    split
    next fits => exact fits
    next => exact Nat.zero_le limit
  · rw [takes, takes, latest, latest, same]

/-- A reset in the middle of a line that is too long: what comes later begins a new line. -/
example : (empty 2).takeAll [.chunk [0x61, 0x62, 0x0D], .chunk [0x63], .reset, .chunk [0x64, newline, newline]] =
    (empty 2, ["d", ""]) := by decide +kernel

end Framer

end DelayGenerator
