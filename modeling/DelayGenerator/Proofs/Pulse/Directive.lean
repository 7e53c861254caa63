/-
This file shows that the directives of a protocol reach the instrument as they are: none of their texts
ends with a line end, which would be taken away before the command is sent.
-/

import DelayGenerator.Proofs.Text.Blank
import DelayGenerator.Pulse.Directive

namespace DelayGenerator

namespace Text

/-- The text has an end that is no line end. -/
def EndsInLine (text : String) : Prop := text ≠ "" ∧ stripLineEnd text = text

theorem EndsInLine.append (first : String) {second : String} (ends : EndsInLine second) :
    EndsInLine (first ++ second) := by
  obtain ⟨some, kept⟩ := ends
  have some : second.toList ≠ [] := fun none => some (String.toList_eq_nil_iff.mp none)
  constructor
  · intro none
    have lists := congrArg String.toList none
    rw [String.toList_append] at lists
    exact some (List.append_eq_nil_iff.mp lists).2
  · rw [stripLineEnd] at kept ⊢
    have lists := congrArg String.toList kept
    rw [String.toList_ofList] at lists
    rw [String.toList_append, dropTrailing_append _ lists some, ← String.toList_append,
      String.ofList_toList]

theorem endsInLine_ofList (first : List Char) {second : List Char} (some : second ≠ [])
    (plain : ∀ character ∈ second, character ≠ '\r' ∧ character ≠ '\n') :
    EndsInLine (String.ofList (first ++ second)) := by
  have kept : dropTrailing (fun character => character == '\r' || character == '\n') second =
      second := by
    apply dropTrailing_of_forall
    intro character member
    obtain ⟨noReturn, noNewline⟩ := plain character member
    simp [noReturn, noNewline]
  constructor
  · intro none
    have lists := congrArg String.toList none
    rw [String.toList_ofList] at lists
    exact some (List.append_eq_nil_iff.mp lists).2
  · rw [stripLineEnd, String.toList_ofList, dropTrailing_append _ kept some]

/-- Decimal digits are no line ends. -/
theorem plain_of_mem_allDigits {value : Nat} {character : Char} (member : character ∈ allDigits value) :
    character ≠ '\r' ∧ character ≠ '\n' := by
  have isDigit := Nat.isDigit_of_mem_toDigits (by decide) (by decide) member
  constructor
  · rintro rfl
    contradiction
  · rintro rfl
    contradiction

end Text

namespace Binary64

theorem integerText_ne_nil (value : Int) : integerText value ≠ [] := by
  unfold integerText
  split
  · exact List.cons_ne_nil _ _
  · exact Nat.toDigits_ne_nil

theorem plain_of_mem_integerText {value : Int} {character : Char} (member : character ∈ integerText value) :
    character ≠ '\r' ∧ character ≠ '\n' := by
  unfold integerText at member
  split at member
  · rcases List.mem_cons.mp member with rfl | later
    · decide
    · exact Text.plain_of_mem_allDigits later
  · exact Text.plain_of_mem_allDigits member

theorem endsInLine_scientific (value : Binary64) : Text.EndsInLine value.scientific := by
  cases value with
  | nan => exact ⟨by decide, by decide⟩
  | infinite negative => exact Text.endsInLine_ofList _ (by simp) (by simp)
  | finite negative rank =>
      rw [scientific, write]
      split
      · exact Text.endsInLine_ofList _ (by simp) (by simp)
      · dsimp only
        rw [← List.append_assoc, List.append_cons, ← List.append_assoc]
        exact Text.endsInLine_ofList _ (integerText_ne_nil _) fun _ => plain_of_mem_integerText

end Binary64

namespace Directive

/-- A directive has no line end at its end, unless it names a source that has one. -/
theorem endsInLine_text {directive : Directive}
    (sources : ∀ channel source, directive = sync channel source → Text.EndsInLine source) :
    Text.EndsInLine directive.text := by
  cases directive with
  | state channel value =>
      have token : Text.EndsInLine value.token := by cases value <;> exact ⟨by decide, by decide⟩
      exact token.append _
  | polarity channel value =>
      have token : Text.EndsInLine value.token := by cases value <;> exact ⟨by decide, by decide⟩
      exact token.append _
  | delay channel seconds => exact (Binary64.endsInLine_scientific seconds).append _
  | width channel seconds => exact (Binary64.endsInLine_scientific seconds).append _
  | sync channel source => exact (sources channel source rfl).append _
  | period seconds => exact (Binary64.endsInLine_scientific seconds).append _
  | unlockKeypad => exact ⟨by decide, by decide⟩
  | factoryReset => exact ⟨by decide, by decide⟩

/-- Every directive of a protocol is sent as it is. -/
theorem stripLineEnd_text {protocol : Protocol} {directive : Directive}
    (member : directive ∈ ofProtocol protocol) : Text.stripLineEnd directive.text = directive.text := by
  refine (endsInLine_text fun channel source same => ?_).2
  subst same
  rcases List.mem_append.mp member with output | last
  · obtain ⟨group, inside, own⟩ := List.mem_flatten.mp output
    obtain ⟨index, within, rfl⟩ := List.mem_mapIdx.mp inside
    simp [forOutput] at own
  · simp [startTrigger] at last

/-- A text that begins with another one differs from a text that does not. -/
theorem append_ne_of_take {beginning text : String}
    (differ : beginning.toList ≠ text.toList.take beginning.toList.length) (ending : String) :
    beginning ++ ending ≠ text := by
  rintro rfl
  apply differ
  rw [String.toList_append, List.take_left]

theorem dropLast_ofProtocol (protocol : Protocol) :
    (ofProtocol protocol).dropLast =
      (protocol.outputs.toList.mapIdx fun index output => forOutput (channel index) output).flatten ++
        [period protocol.interval, unlockKeypad] := by
  rw [ofProtocol, List.dropLast_append_of_ne_nil (by simp)]
  rfl

/-- No other directive of a protocol is written like the last one. -/
theorem text_ne_startTrigger {protocol : Protocol} {directive : Directive}
    (member : directive ∈ (ofProtocol protocol).dropLast) : directive.text ≠ startTrigger.text := by
  rw [dropLast_ofProtocol] at member
  rcases List.mem_append.mp member with output | other
  · obtain ⟨group, inside, own⟩ := List.mem_flatten.mp output
    obtain ⟨index, within, rfl⟩ := List.mem_mapIdx.mp inside
    rw [Vector.length_toList] at within
    -- The channel of an output is not that of the trigger.
    have numbered : ∀ index < outputCount, (address (channel index)).toList ≠
        startTrigger.text.toList.take (address (channel index)).toList.length := by
      decide
    have differs := append_ne_of_take (numbered index within)
    simp only [forOutput, List.mem_cons, List.not_mem_nil, or_false] at own
    rcases own with rfl | rfl | rfl | rfl
    all_goals
      rw [text, String.append_assoc]
      exact differs _
  · simp only [List.mem_cons, List.not_mem_nil, or_false] at other
    rcases other with rfl | rfl
    · exact append_ne_of_take (by decide) _
    · decide

theorem startTrigger_mem (protocol : Protocol) : startTrigger ∈ ofProtocol protocol := by
  simp [ofProtocol]

/-- A protocol has several directives, the last of which is unlike the others. -/
theorem exists_ofProtocol_eq (protocol : Protocol) :
    ∃ first spoken, ofProtocol protocol = first :: (spoken ++ [startTrigger]) ∧
      ∀ directive ∈ first :: spoken, Text.stripLineEnd directive.text ≠ startTrigger.text := by
  have whole : (ofProtocol protocol).dropLast ++ [startTrigger] = ofProtocol protocol := by
    rw [dropLast_ofProtocol, List.append_assoc]
    rfl
  cases others : (ofProtocol protocol).dropLast with
  | nil =>
      rw [others, List.nil_append] at whole
      have inside : unlockKeypad ∈ ofProtocol protocol := by simp [ofProtocol]
      rw [← whole, List.mem_singleton] at inside
      contradiction
  | cons first spoken =>
      rw [others] at whole
      refine ⟨first, spoken, whole.symm, ?_⟩
      intro directive member
      rw [← others] at member
      rw [stripLineEnd_text (List.dropLast_subset _ member)]
      exact text_ne_startTrigger member

end Directive

end DelayGenerator
