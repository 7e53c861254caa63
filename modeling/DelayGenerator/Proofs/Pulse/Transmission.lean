/-
This file says what becomes of the settings on their way to the instrument and back: times are
rounded to seven digits by the notation in which they are sent, and everything else arrives as it
is.
-/

import DelayGenerator.Instrument
import DelayGenerator.Proofs.Binary64.Notation
import DelayGenerator.Proofs.Line.Framer
import DelayGenerator.Proofs.Pulse.Setting
import DelayGenerator.Proofs.Text.Blank

namespace DelayGenerator

namespace Text

theorem IsVisible.isPrintable {text : String} (visible : IsVisible text) : IsPrintable text := by
  intro character member
  obtain ⟨low, high⟩ := visible character member
  exact ⟨Nat.le_of_succ_le low, high⟩

end Text

namespace Binary64

theorem visible_of_mem_integerText {value : Int} {character : Char} (member : character ∈ integerText value) :
    0x21 ≤ character.toNat ∧ character.toNat ≤ 0x7E := by
  unfold integerText at member
  split at member
  · rcases List.mem_cons.mp member with rfl | later
    · decide
    · exact Text.visible_of_isDigit (Text.isDigit_of_mem_allDigits later)
  · exact Text.visible_of_isDigit (Text.isDigit_of_mem_allDigits member)

theorem isVisible_scientific (value : Binary64) : Text.IsVisible value.scientific := by
  have signs (negative : Bool) {character : Char} (member : character ∈ sign negative) :
      0x21 ≤ character.toNat ∧ character.toNat ≤ 0x7E := by
    cases negative with
    | false => contradiction
    | true =>
        rw [List.mem_singleton.mp member]
        decide
  cases value with
  | nan => decide
  | infinite negative => cases negative <;> decide
  | finite negative rank =>
      intro character member
      rw [scientific, write, String.toList_ofList] at member
      rcases List.mem_append.mp member with signed | member
      · exact signs negative signed
      · split at member
        · have zero : Text.IsVisible "0.000000E0" := by decide
          exact zero character member
        · dsimp only at member
          simp only [List.mem_append, List.mem_cons] at member
          rcases member with ((whole | rfl | fraction) | rfl | exponent)
          · exact Text.visible_of_isDigit (Text.isDigit_of_mem_lastDigits whole)
          · decide
          · exact Text.visible_of_isDigit (Text.isDigit_of_mem_lastDigits fraction)
          · decide
          · exact visible_of_mem_integerText exponent

/-- The power of ten at the top of a number has at most three digits. -/
theorem top_multiple_range (rank : Fin finiteCount) :
    -399 ≤ top (multiple rank) one ∧ top (multiple rank) one ≤ 700 := by
  have high : Nat.pow 2 (2045 + 53) < 10 ^ 700 := by decide +kernel
  have unit : one < 10 ^ 400 := by decide +kernel
  have size : multiple rank < Nat.pow 2 (2045 + 53) :=
    lt_of_lt_of_eq (strictMono_multiple (show rank.val < (2045 + 2) * octaveSize from rank.isLt))
      (multiple_octave 2045)
  have above : (Text.allDigits (multiple rank / one)).length ≤ 700 :=
    (Text.length_allDigits_le_iff (by decide)).mpr
      (Nat.lt_of_le_of_lt (Nat.div_le_self _ _) (Nat.lt_trans size high))
  have below : (Text.allDigits (one / multiple rank)).length ≤ 400 :=
    (Text.length_allDigits_le_iff (by decide)).mpr (Nat.lt_of_le_of_lt (Nat.div_le_self _ _) unit)
  unfold top
  split <;> omega

/-- Written times are short. -/
theorem length_scientific_le (value : Binary64) : value.scientific.length ≤ 14 := by
  have signs (negative : Bool) : (sign negative).length ≤ 1 := by cases negative <;> decide
  cases value with
  | nan => decide
  | infinite negative => cases negative <;> decide
  | finite negative rank =>
      rw [scientific, write, String.length_ofList, List.length_append]
      split
      · have signed := signs negative
        change (sign negative).length + 10 ≤ 14
        omega
      · obtain ⟨low, high⟩ := top_multiple_range rank
        have range : -406 ≤ (rounded 7 rank).exponent ∧ (rounded 7 rank).exponent ≤ 694 := by
          unfold rounded
          dsimp only
          split <;> dsimp only <;> omega
        have short : (integerText ((rounded 7 rank).exponent + 6)).length ≤ 4 := by
          have digits : (Text.allDigits ((rounded 7 rank).exponent + 6).natAbs).length ≤ 3 :=
            (Text.length_allDigits_le_iff (by decide)).mpr (by omega)
          unfold integerText
          split
          · exact Nat.succ_le_succ digits
          · exact Nat.le_succ_of_le digits
        have signed := signs negative
        simp only [List.length_append, List.length_cons, Text.lengthLastDigits]
        omega

/-- The time as which a time arrives. -/
def transmitted (value : Binary64) : Binary64 := (ofText? value.scientific).getD value

section

variable {value : Binary64}

theorem ofText?_scientific (time : value.isTime) : ofText? value.scientific = some value.transmitted := by
  obtain ⟨read, parsed, _⟩ := exists_ofText?_of_isTime time
  rw [transmitted, parsed]
  rfl

theorem isTime_transmitted (time : value.isTime) : value.transmitted.isTime = true := by
  obtain ⟨read, parsed, timeToo, _⟩ := exists_ofText?_of_isTime time
  rw [transmitted, parsed]
  exact timeToo

/-- What has arrived is sent on as it has arrived. -/
theorem scientific_transmitted (time : value.isTime) : value.transmitted.scientific = value.scientific := by
  obtain ⟨read, parsed, _, same⟩ := exists_ofText?_of_isTime time
  rw [transmitted, parsed]
  exact same

theorem transmitted_transmitted (time : value.isTime) : value.transmitted.transmitted = value.transmitted := by
  have again := ofText?_scientific (isTime_transmitted time)
  rw [scientific_transmitted time, ofText?_scientific time] at again
  exact (Option.some.inj again).symm

end

end Binary64

namespace Quantity

/-- The argument with which a directive sets a quantity. -/
def argument : (quantity : Quantity) → quantity.Value → String
  | .state, value => value.token
  | .width, value => value.scientific
  | .delay, value => value.scientific
  | .polarity, value => value.token

/-- The reply that reports a quantity. -/
def report : (quantity : Quantity) → quantity.Value → String
  | .state, value => Instrument.switchReport value
  | .width, value => value.scientific
  | .delay, value => value.scientific
  | .polarity, value => value.token

/-- What arrives of a value. -/
def transmitted : (quantity : Quantity) → quantity.Value → quantity.Value
  | .state, value => value
  | .width, value => value.transmitted
  | .delay, value => value.transmitted
  | .polarity, value => value

/-- Times are to be finite and not below zero. -/
def IsProper : (quantity : Quantity) → quantity.Value → Prop
  | .state, _ => True
  | .width, value => value.isTime
  | .delay, value => value.isTime
  | .polarity, _ => True

end Quantity

theorem Switch.isVisible_token (switch : Switch) : Text.IsVisible switch.token := by
  cases switch <;> decide

theorem Polarity.isVisible_token (polarity : Polarity) : Text.IsVisible polarity.token := by
  cases polarity <;> decide

theorem Quantity.isVisible_argument (quantity : Quantity) (value : quantity.Value) :
    Text.IsVisible (quantity.argument value) := by
  cases quantity with
  | state => exact value.isVisible_token
  | width => exact value.isVisible_scientific
  | delay => exact value.isVisible_scientific
  | polarity => exact value.isVisible_token

/-- The output as it arrives. -/
def Output.transmitted (output : Output) : Output :=
  { output with delay := output.delay.transmitted, width := output.width.transmitted }

theorem Output.quantity_transmitted (output : Output) (quantity : Quantity) :
    output.transmitted.quantity quantity = quantity.transmitted (output.quantity quantity) := by
  cases quantity <;> rfl

/-- The protocol as it arrives. -/
def Protocol.transmitted (protocol : Protocol) : Protocol :=
  { protocol with
    outputs := protocol.outputs.map Output.transmitted
    interval := protocol.interval.transmitted }

/-- The delays and widths of a protocol, and its interval. -/
def Protocol.times (protocol : Protocol) : List Binary64 :=
  protocol.interval :: protocol.outputs.toList.flatMap fun output => [output.delay, output.width]

/-- All times of a protocol are finite and not below zero. -/
def Protocol.IsProper (protocol : Protocol) : Prop := ∀ time ∈ protocol.times, time.isTime = true

namespace Protocol

variable {protocol : Protocol}

-- Here the bounds are given by hand: brackets would make each module name a lemma of its own for them.
theorem isProper_iff : protocol.IsProper ↔ protocol.interval.isTime = true ∧
    ∀ index : Fin outputCount, (getElem protocol.outputs index index.isLt).delay.isTime = true ∧
      (getElem protocol.outputs index index.isLt).width.isTime = true := by
  constructor
  · intro proper
    refine ⟨proper _ List.mem_cons_self, fun index => ?_⟩
    have inside : protocol.outputs[index] ∈ protocol.outputs.toList := by simp
    refine ⟨proper _ (List.mem_cons_of_mem _ ?_), proper _ (List.mem_cons_of_mem _ ?_)⟩ <;>
      exact List.mem_flatMap.mpr ⟨_, inside, by simp⟩
  · rintro ⟨interval, outputs⟩ time member
    rcases List.mem_cons.mp member with rfl | member
    · exact interval
    · obtain ⟨output, inside, own⟩ := List.mem_flatMap.mp member
      obtain ⟨index, inRange, rfl⟩ := List.getElem_of_mem inside
      have inRange : index < outputCount := by simpa using inRange
      obtain ⟨delay, width⟩ := outputs ⟨index, inRange⟩
      simp only [List.mem_cons, List.not_mem_nil, or_false] at own
      rcases own with rfl | rfl
      · exact delay
      · exact width

theorem IsProper.interval (proper : protocol.IsProper) : protocol.interval.isTime = true :=
  (isProper_iff.mp proper).1

theorem IsProper.outputs (proper : protocol.IsProper) (index : Fin outputCount) :
    (getElem protocol.outputs index index.isLt).delay.isTime = true ∧
      (getElem protocol.outputs index index.isLt).width.isTime = true :=
  (isProper_iff.mp proper).2 index

theorem IsProper.quantity (proper : protocol.IsProper) (index : Fin outputCount) (quantity : Quantity) :
    quantity.IsProper ((getElem protocol.outputs index index.isLt).quantity quantity) := by
  obtain ⟨delay, width⟩ := proper.outputs index
  cases quantity with
  | state => trivial
  | width => exact width
  | delay => exact delay
  | polarity => trivial

theorem transmitted_outputs (protocol : Protocol) (index : Fin outputCount) :
    getElem protocol.transmitted.outputs index index.isLt =
      (getElem protocol.outputs index index.isLt).transmitted :=
  Vector.getElem_map Output.transmitted index.isLt

/-- What has arrived is proper. -/
theorem IsProper.transmitted (proper : protocol.IsProper) : protocol.transmitted.IsProper := by
  refine isProper_iff.mpr ⟨Binary64.isTime_transmitted proper.interval, fun index => ?_⟩
  rw [transmitted_outputs]
  obtain ⟨delay, width⟩ := proper.outputs index
  exact ⟨Binary64.isTime_transmitted delay, Binary64.isTime_transmitted width⟩

/-- A protocol that has arrived once arrives as it is. -/
theorem IsProper.transmitted_transmitted (proper : protocol.IsProper) :
    protocol.transmitted.transmitted = protocol.transmitted := by
  have interval := Binary64.transmitted_transmitted proper.interval
  have outputs : protocol.transmitted.transmitted.outputs = protocol.transmitted.outputs := by
    apply Vector.ext
    intro index inRange
    obtain ⟨delay, width⟩ := proper.outputs ⟨index, inRange⟩
    have same : protocol.outputs[index].transmitted.transmitted = protocol.outputs[index].transmitted := by
      rw [Output.transmitted, Output.transmitted]
      exact congrArg₂ (fun delay width => { protocol.outputs[index] with delay, width })
        (Binary64.transmitted_transmitted delay) (Binary64.transmitted_transmitted width)
    simpa [Protocol.transmitted] using same
  rw [Protocol.mk.injEq]
  exact ⟨outputs, rfl, interval⟩

end Protocol

end DelayGenerator
