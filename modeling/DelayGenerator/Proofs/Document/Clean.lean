/-
This file shows that the document of a snapshot is clean: none of its numbers is below zero, and none of
its texts is an error token or has characters that are not printable.
-/

import DelayGenerator.Proofs.Document.RoundTrip
import DelayGenerator.Proofs.Document.Wire
import DelayGenerator.Proofs.Pulse.Validity
import DelayGenerator.Ticker

namespace DelayGenerator

namespace Json

mutual

/-- All numbers of the value are finite and not below zero, and all its texts can be labels. -/
def IsClean : Json → Prop
  | .null => True
  | .bool _ => True
  | .integer value => 0 ≤ value
  | .number value => value.isTime
  | .text value => Text.IsLabel value
  | .list items => AreClean items
  | .record members => AreCleanMembers members

def AreClean : List Json → Prop
  | [] => True
  | item :: others => item.IsClean ∧ AreClean others

def AreCleanMembers : List (String × Json) → Prop
  | [] => True
  | (name, value) :: others => (Text.IsLabel name ∧ value.IsClean) ∧ AreCleanMembers others

end

end Json

/-- The document of a tick holds nothing that the instrument sends. -/
theorem Tick.isClean_event (tick : Tick) : tick.event.IsClean :=
  ⟨⟨by decide, ⟨by decide, trivial⟩, ⟨by decide, Int.natCast_nonneg tick.count⟩, trivial⟩, trivial⟩

namespace Document

open Json (AreClean readAs readItemsAs reread)

/-- A time converted to microseconds is not below zero, but it may be too great for a number. -/
theorem isBelowZero_toMicros {seconds : Binary64} (time : seconds.isTime) :
    (toMicros seconds).isBelowZero = false := by
  obtain ⟨factor, same, _⟩ := exists_microsPerSecond
  rcases Binary64.eq_finite_of_isTime time with ⟨rank, rfl⟩ | rfl
  · rw [toMicros, same, Binary64.multiply_finite, Binary64.ofRatio]
    split <;> rfl
  · decide +kernel

/-- A reader sees a time in microseconds or, if it is too great for a number, `null`. -/
theorem isClean_toMicros {seconds : Binary64} (time : seconds.isTime) :
    (readAs reread (.number (toMicros seconds))).IsClean := by
  rw [readAs]
  split
  next finite =>
    have micros : (toMicros seconds).isTime := by
      rw [Binary64.isTime, finite, isBelowZero_toMicros time]
      rfl
    exact Json.isTime_reread micros
  next => trivial

theorem isLabel_switchWord (state : Switch) : Text.IsLabel (switchWord state) := by
  cases state <;> decide

theorem isLabel_polarityWord (polarity : Polarity) : Text.IsLabel (polarityWord polarity) := by
  cases polarity <;> decide

theorem isClean_ofOutput {output : Output} (delay : output.delay.isTime) (width : output.width.isTime) :
    (readAs reread (ofOutput output)).IsClean := by
  have checkbox : Text.IsLabel (if output.polarity.isInverted then "true" else "false") := by
    split <;> decide
  exact ⟨⟨by decide, isClean_toMicros delay⟩, ⟨by decide, isClean_toMicros width⟩,
    ⟨by decide, isLabel_polarityWord _⟩, ⟨by decide, checkbox⟩, ⟨by decide, isLabel_switchWord _⟩, trivial⟩

theorem areClean_ofOutputs {outputs : List Output}
    (times : ∀ output ∈ outputs, output.delay.isTime ∧ output.width.isTime) :
    AreClean (readItemsAs reread (outputs.map ofOutput)) := by
  induction outputs with
  | nil => trivial
  | cons output others inductionHypothesis =>
      obtain ⟨delay, width⟩ := times output List.mem_cons_self
      exact ⟨isClean_ofOutput delay width,
        inductionHypothesis fun other member => times other (List.mem_cons_of_mem output member)⟩

/-- The document of a snapshot with proper times and an identity made of labels is clean for its readers. -/
theorem isClean_ofSnapshot {snapshot : Snapshot} (times : snapshot.protocol.IsProper)
    (identification : Text.IsLabel snapshot.identity.identification)
    (description : Text.IsLabel snapshot.identity.description) :
    (readAs reread (ofSnapshot snapshot)).IsClean := by
  have outputs : AreClean (readItemsAs reread (snapshot.protocol.outputs.toList.map ofOutput)) := by
    apply areClean_ofOutputs
    intro output member
    obtain ⟨index, within, rfl⟩ := List.getElem_of_mem member
    exact times.outputs ⟨index, by simpa using within⟩
  have entry : AreClean (readItemsAs reread [.record
      [("index", .integer 0), ("pulses", .list (snapshot.protocol.outputs.toList.map ofOutput))]]) :=
    ⟨⟨⟨by decide, Int.le_refl 0⟩, ⟨by decide, outputs⟩, trivial⟩, trivial⟩
  exact ⟨⟨by decide, identification⟩, ⟨by decide, description⟩,
    ⟨by decide, ⟨by decide, isLabel_switchWord _⟩, ⟨by decide, isClean_toMicros times.interval⟩,
      ⟨by decide, entry⟩, trivial⟩, trivial⟩

/-- What a page shows: a snapshot that is valid, or a placeholder as long as no instrument is connected. -/
def IsShown (limit : Nat) (snapshot : Snapshot) : Prop := snapshot.IsValid limit ∨ snapshot = .placeholder

/-- The text of a snapshot that is shown is read as a clean value. -/
theorem IsShown.exists_parse_encode {limit : Nat} {snapshot : Snapshot} (shown : IsShown limit snapshot) :
    ∃ value, Json.parse (encode snapshot) = .ok value ∧ value.IsClean := by
  refine ⟨readAs reread (ofSnapshot snapshot), parse_encode snapshot, ?_⟩
  rcases shown with valid | rfl
  · exact isClean_ofSnapshot valid.times valid.identity.identification.1 valid.identity.description.1
  · have times : ∀ time ∈ Snapshot.placeholder.protocol.times, time.isTime = true := by decide +kernel
    exact isClean_ofSnapshot times (by decide) (by decide)

end Document

end DelayGenerator
