/-
This file says how the times of a document look when they are sent: written without a sign in front,
except for minus zero.
-/

import DelayGenerator.Proofs.Binary64.Scientific
import DelayGenerator.Proofs.Document.Snapshot
import DelayGenerator.Proofs.Json.Results
import DelayGenerator.Proofs.Pulse.Transmission

namespace DelayGenerator

namespace Document

open Binary64 (zero multiple one)

theorem exists_microsPerSecond :
    ∃ rank : Fin finiteCount, microsPerSecond = .finite false rank ∧ rank.val ≠ 0 ∧
      multiple rank = 1000000 * one :=
  ⟨⟨1041 * octaveSize + 1000000 * 2 ^ 33, by decide +kernel⟩, by decide +kernel⟩

/-- A time in microseconds is one in seconds, and minus zero if and only if it has been. -/
theorem isTime_toSeconds {micros : Binary64} (time : micros.isTime) :
    (toSeconds micros).isTime ∧ (toSeconds micros = zero true ↔ micros = zero true) := by
  obtain ⟨divisor, same, some, size⟩ := exists_microsPerSecond
  have quotient (negative : Bool) (rank : Fin finiteCount) :
      toSeconds (.finite negative rank) = .ofRatio negative (multiple rank) (1000000 * one) := by
    rw [toSeconds, same, Binary64.divide_finite negative rank some, size]
  rcases Binary64.eq_finite_of_isTime time with ⟨rank, rfl⟩ | rfl
  · have inRange : Binary64.nearestRank (multiple rank) (1000000 * one) < finiteCount := by
      have positive := Binary64.one_pos
      have less : multiple rank < multiple finiteCount := Binary64.strictMono_multiple rank.isLt
      have bound : multiple rank * one ≤ multiple finiteCount * one := Nat.mul_le_mul_right _ less.le
      have large : one ≤ multiple finiteCount * one := Nat.le_mul_of_pos_left _ (by omega)
      refine Binary64.nearestRank_lt_finiteCount (by omega) ?_
      rw [Nat.mul_left_comm (multiple finiteCount)]
      omega
    rw [quotient, Binary64.ofRatio, dif_pos inRange]
    exact ⟨rfl, iff_of_false (Binary64.finite_ne_minusZero _) (Binary64.finite_ne_minusZero rank)⟩
  · have none : toSeconds (zero true) = zero true := by
      rw [zero, quotient]
      decide +kernel
    rw [none]
    exact ⟨rfl, Iff.rfl⟩

/-- The times of the pulse are finite and not below zero. -/
structure PulseForm.HasTimes (form : PulseForm) : Prop where
  delay : ∀ value ∈ form.delay, value.isTime
  width : ∀ value ∈ form.width, value.isTime

def EntryForm.HasTimes (form : EntryForm) : Prop := ∀ pulse ∈ form.pulses, pulse.HasTimes

structure ProtocolForm.HasTimes (form : ProtocolForm) : Prop where
  interval : ∀ value ∈ form.interval, value.isTime
  entries : ∀ entry ∈ form.entries, entry.HasTimes

open Json (Layout)
open Json.Decoder (gives_true)

theorem time_eq_ok_iff {scalar : Json.Scalar} {value : Binary64} :
    time scalar = .ok value ↔ microsecondsOf scalar = .ok value ∧ value.isTime := by
  unfold time
  cases microsecondsOf scalar with
  | error refusal => simp [bind, Except.bind]
  | ok micros =>
      simp only [bind, Except.bind, Except.ok.injEq]
      constructor
      · intro same
        split at same
        next isTime =>
          cases same
          exact ⟨rfl, isTime⟩
        next => contradiction
      · rintro ⟨rfl, isTime⟩
        rw [if_pos isTime]

/-- A field gives minus zero as a number or as a text, but not as a whole number. -/
theorem time_eq_minusZero_iff (scalar : Json.Scalar) :
    time scalar = .ok (zero true) ↔
      scalar = .number (zero true) ∨
        ∃ text, scalar = .text text ∧ Binary64.ofText? (Text.trim text) = some (zero true) := by
  have isTime : (zero true).isTime = true := rfl
  have whole := Binary64.ofInt_ne_minusZero
  rw [time_eq_ok_iff, and_iff_left isTime]
  generalize zero true = target at whole ⊢
  cases scalar with
  | bool value => simp [microsecondsOf]
  | integer value => simp [microsecondsOf, whole value]
  | number value => simp [microsecondsOf]
  | text value =>
      cases given : Binary64.ofText? (Text.trim value) with
      | none => simp [microsecondsOf, given]
      | some number => simp [microsecondsOf, given]

/-- A field that is a time is left out, or it is finite and not below zero. -/
theorem gives_time : (field time).Gives fun result => ∀ value ∈ result, value.isTime := by
  refine (gives_true _).refine fun {given result} _ accepted => ?_
  split at accepted
  · cases accepted
    simp
  · split at accepted
    · cases accepted
      simp
    · split at accepted
      next value taken =>
        cases accepted
        simpa using (time_eq_ok_iff.mp taken).2
      next => contradiction

theorem gives_pulse : pulseLayout.decoder.Gives PulseForm.HasTimes := by
  refine Layout.gives_decoder (fun field member => ?_) ⟨by simp [pulseLayout], by simp [pulseLayout]⟩
  simp only [pulseLayout, List.mem_cons, List.not_mem_nil, or_false] at member
  rcases member with rfl | rfl | rfl | rfl | rfl
  · exact gives_time.field fun isTime form => ⟨isTime, form.width⟩
  · exact gives_time.field fun isTime form => ⟨form.delay, isTime⟩
  all_goals exact (gives_true _).field fun _ form => ⟨form.delay, form.width⟩

theorem gives_entry : entryLayout.decoder.Gives EntryForm.HasTimes := by
  refine Layout.gives_decoder (fun field member => ?_) (by simp [entryLayout, EntryForm.HasTimes])
  simp only [entryLayout, List.mem_cons, List.not_mem_nil, or_false] at member
  rcases member with rfl | rfl
  · exact (gives_true _).field fun _ form => form
  · exact gives_pulse.list.field fun pulses _ => pulses

theorem gives_protocol : protocolLayout.decoder.Gives ProtocolForm.HasTimes := by
  refine Layout.gives_decoder (fun field member => ?_) ⟨by simp [protocolLayout], by simp [protocolLayout]⟩
  simp only [protocolLayout, List.mem_cons, List.not_mem_nil, or_false] at member
  rcases member with rfl | rfl | rfl
  · exact (gives_true _).field fun _ form => ⟨form.interval, form.entries⟩
  · exact gives_time.field fun isTime form => ⟨isTime, form.entries⟩
  · exact gives_entry.list.field fun entries form => ⟨form.interval, entries⟩

/-- All times of a decoded document are finite and not below zero, those that the snapshot leaves
out as well. -/
theorem gives_snapshot : snapshotLayout.decoder.Gives fun form => form.protocol.HasTimes := by
  refine Layout.gives_decoder (fun field member => ?_)
    ⟨by simp [snapshotLayout, protocolLayout], by simp [snapshotLayout, protocolLayout]⟩
  simp only [snapshotLayout, List.mem_cons, List.not_mem_nil, or_false] at member
  rcases member with rfl | rfl | rfl
  · exact (gives_true _).field fun _ form => form
  · exact (gives_true _).field fun _ form => form
  · refine Json.Field.Keeps.required (gives_protocol.field ?_)
    exact fun protocol _ => protocol

/-- The times in microseconds that become settings. -/
def PulseForm.times (form : PulseForm) : List Binary64 := form.delay.toList ++ form.width.toList

def ProtocolForm.times (form : ProtocolForm) : List Binary64 :=
  form.interval.toList ++
    match form.selected? with
    | none => []
    | some entry => (entry.pulses.take outputCount).flatMap PulseForm.times

end Document

/-- The times of an output. -/
def Output.times (output : Output) : List Binary64 := [output.delay, output.width]

namespace Directive

/-- The directive sets a time: its text is a heading and the time. -/
inductive SetsTime : Directive → (heading : String) → (seconds : Binary64) → Prop
  | delay (channel : Nat) (seconds : Binary64) :
      SetsTime (.delay channel seconds) (address channel ++ "DELAY ") seconds
  | width (channel : Nat) (seconds : Binary64) :
      SetsTime (.width channel seconds) (address channel ++ "WIDTH ") seconds
  | period (seconds : Binary64) : SetsTime (.period seconds) (address 0 ++ "PER ") seconds

theorem SetsTime.text_eq {directive : Directive} {heading : String} {seconds : Binary64}
    (sets : directive.SetsTime heading seconds) : directive.text = heading ++ seconds.scientific := by
  cases sets <;> rfl

/-- The directives of a protocol set its times and no others. -/
theorem exists_setsTime_iff {protocol : Protocol} {seconds : Binary64} :
    (∃ directive ∈ ofProtocol protocol, ∃ heading, directive.SetsTime heading seconds) ↔
      seconds ∈ protocol.times := by
  rw [Protocol.times, List.mem_cons, List.mem_flatMap]
  constructor
  · rintro ⟨directive, member, heading, sets⟩
    rcases List.mem_append.mp member with output | last
    · obtain ⟨group, inside, own⟩ := List.mem_flatten.mp output
      obtain ⟨index, within, rfl⟩ := List.mem_mapIdx.mp inside
      refine Or.inr ⟨_, List.getElem_mem within, ?_⟩
      simp only [forOutput, List.mem_cons, List.not_mem_nil, or_false] at own
      rcases own with rfl | rfl | rfl | rfl <;> cases sets
      · exact List.mem_cons_self
      · exact List.mem_cons_of_mem _ List.mem_cons_self
    · simp only [List.mem_cons, List.not_mem_nil, or_false] at last
      rcases last with rfl | rfl | rfl <;> cases sets
      exact Or.inl rfl
  · rintro (rfl | ⟨output, member, same⟩)
    · exact ⟨_, by simp [ofProtocol], _, .period _⟩
    · obtain ⟨index, within, rfl⟩ := List.mem_iff_getElem.mp member
      have group : forOutput (channel index) protocol.outputs.toList[index] ∈
          protocol.outputs.toList.mapIdx fun index output => forOutput (channel index) output :=
        List.mem_mapIdx.mpr ⟨index, within, rfl⟩
      have among {directive : Directive}
          (own : directive ∈ forOutput (channel index) protocol.outputs.toList[index]) :
          directive ∈ ofProtocol protocol :=
        List.mem_append_left _ (List.mem_flatten.mpr ⟨_, group, own⟩)
      simp only [List.mem_cons, List.not_mem_nil, or_false] at same
      rcases same with rfl | rfl
      · exact ⟨delay (channel index) _, among (by simp [forOutput]), _, .delay _ _⟩
      · exact ⟨width (channel index) _, among (by simp [forOutput]), _, .width _ _⟩

end Directive

namespace Document

open Binary64 (zero)

theorem PulseForm.mem_times_output {form : PulseForm} {seconds : Binary64}
    (member : seconds ∈ form.output.times) :
    seconds = zero false ∨ ∃ micros ∈ form.times, seconds = toSeconds micros := by
  have given (value : Option Binary64) :
      toSeconds (value.getD (zero false)) = zero false ∨
        ∃ micros ∈ value.toList, toSeconds (value.getD (zero false)) = toSeconds micros := by
    cases value with
    | none => exact Or.inl (by decide +kernel)
    | some micros => exact Or.inr ⟨micros, by simp, rfl⟩
  simp only [Output.times, List.mem_cons, List.not_mem_nil, or_false] at member
  rcases member with rfl | rfl
  · exact (given form.delay).imp_right fun ⟨micros, own, same⟩ => ⟨micros, List.mem_append_left _ own, same⟩
  · exact (given form.width).imp_right fun ⟨micros, own, same⟩ => ⟨micros, List.mem_append_right _ own, same⟩

theorem PulseForm.toSeconds_mem_times {form : PulseForm} {micros : Binary64} (member : micros ∈ form.times) :
    toSeconds micros ∈ form.output.times := by
  rcases List.mem_append.mp member with delay | width
  · rw [Option.mem_toList] at delay
    simp [Output.times, PulseForm.output, delay]
  · rw [Option.mem_toList] at width
    simp [Output.times, PulseForm.output, width]

/-- The settings that no time of the document becomes. -/
def defaultTimes : List Binary64 := [zero false, Protocol.defaultInterval]

/-- Each time of the settings is a time of the document or has its default. -/
theorem ProtocolForm.mem_times_protocol {form : ProtocolForm} {seconds : Binary64}
    (member : seconds ∈ form.protocol.times) :
    seconds ∈ defaultTimes ∨ ∃ micros ∈ form.times, seconds = toSeconds micros := by
  rcases List.mem_cons.mp member with rfl | output
  · cases given : form.interval with
    | none => exact Or.inl (by simp [ProtocolForm.protocol, given, defaultTimes])
    | some micros =>
        refine Or.inr ⟨micros, ?_, ?_⟩
        · simp [ProtocolForm.times, given]
        · simp [ProtocolForm.protocol, given]
  · obtain ⟨output, inside, own⟩ := List.mem_flatMap.mp output
    obtain ⟨index, within, rfl⟩ := List.mem_iff_getElem.mp inside
    have idle (own : seconds ∈ Output.idle.times) : seconds ∈ defaultTimes := by
      simp only [Output.times, Output.idle, List.mem_cons, List.not_mem_nil, or_false, or_self] at own
      exact own ▸ List.mem_cons_self
    rw [Vector.length_toList] at within
    simp only [ProtocolForm.protocol, Vector.getElem_toList, Vector.getElem_ofFn, ProtocolForm.output] at own
    cases selected : form.selected? with
    | none =>
        rw [selected] at own
        exact Or.inl (idle own)
    | some entry =>
        rw [selected] at own
        dsimp only at own
        cases found : entry.pulses[index]? with
        | none =>
            rw [found] at own
            exact Or.inl (idle own)
        | some pulse =>
            rw [found] at own
            have among : pulse ∈ entry.pulses.take outputCount :=
              List.mem_of_getElem? (by rw [List.getElem?_take_of_lt within, found])
            rcases PulseForm.mem_times_output own with rfl | ⟨micros, given, same⟩
            · exact Or.inl List.mem_cons_self
            · refine Or.inr ⟨micros, ?_, same⟩
              simp only [ProtocolForm.times, selected]
              exact List.mem_append_right _ (List.mem_flatMap.mpr ⟨pulse, among, given⟩)

/-- The times of the interval and of the selected pulses become settings. -/
theorem ProtocolForm.toSeconds_mem_times {form : ProtocolForm} {micros : Binary64}
    (member : micros ∈ form.times) : toSeconds micros ∈ form.protocol.times := by
  rcases List.mem_append.mp member with interval | pulses
  · rw [Option.mem_toList] at interval
    exact List.mem_cons.mpr (Or.inl (by simp [ProtocolForm.protocol, interval]))
  · split at pulses
    next => contradiction
    next entry selected =>
      obtain ⟨pulse, among, own⟩ := List.mem_flatMap.mp pulses
      obtain ⟨index, found⟩ := List.mem_iff_getElem?.mp among
      rw [List.getElem?_take] at found
      split at found
      next within =>
        have output : form.output index = pulse.output := by simp [ProtocolForm.output, selected, found]
        refine List.mem_cons_of_mem _ (List.mem_flatMap.mpr ⟨form.output index, ?_, ?_⟩)
        · simp only [ProtocolForm.protocol, Vector.toList_ofFn, List.mem_ofFn]
          exact ⟨⟨index, within⟩, rfl⟩
        · rw [output]
          exact PulseForm.toSeconds_mem_times own
      next => contradiction

theorem ProtocolForm.mem_of_selected? {form : ProtocolForm} {entry : EntryForm}
    (selected : form.selected? = some entry) : entry ∈ form.entries := by
  unfold ProtocolForm.selected? at selected
  cases found : form.entries.find? fun entry => entry.index.getD 0 == 0 with
  | some other =>
      rw [found] at selected
      cases selected
      exact List.mem_of_find?_eq_some found
  | none =>
      rw [found] at selected
      exact List.mem_of_head? selected

theorem ProtocolForm.HasTimes.isTime {form : ProtocolForm} (times : form.HasTimes) {micros : Binary64}
    (member : micros ∈ form.times) : micros.isTime := by
  rcases List.mem_append.mp member with interval | pulses
  · exact times.interval micros (Option.mem_toList.mp interval)
  · split at pulses
    next => contradiction
    next entry selected =>
      obtain ⟨pulse, among, own⟩ := List.mem_flatMap.mp pulses
      have pulseTimes := times.entries entry (ProtocolForm.mem_of_selected? selected) pulse
        (List.mem_of_mem_take among)
      rcases List.mem_append.mp own with delay | width
      · exact pulseTimes.delay micros (Option.mem_toList.mp delay)
      · exact pulseTimes.width micros (Option.mem_toList.mp width)

section

variable {form : ProtocolForm} (times : form.HasTimes)
include times

/-- All settings are finite and not below zero. -/
theorem ProtocolForm.HasTimes.isProper : form.protocol.IsProper := by
  intro seconds member
  rcases ProtocolForm.mem_times_protocol member with default | ⟨micros, given, rfl⟩
  · have all : ∀ seconds ∈ defaultTimes, seconds.isTime = true := by decide +kernel
    exact all seconds default
  · exact (isTime_toSeconds (times.isTime given)).1

/-- A setting is minus zero if and only if it is given as minus zero. -/
theorem ProtocolForm.HasTimes.minusZero_mem_iff :
    zero true ∈ form.protocol.times ↔ zero true ∈ form.times := by
  constructor
  · intro member
    rcases ProtocolForm.mem_times_protocol member with default | ⟨micros, given, same⟩
    · have none : zero true ∉ defaultTimes := by decide +kernel
      exact absurd default none
    · rwa [(isTime_toSeconds (times.isTime given)).2.mp same.symm] at given
  · intro given
    have isTime : (zero true).isTime = true := rfl
    rw [← (isTime_toSeconds isTime).2.mpr rfl]
    exact ProtocolForm.toSeconds_mem_times given

end

/-- How the times of a document are sent. -/
structure SendsTimes (form : SnapshotForm) : Prop where
  /-- A directive that sets a time is a heading with the time, written without a sign in front unless
  it is minus zero. -/
  written : ∀ directive ∈ Directive.ofProtocol form.snapshot.protocol, ∀ heading seconds,
    directive.SetsTime heading seconds →
      ∃ argument, directive.text = heading ++ argument ∧
        (seconds ≠ zero true ∧ Text.IsUnsignedTime argument ∨
          seconds = zero true ∧ argument = "-0.000000E0")
  /-- All are without a sign if and only if no time that becomes a setting is given as minus zero. -/
  unsigned_iff :
    (∀ directive ∈ Directive.ofProtocol form.snapshot.protocol, ∀ heading seconds,
      directive.SetsTime heading seconds → Text.IsUnsignedTime seconds.scientific) ↔
        zero true ∉ form.protocol.times

/-- Whatever document is accepted, its times are sent without a sign in front, except that a time
given as minus zero is sent as one. -/
theorem sendsTimes {text : String} {snapshot : Snapshot} (decoded : decode text = .ok snapshot) :
    ∃ form, snapshotLayout.decoder.decodeText text = .ok form ∧ snapshot = form.snapshot ∧ SendsTimes form := by
  obtain ⟨form, read, same⟩ := Json.of_bind decoded
  have times := gives_snapshot.decodeText read
  have isTime {directive : Directive} {heading : String} {seconds : Binary64}
      (member : directive ∈ Directive.ofProtocol form.snapshot.protocol)
      (sets : directive.SetsTime heading seconds) : seconds.isTime :=
    times.isProper _ (Directive.exists_setsTime_iff.mp ⟨directive, member, heading, sets⟩)
  refine ⟨form, read, (Except.ok.inj same).symm, ⟨?_, ?_⟩⟩
  · intro directive member heading seconds sets
    refine ⟨_, sets.text_eq, ?_⟩
    by_cases minusZero : seconds = zero true
    · exact Or.inr ⟨minusZero, minusZero ▸ Binary64.scientific_minusZero⟩
    · exact Or.inl ⟨minusZero, (Binary64.isUnsignedTime_scientific_iff (isTime member sets)).mpr minusZero⟩
  · rw [← times.minusZero_mem_iff]
    constructor
    · intro unsigned member
      obtain ⟨directive, among, heading, sets⟩ := Directive.exists_setsTime_iff.mpr member
      exact (Binary64.isUnsignedTime_scientific_iff (isTime among sets)).mp (unsigned _ among _ _ sets) rfl
    · intro none directive member heading seconds sets
      refine (Binary64.isUnsignedTime_scientific_iff (isTime member sets)).mpr ?_
      rintro rfl
      exact none (Directive.exists_setsTime_iff.mp ⟨directive, member, heading, sets⟩)

/-- A delay below zero that is too small for a number of the format is accepted and sent as minus
zero. -/
theorem sendsTimes_minusZero :
    ∃ text snapshot, decode text = .ok snapshot ∧
      ":PULSE1:DELAY -0.000000E0" ∈ (Directive.ofProtocol snapshot.protocol).map Directive.text ∧
      ∃ form, snapshotLayout.decoder.decodeText text = .ok form ∧ snapshot = form.snapshot ∧
        SendsTimes form := by
  let text := "\x7b\"protocols\":\x7b\"protocol\":[\x7b\"pulses\":[\x7b\"delay\":\"-1e-400\"\x7d]\x7d]\x7d\x7d"
  have holds : (match decode text with
      | .ok snapshot => decide (":PULSE1:DELAY -0.000000E0" ∈
          (Directive.ofProtocol snapshot.protocol).map Directive.text)
      | .error _ => false) = true := by decide +kernel
  cases decoded : decode text with
  | error error => simp only [decoded, Bool.false_eq_true] at holds
  | ok snapshot =>
      simp only [decoded, decide_eq_true_eq] at holds
      exact ⟨text, snapshot, decoded, holds, sendsTimes decoded⟩

end Document

end DelayGenerator
