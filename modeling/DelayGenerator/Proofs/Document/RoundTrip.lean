/-
This file reads back the documents of snapshots.
-/

import DelayGenerator.Proofs.Document.Snapshot
import DelayGenerator.Proofs.Json.Written

namespace DelayGenerator.Document

open Json (Fits FitItems NamesOnce readAs readAs_integer readAs_text readAs_list readAs_record readItemsAs
  readItemsAs_eq_map readMembersAs reread)

mutual

/-- The value of a snapshot gives its numbers as they are. -/
theorem readable_eq : (value : Json) → readable value = readAs id value
  | .null => rfl
  | .bool _ => rfl
  | .integer _ => rfl
  | .number _ => rfl
  | .text _ => rfl
  | .list items => congrArg Json.list (readableItems_eq items)
  | .record members => congrArg Json.record (readableMembers_eq members)

theorem readableItems_eq : (items : List Json) → readableItems items = readItemsAs id items
  | [] => rfl
  | item :: others => congrArg₂ List.cons (readable_eq item) (readableItems_eq others)

theorem readableMembers_eq :
    (members : List (String × Json)) → readableMembers members = readMembersAs id members
  | [] => rfl
  | (name, value) :: others =>
    congrArg₂ (fun first rest => (name, first) :: rest) (readable_eq value) (readableMembers_eq others)

end

section

variable {take : Binary64 → Binary64}

/-- Every time is taken for a time. -/
def KeepsTimes (take : Binary64 → Binary64) : Prop := ∀ value : Binary64, value.isTime → (take value).isTime

theorem time_fromValue (keeps : KeepsTimes take) {value : Binary64} (isTime : value.isTime) :
    (field time).fromValue (readAs take (.number value)) = .ok (some (take value)) := by
  have finite := Binary64.isTimeFinite isTime
  have taken : time (.number (take value)) = .ok (take value) := by
    simp only [time, microsecondsOf, bind, Except.bind, keeps value isTime, if_true]
  rw [readAs, if_pos finite]
  simp [field, scalar, Json.Decoder.refine, Json.Decoder.option, Json.Decoder.value, scalar?, isEmpty, taken,
    bind, Except.bind]

theorem switch_fromValue (state : Switch) :
    (field switch).fromValue (readAs take (.text (switchWord state))) = .ok (some state) := by
  cases state <;> rfl

theorem polarity_fromValue (given : Polarity) :
    (field polarity).fromValue (readAs take (.text (polarityWord given))) = .ok (some given) := by
  cases given <;> rfl

/-- The checkbox says the same as the word for the polarity. -/
theorem inverted_fromValue (given : Polarity) :
    (field polarity).fromValue (readAs take (.text (if given.isInverted then "true" else "false"))) =
      .ok (some given) := by
  cases given <;> rfl

theorem index_fromValue : (field index).fromValue (readAs take (.integer 0)) = .ok (some 0) := rfl

end

/-- The snapshot with every time converted to microseconds, taken for another one there and converted back, and all
else as it is. -/
def exchangedAs (take : Binary64 → Binary64) (snapshot : Snapshot) : Snapshot :=
  { snapshot with
    protocol :=
      { snapshot.protocol with
        outputs := snapshot.protocol.outputs.map fun output =>
          { output with
            delay := toSeconds (take (toMicros output.delay))
            width := toSeconds (take (toMicros output.width)) }
        interval := toSeconds (take (toMicros snapshot.protocol.interval)) } }

/-- The snapshot with every time converted to microseconds and back, and all else as it is. -/
def exchanged (snapshot : Snapshot) : Snapshot := exchangedAs id snapshot

/-- In microseconds every time of the snapshot is still finite and not below zero. -/
structure HasTimes (snapshot : Snapshot) : Prop where
  delay : ∀ output ∈ snapshot.protocol.outputs, (toMicros output.delay).isTime
  width : ∀ output ∈ snapshot.protocol.outputs, (toMicros output.width).isTime
  interval : (toMicros snapshot.protocol.interval).isTime

section

variable {take : Binary64 → Binary64}

/-- An output as its document gives it in a form. -/
def pulseForm (take : Binary64 → Binary64) (output : Output) : PulseForm :=
  ⟨some (take (toMicros output.delay)), some (take (toMicros output.width)), some output.polarity,
    some output.polarity, some output.state⟩

/-- A snapshot as its document gives it in a form. -/
def snapshotForm (take : Binary64 → Binary64) (snapshot : Snapshot) : SnapshotForm :=
  ⟨snapshot.identity.identification, snapshot.identity.description, some snapshot.protocol.state,
    some (take (toMicros snapshot.protocol.interval)),
    [⟨some 0, snapshot.protocol.outputs.toList.map (pulseForm take)⟩]⟩

theorem pulse_fromValue (keeps : KeepsTimes take) {output : Output} (isDelay : (toMicros output.delay).isTime)
    (isWidth : (toMicros output.width).isTime) :
    pulseLayout.decoder.fromValue (readAs take (ofOutput output)) = .ok (pulseForm take output) := by
  rw [ofOutput, readAs]
  simp only [readMembersAs]
  change pulseLayout.membersFromValues [] _ _ = _
  simp [Json.Layout.membersFromValues, Json.Layout.field?, pulseLayout, Json.Field.of,
    time_fromValue keeps isDelay, time_fromValue keeps isWidth, switch_fromValue, polarity_fromValue,
    inverted_fromValue, bind, Except.bind, Json.Layout.complete, pulseForm]

/-- The pulses of all outputs, as a form gives them. -/
theorem pulses_fromValue (keeps : KeepsTimes take) {outputs : List Output}
    (areDelays : ∀ output ∈ outputs, (toMicros output.delay).isTime)
    (areWidths : ∀ output ∈ outputs, (toMicros output.width).isTime) :
    pulseLayout.decoder.list.fromValue (readAs take (.list (outputs.map ofOutput))) =
      .ok (outputs.map (pulseForm take)) := by
  rw [readAs]
  change pulseLayout.decoder.itemsFromValues _ = _
  induction outputs with
  | nil => rfl
  | cons output others inductionHypothesis =>
      have pulse :=
        pulse_fromValue keeps (areDelays output List.mem_cons_self) (areWidths output List.mem_cons_self)
      have later := inductionHypothesis (fun output member => areDelays output (List.mem_cons_of_mem _ member))
        fun output member => areWidths output (List.mem_cons_of_mem _ member)
      rw [List.map_cons, List.map_cons, readItemsAs, Json.Decoder.itemsFromValues, pulse, later]
      rfl

theorem entry_fromValue (keeps : KeepsTimes take) {outputs : List Output}
    (areDelays : ∀ output ∈ outputs, (toMicros output.delay).isTime)
    (areWidths : ∀ output ∈ outputs, (toMicros output.width).isTime) :
    entryLayout.decoder.fromValue
        (readAs take (.record [("index", .integer 0), ("pulses", .list (outputs.map ofOutput))])) =
      .ok ⟨some 0, outputs.map (pulseForm take)⟩ := by
  rw [readAs]
  simp only [readMembersAs]
  change entryLayout.membersFromValues [] _ _ = _
  simp [Json.Layout.membersFromValues, Json.Layout.field?, entryLayout, Json.Field.of, index_fromValue,
    pulses_fromValue keeps areDelays areWidths, bind, Except.bind, Json.Layout.complete]

/-- The document of a snapshot gives it in a form. -/
theorem snapshot_fromValue (keeps : KeepsTimes take) {snapshot : Snapshot} (hasTimes : HasTimes snapshot) :
    snapshotLayout.decoder.fromValue (readAs take (ofSnapshot snapshot)) = .ok (snapshotForm take snapshot) := by
  have entry := entry_fromValue keeps
    (fun output member => hasTimes.delay output (Vector.mem_toList_iff.mp member))
    fun output member => hasTimes.width output (Vector.mem_toList_iff.mp member)
  have entries : entryLayout.decoder.list.fromValue (readAs take (.list [.record
      [("index", .integer 0), ("pulses", .list (snapshot.protocol.outputs.toList.map ofOutput))]])) =
      .ok [⟨some 0, snapshot.protocol.outputs.toList.map (pulseForm take)⟩] := by
    rw [readAs]
    simp only [readItemsAs, Json.Decoder.list, Json.Decoder.itemsFromValues, entry, bind, Except.bind]
  have protocol : protocolLayout.decoder.fromValue (readAs take (.record
      [("state", .text (switchWord snapshot.protocol.state)),
        ("interval", .number (toMicros snapshot.protocol.interval)),
        ("protocol", .list [.record
          [("index", .integer 0), ("pulses", .list (snapshot.protocol.outputs.toList.map ofOutput))]])])) =
      .ok (snapshotForm take snapshot).protocol := by
    rw [readAs]
    simp only [readMembersAs]
    change protocolLayout.membersFromValues [] _ _ = _
    simp [Json.Layout.membersFromValues, Json.Layout.field?, protocolLayout, Json.Field.of, switch_fromValue,
      time_fromValue keeps hasTimes.interval, entries, bind, Except.bind, Json.Layout.complete, snapshotForm]
  have given (text : String) : Json.Decoder.text.fromValue (readAs take (.text text)) = .ok text := rfl
  rw [ofSnapshot, readAs]
  simp only [readMembersAs]
  change snapshotLayout.membersFromValues [] _ _ = _
  simp [Json.Layout.membersFromValues, Json.Layout.field?, snapshotLayout, Json.Field.of, Json.Field.required,
    given, protocol, bind, Except.bind, Json.Layout.complete, snapshotForm]

theorem snapshot_snapshotForm (take : Binary64 → Binary64) (snapshot : Snapshot) :
    (snapshotForm take snapshot).snapshot = exchangedAs take snapshot := by
  have outputs : (snapshotForm take snapshot).protocol.protocol.outputs =
      (exchangedAs take snapshot).protocol.outputs := by
    ext index bound : 1
    have some : (snapshot.protocol.outputs.toList.map (pulseForm take))[index]? =
        .some (pulseForm take snapshot.protocol.outputs[index]) := by simp [bound]
    change ((Vector.ofFn fun index =>
      (snapshotForm take snapshot).protocol.output index.val) : Vector Output _)[index] = _
    rw [Vector.getElem_ofFn]
    change (((snapshot.protocol.outputs.toList.map (pulseForm take))[index]?).map PulseForm.output).getD
      Output.idle = _
    rw [some, exchangedAs, Vector.getElem_map]
    rfl
  rw [SnapshotForm.snapshot, exchangedAs, Snapshot.mk.injEq]
  exact ⟨rfl, Protocol.mk.injEq .. |>.mpr ⟨outputs, rfl, rfl⟩⟩

theorem names_readMembersAs (members : List (String × Json)) :
    (readMembersAs take members).map Prod.fst = members.map Prod.fst := by
  induction members with
  | nil => rfl
  | cons member rest inductionHypothesis =>
      rw [readMembersAs, List.map_cons, List.map_cons, inductionHypothesis]

end

mutual

theorem namesOnce_readAs (take : Binary64 → Binary64) :
    (value : Json) → value.NamesOnce → (readAs take value).NamesOnce
  | .null, _ => trivial
  | .bool _, _ => trivial
  | .integer _, _ => trivial
  | .number value, _ => by
    rw [readAs]
    split <;> exact trivial
  | .text _, _ => trivial
  | .list items, once => namesOnce_readItemsAs take items once
  | .record members, once =>
    ⟨(names_readMembersAs members).symm ▸ once.1, namesOnce_readMembersAs take members once.2⟩

theorem namesOnce_readItemsAs (take : Binary64 → Binary64) :
    (items : List Json) → Json.NamesOnceInItems items → Json.NamesOnceInItems (readItemsAs take items)
  | [], _ => trivial
  | item :: others, once => ⟨namesOnce_readAs take item once.1, namesOnce_readItemsAs take others once.2⟩

theorem namesOnce_readMembersAs (take : Binary64 → Binary64) :
    (members : List (String × Json)) → Json.NamesOnceInMembers members →
      Json.NamesOnceInMembers (readMembersAs take members)
  | [], _ => trivial
  | (_, value) :: others, once => ⟨namesOnce_readAs take value once.1, namesOnce_readMembersAs take others once.2⟩

end

theorem namesOnce_ofOutput (output : Output) : (ofOutput output).NamesOnce :=
  ⟨by simp, trivial, trivial, trivial, trivial, trivial, trivial⟩

theorem namesOnce_ofSnapshot (snapshot : Snapshot) : (ofSnapshot snapshot).NamesOnce := by
  have outputs : Json.NamesOnceInItems (snapshot.protocol.outputs.toList.map ofOutput) := by
    rw [Json.namesOnceInItems_iff]
    intro item member
    obtain ⟨output, _, rfl⟩ := List.mem_map.mp member
    exact namesOnce_ofOutput output
  have entry : NamesOnce (.record
      [("index", .integer 0), ("pulses", .list (snapshot.protocol.outputs.toList.map ofOutput))]) :=
    ⟨by simp, trivial, outputs, trivial⟩
  exact ⟨by simp, trivial, trivial, ⟨by simp, trivial, trivial, ⟨entry, trivial⟩, trivial⟩, trivial⟩

/-- Two levels of depth suffice for an output, and six for a snapshot. -/
theorem fits_ofOutput (output : Output) {depth : Nat} (deep : 1 < depth) : (ofOutput output).Fits depth :=
  ⟨deep, trivial, trivial, trivial, trivial, trivial, trivial⟩

theorem fits_ofSnapshot (snapshot : Snapshot) : (ofSnapshot snapshot).Fits Json.depthLimit := by
  have outputs : Json.FitItems 123 (snapshot.protocol.outputs.toList.map ofOutput) := by
    rw [Json.fitItems_iff]
    intro item member
    obtain ⟨output, _, rfl⟩ := List.mem_map.mp member
    exact fits_ofOutput output (by decide)
  have entry : Json.Fits 125 (.record
      [("index", .integer 0), ("pulses", .list (snapshot.protocol.outputs.toList.map ofOutput))]) :=
    ⟨by decide, ⟨by decide, by decide⟩, ⟨by decide, outputs⟩, trivial⟩
  exact ⟨by decide, trivial, trivial,
    ⟨by decide, trivial, trivial, ⟨by decide, entry, trivial⟩, trivial⟩, trivial⟩

/-- The text of a document denotes its value, with the numbers that their texts are read as. -/
theorem parse_encode (snapshot : Snapshot) :
    Json.parse (encode snapshot) = .ok (readAs reread (ofSnapshot snapshot)) :=
  Json.parse_pretty (fits_ofSnapshot snapshot)

/-- Something that holds of every time of a snapshot in microseconds. -/
structure OfTimes (holds : Binary64 → Prop) (snapshot : Snapshot) : Prop where
  delay : ∀ output ∈ snapshot.protocol.outputs, holds (toMicros output.delay)
  width : ∀ output ∈ snapshot.protocol.outputs, holds (toMicros output.width)
  interval : holds (toMicros snapshot.protocol.interval)

/-- Every time is read back from its text without a loss. -/
def IsLossless (snapshot : Snapshot) : Prop := OfTimes (fun value => reread value = value) snapshot

/-- Times of which a document shows few digits are read back without a loss. -/
theorem isLossless_of_isShort {snapshot : Snapshot} (short : OfTimes Json.IsShort snapshot) :
    IsLossless snapshot where
  delay output member := Json.reread_of_isShort (short.delay output member)
  width output member := Json.reread_of_isShort (short.width output member)
  interval := Json.reread_of_isShort short.interval

theorem IsLossless.readAs_ofSnapshot {snapshot : Snapshot} (lossless : IsLossless snapshot) :
    readAs reread (ofSnapshot snapshot) = readable (ofSnapshot snapshot) := by
  have number {value : Binary64} (same : reread value = value) :
      readAs reread (.number value) = readAs id (.number value) := by rw [readAs, readAs, same, id]
  have outputs : (snapshot.protocol.outputs.toList.map ofOutput).map (readAs reread) =
      (snapshot.protocol.outputs.toList.map ofOutput).map (readAs id) := by
    rw [List.map_map, List.map_map]
    refine List.map_congr_left fun output member => ?_
    have member := Vector.mem_toList_iff.mp member
    simp only [Function.comp_apply, ofOutput, readAs_record, readMembersAs, readAs_text,
      number (lossless.delay output member), number (lossless.width output member)]
  simp only [readable_eq, ofSnapshot, readAs_record, readAs_list, readMembersAs, readItemsAs, readAs_text,
    readAs_integer, number lossless.interval, readItemsAs_eq_map, outputs]

section

variable {snapshot : Snapshot}

/-- A text that denotes the document, with its numbers taken in some way, gives the snapshot. -/
theorem HasTimes.decode_of_parse {take : Binary64 → Binary64} (hasTimes : HasTimes snapshot) (keeps : KeepsTimes take)
    {text : String} (parsed : Json.parse text = .ok (readAs take (ofSnapshot snapshot))) :
    decode text = .ok (exchangedAs take snapshot) := by
  have taken := snapshot_fromValue keeps hasTimes
  rw [decode, (isConsistent_snapshot.decodeText_eq_ok_iff parsed _).mpr taken]
  exact congrArg Except.ok (snapshot_snapshotForm take snapshot)

theorem HasTimes.decodeValue_encodeValue (hasTimes : HasTimes snapshot) :
    decodeValue (encodeValue snapshot) = .ok (exchanged snapshot) := by
  have keeps : KeepsTimes id := fun _ isTime => isTime
  have taken := snapshot_fromValue keeps hasTimes
  have once := namesOnce_readAs id _ (namesOnce_ofSnapshot snapshot)
  rw [← readable_eq] at taken once
  have sorted := (isOrderless_snapshotLayout.decoder once).eq_ok_iff _ |>.mpr taken
  rw [decodeValue, encodeValue, (isOrderless_snapshotLayout.decoder.decodeValue (once.sorted _) _).mpr sorted]
  exact congrArg Except.ok (snapshot_snapshotForm id snapshot)

end

/-- A snapshot of which every time has a value in microseconds is read back from its value with every time converted
there and back, and from its text if its times survive being printed and parsed, as times of few digits do. Then the
text denotes the value. -/
theorem HasTimes.decode_encode {snapshot : Snapshot} (hasTimes : HasTimes snapshot) :
    decode (encode snapshot) = .ok (exchangedAs reread snapshot) ∧
      decodeValue (encodeValue snapshot) = .ok (exchanged snapshot) ∧
      (OfTimes Json.IsShort snapshot → IsLossless snapshot) ∧
      (IsLossless snapshot →
        decode (encode snapshot) = .ok (exchanged snapshot) ∧
          (Json.parse (encode snapshot)).map Json.sorted = .ok (encodeValue snapshot)) := by
  have text := hasTimes.decode_of_parse (fun _ => Json.isTime_reread) (parse_encode snapshot)
  refine ⟨text, hasTimes.decodeValue_encodeValue, isLossless_of_isShort, fun lossless => ?_⟩
  have parsed := parse_encode snapshot
  rw [lossless.readAs_ofSnapshot] at parsed
  have value : (Json.parse (encode snapshot)).map Json.sorted = .ok (encodeValue snapshot) := by
    rw [parsed]
    rfl
  rw [readable_eq] at parsed
  exact ⟨hasTimes.decode_of_parse (fun _ isTime => isTime) parsed, value⟩

/-- An instrument with inverted pulses of one and a half seconds, a quarter of a millisecond late. -/
def lateSnapshot : Snapshot where
  identity := ⟨"BNC,565-8c,ΔT", "\n\"8\""⟩
  protocol :=
    { Protocol.idle with
      outputs := Vector.replicate outputCount ⟨.ofDecimal 25 (-5), .ofDecimal 15 (-1), .inverted, .on⟩ }

/-- The late pulses are read back from their value and from their text. -/
theorem HasTimes.decode_encode_late :
    HasTimes lateSnapshot ∧ IsLossless lateSnapshot ∧
      decode (encode lateSnapshot) = .ok (exchanged lateSnapshot) ∧
      decodeValue (encodeValue lateSnapshot) = .ok (exchanged lateSnapshot) ∧
      (Json.parse (encode lateSnapshot)).map Json.sorted = .ok (encodeValue lateSnapshot) := by
  have hasTimes : HasTimes lateSnapshot := ⟨by decide +kernel, by decide +kernel, by decide +kernel⟩
  have lossless : IsLossless lateSnapshot := ⟨by decide +kernel, by decide +kernel, by decide +kernel⟩
  obtain ⟨_, value, _, text⟩ := hasTimes.decode_encode
  exact ⟨hasTimes, lossless, (text lossless).1, value, (text lossless).2⟩

end DelayGenerator.Document
