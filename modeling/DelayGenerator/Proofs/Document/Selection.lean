/-
This file says by names what a decoded document is: which members are read, which forms they may have,
and which part of them makes the snapshot.
-/

import DelayGenerator.Proofs.Json.Members
import DelayGenerator.Proofs.Operation.Rejection
import Mathlib.Data.List.Find

namespace DelayGenerator

/-- A whole number other than zero does not become zero. -/
theorem Binary64.isZero_ofInt {value : Int} (some : value ≠ 0) : (Binary64.ofInt value).isZero = false := by
  rw [ofInt, ofRatio]
  split
  · have large : 1 < 2 * (value.natAbs * one) := by
      have bound : 1 ≤ value.natAbs * one := Nat.mul_pos (Int.natAbs_pos.mpr some) one_pos
      omega
    simpa [isZero] using (nearestRank_pos Nat.one_pos large).ne'
  · rfl

namespace Document

open Json (Decoder Layout Scalar Refusal)

/-- Nothing is given by `null` and by a text of blanks. -/
def isNothing : Json → Bool
  | .null => true
  | .text text => Text.trim text == ""
  | _ => false

/-- The member of a name, unless it gives nothing. -/
def entered? (record : Json) (name : String) : Option Json :=
  (record.member? name).filter fun value => !isNothing value

/-- The number that a value gives as a number or as a text. -/
def numberIn? : Json → Option Binary64
  | .integer value => some (.ofInt value)
  | .number value => some value
  | .text text => Binary64.ofText? (Text.trim text)
  | _ => none

/-- The time that a value gives: a finite number that is not below zero. -/
def timeIn? (value : Json) : Option Binary64 := (numberIn? value).filter Binary64.isTime

/-- The index that a value gives: a whole number that is a machine word. -/
def indexIn? : Json → Option Int
  | .integer value => if value < Text.signedLimit then some value else none
  | .text text => Text.integer? (Text.trim text)
  | _ => none

def switchIn? : Json → Option Switch
  | .bool value => some (.ofBool value)
  | .integer value => some (.ofBool (value != 0))
  | .number value => some (.ofBool (!value.isZero))
  | .text text =>
    if word text ∈ ["on", "true", "1"] then some .on
    else if word text ∈ ["off", "false", "0"] then some .off
    else none
  | _ => none

def polarityIn? : Json → Option Polarity
  | .bool value => some (.ofBool value)
  | .integer value => if value < Text.signedLimit then some (.ofBool (value != 0)) else none
  | .text text =>
    if word text ∈ ["inverted", "inv", "true", "1"] then some .inverted
    else if word text ∈ ["normal", "norm", "false", "0"] then some .normal
    else none
  | _ => none

section

variable {α : Type} {rule : Scalar → Except Refusal α} {read? : Json → Option α}

/-- A rule for scalars makes of every value that gives something what a function makes of it. -/
def Interprets (rule : Scalar → Except Refusal α) (read? : Json → Option α) : Prop :=
  ∀ value, isNothing value = false → ((scalar? value).bind fun scalar => (rule scalar).toOption) = read? value

theorem toOption_time (scalar : Scalar) :
    (time scalar).toOption = (microsecondsOf scalar).toOption.filter Binary64.isTime := by
  unfold time
  cases microsecondsOf scalar with
  | error refusal => rfl
  | ok value =>
      simp only [bind, Except.bind]
      cases isTime : value.isTime <;> simp [Except.toOption, Option.filter, isTime]

theorem interprets_time : Interprets time timeIn? := by
  intro value given
  have judged (scalar : Scalar) (taken : scalar? value = some scalar)
      (number : (microsecondsOf scalar).toOption = numberIn? value) :
      ((scalar? value).bind fun scalar => (time scalar).toOption) = timeIn? value := by
    rw [taken, Option.bind_some, toOption_time, number, timeIn?]
  cases value with
  | integer value =>
      by_cases word : value < Text.signedLimit
      · exact judged (.integer value) (by rw [scalar?, if_pos word]) rfl
      · exact judged (.number (.ofInt value)) (by rw [scalar?, if_neg word]) rfl
  | number value => exact judged (.number value) rfl rfl
  | bool value => exact judged (.bool value) rfl rfl
  | text text =>
      refine judged (.text text) rfl ?_
      rw [microsecondsOf, numberIn?]
      cases Binary64.ofText? (Text.trim text) <;> rfl
  | _ => rfl

theorem interprets_index : Interprets index indexIn? := by
  intro value given
  cases value with
  | integer value =>
      simp only [scalar?, indexIn?]
      split <;> rfl
  | text text =>
      simp only [scalar?, indexIn?, Option.bind_some, index]
      cases Text.integer? (Text.trim text) <;> rfl
  | _ => rfl

theorem interprets_switch : Interprets switch switchIn? := by
  intro value given
  cases value with
  | integer value =>
      simp only [scalar?, switchIn?]
      split
      · rfl
      next large =>
        have some : value ≠ 0 := by
          rintro rfl
          exact large (by decide)
        rw [Option.bind_some, switch, Binary64.isZero_ofInt some, bne_iff_ne.mpr some]
        rfl
  | text text =>
      simp only [scalar?, switchIn?, Option.bind_some, switch, List.contains_iff_mem]
      split
      · rfl
      · split <;> rfl
  | _ => rfl

theorem interprets_polarity : Interprets polarity polarityIn? := by
  intro value given
  cases value with
  | integer value =>
      simp only [scalar?, polarityIn?]
      split <;> rfl
  | text text =>
      simp only [scalar?, polarityIn?, Option.bind_some, polarity, List.contains_iff_mem]
      split
      · rfl
      · split <;> rfl
  | _ => rfl

/-- The field of a record has a form that a function understands, or nothing is given for it. -/
def IsUnderstood (read? : Json → Option α) (record : Json) (name : String) : Prop :=
  ∀ value ∈ entered? record name, (read? value).isSome

/-- What a record gives under a name. -/
def given? (read? : Json → Option α) (record : Json) (name : String) : Option α :=
  (entered? record name).bind read?

theorem isEmpty_of_scalar? {value : Json} {scalar : Scalar} (taken : scalar? value = some scalar) :
    isEmpty scalar = isNothing value := by
  cases value <;> cases taken <;> try rfl
  simp only [isNothing]
  split <;> rfl

theorem field_eq_ok_iff (interprets : Interprets rule read?) {value : Json} {result : Option α} :
    (field rule).fromValue value = .ok result ↔
      if isNothing value then result = none else (read? value).isSome ∧ result = read? value := by
  by_cases null : value = .null
  · subst null
    exact ⟨fun same => (Except.ok.inj same).symm, fun same => by subst same; rfl⟩
  · simp only [field, Decoder.refine, Decoder.option_fromValue _ null, scalar, Decoder.value, bind, Except.bind]
    have meaning := interprets value
    cases taken : scalar? value with
    | none =>
        have something : isNothing value = false := by
          cases value <;> first | rfl | contradiction
        have unread := meaning something
        rw [taken] at unread
        simp [something, ← unread]
    | some scalar =>
        rw [← isEmpty_of_scalar? taken] at meaning ⊢
        rw [taken] at meaning
        cases empty : isEmpty scalar with
        | true => simp [empty, eq_comm]
        | false =>
            have read := meaning empty
            rw [Option.bind_some] at read
            rw [← read]
            cases outcome : rule scalar <;> simp [empty, outcome, Except.toOption, eq_comm]

/-- A field whose member may be left out, `null` or blank. -/
theorem takeMembers_field {ρ : Type} {fields : List (Json.Field ρ)} {members : List (String × Json)}
    {name : String} {put : Option α → ρ → ρ} {form result : ρ} (interprets : Interprets rule read?)
    (blank : put none form = form) :
    Layout.takeMembers members (.of name (field rule) put :: fields) form = .ok result ↔
      IsUnderstood read? (.record members) name ∧
        Layout.takeMembers members fields (put (given? read? (.record members) name) form) = .ok result := by
  have look : (Json.record members).member? name = members.lookup name := rfl
  have finds (value : Option α) : (field rule).Finds (members.lookup name) none value ↔
      IsUnderstood read? (.record members) name ∧ value = given? read? (.record members) name := by
    rw [IsUnderstood, given?, entered?, look]
    cases members.lookup name with
    | none => simp [Decoder.Finds]
    | some member =>
        rw [Decoder.Finds, field_eq_ok_iff interprets]
        cases nothing : isNothing member <;> simp [Option.filter, nothing]
  simp only [Layout.takeMembers_of blank, finds, and_assoc, exists_and_left, exists_eq_left]

end

/-- The fields of a pulse have forms that are understood. -/
structure IsPulse (pulse : Json) : Prop where
  delay : IsUnderstood timeIn? pulse "delay"
  width : IsUnderstood timeIn? pulse "width"
  polarity : IsUnderstood polarityIn? pulse "polarity"
  inverted : IsUnderstood polarityIn? pulse "inv"
  state : IsUnderstood switchIn? pulse "state"

structure IsEntry (entry : Json) : Prop where
  index : IsUnderstood indexIn? entry "index"
  list : ∀ value ∈ entry.member? "pulses", ∃ items, value = .list items
  pulses : ∀ pulse ∈ entry.itemsOf "pulses", IsPulse pulse

structure IsProtocol (protocols : Json) : Prop where
  state : IsUnderstood switchIn? protocols "state"
  interval : IsUnderstood timeIn? protocols "interval"
  list : ∀ value ∈ protocols.member? "protocol", ∃ items, value = .list items
  entries : ∀ entry ∈ protocols.itemsOf "protocol", IsEntry entry

/-- Each known field of a document has a form that is understood, wherever it stands, and the protocols are
given. -/
structure IsUnderstandable (document : Json) : Prop where
  identification : ∀ value ∈ document.member? "idn", ∃ text, value = .text text
  description : ∀ value ∈ document.member? "inst_full", ∃ text, value = .text text
  protocols : ∃ protocols, document.member? "protocols" = some protocols ∧ IsProtocol protocols

/-- The document, its protocols, their entries and the pulses of these are records. -/
structure HasRecords (document : Json) : Prop where
  whole : document.IsRecord
  protocols : ∀ protocols ∈ document.member? "protocols", protocols.IsRecord
  entries : ∀ protocols ∈ document.member? "protocols", ∀ entry ∈ protocols.itemsOf "protocol", entry.IsRecord
  pulses : ∀ protocols ∈ document.member? "protocols", ∀ entry ∈ protocols.itemsOf "protocol",
    ∀ pulse ∈ entry.itemsOf "pulses", pulse.IsRecord

/-- The forms that the members of records fill. -/
def formOfPulse (pulse : Json) : PulseForm where
  delay := given? timeIn? pulse "delay"
  width := given? timeIn? pulse "width"
  polarity := given? polarityIn? pulse "polarity"
  inverted := given? polarityIn? pulse "inv"
  state := given? switchIn? pulse "state"

def formOfEntry (entry : Json) : EntryForm where
  index := given? indexIn? entry "index"
  pulses := (entry.itemsOf "pulses").map formOfPulse

def formOfProtocol (protocols : Json) : ProtocolForm where
  state := given? switchIn? protocols "state"
  interval := given? timeIn? protocols "interval"
  entries := (protocols.itemsOf "protocol").map formOfEntry

def formOfDocument (document protocols : Json) : SnapshotForm where
  identification := document.textOf "idn"
  description := document.textOf "inst_full"
  protocol := formOfProtocol protocols

theorem makes_pulse {pulse : Json} (record : pulse.IsRecord) (once : pulse.NamesOnce) :
    pulseLayout.decoder.Makes pulse (IsPulse pulse) (formOfPulse pulse) := by
  intro form
  obtain ⟨members, rfl⟩ := record
  rw [isOrderless_pulseLayout.decoder_record (by decide) once.1]
  simp only [pulseLayout]
  rw [takeMembers_field interprets_time rfl, takeMembers_field interprets_time rfl,
    takeMembers_field interprets_polarity rfl, takeMembers_field interprets_polarity rfl,
    takeMembers_field interprets_switch rfl, Layout.takeMembers, Except.ok.injEq]
  constructor
  · rintro ⟨delay, width, polarity, inverted, state, rfl⟩
    exact ⟨⟨delay, width, polarity, inverted, state⟩, rfl⟩
  · rintro ⟨⟨delay, width, polarity, inverted, state⟩, rfl⟩
    exact ⟨delay, width, polarity, inverted, state, rfl⟩

theorem makes_entry {entry : Json} (record : entry.IsRecord) (once : entry.NamesOnce)
    (pulses : ∀ pulse ∈ entry.itemsOf "pulses", pulse.IsRecord) :
    entryLayout.decoder.Makes entry (IsEntry entry) (formOfEntry entry) := by
  intro form
  obtain ⟨members, rfl⟩ := record
  have each : ∀ pulse ∈ (Json.record members).itemsOf "pulses",
      pulseLayout.decoder.Makes pulse (IsPulse pulse) (formOfPulse pulse) := fun pulse member =>
    makes_pulse (pulses pulse member) (once.item member)
  rw [isOrderless_entryLayout.decoder_record (by decide) once.1]
  simp only [entryLayout]
  rw [takeMembers_field interprets_index rfl, Layout.takeMembers_list rfl each, Layout.takeMembers,
    Except.ok.injEq]
  constructor
  · rintro ⟨index, ⟨list, good⟩, rfl⟩
    exact ⟨⟨index, list, good⟩, rfl⟩
  · rintro ⟨⟨index, list, good⟩, rfl⟩
    exact ⟨index, ⟨list, good⟩, rfl⟩

theorem makes_protocol {protocols : Json} (record : protocols.IsRecord) (once : protocols.NamesOnce)
    (entries : ∀ entry ∈ protocols.itemsOf "protocol", entry.IsRecord)
    (pulses : ∀ entry ∈ protocols.itemsOf "protocol", ∀ pulse ∈ entry.itemsOf "pulses", pulse.IsRecord) :
    protocolLayout.decoder.Makes protocols (IsProtocol protocols) (formOfProtocol protocols) := by
  intro form
  obtain ⟨members, rfl⟩ := record
  have each : ∀ entry ∈ (Json.record members).itemsOf "protocol",
      entryLayout.decoder.Makes entry (IsEntry entry) (formOfEntry entry) := fun entry member =>
    makes_entry (entries entry member) (once.item member) (pulses entry member)
  rw [isOrderless_protocolLayout.decoder_record (by decide) once.1]
  simp only [protocolLayout]
  rw [takeMembers_field interprets_switch rfl, takeMembers_field interprets_time rfl,
    Layout.takeMembers_list rfl each, Layout.takeMembers, Except.ok.injEq]
  constructor
  · rintro ⟨state, interval, ⟨list, good⟩, rfl⟩
    exact ⟨⟨state, interval, list, good⟩, rfl⟩
  · rintro ⟨⟨state, interval, list, good⟩, rfl⟩
    exact ⟨state, interval, ⟨list, good⟩, rfl⟩

/-- A value becomes a snapshot if it has its protocols and each known field of it is understood. -/
theorem decodeValue_eq_ok_iff {document : Json} (once : document.NamesOnce) (records : HasRecords document)
    (snapshot : Snapshot) :
    decodeValue document = .ok snapshot ↔ IsUnderstandable document ∧
      ∃ protocols, document.member? "protocols" = some protocols ∧
        snapshot = (formOfDocument document protocols).snapshot := by
  have forms (form : SnapshotForm) : snapshotLayout.decoder.decodeValue document = .ok form ↔
      IsUnderstandable document ∧
        ∃ protocols, document.member? "protocols" = some protocols ∧ form = formOfDocument document protocols := by
    rw [isOrderless_snapshotLayout.decoder.decodeValue once]
    obtain ⟨members, rfl⟩ := records.whole
    have look : members.lookup "protocols" = (Json.record members).member? "protocols" := rfl
    have makes {protocols : Json} (given : (Json.record members).member? "protocols" = some protocols) :
        protocolLayout.decoder.Makes protocols (IsProtocol protocols) (formOfProtocol protocols) :=
      makes_protocol (records.protocols protocols given) (once.member given) (records.entries protocols given)
        (records.pulses protocols given)
    rw [isOrderless_snapshotLayout.decoder_record (by decide) once.1]
    simp only [snapshotLayout]
    rw [Layout.takeMembers_text rfl, Layout.takeMembers_text rfl, Layout.takeMembers_required, look]
    simp only [Layout.takeMembers, Except.ok.injEq]
    constructor
    · rintro ⟨identification, description, protocols, given, form, taken, rfl⟩
      obtain ⟨good, rfl⟩ := (makes given form).mp taken
      exact ⟨⟨identification, description, protocols, given, good⟩, protocols, given, rfl⟩
    · rintro ⟨⟨identification, description, protocols, given, good⟩, other, givenToo, rfl⟩
      cases given.symm.trans givenToo
      exact ⟨identification, description, protocols, given, _, (makes given _).mpr ⟨good, rfl⟩, rfl⟩
  constructor
  · intro decoded
    obtain ⟨form, taken, same⟩ := Json.of_bind decoded
    obtain ⟨good, protocols, given, rfl⟩ := (forms form).mp taken
    cases same
    exact ⟨good, protocols, given, rfl⟩
  · rintro ⟨good, protocols, given, rfl⟩
    rw [decodeValue, (forms _).mpr ⟨good, protocols, given, rfl⟩]
    rfl

/-- Whether an entry stands under no index or under index zero. -/
def isUnderZero (entry : Json) : Bool :=
  match entered? entry "index" with
  | none => true
  | some value => indexIn? value == some 0

/-- The entry that describes the outputs: the first under no index or index zero, or else the first. -/
def chosen? (protocols : Json) : Option Json :=
  match (protocols.itemsOf "protocol").find? isUnderZero with
  | some entry => some entry
  | none => (protocols.itemsOf "protocol").head?

/-- The pulse that describes an output. -/
def pulseAt? (protocols : Json) (index : Nat) : Option Json :=
  (chosen? protocols).bind fun entry => (entry.itemsOf "pulses")[index]?

/-- The output that a pulse describes. -/
def outputOf (pulse : Json) : Output where
  delay := ((given? timeIn? pulse "delay").map toSeconds).getD (Binary64.zero false)
  width := ((given? timeIn? pulse "width").map toSeconds).getD (Binary64.zero false)
  polarity :=
    match entered? pulse "polarity" with
    | some value => (polarityIn? value).getD .normal
    | none => (given? polarityIn? pulse "inv").getD .normal
  state := (given? switchIn? pulse "state").getD .off

/-- What of a document stands in its snapshot. -/
structure Describes (document protocols : Json) (snapshot : Snapshot) : Prop where
  identification : snapshot.identity.identification = document.textOf "idn"
  description : snapshot.identity.description = document.textOf "inst_full"
  state : snapshot.protocol.state = (given? switchIn? protocols "state").getD .off
  interval : snapshot.protocol.interval =
    ((given? timeIn? protocols "interval").map toSeconds).getD (.ofDecimal 1 (-3))
  count : snapshot.protocol.outputs.toList.length = 8
  output : ∀ index (within : index < outputCount),
    snapshot.protocol.outputs[index] = (pulseAt? protocols index).elim Output.idle outputOf

theorem toSeconds_zero : toSeconds (Binary64.zero false) = Binary64.zero false := by decide +kernel

theorem output_formOfPulse {pulse : Json} (good : IsPulse pulse) :
    (formOfPulse pulse).output = outputOf pulse := by
  have seconds (value : Option Binary64) :
      toSeconds (value.getD (Binary64.zero false)) = (value.map toSeconds).getD (Binary64.zero false) := by
    cases value with
    | none => exact toSeconds_zero
    | some value => rfl
  have polarity : (given? polarityIn? pulse "polarity" <|> given? polarityIn? pulse "inv").getD Polarity.normal =
      (outputOf pulse).polarity := by
    have understood := good.polarity
    rw [IsUnderstood] at understood
    simp only [outputOf]
    rw [given?]
    cases entered : entered? pulse "polarity" with
    | none => rfl
    | some value =>
        obtain ⟨own, read⟩ := Option.isSome_iff_exists.mp (understood value entered)
        simp [read]
  rw [PulseForm.output, outputOf, formOfPulse, seconds, seconds, polarity]
  rfl

theorem isUnderZero_eq {entry : Json} (good : IsEntry entry) :
    ((formOfEntry entry).index.getD 0 == 0) = isUnderZero entry := by
  have understood := good.index
  rw [IsUnderstood] at understood
  rw [formOfEntry, given?, isUnderZero]
  cases entered : entered? entry "index" with
  | none => rfl
  | some value =>
      obtain ⟨own, read⟩ := Option.isSome_iff_exists.mp (understood value entered)
      simp [read]

theorem selected?_formOfProtocol {protocols : Json} (good : IsProtocol protocols) :
    (formOfProtocol protocols).selected? = (chosen? protocols).map formOfEntry := by
  have same : (protocols.itemsOf "protocol").find?
        ((fun entry : EntryForm => entry.index.getD 0 == 0) ∘ formOfEntry) =
      (protocols.itemsOf "protocol").find? isUnderZero :=
    List.find?_congr fun entry member => isUnderZero_eq (good.entries entry member)
  rw [ProtocolForm.selected?, formOfProtocol, List.find?_map, same, List.head?_map, chosen?]
  cases (protocols.itemsOf "protocol").find? isUnderZero <;> rfl

theorem mem_of_chosen? {protocols entry : Json} (selected : chosen? protocols = some entry) :
    entry ∈ protocols.itemsOf "protocol" := by
  unfold chosen? at selected
  split at selected
  next found =>
    cases selected
    exact List.mem_of_find?_eq_some found
  next => exact List.mem_of_head? selected

theorem output_formOfProtocol {protocols : Json} (good : IsProtocol protocols) (index : Nat) :
    (formOfProtocol protocols).output index = (pulseAt? protocols index).elim Output.idle outputOf := by
  rw [ProtocolForm.output, selected?_formOfProtocol good, pulseAt?]
  cases selected : chosen? protocols with
  | none => rfl
  | some entry =>
      have goodEntry := good.entries entry (mem_of_chosen? selected)
      simp only [Option.map_some, formOfEntry, List.getElem?_map, Option.bind_some]
      cases found : (entry.itemsOf "pulses")[index]? with
      | none => rfl
      | some pulse => exact output_formOfPulse (goodEntry.pulses pulse (List.mem_of_getElem? found))

theorem describes_formOfDocument (document : Json) {protocols : Json} (good : IsProtocol protocols) :
    Describes document protocols (formOfDocument document protocols).snapshot where
  identification := rfl
  description := rfl
  state := rfl
  interval := rfl
  count := Vector.length_toList
  output index within := by
    rw [← output_formOfProtocol good]
    exact Vector.getElem_ofFn within

/-- Two documents have the same in every place that counts. -/
structure CountsAlike (document other : Json) : Prop where
  texts : ∀ name ∈ ["idn", "inst_full"], document.member? name = other.member? name
  protocols : ∀ protocols ∈ document.member? "protocols", ∀ others ∈ other.member? "protocols",
    (∀ name ∈ ["state", "interval"], entered? protocols name = entered? others name) ∧
      ∀ index < outputCount, ∀ name ∈ ["delay", "width", "polarity", "inv", "state"],
        (pulseAt? protocols index).bind (entered? · name) = (pulseAt? others index).bind (entered? · name)

/-- An output depends on what is given for it, and a pulse that gives nothing is like no pulse. -/
theorem output_congr {pulse? other? : Option Json}
    (alike : ∀ name ∈ ["delay", "width", "polarity", "inv", "state"],
      pulse?.bind (entered? · name) = other?.bind (entered? · name)) :
    pulse?.elim Output.idle outputOf = other?.elim Output.idle outputOf := by
  have byNames (pulse? : Option Json) : pulse?.elim Output.idle outputOf =
      { delay := (((pulse?.bind (entered? · "delay")).bind timeIn?).map toSeconds).getD (Binary64.zero false)
        width := (((pulse?.bind (entered? · "width")).bind timeIn?).map toSeconds).getD (Binary64.zero false)
        polarity := (pulse?.bind (entered? · "polarity")).elim
          (((pulse?.bind (entered? · "inv")).bind polarityIn?).getD .normal)
          fun value => (polarityIn? value).getD .normal
        state := ((pulse?.bind (entered? · "state")).bind switchIn?).getD .off } := by
    cases pulse? with
    | none => rfl
    | some pulse =>
        simp only [Option.elim_some, outputOf, given?, Option.bind_some]
        cases entered? pulse "polarity" <;> rfl
  simp only [List.mem_cons, List.not_mem_nil, or_false, forall_eq_or_imp, forall_eq] at alike
  obtain ⟨delay, width, polarity, inverted, state⟩ := alike
  rw [byNames pulse?, byNames other?, delay, width, polarity, inverted, state]

/-- What stands elsewhere is ignored. -/
theorem Describes.unique {document other protocols others : Json} {snapshot snapshotToo : Snapshot}
    (describes : Describes document protocols snapshot) (describesToo : Describes other others snapshotToo)
    (given : document.member? "protocols" = some protocols) (givenToo : other.member? "protocols" = some others)
    (alike : CountsAlike document other) : snapshot = snapshotToo := by
  have text (name : String) (member : name ∈ ["idn", "inst_full"]) : document.textOf name = other.textOf name := by
    rw [Json.textOf, Json.textOf, alike.texts name member]
  obtain ⟨settings, pulses⟩ := alike.protocols protocols given others givenToo
  have setting {α : Type} (read? : Json → Option α) (name : String) (member : name ∈ ["state", "interval"]) :
      given? read? protocols name = given? read? others name := by
    rw [given?, given?, settings name member]
  have outputs : snapshot.protocol.outputs = snapshotToo.protocol.outputs := by
    refine Vector.ext fun index within => ?_
    rw [describes.output index within, describesToo.output index within]
    exact output_congr (pulses index within)
  have identification : snapshot.identity.identification = snapshotToo.identity.identification := by
    rw [describes.identification, describesToo.identification, text "idn" (by simp)]
  have description : snapshot.identity.description = snapshotToo.identity.description := by
    rw [describes.description, describesToo.description, text "inst_full" (by simp)]
  have state : snapshot.protocol.state = snapshotToo.protocol.state := by
    rw [describes.state, describesToo.state, setting _ "state" (by simp)]
  have interval : snapshot.protocol.interval = snapshotToo.protocol.interval := by
    rw [describes.interval, describesToo.interval, setting _ "interval" (by simp)]
  obtain ⟨⟨_, _⟩, ⟨_, _, _⟩⟩ := snapshot
  obtain ⟨⟨_, _⟩, ⟨_, _, _⟩⟩ := snapshotToo
  cases identification
  cases description
  cases outputs
  cases state
  cases interval
  rfl

/-- Which values become snapshots, and which snapshots. -/
structure IsSelectedFrom (document : Json) : Prop where
  /-- There must be protocols. -/
  withoutProtocols : document.member? "protocols" = none → ∃ error, decodeValue document = .error error
  /-- One time that is none costs the whole document, wherever it stands. -/
  badTime : HasBadTime document → ∃ error, decodeValue document = .error error
  /-- The whole document must be understood, and nothing else is needed. -/
  accepted_iff : (∃ snapshot, decodeValue document = .ok snapshot) ↔ IsUnderstandable document
  /-- The snapshot is what the members of certain names say. -/
  described : ∀ snapshot, decodeValue document = .ok snapshot →
    ∃ protocols, document.member? "protocols" = some protocols ∧ Describes document protocols snapshot
  /-- All else is ignored. -/
  ignores : ∀ other, other.NamesOnce → HasRecords other → CountsAlike document other →
    ∀ snapshot snapshotToo, decodeValue document = .ok snapshot → decodeValue other = .ok snapshotToo →
      snapshot = snapshotToo

/-- A value in which the document, its protocols, their entries and the pulses are records is decoded by the
names of their members. -/
theorem isSelectedFrom {document : Json} (once : document.NamesOnce) (records : HasRecords document) :
    IsSelectedFrom document := by
  have described {document : Json} (once : document.NamesOnce) (records : HasRecords document)
      {snapshot : Snapshot} (decoded : decodeValue document = .ok snapshot) :
      ∃ protocols, document.member? "protocols" = some protocols ∧ Describes document protocols snapshot := by
    obtain ⟨good, protocols, given, rfl⟩ := (decodeValue_eq_ok_iff once records snapshot).mp decoded
    obtain ⟨other, givenToo, goodProtocol⟩ := good.protocols
    cases given.symm.trans givenToo
    exact ⟨protocols, given, describes_formOfDocument document goodProtocol⟩
  have refused (never : ∀ snapshot, decodeValue document ≠ .ok snapshot) :
      ∃ error, decodeValue document = .error error := by
    cases decoded : decodeValue document with
    | error error => exact ⟨error, rfl⟩
    | ok snapshot => exact absurd decoded (never snapshot)
  constructor
  · intro missing
    refine refused fun snapshot decoded => ?_
    obtain ⟨protocols, given, _⟩ := described once records decoded
    rw [missing] at given
    contradiction
  · intro bad
    refine refused fun snapshot decoded => ?_
    obtain ⟨form, taken, _⟩ := Json.of_bind decoded
    obtain ⟨error, refused⟩ := bad.refuses
    rw [isOrderless_snapshotLayout.decoder.decodeValue once, refused] at taken
    contradiction
  · constructor
    · rintro ⟨snapshot, decoded⟩
      exact ((decodeValue_eq_ok_iff once records snapshot).mp decoded).1
    · intro good
      obtain ⟨protocols, given, _⟩ := good.protocols
      exact ⟨_, (decodeValue_eq_ok_iff once records _).mpr ⟨good, protocols, given, rfl⟩⟩
  · exact fun snapshot decoded => described once records decoded
  · intro other onceToo recordsToo alike snapshot snapshotToo decoded decodedToo
    obtain ⟨protocols, given, describes⟩ := described once records decoded
    obtain ⟨others, givenToo, describesToo⟩ := described onceToo recordsToo decodedToo
    exact describes.unique describesToo given givenToo alike

/-- The second entry is selected, a member is unknown, a time is a text, and a checkbox stands for the
polarity. -/
theorem isSelectedFrom_second :
    ∃ document, document.NamesOnce ∧ HasRecords document ∧ (decodeValue document).isOk = true ∧
      IsSelectedFrom document := by
  let pulse : Json := .record [("inv", .bool true), ("delay", .text " 1.5 "), ("note", .list [.null])]
  let entries : List Json :=
    [.record [("index", .integer 3), ("pulses", .list [.record [("width", .integer 2)]])],
      .record [("index", .text "0"), ("pulses", .list [pulse])]]
  let document : Json := .record [("protocols", .record [("state", .bool true), ("protocol", .list entries)])]
  have once : document.NamesOnce := by decide
  have records : HasRecords document := by
    refine ⟨⟨_, rfl⟩, ?_, ?_, ?_⟩
    · rintro protocols ⟨⟩
      exact ⟨_, rfl⟩
    · rintro protocols ⟨⟩ entry member
      rcases List.mem_cons.mp member with rfl | member
      · exact ⟨_, rfl⟩
      · cases List.mem_singleton.mp member
        exact ⟨_, rfl⟩
    · rintro protocols ⟨⟩ entry member pulse inside
      rcases List.mem_cons.mp member with rfl | member
      · cases List.mem_singleton.mp inside
        exact ⟨_, rfl⟩
      · cases List.mem_singleton.mp member
        cases List.mem_singleton.mp inside
        exact ⟨_, rfl⟩
  exact ⟨document, once, records, by decide +kernel, isSelectedFrom once records⟩

end Document

end DelayGenerator
