/-
This file shows that a request that is rejected has no effect, and which requests are rejected: a
mistake anywhere in a document costs the whole of it.
-/

import DelayGenerator.Bench.Traffic
import DelayGenerator.Operation.Answer
import DelayGenerator.Proofs.Binary64.Scientific
import DelayGenerator.Proofs.Document.Snapshot
import DelayGenerator.Proofs.Json.Malformed
import DelayGenerator.Proofs.Json.Refusal

namespace DelayGenerator

namespace Document

open Json (Decoder Field Layout)
open Json.Decoder (isConsistent_bool isConsistent_text isConsistent_value isPassing_bool isPassing_text
  isPassing_value)

theorem isPassing_field {α : Type} (rule : Json.Scalar → Except Json.Refusal α) : (field rule).IsPassing :=
  ((isPassing_value.refine _).option).refine _

theorem isPassing_pulse : pulseLayout.decoder.IsPassing := by
  refine Layout.isPassing_decoder fun field member => ?_
  simp only [pulseLayout, List.mem_cons, List.not_mem_nil, or_false] at member
  rcases member with rfl | rfl | rfl | rfl | rfl <;> exact (isPassing_field _).field _ _

theorem isPassing_entry : entryLayout.decoder.IsPassing := by
  refine Layout.isPassing_decoder fun field member => ?_
  simp only [entryLayout, List.mem_cons, List.not_mem_nil, or_false] at member
  rcases member with rfl | rfl
  · exact (isPassing_field index).field _ _
  · exact isPassing_pulse.list.field _ _

theorem isPassing_protocol : protocolLayout.decoder.IsPassing := by
  refine Layout.isPassing_decoder fun field member => ?_
  simp only [protocolLayout, List.mem_cons, List.not_mem_nil, or_false] at member
  rcases member with rfl | rfl | rfl
  · exact (isPassing_field switch).field _ _
  · exact (isPassing_field time).field _ _
  · exact isPassing_entry.list.field _ _

theorem isPassing_snapshot : snapshotLayout.decoder.IsPassing := by
  refine Layout.isPassing_decoder fun field member => ?_
  simp only [snapshotLayout, List.mem_cons, List.not_mem_nil, or_false] at member
  rcases member with rfl | rfl | rfl
  · exact isPassing_text.field _ _
  · exact isPassing_text.field _ _
  · exact (isPassing_protocol.field _ _).required

theorem isPassing_commands : commands.IsPassing := isPassing_value.refine _

theorem isConsistent_commands : commands.IsConsistent := isConsistent_value.refine _

theorem isPassing_checkbox : checkboxLayout.decoder.IsPassing := by
  refine Layout.isPassing_decoder fun field member => ?_
  simp only [checkboxLayout, List.mem_cons, List.not_mem_nil, or_false] at member
  rcases member with rfl | rfl
  · exact (isPassing_text.option.field _ _).requiredInList
  · exact (isPassing_bool.option.field _ _).requiredInList

theorem isConsistent_checkbox : checkboxLayout.decoder.IsConsistent := by
  refine Layout.isConsistent_decoder fun field member => ?_
  simp only [checkboxLayout, List.mem_cons, List.not_mem_nil, or_false] at member
  rcases member with rfl | rfl
  · exact (isConsistent_text.option.field _ _).requiredInList
  · exact (isConsistent_bool.option.field _ _).requiredInList

theorem isPassing_checkboxes : checkboxesLayout.decoder.IsPassing := by
  refine Layout.isPassing_decoder fun field member => ?_
  simp only [checkboxesLayout, List.mem_singleton] at member
  subst member
  exact isPassing_checkbox.list.field _ _

theorem isConsistent_checkboxes : checkboxesLayout.decoder.IsConsistent := by
  refine Layout.isConsistent_decoder fun field member => ?_
  simp only [checkboxesLayout, List.mem_singleton] at member
  subst member
  exact isConsistent_checkbox.list.field _ _

/-- What is no time: a value of another kind, a text that is neither blank nor a number, and a number
that is below zero or not finite. -/
def IsBadTime : Json → Prop
  | .null => False
  | .bool _ => True
  | .integer value => (Binary64.ofInt value).isTime = false
  | .number value => value.isTime = false
  | .text text => Text.trim text ≠ "" ∧ ∀ value ∈ Binary64.ofText? (Text.trim text), value.isTime = false
  | .list _ => True
  | .record _ => True

/-- Negative whole numbers are no times. -/
theorem isBadTime_of_neg {value : Int} (below : value < 0) : IsBadTime (.integer value) := by
  change (Binary64.ofInt value).isTime = false
  rw [Binary64.ofInt, Binary64.ofRatio, decide_eq_true below]
  have positive : 0 < Binary64.nearestRank value.natAbs 1 :=
    Binary64.nearestRank_pos Nat.one_pos <| by
      have some : 0 < value.natAbs := Int.natAbs_pos.mpr below.ne
      have bound : 1 ≤ value.natAbs * Binary64.one := Nat.mul_pos some Binary64.one_pos
      omega
  split
  · simp [Binary64.isTime, Binary64.isFinite, Binary64.isBelowZero, positive.ne']
  · rfl

/-- A field refuses what is no scalar, and a scalar that is not blank if its rule refuses it. -/
theorem refuses_field_iff {α : Type} (rule : Json.Scalar → Except Json.Refusal α) {value : Json}
    (given : value ≠ .null) :
    (field rule).Refuses value ↔ ∀ scalar, scalar? value = some scalar →
      isEmpty scalar = false ∧ ∃ refusal, rule scalar = .error refusal := by
  simp only [Decoder.Refuses, field, Decoder.refine, Decoder.option_fromValue _ given, scalar, Decoder.value, bind,
    Except.bind]
  cases scalar? value with
  | none => simp
  | some scalar =>
      cases empty : isEmpty scalar with
      | true => simp [empty]
      | false => cases outcome : rule scalar <;> simp [empty, outcome]

theorem refuses_time {scalar : Json.Scalar} :
    (∃ refusal, time scalar = .error refusal) ↔
      ∀ value, microsecondsOf scalar = .ok value → value.isTime = false := by
  unfold time
  cases microsecondsOf scalar with
  | error refusal => simp [bind, Except.bind]
  | ok value =>
      simp only [bind, Except.bind, Except.ok.injEq, forall_eq']
      cases value.isTime <;> simp

/-- A field for a time refuses what is no time, and nothing else. -/
theorem refuses_time_iff (value : Json) : (field time).Refuses value ↔ IsBadTime value := by
  cases value with
  | null => exact iff_of_false (by rintro ⟨error, same⟩; cases same) id
  | bool value => simp [refuses_field_iff, refuses_time, scalar?, isEmpty, microsecondsOf, IsBadTime]
  | integer value =>
      rw [refuses_field_iff _ (by simp)]
      simp only [scalar?, Option.some.injEq, forall_eq', refuses_time, IsBadTime]
      split <;> simp [isEmpty, microsecondsOf]
  | number value => simp [refuses_field_iff, refuses_time, scalar?, isEmpty, microsecondsOf, IsBadTime]
  | text text =>
      simp only [refuses_field_iff _ (show Json.text text ≠ .null by simp), refuses_time, scalar?,
        Option.some.injEq, forall_eq', isEmpty, microsecondsOf, IsBadTime]
      refine and_congr (by simp) ?_
      cases Binary64.ofText? (Text.trim text) <;> simp
  | list items => simp [refuses_field_iff, scalar?, IsBadTime]
  | record members => simp [refuses_field_iff, scalar?, IsBadTime]

/-- What gives no commands: a list with an item that is no text, and what is neither a list nor a
record. -/
def HasNoCommands : Json → Prop
  | .list items => ∃ item ∈ items, ∀ text, item ≠ .text text
  | .record _ => False
  | _ => True

theorem itemTexts?_eq_none_iff (items : List Json) :
    itemTexts? items = none ↔ ∃ item ∈ items, ∀ text, item ≠ .text text := by
  induction items with
  | nil => simp [itemTexts?]
  | cons first others inductionHypothesis =>
      cases first with
      | text text => simp [itemTexts?, inductionHypothesis]
      | _ => simp [itemTexts?]

theorem refuses_commands_iff (value : Json) : commands.Refuses value ↔ HasNoCommands value := by
  have none : commands.Refuses value ↔ commandsOf? value = none := by
    simp only [Decoder.Refuses, commands, Decoder.refine, Decoder.value, bind, Except.bind]
    cases commandsOf? value <;> simp
  rw [none]
  cases value with
  | list items => exact itemTexts?_eq_none_iff items
  | record members => simp [commandsOf?, HasNoCommands]
  | _ => simp [commandsOf?, HasNoCommands]

section

variable {document protocols entry pulse checkbox : List (String × Json)} {entries pulses checkboxes : List Json}
  {part : Json}

/-- The interval of a document is read as a time. -/
theorem reads_interval (given : ("protocols", .record protocols) ∈ document)
    (member : ("interval", part) ∈ protocols) :
    snapshotLayout.decoder.Reads (.record document) (field time) part := by
  have inProtocols : protocolLayout.decoder.Reads (.record protocols) (field time) part :=
    .member (show _ = some protocolLayout.fields[1] from rfl) (Field.takes_of _ _ _) member (.whole _ _)
  exact .member (show _ = some snapshotLayout.fields[2] from rfl) (Field.takes_of _ _ _).required given inProtocols

/-- Every delay and every width is read as a time, in whichever entry and at whichever place the pulse
stands. -/
theorem reads_pulse_time {name : String} (given : ("protocols", .record protocols) ∈ document)
    (inProtocols : ("protocol", .list entries) ∈ protocols) (inEntries : .record entry ∈ entries)
    (inEntry : ("pulses", .list pulses) ∈ entry) (inPulses : .record pulse ∈ pulses)
    (member : (name, part) ∈ pulse) (isTime : name = "delay" ∨ name = "width") :
    snapshotLayout.decoder.Reads (.record document) (field time) part := by
  have inPulse : pulseLayout.decoder.Reads (.record pulse) (field time) part := by
    rcases isTime with rfl | rfl
    · exact .member (show _ = some pulseLayout.fields[0] from rfl) (Field.takes_of _ _ _) member (.whole _ _)
    · exact .member (show _ = some pulseLayout.fields[1] from rfl) (Field.takes_of _ _ _) member (.whole _ _)
  have inOneEntry : entryLayout.decoder.Reads (.record entry) (field time) part :=
    .member (show _ = some entryLayout.fields[1] from rfl) (Field.takes_of _ _ _) inEntry (.item inPulses inPulse)
  have inProtocol : protocolLayout.decoder.Reads (.record protocols) (field time) part :=
    .member (show _ = some protocolLayout.fields[2] from rfl) (Field.takes_of _ _ _) inProtocols
      (.item inEntries inOneEntry)
  exact .member (show _ = some snapshotLayout.fields[2] from rfl) (Field.takes_of _ _ _).required given inProtocol

/-- Every checkbox is read, whatever stands before it. -/
theorem reads_checkbox (given : ("checkbox", .list checkboxes) ∈ document)
    (inCheckboxes : .record checkbox ∈ checkboxes) (member : ("value", part) ∈ checkbox) :
    checkboxesLayout.decoder.Reads (.record document) Decoder.bool.option part := by
  have inCheckbox : checkboxLayout.decoder.Reads (.record checkbox) Decoder.bool.option part :=
    .member (show _ = some checkboxLayout.fields[1] from rfl) (Field.takes_of _ _ _).requiredInList member
      (.whole _ _)
  exact .member (show _ = some checkboxesLayout.fields[0] from rfl) (Field.takes_of _ _ _) given
    (.item inCheckboxes inCheckbox)

end

/-- A record in which the interval is no time, or the delay or the width of some pulse of some entry. Whether the
entry and the pulse are used does not matter. -/
inductive HasBadTime : Json → Prop
  | interval {document protocols : List (String × Json)} {part : Json}
      (given : ("protocols", .record protocols) ∈ document) (member : ("interval", part) ∈ protocols)
      (bad : IsBadTime part) : HasBadTime (.record document)
  | pulse {document protocols entry pulse : List (String × Json)} {entries pulses : List Json} {name : String}
      {part : Json} (given : ("protocols", .record protocols) ∈ document)
      (inProtocols : ("protocol", .list entries) ∈ protocols) (inEntries : .record entry ∈ entries)
      (inEntry : ("pulses", .list pulses) ∈ entry) (inPulses : .record pulse ∈ pulses)
      (member : (name, part) ∈ pulse) (isTime : name = "delay" ∨ name = "width") (bad : IsBadTime part) :
      HasBadTime (.record document)

theorem HasBadTime.refuses {value : Json} (bad : HasBadTime value) : snapshotLayout.decoder.Refuses value := by
  cases bad with
  | interval given member bad => exact (reads_interval given member).refuses ((refuses_time_iff _).mpr bad)
  | pulse given inProtocols inEntries inEntry inPulses member isTime bad =>
      exact (reads_pulse_time given inProtocols inEntries inEntry inPulses member isTime).refuses
        ((refuses_time_iff _).mpr bad)

/-- A record with a checkbox, at any place, whose value is neither a truth value nor `null`. -/
inductive HasBadCheckbox : Json → Prop
  | value {document checkbox : List (String × Json)} {checkboxes : List Json} {part : Json}
      (given : ("checkbox", .list checkboxes) ∈ document) (inCheckboxes : .record checkbox ∈ checkboxes)
      (member : ("value", part) ∈ checkbox) (known : part ≠ .null) (bad : ∀ value, part ≠ .bool value) :
      HasBadCheckbox (.record document)

theorem HasBadCheckbox.refuses {value : Json} (bad : HasBadCheckbox value) :
    checkboxesLayout.decoder.Refuses value := by
  cases bad with
  | @value document checkbox checkboxes part given inCheckboxes member known bad =>
      refine (reads_checkbox given inCheckboxes member).refuses ?_
      rw [Decoder.Refuses, Decoder.option_fromValue _ known]
      cases part with
      | bool value => exact absurd rfl (bad value)
      | null => contradiction
      | _ => exact ⟨_, rfl⟩

end Document

namespace Request

/-- The document that comes with a request. -/
def document? : Request → Option String
  | .commit document => some document
  | .submit document => some document
  | .set document => some document
  | _ => none

/-- The request comes with a document that cannot be decoded. -/
def IsUndecodable : Request → Prop
  | .commit document => ∃ error, Document.decode document = .error error
  | .submit document => ∃ error, Document.commands.decodeText document = .error error
  | .set document => ∃ error, Document.checkboxesLayout.decoder.decodeText document = .error error
  | _ => False

/-- The path denotes no request, or one whose document cannot be decoded. -/
def IsRejected (path : String) : Prop :=
  (∃ fault, parse path = .error fault) ∨ ∃ request, parse path = .ok request ∧ request.IsUndecodable

theorem IsUndecodable.commit {document : String}
    (refused : ∃ error, Document.snapshotLayout.decoder.decodeText document = .error error) :
    (Request.commit document).IsUndecodable := by
  obtain ⟨error, refused⟩ := refused
  exact ⟨error, by rw [Document.decode, refused]; rfl⟩

/-- A text that is not well-formed is no document of any request. -/
theorem IsUndecodable.of_malformed {request : Request} {text : String} (given : request.document? = some text)
    (malformed : ¬ Json.IsWellFormed text) : request.IsUndecodable := by
  have refused {α : Type} {decoder : Json.Decoder α} (isPassing : decoder.IsPassing) :
      ∃ error, decoder.decodeText text = .error error := by
    cases decoded : decoder.decodeText text with
    | error error => exact ⟨error, rfl⟩
    | ok result => exact absurd (isPassing.isWellFormed decoded) malformed
  cases request <;> cases given
  · exact .commit (refused Document.isPassing_snapshot)
  · exact refused Document.isPassing_commands
  · exact refused Document.isPassing_checkboxes

end Request

/-- The routine gives a value at once and does nothing else. -/
structure Routine.IsIdle {α : Type} (routine : Routine α) (value : α) : Prop where
  run : ∀ {σ : Type} (number : Nat) (bench : Bench σ),
    Caller.run number routine bench = (bench, .finished bench.clock value)
  turn : ∀ {σ : Type} (traffic : Traffic α σ) (index : Nat),
    traffic.callers[index]? = some (.ready routine) →
      traffic.make (.turn index) =
        ⟨traffic.bench, traffic.callers.set index (.finished traffic.clock value)⟩

theorem Routine.isIdle_done {α : Type} (value : α) : (Routine.done value).IsIdle value where
  run _ _ := rfl
  turn traffic index ready := by
    simp only [Traffic.make, Traffic.turn, ready]
    rfl

namespace Operation

/-- What becomes of requests that are rejected, and which are. -/
structure RejectsIdly (settings : Settings) : Prop where
  /-- A rejected request is answered at once. Nothing changes at the bench: neither its clock, nor the
  port, the link, the connection, the cache or the journal, nor anything at the far end. -/
  isIdle : ∀ method path, Request.IsRejected path → ∃ body, (answer settings method path).IsIdle body
  /-- A document is rejected unless it is a JSON text. -/
  malformed : ∀ path request text, Request.parse path = .ok request → request.document? = some text →
    ¬ Json.IsWellFormed text → Request.IsRejected path
  /-- A document for a commit is rejected if any part is refused by what reads it. -/
  commit : ∀ path text value, Request.parse path = .ok (.commit text) → Json.parse text = .ok value →
    ∀ (α : Type) (inner : Json.Decoder α) part, Document.snapshotLayout.decoder.Reads value inner part →
      inner.Refuses part → Request.IsRejected path
  /-- It is rejected for any bad time, in particular for one of a pulse or an entry that is not used. -/
  time : ∀ path text value, Request.parse path = .ok (.commit text) → Json.parse text = .ok value →
    Document.HasBadTime value → Request.IsRejected path
  /-- A document with commands is rejected if it is no list and no record, and a list for any item that
  is no text. -/
  submit : ∀ path text value, Request.parse path = .ok (.submit text) → Json.parse text = .ok value →
    Document.HasNoCommands value → Request.IsRejected path
  /-- A document with checkboxes is rejected for any part that is refused by what reads it. -/
  set : ∀ path text value, Request.parse path = .ok (.set text) → Json.parse text = .ok value →
    ∀ (α : Type) (inner : Json.Decoder α) part, Document.checkboxesLayout.decoder.Reads value inner part →
      inner.Refuses part → Request.IsRejected path
  /-- It is rejected for any bad checkbox, in particular for one after good ones. -/
  checkbox : ∀ path text value, Request.parse path = .ok (.set text) → Json.parse text = .ok value →
    Document.HasBadCheckbox value → Request.IsRejected path

/-- A rejected request is answered at once, without a look at the bench. -/
theorem exists_answer_eq_done (settings : Settings) (method : String) {path : String}
    (rejected : Request.IsRejected path) : ∃ body, answer settings method path = .done body := by
  unfold answer
  rcases rejected with ⟨fault, refused⟩ | ⟨request, parsed, undecodable⟩
  · rw [refused]
    exact ⟨_, rfl⟩
  · rw [parsed]
    cases request with
    | commit document =>
        obtain ⟨error, refused⟩ := undecodable
        exact ⟨(Fault.badDocument error).message, by simp only [answerRequest, answerCommit, refused]⟩
    | submit document =>
        obtain ⟨error, refused⟩ := undecodable
        exact ⟨error.message, by simp only [answerRequest, answerSubmit, refused]⟩
    | set document =>
        obtain ⟨error, refused⟩ := undecodable
        exact ⟨"", by simp only [answerRequest, answerSet, refused]⟩
    | _ => exact undecodable.elim

/-- Requests that are rejected, for whatever mistake wherever in the document, have no effect. -/
theorem rejectsIdly (settings : Settings) : RejectsIdly settings := by
  have commit {path text : String} {value : Json} (parsed : Request.parse path = .ok (.commit text))
      (spelled : Json.parse text = .ok value) (refuses : Document.snapshotLayout.decoder.Refuses value) :
      Request.IsRejected path :=
    Or.inr ⟨_, parsed, .commit (Document.isConsistent_snapshot.refuses_text spelled refuses)⟩
  have set {path text : String} {value : Json} (parsed : Request.parse path = .ok (.set text))
      (spelled : Json.parse text = .ok value) (refuses : Document.checkboxesLayout.decoder.Refuses value) :
      Request.IsRejected path :=
    Or.inr ⟨_, parsed, Document.isConsistent_checkboxes.refuses_text spelled refuses⟩
  exact {
    isIdle := fun method path rejected => by
      obtain ⟨body, same⟩ := exists_answer_eq_done settings method rejected
      exact ⟨body, same ▸ Routine.isIdle_done body⟩
    malformed := fun path request text parsed given malformed =>
      Or.inr ⟨request, parsed, .of_malformed given malformed⟩
    commit := fun path text value parsed spelled α inner part reads refuses =>
      commit parsed spelled (reads.refuses refuses)
    time := fun path text value parsed spelled bad => commit parsed spelled bad.refuses
    submit := fun path text value parsed spelled none =>
      Or.inr ⟨_, parsed, Document.isConsistent_commands.refuses_text spelled
        ((Document.refuses_commands_iff value).mpr none)⟩
    set := fun path text value parsed spelled α inner part reads refuses =>
      set parsed spelled (reads.refuses refuses)
    checkbox := fun path text value parsed spelled bad => set parsed spelled bad.refuses }

/-- The ninth pulse is not used, and its width is below zero. -/
example : (Document.decode ("\x7b\"protocols\":\x7b\"protocol\":[\x7b\"pulses\":[[],[],[],[],[],[],[],[]," ++
    "\x7b\"width\":-1e-9\x7d]\x7d]\x7d\x7d")).toBool = false := by decide +kernel

end Operation

end DelayGenerator
