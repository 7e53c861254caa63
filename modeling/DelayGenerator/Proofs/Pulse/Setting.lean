/-
This file looks at a snapshot as thirty-six settings, each of which has a query and a reader of its own. A
reply changes the setting that was asked for and no other.
-/

import DelayGenerator.Operation.Fetch
import DelayGenerator.Proofs.Pulse.Directive

namespace DelayGenerator

/-- One of the settings of the instrument. -/
inductive Setting where
  | identification
  | description
  | triggerState
  | period
  | output (index : Fin outputCount) (quantity : Quantity)
  deriving DecidableEq

/-- What a quantity of an output is measured in. -/
@[reducible] def Quantity.Value : Quantity → Type
  | .state => Switch
  | .width => Binary64
  | .delay => Binary64
  | .polarity => Polarity

namespace Output

/-- A quantity of an output. -/
def quantity (output : Output) : (quantity : Quantity) → quantity.Value
  | .state => output.state
  | .width => output.width
  | .delay => output.delay
  | .polarity => output.polarity

theorem ext_quantity {output other : Output}
    (same : ∀ quantity, output.quantity quantity = other.quantity quantity) : output = other := by
  obtain ⟨delay, width, polarity, state⟩ := output
  obtain ⟨delay', width', polarity', state'⟩ := other
  cases same .delay
  cases same .width
  cases same .polarity
  cases same .state
  rfl

theorem outputs_ext {outputs others : Vector Output outputCount}
    (same : ∀ (index : Fin outputCount) (quantity : Quantity),
      outputs[index].quantity quantity = others[index].quantity quantity) : outputs = others := by
  apply Vector.ext
  intro index inRange
  exact ext_quantity (same ⟨index, inRange⟩)

end Output

namespace Setting

@[reducible] def Value : Setting → Type
  | identification => String
  | description => String
  | triggerState => Switch
  | period => Binary64
  | output _ quantity => quantity.Value

/-- The query that asks for a setting. -/
def query : Setting → Query
  | identification => .identification
  | description => .description
  | triggerState => .triggerState
  | period => .period
  | output index quantity => .output (channel index) quantity

/-- The settings of one output. -/
def ofOutput (index : Fin outputCount) : List Setting :=
  [output index .state, output index .width, output index .delay, output index .polarity]

/-- All settings, in the order in which they are asked for. -/
def all : List Setting :=
  [identification, description, triggerState, period] ++ (List.finRange outputCount).flatMap ofOutput

theorem mem_all (setting : Setting) : setting ∈ all := by
  cases setting with
  | output index quantity =>
      apply List.mem_append_right
      refine List.mem_flatMap.mpr ⟨index, List.mem_finRange index, ?_⟩
      cases quantity <;> simp [ofOutput]
  | _ => simp [all]

theorem nodup_all : all.Nodup := by decide

/-- The settings are asked for by the queries, one after another. -/
theorem map_query_all : all.map query = Query.all := by rfl

/-- The queries as they are written, one after another. -/
def script : List String :=
  ["*IDN?", ":INST:FULL?", ":PULSE0:STATE?", ":PULSE0:PER?"] ++
    [1, 2, 3, 4, 5, 6, 7, 8].flatMap fun number : Nat =>
      ["STATE?", "WIDTH?", "DELAY?", "POL?"].map fun name => ":PULSE" ++ toString number ++ ":" ++ name

theorem map_text_query_all : all.map (fun setting => setting.query.text) = script := by decide

/-- Every query is sent as it is. -/
theorem stripLineEnd_text_query (setting : Setting) :
    Text.stripLineEnd setting.query.text = setting.query.text := by
  cases setting with
  | output index quantity =>
      have mark : Text.EndsInLine "?" := ⟨by decide, by decide⟩
      exact (mark.append _).2
  | _ => decide

/-- The value that the reply to a command gives to a quantity. -/
def readQuantity? : (quantity : Quantity) → (command reply : String) → Option quantity.Value
  | .state, command, reply => (Reply.switch command reply).toOption
  | .width, command, reply => (Reply.seconds command reply).toOption
  | .delay, command, reply => (Reply.seconds command reply).toOption
  | .polarity, command, reply => (Reply.polarity command reply).toOption

/-- The value that a reply to its query gives to a setting. -/
def read? : (setting : Setting) → (reply : String) → Option setting.Value
  | identification, reply => (Reply.check Query.identification.text reply).toOption
  | description, reply => (Reply.check Query.description.text reply).toOption
  | triggerState, reply => (Reply.switch Query.triggerState.text reply).toOption
  | period, reply => (Reply.seconds Query.period.text reply).toOption
  | output index quantity, reply =>
    readQuantity? quantity (Query.output (channel index) quantity).text reply

/-- The value that the outcome of its exchange gives to a setting. -/
def told? (setting : Setting) (outcome : Except Fault String) : Option setting.Value :=
  outcome.toOption.bind setting.read?

end Setting

namespace Output

/-- The output with another value of a quantity. -/
def assign (output : Output) : (quantity : Quantity) → quantity.Value → Output
  | .state, value => { output with state := value }
  | .width, value => { output with width := value }
  | .delay, value => { output with delay := value }
  | .polarity, value => { output with polarity := value }

theorem quantity_assign (output : Output) (quantity : Quantity) (value : quantity.Value) :
    (output.assign quantity value).quantity quantity = value := by
  cases quantity <;> rfl

theorem quantity_assign_of_ne (output : Output) {quantity other : Quantity}
    (different : other ≠ quantity) (value : quantity.Value) :
    (output.assign quantity value).quantity other = output.quantity other := by
  cases quantity <;> cases other <;> first | rfl | contradiction

end Output

namespace Snapshot

/-- The value of a setting. -/
def setting (snapshot : Snapshot) : (setting : Setting) → setting.Value
  | .identification => snapshot.identity.identification
  | .description => snapshot.identity.description
  | .triggerState => snapshot.protocol.state
  | .period => snapshot.protocol.interval
  | .output index quantity => snapshot.protocol.outputs[index].quantity quantity

/-- A snapshot is nothing but its settings. -/
theorem ext_setting {snapshot other : Snapshot}
    (same : ∀ setting, snapshot.setting setting = other.setting setting) : snapshot = other := by
  obtain ⟨⟨identification, description⟩, outputs, state, interval⟩ := snapshot
  obtain ⟨⟨identification', description'⟩, outputs', state', interval'⟩ := other
  cases same .identification
  cases same .description
  cases same .triggerState
  cases same .period
  have outputs : outputs = outputs' := Output.outputs_ext fun index quantity => same (.output index quantity)
  rw [outputs]

/-- The snapshot with another value of a setting. -/
def assign (snapshot : Snapshot) : (setting : Setting) → setting.Value → Snapshot
  | .identification, value =>
    { snapshot with identity := { snapshot.identity with identification := value } }
  | .description, value =>
    { snapshot with identity := { snapshot.identity with description := value } }
  | .triggerState, value => { snapshot with protocol := { snapshot.protocol with state := value } }
  | .period, value => { snapshot with protocol := { snapshot.protocol with interval := value } }
  | .output index quantity, value =>
    snapshot.onOutput (channel index) fun output => output.assign quantity value

theorem outputs_onOutput (snapshot : Snapshot) (target index : Fin outputCount)
    (change : Output → Output) :
    (snapshot.onOutput (channel target) change).protocol.outputs[index] =
      if index = target then change snapshot.protocol.outputs[index]
      else snapshot.protocol.outputs[index] := by
  simp only [onOutput, channel, Fin.getElem_fin, Vector.getElem_mapIdx, beq_iff_eq,
    Nat.add_right_cancel_iff, Fin.ext_iff]

theorem setting_assign (snapshot : Snapshot) (setting : Setting) (value : setting.Value) :
    (snapshot.assign setting value).setting setting = value := by
  cases setting with
  | output index quantity =>
      change Output.quantity (Snapshot.protocol (onOutput _ _ _)).outputs[index] quantity = value
      rw [outputs_onOutput, if_pos rfl, Output.quantity_assign]
  | _ => rfl

theorem setting_assign_of_ne (snapshot : Snapshot) {setting other : Setting}
    (different : other ≠ setting) (value : setting.Value) :
    (snapshot.assign setting value).setting other = snapshot.setting other := by
  cases setting with
  | output index quantity =>
      cases other with
      | output place further =>
          change Output.quantity (Snapshot.protocol (onOutput _ _ _)).outputs[place] further = _
          rw [outputs_onOutput]
          split
          next same =>
            subst same
            refine Output.quantity_assign_of_ne _ ?_ _
            intro same
            exact different (by rw [same])
          next => rfl
      | _ => rfl
  | _ => cases other <;> first | rfl | contradiction

/-- A reply to the query for a setting changes that setting, if it can be read. -/
theorem answered_eq (snapshot : Snapshot) (setting : Setting) (reply : String) :
    (snapshot.answered setting.query reply).toOption =
      (setting.read? reply).map (snapshot.assign setting) := by
  have into {ε β γ : Type} (read : Except ε β) (next : β → γ) :
      Except.toOption (read >>= fun value => Except.ok (next value)) = read.toOption.map next := by
    cases read <;> rfl
  cases setting with
  | output index quantity => cases quantity <;> exact into _ _
  | _ => exact into _ _

theorem note_eq (snapshot : Snapshot) (setting : Setting) (outcome : Except Fault String) :
    snapshot.note setting.query outcome =
      ((setting.told? outcome).map (snapshot.assign setting)).getD snapshot := by
  cases outcome with
  | error fault => rfl
  | ok reply =>
      have answered := snapshot.answered_eq setting reply
      have taken : (Except.ok reply >>= snapshot.answered setting.query) = snapshot.answered setting.query reply := rfl
      change _ = ((setting.read? reply).map (snapshot.assign setting)).getD snapshot
      rw [← answered, note, taken]
      cases snapshot.answered setting.query reply <;> rfl

/-- The outcome of an exchange decides on the setting that was asked for. -/
theorem setting_note (snapshot : Snapshot) (setting : Setting) (outcome : Except Fault String) :
    (snapshot.note setting.query outcome).setting setting =
      (setting.told? outcome).getD (snapshot.setting setting) := by
  rw [note_eq]
  cases setting.told? outcome with
  | none => rfl
  | some value => exact snapshot.setting_assign setting value

/-- The outcome of an exchange has no influence on other settings. -/
theorem setting_note_of_ne (snapshot : Snapshot) {setting other : Setting}
    (different : other ≠ setting) (outcome : Except Fault String) :
    (snapshot.note setting.query outcome).setting other = snapshot.setting other := by
  rw [note_eq]
  cases setting.told? outcome with
  | none => rfl
  | some value => exact snapshot.setting_assign_of_ne different value

/-- The snapshot after exchanges for settings, one after another, each with its own outcome. -/
def noteEach (outcomes : Setting → Except Fault String) (settings : List Setting)
    (snapshot : Snapshot) : Snapshot :=
  settings.foldl (fun snapshot setting => snapshot.note setting.query (outcomes setting)) snapshot

theorem noteEach_congr {outcomes others : Setting → Except Fault String} {settings : List Setting}
    (same : ∀ setting ∈ settings, outcomes setting = others setting) (snapshot : Snapshot) :
    snapshot.noteEach outcomes settings = snapshot.noteEach others settings := by
  induction settings generalizing snapshot with
  | nil => rfl
  | cons first rest inductionHypothesis =>
      have later := inductionHypothesis fun setting member =>
        same setting (List.mem_cons_of_mem first member)
      simp only [noteEach, List.foldl_cons, same first List.mem_cons_self]
      exact later _

theorem setting_noteEach_of_not_mem (outcomes : Setting → Except Fault String)
    {settings : List Setting} {setting : Setting} (absent : setting ∉ settings)
    (snapshot : Snapshot) :
    (snapshot.noteEach outcomes settings).setting setting = snapshot.setting setting := by
  induction settings generalizing snapshot with
  | nil => rfl
  | cons first others inductionHypothesis =>
      rw [List.mem_cons, not_or] at absent
      obtain ⟨different, absent⟩ := absent
      have later := inductionHypothesis absent (snapshot.note first.query (outcomes first))
      exact later.trans (snapshot.setting_note_of_ne different _)

/-- When settings are asked for once each, every one of them has the value that the outcome of its own
exchange gives, or else its earlier value. -/
theorem setting_noteEach (outcomes : Setting → Except Fault String) {settings : List Setting}
    (once : settings.Nodup) {setting : Setting} (asked : setting ∈ settings) (snapshot : Snapshot) :
    (snapshot.noteEach outcomes settings).setting setting =
      (setting.told? (outcomes setting)).getD (snapshot.setting setting) := by
  induction settings generalizing snapshot with
  | nil => contradiction
  | cons first others inductionHypothesis =>
      obtain ⟨absent, once⟩ := List.nodup_cons.mp once
      rcases List.mem_cons.mp asked with rfl | asked
      · have later := setting_noteEach_of_not_mem outcomes absent
          (snapshot.note setting.query (outcomes setting))
        exact later.trans (snapshot.setting_note setting _)
      · have different : setting ≠ first := fun same => absent (same ▸ asked)
        have later := inductionHypothesis once asked (snapshot.note first.query (outcomes first))
        refine later.trans ?_
        rw [snapshot.setting_note_of_ne different]

end Snapshot

end DelayGenerator
