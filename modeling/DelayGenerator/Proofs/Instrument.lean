/-
This file shows how the instrument takes what the client sends: every directive of a protocol sets
what it names, and every query is answered with the setting that it asks for.
-/

import DelayGenerator.Proofs.Pulse.Transmission
import DelayGenerator.Proofs.Text.Blank
import Mathlib.Data.List.TakeWhile

namespace DelayGenerator

namespace Text

section

variable {α : Type} {test : α → Bool} {items : List α}

theorem splitAtFirst?_append (passed : ∀ item ∈ items, test item = false) {mark : α} (found : test mark = true)
    (rest : List α) : splitAtFirst? test (items ++ mark :: rest) = some (items, rest) := by
  have passed : ∀ item ∈ items, (!test item) = true := by simpa using passed
  simp [splitAtFirst?, List.takeWhile_append_of_pos passed, List.dropWhile_append_of_pos passed, found]

theorem splitAtFirst?_eq_none (passed : ∀ item ∈ items, test item = false) :
    splitAtFirst? test items = none := by
  have none : items.dropWhile (fun item => !test item) = [] :=
    List.dropWhile_eq_nil_iff.mpr (by simpa using passed)
  rw [splitAtFirst?, none]

end

end Text

namespace Instrument

open Directive

section

variable {number : Nat} {name argument : String}

/-- The channel is read back from an address. -/
theorem Addressed.ofText?_address (small : number ≤ Text.wordLimit) (tail : String) :
    Addressed.ofText? (address number ++ tail) =
      match Text.splitAtFirst? (· == ' ') tail.toList with
      | some (name, argument) =>
        some ⟨number, String.ofList name, some (Text.trim (String.ofList argument))⟩
      | none => some ⟨number, String.ofList tail.toList, none⟩ := by
  have begins : Text.after? ":PULSE" (address number ++ tail) = some (toString number ++ ":" ++ tail) := by
    rw [address, String.append_assoc, String.append_assoc, String.append_assoc]
    exact Text.after?_append _ _
  have colon : Text.splitAtFirst? (· == ':') (toString number ++ ":" ++ tail).toList =
      some ((toString number).toList, tail.toList) := by
    rw [String.append_assoc, String.toList_append, String.toList_append]
    refine Text.splitAtFirst?_append (fun character member => ?_) rfl tail.toList
    rw [Text.toList_toString] at member
    exact beq_false_of_ne (Text.ne_of_isDigit (Text.isDigit_of_mem_allDigits member) (by decide))
  cases space : Text.splitAtFirst? (· == ' ') tail.toList <;>
    simp only [Addressed.ofText?, begins, colon, String.ofList_toList, Text.natural?_toString small,
      Option.bind_eq_bind, Option.bind_some, space]

theorem Addressed.ofText?_query (small : number ≤ Text.wordLimit) (visible : Text.IsVisible name) :
    Addressed.ofText? (address number ++ name) = some ⟨number, name, none⟩ := by
  rw [Addressed.ofText?_address small, Text.splitAtFirst?_eq_none visible.beq_space]
  simp

theorem Addressed.ofText?_directive (small : number ≤ Text.wordLimit) (visible : Text.IsVisible name)
    (visibleToo : Text.IsVisible argument) :
    Addressed.ofText? (address number ++ (name ++ " " ++ argument)) = some ⟨number, name, some argument⟩ := by
  have space : (name ++ " " ++ argument).toList = name.toList ++ ' ' :: argument.toList := by simp
  rw [Addressed.ofText?_address small, space, Text.splitAtFirst?_append visible.beq_space rfl]
  simp [visibleToo.trim_eq]

/-- A command that addresses a channel is no other command. -/
theorem accept?_of_take {command : String} (begins : command.toList.take 6 = ":PULSE".toList)
    (instrument : Instrument) :
    instrument.accept? command = (Addressed.ofText? command).bind instrument.onChannel := by
  have other (fixed : String) (differs : fixed.toList.take 6 ≠ ":PULSE".toList) : (command == fixed) = false := by
    refine beq_false_of_ne fun same => differs ?_
    rw [← same, begins]
  simp only [accept?, other _ (show Query.identification.text.toList.take 6 ≠ _ by decide),
    other _ (show Query.description.text.toList.take 6 ≠ _ by decide),
    other _ (show Directive.factoryReset.text.toList.take 6 ≠ _ by decide),
    other _ (show Directive.unlockKeypad.text.toList.take 6 ≠ _ by decide),
    other _ (show ":SYST:KLOCK ON".toList.take 6 ≠ _ by decide), Bool.false_eq_true, if_false]
  rfl

theorem accept?_address (instrument : Instrument) (number : Nat) (tail : String) :
    instrument.accept? (address number ++ tail) =
      (Addressed.ofText? (address number ++ tail)).bind instrument.onChannel := by
  apply accept?_of_take
  rw [address, String.append_assoc, String.append_assoc, String.toList_append,
    List.take_append_of_le_length (by decide)]
  decide

end

/-- The instrument with another value of a quantity of an output. -/
def assign (instrument : Instrument) (index : Fin outputCount) (quantity : Quantity) (value : quantity.Value) :
    Instrument :=
  { instrument with
    outputs := instrument.outputs.set index
      ((getElem instrument.outputs index index.isLt).assign quantity value) index.isLt }

end Instrument

/-- The directive that sets a quantity of an output. -/
def Directive.assign (number : Nat) : (quantity : Quantity) → quantity.Value → Directive
  | .state, value => .state number value
  | .width, value => .width number value
  | .delay, value => .delay number value
  | .polarity, value => .polarity number value

theorem Directive.text_assign (number : Nat) (quantity : Quantity) (value : quantity.Value) :
    (assign number quantity value).text =
      address number ++ (quantity.mnemonic ++ " " ++ quantity.argument value) := by
  cases quantity <;> exact String.append_assoc

/-- What sets an output are four directives, one for each quantity. -/
theorem Directive.forOutput_eq (number : Nat) (output : Output) :
    forOutput number output = [Quantity.state, .polarity, .delay, .width].map fun quantity =>
      assign number quantity (output.quantity quantity) := rfl

namespace Instrument

open Directive

theorem isVisible_mnemonic (quantity : Quantity) : Text.IsVisible quantity.mnemonic := by
  cases quantity <;> decide

theorem channel_le_wordLimit (index : Fin outputCount) : channel index ≤ Text.wordLimit :=
  Nat.le_trans index.isLt (by decide)

theorem onOutput_directive (output : Output) (quantity : Quantity) {value : quantity.Value}
    (proper : quantity.IsProper value) :
    onOutput output quantity.mnemonic (some (quantity.argument value)) =
      some (output.assign quantity (quantity.transmitted value), acknowledgement) := by
  cases quantity with
  | state => cases value <;> rfl
  | width => exact congrArg (Option.map _) (Binary64.ofText?_scientific proper)
  | delay => exact congrArg (Option.map _) (Binary64.ofText?_scientific proper)
  | polarity => cases value <;> rfl

theorem onOutput_query (output : Output) (quantity : Quantity) :
    onOutput output (quantity.mnemonic ++ "?") none =
      some (output, quantity.report (output.quantity quantity)) := by
  cases quantity <;> rfl

/-- A channel from one on is an output. -/
theorem onChannel_output (instrument : Instrument) (index : Fin outputCount) (name : String)
    (argument : Option String) :
    instrument.onChannel ⟨channel index, name, argument⟩ =
      (onOutput (getElem instrument.outputs index index.isLt) name argument).map fun (output, reply) =>
        ({ instrument with outputs := instrument.outputs.set index output index.isLt }, reply) :=
  dif_pos index.isLt

section

variable (instrument : Instrument)

theorem answer_assign (index : Fin outputCount) (quantity : Quantity) {value : quantity.Value}
    (proper : quantity.IsProper value) :
    instrument.answer (Directive.assign (channel index) quantity value).text =
      (instrument.assign index quantity (quantity.transmitted value), acknowledgement) := by
  rw [answer, text_assign, accept?_address, Addressed.ofText?_directive (channel_le_wordLimit index)
    (isVisible_mnemonic quantity) (quantity.isVisible_argument value), Option.bind_some, onChannel_output,
    onOutput_directive _ quantity proper]
  rfl

theorem answer_startTrigger :
    instrument.answer startTrigger.text = ({ instrument with trigger := .on }, acknowledgement) := by
  rw [answer, show startTrigger.text = address 0 ++ ("STATE" ++ " " ++ "ON") from rfl, accept?_address,
    Addressed.ofText?_directive (by decide) (by decide) (by decide)]
  rfl

theorem answer_period {value : Binary64} (time : value.isTime) :
    instrument.answer (Directive.period value).text =
      ({ instrument with period := value.transmitted }, acknowledgement) := by
  have text : (Directive.period value).text = address 0 ++ ("PER" ++ " " ++ value.scientific) :=
    String.append_assoc
  have takes : instrument.onChannel ⟨0, "PER", some value.scientific⟩ =
      some ({ instrument with period := value.transmitted }, acknowledgement) :=
    congrArg (Option.map _) (Binary64.ofText?_scientific time)
  rw [answer, text, accept?_address, Addressed.ofText?_directive (by decide) (by decide)
    value.isVisible_scientific, Option.bind_some, takes]
  rfl

theorem answer_unlockKeypad :
    instrument.answer unlockKeypad.text = ({ instrument with keypadLocked := false }, acknowledgement) := rfl

/-- What the instrument says about itself. -/
def identity : Identity := ⟨"BNC,565-8,SIM0001,2.4.0", "T0, CHA, CHB, CHC, CHD, CHE, CHF, CHG, CHH"⟩

/-- What the instrument says about a setting. -/
def report (instrument : Instrument) : Setting → String
  | .identification => identity.identification
  | .description => identity.description
  | .triggerState => switchReport instrument.trigger
  | .period => instrument.period.scientific
  | .output index quantity =>
      quantity.report ((getElem instrument.outputs index index.isLt).quantity quantity)

/-- A query is answered with the setting that it asks for, and changes nothing. -/
theorem answer_query (setting : Setting) :
    instrument.answer setting.query.text = (instrument, instrument.report setting) := by
  cases setting with
  | identification => rfl
  | description => rfl
  | triggerState =>
      rw [answer, show Setting.triggerState.query.text = address 0 ++ "STATE?" from rfl, accept?_address,
        Addressed.ofText?_query (by decide) (by decide)]
      rfl
  | period =>
      rw [answer, show Setting.period.query.text = address 0 ++ "PER?" from rfl, accept?_address,
        Addressed.ofText?_query (by decide) (by decide)]
      rfl
  | output index quantity =>
      have text : (Setting.output index quantity).query.text =
          address (channel index) ++ (quantity.mnemonic ++ "?") := String.append_assoc
      have visible : Text.IsVisible (quantity.mnemonic ++ "?") := by cases quantity <;> decide
      rw [answer, text, accept?_address, Addressed.ofText?_query (channel_le_wordLimit index) visible,
        Option.bind_some, onChannel_output, onOutput_query]
      simp [report]

end

/-- The instrument once it has taken directives one after another. -/
def obey (instrument : Instrument) (directives : List Directive) : Instrument :=
  directives.foldl (fun instrument directive => (instrument.answer directive.text).1) instrument

theorem obey_append (instrument : Instrument) (directives more : List Directive) :
    instrument.obey (directives ++ more) = (instrument.obey directives).obey more :=
  List.foldl_append

/-- The four directives for an output set all of it, whatever it has been. -/
theorem obey_forOutput (instrument : Instrument) (index : Fin outputCount) {output : Output}
    (proper : ∀ quantity : Quantity, quantity.IsProper (output.quantity quantity)) :
    instrument.obey (forOutput (channel index) output) =
      { instrument with outputs := instrument.outputs.set index output.transmitted index.isLt } := by
  rw [forOutput_eq]
  simp only [obey, List.map_cons, List.map_nil, List.foldl_cons, List.foldl_nil,
    answer_assign _ index _ (proper _), assign]
  simp [Output.assign, Quantity.transmitted, Output.quantity, Output.transmitted]

end Instrument

namespace Directive

/-- The directives of a protocol for one output. -/
def ofIndex (protocol : Protocol) (index : Fin outputCount) : List Directive :=
  forOutput (channel index) (getElem protocol.outputs index index.isLt)

/-- The directives of a protocol, output by output. -/
theorem ofProtocol_eq (protocol : Protocol) :
    ofProtocol protocol = (List.finRange outputCount).flatMap (ofIndex protocol) ++
      [period protocol.interval, unlockKeypad, startTrigger] := by
  have groups : protocol.outputs.toList.mapIdx (fun index output => forOutput (channel index) output) =
      (List.finRange outputCount).map (ofIndex protocol) := by
    apply List.ext_getElem
    · simp
    · intro index _ _
      simp [ofIndex]
  rw [ofProtocol, groups, List.flatMap_def]

end Directive

namespace Instrument

open Directive

/-- The instrument once it has been set to a protocol. -/
def settled (protocol : Protocol) : Instrument :=
  ⟨protocol.transmitted.outputs, .on, protocol.transmitted.interval, false⟩

section

variable {protocol : Protocol}

/-- The directives for some outputs set these. -/
theorem obey_flatMap (proper : protocol.IsProper) (indices : List (Fin outputCount)) (instrument : Instrument) :
    instrument.obey (indices.flatMap (ofIndex protocol)) =
      { instrument with
        outputs := Vector.ofFn fun index =>
          if index ∈ indices then getElem protocol.transmitted.outputs index index.isLt
          else getElem instrument.outputs index index.isLt } := by
  induction indices generalizing instrument with
  | nil => simp [obey]
  | cons first others inductionHypothesis =>
      rw [List.flatMap_cons, obey_append, ofIndex, obey_forOutput instrument first (proper.quantity first),
        inductionHypothesis]
      rw [mk.injEq]
      refine ⟨?_, rfl, rfl, rfl⟩
      apply Vector.ext
      intro index inRange
      simp only [Vector.getElem_ofFn, List.mem_cons, Protocol.transmitted_outputs]
      by_cases later : (⟨index, inRange⟩ : Fin outputCount) ∈ others
      · simp [later]
      · by_cases own : (⟨index, inRange⟩ : Fin outputCount) = first
        · subst own
          simp [later]
        · have different : first.val ≠ index := fun same => own (Fin.ext same.symm)
          simp [later, own, different]

/-- Whatever the instrument has been set to before, the directives of a protocol set it to this
one. -/
theorem obey_ofProtocol (proper : protocol.IsProper) (instrument : Instrument) :
    instrument.obey (ofProtocol protocol) = settled protocol := by
  have ends (instrument : Instrument) :
      instrument.obey [Directive.period protocol.interval, unlockKeypad, startTrigger] =
        ⟨instrument.outputs, .on, protocol.interval.transmitted, false⟩ := by
    simp only [obey, List.foldl_cons, List.foldl_nil, answer_period _ proper.interval, answer_unlockKeypad,
      answer_startTrigger]
  rw [ofProtocol_eq, obey_append, ends, obey_flatMap proper, settled, mk.injEq]
  refine ⟨?_, rfl, rfl, rfl⟩
  apply Vector.ext
  intro index inRange
  simp [List.mem_finRange]

/-- Every directive of a protocol is acknowledged, whatever the instrument has been set to
before. -/
theorem answer_ofProtocol (proper : protocol.IsProper) {directive : Directive}
    (member : directive ∈ ofProtocol protocol) (instrument : Instrument) :
    (instrument.answer directive.text).2 = acknowledgement := by
  rw [ofProtocol_eq] at member
  rcases List.mem_append.mp member with output | last
  · obtain ⟨index, _, own⟩ := List.mem_flatMap.mp output
    rw [ofIndex, forOutput_eq] at own
    obtain ⟨quantity, _, rfl⟩ := List.mem_map.mp own
    rw [answer_assign instrument index quantity (proper.quantity index quantity)]
  · simp only [List.mem_cons, List.not_mem_nil, or_false] at last
    rcases last with rfl | rfl | rfl
    · rw [answer_period instrument proper.interval]
    · rw [answer_unlockKeypad]
    · rw [answer_startTrigger]

end

/-- The texts with which the instrument replies, next to times. -/
def fixedReplies : List String :=
  [identity.identification, identity.description, acknowledgement, "?", "1", "0", "NORM", "INV"]

/-- A text with which the instrument may reply. -/
def IsReply (text : String) : Prop := text ∈ fixedReplies ∨ ∃ value : Binary64, text = value.scientific

theorem isReply_switchReport (switch : Switch) : IsReply (switchReport switch) := by
  cases switch <;> exact Or.inl (by decide)

theorem isReply_token (polarity : Polarity) : IsReply polarity.token := by
  cases polarity <;> exact Or.inl (by decide)

theorem isReply_acknowledgement : IsReply acknowledgement := Or.inl (by decide)

/-- An argument that can be read is acknowledged. -/
theorem isReply_of_map {α β : Type} {argument : Option α} {change : α → β} {next : β} {reply : String}
    (takes : (argument.map fun value => (change value, acknowledgement)) = some (next, reply)) : IsReply reply := by
  obtain ⟨value, _, same⟩ := Option.map_eq_some_iff.mp takes
  cases same
  exact isReply_acknowledgement

theorem isReply_of_onTrigger {instrument next : Instrument} {name reply : String} {argument : Option String}
    (takes : instrument.onTrigger name argument = some (next, reply)) : IsReply reply := by
  unfold onTrigger at takes
  split at takes
  · cases takes
    exact isReply_switchReport _
  · cases takes
    exact Or.inr ⟨_, rfl⟩
  · exact isReply_of_map takes
  · exact isReply_of_map takes
  · contradiction

theorem isReply_of_onOutput {output next : Output} {name reply : String} {argument : Option String}
    (takes : onOutput output name argument = some (next, reply)) : IsReply reply := by
  unfold onOutput at takes
  split at takes
  · cases takes
    exact isReply_switchReport _
  · cases takes
    exact isReply_token _
  · cases takes
    exact Or.inr ⟨_, rfl⟩
  · cases takes
    exact Or.inr ⟨_, rfl⟩
  · exact isReply_of_map takes
  · exact isReply_of_map takes
  · exact isReply_of_map takes
  · exact isReply_of_map takes
  · cases takes
    exact isReply_acknowledgement
  · contradiction

theorem isReply_of_onChannel {instrument next : Instrument} {command : Addressed} {reply : String}
    (takes : instrument.onChannel command = some (next, reply)) : IsReply reply := by
  unfold onChannel at takes
  split at takes
  · exact isReply_of_onTrigger takes
  · split at takes
    · obtain ⟨⟨output, text⟩, taken, same⟩ := Option.map_eq_some_iff.mp takes
      cases same
      exact isReply_of_onOutput taken
    · contradiction

theorem isReply_of_accept {instrument next : Instrument} {command reply : String}
    (takes : instrument.accept? command = some (next, reply)) : IsReply reply := by
  have identification : identity.identification ∈ fixedReplies := List.mem_cons_self
  have description : identity.description ∈ fixedReplies := List.mem_cons_of_mem _ List.mem_cons_self
  unfold accept? at takes
  split at takes
  · cases takes
    exact Or.inl identification
  split at takes
  · cases takes
    exact Or.inl description
  split at takes
  · cases takes
    exact isReply_acknowledgement
  split at takes
  · cases takes
    exact isReply_acknowledgement
  split at takes
  · cases takes
    exact isReply_acknowledgement
  · obtain ⟨addressed, _, taken⟩ := Option.bind_eq_some_iff.mp takes
    exact isReply_of_onChannel taken

/-- Whatever the instrument has been set to, it replies with one of few texts or a time. -/
theorem isReply_answer (instrument : Instrument) (command : String) :
    IsReply (instrument.answer command).2 := by
  unfold answer
  cases takes : instrument.accept? command with
  | none => exact Or.inl (show "?" ∈ fixedReplies by decide)
  | some taken => exact isReply_of_accept takes

theorem IsReply.isPrintable {text : String} (reply : IsReply text) : Text.IsPrintable text := by
  rcases reply with fixed | ⟨value, rfl⟩
  · have all : ∀ text ∈ fixedReplies, Text.IsPrintable text := by decide
    exact all text fixed
  · exact value.isVisible_scientific.isPrintable

/-- No reply is longer than the description. -/
theorem IsReply.length_le {text : String} (reply : IsReply text) : text.length ≤ 42 := by
  rcases reply with fixed | ⟨value, rfl⟩
  · have all : ∀ text ∈ fixedReplies, text.length ≤ 42 := by decide
    exact all text fixed
  · exact Nat.le_trans value.length_scientific_le (by decide)

/-- The protocol to which the instrument has been set. -/
def protocol (instrument : Instrument) : Protocol :=
  ⟨instrument.outputs, instrument.trigger, instrument.period⟩

end Instrument

namespace Binary64

/-- A written time begins with a digit or a sign. -/
theorem exists_scientific_cons {value : Binary64} (time : value.isTime) :
    ∃ first rest, value.scientific.toList = first :: rest ∧ first ≠ '?' := by
  cases value with
  | nan => contradiction
  | infinite negative => contradiction
  | finite negative rank =>
      rw [scientific, write, String.toList_ofList]
      cases negative with
      | true => exact ⟨'-', _, rfl, by decide⟩
      | false =>
          rw [sign, if_neg Bool.false_ne_true, List.nil_append]
          split
          · exact ⟨'0', _, rfl, by decide⟩
          · exact ⟨Text.digit _, _, rfl, Text.ne_of_isDigit (Text.isDigit_digit _) (by decide)⟩

end Binary64

namespace Reply

/-- A reply without blanks passes as it is, unless it is the error token. -/
theorem check_of_isVisible {text : String} (visible : Text.IsVisible text) {first : Char} {rest : List Char}
    (begins : text.toList = first :: rest) (plain : first ≠ '?') (command : String) :
    check command text = .ok text := by
  rw [check, visible.trim_eq, begins]
  split <;> simp_all

theorem seconds_scientific {value : Binary64} (time : value.isTime) (command : String) :
    seconds command value.scientific = .ok value.transmitted := by
  obtain ⟨first, rest, begins, plain⟩ := Binary64.exists_scientific_cons time
  have read : time? value.scientific = some value.transmitted := by
    rw [time?, Binary64.ofText?_scientific time]
    exact Option.filter_some_pos (Binary64.isTime_transmitted time)
  have passes := check_of_isVisible value.isVisible_scientific begins plain command
  simp only [seconds, readWith, passes, bind, Except.bind, read]

theorem switch_switchReport (value : Switch) (command : String) :
    switch command (Instrument.switchReport value) = .ok value := by
  cases value <;> rfl

theorem polarity_token (value : Polarity) (command : String) : polarity command value.token = .ok value := by
  cases value <;> rfl

end Reply

/-- What is reported of a quantity is read back, but for the digits that a time loses. -/
theorem Quantity.readQuantity?_report (quantity : Quantity) {value : quantity.Value}
    (proper : quantity.IsProper value) (command : String) :
    Setting.readQuantity? quantity command (quantity.report value) = some (quantity.transmitted value) := by
  cases quantity with
  | state => exact congrArg Except.toOption (Reply.switch_switchReport value command)
  | width => exact congrArg Except.toOption (Reply.seconds_scientific proper command)
  | delay => exact congrArg Except.toOption (Reply.seconds_scientific proper command)
  | polarity => exact congrArg Except.toOption (Reply.polarity_token value command)

namespace Instrument

/-- What the client makes of the replies to all queries is what the instrument has been set to, but
for the digits that times lose. -/
theorem read?_report {instrument : Instrument} (proper : instrument.protocol.IsProper)
    (setting : Setting) :
    setting.read? (instrument.report setting) =
      some (Snapshot.setting ⟨identity, instrument.protocol.transmitted⟩ setting) := by
  cases setting with
  | identification =>
      change Setting.read? .identification identity.identification = some identity.identification
      decide +kernel
  | description =>
      change Setting.read? .description identity.description = some identity.description
      decide +kernel
  | triggerState => exact congrArg Except.toOption (Reply.switch_switchReport instrument.trigger _)
  | period => exact congrArg Except.toOption (Reply.seconds_scientific proper.interval _)
  | output index quantity =>
      have transmitted := instrument.protocol.transmitted_outputs index
      rw [Snapshot.setting, transmitted, Output.quantity_transmitted]
      exact quantity.readQuantity?_report (proper.quantity index quantity) _

/-- Whatever has been known of the instrument, the replies to all queries give what it has been set
to. -/
theorem noteEach_report {instrument : Instrument} (proper : instrument.protocol.IsProper)
    (snapshot : Snapshot) :
    snapshot.noteEach (fun setting => .ok (instrument.report setting)) Setting.all =
      ⟨identity, instrument.protocol.transmitted⟩ := by
  apply Snapshot.ext_setting
  intro setting
  rw [Snapshot.setting_noteEach _ Setting.nodup_all setting.mem_all]
  change ((setting.read? (instrument.report setting)).getD _) = _
  rw [read?_report proper]
  rfl

section

variable {protocol : Protocol}

theorem isProper_settled (proper : protocol.IsProper) : (settled protocol).protocol.IsProper :=
  Protocol.isProper_iff.mpr ⟨proper.transmitted.interval, proper.transmitted.outputs⟩

/-- What can be known of an instrument that has been set to a protocol is the protocol as it has
arrived, with the trigger on. -/
theorem transmitted_settled (proper : protocol.IsProper) :
    (settled protocol).protocol.transmitted = { protocol.transmitted with state := .on } := by
  have same := proper.transmitted_transmitted
  rw [Protocol.transmitted, Protocol.mk.injEq] at same
  rw [Protocol.transmitted, Protocol.mk.injEq]
  exact ⟨same.1, rfl, same.2.2⟩

end

end Instrument

end DelayGenerator
