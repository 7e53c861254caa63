/-
This file shows that the instrument is a file of registers: a directive writes the register that it names, a query reads
one, and each register holds what has been written to it last.
-/

import DelayGenerator.Proofs.Instrument.Grammar

namespace DelayGenerator

namespace Instrument

/-- The word and the digit by which a directive sets a switch. -/
inductive SpellsSwitch : Switch → String → Prop
  | on : SpellsSwitch .on "ON"
  | one : SpellsSwitch .on "1"
  | off : SpellsSwitch .off "OFF"
  | zero : SpellsSwitch .off "0"

/-- The word for a polarity, in directives and in replies. -/
inductive SpellsPolarity : Polarity → String → Prop
  | normal : SpellsPolarity .normal "NORM"
  | inverted : SpellsPolarity .inverted "INV"

inductive SpellsKeypad : (locked : Bool) → String → Prop
  | locked : SpellsKeypad true "ON"
  | unlocked : SpellsKeypad false "OFF"

/-- The digit by which a reply tells a switch. -/
inductive TellsSwitch : Switch → String → Prop
  | on : TellsSwitch .on "1"
  | off : TellsSwitch .off "0"

theorem switchArgument?_eq_some_iff {argument : String} {switch : Switch} :
    switchArgument? argument = some switch ↔ SpellsSwitch switch argument := by
  constructor
  · intro read
    simp only [switchArgument?, Bool.or_eq_true, beq_iff_eq] at read
    split at read
    next on =>
      cases read
      rcases on with rfl | rfl
      · exact .on
      · exact .one
    next =>
      split at read
      next off =>
        cases read
        rcases off with rfl | rfl
        · exact .off
        · exact .zero
      next => contradiction
  · rintro (_ | _ | _ | _) <;> rfl

theorem polarityArgument?_eq_some_iff {argument : String} {polarity : Polarity} :
    polarityArgument? argument = some polarity ↔ SpellsPolarity polarity argument := by
  constructor
  · intro read
    simp only [polarityArgument?, beq_iff_eq] at read
    split at read
    next inverted =>
      cases read
      rw [inverted]
      exact .inverted
    next =>
      split at read
      next normal =>
        cases read
        rw [normal]
        exact .normal
      next => contradiction
  · rintro (_ | _) <;> rfl

theorem tellsSwitch_switchReport (switch : Switch) : TellsSwitch switch (switchReport switch) := by
  cases switch with
  | on => exact .on
  | off => exact .off

theorem spellsPolarity_token (polarity : Polarity) : SpellsPolarity polarity polarity.token := by
  cases polarity with
  | normal => exact .normal
  | inverted => exact .inverted

end Instrument

/-- What the argument of a directive stands for. -/
def Quantity.readArgument? : (quantity : Quantity) → String → Option quantity.Value
  | .state, argument => Instrument.switchArgument? argument
  | .width, argument => Binary64.ofText? argument
  | .delay, argument => Binary64.ofText? argument
  | .polarity, argument => Instrument.polarityArgument? argument

/-- What the instrument keeps. -/
inductive Register where
  | trigger
  | period
  | keypad
  | output (index : Fin outputCount) (quantity : Quantity)
  deriving DecidableEq

namespace Register

open Instrument

@[reducible] def Value : Register → Type
  | trigger => Switch
  | period => Binary64
  | keypad => Bool
  | output _ quantity => quantity.Value

/-- How the argument of a directive spells the value of a register. Times are written as numbers. -/
def Spells : (register : Register) → register.Value → (argument : String) → Prop
  | trigger, value, argument => SpellsSwitch value argument
  | period, value, argument => Binary64.ofText? argument = some value
  | keypad, value, argument => SpellsKeypad value argument
  | output _ .state, value, argument => SpellsSwitch value argument
  | output _ .width, value, argument => Binary64.ofText? argument = some value
  | output _ .delay, value, argument => Binary64.ofText? argument = some value
  | output _ .polarity, value, argument => SpellsPolarity value argument

/-- How the reply to a query tells the value of a register. That of the keypad is not told. -/
def Tells : (register : Register) → register.Value → (reply : String) → Prop
  | trigger, value, reply => TellsSwitch value reply
  | period, value, reply => reply = value.scientific
  | keypad, _, _ => False
  | output _ .state, value, reply => TellsSwitch value reply
  | output _ .width, value, reply => reply = value.scientific
  | output _ .delay, value, reply => reply = value.scientific
  | output _ .polarity, value, reply => SpellsPolarity value reply

/-- What a register tells as the instrument leaves the factory. The outputs have pulses of one microsecond, ten
microseconds apart. -/
def factoryReply : Register → String
  | trigger => "0"
  | period => "1.000000E-3"
  | keypad => "?"
  | output _ .state => "0"
  | output _ .width => "1.000000E-6"
  | output index .delay => toString (index.val + 1) ++ ".000000E-5"
  | output _ .polarity => "NORM"

/-- A keypad is locked or not. -/
def keypadArgument? (argument : String) : Option Bool :=
  if argument = "ON" then some true else if argument = "OFF" then some false else none

theorem keypadArgument?_eq_some_iff {argument : String} {locked : Bool} :
    keypadArgument? argument = some locked ↔ SpellsKeypad locked argument := by
  constructor
  · intro read
    rw [keypadArgument?] at read
    split at read
    next on =>
      cases read
      rw [on]
      exact .locked
    next =>
      split at read
      next off =>
        cases read
        rw [off]
        exact .unlocked
      next => contradiction
  · rintro (_ | _) <;> rfl

/-- What an argument stands for. -/
def read? : (register : Register) → String → Option register.Value
  | trigger, argument => switchArgument? argument
  | period, argument => Binary64.ofText? argument
  | keypad, argument => keypadArgument? argument
  | output _ quantity, argument => quantity.readArgument? argument

/-- How a value is told. That of the keypad is not. -/
def report : (register : Register) → register.Value → String
  | trigger, value => switchReport value
  | period, value => value.scientific
  | keypad, _ => "?"
  | output _ quantity, value => quantity.report value

/-- An argument stands for the value that it spells, and for no other. -/
theorem read?_eq_some_iff (register : Register) {argument : String} {value : register.Value} :
    register.read? argument = some value ↔ register.Spells value argument := by
  cases register with
  | trigger => exact switchArgument?_eq_some_iff
  | period => exact Iff.rfl
  | keypad => exact keypadArgument?_eq_some_iff
  | output index quantity =>
      cases quantity with
      | state => exact switchArgument?_eq_some_iff
      | width => exact Iff.rfl
      | delay => exact Iff.rfl
      | polarity => exact polarityArgument?_eq_some_iff

theorem read?_eq_none_iff (register : Register) {argument : String} :
    register.read? argument = none ↔ ∀ value, ¬register.Spells value argument := by
  rw [Option.eq_none_iff_forall_ne_some]
  exact forall_congr' fun value => not_congr register.read?_eq_some_iff

/-- Every register that can be asked for tells its value. -/
theorem tells_report {register : Register} (told : register ≠ keypad) (value : register.Value) :
    register.Tells value (register.report value) := by
  cases register with
  | trigger => exact tellsSwitch_switchReport value
  | period => rfl
  | keypad => contradiction
  | output index quantity =>
      cases quantity with
      | state => exact tellsSwitch_switchReport value
      | width => rfl
      | delay => rfl
      | polarity => exact spellsPolarity_token value

/-- The command asks for the register. The keypad cannot be asked for. -/
def Asks : Register → (command : String) → Prop
  | trigger, command => Addressed.Writes ⟨0, "STATE?", none⟩ command
  | period, command => Addressed.Writes ⟨0, "PER?", none⟩ command
  | keypad, _ => False
  | output index quantity, command => Addressed.Writes ⟨channel index, quantity.mnemonic ++ "?", none⟩ command

theorem Asks.ne_keypad {register : Register} {command : String} (asks : register.Asks command) :
    register ≠ keypad := by
  rintro rfl
  exact asks

/-- The command is a directive for the register, with an argument. -/
def Directs : Register → (argument command : String) → Prop
  | trigger, argument, command => Addressed.Writes ⟨0, "STATE", some argument⟩ command
  | period, argument, command => Addressed.Writes ⟨0, "PER", some argument⟩ command
  | keypad, argument, command => command = ":SYST:KLOCK " ++ argument
  | output index quantity, argument, command =>
    Addressed.Writes ⟨channel index, quantity.mnemonic, some argument⟩ command

end Register

namespace Instrument

/-- What a register holds. -/
def value (instrument : Instrument) : (register : Register) → register.Value
  | .trigger => instrument.trigger
  | .period => instrument.period
  | .keypad => instrument.keypadLocked
  | .output index quantity => (getElem instrument.outputs index index.isLt).quantity quantity

/-- An instrument is nothing but its registers. -/
theorem ext_value {instrument other : Instrument}
    (same : ∀ register, instrument.value register = other.value register) : instrument = other := by
  obtain ⟨outputs, trigger, period, keypadLocked⟩ := instrument
  obtain ⟨outputs', trigger', period', keypadLocked'⟩ := other
  cases same .trigger
  cases same .period
  cases same .keypad
  have outputs : outputs = outputs' := Output.outputs_ext fun index quantity => same (.output index quantity)
  rw [outputs]

theorem report_factory {register : Register} (told : register ≠ .keypad) :
    register.report (factory.value register) = register.factoryReply := by
  cases register with
  | trigger => rfl
  | period => decide +kernel
  | keypad => contradiction
  | output index quantity =>
      revert index
      cases quantity <;> decide +kernel

/-- The instrument with another value in a register. -/
def write (instrument : Instrument) : (register : Register) → register.Value → Instrument
  | .trigger, value => { instrument with trigger := value }
  | .period, value => { instrument with period := value }
  | .keypad, value => { instrument with keypadLocked := value }
  | .output index quantity, value => instrument.assign index quantity value

section

variable (instrument : Instrument) {register other : Register}

theorem value_write (register : Register) (value : register.Value) :
    (instrument.write register value).value register = value := by
  cases register with
  | output index quantity =>
      change Output.quantity (getElem (instrument.outputs.set _ _ index.isLt) index.val _) quantity = value
      rw [Vector.getElem_set_self, Output.quantity_assign]
  | _ => rfl

theorem value_write_of_ne (different : other ≠ register) (value : register.Value) :
    (instrument.write register value).value other = instrument.value other := by
  cases register with
  | output index quantity =>
      cases other with
      | output place further =>
          change Output.quantity (getElem (instrument.outputs.set _ _ index.isLt) place.val _) further = _
          by_cases same : index = place
          · subst same
            have apart : further ≠ quantity := fun same => different (by rw [same])
            rw [Vector.getElem_set_self, Output.quantity_assign_of_ne _ apart]
            rfl
          · rw [Vector.getElem_set_ne _ _ fun here => same (Fin.ext here)]
            rfl
      | _ => rfl
  | _ => cases other <;> first | rfl | contradiction

end

/-- The command names a source for an output, which the instrument acknowledges and does not keep. -/
def IsSync (command : String) : Prop :=
  ∃ (index : Fin outputCount) (argument : String), Addressed.Writes ⟨channel index, "SYNC", some argument⟩ command

/-- What a channel does with a directive. -/
theorem onOutput_read (output : Output) (quantity : Quantity) (argument : String) :
    onOutput output quantity.mnemonic (some argument) =
      (quantity.readArgument? argument).map fun value => (output.assign quantity value, acknowledgement) := by
  cases quantity <;> rfl

/-- All that an output knows. -/
theorem onOutput_cases {output next : Output} {name reply : String} {argument : Option String}
    (takes : onOutput output name argument = some (next, reply)) :
    (∃ quantity : Quantity, name = quantity.mnemonic ++ "?" ∧ argument = none) ∨
      (∃ (quantity : Quantity) (given : String), name = quantity.mnemonic ∧ argument = some given) ∨
      (∃ given, name = "SYNC" ∧ argument = some given) := by
  unfold onOutput at takes
  split at takes
  · exact Or.inl ⟨.state, rfl, rfl⟩
  · exact Or.inl ⟨.polarity, rfl, rfl⟩
  · exact Or.inl ⟨.delay, rfl, rfl⟩
  · exact Or.inl ⟨.width, rfl, rfl⟩
  · exact Or.inr (Or.inl ⟨.state, _, rfl, rfl⟩)
  · exact Or.inr (Or.inl ⟨.polarity, _, rfl, rfl⟩)
  · exact Or.inr (Or.inl ⟨.delay, _, rfl, rfl⟩)
  · exact Or.inr (Or.inl ⟨.width, _, rfl, rfl⟩)
  · exact Or.inr (Or.inr ⟨_, rfl, rfl⟩)
  · contradiction

section

variable {instrument : Instrument} {command : String} {register : Register}

theorem Addressed.Writes.begins {addressed : Addressed} (writes : addressed.Writes command) :
    command.toList.take 6 = ":PULSE".toList := by
  cases writes <;> simp only [String.toList_append, List.append_assoc] <;>
    exact List.take_left' rfl

theorem accept?_writes {addressed : Addressed} (writes : addressed.Writes command) :
    instrument.accept? command = instrument.onChannel addressed := by
  rw [accept?_of_take writes.begins, Addressed.ofText?_eq_some.mpr writes]
  rfl

theorem accept?_eq_none (other : command ∉ [Query.identification.text, Query.description.text, "*RST",
    ":SYST:KLOCK OFF", ":SYST:KLOCK ON"]) (unaddressed : ∀ addressed : Addressed, ¬addressed.Writes command) :
    instrument.accept? command = none := by
  have unread : Addressed.ofText? command = none :=
    Option.eq_none_iff_forall_ne_some.mpr fun addressed read =>
      unaddressed addressed (Addressed.ofText?_eq_some.mp read)
  simp only [List.mem_cons, List.not_mem_nil, or_false, not_or] at other
  obtain ⟨notIdentification, notDescription, notReset, notUnlock, notLock⟩ := other
  simp only [accept?, beq_iff_eq, notIdentification, notDescription, Directive.text, notReset, notUnlock, notLock,
    if_false, unread]
  rfl

/-- A query is answered with what the register holds. -/
theorem answer_of_asks (asks : register.Asks command) :
    instrument.answer command = (instrument, register.report (instrument.value register)) := by
  cases register with
  | trigger => rw [answer, accept?_writes asks]; rfl
  | period => rw [answer, accept?_writes asks]; rfl
  | keypad => exact asks.elim
  | output index quantity =>
      rw [answer, accept?_writes asks, onChannel_output, onOutput_query]
      simp [Register.report, value]

theorem accept?_keypad (instrument : Instrument) (argument : String) :
    instrument.accept? (":SYST:KLOCK " ++ argument) =
      (Register.keypadArgument? argument).map fun locked =>
        ({ instrument with keypadLocked := locked }, acknowledgement) := by
  by_cases on : argument = "ON"
  · subst on
    rfl
  by_cases off : argument = "OFF"
  · subst off
    rfl
  have begins : (":SYST:KLOCK " ++ argument).toList.take 6 = ":SYST:".toList := by
    rw [String.toList_append, List.take_append_of_le_length (by decide)]
    decide
  have other (fixed : String) (differs : fixed.toList.take 6 ≠ ":SYST:".toList) :
      ":SYST:KLOCK " ++ argument ≠ fixed := fun same => differs (by rw [← same, begins])
  rw [Register.keypadArgument?, if_neg on, if_neg off, Option.map_none]
  apply accept?_eq_none
  · simp only [List.mem_cons, List.not_mem_nil, or_false, not_or]
    refine ⟨other _ (by decide), other _ (by decide), other _ (by decide), ?_, ?_⟩
    · exact fun same => off (String.append_right_inj ":SYST:KLOCK " |>.mp same)
    · exact fun same => on (String.append_right_inj ":SYST:KLOCK " |>.mp same)
  · intro addressed writes
    rw [writes.begins] at begins
    exact absurd begins (by decide)

/-- A directive writes what its argument stands for. -/
theorem accept?_of_directs {argument : String} (directs : register.Directs argument command) :
    instrument.accept? command =
      (register.read? argument).map fun value => (instrument.write register value, acknowledgement) := by
  cases register with
  | trigger => exact accept?_writes directs
  | period => exact accept?_writes directs
  | keypad =>
      rw [show command = ":SYST:KLOCK " ++ argument from directs]
      exact accept?_keypad instrument argument
  | output index quantity =>
      rw [accept?_writes directs, onChannel_output, onOutput_read, Option.map_map]
      rfl

theorem answer_of_sync (sync : IsSync command) : instrument.answer command = (instrument, acknowledgement) := by
  obtain ⟨index, argument, writes⟩ := sync
  rw [answer, accept?_writes writes, onChannel_output]
  simp [onOutput]

/-- All that the trigger knows. -/
theorem onTrigger_cases {next : Instrument} {name reply : String} {argument : Option String}
    (takes : instrument.onTrigger name argument = some (next, reply)) :
    ((name = "STATE?" ∨ name = "PER?") ∧ argument = none) ∨
      ∃ given, (name = "STATE" ∨ name = "PER") ∧ argument = some given := by
  unfold onTrigger at takes
  split at takes
  · exact Or.inl ⟨Or.inl rfl, rfl⟩
  · exact Or.inl ⟨Or.inr rfl, rfl⟩
  · exact Or.inr ⟨_, Or.inl rfl, rfl⟩
  · exact Or.inr ⟨_, Or.inr rfl, rfl⟩
  · contradiction

theorem onChannel_foreign (instrument : Instrument) {index : Nat} (foreign : ¬index < outputCount) {name : String}
    {argument : Option String} : instrument.onChannel ⟨index + 1, name, argument⟩ = none :=
  dif_neg foreign

/-- A command that a channel knows asks for a register, or is a directive for one, or names a source. -/
theorem known_of_onChannel {addressed : Addressed} {next : Instrument} {reply : String}
    (writes : addressed.Writes command) (takes : instrument.onChannel addressed = some (next, reply)) :
    (∃ register : Register, register.Asks command) ∨
      (∃ (register : Register) (argument : String), register.Directs argument command) ∨ IsSync command := by
  obtain ⟨number, name, argument⟩ := addressed
  cases number with
  | zero =>
      rcases onTrigger_cases takes with ⟨rfl | rfl, rfl⟩ | ⟨given, rfl | rfl, rfl⟩
      · exact Or.inl ⟨.trigger, writes⟩
      · exact Or.inl ⟨.period, writes⟩
      · exact Or.inr (Or.inl ⟨.trigger, given, writes⟩)
      · exact Or.inr (Or.inl ⟨.period, given, writes⟩)
  | succ index =>
      by_cases inRange : index < outputCount
      · have takes := (onChannel_output instrument ⟨index, inRange⟩ name argument).symm.trans takes
        obtain ⟨⟨output, text⟩, taken, _⟩ := Option.map_eq_some_iff.mp takes
        rcases onOutput_cases taken with ⟨quantity, rfl, rfl⟩ | ⟨quantity, given, rfl, rfl⟩ | ⟨given, rfl, rfl⟩
        · exact Or.inl ⟨.output ⟨index, inRange⟩ quantity, writes⟩
        · exact Or.inr (Or.inl ⟨.output ⟨index, inRange⟩ quantity, given, writes⟩)
        · exact Or.inr (Or.inr ⟨⟨index, inRange⟩, given, writes⟩)
      · rw [onChannel_foreign instrument inRange] at takes
        contradiction

/-- The commands that concern no register by itself. -/
def fixedCommands : List String := [Query.identification.text, Query.description.text, "*RST"]

/-- The instrument can do nothing with the command: it asks for no register, and it directs none, or with an argument
that stands for nothing. -/
structure IsUnknown (command : String) : Prop where
  notAsking : ∀ register : Register, ¬register.Asks command
  notReadable : ∀ (register : Register) (argument : String), register.Directs argument command →
    ∀ value, ¬register.Spells value argument
  notSync : ¬IsSync command
  notFixed : command ∉ fixedCommands

theorem accept?_of_isUnknown (unknown : IsUnknown command) : instrument.accept? command = none := by
  by_cases directs : ∃ (register : Register) (argument : String), register.Directs argument command
  · obtain ⟨register, argument, directs⟩ := directs
    rw [accept?_of_directs directs, register.read?_eq_none_iff.mpr (unknown.notReadable register argument directs),
      Option.map_none]
  by_cases written : ∃ addressed : Addressed, addressed.Writes command
  · obtain ⟨addressed, writes⟩ := written
    rw [accept?_writes writes]
    refine Option.eq_none_iff_forall_ne_some.mpr fun ⟨next, reply⟩ takes => ?_
    rcases known_of_onChannel writes takes with ⟨register, asks⟩ | known | sync
    · exact unknown.notAsking register asks
    · exact directs known
    · exact unknown.notSync sync
  · have notUnlock : command ≠ ":SYST:KLOCK OFF" := fun same => directs ⟨.keypad, "OFF", same⟩
    have notLock : command ≠ ":SYST:KLOCK ON" := fun same => directs ⟨.keypad, "ON", same⟩
    refine accept?_eq_none ?_ fun addressed writes => written ⟨addressed, writes⟩
    simpa [fixedCommands, notUnlock, notLock] using unknown.notFixed

/-- What the instrument does with a command: how it is left, and what it replies. -/
inductive Serves (instrument : Instrument) (command : String) : Instrument → String → Prop
  | told {register : Register} (asks : register.Asks command) :
      Serves instrument command instrument (register.report (instrument.value register))
  | identified (asks : command = Query.identification.text) :
      Serves instrument command instrument identity.identification
  | described (asks : command = Query.description.text) : Serves instrument command instrument identity.description
  | wrote {register : Register} {argument : String} {value : register.Value}
      (directs : register.Directs argument command) (reads : register.read? argument = some value) :
      Serves instrument command (instrument.write register value) acknowledgement
  | passed (sync : IsSync command) : Serves instrument command instrument acknowledgement
  | reset (asks : command = "*RST") : Serves instrument command factory acknowledgement
  | refused (unknown : IsUnknown command) : Serves instrument command instrument "?"

theorem answer_serves (instrument : Instrument) (command : String) :
    Serves instrument command (instrument.answer command).1 (instrument.answer command).2 := by
  by_cases asks : ∃ register : Register, register.Asks command
  · obtain ⟨register, asks⟩ := asks
    rw [answer_of_asks asks]
    exact .told asks
  by_cases directs : ∃ (register : Register) (argument : String) (value : register.Value),
      register.Directs argument command ∧ register.read? argument = some value
  · obtain ⟨register, argument, value, directs, reads⟩ := directs
    rw [answer, accept?_of_directs directs, reads]
    exact .wrote directs reads
  by_cases sync : IsSync command
  · rw [answer_of_sync sync]
    exact .passed sync
  by_cases fixed : command ∈ fixedCommands
  · simp only [fixedCommands, List.mem_cons, List.not_mem_nil, or_false] at fixed
    rcases fixed with rfl | rfl | rfl
    · exact .identified rfl
    · exact .described rfl
    · exact .reset rfl
  · have unknown : IsUnknown command := by
      refine ⟨fun register asked => asks ⟨register, asked⟩, fun register argument directed => ?_, sync, fixed⟩
      exact fun value spells =>
        directs ⟨register, argument, value, directed, register.read?_eq_some_iff.mpr spells⟩
    rw [answer, accept?_of_isUnknown unknown]
    exact .refused unknown

/-- The instrument after commands, one after another. -/
def after (instrument : Instrument) (commands : List String) : Instrument :=
  commands.foldl (fun instrument command => (instrument.answer command).1) instrument

theorem after_append (instrument : Instrument) (commands more : List String) :
    instrument.after (commands ++ more) = (instrument.after commands).after more :=
  List.foldl_append

theorem after_cons (instrument : Instrument) (command : String) (more : List String) :
    instrument.after (command :: more) = (instrument.answer command).1.after more := rfl

theorem answer_reset (instrument : Instrument) : instrument.answer "*RST" = (factory, acknowledgement) := rfl

theorem not_directs_reset {argument : String} : ¬register.Directs argument "*RST" := by
  intro directs
  cases register with
  | keypad =>
      have same := congrArg String.toList (show "*RST" = ":SYST:KLOCK " ++ argument from directs)
      rw [String.toList_append] at same
      simp at same
  | _ => exact absurd (Addressed.Writes.begins directs) (by decide)

/-- A directive is acknowledged if its argument stands for something. -/
theorem answer_of_directs {argument : String} (directs : register.Directs argument command) :
    instrument.answer command =
      match register.read? argument with
      | some value => (instrument.write register value, acknowledgement)
      | none => (instrument, "?") := by
  rw [answer, accept?_of_directs directs]
  cases register.read? argument <;> rfl

/-- What is neither acknowledged as a directive for the register nor resets it leaves the register alone. -/
theorem Serves.value_eq {next : Instrument} {reply : String} (serves : Serves instrument command next reply)
    (quiet : reply = acknowledgement → command ≠ "*RST" ∧ ∀ argument, ¬register.Directs argument command) :
    next.value register = instrument.value register := by
  cases serves with
  | @wrote named argument value directs reads =>
      refine value_write_of_ne instrument (fun same => ?_) value
      subst same
      exact (quiet rfl).2 argument directs
  | reset asks => exact absurd asks (quiet rfl).1
  | _ => rfl

theorem value_after {commands : List String}
    (quiet : ∀ earlier command later, commands = earlier ++ command :: later →
      ((instrument.after earlier).answer command).2 = acknowledgement →
        command ≠ "*RST" ∧ ∀ argument, ¬register.Directs argument command) :
    (instrument.after commands).value register = instrument.value register := by
  induction commands generalizing instrument with
  | nil => rfl
  | cons command rest inductionHypothesis =>
      have first := (answer_serves instrument command).value_eq (quiet [] command rest rfl)
      refine (inductionHypothesis fun earlier next later parts => ?_).trans first
      exact quiet (command :: earlier) next later (by rw [parts, List.cons_append])

/-- After these commands, fresh from the factory, the instrument acknowledges a command. -/
def Acknowledges (commands : List String) (command : String) : Prop :=
  ((factory.after commands).answer command).2 = acknowledgement

/-- The argument is that of the latest directive for the register that has been acknowledged since the latest reset. -/
def IsLatest (register : Register) (commands : List String) (argument : String) : Prop :=
  ∃ earlier directive later, commands = earlier ++ directive :: later ∧ register.Directs argument directive ∧
    Acknowledges earlier directive ∧
      ∀ between command rest, later = between ++ command :: rest →
        Acknowledges (earlier ++ directive :: between) command →
          command ≠ "*RST" ∧ ∀ other, ¬register.Directs other command

/-- No directive for the register has been acknowledged since the latest reset. -/
def IsUntouched (register : Register) (commands : List String) : Prop :=
  ∀ earlier directive later argument, commands = earlier ++ directive :: later → register.Directs argument directive →
    Acknowledges earlier directive → "*RST" ∈ later

theorem acknowledges_of_directs {commands : List String} {argument : String}
    (directs : register.Directs argument command) (acknowledged : Acknowledges commands command) :
    ∃ value, register.read? argument = some value ∧
      (factory.after (commands ++ [command])).value register = value := by
  rw [Acknowledges, answer_of_directs directs] at acknowledged
  cases reads : register.read? argument with
  | none =>
      rw [reads] at acknowledged
      have differs : "?" ≠ acknowledgement := by decide
      exact absurd acknowledged differs
  | some value =>
      refine ⟨value, rfl, ?_⟩
      rw [after_append, after_cons, answer_of_directs directs, reads]
      exact value_write _ register value

theorem value_of_isLatest {commands : List String} {argument : String}
    (latest : IsLatest register commands argument) :
    ∃ value, register.read? argument = some value ∧ (factory.after commands).value register = value := by
  obtain ⟨earlier, directive, later, rfl, directs, acknowledged, quiet⟩ := latest
  obtain ⟨value, reads, written⟩ := acknowledges_of_directs directs acknowledged
  refine ⟨value, reads, ?_⟩
  have parts (more : List String) : factory.after (earlier ++ directive :: more) =
      (factory.after (earlier ++ [directive])).after more := by
    rw [← after_append, List.append_assoc, List.singleton_append]
  rw [parts, ← written]
  refine value_after fun between command rest split answers => quiet between command rest split ?_
  rw [Acknowledges, parts]
  exact answers

theorem splits_concat {α : Type} {items earlier later : List α} {item last : α}
    (parts : items ++ [last] = earlier ++ item :: later) :
    (items = earlier ∧ last = item ∧ later = []) ∨
      ∃ before, later = before ++ [last] ∧ items = earlier ++ item :: before := by
  rcases later.eq_nil_or_concat with rfl | ⟨before, final, rfl⟩
  · obtain ⟨same, final⟩ := List.append_inj' parts rfl
    exact Or.inl ⟨same, List.singleton_inj.mp final, rfl⟩
  · rw [List.concat_eq_append] at parts ⊢
    rw [← List.cons_append, ← List.append_assoc] at parts
    obtain ⟨same, final⟩ := List.append_inj' parts rfl
    exact Or.inr ⟨before, by rw [List.singleton_inj.mp final], same⟩

theorem IsUntouched.of_concat {commands : List String} {last : String}
    (untouched : IsUntouched register (commands ++ [last])) (notReset : last ≠ "*RST") :
    IsUntouched register commands := by
  intro earlier directive later argument parts directs acknowledged
  have later := untouched earlier directive (later ++ [last]) argument (by simp [parts]) directs acknowledged
  simpa [notReset.symm] using later

theorem value_of_isUntouched {commands : List String} (untouched : IsUntouched register commands) :
    (factory.after commands).value register = factory.value register := by
  induction commands using List.reverseRecOn with
  | nil => rfl
  | append_singleton commands last inductionHypothesis =>
      rw [after_append]
      by_cases reset : last = "*RST"
      · rw [reset, after_cons, answer_reset]
        rfl
      · refine Eq.trans ?_ (inductionHypothesis (untouched.of_concat reset))
        refine (answer_serves _ last).value_eq fun acknowledged => ⟨reset, fun argument directs => ?_⟩
        exact absurd (untouched commands last [] argument rfl directs acknowledged) List.not_mem_nil

/-- The latest directive stays so until another one is acknowledged, or a reset. -/
theorem IsLatest.concat {commands : List String} {argument last : String} (latest : IsLatest register commands argument)
    (quiet : Acknowledges commands last → last ≠ "*RST" ∧ ∀ other, ¬register.Directs other last) :
    IsLatest register (commands ++ [last]) argument := by
  obtain ⟨earlier, directive, later, rfl, directs, acknowledged, quietBefore⟩ := latest
  refine ⟨earlier, directive, later ++ [last], by simp, directs, acknowledged, ?_⟩
  intro between command rest parts answers
  rcases splits_concat parts with ⟨rfl, rfl, _⟩ | ⟨before, _, parts⟩
  · exact quiet answers
  · exact quietBefore between command before parts answers

theorem IsUntouched.concat {commands : List String} {last : String} (untouched : IsUntouched register commands)
    (quiet : Acknowledges commands last → ∀ argument, ¬register.Directs argument last) :
    IsUntouched register (commands ++ [last]) := by
  intro earlier directive later argument parts directs acknowledged
  rcases splits_concat parts with ⟨rfl, rfl, _⟩ | ⟨before, rfl, splits⟩
  · exact absurd directs (quiet acknowledged argument)
  · exact List.mem_append_left _ (untouched earlier directive before argument splits directs acknowledged)

theorem isUntouched_reset (register : Register) (commands : List String) :
    IsUntouched register (commands ++ ["*RST"]) := by
  intro earlier directive later argument parts directs _
  rcases splits_concat parts with ⟨_, rfl, _⟩ | ⟨before, rfl, _⟩
  · exact absurd directs not_directs_reset
  · exact List.mem_append_right _ List.mem_cons_self

/-- A register has been written since the latest reset, or it has not. -/
theorem isLatest_or_isUntouched (register : Register) (commands : List String) :
    (∃ argument, IsLatest register commands argument) ∨ IsUntouched register commands := by
  induction commands using List.reverseRecOn with
  | nil => exact Or.inr fun earlier directive later argument parts => by simp at parts
  | append_singleton commands last inductionHypothesis =>
      by_cases reset : last = "*RST"
      · subst reset
        exact Or.inr (isUntouched_reset register commands)
      by_cases directs : Acknowledges commands last ∧ ∃ argument, register.Directs argument last
      · obtain ⟨acknowledged, argument, directs⟩ := directs
        exact Or.inl ⟨argument, commands, last, [], rfl, directs, acknowledged, by simp⟩
      · have quiet (acknowledged : Acknowledges commands last) (argument : String) : ¬register.Directs argument last :=
          fun directed => directs ⟨acknowledged, argument, directed⟩
        rcases inductionHypothesis with ⟨argument, latest⟩ | untouched
        · exact Or.inl ⟨argument, latest.concat fun acknowledged => ⟨reset, quiet acknowledged⟩⟩
        · exact Or.inr (untouched.concat quiet)

/-- The names of what a channel may be asked for or set to. -/
def knownNames : List String :=
  ["STATE?", "PER?", "POL?", "DELAY?", "WIDTH?", "STATE", "PER", "POL", "DELAY", "WIDTH", "SYNC"]

theorem mem_knownNames_of_onChannel {addressed : Addressed} {next : Instrument} {reply : String}
    (takes : instrument.onChannel addressed = some (next, reply)) : addressed.name ∈ knownNames := by
  obtain ⟨number, name, argument⟩ := addressed
  change name ∈ knownNames
  cases number with
  | zero => rcases onTrigger_cases takes with ⟨rfl | rfl, _⟩ | ⟨_, rfl | rfl, _⟩ <;> decide
  | succ index =>
      by_cases inRange : index < outputCount
      · have takes := (onChannel_output instrument ⟨index, inRange⟩ name argument).symm.trans takes
        obtain ⟨⟨output, text⟩, taken, _⟩ := Option.map_eq_some_iff.mp takes
        rcases onOutput_cases taken with ⟨quantity, rfl, _⟩ | ⟨quantity, _, rfl, _⟩ | ⟨_, rfl, _⟩
        · cases quantity <;> decide
        · cases quantity <;> decide
        · decide
      · rw [onChannel_foreign instrument inRange] at takes
        contradiction

end

/-- What the next command does after others, fresh from the factory. Each register holds what the argument of the latest
directive for it stands for, or what the factory has put there. A directive writes the one register that it names, if
its argument stands for something; all else that is asked leaves the instrument as it is. -/
structure KeepsRegisters (commands : List String) (command : String) (before : Instrument)
    (served : Instrument × String) : Prop where
  either : ∀ register, (∃ argument, IsLatest register commands argument) ∨ IsUntouched register commands
  latest : ∀ register argument, IsLatest register commands argument →
    ∃ value, register.Spells value argument ∧ before.value register = value ∧
      (register.Asks command → served.1 = before ∧ register.Tells value served.2)
  untouched : ∀ register, IsUntouched register commands →
    before.value register = factory.value register ∧
      (register.Asks command → served = (before, register.factoryReply))
  directed : ∀ (register : Register) argument, register.Directs argument command →
    (∃ value, register.Spells value argument ∧ served.2 = acknowledgement ∧ served.1.value register = value ∧
      ∀ other, other ≠ register → served.1.value other = before.value other) ∨
    ((∀ value, ¬register.Spells value argument) ∧ served = (before, "?"))
  synced : IsSync command → served = (before, acknowledgement)
  reset : command = "*RST" → served = (factory, acknowledgement)
  acknowledged : served.2 = acknowledgement → served.1 = before ∨ command = "*RST" ∨
    ∃ register : Register, (∃ argument, register.Directs argument command) ∧
      ∀ other, other ≠ register → served.1.value other = before.value other
  introduced : command = Query.identification.text ∨ command = Query.description.text → served.1 = before
  refused : served.2 = "?" → served.1 = before
  unnamed : ∀ number name argument, Addressed.Writes ⟨number, name, argument⟩ command → name ∉ knownNames →
    served = (before, "?")
  foreign : ∀ number name argument, Addressed.Writes ⟨number, name, argument⟩ command → outputCount < number →
    served = (before, "?")
  unknown : IsUnknown command → served = (before, "?")

theorem Serves.kept_of_refused {instrument next : Instrument} {command reply : String}
    (serves : Serves instrument command next reply) (refused : reply = "?") : next = instrument := by
  cases serves with
  | wrote => exact absurd refused (by decide)
  | reset => exact absurd refused (by decide)
  | _ => rfl

theorem Serves.changes {instrument next : Instrument} {command reply : String}
    (serves : Serves instrument command next reply) : next = instrument ∨ command = "*RST" ∨
      ∃ register : Register, (∃ argument, register.Directs argument command) ∧
        ∀ other, other ≠ register → next.value other = instrument.value other := by
  cases serves with
  | @wrote register argument value directs reads =>
      exact Or.inr (Or.inr ⟨register, ⟨argument, directs⟩, fun other apart => value_write_of_ne _ apart value⟩)
  | reset asks => exact Or.inr (Or.inl asks)
  | _ => exact Or.inl rfl

theorem keepsRegisters (commands : List String) (command : String) :
    KeepsRegisters commands command (factory.after commands) ((factory.after commands).answer command) where
  either := fun register => isLatest_or_isUntouched register commands
  latest := by
    intro register argument latest
    obtain ⟨value, reads, holds⟩ := value_of_isLatest latest
    refine ⟨value, register.read?_eq_some_iff.mp reads, holds, fun asks => ?_⟩
    rw [answer_of_asks asks, holds]
    exact ⟨rfl, Register.tells_report asks.ne_keypad value⟩
  untouched := by
    intro register untouched
    have holds := value_of_isUntouched untouched
    refine ⟨holds, fun asks => ?_⟩
    rw [answer_of_asks asks, holds, report_factory asks.ne_keypad]
  directed := by
    intro register argument directs
    rw [answer_of_directs directs]
    cases reads : register.read? argument with
    | none => exact Or.inr ⟨register.read?_eq_none_iff.mp reads, rfl⟩
    | some value =>
        exact Or.inl ⟨value, register.read?_eq_some_iff.mp reads, rfl, value_write _ register value,
          fun other apart => value_write_of_ne _ apart value⟩
  synced := answer_of_sync
  reset := by
    rintro rfl
    rfl
  acknowledged := fun _ => (answer_serves _ command).changes
  introduced := by
    rintro (rfl | rfl) <;> rfl
  refused := (answer_serves _ command).kept_of_refused
  unnamed := by
    intro number name argument writes unnamed
    have none : (factory.after commands).onChannel ⟨number, name, argument⟩ = .none :=
      Option.eq_none_iff_forall_ne_some.mpr fun _ takes => unnamed (mem_knownNames_of_onChannel takes)
    rw [answer, accept?_writes writes, none]
    rfl
  foreign := by
    intro number name argument writes foreign
    obtain ⟨index, rfl⟩ := Nat.exists_eq_add_of_lt (Nat.zero_lt_of_lt foreign)
    rw [Nat.zero_add] at writes foreign
    rw [answer, accept?_writes writes, onChannel_foreign _ (by omega)]
    rfl
  unknown := by
    intro unknown
    rw [answer, accept?_of_isUnknown unknown]
    rfl

example : ((factory.after [":PULSE3:POL INV", ":PULSE+03:WIDTH \t2.5e-6 ", ":PULSE3:WIDTH x", ":PULSE9:WIDTH 1"]).answer
    ":PULSE3:WIDTH?").2 = "2.500000E-6" := by decide +kernel

end Instrument

end DelayGenerator
