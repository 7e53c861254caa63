/-
This file says in which ways a form may spell one value, and that it does not matter which of them it takes: documents
that differ in their spellings give the same snapshot.
-/

import DelayGenerator.Proofs.Document.Selection
import DelayGenerator.Proofs.Json.Literal
import DelayGenerator.Proofs.Text.LetterCase

namespace DelayGenerator

namespace Text

/-- A whole number that a signed machine word holds. -/
def IsSigned (value : Int) : Prop := -(signedLimit : Int) ≤ value ∧ value < signedLimit

theorem isVisible_toString (value : Int) : IsVisible (toString value) := by
  have digits (size : Nat) : ∀ character ∈ allDigits size, 0x21 ≤ character.toNat ∧ character.toNat ≤ 0x7E :=
    fun character member => visible_of_isDigit (isDigit_of_mem_allDigits member)
  cases value with
  | ofNat size =>
      change IsVisible (toString size)
      rw [IsVisible, toList_toString]
      exact digits size
  | negSucc size =>
      have sign : IsVisible "-" := by decide
      change IsVisible ("-" ++ toString (size + 1))
      rw [IsVisible, String.toList_append, toList_toString, List.forall_mem_append]
      exact ⟨sign, digits (size + 1)⟩

end Text

theorem Switch.ofBool_eq {value : Bool} {switch : Switch} (same : value = true ↔ switch = .on) :
    Switch.ofBool value = switch := by
  cases value <;> cases switch <;> simp_all [Switch.ofBool]

theorem Polarity.ofBool_eq {value : Bool} {polarity : Polarity} (same : value = true ↔ polarity = .inverted) :
    Polarity.ofBool value = polarity := by
  cases value <;> cases polarity <;> simp_all [Polarity.ofBool]

namespace Document

open Text (IsSigned SpellsWord Surrounds)

/-- A field is missing if it is left out, `null`, or a text of blanks. -/
inductive IsMissing : Option Json → Prop
  | absent : IsMissing none
  | null : IsMissing (some .null)
  | blank {text : String} (blank : ∀ character ∈ text.toList, Text.isBlank character = true) :
      IsMissing (some (.text text))

def switchWords : Switch → List String
  | .on => ["on", "true", "1"]
  | .off => ["off", "false", "0"]

def polarityWords : Polarity → List String
  | .inverted => ["inverted", "inv", "true", "1"]
  | .normal => ["normal", "norm", "false", "0"]

/-- A switch is given by a checkbox, by a number, or by a word. -/
inductive SpellsSwitch (switch : Switch) : Json → Prop
  | checkbox {value : Bool} (same : value = true ↔ switch = .on) : SpellsSwitch switch (.bool value)
  | integer {value : Int} (same : value ≠ 0 ↔ switch = .on) : SpellsSwitch switch (.integer value)
  | number {value : Binary64} (same : value.isZero = false ↔ switch = .on) : SpellsSwitch switch (.number value)
  | word {word text : String} (known : word ∈ switchWords switch) (spells : SpellsWord word text) :
      SpellsSwitch switch (.text text)

/-- A polarity is given by a checkbox, by a whole number, or by a word. -/
inductive SpellsPolarity (polarity : Polarity) : Json → Prop
  | checkbox {value : Bool} (same : value = true ↔ polarity = .inverted) : SpellsPolarity polarity (.bool value)
  | integer {value : Int} (held : IsSigned value) (same : value ≠ 0 ↔ polarity = .inverted) :
      SpellsPolarity polarity (.integer value)
  | word {word text : String} (known : word ∈ polarityWords polarity) (spells : SpellsWord word text) :
      SpellsPolarity polarity (.text text)

/-- An index is given by a whole number or by its digits. -/
inductive SpellsIndex (index : Int) : Json → Prop
  | integer (held : IsSigned index) : SpellsIndex index (.integer index)
  | text {text : String} (held : IsSigned index) (surrounds : Surrounds (toString index) text) :
      SpellsIndex index (.text text)

/-- A time is given by a number, by a text of the same literal if this is a whole number of a machine word or has few
digits, or by a text of any literal to which the number is the nearest one. -/
inductive SpellsTime (time : Binary64) : Json → Prop
  | number {value : Json} (same : value.number? = some time) : SpellsTime time value
  | literal {literal text : String} {numeral : Json.Numeral} {value : Json} (surrounds : Surrounds literal text)
      (written : Json.IsLiteral literal numeral) (simple : numeral.IsWord ∨ numeral.IsShort)
      (parsed : Json.parse literal = .ok value) (same : value.number? = some time) : SpellsTime time (.text text)
  | nearest {literal text : String} {numeral : Json.Numeral} (surrounds : Surrounds literal text)
      (written : Json.IsLiteral literal numeral) (same : numeral.decimal.toBinary64 = time) :
      SpellsTime time (.text text)

/-- Two records have the same in a field, or nothing, or two spellings of one value. -/
inductive Alike {α : Type} (Spells : α → Json → Prop) : Option Json → Option Json → Prop
  | same (given : Option Json) : Alike Spells given given
  | missing {one other : Option Json} (missing : IsMissing one) (missingToo : IsMissing other) :
      Alike Spells one other
  | spelled {value : α} {one other : Json} (spells : Spells value one) (spellsToo : Spells value other) :
      Alike Spells (some one) (some other)

/-- Two records have lists of as many items in a field, or both have none. -/
inductive ListsAlike (Items : Json → Json → Prop) : Option Json → Option Json → Prop
  | absent : ListsAlike Items none none
  | lists {items others : List Json} (each : List.Forall₂ Items items others) :
      ListsAlike Items (some (.list items)) (some (.list others))

structure PulsesAlike (pulse other : Json) : Prop where
  records : pulse.IsRecord ∧ other.IsRecord
  delay : Alike SpellsTime (pulse.member? "delay") (other.member? "delay")
  width : Alike SpellsTime (pulse.member? "width") (other.member? "width")
  polarity : Alike SpellsPolarity (pulse.member? "polarity") (other.member? "polarity")
  inverted : Alike SpellsPolarity (pulse.member? "inv") (other.member? "inv")
  state : Alike SpellsSwitch (pulse.member? "state") (other.member? "state")

structure EntriesAlike (entry other : Json) : Prop where
  records : entry.IsRecord ∧ other.IsRecord
  index : Alike SpellsIndex (entry.member? "index") (other.member? "index")
  pulses : ListsAlike PulsesAlike (entry.member? "pulses") (other.member? "pulses")

structure ProtocolsAlike (protocols other : Json) : Prop where
  records : protocols.IsRecord ∧ other.IsRecord
  state : Alike SpellsSwitch (protocols.member? "state") (other.member? "state")
  interval : Alike SpellsTime (protocols.member? "interval") (other.member? "interval")
  entries : ListsAlike EntriesAlike (protocols.member? "protocol") (other.member? "protocol")

/-- Two documents of records have the same texts, and elsewhere differ at most in how their values are spelled. -/
structure SpelledAlike (document other : Json) : Prop where
  records : document.IsRecord ∧ other.IsRecord
  texts : ∀ name ∈ ["idn", "inst_full"], document.member? name = other.member? name
  protocols : ∃ protocols others, document.member? "protocols" = some protocols ∧
    other.member? "protocols" = some others ∧ ProtocolsAlike protocols others

section

variable {α β : Type} {Spells : α → Json → Prop} {read? : Json → Option β}

/-- Each spelling gives something, and gives what the value means. -/
def Reads (Spells : α → Json → Prop) (read? : Json → Option β) (meaning : α → Option β) : Prop :=
  ∀ value json, Spells value json → isNothing json = false ∧ read? json = meaning value

theorem isNothing_text {text : String} (some : Text.trim text ≠ "") : isNothing (.text text) = false :=
  beq_false_of_ne some

/-- A spelled word is read as this word. -/
theorem reads_word {words : List String} {word text : String}
    (plain : ∀ word ∈ words, Text.ArePlain word.toList ∧ word ≠ "") (known : word ∈ words)
    (spells : SpellsWord word text) : isNothing (.text text) = false ∧ Document.word text = word := by
  obtain ⟨plain, some⟩ := plain word known
  have same := spells.lowercase_trim plain
  refine ⟨isNothing_text fun none => some ?_, same⟩
  rw [← same, none]
  rfl

theorem reads_switch : Reads SpellsSwitch switchIn? some := by
  intro switch json spells
  cases spells with
  | checkbox same => exact ⟨rfl, congrArg some (Switch.ofBool_eq same)⟩
  | integer same => exact ⟨rfl, congrArg some (Switch.ofBool_eq (bne_iff_ne.trans same))⟩
  | number same => exact ⟨rfl, congrArg some (Switch.ofBool_eq (by simpa using same))⟩
  | word known spells =>
      obtain ⟨given, same⟩ := reads_word (by cases switch <;> decide) known spells
      refine ⟨given, ?_⟩
      rw [switchIn?, same]
      cases switch with
      | on => exact if_pos known
      | off =>
          have apart : ∀ word ∈ switchWords .off, word ∉ switchWords .on := by decide
          exact (if_neg (apart _ known)).trans (if_pos known)

theorem reads_polarity : Reads SpellsPolarity polarityIn? some := by
  intro polarity json spells
  cases spells with
  | checkbox same => exact ⟨rfl, congrArg some (Polarity.ofBool_eq same)⟩
  | integer held same =>
      exact ⟨rfl, (if_pos held.2).trans (congrArg some (Polarity.ofBool_eq (bne_iff_ne.trans same)))⟩
  | word known spells =>
      obtain ⟨given, same⟩ := reads_word (by cases polarity <;> decide) known spells
      refine ⟨given, ?_⟩
      rw [polarityIn?, same]
      cases polarity with
      | inverted => exact if_pos known
      | normal =>
          have apart : ∀ word ∈ polarityWords .normal, word ∉ polarityWords .inverted := by decide
          exact (if_neg (apart _ known)).trans (if_pos known)

theorem reads_index : Reads SpellsIndex indexIn? some := by
  intro index json spells
  cases spells with
  | integer held => exact ⟨rfl, if_pos held.2⟩
  | text held surrounds =>
      have trimmed := surrounds.trim_eq
      rw [(Text.isVisible_toString index).trim_eq] at trimmed
      have read := Text.integer?_toString held.1 held.2
      refine ⟨isNothing_text fun none => ?_, ?_⟩
      · rw [← trimmed, none] at read
        contradiction
      · rw [indexIn?, trimmed, read]

/-- A text of a literal is read as the number nearest to it. -/
theorem timeIn?_of_isLiteral {literal text : String} {numeral : Json.Numeral} (surrounds : Surrounds literal text)
    (written : Json.IsLiteral literal numeral) :
    isNothing (.text text) = false ∧
      timeIn? (.text text) = (some numeral.decimal.toBinary64).filter Binary64.isTime := by
  obtain ⟨visible, read⟩ := written.ofText?
  have trimmed := surrounds.trim_eq.trans visible.trim_eq
  refine ⟨isNothing_text fun none => ?_, ?_⟩
  · rw [← trimmed, none] at read
    contradiction
  · rw [timeIn?, numberIn?, trimmed, read]

theorem reads_time : Reads SpellsTime timeIn? fun time => (some time).filter Binary64.isTime := by
  intro time json spells
  cases spells with
  | number same =>
      cases json with
      | integer value =>
          cases same
          exact ⟨rfl, rfl⟩
      | number value =>
          cases same
          exact ⟨rfl, rfl⟩
      | _ => contradiction
  | literal surrounds written simple parsed same =>
      obtain ⟨value, kept, nearest⟩ := Json.Numeral.exists_toJson written.areDigits simple
      cases parsed.symm.trans (written.parse kept)
      cases same.symm.trans nearest
      exact timeIn?_of_isLiteral surrounds written
  | nearest surrounds written same =>
      cases same
      exact timeIn?_of_isLiteral surrounds written

theorem IsMissing.filter {given : Option Json} (missing : IsMissing given) :
    given.filter (fun value => !isNothing value) = none := by
  cases missing with
  | absent => rfl
  | null => rfl
  | blank blank =>
      have nothing := beq_iff_eq.mpr (Text.trim_of_blank blank)
      rw [Option.filter_some_neg]
      simpa [isNothing] using nothing

/-- The same is read of both fields. -/
theorem Alike.map_filter {meaning : α → Option β} (reads : Reads Spells read? meaning) {one other : Option Json}
    (alike : Alike Spells one other) :
    (one.filter fun value => !isNothing value).map read? = (other.filter fun value => !isNothing value).map read? := by
  cases alike with
  | same => rfl
  | missing missing missingToo => rw [missing.filter, missingToo.filter]
  | spelled spells spellsToo =>
      obtain ⟨given, read⟩ := reads _ _ spells
      obtain ⟨givenToo, readToo⟩ := reads _ _ spellsToo
      simp [Option.filter, given, givenToo, read, readToo]

/-- A field is understood in both records or in none, and gives the same. -/
theorem Alike.given? {meaning : α → Option β} (reads : Reads Spells read? meaning) {record other : Json}
    {name : String} (alike : Alike Spells (record.member? name) (other.member? name)) :
    (IsUnderstood read? record name ↔ IsUnderstood read? other name) ∧
      given? read? record name = given? read? other name := by
  have same : (entered? record name).map read? = (entered? other name).map read? := alike.map_filter reads
  have understood (record : Json) : IsUnderstood read? record name ↔
      ∀ result ∈ (entered? record name).map read?, result.isSome := by
    simp [IsUnderstood]
  have given (record : Json) : Document.given? read? record name = ((entered? record name).map read?).join := by
    rw [Document.given?]
    cases entered? record name <;> rfl
  rw [understood, understood, given, given, same]
  exact ⟨Iff.rfl, rfl⟩

end

section

variable {β : Type} {Items : Json → Json → Prop} {accepted : Json → Prop} {made : Json → β}

/-- Both values are accepted or none is, and the same is made of them. -/
def MadeAlike (accepted : Json → Prop) (made : Json → β) (one other : Json) : Prop :=
  (accepted one ↔ accepted other) ∧ made one = made other

theorem forall_of_forall₂ (each : ∀ item partner, Items item partner → accepted item ∧ accepted partner)
    {items others : List Json} (alike : List.Forall₂ Items items others) :
    (∀ item ∈ items, accepted item) ∧ ∀ item ∈ others, accepted item := by
  induction alike with
  | nil => simp
  | cons first _ inductionHypothesis =>
      obtain ⟨acceptedFirst, acceptedFirstToo⟩ := each _ _ first
      exact ⟨List.forall_mem_cons.mpr ⟨acceptedFirst, inductionHypothesis.1⟩,
        List.forall_mem_cons.mpr ⟨acceptedFirstToo, inductionHypothesis.2⟩⟩

theorem madeAlike_items (each : ∀ item partner, Items item partner → MadeAlike accepted made item partner)
    {items others : List Json} (alike : List.Forall₂ Items items others) :
    ((∀ item ∈ items, accepted item) ↔ ∀ item ∈ others, accepted item) ∧ items.map made = others.map made := by
  induction alike with
  | nil => exact ⟨Iff.rfl, rfl⟩
  | cons first _ inductionHypothesis =>
      obtain ⟨acceptedAlike, madeAlike⟩ := each _ _ first
      obtain ⟨later, laterToo⟩ := inductionHypothesis
      rw [List.forall_mem_cons, List.forall_mem_cons, List.map_cons, List.map_cons, acceptedAlike, madeAlike, later,
        laterToo]
      exact ⟨Iff.rfl, rfl⟩

variable {record other : Json} {name : String}

theorem ListsAlike.list_iff (alike : ListsAlike Items (record.member? name) (other.member? name)) :
    (∀ value ∈ record.member? name, ∃ items, value = .list items) ↔
      ∀ value ∈ other.member? name, ∃ items, value = .list items := by
  generalize record.member? name = one at alike
  generalize other.member? name = two at alike
  cases alike <;> simp

theorem ListsAlike.items (alike : ListsAlike Items (record.member? name) (other.member? name)) :
    List.Forall₂ Items (record.itemsOf name) (other.itemsOf name) := by
  unfold Json.itemsOf
  generalize record.member? name = one at alike
  generalize other.member? name = two at alike
  cases alike with
  | absent => exact .nil
  | lists each => exact each

end

attribute [mk_iff] IsPulse IsEntry IsProtocol IsUnderstandable

theorem PulsesAlike.madeAlike {pulse other : Json} (alike : PulsesAlike pulse other) :
    MadeAlike IsPulse formOfPulse pulse other := by
  obtain ⟨delayUnderstood, delay⟩ := alike.delay.given? reads_time
  obtain ⟨widthUnderstood, width⟩ := alike.width.given? reads_time
  obtain ⟨polarityUnderstood, polarity⟩ := alike.polarity.given? reads_polarity
  obtain ⟨invertedUnderstood, inverted⟩ := alike.inverted.given? reads_polarity
  obtain ⟨stateUnderstood, state⟩ := alike.state.given? reads_switch
  constructor
  · rw [isPulse_iff, isPulse_iff, delayUnderstood, widthUnderstood, polarityUnderstood, invertedUnderstood,
      stateUnderstood]
  · rw [formOfPulse, delay, width, polarity, inverted, state, formOfPulse]

theorem EntriesAlike.madeAlike {entry other : Json} (alike : EntriesAlike entry other) :
    MadeAlike IsEntry formOfEntry entry other := by
  obtain ⟨indexUnderstood, index⟩ := alike.index.given? reads_index
  obtain ⟨pulsesAlike, pulses⟩ := madeAlike_items (fun _ _ => PulsesAlike.madeAlike) alike.pulses.items
  constructor
  · rw [isEntry_iff, isEntry_iff, indexUnderstood, alike.pulses.list_iff, pulsesAlike]
  · rw [formOfEntry, index, pulses, formOfEntry]

theorem ProtocolsAlike.madeAlike {protocols other : Json} (alike : ProtocolsAlike protocols other) :
    MadeAlike IsProtocol formOfProtocol protocols other := by
  obtain ⟨stateUnderstood, state⟩ := alike.state.given? reads_switch
  obtain ⟨intervalUnderstood, interval⟩ := alike.interval.given? reads_time
  obtain ⟨entriesAlike, entries⟩ := madeAlike_items (fun _ _ => EntriesAlike.madeAlike) alike.entries.items
  constructor
  · rw [isProtocol_iff, isProtocol_iff, stateUnderstood, intervalUnderstood, alike.entries.list_iff, entriesAlike]
  · rw [formOfProtocol, state, interval, entries, formOfProtocol]

theorem hasRecords_of_member {document protocols : Json} (record : document.IsRecord)
    (given : document.member? "protocols" = some protocols) (recordToo : protocols.IsRecord)
    (entries : ∀ entry ∈ protocols.itemsOf "protocol",
      entry.IsRecord ∧ ∀ pulse ∈ entry.itemsOf "pulses", pulse.IsRecord) : HasRecords document := by
  refine ⟨record, ?_, ?_, ?_⟩
  all_goals
    intro found member
    cases given.symm.trans member
  · exact recordToo
  · exact fun entry inside => (entries entry inside).1
  · exact fun entry inside => (entries entry inside).2

theorem SpelledAlike.hasRecords {document other : Json} (alike : SpelledAlike document other) :
    HasRecords document ∧ HasRecords other := by
  obtain ⟨records, _, protocols, others, given, givenToo, alike⟩ := alike
  have each (entry other : Json) (alike : EntriesAlike entry other) :
      (entry.IsRecord ∧ ∀ pulse ∈ entry.itemsOf "pulses", pulse.IsRecord) ∧
        (other.IsRecord ∧ ∀ pulse ∈ other.itemsOf "pulses", pulse.IsRecord) := by
    obtain ⟨pulses, pulsesToo⟩ := forall_of_forall₂ (fun _ _ alike => PulsesAlike.records alike) alike.pulses.items
    exact ⟨⟨alike.records.1, pulses⟩, alike.records.2, pulsesToo⟩
  obtain ⟨entries, entriesToo⟩ := forall_of_forall₂ each alike.entries.items
  exact ⟨hasRecords_of_member records.1 given alike.records.1 entries,
    hasRecords_of_member records.2 givenToo alike.records.2 entriesToo⟩

/-- Documents that are spelled alike fill the same form. -/
theorem SpelledAlike.madeAlike {document other : Json} (alike : SpelledAlike document other) :
    (IsUnderstandable document ↔ IsUnderstandable other) ∧
      ∃ protocols others, document.member? "protocols" = some protocols ∧ other.member? "protocols" = some others ∧
        formOfDocument document protocols = formOfDocument other others := by
  obtain ⟨_, texts, protocols, others, given, givenToo, alike⟩ := alike
  obtain ⟨accepted, made⟩ := alike.madeAlike
  have identification := texts "idn" (by simp)
  have description := texts "inst_full" (by simp)
  refine ⟨?_, protocols, others, given, givenToo, ?_⟩
  · rw [isUnderstandable_iff, isUnderstandable_iff, identification, description, given, givenToo]
    simp only [Option.some.injEq, exists_eq_left', accepted]
  · simp only [formOfDocument, Json.textOf, identification, description, made]

/-- It does not matter how the values of a document are spelled: both documents are accepted and give the same
snapshot, or none is accepted. -/
theorem SpelledAlike.decodesAlike {document other : Json} (once : document.NamesOnce) (onceToo : other.NamesOnce)
    (alike : SpelledAlike document other) (snapshot : Snapshot) :
    decodeValue document = .ok snapshot ↔ decodeValue other = .ok snapshot := by
  obtain ⟨records, recordsToo⟩ := alike.hasRecords
  obtain ⟨understandable, protocols, others, given, givenToo, form⟩ := alike.madeAlike
  rw [decodeValue_eq_ok_iff once records, decodeValue_eq_ok_iff onceToo recordsToo, understandable]
  simp only [given, givenToo, Option.some.injEq, exists_eq_left', form]

/-- A document in which nothing but the interval is given. -/
def intervalDocument (interval : Json) : Json := .record [("protocols", .record [("interval", interval)])]

/-- The interval that a document gives, if it is accepted. -/
def intervalOf? (document : Json) : Option Binary64 :=
  (decodeValue document).toOption.map fun snapshot => snapshot.protocol.interval

theorem exists_decodeValue {document : Json} {interval : Binary64} (given : intervalOf? document = some interval) :
    ∃ snapshot, decodeValue document = .ok snapshot ∧ snapshot.protocol.interval = interval := by
  unfold intervalOf? at given
  cases decoded : decodeValue document with
  | error error =>
      rw [decoded] at given
      contradiction
  | ok snapshot =>
      rw [decoded] at given
      exact ⟨snapshot, rfl, Option.some.inj given⟩

/-- A literal of seventeen digits is rounded more than once, and its text gives another interval. -/
theorem exists_literal_unlike_text :
    ∃ (number : Binary64) (snapshot other : Snapshot),
      Json.parse "59.715044999999996" = .ok (.number number) ∧
        decodeValue (intervalDocument (.number number)) = .ok snapshot ∧
        decodeValue (intervalDocument (.text "59.715044999999996")) = .ok other ∧
        snapshot.protocol.interval ≠ other.protocol.interval := by
  have written : Json.IsLiteral "59.715044999999996"
      ⟨false, "59".toList, some "715044999999996".toList, none⟩ := ⟨"59.715044999999996".toList, rfl, rfl⟩
  have fits : 59715044999999996 ≤ Text.wordLimit := by decide
  have rounded : Binary64.scaled 59715044999999996 (-15) = .finite false ⟨4633600962759824780, by decide⟩ := by
    decide +kernel
  have parsed := written.parse ((Json.Numeral.toJson_of_notWhole rfl).trans
    (Json.Numeral.toNumber_of_finite written.areDigits fits rounded))
  have ofNumber : intervalOf? (intervalDocument (.number (.finite false ⟨4633600962759824780, by decide⟩))) =
      some (.finite false ⟨4543937209981809866, by decide⟩) := by decide +kernel
  have ofText : intervalOf? (intervalDocument (.text "59.715044999999996")) =
      some (.finite false ⟨4543937209981809865, by decide⟩) := by decide +kernel
  obtain ⟨snapshot, decoded, interval⟩ := exists_decodeValue ofNumber
  obtain ⟨other, decodedToo, intervalToo⟩ := exists_decodeValue ofText
  refine ⟨_, snapshot, other, parsed, decoded, decodedToo, ?_⟩
  rw [interval, intervalToo]
  decide

/-- A literal with few digits, among blanks, spells the number that it is parsed as. -/
theorem spellsTime_of_parse {literal text : String} {numeral : Json.Numeral} {time : Binary64}
    (surrounds : Surrounds literal text) (written : Json.IsLiteral literal numeral) (short : numeral.IsShort)
    (read : (Json.parse literal).toOption.bind Json.number? = some time) : SpellsTime time (.text text) := by
  cases parsed : Json.parse literal with
  | error error =>
      rw [parsed] at read
      contradiction
  | ok value =>
      rw [parsed] at read
      exact .literal surrounds written (Or.inr short) parsed read

/-- A pulse as a form posts it. -/
def postedPulse : Json := .record
  [("delay", .text " 1.5"), ("width", .text " "), ("polarity", .bool true), ("inv", .null), ("state", .text "oFF\n")]

/-- The same pulse in plain values. -/
def plainPulse : Json := .record
  [("delay", .number (.ofDecimal 15 (-1))), ("polarity", .text "Inv"), ("state", .integer 0)]

def postedForm : Json := .record
  [("idn", .text "DG"), ("protocols", .record
    [("state", .integer (-1)), ("interval", .text "\t1e3 "),
      ("protocol", .list [.record [("index", .text "0"), ("pulses", .list [postedPulse])]])])]

def plainForm : Json := .record
  [("protocols", .record
    [("protocol", .list [.record [("index", .integer 0), ("pulses", .list [plainPulse])]]),
      ("interval", .integer 1000), ("state", .bool true)]), ("idn", .text "DG")]

theorem pulsesAlike_posted : PulsesAlike postedPulse plainPulse where
  records := ⟨⟨_, rfl⟩, ⟨_, rfl⟩⟩
  delay := by
    have surrounds : Surrounds "1.5" " 1.5" := ⟨[' '], [], List.all_eq_true.mp rfl, List.all_eq_true.mp rfl, rfl⟩
    have written : Json.IsLiteral "1.5" ⟨false, ['1'], some ['5'], none⟩ := ⟨"1.5".toList, rfl, rfl⟩
    exact .spelled (spellsTime_of_parse surrounds written ⟨by decide, by decide⟩ (by decide +kernel)) (.number rfl)
  width := .missing (.blank (List.all_eq_true.mp rfl)) .absent
  polarity := by
    have surrounds : Surrounds "Inv" "Inv" := ⟨[], [], List.all_eq_true.mp rfl, List.all_eq_true.mp rfl, rfl⟩
    have word : SpellsWord "inv" "Inv" := ⟨"Inv", surrounds, by decide⟩
    exact @Alike.spelled _ SpellsPolarity .inverted _ _ (.checkbox (by decide)) (.word (by decide) word)
  inverted := .missing .null .absent
  state := by
    have surrounds : Surrounds "oFF" "oFF\n" := ⟨[], ['\n'], List.all_eq_true.mp rfl, List.all_eq_true.mp rfl, rfl⟩
    have word : SpellsWord "off" "oFF\n" := ⟨"oFF", surrounds, by decide⟩
    exact @Alike.spelled _ SpellsSwitch .off _ _ (.word (by decide) word) (.integer (by decide))

theorem entriesAlike_posted : EntriesAlike (.record [("index", .text "0"), ("pulses", .list [postedPulse])])
    (.record [("index", .integer 0), ("pulses", .list [plainPulse])]) where
  records := ⟨⟨_, rfl⟩, ⟨_, rfl⟩⟩
  index := by
    have held : IsSigned 0 := ⟨by decide, by decide⟩
    have surrounds : Surrounds (toString (0 : Int)) "0" :=
      ⟨[], [], List.all_eq_true.mp rfl, List.all_eq_true.mp rfl, rfl⟩
    exact @Alike.spelled _ SpellsIndex 0 _ _ (.text held surrounds) (.integer held)
  pulses := .lists (.cons pulsesAlike_posted .nil)

theorem spelledAlike_posted : SpelledAlike postedForm plainForm where
  records := ⟨⟨_, rfl⟩, ⟨_, rfl⟩⟩
  texts := by
    intro name member
    rcases List.mem_cons.mp member with rfl | member
    · rfl
    · cases List.mem_singleton.mp member
      rfl
  protocols := by
    have surrounds : Surrounds "1e3" "\t1e3 " :=
      ⟨['\t'], [' '], List.all_eq_true.mp rfl, List.all_eq_true.mp rfl, rfl⟩
    have written : Json.IsLiteral "1e3" ⟨false, ['1'], none, some 3⟩ := ⟨"1e3".toList, rfl, rfl⟩
    have interval : SpellsTime (.ofInt 1000) (.text "\t1e3 ") := .nearest surrounds written (by decide +kernel)
    exact ⟨_, _, rfl, rfl, ⟨⟨_, rfl⟩, ⟨_, rfl⟩⟩,
      @Alike.spelled _ SpellsSwitch .on _ _ (.integer (by decide)) (.checkbox (by decide)),
      .spelled interval (.number rfl), .lists (.cons entriesAlike_posted .nil)⟩

/-- A form as it is posted and a form of plain values: every field is spelled differently. -/
theorem SpelledAlike.decodesAlike_posted :
    ∃ document other, document.NamesOnce ∧ other.NamesOnce ∧ SpelledAlike document other ∧
      (decodeValue document).isOk = true ∧
      ∀ snapshot, decodeValue document = .ok snapshot ↔ decodeValue other = .ok snapshot := by
  have once : postedForm.NamesOnce := by decide
  have onceToo : plainForm.NamesOnce := by decide
  exact ⟨postedForm, plainForm, once, onceToo, spelledAlike_posted, by decide +kernel,
    spelledAlike_posted.decodesAlike once onceToo⟩

end Document

end DelayGenerator
