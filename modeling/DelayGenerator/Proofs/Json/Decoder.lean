/-
This file shows that a decoder makes the same of a text as of the value that the text spells.
-/

import DelayGenerator.Json.Decoder
import DelayGenerator.Proofs.Json.Skip

namespace DelayGenerator.Json

/-- Reading a text and taking a value come out alike: both give the same result or both fail.
Behind the text that is read stands the rest. -/
inductive Alike {α : Type} (rest : List Char) : Except Error (α × List Char) → Except Error α → Prop
  | given (result : α) : Alike rest (.ok (result, rest)) (.ok result)
  | refused (error other : Error) : Alike rest (.error error) (.error other)

theorem Alike.bind {α β : Type} {middle rest : List Char} {reading : Except Error (α × List Char)}
    {taking : Except Error α} {next : α × List Char → Except Error (β × List Char)}
    {nextToo : α → Except Error β} (alike : Alike middle reading taking)
    (later : ∀ result, Alike rest (next (result, middle)) (nextToo result)) :
    Alike rest (reading >>= next) (taking >>= nextToo) := by
  cases alike with
  | given result => exact later result
  | refused error other => exact .refused error other

/-- A text is accepted exactly if its value is, with the same result. -/
theorem Alike.eq_ok_iff {α : Type} {rest : List Char} {reading : Except Error (α × List Char)}
    {taking : Except Error α} (alike : Alike rest reading taking) (result : α) :
    reading = .ok (result, rest) ↔ taking = .ok result := by
  cases alike with
  | given other => simp
  | refused error other => simp

/-- The decoder makes the same of a text as of the value that the text spells. -/
def Decoder.IsConsistent {α : Type} (decoder : Decoder α) : Prop :=
  ∀ ⦃depth : Nat⦄ ⦃characters rest : List Char⦄ ⦃value : Json⦄, Spells depth characters value rest →
    Alike rest (decoder.fromText depth characters) (decoder.fromValue value)

/-- The field takes the same from a text as from the value that the text spells. -/
def Field.IsConsistent {ρ : Type} (field : Field ρ) : Prop :=
  ∀ ⦃depth : Nat⦄ ⦃characters rest : List Char⦄ ⦃value : Json⦄ (form : ρ),
    Spells depth characters value rest →
      Alike rest (field.fromText depth characters form) (field.fromValue value form)

/-- With which characters a value begins. -/
def opens (first : Char) : Json → Prop
  | null => first = 'n'
  | bool true => first = 't'
  | bool false => first = 'f'
  | integer _ => first = '-' ∨ first.isDigit = true
  | number _ => first = '-' ∨ first.isDigit = true
  | text _ => first = '"'
  | list _ => first = '['
  | record _ => first = '\x7b'

theorem opens_null {value : Json} : opens 'n' value ↔ value = .null := by
  rcases value with _ | (_ | _) | _ | _ | _ | _ | _ <;> simp [opens]

theorem opens_yes {value : Json} : opens 't' value ↔ value = .bool true := by
  rcases value with _ | (_ | _) | _ | _ | _ | _ | _ <;> simp [opens]

theorem opens_no {value : Json} : opens 'f' value ↔ value = .bool false := by
  rcases value with _ | (_ | _) | _ | _ | _ | _ | _ <;> simp [opens]

theorem opens_quote {value : Json} : opens '"' value ↔ ∃ given, value = .text given := by
  rcases value with _ | (_ | _) | _ | _ | _ | _ | _ <;> simp [opens]

theorem opens_bracket {value : Json} : opens '[' value ↔ ∃ items, value = .list items := by
  rcases value with _ | (_ | _) | _ | _ | _ | _ | _ <;> simp [opens]

theorem opens_brace {value : Json} : opens '\x7b' value ↔ ∃ members, value = .record members := by
  rcases value with _ | (_ | _) | _ | _ | _ | _ | _ <;> simp [opens]

/-- What stands behind the first character of a value, if it is no number. -/
def Continues (depth : Nat) (more rest : List Char) : Json → Prop
  | null => expectWord ['u', 'l', 'l'] more = .ok rest
  | bool true => expectWord ['r', 'u', 'e'] more = .ok rest
  | bool false => expectWord ['a', 'l', 's', 'e'] more = .ok rest
  | integer _ => True
  | number _ => True
  | text value => readText more = .ok (value, rest)
  | list items => 1 < depth ∧ SpellsItems (depth - 1) true more items rest
  | record members => 1 < depth ∧ SpellsMembers (depth - 1) true more members rest

theorem isNumber_of_toJson {numeral : Numeral} {value : Json} (same : numeral.toJson = .ok value) :
    (∃ whole, value = .integer whole) ∨ ∃ number, value = .number number := by
  unfold Numeral.toJson at same
  dsimp only at same
  split at same
  · cases same
    exact Or.inl ⟨_, rfl⟩
  split at same
  · cases same
    exact Or.inl ⟨_, rfl⟩
  unfold Numeral.toNumber at same
  dsimp only at same
  split at same
  · cases same
    exact Or.inr ⟨_, rfl⟩
  · contradiction

theorem isNumber_of_readNumber {negative : Bool} {characters rest : List Char} {value : Json}
    (read : readNumber negative characters = .ok (value, rest)) :
    (∃ whole, value = .integer whole) ∨ ∃ number, value = .number number := by
  obtain ⟨_, _, read⟩ := of_bind read
  obtain ⟨_, number, same⟩ := of_bind read
  cases same
  exact isNumber_of_toJson number

/-- How a value begins and goes on. -/
theorem Spells.inversion {depth : Nat} {characters rest : List Char} {value : Json}
    (spells : Spells depth characters value rest) :
    ∃ first more, skipSpace characters = first :: more ∧ opens first value ∧
      Continues depth more rest value := by
  cases spells with
  | null begins word => exact ⟨_, _, begins, rfl, word⟩
  | yes begins word => exact ⟨_, _, begins, rfl, word⟩
  | no begins word => exact ⟨_, _, begins, rfl, word⟩
  | minus begins read =>
      refine ⟨_, _, begins, ?_⟩
      rcases isNumber_of_readNumber read with ⟨_, rfl⟩ | ⟨_, rfl⟩ <;> exact ⟨Or.inl rfl, trivial⟩
  | digits begins digit read =>
      refine ⟨_, _, begins, ?_⟩
      rcases isNumber_of_readNumber read with ⟨_, rfl⟩ | ⟨_, rfl⟩ <;> exact ⟨Or.inr digit, trivial⟩
  | text begins read => exact ⟨_, _, begins, rfl, read⟩
  | list begins deep inside => exact ⟨_, _, begins, rfl, deep, inside⟩
  | record begins deep inside => exact ⟨_, _, begins, rfl, deep, inside⟩

namespace Decoder

theorem isConsistent_value : value.IsConsistent := by
  intro depth characters rest value spells
  change Alike rest (read depth characters) (.ok value)
  rw [read_eq_ok_iff.mpr spells]
  exact .given value

theorem IsConsistent.refine {α β : Type} {decoder : Decoder α} (isConsistent : decoder.IsConsistent)
    (accept : α → Except Error β) : (decoder.refine accept).IsConsistent := by
  intro depth characters rest value spells
  refine (isConsistent spells).bind fun result => ?_
  dsimp only
  cases accept result with
  | error error => exact .refused error error
  | ok accepted => exact .given accepted

theorem isConsistent_text : text.IsConsistent := by
  intro depth characters rest value spells
  obtain ⟨first, more, begins, opens, inside⟩ := spells.inversion
  by_cases isText : ∃ given, value = .text given
  · obtain ⟨given, rfl⟩ := isText
    cases opens
    have read : readText more = .ok (given, rest) := inside
    simp only [text, begins, read]
    exact .given given
  · have noQuote : first ≠ '"' := by
      rintro rfl
      exact isText (opens_quote.mp opens)
    have reading : text.fromText depth characters = .error (foundInText "a string" (first :: more)) := by
      simp only [text, begins]
      split <;> simp_all
    have taking : text.fromValue value = .error (.wrongKind value.found "a string") := by
      cases value <;> first | rfl | exact absurd ⟨_, rfl⟩ isText
    rw [reading, taking]
    exact .refused _ _

theorem isConsistent_bool : bool.IsConsistent := by
  intro depth characters rest value spells
  obtain ⟨first, more, begins, opens, inside⟩ := spells.inversion
  by_cases isBool : ∃ given, value = .bool given
  · obtain ⟨given | given, rfl⟩ := isBool
    · cases opens
      have word : expectWord ['a', 'l', 's', 'e'] more = .ok rest := inside
      simp only [bool, begins, word, bind, Except.bind]
      exact .given false
    · cases opens
      have word : expectWord ['r', 'u', 'e'] more = .ok rest := inside
      simp only [bool, begins, word, bind, Except.bind]
      exact .given true
  · have noYes : first ≠ 't' := by
      rintro rfl
      exact isBool ⟨_, opens_yes.mp opens⟩
    have noNo : first ≠ 'f' := by
      rintro rfl
      exact isBool ⟨_, opens_no.mp opens⟩
    have reading : bool.fromText depth characters = .error (foundInText "a boolean" (first :: more)) := by
      simp only [bool, begins]
      split <;> simp_all
    have taking : bool.fromValue value = .error (.wrongKind value.found "a boolean") := by
      cases value <;> first | rfl | exact absurd ⟨_, rfl⟩ isBool
    rw [reading, taking]
    exact .refused _ _

/-- A value that is not `null` is left to the decoder. -/
theorem option_fromValue {α : Type} (decoder : Decoder α) {value : Json} (given : value ≠ .null) :
    decoder.option.fromValue value = decoder.fromValue value >>= fun value => .ok (some value) := by
  cases value with
  | null => exact absurd rfl given
  | _ => rfl

theorem IsConsistent.option {α : Type} {decoder : Decoder α} (isConsistent : decoder.IsConsistent) :
    decoder.option.IsConsistent := by
  intro depth characters rest value spells
  obtain ⟨first, more, begins, opens, inside⟩ := spells.inversion
  by_cases isNull : value = .null
  · subst isNull
    cases opens
    have word : expectWord ['u', 'l', 'l'] more = .ok rest := inside
    simp only [Decoder.option, begins, word, Bind.bind, Except.bind]
    exact .given none
  · have noNull : first ≠ 'n' := by
      rintro rfl
      exact isNull (opens_null.mp opens)
    have start : Spells depth (first :: more) value rest := by
      rw [← begins]
      exact spells.congr (skipSpace_skipSpace characters).symm
    have reading : decoder.option.fromText depth characters =
        (decoder.fromText depth (first :: more) >>= fun result => .ok (some result.1, result.2)) := by
      simp only [Decoder.option, begins]
      split
      · simp_all
      · rfl
    rw [reading, Decoder.option_fromValue decoder isNull]
    exact (isConsistent start).bind fun result => .given (some result)

/-- The items of a list come out alike. -/
theorem IsConsistent.items {α : Type} {decoder : Decoder α} (isConsistent : decoder.IsConsistent)
    {depth bound : Nat} {isFirst : Bool} {characters rest : List Char} {items : List Json}
    (enough : characters.length < bound)
    (spells : SpellsItems depth isFirst characters items rest) :
    Alike rest (decoder.itemsFromText depth bound isFirst characters) (decoder.itemsFromValues items) := by
  induction items generalizing bound isFirst characters with
  | nil =>
      cases spells with
      | close noNext closed =>
          obtain ⟨bound, rfl⟩ := Nat.exists_eq_add_of_le' (Nat.lt_of_le_of_lt (Nat.zero_le _) enough)
          simp only [itemsFromText, noNext, closed, Bind.bind, Except.bind]
          exact .given []
  | cons item others inductionHypothesis =>
      cases spells with
      | item next value later =>
          have shorter := nextItem?_shortens next
          have some := value.shortens
          obtain ⟨bound, rfl⟩ := Nat.exists_eq_add_of_le' (Nat.lt_of_le_of_lt (Nat.zero_le _) enough)
          rw [itemsFromText, next, itemsFromValues]
          refine (isConsistent value).bind fun result => ?_
          exact (inductionHypothesis (by omega) later).bind fun results => .given (result :: results)

theorem IsConsistent.list {α : Type} {decoder : Decoder α} (isConsistent : decoder.IsConsistent) :
    decoder.list.IsConsistent := by
  intro depth characters rest value spells
  obtain ⟨first, more, begins, opens, inside⟩ := spells.inversion
  by_cases isList : ∃ items, value = .list items
  · obtain ⟨items, rfl⟩ := isList
    cases opens
    obtain ⟨deep, inside⟩ : 1 < depth ∧ SpellsItems (depth - 1) true more items rest := inside
    simp only [Decoder.list, begins, if_neg (Nat.not_le_of_lt deep)]
    exact isConsistent.items (Nat.lt_succ_self _) inside
  · have noBracket : first ≠ '[' := by
      rintro rfl
      exact isList (opens_bracket.mp opens)
    have reading : decoder.list.fromText depth characters =
        .error (foundInText "a sequence" (first :: more)) := by
      simp only [Decoder.list, begins]
      split <;> simp_all
    have taking : decoder.list.fromValue value = .error (.wrongKind value.found "a sequence") := by
      cases value <;> first | rfl | exact absurd ⟨_, rfl⟩ isList
    rw [reading, taking]
    exact .refused _ _

end Decoder

theorem Decoder.IsConsistent.field {ρ α : Type} {decoder : Decoder α} (isConsistent : decoder.IsConsistent)
    (name : String) (put : α → ρ → ρ) : (Field.of name decoder put).IsConsistent := by
  intro depth characters rest value form spells
  exact (isConsistent spells).bind fun result => .given (put result form)

theorem Field.IsConsistent.required {ρ : Type} {field : Field ρ} (isConsistent : field.IsConsistent) :
    field.required.IsConsistent :=
  isConsistent

theorem Field.IsConsistent.requiredInList {ρ : Type} {field : Field ρ} (isConsistent : field.IsConsistent) :
    field.requiredInList.IsConsistent :=
  isConsistent

/-- Whether a list ends here does not depend on what stands before. -/
theorem nextItem?_none {isFirst : Bool} {characters : List Char}
    (none : nextItem? isFirst characters = .ok none) (other : Bool) :
    nextItem? other characters = .ok .none := by
  obtain ⟨more, bracket, _⟩ := closeList_of_nextItem? none
  simp only [nextItem?, bracket]

/-- A list with another item is not closed. -/
theorem closeList_of_item {isFirst : Bool} {characters start : List Char}
    (next : nextItem? isFirst characters = .ok (some start)) :
    ∃ error, closeList characters = .error error := by
  obtain ⟨⟨first, more, begins, other⟩, _⟩ := nextItem?_some next
  unfold closeList
  rw [begins]
  split
  · contradiction
  · simp_all
  · split <;> exact ⟨_, rfl⟩
  · exact ⟨_, rfl⟩

namespace Layout

variable {ρ : Type} {layout : Layout ρ} {depth : Nat} {rest : List Char}

/-- The values in the order of the fields come out alike. -/
theorem items_alike (length : Nat) {fields : List (Field ρ)}
    (areConsistent : ∀ field ∈ fields, field.IsConsistent) {index : Nat} {characters : List Char}
    {items : List Json} {form : ρ} (spells : SpellsItems depth (index == 0) characters items rest) :
    Alike rest (layout.itemsFromText depth fields index characters form)
      (layout.itemsFromValues length fields index items form) := by
  induction fields generalizing index characters items form with
  | nil =>
      cases spells with
      | close noNext closed =>
          simp only [itemsFromText, closed, bind, Except.bind]
          exact .given form
      | item next value later =>
          obtain ⟨error, open_⟩ := closeList_of_item next
          simp only [itemsFromText, open_, bind, Except.bind]
          exact .refused _ _
  | cons field fields inductionHypothesis =>
      have consistent := areConsistent field List.mem_cons_self
      have areConsistent : ∀ field ∈ fields, field.IsConsistent := fun field member =>
        areConsistent field (List.mem_cons_of_mem _ member)
      cases spells with
      | close noNext closed =>
          rw [itemsFromText, noNext, itemsFromValues]
          change Alike rest (if field.optionalInList then _ else _) _
          split
          · exact inductionHypothesis areConsistent (.close (nextItem?_none noNext _) closed)
          · exact .refused _ _
      | item next value later =>
          rw [itemsFromText, next, itemsFromValues]
          exact (consistent form value).bind fun result => inductionHypothesis areConsistent later

/-- The members of a record come out alike. Those that no field names are skipped. -/
theorem members_alike (areConsistent : ∀ field ∈ layout.fields, field.IsConsistent) {bound : Nat}
    {isFirst : Bool} {characters : List Char} {members : List (String × Json)}
    (enough : characters.length < bound) (spells : SpellsMembers depth isFirst characters members rest)
    (seen : List String) (form : ρ) :
    Alike rest (layout.membersFromText depth bound isFirst seen characters form)
      (layout.membersFromValues seen members form) := by
  obtain ⟨bound, rfl⟩ := Nat.exists_eq_add_of_le' (Nat.lt_of_le_of_lt (Nat.zero_le _) enough)
  induction members generalizing bound isFirst characters seen form with
  | nil =>
      cases spells with
      | close noNext =>
          rw [membersFromText, noNext, membersFromValues]
          dsimp only [bind, Except.bind]
          cases layout.complete seen form with
          | error error => exact .refused _ _
          | ok form => exact .given form
  | cons member others inductionHypothesis =>
      cases spells with
      | @member _ _ _ behind start more _ name value _ next colon value later =>
          have shorter := nextName?_shortens next
          have shorterToo := colon_shortens colon
          have some := value.shortens
          obtain ⟨bound, rfl⟩ := Nat.exists_eq_add_of_le' (show 1 ≤ bound by omega)
          rw [membersFromText, next, membersFromValues]
          dsimp only [bind, Except.bind]
          split
          next unknown =>
            rw [colon]
            dsimp only
            rw [value.skip]
            exact inductionHypothesis later seen form bound (by omega)
          next field known =>
            split
            next twice => exact .refused _ _
            next once =>
              rw [colon]
              exact (areConsistent field (List.mem_of_find?_eq_some known) form value).bind fun result =>
                inductionHypothesis later (name :: seen) result bound (by omega)

theorem isConsistent_decoder (areConsistent : ∀ field ∈ layout.fields, field.IsConsistent) :
    layout.decoder.IsConsistent := by
  intro depth characters rest value spells
  obtain ⟨first, more, begins, opens, inside⟩ := spells.inversion
  by_cases isList : ∃ items, value = .list items
  · obtain ⟨items, rfl⟩ := isList
    cases opens
    obtain ⟨deep, inside⟩ : 1 < depth ∧ SpellsItems (depth - 1) true more items rest := inside
    simp only [decoder, begins, if_neg (Nat.not_le_of_lt deep)]
    exact items_alike items.length areConsistent inside
  by_cases isRecord : ∃ members, value = .record members
  · obtain ⟨members, rfl⟩ := isRecord
    cases opens
    obtain ⟨deep, inside⟩ : 1 < depth ∧ SpellsMembers (depth - 1) true more members rest := inside
    simp only [decoder, begins, if_neg (Nat.not_le_of_lt deep)]
    exact members_alike areConsistent (Nat.lt_succ_self _) inside [] layout.blank
  have noBracket : first ≠ '[' := by
    rintro rfl
    exact isList (opens_bracket.mp opens)
  have noBrace : first ≠ '\x7b' := by
    rintro rfl
    exact isRecord (opens_brace.mp opens)
  have reading : layout.decoder.fromText depth characters =
      .error (foundInText ("struct " ++ layout.name) (first :: more)) := by
    simp only [decoder, begins]
    split <;> simp_all
  have taking : layout.decoder.fromValue value =
      .error (.wrongKind value.found ("struct " ++ layout.name)) := by
    cases value <;> first | rfl | exact absurd ⟨_, rfl⟩ isList | exact absurd ⟨_, rfl⟩ isRecord
  rw [reading, taking]
  exact .refused _ _

end Layout

/-- A text that is a value is decoded exactly if its value is. -/
theorem Decoder.IsConsistent.decodeText_eq_ok_iff {α : Type} {decoder : Decoder α}
    (isConsistent : decoder.IsConsistent) {text : String} {value : Json} (parsed : parse text = .ok value)
    (result : α) : decoder.decodeText text = .ok result ↔ decoder.fromValue value = .ok result := by
  obtain ⟨⟨found, rest⟩, read, ends⟩ := of_bind parsed
  have spells := read_eq_ok_iff.mp read
  have alike := isConsistent spells
  dsimp only at ends
  split at ends
  next blank =>
    cases ends
    rw [decodeText, finish, ← alike.eq_ok_iff result]
    generalize decoder.fromText depthLimit text.toList = reading, decoder.fromValue value = taking at alike
    cases alike with
    | given given => simp [bind, Except.bind, blank]
    | refused error other => simp [bind, Except.bind]
  · contradiction

end DelayGenerator.Json
