/-
This file carries what is known of the parts of a form over to the whole form, for everything that a
decoder accepts.
-/

import DelayGenerator.Json.Decoder
import DelayGenerator.Proofs.Json.Lexeme

namespace DelayGenerator.Json

/-- Whatever the decoder makes of a text or of a value has the property. -/
structure Decoder.Gives {α : Type} (decoder : Decoder α) (property : α → Prop) : Prop where
  fromText : ∀ {depth : Nat} {characters rest : List Char} {result : α},
    decoder.fromText depth characters = .ok (result, rest) → property result
  fromValue : ∀ {value : Json} {result : α}, decoder.fromValue value = .ok result → property result

/-- The field keeps a property of the record, whatever it takes from a text or from a value. -/
structure Field.Keeps {ρ : Type} (field : Field ρ) (property : ρ → Prop) : Prop where
  fromText : ∀ {depth : Nat} {characters rest : List Char} {form result : ρ},
    field.fromText depth characters form = .ok (result, rest) → property form → property result
  fromValue : ∀ {value : Json} {form result : ρ},
    field.fromValue value form = .ok result → property form → property result

namespace Decoder

variable {α β : Type} {decoder : Decoder α} {property : α → Prop}

/-- Nothing is known of what any decoder gives. -/
theorem gives_true (decoder : Decoder α) : decoder.Gives fun _ => True := ⟨fun _ => trivial, fun _ => trivial⟩

theorem Gives.refine (gives : decoder.Gives property) {accept : α → Except Error β} {narrower : β → Prop}
    (accepts : ∀ {value result}, property value → accept value = .ok result → narrower result) :
    (decoder.refine accept).Gives narrower where
  fromText read := by
    obtain ⟨⟨value, rest⟩, first, next⟩ := of_bind read
    obtain ⟨result, accepted, same⟩ := of_bind next
    cases same
    exact accepts (gives.fromText first) accepted
  fromValue taken := by
    obtain ⟨value, first, accepted⟩ := of_bind taken
    exact accepts (gives.fromValue first) accepted

theorem itemsFromText_gives (gives : decoder.Gives property) {depth bound : Nat} {isFirst : Bool}
    {characters rest : List Char} {results : List α}
    (read : decoder.itemsFromText depth bound isFirst characters = .ok (results, rest)) :
    ∀ result ∈ results, property result := by
  induction bound generalizing isFirst characters results rest with
  | zero => contradiction
  | succ bound inductionHypothesis =>
      obtain ⟨next, _, read⟩ := of_bind read
      cases next with
      | none =>
          obtain ⟨_, _, same⟩ := of_bind read
          cases same
          simp
      | some start =>
          obtain ⟨⟨item, more⟩, first, read⟩ := of_bind read
          obtain ⟨⟨others, last⟩, later, same⟩ := of_bind read
          cases same
          exact List.forall_mem_cons.mpr ⟨gives.fromText first, inductionHypothesis later⟩

theorem itemsFromValues_gives (gives : decoder.Gives property) {items : List Json} {results : List α}
    (taken : decoder.itemsFromValues items = .ok results) : ∀ result ∈ results, property result := by
  induction items generalizing results with
  | nil =>
      cases taken
      simp
  | cons item others inductionHypothesis =>
      obtain ⟨first, one, taken⟩ := of_bind taken
      obtain ⟨rest, later, same⟩ := of_bind taken
      cases same
      exact List.forall_mem_cons.mpr ⟨gives.fromValue one, inductionHypothesis later⟩

theorem Gives.list (gives : decoder.Gives property) :
    decoder.list.Gives fun results => ∀ result ∈ results, property result where
  fromText read := by
    simp only [Decoder.list] at read
    split at read
    · split at read
      · contradiction
      · exact itemsFromText_gives gives read
    · contradiction
  fromValue {value _} taken := by
    cases value with
    | list items => exact itemsFromValues_gives gives taken
    | _ => contradiction

/-- A field with a decoder keeps what every value of the decoder keeps. -/
theorem Gives.field {ρ : Type} (gives : decoder.Gives property) {name : String} {put : α → ρ → ρ}
    {whole : ρ → Prop} (puts : ∀ {value form}, property value → whole form → whole (put value form)) :
    (Field.of name decoder put).Keeps whole where
  fromText read holds := by
    obtain ⟨⟨value, rest⟩, first, same⟩ := of_bind read
    cases same
    exact puts (gives.fromText first) holds
  fromValue taken holds := by
    obtain ⟨value, first, same⟩ := of_bind taken
    cases same
    exact puts (gives.fromValue first) holds

/-- What a whole text is decoded to. -/
theorem Gives.decodeText (gives : decoder.Gives property) {text : String} {result : α}
    (decoded : decoder.decodeText text = .ok result) : property result := by
  obtain ⟨⟨value, rest⟩, read, ends⟩ := of_bind decoded
  dsimp only at ends
  split at ends
  · cases ends
    exact gives.fromText read
  · contradiction

end Decoder

theorem Field.Keeps.required {ρ : Type} {field : Field ρ} {property : ρ → Prop}
    (keeps : field.Keeps property) : field.required.Keeps property :=
  ⟨keeps.fromText, keeps.fromValue⟩

namespace Layout

variable {ρ : Type} {layout : Layout ρ} {property : ρ → Prop}

theorem of_complete {seen : List String} {form result : ρ} (complete : layout.complete seen form = .ok result) :
    result = form := by
  unfold Layout.complete at complete
  split at complete
  · contradiction
  · exact (Except.ok.inj complete).symm

theorem mem_of_field? {name : String} {field : Field ρ} (known : layout.field? name = some field) :
    field ∈ layout.fields :=
  List.mem_of_find?_eq_some known

section

variable (keep : ∀ field ∈ layout.fields, field.Keeps property)
include keep

theorem membersFromText_keeps {depth bound : Nat} {isFirst : Bool} {seen : List String}
    {characters rest : List Char} {form result : ρ}
    (read : layout.membersFromText depth bound isFirst seen characters form = .ok (result, rest))
    (holds : property form) : property result := by
  induction bound generalizing isFirst seen characters form with
  | zero => contradiction
  | succ bound inductionHypothesis =>
      obtain ⟨⟨name, behind⟩, _, read⟩ := of_bind read
      cases name with
      | none =>
          obtain ⟨complete, whole, same⟩ := of_bind read
          cases same
          rwa [of_complete whole]
      | some name =>
          dsimp only at read
          split at read
          next =>
            obtain ⟨_, _, read⟩ := of_bind read
            obtain ⟨_, _, read⟩ := of_bind read
            exact inductionHypothesis read holds
          next field known =>
            split at read
            · contradiction
            · obtain ⟨_, _, read⟩ := of_bind read
              obtain ⟨⟨middle, more⟩, one, read⟩ := of_bind read
              exact inductionHypothesis read ((keep field (mem_of_field? known)).fromText one holds)

theorem membersFromValues_keeps {seen : List String} {members : List (String × Json)} {form result : ρ}
    (taken : layout.membersFromValues seen members form = .ok result) (holds : property form) :
    property result := by
  induction members generalizing seen form with
  | nil => rwa [of_complete taken]
  | cons member others inductionHypothesis =>
      obtain ⟨name, value⟩ := member
      rw [membersFromValues] at taken
      split at taken
      next => exact inductionHypothesis taken holds
      next field known =>
        split at taken
        · contradiction
        · obtain ⟨middle, one, taken⟩ := of_bind taken
          exact inductionHypothesis taken ((keep field (mem_of_field? known)).fromValue one holds)

end

theorem itemsFromText_keeps {fields : List (Field ρ)} (keep : ∀ field ∈ fields, field.Keeps property)
    {depth index : Nat} {characters rest : List Char} {form result : ρ}
    (read : layout.itemsFromText depth fields index characters form = .ok (result, rest))
    (holds : property form) : property result := by
  induction fields generalizing index characters form with
  | nil =>
      obtain ⟨_, _, same⟩ := of_bind read
      cases same
      exact holds
  | cons field fields inductionHypothesis =>
      have keeps := keep field List.mem_cons_self
      have keep := fun other member => keep other (List.mem_cons_of_mem field member)
      obtain ⟨next, _, read⟩ := of_bind read
      cases next with
      | none =>
          dsimp only at read
          split at read
          · exact inductionHypothesis keep read holds
          · contradiction
      | some start =>
          obtain ⟨⟨middle, more⟩, one, read⟩ := of_bind read
          exact inductionHypothesis keep read (keeps.fromText one holds)

theorem itemsFromValues_keeps {fields : List (Field ρ)} (keep : ∀ field ∈ fields, field.Keeps property)
    {length index : Nat} {items : List Json} {form result : ρ}
    (taken : layout.itemsFromValues length fields index items form = .ok result) (holds : property form) :
    property result := by
  induction fields generalizing index items form with
  | nil =>
      cases items with
      | nil =>
          cases taken
          exact holds
      | cons item others => contradiction
  | cons field fields inductionHypothesis =>
      have keeps := keep field List.mem_cons_self
      have keep := fun other member => keep other (List.mem_cons_of_mem field member)
      cases items with
      | nil =>
          rw [itemsFromValues] at taken
          split at taken
          · exact inductionHypothesis keep taken holds
          · contradiction
      | cons item others =>
          obtain ⟨middle, one, taken⟩ := of_bind taken
          exact inductionHypothesis keep taken (keeps.fromValue one holds)

/-- What the blank form has and every field keeps, every decoded form has. -/
theorem gives_decoder (keep : ∀ field ∈ layout.fields, field.Keeps property) (blank : property layout.blank) :
    layout.decoder.Gives property where
  fromText read := by
    simp only [decoder] at read
    split at read
    · split at read
      · contradiction
      · exact itemsFromText_keeps keep read blank
    · split at read
      · contradiction
      · exact membersFromText_keeps keep read blank
    · contradiction
  fromValue {value _} taken := by
    cases value with
    | list items => exact itemsFromValues_keeps keep taken blank
    | record members => exact membersFromValues_keeps keep taken blank
    | _ => contradiction

end Layout

end DelayGenerator.Json
