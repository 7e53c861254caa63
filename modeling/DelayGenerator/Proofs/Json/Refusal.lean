/-
This file shows that no part of a document is overlooked: a decoder that refuses one part of a value
refuses the whole value, whatever stands before or behind this part.
-/

import DelayGenerator.Proofs.Json.Decoder

namespace DelayGenerator.Json

/-- The decoder does not accept the value. -/
def Decoder.Refuses {α : Type} (decoder : Decoder α) (value : Json) : Prop :=
  ∃ error, decoder.fromValue value = .error error

/-- The field accepts no value that the decoder refuses. -/
def Field.Takes {ρ α : Type} (field : Field ρ) (decoder : Decoder α) : Prop :=
  ∀ ⦃value : Json⦄, decoder.Refuses value → ∀ form, ∃ error, field.fromValue value form = .error error

theorem Field.takes_of {ρ α : Type} (name : String) (decoder : Decoder α) (put : α → ρ → ρ) :
    (Field.of name decoder put).Takes decoder := by
  rintro value ⟨error, refused⟩ form
  exact ⟨error, by simp only [Field.of, refused, bind, Except.bind]⟩

theorem Field.Takes.required {ρ α : Type} {field : Field ρ} {decoder : Decoder α} (takes : field.Takes decoder) :
    field.required.Takes decoder :=
  takes

theorem Field.Takes.requiredInList {ρ α : Type} {field : Field ρ} {decoder : Decoder α}
    (takes : field.Takes decoder) : field.requiredInList.Takes decoder :=
  takes

/-- The decoder, when it takes a value, takes a part of it with another decoder: the value itself, an
item of a list, a member of a record, or an item of a list that stands for a record. -/
inductive Decoder.Reads : {α β : Type} → Decoder α → Json → Decoder β → Json → Prop
  | whole {α : Type} (decoder : Decoder α) (value : Json) : Reads decoder value decoder value
  | item {α β : Type} {decoder : Decoder α} {inner : Decoder β} {items : List Json} {item part : Json}
      (member : item ∈ items) (inside : Reads decoder item inner part) :
      Reads decoder.list (.list items) inner part
  | member {ρ α β : Type} {layout : Layout ρ} {field : Field ρ} {decoder : Decoder α} {inner : Decoder β}
      {members : List (String × Json)} {name : String} {value part : Json}
      (known : layout.field? name = some field) (takes : field.Takes decoder)
      (member : (name, value) ∈ members) (inside : Reads decoder value inner part) :
      Reads layout.decoder (.record members) inner part
  | place {ρ α β : Type} {layout : Layout ρ} {field : Field ρ} {decoder : Decoder α} {inner : Decoder β}
      {items : List Json} {index : Nat} {value part : Json} (known : layout.fields[index]? = some field)
      (takes : field.Takes decoder) (given : items[index]? = some value)
      (inside : Reads decoder value inner part) : Reads layout.decoder (.list items) inner part

namespace Decoder

variable {α β : Type} {decoder : Decoder α}

theorem error_of_bind {reading : Except Error α} {next : α → Except Error β}
    (refused : ∀ value, reading = .ok value → ∃ error, next value = .error error) :
    ∃ error, reading >>= next = .error error := by
  cases reading with
  | error error => exact ⟨error, rfl⟩
  | ok value => exact refused value rfl

theorem Refuses.of_item {items : List Json} {item : Json} (member : item ∈ items)
    (refuses : decoder.Refuses item) : decoder.list.Refuses (.list items) := by
  change ∃ error, decoder.itemsFromValues items = .error error
  induction items with
  | nil => contradiction
  | cons first others inductionHypothesis =>
      refine error_of_bind fun value taken => error_of_bind fun values later => ?_
      rcases List.mem_cons.mp member with rfl | member
      · obtain ⟨error, refused⟩ := refuses
        rw [refused] at taken
        contradiction
      · obtain ⟨error, refused⟩ := inductionHypothesis member
        rw [refused] at later
        contradiction

end Decoder

namespace Layout

variable {ρ : Type} {layout : Layout ρ} {field : Field ρ}

/-- A member that its field refuses is reached, unless the record is refused before. -/
theorem membersFromValues_refuses {name : String} {value : Json} (known : layout.field? name = some field)
    (refused : ∀ form, ∃ error, field.fromValue value form = .error error)
    {members : List (String × Json)} (member : (name, value) ∈ members) (seen : List String) (form : ρ) :
    ∃ error, layout.membersFromValues seen members form = .error error := by
  induction members generalizing seen form with
  | nil => contradiction
  | cons first others inductionHypothesis =>
      obtain ⟨other, given⟩ := first
      rw [membersFromValues]
      rcases List.mem_cons.mp member with same | member
      · cases same
        rw [known]
        dsimp only
        split
        · exact ⟨_, rfl⟩
        · obtain ⟨error, refused⟩ := refused form
          exact ⟨error, by rw [refused]; rfl⟩
      · split
        · exact inductionHypothesis member seen form
        · split
          · exact ⟨_, rfl⟩
          · exact Decoder.error_of_bind fun middle _ => inductionHypothesis member _ middle

theorem itemsFromValues_refuses {fields : List (Field ρ)} {items : List Json} {index : Nat} {value : Json}
    (known : fields[index]? = some field) (given : items[index]? = some value)
    (refused : ∀ form, ∃ error, field.fromValue value form = .error error) (length before : Nat) (form : ρ) :
    ∃ error, layout.itemsFromValues length fields before items form = .error error := by
  induction fields generalizing items index before form with
  | nil => contradiction
  | cons first fields inductionHypothesis =>
      cases items with
      | nil => contradiction
      | cons item items =>
          rw [itemsFromValues]
          refine Decoder.error_of_bind fun middle taken => ?_
          cases index with
          | zero =>
              cases known
              cases given
              obtain ⟨error, refused⟩ := refused form
              rw [refused] at taken
              contradiction
          | succ index => exact inductionHypothesis known given _ middle

end Layout

/-- What is refused of a part is refused of the whole. -/
theorem Decoder.Reads.refuses {α β : Type} {decoder : Decoder α} {inner : Decoder β} {value part : Json}
    (reads : decoder.Reads value inner part) (refuses : inner.Refuses part) : decoder.Refuses value := by
  induction reads with
  | whole decoder value => exact refuses
  | item member inside inductionHypothesis => exact .of_item member (inductionHypothesis refuses)
  | @member ρ α β layout field decoder inner members name value part known takes member inside
      inductionHypothesis =>
      exact Layout.membersFromValues_refuses known (takes (inductionHypothesis refuses)) member [] layout.blank
  | @place ρ α β layout field decoder inner items index value part known takes given inside
      inductionHypothesis =>
      exact Layout.itemsFromValues_refuses known given (takes (inductionHypothesis refuses)) items.length 0
        layout.blank

/-- A text is not accepted if its value is refused. -/
theorem Decoder.IsConsistent.refuses_text {α : Type} {decoder : Decoder α} (isConsistent : decoder.IsConsistent)
    {text : String} {value : Json} (parsed : parse text = .ok value) (refuses : decoder.Refuses value) :
    ∃ error, decoder.decodeText text = .error error := by
  obtain ⟨error, refused⟩ := refuses
  cases decoded : decoder.decodeText text with
  | error error => exact ⟨error, rfl⟩
  | ok result =>
      rw [isConsistent.decodeText_eq_ok_iff parsed, refused] at decoded
      contradiction

end DelayGenerator.Json
