/-
This file looks the members of a record up by name: a record is decoded as if, one field after the
other, the member that bears the name of the field were taken.
-/

import DelayGenerator.Proofs.Json.Lexeme
import DelayGenerator.Proofs.Json.Order
import DelayGenerator.Proofs.Json.Refusal

namespace DelayGenerator.Json

/-- What a field finds: the member that the decoder takes, or what there is without a member. -/
def Decoder.Finds {α : Type} (decoder : Decoder α) (member? : Option Json) (without result : α) : Prop :=
  match member? with
  | some value => decoder.fromValue value = .ok result
  | none => result = without

/-- The decoder accepts a value under a condition and then makes one result of it. -/
def Decoder.Makes {α : Type} (decoder : Decoder α) (value : Json) (accepted : Prop) (made : α) : Prop :=
  ∀ result, decoder.fromValue value = .ok result ↔ accepted ∧ result = made

/-- A list is accepted if all its items are. -/
theorem Decoder.itemsFromValues_eq_ok_iff {α : Type} {decoder : Decoder α} {accepted : Json → Prop}
    {made : Json → α} {items : List Json}
    (each : ∀ item ∈ items, decoder.Makes item (accepted item) (made item)) (results : List α) :
    decoder.itemsFromValues items = .ok results ↔
      (∀ item ∈ items, accepted item) ∧ results = items.map made := by
  induction items generalizing results with
  | nil => simp [itemsFromValues, eq_comm]
  | cons item others inductionHypothesis =>
      obtain ⟨first, later⟩ := List.forall_mem_cons.mp each
      have rest := inductionHypothesis later
      rw [List.forall_mem_cons, itemsFromValues]
      constructor
      · intro taken
        obtain ⟨value, one, taken⟩ := of_bind taken
        obtain ⟨values, more, same⟩ := of_bind taken
        obtain ⟨good, rfl⟩ := (first value).mp one
        obtain ⟨goods, rfl⟩ := (rest values).mp more
        cases same
        exact ⟨⟨good, goods⟩, rfl⟩
      · rintro ⟨⟨good, goods⟩, rfl⟩
        rw [(first (made item)).mpr ⟨good, rfl⟩, (rest (others.map made)).mpr ⟨goods, rfl⟩]
        rfl

def IsRecord (value : Json) : Prop := ∃ members, value = .record members

/-- The items of a member that is a list. -/
def itemsOf (record : Json) (name : String) : List Json :=
  match record.member? name with
  | some (.list items) => items
  | _ => []

/-- The text of a member that is one. -/
def textOf (record : Json) (name : String) : String :=
  match record.member? name with
  | some (.text given) => given
  | _ => ""

theorem NamesOnce.member {record value : Json} {name : String} (once : record.NamesOnce)
    (given : record.member? name = some value) : value.NamesOnce := by
  cases record with
  | record members =>
      obtain ⟨before, after, rfl, _⟩ := List.lookup_eq_some_iff.mp given
      exact namesOnceInMembers_iff.mp once.2 (name, value) (List.mem_append_right _ List.mem_cons_self)
  | _ => contradiction

theorem NamesOnce.item {record item : Json} {name : String} (once : record.NamesOnce)
    (member : item ∈ record.itemsOf name) : item.NamesOnce := by
  unfold itemsOf at member
  split at member
  next items given => exact namesOnceInItems_iff.mp (once.member given) item member
  next => contradiction

namespace Layout

variable {ρ α : Type} {layout : Layout ρ} {fields : List (Field ρ)} {members : List (String × Json)}

/-- Takes for one field after the other the member of its name. -/
def takeMembers (members : List (String × Json)) : List (Field ρ) → ρ → Except Error ρ
  | [], form => .ok form
  | field :: fields, form =>
    match members.lookup field.name with
    | some value => do takeMembers members fields (← field.fromValue value form)
    | none =>
      if field.optional then takeMembers members fields form else .error (.missingField field.name)

/-- Members that no field looks up do not matter. -/
theorem takeMembers_congr {others : List (String × Json)}
    (same : ∀ field ∈ fields, members.lookup field.name = others.lookup field.name) (form : ρ) :
    takeMembers members fields form = takeMembers others fields form := by
  induction fields generalizing form with
  | nil => rfl
  | cons field fields inductionHypothesis =>
      obtain ⟨first, later⟩ := List.forall_mem_cons.mp same
      have onward := inductionHypothesis later
      rw [takeMembers, takeMembers, first]
      simp only [onward]

/-- An optional field takes its member or leaves the form as it is. -/
theorem takeMembers_of {name : String} {decoder : Decoder α} {put : α → ρ → ρ} {without : α} {form result : ρ}
    (blank : put without form = form) :
    takeMembers members (.of name decoder put :: fields) form = .ok result ↔
      ∃ value, decoder.Finds (members.lookup name) without value ∧
        takeMembers members fields (put value form) = .ok result := by
  rw [takeMembers]
  simp only [Field.of, Decoder.Finds]
  cases members.lookup name with
  | none => simp [blank]
  | some member =>
      cases taken : decoder.fromValue member with
      | error error => simp [taken, bind, Except.bind]
      | ok value => simp [taken, bind, Except.bind]

/-- A required field takes its member, and there must be one. -/
theorem takeMembers_required {name : String} {decoder : Decoder α} {put : α → ρ → ρ} {form result : ρ} :
    takeMembers members ((Field.of name decoder put).required :: fields) form = .ok result ↔
      ∃ member, members.lookup name = some member ∧
        ∃ value, decoder.fromValue member = .ok value ∧
          takeMembers members fields (put value form) = .ok result := by
  rw [takeMembers]
  simp only [Field.of, Field.required]
  cases members.lookup name with
  | none => simp
  | some member =>
      cases taken : decoder.fromValue member with
      | error error => simp [taken, bind, Except.bind]
      | ok value => simp [taken, bind, Except.bind]

/-- A field for a text. -/
theorem takeMembers_text {name : String} {put : String → ρ → ρ} {form result : ρ} (blank : put "" form = form) :
    takeMembers members (.of name .text put :: fields) form = .ok result ↔
      (∀ value ∈ (record members).member? name, ∃ text, value = .text text) ∧
        takeMembers members fields (put ((record members).textOf name) form) = .ok result := by
  have look : (record members).member? name = members.lookup name := rfl
  rw [takeMembers_of blank, textOf, look]
  cases members.lookup name with
  | none => simp [Decoder.Finds]
  | some member => cases member <;> simp [Decoder.Finds, Decoder.text]

/-- A field for a list whose items are accepted one by one. -/
theorem takeMembers_list {name : String} {decoder : Decoder α} {accepted : Json → Prop} {made : Json → α}
    {put : List α → ρ → ρ} {form result : ρ} (blank : put [] form = form)
    (each : ∀ item ∈ (record members).itemsOf name, decoder.Makes item (accepted item) (made item)) :
    takeMembers members (.of name decoder.list put :: fields) form = .ok result ↔
      ((∀ value ∈ (record members).member? name, ∃ items, value = .list items) ∧
        ∀ item ∈ (record members).itemsOf name, accepted item) ∧
        takeMembers members fields (put (((record members).itemsOf name).map made) form) = .ok result := by
  have look : (record members).member? name = members.lookup name := rfl
  rw [takeMembers_of blank]
  rw [itemsOf, look] at each ⊢
  cases given : members.lookup name with
  | none => simp [Decoder.Finds]
  | some member =>
      rw [given] at each
      cases member with
      | list items =>
          have taken (results : List α) := Decoder.itemsFromValues_eq_ok_iff each results
          simp [Decoder.Finds, Decoder.list, taken]
      | _ => simp [Decoder.Finds, Decoder.list]

theorem find?_name {field : Field ρ} (distinct : (fields.map Field.name).Nodup) (member : field ∈ fields) :
    fields.find? (fun other => other.name == field.name) = some field := by
  induction fields with
  | nil => contradiction
  | cons first fields inductionHypothesis =>
      rw [List.map_cons, List.nodup_cons] at distinct
      rcases List.mem_cons.mp member with rfl | member
      · exact List.find?_cons_of_pos (beq_self_eq_true _)
      · have apart : first.name ≠ field.name := by
          intro same
          exact distinct.1 (same ▸ List.mem_map_of_mem member)
        rw [List.find?_cons_of_neg (by simpa using apart)]
        exact inductionHypothesis distinct.2 member

/-- Without a member for a required field there is no record. -/
theorem membersFromValues_missing {field : Field ρ} (known : field ∈ layout.fields)
    (required : field.optional = false) {seen : List String} (unseen : field.name ∉ seen)
    (missing : field.name ∉ members.map Prod.fst) (form : ρ) :
    ∃ error, layout.membersFromValues seen members form = .error error := by
  induction members generalizing seen form with
  | nil =>
      rw [membersFromValues, complete]
      split
      · exact ⟨_, rfl⟩
      next none =>
        have present := List.find?_eq_none.mp none field known
        simp [required, unseen] at present
  | cons member others inductionHypothesis =>
      rw [List.map_cons, List.mem_cons, not_or] at missing
      rw [membersFromValues]
      split
      · exact inductionHypothesis unseen missing.2 form
      · split
        · exact ⟨_, rfl⟩
        · refine Decoder.error_of_bind fun middle _ => inductionHypothesis ?_ missing.2 middle
          exact List.not_mem_cons_of_ne_of_not_mem missing.1 unseen

/-- Members that no field names are skipped. -/
theorem membersFromValues_unknown {seen : List String}
    (unknown : ∀ name ∈ members.map Prod.fst, layout.field? name = none) (form : ρ) :
    layout.membersFromValues seen members form = layout.complete seen form := by
  induction members with
  | nil => rfl
  | cons member others inductionHypothesis =>
      obtain ⟨first, later⟩ := List.forall_mem_cons.mp unknown
      rw [membersFromValues, first]
      exact inductionHypothesis later

/-- What holds while the members of some fields are still to be taken: the others have been seen, or no field
bears their names. -/
structure Awaits (layout : Layout ρ) (fields : List (Field ρ)) (names seen : List String) : Prop where
  known : ∀ field ∈ fields, layout.field? field.name = some field
  distinct : (fields.map Field.name).Nodup
  once : names.Nodup
  unseen : ∀ name ∈ seen, name ∉ fields.map Field.name
  unknown : ∀ name ∈ names, name ∉ fields.map Field.name → layout.field? name = none
  required : ∀ field ∈ layout.fields, field.optional = false → field.name ∈ seen ∨ field ∈ fields

theorem awaits_fields {names : List String} (distinct : (layout.fields.map Field.name).Nodup)
    (once : names.Nodup) : layout.Awaits layout.fields names [] where
  known field member := find?_name distinct member
  distinct := distinct
  once := once
  unseen _ member := absurd member List.not_mem_nil
  unknown name _ outside := by
    refine List.find?_eq_none.mpr fun field member same => outside ?_
    exact List.mem_map.mpr ⟨field, member, beq_iff_eq.mp same⟩
  required _ member _ := Or.inr member

namespace Awaits

variable {field : Field ρ} {names others seen : List String}

theorem own (awaits : layout.Awaits (field :: fields) names seen) :
    layout.field? field.name = some field ∧ field.name ∉ seen ∧ field.name ∉ fields.map Field.name :=
  ⟨awaits.known field List.mem_cons_self, fun member => awaits.unseen _ member List.mem_cons_self,
    (List.nodup_cons.mp awaits.distinct).1⟩

theorem unknown_of_ne (awaits : layout.Awaits (field :: fields) names seen) {name : String}
    (member : name ∈ names) (other : name ≠ field.name) (outside : name ∉ fields.map Field.name) :
    layout.field? name = none := by
  refine awaits.unknown name member ?_
  rw [List.map_cons]
  exact List.not_mem_cons_of_ne_of_not_mem other outside

/-- An optional field without a member is passed over. -/
theorem pass (awaits : layout.Awaits (field :: fields) names seen) (missing : field.name ∉ names)
    (optional : field.optional = true) : layout.Awaits fields names seen where
  known other member := awaits.known other (List.mem_cons_of_mem _ member)
  distinct := (List.nodup_cons.mp awaits.distinct).2
  once := awaits.once
  unseen name member inside := awaits.unseen name member (List.mem_cons_of_mem _ inside)
  unknown name member outside := by
    refine awaits.unknown_of_ne member ?_ outside
    rintro rfl
    exact missing member
  required other member needed := by
    refine (awaits.required other member needed).imp_right fun inside => ?_
    refine (List.mem_cons.mp inside).resolve_left ?_
    rintro rfl
    rw [optional] at needed
    contradiction

/-- The member of the first field is taken. -/
theorem take (awaits : layout.Awaits (field :: fields) names seen) (perm : names.Perm (field.name :: others)) :
    layout.Awaits fields others (field.name :: seen) where
  known other member := awaits.known other (List.mem_cons_of_mem _ member)
  distinct := (List.nodup_cons.mp awaits.distinct).2
  once := (List.nodup_cons.mp (perm.nodup_iff.mp awaits.once)).2
  unseen name member := by
    rcases List.mem_cons.mp member with rfl | member
    · exact awaits.own.2.2
    · exact fun inside => awaits.unseen name member (List.mem_cons_of_mem _ inside)
  unknown name member outside := by
    refine awaits.unknown_of_ne (perm.mem_iff.mpr (List.mem_cons_of_mem _ member)) ?_ outside
    rintro rfl
    exact (List.nodup_cons.mp (perm.nodup_iff.mp awaits.once)).1 member
  required other member needed := by
    rcases awaits.required other member needed with present | inside
    · exact Or.inl (List.mem_cons_of_mem _ present)
    · refine (List.mem_cons.mp inside).imp_left ?_
      rintro rfl
      exact List.mem_cons_self

/-- When no member is awaited any more, the record is complete. -/
theorem membersFromValues_eq (awaits : layout.Awaits [] (members.map Prod.fst) seen) (form : ρ) :
    layout.membersFromValues seen members form = .ok form := by
  have none : (layout.fields.find? fun field => !field.optional && !seen.contains field.name) = none := by
    refine List.find?_eq_none.mpr fun field member => ?_
    cases optional : field.optional with
    | true => simp
    | false => simpa using (awaits.required field member optional).resolve_right List.not_mem_nil
  rw [membersFromValues_unknown fun name member => awaits.unknown name member List.not_mem_nil, complete, none]

end Awaits

/-- Members may be taken in the order of the fields that await them. -/
theorem IsOrderless.takeMembers (isOrderless : layout.IsOrderless) {seen : List String}
    (awaits : layout.Awaits fields (members.map Prod.fst) seen) (form : ρ) :
    Agree (layout.membersFromValues seen members form) (Layout.takeMembers members fields form) := by
  induction fields generalizing members seen form with
  | nil =>
      rw [awaits.membersFromValues_eq]
      exact .refl _
  | cons field fields inductionHypothesis =>
      obtain ⟨known, fresh, apart⟩ := awaits.own
      rw [Layout.takeMembers]
      cases found : members.lookup field.name with
      | none =>
          have missing : field.name ∉ members.map Prod.fst := by
            intro member
            obtain ⟨other, listed, same⟩ := List.mem_map.mp member
            have absent := List.lookup_eq_none_iff.mp found other listed
            simp [same] at absent
          dsimp only
          cases optional : field.optional with
          | false =>
              obtain ⟨error, refused⟩ := membersFromValues_missing (List.mem_of_find?_eq_some known) optional
                fresh missing form
              rw [refused]
              exact agree_error _ _
          | true => exact inductionHypothesis (awaits.pass missing optional) form
      | some value =>
          obtain ⟨before, after, rfl, _⟩ := List.lookup_eq_some_iff.mp found
          have perm : (before ++ (field.name, value) :: after).Perm ((field.name, value) :: (before ++ after)) :=
            List.perm_middle
          have new : seen.contains field.name = false := by simpa using fresh
          have same (middle : ρ) : Layout.takeMembers (before ++ (field.name, value) :: after) fields middle =
              Layout.takeMembers (before ++ after) fields middle := by
            refine takeMembers_congr (fun other member => ?_) middle
            have unlike : (other.name == field.name) = false := by
              rw [beq_eq_false_iff_ne]
              intro same
              exact apart (same ▸ List.mem_map_of_mem member)
            rw [List.lookup_append, List.lookup_append, List.lookup_cons, unlike]
          refine (isOrderless.perm perm awaits.once seen form).trans ?_
          rw [membersFromValues]
          simp only [known, new, same, Bool.false_eq_true, if_false]
          exact Agree.bind (.refl _) fun middle =>
            inductionHypothesis (awaits.take (perm.map Prod.fst)) middle

/-- A record is decoded by the names of the fields. -/
theorem IsOrderless.decoder_record (isOrderless : layout.IsOrderless)
    (distinct : (layout.fields.map Field.name).Nodup) (once : (members.map Prod.fst).Nodup) (form : ρ) :
    layout.decoder.fromValue (.record members) = .ok form ↔
      Layout.takeMembers members layout.fields layout.blank = .ok form :=
  (isOrderless.takeMembers (awaits_fields distinct once) layout.blank).eq_ok_iff form

end Layout

end DelayGenerator.Json
