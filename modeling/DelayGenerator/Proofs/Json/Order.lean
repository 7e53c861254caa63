/-
This file shows that decoding does not depend on the order in which a record lists its members, as
long as no name stands twice.
-/

import DelayGenerator.Json.Decoder
import Mathlib.Data.List.Basic
import Mathlib.Data.List.Perm.Basic
import Mathlib.Data.List.Pairwise

namespace DelayGenerator.Json

mutual

/-- No record in the value names a member twice. -/
def NamesOnce : Json → Prop
  | list items => NamesOnceInItems items
  | record members => (members.map Prod.fst).Nodup ∧ NamesOnceInMembers members
  | _ => True

def NamesOnceInItems : List Json → Prop
  | [] => True
  | item :: others => NamesOnce item ∧ NamesOnceInItems others

def NamesOnceInMembers : List (String × Json) → Prop
  | [] => True
  | (_, value) :: others => NamesOnce value ∧ NamesOnceInMembers others

end

mutual

instance decidableNamesOnce : (value : Json) → Decidable value.NamesOnce
  | .null => .isTrue trivial
  | .bool _ => .isTrue trivial
  | .integer _ => .isTrue trivial
  | .number _ => .isTrue trivial
  | .text _ => .isTrue trivial
  | .list items => decidableNamesOnceInItems items
  | .record members =>
    have := decidableNamesOnceInMembers members
    inferInstanceAs (Decidable (_ ∧ _))

instance decidableNamesOnceInItems : (items : List Json) → Decidable (NamesOnceInItems items)
  | [] => .isTrue trivial
  | item :: others =>
    have := decidableNamesOnce item
    have := decidableNamesOnceInItems others
    inferInstanceAs (Decidable (_ ∧ _))

instance decidableNamesOnceInMembers :
    (members : List (String × Json)) → Decidable (NamesOnceInMembers members)
  | [] => .isTrue trivial
  | (_, value) :: others =>
    have := decidableNamesOnce value
    have := decidableNamesOnceInMembers others
    inferInstanceAs (Decidable (_ ∧ _))

end

section

variable {α : Type} {name : String} {value : α}

/-- A new member is put in somewhere. -/
theorem insertMember_perm {members : List (String × α)} (new : name ∉ members.map Prod.fst) :
    (insertMember name value members).Perm ((name, value) :: members) := by
  induction members with
  | nil => exact .refl _
  | cons first rest inductionHypothesis =>
      rw [List.map_cons, List.mem_cons, not_or] at new
      rw [insertMember]
      split
      · exact .refl _
      split
      next same => exact absurd (beq_iff_eq.mp same) new.1
      next => exact ((inductionHypothesis new.2).cons first).trans (.swap (name, value) first rest)

theorem sortMembers_perm {members : List (String × α)} (once : (members.map Prod.fst).Nodup) :
    (sortMembers members).Perm members := by
  have onto (members sorted : List (String × α)) (once : ((sorted ++ members).map Prod.fst).Nodup) :
      (members.foldl (fun sorted member => insertMember member.1 member.2 sorted) sorted).Perm
        (sorted ++ members) := by
    induction members generalizing sorted with
    | nil => simp
    | cons member rest inductionHypothesis =>
        have move : (sorted ++ member :: rest).Perm ((member :: sorted) ++ rest) := List.perm_middle
        have onceToo := (move.map Prod.fst).nodup_iff.mp once
        have new : member.1 ∉ sorted.map Prod.fst := by
          rw [List.cons_append, List.map_cons, List.nodup_cons, List.map_append, List.mem_append,
            not_or] at onceToo
          exact onceToo.1.1
        have inserted : (insertMember member.1 member.2 sorted).Perm (member :: sorted) :=
          insertMember_perm new
        have together := inserted.append_right rest
        have step := inductionHypothesis _ ((together.map Prod.fst).nodup_iff.mpr onceToo)
        exact step.trans (together.trans move.symm)
  exact onto members [] once

end

theorem names_sortedMembers (members : List (String × Json)) :
    (sortedMembers members).map Prod.fst = members.map Prod.fst := by
  induction members with
  | nil => rfl
  | cons member rest inductionHypothesis =>
      rw [sortedMembers, List.map_cons, List.map_cons, inductionHypothesis]

/-- Two attempts agree if both give the same result, or if both fail. -/
def Agree {α : Type} (left right : Except Error α) : Prop := left.toOption = right.toOption

theorem Agree.refl {α : Type} (attempt : Except Error α) : Agree attempt attempt := rfl

theorem Agree.symm {α : Type} {left right : Except Error α} (agree : Agree left right) : Agree right left :=
  Eq.symm agree

theorem Agree.trans {α : Type} {left middle right : Except Error α} (agree : Agree left middle)
    (agreeToo : Agree middle right) : Agree left right :=
  Eq.trans agree agreeToo

theorem agree_error {α : Type} (error other : Error) :
    Agree (.error error : Except Error α) (.error other) := rfl

theorem Agree.bind {α β : Type} {left right : Except Error α} {next nextToo : α → Except Error β}
    (agree : Agree left right) (later : ∀ result, Agree (next result) (nextToo result)) :
    Agree (left >>= next) (right >>= nextToo) := by
  cases left with
  | error error =>
      cases right with
      | error other => exact agree_error error other
      | ok result => contradiction
  | ok result =>
      cases right with
      | error other => contradiction
      | ok other =>
          cases agree
          exact later result

theorem agree_bind_error {α β : Type} (attempt : Except Error α) (error other : Error) :
    Agree (attempt >>= fun _ => (.error error : Except Error β)) (.error other) := by
  cases attempt <;> rfl

theorem Agree.eq_ok_iff {α : Type} {left right : Except Error α} (agree : Agree left right) (result : α) :
    left = .ok result ↔ right = .ok result := by
  cases left with
  | error error =>
      cases right with
      | error other => simp
      | ok other => contradiction
  | ok given =>
      cases right with
      | error other => contradiction
      | ok other =>
          cases agree
          rfl

/-- The decoder does not see in which order records list their members. -/
def Decoder.IsOrderless {α : Type} (decoder : Decoder α) : Prop :=
  ∀ ⦃value : Json⦄, value.NamesOnce → Agree (decoder.fromValue value.sorted) (decoder.fromValue value)

def Field.IsOrderless {ρ : Type} (field : Field ρ) : Prop :=
  ∀ ⦃value : Json⦄ (form : ρ), value.NamesOnce →
    Agree (field.fromValue value.sorted form) (field.fromValue value form)

/-- It does not matter which of two fields is put into a record first. -/
def Field.Commutes {ρ : Type} (first second : Field ρ) : Prop :=
  ∀ (value other : Json) (form : ρ),
    Agree (first.fromValue value form >>= second.fromValue other)
      (second.fromValue other form >>= first.fromValue value)

/-- The fields of a layout see no order and may be put into a record in any order. -/
structure Layout.IsOrderless {ρ : Type} (layout : Layout ρ) : Prop where
  fields : ∀ field ∈ layout.fields, field.IsOrderless
  commute : layout.fields.Pairwise Field.Commutes

namespace Decoder

theorem isOrderless_text : text.IsOrderless := by
  intro value once
  cases value <;> rfl

theorem IsOrderless.refine {α β : Type} {decoder : Decoder α} (isOrderless : decoder.IsOrderless)
    (accept : α → Except Error β) : (decoder.refine accept).IsOrderless := by
  intro value once
  exact (isOrderless once).bind fun result => .refl (accept result)

theorem IsOrderless.option {α : Type} {decoder : Decoder α} (isOrderless : decoder.IsOrderless) :
    decoder.option.IsOrderless := by
  intro value once
  have later : Agree (decoder.fromValue value.sorted >>= fun result => .ok (some result))
      (decoder.fromValue value >>= fun result => .ok (some result)) :=
    (isOrderless once).bind fun result => .refl _
  cases value <;> first | rfl | exact later

theorem IsOrderless.list {α : Type} {decoder : Decoder α} (isOrderless : decoder.IsOrderless) :
    decoder.list.IsOrderless := by
  have items (items : List Json) (once : NamesOnceInItems items) :
      Agree (decoder.itemsFromValues (sortedItems items)) (decoder.itemsFromValues items) := by
    induction items with
    | nil => rfl
    | cons item others inductionHypothesis =>
        rw [sortedItems, itemsFromValues, itemsFromValues]
        exact (isOrderless once.1).bind fun result => (inductionHypothesis once.2).bind fun results => .refl _
  intro value once
  cases value with
  | list given => exact items given once
  | _ => rfl

end Decoder

theorem Decoder.IsOrderless.field {ρ α : Type} {decoder : Decoder α} (isOrderless : decoder.IsOrderless)
    (name : String) (put : α → ρ → ρ) : (Field.of name decoder put).IsOrderless := by
  intro value form once
  exact (isOrderless once).bind fun result => .refl _

theorem Field.IsOrderless.required {ρ : Type} {field : Field ρ} (isOrderless : field.IsOrderless) :
    field.required.IsOrderless :=
  isOrderless

theorem Field.Commutes.symm {ρ : Type} {first second : Field ρ} (commutes : first.Commutes second) :
    second.Commutes first := fun value other form => (commutes other value form).symm

theorem Field.Commutes.required {ρ : Type} {first second : Field ρ} (commutes : first.Commutes second) :
    first.Commutes second.required :=
  commutes

/-- Fields for different parts of a record commute. -/
theorem commutes_of {ρ α β : Type} {name other : String} {decoder : Decoder α} {decoderToo : Decoder β}
    {put : α → ρ → ρ} {putToo : β → ρ → ρ}
    (apart : ∀ value other form, putToo other (put value form) = put value (putToo other form)) :
    (Field.of name decoder put).Commutes (Field.of other decoderToo putToo) := by
  intro value other form
  simp only [Field.of, bind, Except.bind]
  cases decoder.fromValue value with
  | error error =>
      cases decoderToo.fromValue other <;> rfl
  | ok result =>
      cases decoderToo.fromValue other with
      | error error => rfl
      | ok resultToo =>
          dsimp only
          rw [apart]
          exact .refl _

namespace Layout

variable {ρ : Type} {layout : Layout ρ}

theorem complete_congr {seen other : List String} (same : ∀ name, seen.contains name = other.contains name)
    (form : ρ) : layout.complete seen form = layout.complete other form := by
  simp only [complete, same]

/-- Which names have been seen matters, but not their order. -/
theorem membersFromValues_congr {members : List (String × Json)} {seen other : List String} {form : ρ}
    (same : ∀ name, seen.contains name = other.contains name) :
    layout.membersFromValues seen members form = layout.membersFromValues other members form := by
  induction members generalizing seen other form with
  | nil => exact complete_congr same form
  | cons member rest inductionHypothesis =>
      have more (name : String) : (member.1 :: seen).contains name = (member.1 :: other).contains name := by
        rw [List.contains_cons, List.contains_cons, same]
      simp only [membersFromValues, same member.1, inductionHypothesis same, inductionHypothesis more]

theorem IsOrderless.commutes (isOrderless : layout.IsOrderless) {first second : Field ρ} {name other : String}
    (found : layout.field? name = some first) (foundToo : layout.field? other = some second)
    (apart : name ≠ other) : first.Commutes second := by
  have symmetric : Std.Symm (@Field.Commutes ρ) := ⟨fun _ _ => Field.Commutes.symm⟩
  refine isOrderless.commute.forall (List.mem_of_find?_eq_some found) (List.mem_of_find?_eq_some foundToo) ?_
  rintro rfl
  have named := List.find?_some found
  have namedToo := List.find?_some foundToo
  rw [beq_iff_eq] at named namedToo
  exact apart (named.symm.trans namedToo)

/-- Two members that stand next to each other may change places. -/
theorem IsOrderless.swap (isOrderless : layout.IsOrderless) {first second : String × Json}
    (apart : first.1 ≠ second.1) (rest : List (String × Json)) (seen : List String) (form : ρ) :
    Agree (layout.membersFromValues seen (first :: second :: rest) form)
      (layout.membersFromValues seen (second :: first :: rest) form) := by
  cases found : layout.field? first.1 with
  | none =>
      simp only [membersFromValues, found]
      exact .refl _
  | some field =>
      cases foundToo : layout.field? second.1 with
      | none =>
          simp only [membersFromValues, found, foundToo]
          exact .refl _
      | some fieldToo =>
          have behind : (first.1 :: seen).contains second.1 = seen.contains second.1 := by
            simp [apart.symm]
          have behindToo : (second.1 :: seen).contains first.1 = seen.contains first.1 := by
            simp [apart]
          simp only [membersFromValues, found, foundToo, behind, behindToo]
          cases seen.contains first.1 with
          | true =>
              cases seen.contains second.1 with
              | true => exact agree_error _ _
              | false => exact (agree_bind_error _ _ _).symm
          | false =>
              cases seen.contains second.1 with
              | true => exact agree_bind_error _ _ _
              | false =>
                  have same : layout.membersFromValues (second.1 :: first.1 :: seen) rest =
                      layout.membersFromValues (first.1 :: second.1 :: seen) rest := by
                    funext form
                    refine membersFromValues_congr fun name => ?_
                    rw [List.contains_cons, List.contains_cons, List.contains_cons, List.contains_cons,
                      Bool.or_left_comm]
                  have commutes := isOrderless.commutes found foundToo apart first.2 second.2 form
                  have onward := commutes.bind fun form =>
                    Agree.refl (layout.membersFromValues (second.1 :: first.1 :: seen) rest form)
                  rw [bind_assoc, bind_assoc] at onward
                  simp only [Bool.false_eq_true, if_false]
                  rwa [← same]

/-- The members of a record may be listed in any order. -/
theorem IsOrderless.perm (isOrderless : layout.IsOrderless) {members others : List (String × Json)}
    (perm : members.Perm others) (once : (members.map Prod.fst).Nodup) (seen : List String) (form : ρ) :
    Agree (layout.membersFromValues seen members form) (layout.membersFromValues seen others form) := by
  induction perm generalizing seen form with
  | nil => exact .refl _
  | cons member perm inductionHypothesis =>
      have onceToo := (List.nodup_cons.mp once).2
      simp only [membersFromValues]
      split
      · exact inductionHypothesis onceToo seen form
      split
      · exact .refl _
      · exact Agree.bind (.refl _) fun result => inductionHypothesis onceToo (member.1 :: seen) result
  | swap first second rest =>
      rw [List.map_cons, List.map_cons, List.nodup_cons, List.mem_cons, not_or] at once
      exact isOrderless.swap once.1.1 rest seen form
  | trans perm permToo inductionHypothesis inductionHypothesisToo =>
      have onceToo := (perm.map Prod.fst).nodup_iff.mp once
      exact (inductionHypothesis once seen form).trans (inductionHypothesisToo onceToo seen form)

/-- The members of a record with what their values become by sorting come out as before. -/
theorem IsOrderless.sortedMembers (isOrderless : layout.IsOrderless) {members : List (String × Json)}
    (once : NamesOnceInMembers members) (seen : List String) (form : ρ) :
    Agree (layout.membersFromValues seen (sortedMembers members) form)
      (layout.membersFromValues seen members form) := by
  induction members generalizing seen form with
  | nil => exact .refl _
  | cons member rest inductionHypothesis =>
      simp only [Json.sortedMembers, membersFromValues]
      split
      · exact inductionHypothesis once.2 seen form
      next field found =>
        split
        · exact .refl _
        · refine (isOrderless.fields field (List.mem_of_find?_eq_some found) form once.1).bind fun result => ?_
          exact inductionHypothesis once.2 (member.1 :: seen) result

theorem IsOrderless.items (length : Nat) {fields : List (Field ρ)}
    (areOrderless : ∀ field ∈ fields, field.IsOrderless)
    {items : List Json} (once : NamesOnceInItems items) (index : Nat) (form : ρ) :
    Agree (layout.itemsFromValues length fields index (sortedItems items) form)
      (layout.itemsFromValues length fields index items form) := by
  induction fields generalizing items index form with
  | nil => cases items <;> exact .refl _
  | cons field fields inductionHypothesis =>
      have onward : ∀ field ∈ fields, field.IsOrderless := fun field member =>
        areOrderless field (List.mem_cons_of_mem _ member)
      cases items with
      | nil => exact .refl _
      | cons item others =>
          rw [sortedItems, itemsFromValues, itemsFromValues]
          refine (areOrderless field List.mem_cons_self form once.1).bind fun result => ?_
          exact inductionHypothesis onward once.2 (index + 1) result

theorem IsOrderless.decoder (isOrderless : layout.IsOrderless) : layout.decoder.IsOrderless := by
  intro value once
  cases value with
  | list items =>
      have length : (sortedItems items).length = items.length := by
        induction items with
        | nil => rfl
        | cons item others inductionHypothesis =>
            rw [sortedItems, List.length_cons, List.length_cons, inductionHypothesis once.2]
      change Agree (layout.itemsFromValues (sortedItems items).length _ _ (sortedItems items) _) _
      rw [length]
      exact IsOrderless.items items.length isOrderless.fields once 0 layout.blank
  | record members =>
      have onceToo : ((Json.sortedMembers members).map Prod.fst).Nodup := by
        rw [names_sortedMembers]
        exact once.1
      have perm := sortMembers_perm onceToo
      refine (isOrderless.perm perm ((perm.map Prod.fst).nodup_iff.mpr onceToo) [] layout.blank).trans ?_
      exact isOrderless.sortedMembers once.2 [] layout.blank
  | _ => rfl

end Layout

theorem namesOnceInItems_iff {items : List Json} :
    NamesOnceInItems items ↔ ∀ item ∈ items, item.NamesOnce := by
  induction items with
  | nil => simp [NamesOnceInItems]
  | cons item others inductionHypothesis => simp [NamesOnceInItems, inductionHypothesis]

theorem namesOnceInMembers_iff {members : List (String × Json)} :
    NamesOnceInMembers members ↔ ∀ member ∈ members, member.2.NamesOnce := by
  induction members with
  | nil => simp [NamesOnceInMembers]
  | cons member others inductionHypothesis => simp [NamesOnceInMembers, inductionHypothesis]

mutual

/-- Sorting leaves every name where it stands once. -/
theorem NamesOnce.sorted : (value : Json) → value.NamesOnce → value.sorted.NamesOnce
  | .null, _ => trivial
  | .bool _, _ => trivial
  | .integer _, _ => trivial
  | .number _, _ => trivial
  | .text _, _ => trivial
  | .list items, once => NamesOnceInItems.sorted items once
  | .record members, once => by
    have onceToo : ((sortedMembers members).map Prod.fst).Nodup := by
      rw [names_sortedMembers]
      exact once.1
    have perm := sortMembers_perm onceToo
    have inside := namesOnceInMembers_iff.mp (NamesOnceInMembers.sorted members once.2)
    exact ⟨(perm.map Prod.fst).nodup_iff.mpr onceToo,
      namesOnceInMembers_iff.mpr fun member listed => inside member (perm.mem_iff.mp listed)⟩

theorem NamesOnceInItems.sorted :
    (items : List Json) → NamesOnceInItems items → NamesOnceInItems (sortedItems items)
  | [], _ => trivial
  | item :: others, once => ⟨NamesOnce.sorted item once.1, NamesOnceInItems.sorted others once.2⟩

theorem NamesOnceInMembers.sorted :
    (members : List (String × Json)) → NamesOnceInMembers members → NamesOnceInMembers (sortedMembers members)
  | [], _ => trivial
  | (_, value) :: others, once => ⟨NamesOnce.sorted value once.1, NamesOnceInMembers.sorted others once.2⟩

end

/-- A value in which no name stands twice is decoded as if its records were in the order of its
text. -/
theorem Decoder.IsOrderless.decodeValue {α : Type} {decoder : Decoder α} (isOrderless : decoder.IsOrderless)
    {value : Json} (once : value.NamesOnce) (result : α) :
    decoder.decodeValue value = .ok result ↔ decoder.fromValue value = .ok result :=
  (isOrderless once).eq_ok_iff result

end DelayGenerator.Json
