/-
This file shows what laying one value over another makes of their members: what only one of them has stays, and what
both have is laid over each other in turn.
-/

import DelayGenerator.Proofs.Settings.Leaf
import DelayGenerator.Settings.Load

namespace DelayGenerator.Settings

open Json

/-- A value over what is below it, if there is anything. -/
def laidOver (below? : Option Json) (value : Json) : Json :=
  match below? with
  | some below => overlay below value
  | none => value

section

variable {lower upper : List (String × Json)}

theorem overlayMembers_cons (lower : List (String × Json)) (name : String) (value : Json)
    (rest : List (String × Json)) :
    overlayMembers lower ((name, value) :: rest) =
      overlayMembers (insertMember name (laidOver (lower.lookup name) value) lower) rest := by
  rw [overlayMembers]
  rfl

theorem isAscending_overlayMembers (ascending : IsAscending lower) (upper : List (String × Json)) :
    IsAscending (overlayMembers lower upper) := by
  induction upper generalizing lower with
  | nil => exact ascending
  | cons first rest inductionHypothesis =>
      rw [overlayMembers_cons]
      exact inductionHypothesis (isAscending_insertMember ascending)

/-- Each member is laid over the one of its name. -/
theorem lookup_overlayMembers (once : (upper.map Prod.fst).Nodup) (name : String) :
    (overlayMembers lower upper).lookup name =
      ((upper.lookup name).map (laidOver (lower.lookup name))).or (lower.lookup name) := by
  induction upper generalizing lower with
  | nil => rw [overlayMembers]; rfl
  | cons first rest inductionHypothesis =>
      obtain ⟨key, value⟩ := first
      obtain ⟨absent, once⟩ := List.nodup_cons.mp once
      rw [overlayMembers_cons, inductionHypothesis once, lookup_insertMember, List.lookup_cons]
      by_cases same : name = key
      · subst same
        simp [lookup_of_not_mem absent]
      · simp [same, beq_false_of_ne same]

theorem lookup_overlayMembers_one (lower : List (String × Json)) (name key : String) (value : Json) :
    (overlayMembers lower [(name, value)]).lookup key =
      if key = name then some (laidOver (lower.lookup name) value) else lower.lookup key := by
  rw [overlayMembers_cons, overlayMembers, lookup_insertMember]

theorem overlay_record (lower upper : List (String × Json)) :
    overlay (.record lower) (.record upper) = .record (overlayMembers lower upper) := by
  rw [overlay]

/-- Only a record is joined with what is below it, and a record is no value of a leaf. -/
theorem read_laidOver (leaf : Leaf) (below? : Option Json) (value : Json) :
    leaf.read (laidOver below? value) = leaf.read value := by
  cases below? with
  | none => rfl
  | some below =>
      rw [laidOver]
      cases value <;> cases below <;> cases leaf <;> simp [overlay, Leaf.read, readText, readNatural]

end

/-- The members of a record and those of all records among them are sorted. -/
structure IsTidy (members : List (String × Json)) : Prop where
  ascending : IsAscending members
  inner : ∀ name innerMembers, members.lookup name = some (.record innerMembers) → IsAscending innerMembers

theorem exists_of_mem_sortedMembers {members : List (String × Json)} {name : String} {value : Json}
    (member : (name, value) ∈ sortedMembers members) : ∃ before : Json, value = before.sorted := by
  induction members with
  | nil => simp [sortedMembers] at member
  | cons first rest inductionHypothesis =>
      rw [sortedMembers] at member
      rcases List.mem_cons.mp member with same | later
      · cases same
        exact ⟨_, rfl⟩
      · exact inductionHypothesis later

theorem isTidy_sorted (members : List (String × Json)) : IsTidy (sortMembers (sortedMembers members)) := by
  have ascending := isAscending_sortMembers (sortedMembers members)
  refine ⟨ascending, fun name inner found => ?_⟩
  rw [Json.lookup_eq_some_iff ascending.nodup_names, mem_sortMembers] at found
  obtain ⟨later, earlier, parts, _⟩ := List.lookup_eq_some_iff.mp found
  have member : (name, Json.record inner) ∈ sortedMembers members := by
    rw [← List.mem_reverse, parts]
    exact List.mem_append_right _ List.mem_cons_self
  obtain ⟨before, same⟩ := exists_of_mem_sortedMembers member
  cases before with
  | record own =>
      rw [Json.sorted, Json.record.injEq] at same
      rw [same]
      exact isAscending_sortMembers _
  | _ => simp [Json.sorted] at same

/-- The value that sets one leaf. -/
def single (leaf : Leaf) (value : Json) : Json := .record [(leaf.part.name, .record [(leaf.name, value)])]

/-- The values for some leaves, laid over each other. -/
def layerOf (entries : List (Leaf × Json)) : Json :=
  entries.foldl (fun value entry => overlay value (single entry.1 entry.2)) (.record [])

theorem layerOf_concat (entries : List (Leaf × Json)) (leaf : Leaf) (value : Json) :
    layerOf (entries ++ [(leaf, value)]) = overlay (layerOf entries) (single leaf value) :=
  List.foldl_append

/-- The members of a section. A section that is missing has none. -/
def membersOf (part? : Option Json) : List (String × Json) :=
  match part? with
  | some (.record members) => members
  | _ => []

/-- A value holds entries for leaves and nothing else: every section is a record, and only sections of these leaves are
there. -/
structure Holds (entries : List (Leaf × Json)) (members : List (String × Json)) : Prop where
  ascending : IsAscending members
  part? : ∀ name inner, members.lookup name = some inner → ∃ innerMembers, inner = .record innerMembers ∧
    IsAscending innerMembers ∧ ∃ entry ∈ entries, entry.1.part.name = name
  leaf? : ∀ leaf : Leaf, (membersOf (members.lookup leaf.part.name)).lookup leaf.name = entries.lookup leaf

theorem laidOver_one (part? : Option Json) (records : ∀ inner, part? = some inner → ∃ members, inner = .record members)
    (name : String) (value : Json) :
    laidOver part? (.record [(name, value)]) = .record (overlayMembers (membersOf part?) [(name, value)]) := by
  cases part? with
  | none =>
      change _ = Json.record (overlayMembers [] _)
      rw [overlayMembers_cons, overlayMembers]
      rfl
  | some inner =>
      obtain ⟨members, rfl⟩ := records inner rfl
      exact overlay_record members _

section

variable {entries : List (Leaf × Json)} {members : List (String × Json)}

theorem Holds.isAscending_membersOf (holds : Holds entries members) (name : String) :
    IsAscending (membersOf (members.lookup name)) := by
  cases found : members.lookup name with
  | none => exact List.Pairwise.nil
  | some inner =>
      obtain ⟨innerMembers, rfl, ascending, _⟩ := holds.part? name inner found
      exact ascending

/-- One more leaf is set. -/
theorem Holds.concat (holds : Holds entries members) {leaf : Leaf} (absent : entries.lookup leaf = none)
    (value : Json) :
    Holds (entries ++ [(leaf, value)])
      (overlayMembers members [(leaf.part.name, .record [(leaf.name, value)])]) := by
  have own := laidOver_one (members.lookup leaf.part.name)
    (fun inner found => (holds.part? _ inner found).imp fun _ parts => parts.1) leaf.name value
  have lookup (name : String) := lookup_overlayMembers_one members leaf.part.name name (.record [(leaf.name, value)])
  rw [own] at lookup
  refine ⟨isAscending_overlayMembers holds.ascending _, fun name inner found => ?_, fun other => ?_⟩
  · rw [lookup] at found
    split at found
    next same =>
      refine ⟨_, (Option.some.inj found).symm, isAscending_overlayMembers (holds.isAscending_membersOf _) _, ?_⟩
      exact ⟨(leaf, value), by simp, same.symm⟩
    next =>
      obtain ⟨innerMembers, record, ascending, entry, inside, named⟩ := holds.part? name inner found
      exact ⟨innerMembers, record, ascending, entry, List.mem_append_left _ inside, named⟩
  · rw [lookup, List.lookup_append]
    have before := holds.leaf? other
    split
    next same =>
      rw [membersOf, lookup_overlayMembers_one]
      by_cases itself : other = leaf
      · subst itself
        rw [if_pos rfl, before, absent]
        simp [laidOver]
      · rw [if_neg fun named => itself (Leaf.name_injective named), ← same, before]
        simp [List.lookup_cons, beq_false_of_ne itself]
    next apart =>
      have differs : other ≠ leaf := fun itself => apart (by rw [itself])
      rw [before]
      simp [List.lookup_cons, beq_false_of_ne differs]

end

theorem holds_layerOf {entries : List (Leaf × Json)} (once : (entries.map Prod.fst).Nodup) :
    ∃ members, layerOf entries = .record members ∧ Holds entries members := by
  induction entries using List.reverseRecOn with
  | nil =>
      refine ⟨[], rfl, List.Pairwise.nil, fun name inner found => ?_, fun leaf => rfl⟩
      simp at found
  | append_singleton entries last inductionHypothesis =>
      obtain ⟨leaf, value⟩ := last
      rw [List.map_append, List.nodup_append] at once
      obtain ⟨once, _, apart⟩ := once
      have absent : entries.lookup leaf = none := by
        rw [List.lookup_eq_none_iff]
        intro entry inside
        exact bne_iff_ne.mpr fun same => apart _ (List.mem_map_of_mem inside) leaf (by simp) same.symm
      obtain ⟨members, same, holds⟩ := inductionHypothesis once
      refine ⟨_, ?_, holds.concat absent value⟩
      rw [layerOf_concat, same, single, overlay_record]

/-- Some leaf of the section is set. -/
def IsTouched (entries : List (Leaf × Json)) (part : Section) : Prop := ∃ entry ∈ entries, entry.1.part = part

instance (entries : List (Leaf × Json)) (part : Section) : Decidable (IsTouched entries part) :=
  inferInstanceAs (Decidable (∃ entry ∈ entries, _))

/-- What a section below gives to a leaf. A list gives nothing once a leaf of the section is set. -/
def Leaf.below? (leaf : Leaf) (isTouched : Prop) [Decidable isTouched] : (part? : Option Json) → Option Json
  | some (.list items) => if isTouched then none else leaf.within? (.list items)
  | some inner => leaf.within? inner
  | none => none

theorem Leaf.below?_untouched (leaf : Leaf) {isTouched : Prop} [Decidable isTouched] (untouched : ¬isTouched)
    (part? : Option Json) : leaf.below? isTouched part? = part?.bind leaf.within? := by
  cases part? with
  | none => rfl
  | some value => cases value <;> simp [Leaf.below?, untouched]

theorem Leaf.below?_congr (leaf : Leaf) {one other : Prop} [Decidable one] [Decidable other] (same : one ↔ other)
    (part? : Option Json) : leaf.below? one part? = leaf.below? other part? := by
  cases part? with
  | none => rfl
  | some value => cases value <;> simp [Leaf.below?, same]

/-- Where a leaf of a section is set, others take what a record below gives. -/
theorem Leaf.takes_within?_laidOver (leaf : Leaf) {isTouched : Prop} [Decidable isTouched] (touched : isTouched)
    (part? : Option Json) (tidy : ∀ inner, part? = some (.record inner) → IsAscending inner)
    {upper : List (String × Json)} (ascending : IsAscending upper) (before after : Settings) :
    leaf.Takes (leaf.within? (laidOver part? (.record upper))) before after ↔
      leaf.Takes ((upper.lookup leaf.name).or (leaf.below? isTouched part?)) before after := by
  have alone : leaf.within? (.record upper) = upper.lookup leaf.name := by
    rw [Leaf.within?, sortMembers_of_isAscending ascending]
  cases part? with
  | none => rw [laidOver, alone, Leaf.below?, Option.or_none]
  | some value =>
      rw [laidOver]
      cases value with
      | record inner =>
          have innerTidy := tidy inner rfl
          rw [overlay_record, Leaf.below?, Leaf.within?, Leaf.within?, sortMembers_of_isAscending innerTidy,
            sortMembers_of_isAscending (isAscending_overlayMembers innerTidy upper),
            lookup_overlayMembers ascending.nodup_names]
          · cases upper.lookup leaf.name with
            | none => exact Iff.rfl
            | some value =>
                change leaf.read (laidOver _ value) = _ ↔ leaf.read value = _
                rw [read_laidOver]
          · simp
      | _ => simp [overlay, Leaf.below?, Leaf.within?, sortMembers_of_isAscending ascending, touched]

section

variable {entries : List (Leaf × Json)} {lower members : List (String × Json)}

theorem Holds.isTouched_iff (holds : Holds entries members) (part : Section) :
    IsTouched entries part ↔ ∃ inner, members.lookup part.name = some (.record inner) := by
  constructor
  · rintro ⟨entry, inside, rfl⟩
    cases found : members.lookup entry.1.part.name with
    | none =>
        have unset := holds.leaf? entry.1
        rw [found] at unset
        simpa using List.lookup_eq_none_iff.mp unset.symm entry inside
    | some inner =>
        obtain ⟨innerMembers, rfl, _⟩ := holds.part? _ inner found
        exact ⟨innerMembers, rfl⟩
  · rintro ⟨inner, found⟩
    obtain ⟨_, _, _, entry, inside, named⟩ := holds.part? _ _ found
    exact ⟨entry, inside, Section.name_injective named⟩

theorem Holds.lookup_eq_none (holds : Holds entries members) {part : Section} (untouched : ¬IsTouched entries part) :
    members.lookup part.name = none := by
  cases found : members.lookup part.name with
  | none => rfl
  | some inner =>
      obtain ⟨innerMembers, rfl, _⟩ := holds.part? _ inner found
      exact absurd ((holds.isTouched_iff part).mpr ⟨innerMembers, found⟩) untouched

/-- A leaf takes what is set for it, or else what is below. -/
theorem takes_overlay (tidy : IsTidy lower) (holds : Holds entries members) (leaf : Leaf) (before after : Settings) :
    leaf.Takes (leaf.at? (.record (overlayMembers lower members))) before after ↔
      leaf.Takes ((entries.lookup leaf).or
        (leaf.below? (IsTouched entries leaf.part) (lower.lookup leaf.part.name))) before after := by
  have set := holds.leaf? leaf
  rw [Leaf.at?, Json.member?, lookup_overlayMembers holds.ascending.nodup_names]
  by_cases touched : IsTouched entries leaf.part
  · obtain ⟨inner, found⟩ := (holds.isTouched_iff leaf.part).mp touched
    have ascending := holds.isAscending_membersOf leaf.part.name
    rw [found, membersOf] at ascending set
    rw [found, ← set]
    exact leaf.takes_within?_laidOver touched _ (tidy.inner _) ascending before after
  · have none := holds.lookup_eq_none touched
    rw [none] at set
    rw [none, ← set, leaf.below?_untouched touched]
    exact Iff.rfl

/-- Only sections below of which no leaf is set are still to be read. -/
theorem hasSections_overlay (holds : Holds entries members) :
    HasSections (.record (overlayMembers lower members)) ↔
      ∀ part : Section, IsTouched entries part ∨ ∀ inner, lower.lookup part.name = some inner → IsSection inner := by
  refine forall_congr' fun part => ?_
  rw [Json.member?, lookup_overlayMembers holds.ascending.nodup_names]
  by_cases touched : IsTouched entries part
  · obtain ⟨inner, found⟩ := (holds.isTouched_iff part).mp touched
    refine ⟨fun _ => Or.inl touched, fun _ value given => ?_⟩
    rw [found] at given
    cases given
    cases lower.lookup part.name with
    | none => exact Or.inl ⟨inner, rfl⟩
    | some below => cases below <;> simp [laidOver, overlay, IsSection]
  · rw [holds.lookup_eq_none touched]
    simp [touched]

end

end DelayGenerator.Settings
