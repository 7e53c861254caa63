/-
This file shows what sorting makes of the members of a record: their names ascend, and each stands with the
last value that is given to it.
-/

import DelayGenerator.Json.Basic
import Mathlib.Data.List.Induction
import Mathlib.Data.List.Sort

namespace DelayGenerator.Json

variable {α : Type}

/-- The names of the members ascend, and none is repeated. -/
def IsAscending (members : List (String × α)) : Prop :=
  members.Pairwise fun earlier later => earlier.1 < later.1

variable {name key : String} {value found : α} {members sorted : List (String × α)}

theorem mem_insertMember (ascending : IsAscending sorted) :
    (key, found) ∈ insertMember name value sorted ↔
      if key = name then found = value else (key, found) ∈ sorted := by
  induction sorted with
  | nil => by_cases same : key = name <;> simp [insertMember, same]
  | cons first rest inductionHypothesis =>
      obtain ⟨before, later⟩ := List.pairwise_cons.mp ascending
      rw [insertMember]
      split
      next less =>
        have absent : (name, found) ∉ first :: rest := by
          intro member
          rcases List.mem_cons.mp member with rfl | behind
          · exact String.lt_irrefl _ less
          · exact String.lt_irrefl _ (String.lt_trans less (before _ behind))
        by_cases same : key = name
        · subst same
          simp [absent]
        · simp [same]
      next =>
        split
        next same =>
          have same : name = first.1 := beq_iff_eq.mp same
          have absent : (name, found) ∉ rest := fun member => String.lt_irrefl _ (same ▸ before _ member)
          by_cases own : key = name
          · subst own
            simp [absent]
          · have other : (key, found) ≠ first := fun whole => own (by rw [same, ← whole])
            simp [own, other]
        next different =>
          rw [List.mem_cons, inductionHypothesis later]
          by_cases own : key = name
          · subst own
            have other : (key, found) ≠ first := fun whole => different (by simp [← whole])
            simp [other]
          · simp [own]

theorem isAscending_insertMember (ascending : IsAscending sorted) : IsAscending (insertMember name value sorted) := by
  induction sorted with
  | nil => exact List.pairwise_singleton _ _
  | cons first rest inductionHypothesis =>
      obtain ⟨before, later⟩ := List.pairwise_cons.mp ascending
      rw [insertMember]
      split
      next less =>
        refine List.pairwise_cons.mpr ⟨List.forall_mem_cons.mpr ⟨less, fun member inside => ?_⟩, ascending⟩
        exact String.lt_trans less (before member inside)
      next notLess =>
        split
        next same =>
          rw [beq_iff_eq.mp same]
          exact List.pairwise_cons.mpr ⟨before, later⟩
        next different =>
          refine List.pairwise_cons.mpr ⟨fun member inside => ?_, inductionHypothesis later⟩
          have greater : first.1 < name := by
            by_contra notGreater
            exact different <|
              beq_iff_eq.mpr (String.le_antisymm (String.not_lt.mp notGreater) (String.not_lt.mp notLess))
          have cases := (mem_insertMember later).mp (show (member.1, member.2) ∈ _ from inside)
          split at cases
          next own => exact own ▸ greater
          next other => exact before _ cases

theorem sortMembers_concat (members : List (String × α)) (last : String × α) :
    sortMembers (members ++ [last]) = insertMember last.1 last.2 (sortMembers members) :=
  List.foldl_append

theorem isAscending_sortMembers (members : List (String × α)) : IsAscending (sortMembers members) := by
  induction members using List.reverseRecOn with
  | nil => exact List.Pairwise.nil
  | append_singleton members last inductionHypothesis =>
      rw [sortMembers_concat]
      exact isAscending_insertMember inductionHypothesis

theorem mem_sortMembers : (name, value) ∈ sortMembers members ↔ members.reverse.lookup name = some value := by
  induction members using List.reverseRecOn with
  | nil => simp [sortMembers]
  | append_singleton members last inductionHypothesis =>
      rw [sortMembers_concat, mem_insertMember (isAscending_sortMembers members), inductionHypothesis,
        List.reverse_append, List.reverse_singleton, List.singleton_append, List.lookup_cons]
      by_cases same : name = last.1
      · simp [same, eq_comm]
      · simp [same, beq_false_of_ne same]

/-- Members whose names ascend are the sorted ones, if each is the last one of its name. -/
theorem sortMembers_eq (ascending : IsAscending sorted)
    (same : ∀ name value, (name, value) ∈ sorted ↔ members.reverse.lookup name = some value) :
    sortMembers members = sorted := by
  have irreflexive : Std.Irrefl fun earlier later : String × α => earlier.1 < later.1 := ⟨fun _ => String.lt_irrefl _⟩
  have antisymmetric : Std.Antisymm fun earlier later : String × α => earlier.1 < later.1 :=
    ⟨fun _ _ first second => absurd second (String.lt_asymm first)⟩
  refine (isAscending_sortMembers members).eq_of_mem_iff ascending fun member => ?_
  exact mem_sortMembers.trans (same member.1 member.2).symm

theorem IsAscending.nodup_names (ascending : IsAscending members) : (members.map Prod.fst).Nodup := by
  refine List.pairwise_map.mpr (ascending.imp ?_)
  intro earlier later less same
  rw [same] at less
  exact String.lt_irrefl _ less

theorem lookup_insertMember (key name : String) (value : α) (members : List (String × α)) :
    (insertMember name value members).lookup key = if key = name then some value else members.lookup key := by
  induction members with
  | nil =>
      rw [insertMember, List.lookup_cons]
      by_cases same : key = name <;> simp [same, beq_false_of_ne]
  | cons first rest inductionHypothesis =>
      rw [insertMember]
      split
      · rw [List.lookup_cons]
        by_cases same : key = name <;> simp [same, beq_false_of_ne]
      · split
        next own =>
          rw [List.lookup_cons, List.lookup_cons, ← beq_iff_eq.mp own]
          by_cases same : key = name <;> simp [same, beq_false_of_ne]
        next other =>
          have differs : name ≠ first.1 := by simpa using other
          rw [List.lookup_cons, List.lookup_cons, inductionHypothesis]
          by_cases same : key = name
          · simp [same, beq_false_of_ne differs]
          · rw [if_neg same, if_neg same]

section

variable {κ : Type} [BEq κ] [LawfulBEq κ] {entry : κ} {entries : List (κ × α)}

theorem lookup_of_not_mem (absent : entry ∉ entries.map Prod.fst) : entries.lookup entry = none := by
  rw [List.lookup_eq_none_iff]
  intro member inside
  exact bne_iff_ne.mpr fun same => absent (List.mem_map.mpr ⟨member, inside, same.symm⟩)

/-- Where no name is repeated, looking a name up gives the member of that name. -/
theorem lookup_eq_some_iff (once : (entries.map Prod.fst).Nodup) :
    entries.lookup entry = some value ↔ (entry, value) ∈ entries := by
  induction entries with
  | nil => simp
  | cons first rest inductionHypothesis =>
      obtain ⟨absent, once⟩ := List.nodup_cons.mp once
      rw [List.lookup_cons, List.mem_cons, ← inductionHypothesis once]
      by_cases same : entry = first.1
      · subst same
        simp [lookup_of_not_mem absent, Prod.ext_iff, eq_comm]
      · have differs : (entry, value) ≠ first := fun whole => same (by rw [← whole])
        simp [beq_false_of_ne same, differs]

end

/-- What is sorted already stays. -/
theorem sortMembers_of_isAscending (ascending : IsAscending members) : sortMembers members = members := by
  have once := ascending.nodup_names
  have onceBackward : (members.reverse.map Prod.fst).Nodup := by
    rw [List.map_reverse]
    exact List.nodup_reverse.mpr once
  exact sortMembers_eq ascending fun name value => by rw [lookup_eq_some_iff onceBackward, List.mem_reverse]

end DelayGenerator.Json
