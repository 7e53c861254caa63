/-
This file shows which setting the name of an environment variable means, in whatever letter case it is written, and what
the variables give together.
-/

import DelayGenerator.Proofs.Settings.Overlay
import DelayGenerator.Proofs.Text.LetterCase
import Mathlib.Data.List.Pairwise

namespace DelayGenerator

namespace Environment

/-- Only a letter has another letter case. -/
theorem eq_of_toLower_eq {character mark : Char} (notLetter : ¬(0x61 ≤ mark.toNat ∧ mark.toNat ≤ 0x7A))
    (same : character.toLower = mark) : character = mark := by
  unfold Char.toLower at same
  split at same
  next capital =>
    have low : 0x41 ≤ character.toNat := UInt32.le_iff_toNat_le.mp capital.1
    have high : character.toNat ≤ 0x5A := UInt32.le_iff_toNat_le.mp capital.2
    have small : mark.toNat = (character.toNat + 32) % 2 ^ 32 := by
      rw [← same]
      exact UInt32.toNat_add _ _
    omega
  next => exact same

/-- Letter case does not matter to where the pairs of underscores are. -/
theorem pairsToPoints_map_toLower (characters : List Char) :
    pairsToPoints (characters.map Char.toLower) = (pairsToPoints characters).map Char.toLower := by
  induction characters using pairsToPoints.induct with
  | case1 rest inductionHypothesis =>
      change '.' :: pairsToPoints (rest.map Char.toLower) = _
      rw [inductionHypothesis]
      rfl
  | case2 character rest notPair inductionHypothesis =>
      rw [pairsToPoints, List.map_cons, pairsToPoints, inductionHypothesis, List.map_cons]
      · intro others isMark begins
        obtain ⟨next, more, rfl, isMarkToo, rfl⟩ := List.map_eq_cons_iff.mp begins
        have first := eq_of_toLower_eq (by decide) isMark
        have second := eq_of_toLower_eq (by decide) isMarkToo
        exact notPair more first (by rw [second])
      · exact notPair
  | case3 => rfl

theorem splitAtPoints_map_toLower (characters : List Char) :
    splitAtPoints (characters.map Char.toLower) = (splitAtPoints characters).map (List.map Char.toLower) := by
  induction characters using splitAtPoints.induct with
  | case1 => rfl
  | case2 rest inductionHypothesis =>
      change [] :: splitAtPoints (rest.map Char.toLower) = _
      rw [inductionHypothesis]
      rfl
  | case3 character rest notPoint none inductionHypothesis =>
      rw [List.map_cons, splitAtPoints, splitAtPoints, inductionHypothesis, none]
      · rfl
      · exact notPoint
      · exact fun isPoint => notPoint (eq_of_toLower_eq (by decide) isPoint)
  | case4 character rest notPoint part parts some inductionHypothesis =>
      rw [List.map_cons, splitAtPoints, splitAtPoints, inductionHypothesis, some]
      · rfl
      · exact notPoint
      · exact fun isPoint => notPoint (eq_of_toLower_eq (by decide) isPoint)

theorem mem_pairsToPoints {characters : List Char} {character : Char} (member : character ∈ pairsToPoints characters) :
    character = '.' ∨ character ∈ characters := by
  induction characters using pairsToPoints.induct with
  | case1 rest inductionHypothesis =>
      rw [pairsToPoints] at member
      rcases List.mem_cons.mp member with point | later
      · exact Or.inl point
      · exact (inductionHypothesis later).imp_right fun inside => by simp [inside]
  | case2 first rest notPair inductionHypothesis =>
      rw [pairsToPoints] at member
      · rcases List.mem_cons.mp member with rfl | later
        · exact Or.inr List.mem_cons_self
        · exact (inductionHypothesis later).imp_right (List.mem_cons_of_mem _)
      · exact notPair
  | case3 => contradiction

/-- The path that small letters give. -/
def pathOf? (letters : List Char) : Option (List String) :=
  if String.ofList (letters.take beginning.length) == beginning then
    let parts := splitAtPoints (pairsToPoints (letters.drop beginning.length))
    if parts.any List.isEmpty then none else some (parts.map String.ofList)
  else none

/-- The path that a name gives does not depend on its letter case. -/
theorem path?_eq {name : String} {letters : List Char} (small : name.toList.map Char.toLower = letters)
    (visible : Text.IsVisible name) : path? name = pathOf? letters := by
  have point : 0x21 ≤ '.'.toNat ∧ '.'.toNat ≤ 0x7E := by decide
  have rest : Text.IsVisible (String.ofList (pairsToPoints (name.toList.drop beginning.length))) := by
    rw [Text.isVisible_ofList]
    intro character member
    rcases mem_pairsToPoints member with rfl | inside
    · exact point
    · exact visible character (List.mem_of_mem_drop inside)
  subst small
  rw [path?, pathOf?, visible.trim_eq]
  simp only [rest.trim_eq, Text.lowercase, String.toList_ofList, ← List.map_take, ← List.map_drop,
    pairsToPoints_map_toLower, splitAtPoints_map_toLower]
  simp [List.any_map, Function.comp_def]

end Environment

namespace Settings

namespace Leaf

def all : List Leaf := Section.all.flatMap Section.leaves

theorem mem_all (leaf : Leaf) : leaf ∈ all := List.mem_flatMap.mpr ⟨_, leaf.part.mem_all, leaf.mem_leaves⟩

/-- The variable of a leaf, in small letters. -/
def variableName (leaf : Leaf) : String := Environment.beginning ++ leaf.part.name ++ "__" ++ leaf.name

/-- A name is that of the variable of the leaf, in any letter case. -/
def IsNamed (leaf : Leaf) (name : String) : Prop := Text.SpellsLetters leaf.variableName.toList name.toList

instance (leaf : Leaf) (name : String) : Decidable (leaf.IsNamed name) :=
  inferInstanceAs (Decidable (Text.SpellsLetters _ _))

theorem arePlain_variableName (leaf : Leaf) : Text.ArePlain leaf.variableName.toList := by
  cases leaf <;> decide

theorem path?_of_isNamed {leaf : Leaf} {name : String} (named : leaf.IsNamed name) :
    Environment.path? name = some [leaf.part.name, leaf.name] := by
  obtain ⟨small, visible⟩ := Text.SpellsLetters.map_toLower named leaf.arePlain_variableName
  rw [Environment.path?_eq small visible]
  cases leaf <;> decide

/-- A name means one leaf at most. -/
theorem eq_of_isNamed {leaf other : Leaf} {name : String} (named : leaf.IsNamed name) (namedToo : other.IsNamed name) :
    leaf = other := by
  have path := (path?_of_isNamed named).symm.trans (path?_of_isNamed namedToo)
  simp only [Option.some.injEq, List.cons.injEq, and_true] at path
  exact name_injective path.2

end Leaf

/-- The variables are those of distinct leaves. -/
structure NamesLeaves (environment : List (String × String)) : Prop where
  known : ∀ named ∈ environment, ∃ leaf : Leaf, leaf.IsNamed named.1
  distinct : environment.Pairwise fun one other => ∀ leaf : Leaf, leaf.IsNamed one.1 → ¬leaf.IsNamed other.1

/-- The text of the variable of a leaf. -/
def textFor? (environment : List (String × String)) (leaf : Leaf) : Option String :=
  (environment.find? fun named => leaf.IsNamed named.1).map Prod.snd

/-- The leaf that a name means. -/
def Leaf.ofName? (name : String) : Option Leaf := Leaf.all.find? fun leaf => leaf.IsNamed name

theorem Leaf.ofName?_eq_some_iff {name : String} {leaf : Leaf} : Leaf.ofName? name = some leaf ↔ leaf.IsNamed name := by
  constructor
  · intro found
    simpa using List.find?_some found
  · intro named
    cases found : Leaf.ofName? name with
    | none =>
        have unknown := List.find?_eq_none.mp found leaf leaf.mem_all
        exact absurd (decide_eq_true named) unknown
    | some other => exact congrArg some (Leaf.eq_of_isNamed (by simpa using List.find?_some found) named)

/-- What one variable sets. -/
def assigned? (named : String × String) : Option (Leaf × Json) :=
  (Leaf.ofName? named.1).map fun leaf => (leaf, (Environment.value named.2).sorted)

theorem assigned?_eq_some_iff {named : String × String} {entry : Leaf × Json} :
    assigned? named = some entry ↔ entry.1.IsNamed named.1 ∧ entry.2 = (Environment.value named.2).sorted := by
  obtain ⟨leaf, value⟩ := entry
  rw [assigned?, Option.map_eq_some_iff]
  constructor
  · rintro ⟨other, found, same⟩
    cases same
    exact ⟨Leaf.ofName?_eq_some_iff.mp found, rfl⟩
  · rintro ⟨named, rfl⟩
    exact ⟨leaf, Leaf.ofName?_eq_some_iff.mpr named, rfl⟩

theorem layer?_eq {named : String × String} {entry : Leaf × Json} (sets : assigned? named = some entry) :
    Environment.layer? named = some (single entry.1 entry.2) := by
  obtain ⟨isNamed, same⟩ := assigned?_eq_some_iff.mp sets
  rw [Environment.layer?, Leaf.path?_of_isNamed isNamed, same, single]
  rfl

/-- What the variables set, in the order of their names. -/
def entries (environment : List (String × String)) : List (Leaf × Json) :=
  (Json.sortMembers environment).filterMap assigned?

namespace NamesLeaves

variable {environment : List (String × String)}

theorem exists_entry (names : NamesLeaves environment) {named : String × String} (member : named ∈ environment) :
    ∃ entry, assigned? named = some entry := by
  obtain ⟨leaf, isNamed⟩ := names.known named member
  exact ⟨(leaf, _), assigned?_eq_some_iff.mpr ⟨isNamed, rfl⟩⟩

/-- No variable is there twice. -/
theorem nodup_names (names : NamesLeaves environment) : (environment.map Prod.fst).Nodup := by
  refine List.pairwise_map.mpr (names.distinct.imp_of_mem ?_)
  intro one other member _ apart same
  obtain ⟨leaf, isNamed⟩ := names.known one member
  exact apart leaf isNamed (same ▸ isNamed)

theorem perm_sortMembers (names : NamesLeaves environment) : (Json.sortMembers environment).Perm environment := by
  have once := names.nodup_names
  have onceSorted := (Json.isAscending_sortMembers environment).nodup_names
  refine (List.perm_ext_iff_of_nodup onceSorted.of_map once.of_map).mpr fun member => ?_
  have onceBackward : (environment.reverse.map Prod.fst).Nodup := by
    rw [List.map_reverse]
    exact List.nodup_reverse.mpr once
  rw [show member = (member.1, member.2) from rfl, Json.mem_sortMembers, Json.lookup_eq_some_iff onceBackward,
    List.mem_reverse]

theorem variableLayer_eq (names : NamesLeaves environment) :
    variableLayer environment = layerOf (entries environment) := by
  have layers : (Json.sortMembers environment).filterMap Environment.layer? =
      (entries environment).map fun entry => single entry.1 entry.2 := by
    rw [entries, List.map_filterMap]
    refine List.filterMap_congr fun named member => ?_
    obtain ⟨entry, sets⟩ := names.exists_entry (names.perm_sortMembers.mem_iff.mp member)
    rw [layer?_eq sets, sets, Option.map_some]
  rw [variableLayer, layers, List.foldl_map, layerOf]

theorem mem_entries (names : NamesLeaves environment) {leaf : Leaf} {value : Json} :
    (leaf, value) ∈ entries environment ↔ ∃ named ∈ environment, leaf.IsNamed named.1 ∧
      value = (Environment.value named.2).sorted := by
  rw [entries, List.mem_filterMap]
  exact exists_congr fun named => and_congr names.perm_sortMembers.mem_iff assigned?_eq_some_iff

/-- No leaf is set twice. -/
theorem nodup_entries (names : NamesLeaves environment) : ((entries environment).map Prod.fst).Nodup := by
  have perm : (entries environment).Perm (environment.filterMap assigned?) := names.perm_sortMembers.filterMap assigned?
  refine (perm.map Prod.fst).nodup_iff.mpr (List.pairwise_map.mpr (List.pairwise_filterMap.mpr ?_))
  refine names.distinct.imp fun apart one sets other setsToo same => ?_
  have isNamed := (assigned?_eq_some_iff.mp sets).1
  have isNamedToo := (assigned?_eq_some_iff.mp setsToo).1
  exact apart one.1 isNamed (same ▸ isNamedToo)

theorem eq_of_isNamed (names : NamesLeaves environment) {leaf : Leaf} {one other : String × String}
    (member : one ∈ environment) (memberToo : other ∈ environment) (isNamed : leaf.IsNamed one.1)
    (isNamedToo : leaf.IsNamed other.1) : one = other := by
  have symmetric : Std.Symm fun one other : String × String =>
      ∀ leaf : Leaf, leaf.IsNamed one.1 → ¬leaf.IsNamed other.1 :=
    ⟨fun _ _ apart leaf isNamed isNamedToo => apart leaf isNamedToo isNamed⟩
  by_contra different
  exact names.distinct.forall member memberToo different leaf isNamed isNamedToo

theorem textFor?_eq_some_iff (names : NamesLeaves environment) {leaf : Leaf} {text : String} :
    textFor? environment leaf = some text ↔ ∃ named ∈ environment, leaf.IsNamed named.1 ∧ named.2 = text := by
  rw [textFor?, Option.map_eq_some_iff]
  constructor
  · rintro ⟨named, found, same⟩
    exact ⟨named, List.mem_of_find?_eq_some found, by simpa using List.find?_some found, same⟩
  · rintro ⟨named, member, isNamed, same⟩
    cases found : environment.find? fun named => leaf.IsNamed named.1 with
    | none => exact absurd (decide_eq_true isNamed) (List.find?_eq_none.mp found named member)
    | some other =>
        have isNamedToo : leaf.IsNamed other.1 := by simpa using List.find?_some found
        exact ⟨other, rfl, names.eq_of_isNamed member (List.mem_of_find?_eq_some found) isNamed isNamedToo ▸ same⟩

/-- What is set for a leaf is the value of its variable. -/
theorem lookup_entries (names : NamesLeaves environment) (leaf : Leaf) :
    (entries environment).lookup leaf =
      (textFor? environment leaf).map fun text => (Environment.value text).sorted := by
  apply Option.ext
  intro value
  rw [Json.lookup_eq_some_iff names.nodup_entries, names.mem_entries, Option.map_eq_some_iff]
  constructor
  · rintro ⟨named, member, isNamed, rfl⟩
    exact ⟨named.2, names.textFor?_eq_some_iff.mpr ⟨named, member, isNamed, rfl⟩, rfl⟩
  · rintro ⟨text, found, rfl⟩
    obtain ⟨named, member, isNamed, rfl⟩ := names.textFor?_eq_some_iff.mp found
    exact ⟨named, member, isNamed, rfl⟩

theorem isTouched_entries (names : NamesLeaves environment) (part : Section) :
    IsTouched (entries environment) part ↔ ∃ leaf : Leaf, leaf.part = part ∧ (textFor? environment leaf).isSome := by
  constructor
  · rintro ⟨⟨leaf, value⟩, inside, same⟩
    obtain ⟨named, member, isNamed, _⟩ := names.mem_entries.mp inside
    exact ⟨leaf, same, Option.isSome_iff_exists.mpr ⟨_, names.textFor?_eq_some_iff.mpr ⟨named, member, isNamed, rfl⟩⟩⟩
  · rintro ⟨leaf, same, found⟩
    obtain ⟨text, found⟩ := Option.isSome_iff_exists.mp found
    obtain ⟨named, member, isNamed, _⟩ := names.textFor?_eq_some_iff.mp found
    exact ⟨(leaf, _), names.mem_entries.mpr ⟨named, member, isNamed, rfl⟩, same⟩

end NamesLeaves

end Settings

end DelayGenerator
