/-
This file looks at settings as ten leaves in five sections. Each leaf has a name, a place in its section and a reader of
its own, and what is read for one leaf has no influence on others.
-/

import DelayGenerator.Proofs.Json.Sorting
import DelayGenerator.Settings.Reader

namespace DelayGenerator.Settings

/-- A part of the settings. -/
inductive Section where
  | application
  | serial
  | commit
  | tick
  | shutdown
  deriving DecidableEq

/-- A single setting. -/
inductive Leaf where
  | logLevel
  | port
  | baudRate
  | writeTimeout
  | replyTimeout
  | maxLineBytes
  | replyQueueCapacity
  | attempts
  | tickPeriod
  | grace
  deriving DecidableEq

namespace Section

def all : List Section := [application, serial, commit, tick, shutdown]

theorem mem_all (part : Section) : part ∈ all := by
  cases part <;> decide

def name : Section → String
  | application => "application"
  | serial => "serial"
  | commit => "commit"
  | tick => "tick"
  | shutdown => "shutdown"

/-- The leaves of a section in their order. -/
def leaves : Section → List Leaf
  | application => [.logLevel]
  | serial => [.port, .baudRate, .writeTimeout, .replyTimeout, .maxLineBytes, .replyQueueCapacity]
  | commit => [.attempts]
  | tick => [.tickPeriod]
  | shutdown => [.grace]

theorem name_injective {part other : Section} (same : part.name = other.name) : part = other := by
  cases part <;> cases other <;> first | rfl | exact absurd same (by decide)

end Section

namespace Leaf

@[reducible] def Value : Leaf → Type
  | logLevel => String
  | port => String
  | _ => Nat

/-- The section in which the leaf lies. -/
def part : Leaf → Section
  | logLevel => .application
  | attempts => .commit
  | tickPeriod => .tick
  | grace => .shutdown
  | _ => .serial

def name : Leaf → String
  | logLevel => "log_level"
  | port => "port"
  | baudRate => "baud_rate"
  | writeTimeout => "write_timeout_ms"
  | replyTimeout => "reply_timeout_ms"
  | maxLineBytes => "max_line_bytes"
  | replyQueueCapacity => "reply_queue_capacity"
  | attempts => "attempts"
  | tickPeriod => "period_ms"
  | grace => "grace_ms"

theorem name_injective {leaf other : Leaf} (same : leaf.name = other.name) : leaf = other := by
  cases leaf <;> cases other <;> first | rfl | exact absurd same (by decide)

theorem mem_leaves (leaf : Leaf) : leaf ∈ leaf.part.leaves := by
  cases leaf <;> decide

theorem part_of_mem {leaf : Leaf} {part : Section} (member : leaf ∈ part.leaves) : leaf.part = part := by
  cases part <;> cases leaf <;> first | rfl | exact absurd member (by decide)

/-- What a value means for the leaf. -/
def read : (leaf : Leaf) → Json → Except LoadError leaf.Value
  | logLevel => readText
  | port => readText
  | baudRate => readNatural Text.halfWordLimit
  | writeTimeout => readNatural Text.wordLimit
  | replyTimeout => readNatural Text.wordLimit
  | maxLineBytes => readNatural Text.wordLimit
  | replyQueueCapacity => readNatural Text.wordLimit
  | attempts => readNatural Text.halfWordLimit
  | tickPeriod => readNatural Text.wordLimit
  | grace => readNatural Text.wordLimit

/-- Only what reads as a text or as a whole number can be read. -/
theorem read_sorted (leaf : Leaf) (value : Json) : leaf.read value.sorted = leaf.read value := by
  cases leaf <;> cases value <;> rfl

end Leaf

/-- What the settings have for a leaf. -/
def leaf (settings : Settings) : (leaf : Leaf) → leaf.Value
  | .logLevel => settings.logLevel
  | .port => settings.serial.port
  | .baudRate => settings.serial.baudRate
  | .writeTimeout => settings.serial.writeTimeout
  | .replyTimeout => settings.serial.replyTimeout
  | .maxLineBytes => settings.serial.maxLineBytes
  | .replyQueueCapacity => settings.serial.replyQueueCapacity
  | .attempts => settings.attempts
  | .tickPeriod => settings.tickPeriod
  | .grace => settings.grace

/-- The settings that have given values for the leaves. -/
def ofLeaves (values : (leaf : Leaf) → leaf.Value) : Settings where
  logLevel := values .logLevel
  serial :=
    { port := values .port
      baudRate := values .baudRate
      writeTimeout := values .writeTimeout
      replyTimeout := values .replyTimeout
      maxLineBytes := values .maxLineBytes
      replyQueueCapacity := values .replyQueueCapacity }
  attempts := values .attempts
  tickPeriod := values .tickPeriod
  grace := values .grace

theorem leaf_ofLeaves (values : (leaf : Leaf) → leaf.Value) (leaf : Leaf) :
    (ofLeaves values).leaf leaf = values leaf := by
  cases leaf <;> rfl

/-- Settings are nothing but their leaves. -/
theorem ofLeaves_leaf (settings : Settings) : ofLeaves settings.leaf = settings := rfl

theorem ext_leaf {settings other : Settings} (same : ∀ leaf, settings.leaf leaf = other.leaf leaf) :
    settings = other := by
  rw [← ofLeaves_leaf settings, ← ofLeaves_leaf other, funext same]

/-- The settings with another value for a leaf. -/
def assign (settings : Settings) (leaf : Leaf) (value : leaf.Value) : Settings :=
  ofLeaves (Function.update settings.leaf leaf value)

theorem leaf_assign (settings : Settings) (leaf : Leaf) (value : leaf.Value) :
    (settings.assign leaf value).leaf leaf = value := by
  rw [assign, leaf_ofLeaves, Function.update_self]

theorem leaf_assign_of_ne (settings : Settings) {leaf other : Leaf} (different : other ≠ leaf) (value : leaf.Value) :
    (settings.assign leaf value).leaf other = settings.leaf other := by
  rw [assign, leaf_ofLeaves, Function.update_of_ne different]

/-- The key of a leaf. -/
def Leaf.key (leaf : Leaf) : Key := .of leaf.name leaf.read fun value settings => settings.assign leaf value

/-- The keys of a section are those of its leaves. -/
def Section.keys (part : Section) : List Key := part.leaves.map Leaf.key

def Section.key (part : Section) : Key := ⟨part.name, readSection part.keys⟩

theorem sections_eq : sections = Section.all.map Section.key := by rfl

/-- What becomes of a leaf: it takes the value that is given, if there is one, and else stays as it is. -/
def Leaf.Takes (leaf : Leaf) (given? : Option Json) (before after : Settings) : Prop :=
  match given? with
  | some value => leaf.read value = .ok (after.leaf leaf)
  | none => after.leaf leaf = before.leaf leaf

/-- All leaves take what is given for them. -/
def Take (given? : Leaf → Option Json) (before after : Settings) : Prop :=
  ∀ leaf : Leaf, leaf.Takes (given? leaf) before after

theorem take_none_iff {before after : Settings} : Take (fun _ => none) before after ↔ before = after :=
  ⟨fun take => ext_leaf fun leaf => (take leaf).symm, fun same _ => by rw [same]; rfl⟩

section

variable {leaf : Leaf} {first second : Option Json} {before middle after : Settings}

theorem Leaf.Takes.or (apart : first = none ∨ second = none) (early : leaf.Takes first before middle)
    (late : leaf.Takes second middle after) : leaf.Takes (first.or second) before after := by
  rcases apart with rfl | rfl
  · cases second with
    | none => exact late.trans early
    | some value => exact late
  · cases first with
    | none => exact late.trans early
    | some value =>
        change leaf.read value = .ok (after.leaf leaf)
        rw [show after.leaf leaf = middle.leaf leaf from late]
        exact early

theorem Leaf.Takes.between (apart : first = none ∨ second = none) (both : leaf.Takes (first.or second) before after)
    (halfway : middle.leaf leaf = if first.isSome then after.leaf leaf else before.leaf leaf) :
    leaf.Takes first before middle ∧ leaf.Takes second middle after := by
  rcases apart with rfl | rfl
  · refine ⟨halfway, ?_⟩
    cases second with
    | none => exact both.trans halfway.symm
    | some value => exact both
  · cases first with
    | none => exact ⟨halfway, both.trans halfway.symm⟩
    | some value =>
        refine ⟨?_, halfway.symm⟩
        change leaf.read value = .ok (middle.leaf leaf)
        rw [halfway]
        exact both

end

/-- To take values for some leaves and then for others is to take them all. -/
theorem take_append_iff {first second : Leaf → Option Json} (apart : ∀ leaf, first leaf = none ∨ second leaf = none)
    {before after : Settings} :
    (∃ middle, Take first before middle ∧ Take second middle after) ↔
      Take (fun leaf => (first leaf).or (second leaf)) before after := by
  constructor
  · rintro ⟨middle, early, late⟩ leaf
    exact .or (apart leaf) (early leaf) (late leaf)
  · intro both
    have halves (leaf : Leaf) := (both leaf).between (apart leaf) <|
      leaf_ofLeaves (fun leaf => if (first leaf).isSome then after.leaf leaf else before.leaf leaf) leaf
    exact ⟨_, fun leaf => (halves leaf).1, fun leaf => (halves leaf).2⟩

section

variable {α : Type} {reading : Except LoadError Settings} {next : Settings → Except LoadError Settings}
  {name : String} {after : Settings}

theorem bind_within_eq_ok_iff :
    (within name reading >>= next) = .ok after ↔ ∃ middle, reading = .ok middle ∧ next middle = .ok after := by
  cases reading with
  | error fault => exact ⟨fun wrong => by contradiction, fun ⟨_, wrong, _⟩ => by contradiction⟩
  | ok middle => exact ⟨fun rest => ⟨middle, rfl, rest⟩, fun ⟨_, same, rest⟩ => by cases same; exact rest⟩

end

/-- Keys, each of which reads the leaves that it owns. -/
structure Family (ι : Type) [DecidableEq ι] where
  key : ι → Key
  owner : Leaf → ι
  accepts : Json → Prop
  /-- What a value gives to a leaf. -/
  gives? : Json → Leaf → Option Json
  name_injective : ∀ one other, (key one).name = (key other).name → one = other
  reads : ∀ one value before after, (key one).read value before = .ok after ↔
    accepts value ∧ Take (fun leaf => if owner leaf = one then gives? value leaf else none) before after

namespace Family

variable {ι : Type} [DecidableEq ι] (family : Family ι) {members : List (String × Json)} {before after : Settings}

/-- What members give to a leaf: the one that its owner reads gives it. -/
def fromMembers? (indices : List ι) (members : List (String × Json)) (leaf : Leaf) : Option Json :=
  if family.owner leaf ∈ indices then
    (members.lookup (family.key (family.owner leaf)).name).bind fun value => family.gives? value leaf
  else none

section

variable {name : String} {value : Json} {rest : List (String × Json)} {indices : List ι}

/-- A member that no owner reads has no influence. -/
theorem fromMembers?_unknown (unknown : ∀ one ∈ indices, (family.key one).name ≠ name) :
    family.fromMembers? indices ((name, value) :: rest) = family.fromMembers? indices rest := by
  funext leaf
  rw [fromMembers?, fromMembers?]
  split
  next known => rw [List.lookup_cons, beq_false_of_ne (unknown _ known)]
  next => rfl

/-- The first member gives what its reader takes from it, and the others give the rest. -/
theorem fromMembers?_known {one : ι} (known : one ∈ indices) (named : (family.key one).name = name)
    (absent : rest.lookup name = none) (leaf : Leaf) :
    let first := if family.owner leaf = one then family.gives? value leaf else none
    (first = none ∨ family.fromMembers? indices rest leaf = none) ∧
      family.fromMembers? indices ((name, value) :: rest) leaf =
        first.or (family.fromMembers? indices rest leaf) := by
  by_cases own : family.owner leaf = one
  · have later : family.fromMembers? indices rest leaf = none := by
      rw [fromMembers?, own, named, absent]
      simp
    refine ⟨Or.inr later, ?_⟩
    rw [later, fromMembers?, own, named]
    simp [known]
  · have differs : (family.key (family.owner leaf)).name ≠ name := fun same =>
      own (family.name_injective _ _ (same.trans named.symm))
    refine ⟨Or.inl (if_neg own), ?_⟩
    rw [if_neg own, Option.none_or, fromMembers?, fromMembers?, List.lookup_cons, beq_false_of_ne differs]

end

/-- All that is read can be read. -/
def AreAccepted (indices : List ι) (members : List (String × Json)) : Prop :=
  ∀ one ∈ indices, ∀ value, members.lookup (family.key one).name = some value → family.accepts value

theorem areAccepted_unknown {name : String} {value : Json} {rest : List (String × Json)} {indices : List ι}
    (unknown : ∀ one ∈ indices, (family.key one).name ≠ name) :
    family.AreAccepted indices ((name, value) :: rest) ↔ family.AreAccepted indices rest := by
  refine forall₂_congr fun one known => ?_
  rw [List.lookup_cons, beq_false_of_ne (unknown one known)]

theorem areAccepted_known {name : String} {value : Json} {rest : List (String × Json)} {indices : List ι} {one : ι}
    (known : one ∈ indices) (named : (family.key one).name = name) (absent : rest.lookup name = none) :
    family.AreAccepted indices ((name, value) :: rest) ↔ family.accepts value ∧ family.AreAccepted indices rest := by
  constructor
  · intro all
    refine ⟨all one known value (by simp [named]), fun other inside found later => all other inside found ?_⟩
    have differs : (family.key other).name ≠ name := fun same => by
      rw [same, absent] at later
      contradiction
    rw [List.lookup_cons, beq_false_of_ne differs]
    exact later
  · rintro ⟨first, others⟩ other inside found here
    rw [List.lookup_cons] at here
    split at here
    · rw [← Option.some.inj here]
      exact first
    · exact others other inside found here

theorem readMembers_eq_ok_iff (indices : List ι) (once : (members.map Prod.fst).Nodup) :
    readMembers (indices.map family.key) members before = .ok after ↔
      family.AreAccepted indices members ∧ Take (family.fromMembers? indices members) before after := by
  induction members generalizing before with
  | nil =>
      have nothing : family.fromMembers? indices [] = fun _ => none := by
        funext leaf
        simp [fromMembers?]
      rw [nothing, take_none_iff, readMembers]
      simp [AreAccepted]
  | cons first rest inductionHypothesis =>
      obtain ⟨name, value⟩ := first
      obtain ⟨absent, once⟩ := List.nodup_cons.mp once
      have absent : rest.lookup name = none := Json.lookup_of_not_mem absent
      rw [readMembers]
      cases found : (indices.map family.key).find? fun key => key.name == name with
      | none =>
          have unknown : ∀ one ∈ indices, (family.key one).name ≠ name := by simpa using found
          change readMembers _ rest before = _ ↔ _
          rw [inductionHypothesis once, family.fromMembers?_unknown unknown, family.areAccepted_unknown unknown]
      | some key =>
          obtain ⟨one, known, rfl⟩ := List.mem_map.mp (List.mem_of_find?_eq_some found)
          have named : (family.key one).name = name := by simpa using List.find?_some found
          have parts (leaf : Leaf) := @fromMembers?_known _ _ family name value rest indices one known named absent leaf
          change (within name ((family.key one).read value before) >>= _) = _ ↔ _
          rw [bind_within_eq_ok_iff, family.areAccepted_known known named absent, funext fun leaf => (parts leaf).2,
            ← take_append_iff fun leaf => (parts leaf).1]
          constructor
          · rintro ⟨middle, read, others⟩
            rw [family.reads] at read
            rw [inductionHypothesis once] at others
            exact ⟨⟨read.1, others.1⟩, middle, read.2, others.2⟩
          · rintro ⟨⟨first, others⟩, middle, takes, takesOthers⟩
            exact ⟨middle, (family.reads _ _ _ _).mpr ⟨first, takes⟩,
              (inductionHypothesis once).mpr ⟨others, takesOthers⟩⟩

end Family

theorem mem_leaves_iff {leaf : Leaf} {part : Section} : leaf ∈ part.leaves ↔ leaf.part = part :=
  ⟨Leaf.part_of_mem, fun same => same ▸ leaf.mem_leaves⟩

theorem Leaf.read_key (leaf : Leaf) (value : Json) (before after : Settings) :
    leaf.key.read value before = .ok after ↔
      Take (fun other => if other = leaf then some value else none) before after := by
  change (leaf.read value).map (fun found => before.assign leaf found) = .ok after ↔ _
  constructor
  · intro read other
    cases found : leaf.read value with
    | error fault =>
        rw [found] at read
        contradiction
    | ok own =>
        rw [found] at read
        cases read
        change other.Takes (if other = leaf then some value else none) before (before.assign leaf own)
        by_cases same : other = leaf
        · subst same
          rw [if_pos rfl]
          change other.read value = .ok ((before.assign other own).leaf other)
          rw [leaf_assign, found]
        · rw [if_neg same]
          exact before.leaf_assign_of_ne same own
  · intro take
    have own : leaf.Takes (if leaf = leaf then some value else none) before after := take leaf
    rw [if_pos rfl] at own
    rw [show leaf.read value = _ from own]
    refine congrArg Except.ok (ext_leaf fun other => ?_)
    by_cases same : other = leaf
    · subst same
      rw [leaf_assign]
    · have kept : other.Takes (if other = leaf then some value else none) before after := take other
      rw [if_neg same] at kept
      rw [leaf_assign_of_ne _ same]
      exact Eq.symm kept

/-- Each leaf has a key of its own. -/
def leafFamily : Family Leaf where
  key := Leaf.key
  owner := id
  accepts := fun _ => True
  gives? := fun value _ => some value
  name_injective := fun _ _ => Leaf.name_injective
  reads := fun leaf value before after => by
    rw [leaf.read_key, true_and]
    rfl

/-- The items of a list are given to the leaves of a section by their places. -/
theorem readItems_eq_ok_iff {leaves : List Leaf} (once : leaves.Nodup) (index : Nat) (items : List Json)
    (before after : Settings) :
    readItems (leaves.map Leaf.key) index items before = .ok after ↔
      Take (fun leaf => (leaves.zip items).lookup leaf) before after := by
  induction leaves generalizing index items before with
  | nil =>
      rw [List.map_nil, readItems, Except.ok.injEq]
      exact take_none_iff.symm
  | cons first others inductionHypothesis =>
      obtain ⟨absent, once⟩ := List.nodup_cons.mp once
      cases items with
      | nil =>
          rw [List.map_cons, readItems, Except.ok.injEq]
          exact take_none_iff.symm
      | cons value rest =>
          have later : (others.zip rest).lookup first = none := by
            rw [List.lookup_eq_none_iff]
            intro pair inside
            exact bne_iff_ne.mpr fun same => absent (same ▸ (List.of_mem_zip inside).1)
          have parts (leaf : Leaf) : ((first :: others).zip (value :: rest)).lookup leaf =
              (if leaf = first then some value else none).or ((others.zip rest).lookup leaf) := by
            rw [List.zip_cons_cons, List.lookup_cons]
            by_cases same : leaf = first
            · simp [same]
            · simp [same, beq_false_of_ne same]
          rw [funext parts, ← take_append_iff, List.map_cons, readItems, bind_within_eq_ok_iff]
          · exact exists_congr fun middle => and_congr (first.read_key value before middle)
              (inductionHypothesis once (index + 1) rest middle)
          · intro leaf
            by_cases same : leaf = first
            · exact Or.inr (same ▸ later)
            · exact Or.inl (if_neg same)

theorem lookup_zip (leaves : List Leaf) (items : List Json) (leaf : Leaf) :
    (leaves.zip items).lookup leaf = if leaf ∈ leaves then items[leaves.idxOf leaf]? else none := by
  induction leaves generalizing items with
  | nil => rfl
  | cons first others inductionHypothesis =>
      cases items with
      | nil => simp
      | cons value rest =>
          rw [List.zip_cons_cons, List.lookup_cons, inductionHypothesis]
          by_cases same : leaf = first
          · simp [same]
          · simp [same, beq_false_of_ne same, Ne.symm same]

/-- A section is a record or a list. -/
def IsSection (value : Json) : Prop := (∃ members, value = .record members) ∨ ∃ items, value = .list items

/-- What a section gives to a leaf: a record gives the last member of its name, and a list the item at its place. -/
def Leaf.within? (leaf : Leaf) : Json → Option Json
  | .record members => (Json.sortMembers members).lookup leaf.name
  | .list items => items[leaf.part.leaves.idxOf leaf]?
  | _ => none

theorem nodup_leaves (part : Section) : part.leaves.Nodup := by
  cases part <;> decide

theorem readSection_eq_ok_iff (part : Section) (value : Json) (before after : Settings) :
    readSection part.keys value before = .ok after ↔
      IsSection value ∧ Take (fun leaf => if leaf.part = part then leaf.within? value else none) before after := by
  unfold readSection
  split
  next members =>
    have once : ((Json.sortMembers members).map Prod.fst).Nodup := (Json.isAscending_sortMembers members).nodup_names
    have given : leafFamily.fromMembers? part.leaves (Json.sortMembers members) =
        fun leaf => if leaf.part = part then leaf.within? (.record members) else none := by
      funext leaf
      rw [Family.fromMembers?, ← Option.bind_fun_some (leaf.within? _)]
      exact if_congr mem_leaves_iff rfl rfl
    have read := @leafFamily.readMembers_eq_ok_iff _ _ (Json.sortMembers members) before after part.leaves once
    rw [given] at read
    refine read.trans (and_congr_left fun _ => ?_)
    exact ⟨fun _ => Or.inl ⟨members, rfl⟩, fun _ _ _ _ _ => trivial⟩
  next items =>
    have given : (fun leaf => (part.leaves.zip items).lookup leaf) =
        fun leaf => if leaf.part = part then leaf.within? (.list items) else none := by
      funext leaf
      rw [lookup_zip]
      by_cases same : leaf.part = part
      · subst same
        simp [leaf.mem_leaves, Leaf.within?]
      · rw [if_neg same, if_neg fun member => same (Leaf.part_of_mem member)]
    rw [Section.keys, readItems_eq_ok_iff (nodup_leaves part), given]
    exact ⟨fun take => ⟨Or.inr ⟨items, rfl⟩, take⟩, And.right⟩
  next notRecord notList =>
    constructor
    · intro wrong
      contradiction
    · rintro ⟨⟨members, rfl⟩ | ⟨items, rfl⟩, _⟩
      · exact absurd rfl (notRecord members)
      · exact absurd rfl (notList items)

/-- Each section has a key of its own. -/
def sectionFamily : Family Section where
  key := Section.key
  owner := Leaf.part
  accepts := IsSection
  gives? := fun value leaf => leaf.within? value
  name_injective := fun _ _ => Section.name_injective
  reads := readSection_eq_ok_iff

/-- What the value of all sources gives to a leaf. -/
def Leaf.at? (leaf : Leaf) (value : Json) : Option Json := (value.member? leaf.part.name).bind leaf.within?

/-- All sections that a value gives can be read. -/
def HasSections (value : Json) : Prop :=
  ∀ part : Section, ∀ inner, value.member? part.name = some inner → IsSection inner

/-- Settings are read from a record when all its sections can be read, and each leaf takes what is given for it. -/
theorem ofValue_eq_ok_iff {members : List (String × Json)} (ascending : Json.IsAscending members)
    (settings : Settings) :
    ofValue (.record members) = .ok settings ↔
      HasSections (.record members) ∧ Take (fun leaf => leaf.at? (.record members)) defaults settings := by
  have given : sectionFamily.fromMembers? Section.all members = fun leaf => leaf.at? (.record members) := by
    funext leaf
    exact if_pos (Section.mem_all _)
  have read := @sectionFamily.readMembers_eq_ok_iff _ _ members defaults settings Section.all ascending.nodup_names
  rw [given] at read
  rw [ofValue, readSection, Json.sortMembers_of_isAscending ascending, sections_eq]
  refine read.trans (and_congr_left fun _ => ?_)
  exact ⟨fun all part => all part part.mem_all, fun all part _ => all part⟩

end DelayGenerator.Settings
