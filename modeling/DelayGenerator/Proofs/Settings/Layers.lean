/-
This file shows how settings are put together from the defaults, a file and the environment, leaf by leaf, and that only
settings that keep the rules are handed out.
-/

import DelayGenerator.Proofs.Settings.Variable

namespace DelayGenerator.Settings

/-- What settings must keep. -/
structure KeepsRules (settings : Settings) : Prop where
  logLevel : settings.logLevel ∈ ["trace", "debug", "info", "warn", "error"]
  baudRate : settings.serial.baudRate ≠ 0
  writeTimeout : settings.serial.writeTimeout ≠ 0
  replyTimeout : settings.serial.replyTimeout ≠ 0
  maxLineBytes : settings.serial.maxLineBytes ≠ 0
  replyQueueCapacity : settings.serial.replyQueueCapacity ≠ 0
  tickPeriod : settings.tickPeriod ≠ 0

theorem check_eq_none_iff {isBroken : Prop} [Decidable isBroken] {problem : SettingsProblem}
    {others : Option SettingsProblem} :
    (if isBroken then some problem else others) = none ↔ ¬isBroken ∧ others = none := by
  by_cases broken : isBroken <;> simp [broken]

theorem problem?_eq_none_iff {settings : Settings} : settings.problem? = none ↔ settings.KeepsRules := by
  simp only [problem?, check_eq_none_iff, beq_iff_eq, Bool.or_eq_true, not_or, and_true]
  constructor
  · rintro ⟨logLevel, baudRate, ⟨writeTimeout, replyTimeout⟩, maxLineBytes, capacity, tickPeriod⟩
    have listed : settings.logLevel ∈ logLevels := by simpa using logLevel
    exact ⟨listed, baudRate, writeTimeout, replyTimeout, maxLineBytes, capacity, tickPeriod⟩
  · intro keeps
    have listed : settings.logLevel ∈ logLevels := keeps.logLevel
    exact ⟨by simpa using listed, keeps.baudRate, ⟨keeps.writeTimeout, keeps.replyTimeout⟩, keeps.maxLineBytes,
      keeps.replyQueueCapacity, keeps.tickPeriod⟩

/-- A variable sets a leaf of the section. -/
def IsSetIn (environment : List (String × String)) (part : Section) : Prop :=
  ∃ leaf ∈ part.leaves, (textFor? environment leaf).isSome = true

instance (environment : List (String × String)) (part : Section) : Decidable (IsSetIn environment part) :=
  inferInstanceAs (Decidable (∃ leaf ∈ part.leaves, _))

/-- What is given for a leaf: the value of its variable, or else what the file gives. -/
def given? (lowest : Json) (environment : List (String × String)) (leaf : Leaf) : Option Json :=
  match textFor? environment leaf with
  | some text => some (Environment.value text)
  | none => leaf.below? (IsSetIn environment leaf.part) (lowest.member? leaf.part.name)

/-- All sections of a file can be read that no variable takes the place of. -/
def AreReadable (lowest : Json) (environment : List (String × String)) : Prop :=
  ∀ part : Section, IsSetIn environment part ∨ ∀ inner, lowest.member? part.name = some inner → IsSection inner

theorem isTidy_fileLayer {file : Option String} {lowest : Json} (read : fileLayer file = .ok lowest) :
    ∃ members, lowest = .record members ∧ IsTidy members := by
  cases file with
  | none =>
      cases read
      exact ⟨[], rfl, isTidy_sorted []⟩
  | some text =>
      rw [fileLayer] at read
      cases parsed : Toml.parse? text with
      | none =>
          rw [parsed] at read
          contradiction
      | some value =>
          rw [parsed] at read
          cases read
          obtain ⟨members, _, same⟩ := Option.bind_eq_some_iff.mp parsed
          cases same
          exact ⟨_, rfl, isTidy_sorted _⟩

section

variable {file : Option String} {environment : List (String × String)} {lowest : Json}

theorem NamesLeaves.isTouched_iff (names : NamesLeaves environment) (part : Section) :
    IsTouched (entries environment) part ↔ IsSetIn environment part := by
  rw [names.isTouched_entries]
  exact exists_congr fun leaf => and_congr_left fun _ => mem_leaves_iff.symm

/-- Settings are read from a file and variables when all sections can be read, and each leaf takes what is given. -/
theorem read_eq_ok_iff (names : NamesLeaves environment) (readable : fileLayer file = .ok lowest)
    (settings : Settings) :
    read file environment = .ok settings ↔
      AreReadable lowest environment ∧ Take (given? lowest environment) defaults settings := by
  obtain ⟨lower, rfl, tidy⟩ := isTidy_fileLayer readable
  obtain ⟨members, layer, holds⟩ := holds_layerOf names.nodup_entries
  have ascending := isAscending_overlayMembers tidy.ascending members
  rw [read, readable, names.variableLayer_eq, layer]
  change ofValue (overlay (.record lower) (.record members)) = _ ↔ _
  rw [overlay_record, ofValue_eq_ok_iff ascending, hasSections_overlay holds]
  refine and_congr (forall_congr' fun part => or_congr_left (names.isTouched_iff part)) (forall_congr' fun leaf => ?_)
  rw [takes_overlay tidy holds, names.lookup_entries, given?]
  cases textFor? environment leaf with
  | some text =>
      change leaf.read _ = _ ↔ leaf.read _ = _
      rw [leaf.read_sorted]
  | none => rw [Option.map_none, Option.none_or, leaf.below?_congr (names.isTouched_iff leaf.part)]; rfl

end

/-- How settings are put together. When they are handed out, each leaf has the value of its variable, or else the one
that the file gives, or else its default, and the rules are kept. When what is given makes settings, these are handed
out if they keep the rules, and else refused. -/
structure Composes (file : Option String) (environment : List (String × String))
    (loaded : Except SettingsFault Settings) : Prop where
  handed : ∀ settings, loaded = .ok settings →
    ∃ lowest, fileLayer file = .ok lowest ∧ Take (given? lowest environment) defaults settings ∧ settings.KeepsRules
  merged : ∀ lowest settings, fileLayer file = .ok lowest → AreReadable lowest environment →
    Take (given? lowest environment) defaults settings →
      (settings.KeepsRules → loaded = .ok settings) ∧
        (¬settings.KeepsRules → ∃ problem, loaded = .error (.invalid problem))

theorem load_eq_ok_iff {file : Option String} {environment : List (String × String)} {settings : Settings} :
    load file environment = .ok settings ↔ read file environment = .ok settings ∧ settings.KeepsRules := by
  rw [load]
  cases reading : read file environment with
  | error fault => exact ⟨fun wrong => by contradiction, fun wrong => by simp at wrong⟩
  | ok found =>
      change (validate found).mapError SettingsFault.invalid = .ok settings ↔ _
      rw [validate]
      cases problem : found.problem? with
      | none =>
          have keeps := problem?_eq_none_iff.mp problem
          constructor
          · intro same
            cases same
            exact ⟨rfl, keeps⟩
          · rintro ⟨same, _⟩
            cases same
            rfl
      | some broken =>
          constructor
          · intro wrong
            contradiction
          · rintro ⟨same, keeps⟩
            cases same
            rw [problem?_eq_none_iff.mpr keeps] at problem
            contradiction

theorem load_of_broken {file : Option String} {environment : List (String × String)} {settings : Settings}
    (reading : read file environment = .ok settings) (broken : ¬settings.KeepsRules) :
    ∃ problem, load file environment = .error (.invalid problem) := by
  cases problem : settings.problem? with
  | none => exact absurd (problem?_eq_none_iff.mp problem) broken
  | some rule =>
      refine ⟨rule, ?_⟩
      rw [load, reading]
      change (validate settings).mapError SettingsFault.invalid = _
      rw [validate, problem]
      rfl

theorem load_composes (file : Option String) {environment : List (String × String)} (names : NamesLeaves environment) :
    Composes file environment (load file environment) where
  handed := by
    intro settings handed
    obtain ⟨reading, keeps⟩ := load_eq_ok_iff.mp handed
    cases readable : fileLayer file with
    | error fault =>
        rw [read, readable] at reading
        contradiction
    | ok lowest => exact ⟨lowest, rfl, ((read_eq_ok_iff names readable settings).mp reading).2, keeps⟩
  merged := by
    intro lowest settings readable areReadable take
    have reading := (read_eq_ok_iff names readable settings).mpr ⟨areReadable, take⟩
    exact ⟨fun keeps => load_eq_ok_iff.mpr ⟨reading, keeps⟩, load_of_broken reading⟩

/-- A file that gives a section partly and breaks a rule, and variables, in any letter case, that make it good. -/
def brokenFile : String := "[serial]\nport = \"/dev/ttyS3\"\nbaud_rate = 0\nparity = \"even\"\n[commit]\nattempts = 3\n"

def mendingVariables : List (String × String) := [("DGCTL_SERIAL__BAUD_RATE", "9600"), ("dgctl_Tick__Period_ms", "250")]

theorem namesLeaves_mendingVariables : NamesLeaves mendingVariables where
  known := by
    intro named member
    simp only [mendingVariables, List.mem_cons, List.not_mem_nil, or_false] at member
    rcases member with rfl | rfl
    · exact ⟨.baudRate, by decide⟩
    · exact ⟨.tickPeriod, by decide⟩
  distinct := by
    refine List.pairwise_pair.mpr fun leaf isNamed isNamedToo => ?_
    have baudRate : Leaf.IsNamed .baudRate "DGCTL_SERIAL__BAUD_RATE" := by decide
    have tickPeriod : Leaf.IsNamed .tickPeriod "dgctl_Tick__Period_ms" := by decide
    have same := (Leaf.eq_of_isNamed isNamed baudRate).symm.trans (Leaf.eq_of_isNamed isNamedToo tickPeriod)
    contradiction

theorem load_composes_mended :
    Composes (some brokenFile) mendingVariables (load (some brokenFile) mendingVariables) ∧
      load (some brokenFile) mendingVariables = .ok { defaults with
        serial := { SerialSettings.defaults with port := "/dev/ttyS3", baudRate := 9600 }
        attempts := 3
        tickPeriod := 250 } ∧
      load (some brokenFile) [] = .error (.invalid .baudRate) :=
  ⟨load_composes (some brokenFile) namesLeaves_mendingVariables, by decide +kernel, by decide +kernel⟩

/-- A file that gives a section as a list, and a variable that sets one leaf of this section. -/
def listFile : String := "serial = [\"/dev/ttyS3\", 9600]"

def portVariable : List (String × String) := [("DGCTL_SERIAL__PORT", "/dev/ttyACM0")]

theorem namesLeaves_portVariable : NamesLeaves portVariable where
  known := by
    intro named member
    rw [List.mem_singleton.mp member]
    exact ⟨.port, by decide⟩
  distinct := List.pairwise_singleton _ _

/-- The variable of one leaf takes another leaf back to its default, though the file gives it: lists are not joined. -/
theorem load_list_reset :
    NamesLeaves portVariable ∧ textFor? portVariable .baudRate = none ∧
      (load (some listFile) []).map (fun settings => settings.leaf .baudRate) = .ok 9600 ∧
      (load (some listFile) portVariable).map (fun settings => settings.leaf .baudRate) = .ok 115200 :=
  ⟨namesLeaves_portVariable, by decide +kernel, by decide +kernel, by decide +kernel⟩

end DelayGenerator.Settings
