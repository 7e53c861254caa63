/-
This file follows a caller that asks for all settings: what it caches in the end, and what it has cached
that for.
-/

import DelayGenerator.Proofs.Bench.Ending
import DelayGenerator.Proofs.Bench.Writes
import DelayGenerator.Proofs.Pulse.Setting

namespace DelayGenerator

/-- What a caller has been told for settings, one after another. -/
def Setting.told (outcomes : Setting → Except Fault String) (settings : List Setting) :
    List (String × Except Fault String) :=
  settings.map fun setting => (setting.query.text, outcomes setting)

/-- The outcome for one more setting joins those for others. -/
theorem Setting.exists_told_cons {first : Setting} {others : List Setting} (absent : first ∉ others)
    (outcome : Except Fault String) (outcomes : Setting → Except Fault String) :
    ∃ all : Setting → Except Fault String,
      told all (first :: others) =
        (first.query.text, outcome) :: told outcomes others ∧
      ∀ snapshot : Snapshot, snapshot.noteEach all (first :: others) =
        (snapshot.note first.query outcome).noteEach outcomes others := by
  have same (setting : Setting) (member : setting ∈ others) :
      (if setting = first then outcome else outcomes setting) = outcomes setting := by
    apply if_neg
    rintro rfl
    exact absent member
  refine ⟨fun setting => if setting = first then outcome else outcomes setting, ?_, fun snapshot => ?_⟩
  · rw [told, List.map_cons, if_pos rfl]
    congr 1
    exact List.map_congr_left fun setting member => by rw [same setting member]
  · have later := Snapshot.noteEach_congr same (snapshot.note first.query outcome)
    rw [← later]
    simp [Snapshot.noteEach]

/-- Nothing by which a caller begins or ends a cycle, or stores a snapshot. -/
def Event.IsCourse (number : Nat) (event : Event) : Prop :=
  event.caller? = some number → event.isTurn = false ∧ event.stored? = none

theorem Event.isCourse_of_foreign {number : Nat} {event : Event} (foreign : event.caller? ≠ some number) :
    event.IsCourse number :=
  fun own => absurd own foreign

theorem Event.isCourse_of_exchange {number : Nat} {event : Event}
    (exchange : event.caller? = some number → event.isAside = false) : event.IsCourse number := by
  intro own
  have exchange := exchange own
  cases event <;> first | exact ⟨rfl, rfl⟩ | contradiction

/-- Some journal between two others has a property. -/
def Journal.Between (property : List Entry → Prop) (journal last : List Entry) : Prop :=
  ∃ middle, journal <:+ middle ∧ middle <:+ last ∧ property middle

namespace Journal.Between

variable {property : List Entry → Prop} {first journal last final : List Entry}

theorem widen (between : Between property journal last) (early : first <:+ journal) (late : last <:+ final) :
    Between property first final := by
  obtain ⟨middle, after, before, holds⟩ := between
  exact ⟨middle, early.trans after, before.trans late, holds⟩

end Journal.Between

namespace Routine

variable {α : Type} {sees : List Entry → Station → Prop} {refusals : List Entry → Prop} {number : Nat}
  {journal last : List Entry}

/-- A caller that asks for settings is still at one of them, or has asked for them all and has noted the
outcomes. It does nothing else meanwhile. Commands are refused only while it does so. -/
theorem traces_askAll {settings : List Setting} (once : settings.Nodup) {snapshot : Snapshot}
    {rest : Routine Snapshot}
    (traces : Traces sees refusals number journal
      (Operation.askAll (settings.map Setting.query) snapshot) last rest) :
    Journal.Grows (Event.IsCourse number) journal last ∧
    ((∃ command next, rest = .ask command next) ∨
      ∃ outcomes items, rest = .done (snapshot.noteEach outcomes settings) ∧
        Journal.outcomes number last = Journal.outcomes number journal ++ items ∧
        Journal.Records (Journal.Between refusals journal last) (Setting.told outcomes settings) items) := by
  induction settings generalizing journal snapshot with
  | nil =>
      obtain ⟨rfl, foreign⟩ := traces.of_done
      refine ⟨foreign.mono fun _ => Event.isCourse_of_foreign, Or.inr ?_⟩
      refine ⟨fun _ => .error .notConnected, [], rfl, ?_, .none⟩
      rw [List.append_nil]
      exact Journal.outcomes_of_foreign foreign
  | cons first others inductionHypothesis =>
      obtain ⟨absent, once⟩ := List.nodup_cons.mp once
      rcases traces.of_ask with ⟨rfl, grows, told⟩ | ⟨middle, outcome, grows, after, told⟩
      · exact ⟨grows.mono fun _ => Event.isCourse_of_exchange, Or.inl ⟨_, _, rfl⟩⟩
      · have grows := grows.mono fun _ => Event.isCourse_of_exchange
        obtain ⟨later, way⟩ := inductionHypothesis once after
        refine ⟨grows.trans later, ?_⟩
        rcases way with stays | ⟨outcomes, items, rfl, toldLater, records⟩
        · exact Or.inl stays
        · obtain ⟨all, toldAll, noted⟩ := Setting.exists_told_cons absent outcome outcomes
          have records := records.mono fun between => between.widen grows.suffix List.suffix_rfl
          right
          rw [← noted]
          rcases told with ⟨possible, rfl, told⟩ | told
          · refine ⟨all, items, rfl, by rw [toldLater, told], ?_⟩
            rw [toldAll]
            exact .refused ⟨_, grows.suffix, later.suffix, possible⟩ _ records
          · rw [Setting.stripLineEnd_text_query] at told
            refine ⟨all, (first.query.text, outcome) :: items, rfl, ?_, ?_⟩
            · rw [toldLater, told, List.append_assoc, List.singleton_append]
            · rw [toldAll]
              exact .exchanged _ records

theorem refresh_andThen (follow : Snapshot → Routine α) :
    Operation.refresh.andThen follow =
      .look fun station => (Operation.askAll Query.all station.cache).andThen fun snapshot =>
        .act (.store snapshot) (follow snapshot) := by
  exact congrArg Routine.look (funext fun station => andThen_assoc _ _ _)

/-- A caller that asks for all settings has not come to the end yet, or it has stored what has come of the
snapshot that it found in the cache. -/
theorem traces_refresh {start : Snapshot}
    (finds : ∀ journal station, sees journal station → station.cache = Journal.cached start journal)
    {follow : Snapshot → Routine α} {rest : Routine α}
    (traces : Traces sees refusals number journal (Operation.refresh.andThen follow) last rest) :
    (Journal.Grows (Event.IsCourse number) journal last ∧ ∀ value, rest ≠ .done value) ∨
    ∃ read stored time outcomes items,
      Journal.Grows (Event.IsCourse number) journal read ∧
      Journal.Grows (Event.IsCourse number) read stored ∧
      Journal.outcomes number stored = Journal.outcomes number journal ++ items ∧
      Journal.Records (Journal.Between refusals read stored) (Setting.told outcomes Setting.all) items ∧
      Traces sees refusals number
        (⟨time, .did number
          (.store ((Journal.cached start read).noteEach outcomes Setting.all))⟩ :: stored)
        (follow ((Journal.cached start read).noteEach outcomes Setting.all)) last rest := by
  rw [refresh_andThen] at traces
  obtain ⟨read, foreign, ⟨rfl, rfl⟩ | ⟨later, between, goes, traces⟩⟩ := traces.split
  · exact Or.inl ⟨foreign.mono fun _ => Event.isCourse_of_foreign, by simp⟩
  · have found := foreign.mono fun _ => Event.isCourse_of_foreign
    have silent := Journal.outcomes_of_foreign foreign
    cases goes with
    | look station seen =>
        dsimp only at traces
        rw [finds _ _ seen, ← Setting.map_query_all] at traces
        rcases traces.of_andThen with ⟨part, rfl, asking⟩ | ⟨asked, snapshot, asking, after⟩
        · obtain ⟨grows, ⟨command, next, rfl⟩ | ⟨outcomes, items, rfl, told, records⟩⟩ :=
            traces_askAll Setting.nodup_all asking
          · exact Or.inl ⟨found.trans grows, by simp [andThen]⟩
          · exact Or.inl ⟨found.trans grows, by simp [andThen]⟩
        · obtain ⟨grows, ⟨command, next, same⟩ | ⟨outcomes, items, same, told, records⟩⟩ :=
            traces_askAll Setting.nodup_all asking
          · contradiction
          · cases same
            obtain ⟨stored, foreign, ⟨rfl, rfl⟩ | ⟨later, between, goes, traces⟩⟩ := after.split
            · have quiet := foreign.mono fun _ => Event.isCourse_of_foreign
              exact Or.inl ⟨found.trans (grows.trans quiet), by simp⟩
            · have quiet := foreign.mono fun _ => Event.isCourse_of_foreign
              have silentToo := Journal.outcomes_of_foreign foreign
              cases goes with
              | act time =>
                  refine Or.inr ⟨read, stored, time, outcomes, items, found, grows.trans quiet, ?_,
                    records.mono fun between => between.widen List.suffix_rfl quiet.suffix, traces⟩
                  exact silentToo.trans (told.trans (by rw [silent]))

end Routine

end DelayGenerator
