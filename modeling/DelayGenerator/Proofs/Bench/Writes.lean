/-
This file counts the commands that a caller writes: one for each of its exchanges, unless the write has
failed.
-/

import DelayGenerator.Proofs.Bench.Freshness

namespace DelayGenerator

/-- Whether a fault keeps a command from being written. -/
def Fault.isOfWrite : Fault → Bool
  | .notConnected => true
  | .writeTimedOut _ => true
  | _ => false

/-- The command that a caller writes. -/
def Event.sent? (number : Nat) : Event → Option String
  | .wrote caller command _ => if caller = number then some command else none
  | _ => none

namespace Journal

/-- The commands that a caller has written, from the first to the latest. -/
def writes (number : Nat) (journal : List Entry) : List String := collect (Event.sent? number) journal

/-- The command that the exchange with an outcome has written. -/
def reached? : String × Except Fault String → Option String
  | (command, .ok _) => some command
  | (command, .error fault) => if fault.isOfWrite then none else some command

/-- The command that a caller has written in the exchange under way. -/
def pending (number : Nat) : Phase → List String
  | .written caller command _ _ _ => if caller = number then [command] else []
  | _ => []

/-- The outcomes that a journal holds, of those that a caller has been told. A command may have been refused,
and takes no exchange then. -/
inductive Records (refusals : Prop) :
    List (String × Except Fault String) → List (String × Except Fault String) → Prop where
  | none : Records refusals [] []
  | exchanged {told items : List (String × Except Fault String)}
      (item : String × Except Fault String) (others : Records refusals told items) :
      Records refusals (item :: told) (item :: items)
  | refused {told items : List (String × Except Fault String)} (possible : refusals) (command : String)
      (others : Records refusals told items) :
      Records refusals ((command, .error .notConnected) :: told) items

theorem Records.mono {refusals further : Prop} {told items : List (String × Except Fault String)}
    (records : Records refusals told items) (loosens : refusals → further) : Records further told items := by
  induction records with
  | none => exact .none
  | exchanged item others inductionHypothesis => exact .exchanged item inductionHypothesis
  | refused possible command others inductionHypothesis => exact .refused (loosens possible) command inductionHypothesis

theorem Records.sublist {refusals : Prop} {told items : List (String × Except Fault String)}
    (records : Records refusals told items) : items.Sublist told := by
  induction records with
  | none => exact .slnil
  | exchanged item others inductionHypothesis => exact inductionHypothesis.cons_cons item
  | refused possible command others inductionHypothesis => exact inductionHypothesis.cons _

/-- A refused command is not written. -/
theorem Records.filterMap_reached? {refusals : Prop}
    {told items : List (String × Except Fault String)} (records : Records refusals told items) :
    items.filterMap reached? = told.filterMap reached? := by
  induction records with
  | none => rfl
  | exchanged item others inductionHypothesis =>
      rw [List.filterMap_cons, List.filterMap_cons, inductionHypothesis]
  | refused possible command others inductionHypothesis => exact inductionHypothesis

/-- Without refusals a caller has been told what the journal holds. -/
theorem Records.eq {told items : List (String × Except Fault String)} (records : Records False told items) :
    told = items := by
  induction records with
  | none => rfl
  | exchanged item others inductionHypothesis => rw [inductionHypothesis]
  | refused possible => contradiction

variable {start : Link} {number caller mark sent time : Nat} {past journal : List Entry}
  {command : String} {answer : List String} {outcome : Except Fault QueuedLine}

/-- The end of an exchange settles what has been pending. -/
theorem writes_ended (earlier : writes number past =
      (outcomes number past).filterMap reached? ++ pending number (phase past))
    (settles : pending number (phase past) =
      if caller = number then (reached? (command, outcome.map QueuedLine.text)).toList else []) :
    writes number (⟨time, .ended caller command outcome⟩ :: past) =
      (outcomes number (⟨time, .ended caller command outcome⟩ :: past)).filterMap reached? := by
  have same : writes number (⟨time, .ended caller command outcome⟩ :: past) = writes number past :=
    collect_cons_none _ rfl
  rw [same, earlier, settles]
  split
  next own =>
    subst own
    have told : outcomes caller (⟨time, .ended caller command outcome⟩ :: past) =
        outcomes caller past ++ [(command, outcome.map QueuedLine.text)] :=
      collect_cons_some _ (Event.outcome?_own _ _ _)
    rw [told, List.filterMap_append]
    cases reached : reached? (command, outcome.map QueuedLine.text) <;> simp [reached]
  next other =>
    have told : outcomes number (⟨time, .ended caller command outcome⟩ :: past) =
        outcomes number past := collect_cons_none _ (Event.outcome?_other (Ne.symm other) _ _)
    rw [told, List.append_nil]

/-- What a caller has written are the commands of its exchanges whose write has not failed, and the one
that is pending. -/
theorem writes_eq (orderly : IsOrderly start journal) (inTurn : Every InTurn journal) (number : Nat) :
    writes number journal =
      (outcomes number journal).filterMap reached? ++ pending number (phase journal) := by
  induction journal with
  | nil => rfl
  | cons entry past inductionHypothesis =>
      obtain ⟨⟨admits, _⟩, orderlyPast⟩ := orderly
      have earlier := inductionHypothesis orderlyPast inTurn.2
      -- What takes no exchange to its end changes neither the outcomes nor, mostly, the writes.
      have goesOn {entry : Entry} (silent : entry.event.sent? number = none)
          (quiet : entry.event.outcome? number = none)
          (same : pending number (phase (entry :: past)) = pending number (phase past)) :
          writes number (entry :: past) =
            (outcomes number (entry :: past)).filterMap reached? ++
              pending number (phase (entry :: past)) := by
        rw [same, outcomes, collect_cons_none past quiet, writes, collect_cons_none past silent]
        exact earlier
      cases admits with
      | began time caller command idle =>
          apply goesOn rfl rfl
          rw [idle]
          rfl
      | @wrote caller mark command time answer begun =>
          have told : outcomes number (⟨time, .wrote caller command answer⟩ :: past) =
              outcomes number past := collect_cons_none _ rfl
          have written : phase (⟨time, .wrote caller command answer⟩ :: past) =
              .written caller command mark time answer := by
            rw [phase, begun]
            simp [Phase.after]
          have nothing : pending number (phase past) = [] := by rw [begun]; rfl
          rw [nothing, List.append_nil] at earlier
          rw [told, written, ← earlier, pending, writes, collect]
          simp only [Event.sent?]
          split <;> rfl
      | @passed caller time command answer foreign =>
          obtain ⟨mark, begun⟩ := inTurn.1 caller command answer rfl
          rw [begun] at foreign
          exact absurd rfl foreign
      | @failed caller mark command fault time begun kind =>
          refine (writes_ended earlier ?_).trans (List.append_nil _).symm
          rw [begun]
          rcases kind with rfl | rfl <;> simp [pending, reached?, Fault.isOfWrite, Except.map]
      | replied time written first =>
          refine (writes_ended earlier ?_).trans (List.append_nil _).symm
          rw [written]
          rfl
      | wokenInVain time written empty woken =>
          refine (writes_ended earlier ?_).trans (List.append_nil _).symm
          rw [written]
          rfl
      | timedOut time written empty asleep late =>
          refine (writes_ended earlier ?_).trans (List.append_nil _).symm
          rw [written]
          rfl
      | @aside entry aside =>
          obtain ⟨time, event⟩ := entry
          cases event <;> first | contradiction | exact goesOn rfl rfl rfl

end Journal

/-- Unless somebody transmits bytes of their own, a caller that has finished has written the commands of its
exchanges whose write has not failed. -/
theorem Traffic.Reaches.writes_eq_told {α σ : Type} {first : Bench σ} (fresh : first.IsFresh)
    {routines : List (Routine α)} (only : ∀ routine ∈ routines, routine.Only (fun _ => True) True)
    {last : Traffic α σ} (reached : (Traffic.start first routines).Reaches last) {number time : Nat} {value : α}
    (finished : last.callers[number]? = some (.finished time value)) :
    Journal.writes number last.journal =
      (Journal.outcomes number last.journal).filterMap Journal.reached? := by
  have regular := reached.regular fresh
  have nothing : Journal.pending number (Journal.phase last.journal) = [] := by
    have stands := regular.stands number _ finished
    cases phase : Journal.phase last.journal with
    | written caller command mark sent answer =>
        rw [phase] at stands
        exact if_neg fun same => stands (congrArg some same)
    | _ => rfl
  refine (Journal.writes_eq regular.recorded.orderly (reached.inTurn fresh only) number).trans ?_
  change _ ++ Journal.pending number (Journal.phase last.journal) = _
  rw [nothing, List.append_nil]
  rfl

end DelayGenerator
