/-
This file shows what it means that directives are acknowledged: an exchange of each of them has ended with
the acknowledgement.
-/

import DelayGenerator.Operation.Commit
import DelayGenerator.Proofs.Bench.Alone
import DelayGenerator.Proofs.Bench.Transcript

namespace DelayGenerator.Operation

variable {refusals : Prop} {transcript : List (String × Except Fault String)}

/-- A command has the expected reply only if one of its exchanges ends with it. -/
theorem leads_attempt {command expected : String} {attempts : Nat}
    (leads : (attempt command expected attempts).Leads refusals transcript (.done true)) :
    (Text.stripLineEnd command, .ok expected) ∈ transcript := by
  induction attempts generalizing transcript with
  | zero => cases leads
  | succ attempts inductionHypothesis =>
      cases leads with
      | refused possible later => cases later
      | asked outcome later =>
          cases outcome with
          | ok reply =>
              dsimp only at later
              split at later
              next same =>
                rw [beq_iff_eq.mp same]
                exact List.mem_cons_self
              next => exact List.mem_cons_of_mem _ (inductionHypothesis later)
          | error fault =>
              cases fault with
              | notConnected => cases later
              | _ => exact List.mem_cons_of_mem _ (inductionHypothesis later)

/-- With a single attempt, nothing else has been exchanged. -/
theorem leads_attempt_once {command expected : String}
    (leads : (attempt command expected 1).Leads refusals transcript (.done true)) :
    transcript = [(Text.stripLineEnd command, .ok expected)] := by
  cases leads with
  | refused possible later => cases later
  | asked outcome later =>
      cases outcome with
      | ok reply =>
          dsimp only at later
          split at later
          next same =>
            cases later
            rw [beq_iff_eq.mp same]
          next => cases later
      | error fault => cases fault <;> cases later

theorem leads_acknowledge {attempts : Nat} {directive : Directive}
    (leads : (acknowledge attempts directive).Leads refusals transcript (.done true)) :
    (attempt directive.text acknowledgement (max attempts 1)).Leads refusals transcript (.done true) := by
  cases leads with
  | look station later =>
      dsimp only at later
      split at later
      · exact later
      · cases later

/-- These exchanges, one after the other, have brought the directives their acknowledgements. -/
def IsAcknowledged (refusals : Prop) (attempts : Nat) (directives : List Directive)
    (transcript : List (String × Except Fault String)) : Prop :=
  ∃ tried : List (Directive × List (String × Except Fault String)),
    tried.map Prod.fst = directives ∧ tried.flatMap Prod.snd = transcript ∧
    ∀ one ∈ tried, (attempt one.1.text acknowledgement (max attempts 1)).Leads refusals one.2 (.done true)

/-- If no directive has failed, one after the other has been acknowledged. -/
theorem leads_tryAll {attempts : Nat} {directives : List Directive}
    (leads : (tryAll attempts directives).Leads refusals transcript (.done [])) :
    IsAcknowledged refusals attempts directives transcript := by
  induction directives generalizing transcript with
  | nil =>
      cases leads
      exact ⟨[], rfl, rfl, fun _ member => absurd member List.not_mem_nil⟩
  | cons first rest inductionHypothesis =>
      obtain ⟨accepted, items, others, rfl, before, after⟩ := Routine.Leads.of_andThen leads
      obtain ⟨failed, later, none, rfl, triedLater, given⟩ := Routine.Leads.of_andThen after
      cases accepted with
      | false => cases given
      | true =>
          cases given with
          | here =>
              obtain ⟨tried, same, all, each⟩ := inductionHypothesis triedLater
              refine ⟨(first, items) :: tried, ?_, ?_, ?_⟩
              · rw [List.map_cons, same]
              · rw [List.flatMap_cons, all, List.append_nil]
              · intro one member
                rcases List.mem_cons.mp member with rfl | further
                · exact leads_acknowledge before
                · exact each one further

/-- A commit looks for the connection, and then tries all directives in one cycle. -/
theorem commit_eq (attempts : Nat) (protocol : Protocol) :
    commit attempts protocol = .look fun station =>
      if station.isOpen = true then
        .claim ((tryAll attempts (Directive.ofProtocol protocol)).andThen fun failed =>
          .release (.done ⟨false, (Directive.ofProtocol protocol).length, failed.map Directive.text⟩))
      else .done .withoutConnection := by
  have sends : (sendProtocol attempts protocol).andThen (fun report => .release (.done report)) =
      (tryAll attempts (Directive.ofProtocol protocol)).andThen fun failed =>
        .release (.done ⟨false, (Directive.ofProtocol protocol).length, failed.map Directive.text⟩) :=
    Routine.andThen_assoc _ _ _
  rw [← sends]
  rfl

/-- A commit that reports success has sent every directive until it was acknowledged. -/
theorem leads_commit {attempts : Nat} {protocol : Protocol} {report : CommitReport}
    (leads : (commit attempts protocol).Leads refusals transcript (.done report))
    (success : report.isSuccess = true) :
    IsAcknowledged refusals attempts (Directive.ofProtocol protocol) transcript := by
  rw [commit_eq] at leads
  cases leads with
  | look station leads =>
      dsimp only at leads
      split at leads
      next =>
        cases leads with
        | claimed cycle =>
            obtain ⟨failed, tried, last, rfl, tries, releases⟩ := Routine.Leads.of_andThen cycle
            cases releases with
            | released reports =>
                cases reports
                have none : failed = [] := by
                  simpa [CommitReport.isSuccess] using success
                subst none
                rw [List.append_nil]
                exact leads_tryAll tries
      next =>
        cases leads
        contradiction

namespace IsAcknowledged

variable {attempts : Nat} {directives : List Directive}

/-- An exchange of each directive has ended with the acknowledgement. -/
theorem mem_transcript (acknowledged : IsAcknowledged refusals attempts directives transcript)
    {directive : Directive} (member : directive ∈ directives) :
    (Text.stripLineEnd directive.text, .ok acknowledgement) ∈ transcript := by
  obtain ⟨tried, rfl, rfl, each⟩ := acknowledged
  obtain ⟨one, inside, rfl⟩ := List.mem_map.mp member
  exact List.mem_flatMap.mpr ⟨one, inside, leads_attempt (each one inside)⟩

/-- With single attempts, no exchange has ended in another way. -/
theorem eq_of_mem (acknowledged : IsAcknowledged refusals attempts directives transcript)
    (once : attempts ≤ 1) {item : String × Except Fault String} (member : item ∈ transcript) :
    item.2 = .ok acknowledgement := by
  obtain ⟨tried, rfl, rfl, each⟩ := acknowledged
  obtain ⟨one, inside, item⟩ := List.mem_flatMap.mp member
  have leads := each one inside
  rw [Nat.max_eq_right once] at leads
  rw [leads_attempt_once leads] at item
  rw [List.mem_singleton.mp item]

end IsAcknowledged

section

variable {allowed : Act → Prop} {cycles : Prop}

theorem only_attempt (command expected : String) (attempts : Nat) :
    (attempt command expected attempts).Only allowed cycles := by
  induction attempts with
  | zero => trivial
  | succ attempts inductionHypothesis =>
      intro outcome
      cases outcome with
      | ok reply =>
          dsimp only
          split
          · trivial
          · exact inductionHypothesis
      | error fault =>
          cases fault with
          | notConnected => trivial
          | _ => exact inductionHypothesis

theorem only_acknowledge (attempts : Nat) (directive : Directive) :
    (acknowledge attempts directive).Only allowed cycles := by
  intro station
  dsimp only
  split
  · exact only_attempt _ _ _
  · trivial

theorem only_tryAll (attempts : Nat) (directives : List Directive) :
    (tryAll attempts directives).Only allowed cycles := by
  induction directives with
  | nil => trivial
  | cons directive rest inductionHypothesis =>
      refine (only_acknowledge attempts directive).andThen fun accepted => ?_
      refine inductionHypothesis.andThen fun failed => ?_
      trivial

/-- A commit only exchanges commands, within one cycle. -/
theorem only_commit (attempts : Nat) (protocol : Protocol) :
    (commit attempts protocol).Only allowed True := by
  rw [commit_eq]
  intro station
  dsimp only
  split
  · exact ⟨trivial, Routine.Only.andThen (only_tryAll _ _) fun failed => trivial⟩
  · trivial

end

end DelayGenerator.Operation
