/-
This file shows that a commit fails when all attempts of a directive are over before the first answer can
come in.
-/

import DelayGenerator.Proofs.Bench.Inevitable
import DelayGenerator.Proofs.Operation.Acknowledge
import DelayGenerator.Proofs.Pulse.Directive

namespace DelayGenerator.Operation

open Bench

variable {σ : Type} {answers : σ → String → List String} {pace : Pace} {bound clock : Nat}
  {deliveries : List Delivery} {framer : Framer} {bench : Bench σ}

theorem due_of_mem_coming {answer : List String} {delivery : Delivery}
    (member : delivery ∈ coming pace clock answer) : delivery.due = clock + pace.latency := by
  unfold coming at member
  split at member
  · contradiction
  · rw [List.mem_singleton.mp member]

/-- Attempts that are over before an answer can come in fail. -/
theorem attempt_fails (positive : 0 < bound) (command expected : String) (attempts : Nat)
    (slow : attempts * bound < pace.latency)
    (free : bench.IsFree answers pace bound clock deliveries framer)
    (late : ∀ delivery ∈ deliveries, clock + attempts * bound < delivery.due) {β : Type}
    (follow : Bool → Routine β) {last : Traffic β σ}
    (reached : (Traffic.alone (Caller.run 0 ((attempt command expected attempts).andThen follow)
      bench)).Reaches last) (finished : last.isFinished = true) :
    ∃ after : Bench σ, (Traffic.alone (Caller.run 0 (follow false) after)).Reaches last := by
  induction attempts generalizing bench clock deliveries with
  | zero => exact ⟨bench, reached⟩
  | succ attempts inductionHypothesis =>
      rw [Nat.succ_mul] at slow late
      have lateAll : ∀ delivery ∈
          deliveries ++ coming pace clock (answers bench.farEnd.state (Text.stripLineEnd command)),
          clock + (attempts * bound + bound) < delivery.due := by
        intro delivery member
        rcases List.mem_append.mp member with before | own
        · exact late delivery before
        · rw [due_of_mem_coming own]
          omega
      obtain ⟨middle, freeLater, runs⟩ := free.timesOut_of_reaches positive
        (fun delivery member => Nat.lt_of_le_of_lt (by omega) (lateAll delivery member)) reached finished
      refine inductionHypothesis (by omega) freeLater ?_ runs
      intro delivery member
      exact Nat.lt_of_le_of_lt (by omega) (lateAll delivery member)

/-- A directive of which all attempts are over before an answer can come in is not acknowledged. -/
theorem acknowledge_fails (positive : 0 < bound) (attempts : Nat) (directive : Directive)
    (slow : max attempts 1 * bound < pace.latency)
    (free : bench.IsFree answers pace bound clock [] framer) {β : Type} (follow : Bool → Routine β)
    {last : Traffic β σ}
    (reached : (Traffic.alone (Caller.run 0 ((acknowledge attempts directive).andThen follow)
      bench)).Reaches last) (finished : last.isFinished = true) :
    ∃ after : Bench σ, (Traffic.alone (Caller.run 0 (follow false) after)).Reaches last := by
  have looks : Caller.run 0 ((acknowledge attempts directive).andThen follow) bench =
      Caller.run 0 ((attempt directive.text acknowledgement (max attempts 1)).andThen follow) bench := by
    change Caller.run 0 (Routine.andThen (if bench.station.port.isOpen = true then
      attempt directive.text acknowledgement (max attempts 1) else .done false) follow) bench = _
    rw [if_pos free.isOpen]
  rw [looks] at reached
  exact attempt_fails positive _ _ _ slow free (by simp) follow reached finished

/-- A caller that is alone begins a commit at once. -/
theorem run_commit (attempts : Nat) (protocol : Protocol) (isOpen : bench.station.isOpen = true)
    (idle : bench.cycleLine = []) :
    Caller.run 0 (commit attempts protocol) bench =
      Caller.run 0 ((tryAll attempts (Directive.ofProtocol protocol)).andThen fun failed =>
        .release (.done ⟨false, (Directive.ofProtocol protocol).length, failed.map Directive.text⟩))
        bench.claimed := by
  simp only [commit_eq, Caller.run, isOpen, if_true, idle]
  rfl

/-- A commit of which all attempts are over before an answer can come in does not report success. -/
theorem not_isSuccess_of_reaches (positive : 0 < bound) (attempts : Nat) (protocol : Protocol)
    (slow : max attempts 1 * bound < pace.latency) (ready : bench.IsReady answers pace bound clock framer)
    {after : Bench σ} {time : Nat} {report : CommitReport}
    (reached : (Traffic.start bench [commit attempts protocol]).Reaches
      ⟨after, [.finished time report]⟩) : report.isSuccess = false := by
  obtain ⟨first, spoken, list, _⟩ := Directive.exists_ofProtocol_eq protocol
  obtain ⟨begun, ready, runs⟩ := reached.run_of_start (fun _ ready => ready.deliveries)
    (fun _ ready => { ready with steady := ready.steady.fire }) ready rfl
  have free : begun.claimed.IsFree answers pace bound clock [] framer := { ready with }
  rw [run_commit attempts protocol ready.station_isOpen ready.cycleLine, list] at runs
  -- The first directive is sent in vain, so it is among the failed ones.
  change (Traffic.alone (Caller.run 0 (((acknowledge attempts first).andThen _).andThen _) _)).Reaches _
    at runs
  rw [Routine.andThen_assoc] at runs
  obtain ⟨vain, runs⟩ := acknowledge_fails positive attempts first slow free _ runs rfl
  obtain ⟨transcript, leads⟩ := leads_of_reaches runs
  obtain ⟨failed, items, last, _, tries, reports⟩ := leads.of_andThen
  obtain ⟨later, tried, given, _, _, adds⟩ := tries.of_andThen
  cases adds
  cases reports with
  | released reports =>
      cases reports
      rfl

end DelayGenerator.Operation
