/-
This file shows that whatever the instrument sends, the cached snapshot is valid, and so is everything
that is shown of it.
-/

import DelayGenerator.Operation.Answer
import DelayGenerator.Proofs.Bench.Schedule
import DelayGenerator.Proofs.Bench.Validity
import DelayGenerator.Proofs.Document.Clean
import DelayGenerator.Proofs.Operation.Call

namespace DelayGenerator

namespace Operation

open Document (IsShown)

variable {limit : Nat}

/-- Asking for settings keeps a snapshot valid. -/
theorem keepsValid_askAll (settings : List Setting) {snapshot : Snapshot} (valid : snapshot.IsValid limit) :
    (askAll (settings.map Setting.query) snapshot).KeepsValid limit (Snapshot.IsValid limit) := by
  induction settings generalizing snapshot with
  | nil => exact valid
  | cons setting others inductionHypothesis =>
      exact fun outcome plain => inductionHypothesis (valid.note setting plain)

theorem keepsValid_refresh : refresh.KeepsValid limit (Snapshot.IsValid limit) := by
  rw [← Routine.andThen_done refresh, Routine.refresh_andThen, ← Setting.map_query_all]
  exact fun station valid => (keepsValid_askAll Setting.all valid).andThen fun snapshot given =>
    ⟨fun other same => Act.store.inj same ▸ given, given⟩

/-- What comes of connecting is the identity of a valid snapshot, or a fault. -/
theorem keepsValid_connect (port : String) (baudRate : Nat) :
    (connect port baudRate).KeepsValid limit fun found =>
      ∀ identity, found = .ok identity → identity.IsValid limit := by
  rw [← Routine.andThen_done (connect port baudRate), connect_andThen]
  refine ⟨by simp, fun station valid => ?_⟩
  dsimp only
  split
  · exact ⟨by simp, by simp [Routine.KeepsValid]⟩
  · refine ⟨by simp, by simp, keepsValid_refresh.andThen fun snapshot given identity same => ?_⟩
    cases same
    exact given.identity

theorem keepsValid_fetch : fetch.KeepsValid limit (IsShown limit) := by
  rw [← Routine.andThen_done fetch, fetch_andThen]
  intro station valid
  dsimp only
  split
  · exact keepsValid_refresh.andThen fun snapshot given => Or.inl given
  · exact Or.inr rfl

/-- Sending commands stores nothing. -/
theorem keepsValid_sendAll (commands : List String) : (sendAll commands).KeepsValid limit fun _ => True := by
  induction commands with
  | nil => trivial
  | cons command others inductionHypothesis =>
      exact fun outcome plain => inductionHypothesis.andThen fun replies _ => trivial

theorem keepsValid_switchConnection (settings : Settings) (on : Bool) :
    (switchConnection settings on).KeepsValid limit fun _ => True := by
  cases on with
  | true =>
      refine (keepsValid_connect _ _).andThen fun found given => ?_
      cases found <;> trivial
  | false => exact ⟨by simp, by simp, trivial⟩

theorem keepsValid_setAll (settings : Settings) (checkboxes : List Document.Checkbox) :
    (setAll settings checkboxes).KeepsValid limit fun _ => True := by
  fun_induction setAll settings checkboxes with
  | case1 => trivial
  | case2 on others inductionHypothesis =>
      exact (keepsValid_switchConnection settings on).andThen fun text _ =>
        inductionHypothesis.andThen fun more _ => trivial
  | case3 checkbox others other inductionHypothesis => exact inductionHypothesis

theorem keepsValid_answerCommit (settings : Settings) (document : String) :
    (answerCommit settings document).KeepsValid limit fun _ => True := by
  unfold answerCommit
  split
  · trivial
  · exact (only_commit settings.attempts _).keepsValid.andThen fun report _ => trivial

theorem keepsValid_answerSubmit (document : String) :
    (answerSubmit document).KeepsValid limit fun _ => True := by
  unfold answerSubmit
  split
  · trivial
  · exact (keepsValid_sendAll _).andThen fun replies _ => trivial

theorem keepsValid_answerSet (settings : Settings) (document : String) :
    (answerSet settings document).KeepsValid limit fun _ => True := by
  unfold answerSet
  split
  · trivial
  · exact keepsValid_setAll settings _

end Operation

theorem Identity.IsValid.isPrintable_banner {limit : Nat} {identity : Identity} (valid : identity.IsValid limit) :
    Text.IsPrintable (Operation.banner identity) := by
  have before : Text.IsPrintable "<h2>BNC 565 V0.1.0 S/N " := by decide
  have after : Text.IsPrintable "</h2>" := by decide
  exact (before.append valid.identification.1.printable).append after

/-- The page of a request shows nothing but valid snapshots and identities. -/
def Request.IsAnswered (limit : Nat) : Request → (body : String) → Prop
  | .banner, body => ∃ identity : Identity, identity.IsValid limit ∧ body = Operation.banner identity
  | .status, body => ∃ snapshot, Document.IsShown limit snapshot ∧ body = Document.encode snapshot
  | _, _ => True

namespace Operation

theorem keepsValid_answerRequest (settings : Settings) (request : Request) :
    (answerRequest settings request).KeepsValid limit (request.IsAnswered limit) := by
  cases request with
  | banner => exact fun station valid => ⟨station.cache.identity, valid.identity, rfl⟩
  | status => exact keepsValid_fetch.andThen fun snapshot shown => ⟨snapshot, shown, rfl⟩
  | commit document => exact keepsValid_answerCommit settings document
  | submit document => exact keepsValid_answerSubmit document
  | set document => exact keepsValid_answerSet settings document
  | events => trivial

theorem keepsValid_answer (settings : Settings) (method path : String) :
    (answer settings method path).KeepsValid limit fun body =>
      ∀ request, Request.parse path = .ok request → request.IsAnswered limit body := by
  unfold answer
  cases parsed : Request.parse path with
  | error fault => exact fun request same => by contradiction
  | ok request =>
      refine (keepsValid_answerRequest settings request).mono fun body answered other same => ?_
      cases same
      exact answered

end Operation

/-- An operation gives nothing of the model but a snapshot that is shown and a valid identity. -/
def Call.IsAnswered (limit : Nat) : Call → (answer : Call.Answer) → Prop
  | .fetch, answer => ∃ snapshot, answer = .snapshot snapshot ∧ Document.IsShown limit snapshot
  | .connect _ _, answer =>
    ∃ found, answer = .identity found ∧ ∀ identity, found = .ok identity → identity.IsValid limit
  | _, _ => True

theorem Call.keepsValid_routine (limit : Nat) (call : Call) :
    call.routine.KeepsValid limit (call.IsAnswered limit) := by
  have storesNothing (none : call.refreshes = false) (nothing : ∀ answer, call.IsAnswered limit answer) :
      call.routine.KeepsValid limit (call.IsAnswered limit) :=
    (call.only_routine (fun _ other => other) (fun some => by simp [none] at some)).keepsValid.mono
      fun answer _ => nothing answer
  cases call with
  | fetch => exact Operation.keepsValid_fetch.andThen fun snapshot shown => ⟨snapshot, rfl, shown⟩
  | connect port baudRate =>
      refine (Operation.keepsValid_connect port baudRate).andThen ?_
      exact fun found valid => ⟨found, rfl, valid⟩
  | _ => exact storesNothing rfl fun answer => trivial

/-- What somebody asks for: an operation, or a request of the front end. -/
inductive Errand where
  | call (operation : Call)
  | request (method path : String)

namespace Errand

/-- What comes of an errand. -/
inductive Outcome where
  | answer (answer : Call.Answer)
  | page (body : String)

def routine (settings : Settings) : Errand → Routine Outcome
  | call operation => operation.routine.andThen fun answer => .done (.answer answer)
  | request method path => (Operation.answer settings method path).andThen fun body => .done (.page body)

/-- Errands begin at any time. -/
def later (settings : Settings) (errand : Nat × Errand) : Routine Outcome :=
  .pause errand.1 (errand.2.routine settings)

/-- Whatever comes of an errand, it gives nothing of the model but what is valid. -/
def IsServed (limit : Nat) : Errand → Outcome → Prop
  | call operation, outcome => ∃ answer, outcome = .answer answer ∧ operation.IsAnswered limit answer
  | request _ path, outcome =>
    ∃ body, outcome = .page body ∧
      ∀ request, Request.parse path = .ok request → request.IsAnswered limit body

theorem keepsValid_routine (settings : Settings) (limit : Nat) (errand : Errand) :
    (errand.routine settings).KeepsValid limit (errand.IsServed limit) := by
  cases errand with
  | call operation =>
      refine (operation.keepsValid_routine limit).andThen ?_
      exact fun answer answered => ⟨answer, rfl, answered⟩
  | request method path =>
      refine (Operation.keepsValid_answer settings method path).andThen ?_
      exact fun body answered => ⟨body, rfl, answered⟩

end Errand

namespace Traffic

variable {σ : Type} {settings : Settings} {errands : List (Nat × Errand)}

/-- Callers begin with their errands. -/
def dispatch (settings : Settings) (first : Bench σ) (errands : List (Nat × Errand)) :
    Traffic Errand.Outcome σ :=
  .start first (errands.map (Errand.later settings))

/-- The cached snapshot is valid, and nothing else of the model is shown. -/
structure ShowsValid (settings : Settings) (errands : List (Nat × Errand)) (last : Traffic Errand.Outcome σ) :
    Prop where
  /-- All times in the cache are finite and not below zero, and its texts name the instrument. -/
  cache : last.bench.station.cache.IsValid settings.serial.maxLineBytes
  /-- A fetch gives a valid snapshot, or the placeholder when no instrument is connected. -/
  fetch : ∀ {number delay time : Nat} {outcome : Errand.Outcome},
    errands[number]? = some (delay, .call .fetch) →
    last.callers[number]? = some (.finished time outcome) →
    ∃ snapshot, outcome = .answer (.snapshot snapshot) ∧
      (snapshot.IsValid settings.serial.maxLineBytes ∨ snapshot = .placeholder)
  connect : ∀ {number delay time baudRate : Nat} {port : String} {identity : Identity},
    errands[number]? = some (delay, .call (.connect port baudRate)) →
    last.callers[number]? = some (.finished time (.answer (.identity (.ok identity)))) →
    identity.IsValid settings.serial.maxLineBytes
  /-- The status page is a document that readers take for a clean value, whatever its numbers have been. -/
  status : ∀ {number delay time : Nat} {method path : String} {outcome : Errand.Outcome},
    errands[number]? = some (delay, .request method path) → Request.parse path = .ok .status →
    last.callers[number]? = some (.finished time outcome) →
    ∃ snapshot value, outcome = .page (Document.encode snapshot) ∧
      (snapshot.IsValid settings.serial.maxLineBytes ∨ snapshot = .placeholder) ∧
      Json.parse (Document.encode snapshot) = .ok value ∧ value.IsClean
  /-- The banner is printable and shows a valid identity. -/
  banner : ∀ {number delay time : Nat} {method path : String} {outcome : Errand.Outcome},
    errands[number]? = some (delay, .request method path) → Request.parse path = .ok .banner →
    last.callers[number]? = some (.finished time outcome) →
    ∃ identity : Identity, outcome = .page (Operation.banner identity) ∧
      identity.IsValid settings.serial.maxLineBytes ∧ Text.IsPrintable (Operation.banner identity)
  /-- What listeners hear at a tick is clean as well. -/
  ticks : ∀ {entry : Entry} {tick : Tick} {heard : List Heard}, entry ∈ last.journal →
    entry.event = .ticked tick heard → tick.event.IsClean ∧ ∀ found ∈ heard, found.tick.event.IsClean

/-- The errand of a caller is served. -/
def IsServedAt (limit : Nat) (errands : List (Nat × Errand)) (number : Nat) (outcome : Errand.Outcome) : Prop :=
  ∀ delay errand, errands[number]? = some (delay, errand) → errand.IsServed limit outcome

/-- Whatever comes in at whatever time, and whatever is asked for, the cached snapshot is valid at every
moment, and nothing else of the model is shown. -/
theorem Reaches.showsValid {first : Bench σ} {port : Port} (idle : first.station = .idle settings port)
    {last : Traffic Errand.Outcome σ} (reached : (dispatch settings first errands).Reaches last) :
    ShowsValid settings errands last := by
  have begun : first.IsClean settings.serial.maxLineBytes := by
    constructor <;> rw [idle]
    · exact ⟨Framer.isPlain_empty _, fun line member => absurd member List.not_mem_nil⟩
    · exact Snapshot.isValid_idle _
  have clean : last.IsClean settings.serial.maxLineBytes (IsServedAt settings.serial.maxLineBytes errands) :=
    reached.isClean begun ?_
  · constructor
    · exact clean.bench.cache
    · intro number delay time outcome called finished
      obtain ⟨answer, rfl, snapshot, rfl, shown⟩ := clean.gives finished _ _ called
      exact ⟨snapshot, rfl, shown⟩
    · intro number delay time baudRate port identity called finished
      obtain ⟨answer, same, found, rfl, valid⟩ := clean.gives finished _ _ called
      cases same
      exact valid identity rfl
    · intro number delay time method path outcome asked parsed finished
      obtain ⟨body, rfl, answered⟩ := clean.gives finished _ _ asked
      obtain ⟨snapshot, shown, rfl⟩ := answered _ parsed
      obtain ⟨value, read, isClean⟩ := shown.exists_parse_encode
      exact ⟨snapshot, value, rfl, shown, read, isClean⟩
    · intro number delay time method path outcome asked parsed finished
      obtain ⟨body, rfl, answered⟩ := clean.gives finished _ _ asked
      obtain ⟨identity, valid, rfl⟩ := answered _ parsed
      exact ⟨identity, rfl, valid, valid.isPrintable_banner⟩
    · intro entry tick heard member event
      exact ⟨tick.isClean_event, fun found _ => found.tick.isClean_event⟩
  · intro index routine found
    rw [List.getElem?_map, Option.map_eq_some_iff] at found
    obtain ⟨⟨delay, errand⟩, asked, rfl⟩ := found
    refine (errand.keepsValid_routine settings settings.serial.maxLineBytes).mono ?_
    intro outcome served delay errand again
    cases asked.symm.trans again
    exact served

/-- An instrument sends control characters, no number, a time below zero and error tokens. -/
theorem Reaches.showsValid_noise :
    let respond : Unit → String → Unit × List String := fun _ command =>
      ((), if command = "*IDN?" then [" BNC\u0007,565\t "] else if command = ":PULSE0:PER?" then ["nan"]
        else if command = ":PULSE1:WIDTH?" then ["-1e-6"] else ["?7"])
    let first := Bench.opened Settings.defaults ⟨(), respond⟩ ⟨5, none⟩
    let errands := [(0, Errand.call (.connect "port" 9600)), (0, .request "GET" "/dg/ctl?status.json"),
      (200, .request "GET" "/dg/ctl?banner")]
    let round : List Move := [.elapse, .deliver 0, .tick, .turn 0, .turn 1, .turn 2]
    let last := (dispatch Settings.defaults first errands).play
      ([.turn 0, .turn 1, .turn 2] ++ (List.replicate 78 round).flatten)
    ShowsValid Settings.defaults errands last ∧ last.callers.map Caller.isFinished = [true, true, true] ∧
      last.bench.station.cache.identity.identification = "BNC,565" :=
  ⟨@Reaches.showsValid _ _ _ _ { Port.ready with isOpen := true } rfl _ (reaches_play _ _), by decide +kernel,
    by decide +kernel⟩

end Traffic

end DelayGenerator
