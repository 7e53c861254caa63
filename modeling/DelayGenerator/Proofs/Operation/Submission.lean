/-
This file shows that a submission is answered line by line: the page has one line for each command that the
document holds.
-/

import DelayGenerator.Proofs.Bench.Limit
import DelayGenerator.Proofs.Bench.Span
import DelayGenerator.Proofs.Json.Sorting
import DelayGenerator.Proofs.Operation.Caching
import DelayGenerator.Proofs.Operation.Chunking
import DelayGenerator.Proofs.Operation.Rejection
import DelayGenerator.Proofs.Operation.RoundTrip
import DelayGenerator.Proofs.Operation.Validity

namespace DelayGenerator

namespace Document

open Json (IsAscending)

/-- The text of a value that is one. -/
def text? : Json → Option String
  | .text text => some text
  | _ => none

/-- The commands that a document holds: the texts of a list, or the texts of a record in the order of the names.
Of members of one name the last counts. -/
inductive Holds : Json → List String → Prop
  | list (commands : List String) : Holds (.list (commands.map .text)) commands
  | record {members sorted : List (String × Json)} (ascending : IsAscending sorted)
      (last : ∀ name value, (name, value) ∈ sorted ↔ members.reverse.lookup name = some value) :
      Holds (.record members) (sorted.filterMap fun member => text? member.2)

theorem itemTexts?_eq_some_iff {items : List Json} {given : List String} :
    itemTexts? items = some given ↔ items = given.map .text := by
  induction items generalizing given with
  | nil => simp [itemTexts?, eq_comm]
  | cons first others inductionHypothesis =>
      cases first with
      | text text =>
          rw [itemTexts?, Option.map_eq_some_iff]
          simp only [inductionHypothesis]
          constructor
          · rintro ⟨texts, rfl, rfl⟩
            rfl
          · intro same
            cases given with
            | nil => contradiction
            | cons other texts =>
                rw [List.map_cons, List.cons.injEq, Json.text.injEq] at same
                exact ⟨texts, same.2, by rw [same.1]⟩
      | _ => cases given <;> simp [itemTexts?]

theorem memberTexts_eq (members : List (String × Json)) :
    memberTexts members = members.filterMap fun member => text? member.2 := by
  refine congrArg (members.filterMap ·) (funext fun member => ?_)
  obtain ⟨name, value⟩ := member
  cases value <;> rfl

theorem holds_iff {value : Json} {given : List String} : Holds value given ↔ commandsOf? value = some given := by
  constructor
  · intro holds
    cases holds with
    | list => exact itemTexts?_eq_some_iff.mpr rfl
    | record ascending last => rw [commandsOf?, Json.sortMembers_eq ascending last, memberTexts_eq]
  · intro found
    cases value with
    | list items =>
        rw [itemTexts?_eq_some_iff.mp found]
        exact .list given
    | record members =>
        rw [commandsOf?, memberTexts_eq] at found
        cases found
        exact .record (Json.isAscending_sortMembers members) fun _ _ => Json.mem_sortMembers
    | _ => contradiction

/-- A document gives exactly the commands that it holds. -/
theorem decodeText_commands_iff {document : String} {given : List String} :
    commands.decodeText document = .ok given ↔
      ∃ value, Json.parse document = .ok value ∧ Holds value given := by
  have refines : commands.decodeText document = .ok given ↔
      ∃ value, Json.parse document = .ok value ∧ commandsOf? value = some given := by
    simp only [Json.Decoder.decodeText, Json.parse, commands, Json.Decoder.refine, Json.Decoder.value, Json.finish,
      bind, Except.bind]
    cases Json.read Json.depthLimit document.toList with
    | error error => simp
    | ok found =>
        obtain ⟨value, rest⟩ := found
        dsimp only
        cases takes : commandsOf? value with
        | none => cases Json.skipSpace rest <;> simp [takes]
        | some texts =>
            dsimp only
            cases Json.skipSpace rest <;> simp [takes]
  simp only [refines, holds_iff]

end Document

namespace Operation

section

variable {stage : CycleStage} (settings : Settings)

/-- Connecting may be repeated. -/
theorem isCyclic_connect_again (port : String) (baudRate : Nat) (free : stage ≠ .inside) :
    (connect port baudRate).IsCyclic True True (· ≠ .inside) stage := by
  have once : (connect port baudRate).IsCyclic True True (· ≠ .inside) .before := by
    refine (isCyclic_connect port baudRate).mono False.elim False.elim ?_
    rintro stage rfl
    decide
  rw [← Routine.andThen_done (connect port baudRate), connect_andThen] at once ⊢
  refine ⟨?_, once.2⟩
  cases stage with
  | before => exact Or.inl rfl
  | inside => contradiction
  | after => exact Or.inr ⟨trivial, rfl⟩

theorem isCyclic_switchConnection (on : Bool) (free : stage ≠ .inside) :
    (switchConnection settings on).IsCyclic True True (· ≠ .inside) stage := by
  cases on with
  | true =>
      refine (isCyclic_connect_again _ _ free).andThen fun found stage free => ?_
      cases found <;> exact free
  | false => exact ⟨by simp, by simp, free⟩

theorem isCyclic_setAll (checkboxes : List Document.Checkbox) (free : stage ≠ .inside) :
    (setAll settings checkboxes).IsCyclic True True (· ≠ .inside) stage := by
  fun_induction setAll settings checkboxes generalizing stage with
  | case1 => exact free
  | case2 on others inductionHypothesis =>
      refine (isCyclic_switchConnection settings on free).andThen fun text stage free => ?_
      exact (inductionHypothesis free).andThen fun more stage free => free
  | case3 checkbox others other inductionHypothesis => exact inductionHypothesis free

/-- Whatever is requested, turns are claimed and released in pairs. -/
theorem isCyclic_answer (method path : String) :
    (answer settings method path).IsCyclic True True (· ≠ .inside) .before := by
  have before : CycleStage.before ≠ .inside := by decide
  unfold answer
  split
  · exact before
  next request parsed =>
    cases request with
    | banner => exact fun station => before
    | status => exact (isCyclic_fetch before).andThen fun snapshot stage free => free
    | commit document =>
        rw [answerRequest, answerCommit]
        split
        · exact before
        · exact (isCyclic_commit _ _ before).andThen fun report stage free => free
    | submit document =>
        rw [answerRequest, answerSubmit]
        split
        · exact before
        · exact (isCyclic_sendAll _ before).andThen fun replies stage free => free
    | set document =>
        rw [answerRequest, answerSet]
        split
        · exact before
        · exact isCyclic_setAll settings _ before
    | events => exact before

end

end Operation

theorem Errand.isCyclic_routine (settings : Settings) (errand : Errand) :
    (errand.routine settings).IsCyclic True True (· ≠ .inside) .before := by
  cases errand with
  | call operation =>
      refine (operation.isCyclic_routine.mono False.elim (fun _ => trivial) fun _ free => free).andThen ?_
      exact fun answer stage free => free
  | request method path => exact (Operation.isCyclic_answer settings method path).andThen fun body stage free => free

namespace Sending

/-- The line of a page that tells of a sending: the reply, or that there is none. -/
def line (sending : Sending) : String :=
  match sending.outcome with
  | .ok reply => reply
  | .error _ => "Error"

end Sending

namespace Operation

/-- Each command is sent, whatever becomes of those before it, and has its own reply. -/
theorem ensures_sendAll (commands : List String) (isOpen? : Option Bool) (earlier : List Sending) :
    (sendAll commands).Ensures
      (SendsNext commands isOpen? earlier fun sendings replies => replies = sendings.map Sending.line)
      isOpen? earlier := by
  induction commands generalizing isOpen? earlier with
  | nil => exact ⟨[], (List.append_nil _).symm, .nil isOpen?, rfl⟩
  | cons command others inductionHypothesis =>
      refine Routine.ensures_ask fun sending => (inductionHypothesis _ _).andThen ?_
      rintro after? sendings replies ⟨more, rfl, sent, rfl⟩
      exact ⟨more, rfl, sent, rfl⟩

end Operation

namespace Errand.Outcome

def page? : Outcome → Option String
  | page body => some body
  | _ => none

theorem eq_page {outcome : Outcome} {body : String} (given : outcome.page? = some body) : outcome = page body := by
  cases outcome <;> cases given
  rfl

end Errand.Outcome

/-- Commands have been sent in their order, and the page joins what tells of them. -/
def Errand.Outcome.Submits (commands : List String) (isOpen? after? : Option Bool) (sendings : List Sending)
    (outcome : Errand.Outcome) : Prop :=
  AreSent (commands.filter (· != "")) isOpen? after? sendings ∧
    outcome = .page ("\n".intercalate (sendings.map Sending.line))

/-- A submission sends what its document gives. -/
theorem Errand.ensures_submission {settings : Settings} {method path document : String} {commands : List String}
    (parsed : Request.parse path = .ok (.submit document))
    (decoded : Document.commands.decodeText document = .ok commands) (isOpen? : Option Bool) :
    ((Errand.request method path).routine settings).Ensures
      (fun after? sendings outcome => outcome.Submits commands isOpen? after? sendings) isOpen? [] := by
  have submits : (Operation.answer settings method path).Ensures (fun after? sendings body =>
      (Outcome.page body).Submits commands isOpen? after? sendings) isOpen? [] := by
    rw [Operation.answer, parsed]
    change (Operation.answerSubmit document).Ensures _ _ _
    rw [Operation.answerSubmit, decoded]
    refine (Operation.ensures_sendAll (commands.filter (· != "")) isOpen? []).andThen ?_
    rintro after? sendings replies ⟨more, rfl, sent, rfl⟩
    exact ⟨sent, rfl⟩
  exact submits.andThen fun after? sendings body given => given

/-- What is printable holds no line end. -/
theorem Text.IsPrintable.newline_not_mem {text : String} (printable : IsPrintable text) : '\n' ∉ text.toList :=
  fun member => absurd (printable '\n' member).1 (by decide)

open Operation

namespace Traffic

variable {σ : Type} {settings : Settings} {first : Bench σ} {errands : List (Nat × Errand)}
  {last : Traffic Errand.Outcome σ}

/-- A submission has come to its end: each command has been sent in its turn, unless it is empty, and the page has a
line for each of them. -/
structure SubmitsEach (settings : Settings) (first : Bench σ) (errands : List (Nat × Errand))
    (last : Traffic Errand.Outcome σ) (number : Nat) (method path : String) (commands : List String) (time : Nat)
    (body : String) (before ended : Traffic Errand.Outcome σ) (sendings : List Sending) : Prop where
  spans : (dispatch settings first errands).Spans last number ((Errand.request method path).routine settings) time
    (.page body) before ended
  inOrder : sendings.map Sending.command = (commands.filter (· != "")).map Text.stripLineEnd
  told : Journal.outcomes number last.journal = sendings.filterMap Sending.exchange?
  begins : before.bench.isOpen = true → ∀ sending ∈ sendings.head?, sending.isRefused = false
  /-- Only a closed port refuses a command, and then it refuses the later ones as well. -/
  closed : ∀ sending ∈ sendings, sending.outcome = .error .notConnected → ended.bench.isOpen = false
  cut : sendings.Pairwise fun earlier later =>
    earlier.outcome = .error .notConnected → later.isRefused = true
  /-- While the port is open there is one exchange for each command. -/
  exchanges : ended.bench.isOpen = true →
    (Journal.outcomes number last.journal).map Prod.fst = (commands.filter (· != "")).map Text.stripLineEnd
  whenClosed : before.bench.isOpen = false → Journal.outcomes number last.journal = []
  /-- Without a command the page is empty. -/
  lines : sendings ≠ [] → (body.split '\n').toList.map (·.copy) = sendings.map Sending.line

/-- No reply holds a line end, so the lines of a page are what tells of the sendings. -/
theorem Reaches.lines_of_told {limit number : Nat} (fresh : first.IsFresh)
    (framer : first.station.link.framer.IsPlain limit) (reached : (dispatch settings first errands).Reaches last)
    {sendings : List Sending} (told : Journal.outcomes number last.journal = sendings.filterMap Sending.exchange?)
    (some : sendings ≠ []) :
    (("\n".intercalate (sendings.map Sending.line)).split '\n').toList.map (·.copy) = sendings.map Sending.line := by
  have single (line : String) (member : line ∈ sendings.map Sending.line) : '\n' ∉ line.toList := by
    have error : '\n' ∉ "Error".toList := by decide
    obtain ⟨sending, inside, rfl⟩ := List.mem_map.mp member
    cases sending with
    | refused command => exact error
    | exchanged command outcome =>
        cases outcome with
        | error fault => exact error
        | ok reply =>
            have recorded : (command, .ok reply) ∈ Journal.outcomes number last.journal := by
              rw [told]
              exact List.mem_filterMap.mpr ⟨_, inside, rfl⟩
            exact (reached.isLine_of_told fresh framer recorded).printable.newline_not_mem
  have split := String.toList_split_intercalate single
  rwa [if_neg (by simpa using some)] at split

/-- Whatever else is asked for and happens to the line, a submission comes to its end. Each of its commands is sent,
whatever becomes of the others, and the lines of the page are the replies in turn, or tell that there is none. -/
theorem Reaches.submitsEach {limit : Nat} (fresh : first.IsFresh) (free : first.cycleLine = [])
    (steady : first.station.ticker.IsSteady) (framer : first.station.link.framer.IsPlain limit)
    (reached : (dispatch settings first errands).Reaches last) :
    last.Ends ∧
      (∀ document commands, Document.commands.decodeText document = .ok commands ↔
        ∃ value, Json.parse document = .ok value ∧ Document.Holds value commands) ∧
      ∀ {number delay time : Nat} {method path document : String} {commands : List String}
        {outcome : Errand.Outcome},
        errands[number]? = some (delay, .request method path) →
        Request.parse path = .ok (.submit document) →
        Document.commands.decodeText document = .ok commands →
        last.callers[number]? = some (.finished time outcome) →
        ∃ body before ended sendings, outcome = .page body ∧
          SubmitsEach settings first errands last number method path commands time body before ended sendings := by
  refine ⟨reached.ends fresh free steady ?_, fun _ _ => Document.decodeText_commands_iff, ?_⟩
  · intro routine member
    obtain ⟨⟨delay, errand⟩, _, rfl⟩ := List.mem_map.mp member
    exact errand.isCyclic_routine settings
  · intro number delay time method path document commands outcome asked parsed decoded finished
    have later : (errands.map (Errand.later settings))[number]? =
        some (.pause delay ((Errand.request method path).routine settings)) := by
      rw [List.getElem?_map, asked]
      rfl
    obtain ⟨before, ended, after?, sendings, spans, told, known, sent, rfl⟩ :=
      reached.spans_of_begins (fun bench after? sendings outcome =>
        outcome.Submits commands (some bench.isOpen) after? sendings) fresh later
        (fun {before} begins => ⟨_, begins, Errand.ensures_submission parsed decoded (some before.bench.isOpen)⟩)
        finished
    refine ⟨_, before, ended, sendings, rfl, spans, sent.inOrder, told, ?_, ?_, sent.cut, ?_, ?_,
      reached.lines_of_told fresh framer told⟩
    · exact fun isOpen => sent.begins (congrArg some isOpen)
    · exact fun sending member lost => known false (sent.closed sending member lost)
    · intro isOpen
      rw [told, ← sent.inOrder]
      refine Sending.map_fst_exchange? fun sending member => Bool.eq_false_iff.mpr fun refused => ?_
      have closed := known false (sent.closed sending member (Sending.outcome_of_isRefused refused))
      rw [isOpen] at closed
      contradiction
    · intro closed
      rw [told]
      exact Sending.filterMap_exchange?_of_refused (sent.stays (congrArg some closed)).2

/-- A record whose names are out of order holds an empty command and a number, and one command is not answered. -/
theorem Reaches.submitsEach_silence :
    let respond : Unit → String → Unit × List String := fun _ command =>
      ((), if command = "*IDN?" then ["BNC,565", "more"] else [])
    let settings := { Settings.defaults with tickPeriod := 0 }
    let first := Bench.opened settings ⟨(), respond⟩ ⟨5, none⟩
    let path := "/dg/ctl?submit.text=\x7b\"b\":\"*IDN?\",\"a\":\"*RST\",\"c\":\"\",\"d\":7\x7d"
    let errands := [(0, Errand.request "GET" path)]
    let last := (dispatch settings first errands).play [.turn 0, .elapse, .turn 0, .elapse, .deliver 0, .turn 0]
    last.Ends ∧ ∃ time before ended sendings,
      SubmitsEach settings first errands last 0 "GET" path ["*RST", "*IDN?", ""] time "Error\nBNC,565" before ended
        sendings := by
  intro respond settings first path errands last
  have here := Reaches.submitsEach (Bench.isFresh_opened _ ⟨(), respond⟩ ⟨5, none⟩) rfl
    (Ticker.isSteady_start _ _) (Framer.isPlain_empty _) (reaches_play (dispatch settings first errands)
      [.turn 0, .elapse, .turn 0, .elapse, .deliver 0, .turn 0])
  have given : ((last.callers[0]?.bind Caller.result?).bind fun result => result.2.page?) =
      some "Error\nBNC,565" := by decide +kernel
  obtain ⟨⟨time, outcome⟩, result, shown⟩ := Option.bind_eq_some_iff.mp given
  obtain ⟨caller, standing, result⟩ := Option.bind_eq_some_iff.mp result
  have same : outcome = .page "Error\nBNC,565" := Errand.Outcome.eq_page shown
  rw [Caller.eq_finished_of_result? result, same] at standing
  have parsed : Request.parse path =
      .ok (.submit "\x7b\"b\":\"*IDN?\",\"a\":\"*RST\",\"c\":\"\",\"d\":7\x7d") := by decide +kernel
  have decoded : Document.commands.decodeText "\x7b\"b\":\"*IDN?\",\"a\":\"*RST\",\"c\":\"\",\"d\":7\x7d" =
      .ok ["*RST", "*IDN?", ""] := by decide +kernel
  obtain ⟨body, before, ended, sendings, same, submits⟩ := here.2.2 rfl parsed decoded standing
  cases same
  exact ⟨here.1, time, before, ended, sendings, submits⟩

end Traffic

end DelayGenerator
