/-
This file follows commits that credit a directive with an acknowledgement that the instrument has sent for
another one, because it came in late or together with others.
-/

import DelayGenerator.Proofs.Bench.Alone
import DelayGenerator.Proofs.Bench.Answer
import DelayGenerator.Proofs.Operation.Acknowledge
import Mathlib.Data.List.Chain

namespace DelayGenerator

/-- How a far end answers that acknowledges all commands but one, with a number of lines. -/
def Operation.sparing (silent : String) (count : Nat) (command : String) : List String :=
  if command = silent then [] else List.replicate count acknowledgement

/-- A far end that acknowledges all commands but one and does not remember any of them. -/
def FarEnd.sparing (silent : String) (count : Nat) : FarEnd Unit :=
  ⟨(), fun _ command => ((), Operation.sparing silent count command)⟩

namespace Operation

open Bench

variable {σ : Type} {bench middle after : Bench σ}

theorem completes_attempt {command expected : String} (attempts : Nat)
    (reply : Completes (.send command) (.ok expected) bench after) :
    Completes (attempt command expected (attempts + 1)) true bench after := by
  refine reply.ask ?_
  simp only [beq_self_eq_true, if_true]
  exact Completes.done true after

theorem completes_attempt_again {command expected : String} {attempts : Nat} {value : Bool}
    (late : Completes (.send command) (.error (.replyTimedOut (Text.stripLineEnd command))) bench middle)
    (later : Completes (attempt command expected attempts) value middle after) :
    Completes (attempt command expected (attempts + 1)) value bench after :=
  late.ask later

theorem completes_acknowledge {attempts : Nat} {directive : Directive} {value : Bool}
    (isOpen : bench.station.port.isOpen = true)
    (tries : Completes (attempt directive.text acknowledgement (max attempts 1)) value bench after) :
    Completes (acknowledge attempts directive) value bench after := by
  apply Completes.look
  simp only [isOpen, if_true]
  exact tries

/-- A directive that is acknowledged at once needs no other attempt. -/
theorem completes_acknowledge_at_once (attempts : Nat) {directive : Directive}
    (isOpen : bench.station.port.isOpen = true)
    (reply : Completes (.send directive.text) (.ok acknowledgement) bench after) :
    Completes (acknowledge attempts directive) true bench after := by
  have some : max attempts 1 = max attempts 1 - 1 + 1 := by omega
  apply completes_acknowledge isOpen
  rw [some]
  exact completes_attempt _ reply

theorem completes_tryAll {attempts : Nat} {directive : Directive} {directives : List Directive}
    (first : Completes (acknowledge attempts directive) true bench middle)
    (others : Completes (tryAll attempts directives) [] middle after) :
    Completes (tryAll attempts (directive :: directives)) [] bench after := by
  refine first.andThen ?_
  exact others.andThen (Completes.done [] after)

theorem completes_commit {attempts : Nat} {protocol : Protocol} (isOpen : bench.station.isOpen = true)
    (free : bench.cycleLine = [])
    (sends : Completes (tryAll attempts (Directive.ofProtocol protocol)) [] bench.claimed after) :
    Completes (commit attempts protocol) ⟨false, (Directive.ofProtocol protocol).length, []⟩ bench
      after.released := by
  rw [commit_eq]
  apply Completes.look
  rw [if_pos isOpen]
  apply Completes.claim free
  exact sends.andThen (Completes.release (Completes.done _ after.released))

/-- Two instants of which the later one is reached from the earlier one within the bound. -/
def IsNear (bound earlier later : Nat) : Prop := earlier ≤ later ∧ later ≤ earlier + bound

/-- Acknowledgements on their way. -/
def arrivals (pace : Pace) (count : Nat) (dues : List Nat) : List Delivery :=
  dues.map fun due =>
    ⟨due, Delivery.chunksOf pace.chunkSize (Delivery.payload (List.replicate count acknowledgement))⟩

section

variable {pace : Pace} {bound clock count : Nat} {dues : List Nat} {framer : Framer} {silent : String}
  {command : String}

theorem coming_acknowledged (pace : Pace) (some : 0 < count) (spoken : command ≠ silent) (clock : Nat) :
    coming pace clock (sparing silent count command) = arrivals pace count [clock + pace.latency] := by
  have lines : (List.replicate count acknowledgement).isEmpty = false := by
    simpa using Nat.ne_of_gt some
  rw [coming, sparing, if_neg spoken, lines]
  rfl

theorem coming_silent (silent : String) (count : Nat) (clock : Nat) :
    coming pace clock (sparing silent count silent) = [] := by
  rw [coming, sparing, if_pos rfl]
  rfl

theorem arrivals_append (first second : List Nat) :
    arrivals pace count (first ++ second) = arrivals pace count first ++ arrivals pace count second :=
  List.map_append

theorem mem_arrivals {delivery : Delivery} (member : delivery ∈ arrivals pace count dues) :
    delivery.due ∈ dues := by
  obtain ⟨due, inside, rfl⟩ := List.mem_map.mp member
  exact inside

/-- A later instant near the last one prolongs a chain. -/
theorem isChain_append_of_near {near : Nat → Nat → Prop} (instants : List Nat) {last next : Nat}
    (chain : List.IsChain near (instants ++ [last])) (follows : near last next) :
    List.IsChain near ((instants ++ [last]) ++ [next]) := by
  rw [List.append_assoc]
  exact List.isChain_append_cons_cons.mpr ⟨chain, follows, List.isChain_singleton next⟩

/-- As long as no acknowledgement is due, attempts time out, and more acknowledgements set out. They stay
near each other. -/
theorem completes_attempt_late (some : 0 < count) (positive : 0 < bound)
    (spoken : Text.stripLineEnd command ≠ silent) (rounds : Nat)
    (free : bench.IsFree (fun _ => sparing silent count) pace bound clock (arrivals pace count dues) framer)
    (late : ∀ due ∈ dues ++ [clock + pace.latency], clock + rounds * bound ≤ due)
    (chain : List.IsChain (IsNear bound) (dues ++ [clock + pace.latency])) :
    ∃ (middle : Bench σ) (more : List Nat),
      middle.IsFree (fun _ => sparing silent count) pace bound (clock + rounds * bound)
        (arrivals pace count (dues ++ more)) framer ∧
      more.length = rounds ∧
      (more ++ [clock + rounds * bound + pace.latency]).head? = Option.some (clock + pace.latency) ∧
      List.IsChain (IsNear bound) ((dues ++ more) ++ [clock + rounds * bound + pace.latency]) ∧
      ∀ (expected : String) (attempts : Nat) (value : Bool) (after : Bench σ),
        Completes (attempt command expected attempts) value middle after →
        Completes (attempt command expected (rounds + attempts)) value bench after := by
  induction rounds generalizing bench clock dues with
  | zero =>
      refine ⟨bench, [], ?_, rfl, ?_, ?_, ?_⟩
      · simpa using free
      · simp
      · simpa using chain
      · intro expected attempts value after later
        simpa using later
  | succ rounds inductionHypothesis =>
      have coming := coming_acknowledged pace some spoken clock
      have lateNow : ∀ delivery ∈ arrivals pace count dues ++
          Bench.coming pace clock (sparing silent count (Text.stripLineEnd command)),
          clock + bound ≤ delivery.due := by
        intro delivery member
        rw [coming, ← arrivals_append] at member
        have due := late _ (mem_arrivals member)
        rw [Nat.succ_mul] at due
        omega
      obtain ⟨middle, timesOut, free⟩ := free.timesOut positive command lateNow
      rw [coming, ← arrivals_append] at free
      have next : IsNear bound (clock + pace.latency) (clock + bound + pace.latency) := by
        unfold IsNear
        omega
      have lateThen : ∀ due ∈ (dues ++ [clock + pace.latency]) ++ [clock + bound + pace.latency],
          clock + bound + rounds * bound ≤ due := by
        intro due member
        rcases List.mem_append.mp member with before | own
        · have due := late _ before
          rw [Nat.succ_mul] at due
          omega
        · rw [List.mem_singleton.mp own]
          have due := late _ (List.mem_append_right _ (List.mem_singleton.mpr rfl))
          rw [Nat.succ_mul] at due
          omega
      obtain ⟨last, more, freeLast, length, first, chainLast, completes⟩ :=
        inductionHypothesis free lateThen (isChain_append_of_near dues chain next)
      have instant : clock + bound + rounds * bound = clock + (rounds + 1) * bound := by
        rw [Nat.succ_mul]
        omega
      rw [instant] at freeLast chainLast
      refine ⟨last, (clock + pace.latency) :: more, ?_, ?_, rfl, ?_, ?_⟩
      · rw [List.append_cons dues]
        exact freeLast
      · rw [List.length_cons, length]
      · rw [List.append_cons dues]
        exact chainLast
      · intro expected attempts value after later
        rw [Nat.add_right_comm]
        exact completes_attempt_again timesOut (completes expected attempts value after later)

/-- A directive is acknowledged by an attempt that follows others which have timed out, if there is one
left. -/
theorem completes_acknowledge_late {attempts rounds : Nat} {directive : Directive} (some : 0 < count)
    (positive : 0 < bound) (enough : rounds + 1 ≤ max attempts 1)
    (afterwards : rounds * bound ≤ pace.latency) (spoken : Text.stripLineEnd directive.text ≠ silent)
    (free : bench.IsFree (fun _ => sparing silent count) pace bound clock [] framer) :
    ∃ (middle : Bench σ) (more : List Nat),
      middle.IsFree (fun _ => sparing silent count) pace bound (clock + rounds * bound)
        (arrivals pace count more) framer ∧
      more.length = rounds ∧
      (more ++ [clock + rounds * bound + pace.latency]).head? = Option.some (clock + pace.latency) ∧
      List.IsChain (IsNear bound) (more ++ [clock + rounds * bound + pace.latency]) ∧
      ∀ after : Bench σ, Completes (.send directive.text) (.ok acknowledgement) middle after →
        Completes (acknowledge attempts directive) true bench after := by
  have none : arrivals pace count [] = [] := rfl
  rw [← none] at free
  have late : ∀ due ∈ [] ++ [clock + pace.latency], clock + rounds * bound ≤ due := by
    intro due member
    rw [List.mem_singleton.mp member]
    omega
  obtain ⟨middle, more, freeLate, length, head, chain, completes⟩ :=
    completes_attempt_late some positive spoken rounds free late (List.isChain_singleton _)
  refine ⟨middle, more, freeLate, length, head, chain, ?_⟩
  intro after reply
  have remaining : max attempts 1 = rounds + (max attempts 1 - rounds - 1 + 1) := by omega
  apply completes_acknowledge free.isOpen
  rw [remaining]
  exact completes _ _ _ _ (completes_attempt _ reply)

/-- Instants near each other stand in order. -/
theorem le_of_isChain {first later : Nat} {instants : List Nat}
    (chain : List.IsChain (IsNear bound) (first :: instants)) (member : later ∈ instants) :
    first ≤ later := by
  have ordered : List.IsChain (fun earlier later : Nat => earlier ≤ later) (first :: instants) :=
    chain.imp fun _ _ near => near.1
  exact ordered.rel_cons member

/-- The framer finds all acknowledgements. -/
theorem feed_acknowledgements {limit : Nat} (fits : acknowledgement.length ≤ limit) (count : Nat) :
    (Framer.empty limit).feed (Delivery.payload (List.replicate count acknowledgement)) =
      (.empty limit, List.replicate count acknowledgement) := by
  apply Delivery.feed_payload_of_printable
  intro line member
  rw [List.eq_of_mem_replicate member]
  exact ⟨by decide, fits⟩

/-- Acknowledgements lag behind: one of them comes in during the next exchange, and each further one during
the exchange after that. -/
def Lags (pace : Pace) (bound count limit : Nat) (silent : String) (bench : Bench σ) : Prop :=
  ∃ clock due dues,
    bench.IsFree (fun _ => sparing silent count) pace bound clock (arrivals pace count (due :: dues))
      (.empty limit) ∧
    List.IsChain (IsNear bound) (clock :: (due :: dues) ++ [clock + pace.latency])

section

variable {limit due : Nat} (whole : pace.chunkSize = none) (some : 0 < count)
  (positive : 0 < bound) (fits : acknowledgement.length ≤ limit)

include whole some positive fits

/-- An exchange ends with the acknowledgement that comes in first, whoever it is for. -/
theorem completes_send_shifted {more : List Nat}
    (free : bench.IsFree (fun _ => sparing silent count) pace bound clock (arrivals pace count (due :: dues))
      (.empty limit))
    (coming : coming pace clock (sparing silent count (Text.stripLineEnd command)) =
      arrivals pace count more)
    (near : IsNear bound clock due) (least : ∀ later ∈ dues ++ more, due ≤ later) :
    ∃ after : Bench σ, Completes (.send command) (.ok acknowledgement) bench after ∧
      after.IsFree (fun _ => sparing silent count) pace bound due (arrivals pace count (dues ++ more))
        (.empty limit) := by
  have found := feed_acknowledgements fits count
  have first : arrivals pace count (due :: dues) ++
      Bench.coming pace clock (sparing silent count (Text.stripLineEnd command)) =
        ⟨due, [] ++ Delivery.payload (List.replicate count acknowledgement) :: []⟩ ::
          arrivals pace count (dues ++ more) := by
    rw [coming, ← arrivals_append, List.cons_append, arrivals, List.map_cons, whole]
    rw [arrivals, whole]
    rfl
  have lines : ((Framer.empty limit).feed
      (Delivery.payload (List.replicate count acknowledgement))).2 ≠ [] := by
    rw [found]
    simpa using Nat.ne_of_gt some
  have all : ∀ line ∈ ((Framer.empty limit).feed
      (Delivery.payload (List.replicate count acknowledgement))).2, line = acknowledgement := by
    rw [found]
    exact fun line member => List.eq_of_mem_replicate member
  obtain ⟨after, completes, free⟩ := free.takesLine positive command [] first near.2
    (fun _ delivery member => least _ (mem_arrivals member)) rfl lines all
  refine ⟨after, completes, ?_⟩
  rw [Nat.max_eq_right near.1] at free
  have empty : ((Framer.empty limit).feed
      (Delivery.payload (List.replicate count acknowledgement))).1 = .empty limit := by rw [found]
  exact { free with framer := free.framer.trans empty }

/-- A command that is acknowledged leaves as many acknowledgements on their way as before. -/
theorem completes_send_lagging (spoken : Text.stripLineEnd command ≠ silent)
    (lags : Lags pace bound count limit silent bench) :
    ∃ after : Bench σ, Completes (.send command) (.ok acknowledgement) bench after ∧
      Lags pace bound count limit silent after := by
  obtain ⟨clock, due, dues, free, chain⟩ := lags
  obtain ⟨near, chainLater⟩ := List.isChain_cons_cons.mp chain
  obtain ⟨after, completes, freeLater⟩ := completes_send_shifted whole some positive fits free
    (coming_acknowledged pace some spoken clock) near fun later member => le_of_isChain chainLater member
  have next : IsNear bound (clock + pace.latency) (due + pace.latency) := by
    unfold IsNear at near ⊢
    omega
  have chainNext := isChain_append_of_near (due :: dues) chainLater next
  obtain ⟨first, others, list⟩ := List.exists_cons_of_ne_nil
    (List.append_ne_nil_of_right_ne_nil dues (List.cons_ne_nil (clock + pace.latency) []))
  rw [list] at freeLater
  rw [List.cons_append, list] at chainNext
  exact ⟨after, completes, due, first, others, freeLater, chainNext⟩

/-- Once acknowledgements lag behind, every directive is credited with that of an earlier one, also the
last one, which is not acknowledged at all. -/
theorem completes_tryAll_lagging (attempts : Nat) (spoken : List Directive) {last : Directive}
    (speaks : ∀ directive ∈ spoken, Text.stripLineEnd directive.text ≠ silent)
    (silence : Text.stripLineEnd last.text = silent) (lags : Lags pace bound count limit silent bench) :
    ∃ after : Bench σ, Completes (tryAll attempts (spoken ++ [last])) [] bench after := by
  induction spoken generalizing bench with
  | nil =>
      obtain ⟨clock, due, dues, free, chain⟩ := lags
      obtain ⟨near, chainLater⟩ := List.isChain_cons_cons.mp chain
      have coming : Bench.coming pace clock (sparing silent count (Text.stripLineEnd last.text)) =
          arrivals pace count [] := by
        rw [silence]
        exact coming_silent silent count clock
      obtain ⟨after, completes, _⟩ := completes_send_shifted whole some positive fits free coming near
        fun later member => le_of_isChain chainLater (List.mem_append_left _ (by simpa using member))
      refine ⟨after, completes_tryAll ?_ (Completes.done [] after)⟩
      exact completes_acknowledge_at_once attempts free.isOpen completes
  | cons first spoken inductionHypothesis =>
      obtain ⟨middle, completes, later⟩ :=
        completes_send_lagging whole some positive fits (speaks first List.mem_cons_self) lags
      obtain ⟨after, tries⟩ := inductionHypothesis
        (fun directive member => speaks directive (List.mem_cons_of_mem first member)) later
      obtain ⟨clock, due, dues, free, _⟩ := lags
      refine ⟨after, completes_tryAll ?_ tries⟩
      exact completes_acknowledge_at_once attempts free.isOpen completes

/-- Acknowledgements begin to lag behind when they come in after the first attempt has timed out. -/
theorem completes_tryAll_late {attempts rounds : Nat} (again : 1 ≤ rounds)
    (enough : rounds + 1 ≤ max attempts 1) (afterwards : rounds * bound ≤ pace.latency)
    (early : pace.latency ≤ (rounds + 1) * bound) {first : Directive} (spoken : List Directive)
    {last : Directive}
    (speaks : ∀ directive ∈ first :: spoken, Text.stripLineEnd directive.text ≠ silent)
    (silence : Text.stripLineEnd last.text = silent)
    (free : bench.IsFree (fun _ => sparing silent count) pace bound clock [] (.empty limit)) :
    ∃ after : Bench σ, Completes (tryAll attempts (first :: (spoken ++ [last]))) [] bench after := by
  obtain ⟨middle, more, freeLate, length, head, chain, acknowledged⟩ :=
    completes_acknowledge_late some positive enough afterwards (speaks first List.mem_cons_self) free
  -- The acknowledgement for the first attempt comes in first.
  have lags : Lags pace bound count limit silent middle := by
    cases more with
    | nil =>
        rw [List.length_nil] at length
        omega
    | cons due others =>
        have own : due = clock + pace.latency := Option.some.inj head
        have near : IsNear bound (clock + rounds * bound) due := by
          rw [Nat.succ_mul] at early
          unfold IsNear
          omega
        exact ⟨_, due, others, freeLate, List.isChain_cons_cons.mpr ⟨near, chain⟩⟩
  obtain ⟨credited, completes, later⟩ :=
    completes_send_lagging whole some positive fits (speaks first List.mem_cons_self) lags
  obtain ⟨after, tries⟩ := completes_tryAll_lagging whole some positive fits attempts spoken
    (fun directive member => speaks directive (List.mem_cons_of_mem first member)) silence later
  exact ⟨after, completes_tryAll (acknowledged credited completes) tries⟩

end

/-- More acknowledgements come in, a few at a time, than `left` exchanges take. -/
def Floods (answers : σ → String → List String) (pace : Pace) (bound width left : Nat) (bench : Bench σ) :
    Prop :=
  ∃ clock due chunks others framer,
    bench.IsFree answers pace bound clock (⟨due, chunks⟩ :: others) framer ∧ due ≤ clock ∧
    (∀ chunk ∈ chunks, chunk.length ≤ width) ∧
    (∀ line ∈ (framer.feed chunks.flatten).2, line = acknowledgement) ∧
    left * width < (framer.feed chunks.flatten).2.length

section

variable {answers : σ → String → List String} {due width left : Nat} {deliveries others : List Delivery}
  {chunks : List (List UInt8)} (positive : 0 < bound)

include positive

/-- An exchange takes what one chunk completes, and the rest is left to the following ones. -/
theorem completes_send_chunk (free : bench.IsFree answers pace bound clock deliveries framer)
    (first : deliveries ++ coming pace clock (answers bench.farEnd.state (Text.stripLineEnd command)) =
      ⟨due, chunks⟩ :: others)
    (early : due ≤ clock + bound) (least : clock < due → ∀ delivery ∈ others, due ≤ delivery.due)
    (narrow : ∀ chunk ∈ chunks, chunk.length ≤ width)
    (all : ∀ line ∈ (framer.feed chunks.flatten).2, line = acknowledgement)
    (many : (left + 1) * width < (framer.feed chunks.flatten).2.length) :
    ∃ after : Bench σ, Completes (.send command) (.ok acknowledgement) bench after ∧
      Floods answers pace bound width left after := by
  have some : (framer.feed chunks.flatten).2 ≠ [] :=
    List.ne_nil_of_length_pos (Nat.lt_of_le_of_lt (Nat.zero_le _) many)
  obtain ⟨before, chunk, behind, rfl, none, found⟩ := Framer.exists_first_lines some
  -- What the chunks complete is what the chunk and the chunks behind it complete.
  have lines : (framer.feed (before ++ chunk :: behind).flatten).2 =
      ((framer.feed before.flatten).1.feed chunk).2 ++
        (((framer.feed before.flatten).1.feed chunk).1.feed behind.flatten).2 := by
    rw [List.flatten_append, List.flatten_cons, Framer.feedAppend, none, Framer.feedAppend]
    rfl
  rw [lines] at all many
  have size := ((framer.feed before.flatten).1).length_lines_le chunk
  have narrowChunk := narrow chunk (List.mem_append_right _ List.mem_cons_self)
  rw [List.length_append, Nat.succ_mul] at many
  have further : left * width <
      (((framer.feed before.flatten).1.feed chunk).1.feed behind.flatten).2.length := by omega
  have more : behind ≠ [] := by
    rintro rfl
    exact Nat.not_lt_zero _ further
  obtain ⟨after, completes, freeLater⟩ := free.takesLine positive command before first early least none
    found fun line member => all line (List.mem_append_left _ member)
  have kept : Delivery.behind due behind others = ⟨due, behind⟩ :: others := by
    rw [Delivery.behind, if_neg (by simpa using more)]
  rw [kept] at freeLater
  refine ⟨after, completes, max clock due, due, behind, others, _, freeLater, Nat.le_max_right _ _, ?_, ?_,
    further⟩
  · exact fun other member => narrow other (List.mem_append_right _ (List.mem_cons_of_mem chunk member))
  · exact fun line member => all line (List.mem_append_right _ member)

/-- In a flood of acknowledgements every directive is credited with one. -/
theorem completes_tryAll_flooded (attempts : Nat) (directives : List Directive)
    (floods : Floods answers pace bound width directives.length bench) :
    ∃ after : Bench σ, Completes (tryAll attempts directives) [] bench after := by
  induction directives generalizing bench with
  | nil => exact ⟨bench, Completes.done [] bench⟩
  | cons directive directives inductionHypothesis =>
      obtain ⟨clock, due, chunks, others, framer, free, come, narrow, all, many⟩ := floods
      obtain ⟨middle, completes, later⟩ := completes_send_chunk positive free (List.cons_append ..)
        (Nat.le_add_right_of_le come) (fun before => absurd come (Nat.not_le_of_lt before)) narrow all many
      obtain ⟨after, tries⟩ := inductionHypothesis later
      refine ⟨after, completes_tryAll ?_ tries⟩
      exact completes_acknowledge_at_once attempts free.isOpen completes

end

/-- Acknowledgements flood the exchanges when the answer to the first command comes in with many of
them, chunk by chunk. -/
theorem completes_tryAll_chunked {limit attempts rounds size : Nat} (chunked : pace.chunkSize = some size)
    (positive : 0 < bound) (fits : acknowledgement.length ≤ limit)
    (enough : rounds + 1 ≤ max attempts 1) (afterwards : rounds * bound ≤ pace.latency)
    (early : pace.latency ≤ (rounds + 1) * bound) {first : Directive} (directives : List Directive)
    (speaks : Text.stripLineEnd first.text ≠ silent)
    (many : (directives.length + 1) * max size 1 < count)
    (free : bench.IsFree (fun _ => sparing silent count) pace bound clock [] (.empty limit)) :
    ∃ after : Bench σ, Completes (tryAll attempts (first :: directives)) [] bench after := by
  have some : 0 < count := Nat.lt_of_le_of_lt (Nat.zero_le _) many
  obtain ⟨middle, more, freeLate, length, head, chain, acknowledged⟩ :=
    completes_acknowledge_late some positive enough afterwards speaks free
  -- The answer to the first attempt comes in first.
  obtain ⟨dues, list⟩ := List.head?_eq_some_iff.mp head
  have flat : (Delivery.chunksOf pace.chunkSize
      (Delivery.payload (List.replicate count acknowledgement))).flatten =
        Delivery.payload (List.replicate count acknowledgement) := Delivery.flattenChunksOf _ _
  have found := congrArg Prod.snd (feed_acknowledgements fits count)
  rw [← flat] at found
  have arrive : arrivals pace count more ++ coming pace (clock + rounds * bound)
      (sparing silent count (Text.stripLineEnd first.text)) =
        arrivals pace count ((clock + pace.latency) :: dues) := by
    rw [coming_acknowledged pace some speaks, ← arrivals_append, list]
  have inTime : clock + pace.latency ≤ clock + rounds * bound + bound := by
    rw [Nat.succ_mul] at early
    omega
  have least : ∀ delivery ∈ arrivals pace count dues, clock + pace.latency ≤ delivery.due := by
    intro delivery member
    rw [list] at chain
    exact le_of_isChain chain (mem_arrivals member)
  have narrow : ∀ chunk ∈ Delivery.chunksOf pace.chunkSize
      (Delivery.payload (List.replicate count acknowledgement)), chunk.length ≤ max size 1 := by
    rw [chunked]
    exact fun chunk => Delivery.length_le_of_mem_chunksOf
  obtain ⟨credited, completes, floods⟩ := completes_send_chunk positive freeLate arrive inTime
    (fun _ => least) narrow (by
      rw [found]
      exact fun line => List.eq_of_mem_replicate) (by
      rw [found, List.length_replicate]
      exact many)
  obtain ⟨after, tries⟩ := completes_tryAll_flooded positive attempts directives floods
  exact ⟨after, completes_tryAll (acknowledged credited completes) tries⟩

end

/-- How many attempts time out before the answer to the first one comes in, if one of them still waits. -/
theorem exists_rounds {bound latency attempts : Nat} (positive : 0 < bound)
    (come : latency ≤ attempts * bound) (some : 0 < attempts) :
    ∃ rounds, rounds + 1 ≤ attempts ∧ rounds * bound ≤ latency ∧ latency ≤ (rounds + 1) * bound ∧
      (bound ≤ latency → 2 ≤ attempts → 1 ≤ rounds) := by
  have whole := Nat.div_mul_le_self latency bound
  have next := Nat.lt_mul_div_succ latency positive
  rw [Nat.mul_comm] at next
  by_cases within : latency / bound + 1 ≤ attempts
  · exact ⟨latency / bound, within, whole, Nat.le_of_lt next, fun late _ => Nat.div_pos late positive⟩
  · refine ⟨attempts - 1, by omega, ?_, ?_, by omega⟩
    · exact (Nat.mul_le_mul_right bound (by omega)).trans whole
    · rw [Nat.sub_add_cancel some]
      exact come

end Operation

end DelayGenerator
