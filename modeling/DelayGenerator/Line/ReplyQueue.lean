/-
This file holds the completed lines that wait to be taken as replies.
-/

namespace DelayGenerator

/-- A completed line with the number of lines completed before it. -/
structure QueuedLine where
  number : Nat
  text : String
  deriving DecidableEq

/-- The queue keeps the latest lines, oldest first. -/
structure ReplyQueue where
  capacity : Nat
  lines : List QueuedLine
  next : Nat
  deriving DecidableEq

/-- What may be asked of a queue. -/
inductive QueueAccess where
  | push (text : String)
  | drain
  /-- Takes the oldest line and gives up the others. -/
  | takeFirst
  deriving DecidableEq

/-- What a queue gives in return. -/
inductive QueueResult where
  | pushed (number : Nat)
  | drained (lines : List QueuedLine)
  | taken (lines : Option (QueuedLine × List QueuedLine))
  deriving DecidableEq

/-- What has been asked of a queue and what it has given in return. -/
structure QueueRecord where
  access : QueueAccess
  result : QueueResult
  deriving DecidableEq

namespace ReplyQueue

def empty (capacity : Nat) : ReplyQueue := ⟨capacity, [], 0⟩

/-- A queue has room for at least one line. -/
def room (queue : ReplyQueue) : Nat := max queue.capacity 1

/-- Adds a line under the next number. A full queue loses its oldest line. -/
def push (queue : ReplyQueue) (text : String) : ReplyQueue :=
  let kept := if queue.room ≤ queue.lines.length then queue.lines.tail else queue.lines
  ⟨queue.capacity, kept ++ [⟨queue.next, text⟩], queue.next + 1⟩

def pushAll (queue : ReplyQueue) (texts : List String) : ReplyQueue :=
  texts.foldl push queue

/-- Empties the queue. The numbers go on. -/
def drain (queue : ReplyQueue) : ReplyQueue := ⟨queue.capacity, [], queue.next⟩

/-- The oldest line and the others. -/
def first? (queue : ReplyQueue) : Option (QueuedLine × List QueuedLine) :=
  match queue.lines with
  | [] => none
  | first :: others => some (first, others)

/-- Does what is asked of the queue, and says what it gives in return. Without a line to take it is
left as it is. -/
def serve (queue : ReplyQueue) : QueueAccess → ReplyQueue × QueueResult
  | .push text => (queue.push text, .pushed queue.next)
  | .drain => (queue.drain, .drained queue.lines)
  | .takeFirst =>
    match queue.first? with
    | some lines => (queue.drain, .taken (some lines))
    | none => (queue, .taken none)

/-- Does all that is asked of the queue, and keeps a record of it. -/
def serveAll (queue : ReplyQueue) : List QueueAccess → ReplyQueue × List QueueRecord
  | [] => (queue, [])
  | access :: rest =>
    let (served, result) := queue.serve access
    let (last, records) := served.serveAll rest
    (last, ⟨access, result⟩ :: records)

theorem linesDrain (queue : ReplyQueue) : queue.drain.lines = [] := rfl

theorem nextPush (queue : ReplyQueue) (text : String) :
    (queue.push text).next = queue.next + 1 := rfl

end ReplyQueue

end DelayGenerator
