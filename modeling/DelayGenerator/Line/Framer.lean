/-
This file cuts the bytes of the reply stream into lines.
-/

namespace DelayGenerator

/-- The framer holds the unfinished line. A line with more than `limit` characters is skipped to its
end, so no fragment of it is taken for a reply. -/
structure Framer where
  limit : Nat
  held : List Char
  skipping : Bool
  deriving DecidableEq

namespace Framer

def empty (limit : Nat) : Framer := ⟨limit, [], false⟩

/-- The byte that ends a line. -/
def newline : UInt8 := 0x0A

/-- The character of a byte that counts: printable ASCII. -/
def printable? (byte : UInt8) : Option Char :=
  if 0x20 ≤ byte && byte ≤ 0x7E then some (Char.ofNat byte.toNat) else none

/-- A newline completes the line, a printable byte extends it, and every other byte is dropped. -/
def step (framer : Framer) (byte : UInt8) : Framer × Option String :=
  if byte == newline then
    (empty framer.limit, if framer.skipping then none else some (String.ofList framer.held))
  else
    match printable? byte with
    | none => (framer, none)
    | some character =>
      if framer.skipping then (framer, none)
      else if framer.limit ≤ framer.held.length then (⟨framer.limit, [], true⟩, none)
      else (⟨framer.limit, framer.held ++ [character], false⟩, none)

/-- Takes a chunk of bytes and gives the lines that it completes. -/
def feed (framer : Framer) : List UInt8 → Framer × List String
  | [] => (framer, [])
  | byte :: rest =>
    let (next, line) := framer.step byte
    let (last, lines) := next.feed rest
    (last, line.toList ++ lines)

/-- How many characters of an unfinished line are held. -/
def pending (framer : Framer) : Nat := framer.held.length

/-- Forgets the unfinished line. -/
def reset (framer : Framer) : Framer := empty framer.limit

theorem feedAppend (framer : Framer) (first second : List UInt8) :
    framer.feed (first ++ second) =
      (((framer.feed first).1.feed second).1,
        (framer.feed first).2 ++ ((framer.feed first).1.feed second).2) := by
  induction first generalizing framer with
  | nil => rfl
  | cons byte rest inductionHypothesis => simp [feed, inductionHypothesis]

end Framer

end DelayGenerator
