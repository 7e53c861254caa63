/-
This file writes durations in the unit that suits them.
-/

import DelayGenerator.Text.Blank
import DelayGenerator.Text.Numeral

namespace DelayGenerator.Text

/-- A duration of whole milliseconds: in seconds with up to three places from one second on, else in
milliseconds. None at all counts as zero nanoseconds. -/
def duration (milliseconds : Nat) : String :=
  if milliseconds == 0 then "0ns"
  else if milliseconds < 1000 then toString milliseconds ++ "ms"
  else
    let places := dropTrailing (· == '0') (lastDigits 3 milliseconds)
    let fraction := if places.isEmpty then [] else '.' :: places
    toString (milliseconds / 1000) ++ String.ofList fraction ++ "s"

end DelayGenerator.Text
