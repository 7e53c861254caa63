/-
This file is the command line program.
-/

import DelayGenerator.CommandLine.Program

open DelayGenerator

/-- The text of a file that can be read. -/
def readText? (path : String) : IO (Option String) := do
  try
    return some (← IO.FS.readFile path)
  catch _ => return none

/-- The variables of the environment. -/
def readEnvironment : IO (List (String × String)) := do
  let text := (← readText? "/proc/self/environ").getD ""
  return (text.splitOn "\x00").filterMap fun entry =>
    match entry.splitOn "=" with
    | name :: value => if name == "" then none else some (name, "=".intercalate value)
    | [] => none

def main (arguments : List String) : IO UInt32 := do
  let mut files := []
  for path in CommandLine.wantedFiles arguments do
    if let some text ← readText? path then
      files := (path, text) :: files
  let outcome := CommandLine.run arguments (fun path => files.lookup path) (← readEnvironment)
  IO.print outcome.output
  IO.eprint outcome.errors
  return outcome.code.toUInt32
