/-
This file loads settings from a file and from environment variables. What a later source gives
replaces what an earlier one gives, setting by setting.
-/

import DelayGenerator.Settings.Environment
import DelayGenerator.Settings.Reader
import DelayGenerator.Toml.Reader

namespace DelayGenerator

/-- Why settings cannot be had. -/
inductive SettingsFault where
  | unreadable (error : LoadError)
  | invalid (problem : SettingsProblem)
  deriving DecidableEq

namespace Settings

mutual

/-- Lays a value over another one, both with their members sorted. Records are joined, and of other
values the upper one stays. -/
def overlay (lower : Json) : Json → Json
  | .record upper =>
    match lower with
    | .record members => .record (overlayMembers members upper)
    | _ => .record upper
  | upper => upper

/-- Lays members over the members of a record. -/
def overlayMembers (lower : List (String × Json)) : List (String × Json) → List (String × Json)
  | [] => lower
  | (name, value) :: rest =>
    let joined := match lower.lookup name with
      | some inner => overlay inner value
      | none => value
    overlayMembers (Json.insertMember name joined lower) rest

end

/-- The value of a file. A file that is missing gives nothing. -/
def fileLayer (file : Option String) : Except LoadError Json :=
  match file with
  | none => .ok (.record [])
  | some text =>
    match Toml.parse? text with
    | some value => .ok value.sorted
    | none => .error ⟨.badText, []⟩

/-- The value of the variables, laid over each other in the order of their names. -/
def variableLayer (environment : List (String × String)) : Json :=
  ((Json.sortMembers environment).filterMap Environment.layer?).foldl overlay (.record [])

/-- Reads settings from a file, over which the variables are laid. -/
def read (file : Option String) (environment : List (String × String)) :
    Except LoadError Settings := do
  let lowest ← fileLayer file
  ofValue (overlay lowest (variableLayer environment))

/-- Accepts settings that keep the rules. -/
def validate (settings : Settings) : Except SettingsProblem Settings :=
  match settings.problem? with
  | some problem => .error problem
  | none => .ok settings

/-- Settings from a file and variables that keep the rules. -/
def load (file : Option String) (environment : List (String × String)) :
    Except SettingsFault Settings := do
  let settings ← (read file environment).mapError .unreadable
  settings.validate.mapError .invalid

end Settings

end DelayGenerator
