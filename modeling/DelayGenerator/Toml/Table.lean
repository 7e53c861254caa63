/-
This file builds the tables of a TOML document. A table is opened once by a header; tables that
headers or keys with points merely pass through may still be extended.
-/

import DelayGenerator.Json.Basic

namespace DelayGenerator.Toml

/-- How a table came into being. -/
inductive Origin where
  | header
  /-- A header has passed through it. -/
  | passed
  /-- A key with points has passed through it. -/
  | dotted
  deriving DecidableEq

inductive Node where
  | value (value : Json)
  | table (origin : Origin) (members : List (String × Node))
  /-- A list of tables, the last of which is open. -/
  | tables (items : List (List (String × Node)))

/-- The members of a table. -/
abbrev Members := List (String × Node)

namespace Members

/-- Puts a member in the place of the one of this name, or at the end. -/
def put (name : String) (node : Node) : Members → Members
  | [] => [(name, node)]
  | first :: rest =>
    if first.1 == name then (name, node) :: rest else first :: put name node rest

/-- Changes the table at a path below a table. Tables that are missing on the way are created, and
those that are there are entered if their origin allows it. -/
def change (created : Origin) (mayEnter : Origin → Bool)
    (action : Origin → Members → Option Members) :
    (path : List String) → (origin : Origin) → Members → Option Members
  | [], origin, members => action origin members
  | name :: path, _, members =>
    match members.lookup name with
    | none => do
      let inner ← change created mayEnter action path created []
      some (members.put name (.table created inner))
    | some (.value _) => none
    | some (.tables items) => do
      let inner ← change created mayEnter action path .header (items.getLast?.getD [])
      some (members.put name (.tables (items.dropLast ++ [inner])))
    | some (.table origin inner) =>
      if mayEnter origin then do
        let inner ← change created mayEnter action path origin inner
        some (members.put name (.table origin inner))
      else none

/-- Changes the table that a header leads to. -/
def atHeader (path : List String) (action : Members → Option Members) (members : Members) :
    Option Members :=
  change .passed (fun _ => true) (fun _ => action) path .header members

/-- Adds a member under a key. A key with points adds to tables that such keys have created. -/
def insert (key : List String) (value : Json) (members : Members) : Option Members :=
  let path := key.dropLast
  let name := key.getLast?.getD ""
  let add (origin : Origin) (members : Members) : Option Members :=
    if (path.isEmpty || origin == .dotted) && (members.lookup name).isNone then
      some (members.put name (.value value))
    else none
  change .dotted (fun origin => origin != .header) add path .header members

/-- Opens the table of a header. -/
def openTable (header : List String) : Members → Option Members :=
  let name := header.getLast?.getD ""
  atHeader header.dropLast fun members =>
    match members.lookup name with
    | none => some (members.put name (.table .header []))
    | some (.table .passed inner) => some (members.put name (.table .header inner))
    | some _ => none

/-- Opens one more table of the list of a header. -/
def openNext (header : List String) : Members → Option Members :=
  let name := header.getLast?.getD ""
  atHeader header.dropLast fun members =>
    match members.lookup name with
    | none => some (members.put name (.tables [[]]))
    | some (.tables items) => some (members.put name (.tables (items ++ [[]])))
    | some _ => none

end Members

mutual

/-- The value that a part of the document denotes. -/
def Node.toJson : Node → Json
  | .value value => value
  | .table _ members => .record (Members.toJson members)
  | .tables items => .list (tablesToJson items)

def Members.toJson : List (String × Node) → List (String × Json)
  | [] => []
  | (name, node) :: rest => (name, node.toJson) :: Members.toJson rest

def tablesToJson : List (List (String × Node)) → List Json
  | [] => []
  | members :: rest => .record (Members.toJson members) :: tablesToJson rest

end

end DelayGenerator.Toml
