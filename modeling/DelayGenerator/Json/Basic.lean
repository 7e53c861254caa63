/-
This file holds the values of JSON documents.
-/

import DelayGenerator.Binary64.Basic

namespace DelayGenerator

/-- A JSON value. A record lists its members in the order of the text. -/
inductive Json where
  | null
  | bool (value : Bool)
  | integer (value : Int)
  | number (value : Binary64)
  | text (value : String)
  | list (items : List Json)
  | record (members : List (String × Json))

namespace Json

/-- Puts a member into a list sorted by names. A member of the same name is replaced. -/
def insertMember {α : Type} (name : String) (value : α) : List (String × α) → List (String × α)
  | [] => [(name, value)]
  | first :: rest =>
    if name < first.1 then (name, value) :: first :: rest
    else if name == first.1 then (name, value) :: rest
    else first :: insertMember name value rest

/-- The members sorted by names; of several members of one name the last stays. -/
def sortMembers {α : Type} (members : List (String × α)) : List (String × α) :=
  members.foldl (fun sorted member => insertMember member.1 member.2 sorted) []

mutual

/-- The value with the members of all its records sorted. -/
def sorted : Json → Json
  | list items => list (sortedItems items)
  | record members => record (sortMembers (sortedMembers members))
  | scalar => scalar

def sortedItems : List Json → List Json
  | [] => []
  | item :: rest => item.sorted :: sortedItems rest

def sortedMembers : List (String × Json) → List (String × Json)
  | [] => []
  | (name, value) :: rest => (name, value.sorted) :: sortedMembers rest

end

/-- The value of a member. -/
def member? (name : String) : Json → Option Json
  | record members => members.lookup name
  | _ => none

end Json

end DelayGenerator
