import WebBundle.Json.Basic

/-!
# Records in JSON

A record is written as an object with one member per field, or as an array with
the fields in order.  A field may be given once; fields that are not declared
are refused or skipped, as the record says.
-/

namespace WebBundle.Json

/-- What was given for the fields of a record, in the order of their names. -/
abbrev Fields := List (Option Json)

/-- Puts a value at the position of a name; a value that is already there or a
name that is not declared is no place for it. -/
def placeField? : (names : List String) → Fields → (key : String) → Json → Option Fields
  | name :: names, given :: fields, key, value =>
    if name = key then
      match given with
      | none => some (some value :: fields)
      | some _ => none
    else (placeField? names fields key value).map (given :: ·)
  | _, _, _, _ => none

/-- The members of an object as fields. -/
def collectFields? (names : List String) (skipUnknown : Bool) :
    Fields → List (Option String × Json) → Option Fields
  | fields, [] => some fields
  | _, (none, _) :: _ => none
  | fields, (some key, value) :: members =>
    if key ∈ names then
      match placeField? names fields key value with
      | some fields => collectFields? names skipUnknown fields members
      | none => none
    else if skipUnknown then collectFields? names skipUnknown fields members
    else none

/-- The fields of a record; an array gives the first of them. -/
def fields? (names : List String) (skipUnknown : Bool) : Json → Option Fields
  | .object members => collectFields? names skipUnknown (names.map fun _ => none) members
  | .array items =>
    if items.length ≤ names.length then
      some (items.map some ++ List.replicate (names.length - items.length) none)
    else none
  | _ => none

/-- The name of a choice without content, written alone or with a null. -/
def choice? : Json → Option String
  | .string name => name
  | .object [(some name, .null)] => some name
  | _ => none

end WebBundle.Json
