/-
Reading records out of JSON values. A record is an object with the field
names, or an array with the fields in order; a field may not be given twice.
Whether names that are no field are refused is up to the record. An
enumeration is its name, or an object with the name as its only member and
null as the value.
-/
import ConsoleBoard.Json.Basic

namespace ConsoleBoard.Json

-- ================================================================= scalars

def bool? : Json → Option Bool
  | .bool b => some b
  | _ => none

/-- An integer between two bounds, ends included. -/
def between? (low high : Int) : Json → Option Int
  | .int n => if low ≤ n ∧ n ≤ high then some n else none
  | _ => none

def byte? (j : Json) : Option UInt8 :=
  (between? 0 255 j).map fun n => UInt8.ofNat n.toNat

def word? (j : Json) : Option UInt16 :=
  (between? 0 65535 j).map fun n => UInt16.ofNat n.toNat

/-- A natural number of at most 64 bits. -/
def count? (j : Json) : Option Nat :=
  (between? 0 18446744073709551615 j).map Int.toNat

def text? : Json → Option String
  | .str s => s
  | _ => none

/-- A value that may be null. -/
def nullable? {α : Type} (read : Json → Option α) : Json → Option (Option α)
  | .null => some none
  | j => (read j).map some

def list? {α : Type} (read : Json → Option α) : Json → Option (List α)
  | .arr items => items.mapM read
  | _ => none

/-- The name that an enumeration value has. -/
def tag? : Json → Option String
  | .str s => s
  | .obj [(name, .null)] => name
  | _ => none

-- ================================================================= records

/-- The value of one field among the members: nothing if it is missing, and a
failure if it is given twice. -/
def field? (members : List (Option String × Json)) (name : String) :
    Option (Option Json) :=
  match members.filter fun m => m.1 == some name with
  | [] => some none
  | [(_, value)] => some (some value)
  | _ => none

/-- Whether every member is one of the fields. -/
def onlyFields (names : List String)
    (members : List (Option String × Json)) : Bool :=
  members.all fun m => match m.1 with
    | some name => names.contains name
    | none => false

/-- The fields of a record, in the order of `names`, with nothing for those
that are missing. A `closed` record refuses other names. -/
def fields? (names : List String) (closed : Bool) :
    Json → Option (List (Option Json))
  | .arr items =>
    if items.length ≤ names.length then
      some (items.map some ++ List.replicate (names.length - items.length) none)
    else none
  | .obj members =>
    if members.all (fun m => m.1.isSome)
      && (!closed || onlyFields names members) then
      names.mapM (field? members)
    else none
  | _ => none

/-- Read a field that must be there. -/
def need {α : Type} (read : Json → Option α) (value : Option Json) : Option α :=
  value.bind read

/-- Read a field that has a default. -/
def orElse {α : Type} (default : α) (read : Json → Option α)
    (value : Option Json) : Option α :=
  match value with
  | some j => read j
  | none => some default

end ConsoleBoard.Json
