/-
JSON values and their two written forms. Members keep the order in which
they stand, and a member name may be repeated: what a repetition means is
for the reader of a record to say. A string whose escapes form no text (half
of a surrogate pair) is a value too, since it may stand where nobody looks.
-/
import ConsoleBoard.Text.Hex

namespace ConsoleBoard

/-- A JSON value. -/
inductive Json
  | null
  | bool (b : Bool)
  /-- A number without fraction or exponent. Minus zero is none of them. -/
  | int (n : Int)
  /-- Any other number, as it is written. -/
  | real (lexeme : String)
  /-- A string, or nothing if its escapes form no text. -/
  | str (s : Option String)
  | arr (items : List Json)
  | obj (members : List (Option String × Json))

namespace Json

/-- A string value. -/
def text (s : String) : Json := .str (some s)

def nat (n : Nat) : Json := .int n

/-- An object with proper names. -/
def record (members : List (String × Json)) : Json :=
  .obj (members.map fun (name, value) => (some name, value))

-- ================================================================= strings

/-- A character inside quotes. -/
def escape (c : Char) : List Char :=
  match c with
  | '"' => ['\\', '"']
  | '\\' => ['\\', '\\']
  | '\n' => ['\\', 'n']
  | '\r' => ['\\', 'r']
  | '\t' => ['\\', 't']
  | _ =>
    if c.toNat = 8 then ['\\', 'b']
    else if c.toNat = 12 then ['\\', 'f']
    else if c.toNat < 32 then '\\' :: 'u' :: (Text.hexLower 4 c.toNat).toList
    else [c]

def quoted (s : String) : String :=
  String.ofList ('"' :: s.toList.flatMap escape ++ ['"'])

-- =========================================================== written forms

mutual

/-- The form without spaces. -/
def compact : Json → String
  | .null => "null"
  | .bool b => if b then "true" else "false"
  | .int n => toString n
  | .real lexeme => lexeme
  | .str s => quoted (s.getD "")
  | .arr items => "[" ++ ",".intercalate (compactItems items) ++ "]"
  | .obj members => "\x7b" ++ ",".intercalate (compactMembers members) ++ "\x7d"

def compactItems : List Json → List String
  | [] => []
  | j :: rest => compact j :: compactItems rest

def compactMembers : List (Option String × Json) → List String
  | [] => []
  | (name, j) :: rest =>
      (quoted (name.getD "") ++ ":" ++ compact j) :: compactMembers rest

end

/-- Lines of a container, one entry to a line between its two marks. -/
def block (depth : Nat) (opening closing : String)
    (entries : List String) : String :=
  if entries.isEmpty then opening ++ closing
  else
    let margin := String.ofList (List.replicate (2 * depth) ' ')
    let inner := entries.map fun entry => margin ++ "  " ++ entry
    opening ++ "\n" ++ ",\n".intercalate inner ++ "\n" ++ margin ++ closing

mutual

/-- The form with one entry to a line, two spaces deeper for each level. -/
def pretty (depth : Nat) : Json → String
  | .arr items => block depth "[" "]" (prettyItems (depth + 1) items)
  | .obj members =>
      block depth "\x7b" "\x7d" (prettyMembers (depth + 1) members)
  | .null => "null"
  | .bool b => if b then "true" else "false"
  | .int n => toString n
  | .real lexeme => lexeme
  | .str s => quoted (s.getD "")

def prettyItems (depth : Nat) : List Json → List String
  | [] => []
  | j :: rest => pretty depth j :: prettyItems depth rest

def prettyMembers (depth : Nat) : List (Option String × Json) → List String
  | [] => []
  | (name, j) :: rest =>
    (quoted (name.getD "") ++ ": " ++ pretty depth j)
      :: prettyMembers depth rest

end

end Json

end ConsoleBoard
