/-
Files of environment settings. A line gives a variable its value; the value
may be quoted, quoted text may go over several lines, and a dollar sign puts
in the value of another variable. The file is read up to the first line that
is no setting.
-/
import ConsoleBoard.Text.Alphanumeric
import ConsoleBoard.Text.Blank

namespace ConsoleBoard.Runner

/-- A piece of a value. -/
inductive Piece
  | char (c : Char)
  /-- The value of another variable. -/
  | variable (name : String)
deriving DecidableEq

/-- A line of the file. -/
structure Setting where
  name : String
  value : List Piece
deriving DecidableEq

namespace Setting

-- =========================================================== logical lines

/-- Where the text of a line stands with regard to quotes. -/
inductive Quoting
  | complete
  /-- Right after a blank: a comment may begin. -/
  | blank
  | escape
  | double
  | doubleEscape
  | single
  | singleEscape
deriving DecidableEq

/-- Pass over one character. -/
def Quoting.step (q : Quoting) (c : Char) : Quoting :=
  let opened : Quoting :=
    if c = '\\' then .escape
    else if c = '"' then .double
    else if c = '\'' then .single
    else .complete
  match q with
  | .complete =>
      if Text.isBlank c && c != '\n' && c != '\r' then .blank else opened
  | .blank => opened
  | .escape => .complete
  | .double =>
      if c = '\\' then .doubleEscape else if c = '"' then .complete else .double
  | .doubleEscape => .double
  | .single =>
      if c = '\\' then .singleEscape
      else if c = '\'' then .complete
      else .single
  | .singleEscape => .single

/-- The text of a line up to a comment, and where it ends. -/
def scan (q : Quoting) : List Char → List Char × Quoting
  | [] => ([], q)
  | c :: rest =>
    if q = .blank ∧ c = '#' then ([], .complete)
    else
      let (kept, q) := scan (q.step c) rest
      (c :: kept, q)

/-- The lines of a text, with their ends. -/
def physicalLines : List Char → List (List Char)
  | [] => []
  | c :: rest =>
    if c = '\n' then [c] :: physicalLines rest
    else
      match physicalLines rest with
      | [] => [[c]]
      | line :: lines => (c :: line) :: lines

/-- Lines joined until their quotes are closed. Nothing stands for a last line
that stays open. -/
def logicalLines (begun : List Char) (q : Quoting) :
    List (List Char) → List (Option (List Char))
  | [] => if q = .complete then [] else [none]
  | line :: rest =>
    if ((begun ++ line).dropWhile Text.isBlank).head? = some '#' then
      logicalLines [] .complete rest
    else
      let (kept, q) := scan q line
      if q = .complete then
        some (begun ++ kept) :: logicalLines [] .complete rest
      else logicalLines (begun ++ kept) q rest

-- ================================================================== values

/-- Where the reader of a value stands. `quoted` says that a double quote is
open around it. -/
inductive Place
  | text (quoted : Bool)
  | single
  | escape (quoted : Bool)
  /-- In a name of letters and digits, which is kept from the back. -/
  | name (quoted : Bool) (back : List Char)
  /-- In a name with braces around it. -/
  | braced (quoted : Bool) (back : List Char)
  /-- After the value. -/
  | after
  | comment
deriving DecidableEq

/-- The piece that a name stands for. -/
def nameOf (back : List Char) : Piece := .variable (String.ofList back.reverse)

/-- The pieces that a character adds, and where the reader stands after it. -/
def readChar (place : Place) (c : Char) : Option (List Piece × Place) :=
  match place with
  | .comment => some ([], .comment)
  | .after =>
    if c = ' ' ∨ c = '\t' then some ([], .after)
    else if c = '#' then some ([], .comment)
    else none
  | .escape quoted =>
    if ['\\', '\'', '"', '$', ' '].contains c then
      some ([.char c], .text quoted)
    else if c = 'n' then some ([.char '\n'], .text quoted)
    else none
  | .single =>
      if c = '\'' then some ([], .text false) else some ([.char c], .single)
  | .name quoted back =>
    if Text.isAlphanumeric c then some ([], .name quoted (c :: back))
    else if c = '{' ∧ back = [] then some ([], .braced quoted [])
    else if c = '$' then some ([nameOf back], .name quoted [])
    else some ([nameOf back, .char c], .text quoted)
  | .braced quoted back =>
    if c = '}' then some ([nameOf back], .text quoted)
    else some ([], .braced quoted (c :: back))
  | .text quoted =>
    if c = '$' then some ([], .name quoted [])
    else if c = '\\' then some ([], .escape quoted)
    else if c = '"' then some ([], .text !quoted)
    else if quoted then some ([.char c], .text quoted)
    else if c = '\'' then some ([], .single)
    else if c = ' ' ∨ c = '\t' then some ([], .after)
    else some ([.char c], .text quoted)

/-- The pieces of a value, if all its quotes and braces are closed. -/
def readValue (place : Place) : List Char → Option (List Piece)
  | [] =>
    match place with
    | .text false | .escape false | .after | .comment => some []
    | .name false back => some [nameOf back]
    | _ => none
  | c :: rest => do
    let (pieces, place) ← readChar place c
    return pieces ++ (← readValue place rest)

-- =================================================================== lines

def isKeyStart (c : Char) : Bool := c.isAlpha || c == '_'

def isKeyChar (c : Char) : Bool := c.isAlphanum || c == '_' || c == '.'

/-- The name at the front; what follows it and its blanks. -/
def key? (cs : List Char) : Option (List Char × List Char) :=
  match cs with
  | c :: _ =>
    if isKeyStart c then
      some (cs.takeWhile isKeyChar,
        (cs.dropWhile isKeyChar).dropWhile Text.isBlank)
    else none
  | [] => none

/-- What follows an equals sign and its blanks. -/
def afterEquals? : List Char → Option (List Char)
  | '=' :: rest => some (rest.dropWhile Text.isBlank)
  | _ => none

/-- The name and the text of the value. The word `export` may stand before the
name; it can be the name too. -/
def assignment? (cs : List Char) : Option (List Char × List Char) := do
  let (name, rest) ← key? cs
  match afterEquals? rest with
  | some value => return (name, value)
  | none =>
    if name = "export".toList then
      let (name, rest) ← key? rest
      return (name, ← afterEquals? rest)
    else none

/-- The setting of a line: a failure if it is none, and nothing if the line is
blank or a comment. -/
def ofLine? (line : List Char) : Option (Option Setting) :=
  let cs := Text.trim line
  if cs = [] ∨ cs.head? = some '#' then some none
  else do
    let (name, text) ← assignment? cs
    let value ←
      if text.head? = some '#' then some []
      else readValue (.text false) text
    return some { name := String.ofList name, value }

/-- The settings of lines, and whether every line could be read. Nothing is
read after a line that cannot. -/
def ofLines : List (Option (List Char)) → List Setting × Bool
  | [] => ([], true)
  | line :: rest =>
    match line.bind ofLine? with
    | none => ([], false)
    | some none => ofLines rest
    | some (some setting) =>
      let (settings, complete) := ofLines rest
      (setting :: settings, complete)

/-- The settings of a file, and whether all of it could be read. -/
def read (text : String) : List Setting × Bool :=
  let cs := match text.toList with
    | '\uFEFF' :: rest => rest
    | cs => cs
  ofLines (logicalLines [] .complete (physicalLines cs))

end Setting

-- ============================================================ environments

/-- Variables and their values. -/
abbrev Environment := List (String × String)

namespace Environment

/-- The text of a piece; a variable without a value has none. -/
def pieceText (env : Environment) : Piece → String
  | .char c => String.singleton c
  | .variable name => (env.lookup name).getD ""

/-- Add a setting. A variable that has a value already keeps it. No variable
can hold the character NUL, which ends the text of a value. -/
def add? (env : Environment) (setting : Setting) : Option Environment :=
  match env.lookup setting.name with
  | some _ => some env
  | none =>
    let text := String.join (setting.value.map env.pieceText)
    if text.toList.contains (Char.ofNat 0) then none
    else some (env ++ [(setting.name, text)])

end Environment

end ConsoleBoard.Runner
