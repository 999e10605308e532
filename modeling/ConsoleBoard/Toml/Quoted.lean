/-
Quoted text in TOML. Double quotes allow escapes and single quotes do not;
three marks in a row open text of several lines. A string is read in steps:
it is cut out, its lines are joined, its escapes are replaced.
-/
import ConsoleBoard.Text.Hex

namespace ConsoleBoard.Toml.Quoted

/-- The mark of text with escapes. -/
def escapingMark : Char := '"'

-- ================================================================= cutting

/-- The text up to the closing mark, in one line; what follows the mark. -/
def cutLine? (mark : Char) : List Char → Option (List Char × List Char)
  | [] => none
  | c :: rest =>
    if c = mark then some ([], rest)
    else if c = '\n' then none
    else if c = '\\' ∧ mark = escapingMark then
      match rest with
      | [] => none
      | d :: more =>
        if d = '\n' then none
        else (cutLine? mark more).map fun (body, after) =>
          (c :: d :: body, after)
    else (cutLine? mark rest).map fun (body, after) => (c :: body, after)

/-- The text up to three closing marks; what follows them. One or two marks
before them belong to the text. -/
def cutBlock? (mark : Char) : List Char → Option (List Char × List Char)
  | [] => none
  | c :: rest =>
    if c = mark ∧ rest.take 2 = [mark, mark] then
      let marks := min 5 (1 + (rest.takeWhile (· = mark)).length)
      some (List.replicate (marks - 3) mark, rest.drop (marks - 1))
    else if c = '\\' ∧ mark = escapingMark then
      match rest with
      | [] => none
      | d :: more => (cutBlock? mark more).map fun (body, after) =>
          (c :: d :: body, after)
    else (cutBlock? mark rest).map fun (body, after) => (c :: body, after)

-- ================================================================= joining

def isSpace (c : Char) : Bool := c == ' ' || c == '\t'

/-- Whether only spaces come before the end of the line. -/
def lineEnds (cs : List Char) : Bool :=
  (cs.dropWhile isSpace).head? == some '\n'

/-- Drop each backslash that ends a line, with all white space after it.
`skipping` says that such white space is being passed over. -/
def joinLines (skipping : Bool) : List Char → List Char
  | [] => []
  | c :: rest =>
    if skipping && (isSpace c || c == '\n') then joinLines true rest
    else if c = '\\' then
      if lineEnds rest then joinLines true rest
      else
        match rest with
        | [] => [c]
        | d :: more => c :: d :: joinLines false more
    else c :: joinLines false rest

-- ================================================================= escapes

/-- The character with a code written in hexadecimal digits. Halves of a
surrogate pair are none. -/
def ofCode? (digits : List Char) : Option Char := do
  let n ← Text.ofDigits? 16 digits
  if n < 0xD800 ∨ (0xE000 ≤ n ∧ n < 0x110000) then return Char.ofNat n else none

/-- The character that a one-letter escape stands for. -/
def ofLetter? (c : Char) : Option Char :=
  match c with
  | '"' => some '"'
  | '\\' => some '\\'
  | 'b' => some (Char.ofNat 8)
  | 'e' => some (Char.ofNat 27)
  | 'f' => some (Char.ofNat 12)
  | 'n' => some '\n'
  | 'r' => some '\r'
  | 't' => some '\t'
  | _ => none

/-- The text with its escapes replaced. -/
def unescape? : List Char → Option (List Char)
  | [] => some []
  | '\\' :: 'x' :: a :: b :: rest => do
    return (← ofCode? [a, b]) :: (← unescape? rest)
  | '\\' :: 'u' :: a :: b :: c :: d :: rest => do
    return (← ofCode? [a, b, c, d]) :: (← unescape? rest)
  | '\\' :: 'U' :: a :: b :: c :: d :: e :: f :: g :: h :: rest => do
    return (← ofCode? [a, b, c, d, e, f, g, h]) :: (← unescape? rest)
  | '\\' :: c :: rest => do
    return (← ofLetter? c) :: (← unescape? rest)
  | c :: rest => do
    return c :: (← unescape? rest)

-- ================================================================ the text

/-- What a string in one line says. -/
def line? (mark : Char) (body : List Char) : Option String :=
  if mark = escapingMark then (unescape? body).map String.ofList
  else some (String.ofList body)

/-- What a string of several lines says. A line break right after the opening
marks does not count. -/
def block? (mark : Char) (body : List Char) : Option String :=
  let body := match body with
    | '\n' :: rest => rest
    | _ => body
  if mark = escapingMark then
    (unescape? (joinLines false body)).map String.ofList
  else some (String.ofList body)

end ConsoleBoard.Toml.Quoted
