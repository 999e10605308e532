/-
The tokens of JSON text. The lexer is a machine that takes one character at
a time, so it is total by construction and its memory is the token under
way. Numbers are checked against the grammar when they end.
-/
import ConsoleBoard.Json.Basic

namespace ConsoleBoard.Json

/-- A token. Scalars are tokens as whole values. -/
inductive Token
  | openArr | closeArr | openObj | closeObj | comma | colon
  | scalar (value : Json)

-- ================================================================= numbers

/-- Digits, at least one; what follows them. -/
def digits? (cs : List Char) : Option (List Char) :=
  match cs with
  | c :: _ => if c.isDigit then some (cs.dropWhile Char.isDigit) else none
  | [] => none

/-- The digits of an integer, without a leading zero; what follows them. -/
def whole? : List Char → Option (List Char)
  | '0' :: rest => some rest
  | cs => digits? cs

/-- A fraction, if there is one; what follows it. -/
def fraction? : List Char → Option (List Char)
  | '.' :: rest => digits? rest
  | cs => some cs

/-- An exponent, if there is one; what follows it. -/
def exponent? (cs : List Char) : Option (List Char) :=
  match cs with
  | [] => some []
  | e :: rest =>
    if e = 'e' ∨ e = 'E' then
      match rest with
      | '+' :: more => digits? more
      | '-' :: more => digits? more
      | more => digits? more
    else some cs

/-- The value of the digits of a natural number. -/
def digitsValue (cs : List Char) : Nat :=
  cs.foldl (fun n c => 10 * n + (c.toNat - 48)) 0

/-- The number that a lexeme of the grammar writes. -/
def number? (cs : List Char) : Option Json := do
  let (negative, magnitude) := match cs with
    | '-' :: rest => (true, rest)
    | _ => (false, cs)
  let afterWhole ← whole? magnitude
  if afterWhole.isEmpty then
    let n := digitsValue magnitude
    return if !negative then .int n
      else if n = 0 then .real "-0"
      else .int (-(n : Int))
  let afterFraction ← fraction? afterWhole
  let afterExponent ← exponent? afterFraction
  if afterExponent.isEmpty then return .real (String.ofList cs) else none

def isNumberChar (c : Char) : Bool :=
  c.isDigit || c == '-' || c == '+' || c == '.' || c == 'e' || c == 'E'

/-- The value of one of the three words. -/
def literal? (cs : List Char) : Option Json :=
  match cs with
  | ['n', 'u', 'l', 'l'] => some .null
  | ['t', 'r', 'u', 'e'] => some (.bool true)
  | ['f', 'a', 'l', 's', 'e'] => some (.bool false)
  | _ => none

-- ================================================================= strings

/-- A string under way: its text from the back, with half of a surrogate pair
that waits for the other half. `whole` is lost when a half stays alone. -/
structure Partial where
  back : List Char := []
  half : Option Nat := none
  whole : Bool := true

namespace Partial

/-- Give up a half that got no partner. -/
def settle (p : Partial) : Partial :=
  { p with half := none, whole := p.whole && p.half.isNone }

def push (p : Partial) (c : Char) : Partial :=
  let p := p.settle
  { p with back := c :: p.back }

/-- Add the unit that an escape of four digits gives. -/
def pushUnit (p : Partial) (unit : Nat) : Partial :=
  if 0xDC00 ≤ unit ∧ unit ≤ 0xDFFF then
    match p.half with
    | some high =>
      let code := 0x10000 + (high - 0xD800) * 0x400 + (unit - 0xDC00)
      { p with back := Char.ofNat code :: p.back, half := none }
    | none => { p with whole := false }
  else if 0xD800 ≤ unit ∧ unit ≤ 0xDBFF then
    { p.settle with half := some unit }
  else
    p.push (Char.ofNat unit)

def finish (p : Partial) : Option String :=
  let p := p.settle
  if p.whole then some (String.ofList p.back.reverse) else none

end Partial

/-- The character that a one-letter escape stands for. -/
def escaped? (c : Char) : Option Char :=
  match c with
  | '"' => some '"'
  | '\\' => some '\\'
  | '/' => some '/'
  | 'b' => some (Char.ofNat 8)
  | 'f' => some (Char.ofNat 12)
  | 'n' => some '\n'
  | 'r' => some '\r'
  | 't' => some '\t'
  | _ => none

-- =================================================================== lexer

/-- Where the lexer stands. -/
inductive Mode
  | between
  | number (back : List Char)
  | word (back : List Char)
  | string (p : Partial)
  | escape (p : Partial)
  /-- Inside the digits of a `\u` escape: how many are missing, and their value
  so far. -/
  | unit (p : Partial) (missing value : Nat)

/-- The lexer: its mode, and its tokens from the back. -/
structure Lexer where
  mode : Mode := .between
  back : List Token := []

namespace Lexer

def emit (l : Lexer) (t : Token) : Lexer :=
  { mode := .between, back := t :: l.back }

/-- End a number or word. -/
def flush (l : Lexer) : Option Lexer :=
  match l.mode with
  | .number back => (number? back.reverse).map fun j => l.emit (.scalar j)
  | .word back => (literal? back.reverse).map fun j => l.emit (.scalar j)
  | _ => some l

/-- A character between tokens. -/
def start (l : Lexer) (c : Char) : Option Lexer :=
  match c with
  | '[' => some (l.emit .openArr)
  | ']' => some (l.emit .closeArr)
  | '{' => some (l.emit .openObj)
  | '}' => some (l.emit .closeObj)
  | ',' => some (l.emit .comma)
  | ':' => some (l.emit .colon)
  | '"' => some { l with mode := .string {} }
  | ' ' | '\n' | '\r' | '\t' => some l
  | _ =>
    if c.isDigit || c == '-' then some { l with mode := .number [c] }
    else if c.isAlpha then some { l with mode := .word [c] }
    else none

/-- Take one character. -/
def step (l : Lexer) (c : Char) : Option Lexer :=
  match l.mode with
  | .between => l.start c
  | .number back =>
    if isNumberChar c then some { l with mode := .number (c :: back) }
    else do (← l.flush).start c
  | .word back =>
    if c.isAlpha then some { l with mode := .word (c :: back) }
    else do (← l.flush).start c
  | .string p =>
    if c = '"' then some (l.emit (.scalar (.str p.finish)))
    else if c = '\\' then some { l with mode := .escape p }
    else if c.toNat < 32 then none
    else some { l with mode := .string (p.push c) }
  | .escape p =>
    if c = 'u' then some { l with mode := .unit p 4 0 }
    else do
      let d ← escaped? c
      return { l with mode := .string (p.push d) }
  | .unit p missing value => do
    let v ← Text.hexValue? c
    let value := value * 16 + v
    if missing = 1 then return { l with mode := .string (p.pushUnit value) }
    else return { l with mode := .unit p (missing - 1) value }

/-- The tokens of a text, or nothing if it is no sequence of tokens. -/
def tokens? (cs : List Char) : Option (List Token) := do
  let l ← cs.foldlM step {}
  let l ← l.flush
  match l.mode with
  | .between => return l.back.reverse
  | _ => none

end Lexer

end ConsoleBoard.Json
