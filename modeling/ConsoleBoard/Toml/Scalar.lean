/-
What a TOML value without quotes stands for: a word, a whole number in one of
four bases, a number with fraction or exponent, or a moment. Digits may be
grouped by underscores that have a digit on both sides; before the first
digit a sign does as well.
-/
import ConsoleBoard.Text.Blank
import ConsoleBoard.Toml.Basic
import ConsoleBoard.Toml.Moment

namespace ConsoleBoard.Toml

/-- The digits of grouped digits, without the underscores. -/
def ungrouped? (cs : List Char) : Option (List Char) :=
  let groups := Text.splitAt '_' cs
  if groups.all fun group => !group.isEmpty && group.all Char.isAlphanum then
    some groups.flatten
  else none

/-- A number from its grouped digits in a base. -/
def grouped? (base : Nat) (cs : List Char) : Option Nat :=
  (ungrouped? cs).bind (Text.ofDigits? base)

/-- What a number has before its digits. -/
inductive Sign
  | absent | plus | minus
deriving DecidableEq

/-- The sign of a number, and what follows it. -/
def sign : List Char → Sign × List Char
  | '-' :: rest => (.minus, rest)
  | '+' :: rest => (.plus, rest)
  | cs => (.absent, cs)

/-- A number from the grouped decimal digits after a sign, without a leading
zero. -/
def decimal? (s : Sign) (cs : List Char) : Option Nat :=
  match cs with
  | '0' :: _ :: _ => none
  | '_' :: digits => if s = .absent then none else grouped? 10 digits
  | _ => grouped? 10 cs

/-- A whole number. Only decimal numbers have a sign. -/
def integer? (cs : List Char) : Option Int :=
  match cs with
  | '0' :: 'x' :: digits => (grouped? 16 digits).map Int.ofNat
  | '0' :: 'o' :: digits => (grouped? 8 digits).map Int.ofNat
  | '0' :: 'b' :: digits => (grouped? 2 digits).map Int.ofNat
  | _ =>
    let (s, digits) := sign cs
    (decimal? s digits).map fun n => if s = .minus then -(n : Int) else n

/-- Whether these characters are an exponent, the letter not counted. -/
def isExponent (cs : List Char) : Bool := (grouped? 10 (sign cs).2).isSome

def isExponentMark (c : Char) : Bool := c == 'e' || c == 'E'

/-- Whether these characters are a fraction, perhaps with an exponent. -/
def isFraction (cs : List Char) : Bool :=
  let digits := cs.takeWhile fun c => !isExponentMark c
  (grouped? 10 digits).isSome &&
    match cs.drop digits.length with
    | [] => true
    | _ :: power => isExponent power

/-- Whether these characters are a number that is not written as a whole
one. -/
def isReal (cs : List Char) : Bool :=
  let (s, magnitude) := sign cs
  let whole := magnitude.takeWhile fun c => c != '.' && !isExponentMark c
  magnitude == ['i', 'n', 'f'] || magnitude == ['n', 'a', 'n'] ||
    ((decimal? s whole).isSome &&
      match magnitude.drop whole.length with
      | [] => false
      | '.' :: rest => isFraction rest
      | _ :: power => isExponent power)

/-- Whether a word looks like a whole number. Of a number whose value nobody
wants no more is asked than this: a base, or digits and further groups that
have a hexadecimal digit wherever they meet an underscore. -/
def isNumeral (cs : List Char) : Bool :=
  let (s, magnitude) := sign cs
  match Text.splitAt '_' magnitude with
  | [digits] =>
      s = .absent && [['0', 'x'], ['0', 'o'], ['0', 'b']].contains digits
  | digits :: groups =>
    digits.all Char.isDigit && digits.head? != some '0'
      && (s ≠ .absent || !digits.isEmpty)
      && groups.all (fun group => group.head?.any Text.isHexDigit
        && !group.any fun c => c == '.' || c == ' ' || isExponentMark c)
      && groups.dropLast.all fun group => group.getLast?.any Text.isHexDigit
  | [] => false

/-- The value that characters without quotes stand for. -/
def scalar? (cs : List Char) : Option Toml :=
  if cs = ['t', 'r', 'u', 'e'] then some (.flag true)
  else if cs = ['f', 'a', 'l', 's', 'e'] then some (.flag false)
  else
    match integer? cs with
    | some n => some (.integer n)
    | none =>
      if isReal cs then some (.real (String.ofList cs))
      else if Moment.isMoment cs then some (.moment (String.ofList cs))
      else if isNumeral cs then some (.numeral (String.ofList cs))
      else none

end ConsoleBoard.Toml
