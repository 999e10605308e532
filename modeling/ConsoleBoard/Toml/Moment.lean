/-
Dates and times as TOML writes them: a date, a time, or both with a letter T
or a space between them, and then perhaps an offset from universal time.
Seconds may be left out.
-/
import ConsoleBoard.Text.Hex

namespace ConsoleBoard.Toml.Moment

/-- A number of two digits; what follows it. -/
def pair? : List Char → Option (Nat × List Char)
  | a :: b :: rest => (Text.ofDigits? 10 [a, b]).map fun n => (n, rest)
  | _ => none

/-- What follows a character that must be there. -/
def after? (c : Char) : List Char → Option (List Char)
  | d :: rest => if d = c then some rest else none
  | [] => none

def isLeap (year : Nat) : Bool :=
  year % 4 == 0 && (year % 100 != 0 || year % 400 == 0)

def daysIn (year month : Nat) : Nat :=
  match month with
  | 2 => if isLeap year then 29 else 28
  | 4 | 6 | 9 | 11 => 30
  | _ => 31

/-- A date that the calendar has; what follows it. -/
def date? (cs : List Char) : Option (List Char) := do
  let (century, cs) ← pair? cs
  let (year, cs) ← pair? cs
  let (month, cs) ← pair? (← after? '-' cs)
  let (day, cs) ← pair? (← after? '-' cs)
  if 1 ≤ month ∧ month ≤ 12 ∧ 1 ≤ day
    ∧ day ≤ daysIn (100 * century + year) month then
    return cs
  else none

/-- Seconds with or without a fraction; what follows them. A leap second makes
sixty. -/
def seconds? (cs : List Char) : Option (List Char) := do
  let (second, cs) ← pair? cs
  if 60 < second then none
  else
    match cs with
    | '.' :: digit :: rest =>
        if digit.isDigit then return rest.dropWhile Char.isDigit else none
    | '.' :: [] => none
    | _ => return cs

/-- Hours and minutes; what follows them. -/
def clock? (cs : List Char) : Option (List Char) := do
  let (hour, cs) ← pair? cs
  let (minute, cs) ← pair? (← after? ':' cs)
  if hour ≤ 23 ∧ minute ≤ 59 then return cs else none

/-- A time; what follows it. -/
def time? (cs : List Char) : Option (List Char) := do
  match ← clock? cs with
  | ':' :: cs => seconds? cs
  | cs => return cs

/-- Whether these characters are an offset, or none. -/
def isOffset : List Char → Bool
  | [] => true
  | ['Z'] | ['z'] => true
  | '+' :: cs | '-' :: cs => clock? cs == some []
  | _ => false

/-- Whether these characters are a date, a time or both. -/
def isMoment (cs : List Char) : Bool :=
  match date? cs with
  | some [] => true
  | some (c :: rest) =>
    (c == 'T' || c == 't' || c == ' ') && (time? rest).any isOffset
  | none => time? cs == some []

end ConsoleBoard.Toml.Moment
