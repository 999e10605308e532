/-
Hexadecimal digits, written with a least width and read without one.
-/

namespace ConsoleBoard.Text

/-- The upper-case digit of a number below sixteen. -/
def hexDigit (n : Nat) : Char :=
  if n < 10 then Char.ofNat (48 + n) else Char.ofNat (55 + n)

/-- The digits of a number, most significant first; zero has none. -/
def hexDigits (n : Nat) : List Char :=
  if n = 0 then [] else hexDigits (n / 16) ++ [hexDigit (n % 16)]

/-- Upper-case digits, with zeros before them up to `width`. -/
def hexUpper (width n : Nat) : String :=
  let digits := hexDigits n
  String.ofList (List.replicate (width - digits.length) '0' ++ digits)

/-- Lower-case digits, with zeros before them up to `width`. -/
def hexLower (width n : Nat) : String :=
  let digits := (hexDigits n).map Char.toLower
  String.ofList (List.replicate (width - digits.length) '0' ++ digits)

/-- The value of a digit of either case. -/
def hexValue? (c : Char) : Option Nat :=
  if '0' ≤ c ∧ c ≤ '9' then some (c.toNat - 48)
  else if 'a' ≤ c ∧ c ≤ 'f' then some (c.toNat - 87)
  else if 'A' ≤ c ∧ c ≤ 'F' then some (c.toNat - 55)
  else none

/-- Whether a character is a digit of either case. -/
def isHexDigit (c : Char) : Bool := (hexValue? c).isSome

/-- A number from its digits in a base up to sixteen, or nothing if there are
none or one of them is no digit of the base. -/
def ofDigits? (base : Nat) : List Char → Option Nat
  | [] => none
  | cs => cs.foldlM (fun n c => do
      let v ← hexValue? c
      if v < base then return n * base + v else none) 0

end ConsoleBoard.Text
