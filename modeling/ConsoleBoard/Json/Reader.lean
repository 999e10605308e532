/-
Reading JSON. The reader keeps the containers that are open on a stack and
takes one token at a time, so nesting costs no recursion and every text has
an answer.
-/
import ConsoleBoard.Json.Token

namespace ConsoleBoard.Json

/-- A container that is open, with what it holds so far from the back. -/
inductive Frame
  | arr (back : List Json)
  /-- An object waiting for the value of `name`. -/
  | obj (back : List (Option String × Json)) (name : Option String)

/-- What the reader accepts next. -/
inductive Expect
  /-- A value. -/
  | value (stack : List Frame)
  /-- The first item of an array, or its end. -/
  | firstItem (stack : List Frame)
  /-- A member name; the end of the object too, if `mayClose`. -/
  | name (back : List (Option String × Json)) (mayClose : Bool)
      (stack : List Frame)
  /-- The colon after a name. -/
  | colon (back : List (Option String × Json)) (name : Option String)
      (stack : List Frame)
  /-- What follows a value in an open container. -/
  | after (value : Json) (stack : List Frame)

namespace Expect

/-- Begin a value. -/
def begin (stack : List Frame) : Token → Option Expect
  | .scalar j => some (.after j stack)
  | .openArr => some (.firstItem stack)
  | .openObj => some (.name [] true stack)
  | _ => none

/-- Take one token. -/
def step (e : Expect) (t : Token) : Option Expect :=
  match e with
  | .value stack => begin stack t
  | .firstItem stack =>
    match t with
    | .closeArr => some (.after (.arr []) stack)
    | _ => begin (.arr [] :: stack) t
  | .name back mayClose stack =>
    match t with
    | .scalar (.str label) => some (.colon back label stack)
    | .closeObj =>
        if mayClose then some (.after (.obj back.reverse) stack) else none
    | _ => none
  | .colon back label stack =>
    match t with
    | .colon => some (.value (.obj back label :: stack))
    | _ => none
  | .after j (.arr back :: stack) =>
    match t with
    | .comma => some (.value (.arr (j :: back) :: stack))
    | .closeArr => some (.after (.arr (j :: back).reverse) stack)
    | _ => none
  | .after j (.obj back label :: stack) =>
    match t with
    | .comma => some (.name ((label, j) :: back) false stack)
    | .closeObj => some (.after (.obj ((label, j) :: back).reverse) stack)
    | _ => none
  | .after _ [] => none

end Expect

/-- The value that a text writes. -/
def parse? (s : String) : Option Json := do
  let tokens ← Lexer.tokens? s.toList
  match ← tokens.foldlM Expect.step (.value []) with
  | .after j [] => return j
  | _ => none

end ConsoleBoard.Json
