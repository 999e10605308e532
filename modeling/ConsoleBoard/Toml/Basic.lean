/-
TOML values. A number with a fraction, and a date or time, is kept as it is
written: nobody here computes with them, but a document that holds one has
to be read. The same holds of a word that was meant for a whole number and
stands for none.
-/

namespace ConsoleBoard

/-- A TOML value. -/
inductive Toml
  | text (s : String)
  | integer (n : Int)
  /-- A word that begins as a whole number does and stands for none. It is wrong
  only for one who asks for its value. -/
  | numeral (lexeme : String)
  | real (lexeme : String)
  | flag (b : Bool)
  | moment (lexeme : String)
  | array (items : List Toml)
  | table (entries : List (String × Toml))

end ConsoleBoard
