/-
The tokens of a TOML document. Blanks and line ends are tokens, because the
grammar of lines depends on them; comments are not.
-/
import ConsoleBoard.Toml.Quoted

namespace ConsoleBoard.Toml

/-- A token. -/
inductive Token
  /-- One of the characters that build the grammar. -/
  | mark (c : Char)
  | blank (width : List Char)
  | lineEnd
  /-- Quoted text in one line. -/
  | line (s : String)
  /-- Quoted text between threefold marks. -/
  | block (s : String)
  /-- Characters that stand for themselves. -/
  | word (cs : List Char)
deriving DecidableEq

def isMark (c : Char) : Bool := ['.', '=', ',', '[', ']', '{', '}'].contains c

/-- Whether a word goes on with this character. -/
def isWordChar (c : Char) : Bool :=
  !isMark c && !Quoted.isSpace c && c != '\n' && c != '#'

def isQuote (c : Char) : Bool := c == '"' || c == '\''

-- ============================================================== characters

/-- Control characters, but for tabs and line ends. They may stand neither in
comments nor between quotes. -/
def isForbidden (c : Char) : Bool :=
  (c.toNat < 32 && c != '\t' && c != '\n') || c.toNat == 127

/-- The text with line ends of one character, if every carriage return belongs
to a line end. -/
def uniformLines? : List Char → Option (List Char)
  | [] => some []
  | '\r' :: '\n' :: rest => (uniformLines? rest).map ('\n' :: ·)
  | c :: rest => if c = '\r' then none else (uniformLines? rest).map (c :: ·)

/-- The text without a byte order mark. -/
def withoutMark : List Char → List Char
  | '\uFEFF' :: rest => rest
  | cs => cs

-- ================================================================== tokens

/-- The string that a quotation mark opens; what follows it. -/
def quoted? (mark : Char) (rest : List Char) : Option (Token × List Char) :=
  match rest.take 2 == [mark, mark] with
  | true => do
    let (body, after) ← Quoted.cutBlock? mark (rest.drop 2)
    if body.any isForbidden then none
    return (.block (← Quoted.block? mark body), after)
  | false => do
    let (body, after) ← Quoted.cutLine? mark rest
    if body.any isForbidden then none
    return (.line (← Quoted.line? mark body), after)

/-- The token that begins with a character, and what follows it. -/
def token? (c : Char) (rest : List Char) : Option (Token × List Char) :=
  if isMark c then some (.mark c, rest)
  else if c = '\n' then some (.lineEnd, rest)
  else if Quoted.isSpace c then
    some (.blank (c :: rest.takeWhile Quoted.isSpace),
      rest.dropWhile Quoted.isSpace)
  else if isQuote c then quoted? c rest
  else some (.word (c :: rest.takeWhile isWordChar), rest.dropWhile isWordChar)

/-- At most `fuel` tokens and comments. -/
def tokensUpTo (fuel : Nat) (cs : List Char) : Option (List Token) :=
  match fuel, cs with
  | _, [] => some []
  | 0, _ => none
  | fuel + 1, c :: rest =>
    if c = '#' then
      if (rest.takeWhile (· != '\n')).any isForbidden then none
      else tokensUpTo fuel (rest.dropWhile (· != '\n'))
    else do
      let (token, after) ← token? c rest
      return token :: (← tokensUpTo fuel after)

/-- The tokens of a document. Every token takes a character, so there are at
most as many as characters. -/
def tokens? (s : String) : Option (List Token) := do
  let cs ← uniformLines? (withoutMark s.toList)
  tokensUpTo cs.length cs

end ConsoleBoard.Toml
