/-
Reading TOML. The reader takes tokens from the front; its loops are bounded
by the number of tokens, since each round takes at least one. A document
gives a list of statements, and what they mean together is for the tables
under construction to say.
-/
import ConsoleBoard.Toml.Scalar
import ConsoleBoard.Toml.Table
import ConsoleBoard.Toml.Token

namespace ConsoleBoard.Toml

/-- So deep may values be nested, and so many parts may a key have. -/
def depthLimit : Nat := 80

/-- A reader of tokens. -/
abbrev Reader := StateT (List Token) Option

namespace Reader

/-- Take the next token. -/
def next : Reader Token := fun tokens =>
  match tokens with
  | [] => none
  | token :: rest => some (token, rest)

/-- Take a character of the grammar if it is next. -/
def accept (c : Char) : Reader Bool := fun tokens =>
  match tokens with
  | .mark d :: rest => if d = c then some (true, rest) else some (false, tokens)
  | _ => some (false, tokens)

/-- Take a character of the grammar that must be next. -/
def expect (c : Char) : Reader Unit := do
  if ← accept c then return () else failure

/-- Pass over blanks. -/
def skipBlanks : Reader Unit := modify fun tokens =>
  tokens.dropWhile fun t => match t with
    | .blank _ => true
    | _ => false

/-- Pass over blanks and line ends. -/
def skipSpace : Reader Unit := modify fun tokens =>
  tokens.dropWhile fun t => match t with
    | .blank _ | .lineEnd => true
    | _ => false

/-- Whether nothing is left. -/
def done : Reader Bool := fun tokens => some (tokens.isEmpty, tokens)

-- ==================================================================== keys

/-- Whether a character may stand in a key without quotes. -/
def isBareKeyChar (c : Char) : Bool := c.isAlphanum || c == '_' || c == '-'

/-- A part of a key. -/
def keyPart : Reader String := do
  match ← next with
  | .word cs =>
      if cs.all isBareKeyChar then return String.ofList cs else failure
  | .line s => return s
  | _ => failure

/-- A key of at most `limit` parts, with the blanks around its parts. `path`
holds the parts so far from the back. -/
def keyUpTo (path : List String) : (limit : Nat) → Reader Key
  | 0 => failure
  | limit + 1 => do
    skipBlanks
    let part ← keyPart
    skipBlanks
    if ← accept '.' then keyUpTo (part :: path) limit
    else return { path := path.reverse, last := part }

def key : Reader Key := keyUpTo [] depthLimit

-- ================================================================== values

/-- The words and points that come next, with the blanks between them. -/
def joined : List Token → List Char × List Token
  | .word cs :: rest => (cs ++ (joined rest).1, (joined rest).2)
  | .mark '.' :: rest => ('.' :: (joined rest).1, (joined rest).2)
  | .blank width :: rest =>
    match joined rest with
    | ([], _) => ([], .blank width :: rest)
    | (more, after) => (width ++ more, after)
  | rest => ([], rest)

/-- The value that a word begins. Whatever follows it up to another sign of the
grammar belongs to it, so that a date and a time may have a space between
them. -/
def scalar (cs : List Char) : Reader Toml := fun tokens =>
  let (more, rest) := joined tokens
  (scalar? (cs ++ more)).map fun v => (v, rest)

mutual

def value : Nat → Reader Toml
  | 0 => failure
  | fuel + 1 => do
    match ← next with
    | .line s | .block s => return .text s
    | .word cs => scalar cs
    | .mark '[' => return .array (← items fuel)
    | .mark '{' =>
      let statements :=
        (← members fuel).map fun (key, v) => Statement.assign key v
      match ofStatements? statements with
      | some v => return v
      | none => failure
    | _ => failure

/-- The items of an array, and its end. -/
def items : Nat → Reader (List Toml)
  | 0 => failure
  | fuel + 1 => do
    skipSpace
    if ← accept ']' then return []
    let v ← value fuel
    skipSpace
    if ← accept ',' then return v :: (← items fuel)
    expect ']'
    return [v]

/-- The members of a table that is written as a value, and its end. Between
its parts lines may end anywhere. -/
def members : Nat → Reader (List (Key × Toml))
  | 0 => failure
  | fuel + 1 => do
    skipSpace
    if ← accept '}' then return []
    let k ← key
    skipSpace
    expect '='
    skipSpace
    let v ← value fuel
    skipSpace
    if ← accept ',' then return (k, v) :: (← members fuel)
    expect '}'
    return [(k, v)]

end

-- =============================================================== documents

/-- A header or an assignment. -/
def statement (fuel : Nat) : Reader Statement := do
  if ← accept '[' then
    if ← accept '[' then
      let k ← key
      expect ']'
      expect ']'
      return .element k
    else
      let k ← key
      expect ']'
      return .table k
  else
    let k ← key
    expect '='
    skipBlanks
    return .assign k (← value fuel)

/-- The end of a line, or of the document. -/
def lineEnd : Reader Unit := do
  skipBlanks
  if ← done then return ()
  match ← next with
  | .lineEnd => return ()
  | _ => failure

/-- The statements of a document, at most `fuel` of them. -/
def statements : Nat → Reader (List Statement)
  | 0 => do
    skipSpace
    if ← done then return [] else failure
  | fuel + 1 => do
    skipSpace
    if ← done then return []
    let s ← statement (fuel + 1)
    lineEnd
    return s :: (← statements fuel)

end Reader

/-- How deep brackets and braces nest, from a depth on. -/
def depthFrom (depth : Nat) : List Token → Nat
  | [] => depth
  | .mark c :: rest =>
    if c = '[' ∨ c = '{' then max depth (depthFrom (depth + 1) rest)
    else if c = ']' ∨ c = '}' then max depth (depthFrom (depth - 1) rest)
    else depthFrom depth rest
  | _ :: rest => depthFrom depth rest

/-- The table that a document writes. -/
def parse? (s : String) : Option Toml := do
  let tokens ← tokens? s
  if depthLimit < depthFrom 0 tokens then none
  let (statements, _) ← (Reader.statements tokens.length).run tokens
  ofStatements? statements

end ConsoleBoard.Toml
