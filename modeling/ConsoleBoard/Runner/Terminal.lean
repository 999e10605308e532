/-
What a terminal shows of a text. Output that goes elsewhere is cut down to
that: control characters that are no white space are left out, and so are the
sequences that an escape begins. The text comes as the bytes of its
characters.
-/

namespace ConsoleBoard.Runner

/-- Where a terminal stands in its input. -/
inductive Terminal
  /-- It shows characters. -/
  | text
  /-- Right after an escape. -/
  | escape
  /-- In an escape sequence of several characters. -/
  | intermediate
  /-- In a control sequence, which goes on up to a letter or a like
  character. -/
  | control
  /-- In a command, which a bell ends. -/
  | command
  /-- In a message, which a terminator ends. -/
  | message
deriving DecidableEq

namespace Terminal

/-- Where the terminal stands after one more byte. -/
def next (t : Terminal) (b : UInt8) : Terminal :=
  if b = 0x1B then .escape
  else if b = 0x18 ∨ b = 0x1A then .text
  else
    match t with
    | .text => .text
    | .escape =>
      if 0x20 ≤ b ∧ b ≤ 0x2F then .intermediate
      else if b = 0x5B then .control
      else if b = 0x5D then .command
      else if b = 0x50 ∨ b = 0x58 ∨ b = 0x5E ∨ b = 0x5F then .message
      else if 0x30 ≤ b ∧ b ≤ 0x7E then .text
      else .escape
    | .intermediate => if 0x30 ≤ b ∧ b ≤ 0x7E then .text else .intermediate
    | .control => if 0x40 ≤ b ∧ b ≤ 0x7E then .text else .control
    | .command => if b = 0x07 then .text else .command
    | .message => if b = 0x9C then .text else .message

/-- Tabs, line ends and the like. -/
def isSpacing (b : UInt8) : Bool :=
  b == 0x09 || b == 0x0A || b == 0x0C || b == 0x0D

/-- Whether a byte begins a character that can be seen or moves the place of
the next one. -/
def beginsShown (b : UInt8) : Bool :=
  (0x20 ≤ b && b < 0x7F) || 0xC0 ≤ b || isSpacing b

/-- Whether the terminal shows the character that begins with a byte. It obeys
spacing inside of sequences too. -/
def shows (t : Terminal) (b : UInt8) : Bool :=
  match t with
  | .text => beginsShown b
  | .escape | .intermediate | .control => isSpacing b
  | .command | .message => false

end Terminal

/-- A filter: the terminal up to the last byte that was left out, and whether
bytes are passed on since. -/
structure Filter where
  terminal : Terminal := .text
  passing : Bool := false

namespace Filter

/-- Take a byte while nothing is passed on. -/
def search (f : Filter) (b : UInt8) : Filter :=
  { terminal := f.terminal.next b, passing := f.terminal.shows b }

/-- Take a byte; whether to pass it on is what the filter says afterwards. As
long as bytes are passed on they are taken for text, whatever sequence the
first of them has interrupted; only a character beyond ASCII ends that
sequence. -/
def step (f : Filter) (b : UInt8) : Filter :=
  if f.passing then
    if 0x80 ≤ b then { f with terminal := .text }
    else if Terminal.beginsShown b then f
    else search { f with
      terminal := if b = 0x18 ∨ b = 0x1A then .text else f.terminal } b
  else f.search b

/-- The bytes that a filter passes on. -/
def pass (f : Filter) : List UInt8 → List UInt8
  | [] => []
  | b :: rest =>
    let f := f.step b
    if f.passing then b :: f.pass rest else f.pass rest

end Filter

/-- What a terminal shows of a text. -/
def shown (s : String) : List UInt8 := ({} : Filter).pass s.toUTF8.toList

end ConsoleBoard.Runner
