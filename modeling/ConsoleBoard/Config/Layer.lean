/-
The text layer under the written form of configurations.

What spells a record out as a TOML document, and finds the record in a
document again, is a library of its own. The configuration hands itself over
and takes a text, or the other way round; whatever is refused there becomes
an error of the configuration, and values are only checked once they have
been read.
-/
import ConsoleBoard.Config.Build

namespace ConsoleBoard.Config

/-- A library that writes and reads configurations. A refusal is its reason in
words. -/
structure TextLayer where
  write : Config → Except String String
  read : String → Except String Config

/-- The text of a configuration, whatever its values. -/
def toText (layer : TextLayer) (c : Config) : Except Error String :=
  (layer.write c).mapError fun _ => .unwritable

/-- Read a text and check the values. -/
def ofText (layer : TextLayer) (text : String) : Except Error Config := do
  let c ← (layer.read text).mapError fun _ => .malformed
  c.validate
  return c

end ConsoleBoard.Config
