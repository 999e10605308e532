/-
Configurations in files.
-/
import ConsoleBoard.Config.Text
import ConsoleBoard.Files

namespace ConsoleBoard.Config

variable {m : Type → Type} [Monad m]

/-- Read a configuration and check its values. -/
def load (files : Files m) (path : String) :
    m (Except ConsoleBoard.Error Config) := do
  match ← files.read path with
  | .error _ => return .error (.config .unreadable)
  | .ok bytes =>
    match String.fromUTF8? bytes with
    | none => return .error (.config .unreadable)
    | some text => return (ofText .toml text).mapError .config

/-- Write a configuration, whatever its values. -/
def save (files : Files m) (path : String) (c : Config) :
    m (Except ConsoleBoard.Error Unit) := do
  match c.toText .toml with
  | .error e => return .error (.config e)
  | .ok text =>
    match ← files.write path text.toUTF8 with
    | .error _ => return .error .file
    | .ok () => return .ok ()

end ConsoleBoard.Config
