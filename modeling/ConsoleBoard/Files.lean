/-
Where files are kept. The library reads and writes whole files and leaves to
its host what a path means, so it can run on a real disk and on a list of
texts alike.
-/

namespace ConsoleBoard

/-- Access to files by path. A refusal is the reason in words. -/
structure Files (m : Type → Type) where
  read : String → m (Except String ByteArray)
  write : String → ByteArray → m (Except String Unit)

end ConsoleBoard
