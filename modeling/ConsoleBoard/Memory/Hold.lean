/-
How a host holds a buffer that it shares with the processor. What the
processor itself does never fails for it; a call of the host that has to
look into a buffer does not return while somebody writes it.
-/

namespace ConsoleBoard

/-- How the host holds a buffer while the processor runs. -/
inductive Hold
  | free
  /-- The host reads it: nobody may write. -/
  | shared
  /-- The host writes it: nobody else may touch it. -/
  | exclusive
deriving DecidableEq

end ConsoleBoard
