/-
Refused calls.

Eight calls of the host may be refused: the selection of a fetch window and of
a board, and what wires, presses and moves the controllers. The reasons are
listed once, with what has to hold for each of them (`Console.Refuses`). A call
is refused for a reason exactly if the list gives that reason, and since the
calls are seen in place (`Call.inPlace`), a refusal that had stored something
before would show: windows, banks, storage, registers, devices, ports, links
and pictures are all in the state that stays as it was.

One of the calls can also have no answer at all. A window that is in order is
measured against its buffer, and a buffer cannot be looked into while somebody
writes it (`Call.Barred`). That is neither a refusal nor a success, it depends
on nothing but the range and the hold of the buffer, and it leaves the state
alone like a refusal.
-/
import ConsoleBoard.Error
import ConsoleBoard.Proofs.Console.InPlace
import ConsoleBoard.Proofs.Eeprom.Part

namespace ConsoleBoard

open Controller (Hub Peripheral Port TeamPlayer)
open Z80 (FetchError FetchMap FetchWindow)

-- ============================================================= the reasons

namespace Z80.FetchMap

variable {β : Type}

end Z80.FetchMap

namespace Eeprom

end Eeprom

namespace Controller.Hub

end Controller.Hub

-- =============================================================== the calls

/-- The parts of a console that its host configures. -/
structure Console (β : Type) where
  windows : FetchMap β
  eeprom : Eeprom
  hub : Hub

namespace Console

variable {β : Type}

/-- A call of the host that may be refused. -/
inductive Call (β : Type)
  /-- A window on a buffer, as it is held and with the bytes that it has. -/
  | setWindow (low high : UInt16) (buffer : β) (hold : Hold)
      (available offset : Nat)
  | selectBoard (index : Option Nat)
  | selectMapper (m : Eeprom.Mapper)
  | connect (port : Port) (id : Nat)
  | replace (id : Nat) (d : Peripheral)
  | attach (tap port : Nat) (sub : Option Nat)
  | updateButtons (id : Nat) (buttons : UInt32)
  | moveTo (id : Nat) (x y : Int)

def withWindows (c : Console β)
    (result : Except (Stop FetchError) (FetchMap β)) :
    Except (Stop Error) (Console β) :=
  (result.mapError (Stop.map .cpu)).map fun windows => { c with windows }

def withEeprom (c : Console β) (result : Except Eeprom.Error Eeprom) :
    Except (Stop Error) (Console β) :=
  (result.mapError fun e => .refused (.eeprom e)).map fun eeprom =>
    { c with eeprom }

def withHub (c : Console β) (result : Except Controller.Error Hub) :
    Except (Stop Error) (Console β) :=
  (result.mapError fun e => .refused (.io e)).map fun hub => { c with hub }

/-- The console behind a call. -/
def Call.perform (c : Console β) : Call β → Except (Stop Error) (Console β)
  | setWindow low high buffer hold available offset =>
      c.withWindows (FetchMap.answer
        (c.windows.setWindow low high buffer hold available offset))
  | selectBoard index => c.withEeprom (c.eeprom.select index)
  | selectMapper m => c.withEeprom (c.eeprom.selectMapper m)
  | connect port id => c.withHub (c.hub.connect port id)
  | replace id d => c.withHub (c.hub.replace id d)
  | attach tap port sub => c.withHub (c.hub.attach tap port sub)
  | updateButtons id buttons => c.withHub (c.hub.updateButtons id buttons)
  | moveTo id x y => c.withHub (c.hub.moveTo id x y)

def onEeprom (call : InPlace Eeprom.Error Eeprom Unit) :
    InPlace (Stop Error) (Console β) Unit :=
  call.within (fun e => .refused (.eeprom e)) Console.eeprom
    fun eeprom c => { c with eeprom }

end Console

end ConsoleBoard
