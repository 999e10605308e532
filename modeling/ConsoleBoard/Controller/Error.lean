/-
Why the controller ports refuse a call of the host. The console's own reads
and writes are never refused.
-/

namespace ConsoleBoard.Controller

/-- A refused call. -/
inductive Error
  | invalidPort (port : Nat)
  | invalidDevice (id : Nat)
  | virtualPortOutOfRange (port count : Nat)
  | selfReference (id : Nat)
deriving DecidableEq

def Error.message : Error → String
  | invalidPort port => "Invalid physical port: " ++ toString port
  | invalidDevice id => "Invalid device id: " ++ toString id
  | virtualPortOutOfRange port count =>
    "Multitap port " ++ toString port ++ " out of range (device has "
      ++ toString count
      ++ " ports)"
  | selfReference id =>
      "Device " ++ toString id ++ " cannot be chained to itself"

end ConsoleBoard.Controller
