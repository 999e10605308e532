/-
The instruction set in groups, for proofs that go through all of it.

A fact about every instruction is proved group by group: the members of a group
are built from the same small actions, so one lemma carries them, and a change
to an instruction touches the lemma of its group alone.
-/
import ConsoleBoard.Z80.Instruction

namespace ConsoleBoard.Z80.Instruction

/-- What an instruction works on. -/
inductive Group
  /-- Nothing, or the state beside the registers. -/
  | control
  /-- A byte operand that the opcode names. -/
  | bytes
  /-- A pair of registers. -/
  | words
  /-- The words on the stack. -/
  | stack
  /-- A itself, or A and a byte that the opcode does not name. -/
  | accumulator
  /-- Two registers, each taking the other's value. -/
  | exchange
  /-- PC, with nothing left on the stack. -/
  | jump
  /-- PC, by way of the stack. -/
  | call
  /-- The ports, or a block of memory. -/
  | transfer
deriving DecidableEq

def group : Instruction → Group
  | nop | halt | di | ei | im _ => .control
  | load _ _ | loadImmediate _ | alu _ _ | increment _ | decrement _
  | bits _ _ => .bytes
  | loadWordImmediate _ | loadWordAbsolute _ | storeWordAbsolute _ | loadSp _ =>
      .words
  | incrementWord _ | decrementWord _ | addWord _ _ | adcWord _ | sbcWord _ =>
      .words
  | push _ | pop _ | exchangeTop _ => .stack
  | loadA _ | storeA _ | loadAAbsolute | storeAAbsolute | aluImmediate _ =>
      .accumulator
  | rotateA _ | daa | cpl | scf | ccf | neg => .accumulator
  | rotateDigitsLeft | rotateDigitsRight => .accumulator
  | storeI | storeR | loadI | loadR => .accumulator
  | exchangeAf | exchangeShadows | exchangeDeHl => .exchange
  | jump | jumpIf _ | jumpPointer _ | jumpRelative | jumpRelativeIf _ | djnz =>
      .jump
  | call | callIf _ | ret | retIf _ | retn | rst _ => .call
  | inputA | outputA | input _ | output _ | block _ _ _ => .transfer

end ConsoleBoard.Z80.Instruction
