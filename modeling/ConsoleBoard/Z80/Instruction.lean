/-
The instruction set as data: operands, instructions, the opcode pages that
name them and their cost. An opcode is read as three fields (bits 7-6, 5-3
and 2-0), and the pages DD and FD are the plain page with another pointer
register, so the index register is a parameter and not a third copy.
-/
import ConsoleBoard.Z80.Alu
import ConsoleBoard.Z80.Cpu

namespace ConsoleBoard.Z80

-- ================================================================ operands

/-- A byte register as an operand. H and L are the halves of the pointer
pair, and so are the undocumented halves of IX and IY. -/
inductive ByteReg
  | a | b | c | d | e
  | high (x : Index)
  | low (x : Index)
deriving DecidableEq

/-- A byte operand: a register, or the byte that the pointer names. -/
inductive Operand
  | reg (r : ByteReg)
  | memory (x : Index)
deriving DecidableEq

/-- A word operand of loads and arithmetic. -/
inductive WordReg
  | bc | de | sp
  | pointer (x : Index)
deriving DecidableEq

/-- A word operand of PUSH and POP. -/
inductive StackReg
  | bc | de | af
  | pointer (x : Index)
deriving DecidableEq

/-- The pairs that address memory for A alone. -/
inductive AddressPair
  | bc | de
deriving DecidableEq

/-- A test of one flag. -/
inductive Condition
  | nz | z | nc | c | po | pe | p | m
deriving DecidableEq

def Condition.holds (f : Flags) : Condition → Bool
  | nz => !f.z
  | z => f.z
  | nc => !f.c
  | c => f.c
  | po => !f.p
  | pe => f.p
  | p => !f.s
  | m => f.s

/-- An operation of the CB page. -/
inductive BitOp
  | shift (op : Alu.Shift)
  | test (n : Fin 8)
  | reset (n : Fin 8)
  | set (n : Fin 8)
deriving DecidableEq

/-- The way a block instruction moves through memory. -/
inductive Direction
  | up | down
deriving DecidableEq

/-- What a block instruction does with each byte. -/
inductive BlockAction
  | load | compare | input | output
deriving DecidableEq

namespace Registers

def get (regs : Registers) : ByteReg → UInt8
  | .a => regs.a
  | .b => regs.bc.high
  | .c => regs.bc.low
  | .d => regs.de.high
  | .e => regs.de.low
  | .high x => (regs.index x).high
  | .low x => (regs.index x).low

def set (regs : Registers) (v : UInt8) : ByteReg → Registers
  | .a => { regs with a := v }
  | .b => { regs with bc := { regs.bc with high := v } }
  | .c => { regs with bc := { regs.bc with low := v } }
  | .d => { regs with de := { regs.de with high := v } }
  | .e => { regs with de := { regs.de with low := v } }
  | .high x => regs.setIndex x { regs.index x with high := v }
  | .low x => regs.setIndex x { regs.index x with low := v }

def getWord (regs : Registers) : WordReg → UInt16
  | .bc => regs.bc.toWord
  | .de => regs.de.toWord
  | .sp => regs.sp
  | .pointer x => (regs.index x).toWord

def putWord (regs : Registers) (w : UInt16) : WordReg → Registers
  | .bc => { regs with bc := Pair.ofWord w }
  | .de => { regs with de := Pair.ofWord w }
  | .sp => { regs with sp := w }
  | .pointer x => regs.setIndex x (Pair.ofWord w)

def getStacked (regs : Registers) : StackReg → UInt16
  | .bc => regs.bc.toWord
  | .de => regs.de.toWord
  | .af => regs.af
  | .pointer x => (regs.index x).toWord

def putStacked (regs : Registers) (w : UInt16) : StackReg → Registers
  | .bc => { regs with bc := Pair.ofWord w }
  | .de => { regs with de := Pair.ofWord w }
  | .af => regs.setAf w
  | .pointer x => regs.setIndex x (Pair.ofWord w)

def getAddress (regs : Registers) : AddressPair → UInt16
  | .bc => regs.bc.toWord
  | .de => regs.de.toWord

end Registers

-- ============================================================ instructions

/-- One instruction. Immediate operands are not part of it: they are fetched
while it runs. -/
inductive Instruction
  | nop
  | halt
  | di
  | ei
  | im (mode : InterruptMode)
  /-- `LD dst,src` between byte operands. -/
  | load (dst src : Operand)
  | loadImmediate (dst : Operand)
  /-- `LD A,(BC)` or `LD A,(DE)`. -/
  | loadA (source : AddressPair)
  | storeA (target : AddressPair)
  /-- `LD A,(nn)`. -/
  | loadAAbsolute
  | storeAAbsolute
  | loadWordImmediate (dst : WordReg)
  /-- `LD rr,(nn)`. -/
  | loadWordAbsolute (dst : WordReg)
  | storeWordAbsolute (src : WordReg)
  | loadSp (x : Index)
  | push (r : StackReg)
  | pop (r : StackReg)
  | exchangeAf
  /-- `EXX`. -/
  | exchangeShadows
  | exchangeDeHl
  /-- `EX (SP),HL`. -/
  | exchangeTop (x : Index)
  | alu (op : Alu.Op) (src : Operand)
  | aluImmediate (op : Alu.Op)
  | increment (o : Operand)
  | decrement (o : Operand)
  | incrementWord (w : WordReg)
  | decrementWord (w : WordReg)
  | addWord (x : Index) (w : WordReg)
  /-- `ADC HL,rr`. -/
  | adcWord (w : WordReg)
  | sbcWord (w : WordReg)
  /-- `RLCA`, `RRCA`, `RLA`, `RRA`. -/
  | rotateA (op : Alu.Shift)
  | daa
  | cpl
  | scf
  | ccf
  | neg
  /-- `RLD`. -/
  | rotateDigitsLeft
  | rotateDigitsRight
  | bits (op : BitOp) (o : Operand)
  | jump
  | jumpIf (cc : Condition)
  /-- `JP (HL)`. -/
  | jumpPointer (x : Index)
  | jumpRelative
  | jumpRelativeIf (cc : Condition)
  | djnz
  | call
  | callIf (cc : Condition)
  | ret
  | retIf (cc : Condition)
  /-- `RETN` and `RETI`, which differ in nothing here. -/
  | retn
  | rst (n : Fin 8)
  /-- `LD I,A`. -/
  | storeI
  | storeR
  /-- `LD A,I`. -/
  | loadI
  | loadR
  /-- `IN A,(n)`. -/
  | inputA
  | outputA
  /-- `IN r,(C)`, or without a register the form that only sets flags. -/
  | input (dst : Option ByteReg)
  /-- `OUT (C),r`, or without a register the form that writes zero. -/
  | output (src : Option ByteReg)
  | block (action : BlockAction) (direction : Direction) (repeats : Bool)

-- =========================================================== opcode fields

/-- Bits 7-6 of an opcode. -/
def quarter (op : UInt8) : Fin 4 :=
  ⟨op.toNat / 64, by have := op.toNat_lt; omega⟩

/-- Bits 5-3 of an opcode. -/
def row (op : UInt8) : Fin 8 := ⟨op.toNat / 8 % 8, by omega⟩

/-- Bits 2-0 of an opcode. -/
def column (op : UInt8) : Fin 8 := ⟨op.toNat % 8, by omega⟩

/-- A register by its three bits; six has no register. -/
def ByteReg.ofCode? (x : Index) : Fin 8 → Option ByteReg
  | 0 => some .b
  | 1 => some .c
  | 2 => some .d
  | 3 => some .e
  | 4 => some (.high x)
  | 5 => some (.low x)
  | 6 => none
  | 7 => some .a

/-- An operand by its three bits; six is the byte behind the pointer. -/
def Operand.ofCode (x : Index) (code : Fin 8) : Operand :=
  match ByteReg.ofCode? x code with
  | some r => .reg r
  | none => .memory x

def Condition.ofCode : Fin 8 → Condition
  | 0 => .nz
  | 1 => .z
  | 2 => .nc
  | 3 => .c
  | 4 => .po
  | 5 => .pe
  | 6 => .p
  | 7 => .m

def Alu.Op.ofCode : Fin 8 → Alu.Op
  | 0 => .add
  | 1 => .adc
  | 2 => .sub
  | 3 => .sbc
  | 4 => .and
  | 5 => .xor
  | 6 => .or
  | 7 => .cp

def Alu.Shift.ofCode : Fin 8 → Alu.Shift
  | 0 => .rlc
  | 1 => .rrc
  | 2 => .rl
  | 3 => .rr
  | 4 => .sla
  | 5 => .sra
  | 6 => .sll
  | 7 => .srl

def BlockAction.ofCode? : Fin 8 → Option BlockAction
  | 0 => some .load
  | 1 => some .compare
  | 2 => some .input
  | 3 => some .output
  | _ => none

def BitOp.ofOpcode (op : UInt8) : BitOp :=
  match quarter op with
  | 0 => .shift (Alu.Shift.ofCode (row op))
  | 1 => .test (row op)
  | 2 => .reset (row op)
  | 3 => .set (row op)

namespace Instruction

-- ============================================================ opcode pages

/-- `LD r,r'`. The place of `LD (HL),(HL)` is HALT, and beside a memory
operand H and L are the real ones under every pointer. -/
def loadOfCodes (x : Index) (dst src : Fin 8) : Instruction :=
  match ByteReg.ofCode? x dst, ByteReg.ofCode? x src with
  | none, none => .halt
  | none, some _ => .load (.memory x) (Operand.ofCode .hl src)
  | some _, none => .load (Operand.ofCode .hl dst) (.memory x)
  | some dstReg, some srcReg => .load (.reg dstReg) (.reg srcReg)

/-- The first quarter of the plain page. -/
def ofFirst (x : Index) (row column : Fin 8) : Instruction :=
  match column, row with
  | 0, 0 => .nop
  | 0, 1 => .exchangeAf
  | 0, 2 => .djnz
  | 0, 3 => .jumpRelative
  | 0, 4 => .jumpRelativeIf .nz
  | 0, 5 => .jumpRelativeIf .z
  | 0, 6 => .jumpRelativeIf .nc
  | 0, 7 => .jumpRelativeIf .c
  | 1, 0 => .loadWordImmediate .bc
  | 1, 1 => .addWord x .bc
  | 1, 2 => .loadWordImmediate .de
  | 1, 3 => .addWord x .de
  | 1, 4 => .loadWordImmediate (.pointer x)
  | 1, 5 => .addWord x (.pointer x)
  | 1, 6 => .loadWordImmediate .sp
  | 1, 7 => .addWord x .sp
  | 2, 0 => .storeA .bc
  | 2, 1 => .loadA .bc
  | 2, 2 => .storeA .de
  | 2, 3 => .loadA .de
  | 2, 4 => .storeWordAbsolute (.pointer x)
  | 2, 5 => .loadWordAbsolute (.pointer x)
  | 2, 6 => .storeAAbsolute
  | 2, 7 => .loadAAbsolute
  | 3, 0 => .incrementWord .bc
  | 3, 1 => .decrementWord .bc
  | 3, 2 => .incrementWord .de
  | 3, 3 => .decrementWord .de
  | 3, 4 => .incrementWord (.pointer x)
  | 3, 5 => .decrementWord (.pointer x)
  | 3, 6 => .incrementWord .sp
  | 3, 7 => .decrementWord .sp
  | 4, o => .increment (Operand.ofCode x o)
  | 5, o => .decrement (Operand.ofCode x o)
  | 6, o => .loadImmediate (Operand.ofCode x o)
  | 7, 0 => .rotateA .rlc
  | 7, 1 => .rotateA .rrc
  | 7, 2 => .rotateA .rl
  | 7, 3 => .rotateA .rr
  | 7, 4 => .daa
  | 7, 5 => .cpl
  | 7, 6 => .scf
  | 7, 7 => .ccf

/-- The last quarter of the plain page. The four places that lead to other
pages stand for no operation. -/
def ofLast (x : Index) (row column : Fin 8) : Instruction :=
  match column, row with
  | 0, cc => .retIf (Condition.ofCode cc)
  | 1, 0 => .pop .bc
  | 1, 1 => .ret
  | 1, 2 => .pop .de
  | 1, 3 => .exchangeShadows
  | 1, 4 => .pop (.pointer x)
  | 1, 5 => .jumpPointer x
  | 1, 6 => .pop .af
  | 1, 7 => .loadSp x
  | 2, cc => .jumpIf (Condition.ofCode cc)
  | 3, 0 => .jump
  | 3, 1 => .nop
  | 3, 2 => .outputA
  | 3, 3 => .inputA
  | 3, 4 => .exchangeTop x
  | 3, 5 => .exchangeDeHl
  | 3, 6 => .di
  | 3, 7 => .ei
  | 4, cc => .callIf (Condition.ofCode cc)
  | 5, 0 => .push .bc
  | 5, 1 => .call
  | 5, 2 => .push .de
  | 5, 4 => .push (.pointer x)
  | 5, 6 => .push .af
  | 5, _ => .nop
  | 6, op => .aluImmediate (Alu.Op.ofCode op)
  | 7, n => .rst n

/-- The plain page, with `x` as the pointer register. -/
def ofOpcode (x : Index) (op : UInt8) : Instruction :=
  match quarter op with
  | 0 => ofFirst x (row op) (column op)
  | 1 => loadOfCodes x (row op) (column op)
  | 2 => .alu (Alu.Op.ofCode (row op)) (Operand.ofCode x (column op))
  | 3 => ofLast x (row op) (column op)

/-- The page behind CB. -/
def ofBitOpcode (op : UInt8) : Instruction :=
  .bits (BitOp.ofOpcode op) (Operand.ofCode .hl (column op))

/-- The word register of an ED opcode, from its row. -/
def extendedWord (row : Fin 8) : WordReg :=
  match row with
  | 0 | 1 => .bc
  | 2 | 3 => .de
  | 4 | 5 => .pointer .hl
  | 6 | 7 => .sp

/-- The second quarter of the page behind ED. -/
def ofExtendedRow (row column : Fin 8) : Instruction :=
  match column, row with
  | 0, r => .input (ByteReg.ofCode? .hl r)
  | 1, r => .output (ByteReg.ofCode? .hl r)
  | 2, r =>
      if r.val % 2 = 0 then .sbcWord (extendedWord r)
      else .adcWord (extendedWord r)
  | 3, r =>
    if r.val % 2 = 0 then .storeWordAbsolute (extendedWord r)
    else .loadWordAbsolute (extendedWord r)
  | 4, _ => .neg
  | 5, _ => .retn
  | 6, 2 | 6, 6 => .im .one
  | 6, 3 | 6, 7 => .im .two
  | 6, _ => .im .zero
  | 7, 0 => .storeI
  | 7, 1 => .storeR
  | 7, 2 => .loadI
  | 7, 3 => .loadR
  | 7, 4 => .rotateDigitsRight
  | 7, 5 => .rotateDigitsLeft
  | 7, _ => .nop

/-- The third quarter of the page behind ED: the block instructions. -/
def ofBlockRow (row column : Fin 8) : Instruction :=
  match BlockAction.ofCode? column, row with
  | some action, 4 => .block action .up false
  | some action, 5 => .block action .down false
  | some action, 6 => .block action .up true
  | some action, 7 => .block action .down true
  | _, _ => .nop

/-- The page behind ED; what it does not define does nothing. -/
def ofExtendedOpcode (op : UInt8) : Instruction :=
  match quarter op with
  | 1 => ofExtendedRow (row op) (column op)
  | 2 => ofBlockRow (row op) (column op)
  | _ => .nop

-- ==================================================================== cost

/-- A cost that depends on the operand: in a register, behind HL, or behind
an index register, whose displacement takes time of its own. -/
def operandCost (register plain indexed : Nat) : Operand → Nat
  | .reg _ => register
  | .memory .hl => plain
  | .memory _ => indexed

/-- T-states of an instruction without the page byte before its opcode. For
conditional instructions this is the cost of not going on. -/
def cost : Instruction → Nat
  | nop | halt | di | ei | im _ => 4
  | load (.memory x) _ => operandCost 4 7 15 (.memory x)
  | load _ src => operandCost 4 7 15 src
  | loadImmediate dst => operandCost 7 10 15 dst
  | loadA _ | storeA _ => 7
  | loadAAbsolute | storeAAbsolute => 13
  | loadWordImmediate _ => 10
  | loadWordAbsolute _ | storeWordAbsolute _ => 16
  | loadSp _ => 6
  | push _ => 11
  | pop _ => 10
  | exchangeAf | exchangeShadows | exchangeDeHl => 4
  | exchangeTop _ => 19
  | alu _ src => operandCost 4 7 15 src
  | aluImmediate _ => 7
  | increment o | decrement o => operandCost 4 11 19 o
  | incrementWord _ | decrementWord _ => 6
  | addWord _ _ | adcWord _ | sbcWord _ => 11
  | rotateA _ | daa | cpl | scf | ccf | neg => 4
  | rotateDigitsLeft | rotateDigitsRight => 14
  | bits (.test _) o => operandCost 4 8 12 o
  | bits _ o => operandCost 4 11 15 o
  | jump | jumpIf _ => 10
  | jumpPointer _ => 4
  | jumpRelative => 12
  | jumpRelativeIf _ => 7
  | djnz => 8
  | call => 17
  | callIf _ => 10
  | ret => 10
  | retIf _ => 5
  | retn => 10
  | rst _ => 11
  | storeI | storeR | loadI | loadR => 5
  | inputA | outputA => 11
  | input _ | output _ => 8
  | block _ _ _ => 12

/-- Extra T-states of a relative jump that is taken. -/
def jumpTaken : Nat := 5

/-- Extra T-states of a conditional call that is taken. -/
def callTaken : Nat := 7

/-- Extra T-states of a conditional return that is taken. -/
def returnTaken : Nat := 6

/-- Extra T-states of a block instruction that runs again. -/
def blockRepeat : Nat := 5

end Instruction

end ConsoleBoard.Z80
