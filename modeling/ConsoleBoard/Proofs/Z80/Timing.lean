/-
The listed costs, opcode by opcode.

Data sheets print what an instruction takes as a table for each page of
opcodes, with the page byte counted in. Here the cost belongs to the decoded
instruction (`Instruction.cost`), and the page byte is charged beside it
(`pageCost`). The tables are written out below, and the two agree wherever a
table is consulted: on every opcode that does not lead to another page. So an
instruction run by the tables and one run by its own cost are the same program
(`dispatch_listed`).

The pages DD and FD share one table, since only the pointer register is
another. Two pages need no table: behind CB only the byte behind HL is dearer,
and behind both prefixes only BIT is cheaper.

What a taken branch or a repeated block instruction adds is not in the tables;
it is what `Instruction.execute` returns.
-/
import ConsoleBoard.Proofs.Z80.Prefixed

namespace ConsoleBoard.Z80

namespace Timing

-- ============================================================== the tables

/-- The plain page, sixteen opcodes a row. The entries of the four page bytes
are never consulted, here and in the other tables. -/
def plainTable : List Nat := [
   4, 10,  7,  6,  4,  4,  7,  4,  4, 11,  7,  6,  4,  4,  7,  4,
   8, 10,  7,  6,  4,  4,  7,  4, 12, 11,  7,  6,  4,  4,  7,  4,
   7, 10, 16,  6,  4,  4,  7,  4,  7, 11, 16,  6,  4,  4,  7,  4,
   7, 10, 13,  6, 11, 11, 10,  4,  7, 11, 13,  6,  4,  4,  7,  4,
   4,  4,  4,  4,  4,  4,  7,  4,  4,  4,  4,  4,  4,  4,  7,  4,
   4,  4,  4,  4,  4,  4,  7,  4,  4,  4,  4,  4,  4,  4,  7,  4,
   4,  4,  4,  4,  4,  4,  7,  4,  4,  4,  4,  4,  4,  4,  7,  4,
   7,  7,  7,  7,  7,  7,  4,  7,  4,  4,  4,  4,  4,  4,  7,  4,
   4,  4,  4,  4,  4,  4,  7,  4,  4,  4,  4,  4,  4,  4,  7,  4,
   4,  4,  4,  4,  4,  4,  7,  4,  4,  4,  4,  4,  4,  4,  7,  4,
   4,  4,  4,  4,  4,  4,  7,  4,  4,  4,  4,  4,  4,  4,  7,  4,
   4,  4,  4,  4,  4,  4,  7,  4,  4,  4,  4,  4,  4,  4,  7,  4,
   5, 10, 10, 10, 10, 11,  7, 11,  5, 10, 10,  0, 10, 17,  7, 11,
   5, 10, 10, 11, 10, 11,  7, 11,  5,  4, 10, 11, 10,  0,  7, 11,
   5, 10, 10, 19, 10, 11,  7, 11,  5,  4, 10,  4, 10,  0,  7, 11,
   5, 10, 10,  4, 10, 11,  7, 11,  5,  6, 10,  4, 10,  0,  7, 11]

/-- The page behind ED. What it does not define takes 8. -/
def extendedTable : List Nat := [
   8,  8,  8,  8,  8,  8,  8,  8,  8,  8,  8,  8,  8,  8,  8,  8,
   8,  8,  8,  8,  8,  8,  8,  8,  8,  8,  8,  8,  8,  8,  8,  8,
   8,  8,  8,  8,  8,  8,  8,  8,  8,  8,  8,  8,  8,  8,  8,  8,
   8,  8,  8,  8,  8,  8,  8,  8,  8,  8,  8,  8,  8,  8,  8,  8,
  12, 12, 15, 20,  8, 14,  8,  9, 12, 12, 15, 20,  8, 14,  8,  9,
  12, 12, 15, 20,  8, 14,  8,  9, 12, 12, 15, 20,  8, 14,  8,  9,
  12, 12, 15, 20,  8, 14,  8, 18, 12, 12, 15, 20,  8, 14,  8, 18,
  12, 12, 15, 20,  8, 14,  8,  8, 12, 12, 15, 20,  8, 14,  8,  8,
   8,  8,  8,  8,  8,  8,  8,  8,  8,  8,  8,  8,  8,  8,  8,  8,
   8,  8,  8,  8,  8,  8,  8,  8,  8,  8,  8,  8,  8,  8,  8,  8,
  16, 16, 16, 16,  8,  8,  8,  8, 16, 16, 16, 16,  8,  8,  8,  8,
  16, 16, 16, 16,  8,  8,  8,  8, 16, 16, 16, 16,  8,  8,  8,  8,
   8,  8,  8,  8,  8,  8,  8,  8,  8,  8,  8,  8,  8,  8,  8,  8,
   8,  8,  8,  8,  8,  8,  8,  8,  8,  8,  8,  8,  8,  8,  8,  8,
   8,  8,  8,  8,  8,  8,  8,  8,  8,  8,  8,  8,  8,  8,  8,  8,
   8,  8,  8,  8,  8,  8,  8,  8,  8,  8,  8,  8,  8,  8,  8,  8]

/-- The pages behind DD and FD. -/
def indexedTable : List Nat := [
   8, 14, 11, 10,  8,  8, 11,  8,  8, 15, 11, 10,  8,  8, 11,  8,
  12, 14, 11, 10,  8,  8, 11,  8, 16, 15, 11, 10,  8,  8, 11,  8,
  11, 14, 20, 10,  8,  8, 11,  8, 11, 15, 20, 10,  8,  8, 11,  8,
  11, 14, 17, 10, 23, 23, 19,  8, 11, 15, 17, 10,  8,  8, 11,  8,
   8,  8,  8,  8,  8,  8, 19,  8,  8,  8,  8,  8,  8,  8, 19,  8,
   8,  8,  8,  8,  8,  8, 19,  8,  8,  8,  8,  8,  8,  8, 19,  8,
   8,  8,  8,  8,  8,  8, 19,  8,  8,  8,  8,  8,  8,  8, 19,  8,
  19, 19, 19, 19, 19, 19,  8, 19,  8,  8,  8,  8,  8,  8, 19,  8,
   8,  8,  8,  8,  8,  8, 19,  8,  8,  8,  8,  8,  8,  8, 19,  8,
   8,  8,  8,  8,  8,  8, 19,  8,  8,  8,  8,  8,  8,  8, 19,  8,
   8,  8,  8,  8,  8,  8, 19,  8,  8,  8,  8,  8,  8,  8, 19,  8,
   8,  8,  8,  8,  8,  8, 19,  8,  8,  8,  8,  8,  8,  8, 19,  8,
   9, 14, 14, 14, 14, 15, 11, 15,  9, 14, 14,  0, 14, 21, 11, 15,
   9, 14, 14, 15, 14, 15, 11, 15,  9,  8, 14, 15, 14,  4, 11, 15,
   9, 14, 14, 23, 14, 15, 11, 15,  9,  8, 14,  8, 14,  4, 11, 15,
   9, 14, 14,  8, 14, 15, 11, 15,  9, 10, 14,  8, 14,  4, 11, 15]

/-- The cost at an opcode. -/
def entry (table : List Nat) (op : UInt8) : Nat := table.getD op.toNat 0

/-- The page behind CB, where only the byte behind HL is dearer. -/
def bits (op : UInt8) : Nat :=
  if op &&& 7 = 6 then if 0x40 ≤ op ∧ op < 0x80 then 12 else 15 else 8

/-- The doubly prefixed page. -/
def indexedBits (op : UInt8) : Nat := if 0x40 ≤ op ∧ op < 0x80 then 20 else 23

-- =============================================================== agreement

/-- The entries of the plain page, looked up one by one. -/
private theorem plainTable_entries :
    ∀ n : Fin 256, UInt8.ofFin n ∉ pageOpcodes →
    (Instruction.ofOpcode .hl (UInt8.ofFin n)).cost
      = entry plainTable (UInt8.ofFin n) := by decide +kernel

private theorem bits_entries : ∀ n : Fin 256,
    pageCost + (Instruction.ofBitOpcode (UInt8.ofFin n)).cost
      = bits (UInt8.ofFin n) := by decide +kernel

private theorem extendedTable_entries : ∀ n : Fin 256,
    pageCost + (Instruction.ofExtendedOpcode (UInt8.ofFin n)).cost
      = entry extendedTable (UInt8.ofFin n) := by decide +kernel

private theorem indexedTable_entries :
    ∀ n : Fin 256, UInt8.ofFin n ∉ pageOpcodes →
    pageCost + (Instruction.ofOpcode .ix (UInt8.ofFin n)).cost
        = entry indexedTable (UInt8.ofFin n)
      ∧ pageCost + (Instruction.ofOpcode .iy (UInt8.ofFin n)).cost
        = entry indexedTable (UInt8.ofFin n) := by decide +kernel

private theorem indexedBits_entries : ∀ n : Fin 256,
    2 * pageCost
      + (Instruction.bits (BitOp.ofOpcode (UInt8.ofFin n)) (.memory .ix)).cost
        = indexedBits (UInt8.ofFin n)
      ∧ 2 * pageCost
          + (Instruction.bits (BitOp.ofOpcode (UInt8.ofFin n))
            (.memory .iy)).cost
        = indexedBits (UInt8.ofFin n) := by decide +kernel

/-- On the plain page the cost is the listed one. -/
theorem cost_plain {op : UInt8} (h : op ∉ pageOpcodes) :
    (Instruction.ofOpcode .hl op).cost = entry plainTable op :=
  plainTable_entries op.toFin h

/-- Behind CB, with the page byte. -/
theorem cost_bits (op : UInt8) :
    pageCost + (Instruction.ofBitOpcode op).cost = bits op :=
  bits_entries op.toFin

/-- Behind ED, with the page byte. -/
theorem cost_extended (op : UInt8) :
    pageCost + (Instruction.ofExtendedOpcode op).cost
      = entry extendedTable op :=
  extendedTable_entries op.toFin

/-- Behind DD and FD, with the page byte: one table serves both registers. -/
theorem cost_indexed {x : Index} (hx : x ≠ .hl) {op : UInt8}
    (h : op ∉ pageOpcodes) :
    pageCost + (Instruction.ofOpcode x op).cost = entry indexedTable op := by
  cases x with
  | hl => exact absurd rfl hx
  | ix => exact (indexedTable_entries op.toFin h).1
  | iy => exact (indexedTable_entries op.toFin h).2

/-- Behind both prefixes, with both of them. -/
theorem cost_indexedBits {x : Index} (hx : x ≠ .hl) (op : UInt8) :
    2 * pageCost + (Instruction.bits (BitOp.ofOpcode op) (.memory x)).cost
      = indexedBits op := by
  cases x with
  | hl => exact absurd rfl hx
  | ix => exact (indexedBits_entries op.toFin).1
  | iy => exact (indexedBits_entries op.toFin).2

-- =============================================== what an instruction takes

open Micro

variable {σ : Type}

/-- Run an instruction at its listed cost. -/
def charge (listed : Nat) (i : Instruction) : Micro σ Nat := do
  let extra ← i.execute
  return listed + extra

/-- The doubly prefixed page, at the listed costs. -/
def chargeIndexedBits (x : Index) : Micro σ Nat := do
  let address ← indexedAddress x
  let op ← fetch8
  (BitOp.ofOpcode op).apply (.cell address) (ByteReg.ofCode? .hl (column op))
  return indexedBits op

/-- What follows DD or FD, at the listed costs. -/
def chargeIndexed (x : Index) : Micro σ Nat := do
  let op ← fetchOpcode
  match op with
  | 0xDD => heldPrefix
  | 0xED => heldPrefix
  | 0xFD => heldPrefix
  | 0xCB => chargeIndexedBits x
  | _ => charge (entry indexedTable op) (Instruction.ofOpcode x op)

/-- Run the instruction whose first byte has been fetched, at the listed
costs. -/
def chargeDispatch (op : UInt8) : Micro σ Nat :=
  match op with
  | 0xCB => do
    let op ← fetchOpcode
    charge (bits op) (Instruction.ofBitOpcode op)
  | 0xED => do
    let op ← fetchOpcode
    charge (entry extendedTable op) (Instruction.ofExtendedOpcode op)
  | 0xDD => chargeIndexed .ix
  | 0xFD => chargeIndexed .iy
  | _ => charge (entry plainTable op) (Instruction.ofOpcode .hl op)

/-- A listed cost that is the instruction's own is charged all the same. -/
private theorem perform_listed {lead listed : Nat} {i : Instruction}
    (h : lead + i.cost = listed) :
    (perform lead i : Micro σ Nat) = charge listed i := by
  unfold perform charge
  rw [h]

private theorem indexedBits_listed {x : Index} (hx : x ≠ .hl) :
    (Z80.indexedBits x : Micro σ Nat) = chargeIndexedBits x := by
  unfold Z80.indexedBits chargeIndexedBits
  simp only [cost_indexedBits hx]

private theorem indexed_listed {x : Index} (hx : x ≠ .hl) :
    (indexed x : Micro σ Nat) = chargeIndexed x := by
  refine congrArg (fetchOpcode >>= ·) (funext fun op => ?_)
  by_cases h : op ∈ pageOpcodes
  · simp only [pageOpcodes, List.mem_cons, List.not_mem_nil, or_false] at h
    rcases h with rfl | rfl | rfl | rfl
    · exact indexedBits_listed hx
    · rfl
    · rfl
    · rfl
  · have hlisted := perform_listed (σ := σ) (cost_indexed hx h)
    simp only [pageOpcodes, List.mem_cons, List.not_mem_nil, or_false,
      not_or] at h
    obtain ⟨hcb, hdd, hed, hfd⟩ := h
    simpa only [hcb, hdd, hed, hfd] using hlisted

/-- Every instruction takes what the tables list for its opcode, and what its
execution adds. -/
theorem dispatch_listed (op : UInt8) :
    (dispatch op : Micro σ Nat) = chargeDispatch op := by
  by_cases h : op ∈ pageOpcodes
  · simp only [pageOpcodes, List.mem_cons, List.not_mem_nil, or_false] at h
    rcases h with rfl | rfl | rfl | rfl
    · exact congrArg (fetchOpcode >>= ·)
        (funext fun op => perform_listed (cost_bits op))
    · exact indexed_listed (by decide)
    · exact congrArg (fetchOpcode >>= ·)
        (funext fun op => perform_listed (cost_extended op))
    · exact indexed_listed (by decide)
  · have hlisted :=
      perform_listed (σ := σ) ((Nat.zero_add _).trans (cost_plain h))
    simp only [pageOpcodes, List.mem_cons, List.not_mem_nil, or_false,
      not_or] at h
    obtain ⟨hcb, hdd, hed, hfd⟩ := h
    unfold dispatch chargeDispatch
    simpa only [hcb, hdd, hed, hfd] using hlisted

end Timing

end ConsoleBoard.Z80
