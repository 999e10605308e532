/-
The JSON form of snapshots: one member for each field, in the order of the
structure. Reading takes the members in any order and passes over names that
are no field, so that later additions do not spoil older readers; the same
holds the other way round for the one field that older snapshots lack.
-/
import ConsoleBoard.Json.Record
import ConsoleBoard.Z80.Snapshot

namespace ConsoleBoard.Z80

namespace Status

def toJson (s : Status) : Json := .text s.text

def ofJson? (j : Json) : Option Status := j.text?.bind ofText?

end Status

namespace Snapshot

def byteJson (v : UInt8) : Json := .nat v.toNat

def wordJson (w : UInt16) : Json := .nat w.toNat

def toJson (s : Snapshot) : Json :=
  .record [
    ("af", wordJson s.af), ("bc", wordJson s.bc), ("de", wordJson s.de),
    ("hl", wordJson s.hl), ("af2", wordJson s.af2), ("bc2", wordJson s.bc2),
    ("de2", wordJson s.de2), ("hl2", wordJson s.hl2), ("ix", wordJson s.ix),
    ("iy", wordJson s.iy), ("sp", wordJson s.sp), ("pc", wordJson s.pc),
    ("wz", wordJson s.wz), ("i", byteJson s.i), ("r", byteJson s.r),
    ("iff1", .bool s.iff1), ("iff2", .bool s.iff2), ("im", byteJson s.im),
    ("irq_vector", byteJson s.irqVector), ("status", s.status.toJson),
    ("ei_shadow", .bool s.eiShadow), ("prefix_shadow", .bool s.prefixShadow),
    ("carry", .int s.carry)]

/-- The members of a snapshot, in order. -/
def fieldNames : List String :=
  ["af", "bc", "de", "hl", "af2", "bc2", "de2", "hl2", "ix", "iy", "sp", "pc",
    "wz", "i", "r", "iff1", "iff2", "im", "irq_vector", "status", "ei_shadow",
    "prefix_shadow", "carry"]

/-- Read a snapshot. Only the shadow of prefix bytes may be missing. -/
def ofJson? (j : Json) : Option Snapshot := do
  let [af, bc, de, hl, af2, bc2, de2, hl2, ix, iy, sp, pc, wz, i, r, iff1, iff2,
    im, irqVector, status, eiShadow, prefixShadow, carry] ←
      j.fields? fieldNames false | none
  return {
    af := ← Json.need Json.word? af
    bc := ← Json.need Json.word? bc
    de := ← Json.need Json.word? de
    hl := ← Json.need Json.word? hl
    af2 := ← Json.need Json.word? af2
    bc2 := ← Json.need Json.word? bc2
    de2 := ← Json.need Json.word? de2
    hl2 := ← Json.need Json.word? hl2
    ix := ← Json.need Json.word? ix
    iy := ← Json.need Json.word? iy
    sp := ← Json.need Json.word? sp
    pc := ← Json.need Json.word? pc
    wz := ← Json.need Json.word? wz
    i := ← Json.need Json.byte? i
    r := ← Json.need Json.byte? r
    iff1 := ← Json.need Json.bool? iff1
    iff2 := ← Json.need Json.bool? iff2
    im := ← Json.need Json.byte? im
    irqVector := ← Json.need Json.byte? irqVector
    status := ← Json.need Status.ofJson? status
    eiShadow := ← Json.need Json.bool? eiShadow
    prefixShadow := ← Json.orElse false Json.bool? prefixShadow
    carry := ← Json.need (Json.between? (-2147483648) 2147483647) carry }

end Snapshot

end ConsoleBoard.Z80
