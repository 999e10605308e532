/-
The JSON form of the protocol registers.
-/
import ConsoleBoard.Eeprom.Basic
import ConsoleBoard.Json.Record

namespace ConsoleBoard.Eeprom

namespace Phase

def all : List Phase :=
  [standby, wordAddress, deviceAddress, wordAddressHigh, readData, writeData]

def name : Phase → String
  | standby => "Standby"
  | wordAddress => "WordAddress"
  | deviceAddress => "DeviceAddress"
  | wordAddressHigh => "WordAddressHigh"
  | readData => "ReadData"
  | writeData => "WriteData"

/-- The place of a phase in the list of all. -/
def number (phase : Phase) : Nat := all.idxOf phase

def toJson (phase : Phase) : Json := .text phase.name

def ofJson? (j : Json) : Option Phase := do
  let name ← j.tag?
  all.find? fun phase => phase.name == name

end Phase

namespace Registers

def toJson (r : Registers) : Json :=
  .record [
    ("scl", .bool r.scl), ("sda_in", .bool r.sdaIn),
    ("sda_out", .bool r.sdaOut), ("scl_prev", .bool r.sclBefore),
    ("sda_in_prev", .bool r.sdaInBefore),
    ("sda_out_prev", .bool r.sdaOutBefore), ("address", .nat r.address.toNat),
    ("counter", .nat r.counter), ("rw", .bool r.rw),
    ("shift_out", .bool r.shiftOut), ("buffer", .nat r.buffer.toNat),
    ("phase", r.phase.toJson), ("dirty", .bool r.dirty)]

/-- The members of a register record, in order. -/
def fieldNames : List String :=
  ["scl", "sda_in", "sda_out", "scl_prev", "sda_in_prev", "sda_out_prev",
    "address", "counter", "rw", "shift_out", "buffer", "phase", "dirty"]

/-- Read a register record; every member must be there. -/
def ofJson? (j : Json) : Option Registers := do
  let [scl, sdaIn, sdaOut, sclBefore, sdaInBefore, sdaOutBefore, address,
    counter, rw, shiftOut, buffer, phase, dirty] ←
      j.fields? fieldNames false | none
  return {
    scl := ← Json.need Json.bool? scl
    sdaIn := ← Json.need Json.bool? sdaIn
    sdaOut := ← Json.need Json.bool? sdaOut
    sclBefore := ← Json.need Json.bool? sclBefore
    sdaInBefore := ← Json.need Json.bool? sdaInBefore
    sdaOutBefore := ← Json.need Json.bool? sdaOutBefore
    address := ← Json.need Json.word? address
    counter := (← Json.need Json.byte? counter).toNat
    rw := ← Json.need Json.bool? rw
    shiftOut := ← Json.need Json.bool? shiftOut
    buffer := ← Json.need Json.byte? buffer
    phase := ← Json.need Phase.ofJson? phase
    dirty := ← Json.need Json.bool? dirty }

end Registers

end ConsoleBoard.Eeprom
