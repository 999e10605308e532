/-
Whole transactions of a master with a part that has single-byte addressing.

The bytes of a transaction are handled by induction on how many are left.
Between two bytes of a write the part is ready to receive
(`sendAll_receiving`), between two bytes of a read it has one ready to send
(`receiveAll_sending`); the address of the next byte is generalized, so that
each byte hands its successor on. What a write leaves behind is said of the
memory and not of the part: `writtenFrom` is the list of bytes put down one
by one, each address following from the last.

# Addresses

A master gives an address of seven bits (`addressByte`), and the part counts on
from it: within its page while it is written, through the whole part while it
is read. Both wrap, by masks, and since the part has a power of two of bytes
the masks are remainders (`toNat_next_and`).
-/
import ConsoleBoard.Proofs.Eeprom.Byte
import ConsoleBoard.Proofs.Eeprom.Part
import Mathlib.Logic.Function.Basic

namespace ConsoleBoard.Eeprom

/-- The storage by index. -/
def memory (e : Eeprom) (i : Nat) : Option UInt8 := e.storage[i]?

/-- A memory after bytes have been written one after the other from an
address on. Only the page bits of the address advance. -/
def writtenFrom (page : UInt16) :
    UInt16 → List UInt8 → (Nat → Option UInt8) → Nat → Option UInt8
  | _, [], memory => memory
  | x, v :: rest, memory =>
    writtenFrom page ((x &&& ~~~page) ||| ((x + 1) &&& page)) rest
      (Function.update memory x.toNat (some v))

section

variable {m : Mapper} {e : Eeprom}

/-- The memory is read off the storage. -/
private theorem memory_congr {e' : Eeprom} (h : e'.storage = e.storage) :
    memory e' = memory e := by
  unfold memory
  rw [h]

-- ================================================================= writing

/-- One stored byte is one place of the memory. -/
private theorem memory_setIfInBounds {e e' : Eeprom} {i : Nat}
    (hi : i < e.storage.size) {v : UInt8}
    (h : e'.storage = e.storage.setIfInBounds i v) :
    e'.memory = Function.update e.memory i (some v) := by
  funext j
  unfold memory
  rw [h, Function.update_apply]
  by_cases hj : j = i
  · rw [if_pos hj, hj, Array.getElem?_setIfInBounds_self_of_lt hi]
  · rw [if_neg hj, Array.getElem?_setIfInBounds_ne (Ne.symm hj)]

/-- Data bytes are acknowledged, and put down one after the other. -/
theorem sendAll_receiving (hw : m.OneByte) (hset : m.chip.sizeMask ≠ 0)
    (haccepted : m.chip.Accepted) (bytes : List UInt8)
    (h : Receiving m .writeData 0 0 e) (hsize : e.storage.size = storageSize)
    (haddress : Within m.chip.sizeMask e.regs.address) :
    let out := Master.sendAll m bytes e
    out.1 = List.replicate bytes.length true ∧ Receiving m .writeData 0 0 out.2
      ∧ out.2.storage.size = storageSize
      ∧ out.2.memory = writtenFrom m.chip.pageMask e.regs.address bytes
        e.memory := by
  induction bytes generalizing e with
  | nil => exact ⟨rfl, h, hsize, rfl⟩
  | cons v rest ih =>
      obtain ⟨hanswer, hnext, hstorage, hmoved⟩ := send_data hw hset v h
      -- the address is one of the part, so the byte is not dropped
      have hmemory := memory_setIfInBounds
        (hsize ▸ haddress.lt_storageSize haccepted) hstorage
      obtain ⟨hanswers, hlast, hsize', hwritten⟩ := ih hnext
        (by rw [hstorage, Array.size_setIfInBounds, hsize])
        (by rw [hmoved]; exact haccepted.pages.nextInPage haddress)
      rw [hmemory, hmoved] at hwritten
      rw [Master.sendAll_cons]
      exact ⟨congrArg₂ List.cons hanswer hanswers, hlast, hsize', hwritten⟩

-- ================================================================= reading

/-- A masked address holds a byte of the memory. -/
private theorem some_stored (haccepted : m.chip.Accepted)
    (hsize : e.storage.size = storageSize) {a : UInt16} {y : Nat}
    (ha : a.toNat = y &&& m.chip.sizeMask.toNat) :
    some (e.stored a) = e.memory (y &&& m.chip.sizeMask.toNat) := by
  have hmask : a.toNat ≤ m.chip.sizeMask.toNat := ha ▸ Nat.and_le_right
  have hin : a.toNat < e.storage.size := by
    rw [hsize]
    exact Nat.lt_of_le_of_lt hmask haccepted.fits
  unfold stored memory
  rw [← ha, Array.getElem?_eq_getElem hin]
  rfl

/-- The address of a read advances through a part of `2 ^ k` bytes. -/
theorem toNat_next_and {mask x : UInt16} {k y : Nat}
    (hmask : mask.toNat = 2 ^ k - 1) (hx : x.toNat = y &&& mask.toNat) :
    ((x + 1) &&& mask).toNat = (y + 1) &&& mask.toNat := by
  have hk : k ≤ 16 := by
    by_contra hlarge
    have hpow : 2 ^ 17 ≤ 2 ^ k := Nat.pow_le_pow_right (by decide) (by omega)
    have hword := mask.toNat_lt
    omega
  rw [UInt16.toNat_and, UInt16.toNat_add, hx, hmask,
    Nat.and_two_pow_sub_one_eq_mod, Nat.and_two_pow_sub_one_eq_mod,
    Nat.and_two_pow_sub_one_eq_mod]
  show (y % 2 ^ k + 1) % 2 ^ 16 % 2 ^ k = (y + 1) % 2 ^ k
  rw [Nat.mod_mod_of_dvd _ (Nat.pow_dvd_pow 2 hk), Nat.mod_add_mod]

/-- The bytes of a read come from the addresses that follow, and nothing is
stored. -/
theorem receiveAll_sending (hw : m.OneByte) (hset : m.chip.sizeMask ≠ 0)
    (haccepted : m.chip.Accepted) {k : Nat}
    (hmask : m.chip.sizeMask.toNat = 2 ^ k - 1) (n : Nat) {y : Nat}
    (h : Sending m 8 (e.stored e.regs.address) e)
    (hsize : e.storage.size = storageSize)
    (haddress : e.regs.address.toNat = y &&& m.chip.sizeMask.toNat) :
    let out := Master.receiveAll m (n + 1) e
    out.1.map some
        = (List.range (n + 1)).map
          (fun i => e.memory ((y + i) &&& m.chip.sizeMask.toNat))
      ∧ (∃ v, Sending m 0 v out.2) ∧ out.2.storage = e.storage := by
  -- `y` counts on past the end of the part, the address wraps
  induction n generalizing e y with
  | zero =>
      have hfirst := some_stored haccepted hsize haddress
      obtain ⟨hread, hlast, hstorage⟩ := receive_refuse hw hset h
      exact ⟨congrArg₂ List.cons ((congrArg some hread).trans hfirst) rfl,
        ⟨_, hlast⟩, hstorage⟩
  | succ n ih =>
      have hfirst := some_stored haccepted hsize haddress
      obtain ⟨hread, hnext, hstorage, hmoved⟩ := receive_acknowledge hw hset h
      have haddress' := toNat_next_and hmask haddress
      rw [← hmoved] at hnext haddress'
      rw [← stored_congr hstorage] at hnext
      obtain ⟨hreads, hlast, hstorage'⟩ := ih hnext (hstorage ▸ hsize) haddress'
      rw [memory_congr hstorage] at hreads
      rw [Master.receiveAll_succ]
      refine ⟨?_, hlast, hstorage'.trans hstorage⟩
      rw [List.range_succ_eq_map, List.map_cons, List.map_cons, List.map_map]
      refine congrArg₂ List.cons ((congrArg some hread).trans hfirst)
        (hreads.trans ?_)
      refine List.map_congr_left fun i hi => ?_
      exact congrArg (fun a => e.memory (a &&& m.chip.sizeMask.toNat))
        (by omega)

-- ============================================================ transactions

/-- A part of `2 ^ k` bytes has a size mask. -/
private theorem sizeMask_ne_zero {chip : Chip} {k : Nat} (hk : 7 ≤ k)
    (hmask : chip.sizeMask.toNat = 2 ^ k - 1) : chip.sizeMask ≠ 0 := by
  have hpow : 2 ^ 7 ≤ 2 ^ k := Nat.pow_le_pow_right (by decide) hk
  intro hzero
  rw [hzero, UInt16.toNat_zero] at hmask
  omega

/-- The seven bits of an address byte are bits of a part of `2 ^ k` bytes. -/
theorem within_sevenBits {mask a : UInt16} {k : Nat} (hk : 7 ≤ k)
    (hmask : mask.toNat = 2 ^ k - 1) (ha : a.toNat < 128) : Within mask a := by
  have hpow : 2 ^ 7 ≤ 2 ^ k := Nat.pow_le_pow_right (by decide) hk
  apply UInt16.toNat_inj.1
  rw [UInt16.toNat_and, hmask, Nat.and_two_pow_sub_one_eq_mod]
  exact Nat.mod_eq_of_lt (by omega)

/-- The address byte of a transaction holds the address and the direction. -/
private theorem addressByte {a : UInt8} (ha : a < 128) :
    (a * 2) % 2 ≠ 1 ∧ a * 2 / 2 = a ∧ (a * 2 + 1) % 2 = 1
      ∧ (a * 2 + 1) / 2 = a := by
  have hseven : a.toNat < 128 := ha
  simp only [ne_eq, ← UInt8.toNat_inj, UInt8.toNat_add, UInt8.toNat_mul,
    UInt8.toNat_div, UInt8.toNat_mod, UInt8.reduceToNat]
  omega

/-- A write transaction, whatever the part was doing. -/
theorem write_transaction (hw : m.OneByte) (haccepted : m.chip.Accepted)
    (hsingle : m.chip.addressing = .single) {k : Nat} (hk : 7 ≤ k)
    (hmask : m.chip.sizeMask.toNat = 2 ^ k - 1) (hm : e.mapper = some m)
    (hsize : e.storage.size = storageSize) (hidle : e.regs.Idle) {a : UInt8}
    (ha : a < 128) (bytes : List UInt8) :
    let out := Master.write m a bytes e
    out.1 = List.replicate (bytes.length + 1) true ∧ out.2.mapper = some m
      ∧ out.2.regs.Idle
      ∧ out.2.regs.phase = .standby ∧ out.2.storage.size = storageSize
      ∧ out.2.memory = writtenFrom m.chip.pageMask a.toUInt16 bytes
        e.memory := by
  have hset := sizeMask_ne_zero hk hmask
  obtain ⟨hwrite, hback, -, -⟩ := addressByte ha
  -- start, address byte, data bytes, stop: each begins where the one before
  -- left the part
  obtain ⟨hready, hstart⟩ :=
    start_receiving hw hset hsingle hm hidle.sclBefore hidle.sdaInBefore
  obtain ⟨hanswer, hwriting, hstorage, haddress⟩ :=
    send_addressWrite hw hset hwrite hready
  rw [hstart] at hstorage
  rw [hback] at haddress
  obtain ⟨hanswers, hlast, hsize', hwritten⟩ :=
    sendAll_receiving hw hset haccepted bytes hwriting
      (by rw [hstorage, hsize])
      (by rw [haddress]; exact within_sevenBits hk hmask ha)
  rw [haddress, memory_congr hstorage] at hwritten
  obtain ⟨hmapper, hidle', hphase, hkept⟩ :=
    stop_idle hw hset hlast.mapper hlast.clock fun _ => by
      rw [hlast.counter]; decide
  rw [Master.write_eq, Master.sendAll_cons]
  exact ⟨congrArg₂ List.cons hanswer hanswers, hmapper, hidle', hphase,
    hkept ▸ hsize',
    (memory_congr hkept).trans hwritten⟩

/-- A read transaction, whatever the part was doing. -/
theorem read_transaction (hw : m.OneByte) (haccepted : m.chip.Accepted)
    (hsingle : m.chip.addressing = .single) {k : Nat} (hk : 7 ≤ k)
    (hmask : m.chip.sizeMask.toNat = 2 ^ k - 1) (hm : e.mapper = some m)
    (hsize : e.storage.size = storageSize) (hidle : e.regs.Idle) {a : UInt8}
    (ha : a < 128) {n : Nat} (hn : 0 < n) :
    let out := Master.read m a n e
    out.1.1 = true
      ∧ out.1.2.map some
        = (List.range n).map
          (fun i => e.memory ((a.toNat + i) &&& m.chip.sizeMask.toNat))
      ∧ out.2.regs.phase = .standby ∧ out.2.storage = e.storage := by
  have hset := sizeMask_ne_zero hk hmask
  obtain ⟨-, -, hread, hback⟩ := addressByte ha
  obtain ⟨n, rfl⟩ : ∃ rest, n = rest + 1 := ⟨n - 1, by omega⟩
  obtain ⟨hready, hstart⟩ :=
    start_receiving hw hset hsingle hm hidle.sclBefore hidle.sdaInBefore
  obtain ⟨hanswer, hsending, hstorage, haddress⟩ :=
    send_addressRead hw hset hread hready
  rw [← haddress, ← stored_congr hstorage] at hsending
  rw [hstart] at hstorage
  rw [hback] at haddress
  have hin : Within m.chip.sizeMask a.toUInt16 := within_sevenBits hk hmask ha
  -- the address has seven bits, so the mask leaves it
  have hfirst : a.toNat = a.toNat &&& m.chip.sizeMask.toNat := by
    have hmasked := congrArg UInt16.toNat hin
    rw [UInt16.toNat_and] at hmasked
    exact hmasked.symm
  obtain ⟨hbytes, ⟨v, hlast⟩, hkept⟩ :=
    receiveAll_sending hw hset haccepted hmask n hsending
      (by rw [hstorage, hsize]) (by rw [haddress]; exact hfirst)
  obtain ⟨-, -, hphase, hkept'⟩ :=
    stop_idle hw hset hlast.mapper hlast.clock fun hin => by
      rw [hlast.outgoing] at hin; cases hin
  rw [Master.read_eq]
  rw [memory_congr hstorage] at hbytes
  exact ⟨hanswer, hbytes, hphase, hkept'.trans (hkept.trans hstorage)⟩

/-- What is written in one transaction is read back in the next, from every
state of the registers in which the lines are idle. -/
theorem write_then_read (hselectable : m.Selectable)
    (hsingle : m.chip.addressing = .single) {k : Nat} (hk : 7 ≤ k)
    (hmask : m.chip.sizeMask.toNat = 2 ^ k - 1) (hw : m.OneByte)
    (hm : e.mapper = some m) (hsize : e.storage.size = storageSize)
    (hidle : e.regs.Idle) {a b : UInt8} (ha : a < 128) (hb : b < 128)
    (bytes : List UInt8) {n : Nat} (hn : 0 < n) :
    let written := Master.write m a bytes e
    let back := Master.read m b n written.2
    written.1 = List.replicate (bytes.length + 1) true
      ∧ written.2.regs.phase = .standby
      ∧ written.2.memory = writtenFrom m.chip.pageMask a.toUInt16 bytes e.memory
      ∧ back.1.1 = true
      ∧ back.1.2.map some = (List.range n).map
          (fun i => written.2.memory ((b.toNat + i) &&& m.chip.sizeMask.toNat))
      ∧ back.2.storage = written.2.storage := by
  have haccepted := hselectable.accepted
  obtain ⟨hanswers, hm', hidle', hphase, hsize', hwritten⟩ :=
    write_transaction hw haccepted hsingle hk hmask hm hsize hidle ha bytes
  obtain ⟨hanswer, hbytes, -, hkept⟩ :=
    read_transaction hw haccepted hsingle hk hmask hm' hsize' hidle' hb hn
  exact ⟨hanswers, hphase, hwritten, hanswer, hbytes, hkept⟩

/-- Four bytes written across the end of the last page of four: the last two
are put down at the beginning of the page. -/
theorem write_then_read_lastPage :
    let m := Board.database[0].mapper
    let written :=
      Master.write m 0x7E [0x11, 0x22, 0x33, 0x44] ⟨some m, erased, {}⟩
    let back := Master.read m 0x7C 4 written.2
    written.1 = [true, true, true, true, true] ∧ written.2.regs.phase = .standby
      ∧ back.1.1 = true ∧ back.1.2 = [0x33, 0x44, 0x11, 0x22] := by
  intro m
  have hselectable : m.Selectable := .inr ⟨Board.database[0], by decide, rfl⟩
  have hw : m.OneByte := ⟨rfl, by decide, by decide, by decide, by decide⟩
  have hidle : Registers.Idle {} := ⟨rfl, rfl, rfl, rfl⟩
  obtain ⟨hanswers, hphase, hwritten, hanswer, hbytes, -⟩ :=
    write_then_read (k := 7) (e := ⟨some m, erased, {}⟩) (a := 0x7E)
      (b := 0x7C) (n := 4)
      hselectable rfl (by decide) rfl hw rfl Array.size_replicate hidle
        (by decide) (by decide)
      [0x11, 0x22, 0x33, 0x44] (by decide)
  refine ⟨hanswers, hphase, hanswer,
    (List.map_inj_right fun _ _ => Option.some.inj).1 ?_⟩
  rw [hbytes, hwritten]
  decide +kernel

end

end ConsoleBoard.Eeprom
