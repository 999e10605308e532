/-
What a console learns from a multitap.

The nibbles of an acquisition tell of each virtual port which pad it holds, with
the bits of its buttons, and nothing else (`Holding`). Spelled from that alone
(`Holding.spelling`), they are the nibbles that the multitap sends
(`nibble_eq_spelling`).

# Reading

The types stand in front, so a console that has read them knows how many
nibbles of buttons belong to each port, and where those of the next one begin
(`Holding.read`). Number and nibbles are the same digits to the base 16, from
the low end (`number_digits`), and reading port by port gives back what was
spelled (`read_spelled`). So no two chains that differ in a holding sound alike.
-/
import ConsoleBoard.Proofs.Controller.Sequence

namespace ConsoleBoard.Controller

-- ================================================================= nibbles

/-- Four bits as a nibble. -/
def nibbleOf (bits : BitVec 4) : UInt8 := UInt8.ofNat bits.toNat

private theorem toNat_nibbleOf (bits : BitVec 4) :
    (nibbleOf bits).toNat = bits.toNat := by
  have hlt := bits.isLt
  rw [nibbleOf, UInt8.toNat_ofNat']
  exact Nat.mod_eq_of_lt (by omega)

/-- The first `n` nibbles of a word of bits, from the low end. -/
def digits {w : Nat} (bits : BitVec w) (n : Nat) : List UInt8 :=
  (List.range n).map fun j => nibbleOf (bits.extractLsb' (4 * j) 4)

private theorem length_digits {w : Nat} (bits : BitVec w) (n : Nat) :
    (digits bits n).length = n := by
  rw [digits, List.length_map, List.length_range]

/-- The number that `n` nibbles spell, the first one lowest. -/
def number (data : Nat → UInt8) : Nat → Nat
  | 0 => 0
  | n + 1 => number data n + (data n).toNat * 16 ^ n

/-- The number reads no digit past its length. -/
private theorem number_congr {data data' : Nat → UInt8} {n : Nat}
    (h : ∀ j < n, data j = data' j) :
    number data n = number data' n := by
  induction n with
  | zero => rfl
  | succ n ih =>
      rw [number, number, ih fun j hj => h j (by omega),
        h n (Nat.lt_succ_self n)]

/-- The nibbles of a word spell its low bits. -/
theorem number_digits {w : Nat} (bits : BitVec w) (n : Nat) :
    number (fun j => nibbleOf (bits.extractLsb' (4 * j) 4)) n
      = bits.toNat % 16 ^ n := by
  induction n with
  | zero => rw [number, Nat.pow_zero, Nat.mod_one]
  | succ n ih =>
      have hpow : 2 ^ (4 * n) = 16 ^ n := Nat.pow_mul 2 4 n
      have hnibble : (nibbleOf (bits.extractLsb' (4 * n) 4)).toNat
          = bits.toNat / 16 ^ n % 16 := by
        rw [toNat_nibbleOf, BitVec.extractLsb'_toNat,
          Nat.shiftRight_eq_div_pow, hpow]
      rw [number, ih, hnibble, Nat.mod_pow_succ, Nat.mul_comm]

/-- A word of four bits to the nibble is read back from its nibbles, whatever
stands behind them. -/
theorem ofNat_number {w n : Nat} (hw : w = 4 * n) (bits : BitVec w)
    (rest : List UInt8) (idle : UInt8) :
    BitVec.ofNat w (number (fun k => (digits bits n ++ rest).getD k idle) n)
      = bits := by
  have hlow : number (fun k => (digits bits n ++ rest).getD k idle) n
      = bits.toNat % 16 ^ n := by
    rw [← number_digits]
    refine number_congr fun j hj => ?_
    have hlength : j < (digits bits n).length := by rwa [length_digits]
    rw [List.getD_append _ _ _ _ hlength, List.getD_eq_getElem _ _ hlength]
    simp [digits]
  have hpow : 16 ^ n = 2 ^ w := by rw [hw, Nat.pow_mul]
  rw [hlow, hpow, Nat.mod_eq_of_lt bits.isLt, BitVec.ofNat_toNat,
    BitVec.setWidth_eq]

/-- Behind the digits of a field the rest of the stream stands. -/
private theorem getD_digits_add {w : Nat} (bits : BitVec w) (n : Nat)
    (rest : List UInt8) (idle : UInt8) :
    (fun k => (digits bits n ++ rest).getD (k + n) idle)
      = fun k => rest.getD k idle := by
  funext k
  rw [List.getD_append_right _ _ _ _ (by rw [length_digits]; omega),
    length_digits, Nat.add_sub_cancel]

-- ================================================================ holdings

/-- What the nibbles tell of a virtual port: the pad that it holds, with the
buttons that such a pad has. -/
inductive Holding
  | nothing
  | three (buttons : BitVec 8)
  | six (buttons : BitVec 12)
deriving DecidableEq

namespace Holding

/-- Pads with three and six buttons are told, with eight and twelve bits of
their buttons. Every other device counts as nothing. -/
def ofChained : Option Chained → Holding
  | some ⟨.threeButton, buttons⟩ => three (buttons.toBitVec.setWidth 8)
  | some ⟨.sixButton, buttons⟩ => six (buttons.toBitVec.setWidth 12)
  | _ => nothing

def type : Holding → UInt8
  | nothing => 0x0F
  | three _ => 0x00
  | six _ => 0x01

/-- The nibbles of the buttons. -/
def data : Holding → List UInt8
  | nothing => []
  | three buttons => digits buttons 2
  | six buttons => digits buttons 3

/-- All nibbles up to the last that says anything. -/
def spelling (held : List Holding) : List UInt8 :=
  [0x0F, 0x00, 0x00] ++ held.map type ++ held.flatMap data

/-- What the types and the nibbles behind them tell. -/
def read : (types : List UInt8) → (data : Nat → UInt8) → List Holding
  | [], _ => []
  | type :: rest, data =>
    if type = 0x00 then
      three (.ofNat 8 (number data 2)) :: read rest fun k => data (k + 2)
    else if type = 0x01 then
      six (.ofNat 12 (number data 3)) :: read rest fun k => data (k + 3)
    else nothing :: read rest data

/-- What a console learns from an acquisition: it passes over the header, reads
the types, and then the buttons. -/
def ofNibbles (nibble : Nat → UInt8) : List Holding :=
  read [nibble 3, nibble 4, nibble 5, nibble 6] fun k => nibble (7 + k)

-- ================================================================ spelling

/-- The type nibble says the kind of what is held. -/
private theorem typeCode_eq (state : Option Chained) :
    TeamPlayer.typeCode state = (ofChained state).type := by
  cases state with
  | none => rfl
  | some s =>
      obtain ⟨kind, buttons⟩ := s
      cases kind <;> rfl

/-- Cutting a word to its low bits leaves their nibbles. -/
theorem digits_setWidth (kind : Kind) (buttons : UInt32) {n w : Nat}
    (h : 4 * n ≤ w) :
    (List.range n).map (TeamPlayer.buttonNibble (some ⟨kind, buttons⟩))
      = digits (buttons.toBitVec.setWidth w) n := by
  refine List.map_congr_left fun j hj => ?_
  have hj' : j < n := List.mem_range.1 hj
  rw [BitVec.extractLsb'_setWidth_of_le (by omega)]
  show UInt8.ofNat ((buttons.toNat >>> (4 * j)) % 16) = nibbleOf _
  rw [nibbleOf, BitVec.extractLsb'_toNat]
  rfl

/-- The data nibbles spell what is held. -/
private theorem dataNibbles_eq (state : Option Chained) :
    TeamPlayer.dataNibbles state = (ofChained state).data := by
  cases state with
  | none => rfl
  | some s =>
      obtain ⟨kind, buttons⟩ := s
      cases kind with
      | threeButton =>
          exact digits_setWidth .threeButton buttons (by decide : 4 * 2 ≤ 8)
      | sixButton =>
          exact digits_setWidth .sixButton buttons (by decide : 4 * 3 ≤ 12)
      | none | twoButton | paddle | coleco | teamPlayer => rfl

/-- A multitap sends what its holdings spell. -/
theorem sequence_eq_spelling (states : List (Option Chained)) :
    TeamPlayer.sequence states = spelling (states.map ofChained) := by
  unfold TeamPlayer.sequence spelling
  rw [List.map_map, List.flatMap_map, funext typeCode_eq, funext dataNibbles_eq]
  rfl

/-- Each nibble of the sequence is one of the spelling, or idle. -/
theorem nibble_eq_spelling (tap : TeamPlayer) (k : Nat) :
    tap.nibble k = (spelling (tap.seen.toList.map ofChained)).getD k 0x0F := by
  rw [TeamPlayer.nibble_eq, sequence_eq_spelling]
  rfl

-- ================================================================= reading

/-- The types divide the nibbles of the buttons among the ports. -/
theorem read_spelled (held : List Holding) (idle : UInt8) :
    read (held.map type) (fun k => (held.flatMap data).getD k idle) = held := by
  induction held with
  | nil => rfl
  | cons first rest ih =>
      cases first with
      | nothing =>
          show read (0x0F :: rest.map type)
            (fun k => (rest.flatMap data).getD k idle) = _
          rw [read, if_neg (by decide), if_neg (by decide), ih]
      | three buttons =>
          show read (0x00 :: rest.map type)
            (fun k => (digits buttons 2 ++ rest.flatMap data).getD k idle) = _
          rw [read, if_pos rfl, ofNat_number (by decide), getD_digits_add, ih]
      | six buttons =>
          show read (0x01 :: rest.map type)
            (fun k => (digits buttons 3 ++ rest.flatMap data).getD k idle) = _
          rw [read, if_neg (by decide), if_pos rfl, ofNat_number (by decide),
            getD_digits_add, ih]

/-- A console learns the holdings that are spelled to it. -/
theorem ofNibbles_spelling {held : List Holding} (h : held.length = 4)
    (idle : UInt8) :
    ofNibbles (fun k => (spelling held).getD k idle) = held := by
  obtain ⟨a, b, c, d, rfl⟩ : ∃ a b c d, held = [a, b, c, d] := by
    match held, h with
    | [a, b, c, d], _ => exact ⟨a, b, c, d, rfl⟩
  have hdata : (fun k => (spelling [a, b, c, d]).getD (7 + k) idle)
      = fun k => ([a, b, c, d].flatMap data).getD k idle := by
    funext k
    rw [spelling, List.getD_append_right _ _ _ _ (Nat.le_add_right 7 k)]
    exact congrArg (List.getD _ · idle) (Nat.add_sub_cancel_left 7 k)
  unfold ofNibbles
  rw [hdata]
  exact read_spelled [a, b, c, d] idle

end Holding

/-- The nibbles of a multitap can be decoded, whatever stands behind its four
virtual ports. They are F, 0, 0 and the types, 0 for a pad with three buttons, 1
for one with six and F for anything else, then the buttons of each pad in
order, two or three nibbles from the low end, and F for good. A console that
reads them in this order learns for every port which pad it holds, with
exactly its low eight or twelve bits, so two chains send the same nibbles if
and only if they agree on these. -/
theorem nibbles_decodable (tap : TeamPlayer) :
    let held := tap.seen.toList.map Holding.ofChained
    (∀ k, tap.nibble k = (Holding.spelling held).getD k 0x0F)
      ∧ Holding.ofNibbles tap.nibble = held
      ∧ ∀ other : TeamPlayer, (∀ k, other.nibble k = tap.nibble k) ↔
          other.seen.toList.map Holding.ofChained = held := by
  have hlearned : ∀ t : TeamPlayer,
      Holding.ofNibbles t.nibble = t.seen.toList.map Holding.ofChained := by
    intro t
    rw [funext (Holding.nibble_eq_spelling t)]
    exact Holding.ofNibbles_spelling (by simp) 0x0F
  refine ⟨Holding.nibble_eq_spelling tap, hlearned tap,
    fun other => ⟨fun hsame => ?_, ?_⟩⟩
  · rw [← hlearned other, funext hsame, hlearned tap]
  · intro hheld k
    rw [Holding.nibble_eq_spelling, Holding.nibble_eq_spelling, hheld]

-- a pad with three buttons on the first port, and one with six on the third
example :
    Holding.spelling [.three 0xBE, .nothing, .six 0xBFF, .nothing]
      = [0xF, 0x0, 0x0, 0x0, 0xF, 0x1, 0xF, 0xE, 0xB, 0xF, 0xF,
        0xB] := by decide

end ConsoleBoard.Controller
