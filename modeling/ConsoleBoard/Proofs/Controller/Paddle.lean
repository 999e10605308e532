/-
What a paddle shows.

Its position is the column of the pointer, kept on the screen and scaled to a
byte (`knob`), and one half of it is on the lines at a time, with TR high for
the high one (`shown_half`).

The pointer may be anywhere, or nowhere at all: off the screen the knob rests.
On the screen it follows the pointer from left to right (`knob_mono`), reaches
every place of its range (`exists_column`), and never leaves it (`knob_lt`).

# The lines

A nibble takes four lines, the button one more, and TR says which half it is.
Each of these is read off the answer of the protocol (`answer_eq`), on which
`shown_half` is put together.
-/
import ConsoleBoard.Controller.Paddle
import ConsoleBoard.Proofs.Controller.Settled

namespace ConsoleBoard.Controller

-- ============================================================ the position

namespace Paddle

/-- The position by the pointer, as a number: the middle when the pointer is
off-screen, and else its column, kept on the screen and scaled to a byte. -/
def knob (x y : Int) : Nat :=
  if (x, y) = offscreen then 128 else (max 0 (min x 1279)).toNat * 256 / 1280

/-- Pointers beside the screen count as at its edge. -/
theorem column_le (x : Int) :
    0 ≤ max 0 (min x 1279) ∧ max 0 (min x 1279) ≤ 1279 := by
  omega

/-- The knob has 256 places. -/
theorem knob_lt (x y : Int) : knob x y < 256 := by
  unfold knob
  split <;> omega

/-- The shown position is the place of the knob. -/
theorem toNat_position (core : Core) :
    (position core).toNat = knob core.x core.y := by
  unfold position knob
  by_cases hoff : core.x = offscreen.1 ∧ core.y = offscreen.2
  · rw [if_pos hoff, if_pos (Prod.ext hoff.1 hoff.2)]
    rfl
  · have hpair : ¬(core.x, core.y) = offscreen := fun h =>
      hoff ⟨congrArg Prod.fst h, congrArg Prod.snd h⟩
    have hscaled : (max 0 (min core.x (width - 1)) * 256 / width).toNat
        = (max 0 (min core.x 1279)).toNat * 256 / 1280 := by
      show (max 0 (min core.x 1279) * 256 / 1280).toNat = _
      omega
    have hlt := knob_lt core.x core.y
    rw [knob, if_neg hpair] at hlt
    rw [if_neg hoff, if_neg hpair, hscaled, UInt8.toNat_ofNat']
    exact Nat.mod_eq_of_lt hlt

/-- The further right on the screen, the further round the knob. -/
theorem knob_mono {x x' y y' : Int} (h : (x, y) ≠ offscreen)
    (h' : (x', y') ≠ offscreen) (hle : x ≤ x') : knob x y ≤ knob x' y' := by
  unfold knob
  rw [if_neg h, if_neg h']
  omega

/-- The screen is wide enough for every position to have a column. -/
theorem exists_column {n : Nat} (hn : n < 256) :
    ∃ x : Int, 0 ≤ x ∧ x ≤ 1279 ∧ ∀ y, knob x y = n := by
  refine ⟨5 * n, by omega, by omega, fun y => ?_⟩
  have hpair : ¬((5 * n : Int), y) = offscreen := fun h => by
    have hx : (5 * n : Int) = -1 := congrArg Prod.fst h
    omega
  unfold knob
  rw [if_neg hpair]
  omega

-- ============================================================== the halves

/-- The button is on TL, and nowhere else. -/
theorem button_eq (buttons : UInt32) :
    (buttons &&& 0x01).toUInt8 * 16 = 0
      ∨ (buttons &&& 0x01).toUInt8 * 16 = 16 := by
  have hbit : (buttons &&& 0x01).toNat = buttons.toNat % 2 := by
    rw [UInt32.toNat_and]
    exact Nat.and_one_is_mod _
  have hbyte : (buttons &&& 0x01).toUInt8
      = UInt8.ofNat (buttons.toNat % 2) := by
    apply UInt8.toNat_inj.1
    rw [UInt32.toNat_toUInt8, hbit, UInt8.toNat_ofNat']
  rw [hbyte]
  rcases Nat.mod_two_eq_zero_or_one buttons.toNat with h | h <;> rw [h]
  · exact .inl rfl
  · exact .inr rfl

/-- TR says which half is on the lines, whatever the button does. -/
theorem answer_eq {button : UInt8} (hbutton : button = 0 ∨ button = 16)
    (half : UInt8) :
    (Pin.tr.isHigh (0xE0 ||| button ||| half / 16) = true
        ∧ (0xE0 ||| button ||| half / 16) &&& 0x0F = half / 16)
      ∧ Pin.tr.isHigh (0xC0 ||| button ||| half % 16) = false
        ∧ (0xC0 ||| button ||| half % 16) &&& 0x0F = half % 16 := by
  have hall : ∀ button ∈ [(0 : UInt8), 16], ∀ n : Fin 16,
      (Pin.tr.isHigh (0xE0 ||| button ||| .ofNat n.val) = true
          ∧ (0xE0 ||| button ||| .ofNat n.val) &&& 0x0F = .ofNat n.val)
        ∧ Pin.tr.isHigh (0xC0 ||| button ||| .ofNat n.val) = false
          ∧ (0xC0 ||| button ||| .ofNat n.val) &&& 0x0F = .ofNat n.val := by
    decide +kernel
  have hmem : button ∈ [(0 : UInt8), 16] := by simpa using hbutton
  have hhigh : (half / 16).toNat < 16 := by
    have hbyte := half.toNat_lt
    rw [UInt8.toNat_div]
    exact Nat.div_lt_of_lt_mul (show half.toNat < 16 * 16 by omega)
  have hlow : (half % 16).toNat < 16 := by
    rw [UInt8.toNat_mod]
    exact Nat.mod_lt _ (by decide)
  have hone := (hall button hmem ⟨_, hhigh⟩).1
  have htwo := (hall button hmem ⟨_, hlow⟩).2
  rw [show UInt8.ofNat (half / 16).toNat
    = half / 16 from UInt8.ofNat_toNat] at hone
  rw [show UInt8.ofNat (half % 16).toNat
    = half % 16 from UInt8.ofNat_toNat] at htwo
  exact ⟨hone, htwo⟩

/-- What the console reads of a paddle on lines that it does not drive. -/
theorem shown_half (core : Core) (hinputs : core.control &&& 0x3F = 0) :
    let v := core.tristate (drive core).data
    Pin.tr.isHigh v = highHalf core
      ∧ (v &&& 0x0F).toNat = if highHalf core then (position core).toNat / 16
          else (position core).toNat % 16 := by
  intro v
  have hsame : v &&& 0x3F = (drive core).data &&& 0x3F :=
    core.tristate_and _ (by decide) hinputs
  have hpart : ∀ w : UInt8, w &&& 0x0F = (w &&& 0x3F) &&& 0x0F
      ∧ Pin.tr.isHigh w = Pin.tr.isHigh (w &&& 0x3F) := by
    intro w
    unfold Pin.isHigh
    rw [UInt8.and_assoc, UInt8.and_assoc]
    exact ⟨rfl, rfl⟩
  obtain ⟨⟨htr, hnibble⟩, htr', hnibble'⟩ :=
    answer_eq (button_eq core.buttons) (position core)
  rw [(hpart v).1, (hpart v).2, hsame, ← (hpart _).1, ← (hpart _).2]
  unfold drive Core.drive
  dsimp only
  by_cases hhigh : highHalf core = true
  · rw [if_pos hhigh, if_pos hhigh, htr, hnibble, hhigh, UInt8.toNat_div]
    exact ⟨rfl, rfl⟩
  · rw [if_neg hhigh, if_neg hhigh, htr', hnibble', UInt8.toNat_mod]
    exact ⟨(Bool.not_eq_true _ ▸ hhigh).symm, rfl⟩

end Paddle

end ConsoleBoard.Controller
