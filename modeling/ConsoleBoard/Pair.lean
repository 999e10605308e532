/-
Sixteen bits seen as two bytes. Register pairs, operands on the bus and
stacked words all use the one view: `high` is the byte at the odd end of
the pair (B of BC), `low` the other, and a word in memory is written low
byte first.
-/

namespace ConsoleBoard

/-- A 16-bit quantity held as its two halves. -/
structure Pair where
  high : UInt8
  low : UInt8
deriving DecidableEq, Inhabited

namespace Pair

/-- The two halves of a word. -/
def ofWord (w : UInt16) : Pair := ⟨(w / 256).toUInt8, w.toUInt8⟩

/-- The word made of the two halves. -/
def toWord (p : Pair) : UInt16 := p.high.toUInt16 * 256 + p.low.toUInt16

-- =========================================================== the two views

theorem toNat_toWord (p : Pair) :
    p.toWord.toNat = p.high.toNat * 256 + p.low.toNat := by
  have hh := p.high.toNat_lt
  have hl := p.low.toNat_lt
  simp only [toWord, UInt16.toNat_add, UInt16.toNat_mul, UInt8.toNat_toUInt16,
    UInt16.reduceToNat]
  omega

theorem toNat_high_ofWord (w : UInt16) :
    (ofWord w).high.toNat = w.toNat / 256 := by
  have := w.toNat_lt
  simp only [ofWord, UInt16.toNat_toUInt8, UInt16.toNat_div, UInt16.reduceToNat]
  omega

theorem toNat_low_ofWord (w : UInt16) :
    (ofWord w).low.toNat = w.toNat % 256 := by
  simp only [ofWord, UInt16.toNat_toUInt8]

@[simp] theorem toWord_ofWord (w : UInt16) : (ofWord w).toWord = w := by
  apply UInt16.toNat_inj.1
  rw [toNat_toWord, toNat_high_ofWord, toNat_low_ofWord]
  omega

@[simp] theorem ofWord_toWord (p : Pair) : ofWord p.toWord = p := by
  have hh := p.high.toNat_lt
  have hl := p.low.toNat_lt
  have h1 : (ofWord p.toWord).high = p.high := by
    apply UInt8.toNat_inj.1
    rw [toNat_high_ofWord, toNat_toWord]
    omega
  have h2 : (ofWord p.toWord).low = p.low := by
    apply UInt8.toNat_inj.1
    rw [toNat_low_ofWord, toNat_toWord]
    omega
  cases hp : ofWord p.toWord
  cases p
  simp_all

end Pair

end ConsoleBoard
