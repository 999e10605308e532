/-
Decimal digits read back.

A natural number is written by `Nat.toDigits`, and what is written has three
properties that readers rely on: it is not empty, it has digits only, and a zero
is in front of nothing (`eq_nil_of_toDigits_zero`). The value of the digits is
the number again (`ofDigits?_toDigits`).

The reader goes through the digits from the front and may fail at each of them,
so the value is a fold in `Option`. On digits it never fails, and it is the
fold of the library (`foldlM_digits`), which turns `Nat.toDigits` back.
-/
import ConsoleBoard.Text.Hex

namespace ConsoleBoard.Text

private theorem hexValue?_of_isDigit {c : Char} (h : c.isDigit = true) :
    hexValue? c = some (c.toNat - '0'.toNat) := by
  have hrange : '0' ≤ c ∧ c ≤ '9' := by
    simpa [Char.isDigit, Char.le_def] using h
  exact if_pos hrange

private theorem toNat_sub_lt_ten {c : Char} (h : c.isDigit = true) :
    c.toNat - '0'.toNat < 10 := by
  have hrange : '0'.toNat ≤ c.toNat ∧ c.toNat ≤ '9'.toNat := by
    simpa [Char.isDigit, UInt32.le_iff_toNat_le] using h
  have hnine : '9'.toNat = '0'.toNat + 9 := by decide
  omega

/-- Digits are read from the front, ten times what stands before each. -/
private theorem foldlM_digits {cs : List Char} (h : ∀ c ∈ cs, c.isDigit = true)
    (n : Nat) :
    cs.foldlM (fun n c => do
      let v ← hexValue? c
      if v < 10 then return n * 10 + v else none) n
        = some (Nat.ofDigitChars 10 cs n) := by
  induction cs generalizing n with
  | nil => rfl
  | cons c rest ih =>
      have hc := h c List.mem_cons_self
      have hrest := ih fun d hd => h d (List.mem_cons_of_mem c hd)
      rw [List.foldlM_cons, hexValue?_of_isDigit hc, Nat.ofDigitChars_cons,
        ← hrest, Nat.mul_comm]
      simp only [Option.bind_eq_bind, Option.bind_some,
        if_pos (toNat_sub_lt_ten hc)]
      rfl

theorem isDigit_of_mem_toDigits {n : Nat} {c : Char}
    (h : c ∈ Nat.toDigits 10 n) :
    c.isDigit = true :=
  Nat.isDigit_of_mem_toDigits (by decide) (by decide) h

/-- The digits of a number are read as the number. -/
theorem ofDigits?_toDigits (n : Nat) :
    ofDigits? 10 (Nat.toDigits 10 n) = some n := by
  have hdigits : ∀ c ∈ Nat.toDigits 10 n, c.isDigit = true :=
    fun _ => isDigit_of_mem_toDigits
  have hfold := foldlM_digits hdigits 0
  rw [Nat.ofDigitChars_toDigits (by decide) (by decide)] at hfold
  cases hcs : Nat.toDigits 10 n with
  | nil => exact absurd hcs Nat.toDigits_ne_nil
  | cons c rest =>
      rw [hcs] at hfold
      exact hfold

/-- Only zero begins with the digit zero. -/
theorem eq_zero_of_head?_toDigits {n : Nat}
    (h : (Nat.toDigits 10 n).head? = some '0') : n = 0 := by
  induction n using Nat.strongRecOn with
  | ind n ih =>
      by_cases hn : n < 10
      · rw [Nat.toDigits_of_lt_base hn] at h
        have hzero : n.digitChar = '0' := by simpa using h
        have hall : ∀ k : Fin 10, k.val.digitChar = '0' → k.val = 0 := by decide
        exact hall ⟨n, hn⟩ hzero
      · rw [Nat.toDigits_of_base_le (by decide) (by omega),
          List.head?_append] at h
        have hhead : (Nat.toDigits 10 (n / 10)).head? = some '0' := by
          cases hcs : Nat.toDigits 10 (n / 10) with
          | nil => exact absurd hcs Nat.toDigits_ne_nil
          | cons c rest =>
              rw [hcs] at h
              exact h
        have hquotient := ih (n / 10) (by omega) hhead
        omega

/-- A zero in front is alone. -/
theorem eq_nil_of_toDigits_zero {n : Nat} {rest : List Char}
    (h : Nat.toDigits 10 n = '0' :: rest) : rest = [] := by
  have hzero : n = 0 := eq_zero_of_head?_toDigits (by rw [h]; rfl)
  subst hzero
  exact (List.cons.inj h).2.symm

end ConsoleBoard.Text
