import Mathlib.Data.BitVec

/-! # Bit fields of a word

Read-modify-write of a word: the bits of a mask are cleared and a value is put in.
-/

namespace Genlock.BitField

variable {w : ℕ}

/-- Ones from bit `l` to bit `h`. -/
def fieldMask (w h l : ℕ) : BitVec w := BitVec.allOnes w <<< l &&& ~~~(BitVec.allOnes w <<< (h + 1))

theorem getLsbD_fieldMask (h l i : ℕ) :
    (fieldMask w h l).getLsbD i = (decide (i < w) && decide (l ≤ i) && decide (i ≤ h)) := by
  unfold fieldMask
  rw [BitVec.getLsbD_and, BitVec.getLsbD_not, BitVec.getLsbD_shiftLeft, BitVec.getLsbD_shiftLeft,
    BitVec.getLsbD_allOnes, BitVec.getLsbD_allOnes, Bool.eq_iff_iff]
  simp
  omega

/-- The words differ in bits of the mask only. -/
def UnchangedOutside (m x y : BitVec w) : Prop := y &&& ~~~m = x &&& ~~~m

instance decidableUnchangedOutside (m x y : BitVec w) : Decidable (UnchangedOutside m x y) :=
  inferInstanceAs (Decidable (_ = _))

def FitsIn (m v : BitVec w) : Prop := v &&& ~~~m = 0

instance decidableFitsIn (m v : BitVec w) : Decidable (FitsIn m v) :=
  inferInstanceAs (Decidable (_ = _))

theorem and_not_eq_iff {m x y : BitVec w} :
    y &&& ~~~m = x &&& ~~~m ↔ ∀ i, m.getLsbD i = false → y.getLsbD i = x.getLsbD i := by
  rw [BitVec.eq_of_getLsbD_eq_iff]
  constructor
  · intro h i hm
    by_cases hi : i < w
    · have hbit := h i hi
      rw [BitVec.getLsbD_and, BitVec.getLsbD_and, BitVec.getLsbD_not, hm] at hbit
      simpa [hi] using hbit
    · rw [BitVec.getLsbD_of_ge y i (by omega), BitVec.getLsbD_of_ge x i (by omega)]
  · intro h i hi
    rw [BitVec.getLsbD_and, BitVec.getLsbD_and, BitVec.getLsbD_not]
    cases hm : m.getLsbD i with
    | false => rw [h i hm]
    | true => simp

theorem unchangedOutside_iff {m x y : BitVec w} :
    UnchangedOutside m x y ↔ ∀ i, m.getLsbD i = false → y.getLsbD i = x.getLsbD i :=
  and_not_eq_iff

theorem fitsIn_iff {m v : BitVec w} :
    FitsIn m v ↔ ∀ i, m.getLsbD i = false → v.getLsbD i = false := by
  have h := and_not_eq_iff (m := m) (x := 0) (y := v)
  simpa [FitsIn] using h

theorem UnchangedOutside.mono {m m' x y : BitVec w} (h : UnchangedOutside m x y)
    (hle : FitsIn m' m) : UnchangedOutside m' x y := by
  rw [unchangedOutside_iff] at h ⊢
  intro i hi
  exact h i (fitsIn_iff.mp hle i hi)

theorem UnchangedOutside.trans {m x y z : BitVec w} (hxy : UnchangedOutside m x y)
    (hyz : UnchangedOutside m y z) : UnchangedOutside m x z :=
  Eq.trans hyz hxy

def putField (m v x : BitVec w) : BitVec w := x &&& ~~~m ||| v

/-- Outside the mask the word stays as it is exactly if the value adds no bit there
that the word does not have already. -/
theorem unchangedOutside_putField_iff {m v x : BitVec w} :
    UnchangedOutside m x (putField m v x) ↔ FitsIn (m ||| x) v := by
  rw [unchangedOutside_iff, fitsIn_iff]
  apply forall_congr'
  intro i
  unfold putField
  rw [BitVec.getLsbD_or, BitVec.getLsbD_or, BitVec.getLsbD_and, BitVec.getLsbD_not]
  by_cases hi : i < w
  · cases m.getLsbD i <;> cases x.getLsbD i <;> simp [hi]
  · simp [BitVec.getLsbD_of_ge _ i (not_lt.mp hi)]

theorem FitsIn.putField {m v : BitVec w} (h : FitsIn m v) (x : BitVec w) :
    UnchangedOutside m x (putField m v x) := by
  rw [unchangedOutside_putField_iff, fitsIn_iff]
  intro i hi
  rw [BitVec.getLsbD_or, Bool.or_eq_false_iff] at hi
  exact fitsIn_iff.mp h i hi.1

theorem fitsIn_shiftLeft {h l : ℕ} {v : BitVec w} (hl : l ≤ h) (hv : v.toNat < 2 ^ (h - l + 1)) :
    FitsIn (fieldMask w h l) (v <<< l) := by
  rw [fitsIn_iff]
  intro i hi
  rw [getLsbD_fieldMask] at hi
  rw [BitVec.getLsbD_shiftLeft]
  by_cases hin : i < w ∧ l ≤ i
  · have hbit : v.getLsbD (i - l) = false := by
      apply Nat.testBit_lt_two_pow
      refine hv.trans_le (Nat.pow_le_pow_right (by omega) ?_)
      simp [hin] at hi
      omega
    rw [hbit, Bool.and_false]
  · by_cases hiw : i < w
    · have hlt : i < l := by omega
      simp [hlt]
    · simp [hiw]

end Genlock.BitField
