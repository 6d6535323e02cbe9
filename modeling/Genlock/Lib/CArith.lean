import Mathlib.Algebra.Order.Floor.Ring
import Mathlib.Algebra.Order.Round
import Mathlib.Data.Rat.Floor
import Mathlib.Tactic

/-! # Arithmetic of C on exact numbers

Conversions from `double` are taken on exact rationals: truncation toward zero,
`round` with halves away from zero, and the conversion to a fixed-width integer
that keeps the low bits. Integer division and remainder truncate toward zero.
-/

namespace Genlock.CArith

/-! ## Truncation and rounding -/

/-- Conversion of a floating-point value to an integer: toward zero. -/
def trunc (x : ℚ) : ℤ := if 0 ≤ x then ⌊x⌋ else ⌈x⌉

/-- `round` of the C library: to nearest, halves away from zero. -/
def cround (x : ℚ) : ℤ := if 0 ≤ x then ⌊x + 1 / 2⌋ else ⌈x - 1 / 2⌉

theorem trunc_of_nonneg {x : ℚ} (h : 0 ≤ x) : trunc x = ⌊x⌋ := if_pos h

@[simp] theorem trunc_intCast (n : ℤ) : trunc n = n := by
  unfold trunc
  split <;> simp

@[simp] theorem trunc_natCast (n : ℕ) : trunc n = n := by
  simpa using trunc_intCast n

theorem trunc_neg (x : ℚ) : trunc (-x) = -trunc x := by
  unfold trunc
  rcases lt_trichotomy x 0 with h | rfl | h
  · rw [if_pos (by linarith), if_neg (by linarith), Int.floor_neg]
  · simp
  · rw [if_neg (by linarith), if_pos h.le, Int.ceil_neg]

/-- The magnitude of a truncated value is the floor of the magnitude. -/
theorem abs_trunc (x : ℚ) : |trunc x| = ⌊|x|⌋ := by
  rcases le_total 0 x with h | h
  · rw [trunc_of_nonneg h, abs_of_nonneg h, abs_of_nonneg (Int.floor_nonneg.mpr h)]
  · have hx : 0 ≤ -x := by linarith
    have ht : trunc x = -⌊-x⌋ := by
      have := trunc_neg (-x)
      rwa [neg_neg, trunc_of_nonneg hx] at this
    rw [ht, abs_neg, abs_of_nonpos h, abs_of_nonneg (Int.floor_nonneg.mpr hx)]

theorem cround_of_nonneg {x : ℚ} (h : 0 ≤ x) : cround x = ⌊x + 1 / 2⌋ := if_pos h

theorem cround_of_neg {x : ℚ} (h : x < 0) : cround x = ⌈x - 1 / 2⌉ := if_neg (not_le.mpr h)

@[simp] theorem cround_intCast (n : ℤ) : cround n = n := by
  unfold cround
  split
  · rw [Int.floor_eq_iff]; constructor <;> linarith
  · rw [Int.ceil_eq_iff]; constructor <;> linarith

@[simp] theorem cround_natCast (n : ℕ) : cround n = n := by
  simpa using cround_intCast n

@[simp] theorem cround_zero : cround 0 = 0 := by
  simpa using cround_intCast 0

/-- Rounding moves a value by at most one half. -/
theorem abs_sub_cround_le (x : ℚ) : |x - cround x| ≤ 1 / 2 := by
  rw [abs_le]
  unfold cround
  split
  · have h1 := Int.floor_le (x + 1 / 2)
    have h2 := Int.lt_floor_add_one (x + 1 / 2)
    constructor <;> linarith
  · have h1 := Int.le_ceil (x - 1 / 2)
    have h2 := Int.ceil_lt_add_one (x - 1 / 2)
    constructor <;> linarith

theorem cround_mono {x y : ℚ} (h : x ≤ y) : cround x ≤ cround y := by
  rcases le_or_gt 0 x with hx | hx
  · rw [cround_of_nonneg hx, cround_of_nonneg (hx.trans h)]
    exact Int.floor_mono (by linarith)
  · rw [cround_of_neg hx]
    rcases le_or_gt 0 y with hy | hy
    · have h1 : ⌈x - 1 / 2⌉ ≤ 0 := Int.ceil_le.mpr (by push_cast; linarith)
      have h2 : 0 ≤ cround y := by
        rw [cround_of_nonneg hy]
        exact Int.floor_nonneg.mpr (by linarith)
      exact h1.trans h2
    · rw [cround_of_neg hy]
      exact Int.ceil_mono (by linarith)

theorem cround_nonneg {x : ℚ} (h : 0 ≤ x) : 0 ≤ cround x := by
  simpa using cround_mono h

theorem le_cround {n : ℤ} {x : ℚ} (h : (n : ℚ) ≤ x) : n ≤ cround x := by
  simpa using cround_mono h

theorem cround_le {n : ℤ} {x : ℚ} (h : x ≤ (n : ℚ)) : cround x ≤ n := by
  simpa using cround_mono h

/-- Rounding to a negative integer starts exactly at minus one half. -/
theorem cround_neg_iff (x : ℚ) : cround x < 0 ↔ x ≤ -(1 / 2) := by
  constructor
  · intro h
    by_contra hx
    rw [not_le] at hx
    rcases le_or_gt 0 x with h0 | h0
    · exact absurd (cround_nonneg h0) (not_le.mpr h)
    · rw [cround_of_neg h0] at h
      have : (⌈x - 1 / 2⌉ : ℚ) ≤ -1 := by exact_mod_cast Int.le_sub_one_of_lt h
      have := Int.le_ceil (x - 1 / 2)
      linarith
  · intro h
    rw [cround_of_neg (by linarith)]
    have : ⌈x - 1 / 2⌉ ≤ -1 := Int.ceil_le.mpr (by push_cast; linarith)
    omega

/-! ## Sums of differences -/

/-- Differences add up to the difference of the ends, wherever the sum may wrap. -/
theorem foldl_sub {G : Type*} [AddCommGroup G] (f : ℕ → G) (n : ℕ) :
    (List.range n).foldl (fun total i => total + (f (i + 1) - f i)) 0 = f n - f 0 := by
  induction n with
  | zero => exact (sub_self _).symm
  | succ n ih =>
      rw [List.range_succ, List.foldl_append, List.foldl_cons, List.foldl_nil, ih]
      exact sub_add_sub_cancel' _ _ _

/-! ## Truncating division -/

/-- Integer division is exact division cut toward zero. -/
theorem trunc_div {a b : ℤ} (hb : 0 < b) : trunc ((a : ℚ) / b) = a.tdiv b := by
  have hpos {c : ℤ} (hc : 0 ≤ c) : trunc ((c : ℚ) / b) = c.tdiv b := by
    have hquot : (0 : ℚ) ≤ (c : ℚ) / b := div_nonneg (by exact_mod_cast hc) (by exact_mod_cast hb.le)
    rw [trunc_of_nonneg hquot, Int.tdiv_eq_ediv_of_nonneg hc, Int.floor_eq_iff,
      le_div_iff₀ (by exact_mod_cast hb), div_lt_iff₀ (by exact_mod_cast hb)]
    constructor
    · exact_mod_cast Int.ediv_mul_le c hb.ne'
    · exact_mod_cast Int.lt_ediv_add_one_mul_self c hb
  cases le_total 0 a with
  | inl ha => exact hpos ha
  | inr ha =>
      have hneg := hpos (neg_nonneg.mpr ha)
      rw [Int.cast_neg, neg_div, trunc_neg, Int.neg_tdiv] at hneg
      exact neg_inj.mp hneg

/-- The truncated remainder differs from the dividend by a multiple of the divisor. -/
theorem dvd_tmod_sub (a b : ℤ) : b ∣ a.tmod b - a := by
  have h := Int.mul_tdiv_add_tmod a b
  exact ⟨-(a.tdiv b), by linarith⟩

theorem tmod_nonneg_of_nonneg {a : ℤ} (b : ℤ) (h : 0 ≤ a) : 0 ≤ a.tmod b :=
  Int.tmod_nonneg b h

theorem tmod_lt_of_pos (a : ℤ) {b : ℤ} (h : 0 < b) : a.tmod b < b :=
  Int.tmod_lt_of_pos a h

/-- A negative dividend leaves minus the remainder of its magnitude. -/
theorem tmod_of_nonpos {a : ℤ} (b : ℤ) (h : a ≤ 0) : a.tmod b = -(|a|.tmod b) := by
  rw [abs_of_nonpos h, Int.neg_tmod, neg_neg]

end Genlock.CArith
