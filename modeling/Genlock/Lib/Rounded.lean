import Mathlib.Algebra.Order.Floor.Ring
import Mathlib.Data.Int.Log
import Mathlib.Data.Rat.Floor
import Mathlib.Tactic

/-! # Rounding to a binary format

Seen from the sums of whole numbers, rounding keeps the order and leaves whole numbers of at
most `2 ^ p` as they are. Rounding to nearest, ties to even, with `p` digits behind the leading
one is a rounding for `p + 1`. Exponents are unbounded.
-/

namespace Genlock.Rounded

/-- What a sum of whole numbers can rely on. -/
structure Rounding (p : ℕ) where
  round : ℚ → ℚ
  mono : Monotone round
  whole : ∀ n : ℤ, |n| ≤ 2 ^ p → round n = n

/-! ## Sums -/

section Sums

variable {p : ℕ} (r : Rounding p)

def Rounding.sum (terms : List ℕ) : ℚ :=
  terms.foldl (fun acc (term : ℕ) => r.round (acc + r.round term)) 0

theorem Rounding.sum_concat (terms : List ℕ) (term : ℕ) :
    r.sum (terms ++ [term]) = r.round (r.sum terms + r.round term) := by
  rw [Rounding.sum, List.foldl_append]
  rfl

theorem Rounding.round_natCast {n : ℕ} (h : n ≤ 2 ^ p) : r.round n = n := by
  have hwhole := r.whole n (by rw [Nat.abs_cast]; exact_mod_cast h)
  exact_mod_cast hwhole

theorem Rounding.le_round {n : ℕ} {x : ℚ} (hn : n ≤ 2 ^ p) (h : n ≤ x) : n ≤ r.round x := by
  rw [← r.round_natCast hn]
  exact r.mono h

theorem Rounding.round_nonneg {x : ℚ} (h : 0 ≤ x) : 0 ≤ r.round x := by
  exact_mod_cast r.le_round (Nat.zero_le (2 ^ p)) (by exact_mod_cast h)

/-- Up to `2 ^ p` nothing is lost. -/
theorem Rounding.sum_eq {terms : List ℕ} (h : terms.sum ≤ 2 ^ p) : r.sum terms = terms.sum := by
  induction terms using List.reverseRecOn with
  | nil => rfl
  | append_singleton terms term ih =>
      rw [List.sum_append, List.sum_singleton] at h ⊢
      rw [r.sum_concat, ih (by omega), r.round_natCast (by omega), ← Nat.cast_add,
        r.round_natCast h]

/-- A sum that reaches `2 ^ p` stays there. -/
theorem Rounding.le_sum {terms : List ℕ} (h : 2 ^ p ≤ terms.sum) :
    ((2 ^ p : ℕ) : ℚ) ≤ r.sum terms := by
  induction terms using List.reverseRecOn with
  | nil => exact absurd h (by simp)
  | append_singleton terms term ih =>
      rw [List.sum_append, List.sum_singleton] at h
      rw [r.sum_concat]
      apply r.le_round le_rfl
      by_cases hterms : 2 ^ p ≤ terms.sum
      · have hterm : 0 ≤ r.round term := r.round_nonneg (Nat.cast_nonneg term)
        linarith [ih hterms]
      · rw [r.sum_eq (by omega)]
        -- the last term alone may be too large for the format
        by_cases hterm : term ≤ 2 ^ p
        · rw [r.round_natCast hterm]
          exact_mod_cast h
        · have hround : ((2 ^ p : ℕ) : ℚ) ≤ r.round term :=
            r.le_round le_rfl (Nat.cast_le.mpr (by omega))
          linarith [Nat.cast_nonneg (α := ℚ) terms.sum]

end Sums

/-! ## To the nearest, ties to even -/

def roundEven (x : ℚ) : ℤ :=
  if Int.fract x < 1 / 2 ∨ Int.fract x = 1 / 2 ∧ ⌊x⌋ % 2 = 0 then ⌊x⌋ else ⌊x⌋ + 1

theorem floor_le_roundEven (x : ℚ) : ⌊x⌋ ≤ roundEven x := by
  unfold roundEven
  split <;> omega

theorem roundEven_le (x : ℚ) : roundEven x ≤ ⌊x⌋ + 1 := by
  unfold roundEven
  split <;> omega

theorem roundEven_le_of_lt {x : ℚ} {n : ℤ} (h : x < n + 1 / 2) : roundEven x ≤ n := by
  by_cases hfloor : ⌊x⌋ < n
  · have hround := roundEven_le x
    omega
  · have hlast : ⌊x⌋ = n := by
      apply le_antisymm _ (not_lt.mp hfloor)
      rw [← Int.lt_add_one_iff, Int.floor_lt, Int.cast_add, Int.cast_one]
      linarith
    have hfract : Int.fract x < 1 / 2 := by
      rw [Int.fract, hlast]
      linarith
    rw [roundEven, if_pos (Or.inl hfract), hlast]

theorem roundEven_intCast (n : ℤ) : roundEven n = n := by
  unfold roundEven
  rw [Int.fract_intCast, if_pos (Or.inl (by norm_num)), Int.floor_intCast]

theorem roundEven_mono : Monotone roundEven := by
  intro x y h
  cases (Int.floor_mono h).lt_or_eq with
  | inl hlt =>
      have hx := roundEven_le x
      have hy := floor_le_roundEven y
      omega
  | inr heq =>
      have hfract : Int.fract x ≤ Int.fract y := by
        rw [Int.fract, Int.fract, heq]
        linarith
      have hup (hx : ¬(Int.fract x < 1 / 2 ∨ Int.fract x = 1 / 2 ∧ ⌊x⌋ % 2 = 0)) :
          ¬(Int.fract y < 1 / 2 ∨ Int.fract y = 1 / 2 ∧ ⌊y⌋ % 2 = 0) := by
        intro hy
        apply hx
        cases hy with
        | inl hlow => exact Or.inl (hfract.trans_lt hlow)
        | inr htie =>
            rw [heq]
            exact (hfract.trans_eq htie.1).lt_or_eq.imp_right fun hhalf => ⟨hhalf, htie.2⟩
      by_cases hx : Int.fract x < 1 / 2 ∨ Int.fract x = 1 / 2 ∧ ⌊x⌋ % 2 = 0
      · rw [roundEven, if_pos hx, heq]
        exact floor_le_roundEven y
      · rw [roundEven, if_neg hx, roundEven, if_neg (hup hx), heq]

/-- The distance of neighbours. -/
def ulp (p : ℕ) (x : ℚ) : ℚ := 2 ^ (Int.log 2 |x| - p)

def nearest (p : ℕ) (x : ℚ) : ℚ := roundEven (x / ulp p x) * ulp p x

example : nearest 2 9 = 8 ∧ nearest 2 11 = 12 := by decide +kernel

section Nearest

variable {p : ℕ} {x y : ℚ}

theorem ulp_pos (p : ℕ) (x : ℚ) : 0 < ulp p x := zpow_pos (by norm_num) _

theorem pow_mul_ulp (p : ℕ) (x : ℚ) : ((2 ^ p : ℤ) : ℚ) * ulp p x = 2 ^ Int.log 2 |x| := by
  rw [ulp, Int.cast_pow, Int.cast_ofNat, ← zpow_natCast, ← zpow_add₀ (by norm_num)]
  congr 1
  omega

theorem pow_succ_mul_ulp (p : ℕ) (x : ℚ) :
    ((2 ^ (p + 1) : ℤ) : ℚ) * ulp p x = 2 ^ (Int.log 2 |x| + 1) := by
  rw [pow_succ', Int.cast_mul, mul_assoc, pow_mul_ulp, zpow_add_one₀ (by norm_num), mul_comm]
  rfl

theorem le_nearest (n : ℤ) (h : n * ulp p x ≤ x) : n * ulp p x ≤ nearest p x := by
  have hround := roundEven_mono ((le_div_iff₀ (ulp_pos p x)).mpr h)
  rw [roundEven_intCast] at hround
  exact mul_le_mul_of_nonneg_right (by exact_mod_cast hround) (ulp_pos p x).le

theorem nearest_le (n : ℤ) (h : x ≤ n * ulp p x) : nearest p x ≤ n * ulp p x := by
  have hround := roundEven_mono ((div_le_iff₀ (ulp_pos p x)).mpr h)
  rw [roundEven_intCast] at hround
  exact mul_le_mul_of_nonneg_right (by exact_mod_cast hround) (ulp_pos p x).le

theorem nearest_eq (n : ℤ) (h : x = n * ulp p x) : nearest p x = x := by
  have hle := nearest_le n h.le
  have hge := le_nearest n h.ge
  rw [← h] at hle hge
  exact le_antisymm hle hge

/-- Where the neighbours are at most 1 apart, what is more than half of that below a whole
number stays below it. -/
theorem nearest_lt_intCast {n : ℤ} (hlog : Int.log 2 |x| ≤ p) (h : x < n - ulp p x / 2) :
    nearest p x < n := by
  have hpos := ulp_pos p x
  have hwhole : ((2 ^ ((p : ℤ) - Int.log 2 |x|).toNat : ℤ) : ℚ) * ulp p x = 1 := by
    rw [ulp, Int.cast_pow, Int.cast_ofNat, ← zpow_natCast, ← zpow_add₀ (by norm_num),
      Int.toNat_of_nonneg (by omega)]
    norm_num
  have hbelow : ((n * 2 ^ ((p : ℤ) - Int.log 2 |x|).toNat - 1 : ℤ) : ℚ) * ulp p x =
      n - ulp p x := by
    rw [Int.cast_sub, Int.cast_one, Int.cast_mul, sub_mul, mul_assoc, hwhole, mul_one, one_mul]
  have hround : roundEven (x / ulp p x) ≤ n * 2 ^ ((p : ℤ) - Int.log 2 |x|).toNat - 1 := by
    apply roundEven_le_of_lt
    rw [div_lt_iff₀ hpos, add_mul, hbelow]
    linarith
  calc nearest p x
      ≤ ((n * 2 ^ ((p : ℤ) - Int.log 2 |x|).toNat - 1 : ℤ) : ℚ) * ulp p x :=
        mul_le_mul_of_nonneg_right (by exact_mod_cast hround) hpos.le
    _ < n := by
        rw [hbelow]
        linarith

/-! ### Between the powers of two -/

theorem nearest_le_pow (p : ℕ) (x : ℚ) : nearest p x ≤ 2 ^ (Int.log 2 |x| + 1) := by
  have habs : |x| < 2 ^ (Int.log 2 |x| + 1) := Int.lt_zpow_succ_log_self (by norm_num) |x|
  rw [← pow_succ_mul_ulp p x] at habs ⊢
  exact nearest_le _ ((le_abs_self x).trans habs.le)

theorem neg_pow_le_nearest (p : ℕ) (x : ℚ) : -2 ^ (Int.log 2 |x| + 1) ≤ nearest p x := by
  have habs : |x| < 2 ^ (Int.log 2 |x| + 1) := Int.lt_zpow_succ_log_self (by norm_num) |x|
  rw [← pow_succ_mul_ulp p x] at habs ⊢
  rw [← neg_mul, ← Int.cast_neg]
  apply le_nearest
  rw [Int.cast_neg, neg_mul]
  exact (neg_le_neg habs.le).trans (neg_abs_le x)

theorem pow_le_nearest (hx : 0 < x) : 2 ^ Int.log 2 |x| ≤ nearest p x := by
  have habs : 2 ^ Int.log 2 |x| ≤ |x| := Int.zpow_log_le_self (by norm_num) (abs_pos.mpr hx.ne')
  rw [← pow_mul_ulp p x] at habs ⊢
  exact le_nearest _ (habs.trans_eq (abs_of_pos hx))

theorem nearest_le_neg_pow (hx : x < 0) : nearest p x ≤ -2 ^ Int.log 2 |x| := by
  have habs : 2 ^ Int.log 2 |x| ≤ |x| := Int.zpow_log_le_self (by norm_num) (abs_pos.mpr hx.ne)
  rw [← pow_mul_ulp p x] at habs ⊢
  rw [← neg_mul, ← Int.cast_neg]
  apply nearest_le
  rw [Int.cast_neg, neg_mul]
  exact le_neg_of_le_neg (habs.trans_eq (abs_of_neg hx))

theorem nearest_mono (p : ℕ) : Monotone (nearest p) := by
  intro x y h
  by_cases hlog : Int.log 2 |x| = Int.log 2 |y|
  · have hulp : ulp p x = ulp p y := by rw [ulp, ulp, hlog]
    have hround := roundEven_mono (div_le_div_of_nonneg_right h (ulp_pos p y).le)
    rw [nearest, nearest, hulp]
    exact mul_le_mul_of_nonneg_right (by exact_mod_cast hround) (ulp_pos p y).le
  · by_cases hx : 0 < x
    · have hy := hx.trans_le h
      have hlt : Int.log 2 |x| < Int.log 2 |y| := by
        apply lt_of_le_of_ne _ hlog
        rw [abs_of_pos hx, abs_of_pos hy]
        exact Int.log_mono_right hx h
      calc nearest p x ≤ 2 ^ (Int.log 2 |x| + 1) := nearest_le_pow p x
        _ ≤ 2 ^ Int.log 2 |y| := zpow_le_zpow_right₀ (by norm_num) hlt
        _ ≤ nearest p y := pow_le_nearest hy
    · by_cases hy : y < 0
      · have hx := h.trans_lt hy
        have hlt : Int.log 2 |y| < Int.log 2 |x| := by
          apply lt_of_le_of_ne _ (Ne.symm hlog)
          rw [abs_of_neg hx, abs_of_neg hy]
          exact Int.log_mono_right (neg_pos.mpr hy) (neg_le_neg h)
        calc nearest p x ≤ -2 ^ Int.log 2 |x| := nearest_le_neg_pow hx
          _ ≤ -2 ^ (Int.log 2 |y| + 1) := neg_le_neg (zpow_le_zpow_right₀ (by norm_num) hlt)
          _ ≤ nearest p y := neg_pow_le_nearest p y
      · have hx0 : nearest p x ≤ ((0 : ℤ) : ℚ) * ulp p x := nearest_le 0 (by simpa using hx)
        have hy0 : ((0 : ℤ) : ℚ) * ulp p y ≤ nearest p y := le_nearest 0 (by simpa using hy)
        rw [Int.cast_zero, zero_mul] at hx0 hy0
        exact hx0.trans hy0

/-- A whole number of at most `p + 1` digits, or the next power of two. -/
theorem nearest_intCast {n : ℤ} (h : |n| ≤ 2 ^ (p + 1)) : nearest p n = n := by
  by_cases hzero : n = 0
  · subst hzero
    exact nearest_eq 0 (by simp)
  · have hpos : (0 : ℚ) < |(n : ℚ)| := abs_pos.mpr (Int.cast_ne_zero.mpr hzero)
    by_cases hlog : Int.log 2 |(n : ℚ)| ≤ p
    · apply nearest_eq (n * 2 ^ ((p : ℤ) - Int.log 2 |(n : ℚ)|).toNat)
      have hexp : ((2 ^ ((p : ℤ) - Int.log 2 |(n : ℚ)|).toNat : ℤ) : ℚ) * ulp p n = 1 := by
        rw [ulp, Int.cast_pow, Int.cast_ofNat, ← zpow_natCast, ← zpow_add₀ (by norm_num),
          Int.toNat_of_nonneg (by omega)]
        norm_num
      rw [Int.cast_mul, mul_assoc, hexp, mul_one]
    · -- only the power of two itself has that many digits
      have hle : (2 : ℚ) ^ Int.log 2 |(n : ℚ)| ≤ |(n : ℚ)| :=
        Int.zpow_log_le_self (by norm_num) hpos
      have hge : |(n : ℚ)| ≤ 2 ^ Int.log 2 |(n : ℚ)| := by
        calc |(n : ℚ)| ≤ 2 ^ (p + 1) := by exact_mod_cast h
          _ = (2 : ℚ) ^ ((p : ℤ) + 1) := by norm_cast
          _ ≤ 2 ^ Int.log 2 |(n : ℚ)| := zpow_le_zpow_right₀ (by norm_num) (by omega)
      have habs : |(n : ℚ)| = ((2 ^ p : ℤ) : ℚ) * ulp p n := by
        rw [pow_mul_ulp]
        exact le_antisymm hge hle
      cases abs_choice (n : ℚ) with
      | inl hn =>
          apply nearest_eq (2 ^ p)
          rw [← habs, hn]
      | inr hn =>
          apply nearest_eq (-2 ^ p)
          rw [Int.cast_neg, neg_mul, ← habs, hn, neg_neg]

end Nearest

def nearestEven (p : ℕ) : Rounding (p + 1) :=
  ⟨nearest p, nearest_mono p, fun _ => nearest_intCast⟩

end Genlock.Rounded
