import Genlock.Vsyncalter.Registers
import Genlock.Lib.Synthesizer
import Mathlib.Tactic.FieldSimp
import Mathlib.Tactic.Linarith
import Mathlib.Tactic.Positivity
import Mathlib.Data.Rat.Floor

/-! # The stepping ramp

The clocks that one call of `set_pll_clock` requests, in order: equal steps from
the current clock, the last of them the target itself.
-/

namespace Genlock.Vsyncalter

open CArith

/-! ## The dwell, and number and size of the steps -/

/-- How long the shift needs, in whole ms. -/
theorem calcStepsToSync_eq {u : ℚ} (hu : 0 < u) (td : ℚ) :
    calcStepsToSync td u =
      if |td| * 100 / u < intBound then some ⌊|td| * 100 / u⌋ else none := by
  have habs : |trunc (td * 100 / u)| = ⌊|td| * 100 / u⌋ := by
    rw [abs_trunc, abs_div, abs_mul, abs_of_pos hu, abs_of_pos (by norm_num : (0 : ℚ) < 100)]
  unfold calcStepsToSync
  rw [if_neg hu.ne', habs]
  simp only [Int.floor_lt]

theorem percentDiff_self (current : ℚ) : percentDiff current current = 0 := by
  simp [percentDiff]

theorem idealSteps_pos {current target shift : ℚ} (hne : target ≠ current)
    (hstep : idealStep current target shift ≠ 0) : 0 < idealSteps current target shift :=
  Int.ceil_pos.mpr (abs_pos.mpr (div_ne_zero (sub_ne_zero.mpr hne) hstep))

/-- The steps are never zero in number, and several steps divide the change evenly. -/
theorem rampSteps_spec {current target shift : ℚ} {n : ℕ} {size : ℚ} (hshift : 0 ≤ shift)
    (h : rampSteps current target shift = some (n, size)) :
    0 < n ∧ (1 < n → size = (target - current) / n) := by
  unfold rampSteps at h
  by_cases hpercent : percentDiff current target > shift
  · have hne : target ≠ current := by
      rintro rfl
      rw [percentDiff_self] at hpercent
      exact absurd hpercent (not_lt.mpr hshift)
    by_cases hstep : idealStep current target shift = 0
    · simp [hpercent, hstep] at h
    · by_cases hbound : idealSteps current target shift < intBound
      · simp only [if_pos hpercent, if_neg hstep, if_pos hbound] at h
        obtain ⟨hn, hsize⟩ := Prod.mk.inj (Option.some.inj h)
        have hpos := idealSteps_pos hne hstep
        have hcast : ((idealSteps current target shift : ℤ) : ℚ) = n := by
          rw [← hn, ← Int.cast_natCast, Int.toNat_of_nonneg hpos.le]
        refine ⟨by omega, fun h1 => ?_⟩
        rw [if_pos (by omega), hcast] at hsize
        exact hsize.symm
      · simp [hpercent, hstep, hbound] at h
  · simp only [if_neg hpercent] at h
    obtain ⟨rfl, rfl⟩ := Prod.mk.inj (Option.some.inj h)
    exact ⟨one_pos, fun h => absurd h (lt_irrefl 1)⟩

/-! ## The requested clocks -/

def requests (target stepSize : ℚ) : ℕ → ℚ → List ℚ
  | 0, _ => []
  | left + 1, intermediate =>
      let next := if left = 0 then target else intermediate + stepSize
      next :: requests target stepSize left next

def rampClock (current target : ℚ) (n i : ℕ) : ℚ :=
  current + (i + 1) * ((target - current) / n)

theorem rampClock_last (current target : ℚ) {n : ℕ} (hn : 0 < n) :
    rampClock current target n (n - 1) = target := by
  have h0 : (n : ℚ) ≠ 0 := by exact_mod_cast hn.ne'
  have h1 : ((n - 1 : ℕ) : ℚ) + 1 = n := by exact_mod_cast Nat.sub_add_cancel hn
  unfold rampClock
  rw [h1]
  field_simp
  ring

theorem requests_from {current target size : ℚ} {n : ℕ}
    (hsize : 1 < n → size = (target - current) / n) {k left : ℕ} (hk : k + left = n) :
    requests target size left (current + k * ((target - current) / n)) =
      (List.range left).map fun i => rampClock current target n (k + i) := by
  induction left generalizing k with
  | zero => rfl
  | succ left ih =>
      have hnext : (if left = 0 then target else current + k * ((target - current) / n) + size) =
          rampClock current target n k := by
        by_cases hleft : left = 0
        · have hlast := rampClock_last current target (show 0 < n by omega)
          rw [show n - 1 = k by omega] at hlast
          rw [if_pos hleft, hlast]
        · rw [if_neg hleft, hsize (by omega)]
          unfold rampClock
          ring
      have hcast : rampClock current target n k =
          current + (k + 1 : ℕ) * ((target - current) / n) := by
        unfold rampClock
        push_cast
        ring
      simp only [requests, hnext]
      rw [List.range_succ_eq_map, List.map_cons, List.map_map, Nat.add_zero, hcast,
        ih (show k + 1 + left = n by omega)]
      refine congrArg (_ :: ·) (List.map_congr_left fun i _ => ?_)
      rw [Function.comp_apply, show k + 1 + i = k + i.succ by omega]

/-- All the clocks that one call requests. -/
theorem requests_eq {current target shift size : ℚ} {n : ℕ} (hshift : 0 ≤ shift)
    (h : rampSteps current target shift = some (n, size)) :
    requests target size n current = (List.range n).map (rampClock current target n) := by
  have := requests_from (rampSteps_spec hshift h).2 (show 0 + n = n by omega)
  simpa using this

/-- A ramp clock lies between the two ends. -/
theorem rampClock_mem {current target : ℚ} {n i : ℕ} (hi : i < n) :
    rampClock current target n i ∈ Set.uIcc current target := by
  have hn : (0 : ℚ) < n := by exact_mod_cast (Nat.zero_lt_of_lt hi)
  have h0 : (0 : ℚ) ≤ (i + 1) / n := by positivity
  have h1 : ((i : ℚ) + 1) / n ≤ 1 := by
    rw [div_le_one hn]
    exact_mod_cast hi
  have hclock : rampClock current target n i =
      current + (i + 1) / n * (target - current) := by
    unfold rampClock
    ring
  rw [hclock]
  rcases le_total current target with hle | hle
  · rw [Set.uIcc_of_le hle]
    constructor <;> nlinarith
  · rw [Set.uIcc_of_ge hle]
    constructor <;> nlinarith

theorem requests_concat {current target shift size : ℚ} {n : ℕ} (hshift : 0 ≤ shift)
    (h : rampSteps current target shift = some (n, size)) :
    ∃ before, requests target size n current = before ++ [target] := by
  have hn := (rampSteps_spec hshift h).1
  refine ⟨(List.range (n - 1)).map (rampClock current target n), ?_⟩
  obtain ⟨m, rfl⟩ : ∃ m, n = m + 1 := ⟨n - 1, by omega⟩
  have hlast := rampClock_last current target hn
  rw [Nat.add_sub_cancel] at hlast
  rw [requests_eq hshift h, List.range_succ, List.map_append, List.map_singleton, hlast,
    Nat.add_sub_cancel]

/-! ## The shifted clock -/

theorem rampSteps_shiftedClock {c r : ℚ} (hc : 0 < c) (hr : 0 < r) (td : ℚ) :
    ∃ size, rampSteps c (shiftedClock td r c) r = some (1, size) := by
  have hne : c * r / 100 ≠ 0 := by positivity
  have hsteps : idealSteps c (shiftedClock td r c) r = 1 ∧
      idealStep c (shiftedClock td r c) r ≠ 0 := by
    unfold idealSteps idealStep shiftedClock
    have hstep : 0 < r * c / 100 := by positivity
    by_cases htd : td > 0
    · rw [if_pos htd, if_neg (by linarith)]
      refine ⟨?_, by simpa using hne⟩
      rw [show (c + r * c / 100 * -1 - c) / (c * r / 100 * -1) = 1 by field_simp; ring]
      norm_num
    · rw [if_neg htd, if_pos (by linarith)]
      refine ⟨?_, by simpa using hne⟩
      rw [show (c + r * c / 100 * 1 - c) / (c * r / 100 * 1) = 1 by field_simp; ring]
      norm_num
  unfold rampSteps
  split
  · simp [hsteps.1, hsteps.2, intBound]
  · exact ⟨_, rfl⟩

theorem shiftedClock_pos {c r t : ℚ} (hc : 0 < c) (hr0 : 0 < r) (hr1 : r ≤ 1) :
    0 < shiftedClock t r c := by
  have : r * c / 100 < c := by
    rw [div_lt_iff₀ (by norm_num)]
    nlinarith
  have : 0 < r * c / 100 := by positivity
  unfold shiftedClock
  split <;> linarith

/-- A positive time difference asks for a lower clock, a negative one for a higher. -/
theorem shiftedClock_lt_iff {c r : ℚ} (hc : 0 < c) (hr : 0 < r) (td : ℚ) :
    (0 < td → shiftedClock td r c < c) ∧ (td < 0 → c < shiftedClock td r c) := by
  have : 0 < r * c / 100 := by positivity
  unfold shiftedClock
  constructor
  · intro h
    rw [if_pos h]
    linarith
  · intro h
    rw [if_neg (by linarith)]
    linarith

end Genlock.Vsyncalter
