import Genlock.Swgenlock.Delta
import Genlock.Vsyncalter.VblankInterval

/-! # Three averages of one array

vblmon, the library and swgenlock average the same timestamps in their own arithmetic:
vblmon adds unsigned differences up in a `double`, the library in an `int64_t` and
swgenlock in an `int`. Sums in a `double` are rounded, divisions are exact.
-/

namespace Genlock.Vblmon

open CArith Rounded Swgenlock Vsyncalter
open Os (VsyncEnv)

def findAvg (double : Rounding 53) (vsyncs : List Os.U64) : ℚ :=
  let size := vsyncs.length
  if size < 2 then 0
  else
    let avg := (List.range' 1 (size - 1)).foldl (fun avg i =>
      double.round (avg + double.round (vsyncs.getD i 0 - vsyncs.getD (i - 1) 0).toNat)) 0
    avg / (size - 1 : ℕ)

/-! ## The average that is meant -/

def elapsed (va : List Os.U64) : ℤ := (va.getD (va.length - 1) 0).toNat - (va.getD 0 0).toNat

def mean (va : List Os.U64) : ℚ := elapsed va / (va.length - 1)

/-- Each routine gives the mean in its own unit and type, however the library got hold of
the array. -/
structure AveragesAgree (double : Rounding 53) (va : List Os.U64) : Prop where
  vblmon : findAvg double va = mean va
  library : ∀ deviceStr hardwareTs env stack, Captures deviceStr hardwareTs env va →
    getVblankInterval double deviceStr va.length hardwareTs env stack = mean va / 1000
  swgenlock : Swgenlock.findAvg va = trunc (mean va)

/-- The clock did not step back between two samples. -/
def Steady (va : List Os.U64) : Prop :=
  ∀ i, i + 1 < va.length → (va.getD i 0).toNat ≤ (va.getD (i + 1) 0).toNat

instance (va : List Os.U64) : Decidable (Steady va) :=
  decidable_of_iff (∀ i < va.length - 1, (va.getD i 0).toNat ≤ (va.getD (i + 1) 0).toNat)
    (forall_congr' fun _ => imp_congr_left (by omega))

/-! ## The sum of vblmon -/

section Sum

variable (va : List Os.U64)

def differences : List ℕ :=
  (List.range (va.length - 1)).map fun i => (va.getD (i + 1) 0 - va.getD i 0).toNat

def stepsBack (n : ℕ) : ℕ :=
  (List.range n).countP fun i => (va.getD (i + 1) 0).toNat < (va.getD i 0).toNat

/-- Every step back costs one wrap of the unsigned subtraction. -/
theorem sum_differences_range (n : ℕ) :
    (((List.range n).map fun i => (va.getD (i + 1) 0 - va.getD i 0).toNat).sum : ℤ) =
      (va.getD n 0).toNat - (va.getD 0 0).toNat + 2 ^ 64 * stepsBack va n := by
  induction n with
  | zero => simp [stepsBack]
  | succ n ih =>
      have hdiff : ((va.getD (n + 1) 0 - va.getD n 0).toNat : ℤ) =
          (va.getD (n + 1) 0).toNat - (va.getD n 0).toNat +
            2 ^ 64 * if (va.getD (n + 1) 0).toNat < (va.getD n 0).toNat then 1 else 0 := by
        have hlt := (va.getD n 0).isLt
        have hlt' := (va.getD (n + 1) 0).isLt
        rw [BitVec.toNat_sub]
        split <;> omega
      have hcount : (stepsBack va (n + 1) : ℤ) = stepsBack va n +
          if (va.getD (n + 1) 0).toNat < (va.getD n 0).toNat then 1 else 0 := by
        rw [stepsBack, List.range_succ, List.countP_append, ← stepsBack]
        simp [List.countP_cons]
      rw [List.range_succ, List.map_append, List.sum_append, List.map_singleton, List.sum_singleton,
        Nat.cast_add, ih, hdiff, hcount]
      ring

theorem sum_differences :
    ((differences va).sum : ℤ) = elapsed va + 2 ^ 64 * stepsBack va (va.length - 1) :=
  sum_differences_range va (va.length - 1)

theorem stepsBack_eq_zero_iff : stepsBack va (va.length - 1) = 0 ↔ Steady va := by
  rw [stepsBack, List.countP_eq_zero]
  constructor
  · intro h i hi
    have hle := h i (List.mem_range.mpr (by omega))
    simpa using hle
  · intro h i hi
    have hle := h i (by have := List.mem_range.mp hi; omega)
    simpa using hle

theorem findAvg_eq_sum (double : Rounding 53) (h2 : 2 ≤ va.length) :
    findAvg double va = double.sum (differences va) / (va.length - 1 : ℕ) := by
  unfold findAvg Rounding.sum differences
  dsimp only
  rw [if_neg (by omega), List.range'_eq_map_range, List.foldl_map, List.foldl_map]
  simp only [Nat.add_comm 1, Nat.add_sub_cancel]

theorem findAvg_eq_mean_iff (double : Rounding 53) (h2 : 2 ≤ va.length)
    (hspan : |elapsed va| < 2 ^ 31) : findAvg double va = mean va ↔ Steady va := by
  have hsum := sum_differences va
  have hbounds := abs_lt.mp hspan
  have hpos : (0 : ℚ) < (va.length : ℚ) - 1 := by
    have hlen : (2 : ℚ) ≤ va.length := by exact_mod_cast h2
    linarith
  rw [findAvg_eq_sum va double h2, mean, Nat.cast_sub (by omega), Nat.cast_one,
    div_left_inj' hpos.ne', ← stepsBack_eq_zero_iff]
  constructor
  · intro heq
    by_contra hback
    have hlarge : 2 ^ 53 ≤ (differences va).sum := by omega
    have hle := double.le_sum hlarge
    rw [heq] at hle
    have hle' : ((2 ^ 53 : ℕ) : ℤ) ≤ elapsed va := by exact_mod_cast hle
    omega
  · intro hback
    rw [hback, Nat.cast_zero, mul_zero, add_zero] at hsum
    rw [double.sum_eq (by omega), ← hsum, Int.cast_natCast]

end Sum

/-! ## The other two -/

theorem toInt_sub_of_near {t u : Os.U64} (h : |(t.toNat : ℤ) - u.toNat| < 2 ^ 31) :
    (t - u).toInt = t.toNat - u.toNat ∧ ((t - u).setWidth 32).toInt = t.toNat - u.toNat := by
  have hbounds := abs_lt.mp h
  have ht := t.isLt
  have hu := u.isLt
  constructor
  · rw [BitVec.toInt_eq_toNat_bmod, Int.bmod_def, BitVec.toNat_sub]
    split <;> omega
  · rw [BitVec.toInt_setWidth, Int.bmod_def, BitVec.toNat_sub]
    split <;> omega

section Agreement

variable {va : List Os.U64} (h2 : 2 ≤ va.length) (hspan : |elapsed va| < 2 ^ 31)

include h2 hspan

theorem getVblankInterval_eq_mean (double : Rounding 53) (h100 : va.length ≤ 100)
    {deviceStr : Option String} {hardwareTs : Bool} {env : VsyncEnv}
    (h : Captures deviceStr hardwareTs env va) (stack : ℕ → Os.U64) :
    getVblankInterval double deviceStr va.length hardwareTs env stack = mean va / 1000 := by
  have hexact : |elapsed va| ≤ 2 ^ 53 := hspan.le.trans (by norm_num)
  rw [getVblankInterval_of_captures double h2 h100 h, (toInt_sub_of_near hspan).1, ← elapsed,
    double.whole _ hexact, mean]

theorem findAvg_eq_trunc : Swgenlock.findAvg va = trunc (mean va) := by
  have hintervals : intervals va = va.length - 1 := if_neg (by omega)
  have hcast : mean va = (elapsed va : ℚ) / ((va.length - 1 : ℤ) : ℚ) := by
    rw [mean]
    push_cast
    rfl
  rw [Swgenlock.findAvg_eq, span, (toInt_sub_of_near hspan).2, ← elapsed, hintervals, hcast,
    trunc_div (by omega)]

end Agreement

/-- The three averages agree exactly if the clock did not step back between two samples:
vblmon alone takes a step back for almost `2 ^ 64` microseconds. -/
theorem averages_agree_iff (double : Rounding 53) (va : List Os.U64) (h2 : 2 ≤ va.length)
    (h100 : va.length ≤ 100) (hspan : |elapsed va| < 2 ^ 31) :
    AveragesAgree double va ↔ Steady va := by
  rw [← findAvg_eq_mean_iff va double h2 hspan]
  constructor
  · intro h
    exact h.vblmon
  · intro h
    exact ⟨h, fun _ _ _ stack hcaptures =>
      getVblankInterval_eq_mean h2 hspan double h100 hcaptures stack, findAvg_eq_trunc h2 hspan⟩

theorem averages_agree_iff_steady :
    AveragesAgree (nearestEven 52) [1000, 17666, 34333] ↔ Steady [1000, 17666, 34333] :=
  averages_agree_iff (nearestEven 52) [1000, 17666, 34333] (by decide) (by decide) (by decide)

/-- The clock steps back by half a millisecond. The library and swgenlock give the mean,
vblmon does not. -/
theorem step_back_disagrees :
    let va : List Os.U64 := [1000, 500, 17666]
    getVblankInterval (nearestEven 52) (some "/dev/dri/card0") 3 true (replay va) (fun _ => 0) =
        mean va / 1000 ∧
      Swgenlock.findAvg va = trunc (mean va) ∧ findAvg (nearestEven 52) va ≠ mean va ∧
      ¬AveragesAgree (nearestEven 52) va := by
  intro va
  have hspan : |elapsed va| < 2 ^ 31 := by decide
  have hvblmon : findAvg (nearestEven 52) va ≠ mean va := by
    rw [Ne, findAvg_eq_mean_iff va (nearestEven 52) (by decide) hspan]
    decide
  exact ⟨getVblankInterval_eq_mean (by decide) hspan (nearestEven 52) (by decide)
    (captures_replay (by decide) (by decide)) _, findAvg_eq_trunc (by decide) hspan, hvblmon,
    fun h => hvblmon h.vblmon⟩

end Genlock.Vblmon
