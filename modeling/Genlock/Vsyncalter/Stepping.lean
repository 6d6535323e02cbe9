import Genlock.Vsyncalter.Callbacks
import Mathlib.Data.List.Chain
import Mathlib.Data.List.Range

/-! # Stepping

What a ramp of `set_pll_clock` does to the clock, when it is defined at all, and
how many steps `program_phy` and `reset_phy_regs` take.
-/

namespace Genlock.Vsyncalter

open CArith

/-! ## When a ramp is defined -/

/-- The change from one clock to another, in percent of the first. -/
def percentOf (current target : ℚ) : ℚ := |target - current| / current * 100

def roundPercent (percent : ℚ) : ℚ := (cround (percent * 10000) : ℚ) / 10000

theorem abs_sub_roundPercent_le (percent : ℚ) :
    |percent - roundPercent percent| ≤ 0.00005 := by
  have h := abs_le.mp (abs_sub_cround_le (percent * 10000))
  unfold roundPercent
  rw [abs_le]
  constructor <;> norm_num <;> linarith

/-- The ramp divides by no zero and its number of steps is an `int`. -/
def RampFits (percent shift : ℚ) : Prop :=
  roundPercent percent > shift → 0 < shift ∧ ⌈percent / shift⌉ < intBound

instance decidableRampFits (percent shift : ℚ) : Decidable (RampFits percent shift) :=
  inferInstanceAs (Decidable (_ → _))

theorem percentOf_nonneg {current : ℚ} (hc : 0 < current) (target : ℚ) :
    0 ≤ percentOf current target := by
  unfold percentOf
  positivity

theorem abs_idealStep {current shift : ℚ} (hc : 0 < current) (hs : 0 ≤ shift) (target : ℚ) :
    |idealStep current target shift| = current * shift / 100 := by
  unfold idealStep
  have hstep : 0 ≤ current * shift / 100 := by positivity
  split
  · rw [mul_one, abs_of_nonneg hstep]
  · rw [mul_neg_one, abs_neg, abs_of_nonneg hstep]

/-- The number of ideal steps depends on the two percentages alone. -/
theorem idealSteps_eq {current shift : ℚ} (hc : 0 < current) (hs : 0 < shift) (target : ℚ) :
    idealSteps current target shift = ⌈percentOf current target / shift⌉ := by
  unfold idealSteps percentOf
  rw [abs_div, abs_idealStep hc hs.le]
  congr 1
  field_simp

theorem idealStep_eq_zero_iff {current shift : ℚ} (hc : 0 < current) (hs : 0 ≤ shift)
    (target : ℚ) : idealStep current target shift = 0 ↔ shift = 0 := by
  rw [← abs_eq_zero, abs_idealStep hc hs]
  constructor
  · intro h
    have : current * shift = 0 := by linarith
    exact (mul_eq_zero.mp this).resolve_left hc.ne'
  · intro h
    rw [h]
    ring

theorem rampSteps_of_le {current target shift : ℚ}
    (h : roundPercent (percentOf current target) ≤ shift) :
    rampSteps current target shift = some (1, target - current) :=
  if_neg (not_lt.mpr h)

theorem rampSteps_of_gt {current target shift : ℚ} (hc : 0 < current) (hs : 0 < shift)
    (h : shift < roundPercent (percentOf current target))
    (hcount : ⌈percentOf current target / shift⌉ < intBound) : ∃ size,
    rampSteps current target shift = some (⌈percentOf current target / shift⌉.toNat, size) := by
  unfold rampSteps
  rw [if_pos (show percentDiff current target > shift from h)]
  simp only [idealSteps_eq hc hs, if_neg ((idealStep_eq_zero_iff hc hs.le target).not.mpr hs.ne'),
    if_pos hcount]
  exact ⟨_, rfl⟩

theorem rampSteps_eq_none {current target shift : ℚ} (hc : 0 < current) (hs : 0 ≤ shift)
    (h : ¬RampFits (percentOf current target) shift) : rampSteps current target shift = none := by
  unfold RampFits at h
  rw [Classical.not_imp] at h
  unfold rampSteps
  rw [if_pos (show percentDiff current target > shift from h.1)]
  dsimp only
  by_cases hzero : shift = 0
  · rw [if_pos ((idealStep_eq_zero_iff hc hs target).mpr hzero)]
  · have hpos : 0 < shift := lt_of_le_of_ne hs (Ne.symm hzero)
    rw [if_neg ((idealStep_eq_zero_iff hc hs target).not.mpr hzero), idealSteps_eq hc hpos,
      if_neg fun hcount => h.2 ⟨hpos, hcount⟩]

theorem rampSteps_of_fits {current target shift : ℚ} (hc : 0 < current)
    (h : RampFits (percentOf current target) shift) :
    ∃ n size, rampSteps current target shift = some (n, size) := by
  by_cases hle : roundPercent (percentOf current target) ≤ shift
  · exact ⟨1, _, rampSteps_of_le hle⟩
  · obtain ⟨hs, hcount⟩ := h (not_le.mp hle)
    exact ⟨_, rampSteps_of_gt hc hs (not_le.mp hle) hcount⟩

/-! ## The clocks of a ramp -/

/-- The ramp from `current` to `target` with changes of at most `shift` percent,
up to the rounding of the percentage. -/
structure IsRamp (current target shift : ℚ) (clocks : List ℚ) : Prop where
  nonempty : clocks ≠ []
  last : clocks.getLast? = some target
  between : ∀ x ∈ clocks, x ∈ Set.uIcc current target
  monotone : (current :: clocks).IsChain (· ≤ ·) ∨ (current :: clocks).IsChain (· ≥ ·)
  change : (current :: clocks).IsChain fun x y => |y - x| ≤ (shift + 0.00005) / 100 * current

/-- Every step of a ramp is as large as every other. -/
theorem isChain_rampClock {R : ℚ → ℚ → Prop} {current target : ℚ} {n : ℕ}
    (h : ∀ x, R x (x + (target - current) / n)) :
    (current :: (List.range n).map (rampClock current target n)).IsChain R := by
  have hmap : current :: (List.range n).map (rampClock current target n) =
      (List.range (n + 1)).map fun i : ℕ => current + i * ((target - current) / n) := by
    rw [List.range_succ_eq_map, List.map_cons, List.map_map]
    congr 1
    · simp
    · refine List.map_congr_left fun i _ => ?_
      unfold rampClock
      simp
  rw [hmap, List.isChain_map, List.isChain_range_succ]
  intro i _
  have := h (current + i * ((target - current) / n))
  convert this using 1
  push_cast
  ring

/-- A step changes the clock by what the shift allows. -/
theorem rampChange_le {current target shift size : ℚ} {n : ℕ} (hc : 0 < current) (hs : 0 < shift)
    (hramp : rampSteps current target shift = some (n, size)) :
    |(target - current) / n| ≤ (shift + 0.00005) / 100 * current := by
  have hpercent : percentOf current target / 100 * current = |target - current| := by
    unfold percentOf
    field_simp
  by_cases hle : roundPercent (percentOf current target) ≤ shift
  · rw [rampSteps_of_le hle] at hramp
    obtain ⟨rfl, -⟩ := Prod.mk.inj (Option.some.inj hramp)
    have hround := (abs_le.mp (abs_sub_roundPercent_le (percentOf current target))).2
    rw [Nat.cast_one, div_one, ← hpercent]
    have : percentOf current target ≤ shift + 0.00005 := by linarith
    gcongr
  · have hgt := not_le.mp hle
    by_cases hcount : ⌈percentOf current target / shift⌉ < intBound
    · obtain ⟨size', hramp'⟩ := rampSteps_of_gt hc hs hgt hcount
      rw [hramp'] at hramp
      obtain ⟨rfl, -⟩ := Prod.mk.inj (Option.some.inj hramp)
      have hpos : 0 < percentOf current target := by
        by_contra hzero
        rw [le_antisymm (not_lt.mp hzero) (percentOf_nonneg hc target)] at hgt
        simp only [roundPercent, zero_mul, cround_zero, Int.cast_zero, zero_div] at hgt
        exact absurd hgt (not_lt.mpr hs.le)
      have hcast : ((⌈percentOf current target / shift⌉.toNat : ℕ) : ℚ) =
          ⌈percentOf current target / shift⌉ := by
        exact_mod_cast Int.toNat_of_nonneg (Int.ceil_nonneg (div_pos hpos hs).le)
      have hceil := Int.le_ceil (percentOf current target / shift)
      have hsteps := (div_pos hpos hs).trans_le hceil
      rw [hcast, abs_div, abs_of_pos hsteps, ← hpercent, div_le_iff₀ hsteps]
      have hshare : percentOf current target ≤
          shift * ⌈percentOf current target / shift⌉ := by
        rwa [div_le_iff₀' hs] at hceil
      calc percentOf current target / 100 * current
          ≤ shift * ⌈percentOf current target / shift⌉ / 100 * current := by gcongr
        _ = shift / 100 * current * ⌈percentOf current target / shift⌉ := by ring
        _ ≤ (shift + 0.00005) / 100 * current * ⌈percentOf current target / shift⌉ := by
            gcongr
            linarith
    · rw [rampSteps_eq_none hc hs.le fun h => hcount (h hgt).2] at hramp
      exact absurd hramp (by simp)

theorem isRamp_requests {current target shift size : ℚ} {n : ℕ} (hc : 0 < current)
    (hs : 0 < shift) (hramp : rampSteps current target shift = some (n, size)) :
    IsRamp current target shift (requests target size n current) := by
  obtain ⟨before, hconcat⟩ := requests_concat hs.le hramp
  have hrequests := requests_eq hs.le hramp
  have hn : (0 : ℚ) < n := by exact_mod_cast (rampSteps_spec hs.le hramp).1
  constructor
  case nonempty =>
    rw [hconcat]
    simp
  case last =>
    rw [hconcat]
    simp
  case between =>
    rw [hrequests]
    intro x hx
    obtain ⟨i, hi, rfl⟩ := List.mem_map.mp hx
    exact rampClock_mem (List.mem_range.mp hi)
  case monotone =>
    rw [hrequests]
    cases le_total current target with
    | inl hle =>
        apply Or.inl
        apply isChain_rampClock
        intro x
        have : 0 ≤ (target - current) / n := div_nonneg (by linarith) hn.le
        linarith
    | inr hge =>
        apply Or.inr
        apply isChain_rampClock
        intro x
        have : (target - current) / n ≤ 0 := div_nonpos_of_nonpos_of_nonneg (by linarith) hn.le
        show x + (target - current) / n ≤ x
        linarith
  case change =>
    rw [hrequests]
    apply isChain_rampClock
    intro x
    rw [add_sub_cancel_left]
    exact rampChange_le hc hs hramp

theorem requestedClocks_stepCalls (steps : ℕ) (delay : ℤ) (commit : Bool) (clock : ℚ) :
    requestedClocks (stepCalls steps delay commit clock) = [clock] := by
  unfold requestedClocks stepCalls
  by_cases hsteps : steps > 1
  · rw [if_pos hsteps]
    cases commit <;> rfl
  · rw [if_neg hsteps]
    cases commit <;> rfl

theorem requestedClocks_rampCalls (steps : ℕ) (delay : ℤ) (commit : Bool) (clocks : List ℚ) :
    requestedClocks (rampCalls steps delay commit clocks) = clocks := by
  unfold requestedClocks rampCalls
  induction clocks with
  | nil => rfl
  | cons x clocks ih =>
      rw [List.flatMap_cons, List.filterMap_append, ih]
      exact congrArg (· ++ clocks) (requestedClocks_stepCalls steps delay commit x)

section Ramp

variable {Φ H : Type} {phy : Device Callback Callback.Ans H} {ok : H → Prop}

/-- `set_pll_clock` is a ramp from the current clock to its target. -/
theorem setPllClock_ramp (hphy : Succeeds phy ok)
    (wait : World Φ (Recorded H) → Option (World Φ (Recorded H))) (w : World Φ (Recorded H))
    (hok : ok w.hw.state) (hflag : w.clientDone = false) {current target shift : ℚ}
    (hc : 0 < current) (ht : 0 < target) (hs : 0 < shift)
    (hcount : RampFits (percentOf current target) shift) (delay : ℤ) (commit : Bool) :
    ∃ h calls,
      (setPllClockFrom callbacks current target shift delay commit).run (recordedExec phy wait) w =
          some (0, w.log h calls) ∧
        IsRamp current target shift (requestedClocks calls) := by
  obtain ⟨n, size, hramp⟩ := rampSteps_of_fits hc hcount
  obtain ⟨ret, h, calls, hrun, -, hcalls, hret⟩ :=
    hphy.toReturns.setPllClockFrom_run wait _ hok hc ht hs.le hramp delay commit
  obtain rfl := hret hphy
  refine ⟨h, calls, hrun, ?_⟩
  rw [hcalls hflag rfl, requestedClocks_rampCalls]
  exact isRamp_requests hc hs hramp

end Ramp

/-- From 100 down to 99 by at most a quarter percent: four steps. -/
theorem setPllClock_ramp_descending :
    ∃ h calls,
      (setPllClockFrom callbacks 100 99 (1 / 4) 0 true).run
          (recordedExec (steadyPhy 100) fun _ => none) steadyWorld =
        some (0, steadyWorld.log h calls) ∧
      IsRamp 100 99 (1 / 4) (requestedClocks calls) :=
  setPllClock_ramp (steadyPhy_succeeds 100) _ steadyWorld trivial rfl (by norm_num)
    (by norm_num) (by norm_num) (by decide +kernel) 0 true

/-! ## Steps of a correction and of its end -/

def percentBack (timeDiff shift : ℚ) : ℚ :=
  100 * shift / (100 + shift * (if timeDiff > 0 then -1 else 1))

theorem shiftedClock_eq (td r c : ℚ) :
    shiftedClock td r c = c * (100 + r * (if td > 0 then -1 else 1)) / 100 := by
  unfold shiftedClock
  ring

theorem percentOf_shiftedClock {c r : ℚ} (hc : 0 < c) (hr : 0 ≤ r) (td : ℚ) :
    percentOf c (shiftedClock td r c) = r := by
  have hchange : |shiftedClock td r c - c| = r * c / 100 := by
    unfold shiftedClock
    rw [add_sub_cancel_left, abs_mul, abs_of_nonneg (by positivity)]
    split <;> norm_num
  unfold percentOf
  rw [hchange]
  field_simp

theorem percentOf_back {c r : ℚ} (hc : 0 < c) (hr : 0 ≤ r) (hr1 : r ≤ 1) (td : ℚ) :
    percentOf (shiftedClock td r c) c = percentBack td r := by
  have hchange : |c - shiftedClock td r c| = r * c / 100 := by
    unfold shiftedClock
    rw [sub_add_cancel_left, abs_neg, abs_mul, abs_of_nonneg (by positivity)]
    split <;> norm_num
  have hdenom : (0 : ℚ) < 100 + r * (if td > 0 then -1 else 1) := by
    split <;> linarith
  unfold percentOf percentBack
  rw [hchange, shiftedClock_eq]
  field_simp

/-! ### Programmed clocks of a ramp -/

theorem programmedClocks_stepCalls (last : Option ℚ) (steps : ℕ) (delay : ℤ) (clock : ℚ)
    (calls : List PhyCall) : programmedClocks last (stepCalls steps delay true clock ++ calls) =
      clock :: programmedClocks (some clock) calls := by
  unfold stepCalls
  by_cases hsteps : steps > 1
  · rw [if_pos hsteps]
    rfl
  · rw [if_neg hsteps]
    rfl

theorem programmedClocks_rampCalls {calls : List PhyCall}
    (h : ∀ last, programmedClocks last calls = []) (last : Option ℚ) (steps : ℕ) (delay : ℤ)
    (clocks : List ℚ) :
    programmedClocks last (rampCalls steps delay true clocks ++ calls) = clocks := by
  induction clocks generalizing last with
  | nil => exact h last
  | cons x clocks ih =>
      unfold rampCalls at ih ⊢
      rw [List.flatMap_cons, List.append_assoc, programmedClocks_stepCalls, ih]

structure OneStep (clock : ℚ) (calls : List PhyCall) : Prop where
  programmed : programmedClocks none calls = [clock]
  noWait : ∀ call ∈ calls, call.isWait = false

theorem oneStep_rampCalls (before after : List PhyCall) (current target size : ℚ) (delay : ℤ)
    (hbefore : ∀ calls, programmedClocks none (before ++ calls) = programmedClocks none calls)
    (hafter : ∀ last, programmedClocks last after = [])
    (hwait : ∀ call ∈ before ++ after, call.isWait = false) :
    OneStep target (before ++ (rampCalls 1 delay true (requests target size 1 current) ++ after))
    where
  programmed := by
    rw [hbefore, programmedClocks_rampCalls hafter]
    rfl
  noWait := by
    intro call hcall
    rw [List.mem_append, List.mem_append] at hcall
    obtain hcall | hcall | hcall := hcall
    · exact hwait call (List.mem_append_left _ hcall)
    · have : call ∈ [PhyCall.call (.calculateFeedbackDividers target),
          .call (.programMmio true)] := hcall
      simp only [List.mem_cons, List.not_mem_nil, or_false] at this
      obtain rfl | rfl := this <;> rfl
    · exact hwait call (List.mem_append_right _ hcall)

/-- With stepping disabled, the correction at clock `c` and its end are one step each. -/
def CorrectsInOneStep (c timeDiff shift : ℚ) (threshold delay : ℤ) : Prop :=
  ∀ (H : Type) (phy : Device Callback Callback.Ans H) (ok : H → Prop)
    (wait : World Unit (Recorded H) → Option (World Unit (Recorded H)))
    (w : World Unit (Recorded H)),
    Succeeds phy ok → DecodesTo phy ok c → ok w.hw.state → w.clientDone = false →
      ∃ w' calls,
        (programPhy callbacks timeDiff shift 0 threshold delay true true).run
            (recordedExec phy wait) w = some (0, w') ∧
          w'.hw.calls = w.hw.calls ++ calls ∧ OneStep (shiftedClock timeDiff shift c) calls ∧
          ∀ h : Recorded H, ok h.state → ∃ w'' calls',
            (resetPhyRegs callbacks).run (recordedExec phy wait) { w' with hw := h } =
                some ((), w'') ∧
              w''.hw.calls = h.calls ++ calls' ∧ OneStep c calls'

theorem selectShift_zero (td shift : ℚ) (threshold : ℤ) : selectShift td shift 0 threshold = shift :=
  if_neg fun h => h.1 rfl

theorem percentBack_nonneg {r : ℚ} (hr : 0 ≤ r) (hr1 : r ≤ 1) (td : ℚ) : 0 ≤ percentBack td r := by
  unfold percentBack
  apply div_nonneg (by linarith)
  split <;> linarith

/-- A negative difference raises the clock, and the way back is the smaller percentage. -/
theorem percentBack_le_of_nonpos {td r : ℚ} (hr : 0 ≤ r) (htd : td ≤ 0) : percentBack td r ≤ r := by
  unfold percentBack
  rw [if_neg (not_lt.mpr htd), div_le_iff₀ (by linarith)]
  nlinarith

theorem lt_percentBack {td r : ℚ} (hr : 0 < r) (hr1 : r ≤ 1) (htd : 0 < td) :
    r < percentBack td r := by
  unfold percentBack
  rw [if_pos htd, lt_div_iff₀ (by linarith)]
  nlinarith

theorem percentBack_le_double {r : ℚ} (hr : 0 < r) (hr1 : r ≤ 1) (td : ℚ) :
    percentBack td r ≤ 2 * r := by
  unfold percentBack
  rw [div_le_iff₀ (by split <;> linarith)]
  split <;> nlinarith

/-- The way back takes one step, or two if it was down and its rounded percentage
exceeds the shift. -/
theorem rampSteps_back {c r : ℚ} (hc : 0 < c) (hr : 0 < r) (hr1 : r ≤ 1) (td : ℚ) : ∃ size,
    rampSteps (shiftedClock td r c) c r =
      some (if 0 < td ∧ r < roundPercent (percentBack td r) then 2 else 1, size) := by
  have hmod := shiftedClock_pos (t := td) hc hr hr1
  have hpercent := percentOf_back hc hr.le hr1 td
  by_cases hround : r < roundPercent (percentBack td r)
  · have hceil : ⌈percentBack td r / r⌉ = if 0 < td then 2 else 1 := by
      by_cases htd : 0 < td
      · rw [if_pos htd, Int.ceil_eq_iff]
        constructor
        · rw [lt_div_iff₀ hr]
          have := lt_percentBack hr hr1 htd
          push_cast
          linarith
        · rw [div_le_iff₀ hr]
          have := percentBack_le_double hr hr1 td
          push_cast
          linarith
      · rw [if_neg htd, Int.ceil_eq_iff]
        constructor
        · have : 0 < percentBack td r / r := by
            apply div_pos _ hr
            by_contra hneg
            have hzero := le_antisymm (not_lt.mp hneg) (percentBack_nonneg hr.le hr1 td)
            rw [hzero] at hround
            simp only [roundPercent, zero_mul, cround_zero, Int.cast_zero, zero_div] at hround
            linarith
          push_cast
          linarith
        · rw [div_le_iff₀ hr]
          have := percentBack_le_of_nonpos hr.le (not_lt.mp htd)
          push_cast
          linarith
    obtain ⟨size, hramp⟩ := rampSteps_of_gt hmod hr
      (show r < roundPercent (percentOf (shiftedClock td r c) c) by rwa [hpercent])
      (by rw [hpercent, hceil]; unfold intBound; split <;> norm_num)
    rw [hpercent, hceil] at hramp
    refine ⟨size, ?_⟩
    rw [hramp]
    by_cases htd : 0 < td
    · rw [if_pos htd, if_pos ⟨htd, hround⟩]
      rfl
    · rw [if_neg htd, if_neg fun h => htd h.1]
      rfl
  · refine ⟨c - shiftedClock td r c, ?_⟩
    rw [if_neg fun h => hround h.2]
    exact rampSteps_of_le (by rw [hpercent]; exact not_lt.mp hround)

theorem length_requests (target size : ℚ) (n : ℕ) (x : ℚ) :
    (requests target size n x).length = n := by
  induction n generalizing x with
  | zero => rfl
  | succ n ih => exact congrArg (· + 1) (ih _)

/-- When correction and return are one step each: the correction lasts a
millisecond at least and its length is an `int`, and the way back from a lowered
clock still rounds to the shift. -/
def OneStepEach (timeDiff shift : ℚ) : Prop :=
  1 ≤ |timeDiff| * 100 / shift ∧ |timeDiff| * 100 / shift < intBound ∧
    (0 < timeDiff → roundPercent (percentBack timeDiff shift) ≤ shift)

instance decidableOneStepEach (timeDiff shift : ℚ) : Decidable (OneStepEach timeDiff shift) :=
  inferInstanceAs (Decidable (_ ∧ _ ∧ (_ → _)))

theorem correctsInOneStep_of_oneStepEach {c td shift : ℚ} (hc : 0 < c) (hs : 0 < shift)
    (hs1 : shift ≤ 1) (h : OneStepEach td shift) (threshold delay : ℤ) :
    CorrectsInOneStep c td shift threshold delay := by
  intro H phy ok wait w hphy hdecodes hok hflag
  obtain ⟨hlong, hint, hback⟩ := h
  have hselect : selectShift td |shift| 0 threshold = shift := by
    rw [selectShift_zero, abs_of_pos hs]
  have hdwell : calcStepsToSync td (selectShift td |shift| 0 threshold) =
      some ⌊|td| * 100 / shift⌋ := by
    rw [hselect, calcStepsToSync_eq hs, if_pos hint]
  have hsteps : ⌊|td| * 100 / shift⌋ ≠ 0 := by
    have : 1 ≤ ⌊|td| * 100 / shift⌋ := Int.le_floor.mpr (by exact_mod_cast hlong)
    omega
  have hmod := shiftedClock_pos (t := td) hc hs hs1
  obtain ⟨h1, hok1, hprogram⟩ := hphy.toReturns.programPhy_eq wait _ hok hdecodes hdwell
    delay true true
  rw [hselect, abs_of_pos hs] at hprogram
  obtain ⟨size, hforth⟩ := rampSteps_shiftedClock hc hs td
  obtain ⟨ret, w', calls, hrun, hok', hflag', hplanned, hlog, hcalls, hret⟩ :=
    hphy.toReturns.applyCorrection_run wait (w.log h1 _) hok1 hc hmod hs.le hforth
      hsteps delay true
  obtain rfl := hret hphy
  refine ⟨w', _, hprogram.trans hrun, hlog.trans (List.append_assoc _ _ _), ?_, ?_⟩
  · rw [hcalls hflag hphy, ← List.append_nil (rampCalls _ _ _ _)]
    apply oneStep_rampCalls _ _ c _ size
    · exact fun _ => rfl
    · exact fun _ => rfl
    · simp [PhyCall.isWait]
  · intro h2 hok2
    obtain ⟨size', hramp⟩ := rampSteps_back hc hs hs1 td
    rw [if_neg fun hsplit => absurd (hback hsplit.1) (not_le.mpr hsplit.2)] at hramp
    have hbase := hplanned
    obtain ⟨w'', calls', hreset, hlog', hcalls'⟩ :=
      hphy.toReturns.resetPhyRegs_run wait { w' with hw := h2 } hok2
        (by rw [hbase.mod]; exact hmod) (by rw [hbase.orig]; exact hc)
        (by rw [hbase.shift]; exact hs.le)
        (by rw [hbase.mod, hbase.orig, hbase.shift]; exact hramp)
    refine ⟨w'', calls', hreset, hlog', ?_⟩
    rw [hcalls' (hflag'.trans hflag) hphy]
    have hone := oneStep_rampCalls [] [.call (.programMmio false)]
      w'.obj.base.pllFreqMod w'.obj.base.pllFreqOrig size' (toU32 w'.obj.base.waitBetweenSteps)
      (fun _ => rfl) (fun last => by cases last <;> rfl) (by simp [PhyCall.isWait])
    rw [hbase.orig] at hone ⊢
    exact hone

/-- A PHY that runs at a fixed clock already tells when a correction is not one
step each way. -/
theorem oneStepEach_of_correctsInOneStep {c td shift : ℚ} (hc : 0 < c) (hs : 0 < shift)
    (hs1 : shift ≤ 1) {threshold delay : ℤ} (h : CorrectsInOneStep c td shift threshold delay) :
    OneStepEach td shift := by
  obtain ⟨w', calls, hrun, hlog, hone, hreset⟩ := h Unit (steadyPhy c) (fun _ => True)
    (fun _ => none) steadyWorld (steadyPhy_succeeds c) (steadyPhy_decodesTo c) trivial rfl
  have hselect : selectShift td |shift| 0 threshold = shift := by
    rw [selectShift_zero, abs_of_pos hs]
  have hphy := (steadyPhy_succeeds c).toReturns
  have hint : |td| * 100 / shift < intBound := by
    by_contra hlarge
    have hdwell : calcStepsToSync td (selectShift td |shift| 0 threshold) = none := by
      rw [hselect, calcStepsToSync_eq hs, if_neg hlarge]
    rw [programPhy_undefined _ _ hdwell] at hrun
    exact absurd hrun (by simp)
  have hdwell : calcStepsToSync td (selectShift td |shift| 0 threshold) =
      some ⌊|td| * 100 / shift⌋ := by
    rw [hselect, calcStepsToSync_eq hs, if_pos hint]
  obtain ⟨h1, hok1, hprogram⟩ := hphy.programPhy_eq (fun _ => none) steadyWorld
    trivial (steadyPhy_decodesTo c) hdwell delay true true
  rw [hselect, abs_of_pos hs] at hprogram
  by_cases hsteps : ⌊|td| * 100 / shift⌋ = 0
  · rw [applyCorrection_idle (Or.inr hsteps)] at hprogram
    obtain ⟨-, rfl⟩ := Prod.mk.inj (Option.some.inj (hrun.symm.trans hprogram))
    obtain rfl := List.append_cancel_left hlog
    exact absurd hone.programmed (by simp [programmedClocks])
  · refine ⟨?_, hint, fun htd => ?_⟩
    · have hnonneg : 0 ≤ ⌊|td| * 100 / shift⌋ := Int.floor_nonneg.mpr (by positivity)
      have : 1 ≤ ⌊|td| * 100 / shift⌋ := by omega
      exact_mod_cast Int.le_floor.mp this
    · by_contra hround
      have hmod := shiftedClock_pos (t := td) hc hs hs1
      obtain ⟨size, hforth⟩ := rampSteps_shiftedClock hc hs td
      obtain ⟨ret, w1, -, happly, -, hflag, hbase, -, -, -⟩ :=
        hphy.applyCorrection_run (fun _ => none) (steadyWorld.log h1 _) hok1 hc hmod
          hs.le hforth hsteps delay true
      obtain ⟨-, rfl⟩ := Prod.mk.inj (Option.some.inj (hrun.symm.trans (hprogram.trans happly)))
      obtain ⟨size', hramp⟩ := rampSteps_back hc hs hs1 td
      rw [if_pos ⟨htd, not_le.mp hround⟩] at hramp
      obtain ⟨w'', calls', hresetRun, hlog', hone'⟩ := hreset ⟨(), []⟩ trivial
      obtain ⟨w2, calls2, hresetRun', hlog2, hcalls2⟩ :=
        hphy.resetPhyRegs_run (fun _ => none) { w' with hw := ⟨(), []⟩ } trivial
          (by rw [hbase.mod]; exact hmod) (by rw [hbase.orig]; exact hc)
          (by rw [hbase.shift]; exact hs.le)
          (by rw [hbase.mod, hbase.orig, hbase.shift]; exact hramp)
      obtain ⟨-, rfl⟩ := Prod.mk.inj (Option.some.inj (hresetRun.symm.trans hresetRun'))
      obtain rfl := List.append_cancel_left (hlog'.symm.trans hlog2)
      have hprogrammed := hone'.programmed
      rw [hcalls2 hflag (steadyPhy_succeeds c),
        programmedClocks_rampCalls fun last => by cases last <;> rfl] at hprogrammed
      have hlength := congrArg List.length hprogrammed
      rw [length_requests] at hlength
      exact absurd hlength (by simp)

/-- With stepping disabled, correction and return are one step each exactly under
this condition, whatever the clock. -/
theorem correctsInOneStep_iff {c timeDiff shift : ℚ} (hc : 0 < c) (hs : 0 < shift)
    (hs1 : shift ≤ 1) (threshold delay : ℤ) :
    CorrectsInOneStep c timeDiff shift threshold delay ↔ OneStepEach timeDiff shift :=
  ⟨oneStepEach_of_correctsInOneStep hc hs hs1,
    fun h => correctsInOneStep_of_oneStepEach hc hs hs1 h threshold delay⟩

/-- A raised clock is corrected and restored in one step each. -/
theorem correctsInOneStep_iff_raised :
    CorrectsInOneStep 8100000 (-10) (1 / 10) 1000 50 :=
  (correctsInOneStep_iff (by norm_num) (by norm_num) (by norm_num) 1000 50).mpr
    (by decide +kernel)

/-- The same correction downwards: a tenth of a percent down is 0.1001 percent up again. -/
theorem lowered_clock_splits_return : ¬CorrectsInOneStep 8100000 10 (1 / 10) 1000 50 :=
  fun h => absurd (oneStepEach_of_correctsInOneStep (by norm_num) (by norm_num) (by norm_num) h)
    (by decide +kernel)

/-! ## Divisions and conversions -/

/-- Whatever the PHY answers, the call divides by no zero, its number of steps is
an `int`, and if it succeeds undisturbed its last step is the target. -/
def SetPllClockSound (current target shift : ℚ) : Prop :=
  ∀ (H : Type) (phy : Device Callback Callback.Ans H) (ok : H → Prop)
    (wait : World Unit (Recorded H) → Option (World Unit (Recorded H)))
    (w : World Unit (Recorded H)) (delay : ℤ), Returns phy ok → ok w.hw.state →
      ∃ ret h calls,
        (setPllClockFrom callbacks current target shift delay true).run (recordedExec phy wait) w =
            some (ret, w.log h calls) ∧
          (w.clientDone = false → ret = 0 →
            (programmedClocks none calls).getLast? = some target)

theorem setPllClockSound_of_fits {current target shift : ℚ} (ht : 0 < target) (hs : 0 ≤ shift)
    (h : 0 < current → RampFits (percentOf current target) shift) :
    SetPllClockSound current target shift := by
  intro H phy ok wait w delay hphy hok
  by_cases hc : 0 < current
  · obtain ⟨n, size, hramp⟩ := rampSteps_of_fits hc (h hc)
    obtain ⟨ret, h, calls, hrun, -, hcalls, -⟩ :=
      hphy.setPllClockFrom_run wait _ hok hc ht hs hramp delay true
    refine ⟨ret, h, calls, hrun, fun hflag hret => ?_⟩
    obtain ⟨before, hbefore⟩ := requests_concat hs hramp
    rw [hcalls hflag hret, ← List.append_nil (rampCalls _ _ _ _),
      programmedClocks_rampCalls (fun last => by cases last <;> rfl), hbefore]
    simp
  · refine ⟨1, w.hw.state, [], ?_, fun _ hret => absurd hret one_ne_zero⟩
    rw [setPllClockFrom_invalid hc]
    show some (1, w) = some (1, { w with hw := w.hw.log w.hw.state [] })
    rw [Recorded.log_nil]

theorem fits_of_setPllClockSound {current target shift : ℚ} (ht : 0 < target) (hs : 0 ≤ shift)
    (h : SetPllClockSound current target shift) (hc : 0 < current) :
    RampFits (percentOf current target) shift := by
  by_contra hfits
  obtain ⟨ret, h, calls, hrun, -⟩ := h Unit (steadyPhy current) (fun _ => True)
    (fun _ => none) steadyWorld 0 (steadyPhy_succeeds current).toReturns trivial
  rw [setPllClockFrom_undefined _ _ _ hc ht hs (rampSteps_eq_none hc hs hfits)] at hrun
  exact absurd hrun (by simp)

namespace SyncRequest

variable (r : SyncRequest)

def usedShift : ℚ := selectShift r.timeDiff |r.shift| r.shift2 r.stepThreshold

def Dwells : Prop := r.usedShift ≠ 0 ∧ 1 ≤ |r.timeDiff| * 100 / r.usedShift

/-- The call divides by no zero, its counts are `int`s, and so does the handler
of the timer that it armed, in any state it may find. -/
def Sound : Prop :=
  ∀ (H : Type) (phy : Device Callback Callback.Ans H) (ok : H → Prop)
    (wait : World Unit (Recorded H) → Option (World Unit (Recorded H)))
    (w : World Unit (Recorded H)) (c : ℚ), Returns phy ok → DecodesTo phy ok c →
      ok w.hw.state → ∃ ret w',
        (programPhy callbacks r.timeDiff r.shift r.shift2 r.stepThreshold r.waitBetweenSteps r.reset
            r.commit).run (recordedExec phy wait) w = some (ret, w') ∧
          (ret = 0 → r.Dwells → r.commit = true → r.reset = true →
            ∀ (h : Recorded H) (clientDone : Bool), ok h.state → ∃ w'',
              (resetPhyRegs callbacks).run (recordedExec phy wait)
                { w' with hw := h, clientDone := clientDone } = some ((), w''))

structure StepsFit : Prop where
  dwell : r.usedShift = 0 ∨ |r.timeDiff| * 100 / r.usedShift < intBound
  apply : r.commit = true → r.Dwells → RampFits r.usedShift r.shift
  restore : r.commit = true → r.Dwells → r.reset = true →
    RampFits (percentBack r.timeDiff r.usedShift) r.shift

variable {r}

theorem Accepted.usedShift_mem (h : r.Accepted) :
    0 ≤ r.usedShift ∧ r.usedShift ≤ 1 ∧ 0 ≤ r.shift := by
  unfold Accepted at h
  push Not at h
  obtain ⟨-, hs, hs2, hs1, hs21⟩ := h
  unfold usedShift selectShift
  rw [abs_of_nonneg hs]
  split
  · exact ⟨hs2, hs21, hs⟩
  · exact ⟨hs, hs1, hs⟩

/-- The duration that the call computes. -/
theorem calcStepsToSync_usedShift (h : r.Accepted)
    (hdwell : r.usedShift = 0 ∨ |r.timeDiff| * 100 / r.usedShift < intBound) : ∃ steps,
      calcStepsToSync r.timeDiff r.usedShift = some steps ∧ (steps ≠ 0 ↔ r.Dwells) := by
  by_cases hzero : r.usedShift = 0
  · refine ⟨0, ?_, iff_of_false (fun h => h rfl) fun h => h.1 hzero⟩
    unfold calcStepsToSync
    rw [if_pos hzero]
  · have hpos : 0 < r.usedShift := lt_of_le_of_ne h.usedShift_mem.1 (Ne.symm hzero)
    refine ⟨⌊|r.timeDiff| * 100 / r.usedShift⌋, ?_, ?_⟩
    · rw [calcStepsToSync_eq hpos, if_pos (hdwell.resolve_left hzero)]
    · have hnonneg : 0 ≤ ⌊|r.timeDiff| * 100 / r.usedShift⌋ :=
        Int.floor_nonneg.mpr (by positivity)
      unfold Dwells
      rw [← Int.cast_one, ← Int.le_floor]
      constructor
      · intro hne
        exact ⟨hzero, by omega⟩
      · intro hone
        omega

theorem StepsFit.sound (hr : r.Accepted) (h : r.StepsFit) : r.Sound := by
  intro H phy ok wait w c hphy hdecodes hok
  obtain ⟨hu, hu1, hs⟩ := hr.usedShift_mem
  obtain ⟨steps, hdwell, hsteps⟩ := calcStepsToSync_usedShift hr h.dwell
  obtain ⟨h1, hok1, hprogram⟩ := hphy.programPhy_eq wait _ hok hdecodes hdwell
    r.waitBetweenSteps r.reset r.commit
  rw [show selectShift r.timeDiff |r.shift| r.shift2 r.stepThreshold = r.usedShift from rfl,
    abs_of_nonneg hs] at hprogram
  cases hcommit : r.commit with
  | false =>
      rw [hcommit, applyCorrection_idle (Or.inl rfl)] at hprogram
      exact ⟨0, _, hprogram, fun _ _ hcommit' => absurd hcommit' (by simp)⟩
  | true =>
      rw [hcommit] at hprogram
      by_cases hdwells : r.Dwells
      · by_cases hc : 0 < c
        · have hpos : 0 < r.usedShift := lt_of_le_of_ne hu (Ne.symm hdwells.1)
          have hmod := shiftedClock_pos (t := r.timeDiff) hc hpos hu1
          have hforth := h.apply hcommit hdwells
          rw [← percentOf_shiftedClock hc hu r.timeDiff] at hforth
          obtain ⟨n, size, hramp⟩ := rampSteps_of_fits hc hforth
          obtain ⟨ret, w', calls, hrun, hok', hflag, hbase, -, -, -⟩ :=
            hphy.applyCorrection_run wait (w.log h1 _) hok1 hc hmod hs hramp
              (hsteps.mpr hdwells) r.waitBetweenSteps r.reset
          refine ⟨ret, w', hprogram.trans hrun, fun _ _ _ hreset h2 clientDone hok2 => ?_⟩
          have hback := h.restore hcommit hdwells hreset
          rw [← percentOf_back hc hu hu1 r.timeDiff] at hback
          obtain ⟨n', size', hramp'⟩ := rampSteps_of_fits hmod hback
          obtain ⟨w'', -, hresetRun, -⟩ := hphy.resetPhyRegs_run wait
            { w' with hw := h2, clientDone := clientDone } hok2
            (by rw [hbase.mod]; exact hmod) (by rw [hbase.orig]; exact hc)
            (by rw [hbase.shift]; exact hs)
            (by rw [hbase.mod, hbase.orig, hbase.shift]; exact hramp')
          exact ⟨w'', hresetRun⟩
        · rw [applyCorrection_invalid _ _ hc (hsteps.mpr hdwells)] at hprogram
          exact ⟨1, _, hprogram, fun hret => absurd hret one_ne_zero⟩
      · rw [applyCorrection_idle (Or.inr (not_not.mp fun hne => hdwells (hsteps.mp hne)))]
          at hprogram
        exact ⟨0, _, hprogram, fun _ hdwells' => absurd hdwells' hdwells⟩

theorem Sound.stepsFit (hr : r.Accepted) (h : r.Sound) : r.StepsFit := by
  obtain ⟨hu, hu1, hs⟩ := hr.usedShift_mem
  obtain ⟨ret, w', hrun, hreset⟩ := h Unit (steadyPhy 1) (fun _ => True) (fun _ => none)
    steadyWorld 1 (steadyPhy_succeeds 1).toReturns (steadyPhy_decodesTo 1) trivial
  have hphy := (steadyPhy_succeeds 1).toReturns
  have hint : r.usedShift = 0 ∨ |r.timeDiff| * 100 / r.usedShift < intBound := by
    by_contra hlarge
    push Not at hlarge
    have hpos : 0 < r.usedShift := lt_of_le_of_ne hu (Ne.symm hlarge.1)
    have hdwell : calcStepsToSync r.timeDiff r.usedShift = none := by
      rw [calcStepsToSync_eq hpos, if_neg (not_lt.mpr hlarge.2)]
    rw [programPhy_undefined _ _ hdwell] at hrun
    exact absurd hrun (by simp)
  obtain ⟨steps, hdwell, hsteps⟩ := calcStepsToSync_usedShift hr hint
  obtain ⟨h1, hok1, hprogram⟩ := hphy.programPhy_eq (fun _ => none) steadyWorld
    trivial (steadyPhy_decodesTo 1) hdwell r.waitBetweenSteps r.reset r.commit
  rw [show selectShift r.timeDiff |r.shift| r.shift2 r.stepThreshold = r.usedShift from rfl,
    abs_of_nonneg hs] at hprogram
  have hforth : r.commit = true → r.Dwells → RampFits r.usedShift r.shift := by
    intro hcommit hdwells
    by_contra hfits
    have hpos : 0 < r.usedShift := lt_of_le_of_ne hu (Ne.symm hdwells.1)
    rw [← percentOf_shiftedClock one_pos hu r.timeDiff] at hfits
    rw [hcommit, applyCorrection_undefined _ _ one_pos (shiftedClock_pos one_pos hpos hu1) hs
      (rampSteps_eq_none one_pos hs hfits) (hsteps.mpr hdwells)] at hprogram
    rw [hcommit, hprogram] at hrun
    exact absurd hrun (by simp)
  refine ⟨hint, hforth, fun hcommit hdwells hresets => ?_⟩
  by_contra hfits
  have hpos : 0 < r.usedShift := lt_of_le_of_ne hu (Ne.symm hdwells.1)
  have hmod := shiftedClock_pos (t := r.timeDiff) one_pos hpos hu1
  have hfits' := hforth hcommit hdwells
  rw [← percentOf_shiftedClock one_pos hu r.timeDiff] at hfits'
  rw [← percentOf_back one_pos hu hu1 r.timeDiff] at hfits
  obtain ⟨n, size, hramp⟩ := rampSteps_of_fits one_pos hfits'
  obtain ⟨ret', w1, -, happly, -, -, hbase, -, -, hret⟩ :=
    hphy.applyCorrection_run (fun _ => none) (steadyWorld.log h1 _) hok1 one_pos hmod
      hs hramp (hsteps.mpr hdwells) r.waitBetweenSteps r.reset
  rw [hcommit] at hprogram hrun
  obtain ⟨hret', rfl⟩ := Prod.mk.inj (Option.some.inj (hrun.symm.trans (hprogram.trans happly)))
  obtain ⟨w'', hresetRun⟩ := hreset (hret'.trans (hret (steadyPhy_succeeds 1))) hdwells hcommit
    hresets w'.hw w'.clientDone trivial
  rw [resetPhyRegs_undefined _ _ (by rw [hbase.mod]; exact hmod) (by rw [hbase.orig]; exact one_pos)
    (by rw [hbase.shift]; exact hs)
    (by rw [hbase.mod, hbase.orig, hbase.shift]; exact rampSteps_eq_none hmod hs hfits)]
    at hresetRun
  exact absurd hresetRun (by simp)

end SyncRequest

/-- When the computations of `set_pll_clock` and of `synchronize_vsync` are sound. -/
theorem computations_sound_iff {current target shift : ℚ} (ht : 0 < target) (hs : 0 ≤ shift)
    {r : SyncRequest} (hr : r.Accepted) :
    (SetPllClockSound current target shift ↔
        (0 < current → RampFits (percentOf current target) shift)) ∧
      (r.Sound ↔ r.StepsFit) := by
  constructor
  · exact ⟨fits_of_setPllClockSound ht hs, setPllClockSound_of_fits ht hs⟩
  · exact ⟨fun h => h.stepsFit hr, fun h => h.sound hr⟩

/-- The defaults: shifts of a hundredth and a tenth of a percent. -/
theorem computations_sound_iff_defaults :
    SetPllClockSound 8100000 8108100 (1 / 100) ∧
      (⟨10, 0, 1 / 100, 1 / 10, 1000, 50, true, true⟩ : SyncRequest).Sound := by
  have h := @computations_sound_iff 8100000 8108100 (1 / 100) (by norm_num) (by norm_num)
    ⟨10, 0, 1 / 100, 1 / 10, 1000, 50, true, true⟩ (by decide +kernel)
  constructor
  · exact h.1.mpr fun _ => by decide +kernel
  · apply h.2.mpr
    exact ⟨Or.inr (by decide +kernel), fun _ _ => by decide +kernel, fun _ _ _ => by decide +kernel⟩

/-- A zero shift beside a positive second shift makes the step size zero. -/
theorem zero_shift_unsound :
    (⟨10, 0, 0, 1 / 10, 1000, 50, true, true⟩ : SyncRequest).Accepted ∧
      ¬(⟨10, 0, 0, 1 / 10, 1000, 50, true, true⟩ : SyncRequest).Sound := by
  have haccepted : (⟨10, 0, 0, 1 / 10, 1000, 50, true, true⟩ : SyncRequest).Accepted := by
    decide +kernel
  refine ⟨haccepted, fun h => ?_⟩
  have hfits := (h.stepsFit haccepted).apply rfl ⟨by decide +kernel, by decide +kernel⟩
  exact absurd hfits (by decide +kernel)

end Genlock.Vsyncalter
