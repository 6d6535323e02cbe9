import Genlock.Swgenlock.PipeRuns
import Genlock.Vsyncalter.Plant

/-! # What a correction does to the offset

From the measured delta in µs, through the time difference in ms, the shift in
percent and the dwell in ms, to the phase that an ideal plant accumulates.
-/

namespace Genlock.Swgenlock

open CArith Vsyncalter

theorem syncRequest_timeDiff {cfg : PipeConfig} {duration : ℤ}
    (h : appliesOvershoot cfg duration = true) (delta : ℤ) :
    (syncRequest cfg (deltaMs delta) duration).timeDiff = -delta * (1 + cfg.overshootRatio) / 1000 := by
  simp only [syncRequest, adjustedDeltaMs, h, if_true, deltaMs, usInMs]
  ring

theorem phaseOf_pos {s : ℚ} {steps delay : ℤ} {n n' : ℕ} (hs : 0 < s) (hsteps : 1 ≤ steps)
    (hdelay : 0 ≤ delay) (hn' : 0 < n') : 0 < phaseOf s steps delay n n' := by
  have h1 : (1 : ℚ) ≤ steps := by exact_mod_cast hsteps
  have h2 : (0 : ℚ) ≤ delay := by exact_mod_cast hdelay
  have h3 : (0 : ℚ) ≤ n' - 1 := by
    have : (1 : ℚ) ≤ n' := by exact_mod_cast hn'
    linarith
  have h4 : (0 : ℚ) ≤ delay * (n' - 1) / 2 := by positivity
  have h5 : (0 : ℚ) ≤ if n > 1 then (delay : ℚ) * (n + 1) / 2 else 0 := by
    split
    · positivity
    · exact le_rfl
  unfold phaseOf
  exact mul_pos (by positivity) (by linarith)

/-- With one step each way only the cut of the dwell to whole ms is missing. -/
theorem phaseOf_single {t s : ℚ} (hs : 0 < s) (delay : ℤ) :
    1000 * phaseOf s ⌊100 * |t| / s⌋ delay 1 1 ≤ 1000 * |t| ∧
      1000 * |t| - 10 * s < 1000 * phaseOf s ⌊100 * |t| / s⌋ delay 1 1 := by
  have h1 := Int.floor_le (100 * |t| / s)
  have h2 := Int.lt_floor_add_one (100 * |t| / s)
  rw [le_div_iff₀ hs] at h1
  rw [div_lt_iff₀ hs] at h2
  have hphase : phaseOf s ⌊100 * |t| / s⌋ delay 1 1 = s / 100 * ⌊100 * |t| / s⌋ := by
    simp [phaseOf]
  rw [hphase]
  constructor <;> linarith

def overshotMs (cfg : PipeConfig) (delta : ℤ) : ℚ := -delta * (1 + cfg.overshootRatio) / 1000

theorem overshotMs_ne_zero {cfg : PipeConfig} {delta : ℤ} (hdelta : delta ≠ 0)
    (ho : 0 ≤ cfg.overshootRatio) : overshotMs cfg delta ≠ 0 := by
  have h1 : (delta : ℚ) ≠ 0 := by exact_mod_cast hdelta
  have h2 : 1 + cfg.overshootRatio ≠ 0 := by linarith
  exact div_ne_zero (mul_ne_zero (neg_ne_zero.mpr h1) h2) (by norm_num)

/-- The timer of a correction and its handler, then the offset that is left. -/
theorem correction_displacement (cfg : PipeConfig) (delta : ℤ) (w : World PlantReg Plant)
    (f s size size' : ℚ) (n n' : ℕ) (hdelta : delta ≠ 0) (ho : 0 ≤ cfg.overshootRatio)
    (hw0 : 0 ≤ cfg.waitBetweenSteps) (hw1 : cfg.waitBetweenSteps < 2 ^ 31) (hshift : 0 < cfg.shift)
    (hs : selectShift (overshotMs cfg delta) cfg.shift cfg.shift2 cfg.stepThreshold = s)
    (hs0 : 0 < s) (hs1 : s ≤ 1)
    (hsteps1 : 1 ≤ ⌊100 * |overshotMs cfg delta| / s⌋)
    (hsteps2 : ⌊100 * |overshotMs cfg delta| / s⌋ < 2 ^ 31)
    (hf : 0 < f) (hhw : w.hw = ⟨f, f, 0⟩) (hflag : w.clientDone = false)
    (hramp : rampSteps f (shiftedClock (overshotMs cfg delta) s f) cfg.shift = some (n, size))
    (hramp' : rampSteps (shiftedClock (overshotMs cfg delta) s f) f cfg.shift = some (n', size')) :
    (∀ duration, appliesOvershoot cfg duration = true →
      (syncRequest cfg (deltaMs delta) duration).timeDiff = overshotMs cfg delta) ∧
    ∃ w₁ w₂,
      runCaller plantDevice idealPhy (programPhy idealPhy (overshotMs cfg delta) cfg.shift cfg.shift2
          cfg.stepThreshold cfg.waitBetweenSteps true true) w = some (0, w₁) ∧
      runCaller plantDevice idealPhy (waitUntilDone idealPhy) w₁ = some ((), w₂) ∧
      w₂.hw.freq = f ∧
      SignType.sign w₂.hw.displacement = SignType.sign (overshotMs cfg delta) ∧
      |w₂.hw.displacement| = s / 100 * (⌊100 * |overshotMs cfg delta| / s⌋ +
        (if n > 1 then (cfg.waitBetweenSteps : ℚ) * (n + 1) / 2 else 0) +
          cfg.waitBetweenSteps * (n' - 1) / 2) ∧
      (n = 1 → n' = 1 →
        |delta + 1000 * w₂.hw.displacement - -(cfg.overshootRatio * delta)| < 10 * s) := by
  have hne : overshotMs cfg delta ≠ 0 := overshotMs_ne_zero hdelta ho
  have hmicro : (delta : ℚ) * (1 + cfg.overshootRatio) = -(1000 * overshotMs cfg delta) := by
    unfold overshotMs
    ring
  generalize htime : overshotMs cfg delta = td at *
  have hdwell : calcStepsToSync td s = some ⌊100 * |td| / s⌋ := by
    rw [calcStepsToSync_eq hs0, mul_comm |td|]
    exact if_pos (Int.floor_lt.mp hsteps2)
  obtain ⟨w₁, w₂, hrun, hrun', hhw', -⟩ := ideal_displacement hhw hflag hf hshift hs hs0 hs1
    hdwell (by omega) hw0 hw1 hramp hramp'
  have hphase := phaseOf_pos (n := n) hs0 hsteps1 hw0 (rampSteps_spec hshift.le hramp').1
  refine ⟨fun duration hover => (syncRequest_timeDiff hover delta).trans htime, w₁, w₂, hrun, hrun',
    by rw [hhw'], ?_, ?_, ?_⟩
  · rw [hhw']
    rcases lt_or_gt_of_ne hne with hneg | hpos
    · rw [if_neg hneg.not_gt, neg_one_mul, sign_neg (by linarith), sign_neg hneg]
    · rw [if_pos hpos, one_mul, sign_pos hphase, sign_pos hpos]
  · rw [hhw']
    rcases lt_or_gt_of_ne hne with hneg | hpos
    · rw [if_neg hneg.not_gt, neg_one_mul, abs_neg, abs_of_pos hphase]
      rfl
    · rw [if_pos hpos, one_mul, abs_of_pos hphase]
      rfl
  · rintro rfl rfl
    obtain ⟨h1, h2⟩ := phaseOf_single (t := td) hs0 cfg.waitBetweenSteps
    have hleft (x : ℚ) : (delta : ℚ) + 1000 * x - -(cfg.overshootRatio * delta) =
        1000 * x - 1000 * td := by
      linear_combination hmicro
    rw [hhw', hleft, abs_lt]
    rcases lt_or_gt_of_ne hne with hneg | hpos
    · rw [if_neg hneg.not_gt]
      rw [abs_of_neg hneg] at h1 h2 ⊢
      constructor <;> linarith
    · rw [if_pos hpos]
      rw [abs_of_pos hpos] at h1 h2 ⊢
      constructor <;> linarith

/-- The documented example: half an overshoot on 500 µs ends near -250 µs. -/
theorem correction_displacement_half :
    let cfg : PipeConfig := ⟨0, 100, 1 / 100, 480, 0, 0, 1 / 2, 1000, 50⟩
    let w : World PlantReg Plant := ⟨⟨100000, 100000, 0⟩, ⟨⟨false, 0, 0, 0, 0⟩, ⟨0, 0⟩⟩, false, none⟩
    ∃ w₂ : World PlantReg Plant, w₂.hw.freq = w.hw.freq ∧
      |500 + 1000 * w₂.hw.displacement - -250| < 10 * (1 / 100 : ℚ) ∧
        appliesOvershoot cfg 0 = true := by
  intro cfg w
  have hover : appliesOvershoot cfg 0 = true := by with_unfolding_all decide
  obtain ⟨-, _, w₂, -, -, hfreq, -, -, hleft⟩ := correction_displacement cfg 500 w 100000 (1 / 100)
    10 (-10) 1 1 (by decide) (by with_unfolding_all decide) (by decide) (by decide) (by with_unfolding_all decide)
    (by with_unfolding_all decide) (by norm_num) (by norm_num) (by with_unfolding_all decide) (by with_unfolding_all decide)
    (by norm_num) rfl rfl (by with_unfolding_all decide) (by with_unfolding_all decide)
  refine ⟨w₂, hfreq, ?_, hover⟩
  have h := hleft rfl rfl
  norm_num [cfg] at h ⊢
  exact h

end Genlock.Swgenlock
