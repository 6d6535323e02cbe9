import Genlock.Lib.Approach
import Genlock.Pllctl.Main

/-! # Approaching a refresh period

The `-R` loop of pllctl over what it asks of its surroundings, and with a plant
that is ideal: a clock is set exactly, the measured interval is inverse to it and
nothing interrupts the run.
-/

namespace Genlock.Pllctl

open Vsyncalter Approach

/-! ## The loop and its surroundings -/

/-- `thread_continue` before an iteration, `set_pll_clock` and
`get_vblank_interval` in microseconds. -/
structure Plant (m : Type → Type) where
  continues : ℕ → m Bool
  setPllClock : ℚ → m Unit
  getVblankInterval : ℕ → m ℚ

def tolerance : ℚ := 0.1

/-- The loop with `left` iterations to go; it ends with the number of iterations
made and the last interval. -/
def refreshLoop {m : Type → Type} [Monad m] (plant : Plant m) (refreshPeriod : ℚ) :
    ℕ → (iteration : ℕ) → (pllClock interval : ℚ) → m (ℕ × ℚ)
  | 0, iteration, _, interval => pure (iteration, interval)
  | left + 1, iteration, pllClock, interval => do
      let threadContinue ← plant.continues iteration
      if |interval - refreshPeriod| > tolerance ∧ threadContinue = true then
        let pllClock := adjustedClock pllClock interval refreshPeriod
        plant.setPllClock pllClock
        let interval ← plant.getVblankInterval (iteration + 1)
        refreshLoop plant refreshPeriod left (iteration + 1) pllClock interval
      else return (iteration, interval)

def sessionPlant (o : Options) (host : Host) : Plant TracedM where
  continues iteration := do
    terminateSignal host iteration
    let σ ← get
    return !σ.machine.libClientDone
  setPllClock pllClock := do
    let σ ← get
    let _ ← libSetPllClock σ.library pllClock o.pipe o.shift (toU32 o.waitBetweenSteps)
  getVblankInterval iteration := return host.interval iteration

/-- The loop of the tool is this loop on the library. -/
theorem adjustLoop_eq (o : Options) (host : Host) (left iteration : ℕ) (pllClock interval : ℚ) :
    adjustLoop o host left iteration pllClock interval = (do
      let _ ← refreshLoop (sessionPlant o host) o.refreshPeriod left iteration pllClock interval) := by
  induction left generalizing iteration pllClock interval with
  | zero => rfl
  | succ left ih =>
      rw [adjustLoop, refreshLoop]
      simp only [sessionPlant, bind_assoc, pure_bind]
      congr 1
      funext _ σ
      have hget (f : Session → TracedM Unit) : (get >>= f) σ = f σ σ := rfl
      rw [hget, hget]
      have hcond : (|interval - o.refreshPeriod| > tolerance ∧ (!σ.machine.libClientDone) = true) ↔
          |interval - o.refreshPeriod| > 1 / 10 ∧ σ.machine.libClientDone = false := by
        rw [Bool.not_eq_true']
        norm_num [tolerance]
      by_cases hgo : |interval - o.refreshPeriod| > 1 / 10 ∧ σ.machine.libClientDone = false
      · rw [if_pos hgo, if_pos (hcond.mpr hgo), bind_assoc, hget]
        simp only [bind_assoc, ih]
        rfl
      · rw [if_neg hgo, if_neg (mt hcond.mp hgo)]
        rfl

/-! ## The ideal plant -/

def idealPlant (K : ℚ) : Plant (StateM ℚ) where
  continues _ := return true
  setPllClock pllClock := set pllClock
  getVblankInterval _ := return K / (← get)

def refreshRun (K refreshPeriod pllClock : ℚ) : ℕ × ℚ :=
  ((refreshLoop (idealPlant K) refreshPeriod maxIterations 0 pllClock (K / pllClock)).run pllClock).1

def Converges (K refreshPeriod pllClock : ℚ) : Prop :=
  (refreshRun K refreshPeriod pllClock).1 < maxIterations ∧
    |(refreshRun K refreshPeriod pllClock).2 - refreshPeriod| ≤ tolerance

def smallIncrement : ℚ := 1 / 1000 / 100

def clockAfter (pllClock : ℚ) (a b : ℕ) : ℚ :=
  pllClock * ((1 + smallIncrement) ^ a * (1 - smallIncrement) ^ b)

def intervalAfter (interval : ℚ) (a b : ℕ) : ℚ :=
  interval / ((1 + smallIncrement) ^ a * (1 - smallIncrement) ^ b)

section Ideal

variable (K refreshPeriod pllClock : ℚ)

theorem div_clockAfter (a b : ℕ) : K / clockAfter pllClock a b = intervalAfter (K / pllClock) a b :=
  (div_div _ _ _).symm

/-- A long interval is shortened, a short one prolonged. -/
theorem adjustedClock_of_le {interval : ℚ} (h : refreshPeriod ≤ interval) (a b : ℕ) :
    adjustedClock (clockAfter pllClock a b) interval refreshPeriod = clockAfter pllClock (a + 1) b := by
  unfold adjustedClock clockAfter smallIncrement
  rw [if_neg (by linarith)]
  ring

theorem adjustedClock_of_lt {interval : ℚ} (h : interval < refreshPeriod) (a b : ℕ) :
    adjustedClock (clockAfter pllClock a b) interval refreshPeriod = clockAfter pllClock a (b + 1) := by
  unfold adjustedClock clockAfter smallIncrement
  rw [if_pos (by linarith)]
  ring

theorem run_refreshLoop_succ (left iteration : ℕ) (interval : ℚ) :
    (refreshLoop (idealPlant K) refreshPeriod (left + 1) iteration pllClock interval).run pllClock =
      if |interval - refreshPeriod| > tolerance then
        (refreshLoop (idealPlant K) refreshPeriod left (iteration + 1)
          (adjustedClock pllClock interval refreshPeriod)
          (K / adjustedClock pllClock interval refreshPeriod)).run
            (adjustedClock pllClock interval refreshPeriod)
      else ((iteration, interval), pllClock) := by
  rw [refreshLoop]
  by_cases h : |interval - refreshPeriod| > tolerance
  · rw [if_pos h]
    show (ite _ _ _ : StateM ℚ (ℕ × ℚ)).run pllClock = _
    rw [if_pos ⟨h, rfl⟩]
    rfl
  · rw [if_neg h]
    show (ite _ _ _ : StateM ℚ (ℕ × ℚ)).run pllClock = _
    rw [if_neg fun hgo => h hgo.1]
    rfl

/-- The loop walks to the band. -/
theorem refreshLoop_iff (left a b : ℕ) :
    let r := ((refreshLoop (idealPlant K) refreshPeriod left (a + b) (clockAfter pllClock a b)
      (intervalAfter (K / pllClock) a b)).run (clockAfter pllClock a b)).1
    (r.1 < a + b + left ∧ |r.2 - refreshPeriod| ≤ tolerance) ↔
      (stepsToBand (intervalAfter (K / pllClock)) (refreshPeriod - tolerance)
        (refreshPeriod + tolerance) left a b).isSome = true := by
  induction left generalizing a b with
  | zero => exact iff_of_false (fun h => absurd h.1 (lt_irrefl _)) (by simp [stepsToBand])
  | succ left ih =>
      dsimp only at ih ⊢
      have htol : (0 : ℚ) < tolerance := by norm_num [tolerance]
      have hlast : a + b + (left + 1) = a + 1 + b + left := by omega
      have hlast' : a + b + (left + 1) = a + (b + 1) + left := by omega
      have hnext : a + b + 1 = a + 1 + b := by omega
      rw [run_refreshLoop_succ, stepsToBand]
      by_cases habove : refreshPeriod + tolerance < intervalAfter (K / pllClock) a b
      · have hfar : |intervalAfter (K / pllClock) a b - refreshPeriod| > tolerance :=
          lt_abs.mpr (Or.inl (by linarith))
        rw [if_pos hfar, if_pos habove, adjustedClock_of_le _ _ (by linarith), div_clockAfter, ← ih,
          hnext, hlast]
      · rw [if_neg habove]
        by_cases hbelow : intervalAfter (K / pllClock) a b < refreshPeriod - tolerance
        · have hfar : |intervalAfter (K / pllClock) a b - refreshPeriod| > tolerance :=
            lt_abs.mpr (Or.inr (by linarith))
          rw [if_pos hfar, if_pos hbelow, adjustedClock_of_lt _ _ (by linarith), div_clockAfter, ← ih,
            Nat.add_assoc a b 1, hlast']
        · have hnear : |intervalAfter (K / pllClock) a b - refreshPeriod| ≤ tolerance :=
            abs_le.mpr ⟨by linarith, by linarith⟩
          rw [if_neg (not_lt.mpr hnear), if_neg hbelow]
          have hfew : a + b < a + b + (left + 1) := by omega
          exact iff_of_true ⟨hfew, hnear⟩ rfl

/-- The run converges exactly if some steps up and down lead into the band. -/
theorem converges_iff_isSome : Converges K refreshPeriod pllClock ↔
    (stepsToBand (intervalAfter (K / pllClock)) (refreshPeriod - tolerance)
      (refreshPeriod + tolerance) maxIterations 0 0).isSome = true := by
  have h := refreshLoop_iff K refreshPeriod pllClock maxIterations 0 0
  have hclock : clockAfter pllClock 0 0 = pllClock := by simp [clockAfter]
  have hinterval : intervalAfter (K / pllClock) 0 0 = K / pllClock := by simp [intervalAfter]
  rw [hclock, hinterval, Nat.add_zero, Nat.zero_add] at h
  exact h

end Ideal

/-! ## Where the steps lead -/

theorem increment_pos : 0 < smallIncrement := by norm_num [smallIncrement]

theorem down_pos : 0 < 1 + smallIncrement := by norm_num [smallIncrement]

theorem up_pos : 0 < 1 - smallIncrement := by norm_num [smallIncrement]

section Steps

variable {interval refreshPeriod : ℚ}

theorem intervalAfter_succ_left (interval : ℚ) (a b : ℕ) :
    intervalAfter interval (a + 1) b = intervalAfter interval a b / (1 + smallIncrement) := by
  unfold intervalAfter
  rw [div_div, pow_succ]
  congr 1
  ring

theorem intervalAfter_succ_right (interval : ℚ) (a b : ℕ) :
    intervalAfter interval a (b + 1) = intervalAfter interval a b / (1 - smallIncrement) := by
  unfold intervalAfter
  rw [div_div, pow_succ]
  congr 1
  ring

theorem intervalAfter_pos (h : 0 < interval) (a b : ℕ) : 0 < intervalAfter interval a b :=
  div_pos h (mul_pos (pow_pos down_pos a) (pow_pos up_pos b))

theorem intervalAfter_antitone (h : 0 < interval) (b : ℕ) :
    Antitone fun a => intervalAfter interval a b := by
  apply antitone_nat_of_succ_le
  intro a
  rw [intervalAfter_succ_left]
  exact div_le_self (intervalAfter_pos h a b).le (by linarith [increment_pos])

theorem intervalAfter_monotone (h : 0 < interval) (a : ℕ) : Monotone (intervalAfter interval a) := by
  apply monotone_nat_of_le_succ
  intro b
  rw [intervalAfter_succ_right]
  exact le_div_self (intervalAfter_pos h a b).le up_pos (by linarith [increment_pos])

theorem near_iff (x y d : ℚ) : |x - y| ≤ d ↔ x ∈ Set.Icc (y - d) (y + d) := by
  rw [abs_le, Set.mem_Icc]
  constructor
  · intro h
    constructor <;> linarith
  · intro h
    constructor <;> linarith [h.1, h.2]

theorem le_down_pow (n : ℕ) : 1 + n * smallIncrement ≤ (1 + smallIncrement) ^ n :=
  one_add_mul_le_pow (by linarith [increment_pos]) n

theorem up_pow_mul_le (n : ℕ) : (1 - smallIncrement) ^ n * (1 + n * smallIncrement) ≤ 1 :=
  calc (1 - smallIncrement) ^ n * (1 + n * smallIncrement)
      ≤ (1 - smallIncrement) ^ n * (1 + smallIncrement) ^ n :=
        mul_le_mul_of_nonneg_left (le_down_pow n) (pow_nonneg up_pos.le n)
    _ = ((1 - smallIncrement) * (1 + smallIncrement)) ^ n := (mul_pow _ _ n).symm
    _ ≤ 1 := pow_le_one₀ (by norm_num [smallIncrement]) (by norm_num [smallIncrement])

/-- From above, enough steps lead below the upper end of the band, and none
crosses the band. -/
theorem near_of_above (hR : 0 < refreshPeriod) (hsmall : refreshPeriod ≤ 199999 / 10)
    (habove : refreshPeriod - tolerance ≤ interval) {N : ℕ}
    (hinit : interval ≤ refreshPeriod * (1 + N * smallIncrement)) :
    ∃ n ≤ N, intervalAfter interval n 0 ∈
      Set.Icc (refreshPeriod - tolerance) (refreshPeriod + tolerance) := by
  have htol : (0 : ℚ) < tolerance := by norm_num [tolerance]
  apply exists_mem_of_le
  · simpa [intervalAfter] using habove
  · intro n hn
    rw [intervalAfter_succ_left, le_div_iff₀ down_pos]
    unfold smallIncrement tolerance at *
    linarith
  · have hpow : refreshPeriod * (1 + N * smallIncrement) ≤ refreshPeriod * (1 + smallIncrement) ^ N :=
      mul_le_mul_of_nonneg_left (le_down_pow N) hR.le
    have hle : intervalAfter interval N 0 ≤ refreshPeriod := by
      unfold intervalAfter
      rw [pow_zero, mul_one, div_le_iff₀ (pow_pos down_pos _)]
      linarith
    linarith

theorem near_of_below (hsmall : refreshPeriod ≤ 199999 / 10)
    (hbelow : interval ≤ refreshPeriod + tolerance) (hpos : 0 < interval) {N : ℕ}
    (hinit : refreshPeriod ≤ interval * (1 + N * smallIncrement)) :
    ∃ n ≤ N, intervalAfter interval 0 n ∈
      Set.Icc (refreshPeriod - tolerance) (refreshPeriod + tolerance) := by
  have htol : (0 : ℚ) < tolerance := by norm_num [tolerance]
  apply exists_mem_of_ge
  · simpa [intervalAfter] using hbelow
  · intro n hn
    rw [intervalAfter_succ_right, div_le_iff₀ up_pos]
    unfold smallIncrement tolerance at *
    linarith
  · have hle : refreshPeriod ≤ intervalAfter interval 0 N := by
      unfold intervalAfter
      rw [pow_zero, one_mul, le_div_iff₀ (pow_pos up_pos _)]
      calc refreshPeriod * (1 - smallIncrement) ^ N
          ≤ interval * (1 + N * smallIncrement) * (1 - smallIncrement) ^ N :=
            mul_le_mul_of_nonneg_right hinit (pow_nonneg up_pos.le N)
        _ = interval * ((1 - smallIncrement) ^ N * (1 + N * smallIncrement)) := by ring
        _ ≤ interval * 1 := mul_le_mul_of_nonneg_left (up_pow_mul_le N) hpos.le
        _ = interval := mul_one _
    linarith

end Steps

/-! ## Convergence -/

theorem converges_iff {K refreshPeriod pllClock : ℚ} (hpos : 0 < K / pllClock) :
    Converges K refreshPeriod pllClock ↔ ∃ a b, a + b < maxIterations ∧
      |intervalAfter (K / pllClock) a b - refreshPeriod| ≤ tolerance := by
  rw [converges_iff_isSome,
    stepsToBand_isSome_iff (intervalAfter_antitone hpos) (intervalAfter_monotone hpos)]
  constructor
  · intro h
    obtain ⟨a, b, -, -, hfew, hmem⟩ := h
    exact ⟨a, b, by omega, (near_iff _ _ _).mpr hmem⟩
  · intro h
    obtain ⟨a, b, hfew, hnear⟩ := h
    exact ⟨a, b, Nat.zero_le a, Nat.zero_le b, by omega, (near_iff _ _ _).mp hnear⟩

/-- On an ideal plant, from an interval within half a percent, the loop ends in
the band exactly if some few steps up and down lead there; for periods up to
19999.9 they always do. -/
theorem refresh_converges (K refreshPeriod pllClock : ℚ) (hR : 1 < refreshPeriod)
    (hinit : |K / pllClock - refreshPeriod| ≤ refreshPeriod * (5 / 1000)) :
    (Converges K refreshPeriod pllClock ↔ ∃ a b, a + b < maxIterations ∧
      |intervalAfter (K / pllClock) a b - refreshPeriod| ≤ tolerance) ∧
    (refreshPeriod ≤ 199999 / 10 → Converges K refreshPeriod pllClock) := by
  have hclose := abs_le.mp hinit
  have hpos : 0 < K / pllClock := by linarith
  refine ⟨converges_iff hpos, fun hsmall => (converges_iff hpos).mpr ?_⟩
  have htol : (0 : ℚ) < tolerance := by norm_num [tolerance]
  cases le_total refreshPeriod (K / pllClock) with
  | inl habove =>
      obtain ⟨n, hn, hmem⟩ := near_of_above (N := 500) (by linarith) hsmall (by linarith)
        (show K / pllClock ≤ _ by norm_num [smallIncrement]; linarith)
      exact ⟨n, 0, by unfold maxIterations; omega, (near_iff _ _ _).mpr hmem⟩
  | inr hbelow =>
      obtain ⟨n, hn, hmem⟩ := near_of_below (N := 503) hsmall (by linarith) hpos
        (show refreshPeriod ≤ _ by norm_num [smallIncrement]; linarith)
      exact ⟨0, n, by unfold maxIterations; omega, (near_iff _ _ _).mpr hmem⟩

theorem refresh_converges_sixty_hertz : Converges 16700 (16666666 / 1000) 1 :=
  (refresh_converges 16700 (16666666 / 1000) 1 (by norm_num) (by norm_num [abs_le])).2 (by norm_num)

/-! ### A period that is swung around -/

/-- As many steps that prolong as shorten, or more, leave the interval longer. -/
theorem le_intervalAfter {interval : ℚ} (hpos : 0 < interval) {a b : ℕ} (hab : a ≤ b) :
    interval ≤ intervalAfter interval a b := by
  obtain ⟨c, rfl⟩ := Nat.exists_eq_add_of_le hab
  have hprod : (1 + smallIncrement) ^ a * (1 - smallIncrement) ^ (a + c) ≤ 1 :=
    calc (1 + smallIncrement) ^ a * (1 - smallIncrement) ^ (a + c)
        = ((1 + smallIncrement) * (1 - smallIncrement)) ^ a * (1 - smallIncrement) ^ c := by
          rw [pow_add, mul_pow, mul_assoc]
      _ ≤ 1 := mul_le_one₀ (pow_le_one₀ (by norm_num [smallIncrement]) (by norm_num [smallIncrement]))
          (pow_nonneg up_pos.le c) (pow_le_one₀ up_pos.le (by norm_num [smallIncrement]))
  exact le_div_self hpos.le (mul_pos (pow_pos down_pos _) (pow_pos up_pos _)) hprod

/-- One step more that shortens takes off a whole step, less what the pairs of
steps add. -/
theorem intervalAfter_le {interval : ℚ} (hpos : 0 < interval) {a b : ℕ} (hab : b < a) :
    intervalAfter interval a b * ((1 + smallIncrement) * (1 - b * smallIncrement ^ 2)) ≤ interval := by
  obtain ⟨c, rfl⟩ := Nat.exists_eq_add_of_lt hab
  have hpairs : 1 - b * smallIncrement ^ 2 ≤ ((1 + smallIncrement) * (1 - smallIncrement)) ^ b := by
    have h := one_add_mul_le_pow (show (-2 : ℚ) ≤ -smallIncrement ^ 2 by norm_num [smallIncrement]) b
    have hsq : (1 + smallIncrement) * (1 - smallIncrement) = 1 + -smallIncrement ^ 2 := by ring
    rw [hsq]
    linarith
  have hmore : 1 ≤ (1 + smallIncrement) ^ c := one_le_pow₀ (by linarith [increment_pos])
  have hfactor : (1 + smallIncrement) * (1 - b * smallIncrement ^ 2) ≤
      (1 + smallIncrement) ^ (b + c + 1) * (1 - smallIncrement) ^ b :=
    calc (1 + smallIncrement) * (1 - b * smallIncrement ^ 2)
        ≤ (1 + smallIncrement) * ((1 + smallIncrement) * (1 - smallIncrement)) ^ b :=
          mul_le_mul_of_nonneg_left hpairs down_pos.le
      _ ≤ (1 + smallIncrement) * ((1 + smallIncrement) * (1 - smallIncrement)) ^ b *
            (1 + smallIncrement) ^ c :=
          le_mul_of_one_le_right (mul_nonneg down_pos.le
            (pow_nonneg (mul_nonneg down_pos.le up_pos.le) b)) hmore
      _ = (1 + smallIncrement) ^ (b + c + 1) * (1 - smallIncrement) ^ b := by
          rw [mul_pow, pow_succ, pow_add]
          ring
  calc intervalAfter interval (b + c + 1) b * ((1 + smallIncrement) * (1 - b * smallIncrement ^ 2))
      ≤ intervalAfter interval (b + c + 1) b *
          ((1 + smallIncrement) ^ (b + c + 1) * (1 - smallIncrement) ^ b) :=
        mul_le_mul_of_nonneg_left hfactor (intervalAfter_pos hpos _ _).le
    _ = interval := div_mul_cancel₀ _ (mul_pos (pow_pos down_pos _) (pow_pos up_pos _)).ne'

/-- A display at 25 Hz, 0.2 microseconds too slow: a step is 0.4 microseconds, and
the loop swings around the band. -/
theorem refresh_swings : |(400002 / 10 : ℚ) / 1 - 40000| ≤ 40000 * (5 / 1000) ∧
    ¬Converges (400002 / 10) 40000 1 := by
  refine ⟨by norm_num [abs_le], fun h => ?_⟩
  rw [converges_iff (by norm_num), div_one] at h
  obtain ⟨a, b, hfew, hnear⟩ := h
  have hband := abs_le.mp hnear
  have hpos : (0 : ℚ) < 400002 / 10 := by norm_num
  by_cases hab : a ≤ b
  · have hlong := le_intervalAfter hpos hab
    norm_num [tolerance] at hband
    linarith [hband.2]
  · have hshort := intervalAfter_le hpos (not_le.mp hab)
    have hb : (b : ℚ) ≤ 500 := by
      have hb' : b ≤ 500 := by unfold maxIterations at hfew; omega
      exact_mod_cast hb'
    have hfactor : (1 + 994 / 10 ^ 8 : ℚ) ≤ (1 + smallIncrement) * (1 - b * smallIncrement ^ 2) := by
      norm_num [smallIncrement]
      linarith
    have hlow : (399999 / 10 : ℚ) ≤ intervalAfter (400002 / 10) a b := by
      norm_num [tolerance] at hband
      linarith [hband.1]
    have hlong : (399999 / 10 : ℚ) * (1 + 994 / 10 ^ 8) ≤ _ :=
      mul_le_mul hlow hfactor (by norm_num) (by linarith)
    norm_num at hlong
    linarith

end Genlock.Pllctl
