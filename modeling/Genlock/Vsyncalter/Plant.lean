import Genlock.Vsyncalter.Ramp

/-! # An ideal plant

A PHY without quantisation: programming a clock makes the PLL run at it at once,
sleeps and the timer last as long as they were asked for. Against a reference
clock it accumulates phase, and the code of the base class moves the phase by
what the time difference asks for and what the two ramps add.
-/

namespace Genlock.Vsyncalter

open CArith

/-! ## The plant and its class -/

/-- The running clock, the reference clock and the phase accumulated against it,
in ms. -/
structure Plant where
  freq : ℚ
  ref : ℚ
  displacement : ℚ
deriving DecidableEq, Repr

inductive PlantOp where
  | read
  | program (clock : ℚ)

@[reducible] def PlantOp.Ans : PlantOp → Type
  | .read => ℚ
  | .program _ => Unit

/-- Phase per ms at a clock: positive when the clock is slow. -/
def Plant.drift (ref freq : ℚ) : ℚ := (ref - freq) / ref

def Plant.exec : (o : PlantOp) → Plant → Option (o.Ans × Plant)
  | .read, p => some (p.freq, p)
  | .program clock, p => some ((), { p with freq := clock })

def plantDevice : Device PlantOp PlantOp.Ans Plant where
  exec := Plant.exec
  elapse ms p := { p with displacement := p.displacement + Plant.drift p.ref p.freq * ms }

/-- The clocks in place of the divider registers, as read and as modified. -/
structure PlantReg where
  orig : ℚ
  mod : ℚ
deriving DecidableEq, Repr

def idealPhy : PhyClass PlantReg PlantOp PlantOp.Ans where
  readRegisters := do
    let clock ← onDev PlantOp.read
    modReg fun _ => ⟨clock, clock⟩
  calculatePllClock := do
    let o ← getObj
    return o.reg.orig
  calculateFeedbackDividers clock := do
    modReg fun r => { r with mod := clock }
    return 0
  programMmio mod := do
    let o ← getObj
    onDev (PlantOp.program (if mod then o.reg.mod else o.reg.orig))
    return 0

/-! ## Ramps -/

/-- Phase of the dwell after one step; a single step has none. -/
def dwell (ref : ℚ) (steps : ℕ) (delay : ℤ) (clock : ℚ) : ℚ :=
  if steps > 1 then Plant.drift ref clock * delay else 0

theorem sum_range_affine (n : ℕ) (a b : ℚ) :
    ((List.range n).map fun i : ℕ => a + (i + 1) * b).sum = n * a + b * (n * (n + 1) / 2) := by
  induction n with
  | zero => simp
  | succ n ih =>
      rw [List.range_succ, List.map_append, List.sum_append, ih]
      simp
      ring

theorem sum_dwell {ref : ℚ} (href : ref ≠ 0) (current target : ℚ) {n : ℕ} (hn : 0 < n) (delay : ℤ) :
    (((List.range n).map (rampClock current target n)).map (dwell ref n delay)).sum =
      if n > 1 then (n * (ref - current) - (target - current) * (n + 1) / 2) / ref * delay else 0 := by
  have hn0 : (n : ℚ) ≠ 0 := by exact_mod_cast hn.ne'
  rw [List.map_map]
  by_cases h : n > 1
  · rw [if_pos h]
    have hterm : ((List.range n).map (dwell ref n delay ∘ rampClock current target n)) =
        (List.range n).map fun i : ℕ => (ref - current) / ref * delay +
          (i + 1) * (-((target - current) / n) / ref * delay) := by
      refine List.map_congr_left fun i _ => ?_
      simp only [Function.comp_apply, dwell, if_pos h, Plant.drift, rampClock]
      field_simp
      ring
    rw [hterm, sum_range_affine]
    field_simp
    ring
  · obtain rfl : n = 1 := by omega
    simp [dwell]

def Plant.through (p : Plant) (steps : ℕ) (delay : ℤ) (clocks : List ℚ) : Plant where
  freq := clocks.getLastD p.freq
  ref := p.ref
  displacement := p.displacement + (clocks.map (dwell p.ref steps delay)).sum

theorem Plant.through_cons (p : Plant) (steps : ℕ) (delay : ℤ) (x : ℚ) (clocks : List ℚ) :
    (p.through steps delay [x]).through steps delay clocks = p.through steps delay (x :: clocks) := by
  cases clocks <;> simp [Plant.through, add_assoc, List.getLast?_cons]

section Runs

variable {v : World PlantReg Plant → Option (World PlantReg Plant)} {w : World PlantReg Plant}

theorem ideal_programMmio_run (mod : Bool) :
    (idealPhy.programMmio mod).run (execOp plantDevice v) w =
      some (0, w.put { w.hw with freq := if mod then w.obj.reg.mod else w.obj.reg.orig } w.obj.reg) :=
  rfl

theorem ideal_stepBody_run (x : ℚ) (steps : ℕ) (delay : ℤ) :
    (stepBody idealPhy x steps delay true).run (execOp plantDevice v) w =
      some (0, w.put (w.hw.through steps delay [x]) { w.obj.reg with mod := x }) := by
  have hcalc : (idealPhy.calculateFeedbackDividers x).run (execOp plantDevice v) w =
      some (0, w.put w.hw { w.obj.reg with mod := x }) := rfl
  unfold stepBody
  rw [Prog.run_bind_of hcalc]
  simp only [ne_eq, not_true_eq_false, if_false, if_true]
  rw [Prog.run_bind_of (run_enterProgram true), Prog.run_bind_of (ideal_programMmio_run true)]
  simp only [not_true_eq_false, if_false]
  by_cases h : steps > 1
  · rw [if_pos h, Prog.run_bind_of (run_osUsleep _)]
    simp [Plant.through, dwell, if_pos h, World.put, plantDevice]
  · rw [if_neg h]
    simp [Plant.through, dwell, if_neg h, World.put]

theorem ideal_stepLoop_run (target size : ℚ) (steps : ℕ) (delay : ℤ) (left : ℕ) (x : ℚ)
    (hflag : w.clientDone = false) : ∃ mod,
      (stepLoop idealPhy target size steps delay true left x).run (execOp plantDevice v) w =
        some (0, w.put (w.hw.through steps delay (requests target size left x))
          { w.obj.reg with mod := mod }) := by
  induction left generalizing w x with
  | zero =>
      refine ⟨w.obj.reg.mod, ?_⟩
      simp only [stepLoop, requests, Plant.through, List.map_nil, List.sum_nil, add_zero, Prog.pure_def,
        Prog.run_pure]
      rfl
  | succ left ih =>
      obtain ⟨mod, hloop⟩ := ih (w := w.put (w.hw.through steps delay
        [if left = 0 then target else x + size]) { w.obj.reg with
          mod := if left = 0 then target else x + size }) _ hflag
      refine ⟨mod, ?_⟩
      unfold stepLoop
      rw [Prog.run_bind_of run_libClientDone, hflag]
      simp only [Bool.false_eq_true, if_false]
      rw [Prog.run_bind_of (ideal_stepBody_run _ _ _)]
      simp only [ne_eq, not_true_eq_false, if_false]
      refine hloop.trans ?_
      rw [World.put_hw, World.put_reg, World.put_put, Plant.through_cons]
      rfl

/-- A ramp of the plant: it ends at its target and every step has dwelt. -/
theorem ideal_setPllClockFrom_run {current target shift size : ℚ} {n : ℕ}
    (hflag : w.clientDone = false) (href : w.hw.ref ≠ 0) (hcurrent : 0 < current)
    (htarget : 0 < target) (hshift : 0 ≤ shift)
    (hramp : rampSteps current target shift = some (n, size)) (delay : ℤ) : ∃ mod,
      (setPllClockFrom idealPhy current target shift delay true).run (execOp plantDevice v) w =
        some (0, w.put ⟨target, w.hw.ref, w.hw.displacement + if n > 1 then
            (n * (w.hw.ref - current) - (target - current) * (n + 1) / 2) / w.hw.ref * delay else 0⟩
          { w.obj.reg with mod := mod }) := by
  obtain ⟨mod, hrun⟩ := ideal_stepLoop_run (v := v) (w := w) target size n delay n
    current hflag
  refine ⟨mod, ?_⟩
  unfold setPllClockFrom
  rw [if_neg (by push Not; exact ⟨hcurrent, htarget, hshift⟩), hramp]
  refine hrun.trans ?_
  obtain ⟨before, hbefore⟩ := requests_concat hshift hramp
  have hlast : (requests target size n current).getLastD w.hw.freq = target := by
    rw [hbefore]
    simp
  have hsum := sum_dwell href current target (rampSteps_spec hshift hramp).1 delay
  rw [← requests_eq hshift hramp] at hsum
  rw [Plant.through, hlast, hsum]

/-- `program_phy`: the plant runs at the shifted clock and the timer is armed. -/
theorem ideal_programPhy_run {f d td shift shift2 s size : ℚ} {threshold steps : ℤ} {n : ℕ}
    (delay : ℤ) (hhw : w.hw = ⟨f, f, d⟩) (hflag : w.clientDone = false) (hf : 0 < f) (hshift : 0 < shift)
    (hs : selectShift td shift shift2 threshold = s) (hs0 : 0 < s) (hs1 : s ≤ 1)
    (hsteps : calcStepsToSync td s = some steps) (hne : steps ≠ 0)
    (hramp : rampSteps f (shiftedClock td s f) shift = some (n, size)) : ∃ mod,
      (programPhy idealPhy td shift shift2 threshold delay true true).run (execOp plantDevice v) w =
        some (0, {
          hw := ⟨shiftedClock td s f, f, d + if n > 1 then
            (n * (f - f) - (shiftedClock td s f - f) * (n + 1) / 2) / f * toU32 delay else 0⟩
          obj := ⟨⟨false, f, shiftedClock td s f, shift, delay⟩, ⟨f, mod⟩⟩
          clientDone := false
          timer := some steps }) := by
  obtain ⟨hw, ⟨base, reg⟩, flag, timer⟩ := w
  obtain rfl : hw = ⟨f, f, d⟩ := hhw
  obtain rfl : flag = false := hflag
  obtain ⟨mod, hset⟩ := ideal_setPllClockFrom_run (v := v)
    (w := ⟨⟨f, f, d⟩, ⟨{ base with
      pllFreqOrig := f, pllFreqMod := shiftedClock td s f, usedShift := shift }, ⟨f, f⟩⟩, false, timer⟩)
    rfl hf.ne' hf (shiftedClock_pos hf hs0 hs1) hshift.le hramp (toU32 delay)
  refine ⟨mod, ?_⟩
  have hread : idealPhy.readRegisters.run (execOp plantDevice v)
      ⟨⟨f, f, d⟩, ⟨base, reg⟩, false, timer⟩ =
      some ((), ⟨⟨f, f, d⟩, ⟨base, ⟨f, f⟩⟩, false, timer⟩) := rfl
  have hclock : idealPhy.calculatePllClock.run (execOp plantDevice v)
      ⟨⟨f, f, d⟩, ⟨base, ⟨f, f⟩⟩, false, timer⟩ =
      some (f, ⟨⟨f, f, d⟩, ⟨base, ⟨f, f⟩⟩, false, timer⟩) := rfl
  unfold programPhy
  rw [abs_of_pos hshift, hs]
  dsimp only
  rw [hsteps]
  dsimp only
  rw [Prog.run_bind_of hread]
  unfold programPhyLoaded
  rw [Prog.run_bind_of hclock, Prog.run_bind_of (run_modBase _)]
  simp only [Bool.not_true, Bool.false_or, beq_iff_eq, hne, if_false]
  exact (Prog.run_bind_of hset).trans rfl

/-- `wait_until_done`: the timer expires, its handler ramps back and writes the
original clock. -/
theorem ideal_waitUntilDone_run {f f' d shift size : ℚ} {n : ℕ} (mod : ℚ) (delay steps : ℤ) (hf : 0 < f)
    (hf' : 0 < f') (hshift : 0 < shift) (hramp : rampSteps f' f shift = some (n, size)) : ∃ mod',
      runCaller plantDevice idealPhy (waitUntilDone idealPhy)
          ⟨⟨f', f, d⟩, ⟨⟨false, f, f', shift, delay⟩, ⟨f, mod⟩⟩, false, some steps⟩ =
        some ((), {
          hw := ⟨f, f, d + Plant.drift f f' * steps + if n > 1 then
            (n * (f - f') - (f - f') * (n + 1) / 2) / f * toU32 delay else 0⟩
          obj := ⟨⟨true, f, f', shift, delay⟩, ⟨f, mod'⟩⟩
          clientDone := false
          timer := none }) := by
  obtain ⟨mod', hset⟩ := ideal_setPllClockFrom_run (v := fun _ => none)
    (w := ⟨⟨f', f, d + Plant.drift f f' * steps⟩, ⟨⟨false, f, f', shift, delay⟩, ⟨f, mod⟩⟩, false, none⟩)
    rfl hf.ne' hf' hf hshift.le hramp (toU32 delay)
  have hreset : runHandler plantDevice (resetPhyRegs idealPhy)
      ⟨⟨f', f, d + Plant.drift f f' * steps⟩, ⟨⟨false, f, f', shift, delay⟩, ⟨f, mod⟩⟩, false,
        some steps⟩ = some ((), ⟨⟨f, f, d + Plant.drift f f' * steps + if n > 1 then
          (n * (f - f') - (f - f') * (n + 1) / 2) / f * toU32 delay else 0⟩,
        ⟨⟨true, f, f', shift, delay⟩, ⟨f, mod'⟩⟩, false, none⟩) := by
    unfold runHandler resetPhyRegs
    rw [Prog.run_bind_of run_timerDelete, Prog.run_bind_of run_getObj]
    exact (Prog.run_bind_of hset).trans rfl
  have hwait : waitForTimer plantDevice idealPhy
      ⟨⟨f', f, d⟩, ⟨⟨false, f, f', shift, delay⟩, ⟨f, mod⟩⟩, false, some steps⟩ = _ :=
    congrArg (Option.map Prod.snd) hreset
  refine ⟨mod', ?_⟩
  unfold runCaller waitUntilDone
  rw [Prog.run_bind, run_awaitDone, hwait]
  rfl

end Runs

/-! ## The displacement -/

/-- What a synchronization adds to the phase: the dwell of the timer, and what
the two ramps add to it. -/
def phaseOf (s : ℚ) (steps delay : ℤ) (n n' : ℕ) : ℚ :=
  s / 100 * (steps + (if n > 1 then (delay : ℚ) * (n + 1) / 2 else 0) + delay * (n' - 1) / 2)

/-- From the first programming step to the end of the restore. -/
theorem ideal_displacement {w : World PlantReg Plant} {f td shift shift2 s size size' : ℚ}
    {threshold delay steps : ℤ} {n n' : ℕ} (hhw : w.hw = ⟨f, f, 0⟩) (hflag : w.clientDone = false)
    (hf : 0 < f) (hshift : 0 < shift) (hs : selectShift td shift shift2 threshold = s) (hs0 : 0 < s)
    (hs1 : s ≤ 1) (hsteps : calcStepsToSync td s = some steps) (hne : steps ≠ 0)
    (hdelay0 : 0 ≤ delay) (hdelay1 : delay < 2 ^ 31)
    (hramp : rampSteps f (shiftedClock td s f) shift = some (n, size))
    (hramp' : rampSteps (shiftedClock td s f) f shift = some (n', size')) : ∃ w₁ w₂,
      runCaller plantDevice idealPhy (programPhy idealPhy td shift shift2 threshold delay true true) w =
          some (0, w₁) ∧
        runCaller plantDevice idealPhy (waitUntilDone idealPhy) w₁ = some ((), w₂) ∧
        w₂.hw = ⟨f, f, (if td > 0 then 1 else -1) * phaseOf s steps delay n n'⟩ ∧
        w₂.obj.base.done = true := by
  obtain ⟨mod, hrun⟩ := ideal_programPhy_run (v := waitForTimer plantDevice idealPhy)
    delay hhw hflag hf hshift hs hs0 hs1 hsteps hne hramp
  obtain ⟨mod', hrun'⟩ := ideal_waitUntilDone_run mod delay steps hf
    (shiftedClock_pos (t := td) hf hs0 hs1) hshift hramp'
  refine ⟨_, _, hrun, hrun', ?_, rfl⟩
  have hf0 : f ≠ 0 := hf.ne'
  have hdelay : toU32 delay = delay := Int.emod_eq_of_lt hdelay0 (by omega)
  have hn' : 0 < n' := (rampSteps_spec hshift.le hramp').1
  have hsigned : shiftedClock td s f - f = -((if td > 0 then 1 else -1) * (s * f / 100)) := by
    unfold shiftedClock
    split <;> ring
  generalize (if td > 0 then (1 : ℚ) else -1) = σ at hsigned ⊢
  have hback : f - shiftedClock td s f = σ * (s * f / 100) := by linarith
  have hlast : (if n' > 1 then (n' * (f - shiftedClock td s f) -
      (f - shiftedClock td s f) * (n' + 1) / 2) / f * toU32 delay else 0) =
      σ * (s / 100 * (delay * (n' - 1) / 2)) := by
    rw [hback, hdelay]
    split
    · field_simp
      ring
    · obtain rfl : n' = 1 := by omega
      simp
  have hfirst : (if n > 1 then (n * (f - f) - (shiftedClock td s f - f) * (n + 1) / 2) / f *
      toU32 delay else 0) =
      σ * (s / 100 * if n > 1 then (delay : ℚ) * (n + 1) / 2 else 0) := by
    rw [hsigned, hdelay]
    split
    · field_simp
      ring
    · simp
  have hdrift : Plant.drift f (shiftedClock td s f) = σ * (s / 100) := by
    rw [Plant.drift, hback]
    field_simp
  dsimp only
  rw [hlast, hfirst, hdrift]
  congr 1
  unfold phaseOf
  ring

end Genlock.Vsyncalter
