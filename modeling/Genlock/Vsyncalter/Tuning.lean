import Genlock.Vsyncalter.Ramp

/-! # PHY classes as synthesizers

`Tunes` says that the four virtual functions of a class refine a synthesizer:
what its registers hold besides the feedback dividers is a frame that no call
changes, and each step of the ramp leaves the dividers that the synthesizer
chooses. The calls of the base class then follow for every such class.
-/

namespace Genlock.Vsyncalter

variable {Φ Frame Div : Type}

abbrev regExec (v : World Φ Hw → Option (World Φ Hw)) := execOp hwDevice v

/-- The class refines a synthesizer. `fresh` holds right after `read_registers`,
`cached` as long as the object's copy of the frame is up to date. -/
structure Tunes (cls : PhyClass Φ RegOp RegOp.Ans) (Frame Div : Type) where
  synth : Frame → Synthesizer ℚ Div
  frame : Hw → Φ → Frame
  div : Hw → Div
  admits : Hw → Prop
  cached : Hw → Φ → Prop
  fresh : Hw → Φ → Prop
  cached_of_fresh : ∀ {hw reg}, fresh hw reg → cached hw reg
  range_ordConnected : ∀ φ, (synth φ).range.OrdConnected
  read : ∀ v (w : World Φ Hw), ∃ hw reg,
    cls.readRegisters.run (regExec v) w = some ((), w.put hw reg) ∧ fresh hw reg ∧
      frame hw reg = frame w.hw w.obj.reg ∧ div hw = div w.hw ∧ (admits hw ↔ admits w.hw)
  clock : ∀ v (w : World Φ Hw), fresh w.hw w.obj.reg → admits w.hw →
    cls.calculatePllClock.run (regExec v) w =
      some ((synth (frame w.hw w.obj.reg)).clock (div w.hw), w)
  admits_of_clock_pos : ∀ v (w w' : World Φ Hw) c, fresh w.hw w.obj.reg →
    cls.calculatePllClock.run (regExec v) w = some (c, w') → 0 < c → admits w.hw
  step : ∀ v (w : World Φ Hw) x, admits w.hw → cached w.hw w.obj.reg →
    x ∈ (synth (frame w.hw w.obj.reg)).range → ∃ hw reg,
      (cls.calculateFeedbackDividers x).run (regExec v) w = some (0, w.put w.hw reg) ∧
      (cls.programMmio true).run (regExec v) (w.put w.hw reg) = some (0, w.put hw reg) ∧
      admits hw ∧ cached hw reg ∧ frame hw reg = frame w.hw w.obj.reg ∧
      div hw = (synth (frame w.hw w.obj.reg)).tune x

/-- The clock decoded from the registers as they are in the hardware. -/
def liveClock (cls : PhyClass Φ RegOp RegOp.Ans) (w : World Φ Hw) : Option ℚ :=
  (runHandler hwDevice (do cls.readRegisters; cls.calculatePllClock) w).map Prod.fst

namespace Tunes

variable {cls : PhyClass Φ RegOp RegOp.Ans} (T : Tunes cls Frame Div)
  {v : World Φ Hw → Option (World Φ Hw)} {w : World Φ Hw}

def pll (w : World Φ Hw) : Synthesizer ℚ Div := T.synth (T.frame w.hw w.obj.reg)

/-- A world in which the stepping loop can run. -/
structure Ready (w : World Φ Hw) : Prop where
  admits : T.admits w.hw
  cached : T.cached w.hw w.obj.reg

/-- The registers were tuned to `d` and nothing else that matters changed. -/
structure TunedTo (w : World Φ Hw) (d : Div) (hw : Hw) (reg : Φ) : Prop where
  admits : T.admits hw
  cached : T.cached hw reg
  frame : T.frame hw reg = T.frame w.hw w.obj.reg
  div : T.div hw = d

variable {T}

theorem TunedTo.ready {d : Div} {hw : Hw} {reg : Φ} (h : T.TunedTo w d hw reg) :
    T.Ready (w.put hw reg) := ⟨h.admits, h.cached⟩

theorem TunedTo.pll_put {d : Div} {hw : Hw} {reg : Φ} (h : T.TunedTo w d hw reg) :
    T.pll (w.put hw reg) = T.pll w := congrArg T.synth h.frame

/-! ### The live clock -/

theorem liveClock_of_admits (h : T.admits w.hw) :
    liveClock cls w = some ((T.pll w).clock (T.div w.hw)) := by
  obtain ⟨hw, reg, hread, hfresh, hframe, hdiv, hadmits⟩ := T.read (fun _ => none) w
  have hclock := T.clock (fun _ => none) (w.put hw reg) hfresh (hadmits.mpr h)
  unfold liveClock runHandler
  rw [Prog.run_bind_of hread, hclock]
  simp only [World.put_hw, World.put_reg, hframe, hdiv, Option.map_some, pll]

theorem admits_of_liveClock {c : ℚ} (h : liveClock cls w = some c) (hc : 0 < c) :
    T.admits w.hw := by
  obtain ⟨hw, reg, hread, hfresh, hframe, hdiv, hadmits⟩ := T.read (fun _ => none) w
  unfold liveClock runHandler at h
  rw [Prog.run_bind_of hread] at h
  obtain ⟨⟨c', w'⟩, hrun, rfl⟩ := Option.map_eq_some_iff.mp h
  exact hadmits.mp (T.admits_of_clock_pos _ _ _ _ hfresh hrun hc)

theorem clock_of_liveClock {c : ℚ} (h : liveClock cls w = some c) (hc : 0 < c) :
    c = (T.pll w).clock (T.div w.hw) := by
  rw [T.liveClock_of_admits (T.admits_of_liveClock h hc)] at h
  exact (Option.some.inj h).symm

theorem read_clock (h : T.admits w.hw) (v : World Φ Hw → Option (World Φ Hw)) :
    ∃ hw reg, cls.readRegisters.run (regExec v) w = some ((), w.put hw reg) ∧
      T.fresh hw reg ∧ T.TunedTo w (T.div w.hw) hw reg ∧
      cls.calculatePllClock.run (regExec v) (w.put hw reg) =
        some ((T.pll w).clock (T.div w.hw), w.put hw reg) := by
  obtain ⟨hw, reg, hread, hfresh, hframe, hdiv, hadmits⟩ := T.read v w
  refine ⟨hw, reg, hread, hfresh, ⟨hadmits.mpr h, T.cached_of_fresh hfresh, hframe, hdiv⟩, ?_⟩
  rw [T.clock v _ hfresh (hadmits.mpr h)]
  simp only [World.put_hw, World.put_reg, hframe, hdiv, pll]

/-! ### The stepping loop -/

theorem stepBody_run (hready : T.Ready w) {x : ℚ} (hx : x ∈ (T.pll w).range) (steps : ℕ)
    (delay : ℤ) : ∃ hw reg,
      (stepBody cls x steps delay true).run (regExec v) w = some (0, w.put hw reg) ∧
        T.TunedTo w ((T.pll w).tune x) hw reg := by
  obtain ⟨hw, reg, hcalc, hprog, hadmits, hcached, hframe, hdiv⟩ :=
    T.step v w x hready.admits hready.cached hx
  refine ⟨hw, reg, ?_, hadmits, hcached, hframe, hdiv⟩
  unfold stepBody
  rw [Prog.run_bind_of hcalc]
  simp only [ne_eq, not_true_eq_false, if_false, if_true]
  rw [Prog.run_bind_of (run_enterProgram true), Prog.run_bind_of hprog]
  simp only [not_true_eq_false, if_false]
  by_cases hsteps : steps > 1
  · rw [if_pos hsteps, Prog.run_bind_of (run_osUsleep _)]
    rfl
  · rw [if_neg hsteps]
    rfl

theorem stepLoop_run (target size : ℚ) (steps : ℕ) (delay : ℤ) {left : ℕ} {x : ℚ}
    (hready : T.Ready w) (hflag : w.clientDone = false)
    (hrange : ∀ y ∈ requests target size left x, y ∈ (T.pll w).range) : ∃ hw reg,
      (stepLoop cls target size steps delay true left x).run (regExec v) w =
          some (0, w.put hw reg) ∧
        T.TunedTo w ((T.pll w).retune (T.div w.hw) (requests target size left x)) hw reg := by
  induction left generalizing w x with
  | zero => exact ⟨w.hw, w.obj.reg, rfl, hready.admits, hready.cached, rfl, rfl⟩
  | succ left ih =>
      simp only [requests, List.forall_mem_cons] at hrange
      obtain ⟨hw, reg, hbody, htuned⟩ := stepBody_run (v := v) hready hrange.1 steps delay
      have hpll := htuned.pll_put
      obtain ⟨hw', reg', hloop, htuned'⟩ :=
        ih (w := w.put hw reg) htuned.ready hflag (by rw [hpll]; exact hrange.2)
      refine ⟨hw', reg', ?_, htuned'.admits, htuned'.cached, ?_, ?_⟩
      · unfold stepLoop
        rw [Prog.run_bind_of run_libClientDone, hflag]
        simp only [Bool.false_eq_true, if_false]
        rw [Prog.run_bind_of hbody]
        exact hloop
      · rw [htuned'.frame, World.put_hw, World.put_reg, htuned.frame]
      · rw [htuned'.div, hpll, World.put_hw, htuned.div]
        rfl

theorem requests_mem_range {current target shift size : ℚ} {n : ℕ} (hshift : 0 ≤ shift)
    (hramp : rampSteps current target shift = some (n, size)) (hc : current ∈ (T.pll w).range)
    (ht : target ∈ (T.pll w).range) : ∀ y ∈ requests target size n current, y ∈ (T.pll w).range := by
  intro y hy
  rw [requests_eq hshift hramp] at hy
  obtain ⟨i, hi, rfl⟩ := List.mem_map.mp hy
  exact (T.range_ordConnected _).uIcc_subset hc ht (rampClock_mem (List.mem_range.mp hi))

/-- A call that is let run tunes the PHY to its target. -/
theorem setPllClockFrom_run {current target shift size : ℚ} {n : ℕ} (hready : T.Ready w)
    (hflag : w.clientDone = false) (hcurrent : 0 < current) (htarget : 0 < target)
    (hshift : 0 ≤ shift) (hramp : rampSteps current target shift = some (n, size))
    (hrange : ∀ y ∈ requests target size n current, y ∈ (T.pll w).range) (delay : ℤ) : ∃ hw reg,
      (setPllClockFrom cls current target shift delay true).run (regExec v) w =
          some (0, w.put hw reg) ∧
        T.TunedTo w ((T.pll w).tune target) hw reg := by
  obtain ⟨hw, reg, hrun, htuned⟩ :=
    stepLoop_run (v := v) target size n delay hready hflag hrange
  refine ⟨hw, reg, ?_, htuned.admits, htuned.cached, htuned.frame, ?_⟩
  · unfold setPllClockFrom
    rw [if_neg (by push Not; exact ⟨hcurrent, htarget, hshift⟩), hramp]
    exact hrun
  · obtain ⟨before, hbefore⟩ := requests_concat hshift hramp
    rw [htuned.div, hbefore, Synthesizer.retune_concat]

/-- After `shutdown_lib` the loop ends before its first step. -/
theorem setPllClockFrom_shutdown {current target shift size : ℚ} {n : ℕ}
    (hflag : w.clientDone = true) (hcurrent : 0 < current) (htarget : 0 < target)
    (hshift : 0 ≤ shift) (hramp : rampSteps current target shift = some (n, size)) (delay : ℤ) :
    (setPllClockFrom cls current target shift delay true).run (regExec v) w = some (0, w) := by
  obtain ⟨m, rfl⟩ : ∃ m, n = m + 1 := ⟨n - 1, by have := (rampSteps_spec hshift hramp).1; omega⟩
  unfold setPllClockFrom
  rw [if_neg (by push Not; exact ⟨hcurrent, htarget, hshift⟩), hramp]
  dsimp only
  unfold stepLoop
  rw [Prog.run_bind_of run_libClientDone, hflag]
  rfl

theorem setPllClock_run {c target shift size : ℚ} {n : ℕ} (hlive : liveClock cls w = some c)
    (hflag : w.clientDone = false) (hc : 0 < c) (htarget : 0 < target) (hshift : 0 ≤ shift)
    (hramp : rampSteps c target shift = some (n, size)) (hcr : c ∈ (T.pll w).range)
    (htr : target ∈ (T.pll w).range) (delay : ℤ) : ∃ hw reg,
      (setPllClock cls target shift delay).run (regExec v) w = some (0, w.put hw reg) ∧
        T.TunedTo w ((T.pll w).tune target) hw reg := by
  have hadmits := T.admits_of_liveClock hlive hc
  obtain ⟨hw, reg, hread, -, htuned, hclock⟩ := T.read_clock hadmits v
  rw [← T.clock_of_liveClock hlive hc] at hclock
  have hpll := htuned.pll_put
  obtain ⟨hw', reg', hrun, htuned'⟩ := setPllClockFrom_run (v := v) htuned.ready hflag hc
    htarget hshift hramp (requests_mem_range hshift hramp (by rwa [hpll]) (by rwa [hpll])) delay
  refine ⟨hw', reg', ?_, htuned'.admits, htuned'.cached, ?_, ?_⟩
  · unfold setPllClock
    rw [if_neg (by push Not; exact ⟨htarget, hshift⟩), Prog.run_bind_of hread,
      Prog.run_bind_of hclock]
    exact hrun
  · rw [htuned'.frame, World.put_hw, World.put_reg, htuned.frame]
  · rw [htuned'.div, hpll]

end Tunes

end Genlock.Vsyncalter
