import Genlock.Vsyncalter.Kinds

/-! # The permanent nudge

Adaptive learning calls `synchronize_vsync` with the learning rate as shift and
without a reset: one step, and the new dividers stay. Whether the clock moves to
the wrong side is decided by the roundings of the PHY.
-/

namespace Genlock.Vsyncalter

open CArith

/-! ## One PHY in the list -/

section Single

variable {Φ Dev H : Type} {DA : Dev → Type} {exec : (o : PhyOp Φ Dev) → World Φ H → Option (o.Ans DA × World Φ H)}

theorem synchronizeVsync_single {cls : PhyClass Φ Dev DA} {r : SyncRequest} {w w' : World Φ H}
    {pipe : ℤ} (haccepted : r.Accepted) (hpipe : r.pipe = pipe) (hreset : r.reset = false)
    (hrun : (programPhy cls r.timeDiff r.shift r.shift2 r.stepThreshold r.waitBetweenSteps r.reset
      r.commit).run exec w = some (0, w')) :
    (synchronizeVsync ⟨true, some [cls.enabled pipe]⟩ r).run exec w = some (0, w') := by
  have hserves : (cls.enabled pipe).serves r.pipe = true :=
    decide_eq_true (Or.inr hpipe)
  unfold synchronizeVsync
  simp only [Bool.not_true, Bool.false_eq_true, if_false, haccepted, not_true_eq_false,
    List.any_cons, hserves, Bool.true_or, if_true]
  unfold synchronizePhys
  rw [if_pos hserves, Prog.run_bind, show (cls.enabled pipe).programPhy r = programPhy cls r.timeDiff
    r.shift r.shift2 r.stepThreshold r.waitBetweenSteps r.reset r.commit from rfl,
    Prog.run_bind_of hrun]
  simp only [ne_eq, not_true_eq_false, if_false, hreset, Bool.false_and, Bool.false_eq_true]
  rfl

end Single

/-! ## One programming step -/

section Step

variable {Φ Frame Div : Type} {cls : PhyClass Φ RegOp RegOp.Ans} (T : Tunes cls Frame Div)
  {v : World Φ Hw → Option (World Φ Hw)} {w : World Φ Hw}

/-- The nudge leaves the dividers chosen for the shifted clock, unless the
library is shutting down. -/
theorem Tunes.nudge_run {c r td : ℚ} {steps : ℤ} (hlive : liveClock cls w = some c) (hc : 0 < c)
    (hr0 : 0 < r) (hr1 : r ≤ 1) (hsteps : calcStepsToSync td r = some steps) (hne : steps ≠ 0)
    (hrange : shiftedClock td r c ∈ (T.pll w).range) (threshold delay : ℤ) : ∃ w',
      (programPhy cls td r 0 threshold delay false true).run (regExec v) w = some (0, w') ∧
        liveClock cls w' = some (if w.clientDone then c
          else (T.pll w).clock ((T.pll w).tune (shiftedClock td r c))) := by
  have hadmits := T.admits_of_liveClock hlive hc
  have hclock := T.clock_of_liveClock hlive hc
  obtain ⟨hw, reg, hread, -, htuned, hcalc⟩ := T.read_clock hadmits v
  rw [← hclock] at hcalc
  obtain ⟨size, hramp⟩ := rampSteps_shiftedClock hc hr0 td
  have hshift : selectShift td |r| 0 threshold = r := by
    rw [abs_of_pos hr0]
    exact if_neg fun h => h.1 rfl
  -- the fields of the base class, which no register access depends on
  set base : PhyBase := { w.obj.base with
    pllFreqOrig := c, pllFreqMod := shiftedClock td r c, usedShift := r }
  set w₁ : World Φ Hw := { w.put hw reg with obj := ⟨base, reg⟩ }
  have hset : ∃ hw' reg', (setPllClockFrom cls c (shiftedClock td r c) r (toU32 delay) true).run
      (regExec v) w₁ = some (0, w₁.put hw' reg') ∧
      T.TunedTo w (if w.clientDone then T.div w.hw else (T.pll w).tune (shiftedClock td r c))
        hw' reg' := by
    cases hflag : w.clientDone with
    | true =>
        refine ⟨hw, reg, ?_, htuned⟩
        exact setPllClockFrom_shutdown (w := w₁) hflag hc (shiftedClock_pos hc hr0 hr1) hr0.le hramp _
    | false =>
        have hready : T.Ready w₁ := ⟨htuned.admits, htuned.cached⟩
        have hpll : T.pll w₁ = T.pll w := congrArg T.synth htuned.frame
        obtain ⟨hw', reg', hrun, htuned'⟩ := setPllClockFrom_run (v := v) hready hflag hc
          (shiftedClock_pos hc hr0 hr1) hr0.le hramp
          (by simpa [requests, hpll] using hrange) (toU32 delay)
        refine ⟨hw', reg', hrun, htuned'.admits, htuned'.cached, htuned'.frame.trans htuned.frame, ?_⟩
        rw [htuned'.div, hpll]
        rfl
  obtain ⟨hw', reg', hrun, htuned'⟩ := hset
  refine ⟨w₁.put hw' reg', ?_, ?_⟩
  · unfold programPhy
    rw [hshift]
    dsimp only
    rw [hsteps]
    dsimp only
    rw [Prog.run_bind_of hread]
    unfold programPhyLoaded
    rw [Prog.run_bind_of hcalc, Prog.run_bind_of (run_modBase _)]
    simp only [abs_of_pos hr0, Bool.not_true, Bool.false_or, beq_iff_eq, hne, if_false]
    refine (Prog.run_bind_of hrun).trans ?_
    rfl
  · rw [T.liveClock_of_admits (w := w₁.put hw' reg') htuned'.admits]
    have hpll : T.pll (w₁.put hw' reg') = T.pll w := congrArg T.synth htuned'.frame
    rw [hpll, World.put_hw, htuned'.div, hclock]
    cases w.clientDone <;> rfl

end Step

/-! ## Direction, kind by kind -/

namespace PhyKind

/-- The roundings of the PHY keep the nudge from `c` to `x` on its side. A combo
PHY cuts the request to whole kHz; a C20 PHY cannot round its quotient up and
subtract a remainder. -/
def KeepsNudge : (k : PhyKind) → World k.Reg Hw → (td c x : ℚ) → Prop
  | combo _, _, td, c, x => 0 < td ∨ c * 1000 ≤ ⌊x * 1000⌋
  | c20 port isBMG, w, td, _, x =>
      let φ := c20FrameOf port isBMG w.hw w.obj.reg.fields
      ¬φ.Fractional ∨ td < 0 ∨ RemainderFits (c20FracScaled φ.fields x) φ.fields.fracDen ∨
        ⌈c20FracScaled φ.fields x⌉ + 65535 / φ.fields.fracDen ≤ φ.fraction (c20Div port isBMG w.hw)
  | _, _, _, _, _ => True

def NudgedRight (td c c' : ℚ) : Prop := (0 < td → c' ≤ c) ∧ (td < 0 → c ≤ c')

theorem nudgedRight_of_keepsDirection {D : Type} {S : Synthesizer ℚ D} {d : D} {td r : ℚ}
    (hc : 0 < S.clock d) (hr : 0 < r) (h : S.KeepsDirection d (shiftedClock td r (S.clock d))) :
    NudgedRight td (S.clock d) (S.clock (S.tune (shiftedClock td r (S.clock d)))) := by
  obtain ⟨hlt, hgt⟩ := shiftedClock_lt_iff hc hr td
  exact ⟨fun htd => h.1 (hlt htd).le, fun htd => h.2 (hgt htd).le⟩

theorem combo_nudgedRight_iff {d : ℕ × ℕ} {td r : ℚ} (hc : 0 < comboSynth.clock d) (hr0 : 0 < r)
    (hr1 : r ≤ 1) (htd : td ≠ 0) :
    NudgedRight td (comboSynth.clock d)
        (comboSynth.clock (comboSynth.tune (shiftedClock td r (comboSynth.clock d)))) ↔
      0 < td ∨ comboSynth.clock d * 1000 ≤ ⌊shiftedClock td r (comboSynth.clock d) * 1000⌋ := by
  have hx := (shiftedClock_pos (t := td) hc hr0 hr1).le
  obtain ⟨hlt, -⟩ := shiftedClock_lt_iff hc hr0 td
  rw [← comboSynth_le_clock_tune_iff hx]
  unfold NudgedRight
  rcases lt_or_gt_of_ne htd with hneg | hpos
  · simp [hneg, hneg.not_gt]
  · simp only [hpos, hpos.not_gt, forall_const, IsEmpty.forall_iff, and_true, true_or, iff_true]
    exact (comboSynth_clock_tune_le hx).trans (hlt hpos).le

theorem c20_nudgedRight_iff {φ : C20Frame} {d : U16 × U16} {td r : ℚ}
    (hden : φ.Fractional → φ.fields.fracDen ≤ 65535) (hc : 0 < (c20Synth φ).clock d) (hr0 : 0 < r)
    (htd : td ≠ 0)
    (h0 : 0 ≤ cround (c20FracScaled φ.fields (shiftedClock td r ((c20Synth φ).clock d))))
    (h1 : cround (c20FracScaled φ.fields (shiftedClock td r ((c20Synth φ).clock d))) ≤ 65535) :
    NudgedRight td ((c20Synth φ).clock d)
        ((c20Synth φ).clock ((c20Synth φ).tune (shiftedClock td r ((c20Synth φ).clock d)))) ↔
      ¬φ.Fractional ∨ td < 0 ∨
        RemainderFits (c20FracScaled φ.fields (shiftedClock td r ((c20Synth φ).clock d)))
          φ.fields.fracDen ∨
        ⌈c20FracScaled φ.fields (shiftedClock td r ((c20Synth φ).clock d))⌉ +
          65535 / φ.fields.fracDen ≤ φ.fraction d := by
  obtain ⟨hlt, hgt⟩ := shiftedClock_lt_iff hc hr0 td
  unfold NudgedRight
  by_cases hfrac : φ.Fractional
  · rcases lt_or_gt_of_ne htd with hneg | hpos
    · simp only [hneg, hneg.not_gt, forall_const, IsEmpty.forall_iff, true_and, true_or, or_true,
        iff_true]
      exact c20Synth_clock_le_tune hfrac (hden hfrac) h0 h1 (hgt hneg).le
    · simp only [hpos, hpos.not_gt, forall_const, IsEmpty.forall_iff, and_true, false_or, hfrac,
        not_true_eq_false]
      exact c20Synth_tune_le_clock_iff hfrac (hden hfrac) h0 h1 (hlt hpos).le
  · simp only [hfrac, not_false_eq_true, true_or, iff_true]
    rw [c20Synth_clock_of_not_fractional hfrac _ d]
    exact ⟨fun _ => le_rfl, fun _ => le_rfl⟩

/-- The decoded clock of a setting in the hardware lies in the range that the PHY
can be tuned to. The fraction field of a combo PHY could hold more than one. -/
theorem clock_mem_range (k : PhyKind) (w : World k.Reg Hw) (hc : 0 < (k.pll w).clock (k.div w))
    (hcombo : ∀ n, k = combo n → getBits (w.hw.mmio (dpllCfgcr0 n)) 24 10 < 2 ^ 14) :
    (k.pll w).clock (k.div w) ∈ (k.pll w).range := by
  cases k with
  | combo n => exact comboSynth_clock_mem_range (getBits_lt _ 9 0) (hcombo n rfl)
  | dkl phy => exact dklSynth_clock_mem_range (getBits_lt _ 7 0) (getBits_lt _ 29 8) hc
  | c10 port => exact c10Synth_clock_mem_range _ _
  | c20 port isBMG => trivial
  | dpMN pipe => exact dpMNSynth_clock_mem_range _ _

theorem nudgedRight_iff (k : PhyKind) (w : World k.Reg Hw) {c td r : ℚ}
    (hclock : c = (k.pll w).clock (k.div w)) (hc : 0 < c) (hr0 : 0 < r) (hr1 : r ≤ 1) (htd : td ≠ 0)
    (hrange : k.InRange w (shiftedClock td r c)) :
    NudgedRight td c ((k.pll w).clock ((k.pll w).tune (shiftedClock td r c))) ↔
      k.KeepsNudge w td c (shiftedClock td r c) := by
  subst hclock
  cases k with
  | combo n => exact combo_nudgedRight_iff hc hr0 hr1 htd
  | dkl phy =>
      have hp : 0 < getBits (dklReg phy w.hw 0x200) 11 8 := hrange.1.1
      exact iff_of_true (nudgedRight_of_keepsDirection hc hr0 ((dklSynth_mono _).keepsDirection
        (dklSynth_exact hp (getBits_lt _ 29 8))
        ((dkl phy).clock_mem_range w hc (by simp)) hrange.1)) trivial
  | c10 port =>
      exact iff_of_true (nudgedRight_of_keepsDirection hc hr0 ((c10Synth_mono _).keepsDirection
        (c10Synth_exact _ _) ((c10 port).clock_mem_range w hc (by simp)) hrange.1)) trivial
  | c20 port isBMG =>
      exact c20_nudgedRight_iff (c20FrameOf_fracDen_le port isBMG w.hw _) hc hr0 htd hrange.2.1
        hrange.2.2
  | dpMN pipe =>
      exact iff_of_true (nudgedRight_of_keepsDirection hc hr0 ((dpMNSynth_mono _).keepsDirection
        (dpMNSynth_exact _) ((dpMN pipe).clock_mem_range w hc (by simp)) hrange.1)) trivial

end PhyKind

/-- A combo PHY at 576 MHz and one unit of its fraction. -/
def comboWorld : World ComboPhyReg Hw where
  hw := ⟨fun _ => 0x41E, fun _ _ _ => 0, fun _ _ _ => 0, fun _ _ => 0⟩
  obj := ⟨⟨true, 0, 0, 0, 0⟩, ⟨⟨0, 0⟩, ⟨0, 0⟩⟩⟩
  clientDone := false
  timer := none

theorem comboWorld_clock : comboSynth.clock (comboDiv 0x41E) = 576 + 75 / 64000 := by
  with_unfolding_all decide

theorem comboWorld_live : liveClock (PhyKind.combo 0).cls comboWorld = some (576 + 75 / 64000) := by
  rw [← comboWorld_clock]
  exact (comboTunes 0).liveClock_of_admits trivial

theorem comboWorld_inRange :
    (PhyKind.combo 0).InRange comboWorld (shiftedClock (-1) (1 / 10000) (576 + 75 / 64000)) :=
  ⟨⟨by norm_num [shiftedClock], by norm_num [shiftedClock, comboRefclock]⟩, trivial⟩

/-- A nudge up by 0.576 kHz lowers the clock of this PHY: the request is cut to a
whole number of kHz, below the clock it started from. -/
theorem small_nudge_reversed : ∃ w' c',
    runCaller hwDevice (PhyKind.combo 0).cls
      (synchronizeVsync ⟨true, some [(PhyKind.combo 0).cls.enabled 0]⟩
        ⟨-1, 0, 1 / 10000, 0, 1000, 50, false, true⟩) comboWorld = some (0, w') ∧
      calcStepsToSync (-1) (1 / 10000) = some 1000000 ∧
      liveClock (PhyKind.combo 0).cls comboWorld = some (576 + 75 / 64000) ∧
      liveClock (PhyKind.combo 0).cls w' = some c' ∧ c' < 576 + 75 / 64000 := by
  have hsteps : calcStepsToSync (-1) (1 / 10000) = some 1000000 := by with_unfolding_all decide
  obtain ⟨w', hrun, hlive'⟩ := (comboTunes 0).nudge_run (v := waitForTimer hwDevice (combo 0))
    comboWorld_live (by norm_num) (by norm_num) (by norm_num) hsteps (by norm_num)
    comboWorld_inRange.1 1000 50
  refine ⟨w', _, synchronizeVsync_single (by with_unfolding_all decide) rfl rfl hrun, hsteps, comboWorld_live,
    hlive', ?_⟩
  have hiff := comboSynth_le_clock_tune_iff
    (x := shiftedClock (-1) (1 / 10000) (576 + 75 / 64000)) (by norm_num [shiftedClock]) (comboDiv 0x41E)
  rw [comboWorld_clock] at hiff
  exact not_le.mp (mt hiff.mp (by with_unfolding_all decide))

/-- The call of adaptive learning, and the clock that it leaves. -/
theorem permanent_nudge_iff (k : PhyKind) (w : World k.Reg Hw) (pipe : ℤ) (c td r : ℚ) (steps : ℤ)
    (threshold delay : ℤ) (hlive : liveClock k.cls w = some c) (hc : 0 < c) (hr0 : 0 < r)
    (hr1 : r ≤ 1) (htd0 : td ≠ 0) (htd : |td| < 20) (hsteps : calcStepsToSync td r = some steps)
    (hne : steps ≠ 0) (hrange : k.InRange w (shiftedClock td r c)) : ∃ w' c',
      runCaller hwDevice k.cls (synchronizeVsync ⟨true, some [k.cls.enabled pipe]⟩
        ⟨td, pipe, r, 0, threshold, delay, false, true⟩) w = some (0, w') ∧
      liveClock k.cls w' = some c' ∧
      (((0 < td → c' ≤ c) ∧ (td < 0 → c ≤ c')) ↔
        w.clientDone = true ∨ k.KeepsNudge w td c (shiftedClock td r c)) := by
  obtain ⟨w', hrun, hlive'⟩ := k.tunes.nudge_run (v := waitForTimer hwDevice k.cls) hlive hc hr0 hr1
    hsteps hne hrange.1 threshold delay
  refine ⟨w', _, synchronizeVsync_single ?_ rfl rfl hrun, hlive', ?_⟩
  · simp only [SyncRequest.Accepted]
    push Not
    exact ⟨htd, hr0.le, le_rfl, hr1, by norm_num⟩
  · cases hflag : w.clientDone with
    | true => simp
    | false =>
        simp only [Bool.false_eq_true, if_false, false_or]
        exact k.nudgedRight_iff w (k.tunes.clock_of_liveClock hlive hc) hc hr0 hr1 htd0 hrange

theorem permanent_nudge_iff_combo : ∃ w' c',
    runCaller hwDevice (PhyKind.combo 0).cls
      (synchronizeVsync ⟨true, some [(PhyKind.combo 0).cls.enabled 0]⟩
        ⟨-1, 0, 1 / 10000, 0, 1000, 50, false, true⟩) comboWorld = some (0, w') ∧
      liveClock (PhyKind.combo 0).cls w' = some c' ∧
      (((0 < (-1 : ℚ) → c' ≤ 576 + 75 / 64000) ∧ ((-1 : ℚ) < 0 → 576 + 75 / 64000 ≤ c')) ↔
        comboWorld.clientDone = true ∨ (PhyKind.combo 0).KeepsNudge comboWorld (-1)
          (576 + 75 / 64000) (shiftedClock (-1) (1 / 10000) (576 + 75 / 64000))) :=
  permanent_nudge_iff (.combo 0) comboWorld 0 (576 + 75 / 64000) (-1) (1 / 10000) 1000000 1000 50
    comboWorld_live (by norm_num) (by norm_num) (by norm_num) (by norm_num) (by norm_num)
    (by with_unfolding_all decide) (by norm_num) comboWorld_inRange

end Genlock.Vsyncalter
