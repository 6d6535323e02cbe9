import Genlock.Vsyncalter.Nudge

/-! # There and back

`set_pll_clock(t)` followed by `set_pll_clock(c)`, from a PHY that runs at `c`.
The second call reads the registers again and steps through other dividers, but
only its last request decides: the dividers come back exactly if the PHY chooses
them for their own clock.
-/

namespace Genlock.Vsyncalter

open CArith

section RoundTrip

variable {Φ Frame Div : Type} {cls : PhyClass Φ RegOp RegOp.Ans} (T : Tunes cls Frame Div)
  {v : World Φ Hw → Option (World Φ Hw)} {w : World Φ Hw}

/-- A call during shutdown reads the registers and programs nothing. -/
theorem Tunes.setPllClock_shutdown {c target shift size : ℚ} {n : ℕ}
    (hlive : liveClock cls w = some c) (hflag : w.clientDone = true) (hc : 0 < c)
    (htarget : 0 < target) (hshift : 0 ≤ shift)
    (hramp : rampSteps c target shift = some (n, size)) (delay : ℤ) : ∃ hw reg,
      (setPllClock cls target shift delay).run (regExec v) w = some (0, w.put hw reg) ∧
        T.TunedTo w (T.div w.hw) hw reg := by
  obtain ⟨hw, reg, hread, -, htuned, hclock⟩ := T.read_clock (T.admits_of_liveClock hlive hc) v
  rw [← T.clock_of_liveClock hlive hc] at hclock
  refine ⟨hw, reg, ?_, htuned⟩
  unfold setPllClock
  rw [if_neg (by push Not; exact ⟨htarget, hshift⟩), Prog.run_bind_of hread, Prog.run_bind_of hclock]
  exact setPllClockFrom_shutdown (w := w.put hw reg) hflag hc htarget hshift hramp delay

/-- A call on a clock that is not positive fails after reading the registers. -/
theorem Tunes.setPllClock_stopped {c target shift : ℚ} (hadmits : T.admits w.hw)
    (hlive : liveClock cls w = some c) (hc : c ≤ 0) (htarget : 0 < target) (hshift : 0 ≤ shift)
    (delay : ℤ) : ∃ hw reg,
      (setPllClock cls target shift delay).run (regExec v) w = some (1, w.put hw reg) ∧
        T.TunedTo w (T.div w.hw) hw reg := by
  obtain ⟨hw, reg, hread, -, htuned, hclock⟩ := T.read_clock hadmits v
  obtain rfl : c = (T.pll w).clock (T.div w.hw) :=
    Option.some.inj (hlive.symm.trans (T.liveClock_of_admits hadmits))
  refine ⟨hw, reg, ?_, htuned⟩
  unfold setPllClock
  rw [if_neg (by push Not; exact ⟨htarget, hshift⟩), Prog.run_bind_of hread, Prog.run_bind_of hclock]
  unfold setPllClockFrom
  rw [if_pos (Or.inl hc)]
  rfl

/-- Both calls, and what the second leaves of the dividers. -/
theorem Tunes.roundTrip_run {c t shift shift' size : ℚ} {n : ℕ} (hlive : liveClock cls w = some c)
    (hc : 0 < c) (ht0 : 0 < t) (hshift : 0 ≤ shift) (hshift' : 0 ≤ shift')
    (hramp : rampSteps c t shift = some (n, size)) (hcr : c ∈ (T.pll w).range)
    (htr : t ∈ (T.pll w).range)
    (hback : 0 < (T.pll w).clock ((T.pll w).tune t) →
      (T.pll w).clock ((T.pll w).tune t) ∈ (T.pll w).range ∧
        (rampSteps ((T.pll w).clock ((T.pll w).tune t)) c shift').isSome = true)
    (delay delay' : ℤ) : ∃ w₁ w₂ status,
      (setPllClock cls t shift delay).run (regExec v) w = some (0, w₁) ∧
      (setPllClock cls c shift' delay').run (regExec v) w₁ = some (status, w₂) ∧
      (T.div w₂.hw = T.div w.hw ↔ w.clientDone = true ∨
        (0 < (T.pll w).clock ((T.pll w).tune t) ∧ (T.pll w).Exact (T.div w.hw))) := by
  have hclock := T.clock_of_liveClock hlive hc
  cases hflag : w.clientDone with
  | true =>
      obtain ⟨hw, reg, hrun, htuned⟩ :=
        T.setPllClock_shutdown (v := v) hlive hflag hc ht0 hshift hramp delay
      have hlive' : liveClock cls (w.put hw reg) = some c := by
        rw [T.liveClock_of_admits (w := w.put hw reg) htuned.admits, htuned.pll_put, World.put_hw,
          htuned.div, hclock]
      have hramp' : rampSteps c c shift' = some (1, c - c) := by
        unfold rampSteps
        rw [percentDiff_self, if_neg (not_lt.mpr hshift')]
      obtain ⟨hw', reg', hrun', htuned'⟩ := T.setPllClock_shutdown (v := v)
        (w := w.put hw reg) hlive' hflag hc hc hshift' hramp' delay'
      refine ⟨_, _, _, hrun, hrun', iff_of_true ?_ (Or.inl rfl)⟩
      rw [World.put_hw, htuned'.div, World.put_hw, htuned.div]
  | false =>
      obtain ⟨hw, reg, hrun, htuned⟩ :=
        setPllClock_run (T := T) (v := v) hlive hflag hc ht0 hshift hramp hcr htr delay
      have hpll := htuned.pll_put
      have hlive' : liveClock cls (w.put hw reg) = some ((T.pll w).clock ((T.pll w).tune t)) := by
        rw [T.liveClock_of_admits (w := w.put hw reg) htuned.admits, hpll, World.put_hw, htuned.div]
      simp only [Bool.false_eq_true, false_or]
      by_cases hpos : 0 < (T.pll w).clock ((T.pll w).tune t)
      · obtain ⟨hrange, hsome⟩ := hback hpos
        obtain ⟨⟨n', size'⟩, hramp'⟩ := Option.isSome_iff_exists.mp hsome
        obtain ⟨hw', reg', hrun', htuned'⟩ := setPllClock_run (T := T) (v := v)
          (w := w.put hw reg) hlive' hflag hpos hc hshift' hramp' (by rwa [hpll]) (by rwa [hpll])
          delay'
        refine ⟨_, _, _, hrun, hrun', ?_⟩
        rw [World.put_hw, htuned'.div, hpll, and_iff_right hpos, Synthesizer.Exact, hclock]
      · obtain ⟨hw', reg', hrun', htuned'⟩ := T.setPllClock_stopped (v := v)
          (w := w.put hw reg) htuned.admits hlive' (not_lt.mp hpos) hc hshift' delay'
        refine ⟨_, _, _, hrun, hrun', iff_of_false ?_ fun h => hpos h.1⟩
        rw [World.put_hw, htuned'.div, World.put_hw, htuned.div]
        intro heq
        rw [heq, ← hclock] at hpos
        exact hpos hc

end RoundTrip

/-! ## The dividers that come back -/

/-- The clock stays positive under a small change: what 99 of 100 parts leave. -/
theorem le_of_near {c t : ℚ} (h : |t - c| ≤ c / 100) : 99 / 100 * c ≤ t := by
  have := (abs_le.mp h).1
  linarith

theorem combo_clock_tune_pos {d : ℕ × ℕ} {t : ℚ} (hc : 0 < comboSynth.clock d)
    (ht : 99 / 100 * comboSynth.clock d ≤ t) (hdvd : 64 ∣ d.2) :
    0 < comboSynth.clock (comboSynth.tune t) := by
  have ht0 : 0 ≤ t := by linarith
  obtain ⟨m, hm⟩ : 64 ∣ comboUnits d := by
    unfold comboUnits
    omega
  rw [comboSynth_clock, hm] at hc ht
  have hm1 : 1 ≤ m := by
    by_contra h0
    obtain rfl : m = 0 := by omega
    simp at hc
  have hm1' : (1 : ℚ) ≤ m := by exact_mod_cast hm1
  have hkhz : 2 ≤ ⌊t * 1000⌋ := Int.le_floor.mpr (by push_cast at ht ⊢; linarith)
  have hunits : 1 ≤ comboUnits (comboSynth.tune t) :=
    (comboUnits_le_tune_iff ht0 1).mpr (by push_cast; omega)
  rw [comboSynth_clock]
  have : (1 : ℚ) ≤ comboUnits (comboSynth.tune t) := by exact_mod_cast hunits
  linarith

theorem dkl_clock_tune_pos {p : ℕ} {d : ℕ × ℕ} {t : ℚ} (hc : 0 < (dklSynth p).clock d)
    (ht : 99 / 100 * (dklSynth p).clock d ≤ t) (hrange : t ∈ (dklSynth p).range) :
    0 < (dklSynth p).clock ((dklSynth p).tune t) := by
  have hscale := dklSynth_scale_pos hrange.1
  have hfixed : 0 < dklFixed (t / (refClkFreq * p)) := by
    have hunits : (1 : ℚ) ≤ d.1 * 2 ^ 22 + d.2 := by
      have : 0 < d.1 * 2 ^ 22 + d.2 := by
        by_contra h0
        obtain ⟨h1, h2⟩ : d.1 = 0 ∧ d.2 = 0 := by omega
        simp [dklSynth, h1, h2] at hc
      exact_mod_cast this
    have hF : 1 / 2 / 2 ^ 22 ≤ t / (refClkFreq * p) := by
      rw [le_div_iff₀ hscale]
      refine le_trans ?_ ht
      have : (dklSynth p).clock d = refClkFreq * p * ((d.1 * 2 ^ 22 + d.2) / 2 ^ 22) := by
        simp only [dklSynth]
        ring
      rw [this]
      nlinarith
    generalize t / (refClkFreq * p) = F at hF
    have hfraction := dklFraction_nonneg F
    unfold dklFixed
    rcases le_or_gt 1 ⌊F⌋ with h1 | h1
    · omega
    · have h0 : ⌊F⌋ = 0 := by
        have : 0 ≤ ⌊F⌋ := Int.floor_nonneg.mpr (le_trans (by norm_num) hF)
        omega
      have hround : 1 ≤ cround (Int.fract F * 2 ^ 22) := by
        have hpos : 0 ≤ Int.fract F * 2 ^ 22 := mul_nonneg (Int.fract_nonneg F) (by norm_num)
        rw [cround_of_nonneg hpos]
        refine Int.le_floor.mpr ?_
        rw [Int.fract, h0]
        push_cast
        linarith
      omega
  rw [dklSynth_clock_tune hrange]
  have : (0 : ℚ) < dklFixed (t / (refClkFreq * p)) := by exact_mod_cast hfixed
  positivity

theorem c10_clock_pos (f : C10Fields) (hmult : 0 < f.multiplier) (quot : U16) :
    0 < (c10Synth f).clock quot := by
  refine div_pos ?_ f.denominator_pos
  unfold C10Fields.numenator
  exact_mod_cast (by omega)

theorem dpMN_clock_tune_pos_iff {n : U32} {t : ℚ} (hrange : t ∈ (dpMNSynth n).range) :
    0 < (dpMNSynth n).clock ((dpMNSynth n).tune t) ↔ 1 ≤ t := by
  have hm := toNat_castU32 hrange.1 hrange.2
  have hclock : (dpMNSynth n).clock ((dpMNSynth n).tune t) = ((castU32 t).toNat : ℕ) := rfl
  rw [hclock, Nat.cast_pos, ← Int.cast_one, ← Int.le_floor]
  omega

theorem c20_clock_tune_pos {φ : C20Frame} {d : U16 × U16} {t : ℚ} (hc : 0 < (c20Synth φ).clock d)
    (ht : 99 / 100 * (c20Synth φ).clock d ≤ t) (hden : φ.Fractional → φ.fields.fracDen ≤ 65535)
    (h0 : 0 ≤ cround (c20FracScaled φ.fields t)) (h1 : cround (c20FracScaled φ.fields t) ≤ 65535) :
    0 < (c20Synth φ).clock ((c20Synth φ).tune t) := by
  by_cases hfrac : φ.Fractional
  · have hdpos : (0 : ℚ) < φ.fields.fracDen := by exact_mod_cast Nat.pos_of_ne_zero hfrac.2.2
    have hunit := φ.fields.unit_pos
    have hmult : (0 : ℚ) ≤ φ.fields.multiplier * 2 ^ 15 := by positivity
    rw [c20Synth_clock hfrac] at hc ht ⊢
    refine mul_pos hunit ?_
    rcases hmult.eq_or_lt with hm0 | hmpos
    · -- without a multiplier the fraction is all of the clock
      rw [← hm0, zero_add] at hc ht ⊢
      have hunits : (1 : ℚ) ≤ φ.fraction d * φ.fields.fracDen := by
        have hpos := mul_pos (pos_of_mul_pos_right hc hunit.le) hdpos
        rw [fraction_mul_den φ hfrac.2.2] at hpos ⊢
        exact_mod_cast hpos
      have hX : 99 / 100 * φ.fraction d ≤ c20FracScaled φ.fields t := by
        rw [c20FracScaled_eq, ← hm0, sub_zero, le_div_iff₀ hunit]
        linarith
      rw [fraction_tune (hden hfrac) h0 h1]
      generalize c20FracScaled φ.fields t = X at h0 h1 hX
      unfold remainderFor
      rcases h0.eq_or_lt with hq0 | hqpos
      · rw [← hq0]
        have hrem : 1 ≤ cround ((X - (0 : ℤ)) * φ.fields.fracDen) := by
          have hXd : 99 / 100 ≤ (X - (0 : ℤ)) * φ.fields.fracDen := by
            push_cast
            nlinarith
          rw [cround_of_nonneg (le_trans (by norm_num) hXd)]
          exact Int.le_floor.mpr (by push_cast at hXd ⊢; linarith)
        rw [if_pos (by omega)]
        have : (0 : ℚ) < cround ((X - (0 : ℤ)) * φ.fields.fracDen) := by exact_mod_cast hrem
        have := div_pos this hdpos
        push_cast at this ⊢
        linarith
      · have hq : (0 : ℚ) < cround X := by exact_mod_cast hqpos
        split
        · rename_i hrem
          have : (0 : ℚ) ≤ cround ((X - cround X) * φ.fields.fracDen) / φ.fields.fracDen :=
            div_nonneg (by exact_mod_cast hrem) hdpos.le
          linarith
        · positivity
    · have : 0 ≤ φ.fraction ((c20Synth φ).tune t) := by
        unfold C20Frame.fraction
        positivity
      linarith
  · rwa [c20Synth_clock_of_not_fractional hfrac _ d]

/-- The clock of the setting chosen can be tuned to. -/
theorem PhyKind.clock_tune_mem_range (k : PhyKind) (w : World k.Reg Hw) {x : ℚ}
    (hx : x ∈ (k.pll w).range) (hpos : 0 < (k.pll w).clock ((k.pll w).tune x)) :
    (k.pll w).clock ((k.pll w).tune x) ∈ (k.pll w).range := by
  cases k with
  | combo n => exact ⟨hpos.le, (comboSynth_clock_tune_le hx.1).trans_lt hx.2⟩
  | dkl phy =>
      have hscale := dklSynth_scale_pos hx.1
      have hF : x / (refClkFreq * getBits (dklReg phy w.hw 0x200) 11 8) < 256 :=
        (div_lt_iff₀ hscale).mpr (by linarith [hx.2.2])
      have hfloor := Int.floor_lt.mpr (show _ < ((256 : ℤ) : ℚ) by exact_mod_cast hF)
      refine dklSynth_clock_mem_range ?_ ?_ hpos
      · show ⌊x / (refClkFreq * getBits (dklReg phy w.hw 0x200) 11 8)⌋.toNat < 256
        omega
      · show (min (cround _) 0x3FFFFF).toNat < 2 ^ 22
        omega
  | c10 port => exact c10Synth_clock_mem_range _ _
  | c20 port isBMG => trivial
  | dpMN pipe => exact dpMNSynth_clock_mem_range _ _

/-- The setting of a C20 PHY comes back if its remainder is less than half of the
denominator, which the quotient would otherwise be rounded up for. -/
theorem c20Synth_exact_iff {φ : C20Frame} (h : φ.Fractional) (hden : φ.fields.fracDen ≤ 65535)
    (d : U16 × U16) : (c20Synth φ).Exact d ↔ 2 * d.2.toNat < φ.fields.fracDen := by
  have hdpos : (0 : ℚ) < φ.fields.fracDen := by exact_mod_cast Nat.pos_of_ne_zero h.2.2
  have hX := c20FracScaled_synth h d
  have hX0 : 0 ≤ φ.fraction d := by
    unfold C20Frame.fraction
    positivity
  have hround : cround (φ.fraction d) =
      d.1.toNat + ((2 * d.2.toNat + φ.fields.fracDen) / (2 * φ.fields.fracDen) : ℕ) := by
    have hsplit : φ.fraction d + 1 / 2 = (d.1.toNat : ℕ) +
        ((2 * d.2.toNat + φ.fields.fracDen : ℕ) : ℚ) / (2 * φ.fields.fracDen : ℕ) := by
      unfold C20Frame.fraction
      push_cast
      field_simp
      ring
    rw [cround_of_nonneg hX0, hsplit, Int.floor_natCast_add, Rat.floor_natCast_div_natCast]
    rfl
  have hquot := d.1.isLt
  have hrem := d.2.isLt
  unfold Synthesizer.Exact c20Synth c20FeedbackDividers
  dsimp only [c20Synth] at hX ⊢
  rw [hX]
  constructor
  · intro heq
    by_contra hge
    -- the quotient is rounded up, by at most 65535
    have hden0 : 0 < 2 * φ.fields.fracDen := by have := h.2.2; omega
    have h1 := (Nat.one_le_div_iff hden0).mpr
      (show 2 * φ.fields.fracDen ≤ 2 * d.2.toNat + φ.fields.fracDen by omega)
    have h2 : (2 * d.2.toNat + φ.fields.fracDen) / (2 * φ.fields.fracDen) < 65536 :=
      Nat.div_lt_of_lt_mul (by omega)
    have hfst := congrArg (fun d : U16 × U16 => d.1.toNat) heq
    simp only [c20DividersOf, castU32, trunc_intCast, BitVec.toNat_setWidth, BitVec.toNat_ofInt,
      hround] at hfst
    omega
  · intro hlt
    have hq : cround (φ.fraction d) = d.1.toNat := by
      rw [hround, Nat.div_eq_of_lt (by omega)]
      rfl
    have hr : cround ((φ.fraction d - cround (φ.fraction d)) * φ.fields.fracDen) = d.2.toNat := by
      rw [hq, show (φ.fraction d - ((d.1.toNat : ℤ) : ℚ)) * φ.fields.fracDen = (d.2.toNat : ℕ) by
        unfold C20Frame.fraction
        push_cast
        field_simp
        ring, cround_natCast]
    obtain ⟨h1, h2⟩ := c20DividersOf_spec (X := φ.fraction d) (by omega) (by omega) hden
    rw [remainderFor, hr, if_pos (by omega)] at h2
    rw [hq] at h1
    exact Prod.ext (BitVec.eq_of_toNat_eq (by exact_mod_cast h1))
      (BitVec.eq_of_toNat_eq (by exact_mod_cast h2))

/-- Where the fraction is not decoded, the setting that comes back is that of the
fraction in the object: none, or on MPLLA one of an earlier read of MPLLB. -/
theorem c20Synth_exact_iff_of_not_fractional {φ : C20Frame} (h : ¬φ.Fractional) (d : U16 × U16) :
    (c20Synth φ).Exact d ↔ c20DividersOf φ.fields.frac φ.fields.fracDen = d := by
  have hscaled : c20FracScaled φ.fields ((c20Synth φ).clock d) = φ.fields.frac := by
    obtain ⟨m, f⟩ := φ
    cases m with
    | a => exact c20FracScaled_clock f
    | b =>
        have hoff : ¬(f.fracEn ≠ 0 ∧ f.fracDen ≠ 0) := fun hon => h ⟨rfl, hon⟩
        refine (c20FracScaled_clock (f.withDividers d.1.toNat d.2.toNat .b)).trans ?_
        show (if f.fracEn ≠ 0 ∧ f.fracDen ≠ 0 then _ else _) = C20Fields.frac f
        rw [C20Fields.frac, if_neg hoff, if_neg hoff]
  show c20FeedbackDividers φ.fields ((c20Synth φ).clock d) = d ↔ _
  rw [c20FeedbackDividers, hscaled]

/-! ## The round trip of every PHY -/

namespace PhyKind

/-- The dividers are the ones that the PHY chooses for their own clock, and the
way back starts from a clock that runs. -/
def RoundTrips : (k : PhyKind) → World k.Reg Hw → (t : ℚ) → Prop
  | combo n, w, _ => 64 ∣ (comboDiv (w.hw.mmio (dpllCfgcr0 n))).2
  | c20 port isBMG, w, _ =>
      let φ := c20FrameOf port isBMG w.hw w.obj.reg.fields
      if φ.Fractional then 2 * (c20Div port isBMG w.hw).2.toNat < φ.fields.fracDen
      else c20DividersOf φ.fields.frac φ.fields.fracDen = c20Div port isBMG w.hw
  | dpMN _, _, t => 1 ≤ t
  | _, _, _ => True

theorem roundTrips_iff (k : PhyKind) (w : World k.Reg Hw) {t : ℚ}
    (hc : 0 < (k.pll w).clock (k.div w))
    (hcombo : ∀ n, k = combo n → getBits (w.hw.mmio (dpllCfgcr0 n)) 24 10 < 2 ^ 14)
    (ht : 99 / 100 * (k.pll w).clock (k.div w) ≤ t) (hrange : k.InRange w t) :
    (0 < (k.pll w).clock ((k.pll w).tune t) ∧ (k.pll w).Exact (k.div w)) ↔ k.RoundTrips w t := by
  cases k with
  | combo n =>
      have hexact := comboSynth_exact_iff (d := comboDiv (w.hw.mmio (dpllCfgcr0 n))) (hcombo n rfl)
      exact ⟨fun h => hexact.mp h.2, fun h => ⟨combo_clock_tune_pos hc ht h, hexact.mpr h⟩⟩
  | dkl phy =>
      exact iff_of_true ⟨dkl_clock_tune_pos hc ht hrange.1,
        dklSynth_exact hrange.1.1 (getBits_lt _ 29 8)⟩ trivial
  | c10 port =>
      exact iff_of_true ⟨c10_clock_pos _ (Nat.succ_pos _) _, c10Synth_exact _ _⟩ trivial
  | c20 port isBMG =>
      have hpos := c20_clock_tune_pos hc ht (c20FrameOf_fracDen_le port isBMG w.hw _) hrange.2.1
        hrange.2.2
      refine (and_iff_right hpos).trans ?_
      unfold RoundTrips
      dsimp only
      split
      · rename_i hfrac
        exact c20Synth_exact_iff hfrac (c20FrameOf_fracDen_le port isBMG w.hw _ hfrac) _
      · rename_i hfrac
        exact c20Synth_exact_iff_of_not_fractional hfrac _
  | dpMN pipe =>
      exact (and_iff_left (dpMNSynth_exact (dpMNDiv pipe w.hw))).trans
        (dpMN_clock_tune_pos_iff hrange.1)

end PhyKind

/-- A combo PHY does not come back to a fraction of one unit. -/
theorem combo_fraction_lost : ∃ w₁ w₂,
    runCaller hwDevice (combo 0) (setPllClock (combo 0) 577 1 50) comboWorld = some (0, w₁) ∧
      runCaller hwDevice (combo 0) (setPllClock (combo 0) (576 + 75 / 64000) 1 50) w₁ = some (0, w₂) ∧
      liveClock (combo 0) comboWorld = some (576 + 75 / 64000) ∧
      comboDiv (comboWorld.hw.mmio (dpllCfgcr0 0)) = (30, 1) ∧
      comboDiv (w₂.hw.mmio (dpllCfgcr0 0)) = (30, 0) := by
  have hramp : rampSteps (576 + 75 / 64000) 577 1 = some (1, 577 - (576 + 75 / 64000)) := by
    with_unfolding_all decide
  have hrange : (576 + 75 / 64000 : ℚ) ∈ comboSynth.range :=
    ⟨by norm_num, by norm_num [comboRefclock]⟩
  have hrange' : (577 : ℚ) ∈ comboSynth.range := ⟨by norm_num, by norm_num [comboRefclock]⟩
  obtain ⟨hw, reg, hrun, htuned⟩ := Tunes.setPllClock_run (T := comboTunes 0)
    (v := waitForTimer hwDevice (combo 0)) comboWorld_live rfl (by norm_num) (by norm_num)
    zero_le_one hramp hrange hrange' 50
  have hlive : liveClock (combo 0) (comboWorld.put hw reg) =
      some (comboSynth.clock (comboSynth.tune 577)) := by
    rw [(comboTunes 0).liveClock_of_admits trivial]
    exact congrArg (fun d => some (comboSynth.clock d)) htuned.div
  have hclock : comboSynth.clock (comboSynth.tune 577) = 492373 * 75 / 64000 := by with_unfolding_all decide
  rw [hclock] at hlive
  have hramp' : rampSteps (492373 * 75 / 64000) (576 + 75 / 64000) 1 =
      some (1, 576 + 75 / 64000 - 492373 * 75 / 64000) := by with_unfolding_all decide
  obtain ⟨hw', reg', hrun', htuned'⟩ := Tunes.setPllClock_run (T := comboTunes 0)
    (v := waitForTimer hwDevice (combo 0)) (w := comboWorld.put hw reg) hlive rfl (by norm_num)
    (by norm_num) zero_le_one hramp' ⟨by norm_num, by norm_num [comboRefclock]⟩ hrange 50
  refine ⟨_, _, hrun, hrun', comboWorld_live, by with_unfolding_all decide, ?_⟩
  exact htuned'.div.trans (show comboSynth.tune (576 + 75 / 64000) = (30, 0) by with_unfolding_all decide)

/-- The way to a clock within one percent and back. -/
theorem round_trip_iff (k : PhyKind) (w : World k.Reg Hw) (c t shift shift' size : ℚ) (n : ℕ)
    (delay delay' : ℤ) (hlive : liveClock k.cls w = some c) (hc : 0 < c) (hnear : |t - c| ≤ c / 100)
    (hcombo : ∀ m, k = .combo m → getBits (w.hw.mmio (dpllCfgcr0 m)) 24 10 < 2 ^ 14)
    (hrange : k.InRange w t) (hshift : 0 < shift) (hshift' : 0 < shift')
    (hramp : rampSteps c t shift = some (n, size))
    (hback : 0 < (k.pll w).clock ((k.pll w).tune t) →
      (rampSteps ((k.pll w).clock ((k.pll w).tune t)) c shift').isSome = true) :
    ∃ w₁ w₂ status,
      runCaller hwDevice k.cls (setPllClock k.cls t shift delay) w = some (0, w₁) ∧
      runCaller hwDevice k.cls (setPllClock k.cls c shift' delay') w₁ = some (status, w₂) ∧
      (k.div w₂ = k.div w ↔ w.clientDone = true ∨ k.RoundTrips w t) := by
  have hclock : c = (k.pll w).clock (k.div w) := k.tunes.clock_of_liveClock hlive hc
  have hpos : 0 < (k.pll w).clock (k.div w) := hclock ▸ hc
  have hcr : c ∈ (k.pll w).range := by
    rw [hclock]
    exact k.clock_mem_range w hpos hcombo
  have ht := le_of_near hnear
  have htrips := k.roundTrips_iff w hpos hcombo (hclock ▸ ht) hrange
  obtain ⟨w₁, w₂, status, hrun, hrun', hiff⟩ := k.tunes.roundTrip_run
    (v := waitForTimer hwDevice k.cls) hlive hc (by linarith) hshift.le hshift'.le hramp hcr
    hrange.1 (fun h => ⟨k.clock_tune_mem_range w hrange.1 h, hback h⟩) delay delay'
  exact ⟨w₁, w₂, status, hrun, hrun', hiff.trans (or_congr_right htrips)⟩

theorem round_trip_iff_combo : ∃ w₁ w₂ status,
    runCaller hwDevice (PhyKind.combo 0).cls (setPllClock (PhyKind.combo 0).cls 577 1 50) comboWorld =
        some (0, w₁) ∧
      runCaller hwDevice (PhyKind.combo 0).cls
        (setPllClock (PhyKind.combo 0).cls (576 + 75 / 64000) 1 50) w₁ = some (status, w₂) ∧
      ((PhyKind.combo 0).div w₂ = (PhyKind.combo 0).div comboWorld ↔
        comboWorld.clientDone = true ∨ (PhyKind.combo 0).RoundTrips comboWorld 577) :=
  round_trip_iff (.combo 0) comboWorld (576 + 75 / 64000) 577 1 1
    (577 - (576 + 75 / 64000)) 1 50 50 comboWorld_live
    (by norm_num) (by rw [abs_le]; constructor <;> norm_num)
    (by rintro m ⟨⟩; with_unfolding_all decide) ⟨⟨by norm_num, by norm_num [comboRefclock]⟩, trivial⟩
    one_pos one_pos (by with_unfolding_all decide) fun _ => by
      have hclock : comboSynth.clock (comboSynth.tune 577) = 492373 * 75 / 64000 := by with_unfolding_all decide
      show (rampSteps (comboSynth.clock (comboSynth.tune 577)) (576 + 75 / 64000) 1).isSome = true
      rw [hclock]
      with_unfolding_all decide

end Genlock.Vsyncalter
