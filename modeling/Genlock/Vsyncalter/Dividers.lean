import Genlock.Vsyncalter.Quotient

/-! # Resolution of the dividers

How close the clock of the computed dividers comes to the clock asked for, and
whether the dividers of a decoded clock are those it was decoded from.
-/

namespace Genlock.Vsyncalter

open CArith

/-! ## Combo -/

/-- Cutting the clock to whole kHz leaves the number of whole units of the
fraction, of 19.2 / 2^14 each, as it is. -/
def KeepsUnits (t : ℚ) : Prop := ⌊t * 64000 / 75⌋ = ⌊t * 1000⌋ * 64 / 75

instance decidableKeepsUnits (t : ℚ) : Decidable (KeepsUnits t) :=
  inferInstanceAs (Decidable (_ = _))

theorem comboUnits_tune_eq {t : ℚ} (ht : 0 ≤ t) :
    (comboUnits (comboSynth.tune t) : ℤ) = ⌊t * 1000⌋ * 64 / 75 := by
  have h0 : 0 ≤ ⌊t * 1000⌋ := Int.floor_nonneg.mpr (by positivity)
  have h1 := (comboUnits_le_tune_iff ht (comboUnits (comboSynth.tune t))).mp le_rfl
  have h2 := mt (comboUnits_le_tune_iff ht (comboUnits (comboSynth.tune t) + 1)).mpr (by omega)
  push_cast at h2
  omega

theorem comboSynth_roundsDown_iff {t : ℚ} (ht : 0 ≤ t) :
    comboSynth.RoundsDown (75 / 64000) t ↔ KeepsUnits t := by
  have hle := comboSynth_clock_tune_le ht
  have hunits := comboUnits_tune_eq ht
  unfold Synthesizer.RoundsDown KeepsUnits
  rw [and_iff_right hle, ← hunits]
  rw [comboSynth_clock] at hle ⊢
  rw [Int.floor_eq_iff]
  push_cast
  constructor
  · intro hlt
    constructor <;> linarith
  · intro h
    linarith [h.2]

/-- The clock of the computed dividers is the largest one not above the request
exactly if the cut to kHz loses no unit, and the dividers of a decoded clock come
back exactly if the decoded clock is a whole number of kHz. -/
theorem combo_dividers_roundDown_iff (cfgcr0 : U32) {t : ℚ} (h0 : 0 ≤ t) (h1 : t < 1024 * 19.2) :
    (comboPllClock (comboModVal cfgcr0 (comboFeedbackDividers t)) ≤ t ∧
        t < comboPllClock (comboModVal cfgcr0 (comboFeedbackDividers t)) + 19.2 / 16384 ↔
      KeepsUnits t) ∧
    (getBits cfgcr0 24 10 < 2 ^ 14 →
      (comboDiv (comboModVal cfgcr0 (comboFeedbackDividers (comboPllClock cfgcr0))) =
        comboDiv cfgcr0 ↔ 64 ∣ getBits cfgcr0 24 10)) := by
  have hdecode : ∀ x ∈ comboSynth.range,
      comboDiv (comboModVal cfgcr0 (comboFeedbackDividers x)) = comboSynth.tune x := by
    intro x hx
    obtain ⟨htune, hint, hfrac⟩ := comboFeedbackDividers_spec hx
    exact (comboDiv_comboModVal cfgcr0 hint hfrac).trans htune
  constructor
  · have hrange : t ∈ comboSynth.range := ⟨h0, by norm_num [comboRefclock]; linarith⟩
    rw [comboPllClock_eq, hdecode t hrange, show (19.2 : ℚ) / 16384 = 75 / 64000 by norm_num]
    exact comboSynth_roundsDown_iff h0
  · intro hfrac
    have hd1 : (comboDiv cfgcr0).1 < 1024 := getBits_lt cfgcr0 9 0
    have hd2 : (comboDiv cfgcr0).2 < 16384 := hfrac
    rw [comboPllClock_eq, hdecode _ (comboSynth_clock_mem_range hd1 hd2)]
    exact comboSynth_exact_iff hd2

theorem combo_dividers_roundDown_iff_whole :
    comboPllClock (comboModVal 0 (comboFeedbackDividers (8102.475))) ≤ 8102.475 ∧
      (8102.475 : ℚ) < comboPllClock (comboModVal 0 (comboFeedbackDividers (8102.475))) +
        19.2 / 16384 :=
  (combo_dividers_roundDown_iff 0 (by norm_num) (by norm_num)).1.mpr (by decide +kernel)

/-- Integer 422 and fraction 1 decode to 1.171875 kHz above a multiple of the
reference, and are encoded as that multiple. -/
theorem combo_unit_lost :
    ¬comboPllClock 0x5A6 <
        comboPllClock (comboModVal 0x5A6 (comboFeedbackDividers (comboPllClock 0x5A6))) +
          19.2 / 16384 ∧
      comboDiv 0x5A6 = (422, 1) ∧
      comboDiv (comboModVal 0x5A6 (comboFeedbackDividers (comboPllClock 0x5A6))) = (422, 0) := by
  decide +kernel

/-! ## C10 -/

theorem C10Fields.mem_range_iff (f : C10Fields) (t : ℚ) :
    t ∈ (c10Synth f).range ↔ 0 ≤ f.quotFor t ∧ f.quotFor t ≤ 65535 := by
  rw [f.le_quotFor_iff, ← Int.lt_add_one_iff, ← not_le (b := f.quotFor t), f.le_quotFor_iff,
    not_le]
  rfl

/-- In range the setting chosen is the largest one not above the request. -/
theorem c10Synth_roundsDown {f : C10Fields} {t : ℚ} (ht : t ∈ (c10Synth f).range) :
    (c10Synth f).RoundsDown (38400 / f.denominator) t := by
  obtain ⟨hlow, hhigh⟩ := f.quotFor_bounds t
  have hclock : (c10Synth f).clock ((c10Synth f).tune t) =
      (f.numenator 0 : ℚ) / f.denominator + f.quotFor t * f.unit := by
    rw [← c10Synth_toNat_tune ht]
    exact f.numenator_div _
  unfold Synthesizer.RoundsDown
  rw [hclock, show (38400 : ℚ) / f.denominator = f.unit from rfl]
  constructor <;> linarith

def c10Put (state : ℕ → U8) (quot : U16) : ℕ → U8 :=
  Function.update (Function.update state c10PllRegQuotLow (lowByte quot)) c10PllRegQuotHigh
    (highByte quot)

theorem c10Fields_put (state : ℕ → U8) (quot : U16) :
    c10Fields (c10Put state quot) = c10Fields state :=
  c10Fields_congr fun i _ hl hh => by
    unfold c10Put
    rw [Function.update_of_ne hh, Function.update_of_ne hl]

theorem c10Quot_put (state : ℕ → U8) (quot : U16) : c10Quot (c10Put state quot) = quot := by
  unfold c10Quot c10Put
  rw [Function.update_self, Function.update_of_ne (by decide), Function.update_self]
  exact word_highByte_lowByte quot

theorem lowByte_word (hi lo : U8) : lowByte (word hi lo) = lo := by
  apply BitVec.eq_of_getLsbD_eq
  intro i hi
  unfold word lowByte
  rw [BitVec.getLsbD_extractLsb', BitVec.getLsbD_append]
  simp [hi]

theorem highByte_word (hi lo : U8) : highByte (word hi lo) = hi := by
  apply BitVec.eq_of_getLsbD_eq
  intro i hi
  unfold word highByte
  rw [BitVec.getLsbD_extractLsb', BitVec.getLsbD_append]
  simp [hi]

theorem c10Put_self (state : ℕ → U8) : c10Put state (c10Quot state) = state := by
  have hlow : lowByte (c10Quot state) = state c10PllRegQuotLow := lowByte_word _ _
  have hhigh : highByte (c10Quot state) = state c10PllRegQuotHigh := highByte_word _ _
  unfold c10Put
  rw [hlow, hhigh, Function.update_eq_self, Function.update_eq_self]

theorem c10_calculateFeedbackDividers_run {v : World C10PhyReg Hw → Option (World C10PhyReg Hw)}
    {w : World C10PhyReg Hw} {t : ℚ} {quot : U16}
    (h : c10FeedbackDividers (c10Fields w.obj.reg.pllStateOrig) t = some quot) :
    (C10.calculateFeedbackDividers t).run (regExec v) w = some (0, w.put w.hw
      ⟨w.obj.reg.pllStateOrig, c10Put w.obj.reg.pllStateMod quot⟩) := by
  unfold C10.calculateFeedbackDividers
  rw [Prog.run_bind_of run_getObj, h]
  rfl

/-- From a state read into both copies: a request whose quotient fits is rounded
down to one unit, and the decoded clock leaves the state as it is. -/
theorem c10_dividers_roundDown {state : ℕ → U8} (hden : 1 ≤ (c10Fields state).den)
    {w : World C10PhyReg Hw} (hw : w.obj.reg = ⟨state, state⟩) (t : ℚ) :
    (0 ≤ (c10Fields state).quotFor t → (c10Fields state).quotFor t ≤ 65535 → ∃ w' c,
      runHandler hwDevice (C10.calculateFeedbackDividers t) w = some (0, w') ∧
        w'.obj.reg.modClock = some c ∧
        c ≤ t ∧ t < c + 38400 / (c10Fields state).denominator) ∧
    (c10PllClock (c10Fields state) (c10Quot state) = some t → ∃ w',
      runHandler hwDevice (C10.calculateFeedbackDividers t) w = some (0, w') ∧
        w'.obj.reg.pllStateMod = state) := by
  have hden0 : (c10Fields state).den ≠ 0 := by omega
  have hrun : t ∈ (c10Synth (c10Fields state)).range →
      runHandler hwDevice (C10.calculateFeedbackDividers t) w = some (0, w.put w.hw
        ⟨state, c10Put state ((c10Synth (c10Fields state)).tune t)⟩) := by
    intro ht
    obtain ⟨h0, h1⟩ := c10_step_bounds ht
    have hdividers := c10FeedbackDividers_eq hden0 h0 h1
    have h := c10_calculateFeedbackDividers_run (v := fun _ => none) (w := w)
      (by rw [hw]; exact hdividers)
    rw [hw] at h
    exact h
  constructor
  · intro h0 h1
    have ht := ((c10Fields state).mem_range_iff t).mpr ⟨h0, h1⟩
    obtain ⟨hle, hlt⟩ := c10Synth_roundsDown ht
    refine ⟨_, _, hrun ht, ?_, hle, hlt⟩
    unfold C10PhyReg.modClock
    rw [World.put_reg, c10Fields_put, c10Quot_put, c10PllClock_eq hden0]
  · intro ht
    rw [c10PllClock_eq hden0] at ht
    obtain rfl := Option.some.inj ht
    refine ⟨_, hrun (c10Synth_clock_mem_range _ _), ?_⟩
    rw [World.put_reg, c10Synth_exact]
    exact c10Put_self state

def c10Copies (state : ℕ → U8) : World C10PhyReg Hw where
  hw := ⟨fun _ => 0, fun _ _ _ => 0, fun _ _ _ => 0, fun _ _ => 0⟩
  obj := ⟨⟨true, 0, 0, 0, 0⟩, ⟨state, state⟩⟩
  clientDone := false
  timer := none

theorem c10_dividers_roundDown_between : ∃ w' c,
    runHandler hwDevice (C10.calculateFeedbackDividers 276488) (c10Copies fun _ => 1) =
        some (0, w') ∧
      w'.obj.reg.modClock = some c ∧ c ≤ 276488 ∧
      276488 < c + 38400 / (c10Fields fun _ => 1).denominator :=
  (c10_dividers_roundDown (by decide) rfl 276488).1 (by with_unfolding_all decide)
    (by with_unfolding_all decide)

/-! ## DKL -/

def DklPhyReg.modClock (r : DklPhyReg) : ℚ := dklPllClock r.pllDiv0.modVal r.bias.modVal

def DklPhyReg.prediv (r : DklPhyReg) : ℕ := getBits r.pllDiv0.modVal 11 8

theorem DklPhyReg.modClock_eq (r : DklPhyReg) :
    r.modClock = (dklSynth r.prediv).clock
      (getBits r.pllDiv0.modVal 7 0, getBits r.bias.modVal 29 8) := rfl

theorem DklPhyReg.modClock_withDividers (r : DklPhyReg) {d : U8 × U32} (hd : d.2.toNat < 2 ^ 22) :
    (r.withDividers d).modClock = (dklSynth r.prediv).clock (d.1.toNat, d.2.toNat) := by
  rw [DklPhyReg.modClock_eq, div0_intgr, bias_frac r hd]
  unfold DklPhyReg.prediv
  rw [div0_prediv]

theorem dklFeedbackDividers_eq {r : DklPhyReg} (hp : r.prediv ≠ 0) (t : ℚ) :
    dklFeedbackDividers t r.pllDiv0.modVal = some (dklDividersOf (t / (refClkFreq * r.prediv))) :=
  if_neg hp

/-- Above the range of the fields both stand at their largest value. -/
theorem dklDividersOf_saturates {F : ℚ} (h0 : 256 ≤ F) (h1 : F < 512) :
    dklDividersOf F = (0xFF, 0x3FFFFF) := by
  have hfloor : 256 ≤ ⌊F⌋ := Int.le_floor.mpr (by exact_mod_cast h0)
  have hint : BitVec.ofInt 8 (min ⌊F⌋ 0xFF) = 0xFF := by
    rw [min_eq_right (by omega)]
    rfl
  have hlow : 2 ^ 22 ≤ cround ((F - 255) * 2 ^ 22) := by
    apply le_cround
    push_cast
    linarith
  have hhigh : cround ((F - 255) * 2 ^ 22) ≤ 2 ^ 31 := by
    apply cround_le
    push_cast
    linarith
  have hcast : ((castU32 (cround ((F - 255) * 2 ^ 22) : ℤ)).toNat : ℤ) =
      cround ((F - 255) * 2 ^ 22) := by
    rw [toNat_castU32 (by exact_mod_cast (by omega : 0 ≤ cround ((F - 255) * 2 ^ 22)))
      (by exact_mod_cast (by omega : cround ((F - 255) * 2 ^ 22) < 2 ^ 32)), Int.floor_intCast]
  unfold dklDividersOf
  rw [hint]
  dsimp only
  rw [show (((0xFF : U8).toNat : ℕ) : ℚ) = 255 from rfl, if_pos]
  rw [gt_iff_lt, BitVec.lt_def]
  simp
  omega

theorem abs_min_cround_sub_le {x : ℚ} (hx : x < 2 ^ 22) :
    |((min (cround x) 0x3FFFFF : ℤ) : ℚ) - x| ≤ 1 := by
  obtain ⟨hlow, hhigh⟩ := abs_le.mp (abs_sub_cround_le x)
  rw [abs_le]
  cases le_total (cround x) 0x3FFFFF with
  | inl hle =>
      rw [min_eq_left hle]
      constructor <;> linarith
  | inr hge =>
      have hge' : ((0x3FFFFF : ℤ) : ℚ) ≤ cround x := by exact_mod_cast hge
      rw [min_eq_right hge]
      push_cast at hge' ⊢
      constructor <;> linarith

/-- The divider chosen for `F` is within one unit of the fraction. -/
theorem abs_sub_dklFixed_le (F : ℚ) : |dklFixed F / 2 ^ 22 - F| ≤ 1 / 2 ^ 22 := by
  have hfract := Int.floor_add_fract F
  have hx : Int.fract F * 2 ^ 22 < 2 ^ 22 := by linarith [Int.fract_lt_one F]
  have hscaled : (dklFixed F : ℚ) / 2 ^ 22 - F =
      (((min (cround (Int.fract F * 2 ^ 22)) 0x3FFFFF : ℤ) : ℚ) - Int.fract F * 2 ^ 22) / 2 ^ 22 := by
    unfold dklFixed
    push_cast
    linarith
  rw [hscaled, abs_div, abs_of_pos (by norm_num : (0 : ℚ) < 2 ^ 22)]
  exact div_le_div_of_nonneg_right (abs_min_cround_sub_le hx) (by norm_num)

def dklUnits (d : U8 × U32) : ℕ := d.1.toNat * 2 ^ 22 + d.2.toNat

theorem dklSynth_clock_units (p : ℕ) (d : U8 × U32) :
    (dklSynth p).clock (d.1.toNat, d.2.toNat) = refClkFreq * p * (dklUnits d / 2 ^ 22) := by
  unfold dklSynth dklUnits
  push_cast
  ring

/-- Below the end of the fields the computation is the one of the synthesizer,
above it saturates. -/
theorem dklUnits_dividersOf {F : ℚ} (h0 : 0 ≤ F) (h1 : F < 512) :
    (dklUnits (dklDividersOf F) : ℤ) = min (dklFixed F) (256 * 2 ^ 22 - 1) := by
  have hfraction := dklFraction_nonneg F
  have hcut := min_le_right (cround (Int.fract F * 2 ^ 22)) 0x3FFFFF
  have hfloor : 0 ≤ ⌊F⌋ := Int.floor_nonneg.mpr h0
  unfold dklFixed
  cases lt_or_ge F 256 with
  | inl hlt =>
      obtain ⟨hint, hfrac, -⟩ := dklDividersOf_spec h0 hlt
      have : ⌊F⌋ < 256 := Int.floor_lt.mpr (by exact_mod_cast hlt)
      unfold dklUnits
      rw [hint, hfrac]
      push_cast
      omega
  | inr hge =>
      have : 256 ≤ ⌊F⌋ := Int.le_floor.mpr (by exact_mod_cast hge)
      rw [dklDividersOf_saturates hge h1, show dklUnits (0xFF, 0x3FFFFF) = 256 * 2 ^ 22 - 1 by decide]
      omega

theorem dklDividersOf_lt {F : ℚ} (h0 : 0 ≤ F) (h1 : F < 512) :
    (dklDividersOf F).2.toNat < 2 ^ 22 := by
  cases lt_or_ge F 256 with
  | inl hlt => exact (dklDividersOf_spec h0 hlt).2.2
  | inr hge =>
      rw [dklDividersOf_saturates hge h1]
      decide

/-- A request near the decoded clock needs a divider just above its field at most. -/
theorem dkl_near_bounds {r : DklPhyReg} (hp : r.prediv ≠ 0) {t : ℚ} (ht : 0 < t)
    (hnear : |t - r.modClock| ≤ r.modClock / 100) :
    0 ≤ t / (refClkFreq * r.prediv) ∧ t / (refClkFreq * r.prediv) < 512 := by
  have hscale := dklSynth_scale_pos (Nat.pos_of_ne_zero hp)
  have hint : ((getBits r.pllDiv0.modVal 7 0 : ℕ) : ℚ) ≤ 255 := by
    exact_mod_cast Nat.le_of_lt_succ (getBits_lt r.pllDiv0.modVal 7 0)
  have hfrac : ((getBits r.bias.modVal 29 8 : ℕ) : ℚ) / 2 ^ 22 < 1 := by
    rw [div_lt_one (by norm_num)]
    exact_mod_cast getBits_lt r.bias.modVal 29 8
  have hclock : r.modClock < refClkFreq * r.prediv * 256 := by
    rw [r.modClock_eq]
    exact mul_lt_mul_of_pos_left (by linarith) hscale
  have hle := (abs_le.mp hnear).2
  refine ⟨div_nonneg ht.le hscale.le, ?_⟩
  rw [div_lt_iff₀ hscale]
  linarith

/-- What the dividers for a clock near the decoded one come to. -/
theorem dkl_dividers_spec {r : DklPhyReg} (hp : r.prediv ≠ 0) {t : ℚ} (ht : 0 < t)
    (hnear : |t - r.modClock| ≤ r.modClock / 100) :
    ∃ d, dklFeedbackDividers t r.pllDiv0.modVal = some d ∧
      d.1.toNat ≤ 0xFF ∧ d.2.toNat ≤ 0x3FFFFF ∧
      (t < 256 * 38.4 * r.prediv →
        |(r.withDividers d).modClock - t| ≤ 38.4 * r.prediv / 2 ^ 22) ∧
      (256 * 38.4 * r.prediv ≤ t → d = (0xFF, 0x3FFFFF)) ∧
      (∀ t' d', t ≤ t' → |t' - r.modClock| ≤ r.modClock / 100 →
        dklFeedbackDividers t' r.pllDiv0.modVal = some d' →
          (r.withDividers d).modClock ≤ (r.withDividers d').modClock) ∧
      (t = r.modClock →
        d.1.toNat = getBits r.pllDiv0.modVal 7 0 ∧ d.2.toNat = getBits r.bias.modVal 29 8) := by
  have hscale := dklSynth_scale_pos (Nat.pos_of_ne_zero hp)
  obtain ⟨h0, h1⟩ := dkl_near_bounds hp ht hnear
  have hlt := dklDividersOf_lt h0 h1
  have hunits := dklUnits_dividersOf h0 h1
  have hrange : t < 256 * 38.4 * r.prediv ↔ t / (refClkFreq * r.prediv) < 256 := by
    rw [div_lt_iff₀ hscale]
    unfold refClkFreq
    constructor <;> intro h <;> linarith
  have hdecode := (r.modClock_withDividers hlt).trans (dklSynth_clock_units _ _)
  refine ⟨_, dklFeedbackDividers_eq hp t, ?_, by omega, ?_, ?_, ?_, ?_⟩
  · exact Nat.le_of_lt_succ (dklDividersOf (t / (refClkFreq * r.prediv))).1.isLt
  · intro hin
    have hfixed : (dklUnits (dklDividersOf (t / (refClkFreq * r.prediv))) : ℚ) =
        dklFixed (t / (refClkFreq * r.prediv)) := by
      have hfloor := Int.floor_lt.mpr (show t / (refClkFreq * r.prediv) < (256 : ℤ) by
        exact_mod_cast hrange.mp hin)
      have hcut := min_le_right (cround (Int.fract (t / (refClkFreq * r.prediv)) * 2 ^ 22)) 0x3FFFFF
      rw [min_eq_left (by unfold dklFixed; omega)] at hunits
      exact_mod_cast hunits
    have hclose := abs_sub_dklFixed_le (t / (refClkFreq * r.prediv))
    rw [hdecode, hfixed]
    calc |refClkFreq * r.prediv * (dklFixed (t / (refClkFreq * r.prediv)) / 2 ^ 22) - t|
        = refClkFreq * r.prediv *
            |dklFixed (t / (refClkFreq * r.prediv)) / 2 ^ 22 - t / (refClkFreq * r.prediv)| := by
          rw [← abs_of_pos hscale, ← abs_mul, abs_of_pos hscale, mul_sub, mul_div_cancel₀]
          exact hscale.ne'
      _ ≤ refClkFreq * r.prediv * (1 / 2 ^ 22) := mul_le_mul_of_nonneg_left hclose hscale.le
      _ = 38.4 * r.prediv / 2 ^ 22 := by
          unfold refClkFreq
          ring
  · intro hge
    exact dklDividersOf_saturates (not_lt.mp (hrange.not.mp (not_lt.mpr hge))) h1
  · intro t' d' hle hnear' hd'
    obtain ⟨h0', h1'⟩ := dkl_near_bounds hp (ht.trans_le hle) hnear'
    obtain rfl := Option.some.inj ((dklFeedbackDividers_eq hp t').symm.trans hd')
    have hunits' := dklUnits_dividersOf h0' h1'
    have hmono := dklFixed_mono (div_le_div_of_nonneg_right hle hscale.le)
    rw [hdecode, (r.modClock_withDividers (dklDividersOf_lt h0' h1')).trans
      (dklSynth_clock_units _ _)]
    refine mul_le_mul_of_nonneg_left (div_le_div_of_nonneg_right ?_ (by norm_num)) hscale.le
    exact_mod_cast (by omega : (dklUnits (dklDividersOf (t / (refClkFreq * r.prediv))) : ℤ) ≤
      dklUnits (dklDividersOf (t' / (refClkFreq * r.prediv))))
  · intro heq
    have hexact := dklSynth_exact (Nat.pos_of_ne_zero hp)
      (d := (getBits r.pllDiv0.modVal 7 0, getBits r.bias.modVal 29 8)) (getBits_lt _ 29 8)
    have hin : t / (refClkFreq * r.prediv) < 256 := by
      have hclock := dklSynth_clock_mem_range (p := r.prediv)
        (d := (getBits r.pllDiv0.modVal 7 0, getBits r.bias.modVal 29 8))
        (getBits_lt r.pllDiv0.modVal 7 0) (getBits_lt r.bias.modVal 29 8)
        (by rw [← r.modClock_eq, ← heq]; exact ht)
      rw [div_lt_iff₀ hscale, heq, mul_comm]
      exact hclock.2.2
    obtain ⟨hint, hfrac, -⟩ := dklDividersOf_spec h0 hin
    rw [hint, hfrac, heq, r.modClock_eq]
    exact Prod.mk.inj hexact

/-- Pre-divider 2 and the largest divider, asked for one percent more. -/
theorem dkl_dividers_spec_top :
    ∃ d, dklFeedbackDividers 19840 0x2FF = some d ∧ d = (0xFF, 0x3FFFFF) := by
  obtain ⟨d, hd, -, -, -, hsaturates, -⟩ := dkl_dividers_spec
    (r := ⟨⟨0, 0x2FF⟩, ⟨0, 0⟩, ⟨0, 0x3FFFFF00⟩, ⟨0, 0⟩, ⟨0, 0⟩⟩) (by decide) (t := 19840)
    (by norm_num) (by decide +kernel)
  exact ⟨d, hd, hsaturates (by decide +kernel)⟩

/-! ## C20 -/

/-- Read the registers, compute the dividers for a clock and write them. -/
def PhyClass.rewrite {Φ Dev : Type} {DA : Dev → Type} (cls : PhyClass Φ Dev DA) (t : ℚ) :
    PhyProg Φ Dev DA ℤ := do
  cls.readRegisters
  let status ← cls.calculateFeedbackDividers t
  if status ≠ 0 then return status
  cls.programMmio true

theorem Tunes.rewrite_run {Φ Frame Div : Type} {cls : PhyClass Φ RegOp RegOp.Ans}
    (T : Tunes cls Frame Div) {w : World Φ Hw} (hadmits : T.admits w.hw) {x : ℚ}
    (hx : x ∈ (T.pll w).range) : ∃ w',
      runHandler hwDevice (cls.rewrite x) w = some (0, w') ∧
        T.div w'.hw = (T.pll w).tune x ∧
        liveClock cls w' = some ((T.pll w).clock ((T.pll w).tune x)) := by
  obtain ⟨hw, reg, hread, -, htuned, -⟩ := T.read_clock hadmits fun _ => none
  have hpll := htuned.pll_put
  obtain ⟨hw', reg', hcalc, hprogram, hadmits', hcached', hframe', hdiv'⟩ :=
    T.step (fun _ => none) (w.put hw reg) x htuned.admits htuned.cached
      (show x ∈ (T.pll (w.put hw reg)).range by rwa [hpll])
  have htuned' : T.TunedTo (w.put hw reg) ((T.pll (w.put hw reg)).tune x) hw' reg' :=
    ⟨hadmits', hcached', hframe', hdiv'⟩
  refine ⟨w.put hw' reg', ?_, hdiv'.trans (congrArg (fun S => Synthesizer.tune S x) hpll), ?_⟩
  · unfold runHandler PhyClass.rewrite
    rw [Prog.run_bind_of hread, Prog.run_bind_of hcalc, if_neg (by simp)]
    exact hprogram
  · have hlive := T.liveClock_of_admits (w := (w.put hw reg).put hw' reg') htuned'.admits
    have hpll' := htuned'.pll_put
    rw [World.put_put] at hlive hpll'
    rw [hlive, hpll', hpll]
    exact congrArg (fun d => some ((T.pll w).clock d)) (hdiv'.trans (by rw [← hpll]; rfl))

/-- A clock in terms of the quotient that it needs. -/
theorem C20Fields.eq_unit_mul (f : C20Fields) (t : ℚ) :
    t = f.unit * (f.multiplier * 2 ^ 15 + c20FracScaled f t) := by
  have := f.unit_pos.ne'
  rw [c20FracScaled_eq]
  field_simp
  ring

/-- The quotient and remainder chosen come within one unit of the remainder
exactly if the remainder is one that an unsigned number can hold. -/
theorem abs_remainderFor_le_iff {X : ℚ} (hX : 0 ≤ X) {den : ℕ} (hden : den ≠ 0) :
    |cround X + remainderFor X den / den - X| ≤ 1 / den ↔ RemainderFits X den := by
  have hpos : (0 : ℚ) < den := by exact_mod_cast Nat.pos_of_ne_zero hden
  rw [remainderFits_iff (by linarith)]
  unfold remainderFor
  by_cases hfits : 0 ≤ cround ((X - cround X) * den)
  · rw [if_pos hfits]
    refine iff_of_true ?_ hfits
    have hscaled : (cround X : ℚ) + cround ((X - cround X) * den) / den - X =
        -(((X - cround X) * den - cround ((X - cround X) * den)) / den) := by
      field_simp
      ring
    have hround := abs_sub_cround_le ((X - cround X) * den)
    rw [hscaled, abs_neg, abs_div, abs_of_pos hpos]
    exact div_le_div_of_nonneg_right (by linarith) hpos.le
  · rw [if_neg hfits]
    refine iff_of_false ?_ hfits
    have hup : X ≤ cround X := by
      by_contra hlt
      have := cround_nonneg (mul_nonneg (by linarith : 0 ≤ X - cround X) hpos.le)
      exact hfits this
    rw [not_le]
    push_cast
    calc (1 : ℚ) / den < 65535 / den := div_lt_div_of_pos_right (by norm_num) hpos
      _ ≤ cround X + 65535 / den - X := by linarith
      _ ≤ |cround X + 65535 / den - X| := le_abs_self _

/-- The fraction that is read back comes within one unit of the remainder of the
one needed. MPLLA's is not read back: one from an earlier read takes its place. -/
def FractionReached (φ : C20Frame) (X : ℚ) : Prop :=
  match φ.mpll with
  | .b => RemainderFits X φ.fields.fracDen
  | .a => |φ.fields.frac - X| ≤ 1 / φ.fields.fracDen

theorem c20Synth_within_iff {φ : C20Frame} (hen : φ.fields.fracEn ≠ 0) (hden : φ.fields.fracDen ≠ 0)
    (hfield : φ.mpll = .b → φ.fields.fracDen ≤ 65535) {t : ℚ} (h0 : 0 ≤ c20FracScaled φ.fields t)
    (h1 : c20FracScaled φ.fields t < 65535) :
    |(c20Synth φ).clock ((c20Synth φ).tune t) - t| ≤ φ.fields.unit / φ.fields.fracDen ↔
      FractionReached φ (c20FracScaled φ.fields t) := by
  have hunit := φ.fields.unit_pos
  have hscale : ∀ y : ℚ,
      |φ.fields.unit * (φ.fields.multiplier * 2 ^ 15 + y) - t| ≤ φ.fields.unit / φ.fields.fracDen ↔
        |y - c20FracScaled φ.fields t| ≤ 1 / φ.fields.fracDen := by
    intro y
    have hdiff : φ.fields.unit * (φ.fields.multiplier * 2 ^ 15 + y) - t =
        φ.fields.unit * (y - c20FracScaled φ.fields t) := by
      linarith [φ.fields.eq_unit_mul t]
    rw [hdiff, abs_mul, abs_of_pos hunit, div_eq_mul_one_div, mul_le_mul_iff_right₀ hunit]
  obtain ⟨m, f⟩ := φ
  cases m with
  | a =>
      show |c20PllClock f - t| ≤ _ ↔ _
      rw [c20PllClock_eq, hscale]
      rfl
  | b =>
      have hfractional : C20Frame.Fractional ⟨.b, f⟩ := ⟨rfl, hen, hden⟩
      have hq0 : 0 ≤ cround (c20FracScaled f t) := cround_nonneg h0
      have hq1 : cround (c20FracScaled f t) ≤ 65535 := cround_le (by push_cast; exact h1.le)
      rw [c20Synth_clock hfractional, hscale, fraction_tune (hfield rfl) hq0 hq1]
      exact abs_remainderFor_le_iff h0 hden

/-- Reading, computing and writing the dividers for a clock, and when what is read
back then is within one unit of the remainder; and when doing so for the decoded
clock leaves quotient and remainder as they are. On MPLLA that clock is of the fraction
in the object, which is written then: the rounded fraction and what is left of it. -/
theorem c20_rewrite_within_iff (port : ℕ) (isBMG : Bool) (w : World C20PhyReg Hw) {φ : C20Frame}
    (hφ : φ = c20FrameOf port isBMG w.hw w.obj.reg.fields) (hen : φ.fields.fracEn ≠ 0)
    (hden : φ.fields.fracDen ≠ 0) {t : ℚ} (h0 : 0 ≤ c20FracScaled φ.fields t)
    (h1 : c20FracScaled φ.fields t < 65535) :
    (∃ w' c, runHandler hwDevice ((c20 port isBMG).rewrite t) w = some (0, w') ∧
      liveClock (c20 port isBMG) w' = some c ∧
      (|c - t| ≤ φ.fields.unit / φ.fields.fracDen ↔
        FractionReached φ (c20FracScaled φ.fields t))) ∧
    ∃ w' c, liveClock (c20 port isBMG) w = some c ∧
      runHandler hwDevice ((c20 port isBMG).rewrite c) w = some (0, w') ∧
      ((c20Div port isBMG w.hw).2.toNat < φ.fields.fracDen →
        (c20Div port isBMG w'.hw = c20Div port isBMG w.hw ↔
          if φ.mpll = .b then 2 * (c20Div port isBMG w.hw).2.toNat < φ.fields.fracDen
          else ((c20Div port isBMG w.hw).1.toNat : ℤ) = cround φ.fields.frac % 2 ^ 16 ∧
            ((c20Div port isBMG w.hw).2.toNat : ℤ) = min 65535
              (cround ((φ.fields.frac - (cround φ.fields.frac % 2 ^ 32 : ℤ)) *
                φ.fields.fracDen) % 2 ^ 32))) := by
  subst hφ
  have hfield := c20FrameOf_fracDen_le port isBMG w.hw w.obj.reg.fields
  have hpll : (c20Tunes port isBMG).pll w =
    c20Synth (c20FrameOf port isBMG w.hw w.obj.reg.fields) := rfl
  constructor
  · obtain ⟨w', hrun, -, hlive⟩ := (c20Tunes port isBMG).rewrite_run (w := w) trivial
      (x := t) trivial
    refine ⟨w', _, hrun, hlive, ?_⟩
    rw [hpll]
    exact c20Synth_within_iff hen hden (fun hb => hfield ⟨hb, hen, hden⟩) h0 h1
  · have hclock := (c20Tunes port isBMG).liveClock_of_admits (w := w) trivial
    obtain ⟨w', hrun, hdiv, -⟩ := (c20Tunes port isBMG).rewrite_run (w := w) trivial
      (x := ((c20Tunes port isBMG).pll w).clock ((c20Tunes port isBMG).div w.hw)) trivial
    refine ⟨w', _, hclock, hrun, fun _ => ?_⟩
    show (c20Tunes port isBMG).div w'.hw = (c20Tunes port isBMG).div w.hw ↔ _
    rw [hdiv, hpll]
    show (c20Synth _).Exact (c20Div port isBMG w.hw) ↔ _
    by_cases hb : (c20FrameOf port isBMG w.hw w.obj.reg.fields).mpll = .b
    · rw [if_pos hb]
      exact c20Synth_exact_iff ⟨hb, hen, hden⟩ (hfield ⟨hb, hen, hden⟩) _
    · rw [if_neg hb, ← c20DividersOf_eq_iff]
      exact c20Synth_exact_iff_of_not_fractional (fun h => hb h.1) _

/-- A C20 PHY on MPLLB with multiplier 16, quotient 1000 and a remainder in fifths. -/
def c20World (rem : U16) : World C20PhyReg Hw where
  hw := ⟨fun _ => 0, fun _ _ _ => 0, fun _ _ _ => 0, fun _ addr =>
    if addr = 0xCF2E then 0x80
    else if addr = 0xCB5A then 16
    else if addr = 0xCB54 then 0x2000
    else if addr = 0xCB53 then 5
    else if addr = 0x13C then 1000
    else if addr = 0x13D then rem
    else 0⟩
  obj := ⟨⟨true, 0, 0, 0, 0⟩, C20PhyReg.zero⟩
  clientDone := false
  timer := none

def c20WorldFields : C20Fields := ⟨1, 0, 0, 5, 0, 16, 1, 0, 0, 0⟩

theorem c20World_cntx (rem : U16) : c20Cntx 0 (c20World rem).hw = false :=
  show (0 : U8).getLsbD 0 = false from rfl

theorem c20World_tx0 (rem : U16) : c20Tx0 0 false (c20World rem).hw = 0x80 := by
  have haddr : c20GetAddr (c20TxCntxCfg false false) 0 = 0xCF2E := rfl
  unfold c20Tx0
  rw [c20World_cntx, haddr]
  rfl

theorem c20World_mpll (rem : U16) : c20HwMpll 0 false (c20World rem).hw = .b := by
  unfold c20HwMpll
  rw [c20World_tx0]
  rfl

theorem c20World_state (rem : U16) (i : ℕ) : c20State 0 false (c20World rem).hw i =
    (c20World rem).hw.sram 0 (c20StateAddr false false .b i) := by
  unfold c20State
  rw [c20World_mpll, c20World_cntx]

theorem c20World_frame (rem : U16) :
    c20FrameOf 0 false (c20World rem).hw (c20World rem).obj.reg.fields = ⟨.b, c20WorldFields⟩ := by
  have hstate : c20State 0 false (c20World rem).hw 0 = 16 ∧
      c20State 0 false (c20World rem).hw 6 = 0x2000 ∧
      c20State 0 false (c20World rem).hw 7 = 5 := by
    simp only [c20World_state]
    exact ⟨rfl, rfl, rfl⟩
  unfold c20FrameOf c20HwFields
  rw [c20World_mpll, c20World_tx0]
  simp only [c20DecodeFields, C20Fields.withDividers, hstate]
  rfl

theorem c20World_div (rem : U16) : c20Div 0 false (c20World rem).hw = (1000, rem) := by
  unfold c20Div
  rw [c20World_state, c20World_state]
  rfl

theorem c20_rewrite_within_iff_fifth : ∃ w' c,
    runHandler hwDevice ((c20 0 false).rewrite (c20WorldFields.unit * (16 * 2 ^ 15 + 1000.2)))
        (c20World 1) = some (0, w') ∧
      liveClock (c20 0 false) w' = some c ∧
      (|c - c20WorldFields.unit * (16 * 2 ^ 15 + 1000.2)| ≤ c20WorldFields.unit / 5 ↔
        FractionReached ⟨.b, c20WorldFields⟩ (c20FracScaled c20WorldFields
          (c20WorldFields.unit * (16 * 2 ^ 15 + 1000.2)))) :=
  (c20_rewrite_within_iff 0 false (c20World 1) (c20World_frame 1).symm (by decide) (by decide)
    (by decide +kernel) (by decide +kernel)).1

/-- Three fifths round the quotient up; the remainder of minus two fifths becomes
the largest one. -/
theorem c20_remainder_lost : ∃ w' c c',
    liveClock (c20 0 false) (c20World 3) = some c ∧
      runHandler hwDevice ((c20 0 false).rewrite c) (c20World 3) = some (0, w') ∧
      liveClock (c20 0 false) w' = some c' ∧
      c20Div 0 false (c20World 3).hw = (1000, 3) ∧ c20Div 0 false w'.hw = (1001, 65535) ∧
      c20WorldFields.unit / 5 < c' - c := by
  have hclock := (c20Tunes 0 false).liveClock_of_admits (w := c20World 3) trivial
  obtain ⟨w', hrun, hdiv, hlive⟩ := (c20Tunes 0 false).rewrite_run (w := c20World 3) trivial
    (x := ((c20Tunes 0 false).pll (c20World 3)).clock ((c20Tunes 0 false).div (c20World 3).hw))
    trivial
  have hpll : (c20Tunes 0 false).pll (c20World 3) = c20Synth ⟨.b, c20WorldFields⟩ :=
    congrArg c20Synth (c20World_frame 3)
  have hdiv3 : (c20Tunes 0 false).div (c20World 3).hw = (1000, 3) := c20World_div 3
  rw [hpll, hdiv3] at hclock hrun hdiv hlive
  refine ⟨w', _, _, hclock, hrun, hlive, hdiv3, ?_, ?_⟩
  · refine hdiv.trans ?_
    decide +kernel
  · decide +kernel

end Genlock.Vsyncalter
