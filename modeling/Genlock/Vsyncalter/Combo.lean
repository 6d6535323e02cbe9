import Genlock.Vsyncalter.Tuning

/-! # Combo PHY -/

namespace Genlock.Vsyncalter

open CArith

structure ComboPhyReg where
  cfgcr0 : Reg
  cfgcr1 : Reg
deriving DecidableEq, Repr

/-! ## Addresses -/

/-- `DPLL0_CFGCR0` to `DPLL3_CFGCR0`. -/
def dpllCfgcr0 : Fin 4 → ℕ
  | 0 => 0x164284
  | 1 => 0x16428C
  | 2 => 0x164294
  | 3 => 0x1642C0

def dpllCfgcr1 (dpllNum : Fin 4) : ℕ := dpllCfgcr0 dpllNum + 4

/-! ## Dividers and clock -/

def comboRefclock : ℚ := 19200

def comboPllClock (cfgcr0 : U32) : ℚ :=
  let fbdivIntgr : ℚ := getBits cfgcr0 9 0
  let fbdivFrac : ℚ := getBits cfgcr0 24 10
  (fbdivIntgr * comboRefclock + fbdivFrac * 2 * comboRefclock / 0x8000) / 1000

/-- `combo::calculate_feedback_dividers(pll_clock, …)`: integer and fraction. The
remainder is cut to whole kHz. -/
def comboFeedbackDividers (pllClock : ℚ) : U32 × U32 :=
  let pllClock := pllClock * 1000
  let fbdivIntgr := castU32 (pllClock / comboRefclock)
  let remainder := castU64 (pllClock - fbdivIntgr.toNat * comboRefclock)
  (fbdivIntgr, castU32 ((remainder * 0x8000).toNat / (2 * comboRefclock)))

def comboModVal (cfgcr0 : U32) (dividers : U32 × U32) : U32 :=
  cfgcr0 &&& ~~~(0x1FFFFFF : U32) ||| dividers.1 ||| dividers.2 <<< 10

/-! ## The class -/

namespace Combo

variable (dpllNum : Fin 4)

def readRegisters : RegProg ComboPhyReg Unit := do
  let cfgcr0 ← readReg (dpllCfgcr0 dpllNum)
  modReg fun r => { r with cfgcr0 := { r.cfgcr0 with origVal := cfgcr0 } }
  let cfgcr1 ← readReg (dpllCfgcr1 dpllNum)
  modReg fun r => { r with cfgcr1 := { r.cfgcr1 with origVal := cfgcr1 } }

def calculatePllClock : RegProg ComboPhyReg ℚ := do
  let cfgcr0 ← readReg (dpllCfgcr0 dpllNum)
  let _cfgcr1 ← readReg (dpllCfgcr1 dpllNum)
  return comboPllClock cfgcr0

def calculateFeedbackDividers (pllClock : ℚ) : RegProg ComboPhyReg ℤ := do
  let cfgcr0 ← readReg (dpllCfgcr0 dpllNum)
  let cfgcr1 ← readReg (dpllCfgcr1 dpllNum)
  let modVal := comboModVal cfgcr0 (comboFeedbackDividers pllClock)
  modReg fun r => { r with cfgcr0 := { r.cfgcr0 with modVal := modVal } }
  modReg fun r => { r with cfgcr1 := { r.cfgcr1 with modVal := cfgcr1 } }
  return 0

def programMmio (mod : Bool) : RegProg ComboPhyReg ℤ := do
  let o ← getObj
  writeReg (dpllCfgcr0 dpllNum) (o.reg.cfgcr0.value mod)
  return 0

end Combo

def combo (dpllNum : Fin 4) : PhyClass ComboPhyReg RegOp RegOp.Ans where
  readRegisters := Combo.readRegisters dpllNum
  calculatePllClock := Combo.calculatePllClock dpllNum
  calculateFeedbackDividers := Combo.calculateFeedbackDividers dpllNum
  programMmio := Combo.programMmio dpllNum

/-! ## The synthesizer of a combo PHY -/

def comboRemainder (x : ℚ) : ℤ := ⌊x * 1000 - ⌊x * 1000 / comboRefclock⌋ * comboRefclock⌋

def comboSynth : Synthesizer ℚ (ℕ × ℕ) where
  clock d := (d.1 * comboRefclock + d.2 * 2 * comboRefclock / 0x8000) / 1000
  tune x := (⌊x * 1000 / comboRefclock⌋.toNat, (comboRemainder x * 0x8000 / 38400).toNat)
  range := Set.Ico 0 (1024 * comboRefclock / 1000)

def comboDiv (cfgcr0 : U32) : ℕ × ℕ := (getBits cfgcr0 9 0, getBits cfgcr0 24 10)

theorem comboPllClock_eq (cfgcr0 : U32) : comboPllClock cfgcr0 = comboSynth.clock (comboDiv cfgcr0) :=
  rfl

theorem comboRemainder_bounds (x : ℚ) : 0 ≤ comboRemainder x ∧ comboRemainder x < 19200 := by
  have h0 := Int.floor_le (x * 1000 / comboRefclock)
  have h1 := Int.lt_floor_add_one (x * 1000 / comboRefclock)
  unfold comboRefclock at h0 h1
  rw [le_div_iff₀ (by norm_num)] at h0
  rw [div_lt_iff₀ (by norm_num)] at h1
  unfold comboRemainder comboRefclock
  exact ⟨Int.floor_nonneg.mpr (by linarith), Int.floor_lt.mpr (by push_cast; linarith)⟩

/-- The scaled remainder fits the field of the fraction. -/
theorem toNat_comboFraction {r : BitVec 64} (hr : r.toNat < 19200) :
    ((castU32 ((r * 0x8000).toNat / (2 * comboRefclock))).toNat : ℤ) = r.toNat * 0x8000 / 38400 := by
  have hmul : (r * 0x8000).toNat = r.toNat * 0x8000 := by
    rw [BitVec.toNat_mul]
    exact Nat.mod_eq_of_lt (by simp; omega)
  have hdiv : ((r.toNat * 0x8000 : ℕ) : ℚ) / (2 * comboRefclock) =
      ((r.toNat * 0x8000 : ℤ) : ℚ) / (38400 : ℕ) := by
    push_cast
    norm_num [comboRefclock]
  have hlt : ((r.toNat : ℚ)) < 19200 := by exact_mod_cast hr
  rw [hmul, hdiv, toNat_castU32 (by positivity), Rat.floor_intCast_div_natCast]
  · norm_cast
  · push_cast
    rw [div_lt_iff₀ (by norm_num)]
    linarith

theorem comboFeedbackDividers_spec {x : ℚ} (hx : x ∈ comboSynth.range) :
    ((comboFeedbackDividers x).1.toNat, (comboFeedbackDividers x).2.toNat) = comboSynth.tune x ∧
      (comboFeedbackDividers x).1.toNat < 2 ^ 10 ∧ (comboFeedbackDividers x).2.toNat < 2 ^ 15 := by
  obtain ⟨h0, h1⟩ := hx
  have hq0 : 0 ≤ x * 1000 / comboRefclock := by unfold comboRefclock; positivity
  have hq1 : x * 1000 / comboRefclock < 1024 := by
    unfold comboRefclock at h1 ⊢
    rw [div_lt_iff₀ (by norm_num)]
    linarith
  have hlt : ⌊x * 1000 / comboRefclock⌋ < 1024 := Int.floor_lt.mpr (by exact_mod_cast hq1)
  obtain ⟨hr0, hr1⟩ := comboRemainder_bounds x
  have hI : ((comboFeedbackDividers x).1.toNat : ℤ) = ⌊x * 1000 / comboRefclock⌋ :=
    toNat_castU32 hq0 (by linarith)
  have hR : ((castU64 (x * 1000 - (comboFeedbackDividers x).1.toNat * comboRefclock)).toNat : ℤ) =
      comboRemainder x := by
    rw [show (((comboFeedbackDividers x).1.toNat : ℕ) : ℚ) = ⌊x * 1000 / comboRefclock⌋ by
      exact_mod_cast hI]
    exact toNat_castU64 (Int.floor_nonneg.mp hr0) ((Int.floor_lt.mp hr1).trans (by norm_num))
  have hF : ((comboFeedbackDividers x).2.toNat : ℤ) = comboRemainder x * 0x8000 / 38400 := by
    have hlt : (castU64 (x * 1000 - (comboFeedbackDividers x).1.toNat * comboRefclock)).toNat < 19200 := by
      omega
    rw [← hR]
    exact toNat_comboFraction hlt
  refine ⟨Prod.ext ?_ ?_, by omega, by omega⟩
  · show (comboFeedbackDividers x).1.toNat = ⌊x * 1000 / comboRefclock⌋.toNat
    omega
  · show (comboFeedbackDividers x).2.toNat = (comboRemainder x * 0x8000 / 38400).toNat
    omega

/-- The two fields of the value that is written. -/
theorem comboDiv_comboModVal (cfgcr0 : U32) {d : U32 × U32} (h1 : d.1.toNat < 2 ^ 10)
    (h2 : d.2.toNat < 2 ^ 15) : comboDiv (comboModVal cfgcr0 d) = (d.1.toNat, d.2.toNat) := by
  have hmask : ∀ i < 25, (0x1FFFFFF : U32).getLsbD i = true := by decide
  have hset : ∀ i < 25, (comboModVal cfgcr0 d).getLsbD i = (d.1 ||| d.2 <<< 10).getLsbD i := by
    intro i hi
    unfold comboModVal
    rw [BitVec.or_assoc, getLsbD_clear_set (hmask i hi)]
  unfold comboDiv
  congr 1
  · calc getBits (comboModVal cfgcr0 d) 9 0
        = getBits (d.1 <<< 0) 9 0 := getBits_congr (fun i _ hi => by
          have hi10 : i < 10 := by omega
          rw [hset i (by omega)]
          simp [hi10]) (by omega)
      _ = d.1.toNat := getBits_shiftLeft h1 (by omega) (by omega)
  · calc getBits (comboModVal cfgcr0 d) 24 10
        = getBits (d.2 <<< 10) 24 10 := getBits_congr (fun i hl hi => by
          rw [hset i (by omega), BitVec.getLsbD_or, getLsbD_of_lt h1 hl, Bool.false_or]) (by omega)
      _ = d.2.toNat := getBits_shiftLeft h2 (by omega) (by omega)

/-! ### Order and exactness -/

/-- A setting counted in units of its fraction. -/
def comboUnits (d : ℕ × ℕ) : ℕ := 16384 * d.1 + d.2

theorem comboSynth_clock (d : ℕ × ℕ) : comboSynth.clock d = comboUnits d * 75 / 64000 := by
  unfold comboSynth comboUnits comboRefclock
  push_cast
  ring

theorem comboUnits_tune {x : ℚ} (hx : 0 ≤ x) :
    (comboUnits (comboSynth.tune x) : ℤ) =
      16384 * ⌊x * 1000 / comboRefclock⌋ + comboRemainder x * 64 / 75 := by
  have h0 : 0 ≤ ⌊x * 1000 / comboRefclock⌋ := Int.floor_nonneg.mpr (by unfold comboRefclock; positivity)
  have h1 := (comboRemainder_bounds x).1
  simp only [comboUnits, comboSynth]
  push_cast
  rw [Int.toNat_of_nonneg h0, Int.toNat_of_nonneg (by omega)]
  omega

theorem comboRemainder_add (x : ℚ) :
    ⌊x * 1000 / comboRefclock⌋ * 19200 + comboRemainder x = ⌊x * 1000⌋ := by
  have h : x * 1000 - ⌊x * 1000 / comboRefclock⌋ * comboRefclock =
      x * 1000 - ((⌊x * 1000 / comboRefclock⌋ * 19200 : ℤ) : ℚ) := by
    unfold comboRefclock
    push_cast
    ring
  unfold comboRemainder
  rw [h, Int.floor_sub_intCast]
  omega

/-- The setting chosen is the largest one not above the clock cut to whole kHz. -/
theorem comboUnits_le_tune_iff {x : ℚ} (hx : 0 ≤ x) (u : ℕ) :
    u ≤ comboUnits (comboSynth.tune x) ↔ ((u : ℤ) * 75) ≤ ⌊x * 1000⌋ * 64 := by
  have h1 := comboUnits_tune hx
  have h2 := comboRemainder_add x
  have h3 := comboRemainder_bounds x
  omega

theorem comboSynth_le_clock_tune_iff {x : ℚ} (hx : 0 ≤ x) (d : ℕ × ℕ) :
    comboSynth.clock d ≤ comboSynth.clock (comboSynth.tune x) ↔
      comboSynth.clock d * 1000 ≤ ⌊x * 1000⌋ := by
  have hkey := comboUnits_le_tune_iff hx (comboUnits d)
  rw [comboSynth_clock, comboSynth_clock, div_le_div_iff_of_pos_right (by norm_num),
    mul_le_mul_iff_left₀ (by norm_num), Nat.cast_le, hkey]
  rw [show (comboUnits d : ℚ) * 75 / 64000 * 1000 = (comboUnits d : ℚ) * 75 / 64 by ring,
    div_le_iff₀ (by norm_num)]
  exact_mod_cast Iff.rfl

theorem comboSynth_clock_tune_le {x : ℚ} (hx : 0 ≤ x) :
    comboSynth.clock (comboSynth.tune x) ≤ x := by
  have h := (comboSynth_le_clock_tune_iff hx (comboSynth.tune x)).mp le_rfl
  have hfloor := Int.floor_le (x * 1000)
  linarith

theorem comboSynth_clock_mem_range {d : ℕ × ℕ} (h1 : d.1 < 1024) (h2 : d.2 < 16384) :
    comboSynth.clock d ∈ comboSynth.range := by
  have hunits : (comboUnits d : ℚ) < 16384 * 1024 := by
    have : comboUnits d < 16384 * 1024 := by
      unfold comboUnits
      omega
    exact_mod_cast this
  rw [comboSynth_clock]
  exact ⟨by positivity, by norm_num [comboRefclock]; linarith⟩

/-- Cutting a setting to whole kHz leaves its integer part alone. -/
theorem floor_comboSynth_clock (d : ℕ × ℕ) :
    ⌊comboSynth.clock d * 1000⌋ = 19200 * (d.1 : ℤ) + d.2 * 75 / 64 := by
  rw [comboSynth_clock, show (comboUnits d : ℚ) * 75 / 64000 * 1000 =
    ((comboUnits d * 75 : ℤ) : ℚ) / (64 : ℕ) by push_cast; ring, Rat.floor_intCast_div_natCast]
  unfold comboUnits
  push_cast
  omega

/-- The fraction comes back exactly if its remainder is a whole number of kHz. -/
theorem comboSynth_exact_iff {d : ℕ × ℕ} (h : d.2 < 16384) : comboSynth.Exact d ↔ 64 ∣ d.2 := by
  have hc0 : 0 ≤ comboSynth.clock d := by rw [comboSynth_clock]; positivity
  have h1 := comboUnits_tune hc0
  have h2 := comboRemainder_add (comboSynth.clock d)
  have h3 := comboRemainder_bounds (comboSynth.clock d)
  rw [floor_comboSynth_clock] at h2
  have hfst : ((comboSynth.tune (comboSynth.clock d)).1 : ℤ) =
      ⌊comboSynth.clock d * 1000 / comboRefclock⌋ :=
    Int.toNat_of_nonneg (Int.floor_nonneg.mpr (by unfold comboRefclock; positivity))
  unfold Synthesizer.Exact
  unfold comboUnits at h1
  push_cast at h1
  constructor
  · intro heq
    rw [heq] at h1 hfst
    have hrem : comboRemainder (comboSynth.clock d) = d.2 * 75 / 64 := by linarith only [h2, hfst]
    have hback : (d.2 : ℤ) = d.2 * 75 / 64 * 64 / 75 := by
      rw [← hrem]
      linarith only [h1, hfst]
    clear h1 h2 h3 hfst hrem heq
    omega
  · intro hdvd
    obtain ⟨k, hk⟩ := hdvd
    have hkhz : (d.2 : ℤ) * 75 / 64 = 75 * k := by omega
    have hquot : ⌊comboSynth.clock d * 1000 / comboRefclock⌋ = d.1 := by omega
    have hrem : comboRemainder (comboSynth.clock d) = 75 * k := by linarith only [h2, hkhz, hquot]
    refine Prod.ext ?_ ?_
    · exact_mod_cast hfst.trans hquot
    · omega

/-! ### The class -/

theorem inAperture_dpllCfgcr0 (n : Fin 4) : inAperture (dpllCfgcr0 n) = false := by
  revert n
  decide

/-- A combo PHY refines its synthesizer; every step re-reads the live register. -/
def comboTunes (n : Fin 4) : Tunes (combo n) Unit (ℕ × ℕ) where
  synth _ := comboSynth
  frame _ _ := ()
  div hw := comboDiv (hw.mmio (dpllCfgcr0 n))
  admits _ := True
  cached _ _ := True
  fresh _ _ := True
  cached_of_fresh _ := trivial
  range_ordConnected _ := Set.ordConnected_Ico
  read v w := ⟨w.hw,
    ⟨{ w.obj.reg.cfgcr0 with origVal := w.hw.readReg (dpllCfgcr0 n) },
      { w.obj.reg.cfgcr1 with origVal := w.hw.readReg (dpllCfgcr1 n) }⟩,
    rfl, trivial, rfl, rfl, Iff.rfl⟩
  clock v w _ _ := by
    rw [← comboPllClock_eq, ← w.hw.readReg_mmio (inAperture_dpllCfgcr0 n)]
    rfl
  admits_of_clock_pos _ _ _ _ _ _ _ := trivial
  step v w x _ _ hx := by
    obtain ⟨htune, h1, h2⟩ := comboFeedbackDividers_spec hx
    refine ⟨_, ⟨⟨w.obj.reg.cfgcr0.origVal, comboModVal (w.hw.readReg (dpllCfgcr0 n))
      (comboFeedbackDividers x)⟩, ⟨w.obj.reg.cfgcr1.origVal, w.hw.readReg (dpllCfgcr1 n)⟩⟩,
      rfl, rfl, trivial, trivial, rfl, ?_⟩
    show comboDiv ((w.hw.writeReg (dpllCfgcr0 n) _).mmio (dpllCfgcr0 n)) = comboSynth.tune x
    rw [Hw.writeReg_mmio _ _ (inAperture_dpllCfgcr0 n)]
    simp only [Function.update_self]
    exact (comboDiv_comboModVal _ h1 h2).trans htune

end Genlock.Vsyncalter
