import Genlock.Vsyncalter.Tuning

/-! # DKL PHY

The registers of a DKL PHY sit behind an aperture. A `DIV0` that reads as zero
means that the aperture shows another page.
-/

namespace Genlock.Vsyncalter

open CArith

structure DklPhyReg where
  pllDiv0 : Reg
  visaSerializer : Reg
  bias : Reg
  ssc : Reg
  dco : Reg
deriving DecidableEq, Repr

/-! ## Addresses -/

def phyNumBase (phy : Fin 6) : ℕ := phyBase + phy * 0x1000

def dklPllDiv0 (phy : Fin 6) : ℕ := phyNumBase phy + 0x200
def dklSsc (phy : Fin 6) : ℕ := phyNumBase phy + 0x210
def dklBias (phy : Fin 6) : ℕ := phyNumBase phy + 0x214
def dklVisaSerializer (phy : Fin 6) : ℕ := phyNumBase phy + 0x220
def dklDco (phy : Fin 6) : ℕ := phyNumBase phy + 0x224

/-- `HIP_INDEX_VAL(phy, 2)`. -/
def hipIndexVal (phy : Fin 6) : U32 := 2 <<< hipIndexShift phy

/-! ## Dividers and clock -/

def refClkFreq : ℚ := 384 / 10

def dklPllClock (pllDiv0 bias : U32) : ℚ :=
  let fbprediv : ℚ := getBits pllDiv0 11 8
  let fbdivIntgr : ℚ := getBits pllDiv0 7 0
  let fbdivFrac : ℚ := getBits bias 29 8
  refClkFreq * fbprediv * (fbdivIntgr + fbdivFrac / 2 ^ 22)

/-- Integer and fraction of the divider `F`, each kept in its field. -/
def dklDividersOf (F : ℚ) : U8 × U32 :=
  let fbdivIntgr := BitVec.ofInt 8 (min ⌊F⌋ 0xFF)
  let fbdivFrac := castU32 (cround ((F - fbdivIntgr.toNat) * 2 ^ 22))
  (fbdivIntgr, if fbdivFrac > 0x3FFFFF then 0x3FFFFF else fbdivFrac)

/-- `dkl::calculate_feedback_dividers(pll_freq, dkl_pll_div0, …)`. A zero
pre-divider makes the divider infinite. -/
def dklFeedbackDividers (pllFreq : ℚ) (pllDiv0 : U32) : Option (U8 × U32) :=
  let fbprediv := getBits pllDiv0 11 8
  if fbprediv = 0 then none else some (dklDividersOf (pllFreq / (refClkFreq * fbprediv)))

/-- The updates of `mod_val`. -/
def DklPhyReg.withDividers (r : DklPhyReg) (dividers : U8 × U32) : DklPhyReg :=
  { r with
    pllDiv0 := { r.pllDiv0 with
      modVal := r.pllDiv0.modVal &&& ~~~(0xFF : U32) ||| dividers.1.setWidth 32 }
    bias := { r.bias with modVal := r.bias.modVal &&& ~~~(0x3FFFFF00 : U32) ||| dividers.2 <<< 8 }
    visaSerializer := { r.visaSerializer with
      modVal := r.visaSerializer.modVal &&& ~~~(0x7 : U32) ||| 0x200 }
    ssc := { r.ssc with
      modVal := (r.ssc.modVal &&& ~~~(0xE0000000 : U32) ||| 2 <<< 29) &&& ~~~(0x2000 : U32) ||| 2 <<< 12 }
    dco := { r.dco with modVal := r.dco.modVal &&& ~~~(0x4 : U32) ||| 2 <<< 1 } }

/-! ## The class -/

namespace Dkl

variable (phy : Fin 6)

/-- Move the aperture to the page of the PLL registers. -/
def selectPage : RegProg DklPhyReg Unit := writeReg (hipIndexReg phy) (hipIndexVal phy)

/-- `DIV0`, with the page selected if it reads as zero. -/
def readDiv0 : RegProg DklPhyReg U32 := do
  let div0 ← readReg (dklPllDiv0 phy)
  if div0 = 0 then
    selectPage phy
    readReg (dklPllDiv0 phy)
  else return div0

def readRegisters : RegProg DklPhyReg Unit := do
  let div0 ← readReg (dklPllDiv0 phy)
  modReg fun r => { r with pllDiv0 := ⟨div0, div0⟩ }
  if div0 = 0 then
    selectPage phy
    let div0 ← readReg (dklPllDiv0 phy)
    modReg fun r => { r with pllDiv0 := ⟨div0, div0⟩ }
  let visa ← readReg (dklVisaSerializer phy)
  modReg fun r => { r with visaSerializer := ⟨visa, visa⟩ }
  let bias ← readReg (dklBias phy)
  modReg fun r => { r with bias := ⟨bias, bias⟩ }
  let ssc ← readReg (dklSsc phy)
  modReg fun r => { r with ssc := ⟨ssc, ssc⟩ }
  let dco ← readReg (dklDco phy)
  modReg fun r => { r with dco := ⟨dco, dco⟩ }

def calculatePllClock : RegProg DklPhyReg ℚ := do
  let div0 ← readDiv0 phy
  let bias ← readReg (dklBias phy)
  return dklPllClock div0 bias

def calculateFeedbackDividers (pllFreq : ℚ) : RegProg DklPhyReg ℤ := do
  let div0 ← readDiv0 phy
  let _bias ← readReg (dklBias phy)
  match dklFeedbackDividers pllFreq div0 with
  | none => .fail
  | some dividers => do
      modReg fun r => r.withDividers dividers
      return 0

def programMmio (mod : Bool) : RegProg DklPhyReg ℤ := do
  let div0 ← readReg (dklPllDiv0 phy)
  if div0 = 0 then selectPage phy
  let o ← getObj
  writeReg (dklPllDiv0 phy) (o.reg.pllDiv0.value mod)
  let o ← getObj
  writeReg (dklVisaSerializer phy) (o.reg.visaSerializer.value mod)
  let o ← getObj
  writeReg (dklBias phy) (o.reg.bias.value mod)
  let o ← getObj
  writeReg (dklSsc phy) (o.reg.ssc.value mod)
  let o ← getObj
  writeReg (dklDco phy) (o.reg.dco.value mod)
  return 0

end Dkl

def dkl (phy : Fin 6) : PhyClass DklPhyReg RegOp RegOp.Ans where
  readRegisters := Dkl.readRegisters phy
  calculatePllClock := Dkl.calculatePllClock phy
  calculateFeedbackDividers := Dkl.calculateFeedbackDividers phy
  programMmio := Dkl.programMmio phy

/-! ## The synthesizer of a DKL PHY -/

/-- Integer and fraction of the divider, for a pre-divider. -/
def dklSynth (fbprediv : ℕ) : Synthesizer ℚ (ℕ × ℕ) where
  clock d := refClkFreq * fbprediv * (d.1 + d.2 / 2 ^ 22)
  tune x :=
    let F := x / (refClkFreq * fbprediv)
    (⌊F⌋.toNat, (min (cround (Int.fract F * 2 ^ 22)) 0x3FFFFF).toNat)
  range := { x | 0 < fbprediv ∧ 0 ≤ x ∧ x < refClkFreq * fbprediv * 256 }

theorem dklDividersOf_spec {F : ℚ} (h0 : 0 ≤ F) (h1 : F < 256) :
    (dklDividersOf F).1.toNat = ⌊F⌋.toNat ∧
      (dklDividersOf F).2.toNat = (min (cround (Int.fract F * 2 ^ 22)) 0x3FFFFF).toNat ∧
      (dklDividersOf F).2.toNat < 2 ^ 22 := by
  have hfloor0 : 0 ≤ ⌊F⌋ := Int.floor_nonneg.mpr h0
  have hfloor1 : ⌊F⌋ < 256 := Int.floor_lt.mpr (by exact_mod_cast h1)
  have hI : (dklDividersOf F).1.toNat = ⌊F⌋.toNat := by
    unfold dklDividersOf
    rw [BitVec.toNat_ofInt, min_eq_left (by omega)]
    norm_num
    omega
  have hfract : F - (BitVec.ofInt 8 (min ⌊F⌋ 0xFF)).toNat = Int.fract F := by
    have hcast : (((BitVec.ofInt 8 (min ⌊F⌋ 0xFF)).toNat : ℕ) : ℚ) = (⌊F⌋ : ℤ) := by
      have : ((BitVec.ofInt 8 (min ⌊F⌋ 0xFF)).toNat : ℤ) = ⌊F⌋ := by
        rw [BitVec.toNat_ofInt, min_eq_left (by omega)]
        norm_num
        omega
      exact_mod_cast this
    rw [hcast, Int.fract]
  have hround0 : 0 ≤ cround (Int.fract F * 2 ^ 22) :=
    cround_nonneg (mul_nonneg (Int.fract_nonneg F) (by norm_num))
  have hround1 : cround (Int.fract F * 2 ^ 22) ≤ 2 ^ 22 := by
    have hlt : Int.fract F * 2 ^ 22 ≤ ((2 ^ 22 : ℤ) : ℚ) := by
      have := (Int.fract_lt_one F).le
      push_cast
      linarith
    exact (cround_mono hlt).trans_eq (cround_intCast _)
  have hcast : ((castU32 (cround (Int.fract F * 2 ^ 22) : ℤ)).toNat : ℤ) =
      cround (Int.fract F * 2 ^ 22) := by
    rw [toNat_castU32 (by exact_mod_cast hround0) (by
      have : cround (Int.fract F * 2 ^ 22) < 2 ^ 32 := by omega
      exact_mod_cast this), Int.floor_intCast]
  have hF : (dklDividersOf F).2.toNat = (min (cround (Int.fract F * 2 ^ 22)) 0x3FFFFF).toNat := by
    unfold dklDividersOf
    simp only [hfract]
    split
    · rename_i hgt
      rw [gt_iff_lt, BitVec.lt_def] at hgt
      simp at hgt ⊢
      omega
    · rename_i hgt
      rw [gt_iff_lt, BitVec.lt_def] at hgt
      simp at hgt ⊢
      omega
  exact ⟨hI, hF, by omega⟩

/-! ### Order and exactness -/

/-- The divider chosen for `F`, in units of the fraction field. -/
def dklFixed (F : ℚ) : ℤ := ⌊F⌋ * 2 ^ 22 + min (cround (Int.fract F * 2 ^ 22)) 0x3FFFFF

theorem dklFraction_nonneg (F : ℚ) : 0 ≤ min (cround (Int.fract F * 2 ^ 22)) 0x3FFFFF :=
  le_min (cround_nonneg (mul_nonneg (Int.fract_nonneg F) (by norm_num))) (by norm_num)

theorem dklFixed_mono : Monotone dklFixed := by
  intro F G hFG
  unfold dklFixed
  rcases eq_or_lt_of_le (Int.floor_mono hFG) with heq | hlt
  · have hfract : Int.fract F * 2 ^ 22 ≤ Int.fract G * 2 ^ 22 := by
      unfold Int.fract
      rw [heq]
      linarith
    have := cround_mono hfract
    rw [heq]
    omega
  · have h1 := min_le_right (cround (Int.fract F * 2 ^ 22)) 0x3FFFFF
    have h2 := dklFraction_nonneg G
    omega

theorem dklSynth_scale_pos {p : ℕ} (hp : 0 < p) : 0 < refClkFreq * p :=
  mul_pos (by norm_num [refClkFreq]) (by exact_mod_cast hp)

theorem dklSynth_clock_tune {p : ℕ} {x : ℚ} (hx : x ∈ (dklSynth p).range) :
    (dklSynth p).clock ((dklSynth p).tune x) =
      refClkFreq * p * (dklFixed (x / (refClkFreq * p)) / 2 ^ 22) := by
  have hF : 0 ≤ x / (refClkFreq * p) := div_nonneg hx.2.1 (dklSynth_scale_pos hx.1).le
  generalize hF' : x / (refClkFreq * p) = F at hF
  have h1 : ((⌊F⌋.toNat : ℕ) : ℚ) = (⌊F⌋ : ℤ) := by
    exact_mod_cast Int.toNat_of_nonneg (Int.floor_nonneg.mpr hF)
  have h2 : (((min (cround (Int.fract F * 2 ^ 22)) 0x3FFFFF).toNat : ℕ) : ℚ) =
      (min (cround (Int.fract F * 2 ^ 22)) 0x3FFFFF : ℤ) := by
    exact_mod_cast Int.toNat_of_nonneg (dklFraction_nonneg F)
  simp only [dklSynth, hF', h1, h2, dklFixed]
  push_cast
  ring

theorem dklSynth_mono (p : ℕ) : (dklSynth p).MonotoneTuning := by
  intro x hx y hy hle
  have hscale := dklSynth_scale_pos hx.1
  have hfixed := dklFixed_mono (div_le_div_of_nonneg_right hle hscale.le)
  simp only [dklSynth_clock_tune hx, dklSynth_clock_tune hy]
  refine mul_le_mul_of_nonneg_left (div_le_div_of_nonneg_right ?_ (by norm_num)) hscale.le
  exact_mod_cast hfixed

theorem dklSynth_exact {p : ℕ} (hp : 0 < p) {d : ℕ × ℕ} (h : d.2 < 2 ^ 22) :
    (dklSynth p).Exact d := by
  have hlt : ((d.2 : ℚ)) < 2 ^ 22 := by exact_mod_cast h
  have hF : (dklSynth p).clock d / (refClkFreq * p) = d.1 + d.2 / 2 ^ 22 :=
    mul_div_cancel_left₀ _ (dklSynth_scale_pos hp).ne'
  have hfloor : ⌊((d.1 : ℚ) + d.2 / 2 ^ 22)⌋ = (d.1 : ℤ) := by
    rw [Int.floor_natCast_add, Int.floor_eq_zero_iff.mpr
      ⟨by positivity, (div_lt_one (by norm_num)).mpr hlt⟩, add_zero]
  have hfract : Int.fract ((d.1 : ℚ) + d.2 / 2 ^ 22) * 2 ^ 22 = (d.2 : ℚ) := by
    rw [Int.fract, hfloor]
    push_cast
    ring
  unfold Synthesizer.Exact
  simp only [dklSynth] at hF ⊢
  rw [hF, hfloor, hfract, cround_natCast]
  exact Prod.ext (by simp) (by simp; omega)

theorem dklSynth_clock_mem_range {p : ℕ} {d : ℕ × ℕ} (h1 : d.1 < 256) (h2 : d.2 < 2 ^ 22)
    (hclock : 0 < (dklSynth p).clock d) : (dklSynth p).clock d ∈ (dklSynth p).range := by
  have hp : 0 < p := by
    rcases Nat.eq_zero_or_pos p with rfl | hp
    · simp [dklSynth] at hclock
    · exact hp
  refine ⟨hp, hclock.le, mul_lt_mul_of_pos_left ?_ (dklSynth_scale_pos hp)⟩
  have hI : (d.1 : ℚ) ≤ 255 := by exact_mod_cast Nat.le_of_lt_succ h1
  have hF : (d.2 : ℚ) / 2 ^ 22 < 1 := (div_lt_one (by norm_num)).mpr (by exact_mod_cast h2)
  linarith

/-! ### The aperture -/

/-- The page the registers are on once `DIV0` was read with `readDiv0`. -/
def dklPage (phy : Fin 6) (hw : Hw) : ℕ :=
  if hw.dkl phy (hw.page phy) 0x200 = 0 then 2 else hw.page phy

def dklReg (phy : Fin 6) (hw : Hw) (off : ℕ) : U32 := hw.dkl phy (dklPage phy hw) off

def dklDiv (phy : Fin 6) (hw : Hw) : ℕ × ℕ :=
  (getBits (dklReg phy hw 0x200) 7 0, getBits (dklReg phy hw 0x214) 29 8)

theorem aperture_phyNumBase (phy : Fin 6) {off : ℕ} (h : off < 0x1000) :
    inAperture (phyNumBase phy + off) = true ∧
      (phyNumBase phy + off - phyBase) / 0x1000 = phy ∧
      (phyNumBase phy + off - phyBase) % 0x1000 = off := by
  have hphy := phy.isLt
  unfold inAperture phyNumBase phyBase phyEnd
  refine ⟨decide_eq_true ⟨by omega, by omega⟩, by omega, by omega⟩

theorem readReg_dkl (phy : Fin 6) (hw : Hw) {off : ℕ} (h : off < 0x1000) :
    hw.readReg (phyNumBase phy + off) = hw.dkl phy (hw.page phy) off := by
  obtain ⟨hin, hdiv, hmod⟩ := aperture_phyNumBase phy h
  simp only [Hw.readReg, hin, if_true, hdiv, hmod]

def Hw.setDkl (hw : Hw) (phy page off : ℕ) (val : U32) : Hw :=
  { hw with dkl := Function.update hw.dkl phy (Function.update (hw.dkl phy) page
      (Function.update (hw.dkl phy page) off val)) }

theorem writeReg_dkl (phy : Fin 6) (hw : Hw) {off : ℕ} (val : U32) (h : off < 0x1000) :
    hw.writeReg (phyNumBase phy + off) val = hw.setDkl phy (hw.page phy) off val := by
  obtain ⟨hin, hdiv, hmod⟩ := aperture_phyNumBase phy h
  simp only [Hw.writeReg, hin, if_true, hdiv, hmod, Hw.setDkl]

@[simp] theorem setDkl_page (hw : Hw) (phy page off : ℕ) (val : U32) (phy' : ℕ) :
    (hw.setDkl phy page off val).page phy' = hw.page phy' := rfl

theorem setDkl_dkl (hw : Hw) (phy page off off' : ℕ) (val : U32) :
    (hw.setDkl phy page off val).dkl phy page off' = if off' = off then val else hw.dkl phy page off' := by
  simp [Hw.setDkl, Function.update_apply]

/-- The index register selects page 2 of its PHY. -/
theorem page_selectPage (phy : Fin 6) (hw : Hw) :
    (hw.writeReg (hipIndexReg phy) (hipIndexVal phy)).page phy = 2 := by
  have haddr : inAperture (hipIndexReg phy) = false := by
    revert phy
    decide
  have hval : getBits (hipIndexVal phy) (hipIndexShift phy + 7) (hipIndexShift phy) = 2 := by
    revert phy
    decide
  rw [Hw.writeReg_mmio _ _ haddr]
  simpa [Hw.page] using hval

theorem dkl_selectPage (phy : Fin 6) (hw : Hw) :
    (hw.writeReg (hipIndexReg phy) (hipIndexVal phy)).dkl = hw.dkl := by
  have haddr : inAperture (hipIndexReg phy) = false := by
    revert phy
    decide
  rw [Hw.writeReg_mmio _ _ haddr]

def DklPhyReg.write (r : DklPhyReg) (phy : Fin 6) (mod : Bool) (hw : Hw) : Hw :=
  ((((hw.writeReg (dklPllDiv0 phy) (r.pllDiv0.value mod)).writeReg
    (dklVisaSerializer phy) (r.visaSerializer.value mod)).writeReg
    (dklBias phy) (r.bias.value mod)).writeReg
    (dklSsc phy) (r.ssc.value mod)).writeReg
    (dklDco phy) (r.dco.value mod)

theorem page_write (phy : Fin 6) (r : DklPhyReg) (mod : Bool) (hw : Hw) :
    (r.write phy mod hw).page phy = hw.page phy := by
  simp only [DklPhyReg.write, dklPllDiv0, dklVisaSerializer, dklBias, dklSsc, dklDco]
  simp (disch := norm_num) only [writeReg_dkl, setDkl_page]

theorem dkl_write_div0 (phy : Fin 6) (r : DklPhyReg) (mod : Bool) (hw : Hw) :
    (r.write phy mod hw).dkl phy (hw.page phy) 0x200 = r.pllDiv0.value mod := by
  simp only [DklPhyReg.write, dklPllDiv0, dklVisaSerializer, dklBias, dklSsc, dklDco]
  simp (disch := norm_num) only [writeReg_dkl, setDkl_page, setDkl_dkl]
  simp

theorem dkl_write_bias (phy : Fin 6) (r : DklPhyReg) (mod : Bool) (hw : Hw) :
    (r.write phy mod hw).dkl phy (hw.page phy) 0x214 = r.bias.value mod := by
  simp only [DklPhyReg.write, dklPllDiv0, dklVisaSerializer, dklBias, dklSsc, dklDco]
  simp (disch := norm_num) only [writeReg_dkl, setDkl_page, setDkl_dkl]
  simp

/-! ### The fields -/

theorem div0_intgr (r : DklPhyReg) (d : U8 × U32) :
    getBits (r.withDividers d).pllDiv0.modVal 7 0 = d.1.toNat := by
  have hmask : ∀ i < 8, (0xFF : U32).getLsbD i = true := by decide
  have hwidth : (d.1.setWidth 32).toNat = d.1.toNat := by
    rw [BitVec.toNat_setWidth]
    exact Nat.mod_eq_of_lt (by omega)
  calc getBits (r.pllDiv0.modVal &&& ~~~(0xFF : U32) ||| d.1.setWidth 32) 7 0
      = getBits (d.1.setWidth 32 <<< 0) 7 0 := getBits_congr (fun i _ hi => by
        rw [getLsbD_clear_set (hmask i (by omega)), BitVec.shiftLeft_zero]) (by omega)
    _ = (d.1.setWidth 32).toNat :=
        getBits_shiftLeft (by rw [hwidth]; exact d.1.isLt) (by omega) (by omega)
    _ = d.1.toNat := hwidth

theorem div0_prediv (r : DklPhyReg) (d : U8 × U32) :
    getBits (r.withDividers d).pllDiv0.modVal 11 8 = getBits r.pllDiv0.modVal 11 8 := by
  have hmask : ∀ i < 12, 8 ≤ i → (0xFF : U32).getLsbD i = false := by decide
  refine getBits_congr (fun i hl hi => ?_) (by omega)
  exact getLsbD_clear_keep (hmask i (by omega) hl)
    (by rw [BitVec.getLsbD_setWidth, BitVec.getLsbD_of_ge d.1 i (by omega), Bool.and_false])

theorem bias_frac (r : DklPhyReg) {d : U8 × U32} (hd : d.2.toNat < 2 ^ 22) :
    getBits (r.withDividers d).bias.modVal 29 8 = d.2.toNat := by
  have hmask : ∀ i < 30, 8 ≤ i → (0x3FFFFF00 : U32).getLsbD i = true := by decide
  calc getBits (r.bias.modVal &&& ~~~(0x3FFFFF00 : U32) ||| d.2 <<< 8) 29 8
      = getBits (d.2 <<< 8) 29 8 := getBits_congr (fun i hl hi => by
        rw [getLsbD_clear_set (hmask i (by omega) hl)]) (by omega)
    _ = d.2.toNat := getBits_shiftLeft hd (by omega) (by omega)

theorem getBits_zero (h l : ℕ) : getBits (0 : U32) h l = 0 := by
  simp [getBits_eq]

/-- The page is selected and the pre-divider of the object's copy is live. -/
structure DklCached (phy : Fin 6) (hw : Hw) (reg : DklPhyReg) : Prop where
  page : hw.page phy = dklPage phy hw
  prediv : getBits reg.pllDiv0.modVal 11 8 = getBits (dklReg phy hw 0x200) 11 8

theorem dklReg_of_page {phy : Fin 6} {hw : Hw} (h : hw.page phy = dklPage phy hw) {off : ℕ}
    (hoff : off < 0x1000) : hw.readReg (phyNumBase phy + off) = dklReg phy hw off := by
  rw [readReg_dkl phy hw hoff, h]
  rfl

theorem dklPage_of_ne {phy : Fin 6} {hw : Hw} (h : hw.dkl phy (hw.page phy) 0x200 ≠ 0) :
    dklPage phy hw = hw.page phy := if_neg h

/-- After the five writes of values with a pre-divider the page is the same. -/
theorem dklReg_write (phy : Fin 6) (hw : Hw) {r : DklPhyReg}
    (hne : r.pllDiv0.modVal ≠ 0) :
    (r.write phy true hw).page phy = dklPage phy (r.write phy true hw) ∧
      dklReg phy (r.write phy true hw) 0x200 = r.pllDiv0.modVal ∧
      dklReg phy (r.write phy true hw) 0x214 = r.bias.modVal := by
  have h0 := dkl_write_div0 phy r true hw
  have h1 := dkl_write_bias phy r true hw
  have hp := page_write phy r true hw
  rw [← hp] at h0 h1
  have hpage' : dklPage phy (r.write phy true hw) = (r.write phy true hw).page phy :=
    dklPage_of_ne (by rw [h0]; exact hne)
  refine ⟨hpage'.symm, ?_, ?_⟩
  · unfold dklReg
    rw [hpage', h0]
    rfl
  · unfold dklReg
    rw [hpage', h1]
    rfl

/-! ### The class -/

section Runs

variable {v : World DklPhyReg Hw → Option (World DklPhyReg Hw)} {w : World DklPhyReg Hw}
  {phy : Fin 6}

theorem readDiv0_run (hpage : w.hw.page phy = dklPage phy w.hw)
    (hne : dklReg phy w.hw 0x200 ≠ 0) :
    (Dkl.readDiv0 phy).run (regExec v) w = some (dklReg phy w.hw 0x200, w) := by
  unfold Dkl.readDiv0
  have hread : w.hw.readReg (dklPllDiv0 phy) = dklReg phy w.hw 0x200 :=
    dklReg_of_page hpage (by norm_num)
  rw [Prog.run_bind_of (run_readReg _), hread, if_neg hne]
  rfl

theorem dkl_programMmio_run (mod : Bool) (hpage : w.hw.page phy = dklPage phy w.hw)
    (hne : dklReg phy w.hw 0x200 ≠ 0) :
    (Dkl.programMmio phy mod).run (regExec v) w =
      some (0, w.put (w.obj.reg.write phy mod w.hw) w.obj.reg) := by
  have hread : w.hw.readReg (dklPllDiv0 phy) = dklReg phy w.hw 0x200 :=
    dklReg_of_page hpage (by norm_num)
  simp only [Dkl.programMmio, Prog.run_bind, run_readReg, hread, if_neg hne, Option.bind_some,
    run_getObj, run_writeReg, Prog.pure_def, Prog.run_pure, DklPhyReg.write, World.put]

theorem readDiv0_run_of_zero (hpage : w.hw.page phy = dklPage phy w.hw)
    (h0 : dklReg phy w.hw 0x200 = 0) :
    (Dkl.readDiv0 phy).run (regExec v) w =
      some (0, { w with hw := w.hw.writeReg (hipIndexReg phy) (hipIndexVal phy) }) := by
  have hdkl0 : w.hw.dkl phy 2 0x200 = 0 := by
    have hp := hpage
    unfold dklReg at h0
    unfold dklPage at hp h0
    by_cases h : w.hw.dkl phy (w.hw.page phy) 0x200 = 0
    · rwa [if_pos h] at h0
    · rw [if_neg h] at h0
      exact absurd h0 h
  have hread : w.hw.readReg (dklPllDiv0 phy) = 0 := (dklReg_of_page hpage (by norm_num)).trans h0
  have hread' : (w.hw.writeReg (hipIndexReg phy) (hipIndexVal phy)).readReg (dklPllDiv0 phy) = 0 := by
    rw [dklPllDiv0, readReg_dkl phy _ (by norm_num), page_selectPage, dkl_selectPage, hdkl0]
  simp only [Dkl.readDiv0, Dkl.selectPage, Prog.run_bind, run_readReg, hread, if_true, run_writeReg,
    hread', Option.bind_some]

theorem dkl_calculatePllClock_of_zero (hpage : w.hw.page phy = dklPage phy w.hw)
    (h0 : dklReg phy w.hw 0x200 = 0) :
    (Dkl.calculatePllClock phy).run (regExec v) w =
      some (0, { w with hw := w.hw.writeReg (hipIndexReg phy) (hipIndexVal phy) }) := by
  unfold Dkl.calculatePllClock
  rw [Prog.run_bind_of (readDiv0_run_of_zero hpage h0), Prog.run_bind_of (run_readReg _)]
  simp only [Prog.pure_def, Prog.run_pure, dklPllClock, getBits_zero]
  simp

theorem dkl_calculateFeedbackDividers_run (hpage : w.hw.page phy = dklPage phy w.hw)
    (hne : dklReg phy w.hw 0x200 ≠ 0) (hp : getBits (dklReg phy w.hw 0x200) 11 8 ≠ 0) (x : ℚ) :
    (Dkl.calculateFeedbackDividers phy x).run (regExec v) w =
      some (0, w.put w.hw (w.obj.reg.withDividers
        (dklDividersOf (x / (refClkFreq * getBits (dklReg phy w.hw 0x200) 11 8))))) := by
  unfold Dkl.calculateFeedbackDividers
  rw [Prog.run_bind_of (readDiv0_run hpage hne), Prog.run_bind_of (run_readReg _)]
  simp only [dklFeedbackDividers, if_neg hp]
  rfl

/-- The world in which `read_registers` reads: the page is selected. -/
def dklSelected (phy : Fin 6) (hw : Hw) : Hw :=
  if hw.dkl phy (hw.page phy) 0x200 = 0 then hw.writeReg (hipIndexReg phy) (hipIndexVal phy) else hw

theorem dklSelected_dkl (phy : Fin 6) (hw : Hw) : (dklSelected phy hw).dkl = hw.dkl := by
  unfold dklSelected
  split
  · exact dkl_selectPage phy hw
  · rfl

theorem dklSelected_page (phy : Fin 6) (hw : Hw) :
    (dklSelected phy hw).page phy = dklPage phy hw := by
  unfold dklSelected dklPage
  split
  · exact page_selectPage phy hw
  · rfl

theorem dklPage_dklSelected (phy : Fin 6) (hw : Hw) :
    dklPage phy (dklSelected phy hw) = dklPage phy hw := by
  rw [dklPage, dklSelected_page, dklSelected_dkl]
  by_cases h : hw.dkl phy (hw.page phy) 0x200 = 0
  · rw [show dklPage phy hw = 2 from if_pos h, ite_self]
  · rw [dklPage_of_ne h, if_neg h]

theorem dklReg_dklSelected (phy : Fin 6) (hw : Hw) (off : ℕ) :
    dklReg phy (dklSelected phy hw) off = dklReg phy hw off := by
  unfold dklReg
  rw [dklPage_dklSelected, dklSelected_dkl]

/-- Behind the selection a register is read from the page that decodes it. -/
theorem readReg_dklSelected (phy : Fin 6) (hw : Hw) (off : ℕ) (hoff : off < 0x1000) :
    (dklSelected phy hw).readReg (phyNumBase phy + off) = dklReg phy hw off := by
  rw [readReg_dkl phy _ hoff, dklSelected_page, dklSelected_dkl]
  rfl

def dklLoaded (phy : Fin 6) (hw : Hw) : DklPhyReg :=
  ⟨⟨dklReg phy hw 0x200, dklReg phy hw 0x200⟩, ⟨dklReg phy hw 0x220, dklReg phy hw 0x220⟩,
    ⟨dklReg phy hw 0x214, dklReg phy hw 0x214⟩, ⟨dklReg phy hw 0x210, dklReg phy hw 0x210⟩,
    ⟨dklReg phy hw 0x224, dklReg phy hw 0x224⟩⟩

theorem dkl_readRegisters_run :
    (Dkl.readRegisters phy).run (regExec v) w =
      some ((), w.put (dklSelected phy w.hw) (dklLoaded phy w.hw)) := by
  have hdiv0 : w.hw.readReg (dklPllDiv0 phy) = w.hw.dkl phy (w.hw.page phy) 0x200 :=
    readReg_dkl phy w.hw (by norm_num)
  have h200 : (dklSelected phy w.hw).readReg (dklPllDiv0 phy) = dklReg phy w.hw 0x200 :=
    readReg_dklSelected phy w.hw 0x200 (by norm_num)
  have h220 : (dklSelected phy w.hw).readReg (dklVisaSerializer phy) = dklReg phy w.hw 0x220 :=
    readReg_dklSelected phy w.hw 0x220 (by norm_num)
  have h214 : (dklSelected phy w.hw).readReg (dklBias phy) = dklReg phy w.hw 0x214 :=
    readReg_dklSelected phy w.hw 0x214 (by norm_num)
  have h210 : (dklSelected phy w.hw).readReg (dklSsc phy) = dklReg phy w.hw 0x210 :=
    readReg_dklSelected phy w.hw 0x210 (by norm_num)
  have h224 : (dklSelected phy w.hw).readReg (dklDco phy) = dklReg phy w.hw 0x224 :=
    readReg_dklSelected phy w.hw 0x224 (by norm_num)
  unfold Dkl.readRegisters
  rw [Prog.run_bind_of (run_readReg _), Prog.run_bind_of (run_modReg _), hdiv0]
  by_cases h : w.hw.dkl phy (w.hw.page phy) 0x200 = 0
  · rw [dklSelected, if_pos h] at h200 h220 h214 h210 h224 ⊢
    simp only [if_pos h, Dkl.selectPage, Prog.run_bind, run_writeReg, run_readReg, run_modReg,
      Option.bind_some, h200, h220, h214, h210, h224, dklLoaded, World.put]
  · rw [dklSelected, if_neg h] at h200 h220 h214 h210 h224 ⊢
    rw [if_neg h, ← hdiv0, h200]
    simp only [Prog.run_bind, run_readReg, run_modReg, Option.bind_some, h220, h214, h210, h224,
      dklLoaded, World.put]

/-- The clock is decoded from the page that the decoding selects. -/
theorem dkl_calculatePllClock_run :
    (Dkl.calculatePllClock phy).run (regExec v) w =
      some (dklPllClock (dklReg phy w.hw 0x200) (dklReg phy w.hw 0x214),
        w.put (dklSelected phy w.hw) w.obj.reg) := by
  have hdiv0 : w.hw.readReg (dklPllDiv0 phy) = w.hw.dkl phy (w.hw.page phy) 0x200 :=
    readReg_dkl phy w.hw (by norm_num)
  have h200 : (dklSelected phy w.hw).readReg (dklPllDiv0 phy) = dklReg phy w.hw 0x200 :=
    readReg_dklSelected phy w.hw 0x200 (by norm_num)
  have h214 : (dklSelected phy w.hw).readReg (dklBias phy) = dklReg phy w.hw 0x214 :=
    readReg_dklSelected phy w.hw 0x214 (by norm_num)
  unfold Dkl.calculatePllClock Dkl.readDiv0
  rw [Prog.run_bind, Prog.run_bind_of (run_readReg _), hdiv0]
  by_cases h : w.hw.dkl phy (w.hw.page phy) 0x200 = 0
  · rw [dklSelected, if_pos h] at h200 h214 ⊢
    simp only [if_pos h, Dkl.selectPage, Prog.run_bind, run_writeReg, run_readReg, Option.bind_some,
      h200, h214, Prog.pure_def, Prog.run_pure, World.put]
  · rw [dklSelected, if_neg h] at h200 h214 ⊢
    rw [if_neg h, ← hdiv0, h200]
    simp only [Prog.run_bind, run_readReg, Option.bind_some, h214, Prog.pure_def, Prog.run_pure,
      World.put]

end Runs

/-- A DKL PHY refines the synthesizer of its pre-divider. -/
def dklTunes (phy : Fin 6) : Tunes (dkl phy) ℕ (ℕ × ℕ) where
  synth := dklSynth
  frame hw _ := getBits (dklReg phy hw 0x200) 11 8
  div := dklDiv phy
  admits hw := dklReg phy hw 0x200 ≠ 0
  cached := DklCached phy
  fresh := DklCached phy
  cached_of_fresh := id
  range_ordConnected p := ⟨fun x hx y hy z hz =>
    ⟨hx.1, hx.2.1.trans hz.1, hz.2.trans_lt hy.2.2⟩⟩
  read v w := by
    refine ⟨_, _, dkl_readRegisters_run, ⟨?_, ?_⟩, ?_, ?_, ?_⟩
    · rw [dklSelected_page, dklPage_dklSelected]
    · rw [dklReg_dklSelected]
      rfl
    · rw [dklReg_dklSelected]
    · simp only [dklDiv, dklReg_dklSelected]
    · rw [dklReg_dklSelected]
  clock v w hfresh hne := by
    show (Dkl.calculatePllClock phy).run (regExec v) w = _
    unfold Dkl.calculatePllClock
    rw [Prog.run_bind_of (readDiv0_run hfresh.page hne), Prog.run_bind_of (run_readReg _),
      show w.hw.readReg (dklBias phy) = dklReg phy w.hw 0x214 from
        dklReg_of_page hfresh.page (by norm_num)]
    rfl
  admits_of_clock_pos v w w' c hfresh hrun hc := by
    intro h0
    rw [show (dkl phy).calculatePllClock = Dkl.calculatePllClock phy from rfl,
      dkl_calculatePllClock_of_zero hfresh.page h0] at hrun
    obtain ⟨rfl, -⟩ := Prod.mk.inj (Option.some.inj hrun)
    exact lt_irrefl 0 hc
  step v w x hne hcached hx := by
    obtain ⟨hp, hx0, hx1⟩ := hx
    have hprediv : (0 : ℚ) < getBits (dklReg phy w.hw 0x200) 11 8 := by exact_mod_cast hp
    have hscale : 0 < refClkFreq * getBits (dklReg phy w.hw 0x200) 11 8 :=
      mul_pos (by norm_num [refClkFreq]) hprediv
    obtain ⟨hI, hF, hFlt⟩ := dklDividersOf_spec (div_nonneg hx0 hscale.le)
      ((div_lt_iff₀ hscale).mpr (by linarith))
    have hcalc := dkl_calculateFeedbackDividers_run (v := v) hcached.page hne hp.ne' x
    have hmod : (w.obj.reg.withDividers (dklDividersOf
        (x / (refClkFreq * getBits (dklReg phy w.hw 0x200) 11 8)))).pllDiv0.modVal ≠ 0 := by
      intro h0
      have hbits := (div0_prediv w.obj.reg (dklDividersOf
        (x / (refClkFreq * getBits (dklReg phy w.hw 0x200) 11 8)))).symm.trans
          (congrArg (getBits · 11 8) h0)
      rw [hcached.prediv, getBits_zero] at hbits
      exact hp.ne' hbits
    obtain ⟨hpage', h200, h214⟩ := dklReg_write phy w.hw hmod
    refine ⟨(w.obj.reg.withDividers (dklDividersOf
        (x / (refClkFreq * getBits (dklReg phy w.hw 0x200) 11 8)))).write phy true w.hw, _, hcalc,
      dkl_programMmio_run true hcached.page hne, ?_, ⟨hpage', ?_⟩, ?_, ?_⟩
    · rw [h200]
      exact hmod
    · rw [h200]
    · rw [h200, div0_prediv, hcached.prediv]
    · simp only [dklDiv, h200, h214, div0_intgr, bias_frac _ hFlt, dklSynth, hI, hF]

end Genlock.Vsyncalter
