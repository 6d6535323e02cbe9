import Genlock.Lib.BitField
import Genlock.Vsyncalter.Dividers

/-! # Bits that the dividers change

The prepared value of a register is made by clearing a mask and putting a value
in. What differs from the register outside the mask, and whether each value stays
within the field it is meant for.
-/

namespace Genlock.Vsyncalter

open CArith BitField

/-- `GENMASK(h, l)` of 64 bits, cut to the width of a register. -/
def genmask (h l : ℕ) : U32 :=
  ((~~~(0 : BitVec 64) - (1 : BitVec 64) <<< l + 1) &&& (~~~(0 : BitVec 64) >>> (63 - h))).setWidth 32

theorem genmask_eq {h l : ℕ} (hh : h < 64) (hl : l < 64) : genmask h l = fieldMask 32 h l := by
  have hlow : ~~~(0 : BitVec 64) - (1 : BitVec 64) <<< l + 1 = BitVec.allOnes 64 <<< l := by
    rw [BitVec.shiftLeft_eq_mul_twoPow, BitVec.shiftLeft_eq_mul_twoPow,
      show BitVec.allOnes 64 = -1 by decide, show ~~~(0 : BitVec 64) = -1 by decide]
    ring
  apply BitVec.eq_of_getLsbD_eq
  intro i hi
  have hone : (BitVec.allOnes 64).getLsbD (i - l) = true := by
    rw [BitVec.getLsbD_allOnes]
    exact decide_eq_true (by omega)
  have hcut : (~~~(0 : BitVec 64) >>> (63 - h)).getLsbD i = decide (i ≤ h) := by
    rw [BitVec.getLsbD_ushiftRight, BitVec.getLsbD_not, Bool.eq_iff_iff]
    simp
    omega
  have hi64 : i < 64 := by omega
  unfold genmask
  rw [getLsbD_fieldMask, BitVec.getLsbD_setWidth, hlow, BitVec.getLsbD_and, hcut,
    BitVec.getLsbD_shiftLeft, hone, Bool.eq_iff_iff]
  simp [hi, hi64]

/-! ## Combo -/

/-- Only bits 24:0 change, integer and fraction fit 9:0 and 24:10, and neither
spills into the other. -/
structure ComboFramed (cfgcr0 : U32) (d : U32 × U32) (modVal : U32) : Prop where
  unchanged : UnchangedOutside (genmask 24 0) cfgcr0 modVal
  intgr : d.1.toNat < 2 ^ 10
  frac : d.2.toNat < 2 ^ 15
  apart : comboDiv modVal = (d.1.toNat, d.2.toNat)

theorem comboModVal_eq (cfgcr0 : U32) (d : U32 × U32) :
    comboModVal cfgcr0 d = putField (genmask 24 0) (d.1 ||| d.2 <<< 10) cfgcr0 := by
  have hmask : genmask 24 0 = 0x1FFFFFF := by decide
  unfold comboModVal putField
  rw [hmask, BitVec.or_assoc]

theorem comboModVal_unchanged (cfgcr0 : U32) {d : U32 × U32} (h1 : d.1.toNat < 2 ^ 25)
    (h2 : d.2.toNat < 2 ^ 15) :
    UnchangedOutside (genmask 24 0) cfgcr0 (comboModVal cfgcr0 d) := by
  rw [comboModVal_eq]
  apply FitsIn.putField
  rw [fitsIn_iff]
  intro i hi
  rw [genmask_eq (by omega) (by omega), getLsbD_fieldMask] at hi
  rw [BitVec.getLsbD_or, BitVec.getLsbD_shiftLeft]
  by_cases hi32 : i < 32
  · have hi25 : 25 ≤ i := by
      simp [hi32] at hi
      omega
    rw [getLsbD_of_lt h1 hi25, getLsbD_of_lt h2 (by omega)]
    simp
  · rw [BitVec.getLsbD_of_ge _ i (by omega)]
    simp [hi32]

/-- A clock within one percent of a decoded one. -/
def Near (t c : ℚ) : Prop := |t - c| ≤ c / 100

instance decidableNear (t c : ℚ) : Decidable (Near t c) := inferInstanceAs (Decidable (_ ≤ _))

theorem Near.nonneg {t c : ℚ} (h : Near t c) : 0 ≤ t := by
  have hc : 0 ≤ c := by linarith [abs_nonneg (t - c), show |t - c| ≤ c / 100 from h]
  linarith [(abs_le.mp h).1]

theorem comboPllClock_lt (cfgcr0 : U32) : comboPllClock cfgcr0 < 1025 * 19.2 := by
  have hint : ((getBits cfgcr0 9 0 : ℕ) : ℚ) ≤ 1023 := by
    exact_mod_cast Nat.le_of_lt_succ (getBits_lt cfgcr0 9 0)
  have hfrac : ((getBits cfgcr0 24 10 : ℕ) : ℚ) < 2 ^ 15 := by
    exact_mod_cast getBits_lt cfgcr0 24 10
  simp only [comboPllClock, comboRefclock]
  rw [div_lt_iff₀ (by norm_num)]
  linarith

/-- From the end of the field on the integer needs an eleventh bit. -/
theorem comboFeedbackDividers_overflow {t : ℚ} (h0 : 1024 * 19.2 ≤ t) (h1 : t < 2 ^ 20) :
    1024 ≤ (comboFeedbackDividers t).1.toNat := by
  have hlow : 1024 ≤ t * 1000 / comboRefclock := by
    unfold comboRefclock
    rw [le_div_iff₀ (by norm_num)]
    linarith
  have hhigh : t * 1000 / comboRefclock < 2 ^ 32 := by
    unfold comboRefclock
    rw [div_lt_iff₀ (by norm_num)]
    linarith
  have hcast : ((comboFeedbackDividers t).1.toNat : ℤ) = ⌊t * 1000 / comboRefclock⌋ :=
    toNat_castU32 (by linarith) hhigh
  have hfloor : (1024 : ℤ) ≤ ⌊t * 1000 / comboRefclock⌋ := Int.le_floor.mpr (by exact_mod_cast hlow)
  omega

theorem comboFramed_iff {cfgcr0 : U32} {t : ℚ} (ht : Near t (comboPllClock cfgcr0)) :
    ComboFramed cfgcr0 (comboFeedbackDividers t) (comboModVal cfgcr0 (comboFeedbackDividers t)) ↔
      t < 1024 * 19.2 := by
  constructor
  · intro h
    by_contra hge
    have hclock := comboPllClock_lt cfgcr0
    have hsmall : t < 2 ^ 20 := by linarith [(abs_le.mp ht).2]
    have hover := comboFeedbackDividers_overflow (not_lt.mp hge) hsmall
    have hfits := h.intgr
    omega
  · intro hlt
    have hrange : t ∈ comboSynth.range := ⟨ht.nonneg, by norm_num [comboRefclock]; linarith⟩
    obtain ⟨-, hint, hfrac⟩ := comboFeedbackDividers_spec hrange
    exact ⟨comboModVal_unchanged cfgcr0 (by omega) hfrac, hint, hfrac,
      comboDiv_comboModVal cfgcr0 hint hfrac⟩

theorem combo_prepare_run (n : Fin 4) (w : World ComboPhyReg Hw) (t : ℚ) : ∃ w',
    runHandler hwDevice ((combo n).prepare t) w = some (0, w') ∧
      w'.obj.reg.cfgcr0.modVal =
        comboModVal (w.hw.readReg (dpllCfgcr0 n)) (comboFeedbackDividers t) :=
  ⟨_, rfl, rfl⟩

/-! ## DKL -/

/-- The masks that the code clears and the values it puts in: `DIV0`, `BIAS`,
`VISA_SERIALIZER`, `SSC` twice and `DCO`. -/
def dklInserted (d : U8 × U32) : List (U32 × U32) :=
  [(genmask 7 0, d.1.setWidth 32), (genmask 29 8, d.2 <<< 8), (genmask 2 0, 0x200),
    (genmask 31 29, (2 : U32) <<< 29), (genmask 13 13, (2 : U32) <<< 12),
    (genmask 2 2, (2 : U32) <<< 1)]

def Reg.put (r : Reg) (m v : U32) : Reg := { r with modVal := putField m v r.modVal }

theorem DklPhyReg.withDividers_eq (r : DklPhyReg) (d : U8 × U32) :
    r.withDividers d =
      { pllDiv0 := r.pllDiv0.put (genmask 7 0) (d.1.setWidth 32)
        visaSerializer := r.visaSerializer.put (genmask 2 0) 0x200
        bias := r.bias.put (genmask 29 8) (d.2 <<< 8)
        ssc := (r.ssc.put (genmask 31 29) (2 <<< 29)).put (genmask 13 13) (2 <<< 12)
        dco := r.dco.put (genmask 2 2) (2 <<< 1) } := by
  have h7 : genmask 7 0 = 0xFF := by decide
  have h29 : genmask 29 8 = 0x3FFFFF00 := by decide
  have h2 : genmask 2 0 = 0x7 := by decide
  have h31 : genmask 31 29 = 0xE0000000 := by decide
  have h13 : genmask 13 13 = 0x2000 := by decide
  have hdco : genmask 2 2 = 0x4 := by decide
  rw [h7, h29, h2, h31, h13, hdco]
  rfl

/-- The fraction is capped, whatever the divider. -/
theorem dklDividersOf_frac_lt (F : ℚ) : (dklDividersOf F).2.toNat < 2 ^ 22 := by
  unfold dklDividersOf
  dsimp only
  split
  · decide
  · rename_i hgt
    rw [gt_iff_lt, BitVec.lt_def] at hgt
    simp at hgt ⊢
    omega

/-- Every value but the one for `VISA_SERIALIZER` fits. -/
theorem dklInserted_fitsIn_iff {d : U8 × U32} (hd : d.2.toNat < 2 ^ 22) :
    ∀ p ∈ dklInserted d, (FitsIn p.1 p.2 ↔ p.1 ≠ genmask 2 0) := by
  have hintgr : FitsIn (genmask 7 0) (d.1.setWidth 32) := by
    have h := fitsIn_shiftLeft (h := 7) (l := 0) (v := d.1.setWidth 32) (by omega) (by
      rw [BitVec.toNat_setWidth]
      exact (Nat.mod_le _ _).trans_lt d.1.isLt)
    rwa [BitVec.shiftLeft_zero] at h
  have hfrac : FitsIn (genmask 29 8) (d.2 <<< 8) := by
    rw [genmask_eq (by omega) (by omega)]
    exact fitsIn_shiftLeft (by omega) hd
  unfold dklInserted
  simp only [List.forall_mem_cons]
  refine ⟨iff_of_true hintgr (by decide), iff_of_true hfrac (by decide), ?_, ?_, ?_, ?_, by simp⟩
  · exact iff_of_false (by decide) (by decide)
  · exact iff_of_true (by decide) (by decide)
  · exact iff_of_true (by decide) (by decide)
  · exact iff_of_true (by decide) (by decide)

/-- The registers of the PLL page as they were and as prepared, the one with the
oversized value apart. -/
structure DklUnchanged (old : ℕ → U32) (r : DklPhyReg) : Prop where
  div0 : UnchangedOutside (genmask 7 0) (old 0x200) r.pllDiv0.modVal
  bias : UnchangedOutside (genmask 29 8) (old 0x214) r.bias.modVal
  ssc : UnchangedOutside (genmask 31 29 ||| genmask 13 13) (old 0x210) r.ssc.modVal
  dco : UnchangedOutside (genmask 2 2) (old 0x224) r.dco.modVal

def VisaUnchanged (old : ℕ → U32) (r : DklPhyReg) : Prop :=
  UnchangedOutside (genmask 2 0) (old 0x220) r.visaSerializer.modVal

variable (phy : Fin 6) (hw : Hw) (d : U8 × U32)

theorem dklUnchanged_withDividers (hd : d.2.toNat < 2 ^ 22) :
    DklUnchanged (dklReg phy hw) ((dklLoaded phy hw).withDividers d) := by
  have hfield : ∀ m v, (m, v) ∈ dklInserted d → m ≠ genmask 2 0 → ∀ x,
      UnchangedOutside m x (putField m v x) := by
    intro m v hp hne x
    exact ((dklInserted_fitsIn_iff hd _ hp).mpr hne).putField x
  have hhigh := hfield (genmask 31 29) ((2 : U32) <<< 29) (by simp [dklInserted]) (by decide)
    (dklReg phy hw 0x210)
  have hbit := hfield (genmask 13 13) ((2 : U32) <<< 12) (by simp [dklInserted]) (by decide)
    (putField (genmask 31 29) ((2 : U32) <<< 29) (dklReg phy hw 0x210))
  rw [DklPhyReg.withDividers_eq]
  constructor
  · exact hfield (genmask 7 0) (d.1.setWidth 32) (by simp [dklInserted]) (by decide) _
  · exact hfield (genmask 29 8) (d.2 <<< 8) (by simp [dklInserted]) (by decide) _
  · exact (hhigh.mono (by decide)).trans (hbit.mono (by decide))
  · exact hfield (genmask 2 2) ((2 : U32) <<< 1) (by simp [dklInserted]) (by decide) _

/-- Bit 9 is the one bit of the value for `VISA_SERIALIZER`. -/
theorem visaUnchanged_withDividers_iff :
    VisaUnchanged (dklReg phy hw) ((dklLoaded phy hw).withDividers d) ↔
      (dklReg phy hw 0x220).getLsbD 9 = true := by
  rw [DklPhyReg.withDividers_eq]
  show UnchangedOutside (genmask 2 0) (dklReg phy hw 0x220)
    (putField (genmask 2 0) 0x200 (dklReg phy hw 0x220)) ↔ _
  rw [unchangedOutside_putField_iff, fitsIn_iff]
  have hbits : ∀ i < 32, i ≠ 9 → (0x200 : U32).getLsbD i = false := by decide
  have hmask : (genmask 2 0).getLsbD 9 = false := by decide
  constructor
  · intro h
    by_contra hclear
    have := h 9 (by rw [BitVec.getLsbD_or, hmask, Bool.false_or]; simpa using hclear)
    exact absurd this (by decide)
  · intro hset i hi
    by_cases h9 : i = 9
    · subst h9
      rw [BitVec.getLsbD_or, hset, Bool.or_true] at hi
      cases hi
    · by_cases hi32 : i < 32
      · exact hbits i hi32 h9
      · exact BitVec.getLsbD_of_ge _ i (by omega)

theorem dklLoaded_page (w : World DklPhyReg Hw) :
    (w.put (dklSelected phy w.hw) (dklLoaded phy w.hw)).hw.page phy =
      dklPage phy (w.put (dklSelected phy w.hw) (dklLoaded phy w.hw)).hw := by
  rw [World.put_hw, dklSelected_page, dklPage_dklSelected]

theorem dkl_prepare_run (w : World DklPhyReg Hw) (hp : getBits (dklReg phy w.hw 0x200) 11 8 ≠ 0)
    (t : ℚ) :
    runHandler hwDevice ((dkl phy).prepare t) w =
      some (0, w.put (dklSelected phy w.hw) ((dklLoaded phy w.hw).withDividers
        (dklDividersOf (t / (refClkFreq * getBits (dklReg phy w.hw 0x200) 11 8))))) := by
  have hne : dklReg phy w.hw 0x200 ≠ 0 := by
    intro h0
    rw [h0, getBits_zero] at hp
    exact hp rfl
  have hcalc := dkl_calculateFeedbackDividers_run (v := fun _ => none) (dklLoaded_page phy w)
    (by rwa [World.put_hw, dklReg_dklSelected]) (by rwa [World.put_hw, dklReg_dklSelected]) t
  rw [World.put_put, World.put_hw, World.put_reg, dklReg_dklSelected] at hcalc
  show (Dkl.readRegisters phy >>= fun _ => Dkl.calculateFeedbackDividers phy t).run
    (regExec fun _ => none) w = _
  rw [Prog.run_bind_of dkl_readRegisters_run]
  exact hcalc

/-- Without a pre-divider there is no divider to prepare. -/
theorem dkl_prepare_run_of_zero (w : World DklPhyReg Hw)
    (hp : getBits (dklReg phy w.hw 0x200) 11 8 = 0) (t : ℚ) :
    runHandler hwDevice ((dkl phy).prepare t) w = none := by
  have hpage := dklLoaded_page phy w
  have hdiv0 : ∃ w', (Dkl.readDiv0 phy).run (regExec fun _ => none)
      (w.put (dklSelected phy w.hw) (dklLoaded phy w.hw)) = some (dklReg phy w.hw 0x200, w') := by
    by_cases h0 : dklReg phy w.hw 0x200 = 0
    · rw [h0]
      exact ⟨_, readDiv0_run_of_zero hpage (by rwa [World.put_hw, dklReg_dklSelected])⟩
    · have hread := readDiv0_run (v := fun _ => none) hpage
        (by rwa [World.put_hw, dklReg_dklSelected])
      rw [World.put_hw, dklReg_dklSelected] at hread
      exact ⟨_, hread⟩
  obtain ⟨w', hread⟩ := hdiv0
  show (Dkl.readRegisters phy >>= fun _ => Dkl.calculateFeedbackDividers phy t).run
    (regExec fun _ => none) w = none
  rw [Prog.run_bind_of dkl_readRegisters_run]
  unfold Dkl.calculateFeedbackDividers
  rw [Prog.run_bind_of hread, Prog.run_bind_of (run_readReg _)]
  simp only [dklFeedbackDividers, if_pos hp]
  rfl

def DklPrepares (w : World DklPhyReg Hw) (t : ℚ) (P : U8 × U32 → DklPhyReg → Prop) : Prop :=
  ∃ d w', runHandler hwDevice ((dkl phy).prepare t) w = some (0, w') ∧
    w'.obj.reg = (dklLoaded phy w.hw).withDividers d ∧ d.2.toNat < 2 ^ 22 ∧ P d w'.obj.reg

theorem dklPrepares_iff {w : World DklPhyReg Hw} {t : ℚ} {P : U8 × U32 → DklPhyReg → Prop}
    {p : Prop} (hP : ∀ d : U8 × U32, d.2.toNat < 2 ^ 22 →
      (P d ((dklLoaded phy w.hw).withDividers d) ↔ p)) :
    DklPrepares phy w t P ↔ getBits (dklReg phy w.hw 0x200) 11 8 ≠ 0 ∧ p := by
  constructor
  · intro h
    obtain ⟨d, w', hrun, hreg, hd, hprop⟩ := h
    refine ⟨?_, (hP d hd).mp (hreg ▸ hprop)⟩
    intro hp
    rw [dkl_prepare_run_of_zero phy w hp] at hrun
    cases hrun
  · intro h
    have hd := dklDividersOf_frac_lt (t / (refClkFreq * getBits (dklReg phy w.hw 0x200) 11 8))
    exact ⟨_, _, dkl_prepare_run phy w h.1 t, rfl, hd, (hP _ hd).mpr h.2⟩

/-! ## Both kinds -/

/-- A combo PHY keeps to its fields unless the integer outgrows its own. On a DKL
PHY all registers but `VISA_SERIALIZER` do; that one keeps its other bits if bit 9
was set, and its value never fits. -/
theorem prepared_fields_iff (n : Fin 4) (wc : World ComboPhyReg Hw) {t : ℚ}
    (ht : Near t (comboPllClock (wc.hw.readReg (dpllCfgcr0 n)))) (phy : Fin 6)
    (wd : World DklPhyReg Hw) (t' : ℚ) :
    (∃ w', runHandler hwDevice ((combo n).prepare t) wc = some (0, w') ∧
      (ComboFramed (wc.hw.readReg (dpllCfgcr0 n)) (comboFeedbackDividers t)
        w'.obj.reg.cfgcr0.modVal ↔ t < 1024 * 19.2)) ∧
    (DklPrepares phy wd t' (fun d r => DklUnchanged (dklReg phy wd.hw) r ∧
        ∀ p ∈ dklInserted d, p.1 ≠ genmask 2 0 → FitsIn p.1 p.2) ↔
      getBits (dklReg phy wd.hw 0x200) 11 8 ≠ 0) ∧
    (DklPrepares phy wd t' (fun _ r => DklUnchanged (dklReg phy wd.hw) r ∧
        VisaUnchanged (dklReg phy wd.hw) r) ↔
      getBits (dklReg phy wd.hw 0x200) 11 8 ≠ 0 ∧ (dklReg phy wd.hw 0x220).getLsbD 9 = true) ∧
    ¬DklPrepares phy wd t' (fun d r => DklUnchanged (dklReg phy wd.hw) r ∧
        VisaUnchanged (dklReg phy wd.hw) r ∧ ∀ p ∈ dklInserted d, FitsIn p.1 p.2) := by
  refine ⟨?_, ?_, ?_, ?_⟩
  · obtain ⟨w', hrun, hmod⟩ := combo_prepare_run n wc t
    refine ⟨w', hrun, ?_⟩
    rw [hmod]
    exact comboFramed_iff ht
  · have hiff := dklPrepares_iff phy (w := wd) (t := t') (p := True)
      (P := fun d r => DklUnchanged (dklReg phy wd.hw) r ∧
        ∀ p ∈ dklInserted d, p.1 ≠ genmask 2 0 → FitsIn p.1 p.2)
      fun d hd => iff_of_true ⟨dklUnchanged_withDividers phy wd.hw d hd,
        fun p hp => (dklInserted_fitsIn_iff hd p hp).mpr⟩ trivial
    rwa [and_true] at hiff
  · apply dklPrepares_iff
    intro d hd
    rw [and_iff_right (dklUnchanged_withDividers phy wd.hw d hd)]
    exact visaUnchanged_withDividers_iff phy wd.hw d
  · intro h
    obtain ⟨d, -, -, -, hd, -, -, hfits⟩ := h
    have hvisa := hfits (genmask 2 0, 0x200) (by simp [dklInserted])
    exact absurd hvisa (by decide)

/-- `CFGCR0` of the combo PHYs, and `DIV0` on pages that are zero otherwise. -/
def maskHw (cfgcr0 div0 : U32) : Hw :=
  ⟨fun _ => cfgcr0, fun _ _ off => if off = 0x200 then div0 else 0, fun _ _ _ => 0, fun _ _ => 0⟩

def maskWorld {Φ : Type} (reg : Φ) (cfgcr0 div0 : U32) : World Φ Hw :=
  ⟨maskHw cfgcr0 div0, ⟨⟨true, 0, 0, 0, 0⟩, reg⟩, false, none⟩

theorem prepared_fields_iff_small : ∃ w', runHandler hwDevice ((combo 0).prepare 8102.4)
    (maskWorld ⟨⟨0, 0⟩, ⟨0, 0⟩⟩ 0x8001A6 0 : World ComboPhyReg Hw) = some (0, w') ∧
      (ComboFramed 0x8001A6 (comboFeedbackDividers 8102.4) w'.obj.reg.cfgcr0.modVal ↔
        (8102.4 : ℚ) < 1024 * 19.2) :=
  (prepared_fields_iff 0 (maskWorld ⟨⟨0, 0⟩, ⟨0, 0⟩⟩ 0x8001A6 0) (t := 8102.4) (by decide +kernel) 0
    (maskWorld ⟨⟨0, 0⟩, ⟨0, 0⟩, ⟨0, 0⟩, ⟨0, 0⟩, ⟨0, 0⟩⟩ 0 0) 0).1

/-- At integer 1023 a clock 0.2 percent up takes integer 1025, which reads back as 1
with fraction 1; a `VISA_SERIALIZER` of zero is prepared as 0x200. -/
theorem fields_spilled :
    (Near 19680 (comboPllClock 0x3FF) ∧ ∃ w', runHandler hwDevice ((combo 0).prepare 19680)
      (maskWorld ⟨⟨0, 0⟩, ⟨0, 0⟩⟩ 0x3FF 0 : World ComboPhyReg Hw) = some (0, w') ∧
        ¬ComboFramed 0x3FF (comboFeedbackDividers 19680) w'.obj.reg.cfgcr0.modVal ∧
        (comboFeedbackDividers 19680).1.toNat = 1025 ∧
        comboDiv w'.obj.reg.cfgcr0.modVal = (1, 1)) ∧
    Near 9792 (dklPllClock 0x1FF 0) ∧ ∃ w', runHandler hwDevice ((dkl 0).prepare 9792)
      (maskWorld ⟨⟨0, 0⟩, ⟨0, 0⟩, ⟨0, 0⟩, ⟨0, 0⟩, ⟨0, 0⟩⟩ 0 0x1FF) = some (0, w') ∧
        ¬VisaUnchanged (dklReg 0 (maskHw 0 0x1FF)) w'.obj.reg ∧
        w'.obj.reg.visaSerializer.modVal = 0x200 := by
  constructor
  · obtain ⟨w', hrun, hmod⟩ := combo_prepare_run 0 (maskWorld ⟨⟨0, 0⟩, ⟨0, 0⟩⟩ 0x3FF 0) 19680
    have hval : comboModVal ((maskWorld ⟨⟨0, 0⟩, ⟨0, 0⟩⟩ 0x3FF 0 : World ComboPhyReg Hw).hw.readReg
        (dpllCfgcr0 0)) (comboFeedbackDividers 19680) = 0x401 := by
      decide +kernel
    rw [hval] at hmod
    refine ⟨by decide +kernel, w', hrun, ?_, by decide +kernel, by rw [hmod]; decide⟩
    intro h
    exact absurd h.intgr (by decide +kernel)
  · have hrun := dkl_prepare_run 0
      (maskWorld ⟨⟨0, 0⟩, ⟨0, 0⟩, ⟨0, 0⟩, ⟨0, 0⟩, ⟨0, 0⟩⟩ 0 0x1FF) (by decide) 9792
    refine ⟨by decide +kernel, _, hrun, ?_, rfl⟩
    show ¬UnchangedOutside (genmask 2 0) 0 0x200
    decide

end Genlock.Vsyncalter
