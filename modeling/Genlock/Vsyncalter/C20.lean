import Genlock.Vsyncalter.C10

/-! # C20 PHY -/

namespace Genlock.Vsyncalter

open CArith

structure C20Fields where
  fracEn : ℕ
  fracQuot : ℕ
  fracRem : ℕ
  fracDen : ℕ
  txRate : ℕ
  multiplier : ℕ
  txRateMult : ℕ
  txClkDiv : ℕ
  refClkMpllbDiv : ℕ
  fbClkDiv4En : ℕ
deriving DecidableEq, Repr

structure C20PhyReg where
  tx : ℕ → U16
  cmn : ℕ → U16
  fields : C20Fields
  pllStateOrig : ℕ → U16
  pllStateMod : ℕ → U16

def C20PhyReg.value (r : C20PhyReg) (mod : Bool) (i : ℕ) : U16 :=
  if mod then r.pllStateMod i else r.pllStateOrig i

def C20PhyReg.zero : C20PhyReg :=
  ⟨fun _ => 0, fun _ => 0, ⟨0, 0, 0, 0, 0, 0, 0, 0, 0, 0⟩, fun _ => 0, fun _ => 0⟩

/-! ### Addresses -/

inductive Mpll where
  | a
  | b
deriving DecidableEq, Repr

def phyC20VdrCustomSerdesRate : ℕ := 0xD00

def c20GetAddr (platform : U16) (idx : ℕ) : U16 := platform - BitVec.ofNat 16 idx

/-- `_MTL_C20_*_TX_CNTX_CFG` and `_XE2HPD_C20_*_TX_CNTX_CFG`. -/
def c20TxCntxCfg : (isBMG cntx : Bool) → U16
  | false, false => 0xCF2E
  | false, true => 0xCF2A
  | true, false => 0xCF5E
  | true, true => 0xCF5A

def c20CmnCntxCfg : (isBMG cntx : Bool) → U16
  | false, false => 0xCDAA
  | false, true => 0xCDA5
  | true, false => 0xCE8E
  | true, true => 0xCE89

def c20MpllCfg : Mpll → (isBMG cntx : Bool) → U16
  | .a, false, false => 0xCCF0
  | .a, false, true => 0xCCE5
  | .a, true, false => 0xCE58
  | .a, true, true => 0xCE4D
  | .b, false, false => 0xCB5A
  | .b, false, true => 0xCB4E
  | .b, true, false => 0xCCC2
  | .b, true, true => 0xCCB6

/-- `RAWCMN_DIG_MPLL*_CNTX_CFG_8`, the fractional quotient. -/
def rawcmnDigCfg8 : Mpll → U16
  | .a => 0x130
  | .b => 0x13C

/-- `RAWCMN_DIG_MPLL*_CNTX_CFG_9`, the fractional remainder. -/
def rawcmnDigCfg9 : Mpll → U16
  | .a => 0x131
  | .b => 0x13D

def rawcmnDigFracUpdate : Mpll → U16
  | .a => 0x110
  | .b => 0x111

def c20Mpll (tx0 : U16) : Mpll := if tx0.getLsbD 7 then .b else .a

/-! ## Dividers and clock -/

/-- `ref` of the source, in kHz. -/
def C20Fields.ref (f : C20Fields) : ℚ := 38400 * 2 ^ (1 + f.fbClkDiv4En) / 2 ^ f.refClkMpllbDiv

/-- The fraction counts only with `frac_en` and a denominator. -/
def C20Fields.frac (f : C20Fields) : ℚ :=
  if f.fracEn ≠ 0 ∧ f.fracDen ≠ 0 then f.fracQuot + f.fracRem / f.fracDen else 0

def c20PllClock (f : C20Fields) : ℚ :=
  f.ref * (f.multiplier * 2 ^ 15 + f.frac) / 2 ^ 17 / 10 / 2 ^ f.txRate / 2 ^ f.txClkDiv *
    2 ^ f.txRateMult

/-- `frac_scaled`: the quotient, with its fraction, that gives the clock. -/
def c20FracScaled (f : C20Fields) (pllFreq : ℚ) : ℚ :=
  pllFreq * 2 ^ f.txRate * 2 ^ f.txClkDiv / 2 ^ f.txRateMult * 10 * 2 ^ 17 / f.ref -
    f.multiplier * 2 ^ 15

/-- `frac_quot_mod` and `frac_rem_mod` as they are stored, from `frac_scaled`. -/
def c20DividersOf (fracScaled : ℚ) (fracDen : ℕ) : U16 × U16 :=
  let fracQuotMod := castU32 (cround fracScaled)
  let fracRemMod := castU32 (cround ((fracScaled - fracQuotMod.toNat) * fracDen))
  (fracQuotMod.setWidth 16,
    (if fracRemMod > 65535 then (65535 : U32) else fracRemMod).setWidth 16)

def c20FeedbackDividers (f : C20Fields) (pllFreq : ℚ) : U16 × U16 :=
  c20DividersOf (c20FracScaled f pllFreq) f.fracDen

/-- The fields that `read_registers` decodes from the PLL registers. MPLLA leaves
the fraction of an earlier read in place. -/
def c20DecodeFields (f : C20Fields) (state : ℕ → U16) : Mpll → C20Fields
  | .b => { f with
      txRateMult := 1
      fbClkDiv4En := 0
      fracEn := getBits (state 6) 13 13
      fracQuot := (state 8).toNat
      fracRem := (state 9).toNat
      fracDen := (state 7).toNat
      multiplier := getBits (state 0) 11 0
      txClkDiv := getBits (state 0) 15 13
      refClkMpllbDiv := getBits (state 6) 12 10 }
  | .a => { f with
      txRateMult := 1
      fracEn := getBits (state 6) 14 14
      multiplier := getBits (state 0) 11 0
      txClkDiv := getBits (state 1) 10 8
      refClkMpllbDiv := getBits (state 6) 12 10
      fbClkDiv4En := getBits (state 0) 13 13 }

/-! ## The class -/

namespace C20

variable (port : ℕ) (isBMG : Bool)

def readTx (cntx : Bool) (i : ℕ) : RegProg C20PhyReg Unit := do
  let value ← intelC20SramRead port (c20GetAddr (c20TxCntxCfg isBMG cntx) i)
  modReg fun r => { r with tx := Function.update r.tx i value }
  modReg fun r => { r with fields := { r.fields with txRate := getBits (r.tx 0) 2 0 } }

def readCmn (cntx : Bool) (i : ℕ) : RegProg C20PhyReg Unit := do
  let value ← intelC20SramRead port (c20GetAddr (c20CmnCntxCfg isBMG cntx) i)
  modReg fun r => { r with cmn := Function.update r.cmn i value }

def readState (i : ℕ) (addr : U16) : RegProg C20PhyReg Unit := do
  let value ← intelC20SramRead port addr
  modReg fun r => { r with
    pllStateOrig := Function.update r.pllStateOrig i value
    pllStateMod := Function.update r.pllStateMod i value }

/-- The PLL configuration of the context, then quotient and remainder from their
own registers. -/
def readMpll (cntx : Bool) (mpll : Mpll) : RegProg C20PhyReg Unit := do
  Prog.forEach (fun i => readState port i (c20GetAddr (c20MpllCfg mpll isBMG cntx) i)) (List.range 10)
  readState port 8 (rawcmnDigCfg8 mpll)
  readState port 9 (rawcmnDigCfg9 mpll)
  modReg fun r => { r with fields := c20DecodeFields r.fields r.pllStateOrig mpll }

def readRegisters : RegProg C20PhyReg Unit := do
  let rate ← intelCx0Read port phyC20VdrCustomSerdesRate
  let cntx := rate.getLsbD 0
  Prog.forEach (readTx port isBMG cntx) (List.range 3)
  Prog.forEach (readCmn port isBMG cntx) (List.range 4)
  let o ← getObj
  readMpll port isBMG cntx (c20Mpll (o.reg.tx 0))

def calculatePllClock : RegProg C20PhyReg ℚ := do
  let o ← getObj
  return c20PllClock o.reg.fields

def calculateFeedbackDividers (pllFreq : ℚ) : RegProg C20PhyReg ℤ := do
  let o ← getObj
  let dividers := c20FeedbackDividers o.reg.fields pllFreq
  modReg fun r => { r with pllStateMod := Function.update r.pllStateMod 8 dividers.1 }
  modReg fun r => { r with pllStateMod := Function.update r.pllStateMod 9 dividers.2 }
  return 0

def programMmio (mod : Bool) : RegProg C20PhyReg ℤ := do
  let o ← getObj
  let mpll := c20Mpll (o.reg.tx 0)
  let o ← getObj
  intelC20SramWrite port (rawcmnDigCfg8 mpll) (o.reg.value mod 8)
  let o ← getObj
  intelC20SramWrite port (rawcmnDigCfg9 mpll) (o.reg.value mod 9)
  intelC20SramWrite port (rawcmnDigFracUpdate mpll) 1
  return 0

end C20

def c20 (port : ℕ) (isBMG : Bool) : PhyClass C20PhyReg RegOp RegOp.Ans where
  readRegisters := C20.readRegisters port isBMG
  calculatePllClock := C20.calculatePllClock
  calculateFeedbackDividers := C20.calculateFeedbackDividers
  programMmio := C20.programMmio port

/-! ## The synthesizer of a C20 PHY -/

/-- The fields with another quotient and remainder in the registers; those of
MPLLA are not decoded. -/
def C20Fields.withDividers (f : C20Fields) (quot rem : ℕ) : Mpll → C20Fields
  | .a => f
  | .b => { f with fracQuot := quot, fracRem := rem }

structure C20Frame where
  mpll : Mpll
  fields : C20Fields
deriving DecidableEq, Repr

/-- Quotient and remainder, for the fields around them; the conversions wrap, so
that every clock is tuned to some setting. -/
def c20Synth (φ : C20Frame) : Synthesizer ℚ (U16 × U16) where
  clock d := c20PllClock (φ.fields.withDividers d.1.toNat d.2.toNat φ.mpll)
  tune x := c20FeedbackDividers φ.fields x
  range := Set.univ

@[simp] theorem C20Fields.withDividers_withDividers (f : C20Fields) (q r q' r' : ℕ) (m : Mpll) :
    (f.withDividers q r m).withDividers q' r' m = f.withDividers q' r' m := by
  cases m <;> rfl

theorem c20FeedbackDividers_withDividers (f : C20Fields) (q r : ℕ) (m : Mpll) (x : ℚ) :
    c20FeedbackDividers (f.withDividers q r m) x = c20FeedbackDividers f x := by
  cases m <;> rfl

/-- What one unit of `frac_scaled` is worth in the clock. -/
def C20Fields.unit (f : C20Fields) : ℚ :=
  f.ref / 2 ^ 17 / 10 / 2 ^ f.txRate / 2 ^ f.txClkDiv * 2 ^ f.txRateMult

theorem C20Fields.ref_pos (f : C20Fields) : 0 < f.ref := by
  unfold C20Fields.ref
  positivity

theorem C20Fields.unit_pos (f : C20Fields) : 0 < f.unit := by
  have := f.ref_pos
  unfold C20Fields.unit
  positivity

theorem c20PllClock_eq (f : C20Fields) :
    c20PllClock f = f.unit * (f.multiplier * 2 ^ 15 + f.frac) := by
  unfold c20PllClock C20Fields.unit
  ring

theorem c20FracScaled_eq (f : C20Fields) (x : ℚ) :
    c20FracScaled f x = x / f.unit - f.multiplier * 2 ^ 15 := by
  have := f.ref_pos
  unfold c20FracScaled C20Fields.unit
  field_simp

theorem c20FracScaled_mono (f : C20Fields) : StrictMono (c20FracScaled f) := by
  intro x y hlt
  rw [c20FracScaled_eq, c20FracScaled_eq]
  have := div_lt_div_of_pos_right hlt f.unit_pos
  linarith

/-- `frac_scaled` of the decoded clock is the decoded fraction. -/
theorem c20FracScaled_clock (f : C20Fields) : c20FracScaled f (c20PllClock f) = f.frac := by
  rw [c20FracScaled_eq, c20PllClock_eq, mul_div_cancel_left₀ _ f.unit_pos.ne']
  ring

/-! ### Rounding of the quotient -/

/-- The quotient for `X` rounds down, or up by less than half a unit of the
remainder: the remainder, which is unsigned, can then hold the difference. -/
def RemainderFits (X : ℚ) (den : ℕ) : Prop :=
  Int.fract X < 1 / 2 ∨ (1 - Int.fract X) * den < 1 / 2

instance (X : ℚ) (den : ℕ) : Decidable (RemainderFits X den) := inferInstanceAs (Decidable (_ ∨ _))

theorem cround_of_fract_lt {X : ℚ} (hX : -(1 / 2) < X) (h : Int.fract X < 1 / 2) :
    cround X = ⌊X⌋ := by
  have hfract := Int.self_sub_floor X
  have h0 : 0 ≤ X := by
    by_contra hneg
    have hfloor : ⌊X⌋ < 0 := Int.floor_lt.mpr (by push_cast; linarith)
    have : (⌊X⌋ : ℚ) ≤ -1 := by exact_mod_cast Int.le_sub_one_of_lt hfloor
    linarith
  have := Int.fract_nonneg X
  rw [cround_of_nonneg h0, Int.floor_eq_iff]
  constructor <;> linarith

theorem cround_of_le_fract {X : ℚ} (hX : -(1 / 2) < X) (h : 1 / 2 ≤ Int.fract X) :
    cround X = ⌊X⌋ + 1 := by
  have hfract := Int.self_sub_floor X
  have hlt := Int.fract_lt_one X
  rcases le_or_gt 0 X with h0 | h0
  · rw [cround_of_nonneg h0, Int.floor_eq_iff]
    push_cast
    constructor <;> linarith
  · rw [cround_of_neg h0, Int.ceil_eq_iff]
    have : ⌊X⌋ = -1 := Int.floor_eq_iff.mpr ⟨by push_cast; linarith, by push_cast; linarith⟩
    rw [this]
    constructor <;> push_cast <;> linarith

/-- The remainder fits exactly if it does not round to a negative number. -/
theorem remainderFits_iff {X : ℚ} (hX : -(1 / 2) < X) (den : ℕ) :
    RemainderFits X den ↔ 0 ≤ cround ((X - cround X) * den) := by
  have hfract := Int.self_sub_floor X
  have h0 := Int.fract_nonneg X
  unfold RemainderFits
  rw [← not_lt (a := cround _), cround_neg_iff, not_le]
  rcases lt_or_ge (Int.fract X) (1 / 2) with h | h
  · rw [cround_of_fract_lt hX h, hfract]
    have : 0 ≤ Int.fract X * den := by positivity
    exact iff_of_true (Or.inl h) (by linarith)
  · rw [cround_of_le_fract hX h]
    push_cast
    rw [show X - (⌊X⌋ + 1 : ℚ) = -(1 - Int.fract X) by linarith, neg_mul, neg_lt_neg_iff]
    exact or_iff_right (not_lt.mpr h)

def remainderFor (X : ℚ) (den : ℕ) : ℤ :=
  if 0 ≤ cround ((X - cround X) * den) then cround ((X - cround X) * den) else 65535

/-- The quotient is cut to its field, whatever it is. -/
theorem c20DividersOf_fst (X : ℚ) (den : ℕ) :
    ((c20DividersOf X den).1.toNat : ℤ) = cround X % 65536 := by
  simp only [c20DividersOf, castU32, trunc_intCast, BitVec.toNat_setWidth, BitVec.toNat_ofInt]
  omega

/-- The remainder is computed before the quotient is cut; beyond its register it is cut to the
largest, as it is when the cast has wrapped. -/
theorem c20DividersOf_rem (X : ℚ) (den : ℕ) : ((c20DividersOf X den).2.toNat : ℤ) =
    min 65535 (cround ((X - (cround X % 2 ^ 32 : ℤ)) * den) % 2 ^ 32) := by
  have hcast (n : ℤ) : ((castU32 (n : ℚ)).toNat : ℤ) = n % 2 ^ 32 := by
    unfold castU32
    rw [trunc_intCast, BitVec.toNat_ofInt]
    omega
  have hquot : (((castU32 (cround X : ℤ)).toNat : ℕ) : ℚ) = (cround X % 2 ^ 32 : ℤ) := by
    rw [← hcast]
    rfl
  unfold c20DividersOf
  dsimp only
  rw [hquot]
  have hrem := hcast (cround ((X - (cround X % 2 ^ 32 : ℤ)) * den))
  generalize castU32 ((cround _ : ℤ) : ℚ) = E at hrem ⊢
  rw [BitVec.toNat_setWidth, ← hrem]
  split
  · rename_i hgt
    rw [gt_iff_lt, BitVec.lt_def] at hgt
    simp at hgt ⊢
    omega
  · rename_i hgt
    rw [gt_iff_lt, BitVec.lt_def] at hgt
    simp at hgt ⊢
    omega

theorem c20DividersOf_eq_iff (X : ℚ) (den : ℕ) (d : U16 × U16) : c20DividersOf X den = d ↔
    (d.1.toNat : ℤ) = cround X % 2 ^ 16 ∧
      (d.2.toNat : ℤ) =
        min 65535 (cround ((X - (cround X % 2 ^ 32 : ℤ)) * den) % 2 ^ 32) := by
  have hquot := c20DividersOf_fst X den
  have hrem := c20DividersOf_rem X den
  constructor
  · rintro rfl
    exact ⟨hquot, hrem⟩
  · rintro ⟨h1, h2⟩
    apply Prod.ext
    · exact BitVec.eq_of_toNat_eq (by omega)
    · exact BitVec.eq_of_toNat_eq (by omega)

theorem c20DividersOf_snd {X : ℚ} {den : ℕ} (h0 : 0 ≤ cround X) (h1 : cround X < 2 ^ 32)
    (hden : den ≤ 65535) : ((c20DividersOf X den).2.toNat : ℤ) = remainderFor X den := by
  have hbound : |cround ((X - cround X) * den)| ≤ 32768 := by
    have habs := abs_le.mp (abs_sub_cround_le X)
    have hd0 : (0 : ℚ) ≤ den := Nat.cast_nonneg den
    have hd1 : (den : ℚ) ≤ 65535 := by exact_mod_cast hden
    rw [abs_le]
    constructor
    · exact le_cround (by push_cast; nlinarith)
    · exact cround_le (by push_cast; nlinarith)
  rw [c20DividersOf_rem, Int.emod_eq_of_lt h0 h1, remainderFor]
  rw [abs_le] at hbound
  split <;> omega

theorem c20DividersOf_spec {X : ℚ} {den : ℕ} (h0 : 0 ≤ cround X) (h1 : cround X ≤ 65535)
    (hden : den ≤ 65535) : ((c20DividersOf X den).1.toNat : ℤ) = cround X ∧
      ((c20DividersOf X den).2.toNat : ℤ) = remainderFor X den := by
  refine ⟨?_, c20DividersOf_snd h0 (by omega) hden⟩
  rw [c20DividersOf_fst]
  omega

/-! ### Direction and exactness -/

def C20Frame.Fractional (φ : C20Frame) : Prop :=
  φ.mpll = .b ∧ φ.fields.fracEn ≠ 0 ∧ φ.fields.fracDen ≠ 0

instance (φ : C20Frame) : Decidable φ.Fractional := inferInstanceAs (Decidable (_ ∧ _))

def C20Frame.fraction (φ : C20Frame) (d : U16 × U16) : ℚ :=
  d.1.toNat + d.2.toNat / φ.fields.fracDen

section Direction

variable {φ : C20Frame} {d : U16 × U16} {x : ℚ}

/-- Without a fraction every setting gives the same clock. -/
theorem c20Synth_clock_of_not_fractional (h : ¬φ.Fractional) (d d' : U16 × U16) :
    (c20Synth φ).clock d = (c20Synth φ).clock d' := by
  obtain ⟨m, f⟩ := φ
  cases m with
  | a => rfl
  | b =>
      have hoff : ¬(f.fracEn ≠ 0 ∧ f.fracDen ≠ 0) := fun hon => h ⟨rfl, hon⟩
      simp only [c20Synth, c20PllClock_eq, C20Fields.withDividers, C20Fields.frac, if_neg hoff]
      rfl

theorem c20Synth_clock (h : φ.Fractional) (d : U16 × U16) :
    (c20Synth φ).clock d = φ.fields.unit * (φ.fields.multiplier * 2 ^ 15 + φ.fraction d) := by
  obtain ⟨m, f⟩ := φ
  obtain ⟨rfl, hon⟩ := h
  simp only [c20Synth, c20PllClock_eq, C20Fields.withDividers, C20Fields.frac, if_pos hon,
    C20Frame.fraction]
  rfl

theorem c20Synth_clock_le_iff (h : φ.Fractional) (d d' : U16 × U16) :
    (c20Synth φ).clock d ≤ (c20Synth φ).clock d' ↔ φ.fraction d ≤ φ.fraction d' := by
  rw [c20Synth_clock h, c20Synth_clock h, mul_le_mul_iff_right₀ φ.fields.unit_pos, add_le_add_iff_left]

theorem c20FracScaled_synth (h : φ.Fractional) (d : U16 × U16) :
    c20FracScaled φ.fields ((c20Synth φ).clock d) = φ.fraction d := by
  rw [c20FracScaled_eq, c20Synth_clock h, mul_div_cancel_left₀ _ φ.fields.unit_pos.ne']
  ring

/-- The fraction of the setting chosen, as long as the quotient fits. -/
theorem fraction_tune (hden : φ.fields.fracDen ≤ 65535)
    (h0 : 0 ≤ cround (c20FracScaled φ.fields x)) (h1 : cround (c20FracScaled φ.fields x) ≤ 65535) :
    φ.fraction ((c20Synth φ).tune x) = cround (c20FracScaled φ.fields x) +
      remainderFor (c20FracScaled φ.fields x) φ.fields.fracDen / φ.fields.fracDen := by
  obtain ⟨hquot, hrem⟩ := c20DividersOf_spec h0 h1 hden
  unfold C20Frame.fraction c20Synth c20FeedbackDividers
  dsimp only
  rw [← hquot, ← hrem]
  push_cast
  rfl

theorem fraction_mul_den (φ : C20Frame) (h : φ.fields.fracDen ≠ 0) (d : U16 × U16) :
    φ.fraction d * φ.fields.fracDen = ((d.1.toNat * φ.fields.fracDen + d.2.toNat : ℤ) : ℚ) := by
  have : (φ.fields.fracDen : ℚ) ≠ 0 := by exact_mod_cast h
  unfold C20Frame.fraction
  push_cast
  field_simp

theorem c20Synth_clock_le_tune (h : φ.Fractional) (hden : φ.fields.fracDen ≤ 65535)
    (h0 : 0 ≤ cround (c20FracScaled φ.fields x)) (h1 : cround (c20FracScaled φ.fields x) ≤ 65535)
    (hx : (c20Synth φ).clock d ≤ x) :
    (c20Synth φ).clock d ≤ (c20Synth φ).clock ((c20Synth φ).tune x) := by
  have hdpos : (0 : ℚ) < φ.fields.fracDen := by exact_mod_cast Nat.pos_of_ne_zero h.2.2
  have hX := (c20FracScaled_mono φ.fields).monotone hx
  rw [c20FracScaled_synth h] at hX
  rw [c20Synth_clock_le_iff h, fraction_tune hden h0 h1]
  generalize c20FracScaled φ.fields x = X at h0 h1 hX
  unfold remainderFor
  split
  · have hle : (d.1.toNat * φ.fields.fracDen + d.2.toNat - cround X * φ.fields.fracDen : ℤ) ≤
        cround ((X - cround X) * φ.fields.fracDen) := by
      apply le_cround
      have := mul_le_mul_of_nonneg_right hX hdpos.le
      rw [fraction_mul_den φ h.2.2] at this
      push_cast at this ⊢
      linarith
    have hle' : φ.fraction d * φ.fields.fracDen - cround X * φ.fields.fracDen ≤
        cround ((X - cround X) * φ.fields.fracDen) := by
      rw [fraction_mul_den φ h.2.2]
      exact_mod_cast hle
    rw [← sub_le_iff_le_add', le_div_iff₀ hdpos]
    linarith
  · rename_i hneg
    rw [not_le, cround_neg_iff] at hneg
    have hup : X < cround X := by
      by_contra hge
      have : 0 ≤ (X - cround X) * φ.fields.fracDen := mul_nonneg (by linarith) hdpos.le
      linarith
    have : (0 : ℚ) ≤ ((65535 : ℤ) : ℚ) / φ.fields.fracDen := by positivity
    linarith

/-- Below the clock of `d`, a remainder that fits stays below; one that does not
is replaced by the largest one. -/
theorem c20Synth_tune_le_clock_iff (h : φ.Fractional) (hden : φ.fields.fracDen ≤ 65535)
    (h0 : 0 ≤ cround (c20FracScaled φ.fields x)) (h1 : cround (c20FracScaled φ.fields x) ≤ 65535)
    (hx : x ≤ (c20Synth φ).clock d) :
    (c20Synth φ).clock ((c20Synth φ).tune x) ≤ (c20Synth φ).clock d ↔
      RemainderFits (c20FracScaled φ.fields x) φ.fields.fracDen ∨
        ⌈c20FracScaled φ.fields x⌉ + 65535 / φ.fields.fracDen ≤ φ.fraction d := by
  have hdpos : (0 : ℚ) < φ.fields.fracDen := by exact_mod_cast Nat.pos_of_ne_zero h.2.2
  have hX := (c20FracScaled_mono φ.fields).monotone hx
  rw [c20FracScaled_synth h] at hX
  rw [c20Synth_clock_le_iff h, fraction_tune hden h0 h1]
  generalize c20FracScaled φ.fields x = X at h0 h1 hX
  have hhalf : -(1 / 2) < X := by
    by_contra hle
    exact absurd ((cround_neg_iff X).mpr (not_lt.mp hle)) (not_lt.mpr h0)
  rw [remainderFits_iff hhalf]
  unfold remainderFor
  split
  · rename_i hfits
    refine iff_of_true ?_ (Or.inl hfits)
    have hle : cround ((X - cround X) * φ.fields.fracDen) ≤
        (d.1.toNat * φ.fields.fracDen + d.2.toNat - cround X * φ.fields.fracDen : ℤ) := by
      apply cround_le
      have := mul_le_mul_of_nonneg_right hX hdpos.le
      rw [fraction_mul_den φ h.2.2] at this
      push_cast at this ⊢
      linarith
    have hle' : cround ((X - cround X) * φ.fields.fracDen) ≤
        φ.fraction d * φ.fields.fracDen - cround X * φ.fields.fracDen := by
      rw [fraction_mul_den φ h.2.2]
      exact_mod_cast hle
    rw [← le_sub_iff_add_le', div_le_iff₀ hdpos]
    linarith
  · rename_i hneg
    have hceil : (⌈X⌉ : ℚ) = cround X := by
      have hfract : 1 / 2 ≤ Int.fract X := by
        by_contra hlt
        exact hneg ((remainderFits_iff hhalf _).mp (Or.inl (not_le.mp hlt)))
      have hne : Int.fract X ≠ 0 := by linarith
      have hfloor := Int.self_sub_floor X
      rw [cround_of_le_fract hhalf hfract, Int.ceil_eq_add_one_sub_fract hne]
      push_cast
      linarith
    rw [hceil, or_iff_right hneg]
    norm_num

end Direction

/-! ### The registers -/

def c20Cntx (port : ℕ) (hw : Hw) : Bool := (hw.vdr port 0 phyC20VdrCustomSerdesRate).getLsbD 0

def c20Tx0 (port : ℕ) (isBMG : Bool) (hw : Hw) : U16 :=
  hw.sram port (c20GetAddr (c20TxCntxCfg isBMG (c20Cntx port hw)) 0)

def c20HwMpll (port : ℕ) (isBMG : Bool) (hw : Hw) : Mpll := c20Mpll (c20Tx0 port isBMG hw)

def c20StateAddr (isBMG cntx : Bool) (mpll : Mpll) (i : ℕ) : U16 :=
  if i = 9 then rawcmnDigCfg9 mpll
  else if i = 8 then rawcmnDigCfg8 mpll
  else c20GetAddr (c20MpllCfg mpll isBMG cntx) i

def c20State (port : ℕ) (isBMG : Bool) (hw : Hw) (i : ℕ) : U16 :=
  hw.sram port (c20StateAddr isBMG (c20Cntx port hw) (c20HwMpll port isBMG hw) i)

/-- The fields as `read_registers` leaves them, from those of an earlier read. -/
def c20HwFields (port : ℕ) (isBMG : Bool) (hw : Hw) (f : C20Fields) : C20Fields :=
  c20DecodeFields { f with txRate := getBits (c20Tx0 port isBMG hw) 2 0 } (c20State port isBMG hw)
    (c20HwMpll port isBMG hw)

theorem c20DecodeFields_congr (f : C20Fields) {s t : ℕ → U16} (h : ∀ i < 10, s i = t i) (m : Mpll) :
    c20DecodeFields f s m = c20DecodeFields f t m := by
  cases m <;>
    simp only [c20DecodeFields, h 0 (by norm_num), h 1 (by norm_num), h 6 (by norm_num),
      h 7 (by norm_num), h 8 (by norm_num), h 9 (by norm_num)]

/-- Quotient and remainder aside, the fields do not depend on their registers. -/
theorem c20DecodeFields_withDividers_congr (f : C20Fields) {s t : ℕ → U16}
    (h : ∀ i < 8, s i = t i) (m : Mpll) (q r : ℕ) :
    (c20DecodeFields f s m).withDividers q r m = (c20DecodeFields f t m).withDividers q r m := by
  cases m <;>
    simp only [c20DecodeFields, C20Fields.withDividers, h 0 (by norm_num), h 1 (by norm_num),
      h 6 (by norm_num), h 7 (by norm_num)]

structure C20SameHw (port : ℕ) (hw hw' : Hw) : Prop where
  sram : hw'.sram = hw.sram
  rate : hw'.vdr port 0 phyC20VdrCustomSerdesRate = hw.vdr port 0 phyC20VdrCustomSerdesRate

theorem C20SameHw.readSram {port : ℕ} {hw hw' : Hw} (h : C20SameHw port hw hw') (addr : U16) :
    C20SameHw port hw (hw'.readSram port addr) where
  sram := (hw'.readSram_sram port addr).trans h.sram
  rate := (hw'.readSram_vdr port addr (by unfold phyC20VdrCustomSerdesRate; norm_num) 0).trans h.rate

section Same

variable {port : ℕ} {isBMG : Bool} {hw hw' : Hw} (h : C20SameHw port hw hw')
include h

theorem C20SameHw.cntx : c20Cntx port hw' = c20Cntx port hw := by
  unfold c20Cntx
  rw [h.rate]

theorem C20SameHw.tx0 : c20Tx0 port isBMG hw' = c20Tx0 port isBMG hw := by
  unfold c20Tx0
  rw [h.cntx, h.sram]

theorem C20SameHw.mpll : c20HwMpll port isBMG hw' = c20HwMpll port isBMG hw := by
  unfold c20HwMpll
  rw [h.tx0]

theorem C20SameHw.state : c20State port isBMG hw' = c20State port isBMG hw := by
  funext i
  unfold c20State
  rw [h.cntx, h.mpll, h.sram]

theorem C20SameHw.fields (f : C20Fields) :
    c20HwFields port isBMG hw' f = c20HwFields port isBMG hw f := by
  unfold c20HwFields
  rw [h.tx0, h.state, h.mpll]

end Same

/-! ### Runs -/

section Runs

variable {v : World C20PhyReg Hw → Option (World C20PhyReg Hw)} {w : World C20PhyReg Hw}
  {port : ℕ} {isBMG : Bool}

def C20PhyReg.load (r : C20PhyReg) (i : ℕ) (value : U16) : C20PhyReg :=
  { r with
    pllStateOrig := Function.update r.pllStateOrig i value
    pllStateMod := Function.update r.pllStateMod i value }

theorem c20_readTx_run (cntx : Bool) (i : ℕ) :
    (C20.readTx port isBMG cntx i).run (regExec v) w =
      let addr := c20GetAddr (c20TxCntxCfg isBMG cntx) i
      let tx := Function.update w.obj.reg.tx i (w.hw.sram port addr)
      some ((), w.put (w.hw.readSram port addr) { w.obj.reg with
        tx := tx, fields := { w.obj.reg.fields with txRate := getBits (tx 0) 2 0 } }) := by
  unfold C20.readTx
  rw [Prog.run_bind_of (run_intelC20SramRead _ _), Prog.run_bind_of (run_modReg _), run_modReg]
  rfl

theorem c20_readCmn_run (cntx : Bool) (i : ℕ) :
    (C20.readCmn port isBMG cntx i).run (regExec v) w =
      let addr := c20GetAddr (c20CmnCntxCfg isBMG cntx) i
      some ((), w.put (w.hw.readSram port addr) { w.obj.reg with
        cmn := Function.update w.obj.reg.cmn i (w.hw.sram port addr) }) := by
  unfold C20.readCmn
  rw [Prog.run_bind_of (run_intelC20SramRead _ _), run_modReg]
  rfl

theorem c20_readState_run (i : ℕ) (addr : U16) :
    (C20.readState port i addr).run (regExec v) w =
      some ((), w.put (w.hw.readSram port addr) (w.obj.reg.load i (w.hw.sram port addr))) := by
  unfold C20.readState
  rw [Prog.run_bind_of (run_intelC20SramRead _ _), run_modReg]
  rfl

variable (port isBMG) in
theorem c20_readTxs_run : ∃ hw reg,
    (Prog.forEach (C20.readTx port isBMG (c20Cntx port w.hw)) (List.range 3)).run (regExec v) w =
        some ((), w.put hw reg) ∧
      C20SameHw port w.hw hw ∧ reg.tx 0 = c20Tx0 port isBMG w.hw ∧
      reg.fields = { w.obj.reg.fields with txRate := getBits (c20Tx0 port isBMG w.hw) 2 0 } := by
  have hloop := Prog.run_forEach_range (e := regExec v)
    (b := C20.readTx port isBMG (c20Cntx port w.hw))
    (I := fun i w' => ∃ hw reg, w' = w.put hw reg ∧ C20SameHw port w.hw hw ∧
      (0 < i → reg.tx 0 = c20Tx0 port isBMG w.hw) ∧
      { reg.fields with txRate := 0 } = { w.obj.reg.fields with txRate := 0 } ∧
      (0 < i → reg.fields.txRate = getBits (c20Tx0 port isBMG w.hw) 2 0)) ?_
    ⟨w.hw, w.obj.reg, rfl, ⟨rfl, rfl⟩, by simp, rfl, by simp⟩ 3
  · obtain ⟨_, hrun, hw, reg, rfl, hsame, htx, hfields, hrate⟩ := hloop
    refine ⟨hw, reg, hrun, hsame, htx (by norm_num), ?_⟩
    rw [← hrate (by norm_num)]
    simpa using congrArg (fun f : C20Fields => { f with txRate := reg.fields.txRate }) hfields
  · rintro i _ ⟨hw, reg, rfl, hsame, htx, hfields, hrate⟩
    refine ⟨_, c20_readTx_run _ _, _, _, rfl, hsame.readSram _, fun _ => ?_, ?_, fun _ => ?_⟩
    · rcases Nat.eq_zero_or_pos i with rfl | hi
      · simp [c20Tx0, hsame.sram]
      · simp [Function.update_of_ne hi.ne, htx hi]
    · exact hfields
    · rcases Nat.eq_zero_or_pos i with rfl | hi
      · simp [c20Tx0, hsame.sram]
      · simp [Function.update_of_ne hi.ne, htx hi]

variable (port isBMG) in
/-- The common registers, which nothing else uses. -/
theorem c20_readCmns_run (cntx : Bool) : ∃ hw reg,
    (Prog.forEach (C20.readCmn port isBMG cntx) (List.range 4)).run (regExec v) w =
        some ((), w.put hw reg) ∧
      C20SameHw port w.hw hw ∧ reg.tx = w.obj.reg.tx ∧ reg.fields = w.obj.reg.fields := by
  have hloop := Prog.run_forEach_range (e := regExec v) (b := C20.readCmn port isBMG cntx)
    (I := fun _ w' => ∃ hw reg, w' = w.put hw reg ∧ C20SameHw port w.hw hw ∧
      reg.tx = w.obj.reg.tx ∧ reg.fields = w.obj.reg.fields) ?_
    ⟨w.hw, w.obj.reg, rfl, ⟨rfl, rfl⟩, rfl, rfl⟩ 4
  · obtain ⟨_, hrun, hw, reg, rfl, hsame, htx, hfields⟩ := hloop
    exact ⟨hw, reg, hrun, hsame, htx, hfields⟩
  · rintro i _ ⟨hw, reg, rfl, hsame, htx, hfields⟩
    exact ⟨_, c20_readCmn_run _ _, _, _, rfl, hsame.readSram _, htx, hfields⟩

def C20PhyReg.Holds (r : C20PhyReg) (n : ℕ) (state : ℕ → U16) : Prop :=
  ∀ i < n, r.pllStateOrig i = state i ∧ r.pllStateMod i = state i

variable (port isBMG) in
theorem c20_readConfig_run (cntx : Bool) (m : Mpll) : ∃ hw reg,
    (Prog.forEach (fun i => C20.readState port i (c20GetAddr (c20MpllCfg m isBMG cntx) i))
        (List.range 10)).run (regExec v) w = some ((), w.put hw reg) ∧
      C20SameHw port w.hw hw ∧ reg.tx = w.obj.reg.tx ∧ reg.fields = w.obj.reg.fields ∧
      reg.Holds 10 fun i => w.hw.sram port (c20GetAddr (c20MpllCfg m isBMG cntx) i) := by
  have hloop := Prog.run_forEach_range (e := regExec v)
    (b := fun i => C20.readState port i (c20GetAddr (c20MpllCfg m isBMG cntx) i))
    (I := fun n w' => ∃ hw reg, w' = w.put hw reg ∧ C20SameHw port w.hw hw ∧
      reg.tx = w.obj.reg.tx ∧ reg.fields = w.obj.reg.fields ∧
      reg.Holds n fun i => w.hw.sram port (c20GetAddr (c20MpllCfg m isBMG cntx) i)) ?_
    ⟨w.hw, w.obj.reg, rfl, ⟨rfl, rfl⟩, rfl, rfl, fun i hi => absurd hi (Nat.not_lt_zero i)⟩ 10
  · obtain ⟨_, hrun, hw, reg, rfl, hsame, htx, hfields, hstate⟩ := hloop
    exact ⟨hw, reg, hrun, hsame, htx, hfields, hstate⟩
  · rintro n _ ⟨hw, reg, rfl, hsame, htx, hfields, hstate⟩
    refine ⟨_, c20_readState_run _ _, _, _, rfl, hsame.readSram _, htx, hfields, fun i hi => ?_⟩
    rcases Nat.lt_succ_iff_lt_or_eq.mp hi with hlt | rfl
    · simpa [C20PhyReg.load, Function.update_of_ne hlt.ne] using hstate i hlt
    · simp [C20PhyReg.load, hsame.sram]

theorem C20PhyReg.Holds.load {r : C20PhyReg} {n : ℕ} {state : ℕ → U16} (h : r.Holds n state) (j : ℕ)
    (value : U16) : (r.load j value).Holds n (Function.update state j value) := by
  intro i hi
  by_cases hij : i = j
  · subst hij
    simp [C20PhyReg.load]
  · simpa [C20PhyReg.load, Function.update_of_ne hij] using h i hi

variable (port isBMG) in
/-- `read_registers` loads the hardware's PLL registers and decodes their fields. -/
theorem c20_readRegisters_run : ∃ hw reg,
    (C20.readRegisters port isBMG).run (regExec v) w = some ((), w.put hw reg) ∧
      C20SameHw port w.hw hw ∧ reg.tx 0 = c20Tx0 port isBMG w.hw ∧
      reg.Holds 10 (c20State port isBMG w.hw) ∧
      reg.fields = c20HwFields port isBMG w.hw w.obj.reg.fields := by
  obtain ⟨hw₁, reg₁, hrun₁, hsame₁, htx₁, hfields₁⟩ :=
    c20_readTxs_run port isBMG (v := v) (w := w)
  obtain ⟨hw₂, reg₂, hrun₂, hsame₂, htx₂, hfields₂⟩ :=
    c20_readCmns_run port isBMG (v := v) (w := w.put hw₁ reg₁)
      (c20Cntx port w.hw)
  have htx : reg₂.tx 0 = c20Tx0 port isBMG w.hw := by rw [htx₂, World.put_reg, htx₁]
  obtain ⟨hw₃, reg₃, hrun₃, hsame₃, htx₃, hfields₃, hstate₃⟩ :=
    c20_readConfig_run port isBMG (v := v) (w := (w.put hw₁ reg₁).put hw₂ reg₂)
      (c20Cntx port w.hw) (c20Mpll (reg₂.tx 0))
  simp only [World.put_put, World.put_hw, World.put_reg] at *
  have hsram₃ : hw₃.sram = w.hw.sram := by rw [hsame₃.sram, hsame₂.sram, hsame₁.sram]
  have hrate₃ : hw₃.vdr port 0 phyC20VdrCustomSerdesRate = w.hw.vdr port 0 phyC20VdrCustomSerdesRate := by
    rw [hsame₃.rate, hsame₂.rate, hsame₁.rate]
  have hmpll : c20Mpll (reg₂.tx 0) = c20HwMpll port isBMG w.hw := congrArg c20Mpll htx
  set m := c20Mpll (reg₂.tx 0)
  have hholds : ((reg₃.load 8 (w.hw.sram port (rawcmnDigCfg8 m))).load 9
      (w.hw.sram port (rawcmnDigCfg9 m))).Holds 10 (c20State port isBMG w.hw) := by
    have hload := (hstate₃.load 8 (w.hw.sram port (rawcmnDigCfg8 m))).load 9
      (w.hw.sram port (rawcmnDigCfg9 m))
    intro i hi
    have hvalue : c20State port isBMG w.hw i = Function.update (Function.update
        (fun i => hw₂.sram port (c20GetAddr (c20MpllCfg m isBMG (c20Cntx port w.hw)) i)) 8
        (w.hw.sram port (rawcmnDigCfg8 m))) 9 (w.hw.sram port (rawcmnDigCfg9 m)) i := by
      rw [c20State, ← hmpll]
      simp only [c20StateAddr, Function.update_apply, hsame₂.sram, hsame₁.sram]
      split_ifs <;> rfl
    rw [hvalue]
    exact hload i hi
  refine ⟨(hw₃.readSram port (rawcmnDigCfg8 m)).readSram port (rawcmnDigCfg9 m), { (reg₃.load 8
    (w.hw.sram port (rawcmnDigCfg8 m))).load 9 (w.hw.sram port (rawcmnDigCfg9 m)) with
      fields := c20HwFields port isBMG w.hw w.obj.reg.fields }, ?_, ?_, ?_, hholds, rfl⟩
  · unfold C20.readRegisters
    rw [Prog.run_bind_of (run_intelCx0Read _ _)]
    dsimp only
    rw [show (w.hw.vdr port 0 phyC20VdrCustomSerdesRate).getLsbD 0 = c20Cntx port w.hw from rfl,
      Prog.run_bind_of hrun₁, Prog.run_bind_of hrun₂, Prog.run_bind_of run_getObj]
    unfold C20.readMpll
    rw [show c20Mpll ((w.put hw₂ reg₂).obj.reg.tx 0) = m from rfl, Prog.run_bind_of hrun₃,
      Prog.run_bind_of (c20_readState_run _ _), Prog.run_bind_of (c20_readState_run _ _), run_modReg]
    simp only [World.put_hw, World.put_reg, World.put_put, Hw.readSram_sram, hsram₃]
    rw [c20HwFields, ← hmpll, ← c20DecodeFields_congr _ (fun i hi => (hholds i hi).1)]
    simp only [World.put, C20PhyReg.load, hfields₃, hfields₂, hfields₁]
  · exact (C20SameHw.readSram ⟨hsram₃, hrate₃⟩ _).readSram _
  · show reg₃.tx 0 = _
    rw [htx₃, htx]

def c20Write (port : ℕ) (hw : Hw) (mpll : Mpll) (quot rem : U16) : Hw :=
  ((hw.writeSram port (rawcmnDigCfg8 mpll) quot).writeSram port (rawcmnDigCfg9 mpll) rem).writeSram
    port (rawcmnDigFracUpdate mpll) 1

theorem c20_programMmio_run (mod : Bool) :
    (C20.programMmio port mod).run (regExec v) w =
      some (0, w.put (c20Write port w.hw (c20Mpll (w.obj.reg.tx 0)) (w.obj.reg.value mod 8)
        (w.obj.reg.value mod 9)) w.obj.reg) := by
  simp only [C20.programMmio, Prog.run_bind, run_getObj, Option.bind_some, run_intelC20SramWrite,
    Prog.pure_def, Prog.run_pure, c20Write, World.put]

end Runs

/-! ### The dividers in the SRAM -/

theorem c20Write_sram (port : ℕ) (hw : Hw) (m : Mpll) (quot rem addr : U16)
    (h : addr ≠ rawcmnDigFracUpdate m) :
    (c20Write port hw m quot rem).sram port addr =
      if addr = rawcmnDigCfg9 m then rem
      else if addr = rawcmnDigCfg8 m then quot else hw.sram port addr := by
  simp only [c20Write, Hw.writeSram_sram, Function.update_self, Function.update_of_ne h,
    Function.update_apply]

theorem c20Write_rate (port : ℕ) (hw : Hw) (m : Mpll) (quot rem : U16) :
    (c20Write port hw m quot rem).vdr port 0 phyC20VdrCustomSerdesRate =
      hw.vdr port 0 phyC20VdrCustomSerdesRate := by
  unfold c20Write
  rw [Hw.writeSram_vdr _ _ _ _ (by unfold phyC20VdrCustomSerdesRate; norm_num),
    Hw.writeSram_vdr _ _ _ _ (by unfold phyC20VdrCustomSerdesRate; norm_num),
    Hw.writeSram_vdr _ _ _ _ (by unfold phyC20VdrCustomSerdesRate; norm_num)]

/-- The context registers lie above those that are written. -/
theorem le_c20GetAddr {platform : U16} {i : ℕ} (hp : 0x200 + 10 ≤ platform.toNat) (hi : i < 10) :
    0x200 ≤ (c20GetAddr platform i).toNat := by
  unfold c20GetAddr
  rw [BitVec.toNat_sub, BitVec.toNat_ofNat]
  have := platform.isLt
  omega

theorem le_c20TxCntxCfg (isBMG cntx : Bool) : 0x200 + 10 ≤ (c20TxCntxCfg isBMG cntx).toNat := by
  revert isBMG cntx
  decide

theorem le_c20MpllCfg (m : Mpll) (isBMG cntx : Bool) :
    0x200 + 10 ≤ (c20MpllCfg m isBMG cntx).toNat := by
  revert isBMG cntx
  cases m <;> decide

theorem c20_written_lt (m : Mpll) : (rawcmnDigCfg8 m).toNat < 0x200 ∧
    (rawcmnDigCfg9 m).toNat < 0x200 ∧ (rawcmnDigFracUpdate m).toNat < 0x200 ∧
    rawcmnDigCfg8 m ≠ rawcmnDigCfg9 m ∧ rawcmnDigCfg8 m ≠ rawcmnDigFracUpdate m ∧
    rawcmnDigCfg9 m ≠ rawcmnDigFracUpdate m := by
  cases m <;> decide

/-- A write of the dividers leaves the context alone. -/
theorem c20Write_context (port : ℕ) (hw : Hw) (m : Mpll) (quot rem : U16) {addr : U16}
    (h : 0x200 ≤ addr.toNat) : (c20Write port hw m quot rem).sram port addr = hw.sram port addr := by
  obtain ⟨h8, h9, hupdate, -⟩ := c20_written_lt m
  rw [c20Write_sram _ _ _ _ _ _ (by rintro rfl; omega), if_neg (by rintro rfl; omega),
    if_neg (by rintro rfl; omega)]

section Write

variable (port : ℕ) (isBMG : Bool) (hw : Hw) (m : Mpll) (quot rem : U16)

theorem c20Cntx_write : c20Cntx port (c20Write port hw m quot rem) = c20Cntx port hw := by
  unfold c20Cntx
  rw [c20Write_rate]

theorem c20Tx0_write : c20Tx0 port isBMG (c20Write port hw m quot rem) = c20Tx0 port isBMG hw := by
  unfold c20Tx0
  rw [c20Cntx_write, c20Write_context _ _ _ _ _ (le_c20GetAddr (le_c20TxCntxCfg _ _) (by norm_num))]

theorem c20HwMpll_write :
    c20HwMpll port isBMG (c20Write port hw m quot rem) = c20HwMpll port isBMG hw := by
  unfold c20HwMpll
  rw [c20Tx0_write]

theorem c20State_write {i : ℕ} (hi : i < 8) :
    c20State port isBMG (c20Write port hw m quot rem) i = c20State port isBMG hw i := by
  unfold c20State c20StateAddr
  rw [c20Cntx_write, c20HwMpll_write, if_neg (by omega), if_neg (by omega),
    c20Write_context _ _ _ _ _ (le_c20GetAddr (le_c20MpllCfg _ _ _) (by omega))]

theorem c20State_write_dividers :
    c20State port isBMG (c20Write port hw (c20HwMpll port isBMG hw) quot rem) 8 = quot ∧
      c20State port isBMG (c20Write port hw (c20HwMpll port isBMG hw) quot rem) 9 = rem := by
  obtain ⟨-, -, -, h89, h8, h9⟩ := c20_written_lt (c20HwMpll port isBMG hw)
  unfold c20State
  rw [c20HwMpll_write]
  constructor
  · rw [show c20StateAddr isBMG _ (c20HwMpll port isBMG hw) 8 = rawcmnDigCfg8 _ from rfl,
      c20Write_sram _ _ _ _ _ _ h8, if_neg h89, if_pos rfl]
  · rw [show c20StateAddr isBMG _ (c20HwMpll port isBMG hw) 9 = rawcmnDigCfg9 _ from rfl,
      c20Write_sram _ _ _ _ _ _ h9, if_pos rfl]

end Write

/-! ### The class -/

/-- The frame of a C20 PHY: what the fields are apart from quotient and remainder. -/
def c20FrameOf (port : ℕ) (isBMG : Bool) (hw : Hw) (f : C20Fields) : C20Frame where
  mpll := c20HwMpll port isBMG hw
  fields := (c20HwFields port isBMG hw f).withDividers 0 0 (c20HwMpll port isBMG hw)

theorem c20FrameOf_fracDen_le (port : ℕ) (isBMG : Bool) (hw : Hw) (f : C20Fields)
    (h : (c20FrameOf port isBMG hw f).Fractional) :
    (c20FrameOf port isBMG hw f).fields.fracDen ≤ 65535 := by
  have hb : c20HwMpll port isBMG hw = .b := h.1
  have := (c20State port isBMG hw 7).isLt
  simp only [c20FrameOf, c20HwFields, hb, c20DecodeFields, C20Fields.withDividers]
  omega

theorem c20FrameOf_multiplier_lt (port : ℕ) (isBMG : Bool) (hw : Hw) (f : C20Fields) :
    (c20FrameOf port isBMG hw f).fields.multiplier < 4096 := by
  unfold c20FrameOf c20HwFields
  cases c20HwMpll port isBMG hw <;> exact getBits_lt _ 11 0

/-- The object decodes the PLL that is in use, with the fields in the hardware. -/
structure C20Cached (port : ℕ) (isBMG : Bool) (hw : Hw) (reg : C20PhyReg) : Prop where
  mpll : c20Mpll (reg.tx 0) = c20HwMpll port isBMG hw
  fields : reg.fields.withDividers 0 0 (c20HwMpll port isBMG hw) =
    (c20FrameOf port isBMG hw reg.fields).fields

structure C20Fresh (port : ℕ) (isBMG : Bool) (hw : Hw) (reg : C20PhyReg) : Prop where
  tx : reg.tx 0 = c20Tx0 port isBMG hw
  holds : reg.Holds 10 (c20State port isBMG hw)
  fields : reg.fields = c20HwFields port isBMG hw reg.fields

theorem C20Fresh.cached {port : ℕ} {isBMG : Bool} {hw : Hw} {reg : C20PhyReg}
    (h : C20Fresh port isBMG hw reg) : C20Cached port isBMG hw reg where
  mpll := congrArg c20Mpll h.tx
  fields := congrArg (fun f : C20Fields => f.withDividers 0 0 (c20HwMpll port isBMG hw)) h.fields

/-- Decoding twice is decoding once. -/
theorem c20HwFields_idem (port : ℕ) (isBMG : Bool) (hw : Hw) (f : C20Fields) :
    c20HwFields port isBMG hw (c20HwFields port isBMG hw f) = c20HwFields port isBMG hw f := by
  unfold c20HwFields
  cases c20HwMpll port isBMG hw <;> rfl

theorem c20HwFields_dividers (port : ℕ) (isBMG : Bool) (hw : Hw) (f : C20Fields) :
    (c20HwFields port isBMG hw f).withDividers (c20State port isBMG hw 8).toNat
        (c20State port isBMG hw 9).toNat (c20HwMpll port isBMG hw) =
      c20HwFields port isBMG hw f := by
  unfold c20HwFields
  cases c20HwMpll port isBMG hw <;> rfl

theorem c20FrameOf_write (port : ℕ) (isBMG : Bool) (hw : Hw) (m : Mpll) (quot rem : U16)
    (f : C20Fields) : c20FrameOf port isBMG (c20Write port hw m quot rem) f =
      c20FrameOf port isBMG hw f := by
  unfold c20FrameOf c20HwFields
  rw [c20HwMpll_write, c20Tx0_write, c20DecodeFields_withDividers_congr _
    (fun i hi => c20State_write port isBMG hw m quot rem hi)]

def c20Div (port : ℕ) (isBMG : Bool) (hw : Hw) : U16 × U16 :=
  (c20State port isBMG hw 8, c20State port isBMG hw 9)

/-- A C20 PHY refines its synthesizer; the object decodes its copy of the fields. -/
def c20Tunes (port : ℕ) (isBMG : Bool) : Tunes (c20 port isBMG) C20Frame (U16 × U16) where
  synth := c20Synth
  frame hw reg := c20FrameOf port isBMG hw reg.fields
  div := c20Div port isBMG
  admits _ := True
  cached := C20Cached port isBMG
  fresh := C20Fresh port isBMG
  cached_of_fresh := C20Fresh.cached
  range_ordConnected _ := Set.ordConnected_univ
  read v w := by
    obtain ⟨hw, reg, hrun, hsame, htx, hholds, hfields⟩ :=
      c20_readRegisters_run port isBMG (v := v) (w := w)
    refine ⟨hw, reg, hrun, ⟨htx.trans hsame.tx0.symm, ?_, ?_⟩, ?_, ?_, Iff.rfl⟩
    · rwa [hsame.state]
    · rw [hsame.fields, hfields, c20HwFields_idem]
    · unfold c20FrameOf
      rw [hsame.mpll, hsame.fields, hfields, c20HwFields_idem]
    · unfold c20Div
      rw [hsame.state]
  clock v w hfresh _ := by
    show C20.calculatePllClock.run (regExec v) w = _
    unfold C20.calculatePllClock
    rw [Prog.run_bind_of run_getObj]
    simp only [c20Synth, c20FrameOf, c20Div, C20Fields.withDividers_withDividers,
      c20HwFields_dividers, Prog.pure_def, Prog.run_pure]
    rw [← hfresh.fields]
  admits_of_clock_pos _ _ _ _ _ _ _ := trivial
  step v w x _ hcached _ := by
    have hdividers : c20FeedbackDividers w.obj.reg.fields x =
        (c20Synth (c20FrameOf port isBMG w.hw w.obj.reg.fields)).tune x := by
      show _ = c20FeedbackDividers (c20FrameOf port isBMG w.hw w.obj.reg.fields).fields x
      rw [← hcached.fields, c20FeedbackDividers_withDividers]
    generalize (c20Synth (c20FrameOf port isBMG w.hw w.obj.reg.fields)).tune x = d at hdividers
    refine ⟨c20Write port w.hw (c20HwMpll port isBMG w.hw) d.1 d.2, { w.obj.reg with
      pllStateMod := Function.update (Function.update w.obj.reg.pllStateMod 8 d.1) 9 d.2 },
      ?_, ?_, trivial, ⟨?_, ?_⟩, ?_, ?_⟩
    · show (C20.calculateFeedbackDividers x).run (regExec v) w = _
      unfold C20.calculateFeedbackDividers
      rw [Prog.run_bind_of run_getObj, hdividers]
      rfl
    · show (C20.programMmio port true).run (regExec v) _ = _
      rw [c20_programMmio_run, ← hcached.mpll]
      rfl
    · rw [c20HwMpll_write]
      exact hcached.mpll
    · rw [c20HwMpll_write, c20FrameOf_write]
      exact hcached.fields
    · exact c20FrameOf_write _ _ _ _ _ _ _
    · obtain ⟨h8, h9⟩ := c20State_write_dividers port isBMG w.hw d.1 d.2
      exact Prod.ext h8 h9

end Genlock.Vsyncalter
