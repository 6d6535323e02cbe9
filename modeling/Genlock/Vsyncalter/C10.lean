import Genlock.Vsyncalter.Tuning

/-! # C10 PHY -/

namespace Genlock.Vsyncalter

open CArith

/-- `pll_state_orig` and `pll_state_mod`, of `C10_PLL_REG_COUNT` bytes each. -/
structure C10PhyReg where
  pllStateOrig : ℕ → U8
  pllStateMod : ℕ → U8

/-- The byte that `program_mmio(mod)` writes. -/
def C10PhyReg.value (r : C10PhyReg) (mod : Bool) (i : ℕ) : U8 :=
  if mod then r.pllStateMod i else r.pllStateOrig i

def c10PllRegCount : ℕ := 20

/-! ### Indices of the PLL registers -/

def c10PllRegMultiplier : ℕ := 3
def c10PllRegDenLow : ℕ := 9
def c10PllRegDenHigh : ℕ := 10
def c10PllRegQuotLow : ℕ := 11
def c10PllRegQuotHigh : ℕ := 12
def c10PllRegRemLow : ℕ := 13
def c10PllRegRemHigh : ℕ := 14
def c10PllRegTxclkdiv : ℕ := 15

/-! ### Vendor registers -/

def phyC10VdrPll (idx : ℕ) : ℕ := 0xC00 + idx
def phyC10VdrControl (idx : ℕ) : ℕ := 0xC70 + idx - 1
def phyC10VdrCustomWidth : ℕ := 0xD02
def c10VdrCtrlMsgbusAccess : U8 := 4
def c10VdrCtrlMasterLane : U8 := 2
def c10VdrCtrlUpdateCfg : U8 := 1
def c10VdrCustomWidthMask : U8 := 3
def c10VdrCustomWidth810 : U8 := 0

/-! ## Dividers and clock -/

def refClkFreqKhz : ℚ := 38400

/-- What the clock is computed from, as decoded from the PLL registers. -/
structure C10Fields where
  txclkdiv : ℕ
  multiplier : ℕ
  den : ℕ
  rem : ℕ
deriving DecidableEq, Repr

def c10Fields (state : ℕ → U8) : C10Fields where
  txclkdiv := getBits (state c10PllRegTxclkdiv) 2 0
  multiplier := (getBits (state c10PllRegMultiplier) 3 0 * 256 + (state 2).toNat) / 2 + 16
  den := (word (state c10PllRegDenHigh) (state c10PllRegDenLow)).toNat
  rem := (word (state c10PllRegRemHigh) (state c10PllRegRemLow)).toNat

def c10Quot (state : ℕ → U8) : U16 :=
  word (state c10PllRegQuotHigh) (state c10PllRegQuotLow)

def C10Fields.denominator (f : C10Fields) : ℕ := 10 * 2 ^ (f.txclkdiv + 16)

/-- `DIV_ROUND_CLOSEST` of the fractional remainder, cut to an integer. -/
def C10Fields.remTerm (f : C10Fields) : ℕ := (38400 * f.rem + f.den / 2) / f.den

/-- `c10::calculate_pll_clock`; a zero denominator has no defined result. -/
def c10PllClock (f : C10Fields) (quot : U16) : Option ℚ :=
  if f.den = 0 then none
  else
    let numenator : ℕ := 38400 * (f.multiplier * 2 ^ 16 + quot.toNat) + f.remTerm
    some ((numenator : ℚ) / f.denominator)

/-- `c10::calculate_feedback_dividers`: the low 16 bits of a 64-bit computation. -/
def c10FeedbackDividers (f : C10Fields) (pllFreq : ℚ) : Option U16 :=
  if f.den = 0 then none
  else
    let temp := castU64 (pllFreq * f.denominator)
    let temp := temp - BitVec.ofNat 64 f.remTerm
    let temp := castU64 (temp.toNat / refClkFreqKhz)
    let temp := temp - BitVec.ofNat 64 (f.multiplier * 2 ^ 16)
    some (temp.setWidth 16)

/-! ## The class -/

namespace C10

variable (port : ℕ)

def readRegister (i : ℕ) : RegProg C10PhyReg Unit := do
  let value ← intelCx0Read port (phyC10VdrPll i)
  modReg fun r =>
    ⟨Function.update r.pllStateOrig i value, Function.update r.pllStateMod i value⟩

def readRegisters : RegProg C10PhyReg Unit :=
  Prog.forEach (readRegister port) (List.range c10PllRegCount)

def calculatePllClock : RegProg C10PhyReg ℚ := do
  let o ← getObj
  match c10PllClock (c10Fields o.reg.pllStateOrig) (c10Quot o.reg.pllStateOrig) with
  | none => .fail
  | some clock => return clock

def calculateFeedbackDividers (pllFreq : ℚ) : RegProg C10PhyReg ℤ := do
  let o ← getObj
  match c10FeedbackDividers (c10Fields o.reg.pllStateOrig) pllFreq with
  | none => .fail
  | some quot => do
      modReg fun r => { r with
        pllStateMod := Function.update r.pllStateMod c10PllRegQuotLow (lowByte quot) }
      modReg fun r => { r with
        pllStateMod := Function.update r.pllStateMod c10PllRegQuotHigh (highByte quot) }
      return 0

def programMmio (mod : Bool) : RegProg C10PhyReg ℤ := do
  intelCx0Rmw port .bothLanes (phyC10VdrControl 1) 0 c10VdrCtrlMsgbusAccess true
  intelCx0Rmw port .bothLanes phyC10VdrCustomWidth c10VdrCustomWidthMask c10VdrCustomWidth810 true
  intelCx0Rmw port .bothLanes (phyC10VdrControl 1) 0 c10VdrCtrlUpdateCfg true
  let o ← getObj
  intelCx0Write port .lane0 (phyC10VdrPll c10PllRegQuotLow) (o.reg.value mod c10PllRegQuotLow) true
  let o ← getObj
  intelCx0Write port .lane0 (phyC10VdrPll c10PllRegQuotHigh) (o.reg.value mod c10PllRegQuotHigh) true
  intelCx0Rmw port .lane0 (phyC10VdrControl 1) 0 (c10VdrCtrlMasterLane ||| c10VdrCtrlUpdateCfg) true
  return 0

end C10

def c10 (port : ℕ) : PhyClass C10PhyReg RegOp RegOp.Ans where
  readRegisters := C10.readRegisters port
  calculatePllClock := C10.calculatePllClock
  calculateFeedbackDividers := C10.calculateFeedbackDividers
  programMmio := C10.programMmio port

/-! ## The synthesizer of a C10 PHY -/

/-- Clock numerator with the quotient at `q`, which may lie outside its field. -/
def C10Fields.numenator (f : C10Fields) (q : ℤ) : ℤ :=
  38400 * (f.multiplier * 2 ^ 16 + q) + f.remTerm

/-- The quotient that the clock `x` needs, before it is cut to its field. -/
def C10Fields.quotFor (f : C10Fields) (x : ℚ) : ℤ :=
  (⌊x * f.denominator⌋ - f.remTerm) / 38400 - f.multiplier * 2 ^ 16

def c10Synth (f : C10Fields) : Synthesizer ℚ U16 where
  clock quot := (f.numenator quot.toNat : ℚ) / f.denominator
  tune x := BitVec.ofInt 16 (f.quotFor x)
  range := { x | (f.numenator 0 : ℚ) / f.denominator ≤ x ∧ x < (f.numenator 65536 : ℚ) / f.denominator }

theorem C10Fields.denominator_pos (f : C10Fields) : (0 : ℚ) < f.denominator := by
  unfold C10Fields.denominator
  positivity

theorem c10PllClock_eq {f : C10Fields} (hden : f.den ≠ 0) (quot : U16) :
    c10PllClock f quot = some ((c10Synth f).clock quot) := by
  unfold c10PllClock c10Synth C10Fields.numenator
  rw [if_neg hden]
  push_cast
  rfl

/-- The low half-word of the 64-bit computation, whose first difference does not wrap. -/
theorem quot_setWidth {T : BitVec 64} {r : ℕ} (hr : r ≤ T.toNat) (m : ℕ) :
    (castU64 ((T - BitVec.ofNat 64 r).toNat / refClkFreqKhz) - BitVec.ofNat 64 m).setWidth 16 =
      BitVec.ofInt 16 ((T.toNat - r) / 38400 - m) := by
  have hT := T.isLt
  have hsub : (T - BitVec.ofNat 64 r).toNat = T.toNat - r := by
    rw [BitVec.toNat_sub, BitVec.toNat_ofNat]
    omega
  have hdiv : ((T.toNat - r : ℕ) : ℚ) / refClkFreqKhz = ((T.toNat - r : ℕ) : ℤ) / (38400 : ℕ) := by
    unfold refClkFreqKhz
    push_cast
    rfl
  have hlt : ((T.toNat - r : ℕ) : ℚ) < 2 ^ 64 := by
    exact_mod_cast (Nat.sub_le T.toNat r).trans_lt hT
  have hquot : ((castU64 (((T.toNat - r : ℕ) : ℚ) / refClkFreqKhz)).toNat : ℤ) =
      ((T.toNat - r : ℕ) : ℤ) / 38400 := by
    rw [toNat_castU64 (by unfold refClkFreqKhz; positivity)
      ((div_le_self (by positivity) (by norm_num [refClkFreqKhz])).trans_lt hlt), hdiv,
      Rat.floor_intCast_div_natCast]
    rfl
  rw [hsub]
  generalize castU64 (((T.toNat - r : ℕ) : ℚ) / refClkFreqKhz) = A at hquot
  apply BitVec.eq_of_toNat_eq
  rw [BitVec.toNat_setWidth, BitVec.toNat_sub, BitVec.toNat_ofNat, BitVec.toNat_ofInt]
  have hA := A.isLt
  omega

/-- The computation of the source, as long as its 64-bit values stay in range. -/
theorem c10FeedbackDividers_eq {f : C10Fields} (hden : f.den ≠ 0) {x : ℚ}
    (h0 : (f.remTerm : ℤ) ≤ ⌊x * f.denominator⌋) (h1 : ⌊x * f.denominator⌋ < 2 ^ 64) :
    c10FeedbackDividers f x = some ((c10Synth f).tune x) := by
  have hx0 : 0 ≤ x * f.denominator :=
    Int.floor_nonneg.mp ((Int.natCast_nonneg f.remTerm).trans h0)
  have hlt : x * f.denominator < 2 ^ 64 := by exact_mod_cast Int.floor_lt.mp h1
  have hT : ((castU64 (x * f.denominator)).toNat : ℤ) = ⌊x * f.denominator⌋ :=
    toNat_castU64 hx0 hlt
  unfold c10FeedbackDividers
  simp only [if_neg hden]
  rw [quot_setWidth (by omega), hT]
  simp only [c10Synth, C10Fields.quotFor]
  push_cast
  rfl

/-! ### Order and exactness -/

theorem C10Fields.le_floor_iff (f : C10Fields) (z : ℤ) (x : ℚ) :
    z ≤ ⌊x * f.denominator⌋ ↔ (z : ℚ) / f.denominator ≤ x := by
  rw [Int.le_floor, div_le_iff₀ f.denominator_pos]

/-- The quotient needed, as the largest one whose clock is not above `x`. -/
theorem C10Fields.le_quotFor_iff (f : C10Fields) (q : ℤ) (x : ℚ) :
    q ≤ f.quotFor x ↔ (f.numenator q : ℚ) / f.denominator ≤ x := by
  rw [← f.le_floor_iff]
  unfold C10Fields.quotFor C10Fields.numenator
  omega

theorem C10Fields.quotFor_mono (f : C10Fields) : Monotone f.quotFor := by
  intro x y hle
  rw [f.le_quotFor_iff]
  exact ((f.le_quotFor_iff _ x).mp le_rfl).trans hle

/-- In range the field holds the quotient needed. -/
theorem c10Synth_toNat_tune {f : C10Fields} {x : ℚ} (hx : x ∈ (c10Synth f).range) :
    (((c10Synth f).tune x).toNat : ℤ) = f.quotFor x := by
  have h0 : 0 ≤ f.quotFor x := (f.le_quotFor_iff 0 x).mpr hx.1
  have h1 : f.quotFor x < 65536 := by
    by_contra h
    exact absurd ((f.le_quotFor_iff 65536 x).mp (by omega)) (not_le.mpr hx.2)
  simp only [c10Synth, BitVec.toNat_ofInt]
  norm_num
  omega

theorem c10Synth_mono (f : C10Fields) : (c10Synth f).MonotoneTuning := by
  intro x hx y hy hle
  show (f.numenator _ : ℚ) / f.denominator ≤ (f.numenator _ : ℚ) / f.denominator
  refine div_le_div_of_nonneg_right ?_ f.denominator_pos.le
  rw [c10Synth_toNat_tune hx, c10Synth_toNat_tune hy]
  have := f.quotFor_mono hle
  unfold C10Fields.numenator
  exact_mod_cast (by omega)

theorem c10Synth_clock_mem_range (f : C10Fields) (quot : U16) :
    (c10Synth f).clock quot ∈ (c10Synth f).range := by
  have := quot.isLt
  constructor
  · refine div_le_div_of_nonneg_right ?_ f.denominator_pos.le
    unfold C10Fields.numenator
    exact_mod_cast (by omega)
  · refine div_lt_div_of_pos_right ?_ f.denominator_pos
    unfold C10Fields.numenator
    exact_mod_cast (by omega)

theorem c10Synth_exact (f : C10Fields) (quot : U16) : (c10Synth f).Exact quot := by
  have hq : f.quotFor ((c10Synth f).clock quot) = quot.toNat := by
    have h1 := (f.le_quotFor_iff quot.toNat ((c10Synth f).clock quot)).mpr le_rfl
    have h2 : ¬ ((quot.toNat : ℤ) + 1 ≤ f.quotFor ((c10Synth f).clock quot)) := by
      rw [f.le_quotFor_iff, not_le]
      refine div_lt_div_of_pos_right ?_ f.denominator_pos
      unfold C10Fields.numenator
      exact_mod_cast (by omega)
    omega
  unfold Synthesizer.Exact
  show BitVec.ofInt 16 (f.quotFor ((c10Synth f).clock quot)) = quot
  rw [hq]
  simp

/-! ### The class -/

def c10State (port : ℕ) (hw : Hw) (i : ℕ) : U8 := hw.vdr port 0 (phyC10VdrPll i)

def c10Loaded (port : ℕ) (hw : Hw) (reg : C10PhyReg) (n : ℕ) : C10PhyReg where
  pllStateOrig i := if i < n then c10State port hw i else reg.pllStateOrig i
  pllStateMod i := if i < n then c10State port hw i else reg.pllStateMod i

theorem c10Fields_congr {s t : ℕ → U8} (h : ∀ i < c10PllRegCount, i ≠ c10PllRegQuotLow →
    i ≠ c10PllRegQuotHigh → s i = t i) : c10Fields s = c10Fields t := by
  unfold c10Fields
  rw [h c10PllRegTxclkdiv (by decide) (by decide) (by decide),
    h c10PllRegMultiplier (by decide) (by decide) (by decide),
    h 2 (by decide) (by decide) (by decide),
    h c10PllRegDenHigh (by decide) (by decide) (by decide),
    h c10PllRegDenLow (by decide) (by decide) (by decide),
    h c10PllRegRemHigh (by decide) (by decide) (by decide),
    h c10PllRegRemLow (by decide) (by decide) (by decide)]

theorem c10Quot_congr {s t : ℕ → U8} (h : ∀ i < c10PllRegCount, s i = t i) :
    c10Quot s = c10Quot t := by
  unfold c10Quot
  rw [h c10PllRegQuotHigh (by decide), h c10PllRegQuotLow (by decide)]

theorem c10Fields_bounds (s : ℕ → U8) :
    (c10Fields s).multiplier ≤ 2063 ∧ (c10Fields s).remTerm < 2 ^ 33 := by
  have h1 := getBits_lt (s c10PllRegMultiplier) 3 0
  have h2 := (s 2).isLt
  have h3 := (word (s c10PllRegDenHigh) (s c10PllRegDenLow)).isLt
  have h4 := (word (s c10PllRegRemHigh) (s c10PllRegRemLow)).isLt
  constructor
  · simp only [c10Fields]
    omega
  · refine (Nat.div_le_self _ _).trans_lt ?_
    simp only [c10Fields]
    omega

theorem c10_step_bounds {s : ℕ → U8} {x : ℚ} (hx : x ∈ (c10Synth (c10Fields s)).range) :
    ((c10Fields s).remTerm : ℤ) ≤ ⌊x * (c10Fields s).denominator⌋ ∧
      ⌊x * (c10Fields s).denominator⌋ < 2 ^ 64 := by
  obtain ⟨hm, hr⟩ := c10Fields_bounds s
  have h0 := ((c10Fields s).le_floor_iff _ x).mpr hx.1
  have h1 := mt ((c10Fields s).le_floor_iff ((c10Fields s).numenator 65536) x).mp (not_le.mpr hx.2)
  unfold C10Fields.numenator at h0 h1
  constructor <;> omega

/-- What `program_mmio` writes, with the bytes of the quotient. -/
def c10Write (port : ℕ) (hw : Hw) (low high : U8) : Hw :=
  let hw := (hw.cx0Rmw port 0 (phyC10VdrControl 1) 0 c10VdrCtrlMsgbusAccess true).cx0Rmw
    port 1 (phyC10VdrControl 1) 0 c10VdrCtrlMsgbusAccess true
  let hw := (hw.cx0Rmw port 0 phyC10VdrCustomWidth c10VdrCustomWidthMask c10VdrCustomWidth810
    true).cx0Rmw port 1 phyC10VdrCustomWidth c10VdrCustomWidthMask c10VdrCustomWidth810 true
  let hw := (hw.cx0Rmw port 0 (phyC10VdrControl 1) 0 c10VdrCtrlUpdateCfg true).cx0Rmw
    port 1 (phyC10VdrControl 1) 0 c10VdrCtrlUpdateCfg true
  let hw := hw.cx0Write port 0 (phyC10VdrPll c10PllRegQuotLow) low true
  let hw := hw.cx0Write port 0 (phyC10VdrPll c10PllRegQuotHigh) high true
  hw.cx0Rmw port 0 (phyC10VdrControl 1) 0 (c10VdrCtrlMasterLane ||| c10VdrCtrlUpdateCfg) true

theorem c10State_write (port : ℕ) (hw : Hw) (low high : U8) {i : ℕ} (hi : i < c10PllRegCount) :
    c10State port (c10Write port hw low high) i =
      if i = c10PllRegQuotHigh then high
      else if i = c10PllRegQuotLow then low else c10State port hw i := by
  unfold c10PllRegCount at hi
  have hctl : phyC10VdrPll i ≠ phyC10VdrControl 1 := by
    unfold phyC10VdrPll phyC10VdrControl
    omega
  have hwidth : phyC10VdrPll i ≠ phyC10VdrCustomWidth := by
    unfold phyC10VdrPll phyC10VdrCustomWidth
    omega
  have hpll : ∀ j, phyC10VdrPll i = phyC10VdrPll j ↔ i = j := by
    intro j
    unfold phyC10VdrPll
    omega
  unfold c10Write c10State
  rw [Hw.cx0Rmw_vdr_ne _ _ _ _ (by decide) (by decide) hctl,
    Hw.cx0Write_plain _ _ _ (by decide) (by decide), Hw.setVdr_vdr,
    Hw.cx0Write_plain _ _ _ (by decide) (by decide), Hw.setVdr_vdr]
  simp only [hpll]
  rw [Hw.cx0Rmw_vdr_ne _ _ _ _ (by decide) (by decide) hctl,
    Hw.cx0Rmw_vdr_ne _ _ _ _ (by decide) (by decide) hctl,
    Hw.cx0Rmw_vdr_ne _ _ _ _ (by decide) (by decide) hwidth,
    Hw.cx0Rmw_vdr_ne _ _ _ _ (by decide) (by decide) hwidth,
    Hw.cx0Rmw_vdr_ne _ _ _ _ (by decide) (by decide) hctl,
    Hw.cx0Rmw_vdr_ne _ _ _ _ (by decide) (by decide) hctl]

section Runs

variable {v : World C10PhyReg Hw → Option (World C10PhyReg Hw)} {w : World C10PhyReg Hw}
  {port : ℕ}

theorem c10_readRegisters_run :
    (C10.readRegisters port).run (regExec v) w =
      some ((), w.put w.hw (c10Loaded port w.hw w.obj.reg c10PllRegCount)) := by
  have hbody : ∀ i (w : World C10PhyReg Hw), (C10.readRegister port i).run (regExec v) w =
      some ((), w.put w.hw ⟨Function.update w.obj.reg.pllStateOrig i (c10State port w.hw i),
        Function.update w.obj.reg.pllStateMod i (c10State port w.hw i)⟩) := fun i w => rfl
  have hfold : ∀ n, (List.range n).foldl (fun (w : World C10PhyReg Hw) i =>
      w.put w.hw ⟨Function.update w.obj.reg.pllStateOrig i (c10State port w.hw i),
        Function.update w.obj.reg.pllStateMod i (c10State port w.hw i)⟩) w =
      w.put w.hw (c10Loaded port w.hw w.obj.reg n) := by
    intro n
    induction n with
    | zero => simp [c10Loaded, World.put]
    | succ n ih =>
        rw [List.range_succ, List.foldl_append, ih]
        simp only [List.foldl_cons, List.foldl_nil, World.put_put, World.put_hw, World.put_reg]
        congr 1
        simp only [c10Loaded, C10PhyReg.mk.injEq]
        constructor <;>
        · funext i
          rcases lt_trichotomy i n with h | rfl | h
          · simp [Function.update_of_ne h.ne, h, h.trans (Nat.lt_succ_self n)]
          · simp
          · simp [Function.update_of_ne h.ne', h.not_gt, Nat.not_lt.mpr h]
  unfold C10.readRegisters
  rw [Prog.run_forEach hbody, hfold]

theorem c10_programMmio_run (mod : Bool) :
    (C10.programMmio port mod).run (regExec v) w =
      some (0, w.put (c10Write port w.hw (w.obj.reg.value mod c10PllRegQuotLow)
        (w.obj.reg.value mod c10PllRegQuotHigh)) w.obj.reg) := by
  simp only [C10.programMmio, Prog.run_bind, run_intelCx0Rmw_bothLanes, Option.bind_some, run_getObj,
    run_intelCx0Write_lane0, run_intelCx0Rmw_lane0, Prog.pure_def, Prog.run_pure, c10Write, World.put]

end Runs

/-- A C10 PHY refines its synthesizer; the object decodes its copy of the registers. -/
def c10Tunes (port : ℕ) : Tunes (c10 port) C10Fields U16 where
  synth := c10Synth
  frame hw _ := c10Fields (c10State port hw)
  div hw := c10Quot (c10State port hw)
  admits hw := (c10Fields (c10State port hw)).den ≠ 0
  cached hw reg := c10Fields reg.pllStateOrig = c10Fields (c10State port hw)
  fresh hw reg := ∀ i < c10PllRegCount, reg.pllStateOrig i = c10State port hw i
  cached_of_fresh h := c10Fields_congr fun i hi _ _ => h i hi
  range_ordConnected _ := ⟨fun x hx y hy z hz => ⟨hx.1.trans hz.1, hz.2.trans_lt hy.2⟩⟩
  read v w := ⟨_, _, c10_readRegisters_run, fun i hi => if_pos hi, rfl, rfl, Iff.rfl⟩
  clock v w hfresh hden := by
    have hfields : c10Fields w.obj.reg.pllStateOrig = c10Fields (c10State port w.hw) :=
      c10Fields_congr fun i hi _ _ => hfresh i hi
    show C10.calculatePllClock.run (regExec v) w = _
    unfold C10.calculatePllClock
    rw [Prog.run_bind_of run_getObj, hfields, c10Quot_congr hfresh, c10PllClock_eq hden]
    rfl
  admits_of_clock_pos v w w' c hfresh hrun _ := by
    have hfields : c10Fields w.obj.reg.pllStateOrig = c10Fields (c10State port w.hw) :=
      c10Fields_congr fun i hi _ _ => hfresh i hi
    intro hden
    change C10.calculatePllClock.run (regExec v) w = _ at hrun
    unfold C10.calculatePllClock at hrun
    rw [Prog.run_bind_of run_getObj, hfields, c10PllClock, if_pos hden] at hrun
    exact absurd hrun (by simp)
  step v w x hden hcached hx := by
    obtain ⟨h0, h1⟩ := c10_step_bounds hx
    generalize hq : (c10Synth (c10Fields (c10State port w.hw))).tune x = quot
    have hdiv := c10FeedbackDividers_eq hden h0 h1
    rw [hq] at hdiv
    have hstate : ∀ {i}, i < c10PllRegCount → c10State port (c10Write port w.hw (lowByte quot)
        (highByte quot)) i = _ := fun hi => c10State_write port w.hw (lowByte quot) (highByte quot) hi
    have hfields : c10Fields (c10State port (c10Write port w.hw (lowByte quot) (highByte quot))) =
        c10Fields (c10State port w.hw) := c10Fields_congr fun i hi hl hh => by
      rw [hstate hi, if_neg hh, if_neg hl]
    refine ⟨c10Write port w.hw (lowByte quot) (highByte quot), ⟨w.obj.reg.pllStateOrig,
      Function.update (Function.update w.obj.reg.pllStateMod c10PllRegQuotLow (lowByte quot))
        c10PllRegQuotHigh (highByte quot)⟩, ?_, ?_, ?_, ?_, hfields, ?_⟩
    · show (C10.calculateFeedbackDividers x).run (regExec v) w = _
      unfold C10.calculateFeedbackDividers
      rw [Prog.run_bind_of run_getObj, hcached, hdiv]
      rfl
    · show (C10.programMmio port true).run (regExec v) _ = _
      rw [c10_programMmio_run]
      rfl
    · rw [hfields]
      exact hden
    · rw [hfields]
      exact hcached
    · unfold c10Quot
      rw [hstate (by decide), hstate (by decide)]
      exact word_highByte_lowByte quot

end Genlock.Vsyncalter
