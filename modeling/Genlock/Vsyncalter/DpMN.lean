import Genlock.Vsyncalter.Tuning

/-! # M and N registers of a pipe -/

namespace Genlock.Vsyncalter

structure DpMNPhyReg where
  mreg : Reg
  nreg : Reg
deriving DecidableEq, Repr

/-- `PIPEA_M1` to `PIPED_M1`. -/
def pipeM1 (pipe : Fin 4) : ℕ := 0x60040 + 0x1000 * pipe

def pipeN1 (pipe : Fin 4) : ℕ := 0x60044 + 0x1000 * pipe

namespace DpMN

variable (pipe : Fin 4)

def readRegisters : RegProg DpMNPhyReg Unit := do
  let m ← readReg (pipeM1 pipe)
  modReg fun r => { r with mreg := { r.mreg with origVal := m } }
  let n ← readReg (pipeN1 pipe)
  modReg fun r => { r with nreg := { r.nreg with origVal := n } }
  modReg fun r => { r with mreg := { r.mreg with modVal := r.mreg.origVal } }
  modReg fun r => { r with nreg := { r.nreg with modVal := r.nreg.origVal } }

/-- The value of M as it was last read. -/
def calculatePllClock : RegProg DpMNPhyReg ℚ := do
  let o ← getObj
  return o.reg.mreg.origVal.toNat

def calculateFeedbackDividers (pllClock : ℚ) : RegProg DpMNPhyReg ℤ := do
  modReg fun r => { r with mreg := { r.mreg with modVal := castU32 pllClock } }
  return 0

def programMmio (mod : Bool) : RegProg DpMNPhyReg ℤ := do
  let o ← getObj
  writeReg (pipeM1 pipe) (o.reg.mreg.value mod)
  let o ← getObj
  writeReg (pipeN1 pipe) (o.reg.nreg.value mod)
  return 0

end DpMN

def dpMN (pipe : Fin 4) : PhyClass DpMNPhyReg RegOp RegOp.Ans where
  readRegisters := DpMN.readRegisters pipe
  calculatePllClock := DpMN.calculatePllClock
  calculateFeedbackDividers := DpMN.calculateFeedbackDividers
  programMmio := DpMN.programMmio pipe

/-! ## The synthesizer of M and N -/

open CArith

/-- M is the clock; N stays as it was read. -/
def dpMNSynth (n : U32) : Synthesizer ℚ (U32 × U32) where
  clock d := d.1.toNat
  tune x := (castU32 x, n)
  range := Set.Ico 0 (2 ^ 32)

theorem dpMNSynth_mono (n : U32) : (dpMNSynth n).MonotoneTuning := by
  rintro x ⟨hx0, hx1⟩ y ⟨hy0, hy1⟩ hle
  have hx := toNat_castU32 hx0 hx1
  have hy := toNat_castU32 hy0 hy1
  have hfloor := Int.floor_mono hle
  show ((castU32 x).toNat : ℚ) ≤ (castU32 y).toNat
  have : (castU32 x).toNat ≤ (castU32 y).toNat := by omega
  exact_mod_cast this

theorem dpMNSynth_exact (d : U32 × U32) : (dpMNSynth d.2).Exact d := by
  have hlt : ((d.1.toNat : ℕ) : ℚ) < 2 ^ 32 := by exact_mod_cast d.1.isLt
  have h := toNat_castU32 (Nat.cast_nonneg d.1.toNat) hlt
  rw [Int.floor_natCast] at h
  refine Prod.ext (BitVec.eq_of_toNat_eq ?_) rfl
  exact_mod_cast h

theorem dpMNSynth_clock_mem_range (n : U32) (d : U32 × U32) :
    (dpMNSynth n).clock d ∈ (dpMNSynth n).range := by
  have hlt : ((d.1.toNat : ℕ) : ℚ) < 2 ^ 32 := by exact_mod_cast d.1.isLt
  exact ⟨Nat.cast_nonneg _, hlt⟩

/-! ### The class -/

theorem inAperture_pipeM1 (pipe : Fin 4) : inAperture (pipeM1 pipe) = false := by
  revert pipe
  decide

theorem inAperture_pipeN1 (pipe : Fin 4) : inAperture (pipeN1 pipe) = false := by
  revert pipe
  decide

theorem pipeM1_ne_pipeN1 (pipe : Fin 4) : pipeM1 pipe ≠ pipeN1 pipe := by
  revert pipe
  decide

def dpMNDiv (pipe : Fin 4) (hw : Hw) : U32 × U32 := (hw.mmio (pipeM1 pipe), hw.mmio (pipeN1 pipe))

theorem dpMNDiv_write (pipe : Fin 4) (hw : Hw) (m n : U32) :
    dpMNDiv pipe ((hw.writeReg (pipeM1 pipe) m).writeReg (pipeN1 pipe) n) = (m, n) := by
  unfold dpMNDiv
  rw [Hw.writeReg_mmio _ _ (inAperture_pipeM1 pipe), Hw.writeReg_mmio _ _ (inAperture_pipeN1 pipe)]
  simp [Function.update_of_ne (pipeM1_ne_pipeN1 pipe)]

theorem readReg_pipeM1 (pipe : Fin 4) (hw : Hw) : hw.readReg (pipeM1 pipe) = (dpMNDiv pipe hw).1 :=
  hw.readReg_mmio (inAperture_pipeM1 pipe)

theorem readReg_pipeN1 (pipe : Fin 4) (hw : Hw) : hw.readReg (pipeN1 pipe) = (dpMNDiv pipe hw).2 :=
  hw.readReg_mmio (inAperture_pipeN1 pipe)

/-- M and N refine their synthesizer; the object decodes its copy of M. -/
def dpMNTunes (pipe : Fin 4) : Tunes (dpMN pipe) U32 (U32 × U32) where
  synth := dpMNSynth
  frame hw _ := (dpMNDiv pipe hw).2
  div := dpMNDiv pipe
  admits _ := True
  cached hw reg := reg.nreg.modVal = (dpMNDiv pipe hw).2
  fresh hw reg := reg.nreg.modVal = (dpMNDiv pipe hw).2 ∧
    reg.mreg.origVal = (dpMNDiv pipe hw).1 ∧ reg.nreg.origVal = (dpMNDiv pipe hw).2
  cached_of_fresh h := h.1
  range_ordConnected _ := Set.ordConnected_Ico
  read v w := ⟨w.hw, ⟨⟨w.hw.readReg (pipeM1 pipe), w.hw.readReg (pipeM1 pipe)⟩,
      ⟨w.hw.readReg (pipeN1 pipe), w.hw.readReg (pipeN1 pipe)⟩⟩,
    rfl, ⟨readReg_pipeN1 pipe w.hw, readReg_pipeM1 pipe w.hw, readReg_pipeN1 pipe w.hw⟩,
    rfl, rfl, Iff.rfl⟩
  clock v w hfresh _ := by
    show some (((w.obj.reg.mreg.origVal.toNat : ℕ) : ℚ), w) = _
    rw [hfresh.2.1]
    rfl
  admits_of_clock_pos _ _ _ _ _ _ _ := trivial
  step v w x _ hcached _ := by
    refine ⟨_, ⟨⟨w.obj.reg.mreg.origVal, castU32 x⟩, w.obj.reg.nreg⟩, rfl, rfl, trivial, ?_, ?_, ?_⟩
    all_goals
      simp only [Reg.value, if_true, hcached, dpMNDiv_write, World.put_reg]
    rfl

end Genlock.Vsyncalter
