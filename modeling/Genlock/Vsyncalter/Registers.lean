import Genlock.Vsyncalter.Phy
import Mathlib.Data.Nat.Bitwise

/-! # Registers behind the PHY classes

MMIO dwords, the DKL apertures selected through `HIP_INDEX_REG`, the vendor
registers behind the message bus and the C20 SRAM behind an address and data
window of vendor registers. Accesses succeed here; the message bus with its
failures is below the operations `cx0Read` and `cx0Write`.
-/

namespace Genlock.Vsyncalter

open CArith

abbrev U8 := BitVec 8
abbrev U16 := BitVec 16
abbrev U32 := BitVec 32

/-- `GETBITS_VAL(val, h, l)` and `REG_FIELD_GET` of a contiguous mask. -/
def getBits {w : ℕ} (val : BitVec w) (h l : ℕ) : ℕ := (val.extractLsb' l (h - l + 1)).toNat

theorem getBits_lt {w : ℕ} (val : BitVec w) (h l : ℕ) : getBits val h l < 2 ^ (h - l + 1) :=
  (val.extractLsb' l (h - l + 1)).isLt

theorem getBits_congr {w : ℕ} {x y : BitVec w} {h l : ℕ}
    (hbits : ∀ i, l ≤ i → i ≤ h → x.getLsbD i = y.getLsbD i) (hl : l ≤ h) :
    getBits x h l = getBits y h l := by
  unfold getBits
  congr 1
  apply BitVec.eq_of_getLsbD_eq
  intro i hi
  simp only [BitVec.getLsbD_extractLsb', hi, decide_true, Bool.true_and]
  exact hbits (l + i) (by omega) (by omega)

theorem getBits_eq {w : ℕ} (x : BitVec w) (h l : ℕ) :
    getBits x h l = x.toNat / 2 ^ l % 2 ^ (h - l + 1) := by
  rw [getBits, BitVec.extractLsb'_toNat, Nat.shiftRight_eq_div_pow]

theorem getBits_shiftLeft {w : ℕ} {x : BitVec w} {h l : ℕ} (hx : x.toNat < 2 ^ (h - l + 1))
    (hl : l ≤ h) (hw : h < w) : getBits (x <<< l) h l = x.toNat := by
  have hpow : 2 ^ (h - l + 1) * 2 ^ l ≤ 2 ^ w := by
    rw [← pow_add]
    exact Nat.pow_le_pow_right (by omega) (by omega)
  have hlt : x.toNat * 2 ^ l < 2 ^ w :=
    (Nat.mul_lt_mul_of_pos_right hx (by positivity)).trans_le hpow
  rw [getBits_eq, BitVec.toNat_shiftLeft, Nat.shiftLeft_eq, Nat.mod_eq_of_lt hlt,
    Nat.mul_div_cancel _ (by positivity), Nat.mod_eq_of_lt hx]

theorem getLsbD_of_lt {w : ℕ} {x : BitVec w} {k i : ℕ} (hx : x.toNat < 2 ^ k) (hi : k ≤ i) :
    x.getLsbD i = false :=
  Nat.testBit_lt_two_pow (hx.trans_le (Nat.pow_le_pow_right (by omega) hi))

theorem getLsbD_clear_set {w : ℕ} {x m v : BitVec w} {i : ℕ} (hm : m.getLsbD i = true) :
    (x &&& ~~~m ||| v).getLsbD i = v.getLsbD i := by
  rw [BitVec.getLsbD_or, BitVec.getLsbD_and, BitVec.getLsbD_not, hm]
  simp

theorem getLsbD_clear_keep {w : ℕ} {x m v : BitVec w} {i : ℕ} (hm : m.getLsbD i = false)
    (hv : v.getLsbD i = false) : (x &&& ~~~m ||| v).getLsbD i = x.getLsbD i := by
  rw [BitVec.getLsbD_or, BitVec.getLsbD_and, BitVec.getLsbD_not, hm, hv]
  by_cases hi : i < w
  · simp [hi]
  · simp [BitVec.getLsbD_of_ge x i (by omega)]

/-- Conversion of a double to `uint32_t`. Out of range it keeps the low bits of
the 64-bit conversion. -/
def castU32 (x : ℚ) : U32 := BitVec.ofInt 32 (trunc x)

def castU64 (x : ℚ) : BitVec 64 := BitVec.ofInt 64 (trunc x)

theorem toNat_castU32 {x : ℚ} (h0 : 0 ≤ x) (h : x < 2 ^ 32) : ((castU32 x).toNat : ℤ) = ⌊x⌋ := by
  have hfloor : ⌊x⌋ < 2 ^ 32 := Int.floor_lt.mpr (by exact_mod_cast h)
  have hnonneg : 0 ≤ ⌊x⌋ := Int.floor_nonneg.mpr h0
  rw [castU32, trunc_of_nonneg h0, BitVec.toNat_ofInt]
  norm_num
  omega

theorem toNat_castU64 {x : ℚ} (h0 : 0 ≤ x) (h : x < 2 ^ 64) : ((castU64 x).toNat : ℤ) = ⌊x⌋ := by
  have hfloor : ⌊x⌋ < 2 ^ 64 := Int.floor_lt.mpr (by exact_mod_cast h)
  have hnonneg : 0 ≤ ⌊x⌋ := Int.floor_nonneg.mpr h0
  rw [castU64, trunc_of_nonneg h0, BitVec.toNat_ofInt]
  norm_num
  omega

/-- A register as it was read and as it is to be written. -/
structure Reg where
  origVal : U32
  modVal : U32
deriving DecidableEq, Repr

/-- The value that `program_mmio(mod)` writes. -/
def Reg.value (r : Reg) (mod : Bool) : U32 := if mod then r.modVal else r.origVal

/-! ## Operations -/

inductive RegOp where
  | readReg (addr : ℕ)
  | writeReg (addr : ℕ) (val : U32)
  | cx0Read (port lane addr : ℕ)
  | cx0Write (port lane addr : ℕ) (data : U8) (committed : Bool)
deriving DecidableEq

@[reducible] def RegOp.Ans : RegOp → Type
  | .readReg _ => U32
  | .cx0Read _ _ _ => U8
  | .writeReg _ _ | .cx0Write _ _ _ _ _ => Unit

abbrev RegProg (Φ : Type) := PhyProg Φ RegOp RegOp.Ans

section Operations

variable {Φ : Type}

def readReg (addr : ℕ) : RegProg Φ U32 := onDev (RegOp.readReg addr)

def writeReg (addr : ℕ) (val : U32) : RegProg Φ Unit := onDev (RegOp.writeReg addr val)

def cx0Read (port lane addr : ℕ) : RegProg Φ U8 := onDev (RegOp.cx0Read port lane addr)

def cx0Write (port lane addr : ℕ) (data : U8) (committed : Bool) : RegProg Φ Unit :=
  onDev (RegOp.cx0Write port lane addr data committed)

/-- `__intel_cx0_rmw`: an unchanged value is not written. -/
def cx0Rmw (port lane addr : ℕ) (clear set : U8) (committed : Bool) : RegProg Φ Unit := do
  let old ← cx0Read port lane addr
  let val := (old &&& ~~~clear) ||| set
  if val ≠ old then cx0Write port lane addr val committed

/-- `INTEL_CX0_LANE0` and `INTEL_CX0_BOTH_LANES`. -/
inductive LaneMask where
  | lane0
  | bothLanes
deriving DecidableEq

def LaneMask.lanes : LaneMask → List ℕ
  | .lane0 => [0]
  | .bothLanes => [0, 1]

def intelCx0Read (port addr : ℕ) : RegProg Φ U8 := cx0Read port 0 addr

def intelCx0Write (port : ℕ) (mask : LaneMask) (addr : ℕ) (data : U8) (committed : Bool) :
    RegProg Φ Unit :=
  Prog.forEach (fun lane => cx0Write port lane addr data committed) mask.lanes

def intelCx0Rmw (port : ℕ) (mask : LaneMask) (addr : ℕ) (clear set : U8) (committed : Bool) :
    RegProg Φ Unit :=
  Prog.forEach (fun lane => cx0Rmw port lane addr clear set committed) mask.lanes

end Operations

/-! ### The C20 SRAM window -/

def phyC20WrAddressL : ℕ := 0xC02
def phyC20WrAddressH : ℕ := 0xC03
def phyC20WrDataL : ℕ := 0xC04
def phyC20WrDataH : ℕ := 0xC05
def phyC20RdAddressL : ℕ := 0xC06
def phyC20RdAddressH : ℕ := 0xC07
def phyC20RdDataL : ℕ := 0xC08
def phyC20RdDataH : ℕ := 0xC09

def highByte (x : U16) : U8 := x.extractLsb' 8 8

def lowByte (x : U16) : U8 := x.extractLsb' 0 8

def word (hi lo : U8) : U16 := hi ++ lo

@[simp] theorem word_highByte_lowByte (x : U16) : word (highByte x) (lowByte x) = x := by
  apply BitVec.eq_of_getLsbD_eq
  intro i hi
  unfold word highByte lowByte
  rw [BitVec.getLsbD_append, BitVec.getLsbD_extractLsb', BitVec.getLsbD_extractLsb']
  by_cases h : i < 8
  · simp [h]
  · have h8 : i - 8 < 8 := by omega
    have h2 : 8 + (i - 8) = i := by omega
    simp [h, h8, h2]

def intelC20SramRead {Φ : Type} (port : ℕ) (addr : U16) : RegProg Φ U16 := do
  intelCx0Write port .lane0 phyC20RdAddressH (highByte addr) false
  intelCx0Write port .lane0 phyC20RdAddressL (lowByte addr) true
  let hi ← intelCx0Read port phyC20RdDataH
  let lo ← intelCx0Read port phyC20RdDataL
  return word hi lo

def intelC20SramWrite {Φ : Type} (port : ℕ) (addr data : U16) : RegProg Φ Unit := do
  intelCx0Write port .lane0 phyC20WrAddressH (highByte addr) false
  intelCx0Write port .lane0 phyC20WrAddressL (lowByte addr) false
  intelCx0Write port .lane0 phyC20WrDataH (highByte data) false
  intelCx0Write port .lane0 phyC20WrDataL (lowByte data) true

/-! ## The hardware -/

/-- Contents of the registers. The vendor registers from `0xC02` on are the SRAM
window of a C20 PHY; the code for a C10 PHY does not write there. -/
structure Hw where
  mmio : ℕ → U32
  dkl : ℕ → ℕ → ℕ → U32
  vdr : ℕ → ℕ → ℕ → U8
  sram : ℕ → U16 → U16

def hipIndexReg (phy : ℕ) : ℕ := if phy < 4 then 0x1010A0 else 0x1010A4

def hipIndexShift (phy : ℕ) : ℕ := 8 * (phy % 4)

/-- `PHY_BASE`, and `PHY_NUM_BASE(6)` behind the last aperture. -/
def phyBase : ℕ := 0x168000
def phyEnd : ℕ := 0x16E000

def inAperture (addr : ℕ) : Bool := decide (phyBase ≤ addr ∧ addr < phyEnd)

/-- The page that the aperture of a DKL PHY shows. -/
def Hw.page (hw : Hw) (phy : ℕ) : ℕ :=
  getBits (hw.mmio (hipIndexReg phy)) (hipIndexShift phy + 7) (hipIndexShift phy)

def Hw.readReg (hw : Hw) (addr : ℕ) : U32 :=
  if inAperture addr then
    let phy := (addr - phyBase) / 0x1000
    hw.dkl phy (hw.page phy) ((addr - phyBase) % 0x1000)
  else hw.mmio addr

def Hw.writeReg (hw : Hw) (addr : ℕ) (val : U32) : Hw :=
  if inAperture addr then
    let phy := (addr - phyBase) / 0x1000
    { hw with dkl := Function.update hw.dkl phy (Function.update (hw.dkl phy) (hw.page phy)
        (Function.update (hw.dkl phy (hw.page phy)) ((addr - phyBase) % 0x1000) val)) }
  else { hw with mmio := Function.update hw.mmio addr val }

theorem Hw.readReg_mmio (hw : Hw) {addr : ℕ} (h : inAperture addr = false) :
    hw.readReg addr = hw.mmio addr := by
  simp [Hw.readReg, h]

theorem Hw.writeReg_mmio (hw : Hw) {addr : ℕ} (val : U32) (h : inAperture addr = false) :
    hw.writeReg addr val = { hw with mmio := Function.update hw.mmio addr val } := by
  simp [Hw.writeReg, h]

def Hw.setVdr (hw : Hw) (port lane addr : ℕ) (data : U8) : Hw :=
  { hw with vdr := Function.update hw.vdr port (Function.update (hw.vdr port) lane
      (Function.update (hw.vdr port lane) addr data)) }

def Hw.wrAddress (hw : Hw) (port : ℕ) : U16 :=
  word (hw.vdr port 0 phyC20WrAddressH) (hw.vdr port 0 phyC20WrAddressL)

def Hw.wrData (hw : Hw) (port : ℕ) : U16 :=
  word (hw.vdr port 0 phyC20WrDataH) (hw.vdr port 0 phyC20WrDataL)

def Hw.rdAddress (hw : Hw) (port : ℕ) : U16 :=
  word (hw.vdr port 0 phyC20RdAddressH) (hw.vdr port 0 phyC20RdAddressL)

def Hw.setSram (hw : Hw) (port : ℕ) (addr data : U16) : Hw :=
  { hw with sram := Function.update hw.sram port (Function.update (hw.sram port) addr data) }

def Hw.showSram (hw : Hw) (port : ℕ) (data : U16) : Hw :=
  (hw.setVdr port 0 phyC20RdDataH (highByte data)).setVdr port 0 phyC20RdDataL (lowByte data)

/-- A write on the message bus. The committed write of a low byte of the window
starts the SRAM access. -/
def Hw.cx0Write (hw : Hw) (port lane addr : ℕ) (data : U8) (committed : Bool) : Hw :=
  let hw := hw.setVdr port lane addr data
  if committed && lane == 0 then
    if addr = phyC20WrDataL then hw.setSram port (hw.wrAddress port) (hw.wrData port)
    else if addr = phyC20RdAddressL then hw.showSram port (hw.sram port (hw.rdAddress port))
    else hw
  else hw

def Hw.exec : (o : RegOp) → Hw → Option (o.Ans × Hw)
  | .readReg addr, hw => some (hw.readReg addr, hw)
  | .writeReg addr val, hw => some ((), hw.writeReg addr val)
  | .cx0Read port lane addr, hw => some (hw.vdr port lane addr, hw)
  | .cx0Write port lane addr data committed, hw =>
      some ((), hw.cx0Write port lane addr data committed)

def hwDevice : Device RegOp RegOp.Ans Hw := ⟨Hw.exec, fun _ hw => hw⟩

/-! ### Runs of register accesses -/

section Run

variable {Φ α : Type} {wait : World Φ Hw → Option (World Φ Hw)} {w : World Φ Hw}

@[simp] theorem run_readReg (addr : ℕ) :
    (readReg addr).run (execOp hwDevice wait) w = some (w.hw.readReg addr, w) := rfl

@[simp] theorem run_writeReg (addr : ℕ) (val : U32) :
    (writeReg addr val).run (execOp hwDevice wait) w =
      some ((), { w with hw := w.hw.writeReg addr val }) := rfl

@[simp] theorem run_cx0Read (port lane addr : ℕ) :
    (cx0Read port lane addr).run (execOp hwDevice wait) w = some (w.hw.vdr port lane addr, w) := rfl

def Hw.readSram (hw : Hw) (port : ℕ) (addr : U16) : Hw :=
  (hw.cx0Write port 0 phyC20RdAddressH (highByte addr) false).cx0Write
    port 0 phyC20RdAddressL (lowByte addr) true

def Hw.writeSram (hw : Hw) (port : ℕ) (addr data : U16) : Hw :=
  (((hw.cx0Write port 0 phyC20WrAddressH (highByte addr) false).cx0Write
    port 0 phyC20WrAddressL (lowByte addr) false).cx0Write
    port 0 phyC20WrDataH (highByte data) false).cx0Write
    port 0 phyC20WrDataL (lowByte data) true

def Hw.cx0Rmw (hw : Hw) (port lane addr : ℕ) (clear set : U8) (committed : Bool) : Hw :=
  let val := (hw.vdr port lane addr &&& ~~~clear) ||| set
  if val ≠ hw.vdr port lane addr then hw.cx0Write port lane addr val committed else hw

@[simp] theorem run_cx0Write (port lane addr : ℕ) (data : U8) (committed : Bool) :
    (cx0Write port lane addr data committed).run (execOp hwDevice wait) w =
      some ((), { w with hw := w.hw.cx0Write port lane addr data committed }) := rfl

theorem run_cx0Rmw (port lane addr : ℕ) (clear set : U8) (committed : Bool) :
    (cx0Rmw port lane addr clear set committed).run (execOp hwDevice wait) w =
      some ((), { w with hw := w.hw.cx0Rmw port lane addr clear set committed }) := by
  unfold cx0Rmw Hw.cx0Rmw
  rw [Prog.run_bind_of (run_cx0Read _ _ _)]
  dsimp only
  split
  · rw [run_cx0Write]
  · rfl

@[simp] theorem run_intelCx0Read (port addr : ℕ) :
    (intelCx0Read port addr).run (execOp hwDevice wait) w = some (w.hw.vdr port 0 addr, w) := rfl

@[simp] theorem run_intelCx0Write_lane0 (port addr : ℕ) (data : U8) (committed : Bool) :
    (intelCx0Write port .lane0 addr data committed).run (execOp hwDevice wait) w =
      some ((), { w with hw := w.hw.cx0Write port 0 addr data committed }) := rfl

@[simp] theorem run_intelCx0Rmw_lane0 (port addr : ℕ) (clear set : U8) (committed : Bool) :
    (intelCx0Rmw port .lane0 addr clear set committed).run (execOp hwDevice wait) w =
      some ((), { w with hw := w.hw.cx0Rmw port 0 addr clear set committed }) := by
  simp only [intelCx0Rmw, LaneMask.lanes, Prog.forEach, Prog.run_bind, run_cx0Rmw, Option.bind_some,
    Prog.run_pure]

@[simp] theorem run_intelCx0Rmw_bothLanes (port addr : ℕ) (clear set : U8) (committed : Bool) :
    (intelCx0Rmw port .bothLanes addr clear set committed).run (execOp hwDevice wait) w =
      some ((), { w with
        hw := (w.hw.cx0Rmw port 0 addr clear set committed).cx0Rmw port 1 addr clear set committed }) := by
  simp only [intelCx0Rmw, LaneMask.lanes, Prog.forEach, Prog.run_bind, run_cx0Rmw, Option.bind_some,
    Prog.run_pure]

end Run

/-! ### Vendor registers outside the window -/

/-- A write outside the SRAM window is a write of that vendor register. -/
theorem Hw.cx0Write_plain (hw : Hw) {port lane addr : ℕ} (data : U8) (committed : Bool)
    (h1 : addr ≠ phyC20WrDataL) (h2 : addr ≠ phyC20RdAddressL) :
    hw.cx0Write port lane addr data committed = hw.setVdr port lane addr data := by
  simp [Hw.cx0Write, h1, h2]

theorem Hw.setVdr_vdr (hw : Hw) (port lane addr addr' : ℕ) (data : U8) :
    (hw.setVdr port lane addr data).vdr port lane addr' =
      if addr' = addr then data else hw.vdr port lane addr' := by
  simp [Hw.setVdr, Function.update_apply]

theorem Hw.setVdr_vdr_ne (hw : Hw) {port port' lane lane' addr addr' : ℕ} (data : U8)
    (h : addr' ≠ addr) :
    (hw.setVdr port lane addr data).vdr port' lane' addr' = hw.vdr port' lane' addr' := by
  unfold Hw.setVdr
  dsimp only
  by_cases hport : port' = port
  · subst hport
    rw [Function.update_self]
    by_cases hlane : lane' = lane
    · subst hlane
      rw [Function.update_self, Function.update_of_ne h]
    · rw [Function.update_of_ne hlane]
  · rw [Function.update_of_ne hport]

theorem Hw.cx0Rmw_vdr_ne (hw : Hw) {port lane addr addr' : ℕ} (clear set : U8) (committed : Bool)
    (h1 : addr ≠ phyC20WrDataL) (h2 : addr ≠ phyC20RdAddressL) (h : addr' ≠ addr) (port' lane' : ℕ) :
    (hw.cx0Rmw port lane addr clear set committed).vdr port' lane' addr' =
      hw.vdr port' lane' addr' := by
  unfold Hw.cx0Rmw
  dsimp only
  split
  · rw [Hw.cx0Write_plain _ _ _ h1 h2, Hw.setVdr_vdr_ne _ _ h]
  · rfl

/-! ### The window -/

theorem Hw.readSram_sram (hw : Hw) (port : ℕ) (addr : U16) : (hw.readSram port addr).sram = hw.sram := by
  simp [Hw.readSram, Hw.cx0Write, Hw.showSram, Hw.setVdr, phyC20RdAddressH, phyC20RdAddressL,
    phyC20WrDataL]

/-- The read window shows the word that was asked for. -/
theorem Hw.readSram_data (hw : Hw) (port : ℕ) (addr : U16) :
    (hw.readSram port addr).vdr port 0 phyC20RdDataH = highByte (hw.sram port addr) ∧
      (hw.readSram port addr).vdr port 0 phyC20RdDataL = lowByte (hw.sram port addr) := by
  have haddr : ((hw.setVdr port 0 phyC20RdAddressH (highByte addr)).setVdr port 0 phyC20RdAddressL
      (lowByte addr)).rdAddress port = addr := by
    unfold Hw.rdAddress
    rw [Hw.setVdr_vdr, Hw.setVdr_vdr, Hw.setVdr_vdr]
    simp [phyC20RdAddressH, phyC20RdAddressL]
  have hread : hw.readSram port addr = ((hw.setVdr port 0 phyC20RdAddressH (highByte addr)).setVdr
      port 0 phyC20RdAddressL (lowByte addr)).showSram port (hw.sram port addr) := by
    unfold Hw.readSram
    rw [Hw.cx0Write_plain hw _ _ (by decide) (by decide), Hw.cx0Write]
    simp only [Bool.and_true, beq_self_eq_true, if_true]
    rw [if_neg (by decide), haddr]
    rfl
  rw [hread]
  unfold Hw.showSram
  constructor
  · rw [Hw.setVdr_vdr, Hw.setVdr_vdr]
    simp [phyC20RdDataH, phyC20RdDataL]
  · rw [Hw.setVdr_vdr]
    simp

theorem Hw.readSram_vdr (hw : Hw) (port : ℕ) (addr : U16) {r : ℕ} (hr : 0xD00 ≤ r) (lane : ℕ) :
    (hw.readSram port addr).vdr port lane r = hw.vdr port lane r := by
  have h6 : r ≠ phyC20RdAddressL := by unfold phyC20RdAddressL; omega
  have h7 : r ≠ phyC20RdAddressH := by unfold phyC20RdAddressH; omega
  have h8 : r ≠ phyC20RdDataL := by unfold phyC20RdDataL; omega
  have h9 : r ≠ phyC20RdDataH := by unfold phyC20RdDataH; omega
  unfold Hw.readSram
  rw [Hw.cx0Write_plain hw _ _ (by decide) (by decide), Hw.cx0Write]
  simp only [Bool.and_true, beq_self_eq_true, if_true]
  rw [if_neg (by decide), Hw.showSram, Hw.setVdr_vdr_ne _ _ h8, Hw.setVdr_vdr_ne _ _ h9,
    Hw.setVdr_vdr_ne _ _ h6, Hw.setVdr_vdr_ne _ _ h7]

theorem Hw.writeSram_eq (hw : Hw) (port : ℕ) (addr data : U16) :
    hw.writeSram port addr data =
      let hw := (((hw.setVdr port 0 phyC20WrAddressH (highByte addr)).setVdr
        port 0 phyC20WrAddressL (lowByte addr)).setVdr
        port 0 phyC20WrDataH (highByte data)).setVdr port 0 phyC20WrDataL (lowByte data)
      hw.setSram port (hw.wrAddress port) (hw.wrData port) := by
  unfold Hw.writeSram
  rw [Hw.cx0Write_plain hw _ _ (by decide) (by decide),
    Hw.cx0Write_plain (hw.setVdr _ _ _ _) _ _ (by decide) (by decide),
    Hw.cx0Write_plain ((hw.setVdr _ _ _ _).setVdr _ _ _ _) _ _ (by decide) (by decide),
    Hw.cx0Write]
  rfl

/-- An SRAM write stores the word at the latched address. -/
theorem Hw.writeSram_sram (hw : Hw) (port : ℕ) (addr data : U16) :
    (hw.writeSram port addr data).sram =
      Function.update hw.sram port (Function.update (hw.sram port) addr data) := by
  rw [Hw.writeSram_eq]
  unfold Hw.setSram Hw.wrAddress Hw.wrData
  simp only [Hw.setVdr_vdr]
  simp [Hw.setVdr, phyC20WrAddressH, phyC20WrAddressL, phyC20WrDataH, phyC20WrDataL]

theorem Hw.writeSram_vdr (hw : Hw) (port : ℕ) (addr data : U16) {r : ℕ} (hr : 0xD00 ≤ r)
    (lane : ℕ) : (hw.writeSram port addr data).vdr port lane r = hw.vdr port lane r := by
  have h2 : r ≠ phyC20WrAddressL := by unfold phyC20WrAddressL; omega
  have h3 : r ≠ phyC20WrAddressH := by unfold phyC20WrAddressH; omega
  have h4 : r ≠ phyC20WrDataL := by unfold phyC20WrDataL; omega
  have h5 : r ≠ phyC20WrDataH := by unfold phyC20WrDataH; omega
  rw [Hw.writeSram_eq]
  unfold Hw.setSram
  dsimp only
  rw [Hw.setVdr_vdr_ne _ _ h4, Hw.setVdr_vdr_ne _ _ h5, Hw.setVdr_vdr_ne _ _ h2,
    Hw.setVdr_vdr_ne _ _ h3]

section Run

variable {Φ : Type} {wait : World Φ Hw → Option (World Φ Hw)} {w : World Φ Hw}

theorem run_intelC20SramRead (port : ℕ) (addr : U16) :
    (intelC20SramRead port addr).run (execOp hwDevice wait) w =
      some (w.hw.sram port addr, { w with hw := w.hw.readSram port addr }) := by
  obtain ⟨hhi, hlo⟩ := w.hw.readSram_data port addr
  unfold Hw.readSram at hhi hlo
  simp only [intelC20SramRead, Prog.run_bind, run_intelCx0Write_lane0, run_intelCx0Read,
    Option.bind_some, hhi, hlo, Prog.pure_def, Prog.run_pure, word_highByte_lowByte, Hw.readSram]

theorem run_intelC20SramWrite (port : ℕ) (addr data : U16) :
    (intelC20SramWrite port addr data).run (execOp hwDevice wait) w =
      some ((), { w with hw := w.hw.writeSram port addr data }) := by
  simp only [intelC20SramWrite, Prog.run_bind, run_intelCx0Write_lane0, Option.bind_some,
    Hw.writeSram]

end Run

end Genlock.Vsyncalter
