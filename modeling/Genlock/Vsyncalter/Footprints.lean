import Genlock.Vsyncalter.Aperture
import Genlock.Vsyncalter.Kinds

/-! # The registers of one PHY

Each class accesses the registers of its own PLL, aperture or port and no others, except
that DKL PHYs share index registers. What an access does depends on the own registers
alone, and leaves those of other PHYs as they are.
-/

namespace Genlock.Vsyncalter

/-! ## Parts of the hardware -/

/-- MMIO registers, apertures with all of their pages, and ports of the message bus with
their lanes and their SRAM. -/
structure Footprint where
  mmio : List ℕ
  apertures : List ℕ
  ports : List ℕ

namespace Footprint

structure Disjoint (F F' : Footprint) : Prop where
  mmio : ∀ addr ∈ F.mmio, addr ∉ F'.mmio
  apertures : ∀ phy ∈ F.apertures, phy ∉ F'.apertures
  ports : ∀ port ∈ F.ports, port ∉ F'.ports

theorem Disjoint.symm {F F' : Footprint} (h : F.Disjoint F') : F'.Disjoint F where
  mmio addr h1 h2 := h.mmio addr h2 h1
  apertures phy h1 h2 := h.apertures phy h2 h1
  ports port h1 h2 := h.ports port h2 h1

/-- An access through an aperture needs the index register as well. -/
def CoversMmio (F : Footprint) (addr : ℕ) : Prop :=
  if inAperture addr then
    (addr - phyBase) / 0x1000 ∈ F.apertures ∧ hipIndexReg ((addr - phyBase) / 0x1000) ∈ F.mmio
  else addr ∈ F.mmio

def Covers (F : Footprint) : RegOp → Prop
  | .readReg addr | .writeReg addr _ => F.CoversMmio addr
  | .cx0Read port _ _ | .cx0Write port _ _ _ _ => port ∈ F.ports

end Footprint

/-- The registers of the footprint as they are in `hw`, all others as in `rest`. -/
def Hw.within (hw : Hw) (F : Footprint) (rest : Hw) : Hw where
  mmio addr := if addr ∈ F.mmio then hw.mmio addr else rest.mmio addr
  dkl phy := if phy ∈ F.apertures then hw.dkl phy else rest.dkl phy
  vdr port := if port ∈ F.ports then hw.vdr port else rest.vdr port
  sram port := if port ∈ F.ports then hw.sram port else rest.sram port

section Within

variable {F F' : Footprint} {hw rest : Hw}

theorem Hw.within_self : hw.within F hw = hw := by
  simp [Hw.within]

/-! ### Accesses of the own registers -/

theorem Hw.within_update {α : Type} {xs : List ℕ} {f g : ℕ → α} {i : ℕ} (h : i ∈ xs) (v : α) :
    (fun j => if j ∈ xs then Function.update f i v j else g j) =
      Function.update (fun j => if j ∈ xs then f j else g j) i v := by
  funext j
  by_cases hj : j = i
  · subst hj
    simp [h]
  · simp [Function.update_of_ne hj]

theorem Hw.within_page {phy : ℕ} (h : hipIndexReg phy ∈ F.mmio) :
    (hw.within F rest).page phy = hw.page phy := by
  simp [Hw.page, Hw.within, h]

theorem Hw.within_readReg {addr : ℕ} (h : F.CoversMmio addr) :
    (hw.within F rest).readReg addr = hw.readReg addr := by
  unfold Footprint.CoversMmio at h
  unfold Hw.readReg
  split
  · rename_i hin
    rw [if_pos hin] at h
    dsimp only
    rw [Hw.within_page h.2]
    simp [Hw.within, h.1]
  · rename_i hin
    rw [if_neg hin] at h
    simp [Hw.within, h]

theorem Hw.within_writeReg {addr : ℕ} (h : F.CoversMmio addr) (val : U32) :
    (hw.within F rest).writeReg addr val = (hw.writeReg addr val).within F rest := by
  unfold Footprint.CoversMmio at h
  unfold Hw.writeReg
  split
  · rename_i hin
    rw [if_pos hin] at h
    dsimp only
    rw [Hw.within_page h.2]
    simp only [Hw.within, Hw.within_update h.1, if_pos h.1]
  · rename_i hin
    rw [if_neg hin] at h
    simp only [Hw.within, Hw.within_update h]

theorem Hw.within_setVdr {port : ℕ} (h : port ∈ F.ports) (lane addr : ℕ) (data : U8) :
    (hw.within F rest).setVdr port lane addr data = (hw.setVdr port lane addr data).within F rest := by
  simp only [Hw.setVdr, Hw.within, Hw.within_update h, if_pos h]

theorem Hw.within_setSram {port : ℕ} (h : port ∈ F.ports) (addr data : U16) :
    (hw.within F rest).setSram port addr data = (hw.setSram port addr data).within F rest := by
  simp only [Hw.setSram, Hw.within, Hw.within_update h, if_pos h]

theorem Hw.within_cx0Write {port : ℕ} (h : port ∈ F.ports) (lane addr : ℕ) (data : U8)
    (committed : Bool) : (hw.within F rest).cx0Write port lane addr data committed =
      (hw.cx0Write port lane addr data committed).within F rest := by
  have hvdr (hw : Hw) : (hw.within F rest).vdr port = hw.vdr port := by simp [Hw.within, h]
  have hsram (hw : Hw) : (hw.within F rest).sram port = hw.sram port := by simp [Hw.within, h]
  unfold Hw.cx0Write
  simp only [Hw.within_setVdr h]
  split
  · split
    · simp only [Hw.wrAddress, Hw.wrData, hvdr, Hw.within_setSram h]
    · split
      · simp only [Hw.showSram, Hw.rdAddress, hvdr, hsram, Hw.within_setVdr h]
      · rfl
  · rfl

/-- An access of own registers finds and leaves the same whatever the others hold. -/
theorem Hw.exec_within {d : RegOp} (h : F.Covers d) :
    (hw.within F rest).exec d = (hw.exec d).map fun r => (r.1, r.2.within F rest) := by
  cases d with
  | readReg addr => simp only [Hw.exec, Hw.within_readReg h, Option.map_some]
  | writeReg addr val => simp only [Hw.exec, Hw.within_writeReg h, Option.map_some]
  | cx0Read port lane addr =>
      have hport : port ∈ F.ports := h
      simp [Hw.exec, Hw.within, hport]
  | cx0Write port lane addr data committed =>
      simp only [Hw.exec, Hw.within_cx0Write h, Option.map_some]

/-! ### Accesses of other registers -/

theorem Hw.within_update_apart {α : Type} {xs ys : List ℕ} (hxy : ∀ j ∈ xs, j ∉ ys) {f g : ℕ → α}
    {i : ℕ} (h : i ∈ ys) (v : α) :
    (fun j => if j ∈ xs then Function.update f i v j else g j) = fun j => if j ∈ xs then f j else g j := by
  funext j
  by_cases hj : j ∈ xs
  · have hne : j ≠ i := by
      rintro rfl
      exact hxy _ hj h
    simp [hj, Function.update_of_ne hne]
  · simp [hj]

theorem Hw.setVdr_apart (hF : F.Disjoint F') {port : ℕ} (h : port ∈ F'.ports) (lane addr : ℕ)
    (data : U8) : (hw.setVdr port lane addr data).within F rest = hw.within F rest := by
  simp only [Hw.setVdr, Hw.within, Hw.within_update_apart hF.ports h]

theorem Hw.setSram_apart (hF : F.Disjoint F') {port : ℕ} (h : port ∈ F'.ports) (addr data : U16) :
    (hw.setSram port addr data).within F rest = hw.within F rest := by
  simp only [Hw.setSram, Hw.within, Hw.within_update_apart hF.ports h]

theorem Hw.cx0Write_apart (hF : F.Disjoint F') {port : ℕ} (h : port ∈ F'.ports) (lane addr : ℕ)
    (data : U8) (committed : Bool) :
    (hw.cx0Write port lane addr data committed).within F rest = hw.within F rest := by
  unfold Hw.cx0Write
  dsimp only
  split
  · split
    · rw [Hw.setSram_apart hF h, Hw.setVdr_apart hF h]
    · split
      · rw [Hw.showSram, Hw.setVdr_apart hF h, Hw.setVdr_apart hF h, Hw.setVdr_apart hF h]
      · exact Hw.setVdr_apart hF h _ _ _
  · exact Hw.setVdr_apart hF h _ _ _

theorem Hw.writeReg_apart (hF : F.Disjoint F') {addr : ℕ} (h : F'.CoversMmio addr)
    (val : U32) : (hw.writeReg addr val).within F rest = hw.within F rest := by
  unfold Footprint.CoversMmio at h
  unfold Hw.writeReg
  split
  · rename_i hin
    rw [if_pos hin] at h
    simp only [Hw.within, Hw.within_update_apart hF.apertures h.1]
  · rename_i hin
    rw [if_neg hin] at h
    simp only [Hw.within, Hw.within_update_apart hF.mmio h]

/-- An access of other registers changes none of the own. -/
theorem Hw.exec_apart (hF : F.Disjoint F') {d : RegOp} (h : F'.Covers d) {r : d.Ans × Hw}
    (hexec : hw.exec d = some r) : r.2.within F rest = hw.within F rest := by
  cases d with
  | readReg addr | cx0Read port lane addr =>
      obtain rfl := Option.some.inj hexec
      rfl
  | writeReg addr val =>
      obtain rfl := Option.some.inj hexec
      exact Hw.writeReg_apart hF h val
  | cx0Write port lane addr data committed =>
      obtain rfl := Option.some.inj hexec
      exact Hw.cx0Write_apart hF h lane addr data committed

end Within

/-! ## The footprints of the classes -/

namespace PhyKind

/-- The registers of a PHY; for a DKL PHY with the index register of its port. -/
def footprint : PhyKind → Footprint
  | combo n => ⟨[dpllCfgcr0 n, dpllCfgcr1 n], [], []⟩
  | dkl phy => ⟨[hipIndexReg phy], [phy], []⟩
  | c10 port | c20 port _ => ⟨[], [], [port]⟩
  | dpMN pipe => ⟨[pipeM1 pipe, pipeN1 pipe], [], []⟩

/-- PHYs of different PLLs, ports and pipes; two DKL PHYs have different index registers. -/
def Apart : PhyKind → PhyKind → Prop
  | combo m, combo n => m ≠ n
  | dkl p, dkl q => hipIndexReg p ≠ hipIndexReg q
  | c10 p, c10 q | c10 p, c20 q _ | c20 p _, c10 q | c20 p _, c20 q _ => p ≠ q
  | dpMN p, dpMN q => p ≠ q
  | _, _ => True

theorem Apart.symm {k k' : PhyKind} (h : k.Apart k') : k'.Apart k := by
  cases k <;> cases k' <;> first | exact Ne.symm h | exact trivial

theorem combo_disjoint {m : Fin 4} {k : PhyKind} (h : (combo m).Apart k) :
    (combo m).footprint.Disjoint k.footprint := by
  refine ⟨?_, by simp [footprint], by simp [footprint]⟩
  cases k with
  | combo n =>
      have hne : ∀ m n : Fin 4, m ≠ n →
          ∀ addr ∈ [dpllCfgcr0 m, dpllCfgcr1 m], addr ∉ [dpllCfgcr0 n, dpllCfgcr1 n] := by decide
      exact hne m n h
  | dkl phy =>
      have hne : ∀ (m : Fin 4) (phy : Fin 6),
          ∀ addr ∈ [dpllCfgcr0 m, dpllCfgcr1 m], addr ∉ [hipIndexReg phy] := by decide
      exact hne m phy
  | dpMN pipe =>
      have hne : ∀ m pipe : Fin 4,
          ∀ addr ∈ [dpllCfgcr0 m, dpllCfgcr1 m], addr ∉ [pipeM1 pipe, pipeN1 pipe] := by decide
      exact hne m pipe
  | c10 port | c20 port isBMG => simp [footprint]

theorem dkl_disjoint {p : Fin 6} {k : PhyKind} (h : (dkl p).Apart k) :
    (dkl p).footprint.Disjoint k.footprint := by
  cases k with
  | combo n => exact (combo_disjoint h.symm).symm
  | dkl q =>
      have hreg : hipIndexReg p ≠ hipIndexReg q := h
      have hpq : (p : ℕ) ≠ q := fun heq => hreg (by rw [heq])
      exact ⟨by simpa [footprint] using hreg, by simpa [footprint] using hpq, by simp [footprint]⟩
  | dpMN pipe =>
      have hne : ∀ (phy : Fin 6) (pipe : Fin 4),
          ∀ addr ∈ [hipIndexReg phy], addr ∉ [pipeM1 pipe, pipeN1 pipe] := by decide
      exact ⟨hne p pipe, by simp [footprint], by simp [footprint]⟩
  | c10 port | c20 port isBMG => exact ⟨by simp [footprint], by simp [footprint], by simp [footprint]⟩

theorem port_disjoint {port : ℕ} {k k' : PhyKind} (hk : k.footprint = ⟨[], [], [port]⟩)
    (h : port ∉ k'.footprint.ports) : k.footprint.Disjoint k'.footprint := by
  rw [hk]
  exact ⟨by simp, by simp, by simpa using h⟩

theorem footprint_disjoint {k k' : PhyKind} (h : k.Apart k') : k.footprint.Disjoint k'.footprint := by
  cases k with
  | combo m => exact combo_disjoint h
  | dkl p => exact dkl_disjoint h
  | c10 port | c20 port isBMG =>
      refine port_disjoint rfl ?_
      cases k' with
      | c10 q | c20 q isBMG' => exact fun hq => h (List.mem_singleton.mp hq)
      | combo n | dkl phy | dpMN pipe => exact List.not_mem_nil
  | dpMN p => cases k' with
    | combo n => exact (combo_disjoint h.symm).symm
    | dkl phy => exact (dkl_disjoint h.symm).symm
    | dpMN q =>
        have hne : ∀ p q : Fin 4, p ≠ q →
            ∀ addr ∈ [pipeM1 p, pipeN1 p], addr ∉ [pipeM1 q, pipeN1 q] := by decide
        exact ⟨hne p q h, by simp [footprint], by simp [footprint]⟩
    | c10 port => exact (port_disjoint rfl List.not_mem_nil).symm
    | c20 port isBMG => exact (port_disjoint rfl List.not_mem_nil).symm

end PhyKind

/-! ## The classes keep to their footprints -/

structure PhyClass.AccessesOnly {Φ : Type} (cls : PhyClass Φ RegOp RegOp.Ans) (P : RegOp → Prop) :
    Prop where
  reads : Accesses P cls.readRegisters
  clock : Accesses P cls.calculatePllClock
  dividers : ∀ x, Accesses P (cls.calculateFeedbackDividers x)
  program : ∀ mod, Accesses P (cls.programMmio mod)

def MmioReg (addrs : List ℕ) : RegOp → Prop
  | .readReg addr | .writeReg addr _ => inAperture addr = false ∧ addr ∈ addrs
  | _ => False

def BusReg (port : ℕ) : RegOp → Prop
  | .cx0Read p _ _ | .cx0Write p _ _ _ _ => p = port
  | _ => False

section Classes

variable {Φ : Type}

theorem Accesses.mono {α : Type} {P Q : RegOp → Prop} (h : ∀ d, P d → Q d)
    {p : PhyProg Φ RegOp RegOp.Ans α} (hp : Accesses P p) : Accesses Q p := by
  refine Prog.Each.mono hp fun o ho => ?_
  cases o with
  | dev d => exact h d ho
  | _ => exact ho

theorem PhyClass.AccessesOnly.mono {cls : PhyClass Φ RegOp RegOp.Ans} {P Q : RegOp → Prop}
    (h : ∀ d, P d → Q d) (hcls : cls.AccessesOnly P) : cls.AccessesOnly Q where
  reads := hcls.reads.mono h
  clock := hcls.clock.mono h
  dividers x := (hcls.dividers x).mono h
  program mod := (hcls.program mod).mono h

theorem combo_accessesOnly (n : Fin 4) :
    (combo n).AccessesOnly (MmioReg [dpllCfgcr0 n, dpllCfgcr1 n]) := by
  have hcr0 : inAperture (dpllCfgcr0 n) = false ∧ dpllCfgcr0 n ∈ [dpllCfgcr0 n, dpllCfgcr1 n] :=
    ⟨inAperture_dpllCfgcr0 n, by simp⟩
  have hcr1 : inAperture (dpllCfgcr1 n) = false ∧ dpllCfgcr1 n ∈ [dpllCfgcr0 n, dpllCfgcr1 n] := by
    refine ⟨?_, by simp⟩
    revert n
    decide
  constructor
  · exact Prog.each_bind (accesses_onDev hcr0) fun _ => Prog.each_bind (accesses_modReg _) fun _ =>
      accesses_load (accesses_onDev hcr1) _
  · exact Prog.each_bind (accesses_onDev hcr0) fun _ =>
      Prog.each_bind (accesses_onDev hcr1) fun _ => trivial
  · exact fun _ => Prog.each_bind (accesses_onDev hcr0) fun _ =>
      Prog.each_bind (accesses_onDev hcr1) fun _ => Prog.each_bind (accesses_modReg _) fun _ =>
        Prog.each_bind (accesses_modReg _) fun _ => trivial
  · exact fun _ => Prog.each_bind accesses_getObj fun _ =>
      Prog.each_bind (accesses_onDev hcr0) fun _ => trivial

theorem dkl_accessesOnly (phy : Fin 6) : (dkl phy).AccessesOnly (DklReg phy) where
  reads := accesses_dklReadRegisters phy
  clock := Prog.each_bind (accesses_dklReadDiv0 phy) fun _ =>
    Prog.each_bind (accesses_readAperture phy (by decide)) fun _ => trivial
  dividers x := by
    refine Prog.each_bind (accesses_dklReadDiv0 phy) fun div0 =>
      Prog.each_bind (accesses_readAperture phy (by decide)) fun _ => ?_
    split
    · exact trivial
    · exact Prog.each_bind (accesses_modReg _) fun _ => trivial
  program := accesses_dklProgramMmio phy

section Bus

variable (port : ℕ)

theorem busReg_cx0Read (lane addr : ℕ) :
    Accesses (BusReg port) (cx0Read port lane addr : RegProg Φ U8) := accesses_onDev rfl

theorem busReg_cx0Write (lane addr : ℕ) (data : U8) (committed : Bool) :
    Accesses (BusReg port) (cx0Write port lane addr data committed : RegProg Φ Unit) :=
  accesses_onDev rfl

theorem busReg_write (mask : LaneMask) (addr : ℕ) (data : U8) (committed : Bool) :
    Accesses (BusReg port) (intelCx0Write port mask addr data committed : RegProg Φ Unit) :=
  Prog.each_forEach (fun _ => busReg_cx0Write port _ _ _ _) _

theorem busReg_rmw (mask : LaneMask) (addr : ℕ) (clear set : U8) (committed : Bool) :
    Accesses (BusReg port) (intelCx0Rmw port mask addr clear set committed : RegProg Φ Unit) := by
  refine Prog.each_forEach (fun lane => Prog.each_bind (busReg_cx0Read port _ _) fun old => ?_) _
  dsimp only
  split
  · exact busReg_cx0Write port _ _ _ _
  · exact trivial

theorem busReg_sramRead (addr : U16) :
    Accesses (BusReg port) (intelC20SramRead port addr : RegProg Φ U16) :=
  Prog.each_bind (busReg_write port _ _ _ _) fun _ => Prog.each_bind (busReg_write port _ _ _ _) fun _ =>
    Prog.each_bind (busReg_cx0Read port _ _) fun _ => Prog.each_bind (busReg_cx0Read port _ _) fun _ =>
      trivial

theorem busReg_sramWrite (addr data : U16) :
    Accesses (BusReg port) (intelC20SramWrite port addr data : RegProg Φ Unit) :=
  Prog.each_bind (busReg_write port _ _ _ _) fun _ => Prog.each_bind (busReg_write port _ _ _ _) fun _ =>
    Prog.each_bind (busReg_write port _ _ _ _) fun _ => busReg_write port _ _ _ _

theorem c10_accessesOnly : (c10 port).AccessesOnly (BusReg port) where
  reads := Prog.each_forEach (fun _ => accesses_load (busReg_cx0Read port _ _) _) _
  clock := by
    refine Prog.each_bind accesses_getObj fun o => ?_
    split <;> exact trivial
  dividers _ := by
    refine Prog.each_bind accesses_getObj fun o => ?_
    split
    · exact trivial
    · exact Prog.each_bind (accesses_modReg _) fun _ =>
        Prog.each_bind (accesses_modReg _) fun _ => trivial
  program _ :=
    Prog.each_bind (busReg_rmw port _ _ _ _ _) fun _ =>
    Prog.each_bind (busReg_rmw port _ _ _ _ _) fun _ =>
    Prog.each_bind (busReg_rmw port _ _ _ _ _) fun _ =>
    Prog.each_bind accesses_getObj fun _ => Prog.each_bind (busReg_write port _ _ _ _) fun _ =>
    Prog.each_bind accesses_getObj fun _ => Prog.each_bind (busReg_write port _ _ _ _) fun _ =>
    Prog.each_bind (busReg_rmw port _ _ _ _ _) fun _ => trivial

theorem c20_accessesOnly (isBMG : Bool) : (c20 port isBMG).AccessesOnly (BusReg port) where
  reads := by
    have hstate (i : ℕ) (addr : U16) : Accesses (BusReg port) (C20.readState port i addr) :=
      accesses_load (busReg_sramRead port _) _
    refine Prog.each_bind (busReg_cx0Read port _ _) fun rate => ?_
    refine Prog.each_bind (Prog.each_forEach (fun i => ?_) _) fun _ => ?_
    · exact Prog.each_bind (busReg_sramRead port _) fun _ =>
        Prog.each_bind (accesses_modReg _) fun _ => accesses_modReg _
    refine Prog.each_bind (Prog.each_forEach
      (fun i => accesses_load (busReg_sramRead port _) _) _) fun _ => ?_
    refine Prog.each_bind accesses_getObj fun o => ?_
    refine Prog.each_bind (Prog.each_forEach (fun i => hstate i _) _) fun _ => ?_
    exact Prog.each_bind (hstate 8 _) fun _ => Prog.each_bind (hstate 9 _) fun _ => accesses_modReg _
  clock := Prog.each_bind accesses_getObj fun _ => trivial
  dividers _ := Prog.each_bind accesses_getObj fun _ => Prog.each_bind (accesses_modReg _) fun _ =>
    Prog.each_bind (accesses_modReg _) fun _ => trivial
  program _ :=
    Prog.each_bind accesses_getObj fun _ =>
    Prog.each_bind accesses_getObj fun _ => Prog.each_bind (busReg_sramWrite port _ _) fun _ =>
    Prog.each_bind accesses_getObj fun _ => Prog.each_bind (busReg_sramWrite port _ _) fun _ =>
    Prog.each_bind (busReg_sramWrite port _ _) fun _ => trivial

end Bus

theorem dpMN_accessesOnly (pipe : Fin 4) :
    (dpMN pipe).AccessesOnly (MmioReg [pipeM1 pipe, pipeN1 pipe]) := by
  have hm : inAperture (pipeM1 pipe) = false ∧ pipeM1 pipe ∈ [pipeM1 pipe, pipeN1 pipe] :=
    ⟨inAperture_pipeM1 pipe, by simp⟩
  have hn : inAperture (pipeN1 pipe) = false ∧ pipeN1 pipe ∈ [pipeM1 pipe, pipeN1 pipe] :=
    ⟨inAperture_pipeN1 pipe, by simp⟩
  constructor
  · exact Prog.each_bind (accesses_onDev hm) fun _ => Prog.each_bind (accesses_modReg _) fun _ =>
      Prog.each_bind (accesses_onDev hn) fun _ => Prog.each_bind (accesses_modReg _) fun _ =>
        Prog.each_bind (accesses_modReg _) fun _ => accesses_modReg _
  · exact Prog.each_bind accesses_getObj fun _ => trivial
  · exact fun _ => Prog.each_bind (accesses_modReg _) fun _ => trivial
  · exact fun _ => Prog.each_bind accesses_getObj fun _ => Prog.each_bind (accesses_onDev hm) fun _ =>
      Prog.each_bind accesses_getObj fun _ => Prog.each_bind (accesses_onDev hn) fun _ => trivial

end Classes

/-! ### The footprints cover them -/

theorem covers_of_mmioReg {addrs : List ℕ} {d : RegOp} (h : MmioReg addrs d) :
    Footprint.Covers ⟨addrs, [], []⟩ d := by
  cases d with
  | readReg addr | writeReg addr val =>
      obtain ⟨hin, hmem⟩ := h
      show Footprint.CoversMmio _ _
      rw [Footprint.CoversMmio, if_neg (by simp [hin])]
      exact hmem
  | cx0Read _ _ _ | cx0Write _ _ _ _ _ => exact h.elim

theorem covers_of_busReg {port : ℕ} {d : RegOp} (h : BusReg port d) :
    Footprint.Covers ⟨[], [], [port]⟩ d := by
  cases d with
  | readReg _ | writeReg _ _ => exact h.elim
  | cx0Read _ _ _ | cx0Write _ _ _ _ _ => exact List.mem_singleton.mpr h

theorem covers_of_dklReg {phy : Fin 6} {d : RegOp} (h : DklReg phy d) :
    (PhyKind.dkl phy).footprint.Covers d := by
  have haperture {addr : ℕ} (haddr : ∃ off < 0x1000, addr = phyNumBase phy + off) :
      (PhyKind.dkl phy).footprint.CoversMmio addr := by
    obtain ⟨off, hoff, rfl⟩ := haddr
    rw [Footprint.CoversMmio, if_pos (inAperture_phyNumBase phy hoff), phy_of_phyNumBase phy hoff]
    exact ⟨List.mem_singleton.mpr rfl, List.mem_singleton.mpr rfl⟩
  cases d with
  | readReg addr => exact haperture h
  | writeReg addr val =>
      cases h with
      | inl h => exact haperture h
      | inr h =>
          show Footprint.CoversMmio _ _
          rw [h.1, Footprint.CoversMmio, if_neg (by simp [hipIndexReg_not_inAperture])]
          exact List.mem_singleton.mpr rfl
  | cx0Read _ _ _ | cx0Write _ _ _ _ _ => exact h.elim

theorem PhyKind.accessesOnly (k : PhyKind) : k.cls.AccessesOnly k.footprint.Covers := by
  cases k with
  | combo n => exact (combo_accessesOnly n).mono fun _ => covers_of_mmioReg
  | dkl phy => exact (dkl_accessesOnly phy).mono fun _ => covers_of_dklReg
  | c10 port => exact (c10_accessesOnly port).mono fun _ => covers_of_busReg
  | c20 port isBMG => exact (c20_accessesOnly port isBMG).mono fun _ => covers_of_busReg
  | dpMN pipe => exact (dpMN_accessesOnly pipe).mono fun _ => covers_of_mmioReg

end Genlock.Vsyncalter
