import Genlock.Vsyncalter.Copies
import Genlock.Vsyncalter.Repaid

/-! # The feedback dividers of the five classes

Each divider register as a cell of the hardware, with what the accesses of its class
do to it. The caller and the handler may program it at the same time.
-/

namespace Genlock.Vsyncalter

variable {Φ α : Type}

/-! ## What an access does to the debt -/

namespace Divider

variable {D : Divider Φ} {g : Debt Φ} {W : Prop}

theorem access_repaid {d : RegOp}
    (h : D.Restores g.latched d ∨ D.Keeps g.latched d ∧ g.Repaid) : (D.access d g).Repaid where
  owes howes := by
    rcases h with hrestores | ⟨hkeeps, hrepaid⟩
    · exact howes.1 hrestores
    · rcases howes.2 with howes | hnot
      · exact hrepaid.owes howes
      · exact hnot hkeeps
  paid := h.symm.imp_left fun hboth => hboth.2.paid
  lent hlent := by
    rcases h with hrestores | ⟨-, hrepaid⟩
    · exact hlent.2 hrestores
    · exact hrepaid.lent hlent.1

theorem lend_repaid (f : Obj Φ → Obj Φ) (h : g.Repaid) : (lend f g).Repaid where
  owes howes := h.owes howes.1
  paid := h.paid
  lent hlent := hlent.elim h.lent fun howes => h.owes howes.1

def Within (D : Divider Φ) (P : RegOp → Prop) : PhyOp Φ RegOp → Prop
  | .getObj => True
  | .modObj f => (∀ obj, D.copies obj.reg → D.copies (f obj).reg) ∧ ∀ obj, (f obj).base = obj.base
  | .dev d => P d
  | _ => False

theorem within_getObj (P : RegOp → Prop) : (getObj : RegProg Φ (Obj Φ)).Each (D.Within P) :=
  ⟨trivial, fun _ => trivial⟩

theorem within_modReg (P : RegOp → Prop) {f : Φ → Φ} (h : ∀ r, D.copies r → D.copies (f r)) :
    (modReg f : RegProg Φ Unit).Each (D.Within P) :=
  ⟨⟨fun obj => h obj.reg, fun _ => rfl⟩, fun _ => trivial⟩

theorem within_onDev {P : RegOp → Prop} {d : RegOp} (h : P d) :
    (onDev d : RegProg Φ d.Ans).Each (D.Within P) := ⟨h, fun _ => trivial⟩

theorem within_intelCx0Write {P : RegOp → Prop} {port : ℕ} {mask : LaneMask} {addr : ℕ} {data : U8}
    {committed : Bool} (h : ∀ lane, P (.cx0Write port lane addr data committed)) :
    (intelCx0Write port mask addr data committed : RegProg Φ Unit).Each (D.Within P) :=
  Prog.each_forEach (fun lane => within_onDev (h lane)) _

theorem within_intelCx0Rmw {P : RegOp → Prop} {port : ℕ} {mask : LaneMask} {addr : ℕ} {clear set : U8}
    {committed : Bool} (hread : ∀ lane, P (.cx0Read port lane addr))
    (hwrite : ∀ lane data, P (.cx0Write port lane addr data committed)) :
    (intelCx0Rmw port mask addr clear set committed : RegProg Φ Unit).Each (D.Within P) := by
  refine Prog.each_forEach (fun lane => Prog.each_bind (within_onDev (hread lane)) fun old => ?_) _
  dsimp only
  split
  · exact within_onDev (hwrite lane _)
  · exact trivial

theorem within_intelC20SramWrite {P : RegOp → Prop} {port : ℕ} {addr data : U16}
    (h : ∀ r data committed, P (.cx0Write port 0 r data committed)) :
    (intelC20SramWrite port addr data : RegProg Φ Unit).Each (D.Within P) :=
  ⟨h _ _ _, fun _ => ⟨h _ _ _, fun _ => ⟨h _ _ _, fun _ => ⟨h _ _ _, fun _ => trivial⟩⟩⟩⟩

theorem not_lowers [Nonempty Φ] {f : Obj Φ → Obj Φ} (hf : ∀ obj, (f obj).base = obj.base) :
    ¬Lowers f := by
  intro hlower
  obtain ⟨reg⟩ := ‹Nonempty Φ›
  have hdone := hlower ⟨⟨true, 0, 0, 0, 0⟩, reg⟩
  rw [hf] at hdone
  cases hdone

theorem along_onDev (hg : g.phase.Sharing) {d : RegOp} (hframe : D.KeepsFrame g.latched d)
    {Q : d.Ans → Debt Φ → Prop}
    (h : ∀ a, (∃ hw, D.frame hw ∧ (hw.exec d).map Prod.fst = some a) → Q a (D.access d g)) :
    (onDev d : RegProg Φ d.Ans).Along D.discipline Q g := by
  refine ⟨⟨hg.ne_idle, fun _ => hframe, fun hnot => absurd hg hnot⟩, fun a ha => ?_⟩
  show Q a (D.next (.dev d) a g)
  rw [next_dev hg]
  exact h a (ha.1 hg)

theorem along_modReg [Nonempty Φ] (hg : g.phase.Sharing) {f : Φ → Φ}
    (hf : ∀ r, D.copies r → D.copies (f r)) {Q : Unit → Debt Φ → Prop}
    (h : Q () (lend (fun o => { o with reg := f o.reg }) g)) :
    (modReg f : RegProg Φ Unit).Along D.discipline Q g := by
  refine ⟨⟨hg.ne_idle, fun _ => ⟨fun obj => hf obj.reg, Or.inl fun _ hdone => hdone, ?_⟩⟩, fun _ _ => ?_⟩
  · exact fun hlower => absurd hlower (not_lowers fun _ => rfl)
  · show Q () (D.next (.modObj _) () g)
    rw [next_modObj hg]
    exact h

/-- Accesses that keep what the divider needs, and the divider once `W` says it is written. -/
theorem along_within [Nonempty Φ] {P : RegOp → Prop} {p : RegProg Φ α} (hp : p.Each (D.Within P))
    (hP : ∀ d, P d → ∀ l, D.KeepsFrame l d ∧ (W → D.Keeps l d)) (hg : g.phase.Sharing)
    (hw : W → g.Repaid) :
    p.Along D.discipline (fun _ g' => g'.phase = g.phase ∧ (W → g'.Repaid)) g := by
  induction p generalizing g with
  | pure a => exact ⟨rfl, hw⟩
  | fail => trivial
  | step o k ih =>
      cases o with
      | getObj => exact ⟨hg.ne_idle, fun a _ => ih a (hp.2 a) hg hw⟩
      | modObj f =>
          have hnot : ¬Lowers f := not_lowers hp.1.2
          have hleaves : LeavesDone f := by
            intro obj hdone
            rwa [hp.1.2] at hdone
          refine ⟨⟨hg.ne_idle, fun _ => ⟨hp.1.1, Or.inl hleaves, fun hlower => absurd hlower hnot⟩⟩, ?_⟩
          intro a _
          show (k a).Along D.discipline _ (D.next (.modObj f) () g)
          rw [next_modObj hg]
          exact ih a (hp.2 a) (g := lend f g) hg fun h => lend_repaid f (hw h)
      | dev d =>
          obtain ⟨hframe, hkeeps⟩ := hP d hp.1 g.latched
          refine ⟨⟨hg.ne_idle, fun _ => hframe, fun hnot => absurd hg hnot⟩, fun a _ => ?_⟩
          show (k a).Along D.discipline _ (D.next (.dev d) a g)
          rw [next_dev hg]
          exact ih a (hp.2 a) (g := D.access d g) hg fun h => access_repaid (Or.inr ⟨hkeeps h, hw h⟩)
      | clientDone | usleep | timerDelete | makeTimer | await | enter => exact hp.1.elim

theorem along_framed [Nonempty Φ] {P : RegOp → Prop} {p : RegProg Φ α} (hp : p.Each (D.Within P))
    (hP : ∀ d, P d → ∀ l, D.KeepsFrame l d) (hg : g.phase.Sharing) :
    p.Along D.discipline (fun _ g' => g'.phase = g.phase) g :=
  (along_within (W := False) hp (fun d hd l => ⟨hP d hd l, False.elim⟩) hg False.elim).mono
    fun _ _ h => h.1

/-- One of several writes: at the divider it restores it, elsewhere it keeps it. -/
theorem along_write {κ : Type} (a key : κ) {d : RegOp} (hframe : D.KeepsFrame g.latched d)
    (hrestores : a = key → D.Restores g.latched d) (hkeeps : a ≠ key → D.Keeps g.latched d)
    (hg : g.phase.Sharing) (hw : W → g.Repaid) : (onDev d : RegProg Φ d.Ans).Along D.discipline
      (fun _ g' => g'.phase = g.phase ∧ (W ∨ a = key → g'.Repaid)) g := by
  refine along_onDev hg hframe fun _ _ => ⟨rfl, fun h => access_repaid ?_⟩
  by_cases heq : a = key
  · exact Or.inl (hrestores heq)
  · exact Or.inr ⟨hkeeps heq, hw (h.resolve_right heq)⟩

end Divider

/-! ## Combo, M and N -/

instance : Inhabited ComboPhyReg := ⟨⟨⟨0, 0⟩, ⟨0, 0⟩⟩⟩

instance : Inhabited DpMNPhyReg := ⟨⟨⟨0, 0⟩, ⟨0, 0⟩⟩⟩

theorem SameDividers.dividerMmio {hw hw' : Hw} (h : SameDividers hw hw') {addr : ℕ}
    (haddr : (∃ n, addr = dpllCfgcr0 n) ∨ ∃ pipe, addr = pipeM1 pipe ∨ addr = pipeN1 pipe) :
    hw'.mmio addr = hw.mmio addr := by
  rcases haddr with ⟨n, rfl⟩ | ⟨pipe, rfl | rfl⟩
  · exact (h.combo n).1
  · exact (h.dpMN pipe).1
  · exact (h.dpMN pipe).2

def mmioDivider (addr : ℕ) (val : U32) (copies : Φ → Prop)
    (haddr : (∃ n, addr = dpllCfgcr0 n) ∨ ∃ pipe, addr = pipeM1 pipe ∨ addr = pipeN1 pipe) :
    Divider Φ where
  intact hw := hw.mmio addr = val
  frame _ := True
  copies := copies
  sees _ _ _ := True
  intact_of_same h hintact := (h.dividerMmio haddr).trans hintact

section Mmio

variable {addr : ℕ} {val : U32} {copies : Φ → Prop}
  {haddr : (∃ n, addr = dpllCfgcr0 n) ∨ ∃ pipe, addr = pipeM1 pipe ∨ addr = pipeN1 pipe}
  {g : Debt Φ} {W : Prop}

theorem mmioDivider_keepsFrame (d : RegOp) (_ : True) (l : ℕ → U8) :
    (mmioDivider addr val copies haddr).KeepsFrame l d := fun _ _ _ => trivial

theorem Hw.writeReg_mmio_apply (hw : Hw) {a : ℕ} (v : U32) (ha : inAperture a = false) (addr : ℕ) :
    (hw.writeReg a v).mmio addr = if addr = a then v else hw.mmio addr := by
  rw [Hw.writeReg_mmio hw v ha]
  exact Function.update_apply ..

theorem along_writeMmio {a : ℕ} {v : U32} (ha : inAperture a = false) (hv : a = addr → v = val)
    (hg : g.phase.Sharing) (hw : W → g.Repaid) :
    (writeReg a v : RegProg Φ Unit).Along (mmioDivider addr val copies haddr).discipline
      (fun _ g' => g'.phase = g.phase ∧ (W ∨ a = addr → g'.Repaid)) g := by
  refine Divider.along_write a addr (mmioDivider_keepsFrame _ trivial _) ?_ ?_ hg hw
  · intro heq hw _ _
    exact (hw.writeReg_mmio_apply v ha addr).trans ((if_pos heq.symm).trans (hv heq))
  · intro hne hw _ _ hintact
    exact (hw.writeReg_mmio_apply v ha addr).trans ((if_neg hne.symm).trans hintact)

end Mmio

def comboDivider (n : Fin 4) (hw : Hw) : Divider ComboPhyReg :=
  mmioDivider (dpllCfgcr0 n) (hw.mmio (dpllCfgcr0 n))
    (fun r => r.cfgcr0.origVal = hw.mmio (dpllCfgcr0 n)) (Or.inl ⟨n, rfl⟩)

theorem combo_repays (n : Fin 4) (hw : Hw) : (combo n).Repays (comboDivider n hw) where
  observing := combo_observing n
  succeeds := combo_neverFails n
  dividers x _ hg := by
    refine Divider.along_framed ?_ mmioDivider_keepsFrame hg
    exact Prog.each_bind (Divider.within_onDev trivial) fun _ =>
      Prog.each_bind (Divider.within_onDev trivial) fun _ =>
      Prog.each_bind (Divider.within_modReg _ fun _ h => h) fun _ =>
      Prog.each_bind (Divider.within_modReg _ fun _ h => h) fun _ => trivial
  modified hg := by
    refine Divider.along_framed ?_ mmioDivider_keepsFrame hg
    exact Prog.each_bind (Divider.within_getObj _) fun _ =>
      Prog.each_bind (Divider.within_onDev trivial) fun _ => trivial
  original hg := ⟨hg.ne_idle, fun o ho =>
    (along_writeMmio (W := False) (inAperture_dpllCfgcr0 n) (fun _ => ho.1 hg) hg
      False.elim).bind fun _ _ h => ⟨h.1, h.2 (Or.inr rfl)⟩⟩

theorem combo_prepares (n : Fin 4) (hw : Hw) (obj : Obj ComboPhyReg) :
    (combo n).Prepares (comboDivider n hw) ⟨hw, obj, false, none⟩ := by
  intro r hrun
  obtain rfl := Option.some.inj hrun
  exact ⟨trivial, hw.readReg_mmio (inAperture_dpllCfgcr0 n)⟩

def dpMNDivider (pipe : Fin 4) (hw : Hw) (addr : ℕ) (haddr : addr = pipeM1 pipe ∨ addr = pipeN1 pipe) :
    Divider DpMNPhyReg :=
  mmioDivider addr (hw.mmio addr)
    (fun r => r.mreg.origVal = hw.mmio (pipeM1 pipe) ∧ r.nreg.origVal = hw.mmio (pipeN1 pipe))
    (Or.inr ⟨pipe, haddr⟩)

section DpMN

variable (pipe : Fin 4) (hw : Hw) {addr : ℕ} (haddr : addr = pipeM1 pipe ∨ addr = pipeN1 pipe)

theorem dpMN_repays : (dpMN pipe).Repays (dpMNDivider pipe hw addr haddr) where
  observing := dpMN_observing pipe
  succeeds := dpMN_neverFails pipe
  dividers _ _ hg := by
    refine Divider.along_framed ?_ mmioDivider_keepsFrame hg
    exact Prog.each_bind (Divider.within_modReg _ fun _ h => h) fun _ => trivial
  modified hg := by
    refine Divider.along_framed ?_ mmioDivider_keepsFrame hg
    exact Prog.each_bind (Divider.within_getObj _) fun _ =>
      Prog.each_bind (Divider.within_onDev trivial) fun _ =>
      Prog.each_bind (Divider.within_getObj _) fun _ =>
      Prog.each_bind (Divider.within_onDev trivial) fun _ => trivial
  original {g} hg := by
    refine ⟨hg.ne_idle, fun o ho => ?_⟩
    have hm : pipeM1 pipe = addr → o.reg.mreg.value false = hw.mmio addr := by
      rintro rfl
      exact (ho.1 hg).1
    refine (along_writeMmio (W := False) (inAperture_pipeM1 pipe) hm hg False.elim).bind ?_
    rintro _ g₁ ⟨hphase, hwritten⟩
    have hg₁ : g₁.phase.Sharing := by rwa [hphase]
    refine ⟨hg₁.ne_idle, fun o ho => ?_⟩
    have hn : pipeN1 pipe = addr → o.reg.nreg.value false = hw.mmio addr := by
      rintro rfl
      exact (ho.1 hg₁).2
    refine (along_writeMmio (inAperture_pipeN1 pipe) hn hg₁ hwritten).bind fun _ g₂ h => ?_
    exact ⟨h.1.trans hphase, h.2 (haddr.imp (fun h => Or.inr h.symm) Eq.symm)⟩

theorem dpMN_prepares (obj : Obj DpMNPhyReg) :
    (dpMN pipe).Prepares (dpMNDivider pipe hw addr haddr) ⟨hw, obj, false, none⟩ := by
  intro r hrun
  obtain rfl := Option.some.inj hrun
  exact ⟨trivial, hw.readReg_mmio (inAperture_pipeM1 pipe), hw.readReg_mmio (inAperture_pipeN1 pipe)⟩

end DpMN

/-! ## C10 -/

instance : Inhabited C10PhyReg := ⟨⟨fun _ => 0, fun _ => 0⟩⟩

def C10QuotByte (i : ℕ) : Prop := i = c10PllRegQuotLow ∨ i = c10PllRegQuotHigh

def c10Divider (port : ℕ) (hw : Hw) (i : ℕ) (hi : C10QuotByte i) : Divider C10PhyReg where
  intact hw' := c10State port hw' i = c10State port hw i
  frame _ := True
  copies r := ∀ j, C10QuotByte j → r.pllStateOrig j = c10State port hw j
  sees _ _ _ := True
  intact_of_same h hintact := by
    rcases hi with rfl | rfl
    · exact (h.c10 port 0).1.trans hintact
    · exact (h.c10 port 0).2.trans hintact

section C10

variable (port : ℕ) (hw : Hw) {i : ℕ} (hi : C10QuotByte i)

theorem c10Divider_keepsFrame (d : RegOp) (_ : True) (l : ℕ → U8) :
    (c10Divider port hw i hi).KeepsFrame l d := fun _ _ _ => trivial

/-- The registers that `program_mmio` changes besides the quotient. -/
theorem c10Divider_quiet (lane : ℕ) {addr : ℕ} (haddr : addr = phyC10VdrControl 1 ∨ addr = phyC10VdrCustomWidth)
    (data : U8) (committed : Bool) (l : ℕ → U8) :
    (c10Divider port hw i hi).Keeps l (.cx0Write port lane addr data committed) := by
  intro hw' _ _ hintact
  have hne : phyC10VdrPll i ≠ addr := by
    rcases hi with rfl | rfl <;> rcases haddr with rfl | rfl <;> decide
  show (hw'.cx0Write port lane addr data committed).vdr port 0 (phyC10VdrPll i) = _
  rw [Hw.cx0Write_plain _ _ _ (by rcases haddr with rfl | rfl <;> decide)
    (by rcases haddr with rfl | rfl <;> decide), Hw.setVdr_vdr_ne _ _ hne]
  exact hintact

theorem along_rmwC10 {g : Debt C10PhyReg} {W : Prop} {mask : LaneMask} {addr : ℕ}
    (haddr : addr = phyC10VdrControl 1 ∨ addr = phyC10VdrCustomWidth) (clear set : U8)
    (hg : g.phase.Sharing) (hw' : W → g.Repaid) :
    (intelCx0Rmw port mask addr clear set true : RegProg C10PhyReg Unit).Along
      (c10Divider port hw i hi).discipline
      (fun _ g' => g'.phase = g.phase ∧ (W → g'.Repaid)) g := by
  refine Divider.along_within (Divider.within_intelCx0Rmw
    (P := fun d => ∀ l, (c10Divider port hw i hi).Keeps l d) ?_ ?_)
    (fun d hd l => ⟨c10Divider_keepsFrame port hw hi d trivial l, fun _ => hd l⟩) hg hw'
  · exact fun _ _ _ _ _ hintact => hintact
  · exact fun lane data => c10Divider_quiet port hw hi lane haddr data true

theorem along_writeC10 {g : Debt C10PhyReg} {W : Prop} {j : ℕ} {data : U8} (hj : C10QuotByte j)
    (hdata : data = c10State port hw j) (hg : g.phase.Sharing) (hw' : W → g.Repaid) :
    (intelCx0Write port .lane0 (phyC10VdrPll j) data true : RegProg C10PhyReg Unit).Along
      (c10Divider port hw i hi).discipline
      (fun _ g' => g'.phase = g.phase ∧ (W ∨ j = i → g'.Repaid)) g := by
  have hafter (hw' : Hw) : c10State port (hw'.after (.cx0Write port 0 (phyC10VdrPll j) data true)) i =
      if i = j then data else c10State port hw' i := by
    show (hw'.cx0Write port 0 (phyC10VdrPll j) data true).vdr port 0 (phyC10VdrPll i) = _
    rw [Hw.cx0Write_plain _ _ _ (by rcases hj with rfl | rfl <;> decide)
      (by rcases hj with rfl | rfl <;> decide), Hw.setVdr_vdr]
    simp only [phyC10VdrPll, Nat.add_left_cancel_iff, c10State]
  refine (Divider.along_write j i (c10Divider_keepsFrame port hw hi _ trivial _) ?_ ?_ hg hw').bind
    fun _ _ h => h
  · rintro rfl hw' _ _
    exact (hafter hw').trans ((if_pos rfl).trans hdata)
  · intro hne hw' _ _ hintact
    exact (hafter hw').trans ((if_neg hne.symm).trans hintact)

theorem c10_repays : (c10 port).Repays (c10Divider port hw i hi) where
  observing := c10_observing port
  succeeds := c10_neverFails port
  dividers x _ hg := by
    refine Divider.along_framed ?_ (c10Divider_keepsFrame port hw hi) hg
    refine Prog.each_bind (Divider.within_getObj _) fun o => ?_
    split
    · exact trivial
    · exact Prog.each_bind (Divider.within_modReg _ fun _ h => h) fun _ =>
        Prog.each_bind (Divider.within_modReg _ fun _ h => h) fun _ => trivial
  modified hg := by
    refine Divider.along_framed ?_ (c10Divider_keepsFrame port hw hi) hg
    exact
      Prog.each_bind (Divider.within_intelCx0Rmw (fun _ => trivial) fun _ _ => trivial) fun _ =>
      Prog.each_bind (Divider.within_intelCx0Rmw (fun _ => trivial) fun _ _ => trivial) fun _ =>
      Prog.each_bind (Divider.within_intelCx0Rmw (fun _ => trivial) fun _ _ => trivial) fun _ =>
      Prog.each_bind (Divider.within_getObj _) fun _ =>
      Prog.each_bind (Divider.within_intelCx0Write fun _ => trivial) fun _ =>
      Prog.each_bind (Divider.within_getObj _) fun _ =>
      Prog.each_bind (Divider.within_intelCx0Write fun _ => trivial) fun _ =>
      Prog.each_bind (Divider.within_intelCx0Rmw (fun _ => trivial) fun _ _ => trivial) fun _ => trivial
  original {g} hg := by
    have hcontrol : phyC10VdrControl 1 = phyC10VdrControl 1 ∨ phyC10VdrControl 1 = phyC10VdrCustomWidth :=
      Or.inl rfl
    apply (along_rmwC10 port hw hi (W := False) hcontrol _ _ hg False.elim).bind
    rintro _ g₁ ⟨hphase₁, -⟩
    rw [← hphase₁] at hg
    apply (along_rmwC10 port hw hi (W := False) (Or.inr rfl) _ _ hg False.elim).bind
    rintro _ g₂ ⟨hphase₂, -⟩
    rw [← hphase₂] at hg
    apply (along_rmwC10 port hw hi (W := False) hcontrol _ _ hg False.elim).bind
    rintro _ g₃ ⟨hphase₃, -⟩
    rw [← hphase₃] at hg
    refine ⟨hg.ne_idle, fun o ho => ?_⟩
    apply (along_writeC10 port hw hi (W := False) (Or.inl rfl) (ho.1 hg _ (Or.inl rfl)) hg
      False.elim).bind
    rintro _ g₄ ⟨hphase₄, hlow⟩
    rw [← hphase₄] at hg
    refine ⟨hg.ne_idle, fun o ho => ?_⟩
    apply (along_writeC10 port hw hi (Or.inr rfl) (ho.1 hg _ (Or.inr rfl)) hg hlow).bind
    rintro _ g₅ ⟨hphase₅, hboth⟩
    rw [← hphase₅] at hg
    apply (along_rmwC10 port hw hi hcontrol _ _ hg hboth).bind
    rintro _ g₆ ⟨hphase₆, hrepaid⟩
    have hsame : g₆.phase = g.phase := by
      rw [hphase₆, hphase₅, hphase₄, hphase₃, hphase₂, hphase₁]
    exact ⟨hsame, hrepaid (hi.imp (fun h => Or.inr h.symm) Eq.symm)⟩

theorem c10_prepares (obj : Obj C10PhyReg) :
    (c10 port).Prepares (c10Divider port hw i hi) ⟨hw, obj, false, none⟩ := by
  intro r hrun
  rw [Prog.run_bind_of (p := (c10 port).readRegisters) c10_readRegisters_run] at hrun
  rw [(c10_decodesCopy port).clock] at hrun
  obtain ⟨clock, -, rfl⟩ := Option.map_eq_some_iff.mp hrun
  refine ⟨trivial, fun j hj => if_pos ?_⟩
  rcases hj with rfl | rfl <;> decide

end C10

/-! ## C20 -/

instance : Inhabited C20PhyReg := ⟨C20PhyReg.zero⟩

/-- A committed write of the low data byte finds the address and the high byte that
`l` remembers. -/
def SeesWindow (port : ℕ) (l : ℕ → U8) (d : RegOp) (hw : Hw) : Prop :=
  match d with
  | .cx0Write port' lane addr _ committed =>
      port' = port ∧ lane = 0 ∧ addr = phyC20WrDataL ∧ committed = true →
        ∀ r ∈ [phyC20WrAddressH, phyC20WrAddressL, phyC20WrDataH], hw.vdr port 0 r = l r
  | _ => True

instance (port : ℕ) (l : ℕ → U8) (d : RegOp) (hw : Hw) : Decidable (SeesWindow port l d hw) := by
  cases d with
  | cx0Write => exact inferInstanceAs (Decidable (_ → _))
  | readReg | writeReg | cx0Read => exact .isTrue trivial

def c20Divider (port : ℕ) (isBMG : Bool) (hw : Hw) (addr : U16) : Divider C20PhyReg where
  intact hw' := hw'.sram port addr = hw.sram port addr
  frame _ := True
  copies r := c20Mpll (r.tx 0) = c20HwMpll port isBMG hw ∧
    r.pllStateOrig 8 = hw.sram port (rawcmnDigCfg8 (c20HwMpll port isBMG hw)) ∧
    r.pllStateOrig 9 = hw.sram port (rawcmnDigCfg9 (c20HwMpll port isBMG hw))
  sees := SeesWindow port
  intact_of_same h hintact := by rw [h.c20, hintact]

/-- The committed write of the low data byte. -/
theorem Hw.commit_sram (hw : Hw) (port : ℕ) (data : U8) (addr : U16) :
    (hw.cx0Write port 0 phyC20WrDataL data true).sram port addr =
      if addr = hw.wrAddress port then word (hw.vdr port 0 phyC20WrDataH) data
      else hw.sram port addr := by
  unfold Hw.cx0Write Hw.setSram Hw.wrAddress Hw.wrData
  simp only [Bool.and_true, beq_self_eq_true, if_true, Function.update_self, Function.update_apply,
    Hw.setVdr_vdr]
  rfl

section C20

variable (port : ℕ) (isBMG : Bool) (hw : Hw) {addr : U16}

theorem c20Divider_keepsFrame (d : RegOp) (_ : True) (l : ℕ → U8) :
    (c20Divider port isBMG hw addr).KeepsFrame l d := fun _ _ _ => trivial

theorem along_intelC20SramWrite {g : Debt C20PhyReg} {W : Prop} {a v : U16}
    (hv : a = addr → v = hw.sram port addr) (hg : g.phase.Sharing) (hw' : W → g.Repaid) :
    (intelC20SramWrite port a v : RegProg C20PhyReg Unit).Along
      (c20Divider port isBMG hw addr).discipline
      (fun _ g' => g'.phase = g.phase ∧ (W ∨ a = addr → g'.Repaid)) g := by
  have hlatch {g : Debt C20PhyReg} (hg : g.phase.Sharing) (hw' : W → g.Repaid) (r : ℕ) (data : U8) :
      (intelCx0Write port .lane0 r data false : RegProg C20PhyReg Unit).Along
        (c20Divider port isBMG hw addr).discipline (fun _ g' => g'.phase = g.phase ∧
          (W → g'.Repaid) ∧ g'.latched = Function.update g.latched r data) g := by
    refine (Divider.along_onDev hg (c20Divider_keepsFrame port isBMG hw _ trivial _) ?_).bind
      fun _ _ h => h
    refine fun _ _ => ⟨rfl, fun h => Divider.access_repaid (Or.inr ⟨?_, hw' h⟩), rfl⟩
    intro hw₁ _ _ hintact
    exact hintact
  unfold intelC20SramWrite
  apply (hlatch hg hw' _ _).bind
  rintro _ g₁ ⟨hphase₁, hrepaid₁, hlatched₁⟩
  rw [← hphase₁] at hg
  apply (hlatch hg hrepaid₁ _ _).bind
  rintro _ g₂ ⟨hphase₂, hrepaid₂, hlatched₂⟩
  rw [← hphase₂] at hg
  apply (hlatch hg hrepaid₂ _ _).bind
  rintro _ g₃ ⟨hphase₃, hrepaid₃, hlatched₃⟩
  rw [← hphase₃] at hg
  -- The commit goes to the address that was latched here.
  have hcommit (hw₁ : Hw) (hsees : SeesWindow port g₃.latched
      (.cx0Write port 0 phyC20WrDataL (lowByte v) true) hw₁) :
      (hw₁.cx0Write port 0 phyC20WrDataL (lowByte v) true).sram port addr =
        if addr = a then v else hw₁.sram port addr := by
    have hlatched := hsees ⟨rfl, rfl, rfl, rfl⟩
    simp only [List.forall_mem_cons, hlatched₃, hlatched₂, hlatched₁, Function.update_apply] at hlatched
    obtain ⟨hhigh, hlow, hdata, -⟩ := hlatched
    have haddress : hw₁.wrAddress port = a := by
      rw [Hw.wrAddress, hhigh, hlow]
      exact word_highByte_lowByte a
    have hword : word (hw₁.vdr port 0 phyC20WrDataH) (lowByte v) = v := by
      rw [hdata]
      exact word_highByte_lowByte v
    rw [Hw.commit_sram, haddress, hword]
  have hlast := Divider.along_write (D := c20Divider port isBMG hw addr) a addr
    (c20Divider_keepsFrame port isBMG hw (.cx0Write port 0 phyC20WrDataL (lowByte v) true) trivial _)
    (fun heq hw₁ _ hsees => (hcommit hw₁ hsees).trans ((if_pos heq.symm).trans (hv heq)))
    (fun hne hw₁ _ hsees hintact => (hcommit hw₁ hsees).trans ((if_neg hne.symm).trans hintact))
    hg hrepaid₃
  refine hlast.bind fun _ g₄ h => ⟨?_, h.2⟩
  rw [h.1, hphase₃, hphase₂, hphase₁]

variable (haddr : addr = rawcmnDigCfg8 (c20HwMpll port isBMG hw) ∨
  addr = rawcmnDigCfg9 (c20HwMpll port isBMG hw))

include haddr in
theorem c20_repays : (c20 port isBMG).Repays (c20Divider port isBMG hw addr) where
  observing := c20_observing port isBMG
  succeeds := c20_neverFails port isBMG
  dividers x _ hg := by
    refine Divider.along_framed ?_ (c20Divider_keepsFrame port isBMG hw) hg
    exact Prog.each_bind (Divider.within_getObj _) fun o =>
      Prog.each_bind (Divider.within_modReg _ fun _ h => h) fun _ =>
      Prog.each_bind (Divider.within_modReg _ fun _ h => h) fun _ => trivial
  modified hg := by
    refine Divider.along_framed ?_ (c20Divider_keepsFrame port isBMG hw) hg
    exact
      Prog.each_bind (Divider.within_getObj _) fun _ =>
      Prog.each_bind (Divider.within_getObj _) fun _ =>
      Prog.each_bind (Divider.within_intelC20SramWrite fun _ _ _ => trivial) fun _ =>
      Prog.each_bind (Divider.within_getObj _) fun _ =>
      Prog.each_bind (Divider.within_intelC20SramWrite fun _ _ _ => trivial) fun _ =>
      Prog.each_bind (Divider.within_intelC20SramWrite fun _ _ _ => trivial) fun _ => trivial
  original {g} hg := by
    obtain ⟨-, -, -, -, hne8, hne9⟩ := c20_written_lt (c20HwMpll port isBMG hw)
    refine ⟨hg.ne_idle, fun o ho => ⟨hg.ne_idle, fun o' ho' => ?_⟩⟩
    dsimp only
    rw [show c20Mpll (o.reg.tx 0) = _ from (ho.1 hg).1]
    have h8 : rawcmnDigCfg8 (c20HwMpll port isBMG hw) = addr → o'.reg.value false 8 = hw.sram port addr := by
      rintro rfl
      exact (ho'.1 hg).2.1
    apply (along_intelC20SramWrite port isBMG hw (W := False) h8 hg False.elim).bind
    rintro _ g₁ ⟨hphase₁, hquot⟩
    rw [← hphase₁] at hg
    refine ⟨hg.ne_idle, fun o ho => ?_⟩
    have h9 : rawcmnDigCfg9 (c20HwMpll port isBMG hw) = addr → o.reg.value false 9 = hw.sram port addr := by
      rintro rfl
      exact (ho.1 hg).2.2
    apply (along_intelC20SramWrite port isBMG hw h9 hg hquot).bind
    rintro _ g₂ ⟨hphase₂, hboth⟩
    rw [← hphase₂] at hg
    have hupdate : rawcmnDigFracUpdate (c20HwMpll port isBMG hw) ≠ addr := by
      rcases haddr with rfl | rfl
      · exact hne8.symm
      · exact hne9.symm
    apply (along_intelC20SramWrite port isBMG hw (fun h => absurd h hupdate) hg hboth).bind
    rintro _ g₃ ⟨hphase₃, hrepaid⟩
    have hsame : g₃.phase = g.phase := by
      rw [hphase₃, hphase₂, hphase₁]
    exact ⟨hsame, hrepaid (Or.inl (haddr.imp (fun h => Or.inr h.symm) Eq.symm))⟩

theorem c20_prepares (obj : Obj C20PhyReg) :
    (c20 port isBMG).Prepares (c20Divider port isBMG hw addr) ⟨hw, obj, false, none⟩ := by
  intro r hrun
  obtain ⟨hw', reg, hread, -, htx, hholds, -⟩ := c20_readRegisters_run port isBMG
    (v := fun _ => none) (w := ⟨hw, obj, false, none⟩)
  rw [Prog.run_bind_of (p := (c20 port isBMG).readRegisters) hread] at hrun
  rw [(c20_decodesCopy port isBMG).clock] at hrun
  obtain ⟨clock, -, rfl⟩ := Option.map_eq_some_iff.mp hrun
  exact ⟨trivial, congrArg c20Mpll htx, (hholds 8 (by decide)).1, (hholds 9 (by decide)).1⟩

end C20

/-! ## DKL -/

instance : Inhabited DklPhyReg := ⟨⟨⟨0, 0⟩, ⟨0, 0⟩, ⟨0, 0⟩, ⟨0, 0⟩, ⟨0, 0⟩⟩⟩

/-- A value of `DIV0` with the original pre-divider, which is zero only on page 2. -/
structure DklDiv0 (phy : Fin 6) (hw : Hw) (val : U32) : Prop where
  page : val = 0 → dklPage phy hw = 2
  prediv : getBits val 11 8 = getBits (dklReg phy hw 0x200) 11 8

theorem dklDiv0_original (phy : Fin 6) (hw : Hw) : DklDiv0 phy hw (dklReg phy hw 0x200) where
  page h0 := by
    by_cases h : hw.dkl phy (hw.page phy) 0x200 = 0
    · exact if_pos h
    · rw [dklReg, dklPage_of_ne h] at h0
      exact absurd h0 h
  prediv := rfl

/-- The object holds the original registers, and a `DIV0` to write that keeps the page. -/
structure DklCopies (phy : Fin 6) (hw : Hw) (r : DklPhyReg) : Prop where
  div0 : r.pllDiv0.origVal = dklReg phy hw 0x200
  visa : r.visaSerializer.origVal = dklReg phy hw 0x220
  bias : r.bias.origVal = dklReg phy hw 0x214
  ssc : r.ssc.origVal = dklReg phy hw 0x210
  dco : r.dco.origVal = dklReg phy hw 0x224
  modDiv0 : DklDiv0 phy hw r.pllDiv0.modVal

def dklDivider (phy : Fin 6) (hw : Hw) (off : ℕ) : Divider DklPhyReg where
  intact hw' := hw'.dkl phy (dklPage phy hw) off = dklReg phy hw off
  frame hw' := hw'.page phy = dklPage phy hw ∧ DklDiv0 phy hw (hw'.dkl phy (dklPage phy hw) 0x200)
  copies := DklCopies phy hw
  sees _ _ _ := True
  intact_of_same h hintact := by rw [h.dkl, hintact]

section Dkl

variable {phy : Fin 6} {hw : Hw} {off : ℕ} {g : Debt DklPhyReg} {W : Prop}

theorem along_readDkl (addr : ℕ) (hg : g.phase.Sharing) {Q : U32 → Debt DklPhyReg → Prop}
    (h : ∀ a g', (∃ hw', (dklDivider phy hw off).frame hw' ∧ hw'.readReg addr = a) →
      g'.phase = g.phase → (g.Repaid → g'.Repaid) → Q a g') :
    (readReg addr : RegProg DklPhyReg U32).Along (dklDivider phy hw off).discipline Q g := by
  refine Divider.along_onDev hg (fun _ hframe _ => hframe) fun a ha => ?_
  obtain ⟨hw', hframe, ha⟩ := ha
  refine h a _ ⟨hw', hframe, Option.some.inj ha⟩ rfl fun hrepaid => ?_
  exact Divider.access_repaid (Or.inr ⟨fun _ _ _ hintact => hintact, hrepaid⟩)

theorem along_readDiv0Reg (hg : g.phase.Sharing) :
    (readReg (dklPllDiv0 phy) : RegProg DklPhyReg U32).Along (dklDivider phy hw off).discipline
      (fun a g' => DklDiv0 phy hw a ∧ g'.phase = g.phase) g := by
  refine along_readDkl _ hg fun a g' hread hphase _ => ⟨?_, hphase⟩
  obtain ⟨hw', ⟨hpage, hdiv0⟩, rfl⟩ := hread
  rw [dklPllDiv0, readReg_dkl phy hw' (by norm_num), hpage]
  exact hdiv0

theorem along_selectPage (hpage : dklPage phy hw = 2) (hg : g.phase.Sharing) :
    (Dkl.selectPage phy).Along (dklDivider phy hw off).discipline
      (fun _ g' => g'.phase = g.phase) g := by
  refine Divider.along_onDev hg ?_ fun _ _ => rfl
  rintro hw' ⟨-, hdiv0⟩ _
  refine ⟨(page_selectPage phy hw').trans hpage.symm, ?_⟩
  show DklDiv0 phy hw ((hw'.writeReg (hipIndexReg phy) (hipIndexVal phy)).dkl phy _ 0x200)
  rw [dkl_selectPage]
  exact hdiv0

theorem along_readDiv0 (hg : g.phase.Sharing) :
    (Dkl.readDiv0 phy).Along (dklDivider phy hw off).discipline
      (fun a g' => DklDiv0 phy hw a ∧ g'.phase = g.phase) g := by
  apply (along_readDiv0Reg hg).bind
  rintro a g₁ ⟨hdiv0, hphase₁⟩
  rw [← hphase₁] at hg ⊢
  split
  · rename_i h0
    apply (along_selectPage (hdiv0.page h0) hg).bind
    intro _ g₂ hphase₂
    rw [← hphase₂] at hg ⊢
    exact along_readDiv0Reg hg
  · exact ⟨hdiv0, rfl⟩

theorem along_calculateFeedbackDividers (x : ℚ) (hg : g.phase.Sharing) :
    (Dkl.calculateFeedbackDividers phy x).Along (dklDivider phy hw off).discipline
      (fun _ g' => g'.phase = g.phase) g := by
  apply (along_readDiv0 hg).bind
  rintro div0 g₁ ⟨hdiv0, hphase₁⟩
  rw [← hphase₁] at hg ⊢
  refine Prog.Along.bind (R := fun _ g' => g'.phase = g₁.phase)
    (along_readDkl _ hg fun _ _ _ hphase _ => hphase) ?_
  intro _ g₂ hphase₂
  rw [← hphase₂] at hg ⊢
  cases hdividers : dklFeedbackDividers x div0 with
  | none => trivial
  | some dividers =>
      refine (Divider.along_modReg hg (Q := fun _ g' => g'.phase = g₂.phase) ?_ rfl).bind
        fun _ _ h => h
      intro r hcopies
      have hprediv := div0_prediv r dividers
      have hne : getBits div0 11 8 ≠ 0 := by
        intro h0
        rw [dklFeedbackDividers, if_pos h0] at hdividers
        cases hdividers
      refine { hcopies with modDiv0 := ⟨fun h0 => ?_, hprediv.trans hcopies.modDiv0.prediv⟩ }
      rw [h0, getBits_zero, hcopies.modDiv0.prediv, ← hdiv0.prediv] at hprediv
      exact absurd hprediv.symm hne

theorem along_programDkl {mod : Bool} (sel : DklPhyReg → Reg) {addr : ℕ} (o : ℕ)
    (haddr : addr = phyNumBase phy + o) (ho : o < 0x1000)
    (hdiv0 : ∀ r, DklCopies phy hw r → o = 0x200 → DklDiv0 phy hw ((sel r).value mod))
    (hval : ∀ r, DklCopies phy hw r → (sel r).origVal = dklReg phy hw o) (hg : g.phase.Sharing)
    (hw' : mod = false → W → g.Repaid) {f : Unit → RegProg DklPhyReg α}
    {Q : α → Debt DklPhyReg → Prop}
    (h : ∀ g', g'.phase = g.phase → (mod = false → W ∨ o = off → g'.Repaid) →
      (f ()).Along (dklDivider phy hw off).discipline Q g') :
    (getObj >>= fun obj => writeReg addr ((sel obj.reg).value mod) >>= f).Along
      (dklDivider phy hw off).discipline Q g := by
  subst haddr
  refine ⟨hg.ne_idle, fun obj hobj => ?_⟩
  have hcopies : DklCopies phy hw obj.reg := hobj.1 hg
  have hafter (hw₁ : Hw) (hpage : hw₁.page phy = dklPage phy hw) (o' : ℕ) :
      (hw₁.writeReg (phyNumBase phy + o) ((sel obj.reg).value mod)).dkl phy (dklPage phy hw) o' =
        if o' = o then (sel obj.reg).value mod else hw₁.dkl phy (dklPage phy hw) o' := by
    rw [writeReg_dkl phy hw₁ _ ho, hpage]
    exact setDkl_dkl _ _ _ _ _ _
  show (writeReg (phyNumBase phy + o) ((sel obj.reg).value mod) >>= f).Along _ Q g
  refine Prog.Along.bind (R := fun _ g' => g'.phase = g.phase ∧
    (mod = false → W ∨ o = off → g'.Repaid)) ?_ fun _ g' hg' => h g' hg'.1 hg'.2
  refine Divider.along_onDev hg ?_ fun _ _ => ⟨rfl, fun hmod hdone => Divider.access_repaid ?_⟩
  · rintro hw₁ ⟨hpage, hlive⟩ _
    refine ⟨?_, ?_⟩
    · show (hw₁.writeReg _ _).page phy = _
      rw [writeReg_dkl phy hw₁ _ ho, setDkl_page, hpage]
    · show DklDiv0 phy hw ((hw₁.writeReg _ _).dkl phy _ 0x200)
      rw [hafter hw₁ hpage]
      split
      · rename_i heq
        exact hdiv0 _ hcopies heq.symm
      · exact hlive
  · subst hmod
    by_cases heq : o = off
    · refine Or.inl fun hw₁ hframe _ => ?_
      show (hw₁.writeReg _ _).dkl phy _ off = _
      rw [hafter hw₁ hframe.1, if_pos heq.symm, ← heq]
      exact hval _ hcopies
    · refine Or.inr ⟨fun hw₁ hframe _ hintact => ?_, hw' rfl (hdone.resolve_right heq)⟩
      show (hw₁.writeReg _ _).dkl phy _ off = _
      rw [hafter hw₁ hframe.1, if_neg (Ne.symm heq)]
      exact hintact

def dklOffsets : List ℕ := [0x200, 0x220, 0x214, 0x210, 0x224]

theorem along_programMmioDkl (mod : Bool) (hg : g.phase.Sharing) :
    (Dkl.programMmio phy mod).Along (dklDivider phy hw off).discipline
      (fun _ g' => g'.phase = g.phase ∧ (mod = false → off ∈ dklOffsets → g'.Repaid)) g := by
  have hvalue (r : DklPhyReg) (hr : DklCopies phy hw r) : DklDiv0 phy hw (r.pllDiv0.value mod) := by
    cases mod with
    | true => exact hr.modDiv0
    | false =>
        show DklDiv0 phy hw r.pllDiv0.origVal
        rw [hr.div0]
        exact dklDiv0_original phy hw
  -- The five writes, on the page that is selected.
  have hwrites {g : Debt DklPhyReg} (hg : g.phase.Sharing) : (getObj >>= fun o =>
      writeReg (dklPllDiv0 phy) (o.reg.pllDiv0.value mod) >>= fun _ => getObj >>= fun o =>
      writeReg (dklVisaSerializer phy) (o.reg.visaSerializer.value mod) >>= fun _ => getObj >>= fun o =>
      writeReg (dklBias phy) (o.reg.bias.value mod) >>= fun _ => getObj >>= fun o =>
      writeReg (dklSsc phy) (o.reg.ssc.value mod) >>= fun _ => getObj >>= fun o =>
      writeReg (dklDco phy) (o.reg.dco.value mod) >>= fun _ =>
        (.pure 0 : RegProg DklPhyReg ℤ)).Along (dklDivider phy hw off).discipline
      (fun _ g' => g'.phase = g.phase ∧ (mod = false → off ∈ dklOffsets → g'.Repaid)) g := by
    apply along_programDkl (W := False) DklPhyReg.pllDiv0 0x200 rfl (by norm_num)
      (fun r hr _ => hvalue r hr) (fun r hr => hr.div0) hg fun _ => False.elim
    intro g₁ hphase₁ h₁
    rw [← hphase₁] at hg ⊢
    apply along_programDkl DklPhyReg.visaSerializer 0x220 rfl (by norm_num)
      (fun _ _ h => absurd h (by norm_num)) (fun r hr => hr.visa) hg h₁
    intro g₂ hphase₂ h₂
    rw [← hphase₂] at hg ⊢
    apply along_programDkl DklPhyReg.bias 0x214 rfl (by norm_num)
      (fun _ _ h => absurd h (by norm_num)) (fun r hr => hr.bias) hg h₂
    intro g₃ hphase₃ h₃
    rw [← hphase₃] at hg ⊢
    apply along_programDkl DklPhyReg.ssc 0x210 rfl (by norm_num)
      (fun _ _ h => absurd h (by norm_num)) (fun r hr => hr.ssc) hg h₃
    intro g₄ hphase₄ h₄
    rw [← hphase₄] at hg ⊢
    apply along_programDkl DklPhyReg.dco 0x224 rfl (by norm_num)
      (fun _ _ h => absurd h (by norm_num)) (fun r hr => hr.dco) hg h₄
    intro g₅ hphase₅ h₅
    refine ⟨hphase₅, fun hmod hoff => h₅ hmod ?_⟩
    simp only [dklOffsets, List.mem_cons, List.not_mem_nil, or_false] at hoff
    omega
  apply (along_readDiv0Reg hg).bind
  rintro div0 g₁ ⟨hdiv0, hphase₁⟩
  rw [← hphase₁] at hg ⊢
  dsimp only
  split
  · rename_i h0
    apply (along_selectPage (hdiv0.page h0) hg).bind
    intro _ g₂ hphase₂
    rw [← hphase₂] at hg ⊢
    exact hwrites hg
  · exact hwrites hg

variable (phy hw)

theorem dkl_repays (hoff : off ∈ dklOffsets) : (dkl phy).Repays (dklDivider phy hw off) where
  observing := dkl_observing phy
  succeeds := dkl_neverFails phy
  dividers x _ hg := along_calculateFeedbackDividers x hg
  modified hg := (along_programMmioDkl true hg).mono fun _ _ h => h.1
  original hg := (along_programMmioDkl false hg).mono fun _ _ h => ⟨h.1, h.2 rfl hoff⟩

theorem dkl_prepares (obj : Obj DklPhyReg) :
    (dkl phy).Prepares (dklDivider phy hw off) ⟨hw, obj, false, none⟩ := by
  intro r hrun
  rw [Prog.run_bind_of (p := (dkl phy).readRegisters) dkl_readRegisters_run] at hrun
  obtain rfl := Option.some.inj (dkl_calculatePllClock_run.symm.trans hrun)
  refine ⟨⟨?_, ?_⟩, ⟨rfl, rfl, rfl, rfl, rfl, dklDiv0_original phy hw⟩⟩
  · exact (dklSelected_page _ _).trans (dklPage_dklSelected _ _)
  · show DklDiv0 phy hw ((dklSelected phy (dklSelected phy hw)).dkl phy (dklPage phy hw) 0x200)
    rw [dklSelected_dkl, dklSelected_dkl]
    exact dklDiv0_original phy hw

end Dkl

end Genlock.Vsyncalter
