import Genlock.Vsyncalter.MsgBus

/-! # What the PHY classes access

The four virtual functions access registers and the fields of the derived class
and nothing else. All but `program_mmio` write only `HIP_INDEX_REG` and the address
of the C20 read window, which hold no divider.
-/

namespace Genlock.Vsyncalter

/-! ## Dividers -/

/-- The divider registers of every PHY hold the same values: `CFGCR0` and
`CFGCR1` of the combo PLLs, everything behind the DKL apertures, the quotients of
C10, the SRAM of C20 and the M and N registers. -/
structure SameDividers (hw hw' : Hw) : Prop where
  combo : ∀ n, hw'.mmio (dpllCfgcr0 n) = hw.mmio (dpllCfgcr0 n) ∧
    hw'.mmio (dpllCfgcr1 n) = hw.mmio (dpllCfgcr1 n)
  dkl : hw'.dkl = hw.dkl
  c10 : ∀ port lane, hw'.vdr port lane (phyC10VdrPll c10PllRegQuotLow) =
      hw.vdr port lane (phyC10VdrPll c10PllRegQuotLow) ∧
    hw'.vdr port lane (phyC10VdrPll c10PllRegQuotHigh) =
      hw.vdr port lane (phyC10VdrPll c10PllRegQuotHigh)
  c20 : hw'.sram = hw.sram
  dpMN : ∀ pipe, hw'.mmio (pipeM1 pipe) = hw.mmio (pipeM1 pipe) ∧
    hw'.mmio (pipeN1 pipe) = hw.mmio (pipeN1 pipe)

theorem SameDividers.refl (hw : Hw) : SameDividers hw hw where
  combo _ := ⟨rfl, rfl⟩
  dkl := rfl
  c10 _ _ := ⟨rfl, rfl⟩
  c20 := rfl
  dpMN _ := ⟨rfl, rfl⟩

theorem SameDividers.trans {hw₁ hw₂ hw₃ : Hw} (h : SameDividers hw₁ hw₂) (h' : SameDividers hw₂ hw₃) :
    SameDividers hw₁ hw₃ where
  combo n := ⟨(h'.combo n).1.trans (h.combo n).1, (h'.combo n).2.trans (h.combo n).2⟩
  dkl := h'.dkl.trans h.dkl
  c10 port lane := ⟨(h'.c10 port lane).1.trans (h.c10 port lane).1,
    (h'.c10 port lane).2.trans (h.c10 port lane).2⟩
  c20 := h'.c20.trans h.c20
  dpMN pipe := ⟨(h'.dpMN pipe).1.trans (h.dpMN pipe).1, (h'.dpMN pipe).2.trans (h.dpMN pipe).2⟩

def NoDivider (addr : ℕ) : Prop :=
  inAperture addr = false ∧ (∀ n, dpllCfgcr0 n ≠ addr ∧ dpllCfgcr1 n ≠ addr) ∧
    ∀ pipe, pipeM1 pipe ≠ addr ∧ pipeN1 pipe ≠ addr

instance (addr : ℕ) : Decidable (NoDivider addr) := inferInstanceAs (Decidable (_ ∧ _ ∧ _))

theorem NoDivider.writeReg {addr : ℕ} (h : NoDivider addr) (hw : Hw) (val : U32) :
    SameDividers hw (hw.writeReg addr val) := by
  obtain ⟨haperture, hcombo, hmn⟩ := h
  rw [Hw.writeReg_mmio hw val haperture]
  constructor
  · exact fun n => ⟨Function.update_of_ne (hcombo n).1 _ _, Function.update_of_ne (hcombo n).2 _ _⟩
  · rfl
  · exact fun _ _ => ⟨rfl, rfl⟩
  · rfl
  · exact fun pipe => ⟨Function.update_of_ne (hmn pipe).1 _ _, Function.update_of_ne (hmn pipe).2 _ _⟩

theorem noDivider_hipIndexReg (phy : ℕ) : NoDivider (hipIndexReg phy) := by
  unfold hipIndexReg
  split <;> decide

def InReadAddress (addr : ℕ) : Prop := addr = phyC20RdAddressH ∨ addr = phyC20RdAddressL

theorem Hw.setVdr_sameDividers (hw : Hw) {port lane addr : ℕ} (data : U8)
    (hlow : phyC10VdrPll c10PllRegQuotLow ≠ addr) (hhigh : phyC10VdrPll c10PllRegQuotHigh ≠ addr) :
    SameDividers hw (hw.setVdr port lane addr data) where
  combo _ := ⟨rfl, rfl⟩
  dkl := rfl
  c10 _ _ := ⟨Hw.setVdr_vdr_ne _ _ hlow, Hw.setVdr_vdr_ne _ _ hhigh⟩
  c20 := rfl
  dpMN _ := ⟨rfl, rfl⟩

theorem Hw.cx0Write_sameDividers (hw : Hw) {port lane addr : ℕ} (h : InReadAddress addr) (data : U8)
    (committed : Bool) : SameDividers hw (hw.cx0Write port lane addr data committed) := by
  have hset (hw : Hw) (addr : ℕ) (haddr : addr = phyC20RdAddressH ∨ addr = phyC20RdAddressL ∨
      addr = phyC20RdDataH ∨ addr = phyC20RdDataL) (lane : ℕ) (data : U8) :
      SameDividers hw (hw.setVdr port lane addr data) := by
    rcases haddr with rfl | rfl | rfl | rfl <;>
      exact Hw.setVdr_sameDividers _ _ (by decide) (by decide)
  have hdata : addr ≠ phyC20WrDataL := by
    rcases h with rfl | rfl <;> decide
  have hlatch := hset hw addr (h.imp_right Or.inl) lane data
  unfold Hw.cx0Write
  dsimp only
  rw [if_neg hdata]
  split
  · split
    · apply hlatch.trans
      unfold Hw.showSram
      apply (hset _ phyC20RdDataH (by simp) 0 _).trans
      exact hset _ phyC20RdDataL (by simp) 0 _
    · exact hlatch
  · exact hlatch

/-! ## Operations of a class -/

/-- Reads, selections of a DKL page and addresses of the read window. -/
def ObservesReg : RegOp → Prop
  | .readReg _ | .cx0Read _ _ _ => True
  | .writeReg addr _ => NoDivider addr
  | .cx0Write _ _ addr _ _ => InReadAddress addr

theorem ObservesReg.exec {d : RegOp} (h : ObservesReg d) {hw : Hw} {r : d.Ans × Hw}
    (hexec : hw.exec d = some r) : SameDividers hw r.2 := by
  cases d with
  | readReg addr | cx0Read port lane addr =>
      obtain rfl := Option.some.inj hexec
      exact SameDividers.refl _
  | writeReg addr val =>
      obtain rfl := Option.some.inj hexec
      exact NoDivider.writeReg h _ val
  | cx0Write port lane addr data committed =>
      obtain rfl := Option.some.inj hexec
      exact Hw.cx0Write_sameDividers _ h data committed

def ClassOp {Φ : Type} (P : RegOp → Prop) : PhyOp Φ RegOp → Prop
  | .getObj => True
  | .modObj f => ∀ o, (f o).base = o.base
  | .dev d => P d
  | _ => False

section Class

variable {Φ α : Type} {P : RegOp → Prop}

def Accesses (P : RegOp → Prop) (p : PhyProg Φ RegOp RegOp.Ans α) : Prop := p.Each (ClassOp P)

theorem Accesses.all {p : PhyProg Φ RegOp RegOp.Ans α} (hp : Accesses P p) :
    Accesses (fun _ => True) p := by
  refine Prog.Each.mono hp fun o ho => ?_
  cases o with
  | dev d => trivial
  | _ => exact ho

theorem accesses_getObj : Accesses P (getObj : RegProg Φ (Obj Φ)) := ⟨trivial, fun _ => trivial⟩

theorem accesses_modReg (f : Φ → Φ) : Accesses P (modReg f : RegProg Φ Unit) :=
  ⟨fun _ => rfl, fun _ => trivial⟩

theorem accesses_onDev {d : RegOp} (hd : P d) :
    Accesses P (onDev d : PhyProg Φ RegOp RegOp.Ans d.Ans) := ⟨hd, fun _ => trivial⟩

theorem accesses_load {p : RegProg Φ α} (hp : Accesses P p) (f : α → Φ → Φ) :
    Accesses P (p >>= fun a => modReg (f a)) :=
  Prog.each_bind hp fun _ => accesses_modReg _

theorem accesses_cx0Write (port lane addr : ℕ) (data : U8) (committed : Bool) :
    Accesses (fun _ => True) (cx0Write port lane addr data committed : RegProg Φ Unit) :=
  accesses_onDev trivial

theorem accesses_intelCx0Write (port : ℕ) (mask : LaneMask) (addr : ℕ) (data : U8)
    (committed : Bool) :
    Accesses (fun _ => True) (intelCx0Write port mask addr data committed : RegProg Φ Unit) :=
  Prog.each_forEach (fun _ => accesses_cx0Write _ _ _ _ _) _

theorem accesses_intelCx0Rmw (port : ℕ) (mask : LaneMask) (addr : ℕ) (clear set : U8)
    (committed : Bool) :
    Accesses (fun _ => True) (intelCx0Rmw port mask addr clear set committed : RegProg Φ Unit) := by
  refine Prog.each_forEach (fun lane => Prog.each_bind (accesses_onDev trivial) fun old => ?_) _
  dsimp only
  split
  · exact accesses_cx0Write _ _ _ _ _
  · exact trivial

theorem accesses_intelC20SramRead (port : ℕ) (addr : U16) :
    Accesses ObservesReg (intelC20SramRead port addr : RegProg Φ U16) :=
  ⟨Or.inl rfl, fun _ => ⟨Or.inr rfl, fun _ => ⟨trivial, fun _ => ⟨trivial, fun _ => trivial⟩⟩⟩⟩

theorem accesses_intelC20SramWrite (port : ℕ) (addr data : U16) :
    Accesses (fun _ => True) (intelC20SramWrite port addr data : RegProg Φ Unit) :=
  ⟨trivial, fun _ => ⟨trivial, fun _ => ⟨trivial, fun _ => ⟨trivial, fun _ => trivial⟩⟩⟩⟩

end Class

/-! ## The five classes -/

/-- What the four virtual functions of a class access. -/
structure PhyClass.Observing {Φ : Type} (cls : PhyClass Φ RegOp RegOp.Ans) : Prop where
  reads : Accesses ObservesReg cls.readRegisters
  clock : Accesses ObservesReg cls.calculatePllClock
  dividers : ∀ x, Accesses ObservesReg (cls.calculateFeedbackDividers x)
  program : ∀ mod, Accesses (fun _ => True) (cls.programMmio mod)

theorem combo_observing (dpllNum : Fin 4) : (combo dpllNum).Observing where
  reads :=
    Prog.each_bind (accesses_onDev trivial) fun _ => Prog.each_bind (accesses_modReg _) fun _ =>
      accesses_load (accesses_onDev trivial) _
  clock := Prog.each_bind (accesses_onDev trivial) fun _ =>
    Prog.each_bind (accesses_onDev trivial) fun _ => trivial
  dividers _ := Prog.each_bind (accesses_onDev trivial) fun _ =>
    Prog.each_bind (accesses_onDev trivial) fun _ => Prog.each_bind (accesses_modReg _) fun _ =>
      Prog.each_bind (accesses_modReg _) fun _ => trivial
  program _ := Prog.each_bind accesses_getObj fun _ =>
    Prog.each_bind (accesses_onDev trivial) fun _ => trivial

theorem accesses_selectPage (phy : Fin 6) : Accesses ObservesReg (Dkl.selectPage phy) :=
  accesses_onDev (noDivider_hipIndexReg phy)

theorem accesses_readDiv0 (phy : Fin 6) : Accesses ObservesReg (Dkl.readDiv0 phy) := by
  refine Prog.each_bind (accesses_onDev trivial) fun div0 => ?_
  split
  · exact Prog.each_bind (accesses_selectPage phy) fun _ => accesses_onDev trivial
  · exact trivial

theorem dkl_observing (phy : Fin 6) : (dkl phy).Observing where
  reads := by
    have hrest : Accesses ObservesReg (readReg (dklVisaSerializer phy) >>= fun visa =>
        modReg (fun r => { r with visaSerializer := ⟨visa, visa⟩ }) >>= fun _ =>
        readReg (dklBias phy) >>= fun bias =>
        modReg (fun r => { r with bias := ⟨bias, bias⟩ }) >>= fun _ =>
        readReg (dklSsc phy) >>= fun ssc =>
        modReg (fun r => { r with ssc := ⟨ssc, ssc⟩ }) >>= fun _ =>
        readReg (dklDco phy) >>= fun dco => modReg fun r : DklPhyReg => { r with dco := ⟨dco, dco⟩ }) :=
      Prog.each_bind (accesses_onDev trivial) fun _ => Prog.each_bind (accesses_modReg _) fun _ =>
      Prog.each_bind (accesses_onDev trivial) fun _ => Prog.each_bind (accesses_modReg _) fun _ =>
      Prog.each_bind (accesses_onDev trivial) fun _ => Prog.each_bind (accesses_modReg _) fun _ =>
        accesses_load (accesses_onDev trivial) _
    refine Prog.each_bind (accesses_onDev trivial) fun div0 =>
      Prog.each_bind (accesses_modReg _) fun _ => ?_
    dsimp only
    split
    · exact Prog.each_bind (accesses_selectPage phy) fun _ =>
        Prog.each_bind (accesses_onDev trivial) fun _ => Prog.each_bind (accesses_modReg _) fun _ => hrest
    · exact hrest
  clock := Prog.each_bind (accesses_readDiv0 phy) fun _ =>
    Prog.each_bind (accesses_onDev trivial) fun _ => trivial
  dividers x := by
    refine Prog.each_bind (accesses_readDiv0 phy) fun div0 =>
      Prog.each_bind (accesses_onDev trivial) fun _ => ?_
    split
    · exact trivial
    · exact Prog.each_bind (accesses_modReg _) fun _ => trivial
  program mod := by
    have hrest : Accesses (fun _ => True) (getObj >>= fun o =>
        writeReg (dklPllDiv0 phy) (o.reg.pllDiv0.value mod) >>= fun _ => getObj >>= fun o =>
        writeReg (dklVisaSerializer phy) (o.reg.visaSerializer.value mod) >>= fun _ => getObj >>= fun o =>
        writeReg (dklBias phy) (o.reg.bias.value mod) >>= fun _ => getObj >>= fun o =>
        writeReg (dklSsc phy) (o.reg.ssc.value mod) >>= fun _ => getObj >>= fun o =>
        writeReg (dklDco phy) (o.reg.dco.value mod) >>= fun _ =>
          (.pure 0 : RegProg DklPhyReg ℤ)) :=
      Prog.each_bind accesses_getObj fun _ => Prog.each_bind (accesses_onDev trivial) fun _ =>
      Prog.each_bind accesses_getObj fun _ => Prog.each_bind (accesses_onDev trivial) fun _ =>
      Prog.each_bind accesses_getObj fun _ => Prog.each_bind (accesses_onDev trivial) fun _ =>
      Prog.each_bind accesses_getObj fun _ => Prog.each_bind (accesses_onDev trivial) fun _ =>
      Prog.each_bind accesses_getObj fun _ => Prog.each_bind (accesses_onDev trivial) fun _ => trivial
    refine Prog.each_bind (accesses_onDev trivial) fun div0 => ?_
    dsimp only
    split
    · exact Prog.each_bind (accesses_selectPage phy).all fun _ => hrest
    · exact hrest

theorem c10_observing (port : ℕ) : (c10 port).Observing where
  reads := Prog.each_forEach (fun _ => accesses_load (accesses_onDev trivial) _) _
  clock := by
    refine Prog.each_bind accesses_getObj fun o => ?_
    split <;> exact trivial
  dividers _ := by
    refine Prog.each_bind accesses_getObj fun o => ?_
    split
    · exact trivial
    · exact Prog.each_bind (accesses_modReg _) fun _ => Prog.each_bind (accesses_modReg _) fun _ => trivial
  program _ :=
    Prog.each_bind (accesses_intelCx0Rmw _ _ _ _ _ _) fun _ =>
    Prog.each_bind (accesses_intelCx0Rmw _ _ _ _ _ _) fun _ =>
    Prog.each_bind (accesses_intelCx0Rmw _ _ _ _ _ _) fun _ =>
    Prog.each_bind accesses_getObj fun _ => Prog.each_bind (accesses_intelCx0Write _ _ _ _ _) fun _ =>
    Prog.each_bind accesses_getObj fun _ => Prog.each_bind (accesses_intelCx0Write _ _ _ _ _) fun _ =>
    Prog.each_bind (accesses_intelCx0Rmw _ _ _ _ _ _) fun _ => trivial

theorem c20_observing (port : ℕ) (isBMG : Bool) : (c20 port isBMG).Observing where
  reads := by
    refine Prog.each_bind (accesses_onDev trivial) fun rate => ?_
    refine Prog.each_bind (Prog.each_forEach (fun i => ?_) _) fun _ => ?_
    · exact Prog.each_bind (accesses_intelC20SramRead _ _) fun _ =>
        Prog.each_bind (accesses_modReg _) fun _ => accesses_modReg _
    refine Prog.each_bind (Prog.each_forEach
      (fun i => accesses_load (accesses_intelC20SramRead _ _) _) _) fun _ => ?_
    refine Prog.each_bind accesses_getObj fun o => ?_
    refine Prog.each_bind (Prog.each_forEach
      (fun i => accesses_load (accesses_intelC20SramRead _ _) _) _) fun _ => ?_
    exact Prog.each_bind (accesses_load (accesses_intelC20SramRead _ _) _) fun _ =>
      Prog.each_bind (accesses_load (accesses_intelC20SramRead _ _) _) fun _ => accesses_modReg _
  clock := Prog.each_bind accesses_getObj fun _ => trivial
  dividers _ := Prog.each_bind accesses_getObj fun _ => Prog.each_bind (accesses_modReg _) fun _ =>
    Prog.each_bind (accesses_modReg _) fun _ => trivial
  program _ :=
    Prog.each_bind accesses_getObj fun _ =>
    Prog.each_bind accesses_getObj fun _ => Prog.each_bind (accesses_intelC20SramWrite _ _ _) fun _ =>
    Prog.each_bind accesses_getObj fun _ => Prog.each_bind (accesses_intelC20SramWrite _ _ _) fun _ =>
    Prog.each_bind (accesses_intelC20SramWrite _ _ _) fun _ => trivial

theorem dpMN_observing (pipe : Fin 4) : (dpMN pipe).Observing where
  reads :=
    Prog.each_bind (accesses_onDev trivial) fun _ => Prog.each_bind (accesses_modReg _) fun _ =>
    Prog.each_bind (accesses_onDev trivial) fun _ => Prog.each_bind (accesses_modReg _) fun _ =>
    Prog.each_bind (accesses_modReg _) fun _ => accesses_modReg _
  clock := Prog.each_bind accesses_getObj fun _ => trivial
  dividers _ := Prog.each_bind (accesses_modReg _) fun _ => trivial
  program _ :=
    Prog.each_bind accesses_getObj fun _ => Prog.each_bind (accesses_onDev trivial) fun _ =>
    Prog.each_bind accesses_getObj fun _ => Prog.each_bind (accesses_onDev trivial) fun _ => trivial

theorem PhyKind.observing (k : PhyKind) : k.cls.Observing := by
  cases k with
  | combo n => exact combo_observing n
  | dkl phy => exact dkl_observing phy
  | c10 port => exact c10_observing port
  | c20 port isBMG => exact c20_observing port isBMG
  | dpMN pipe => exact dpMN_observing pipe

/-! ## No class fails -/

section NeverFails

variable {Φ α : Type}

theorem Accesses.stepFree {P : RegOp → Prop} {p : PhyProg Φ RegOp RegOp.Ans α} (hp : Accesses P p) :
    StepFree p := by
  intro g
  induction p generalizing g with
  | pure a => rfl
  | fail => trivial
  | step o k ih =>
      refine ⟨trivial, fun a _ => ?_⟩
      have hnext : (stepDiscipline Φ RegOp RegOp.Ans).next o a g = g := by
        cases o with
        | enter mod => exact hp.1.elim
        | _ => rfl
      rw [hnext]
      exact ih a (hp.2 a) g

theorem combo_neverFails (dpllNum : Fin 4) : (combo dpllNum).NeverFails where
  reads := (combo_observing dpllNum).reads.stepFree
  clock := (combo_observing dpllNum).clock.stepFree
  dividers _ _ := ⟨trivial, fun _ _ => ⟨trivial, fun _ _ => ⟨trivial, fun _ _ => ⟨trivial, fun _ _ => rfl⟩⟩⟩⟩
  program _ _ := ⟨trivial, fun _ _ => ⟨trivial, fun _ _ => rfl⟩⟩

theorem dkl_neverFails (phy : Fin 6) : (dkl phy).NeverFails where
  reads := (dkl_observing phy).reads.stepFree
  clock := (dkl_observing phy).clock.stepFree
  dividers x g := by
    refine ((accesses_readDiv0 phy).stepFree g).bind fun div0 g' _ => ⟨trivial, fun _ _ => ?_⟩
    cases h : dklFeedbackDividers x div0 with
    | none => trivial
    | some dividers => exact ⟨trivial, fun _ _ => rfl⟩
  program mod g := by
    have hrest (g : Bool) : (getObj >>= fun o =>
        writeReg (dklPllDiv0 phy) (o.reg.pllDiv0.value mod) >>= fun _ => getObj >>= fun o =>
        writeReg (dklVisaSerializer phy) (o.reg.visaSerializer.value mod) >>= fun _ => getObj >>= fun o =>
        writeReg (dklBias phy) (o.reg.bias.value mod) >>= fun _ => getObj >>= fun o =>
        writeReg (dklSsc phy) (o.reg.ssc.value mod) >>= fun _ => getObj >>= fun o =>
        writeReg (dklDco phy) (o.reg.dco.value mod) >>= fun _ =>
          (.pure 0 : RegProg DklPhyReg ℤ)).Along (stepDiscipline DklPhyReg RegOp RegOp.Ans)
            (fun status _ => status = 0) g :=
      ⟨trivial, fun _ _ => ⟨trivial, fun _ _ => ⟨trivial, fun _ _ => ⟨trivial, fun _ _ =>
        ⟨trivial, fun _ _ => ⟨trivial, fun _ _ => ⟨trivial, fun _ _ => ⟨trivial, fun _ _ =>
          ⟨trivial, fun _ _ => ⟨trivial, fun _ _ => rfl⟩⟩⟩⟩⟩⟩⟩⟩⟩⟩
    refine ⟨trivial, fun div0 _ => ?_⟩
    show Prog.Along _ (ite (div0 = 0) _ _) _ _
    split
    · exact ⟨trivial, fun _ _ => hrest _⟩
    · exact hrest _

theorem c10_neverFails (port : ℕ) : (c10 port).NeverFails where
  reads := (c10_observing port).reads.stepFree
  clock := (c10_observing port).clock.stepFree
  dividers x g := by
    refine ⟨trivial, fun o _ => ?_⟩
    dsimp only [Prog.bind]
    cases h : c10FeedbackDividers (c10Fields o.reg.pllStateOrig) x with
    | none => trivial
    | some quot => exact ⟨trivial, fun _ _ => ⟨trivial, fun _ _ => rfl⟩⟩
  program _ g :=
    ((accesses_intelCx0Rmw _ _ _ _ _ _).stepFree g).bind fun _ g' _ =>
    ((accesses_intelCx0Rmw _ _ _ _ _ _).stepFree g').bind fun _ g' _ =>
    ((accesses_intelCx0Rmw _ _ _ _ _ _).stepFree g').bind fun _ g' _ =>
    ⟨trivial, fun _ _ => ((accesses_intelCx0Write _ _ _ _ _).stepFree _).bind fun _ _ _ =>
    ⟨trivial, fun _ _ => ((accesses_intelCx0Write _ _ _ _ _).stepFree _).bind fun _ g' _ =>
    ((accesses_intelCx0Rmw _ _ _ _ _ _).stepFree g').bind fun _ _ _ => rfl⟩⟩

theorem c20_neverFails (port : ℕ) (isBMG : Bool) : (c20 port isBMG).NeverFails where
  reads := (c20_observing port isBMG).reads.stepFree
  clock := (c20_observing port isBMG).clock.stepFree
  dividers _ _ := ⟨trivial, fun _ _ => ⟨trivial, fun _ _ => ⟨trivial, fun _ _ => rfl⟩⟩⟩
  program _ _ :=
    ⟨trivial, fun _ _ => ⟨trivial, fun _ _ =>
    ((accesses_intelC20SramWrite _ _ _).stepFree _).bind fun _ _ _ => ⟨trivial, fun _ _ =>
    ((accesses_intelC20SramWrite _ _ _).stepFree _).bind fun _ g' _ =>
    ((accesses_intelC20SramWrite _ _ _).stepFree g').bind fun _ _ _ => rfl⟩⟩⟩

theorem dpMN_neverFails (pipe : Fin 4) : (dpMN pipe).NeverFails where
  reads := (dpMN_observing pipe).reads.stepFree
  clock := (dpMN_observing pipe).clock.stepFree
  dividers _ _ := ⟨trivial, fun _ _ => rfl⟩
  program _ _ := ⟨trivial, fun _ _ => ⟨trivial, fun _ _ => ⟨trivial, fun _ _ => ⟨trivial, fun _ _ => rfl⟩⟩⟩⟩

/-- No class reports a failure of its own. -/
theorem PhyKind.succeeds (k : PhyKind) : k.cls.NeverFails := by
  cases k with
  | combo n => exact combo_neverFails n
  | dkl phy => exact dkl_neverFails phy
  | c10 port => exact c10_neverFails port
  | c20 port isBMG => exact c20_neverFails port isBMG
  | dpMN pipe => exact dpMN_neverFails pipe

end NeverFails

end Genlock.Vsyncalter
