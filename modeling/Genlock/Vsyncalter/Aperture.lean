import Genlock.Lib.Threads
import Genlock.Vsyncalter.Access

/-! # DKL PHYs on one index register

Four ports share an index register, and a selection writes it as a whole word.
Every PHY has a thread that makes any calls in any order; the threads interleave
at single register accesses.
-/

namespace Genlock.Vsyncalter

/-! ## Calls and their threads -/

inductive DklCall where
  | readRegisters
  | calculatePllClock
  | calculateFeedbackDividers (pllFreq : ℚ)
  | programMmio (mod : Bool)

def DklCall.prog (phy : Fin 6) : DklCall → RegProg DklPhyReg Unit
  | readRegisters => Dkl.readRegisters phy
  | calculatePllClock => Dkl.calculatePllClock phy >>= fun _ => .pure ()
  | calculateFeedbackDividers pllFreq => Dkl.calculateFeedbackDividers phy pllFreq >>= fun _ => .pure ()
  | programMmio mod => Dkl.programMmio phy mod >>= fun _ => .pure ()

/-- The operations of the calls, and the beginning of a call. -/
inductive CallOp where
  | begin
  | op (o : PhyOp DklPhyReg RegOp)

@[reducible] def CallOp.Ans : CallOp → Type
  | .begin => Unit
  | .op o => o.Ans RegOp.Ans

def dklThread (phy : Fin 6) (calls : List DklCall) : Prog CallOp CallOp.Ans Unit :=
  Prog.forEach (fun call => Prog.perform CallOp.begin >>= fun _ =>
    (call.prog phy).expand fun o => Prog.perform (CallOp.op o)) calls

/-- `selected` is history: whether the running call of a PHY has selected its page. -/
structure ApertureState where
  hw : Hw
  objs : Fin 6 → Obj DklPhyReg
  selected : Fin 6 → Bool

def selects (phy : Fin 6) : RegOp → Bool
  | .writeReg addr _ => decide (addr = hipIndexReg phy)
  | _ => false

def apertureExec (phy : Fin 6) : (o : CallOp) → ApertureState → Option (o.Ans × ApertureState)
  | .begin, s => some ((), { s with selected := Function.update s.selected phy false })
  | .op .getObj, s => some (s.objs phy, s)
  | .op (.modObj f), s =>
      some ((), { s with objs := Function.update s.objs phy (f (s.objs phy)) })
  | .op (.dev d), s => (s.hw.exec d).map fun r => (r.1, { s with
      hw := r.2
      selected := if selects phy d then Function.update s.selected phy true else s.selected })
  | .op _, _ => none

abbrev ApertureStep := ThreadStep (Fin 6) CallOp ApertureState

abbrev ApertureRun := Threads.Run (α := Unit) apertureExec

/-! ## What a step may do -/

/-- The PHY and the page that an access goes to. -/
def Hw.accessed (hw : Hw) : RegOp → Option (ℕ × ℕ)
  | .readReg addr | .writeReg addr _ =>
      if inAperture addr then some ((addr - phyBase) / 0x1000, hw.page ((addr - phyBase) / 0x1000))
      else none
  | _ => none

/-- The other index bytes are unchanged, and after a selection every access of the
aperture goes to page 2 of the own PHY. -/
structure StaysInPage (e : ApertureStep) : Prop where
  others : ∀ phy : Fin 6, phy ≠ e.thread → e.after.hw.page phy = e.before.hw.page phy
  own : ∀ d, e.op = .op (.dev d) → e.before.selected e.thread = true →
    ∀ page, e.before.hw.accessed d = some page → page = ((e.thread : ℕ), 2)

/-- A selection that finds the other ports of its index register at page 0. -/
def SelectsAlone (e : ApertureStep) : Prop :=
  ∀ d, e.op = .op (.dev d) → selects e.thread d = true →
    ∀ phy : Fin 6, phy ≠ e.thread → hipIndexReg phy = hipIndexReg e.thread →
      e.before.hw.page phy = 0

/-! ## Accesses of one PHY -/

/-- Accesses of the aperture, and selections of page 2. -/
def DklReg (phy : Fin 6) : RegOp → Prop
  | .readReg addr => ∃ off < 0x1000, addr = phyNumBase phy + off
  | .writeReg addr val => (∃ off < 0x1000, addr = phyNumBase phy + off) ∨
      (addr = hipIndexReg phy ∧ val = hipIndexVal phy)
  | _ => False

theorem hipIndexReg_not_inAperture (phy : ℕ) : inAperture (hipIndexReg phy) = false := by
  unfold hipIndexReg
  split <;> decide

theorem page_of_select (hw : Hw) (p q : Fin 6) :
    (hw.writeReg (hipIndexReg p) (hipIndexVal p)).page q =
      if q = p then 2 else if hipIndexReg q = hipIndexReg p then 0 else hw.page q := by
  rw [Hw.writeReg_mmio hw _ (hipIndexReg_not_inAperture p)]
  unfold Hw.page
  dsimp only
  by_cases hreg : hipIndexReg q = hipIndexReg p
  · rw [hreg, Function.update_self, if_pos rfl]
    have hbyte : ∀ p q : Fin 6, hipIndexReg q = hipIndexReg p →
        getBits (hipIndexVal p) (hipIndexShift q + 7) (hipIndexShift q) = if q = p then 2 else 0 := by
      decide
    exact hbyte p q hreg
  · have hqp : q ≠ p := fun h => hreg (by rw [h])
    rw [Function.update_of_ne hreg, if_neg hqp, if_neg hreg]

theorem page_writeReg_aperture (hw : Hw) {addr : ℕ} (h : inAperture addr = true) (val : U32) (q : ℕ) :
    (hw.writeReg addr val).page q = hw.page q := by
  unfold Hw.writeReg
  rw [if_pos h]
  rfl

theorem inAperture_phyNumBase (phy : Fin 6) {off : ℕ} (hoff : off < 0x1000) :
    inAperture (phyNumBase phy + off) = true := by
  have hphy := phy.isLt
  apply decide_eq_true
  unfold phyNumBase phyBase phyEnd
  omega

theorem phy_of_phyNumBase (phy : Fin 6) {off : ℕ} (hoff : off < 0x1000) :
    (phyNumBase phy + off - phyBase) / 0x1000 = phy := by
  simp only [phyNumBase]
  omega

section Accesses

variable (phy : Fin 6)

theorem accesses_readAperture {off : ℕ} (hoff : off < 0x1000) :
    Accesses (DklReg phy) (readReg (phyNumBase phy + off) : RegProg DklPhyReg U32) :=
  accesses_onDev ⟨off, hoff, rfl⟩

theorem accesses_writeAperture {off : ℕ} (hoff : off < 0x1000) (val : U32) :
    Accesses (DklReg phy) (writeReg (phyNumBase phy + off) val : RegProg DklPhyReg Unit) :=
  accesses_onDev (Or.inl ⟨off, hoff, rfl⟩)

theorem accesses_select : Accesses (DklReg phy) (Dkl.selectPage phy) :=
  accesses_onDev (Or.inr ⟨rfl, rfl⟩)

theorem accesses_dklReadDiv0 : Accesses (DklReg phy) (Dkl.readDiv0 phy) := by
  refine Prog.each_bind (accesses_readAperture phy (by decide)) fun div0 => ?_
  split
  · exact Prog.each_bind (accesses_select phy) fun _ => accesses_readAperture phy (by decide)
  · exact trivial

theorem accesses_dklReadRegisters : Accesses (DklReg phy) (Dkl.readRegisters phy) := by
  have hrest : Accesses (DklReg phy) (readReg (dklVisaSerializer phy) >>= fun visa =>
      modReg (fun r => { r with visaSerializer := ⟨visa, visa⟩ }) >>= fun _ =>
      readReg (dklBias phy) >>= fun bias =>
      modReg (fun r => { r with bias := ⟨bias, bias⟩ }) >>= fun _ =>
      readReg (dklSsc phy) >>= fun ssc =>
      modReg (fun r => { r with ssc := ⟨ssc, ssc⟩ }) >>= fun _ =>
      readReg (dklDco phy) >>= fun dco => modReg fun r : DklPhyReg => { r with dco := ⟨dco, dco⟩ }) :=
    Prog.each_bind (accesses_readAperture phy (by decide)) fun _ =>
    Prog.each_bind (accesses_modReg _) fun _ =>
    Prog.each_bind (accesses_readAperture phy (by decide)) fun _ =>
    Prog.each_bind (accesses_modReg _) fun _ =>
    Prog.each_bind (accesses_readAperture phy (by decide)) fun _ =>
    Prog.each_bind (accesses_modReg _) fun _ => accesses_load (accesses_readAperture phy (by decide)) _
  refine Prog.each_bind (accesses_readAperture phy (by decide)) fun div0 =>
    Prog.each_bind (accesses_modReg _) fun _ => ?_
  dsimp only
  split
  · exact Prog.each_bind (accesses_select phy) fun _ =>
      Prog.each_bind (accesses_readAperture phy (by decide)) fun _ =>
        Prog.each_bind (accesses_modReg _) fun _ => hrest
  · exact hrest

theorem accesses_dklProgramMmio (mod : Bool) : Accesses (DklReg phy) (Dkl.programMmio phy mod) := by
  have hrest : Accesses (DklReg phy) (getObj >>= fun o =>
      writeReg (dklPllDiv0 phy) (o.reg.pllDiv0.value mod) >>= fun _ => getObj >>= fun o =>
      writeReg (dklVisaSerializer phy) (o.reg.visaSerializer.value mod) >>= fun _ => getObj >>= fun o =>
      writeReg (dklBias phy) (o.reg.bias.value mod) >>= fun _ => getObj >>= fun o =>
      writeReg (dklSsc phy) (o.reg.ssc.value mod) >>= fun _ => getObj >>= fun o =>
      writeReg (dklDco phy) (o.reg.dco.value mod) >>= fun _ => (.pure 0 : RegProg DklPhyReg ℤ)) :=
    Prog.each_bind accesses_getObj fun _ => Prog.each_bind (accesses_writeAperture phy (by decide) _) fun _ =>
    Prog.each_bind accesses_getObj fun _ => Prog.each_bind (accesses_writeAperture phy (by decide) _) fun _ =>
    Prog.each_bind accesses_getObj fun _ => Prog.each_bind (accesses_writeAperture phy (by decide) _) fun _ =>
    Prog.each_bind accesses_getObj fun _ => Prog.each_bind (accesses_writeAperture phy (by decide) _) fun _ =>
    Prog.each_bind accesses_getObj fun _ => Prog.each_bind (accesses_writeAperture phy (by decide) _) fun _ =>
      trivial
  refine Prog.each_bind (accesses_readAperture phy (by decide)) fun div0 => ?_
  dsimp only
  split
  · exact Prog.each_bind (accesses_select phy) fun _ => hrest
  · exact hrest

theorem accesses_dklCall (call : DklCall) : Accesses (DklReg phy) (call.prog phy) := by
  cases call with
  | readRegisters => exact accesses_dklReadRegisters phy
  | calculatePllClock =>
      exact Prog.each_bind (Prog.each_bind (accesses_dklReadDiv0 phy) fun _ =>
        Prog.each_bind (accesses_readAperture phy (by decide)) fun _ => trivial) fun _ => trivial
  | calculateFeedbackDividers pllFreq =>
      refine Prog.each_bind (Prog.each_bind (accesses_dklReadDiv0 phy) fun div0 =>
        Prog.each_bind (accesses_readAperture phy (by decide)) fun _ => ?_) fun _ => trivial
      split
      · exact trivial
      · exact Prog.each_bind (accesses_modReg _) fun _ => trivial
  | programMmio mod => exact Prog.each_bind (accesses_dklProgramMmio phy mod) fun _ => trivial

end Accesses

def ThreadOp (phy : Fin 6) : CallOp → Prop
  | .begin => True
  | .op o => ClassOp (DklReg phy) o

theorem dklThread_each (phy : Fin 6) (calls : List DklCall) : (dklThread phy calls).Each (ThreadOp phy) := by
  refine Prog.each_forEach (fun call => Prog.each_bind ((Prog.each_perform _).mpr trivial) fun _ => ?_) _
  exact Prog.each_expand (fun o ho => (Prog.each_perform (P := ThreadOp phy) _).mpr ho)
    (accesses_dklCall phy call)

/-! ## Steps -/

def SelectedShown (s : ApertureState) : Prop :=
  ∀ phy : Fin 6, s.selected phy = true → s.hw.page phy = 2

theorem accessed_aperture (hw : Hw) (phy : Fin 6) {off : ℕ} (hoff : off < 0x1000) :
    (if inAperture (phyNumBase phy + off) then
      some ((phyNumBase phy + off - phyBase) / 0x1000, hw.page ((phyNumBase phy + off - phyBase) / 0x1000))
    else none) = some ((phy : ℕ), hw.page phy) := by
  rw [if_pos (inAperture_phyNumBase phy hoff), phy_of_phyNumBase phy hoff]

theorem hipIndexReg_ne_aperture (phy : Fin 6) (off : ℕ) (p : ℕ) (hoff : off < 0x1000) :
    phyNumBase phy + off ≠ hipIndexReg p := by
  intro h
  have hin := inAperture_phyNumBase phy hoff
  rw [h, hipIndexReg_not_inAperture] at hin
  exact absurd hin (by decide)

/-- A step that leaves the pages alone, and accesses at most its own aperture. -/
theorem staysInPage_of_pages {phy : Fin 6} {o : CallOp} {s s' : ApertureState} (hs : SelectedShown s)
    (hpage : ∀ q : Fin 6, s'.hw.page q = s.hw.page q)
    (hselected : ∀ q, s'.selected q = true → s.selected q = true)
    (haccess : ∀ d, o = .op (.dev d) → ∀ page, s.hw.accessed d = some page →
      page = ((phy : ℕ), s.hw.page phy)) :
    SelectedShown s' ∧ StaysInPage ⟨s, phy, o, s'⟩ := by
  refine ⟨fun q hq => ?_, fun q _ => hpage q, fun d hd hselected page hpage => ?_⟩
  · rw [hpage, hs q (hselected q hq)]
  · rw [haccess d hd page hpage, hs phy hselected]

/-- A lone selection keeps every PHY in its page, and so does every other access. -/
theorem apertureStep_staysInPage {phy : Fin 6} {o : CallOp} {s s' : ApertureState} {a : o.Ans}
    (hs : SelectedShown s) (ho : ThreadOp phy o) (hexec : apertureExec phy o s = some (a, s'))
    (halone : SelectsAlone ⟨s, phy, o, s'⟩) : SelectedShown s' ∧ StaysInPage ⟨s, phy, o, s'⟩ := by
  cases o with
  | begin =>
      obtain ⟨-, rfl⟩ := Prod.mk.inj (Option.some.inj hexec)
      refine staysInPage_of_pages hs (fun _ => rfl) (fun q hq => ?_) fun d hd => by cases hd
      by_cases hqp : q = phy
      · subst hqp
        simp at hq
      · simpa [hqp] using hq
  | op o =>
      cases o with
      | getObj | modObj f =>
          obtain ⟨-, rfl⟩ := Prod.mk.inj (Option.some.inj hexec)
          exact staysInPage_of_pages hs (fun _ => rfl) (fun _ hq => hq) fun d hd => by cases hd
      | dev d =>
          obtain ⟨r, hr, heq⟩ := Option.map_eq_some_iff.mp hexec
          obtain ⟨-, rfl⟩ := Prod.mk.inj heq
          cases d with
          | readReg addr =>
              obtain ⟨off, hoff, rfl⟩ := ho
              obtain rfl := Option.some.inj hr
              refine staysInPage_of_pages hs (fun _ => rfl) (fun _ hq => hq) fun d hd page hpage => ?_
              obtain rfl : RegOp.readReg (phyNumBase phy + off) = d := by injection hd with hd; injection hd
              exact (Option.some.inj ((accessed_aperture s.hw phy hoff).symm.trans hpage)).symm
          | writeReg addr val =>
              obtain rfl := Option.some.inj hr
              rcases ho with ⟨off, hoff, rfl⟩ | ⟨rfl, rfl⟩
              · have hnot : selects phy (.writeReg (phyNumBase phy + off) val) = false :=
                  decide_eq_false (hipIndexReg_ne_aperture phy off phy hoff)
                refine staysInPage_of_pages hs (fun q => ?_) (fun q hq => ?_) fun d hd page hpage => ?_
                · exact page_writeReg_aperture s.hw (inAperture_phyNumBase phy hoff) val q
                · simpa [hnot] using hq
                · obtain rfl : RegOp.writeReg (phyNumBase phy + off) val = d := by
                    injection hd with hd
                    injection hd
                  exact (Option.some.inj ((accessed_aperture s.hw phy hoff).symm.trans hpage)).symm
              · -- the selection: only a port at page 0 shares the register
                have hsel : selects phy (.writeReg (hipIndexReg phy) (hipIndexVal phy)) = true :=
                  decide_eq_true rfl
                have hzero := halone _ rfl hsel
                have hpage (q : Fin 6) := page_of_select s.hw phy q
                refine ⟨fun q hq => ?_, fun q hq => ?_, fun d hd _ page haccess => ?_⟩
                · show (s.hw.writeReg _ _).page q = 2
                  rw [hpage]
                  by_cases hqp : q = phy
                  · rw [if_pos hqp]
                  · rw [if_neg hqp]
                    have hq2 : s.hw.page q = 2 := hs q (by simpa [hsel, hqp] using hq)
                    by_cases hreg : hipIndexReg q = hipIndexReg phy
                    · exact absurd ((hzero q hqp hreg).symm.trans hq2) (by decide)
                    · rw [if_neg hreg, hq2]
                · show (s.hw.writeReg _ _).page q = s.hw.page q
                  rw [hpage, if_neg hq]
                  split
                  · rename_i hreg
                    exact (hzero q hq hreg).symm
                  · rfl
                · obtain rfl : RegOp.writeReg (hipIndexReg phy) (hipIndexVal phy) = d := by
                    injection hd with hd
                    injection hd
                  unfold Hw.accessed at haccess
                  simp [hipIndexReg_not_inAperture] at haccess
          | cx0Read | cx0Write => exact ho.elim
      | clientDone | usleep | timerDelete | makeTimer | await | enter => exact ho.elim

/-- A step that stays in its page selects alone. -/
theorem selectsAlone_of_staysInPage {phy : Fin 6} {o : CallOp} {s s' : ApertureState} {a : o.Ans}
    (ho : ThreadOp phy o) (hexec : apertureExec phy o s = some (a, s'))
    (hstays : StaysInPage ⟨s, phy, o, s'⟩) : SelectsAlone ⟨s, phy, o, s'⟩ := by
  rintro d rfl hsel q hq hreg
  obtain ⟨r, hr, heq⟩ := Option.map_eq_some_iff.mp hexec
  obtain ⟨-, rfl⟩ := Prod.mk.inj heq
  cases d with
  | writeReg addr val =>
      obtain rfl := Option.some.inj hr
      obtain rfl : addr = hipIndexReg phy := of_decide_eq_true hsel
      rcases ho with ⟨off, hoff, haddr⟩ | ⟨-, rfl⟩
      · exact absurd haddr.symm (hipIndexReg_ne_aperture phy off phy hoff)
      · have hsame : (s.hw.writeReg _ _).page q = s.hw.page q := hstays.others q hq
        rw [← hsame, page_of_select, if_neg hq, if_pos hreg]
  | readReg | cx0Read | cx0Write => exact absurd hsel (by simp [selects])

/-! ## Runs -/

def apertureStart (hw : Hw) (objs : Fin 6 → Obj DklPhyReg) (calls : Fin 6 → List DklCall) :
    Threads (Fin 6) CallOp CallOp.Ans ApertureState Unit :=
  ⟨⟨hw, objs, fun _ => false⟩, fun phy => dklThread phy (calls phy)⟩

/-- In every run every step stays in its page exactly if every selection of a page
finds the other ports of its index register at page 0. -/
theorem staysInPage_iff (hw : Hw) (objs : Fin 6 → Obj DklPhyReg) (calls : Fin 6 → List DklCall)
    (es : List ApertureStep) (c : Threads (Fin 6) CallOp CallOp.Ans ApertureState Unit)
    (hrun : ApertureRun (apertureStart hw objs calls) es c) :
    (∀ e ∈ es, StaysInPage e) ↔ ∀ e ∈ es, SelectsAlone e := by
  have hprog (phy : Fin 6) := dklThread_each phy (calls phy)
  constructor
  · intro h
    exact (hrun.invariant (I := fun _ => True) (C := StaysInPage) (S := SelectsAlone)
      (fun _ _ _ _ _ _ ho hexec hstays => ⟨trivial, selectsAlone_of_staysInPage ho hexec hstays⟩)
      hprog trivial h).2
  · intro h
    exact (hrun.invariant (I := SelectedShown) (C := SelectsAlone) (S := StaysInPage)
      (fun _ _ _ _ _ hs ho hexec halone => apertureStep_staysInPage hs ho hexec halone)
      hprog (fun _ hq => absurd hq (by simp [apertureStart])) h).2

/-! ### Two ports of one index register -/

def newDklObjs : Fin 6 → Obj DklPhyReg :=
  fun _ => ⟨⟨true, 0, 0, 0, 0⟩, ⟨⟨0, 0⟩, ⟨0, 0⟩, ⟨0, 0⟩, ⟨0, 0⟩, ⟨0, 0⟩⟩⟩

/-- Apertures full of zeros, with a value in the index registers. -/
def dklHw (hipIndex : U32) : Hw := ⟨fun _ => hipIndex, fun _ _ _ => 0, fun _ _ _ => 0, fun _ _ => 0⟩

def oneCall (phy : Fin 6) (call : DklCall) : Fin 6 → List DklCall := Function.update (fun _ => []) phy [call]

/-- A read of the second PHY, with all ports at page 0. -/
theorem staysInPage_iff_zero : ∃ es c,
    ApertureRun (apertureStart (dklHw 0) newDklObjs (oneCall 1 .readRegisters)) es c ∧ es.length = 14 ∧
      ((∀ e ∈ es, StaysInPage e) ↔ ∀ e ∈ es, SelectsAlone e) := by
  have hrun : (Threads.schedule apertureExec (List.replicate 14 1)
      (apertureStart (dklHw 0) newDklObjs (oneCall 1 .readRegisters))).map (fun r => r.1.length) = some 14 := by
    decide
  obtain ⟨⟨es, c⟩, hschedule, hlength⟩ := Option.map_eq_some_iff.mp hrun
  have hsteps := Threads.run_of_schedule hschedule
  exact ⟨es, c, hsteps, hlength, staysInPage_iff _ _ _ es c hsteps⟩

/-- The same read while the first PHY shows page 2: its index byte is cleared. -/
theorem selection_clears_other_port : ∃ es c,
    ApertureRun (apertureStart (dklHw 2) newDklObjs (oneCall 1 .readRegisters)) es c ∧
      ¬∀ e ∈ es, StaysInPage e := by
  have hrun : (Threads.schedule apertureExec (List.replicate 4 1)
      (apertureStart (dklHw 2) newDklObjs (oneCall 1 .readRegisters))).map (fun r => r.1.any fun e =>
        decide (0 ≠ e.thread ∧ e.after.hw.page 0 ≠ e.before.hw.page 0)) = some true := by
    decide
  obtain ⟨⟨es, c⟩, hschedule, hany⟩ := Option.map_eq_some_iff.mp hrun
  refine ⟨es, c, Threads.run_of_schedule hschedule, fun h => ?_⟩
  obtain ⟨e, he, hclear⟩ := List.any_eq_true.mp hany
  obtain ⟨hthread, hpage⟩ := of_decide_eq_true hclear
  exact hpage ((h e he).others 0 hthread)

end Genlock.Vsyncalter
