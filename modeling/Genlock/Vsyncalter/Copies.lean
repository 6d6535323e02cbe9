import Genlock.Vsyncalter.Kinds

/-! # What the clock is decoded from

Combo and DKL PHYs decode the registers on every call. C10, C20 and M/N PHYs
decode a copy in the object, which only `read_registers` writes.
-/

namespace Genlock.Vsyncalter

/-! ## Programs that leave a copy alone -/

section Keeps

variable {Φ Dev : Type} {DA : Dev → Type} {H κ α : Type}

def PhyOp.Keeps (copy : Φ → κ) : PhyOp Φ Dev → Prop
  | .modObj f => ∀ o, copy (f o).reg = copy o.reg
  | .await => False
  | _ => True

abbrev Keeps (copy : Φ → κ) (p : PhyProg Φ Dev DA α) : Prop := p.Each (PhyOp.Keeps copy)

variable {copy : Φ → κ}

theorem keeps_perform {o : PhyOp Φ Dev} (h : o.Keeps copy) :
    Keeps copy (Prog.perform o : PhyProg Φ Dev DA (o.Ans DA)) := (Prog.each_perform o).mpr h

theorem keeps_modBase (f : PhyBase → PhyBase) :
    Keeps copy (modBase f : PhyProg Φ Dev DA Unit) := keeps_perform fun _ => rfl

theorem keeps_modReg {f : Φ → Φ} (h : ∀ r, copy (f r) = copy r) :
    Keeps copy (modReg f : PhyProg Φ Dev DA Unit) := keeps_perform fun o => h o.reg

theorem keeps_getObj : Keeps copy (getObj : PhyProg Φ Dev DA (Obj Φ)) := keeps_perform trivial

theorem keeps_timerDelete : Keeps copy (timerDelete : PhyProg Φ Dev DA Unit) := keeps_perform trivial

theorem keeps_makeTimer (ms : ℤ) : Keeps copy (makeTimer ms : PhyProg Φ Dev DA Unit) :=
  keeps_perform trivial

theorem keeps_enterProgram (mod : Bool) : Keeps copy (enterProgram mod : PhyProg Φ Dev DA Unit) :=
  keeps_perform trivial

theorem keeps_onDev (d : Dev) : Keeps copy (onDev d : PhyProg Φ Dev DA (DA d)) :=
  keeps_perform trivial

theorem Keeps.run {dev : Device Dev DA H} {v : World Φ H → Option (World Φ H)}
    {p : PhyProg Φ Dev DA α} (hp : Keeps copy p) {w : World Φ H} {r : α × World Φ H}
    (hrun : p.run (execOp dev v) w = some r) : copy r.2.obj.reg = copy w.obj.reg := by
  refine Prog.Each.run_preserves (I := fun w' => copy w'.obj.reg = copy w.obj.reg) ?_ hp hrun rfl
  intro o w₁ r₁ ho hw₁ hexec
  cases o with
  | modObj f =>
      obtain rfl := Option.some.inj hexec
      exact (ho w₁.obj).trans hw₁
  | await => exact ho.elim
  | dev d =>
      obtain ⟨_, -, rfl⟩ := Option.map_eq_some_iff.mp hexec
      exact hw₁
  | _ =>
      obtain rfl := Option.some.inj hexec
      exact hw₁

/-- A program that does not wait runs alike in the handler and in the caller. -/
theorem Keeps.run_wait {dev : Device Dev DA H} {v u : World Φ H → Option (World Φ H)}
    {p : PhyProg Φ Dev DA α} (hp : Keeps copy p) (w : World Φ H) :
    p.run (execOp dev v) w = p.run (execOp dev u) w := by
  refine Prog.Each.run_congr ?_ hp w
  intro o w₁ ho
  cases o with
  | await => exact ho.elim
  | _ => rfl

/-! ### The base class -/

structure PhyClass.KeepsCopy (cls : PhyClass Φ Dev DA) (copy : Φ → κ) : Prop where
  clock : Keeps copy cls.calculatePllClock
  dividers : ∀ x, Keeps copy (cls.calculateFeedbackDividers x)
  program : ∀ mod, Keeps copy (cls.programMmio mod)

variable {cls : PhyClass Φ Dev DA} (h : cls.KeepsCopy copy)

include h

theorem keeps_rampsIn : cls.RampsIn (PhyOp.Keeps copy) where
  clientDone := trivial
  enter _ := trivial
  usleep _ := trivial
  dividers := h.dividers
  program := h.program

theorem keeps_setPllClockFrom (current target shift : ℚ) (delay : ℤ) (commit : Bool) :
    Keeps copy (setPllClockFrom cls current target shift delay commit) :=
  (keeps_rampsIn h).setPllClockFrom current target shift delay commit

theorem keeps_resetPhyRegs : Keeps copy (resetPhyRegs cls) := by
  refine Prog.each_bind keeps_timerDelete fun _ => Prog.each_bind keeps_getObj fun o => ?_
  refine Prog.each_bind (keeps_setPllClockFrom h _ _ _ _ _) fun _ => ?_
  refine Prog.each_bind (keeps_enterProgram false) fun _ => ?_
  exact Prog.each_bind (h.program false) fun _ => keeps_modBase _

theorem keeps_programPhyLoaded (steps : ℤ) (td used shift : ℚ) (delay : ℤ) (reset commit : Bool) :
    Keeps copy (programPhyLoaded cls steps td used shift delay reset commit) := by
  refine Prog.each_bind h.clock fun clock => Prog.each_bind (keeps_modBase _) fun _ => ?_
  split
  · exact trivial
  · refine Prog.each_bind (keeps_setPllClockFrom h _ _ _ _ _) fun status => ?_
    split
    · exact trivial
    · split
      · exact Prog.each_bind (keeps_modBase _) fun _ =>
          Prog.each_bind (keeps_makeTimer _) fun _ => trivial
      · exact trivial

/-- The handler runs while the caller waits, and it too leaves the copy alone. -/
theorem waitUntilDone_copy {dev : Device Dev DA H} {w : World Φ H} {r : Unit × World Φ H}
    (hrun : runCaller dev cls (waitUntilDone cls) w = some r) :
    copy r.2.obj.reg = copy w.obj.reg := by
  obtain ⟨_, w₁, hwait, hrest⟩ := Prog.run_bind_eq_some hrun
  rw [run_awaitDone] at hwait
  obtain ⟨w₂, hafter, heq⟩ := Option.map_eq_some_iff.mp hwait
  obtain rfl : w₂ = w₁ := congrArg Prod.snd heq
  have hw₂ : copy w₂.obj.reg = copy w.obj.reg := by
    unfold waitForTimer at hafter
    split at hafter
    · rw [← Option.some.inj hafter]
    · obtain ⟨expireMs, -, hreset⟩ := Option.bind_eq_some_iff.mp hafter
      obtain ⟨r', hhandler, rfl⟩ := Option.map_eq_some_iff.mp hreset
      have hcopy := (keeps_resetPhyRegs h).run hhandler
      exact hcopy
  rw [Prog.run_bind_of run_libClientDone] at hrest
  split at hrest
  · exact ((keeps_resetPhyRegs h).run hrest).trans hw₂
  · obtain rfl := Option.some.inj hrest
    exact hw₂

end Keeps

/-! ## Classes that decode a copy -/

variable {Φ : Type}

/-- The clock is a function of the object alone, and only `read_registers`
changes what it depends on. -/
structure DecodesCopy (cls : PhyClass Φ RegOp RegOp.Ans) (clockOf : Φ → Option ℚ) : Prop where
  clock : ∀ v w, cls.calculatePllClock.run (regExec v) w = (clockOf w.obj.reg).map (·, w)
  keeps : cls.KeepsCopy clockOf
  reads : Keeps (fun _ => ()) cls.readRegisters

section DecodesCopy

variable {cls : PhyClass Φ RegOp RegOp.Ans} {clockOf : Φ → Option ℚ} (h : DecodesCopy cls clockOf)
  {v : World Φ Hw → Option (World Φ Hw)} {w : World Φ Hw}

include h

/-- After `read_registers` the copy decodes to the clock of the hardware. -/
theorem DecodesCopy.readRegisters_copy {r : Unit × World Φ Hw}
    (hread : cls.readRegisters.run (regExec v) w = some r) :
    clockOf r.2.obj.reg = liveClock cls w := by
  rw [h.reads.run_wait (u := fun _ => none)] at hread
  unfold liveClock runHandler
  rw [Prog.run_bind_of hread, h.clock]
  cases clockOf r.2.obj.reg <;> rfl

theorem DecodesCopy.programPhy_copy {td shift shift2 : ℚ} {threshold delay : ℤ} {reset commit : Bool}
    {r : ℤ × World Φ Hw} (hrun : runCaller hwDevice cls
      (programPhy cls td shift shift2 threshold delay reset commit) w = some r) :
    clockOf r.2.obj.reg = liveClock cls w := by
  unfold runCaller programPhy at hrun
  dsimp only at hrun
  split at hrun
  · exact absurd hrun (by simp)
  · obtain ⟨_, w₁, hread, hrest⟩ := Prog.run_bind_eq_some hrun
    exact ((keeps_programPhyLoaded h.keeps _ _ _ _ _ _ _).run hrest).trans
      (h.readRegisters_copy hread)

theorem DecodesCopy.setPllClock_copy {target shift : ℚ} {delay : ℤ} {r : ℤ × World Φ Hw}
    (hrun : runCaller hwDevice cls (setPllClock cls target shift delay) w = some r) :
    clockOf r.2.obj.reg =
      if target ≤ 0 ∨ shift < 0 then clockOf w.obj.reg else liveClock cls w := by
  unfold runCaller setPllClock at hrun
  split at hrun
  · rename_i hinvalid
    obtain rfl := Option.some.inj hrun
    rw [if_pos hinvalid]
  · rename_i hvalid
    obtain ⟨_, w₁, hread, hrest⟩ := Prog.run_bind_eq_some hrun
    have hkeeps : Keeps clockOf (cls.calculatePllClock >>= fun current =>
        setPllClockFrom cls current target shift delay true) :=
      Prog.each_bind h.keeps.clock fun _ => keeps_setPllClockFrom h.keeps _ _ _ _ _
    rw [if_neg hvalid, hkeeps.run hrest, h.readRegisters_copy hread]

end DecodesCopy

/-! ### C10, C20 and M/N -/

def C10PhyReg.clock (r : C10PhyReg) : Option ℚ :=
  c10PllClock (c10Fields r.pllStateOrig) (c10Quot r.pllStateOrig)

def C20PhyReg.clock (r : C20PhyReg) : Option ℚ := some (c20PllClock r.fields)

def DpMNPhyReg.clock (r : DpMNPhyReg) : Option ℚ := some r.mreg.origVal.toNat

theorem keeps_cx0Write {Φ κ : Type} {copy : Φ → κ} (port lane addr : ℕ) (data : U8)
    (committed : Bool) : Keeps copy (cx0Write port lane addr data committed) := keeps_onDev _

theorem keeps_intelCx0Write {Φ κ : Type} {copy : Φ → κ} (port : ℕ) (mask : LaneMask) (addr : ℕ)
    (data : U8) (committed : Bool) : Keeps copy (intelCx0Write port mask addr data committed) :=
  Prog.each_forEach (fun _ => keeps_cx0Write _ _ _ _ _) _

theorem keeps_intelCx0Rmw {Φ κ : Type} {copy : Φ → κ} (port : ℕ) (mask : LaneMask) (addr : ℕ)
    (clear set : U8) (committed : Bool) :
    Keeps copy (intelCx0Rmw port mask addr clear set committed) := by
  refine Prog.each_forEach (fun lane => Prog.each_bind (keeps_onDev _) fun old => ?_) _
  dsimp only
  split
  · exact keeps_cx0Write _ _ _ _ _
  · exact trivial

theorem keeps_intelC20SramRead {Φ κ : Type} {copy : Φ → κ} (port : ℕ) (addr : U16) :
    Keeps copy (intelC20SramRead port addr) :=
  Prog.each_bind (keeps_intelCx0Write _ _ _ _ _) fun _ =>
    Prog.each_bind (keeps_intelCx0Write _ _ _ _ _) fun _ =>
      Prog.each_bind (keeps_onDev _) fun _ => Prog.each_bind (keeps_onDev _) fun _ => trivial

theorem keeps_intelC20SramWrite {Φ κ : Type} {copy : Φ → κ} (port : ℕ) (addr data : U16) :
    Keeps copy (intelC20SramWrite port addr data) :=
  Prog.each_bind (keeps_intelCx0Write _ _ _ _ _) fun _ =>
    Prog.each_bind (keeps_intelCx0Write _ _ _ _ _) fun _ =>
      Prog.each_bind (keeps_intelCx0Write _ _ _ _ _) fun _ => keeps_intelCx0Write _ _ _ _ _

theorem c10_decodesCopy (port : ℕ) : DecodesCopy (c10 port) C10PhyReg.clock where
  clock v w := by
    show C10.calculatePllClock.run (regExec v) w = _
    unfold C10.calculatePllClock
    rw [Prog.run_bind_of run_getObj]
    show _ = (c10PllClock (c10Fields w.obj.reg.pllStateOrig) (c10Quot w.obj.reg.pllStateOrig)).map _
    cases c10PllClock (c10Fields w.obj.reg.pllStateOrig) (c10Quot w.obj.reg.pllStateOrig) <;> rfl
  keeps := {
    clock := by
      refine Prog.each_bind keeps_getObj fun o => ?_
      split <;> exact trivial
    dividers := fun x => by
      refine Prog.each_bind keeps_getObj fun o => ?_
      split
      · exact trivial
      · exact Prog.each_bind (keeps_modReg fun _ => rfl) fun _ =>
          Prog.each_bind (keeps_modReg fun _ => rfl) fun _ => trivial
    program := fun mod =>
      Prog.each_bind (keeps_intelCx0Rmw _ _ _ _ _ _) fun _ =>
      Prog.each_bind (keeps_intelCx0Rmw _ _ _ _ _ _) fun _ =>
      Prog.each_bind (keeps_intelCx0Rmw _ _ _ _ _ _) fun _ =>
      Prog.each_bind keeps_getObj fun _ => Prog.each_bind (keeps_intelCx0Write _ _ _ _ _) fun _ =>
      Prog.each_bind keeps_getObj fun _ => Prog.each_bind (keeps_intelCx0Write _ _ _ _ _) fun _ =>
      Prog.each_bind (keeps_intelCx0Rmw _ _ _ _ _ _) fun _ => trivial }
  reads := by
    refine Prog.each_forEach (fun i => ?_) _
    exact Prog.each_bind (keeps_onDev _) fun _ => keeps_modReg fun _ => rfl

theorem c20_decodesCopy (port : ℕ) (isBMG : Bool) :
    DecodesCopy (c20 port isBMG) C20PhyReg.clock where
  clock _ _ := rfl
  keeps := {
    clock := ⟨trivial, fun _ => trivial⟩
    dividers := fun x => Prog.each_bind keeps_getObj fun _ =>
      Prog.each_bind (keeps_modReg fun _ => rfl) fun _ =>
        Prog.each_bind (keeps_modReg fun _ => rfl) fun _ => trivial
    program := fun mod =>
      Prog.each_bind keeps_getObj fun _ =>
      Prog.each_bind keeps_getObj fun _ => Prog.each_bind (keeps_intelC20SramWrite _ _ _) fun _ =>
      Prog.each_bind keeps_getObj fun _ => Prog.each_bind (keeps_intelC20SramWrite _ _ _) fun _ =>
      Prog.each_bind (keeps_intelC20SramWrite _ _ _) fun _ => trivial }
  reads := by
    have hread (addr : U16) (f : U16 → C20PhyReg → C20PhyReg) : Keeps (fun _ => ())
        (intelC20SramRead port addr >>= fun value => modReg (f value)) :=
      Prog.each_bind (keeps_intelC20SramRead _ _) fun _ => keeps_modReg fun _ => rfl
    refine Prog.each_bind (keeps_onDev _) fun rate => ?_
    refine Prog.each_bind (Prog.each_forEach (fun i => ?_) _) fun _ => ?_
    · exact Prog.each_bind (keeps_intelC20SramRead _ _) fun _ =>
        Prog.each_bind (keeps_modReg fun _ => rfl) fun _ => keeps_modReg fun _ => rfl
    refine Prog.each_bind (Prog.each_forEach (fun i => hread _ _) _) fun _ => ?_
    refine Prog.each_bind keeps_getObj fun o => ?_
    refine Prog.each_bind (Prog.each_forEach (fun i => hread _ _) _) fun _ => ?_
    exact Prog.each_bind (hread _ _) fun _ => Prog.each_bind (hread _ _) fun _ =>
      keeps_modReg fun _ => rfl

theorem dpMN_decodesCopy (pipe : Fin 4) : DecodesCopy (dpMN pipe) DpMNPhyReg.clock where
  clock _ _ := rfl
  keeps := {
    clock := ⟨trivial, fun _ => trivial⟩
    dividers := fun _ => Prog.each_bind (keeps_modReg fun _ => rfl) fun _ => trivial
    program := fun _ =>
      Prog.each_bind keeps_getObj fun _ => Prog.each_bind (keeps_onDev _) fun _ =>
      Prog.each_bind keeps_getObj fun _ => Prog.each_bind (keeps_onDev _) fun _ => trivial }
  reads :=
    Prog.each_bind (keeps_onDev _) fun _ => Prog.each_bind (keeps_modReg fun _ => rfl) fun _ =>
    Prog.each_bind (keeps_onDev _) fun _ => Prog.each_bind (keeps_modReg fun _ => rfl) fun _ =>
    Prog.each_bind (keeps_modReg fun _ => rfl) fun _ => keeps_modReg fun _ => rfl

/-! ## Classes that decode the registers -/

def DecodesRegisters (cls : PhyClass Φ RegOp RegOp.Ans) : Prop :=
  ∀ v w, ∃ c w', cls.calculatePllClock.run (regExec v) w = some (c, w') ∧
    liveClock cls w = some c

theorem combo_decodesRegisters (dpllNum : Fin 4) : DecodesRegisters (combo dpllNum) :=
  fun _ _ => ⟨_, _, rfl, rfl⟩

theorem dkl_decodesRegisters (phy : Fin 6) : DecodesRegisters (dkl phy) := by
  intro v w
  refine ⟨_, _, dkl_calculatePllClock_run, ?_⟩
  unfold liveClock runHandler
  rw [Prog.run_bind_of (p := (dkl phy).readRegisters) dkl_readRegisters_run]
  refine (congrArg (Option.map Prod.fst) dkl_calculatePllClock_run).trans ?_
  simp only [World.put_hw, dklReg_dklSelected, Option.map_some]

end Genlock.Vsyncalter
