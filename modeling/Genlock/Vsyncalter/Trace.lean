import Genlock.Vsyncalter.Access
import Genlock.Vsyncalter.Machine

/-! # Runs with a trace

The machine together with what has been done to its PHYs: every call of
`program_mmio`, and every call of `set_pll_clock` with the clock and the flag
that it met. Forgetting the trace gives the machine back.
-/

namespace Genlock.Vsyncalter

inductive PhyEvent where
  | setPllClock (target shift : ℚ) (liveClock : Option ℚ) (clientDone : Bool)
  | programMmio (mod : Bool)
deriving DecidableEq, Repr

def PhyEvent.IsProgram : PhyEvent → Prop
  | programMmio _ => True
  | setPllClock _ _ _ _ => False

instance : DecidablePred PhyEvent.IsProgram
  | .programMmio _ => isTrue trivial
  | .setPllClock _ _ _ _ => isFalse id

/-- A call of `set_pll_clock` that ends before its first step. -/
def PhyEvent.TurnedAway : PhyEvent → Prop
  | programMmio _ => True
  | setPllClock target shift liveClock clientDone =>
      target ≤ 0 ∨ shift < 0 ∨ (∃ c, liveClock = some c ∧ c ≤ 0) ∨ clientDone = true

/-! ## One PHY -/

structure Traced where
  hw : Hw
  trace : List PhyEvent

def tracedDevice : Device RegOp RegOp.Ans Traced where
  exec d t := (hwDevice.exec d t.hw).map fun r => (r.1, { t with hw := r.2 })
  elapse ms t := { t with hw := hwDevice.elapse ms t.hw }

section Phy

variable {Φ α : Type}

def World.erase (w : World Φ Traced) : World Φ Hw := ⟨w.hw.hw, w.obj, w.clientDone, w.timer⟩

def World.record (w : World Φ Traced) (e : PhyEvent) : World Φ Traced :=
  { w with hw := { w.hw with trace := w.hw.trace ++ [e] } }

abbrev Arm := ℤ → Option ℤ → Option ℤ

def alwaysArm : Arm := fun expireMs _ => some expireMs

/-- The operations, with the calls of `program_mmio` recorded. -/
def tracedExec (arm : Arm) (wait : World Φ Traced → Option (World Φ Traced)) :
    (o : PhyOp Φ RegOp) → World Φ Traced → Option (o.Ans RegOp.Ans × World Φ Traced)
  | .enter mod, w => some ((), w.record (.programMmio mod))
  | .makeTimer expireMs, w => some ((), { w with timer := arm expireMs w.timer })
  | o, w => execOp tracedDevice wait o w

def tracedWait (cls : PhyClass Φ RegOp RegOp.Ans) (w : World Φ Traced) : Option (World Φ Traced) :=
  if w.obj.base.done || w.clientDone then some w
  else
    w.timer.bind fun expireMs =>
      ((resetPhyRegs cls).run (tracedExec alwaysArm fun _ => none)
        { w with hw := tracedDevice.elapse expireMs w.hw }).map Prod.snd

def tracedCaller (cls : PhyClass Φ RegOp RegOp.Ans) (p : PhyProg Φ RegOp RegOp.Ans α)
    (w : World Φ Traced) : Option (α × World Φ Traced) :=
  p.run (tracedExec alwaysArm (tracedWait cls)) w

theorem tracedExec_erase {v : World Φ Traced → Option (World Φ Traced)}
    {u : World Φ Hw → Option (World Φ Hw)} (hwait : ∀ w, (v w).map World.erase = u w.erase)
    (o : PhyOp Φ RegOp) (w : World Φ Traced) :
    (tracedExec alwaysArm v o w).map (fun r => (r.1, r.2.erase)) = execOp hwDevice u o w.erase := by
  cases o with
  | await =>
      show ((v w).map _).map _ = (u w.erase).map _
      rw [← hwait, Option.map_map, Option.map_map]
      rfl
  | dev d =>
      show ((Option.map _ (hwDevice.exec d w.hw.hw)).map _).map _ = (hwDevice.exec d w.hw.hw).map _
      rw [Option.map_map, Option.map_map]
      rfl
  | _ => rfl

theorem tracedWait_erase (cls : PhyClass Φ RegOp RegOp.Ans) (w : World Φ Traced) :
    (tracedWait cls w).map World.erase = waitForTimer hwDevice cls w.erase := by
  unfold tracedWait waitForTimer
  show Option.map _ (if (w.obj.base.done || w.clientDone) = true then _ else _) =
    if (w.obj.base.done || w.clientDone) = true then _ else w.timer.bind _
  split
  · rfl
  · cases w.timer with
    | none => rfl
    | some expireMs =>
        have hrun := Prog.run_forget (tracedExec_erase (v := fun _ => none) (u := fun _ => none)
          fun _ => rfl) (resetPhyRegs cls) { w with hw := tracedDevice.elapse expireMs w.hw }
        have hsnd := congrArg (Option.map Prod.snd) hrun
        rw [Option.map_map] at hsnd
        show Option.map _ (Option.map _ _) = Option.map Prod.snd _
        rw [Option.map_map]
        exact hsnd

theorem tracedCaller_erase (cls : PhyClass Φ RegOp RegOp.Ans) (p : PhyProg Φ RegOp RegOp.Ans α)
    (w : World Φ Traced) :
    (tracedCaller cls p w).map (fun r => (r.1, r.2.erase)) = runCaller hwDevice cls p w.erase :=
  Prog.run_forget (tracedExec_erase (tracedWait_erase cls)) p w

end Phy

/-! ## Observing -/

/-- Operations that neither write a divider nor touch the timer or the trace. -/
def ObservesOp (Φ : Type) : PhyOp Φ RegOp → Prop
  | .getObj | .modObj _ | .clientDone => True
  | .dev d => ObservesReg d
  | .usleep _ | .timerDelete | .makeTimer _ | .await | .enter _ => False

section Observes

variable {Φ α : Type}

def Observes (p : PhyProg Φ RegOp RegOp.Ans α) : Prop := p.Each (ObservesOp Φ)

theorem Accesses.observes {p : PhyProg Φ RegOp RegOp.Ans α} (hp : Accesses ObservesReg p) :
    Observes p := by
  refine Prog.Each.mono hp fun o ho => ?_
  cases o with
  | getObj | modObj f => trivial
  | dev d => exact ho
  | clientDone | usleep | timerDelete | makeTimer | await | enter => exact ho.elim

structure Observed (w w' : World Φ Traced) : Prop where
  trace : w'.hw.trace = w.hw.trace
  clientDone : w'.clientDone = w.clientDone
  timer : w'.timer = w.timer
  dividers : SameDividers w.hw.hw w'.hw.hw

theorem Observes.run {p : PhyProg Φ RegOp RegOp.Ans α} (hp : Observes p) {arm : Arm}
    {v : World Φ Traced → Option (World Φ Traced)} {w : World Φ Traced} {r : α × World Φ Traced}
    (hrun : p.run (tracedExec arm v) w = some r) : Observed w r.2 := by
  refine Prog.Each.run_preserves (I := Observed w) ?_ hp hrun ⟨rfl, rfl, rfl, SameDividers.refl _⟩
  intro o w₁ r₁ ho h hexec
  cases o with
  | dev d =>
      obtain ⟨r₂, hdev, rfl⟩ := Option.map_eq_some_iff.mp hexec
      obtain ⟨r₃, hhw, rfl⟩ := Option.map_eq_some_iff.mp hdev
      exact ⟨h.trace, h.clientDone, h.timer, h.dividers.trans (ObservesReg.exec ho hhw)⟩
  | getObj | modObj f | clientDone =>
      obtain rfl := Option.some.inj hexec
      exact ⟨h.trace, h.clientDone, h.timer, h.dividers⟩
  | usleep | timerDelete | makeTimer | await | enter => exact ho.elim

end Observes

/-! ## Calls without and with steps -/

section Calls

variable {Φ α : Type} {arm : Arm} {v : World Φ Traced → Option (World Φ Traced)}

theorem trace_grows (hv : ∀ w w', v w = some w' → w.hw.trace <+: w'.hw.trace)
    {p : PhyProg Φ RegOp RegOp.Ans α} {w : World Φ Traced} {r : α × World Φ Traced}
    (hrun : p.run (tracedExec arm v) w = some r) : w.hw.trace <+: r.2.hw.trace := by
  refine Prog.Each.run_preserves (P := fun _ => True)
    (I := fun w' : World Φ Traced => w.hw.trace <+: w'.hw.trace) ?_
    (Prog.each_of_forall (fun _ => trivial) p) hrun (List.prefix_refl _)
  intro o w₁ r₁ _ hw₁ hexec
  apply hw₁.trans
  cases o with
  | enter mod =>
      obtain rfl := Option.some.inj hexec
      exact List.prefix_append _ _
  | await =>
      obtain ⟨w₂, hwait, rfl⟩ := Option.map_eq_some_iff.mp hexec
      exact hv w₁ w₂ hwait
  | dev d =>
      obtain ⟨r₂, hdev, rfl⟩ := Option.map_eq_some_iff.mp hexec
      obtain ⟨r₃, -, rfl⟩ := Option.map_eq_some_iff.mp hdev
      exact List.prefix_refl _
  | _ =>
      obtain rfl := Option.some.inj hexec
      exact List.prefix_refl _

theorem tracedWait_grows {cls : PhyClass Φ RegOp RegOp.Ans} {w w' : World Φ Traced}
    (hwait : tracedWait cls w = some w') : w.hw.trace <+: w'.hw.trace := by
  unfold tracedWait at hwait
  split at hwait
  · obtain rfl := Option.some.inj hwait
    exact List.prefix_refl _
  · obtain ⟨expireMs, -, hrun⟩ := Option.bind_eq_some_iff.mp hwait
    obtain ⟨r, hreset, rfl⟩ := Option.map_eq_some_iff.mp hrun
    exact trace_grows (by simp) hreset

theorem status_of_along {p : PhyProg Φ RegOp RegOp.Ans ℤ} {g : Bool}
    (hp : p.Along (stepDiscipline Φ RegOp RegOp.Ans) (fun status _ => status = 0) g)
    {w : World Φ Traced} {r : ℤ × World Φ Traced} (hrun : p.run (tracedExec arm v) w = some r) :
    r.1 = 0 := by
  obtain ⟨_, hstatus, -⟩ := Prog.Along.run (R := fun _ _ => True)
    (fun _ _ _ _ _ _ _ => ⟨trivial, trivial⟩) hp trivial hrun
  exact hstatus

/-- The loop of a ramp that is not shut down calls `program_mmio`. -/
theorem stepLoop_programs {cls : PhyClass Φ RegOp RegOp.Ans} (h : cls.NeverFails)
    (hv : ∀ w w', v w = some w' → w.hw.trace <+: w'.hw.trace) {target size x : ℚ} {steps left : ℕ}
    {delay : ℤ} {w : World Φ Traced} {r : ℤ × World Φ Traced} (hdone : w.clientDone = false)
    (hrun : (stepLoop cls target size steps delay true (left + 1) x).run (tracedExec arm v) w = some r) :
    ∃ e, r.2.hw.trace = w.hw.trace ++ e ∧ .programMmio true ∈ e := by
  unfold stepLoop at hrun
  obtain ⟨done, w₁, hflag, hrest⟩ := Prog.run_bind_eq_some hrun
  obtain ⟨rfl, rfl⟩ : w.clientDone = done ∧ w = w₁ := Prod.mk.inj (Option.some.inj hflag)
  rw [hdone] at hrest
  obtain ⟨status, w₂, hbody, hloop⟩ := Prog.run_bind_eq_some hrest
  obtain ⟨status', w₃, hdiv, hprogram⟩ := Prog.run_bind_eq_some hbody
  obtain rfl : status' = 0 := status_of_along (h.dividers _ true) hdiv
  obtain ⟨_, w₄, henter, hwrite⟩ := Prog.run_bind_eq_some hprogram
  obtain rfl : w₃.record (.programMmio true) = w₄ := congrArg Prod.snd (Option.some.inj henter)
  obtain ⟨e₁, he₁⟩ := trace_grows hv hdiv
  obtain ⟨e₂, he₂⟩ := (trace_grows hv hwrite).trans (trace_grows hv hloop)
  refine ⟨e₁ ++ [.programMmio true] ++ e₂, ?_, by simp⟩
  rw [← he₂, ← List.append_assoc, ← List.append_assoc, he₁]
  rfl

theorem Observes.run_handler {p : PhyProg Φ RegOp RegOp.Ans α} (hp : Observes p) {w : World Φ Traced}
    {r : α × World Φ Traced} (hrun : p.run (tracedExec arm v) w = some r) :
    runHandler hwDevice p w.erase = some (r.1, r.2.erase) := by
  have hsame : p.run (tracedExec arm v) w = p.run (tracedExec alwaysArm fun _ => none) w := by
    refine Prog.Each.run_congr ?_ hp w
    intro o w₁ ho
    cases o with
    | await | makeTimer => exact ho.elim
    | _ => rfl
  have herase := Prog.run_forget (tracedExec_erase (v := fun _ => none) (u := fun _ => none)
    fun _ => rfl) p w
  rw [← hsame, hrun] at herase
  exact herase.symm

/-- A ramp that is turned away does nothing; any other calls `program_mmio`. -/
theorem setPllClockFrom_traced {cls : PhyClass Φ RegOp RegOp.Ans} (h : cls.NeverFails)
    (hv : ∀ w w', v w = some w' → w.hw.trace <+: w'.hw.trace) {current target shift : ℚ} {delay : ℤ}
    {w : World Φ Traced} {r : ℤ × World Φ Traced}
    (hrun : (setPllClockFrom cls current target shift delay true).run (tracedExec arm v) w = some r) :
    if current ≤ 0 ∨ target ≤ 0 ∨ shift < 0 ∨ w.clientDone = true then r.2 = w
    else r.1 = 0 ∧ ∃ e, r.2.hw.trace = w.hw.trace ++ e ∧ .programMmio true ∈ e := by
  unfold setPllClockFrom at hrun
  split at hrun
  · rename_i hinvalid
    obtain rfl := Option.some.inj hrun
    rw [if_pos (by tauto)]
  · rename_i hvalid
    push Not at hvalid
    cases hramp : rampSteps current target shift with
    | none => simp [hramp] at hrun
    | some ramp =>
        obtain ⟨steps, size⟩ := ramp
        obtain ⟨left, rfl⟩ : ∃ left, steps = left + 1 :=
          Nat.exists_eq_succ_of_ne_zero (rampSteps_spec hvalid.2.2 hramp).1.ne'
        simp only [hramp] at hrun
        cases hdone : w.clientDone with
        | true =>
            unfold stepLoop at hrun
            rw [Prog.run_bind_of (show _ = some (true, w) by rw [← hdone]; rfl)] at hrun
            obtain rfl := Option.some.inj hrun
            simp
        | false =>
            rw [if_neg (by simp only [not_or, not_le, not_lt]; exact ⟨hvalid.1, hvalid.2.1, hvalid.2.2, by simp⟩)]
            exact ⟨status_of_along (stepLoop_returns h _ _ _ _ _ _ _ true) hrun, stepLoop_programs h hv hdone hrun⟩

theorem liveClock_of_run {cls : PhyClass Φ RegOp RegOp.Ans} (h : cls.Observing)
    {w w₁ w₂ : World Φ Traced} {c : ℚ}
    (hread : cls.readRegisters.run (tracedExec arm v) w = some ((), w₁))
    (hclock : cls.calculatePllClock.run (tracedExec arm v) w₁ = some (c, w₂)) :
    liveClock cls w.erase = some c ∧ Observed w w₂ := by
  have hboth : (cls.readRegisters >>= fun _ => cls.calculatePllClock).run (tracedExec arm v) w =
      some (c, w₂) := by
    rw [Prog.run_bind_of hread, hclock]
  have hobserves : Observes (cls.readRegisters >>= fun _ => cls.calculatePllClock) :=
    Prog.each_bind h.reads.observes fun _ => h.clock.observes
  exact ⟨congrArg (Option.map Prod.fst) (hobserves.run_handler hboth), hobserves.run hboth⟩

/-- `set_pll_clock` ends before its first step, and then it only observes, or it
calls `program_mmio`. -/
theorem setPllClock_traced {cls : PhyClass Φ RegOp RegOp.Ans} (h : cls.Observing) (h' : cls.NeverFails)
    (hv : ∀ w w', v w = some w' → w.hw.trace <+: w'.hw.trace) {target shift : ℚ} {delay : ℤ}
    {w : World Φ Traced} {r : ℤ × World Φ Traced}
    (hrun : (setPllClock cls target shift delay).run (tracedExec arm v) w = some r) :
    let call := PhyEvent.setPllClock target shift (liveClock cls w.erase) w.clientDone
    (call.TurnedAway → r.2.hw.trace = w.hw.trace ∧ SameDividers w.hw.hw r.2.hw.hw) ∧
      (¬call.TurnedAway → ∃ e, r.2.hw.trace = w.hw.trace ++ e ∧ .programMmio true ∈ e) := by
  unfold setPllClock at hrun
  split at hrun
  · rename_i hinvalid
    obtain rfl := Option.some.inj hrun
    exact ⟨fun _ => ⟨rfl, SameDividers.refl _⟩, fun hcall => absurd (hinvalid.imp_right Or.inl) hcall⟩
  · rename_i hvalid
    obtain ⟨_, w₁, hread, hrest⟩ := Prog.run_bind_eq_some hrun
    obtain ⟨current, w₂, hclock, hfrom⟩ := Prog.run_bind_eq_some hrest
    obtain ⟨hlive, hobserved⟩ := liveClock_of_run h hread hclock
    have hcall : (PhyEvent.setPllClock target shift (liveClock cls w.erase) w.clientDone).TurnedAway ↔
        current ≤ 0 ∨ target ≤ 0 ∨ shift < 0 ∨ w₂.clientDone = true := by
      rw [hobserved.clientDone]
      simp only [PhyEvent.TurnedAway, hlive, Option.some.injEq, exists_eq_left']
      tauto
    have hramp := setPllClockFrom_traced h' hv hfrom
    refine ⟨fun haway => ?_, fun haway => ?_⟩
    · rw [if_pos (hcall.mp haway)] at hramp
      rw [hramp]
      exact ⟨hobserved.trace, hobserved.dividers⟩
    · rw [if_neg fun h => haway (hcall.mpr h), hobserved.trace] at hramp
      exact hramp.2

theorem observes_programPhy {cls : PhyClass Φ RegOp RegOp.Ans} (h : cls.Observing)
    (td shift shift2 : ℚ) (threshold delay : ℤ) (reset : Bool) :
    Observes (programPhy cls td shift shift2 threshold delay reset false) := by
  unfold programPhy
  dsimp only
  split
  · exact trivial
  · exact Prog.each_bind h.reads.observes fun _ => Prog.each_bind h.clock.observes fun _ =>
      ⟨trivial, fun _ => trivial⟩

end Calls

end Genlock.Vsyncalter
