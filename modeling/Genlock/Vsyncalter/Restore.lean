import Genlock.Vsyncalter.Timer
import Genlock.Vsyncalter.Trace

/-! # Whether a restore is pending

`program_phy` changes the clock first and makes the timer afterwards, and the
status of `make_timer` is dropped. A timer that cannot be made leaves a modified
clock and a wait that only Ctrl+C ends.
-/

namespace Genlock.Vsyncalter

/-- `make_timer` where the system calls have these outcomes. -/
def TimerCalls.arm (os : TimerCalls) : Arm := fun expireMs timer =>
  match (osMakeTimer os expireMs).2 with
  | some _ => some expireMs
  | none => timer

theorem TimerCalls.arm_of_succeed {os : TimerCalls} (h : os.Succeed) (expireMs : ℤ) (timer : Option ℤ) :
    os.arm expireMs timer = some expireMs := by
  rw [TimerCalls.arm, osMakeTimer_of_succeed h]

theorem TimerCalls.arm_of_not_succeed {os : TimerCalls} (h : ¬os.Succeed) (expireMs : ℤ)
    (timer : Option ℤ) : os.arm expireMs timer = timer := by
  rw [TimerCalls.arm, osMakeTimer_of_not_succeed h]

section Restore

variable {Φ α : Type}

/-! ## What a call leaves behind -/

def World.Programmed (w : World Φ Traced) : Prop := ∃ mod, .programMmio mod ∈ w.hw.trace

/-- A failure with the registers as they were, or a timer that will restore them. -/
def RestoredOrPending (status : ℤ) (w w' : World Φ Traced) : Prop :=
  (status ≠ 0 ∧ SameDividers w.hw.hw w'.hw.hw) ∨ w'.timer.isSome = true

/-- A successful call after which nothing but Ctrl+C ends the wait. -/
def LeftWaiting (status : ℤ) (w : World Φ Traced) : Prop :=
  status = 0 ∧ w.obj.base.done = false ∧ w.clientDone = false ∧ w.timer = none

/-- The polling loop of `wait_until_done` has no outcome then. -/
theorem LeftWaiting.stuck {status : ℤ} {w : World Φ Traced} (h : LeftWaiting status w)
    (cls : PhyClass Φ RegOp RegOp.Ans) : tracedWait cls w = none := by
  obtain ⟨-, hdone, hclient, htimer⟩ := h
  simp [tracedWait, hdone, hclient, htimer]

def KeepsRestore (w : World Φ Traced) (r : ℤ × World Φ Traced) : Prop :=
  r.2.Programmed → RestoredOrPending r.1 w r.2 ∧ ¬LeftWaiting r.1 r.2

/-- `program_phy` with `commit` that programs nothing: no time to wait, a clock
that is not positive, or a library that is shut down. -/
def ProgramPhyIdle (td shift shift2 : ℚ) (threshold : ℤ) (clock : Option ℚ) (clientDone : Bool) :
    Prop :=
  let usedShift := selectShift td |shift| shift2 threshold
  calcStepsToSync td usedShift = some 0 ∨
    (∃ c, clock = some c ∧ (c ≤ 0 ∨ shiftedClock td usedShift c ≤ 0)) ∨ clientDone = true

/-! ## The run of `program_phy` -/

def LeavesTimer : PhyOp Φ RegOp → Prop
  | .timerDelete | .makeTimer _ | .await => False
  | _ => True

theorem run_leavesTimer {arm : Arm} {v : World Φ Traced → Option (World Φ Traced)}
    {p : PhyProg Φ RegOp RegOp.Ans α} (hp : p.Each LeavesTimer) {w : World Φ Traced}
    {r : α × World Φ Traced} (hrun : p.run (tracedExec arm v) w = some r) :
    r.2.timer = w.timer ∧ r.2.clientDone = w.clientDone := by
  refine Prog.Each.run_preserves (I := fun w' : World Φ Traced => w'.timer = w.timer ∧
    w'.clientDone = w.clientDone) ?_ hp hrun ⟨rfl, rfl⟩
  intro o w₁ r₁ ho hw₁ hexec
  cases o with
  | timerDelete | makeTimer | await => exact ho.elim
  | dev d =>
      obtain ⟨r₂, hdev, rfl⟩ := Option.map_eq_some_iff.mp hexec
      exact hw₁
  | _ =>
      obtain rfl := Option.some.inj hexec
      exact hw₁

theorem Accesses.leavesTimer {P : RegOp → Prop} {p : PhyProg Φ RegOp RegOp.Ans α}
    (hp : Accesses P p) : p.Each LeavesTimer := by
  refine Prog.Each.mono hp fun o ho => ?_
  cases o with
  | timerDelete | makeTimer | await => exact ho.elim
  | _ => trivial

variable {cls : PhyClass Φ RegOp RegOp.Ans}

theorem PhyClass.Observing.rampsIn (h : cls.Observing) : cls.RampsIn LeavesTimer where
  clientDone := trivial
  enter _ := trivial
  usleep _ := trivial
  dividers x := (h.dividers x).leavesTimer
  program mod := (h.program mod).leavesTimer

theorem armTimer_run {arm : Arm} {status steps delay : ℤ} {w : World Φ Traced} {r : ℤ × World Φ Traced}
    (hrun : (if status ≠ 0 then return 1 else do
        modBase fun b => { b with done := false, waitBetweenSteps := delay }
        makeTimer steps
        return 0 : PhyProg Φ RegOp RegOp.Ans ℤ).run (tracedExec arm fun _ => none) w = some r) :
    r.2.hw.trace = w.hw.trace ∧ (status = 0 → r.1 = 0 ∧ r.2.obj.base.done = false ∧
      r.2.clientDone = w.clientDone ∧ r.2.timer = arm steps w.timer) := by
  by_cases hstatus : status = 0
  · rw [if_neg (not_not.mpr hstatus)] at hrun
    obtain rfl := Option.some.inj hrun
    exact ⟨rfl, fun _ => ⟨rfl, rfl, rfl, rfl⟩⟩
  · rw [if_pos hstatus] at hrun
    obtain rfl := Option.some.inj hrun
    exact ⟨rfl, fun h => absurd h hstatus⟩

/-- `program_phy` from the clock that it reads, with `reset` and `commit`. -/
theorem programPhyLoaded_traced (h : cls.Observing) (h' : cls.NeverFails) {arm : Arm} {steps : ℤ}
    {td used shift c : ℚ} {delay : ℤ} (hshift : 0 ≤ shift) {w₁ w₂ : World Φ Traced}
    {r : ℤ × World Φ Traced}
    (hclock : cls.calculatePllClock.run (tracedExec arm fun _ => none) w₁ = some (c, w₂))
    (hrun : (programPhyLoaded cls steps td used shift delay true true).run
      (tracedExec arm fun _ => none) w₁ = some r) :
    if steps = 0 ∨ c ≤ 0 ∨ shiftedClock td used c ≤ 0 ∨ w₂.clientDone = true then
      r.2.hw.trace = w₂.hw.trace
    else r.1 = 0 ∧ (∃ e, r.2.hw.trace = w₂.hw.trace ++ e ∧ .programMmio true ∈ e) ∧
      r.2.obj.base.done = false ∧ r.2.clientDone = w₂.clientDone ∧ r.2.timer = arm steps w₂.timer := by
  unfold programPhyLoaded at hrun
  rw [Prog.run_bind_of hclock] at hrun
  obtain ⟨_, w₃, hbase, hrest⟩ := Prog.run_bind_eq_some hrun
  obtain rfl := congrArg Prod.snd (Option.some.inj hbase)
  by_cases hsteps : steps = 0
  · subst hsteps
    obtain rfl := Option.some.inj hrest
    rw [if_pos (Or.inl rfl)]
  · rw [if_neg (by simpa using hsteps)] at hrest
    obtain ⟨status, w₄, hfrom, harm⟩ := Prog.run_bind_eq_some hrest
    have hramp := setPllClockFrom_traced h' (by simp) hfrom
    obtain ⟨htimer, hdone⟩ := run_leavesTimer (h.rampsIn.setPllClockFrom _ _ _ _ _) hfrom
    obtain ⟨htrace, hzero⟩ := armTimer_run harm
    by_cases haway : c ≤ 0 ∨ shiftedClock td used c ≤ 0 ∨ w₂.clientDone = true
    · rw [if_pos (Or.inr haway)]
      rw [if_pos (by tauto)] at hramp
      rw [htrace, show w₄ = _ from hramp]
    · rw [if_neg (by tauto)]
      rw [if_neg (by rw [not_lt.mpr hshift |> eq_false]; tauto)] at hramp
      obtain ⟨hstatus, hprogram⟩ := hramp
      obtain ⟨h0, hbase', hclient, harmed⟩ := hzero hstatus
      refine ⟨h0, ?_, hbase', hclient.trans hdone, ?_⟩
      · rw [htrace]
        exact hprogram
      · rw [harmed]
        exact congrArg (arm steps) htimer

/-- What `program_phy` with `reset` and `commit` does to the trace, the flags and
the timer. -/
theorem programPhy_traced (h : cls.Observing) (h' : cls.NeverFails) {arm : Arm}
    {td shift shift2 : ℚ} {threshold delay : ℤ} {w : World Φ Traced} {r : ℤ × World Φ Traced}
    (htrace : w.hw.trace = []) (hrun : (programPhy cls td shift shift2 threshold delay true true).run
      (tracedExec arm fun _ => none) w = some r) :
    (ProgramPhyIdle td shift shift2 threshold (liveClock cls w.erase) w.clientDone ∧ ¬r.2.Programmed) ∨
      (¬ProgramPhyIdle td shift shift2 threshold (liveClock cls w.erase) w.clientDone ∧
        r.2.Programmed ∧ r.1 = 0 ∧ r.2.obj.base.done = false ∧ r.2.clientDone = false ∧
        ∃ steps, r.2.timer = arm steps w.timer) := by
  unfold programPhy at hrun
  dsimp only at hrun
  cases hsteps : calcStepsToSync td (selectShift td |shift| shift2 threshold) with
  | none => simp [hsteps] at hrun
  | some steps =>
      simp only [hsteps] at hrun
      obtain ⟨_, w₁, hread, hloaded⟩ := Prog.run_bind_eq_some hrun
      obtain ⟨c, w₂, hclock, -⟩ := Prog.run_bind_eq_some hloaded
      obtain ⟨hlive, hobserved⟩ := liveClock_of_run h hread hclock
      have hidle : ProgramPhyIdle td shift shift2 threshold (liveClock cls w.erase) w.clientDone ↔
          steps = 0 ∨ c ≤ 0 ∨ shiftedClock td (selectShift td |shift| shift2 threshold) c ≤ 0 ∨
            w₂.clientDone = true := by
        simp only [ProgramPhyIdle, hsteps, hlive, Option.some.injEq, exists_eq_left',
          hobserved.clientDone, or_assoc]
      have hrest := programPhyLoaded_traced h h' (abs_nonneg shift) hclock hloaded
      by_cases haway : ProgramPhyIdle td shift shift2 threshold (liveClock cls w.erase) w.clientDone
      · rw [if_pos (hidle.mp haway), hobserved.trace, htrace] at hrest
        exact Or.inl ⟨haway, fun ⟨mod, hmod⟩ => by simp [hrest] at hmod⟩
      · rw [if_neg fun hx => haway (hidle.mpr hx), hobserved.trace, htrace, hobserved.clientDone,
          hobserved.timer] at hrest
        obtain ⟨hstatus, ⟨e, he, hmem⟩, hdone, hclient, htimer⟩ := hrest
        refine Or.inr ⟨haway, ⟨true, by simpa [he] using hmem⟩, hstatus, hdone, ?_, steps, htimer⟩
        rw [hclient]
        exact Bool.eq_false_iff.mpr fun hx => haway (Or.inr (Or.inr hx))

end Restore

/-! ## When the restore is kept -/

/-- After the clock was changed a restore is pending exactly if the timer could be
made or one is armed already; otherwise only a call that changes nothing is safe. -/
theorem restore_kept_iff (k : PhyKind) (os : TimerCalls) (td shift shift2 : ℚ) (threshold delay : ℤ)
    (w : World k.Reg Traced) (r : ℤ × World k.Reg Traced) (htrace : w.hw.trace = [])
    (hrun : (programPhy k.cls td shift shift2 threshold delay true true).run
      (tracedExec os.arm fun _ => none) w = some r) :
    KeepsRestore w r ↔ os.Succeed ∨ w.timer.isSome = true ∨
      ProgramPhyIdle td shift shift2 threshold (liveClock k.cls w.erase) w.clientDone := by
  rcases programPhy_traced k.observing k.succeeds htrace hrun with
    ⟨hidle, hnone⟩ | ⟨hidle, hprogram, hstatus, hdone, hclient, steps, htimer⟩
  · exact iff_of_true (fun h => absurd h hnone) (Or.inr (Or.inr hidle))
  · have harmed : r.2.timer.isSome = true ↔ os.Succeed ∨ w.timer.isSome = true := by
      rw [htimer]
      by_cases hos : os.Succeed
      · simp [os.arm_of_succeed hos, hos]
      · simp [os.arm_of_not_succeed hos, hos]
    have hkeeps : KeepsRestore w r ↔ r.2.timer.isSome = true := by
      constructor
      · intro h
        exact (h hprogram).1.resolve_left fun hx => hx.1 hstatus
      · intro h _
        refine ⟨Or.inr h, fun hleft => ?_⟩
        rw [hleft.2.2.2] at h
        exact absurd h (by simp)
    rw [hkeeps, harmed, or_assoc.symm, or_iff_left hidle]

/-! ### A combo PHY whose timer cannot be created -/

def comboTraced : World ComboPhyReg Traced :=
  ⟨⟨constHw 421, []⟩, ⟨⟨true, 0, 0, 0, 0⟩, ⟨⟨0, 0⟩, ⟨0, 0⟩⟩⟩, false, none⟩

theorem restore_kept_iff_combo : ∃ r,
    (programPhy (combo 0) 1 (1 / 100) 0 1000 50 true true).run
      (tracedExec (TimerCalls.arm ⟨0, 0, 0⟩) fun _ => none) comboTraced = some r ∧
        KeepsRestore comboTraced r := by
  have hrun : ((programPhy (combo 0) 1 (1 / 100) 0 1000 50 true true).run
      (tracedExec (TimerCalls.arm ⟨0, 0, 0⟩) fun _ => none) comboTraced).isSome = true := by
    with_unfolding_all decide
  obtain ⟨r, hr⟩ := Option.isSome_iff_exists.mp hrun
  exact ⟨r, hr, (restore_kept_iff (.combo 0) ⟨0, 0, 0⟩ 1 (1 / 100) 0 1000 50 comboTraced r rfl hr).mpr
    (Or.inl (by decide))⟩

/-- `timer_create` fails after the clock was changed. -/
theorem failed_timer_left_waiting : ∃ r,
    (programPhy (combo 0) 1 (1 / 100) 0 1000 50 true true).run
      (tracedExec (TimerCalls.arm ⟨0, -1, 0⟩) fun _ => none) comboTraced = some r ∧
        ¬KeepsRestore comboTraced r := by
  have hrun : ((programPhy (combo 0) 1 (1 / 100) 0 1000 50 true true).run
      (tracedExec (TimerCalls.arm ⟨0, -1, 0⟩) fun _ => none) comboTraced).map
        (fun r => (r.1, r.2.hw.trace, r.2.timer)) = some (0, [.programMmio true], none) := by
    with_unfolding_all decide
  obtain ⟨r, hr, heq⟩ := Option.map_eq_some_iff.mp hrun
  obtain ⟨hstatus, htrace, htimer⟩ : r.1 = 0 ∧ r.2.hw.trace = [.programMmio true] ∧ r.2.timer = none := by
    simpa using heq
  refine ⟨r, hr, fun h => ?_⟩
  rcases (h ⟨true, by simp [htrace]⟩).1 with hx | hx
  · exact hx.1 hstatus
  · rw [htimer] at hx
    exact absurd hx (by simp)

end Genlock.Vsyncalter
