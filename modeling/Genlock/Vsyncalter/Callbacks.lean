import Genlock.Vsyncalter.Ramp

/-! # The base class over its virtual functions

The code of `phys` reaches a PHY through four virtual functions. Here each of
them is one operation, answered by a device of which nothing else is known, and
the calls are recorded in their order, together with the waits.
-/

namespace Genlock.Vsyncalter

/-! ## Virtual functions as operations -/

inductive Callback where
  | readRegisters
  | calculatePllClock
  | calculateFeedbackDividers (clock : ℚ)
  | programMmio (mod : Bool)
deriving DecidableEq, Repr

@[reducible] def Callback.Ans : Callback → Type
  | .readRegisters => Unit
  | .calculatePllClock => ℚ
  | .calculateFeedbackDividers _ | .programMmio _ => ℤ

variable {Φ Dev H : Type} {DA : Dev → Type}

/-- The class whose virtual functions are operations. -/
def callbacks : PhyClass Φ Callback Callback.Ans where
  readRegisters := onDev Callback.readRegisters
  calculatePllClock := onDev Callback.calculatePllClock
  calculateFeedbackDividers x := onDev (Callback.calculateFeedbackDividers x)
  programMmio mod := onDev (Callback.programMmio mod)

namespace PhyClass

variable (cls : PhyClass Φ Dev DA)

def callback : (d : Callback) → PhyProg Φ Dev DA d.Ans
  | .readRegisters => cls.readRegisters
  | .calculatePllClock => cls.calculatePllClock
  | .calculateFeedbackDividers x => cls.calculateFeedbackDividers x
  | .programMmio mod => cls.programMmio mod

/-- The operations of the base class, with the virtual functions of `cls`. -/
def implement : (o : PhyOp Φ Callback) → PhyProg Φ Dev DA (o.Ans Callback.Ans)
  | .getObj => getObj
  | .modObj f => modObj f
  | .clientDone => libClientDone
  | .usleep usec => osUsleep usec
  | .timerDelete => timerDelete
  | .makeTimer expireMs => makeTimer expireMs
  | .await => awaitDone
  | .enter mod => enterProgram mod
  | .dev d => cls.callback d

section Implement

variable {α : Type}

@[simp] theorem implement_pure (a : α) :
    (Prog.pure a : PhyProg Φ Callback Callback.Ans α).expand cls.implement = .pure a := rfl

@[simp] theorem implement_fail :
    (Prog.fail : PhyProg Φ Callback Callback.Ans α).expand cls.implement = .fail := rfl

@[simp] theorem implement_ite (c : Prop) [Decidable c] (p q : PhyProg Φ Callback Callback.Ans α) :
    (if c then p else q).expand cls.implement =
      if c then p.expand cls.implement else q.expand cls.implement := by
  split <;> rfl

@[simp] theorem implement_getObj : (getObj : PhyProg Φ _ _ _).expand cls.implement = getObj := rfl

@[simp] theorem implement_modBase (f : PhyBase → PhyBase) :
    (modBase f : PhyProg Φ _ _ _).expand cls.implement = modBase f := rfl

@[simp] theorem implement_libClientDone :
    (libClientDone : PhyProg Φ _ _ _).expand cls.implement = libClientDone := rfl

@[simp] theorem implement_osUsleep (usec : ℤ) :
    (osUsleep usec : PhyProg Φ _ _ _).expand cls.implement = osUsleep usec := rfl

@[simp] theorem implement_timerDelete :
    (timerDelete : PhyProg Φ _ _ _).expand cls.implement = timerDelete := rfl

@[simp] theorem implement_makeTimer (expireMs : ℤ) :
    (makeTimer expireMs : PhyProg Φ _ _ _).expand cls.implement = makeTimer expireMs := rfl

@[simp] theorem implement_enterProgram (mod : Bool) :
    (enterProgram mod : PhyProg Φ _ _ _).expand cls.implement = enterProgram mod := rfl

@[simp] theorem implement_readRegisters :
    callbacks.readRegisters.expand cls.implement = cls.readRegisters :=
  Prog.expand_perform _ (PhyOp.dev Callback.readRegisters)

@[simp] theorem implement_calculatePllClock :
    callbacks.calculatePllClock.expand cls.implement = cls.calculatePllClock :=
  Prog.expand_perform _ (PhyOp.dev Callback.calculatePllClock)

@[simp] theorem implement_dividers (x : ℚ) :
    (callbacks.calculateFeedbackDividers x).expand cls.implement =
      cls.calculateFeedbackDividers x :=
  Prog.expand_perform _ (PhyOp.dev (Callback.calculateFeedbackDividers x))

@[simp] theorem implement_programMmio (mod : Bool) :
    (callbacks.programMmio mod).expand cls.implement = cls.programMmio mod :=
  Prog.expand_perform _ (PhyOp.dev (Callback.programMmio mod))

end Implement

/-! The base class calls nothing of a PHY but its virtual functions: with the
functions of a class put in, its code is the code of that class. -/

theorem stepBody_implement (clock : ℚ) (steps : ℕ) (delay : ℤ) (commit : Bool) :
    (stepBody callbacks clock steps delay commit).expand cls.implement =
      stepBody cls clock steps delay commit := by
  simp [stepBody, Prog.expand_bind]

theorem stepLoop_implement (target size : ℚ) (steps : ℕ) (delay : ℤ) (commit : Bool) (left : ℕ)
    (x : ℚ) : (stepLoop callbacks target size steps delay commit left x).expand cls.implement =
      stepLoop cls target size steps delay commit left x := by
  induction left generalizing x with
  | zero => rfl
  | succ left ih => simp [stepLoop, Prog.expand_bind, stepBody_implement, ih]

theorem setPllClockFrom_implement (current target shift : ℚ) (delay : ℤ) (commit : Bool) :
    (setPllClockFrom callbacks current target shift delay commit).expand cls.implement =
      setPllClockFrom cls current target shift delay commit := by
  unfold setPllClockFrom
  rw [implement_ite]
  refine congrArg (ite _ _) ?_
  cases rampSteps current target shift with
  | none => rfl
  | some ramp => exact cls.stepLoop_implement _ _ _ _ _ _ _

theorem resetPhyRegs_implement :
    (resetPhyRegs callbacks).expand cls.implement = resetPhyRegs cls := by
  simp [resetPhyRegs, Prog.expand_bind, setPllClockFrom_implement]

theorem programPhy_implement (timeDiff shift shift2 : ℚ) (stepThreshold delay : ℤ)
    (reset commit : Bool) :
    (programPhy callbacks timeDiff shift shift2 stepThreshold delay reset commit).expand
        cls.implement =
      programPhy cls timeDiff shift shift2 stepThreshold delay reset commit := by
  unfold programPhy
  dsimp only
  cases calcStepsToSync timeDiff (selectShift timeDiff |shift| shift2 stepThreshold) with
  | none => rfl
  | some steps =>
      simp [programPhyLoaded, Prog.expand_bind, setPllClockFrom_implement]

end PhyClass

/-! ## Recorded calls -/

inductive PhyCall where
  | call (d : Callback)
  | wait (ms : ℚ)
deriving DecidableEq, Repr

def PhyCall.dividers? : PhyCall → Option ℚ
  | .call (.calculateFeedbackDividers x) => some x
  | _ => none

def PhyCall.isWait : PhyCall → Bool
  | .wait _ => true
  | _ => false

def requestedClocks (calls : List PhyCall) : List ℚ := calls.filterMap PhyCall.dividers?

/-- The clocks that calls of `program_mmio(true)` put into the registers; `last`
is the one that the dividers were calculated for before. -/
def programmedClocks : (last : Option ℚ) → List PhyCall → List ℚ
  | _, [] => []
  | _, .call (.calculateFeedbackDividers x) :: calls => programmedClocks (some x) calls
  | some x, .call (.programMmio true) :: calls => x :: programmedClocks (some x) calls
  | last, _ :: calls => programmedClocks last calls

structure Recorded (H : Type) where
  state : H
  calls : List PhyCall

def Recorded.log (h : Recorded H) (state : H) (calls : List PhyCall) : Recorded H :=
  ⟨state, h.calls ++ calls⟩

@[simp] theorem Recorded.log_state (h : Recorded H) (state : H) (calls : List PhyCall) :
    (h.log state calls).state = state := rfl

@[simp] theorem Recorded.log_calls (h : Recorded H) (state : H) (calls : List PhyCall) :
    (h.log state calls).calls = h.calls ++ calls := rfl

@[simp] theorem Recorded.log_log (h : Recorded H) (s s' : H) (calls calls' : List PhyCall) :
    (h.log s calls).log s' calls' = h.log s' (calls ++ calls') := by
  simp [log]

theorem Recorded.log_nil (h : Recorded H) : h.log h.state [] = h := by
  simp [log]

def recording (phy : Device Callback Callback.Ans H) :
    Device Callback Callback.Ans (Recorded H) where
  exec d h := (phy.exec d h.state).map fun r => (r.1, h.log r.2 [.call d])
  elapse ms h := h.log (phy.elapse ms h.state) [.wait ms]

structure Returns (phy : Device Callback Callback.Ans H) (ok : H → Prop) : Prop where
  call : ∀ d h, ok h → ∃ a h', phy.exec d h = some (a, h') ∧ ok h'
  elapse : ∀ ms h, ok h → ok (phy.elapse ms h)

structure Succeeds (phy : Device Callback Callback.Ans H) (ok : H → Prop) : Prop
    extends Returns phy ok where
  dividers : ∀ x h a h', ok h → phy.exec (.calculateFeedbackDividers x) h = some (a, h') → a = 0
  mmio : ∀ mod h a h', ok h → phy.exec (.programMmio mod) h = some (a, h') → a = 0

def DecodesTo (phy : Device Callback Callback.Ans H) (ok : H → Prop) (c : ℚ) : Prop :=
  ∀ h a h', ok h → phy.exec .calculatePllClock h = some (a, h') → a = c

abbrev recordedExec (phy : Device Callback Callback.Ans H)
    (wait : World Φ (Recorded H) → Option (World Φ (Recorded H))) :=
  execOp (recording phy) wait

def World.log (w : World Φ (Recorded H)) (state : H) (calls : List PhyCall) :
    World Φ (Recorded H) := { w with hw := w.hw.log state calls }

@[simp] theorem World.log_log (w : World Φ (Recorded H)) (s s' : H) (calls calls' : List PhyCall) :
    (w.log s calls).log s' calls' = w.log s' (calls ++ calls') := by
  simp [World.log]

@[simp] theorem World.log_clientDone (w : World Φ (Recorded H)) (s : H) (calls : List PhyCall) :
    (w.log s calls).clientDone = w.clientDone := rfl

section Calls

variable {phy : Device Callback Callback.Ans H} {ok : H → Prop}
  (wait : World Φ (Recorded H) → Option (World Φ (Recorded H))) (w : World Φ (Recorded H))

theorem Returns.callback_run (hphy : Returns phy ok) (hok : ok w.hw.state) (d : Callback) :
    ∃ a h', (onDev d : PhyProg Φ Callback Callback.Ans d.Ans).run (recordedExec phy wait) w =
        some (a, w.log h' [.call d]) ∧ phy.exec d w.hw.state = some (a, h') ∧ ok h' := by
  obtain ⟨a, h', hexec, hok'⟩ := hphy.call d w.hw.state hok
  refine ⟨a, h', ?_, hexec, hok'⟩
  rw [run_onDev]
  show ((phy.exec d w.hw.state).map _).map _ = _
  rw [hexec]
  rfl

/-! ### One step -/

def stepCalls (steps : ℕ) (delay : ℤ) (commit : Bool) (clock : ℚ) : List PhyCall :=
  .call (.calculateFeedbackDividers clock) ::
    ((if commit then [.call (.programMmio true)] else []) ++
      if steps > 1 then [.wait (((delay * 1000 : ℤ) : ℚ) / 1000)] else [])

theorem Returns.wait_run (hphy : Returns phy ok) (hok : ok w.hw.state) (steps : ℕ) (delay : ℤ) :
    ∃ h', (if steps > 1 then osUsleep (delay * 1000) >>= fun _ => .pure 0
        else .pure 0 : PhyProg Φ Callback Callback.Ans ℤ).run (recordedExec phy wait) w =
      some (0, w.log h' (if steps > 1 then [.wait (((delay * 1000 : ℤ) : ℚ) / 1000)] else [])) ∧
        ok h' := by
  by_cases hsteps : steps > 1
  · refine ⟨_, ?_, hphy.elapse (((delay * 1000 : ℤ) : ℚ) / 1000) _ hok⟩
    rw [if_pos hsteps, if_pos hsteps, Prog.run_bind_of (run_osUsleep _)]
    rfl
  · refine ⟨w.hw.state, ?_, hok⟩
    rw [if_neg hsteps, if_neg hsteps]
    show some (0, w) = some (0, { w with hw := w.hw.log w.hw.state [] })
    rw [Recorded.log_nil]

theorem Returns.stepBody_run (hphy : Returns phy ok) (hok : ok w.hw.state) (clock : ℚ) (steps : ℕ)
    (delay : ℤ) (commit : Bool) : ∃ ret h' calls,
      (stepBody callbacks clock steps delay commit).run (recordedExec phy wait) w =
          some (ret, w.log h' calls) ∧ ok h' ∧
        (ret = 0 → calls = stepCalls steps delay commit clock) ∧ (Succeeds phy ok → ret = 0) := by
  obtain ⟨status, h1, hdividers, hexec, hok1⟩ :=
    hphy.callback_run wait _ hok (.calculateFeedbackDividers clock)
  unfold stepBody
  rw [show (callbacks (Φ := Φ)).calculateFeedbackDividers clock =
    onDev (Callback.calculateFeedbackDividers clock) from rfl, Prog.run_bind_of hdividers]
  by_cases hstatus : status = 0
  · rw [if_neg (not_not.mpr hstatus)]
    cases commit with
    | false =>
        obtain ⟨h2, hwait, hok2⟩ := hphy.wait_run wait
          (w.log h1 [.call (.calculateFeedbackDividers clock)]) hok1 steps delay
        rw [World.log_log] at hwait
        exact ⟨0, h2, stepCalls steps delay false clock, hwait, hok2, fun _ => rfl, fun _ => rfl⟩
    | true =>
        obtain ⟨programmed, h2, hmmio, hexec', hok2⟩ := hphy.callback_run wait
          (w.log h1 [.call (.calculateFeedbackDividers clock)]) hok1 (.programMmio true)
        rw [World.log_log] at hmmio
        rw [if_pos rfl, Prog.run_bind_of (run_enterProgram true),
          show (callbacks (Φ := Φ)).programMmio true = onDev (Callback.programMmio true) from rfl,
          Prog.run_bind_of hmmio]
        by_cases hprogrammed : programmed = 0
        · rw [if_neg (not_not.mpr hprogrammed)]
          obtain ⟨h3, hwait, hok3⟩ := hphy.wait_run wait (w.log h2 _) hok2 steps delay
          rw [World.log_log] at hwait
          exact ⟨0, h3, stepCalls steps delay true clock, hwait, hok3, fun _ => rfl, fun _ => rfl⟩
        · rw [if_pos hprogrammed]
          refine ⟨1, h2, _, rfl, hok2, fun h => absurd h one_ne_zero, fun hs => ?_⟩
          exact absurd (hs.mmio true _ _ _ hok1 hexec') hprogrammed
  · rw [if_pos hstatus]
    refine ⟨1, h1, _, rfl, hok1, fun h => absurd h one_ne_zero, fun hs => ?_⟩
    exact absurd (hs.dividers clock _ _ _ hok hexec) hstatus

/-! ### The ramp -/

def rampCalls (steps : ℕ) (delay : ℤ) (commit : Bool) (clocks : List ℚ) : List PhyCall :=
  clocks.flatMap (stepCalls steps delay commit)

theorem Returns.stepLoop_run (hphy : Returns phy ok) (hok : ok w.hw.state) (target size : ℚ)
    (steps : ℕ) (delay : ℤ) (commit : Bool) (left : ℕ) (x : ℚ) : ∃ ret h' calls,
      (stepLoop callbacks target size steps delay commit left x).run (recordedExec phy wait) w =
          some (ret, w.log h' calls) ∧ ok h' ∧
        (w.clientDone = false → ret = 0 →
          calls = rampCalls steps delay commit (requests target size left x)) ∧
        (Succeeds phy ok → ret = 0) := by
  induction left generalizing w x with
  | zero =>
      refine ⟨0, w.hw.state, [], ?_, hok, fun _ _ => rfl, fun _ => rfl⟩
      show some (0, w) = some (0, { w with hw := w.hw.log w.hw.state [] })
      rw [Recorded.log_nil]
  | succ left ih =>
      unfold stepLoop
      rw [Prog.run_bind_of run_libClientDone]
      cases hflag : w.clientDone with
      | true =>
          refine ⟨0, w.hw.state, [], ?_, hok, fun h => absurd h (by simp), fun _ => rfl⟩
          show some (0, w) = some (0, { w with hw := w.hw.log w.hw.state [] })
          rw [Recorded.log_nil]
      | false =>
          simp only [Bool.false_eq_true, if_false, requests]
          generalize (if left = 0 then target else x + size) = next
          obtain ⟨ret, h1, calls, hbody, hok1, hcalls, hsucc⟩ :=
            hphy.stepBody_run wait _ hok next steps delay commit
          rw [Prog.run_bind_of hbody]
          by_cases hret : ret = 0
          · rw [if_neg (not_not.mpr hret)]
            obtain ⟨ret', h2, calls', hloop, hok2, hcalls', hsucc'⟩ :=
              ih (w := w.log h1 calls) hok1 next
            rw [World.log_log] at hloop
            refine ⟨ret', h2, _, hloop, hok2, fun _ hret' => ?_, hsucc'⟩
            rw [hcalls hret, hcalls' hflag hret']
            rfl
          · rw [if_pos hret]
            exact ⟨ret, h1, calls, rfl, hok1, fun _ h => absurd h hret, hsucc⟩

/-- A call of `set_pll_clock` whose ramp is defined: what it calls, if it ends well. -/
theorem Returns.setPllClockFrom_run (hphy : Returns phy ok) (hok : ok w.hw.state)
    {current target shift size : ℚ} {n : ℕ} (hc : 0 < current) (ht : 0 < target) (hs : 0 ≤ shift)
    (hramp : rampSteps current target shift = some (n, size)) (delay : ℤ) (commit : Bool) :
    ∃ ret h' calls,
      (setPllClockFrom callbacks current target shift delay commit).run (recordedExec phy wait) w =
          some (ret, w.log h' calls) ∧ ok h' ∧
        (w.clientDone = false → ret = 0 →
          calls = rampCalls n delay commit (requests target size n current)) ∧
        (Succeeds phy ok → ret = 0) := by
  unfold setPllClockFrom
  rw [if_neg (by push Not; exact ⟨hc, ht, hs⟩), hramp]
  exact hphy.stepLoop_run _ _ hok target size n delay commit n current

variable (phy) in
/-- Without a defined ramp the call has no defined outcome. -/
theorem setPllClockFrom_undefined {current target shift : ℚ} (hc : 0 < current) (ht : 0 < target)
    (hs : 0 ≤ shift) (hramp : rampSteps current target shift = none) (delay : ℤ) (commit : Bool) :
    (setPllClockFrom callbacks current target shift delay commit).run (recordedExec phy wait) w =
      none := by
  unfold setPllClockFrom
  rw [if_neg (by push Not; exact ⟨hc, ht, hs⟩), hramp]
  rfl

/-- A clock that is not positive is turned away. -/
theorem setPllClockFrom_invalid {current : ℚ} (hc : ¬0 < current) (target shift : ℚ) (delay : ℤ)
    (commit : Bool) :
    setPllClockFrom (callbacks (Φ := Φ)) current target shift delay commit = .pure 1 := by
  unfold setPllClockFrom
  exact if_pos (Or.inl (not_lt.mp hc))

/-! ### `reset_phy_regs` and `program_phy` -/

theorem Returns.resetPhyRegs_run (hphy : Returns phy ok) (hok : ok w.hw.state)
    {size : ℚ} {n : ℕ} (hc : 0 < w.obj.base.pllFreqMod) (ht : 0 < w.obj.base.pllFreqOrig)
    (hs : 0 ≤ w.obj.base.usedShift)
    (hramp : rampSteps w.obj.base.pllFreqMod w.obj.base.pllFreqOrig w.obj.base.usedShift =
      some (n, size)) : ∃ w' calls,
      (resetPhyRegs callbacks).run (recordedExec phy wait) w = some ((), w') ∧
        w'.hw.calls = w.hw.calls ++ calls ∧
        (w.clientDone = false → Succeeds phy ok →
          calls = rampCalls n (toU32 w.obj.base.waitBetweenSteps) true
            (requests w.obj.base.pllFreqOrig size n w.obj.base.pllFreqMod) ++
              [.call (.programMmio false)]) := by
  obtain ⟨ret, h1, calls, hset, hok1, hcalls, hret⟩ :=
    hphy.setPllClockFrom_run wait { w with timer := none } hok hc ht hs hramp
      (toU32 w.obj.base.waitBetweenSteps) true
  obtain ⟨restored, h2, hmmio, -, -⟩ := hphy.callback_run wait
    ({ w with timer := none }.log h1 calls) hok1 (.programMmio false)
  unfold resetPhyRegs
  rw [Prog.run_bind_of run_timerDelete, Prog.run_bind_of run_getObj, Prog.run_bind_of hset,
    Prog.run_bind_of (run_enterProgram false),
    show (callbacks (Φ := Φ)).programMmio false = onDev (Callback.programMmio false) from rfl,
    Prog.run_bind_of hmmio, run_modBase]
  refine ⟨_, calls ++ [.call (.programMmio false)], rfl, ?_, fun hflag hs => ?_⟩
  · exact List.append_assoc w.hw.calls calls _
  · rw [hcalls hflag (hret hs)]

theorem resetPhyRegs_undefined (hc : 0 < w.obj.base.pllFreqMod) (ht : 0 < w.obj.base.pllFreqOrig)
    (hs : 0 ≤ w.obj.base.usedShift)
    (hramp : rampSteps w.obj.base.pllFreqMod w.obj.base.pllFreqOrig w.obj.base.usedShift = none) :
    (resetPhyRegs callbacks).run (recordedExec phy wait) w = none := by
  have hset := setPllClockFrom_undefined phy wait { w with timer := none }
    hc ht hs hramp (toU32 w.obj.base.waitBetweenSteps) true
  unfold resetPhyRegs
  rw [Prog.run_bind_of run_timerDelete, Prog.run_bind_of run_getObj, Prog.run_bind, hset]
  rfl

def World.planned (w : World Φ (Recorded H)) (original modified shift : ℚ) :
    World Φ (Recorded H) :=
  { w with obj := { w.obj with base := { w.obj.base with
      pllFreqOrig := original, pllFreqMod := modified, usedShift := shift } } }

def applyCorrection (steps : ℤ) (original modified shift : ℚ) (delay : ℤ) (reset commit : Bool) :
    PhyProg Φ Callback Callback.Ans ℤ := do
  if !commit || steps == 0 then return 0
  let status ← setPllClockFrom callbacks original modified shift (toU32 delay) commit
  if status ≠ 0 then return 1
  if reset then
    modBase fun b => { b with done := false, waitBetweenSteps := delay }
    makeTimer steps
  return 0

theorem Returns.programPhy_eq (hphy : Returns phy ok) (hok : ok w.hw.state) {c : ℚ}
    (hdecodes : DecodesTo phy ok c) {td shift shift2 : ℚ} {threshold steps : ℤ}
    (hdwell : calcStepsToSync td (selectShift td |shift| shift2 threshold) = some steps)
    (delay : ℤ) (reset commit : Bool) : ∃ h, ok h ∧
      (programPhy callbacks td shift shift2 threshold delay reset commit).run
          (recordedExec phy wait) w =
        (applyCorrection steps c (shiftedClock td (selectShift td |shift| shift2 threshold) c)
            |shift| delay reset commit).run (recordedExec phy wait)
          ((w.log h [.call .readRegisters, .call .calculatePllClock]).planned c
            (shiftedClock td (selectShift td |shift| shift2 threshold) c) |shift|) := by
  obtain ⟨_, h1, hread, -, hok1⟩ := hphy.callback_run wait _ hok .readRegisters
  obtain ⟨clock, h2, hclock, hexec, hok2⟩ := hphy.callback_run wait
    (w.log h1 [.call .readRegisters]) hok1 .calculatePllClock
  obtain rfl := hdecodes h1 clock h2 hok1 hexec
  rw [World.log_log] at hclock
  refine ⟨h2, hok2, ?_⟩
  unfold programPhy
  dsimp only
  rw [hdwell]
  dsimp only
  rw [show (callbacks (Φ := Φ)).readRegisters = onDev Callback.readRegisters from rfl,
    Prog.run_bind_of hread]
  unfold programPhyLoaded
  rw [show (callbacks (Φ := Φ)).calculatePllClock = onDev Callback.calculatePllClock from rfl,
    Prog.run_bind_of hclock]
  dsimp only
  rw [Prog.run_bind_of (run_modBase _)]
  rfl

/-- Without a defined duration the call has no defined outcome. -/
theorem programPhy_undefined {td shift shift2 : ℚ} {threshold : ℤ}
    (hdwell : calcStepsToSync td (selectShift td |shift| shift2 threshold) = none) (delay : ℤ)
    (reset commit : Bool) :
    (programPhy callbacks td shift shift2 threshold delay reset commit).run (recordedExec phy wait)
      w = none := by
  unfold programPhy
  dsimp only
  rw [hdwell]
  rfl

structure Planned (b : PhyBase) (original modified shift : ℚ) : Prop where
  orig : b.pllFreqOrig = original
  mod : b.pllFreqMod = modified
  shift : b.usedShift = shift

theorem Returns.applyCorrection_run (hphy : Returns phy ok) (hok : ok w.hw.state)
    {c c' shift size : ℚ} {n : ℕ} (hc : 0 < c) (hc' : 0 < c') (hs : 0 ≤ shift)
    (hramp : rampSteps c c' shift = some (n, size)) {steps : ℤ} (hsteps : steps ≠ 0)
    (delay : ℤ) (reset : Bool) : ∃ ret w' calls,
      (applyCorrection steps c c' shift delay reset true).run (recordedExec phy wait)
          (w.planned c c' shift) = some (ret, w') ∧
        ok w'.hw.state ∧ w'.clientDone = w.clientDone ∧ Planned w'.obj.base c c' shift ∧
        w'.hw.calls = w.hw.calls ++ calls ∧
        (w.clientDone = false → Succeeds phy ok →
          calls = rampCalls n (toU32 delay) true (requests c' size n c)) ∧
        (Succeeds phy ok → ret = 0) := by
  obtain ⟨status, h1, calls, hset, hok1, hcalls, hstatus⟩ :=
    hphy.setPllClockFrom_run wait (w.planned c c' shift) hok hc hc' hs hramp
      (toU32 delay) true
  have hidle : ¬((!true || steps == 0) = true) := by simpa using hsteps
  unfold applyCorrection
  rw [if_neg hidle, Prog.run_bind_of hset]
  by_cases hret : status = 0
  · rw [if_neg (not_not.mpr hret)]
    cases reset with
    | false =>
        exact ⟨0, _, calls, rfl, hok1, rfl, ⟨rfl, rfl, rfl⟩, rfl, fun hflag _ => hcalls hflag hret,
          fun _ => rfl⟩
    | true =>
        exact ⟨0, _, calls, rfl, hok1, rfl, ⟨rfl, rfl, rfl⟩, rfl, fun hflag _ => hcalls hflag hret,
          fun _ => rfl⟩
  · rw [if_pos hret]
    exact ⟨1, _, calls, rfl, hok1, rfl, ⟨rfl, rfl, rfl⟩, rfl,
      fun hflag hs => hcalls hflag (hstatus hs), fun hs => absurd (hstatus hs) hret⟩

theorem applyCorrection_undefined {c c' shift : ℚ} (hc : 0 < c) (hc' : 0 < c') (hs : 0 ≤ shift)
    (hramp : rampSteps c c' shift = none) {steps : ℤ} (hsteps : steps ≠ 0) (delay : ℤ)
    (reset : Bool) :
    (applyCorrection steps c c' shift delay reset true).run (recordedExec phy wait) w = none := by
  have hidle : ¬((!true || steps == 0) = true) := by simpa using hsteps
  unfold applyCorrection
  rw [if_neg hidle, Prog.run_bind, setPllClockFrom_undefined _ _ _ hc hc' hs hramp]
  rfl

theorem applyCorrection_invalid {c : ℚ} (hc : ¬0 < c) {steps : ℤ} (hsteps : steps ≠ 0)
    (c' shift : ℚ) (delay : ℤ) (reset : Bool) :
    (applyCorrection steps c c' shift delay reset true).run (recordedExec phy wait) w =
      some (1, w) := by
  have hidle : ¬((!true || steps == 0) = true) := by simpa using hsteps
  unfold applyCorrection
  rw [if_neg hidle, setPllClockFrom_invalid hc]
  rfl

/-- A correction shorter than a millisecond, or not to be committed, is not applied. -/
theorem applyCorrection_idle {steps : ℤ} {commit : Bool} (h : commit = false ∨ steps = 0)
    (c c' shift : ℚ) (delay : ℤ) (reset : Bool) :
    applyCorrection (Φ := Φ) steps c c' shift delay reset commit = .pure 0 := by
  unfold applyCorrection
  refine if_pos ?_
  cases h with
  | inl hcommit => simp [hcommit]
  | inr hsteps => simp [hsteps]

end Calls

/-- A PHY that runs at a fixed clock and does what it is told. -/
def steadyPhy (clock : ℚ) : Device Callback Callback.Ans Unit where
  exec
    | .readRegisters, _ => some ((), ())
    | .calculatePllClock, _ => some (clock, ())
    | .calculateFeedbackDividers _, _ => some (0, ())
    | .programMmio _, _ => some (0, ())
  elapse _ _ := ()

def steadyWorld : World Unit (Recorded Unit) where
  hw := ⟨(), []⟩
  obj := ⟨⟨true, 0, 0, 0, 0⟩, ()⟩
  clientDone := false
  timer := none

theorem steadyPhy_succeeds (clock : ℚ) : Succeeds (steadyPhy clock) fun _ => True where
  call d _ _ := by cases d <;> exact ⟨_, _, rfl, trivial⟩
  elapse _ _ _ := trivial
  dividers _ _ _ _ _ h := (Prod.mk.inj (Option.some.inj h)).1.symm
  mmio _ _ _ _ _ h := (Prod.mk.inj (Option.some.inj h)).1.symm

theorem steadyPhy_decodesTo (clock : ℚ) : DecodesTo (steadyPhy clock) (fun _ => True) clock :=
  fun _ _ _ _ h => (Prod.mk.inj (Option.some.inj h)).1.symm

end Genlock.Vsyncalter
