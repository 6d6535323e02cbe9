import Genlock.Lib.Prog
import Genlock.Lib.CArith
import Genlock.Vsyncalter.Api

/-! # The base class of the PHYs

`program_phy`, `set_pll_clock`, `wait_until_done` and `reset_phy_regs` are
programs over the object's fields, the library's `lib_client_done`, the timer and
the device registers. A PHY class supplies its four virtual functions. Doubles
are exact rationals; a conversion out of range has no defined outcome.
-/

namespace Genlock.Vsyncalter

open CArith

/-! ## Objects and operations -/

structure PhyBase where
  done : Bool
  pllFreqOrig : ℚ
  pllFreqMod : ℚ
  usedShift : ℚ
  waitBetweenSteps : ℤ
deriving DecidableEq

structure Obj (Φ : Type) where
  base : PhyBase
  reg : Φ

/-- What the code of a PHY does beside computing. `await` is the polling loop of
`wait_until_done`, which ends on `done` or `lib_client_done`; `enter` marks a
call of `program_mmio` and has no effect. -/
inductive PhyOp (Φ Dev : Type) where
  | getObj
  | modObj (f : Obj Φ → Obj Φ)
  | clientDone
  | usleep (usec : ℤ)
  | timerDelete
  | makeTimer (expireMs : ℤ)
  | await
  | enter (mod : Bool)
  | dev (d : Dev)

variable {Φ Dev : Type} {DA : Dev → Type} {H : Type}

@[reducible] def PhyOp.Ans (DA : Dev → Type) : PhyOp Φ Dev → Type
  | .getObj => Obj Φ
  | .clientDone => Bool
  | .dev d => DA d
  | .modObj _ | .usleep _ | .timerDelete | .makeTimer _ | .await | .enter _ => Unit

abbrev PhyProg (Φ Dev : Type) (DA : Dev → Type) := Prog (PhyOp Φ Dev) (PhyOp.Ans DA)

section Operations

def getObj : PhyProg Φ Dev DA (Obj Φ) := Prog.perform PhyOp.getObj

def modObj (f : Obj Φ → Obj Φ) : PhyProg Φ Dev DA Unit := Prog.perform (PhyOp.modObj f)

def libClientDone : PhyProg Φ Dev DA Bool := Prog.perform PhyOp.clientDone

def osUsleep (usec : ℤ) : PhyProg Φ Dev DA Unit := Prog.perform (PhyOp.usleep usec)

def timerDelete : PhyProg Φ Dev DA Unit := Prog.perform PhyOp.timerDelete

def makeTimer (expireMs : ℤ) : PhyProg Φ Dev DA Unit := Prog.perform (PhyOp.makeTimer expireMs)

def awaitDone : PhyProg Φ Dev DA Unit := Prog.perform PhyOp.await

def enterProgram (mod : Bool) : PhyProg Φ Dev DA Unit := Prog.perform (PhyOp.enter mod)

def onDev (d : Dev) : PhyProg Φ Dev DA (DA d) := Prog.perform (PhyOp.dev d)

def modBase (f : PhyBase → PhyBase) : PhyProg Φ Dev DA Unit :=
  modObj fun o => { o with base := f o.base }

def modReg (f : Φ → Φ) : PhyProg Φ Dev DA Unit := modObj fun o => { o with reg := f o.reg }

end Operations

structure PhyClass (Φ Dev : Type) (DA : Dev → Type) where
  readRegisters : PhyProg Φ Dev DA Unit
  calculatePllClock : PhyProg Φ Dev DA ℚ
  calculateFeedbackDividers : ℚ → PhyProg Φ Dev DA ℤ
  programMmio : Bool → PhyProg Φ Dev DA ℤ

/-! ## Computations of the base class -/

def intBound : ℤ := 2 ^ 31

def calcStepsToSync (td s : ℚ) : Option ℤ :=
  if s = 0 then some 0
  else if |trunc (td * 100 / s)| < intBound then some |trunc (td * 100 / s)|
  else none

/-- Percentage difference of two clocks, to four decimal places. -/
def percentDiff (current target : ℚ) : ℚ :=
  (cround (|target - current| / current * 100 * 10000) : ℚ) / 10000

/-- The step that the shift allows, in the direction of the change. -/
def idealStep (current target shift : ℚ) : ℚ :=
  current * shift / 100 * (if target > current then 1 else -1)

def idealSteps (current target shift : ℚ) : ℤ :=
  ⌈|(target - current) / idealStep current target shift|⌉

/-- Number and size of the steps from `current` to `target`. A zero shift makes
the step size zero and the number of steps infinite. -/
def rampSteps (current target shift : ℚ) : Option (ℕ × ℚ) :=
  if percentDiff current target > shift then
    let steps := idealSteps current target shift
    if idealStep current target shift = 0 then none
    else if steps < intBound then
      some (steps.toNat,
        if steps > 1 then (target - current) / steps else idealStep current target shift)
    else none
  else some (1, target - current)

def selectShift (timeDiff shift shift2 : ℚ) (stepThreshold : ℤ) : ℚ :=
  if shift2 ≠ 0 ∧ |timeDiff| * 1000 ≥ stepThreshold then shift2 else shift

def shiftedClock (timeDiff shift pllClock : ℚ) : ℚ :=
  pllClock + shift * pllClock / 100 * (if timeDiff > 0 then -1 else 1)

def toU32 (n : ℤ) : ℤ := n % 2 ^ 32

/-! ## Functions of the base class -/

section Source

variable (cls : PhyClass Φ Dev DA)

def stepBody (clock : ℚ) (steps : ℕ) (waitBetweenSteps : ℤ) (commit : Bool) :
    PhyProg Φ Dev DA ℤ := do
  let status ← cls.calculateFeedbackDividers clock
  if status ≠ 0 then return 1
  if commit then
    enterProgram true
    let status ← cls.programMmio true
    if status ≠ 0 then return 1
  if steps > 1 then osUsleep (waitBetweenSteps * 1000)
  return 0

/-- The stepping loop with `left` steps to go. -/
def stepLoop (target stepSize : ℚ) (steps : ℕ) (waitBetweenSteps : ℤ) (commit : Bool) :
    ℕ → ℚ → PhyProg Φ Dev DA ℤ
  | 0, _ => return 0
  | left + 1, intermediate => do
      if ← libClientDone then return 0
      let intermediate := if left = 0 then target else intermediate + stepSize
      let status ← stepBody cls intermediate steps waitBetweenSteps commit
      if status ≠ 0 then return status
      stepLoop target stepSize steps waitBetweenSteps commit left intermediate

def setPllClockFrom (current target shift : ℚ) (waitBetweenSteps : ℤ) (commit : Bool) :
    PhyProg Φ Dev DA ℤ :=
  if current ≤ 0 ∨ target ≤ 0 ∨ shift < 0 then return 1
  else
    match rampSteps current target shift with
    | none => .fail
    | some (steps, stepSize) =>
        stepLoop cls target stepSize steps waitBetweenSteps commit steps current

def setPllClock (target shift : ℚ) (waitBetweenSteps : ℤ) : PhyProg Φ Dev DA ℤ :=
  if target ≤ 0 ∨ shift < 0 then return 1
  else do
    cls.readRegisters
    let current ← cls.calculatePllClock
    setPllClockFrom cls current target shift waitBetweenSteps true

def getPllClock : PhyProg Φ Dev DA ℚ := cls.calculatePllClock

/-- Ramp back to the original clock, then write the original values. -/
def resetPhyRegs : PhyProg Φ Dev DA Unit := do
  timerDelete
  let o ← getObj
  let _ ← setPllClockFrom cls o.base.pllFreqMod o.base.pllFreqOrig o.base.usedShift
    (toU32 o.base.waitBetweenSteps) true
  enterProgram false
  let _ ← cls.programMmio false
  modBase fun b => { b with done := true }

def programPhyLoaded (steps : ℤ) (timeDiff usedShift shift : ℚ) (waitBetweenSteps : ℤ)
    (reset commit : Bool) : PhyProg Φ Dev DA ℤ := do
  let pllClock ← cls.calculatePllClock
  let newPllClock := shiftedClock timeDiff usedShift pllClock
  modBase fun b =>
    { b with pllFreqOrig := pllClock, pllFreqMod := newPllClock, usedShift := shift }
  if !commit || steps == 0 then return 0
  let status ← setPllClockFrom cls pllClock newPllClock shift (toU32 waitBetweenSteps) commit
  if status ≠ 0 then return 1
  if reset then
    modBase fun b => { b with done := false, waitBetweenSteps := waitBetweenSteps }
    makeTimer steps
  return 0

def programPhy (timeDiff shift shift2 : ℚ) (stepThreshold waitBetweenSteps : ℤ)
    (reset commit : Bool) : PhyProg Φ Dev DA ℤ :=
  let usedShift := selectShift timeDiff |shift| shift2 stepThreshold
  match calcStepsToSync timeDiff usedShift with
  | none => .fail
  | some steps => do
      cls.readRegisters
      programPhyLoaded cls steps timeDiff usedShift |shift| waitBetweenSteps reset commit

def waitUntilDone : PhyProg Φ Dev DA Unit := do
  awaitDone
  if ← libClientDone then resetPhyRegs cls

def PhyClass.enabled (getPipe : ℤ) : EnabledPhy (PhyProg Φ Dev DA) where
  getPipe := getPipe
  programPhy r := programPhy cls r.timeDiff r.shift r.shift2 r.stepThreshold r.waitBetweenSteps
    r.reset r.commit
  waitUntilDone := waitUntilDone cls
  setPllClock := setPllClock cls
  getPllClock := getPllClock cls

end Source

/-! ## Operations of a ramp -/

/-- The operations of the stepping loop satisfy `P`, if those of the class do. -/
structure PhyClass.RampsIn (cls : PhyClass Φ Dev DA) (P : PhyOp Φ Dev → Prop) : Prop where
  clientDone : P .clientDone
  enter : ∀ mod, P (.enter mod)
  usleep : ∀ usec, P (.usleep usec)
  dividers : ∀ x, (cls.calculateFeedbackDividers x).Each P
  program : ∀ mod, (cls.programMmio mod).Each P

section RampsIn

variable {cls : PhyClass Φ Dev DA} {P : PhyOp Φ Dev → Prop} (h : cls.RampsIn P)

include h

theorem PhyClass.RampsIn.stepBody (clock : ℚ) (steps : ℕ) (delay : ℤ) (commit : Bool) :
    (stepBody cls clock steps delay commit).Each P := by
  have hwait : (if steps > 1 then osUsleep (delay * 1000) >>= fun _ => .pure 0
      else .pure 0 : PhyProg Φ Dev DA ℤ).Each P := by
    split
    · exact ⟨h.usleep _, fun _ => trivial⟩
    · exact trivial
  refine Prog.each_bind (h.dividers clock) fun status => ?_
  by_cases hstatus : status ≠ 0
  · rw [if_pos hstatus]
    exact trivial
  · rw [if_neg hstatus]
    cases commit with
    | false => exact hwait
    | true =>
        refine Prog.each_bind ((Prog.each_perform _).mpr (h.enter true)) fun _ => ?_
        refine Prog.each_bind (h.program true) fun status => ?_
        by_cases hstatus : status ≠ 0
        · rw [if_pos hstatus]
          exact trivial
        · rw [if_neg hstatus]
          exact hwait

theorem PhyClass.RampsIn.stepLoop (target size : ℚ) (steps : ℕ) (delay : ℤ) (commit : Bool)
    (left : ℕ) (x : ℚ) : (stepLoop cls target size steps delay commit left x).Each P := by
  induction left generalizing x with
  | zero => exact trivial
  | succ left ih =>
      refine Prog.each_bind ((Prog.each_perform _).mpr h.clientDone) fun done => ?_
      cases done with
      | true => exact trivial
      | false =>
          refine Prog.each_bind (h.stepBody _ _ _ _) fun status => ?_
          split
          · exact trivial
          · exact ih _

theorem PhyClass.RampsIn.setPllClockFrom (current target shift : ℚ) (delay : ℤ) (commit : Bool) :
    (setPllClockFrom cls current target shift delay commit).Each P := by
  unfold Vsyncalter.setPllClockFrom
  split
  · exact trivial
  · split
    · exact trivial
    · exact h.stepLoop _ _ _ _ _ _ _

end RampsIn

/-! ## Sequential meaning -/

/-- A device: its register accesses, and what `ms` milliseconds do to it. -/
structure Device (Dev : Type) (DA : Dev → Type) (H : Type) where
  exec : (d : Dev) → H → Option (DA d × H)
  elapse : ℚ → H → H

structure World (Φ H : Type) where
  hw : H
  obj : Obj Φ
  clientDone : Bool
  timer : Option ℤ

def World.put (w : World Φ H) (hw : H) (reg : Φ) : World Φ H :=
  { w with hw := hw, obj := { w.obj with reg := reg } }

section Put

variable (w : World Φ H) (hw hw' : H) (reg reg' : Φ)

@[simp] theorem World.put_hw : (w.put hw reg).hw = hw := rfl
@[simp] theorem World.put_reg : (w.put hw reg).obj.reg = reg := rfl
@[simp] theorem World.put_base : (w.put hw reg).obj.base = w.obj.base := rfl
@[simp] theorem World.put_clientDone : (w.put hw reg).clientDone = w.clientDone := rfl
@[simp] theorem World.put_timer : (w.put hw reg).timer = w.timer := rfl
@[simp] theorem World.put_put : (w.put hw reg).put hw' reg' = w.put hw' reg' := rfl
@[simp] theorem World.put_self : w.put w.hw w.obj.reg = w := rfl

end Put

/-- Meaning of the operations; `wait` is what happens while the caller waits. -/
def execOp (dev : Device Dev DA H) (wait : World Φ H → Option (World Φ H)) :
    (o : PhyOp Φ Dev) → World Φ H → Option (o.Ans DA × World Φ H)
  | .getObj, w => some (w.obj, w)
  | .modObj f, w => some ((), { w with obj := f w.obj })
  | .clientDone, w => some (w.clientDone, w)
  | .usleep usec, w => some ((), { w with hw := dev.elapse (usec / 1000) w.hw })
  | .timerDelete, w => some ((), { w with timer := none })
  | .makeTimer expireMs, w => some ((), { w with timer := some expireMs })
  | .await, w => (wait w).map fun w' => ((), w')
  | .enter _, w => some ((), w)
  | .dev d, w => (dev.exec d w.hw).map fun r => (r.1, { w with hw := r.2 })

/-! ### Runs of single operations -/

section Run

variable {dev : Device Dev DA H} {wait : World Φ H → Option (World Φ H)} {w : World Φ H}

@[simp] theorem run_getObj :
    (getObj : PhyProg Φ Dev DA (Obj Φ)).run (execOp dev wait) w = some (w.obj, w) := rfl

@[simp] theorem run_modObj (g : Obj Φ → Obj Φ) :
    (modObj g : PhyProg Φ Dev DA Unit).run (execOp dev wait) w = some ((), { w with obj := g w.obj }) := rfl

@[simp] theorem run_modBase (g : PhyBase → PhyBase) :
    (modBase g : PhyProg Φ Dev DA Unit).run (execOp dev wait) w =
      some ((), { w with obj := { w.obj with base := g w.obj.base } }) := rfl

@[simp] theorem run_modReg (g : Φ → Φ) :
    (modReg g : PhyProg Φ Dev DA Unit).run (execOp dev wait) w =
      some ((), { w with obj := { w.obj with reg := g w.obj.reg } }) := rfl

@[simp] theorem run_libClientDone :
    (libClientDone : PhyProg Φ Dev DA Bool).run (execOp dev wait) w = some (w.clientDone, w) := rfl

@[simp] theorem run_osUsleep (usec : ℤ) :
    (osUsleep usec : PhyProg Φ Dev DA Unit).run (execOp dev wait) w =
      some ((), { w with hw := dev.elapse (usec / 1000) w.hw }) := rfl

@[simp] theorem run_timerDelete :
    (timerDelete : PhyProg Φ Dev DA Unit).run (execOp dev wait) w = some ((), { w with timer := none }) := rfl

@[simp] theorem run_makeTimer (expireMs : ℤ) :
    (makeTimer expireMs : PhyProg Φ Dev DA Unit).run (execOp dev wait) w =
      some ((), { w with timer := some expireMs }) := rfl

@[simp] theorem run_enterProgram (mod : Bool) :
    (enterProgram mod : PhyProg Φ Dev DA Unit).run (execOp dev wait) w = some ((), w) := rfl

theorem run_awaitDone :
    (awaitDone : PhyProg Φ Dev DA Unit).run (execOp dev wait) w = (wait w).map fun w' => ((), w') :=
  Prog.run_perform _ _

theorem run_onDev (d : Dev) :
    (onDev d : PhyProg Φ Dev DA (DA d)).run (execOp dev wait) w =
      (dev.exec d w.hw).map fun r => (r.1, { w with hw := r.2 }) :=
  Prog.run_perform _ _

end Run

/-- Run in the timer handler, which never waits. -/
def runHandler {α : Type} (dev : Device Dev DA H) (p : PhyProg Φ Dev DA α) (w : World Φ H) :
    Option (α × World Φ H) :=
  p.run (execOp dev fun _ => none) w

/-- The polling loop: over at once if the flags say so, else the timer expires
and its handler runs. -/
def waitForTimer (dev : Device Dev DA H) (cls : PhyClass Φ Dev DA) (w : World Φ H) :
    Option (World Φ H) :=
  if w.obj.base.done || w.clientDone then some w
  else
    w.timer.bind fun expireMs =>
      (runHandler dev (resetPhyRegs cls) { w with hw := dev.elapse expireMs w.hw }).map Prod.snd

def runCaller {α : Type} (dev : Device Dev DA H) (cls : PhyClass Φ Dev DA)
    (p : PhyProg Φ Dev DA α) (w : World Φ H) : Option (α × World Φ H) :=
  p.run (execOp dev (waitForTimer dev cls)) w

end Genlock.Vsyncalter
