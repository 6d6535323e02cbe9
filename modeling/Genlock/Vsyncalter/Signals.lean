import Genlock.Lib.Threads
import Genlock.Vsyncalter.Access

/-! # A call, its timer and Ctrl+C

One PHY under one call of `synchronize_vsync`. The calling thread, the handler of
the timer and `shutdown_lib` interleave at single operations: the timer may expire
as soon as it is armed, and both the handler and the caller may restore the
registers, one after the other or at the same time.
-/

namespace Genlock.Vsyncalter

/-! ## The threads -/

inductive Party where
  | caller
  | handler
  | shutdown
deriving DecidableEq, Repr

/-- The operations of the PHY's code, the expiry that starts the handler, the end of
the handler and the store of `shutdown_lib`. -/
inductive SignalOp (Φ : Type) where
  | expire
  | handled
  | shutdownLib
  | op (o : PhyOp Φ RegOp)

variable {Φ : Type}

@[reducible] def SignalOp.Ans : SignalOp Φ → Type
  | .op o => o.Ans RegOp.Ans
  | .expire | .handled | .shutdownLib => Unit

abbrev SignalProg (Φ : Type) := Prog (SignalOp Φ) SignalOp.Ans

def phyCode {α : Type} (p : PhyProg Φ RegOp RegOp.Ans α) : SignalProg Φ α :=
  p.expand fun o => Prog.perform (SignalOp.op o)

/-- The call, on a library whose only PHY is this one; what it returns is dropped. -/
def callerThread (cls : PhyClass Φ RegOp RegOp.Ans) (pipe : ℤ) (r : SyncRequest) :
    SignalProg Φ Unit :=
  phyCode (synchronizeVsync ⟨true, some [cls.enabled pipe]⟩ r >>= fun _ => .pure ())

/-- The timer fires once. -/
def handlerThread (cls : PhyClass Φ RegOp RegOp.Ans) : SignalProg Φ Unit :=
  Prog.perform SignalOp.expire >>= fun _ =>
    phyCode (resetPhyRegs cls) >>= fun _ => Prog.perform SignalOp.handled

def partyThread (cls : PhyClass Φ RegOp RegOp.Ans) (pipe : ℤ) (r : SyncRequest) :
    Party → SignalProg Φ Unit
  | .caller => callerThread cls pipe r
  | .handler => handlerThread cls
  | .shutdown => Prog.perform SignalOp.shutdownLib

/-! ## Their steps -/

/-- `running` holds while the handler runs. The rest is history: the byte that each
party wrote last to a vendor register, whether its last look at `lib_client_done`
let it begin a step that it has not made, and its steps with modified values since
the flag is set. -/
structure SignalState (Φ : Type) where
  world : World Φ Hw
  running : Bool
  latched : Party → ℕ → U8
  mayStep : Party → Bool
  lateSteps : Party → ℕ

/-- The loop of `wait_until_done` goes on until a flag is set. -/
def pollFlags (w : World Φ Hw) : Option (World Φ Hw) :=
  if w.obj.base.done || w.clientDone then some w else none

def latch : RegOp → (ℕ → U8) → ℕ → U8
  | .cx0Write _ _ addr data _, l => Function.update l addr data
  | _, l => l

def SignalState.note (s : SignalState Φ) (i : Party) :
    (o : PhyOp Φ RegOp) → o.Ans RegOp.Ans → SignalState Φ
  | .clientDone, done => { s with mayStep := Function.update s.mayStep i !done }
  | .enter true, _ => { s with
      mayStep := Function.update s.mayStep i false
      lateSteps := if s.world.clientDone then Function.update s.lateSteps i (s.lateSteps i + 1)
        else s.lateSteps }
  | .dev d, _ => { s with latched := Function.update s.latched i (latch d (s.latched i)) }
  | _, _ => s

def signalExec (i : Party) : (o : SignalOp Φ) → SignalState Φ → Option (o.Ans × SignalState Φ)
  | .expire, s => if s.world.timer.isSome then some ((), { s with running := true }) else none
  | .handled, s => some ((), { s with running := false })
  | .shutdownLib, s => some ((), { s with world := { s.world with clientDone := true } })
  | .op o, s => (execOp hwDevice pollFlags o s.world).map fun r =>
      (r.1, { s.note i o r.1 with world := r.2 })

abbrev SignalStep (Φ : Type) := ThreadStep Party (SignalOp Φ) (SignalState Φ)

abbrev SignalThreads (Φ : Type) := Threads Party (SignalOp Φ) SignalOp.Ans (SignalState Φ) Unit

abbrev SignalRun {Φ : Type} :
    SignalThreads Φ → List (SignalStep Φ) → SignalThreads Φ → Prop := Threads.Run signalExec

def signalStart (cls : PhyClass Φ RegOp RegOp.Ans) (pipe : ℤ) (r : SyncRequest) (hw : Hw)
    (obj : Obj Φ) (clientDone : Bool) : SignalThreads Φ where
  state := ⟨⟨hw, obj, clientDone, none⟩, false, fun _ _ => 0, fun _ => false, fun _ => 0⟩
  prog := partyThread cls pipe { r with reset := true, commit := true }

def CallOver (c : SignalThreads Φ) : Prop := c.prog .caller = .pure () ∧ c.state.running = false

/-! ## The call on one PHY -/

section Along

variable {G : Type} {γ : Discipline (PhyOp Φ RegOp) (PhyOp.Ans RegOp.Ans) G} {Q : G → Prop} {g : G}
  {cls : PhyClass Φ RegOp RegOp.Ans}

/-- The call programs the PHY if it serves it, and waits for it unless that failed. -/
theorem along_synchronizeVsync (pipe : ℤ) (r : SyncRequest) (hg : Q g)
    (hprogram : ((cls.enabled pipe).programPhy { r with reset := true, commit := true }).Along γ
      (fun ret g' => if ret ≠ 0 then Q g' else (waitUntilDone cls).Along γ (fun _ => Q) g') g) :
    (synchronizeVsync ⟨true, some [cls.enabled pipe]⟩ { r with reset := true, commit := true }).Along
      γ (fun _ => Q) g := by
  have hreturn : ∀ (status : ℤ) g', Q g' →
      (if [cls.enabled pipe].any (·.serves r.pipe) then return status else return 1 :
        PhyProg Φ RegOp RegOp.Ans ℤ).Along γ (fun _ => Q) g' := by
    intro status g' hg'
    split <;> exact hg'
  unfold synchronizeVsync
  dsimp only
  rw [if_neg (by decide)]
  split
  · exact hg
  · refine Prog.Along.bind (R := fun _ => Q) ?_ hreturn
    unfold synchronizePhys
    split
    · refine hprogram.bind fun ret g' hg' => ?_
      split
      · rename_i hret
        rw [if_pos hret] at hg'
        exact hg'
      · rename_i hret
        rw [if_neg hret] at hg'
        exact hg'.bind fun _ _ hQ => hQ
    · exact hg

end Along

/-! ## Steps after the flag is set -/

/-- A step with modified values needs a look at the flag that found it unset. -/
def lookFirst (Φ : Type) : Discipline (PhyOp Φ RegOp) (PhyOp.Ans RegOp.Ans) Bool where
  requires o g := match o with
    | .enter true => g = true
    | _ => True
  answers _ _ _ := True
  next o a g := match o, a with
    | .clientDone, done => !done
    | .enter true, _ => false
    | _, _ => g

def Looks {α : Type} (p : PhyProg Φ RegOp RegOp.Ans α) : Prop :=
  ∀ g, p.Along (lookFirst Φ) (fun _ _ => True) g

section Looks

variable {α β : Type} {cls : PhyClass Φ RegOp RegOp.Ans}

theorem Looks.bind {p : PhyProg Φ RegOp RegOp.Ans α} {f : α → PhyProg Φ RegOp RegOp.Ans β}
    (hp : Looks p) (hf : ∀ a, Looks (f a)) : Looks (p >>= f) :=
  fun g => (hp g).bind fun a g' _ => hf a g'

theorem Accesses.along_lookFirst {P : RegOp → Prop} {p : PhyProg Φ RegOp RegOp.Ans α}
    (hp : Accesses P p) (g : Bool) : p.Along (lookFirst Φ) (fun _ g' => g' = g) g := by
  induction p with
  | pure a => rfl
  | fail => trivial
  | step o k ih =>
      cases o with
      | getObj | modObj f | dev d => exact ⟨trivial, fun a _ => ih a (hp.2 a)⟩
      | clientDone | usleep | timerDelete | makeTimer | await | enter => exact hp.1.elim

theorem Accesses.looks {P : RegOp → Prop} {p : PhyProg Φ RegOp RegOp.Ans α} (hp : Accesses P p) :
    Looks p :=
  fun g => (hp.along_lookFirst g).mono fun _ _ _ => trivial

variable (h : cls.Observing)

include h

theorem along_stepBody_lookFirst (x : ℚ) (steps : ℕ) (delay : ℤ) (commit : Bool) :
    (stepBody cls x steps delay commit).Along (lookFirst Φ) (fun _ _ => True) true := by
  have hwait : ∀ g, (if steps > 1 then osUsleep (delay * 1000) >>= fun _ => .pure 0
      else .pure 0 : PhyProg Φ RegOp RegOp.Ans ℤ).Along (lookFirst Φ) (fun _ _ => True) g := by
    intro g
    split
    · exact ⟨trivial, fun _ _ => trivial⟩
    · exact trivial
  refine ((h.dividers x).along_lookFirst true).bind fun status g' hg' => ?_
  subst hg'
  by_cases hstatus : status ≠ 0
  · rw [if_pos hstatus]
    exact trivial
  · rw [if_neg hstatus]
    cases commit with
    | false => exact hwait true
    | true =>
        refine ⟨rfl, fun _ _ => ((h.program true).looks false).bind fun status g' _ => ?_⟩
        by_cases hstatus : status ≠ 0
        · rw [if_pos hstatus]
          exact trivial
        · rw [if_neg hstatus]
          exact hwait g'

theorem looks_stepLoop (target size : ℚ) (steps : ℕ) (delay : ℤ) (commit : Bool) (left : ℕ) (x : ℚ) :
    Looks (stepLoop cls target size steps delay commit left x) := by
  induction left generalizing x with
  | zero => exact fun _ => trivial
  | succ left ih =>
      refine fun g => ⟨trivial, fun done _ => ?_⟩
      cases done with
      | true => exact trivial
      | false =>
          refine (along_stepBody_lookFirst h _ steps delay commit).bind fun status g' _ => ?_
          split
          · exact trivial
          · exact ih _ g'

theorem looks_setPllClockFrom (current target shift : ℚ) (delay : ℤ) (commit : Bool) :
    Looks (setPllClockFrom cls current target shift delay commit) := by
  unfold setPllClockFrom
  split
  · exact fun _ => trivial
  · split
    · exact fun _ => trivial
    · exact looks_stepLoop h _ _ _ _ _ _ _

theorem looks_resetPhyRegs : Looks (resetPhyRegs cls) := by
  refine fun _ => ⟨trivial, fun _ _ => ⟨trivial, fun o _ => ?_⟩⟩
  refine (looks_setPllClockFrom h _ _ _ _ _ _).bind fun _ _ _ => ⟨trivial, fun _ _ => ?_⟩
  exact ((h.program false).looks _).bind fun _ _ _ => ⟨trivial, fun _ _ => trivial⟩

theorem looks_waitUntilDone : Looks (waitUntilDone cls) := by
  refine fun _ => ⟨trivial, fun _ _ => ⟨trivial, fun done _ => ?_⟩⟩
  cases done with
  | true => exact looks_resetPhyRegs h _
  | false => exact trivial

theorem looks_programPhy (td shift shift2 : ℚ) (threshold delay : ℤ) (reset commit : Bool) :
    Looks (programPhy cls td shift shift2 threshold delay reset commit) := by
  unfold programPhy
  dsimp only
  split
  · exact fun _ => trivial
  · refine h.reads.looks.bind fun _ => h.clock.looks.bind fun clock g => ⟨trivial, fun _ _ => ?_⟩
    split
    · exact trivial
    · refine (looks_setPllClockFrom h _ _ _ _ _ _).bind fun status g' _ => ?_
      split
      · exact trivial
      · split
        · exact ⟨trivial, fun _ _ => ⟨trivial, fun _ _ => trivial⟩⟩
        · exact trivial

end Looks

/-! ### In every run -/

/-- A step with modified values after the flag is set was started before. -/
def StartedBefore (e : SignalStep Φ) : Prop :=
  e.op = .op (.enter true) → e.before.world.clientDone = true → e.before.mayStep e.thread = true

/-- The ghost state of a party is what its last look found. -/
def lookSignals (Φ : Type) : Discipline (SignalOp Φ) SignalOp.Ans Bool where
  requires o g := match o with
    | .op o => (lookFirst Φ).requires o g
    | _ => True
  answers _ _ _ := True
  next o a g := match o, a with
    | .op o, a => (lookFirst Φ).next o a g
    | _, _ => g

structure AtMostOneLate (g : Party → Bool) (s : SignalState Φ) : Prop where
  looked : g = s.mayStep
  late : ∀ i, s.lateSteps i + (s.mayStep i).toNat ≤ 1
  none : s.world.clientDone = false → ∀ i, s.lateSteps i = 0

theorem AtMostOneLate.same {g : Party → Bool} {s s' : SignalState Φ} (h : AtMostOneLate g s) (i : Party)
    (hmay : s'.mayStep = s.mayStep) (hlate : s'.lateSteps = s.lateSteps)
    (hclient : s'.world.clientDone = s.world.clientDone) :
    AtMostOneLate (Function.update g i (g i)) s' := by
  rw [Function.update_eq_self]
  exact ⟨h.looked.trans hmay.symm, by rw [hmay, hlate]; exact h.late,
    by rw [hclient, hlate]; exact h.none⟩

theorem AtMostOneLate.step (i : Party) (o : SignalOp Φ) (g : Party → Bool) (s : SignalState Φ) (a : o.Ans)
    (s' : SignalState Φ) (h : AtMostOneLate g s) (hrequires : (lookSignals Φ).requires o (g i))
    (hexec : signalExec i o s = some (a, s')) :
    AtMostOneLate (Function.update g i ((lookSignals Φ).next o a (g i))) s' ∧
      StartedBefore ⟨s, i, o, s'⟩ := by
  cases o with
  | expire =>
      obtain ⟨-, hsome⟩ := Option.ite_none_right_eq_some.mp hexec
      obtain rfl := congrArg Prod.snd (Option.some.inj hsome)
      exact ⟨h.same i rfl rfl rfl, fun heq => by cases heq⟩
  | handled =>
      obtain rfl := congrArg Prod.snd (Option.some.inj hexec)
      exact ⟨h.same i rfl rfl rfl, fun heq => by cases heq⟩
  | shutdownLib =>
      obtain rfl := congrArg Prod.snd (Option.some.inj hexec)
      refine ⟨?_, fun heq => by cases heq⟩
      show AtMostOneLate (Function.update g i (g i)) _
      rw [Function.update_eq_self]
      exact ⟨h.looked, h.late, fun hclient => by cases hclient⟩
  | op o =>
      cases o with
      | clientDone =>
          obtain ⟨rfl, rfl⟩ := Prod.mk.inj (Option.some.inj hexec)
          refine ⟨⟨?_, fun j => ?_, h.none⟩, fun heq => by cases heq⟩
          · rw [h.looked]
            rfl
          · show s.lateSteps j + (Function.update s.mayStep i (!s.world.clientDone) j).toNat ≤ 1
            by_cases hj : j = i
            · subst hj
              rw [Function.update_self]
              cases hclient : s.world.clientDone with
              | true =>
                  have := h.late j
                  simp only [Bool.not_true, Bool.toNat_false]
                  omega
              | false =>
                  rw [h.none hclient j]
                  decide
            · rw [Function.update_of_ne hj]
              exact h.late j
      | enter mod =>
          obtain rfl := congrArg Prod.snd (Option.some.inj hexec)
          cases mod with
          | false => exact ⟨h.same i rfl rfl rfl, fun heq => by cases heq⟩
          | true =>
              have hmay : s.mayStep i = true := (congrFun h.looked i).symm.trans hrequires
              refine ⟨⟨?_, fun j => ?_, fun hclient j => ?_⟩, fun _ _ => hmay⟩
              · rw [h.looked]
                rfl
              · show (if s.world.clientDone then Function.update s.lateSteps i (s.lateSteps i + 1)
                  else s.lateSteps) j + (Function.update s.mayStep i false j).toNat ≤ 1
                have hlate := h.late j
                by_cases hj : j = i
                · subst hj
                  rw [hmay, Bool.toNat_true] at hlate
                  rw [Function.update_self]
                  split
                  · rw [Function.update_self, Bool.toNat_false]
                    omega
                  · rw [Bool.toNat_false]
                    omega
                · rw [Function.update_of_ne hj]
                  split
                  · rwa [Function.update_of_ne hj]
                  · exact hlate
              · have hunset : s.world.clientDone = false := hclient
                show (if s.world.clientDone then Function.update s.lateSteps i (s.lateSteps i + 1)
                  else s.lateSteps) j = 0
                rw [hunset]
                exact h.none hunset j
      | await =>
          obtain ⟨r, hpoll, heq⟩ := Option.map_eq_some_iff.mp hexec
          obtain ⟨w, hwait, rfl⟩ := Option.map_eq_some_iff.mp hpoll
          obtain ⟨-, hsome⟩ := Option.ite_none_right_eq_some.mp hwait
          obtain rfl := Option.some.inj hsome
          obtain rfl := congrArg Prod.snd heq
          exact ⟨h.same i rfl rfl rfl, fun heq => by cases heq⟩
      | dev d =>
          obtain ⟨r, hdev, heq⟩ := Option.map_eq_some_iff.mp hexec
          obtain ⟨r', -, rfl⟩ := Option.map_eq_some_iff.mp hdev
          obtain rfl := congrArg Prod.snd heq
          exact ⟨h.same i rfl rfl rfl, fun heq => by cases heq⟩
      | getObj | modObj f | usleep usec | timerDelete | makeTimer ms =>
          obtain rfl := congrArg Prod.snd (Option.some.inj hexec)
          exact ⟨h.same i rfl rfl rfl, fun heq => by cases heq⟩

theorem along_lookSignals {α : Type} {p : PhyProg Φ RegOp RegOp.Ans α} (hp : Looks p) (g : Bool) :
    (phyCode p).Along (lookSignals Φ) (fun _ _ => True) g := by
  refine Prog.Along.expand ?_ (hp g)
  intro o g hrequires
  exact ⟨hrequires, fun _ _ => ⟨trivial, rfl⟩⟩

theorem along_partyThread {cls : PhyClass Φ RegOp RegOp.Ans} (h : cls.Observing) (pipe : ℤ)
    (r : SyncRequest) (i : Party) (g : Bool) :
    (partyThread cls pipe { r with reset := true, commit := true } i).Along (lookSignals Φ)
      (fun _ _ => True) g := by
  cases i with
  | caller =>
      apply along_lookSignals
      refine Looks.bind (fun g => ?_) fun _ _ => trivial
      apply along_synchronizeVsync (Q := fun _ => True) pipe r trivial
      refine (looks_programPhy h _ _ _ _ _ _ _ g).mono fun ret g' _ => ?_
      split
      · exact trivial
      · exact looks_waitUntilDone h g'
  | handler =>
      refine ⟨trivial, fun _ _ => ?_⟩
      exact (along_lookSignals (looks_resetPhyRegs h) _).bind fun _ _ _ => ⟨trivial, fun _ _ => trivial⟩
  | shutdown => exact ⟨trivial, fun _ _ => trivial⟩

/-- After the flag is set every party makes at most the step that it has started. -/
theorem lateSteps_le_one {cls : PhyClass Φ RegOp RegOp.Ans} (h : cls.Observing) (pipe : ℤ)
    (r : SyncRequest) (hw : Hw) (obj : Obj Φ) (clientDone : Bool) {es : List (SignalStep Φ)}
    {c : SignalThreads Φ} (hrun : SignalRun (signalStart cls pipe r hw obj clientDone) es c) :
    (∀ i, c.state.lateSteps i ≤ 1) ∧ ∀ e ∈ es, StartedBefore e := by
  obtain ⟨g, -, hlate, hstarted⟩ := hrun.along (γ := fun _ => lookSignals Φ) (C := fun _ => True)
    (S := StartedBefore) (Q := fun _ _ _ => True) (I := AtMostOneLate) (g := fun _ => false)
    (fun i o g s a s' hg hrequires hexec _ => by
      obtain ⟨hnext, hstarted⟩ := AtMostOneLate.step i o g s a s' hg hrequires hexec
      exact ⟨trivial, hnext, hstarted⟩)
    (fun i => along_partyThread h pipe r i false)
    ⟨rfl, fun _ => Nat.zero_le 1, fun _ _ => rfl⟩ fun _ _ => trivial
  refine ⟨fun i => ?_, hstarted⟩
  have := hlate.late i
  omega

end Genlock.Vsyncalter
