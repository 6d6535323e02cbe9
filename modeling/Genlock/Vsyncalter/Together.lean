import Genlock.Lib.Components
import Genlock.Vsyncalter.Feedback
import Genlock.Vsyncalter.Footprints

/-! # Several PHYs at once

Every PHY of the list has a thread in a call of `synchronize_vsync` for its own pipe and a
timer with its handler; the threads of all PHYs and `shutdown_lib` interleave at single
register accesses. PHYs that share no register run as each of them would alone.
-/

namespace Genlock.Vsyncalter

/-! ## The accesses of the base class -/

def RegsIn {Φ : Type} (P : RegOp → Prop) : PhyOp Φ RegOp → Prop
  | .dev d => P d
  | _ => True

section BaseClass

variable {Φ α : Type} {P : RegOp → Prop} {cls : PhyClass Φ RegOp RegOp.Ans}

theorem Accesses.regsIn {p : PhyProg Φ RegOp RegOp.Ans α} (hp : Accesses P p) :
    p.Each (RegsIn P) := by
  refine Prog.Each.mono hp fun o ho => ?_
  cases o with
  | dev d => exact ho
  | _ => trivial

namespace PhyClass.AccessesOnly

variable (h : cls.AccessesOnly P)

include h

theorem rampsIn : cls.RampsIn (RegsIn P) where
  clientDone := trivial
  enter _ := trivial
  usleep _ := trivial
  dividers x := (h.dividers x).regsIn
  program mod := (h.program mod).regsIn

theorem resetPhyRegs : (resetPhyRegs cls).Each (RegsIn P) := by
  refine Prog.each_bind ((Prog.each_perform _).mpr trivial) fun _ => ?_
  refine Prog.each_bind ((Prog.each_perform _).mpr trivial) fun o => ?_
  refine Prog.each_bind (h.rampsIn.setPllClockFrom _ _ _ _ _) fun _ => ?_
  refine Prog.each_bind ((Prog.each_perform _).mpr trivial) fun _ => ?_
  exact Prog.each_bind (h.program false).regsIn fun _ => (Prog.each_perform _).mpr trivial

theorem waitUntilDone : (waitUntilDone cls).Each (RegsIn P) := by
  refine Prog.each_bind ((Prog.each_perform _).mpr trivial) fun _ => ?_
  refine Prog.each_bind ((Prog.each_perform _).mpr trivial) fun done => ?_
  cases done with
  | true => exact h.resetPhyRegs
  | false => exact trivial

theorem programPhy (td shift shift2 : ℚ) (threshold delay : ℤ) (reset commit : Bool) :
    (programPhy cls td shift shift2 threshold delay reset commit).Each (RegsIn P) := by
  unfold Vsyncalter.programPhy
  dsimp only
  split
  · exact trivial
  · refine Prog.each_bind h.reads.regsIn fun _ => Prog.each_bind h.clock.regsIn fun clock => ?_
    refine Prog.each_bind ((Prog.each_perform _).mpr trivial) fun _ => ?_
    split
    · exact trivial
    · refine Prog.each_bind (h.rampsIn.setPllClockFrom _ _ _ _ _) fun status => ?_
      split
      · exact trivial
      · split
        · exact Prog.each_bind ((Prog.each_perform _).mpr trivial) fun _ =>
            Prog.each_bind ((Prog.each_perform _).mpr trivial) fun _ => trivial
        · exact trivial

theorem synchronizeVsync (pipe : ℤ) (r : SyncRequest) :
    (synchronizeVsync ⟨true, some [cls.enabled pipe]⟩ r).Each (RegsIn P) := by
  have hreturn (status : ℤ) : (if [cls.enabled pipe].any (·.serves r.pipe) then .pure status
      else .pure 1 : PhyProg Φ RegOp RegOp.Ans ℤ).Each (RegsIn P) := by
    split <;> exact trivial
  have hprogram : ((cls.enabled pipe).programPhy r).Each (RegsIn P) := h.programPhy _ _ _ _ _ _ _
  unfold Vsyncalter.synchronizeVsync
  dsimp only
  rw [if_neg (by decide)]
  split
  · exact trivial
  · refine Prog.each_bind ?_ hreturn
    unfold synchronizePhys
    split
    · refine Prog.each_bind hprogram fun ret => ?_
      split
      · exact trivial
      · split
        · exact Prog.each_bind h.waitUntilDone fun _ => trivial
        · exact trivial
    · exact trivial

end PhyClass.AccessesOnly

def InThread (P : RegOp → Prop) : SignalOp Φ → Prop
  | .op o => RegsIn P o
  | .shutdownLib => False
  | _ => True

theorem inThread_phyCode {p : PhyProg Φ RegOp RegOp.Ans α} (hp : p.Each (RegsIn P)) :
    (phyCode p).Each (InThread P) :=
  Prog.each_expand (fun _ ho => (Prog.each_perform (P := InThread P) _).mpr ho) hp

theorem PhyClass.AccessesOnly.callerThread (h : cls.AccessesOnly P) (pipe : ℤ) (r : SyncRequest) :
    (callerThread cls pipe r).Each (InThread P) :=
  inThread_phyCode (Prog.each_bind (h.synchronizeVsync pipe r) fun _ => trivial)

theorem PhyClass.AccessesOnly.handlerThread (h : cls.AccessesOnly P) :
    (handlerThread cls).Each (InThread P) :=
  Prog.each_bind ((Prog.each_perform _).mpr trivial) fun _ =>
    Prog.each_bind (inThread_phyCode h.resetPhyRegs) fun _ => (Prog.each_perform _).mpr trivial

end BaseClass

/-! ## The list of a process -/

/-- `phy_enabled_list` of a process whose PHYs share no register. -/
structure EnabledPhys (ι : Type) where
  list : List ι
  nodup : list.Nodup
  mem : ∀ i, i ∈ list
  kind : ι → PhyKind
  pipe : ι → Fin 4
  apart : ∀ i j, i ≠ j → (kind i).Apart (kind j)
  pipe_injective : Function.Injective pipe

/-- A PHY of another class, which a call for this pipe must pass over. -/
def passedOver {Φ : Type} (pipe : ℤ) : EnabledPhy (PhyProg Φ RegOp RegOp.Ans) where
  getPipe := pipe
  programPhy _ := .fail
  waitUntilDone := .fail
  setPllClock _ _ _ := .fail
  getPllClock := .fail

section SynchronizePhys

variable {m : Type → Type} [Monad m] {r : SyncRequest}

theorem synchronizePhys_none {phys : List (EnabledPhy m)} (h : ∀ p ∈ phys, p.serves r.pipe = false)
    (status : ℤ) : synchronizePhys r phys status = pure status := by
  induction phys with
  | nil => rfl
  | cons p phys ih =>
      obtain ⟨hp, hphys⟩ := List.forall_mem_cons.mp h
      unfold synchronizePhys
      rw [hp]
      exact ih hphys

theorem synchronizePhys_skips {before after : List (EnabledPhy m)} {p : EnabledPhy m}
    (hbefore : ∀ q ∈ before, q.serves r.pipe = false)
    (hafter : ∀ q ∈ after, q.serves r.pipe = false) (status : ℤ) :
    synchronizePhys r (before ++ p :: after) status = synchronizePhys r [p] status := by
  induction before with
  | nil =>
      show synchronizePhys r (p :: after) status = _
      unfold synchronizePhys
      simp only [synchronizePhys_none hafter, synchronizePhys_none (List.forall_mem_nil _)]
  | cons q before ih =>
      obtain ⟨hq, hrest⟩ := List.forall_mem_cons.mp hbefore
      rw [List.cons_append, synchronizePhys, hq]
      exact ih hrest

theorem synchronizeVsync_skips {before after : List (EnabledPhy m)} {p : EnabledPhy m}
    (hbefore : ∀ q ∈ before, q.serves r.pipe = false)
    (hafter : ∀ q ∈ after, q.serves r.pipe = false) :
    synchronizeVsync ⟨true, some (before ++ p :: after)⟩ r = synchronizeVsync ⟨true, some [p]⟩ r := by
  have hany {qs : List (EnabledPhy m)} (h : ∀ q ∈ qs, q.serves r.pipe = false) :
      qs.any (·.serves r.pipe) = false := by
    rw [List.any_eq_false]
    intro q hq
    rw [h q hq]
    exact Bool.false_ne_true
  unfold synchronizeVsync
  simp only [synchronizePhys_skips hbefore hafter, List.any_append, List.any_cons, hany hbefore,
    hany hafter, List.any_nil, Bool.false_or, Bool.or_false]

end SynchronizePhys

/-! ## The process -/

/-- What all threads share. `shutdownLeft` holds until `shutdown_lib` is called. -/
structure Shared where
  hw : Hw
  libClientDone : Bool
  shutdownLeft : Bool

/-- One PHY with its object, its timer and what is left of its threads; the history is that
of `SignalState`. -/
structure PhyThreads (Φ : Type) where
  obj : Obj Φ
  timer : Option ℤ
  running : Bool
  latched : Party → ℕ → U8
  mayStep : Party → Bool
  lateSteps : Party → ℕ
  caller : SignalProg Φ Unit
  handler : SignalProg Φ Unit

inductive PhyThread where
  | caller
  | handler
deriving DecidableEq, Repr

def PhyThread.party : PhyThread → Party
  | caller => .caller
  | handler => .handler

def shutdownThread {Φ : Type} (left : Bool) : SignalProg Φ Unit :=
  if left then Prog.perform SignalOp.shutdownLib else .pure ()

namespace PhyThreads

variable {Φ : Type}

def join (s : Shared) (t : PhyThreads Φ) : SignalThreads Φ where
  state := ⟨⟨s.hw, t.obj, s.libClientDone, t.timer⟩, t.running, t.latched, t.mayStep, t.lateSteps⟩
  prog
    | .caller => t.caller
    | .handler => t.handler
    | .shutdown => shutdownThread s.shutdownLeft

def split (s : Shared) (c : SignalThreads Φ) : Shared × PhyThreads Φ :=
  ({ s with hw := c.state.world.hw, libClientDone := c.state.world.clientDone },
    ⟨c.state.world.obj, c.state.world.timer, c.state.running, c.state.latched, c.state.mayStep,
      c.state.lateSteps, c.prog .caller, c.prog .handler⟩)

def move (r : Shared × PhyThreads Φ) (i : PhyThread) : Option (Shared × PhyThreads Φ) :=
  (Threads.moveThread signalExec (join r.1 r.2) i.party).map fun q => split r.1 q.2

end PhyThreads

def Shared.shutdownLib : Unit → Shared → Option Shared
  | (), s => if s.shutdownLeft then some { s with libClientDone := true, shutdownLeft := false } else none

namespace EnabledPhys

variable {ι : Type} [DecidableEq ι] (phys : EnabledPhys ι)

def listFor (i : ι) : List (EnabledPhy (PhyProg (phys.kind i).Reg RegOp RegOp.Ans)) :=
  phys.list.map fun j =>
    if j = i then (phys.kind i).cls.enabled (phys.pipe i : ℕ) else passedOver (phys.pipe j : ℕ)

/-- `synchronize_vsync` for the pipe of one PHY, as `perform_synchronization` calls it. -/
def syncThread (r : ι → SyncRequest) (i : ι) : SignalProg (phys.kind i).Reg Unit :=
  phyCode (synchronizeVsync ⟨true, some (phys.listFor i)⟩
    { r i with pipe := (phys.pipe i : ℕ), reset := true, commit := true } >>= fun _ => .pure ())

abbrev Process := Components Shared fun i => PhyThreads (phys.kind i).Reg

abbrev ProcessEvent (ι : Type) := ComponentEvent (fun _ : ι => PhyThread) Unit

def step : phys.Process → ProcessEvent ι → Option phys.Process :=
  Components.step (fun _ => PhyThreads.move) Shared.shutdownLib

def start (r : ι → SyncRequest) (hw : Hw) (obj : (i : ι) → Obj (phys.kind i).Reg)
    (clientDone : Bool) : phys.Process where
  shared := ⟨hw, clientDone, true⟩
  part i := ⟨obj i, none, false, fun _ _ => 0, fun _ => false, fun _ => 0, phys.syncThread r i,
    handlerThread (phys.kind i).cls⟩

def threads (s : phys.Process) (i : ι) : SignalThreads (phys.kind i).Reg := (s.part i).join s.shared

/-- One PHY with its own registers; the others hold what they did at the start. -/
def alone (hw : Hw) (s : phys.Process) (i : ι) : SignalThreads (phys.kind i).Reg :=
  (s.part i).join { s.shared with hw := s.shared.hw.within (phys.kind i).footprint hw }

/-- The call on a PHY of the list is the call on a library with this PHY alone. -/
theorem syncThread_eq (r : ι → SyncRequest) (i : ι) : phys.syncThread r i =
    callerThread (phys.kind i).cls (phys.pipe i : ℕ)
      { r i with pipe := (phys.pipe i : ℕ), reset := true, commit := true } := by
  obtain ⟨before, after, hlist⟩ := List.append_of_mem (phys.mem i)
  have hnodup := phys.nodup
  rw [hlist, List.nodup_append] at hnodup
  obtain ⟨-, hafter, hapart⟩ := hnodup
  have hskip {j : ι} (hj : j ≠ i) : (passedOver (phys.pipe j : ℕ) :
      EnabledPhy (PhyProg (phys.kind i).Reg RegOp RegOp.Ans)).serves ((phys.pipe i : ℕ) : ℤ) = false := by
    have hpipe : (phys.pipe i : ℕ) ≠ phys.pipe j := fun heq =>
      hj (phys.pipe_injective (Fin.ext heq)).symm
    have hlt := (phys.pipe i).isLt
    apply decide_eq_false
    show ¬(((phys.pipe i : ℕ) : ℤ) = 4 ∨ ((phys.pipe i : ℕ) : ℤ) = (phys.pipe j : ℕ))
    omega
  have hmap {js : List ι} (h : ∀ j ∈ js, j ≠ i) : ∀ q ∈ js.map (fun j =>
      if j = i then (phys.kind i).cls.enabled (phys.pipe i : ℕ) else passedOver (phys.pipe j : ℕ)),
      q.serves ((phys.pipe i : ℕ) : ℤ) = false := by
    intro q hq
    obtain ⟨j, hj, rfl⟩ := List.mem_map.mp hq
    rw [if_neg (h j hj)]
    exact hskip (h j hj)
  have hsplit : phys.listFor i = before.map (fun j =>
      if j = i then (phys.kind i).cls.enabled (phys.pipe i : ℕ) else passedOver (phys.pipe j : ℕ)) ++
      (phys.kind i).cls.enabled (phys.pipe i : ℕ) :: after.map (fun j =>
      if j = i then (phys.kind i).cls.enabled (phys.pipe i : ℕ) else passedOver (phys.pipe j : ℕ)) := by
    rw [listFor, hlist, List.map_append, List.map_cons, if_pos rfl]
  unfold syncThread callerThread
  rw [hsplit, synchronizeVsync_skips (hmap fun j hj => hapart j hj i List.mem_cons_self)
    (hmap fun j hj heq => (List.nodup_cons.mp hafter).1 (heq ▸ hj))]

end EnabledPhys

/-! ## Each PHY keeps to its registers -/

section Within

variable {Φ : Type} {F F' : Footprint} {rest : Hw}

def SignalState.within (s : SignalState Φ) (F : Footprint) (rest : Hw) : SignalState Φ :=
  { s with world := { s.world with hw := s.world.hw.within F rest } }

/-- An operation of a PHY's thread does the same whatever the other registers hold. -/
theorem signalExec_within {i : Party} {o : SignalOp Φ} (ho : InThread F.Covers o) (s : SignalState Φ) :
    signalExec i o (s.within F rest) =
      (signalExec i o s).map fun r => (r.1, r.2.within F rest) := by
  cases o with
  | shutdownLib => exact ho.elim
  | expire =>
      show (if s.world.timer.isSome then _ else none) = Option.map _ (if s.world.timer.isSome then _ else none)
      split <;> rfl
  | handled => rfl
  | op o =>
      cases o with
      | dev d =>
          have hd : F.Covers d := ho
          simp only [signalExec, execOp, hwDevice, SignalState.within, Hw.exec_within hd,
            Option.map_map]
          rfl
      | await =>
          have hpoll : pollFlags (s.within F rest).world =
              (pollFlags s.world).map fun w => { w with hw := w.hw.within F rest } := by
            unfold pollFlags
            show (if s.world.obj.base.done || s.world.clientDone then _ else none) =
              Option.map _ (if s.world.obj.base.done || s.world.clientDone then _ else none)
            split <;> rfl
          simp only [signalExec, execOp, hpoll, Option.map_map]
          rfl
      | enter mod =>
          cases mod <;> rfl
      | getObj | modObj _ | clientDone | usleep _ | timerDelete | makeTimer _ => rfl

/-- It leaves the registers of another PHY as they are, and the flag of the library. -/
theorem signalExec_apart (hF : F.Disjoint F') {i : Party} {o : SignalOp Φ} (ho : InThread F'.Covers o)
    {s : SignalState Φ} {r : o.Ans × SignalState Φ} (hexec : signalExec i o s = some r) :
    r.2.world.hw.within F rest = s.world.hw.within F rest ∧
      r.2.world.clientDone = s.world.clientDone := by
  cases o with
  | shutdownLib => exact ho.elim
  | expire =>
      simp only [signalExec] at hexec
      split at hexec
      · obtain rfl := Option.some.inj hexec
        exact ⟨rfl, rfl⟩
      · exact absurd hexec (by simp)
  | handled =>
      obtain rfl := Option.some.inj hexec
      exact ⟨rfl, rfl⟩
  | op o =>
      obtain ⟨q, hq, rfl⟩ := Option.map_eq_some_iff.mp hexec
      cases o with
      | dev d =>
          obtain ⟨a, ha, rfl⟩ := Option.map_eq_some_iff.mp hq
          exact ⟨Hw.exec_apart hF ho ha, rfl⟩
      | await =>
          obtain ⟨w, hw, rfl⟩ := Option.map_eq_some_iff.mp hq
          unfold pollFlags at hw
          split at hw
          · obtain rfl := Option.some.inj hw
            exact ⟨rfl, rfl⟩
          · exact absurd hw (by simp)
      | getObj | modObj _ | clientDone | usleep _ | timerDelete | makeTimer _ | enter _ =>
          obtain rfl := Option.some.inj hq
          exact ⟨rfl, rfl⟩

end Within

namespace PhyThreads

variable {Φ : Type} {F F' : Footprint} {rest : Hw} {s : Shared} {t : PhyThreads Φ} {i : PhyThread}

structure Inside (P : RegOp → Prop) (t : PhyThreads Φ) : Prop where
  caller : t.caller.Each (InThread P)
  handler : t.handler.Each (InThread P)

theorem Inside.prog {P : RegOp → Prop} (h : t.Inside P) :
    ((join s t).prog i.party).Each (InThread P) := by
  cases i with
  | caller => exact h.caller
  | handler => exact h.handler

theorem move_eq_some {r : Shared × PhyThreads Φ} (h : move (s, t) i = some r) :
    ∃ o k a w, (join s t).prog i.party = .step o k ∧
      signalExec i.party o (join s t).state = some (a, w) ∧
      r = split s ⟨w, Function.update (join s t).prog i.party (k a)⟩ := by
  obtain ⟨q, hmove, rfl⟩ := Option.map_eq_some_iff.mp h
  unfold Threads.moveThread at hmove
  split at hmove
  · rename_i o k hprog
    obtain ⟨⟨a, w⟩, hexec, rfl⟩ := Option.map_eq_some_iff.mp hmove
    exact ⟨o, k, a, w, hprog, hexec, rfl⟩
  · exact absurd hmove (by simp)

theorem moveThread_within (h : t.Inside F.Covers) {e : ThreadStep Party (SignalOp Φ) (SignalState Φ)}
    {c : SignalThreads Φ} (hmove : Threads.moveThread signalExec
      (join { s with hw := s.hw.within F rest } t) i.party = some (e, c)) :
    ∃ e' c', Threads.moveThread signalExec (join s t) i.party = some (e', c') ∧
      e = ⟨e'.before.within F rest, e'.thread, e'.op, e'.after.within F rest⟩ := by
  have hprog := h.prog (s := s) (i := i)
  have hjoin : join { s with hw := s.hw.within F rest } t =
      ⟨(join s t).state.within F rest, (join s t).prog⟩ := rfl
  unfold Threads.moveThread at hmove ⊢
  rw [hjoin] at hmove
  dsimp only at hmove
  cases hthread : (join s t).prog i.party with
  | step o k =>
      rw [hthread] at hprog hmove
      simp only [signalExec_within hprog.1, Option.map_map] at hmove
      obtain ⟨⟨a, w⟩, hexec, heq⟩ := Option.map_eq_some_iff.mp hmove
      refine ⟨_, _, congrArg (Option.map _) hexec, ?_⟩
      exact (congrArg Prod.fst heq).symm
  | pure a =>
      rw [hthread] at hmove
      exact absurd hmove (by simp)
  | fail =>
      rw [hthread] at hmove
      exact absurd hmove (by simp)

theorem move_within (h : t.Inside F.Covers) :
    move ({ s with hw := s.hw.within F rest }, t) i =
      (move (s, t) i).map (Prod.map (fun s => { s with hw := s.hw.within F rest }) id) := by
  have hprog := h.prog (s := s) (i := i)
  have hjoin : join { s with hw := s.hw.within F rest } t =
      ⟨(join s t).state.within F rest, (join s t).prog⟩ := rfl
  unfold move Threads.moveThread
  rw [hjoin]
  dsimp only
  cases hthread : (join s t).prog i.party with
  | step o k =>
      rw [hthread] at hprog
      simp only [signalExec_within hprog.1, Option.map_map]
      rfl
  | pure a => rfl
  | fail => rfl

theorem move_apart (hF : F.Disjoint F') (h : t.Inside F'.Covers) {r : Shared × PhyThreads Φ}
    (hmove : move (s, t) i = some r) :
    { r.1 with hw := r.1.hw.within F rest } = { s with hw := s.hw.within F rest } := by
  obtain ⟨o, k, a, w, hprog, hexec, rfl⟩ := move_eq_some hmove
  have hin := h.prog (s := s) (i := i)
  rw [hprog] at hin
  obtain ⟨hhw, hflag⟩ := signalExec_apart hF hin.1 hexec
  rw [Shared.mk.injEq]
  exact ⟨hhw, hflag, rfl⟩

theorem move_inside {P : RegOp → Prop} (h : t.Inside P) {r : Shared × PhyThreads Φ}
    (hmove : move (s, t) i = some r) : r.2.Inside P := by
  obtain ⟨o, k, a, w, hprog, hexec, rfl⟩ := move_eq_some hmove
  have hin := h.prog (s := s) (i := i)
  rw [hprog] at hin
  cases i with
  | caller => exact ⟨hin.2 a, h.handler⟩
  | handler => exact ⟨h.caller, hin.2 a⟩

end PhyThreads

namespace EnabledPhys

variable {ι : Type} [DecidableEq ι] (phys : EnabledPhys ι)

def view (hw : Hw) (i : ι) (s : Shared) : Shared :=
  { s with hw := s.hw.within (phys.kind i).footprint hw }

def Inside (i : ι) (t : PhyThreads (phys.kind i).Reg) : Prop :=
  t.Inside (phys.kind i).footprint.Covers

omit [DecidableEq ι] in
theorem confined (hw : Hw) : Components.Confined (fun _ => PhyThreads.move) Shared.shutdownLib
    (phys.view hw) phys.Inside where
  own _ _ _ _ h := PhyThreads.move_within h
  frame i j _ _ _ _ hij h hmove :=
    PhyThreads.move_apart (PhyKind.footprint_disjoint (phys.apart i j hij)) h hmove
  signal i b s := by
    unfold Shared.shutdownLib
    show (if s.shutdownLeft then _ else none) = Option.map _ (if s.shutdownLeft then _ else none)
    split <;> rfl
  good _ _ _ _ _ h hmove := PhyThreads.move_inside h hmove

theorem inside_start (r : ι → SyncRequest) (hw : Hw) (obj : (i : ι) → Obj (phys.kind i).Reg)
    (clientDone : Bool) (i : ι) : phys.Inside i ((phys.start r hw obj clientDone).part i) := by
  refine ⟨?_, (phys.kind i).accessesOnly.handlerThread⟩
  show (phys.syncThread r i).Each _
  rw [syncThread_eq]
  exact (phys.kind i).accessesOnly.callerThread _ _

end EnabledPhys

/-! ## A PHY alone -/

namespace PhyThreads

variable {Φ : Type} {s s' : Shared} {t t' : PhyThreads Φ}

def who : PhyThread ⊕ Unit → Party
  | .inl i => i.party
  | .inr _ => .shutdown

abbrev aloneStep : Shared × PhyThreads Φ → PhyThread ⊕ Unit → Option (Shared × PhyThreads Φ) :=
  Components.alone move Shared.shutdownLib

theorem join_split {c : SignalThreads Φ} (h : c.prog .shutdown = shutdownThread s.shutdownLeft) :
    join (split s c).1 (split s c).2 = c := by
  obtain ⟨state, prog⟩ := c
  have hprog : (join (split s ⟨state, prog⟩).1 (split s ⟨state, prog⟩).2).prog = prog := by
    funext i
    cases i with
    | caller | handler => rfl
    | shutdown => exact h.symm
  exact congrArg (Threads.mk state) hprog

theorem moveThread_of_alone {x : PhyThread ⊕ Unit} (h : aloneStep (s, t) x = some (s', t')) :
    ∃ e, Threads.moveThread signalExec (join s t) (who x) = some (e, join s' t') := by
  cases x with
  | inl i =>
      obtain ⟨⟨e, c⟩, hmove, hsplit⟩ := Option.map_eq_some_iff.mp h
      have hprog : c.prog .shutdown = shutdownThread s.shutdownLeft := by
        unfold Threads.moveThread at hmove
        split at hmove
        · obtain ⟨q, -, hq⟩ := Option.map_eq_some_iff.mp hmove
          obtain ⟨-, rfl⟩ := Prod.mk.inj hq
          have hi : Party.shutdown ≠ i.party := by cases i <;> decide
          exact Function.update_of_ne hi _ _
        · exact absurd hmove (by simp)
      have hjoin := join_split hprog
      rw [show split s c = (s', t') from hsplit] at hjoin
      exact ⟨e, hmove.trans (congrArg (fun c => some (e, c)) hjoin.symm)⟩
  | inr u =>
      obtain ⟨w, hw, hpair⟩ := Option.map_eq_some_iff.mp h
      obtain ⟨rfl, rfl⟩ := Prod.mk.inj hpair
      change (if s.shutdownLeft then _ else none) = some w at hw
      split at hw
      · rename_i hleft
        obtain rfl := Option.some.inj hw
        have hprog : (join s t).prog .shutdown = .step .shutdownLib .pure := by
          show shutdownThread s.shutdownLeft = _
          rw [shutdownThread, if_pos hleft]
          rfl
        have hnext : Function.update (join s t).prog .shutdown (.pure ()) =
            (join { s with libClientDone := true, shutdownLeft := false } t).prog := by
          funext i
          cases i <;> rfl
        refine ⟨⟨(join s t).state, .shutdown, .shutdownLib,
          (join { s with libClientDone := true, shutdownLeft := false } t).state⟩, ?_⟩
        show Threads.moveThread signalExec (join s t) .shutdown = _
        unfold Threads.moveThread
        rw [hprog]
        exact congrArg (fun prog => some (_, Threads.mk _ prog)) hnext
      · exact absurd hw (by simp)

theorem moveThread_shutdown {e : SignalStep Φ} {c : SignalThreads Φ}
    (h : Threads.moveThread signalExec (join s t) .shutdown = some (e, c)) : e.op = .shutdownLib := by
  unfold Threads.moveThread at h
  have hprog : (join s t).prog .shutdown = shutdownThread s.shutdownLeft := rfl
  rw [hprog] at h
  unfold shutdownThread at h
  cases hleft : s.shutdownLeft with
  | true =>
      rw [hleft] at h
      obtain ⟨q, -, hq⟩ := Option.map_eq_some_iff.mp h
      obtain ⟨rfl, -⟩ := Prod.mk.inj hq
      rfl
  | false =>
      rw [hleft] at h
      exact absurd h (by simp)

/-- A run of the PHY alone is a run of a call, its timer and Ctrl+C. -/
theorem signalRun_of_alone {Q : SignalStep Φ → Prop} {es : List (PhyThread ⊕ Unit)}
    (hrun : Steps.run aloneStep es (s, t) = some (s', t'))
    (hall : Steps.All aloneStep (fun r x => ∀ e c,
      Threads.moveThread signalExec (join r.1 r.2) (who x) = some (e, c) → Q e) es (s, t)) :
    ∃ steps, SignalRun (join s t) steps (join s' t') ∧ ∀ e ∈ steps, Q e := by
  induction es generalizing s t with
  | nil =>
      obtain ⟨rfl, rfl⟩ := Prod.mk.inj (Option.some.inj hrun)
      exact ⟨[], .nil _, List.forall_mem_nil _⟩
  | cons x es ih =>
      obtain ⟨⟨s₁, t₁⟩, hstep, hrest⟩ := Option.bind_eq_some_iff.mp hrun
      obtain ⟨e, hmove⟩ := moveThread_of_alone hstep
      obtain ⟨steps, hsteps, hQ⟩ := ih hrest (hall.2 _ hstep)
      exact ⟨e :: steps, .cons_of_move hmove hsteps, List.forall_mem_cons.mpr ⟨hall.1 e _ hmove, hQ⟩⟩

end PhyThreads

/-! ## Every PHY as it would be alone -/

namespace EnabledPhys

variable {ι : Type} [DecidableEq ι] (phys : EnabledPhys ι) {r : ι → SyncRequest} {hw : Hw}
  {obj : (i : ι) → Obj (phys.kind i).Reg} {clientDone : Bool}
  {events : List (ProcessEvent ι)} {s : phys.Process}

theorem join_start (i : ι) : ((phys.start r hw obj clientDone).part i).join
    (phys.view hw i (phys.start r hw obj clientDone).shared) =
      signalStart (phys.kind i).cls (phys.pipe i : ℕ) { r i with pipe := (phys.pipe i : ℕ) } hw
        (obj i) clientDone := by
  have hhw : phys.view hw i (phys.start r hw obj clientDone).shared = ⟨hw, clientDone, true⟩ := by
    unfold view
    show Shared.mk (hw.within _ hw) _ _ = _
    rw [Hw.within_self]
    rfl
  rw [hhw]
  refine congrArg (Threads.mk _) ?_
  funext p
  cases p with
  | caller => exact phys.syncThread_eq r i
  | handler | shutdown => rfl

theorem signalRun {Q : (i : ι) → SignalStep (phys.kind i).Reg → Prop}
    {P : phys.Process → ProcessEvent ι → Prop} {i : ι}
    (hPQ : ∀ s e x, (∀ i, phys.Inside i (s.part i)) → P s e → Components.seen i e = some x →
      ∀ step c, Threads.moveThread signalExec (phys.alone hw s i) (PhyThreads.who x) = some (step, c) →
        Q i step)
    (hrun : Steps.run phys.step events (phys.start r hw obj clientDone) = some s)
    (hall : Steps.All phys.step P events (phys.start r hw obj clientDone)) :
    ∃ steps, SignalRun (signalStart (phys.kind i).cls (phys.pipe i : ℕ)
        { r i with pipe := (phys.pipe i : ℕ) } hw (obj i) clientDone) steps (phys.alone hw s i) ∧
      ∀ e ∈ steps, Q i e := by
  have hin := phys.inside_start r hw obj clientDone
  have halone := (phys.confined hw).run_alone hin hrun i
  have hsteps := (phys.confined hw).all_alone (i := i) (Q := fun r x => ∀ e c,
    Threads.moveThread signalExec (PhyThreads.join r.1 r.2) (PhyThreads.who x) = some (e, c) → Q i e)
    hPQ hin hrun hall
  rw [← phys.join_start i]
  exact PhyThreads.signalRun_of_alone halone hsteps

/-- However the threads of all PHYs and `shutdown_lib` interleave, each PHY is in a state
that it reaches alone on the same registers, and its threads can go on exactly if they
could alone. -/
theorem each_runs_alone (r : ι → SyncRequest) (hw : Hw) (obj : (i : ι) → Obj (phys.kind i).Reg)
    (clientDone : Bool) {events : List (ProcessEvent ι)} {s : phys.Process}
    (hrun : Steps.run phys.step events (phys.start r hw obj clientDone) = some s) (i : ι) :
    (∃ steps, SignalRun (signalStart (phys.kind i).cls (phys.pipe i : ℕ)
        { r i with pipe := (phys.pipe i : ℕ) } hw (obj i) clientDone) steps (phys.alone hw s i)) ∧
      ∀ p : PhyThread, (phys.step s (.own i p)).isSome =
        (Threads.moveThread signalExec (phys.alone hw s i) p.party).isSome := by
  have hin := phys.inside_start r hw obj clientDone
  refine ⟨?_, fun p => ?_⟩
  · obtain ⟨steps, hsteps, -⟩ := phys.signalRun (i := i) (P := fun _ _ => True) (Q := fun _ _ => True)
      (fun _ _ _ _ _ _ _ _ _ => trivial) hrun (Steps.all_of_forall (fun _ _ => trivial) _)
    exact ⟨steps, hsteps⟩
  · have hgood : ∀ i, phys.Inside i (s.part i) := by
      have hall : Steps.All phys.step (fun _ _ => True) events (phys.start r hw obj clientDone) :=
        Steps.all_of_forall (fun _ _ => trivial) _
      exact hall.invariant (fun _ _ _ hs _ hstep => (phys.confined hw).step_good hs hstep) hin hrun
    have hmove := (phys.confined hw).own i s.shared (s.part i) p (hgood i)
    have hisSome : (PhyThreads.move (phys.view hw i s.shared, s.part i) p).isSome =
        (PhyThreads.move (s.shared, s.part i) p).isSome := by
      rw [hmove, Option.isSome_map]
    unfold PhyThreads.move at hisSome
    rw [Option.isSome_map, Option.isSome_map] at hisSome
    show (Option.map _ (PhyThreads.move (s.shared, s.part i) p)).isSome = _
    rw [Option.isSome_map, PhyThreads.move, Option.isSome_map]
    exact hisSome.symm

/-- What a thread of this PHY commits through the SRAM window it wrote there itself. -/
def CommitsOwn (i : ι) (s : phys.Process) : ProcessEvent ι → Prop
  | .own j p => j = i → ∀ e c,
      Threads.moveThread signalExec (phys.threads s j) p.party = some (e, c) →
        (phys.kind j).CommitsOwn e
  | .all _ => True

end EnabledPhys

namespace PhyKind

/-- The window of a C20 PHY is its own. -/
theorem commitsOwn_within (k : PhyKind) {rest : Hw} {e : SignalStep k.Reg} (h : k.CommitsOwn e) :
    k.CommitsOwn ⟨e.before.within k.footprint rest, e.thread, e.op,
      e.after.within k.footprint rest⟩ := by
  cases k with
  | c20 port isBMG =>
      obtain ⟨before, i, o, after⟩ := e
      cases o with
      | op o => cases o with
        | dev d =>
            cases d with
            | cx0Write p lane addr data committed =>
                intro hwindow r hr
                have hsees := h hwindow r hr
                have hvdr : (before.within (footprint (c20 port isBMG)) rest).world.hw.vdr port 0 r =
                    before.world.hw.vdr port 0 r := by
                  simp [SignalState.within, Hw.within, footprint]
                exact hvdr.trans hsees
            | readReg | writeReg | cx0Read => exact trivial
        | _ => exact trivial
      | _ => exact trivial
  | _ => exact trivial

theorem commitsOwn_of_shutdownLib (k : PhyKind) {e : SignalStep k.Reg} (h : e.op = .shutdownLib) :
    k.CommitsOwn e := by
  cases k with
  | c20 port isBMG =>
      obtain ⟨before, i, o, after⟩ := e
      subst h
      exact trivial
  | _ => exact trivial

theorem sameFeedback_within (k : PhyKind) {hw rest hw' : Hw} :
    k.SameFeedback hw (hw'.within k.footprint rest) ↔ k.SameFeedback hw hw' := by
  cases k with
  | combo n | dpMN pipe => simp [SameFeedback, Hw.within, footprint]
  | dkl phy => simp [SameFeedback, Hw.within, footprint]
  | c10 port => simp [SameFeedback, c10State, Hw.within, footprint]
  | c20 port isBMG => simp [SameFeedback, Hw.within, footprint]

end PhyKind

namespace EnabledPhys

variable {ι : Type} [DecidableEq ι] (phys : EnabledPhys ι)

/-- However the threads of all PHYs and `shutdown_lib` interleave: a PHY whose call is over and
whose own threads committed what they wrote has the dividers that it had at the start; and
after the flag is set each thread of any PHY makes at most the step that it has started. -/
theorem feedback_restored_each (r : ι → SyncRequest) (hw : Hw)
    (obj : (i : ι) → Obj (phys.kind i).Reg) (clientDone : Bool)
    {events : List (ProcessEvent ι)} {s : phys.Process}
    (hrun : Steps.run phys.step events (phys.start r hw obj clientDone) = some s) (i : ι) :
    (Steps.All phys.step (phys.CommitsOwn i) events (phys.start r hw obj clientDone) →
        CallOver (phys.threads s i) → (phys.kind i).SameFeedback hw s.shared.hw) ∧
      ∀ p, (s.part i).lateSteps p ≤ 1 := by
  constructor
  · intro hown hover
    obtain ⟨steps, hsteps, hcommits⟩ : ∃ steps,
        SignalRun (signalStart (phys.kind i).cls (phys.pipe i : ℕ)
          { r i with pipe := (phys.pipe i : ℕ) } hw (obj i) clientDone) steps (phys.alone hw s i) ∧
        ∀ e ∈ steps, (phys.kind i).CommitsOwn e := by
      refine phys.signalRun (Q := fun i => (phys.kind i).CommitsOwn) ?_ hrun hown
      intro s ev x hin hev hseen e c hmove
      cases x with
      | inl p =>
          obtain rfl := Components.seen_eq_inl hseen
          obtain ⟨e', c', hmove', rfl⟩ := PhyThreads.moveThread_within (hin i) hmove
          exact (phys.kind i).commitsOwn_within (hev rfl e' c' hmove')
      | inr u =>
          exact (phys.kind i).commitsOwn_of_shutdownLib (PhyThreads.moveThread_shutdown hmove)
    have hsame := sameFeedback_of_over (phys.kind i) _ _ hw (obj i) clientDone hsteps hcommits hover
    exact (phys.kind i).sameFeedback_within.mp hsame
  · intro p
    obtain ⟨steps, hsteps, -⟩ := phys.signalRun (i := i) (P := fun _ _ => True) (Q := fun _ _ => True)
      (fun _ _ _ _ _ _ _ _ _ => trivial) hrun (Steps.all_of_forall (fun _ _ => trivial) _)
    exact (lateSteps_le_one (phys.kind i).observing _ _ hw (obj i) clientDone hsteps).1 p

end EnabledPhys

/-! ### Two PHYs -/

def twoPhys : EnabledPhys Bool where
  list := [false, true]
  nodup := List.nodup_cons.mpr ⟨by simp, List.nodup_singleton _⟩
  mem i := by cases i <;> simp
  kind i := bif i then .dkl (Fin.last _) else .combo (Fin.last _)
  pipe i := bif i then Fin.last _ else Fin.castSucc (Fin.last _)
  apart i j h := by cases i <;> cases j <;> first | exact absurd rfl h | exact trivial
  pipe_injective i j h := by
    cases i <;> cases j <;> first | rfl | exact absurd (congrArg Fin.val h) (by decide)

def twoHw : Hw := ⟨fun _ => 0x201E, fun _ _ _ => 0x0101, fun _ _ _ => 0, fun _ _ => 0⟩

def twoObjs : (i : Bool) → Obj (twoPhys.kind i).Reg
  | false => ⟨⟨true, 0, 0, 0, 0⟩, ⟨⟨0, 0⟩, ⟨0, 0⟩⟩⟩
  | true => ⟨⟨true, 0, 0, 0, 0⟩, ⟨⟨0, 0⟩, ⟨0, 0⟩, ⟨0, 0⟩, ⟨0, 0⟩, ⟨0, 0⟩⟩⟩

def twoRequests (i : Bool) : SyncRequest :=
  ⟨bif i then 1 else -1, 0, 1 / 100, 0, 1000, 50, true, true⟩

def twoStart : twoPhys.Process := twoPhys.start twoRequests twoHw twoObjs false

/-- Both callers program their PHY and wait, both handlers restore it; they take turns. -/
def twoTurns : List (EnabledPhys.ProcessEvent Bool) :=
  [(8, .own false .caller), (20, .own true .caller), (9, .own false .caller),
    (11, .own true .caller), (10, .own true .handler), (16, .own false .handler),
    (23, .own true .handler), (2, .own false .caller), (2, .own true .caller)].flatMap
      fun t : ℕ × EnabledPhys.ProcessEvent Bool => List.replicate t.1 t.2

theorem twoTurns_run : ∃ s, Steps.run twoPhys.step twoTurns twoStart = some s ∧
    ∀ i, CallOver (twoPhys.threads s i) := by
  have hrun : (Steps.run twoPhys.step twoTurns twoStart).map (fun s =>
      ((s.part false).caller.returned, (s.part true).caller.returned, (s.part false).running,
        (s.part true).running)) = some (true, true, false, false) := by
    decide +kernel
  obtain ⟨s, hs, hend⟩ := Option.map_eq_some_iff.mp hrun
  obtain ⟨hfalse, htrue, hfalse', htrue'⟩ : (s.part false).caller.returned = true ∧
      (s.part true).caller.returned = true ∧ (s.part false).running = false ∧
      (s.part true).running = false := by
    simpa using hend
  refine ⟨s, hs, fun i => ?_⟩
  cases i with
  | false => exact ⟨Prog.eq_pure_of_returned hfalse, hfalse'⟩
  | true => exact ⟨Prog.eq_pure_of_returned htrue, htrue'⟩

namespace EnabledPhys

theorem each_runs_alone_two : ∃ s, Steps.run twoPhys.step twoTurns twoStart = some s ∧ ∀ i,
    (∃ steps, SignalRun (signalStart (twoPhys.kind i).cls (twoPhys.pipe i : ℕ)
        { twoRequests i with pipe := (twoPhys.pipe i : ℕ) } twoHw (twoObjs i) false) steps
          (twoPhys.alone twoHw s i)) ∧
      ∀ p : PhyThread, (twoPhys.step s (.own i p)).isSome =
        (Threads.moveThread signalExec (twoPhys.alone twoHw s i) p.party).isSome := by
  obtain ⟨s, hs, -⟩ := twoTurns_run
  exact ⟨s, hs, each_runs_alone twoPhys twoRequests twoHw twoObjs false hs⟩

theorem feedback_restored_each_two : ∃ s, Steps.run twoPhys.step twoTurns twoStart = some s ∧
    ∀ i, (twoPhys.kind i).SameFeedback twoHw s.shared.hw ∧ ∀ p, (s.part i).lateSteps p ≤ 1 := by
  obtain ⟨s, hs, hover⟩ := twoTurns_run
  have hown (i : Bool) : Steps.All twoPhys.step (twoPhys.CommitsOwn i) twoTurns twoStart := by
    have htrivial : ∀ t e, twoPhys.CommitsOwn i t e := by
      intro t e
      cases e with
      | own j p => cases j <;> exact fun _ _ _ _ => trivial
      | all b => exact trivial
    exact (Steps.all_iff (I := fun _ => True) (C := fun _ _ => True)
      (fun t e _ => iff_of_true (htrivial t e) trivial) (fun _ _ _ _ _ _ => trivial) twoTurns
        trivial).mpr (Steps.all_of_forall (fun _ _ => trivial) _)
  refine ⟨s, hs, fun i => ?_⟩
  have heach := feedback_restored_each twoPhys twoRequests twoHw twoObjs false hs i
  exact ⟨heach.1 (hown i) (hover i), heach.2⟩

end EnabledPhys

end Genlock.Vsyncalter
