import Genlock.Swgenlock.PipeThreads
import Genlock.Swgenlock.PipesArgument
import Mathlib.Tactic

/-! # The session of the pipe threads

In the modes `sec` and `pipelock`, `main` creates a thread for every pipe, joins the threads in
the same order and then lets go of the library. In `pipelock` a detached collector runs beside
them, and their captures of the primary are taken out of its buffer.
-/

namespace Genlock.Swgenlock

open Vsyncalter

/-! ## The functions of the source -/

/-- Where `main` is, after the records of the pipes are reset. -/
inductive MainPc where
  /-- before `start_vsync_collector` -/
  | starting
  /-- the pipes that have not had their `pthread_create` -/
  | creating (rest : List ℤ)
  /-- the pipes that have not had their `pthread_join` -/
  | joining (rest : List ℤ)
  /-- before `stop_vsync_collector` -/
  | stopping
  /-- before `vsync_lib_uninit` -/
  | uninitializing
  | returned
deriving DecidableEq

inductive CollectorPc where
  | absent
  /-- before `g_collecting = true` -/
  | created
  /-- before the test of `g_collecting` -/
  | testing
  /-- in `get_vsync` -/
  | capturing
  | ended
deriving DecidableEq

/-- What the command line says; `pipelock` is the mode. -/
structure SessionConfig where
  cfg : PipeConfig
  pipes : List ℤ
  pipelock : Bool

/-- `created` are the pipes with `thread_created`. The pipes that were joined and all that was
`captured` are history. -/
structure PipeSession where
  main : MainPc
  created : List ℤ
  joined : List ℤ
  process : PipeProcess
  collecting : Bool
  collector : CollectorPc
  buffer : List U64
  captured : List U64

inductive SessionEvent where
  /-- The next step of `main`, and whether a `pthread_create` succeeds. -/
  | main (ok : Bool)
  /-- A step of a pipe's thread, or the signal. -/
  | process (e : ProcessEvent)
  /-- The next step of the collector, and what `get_vsync` delivers. -/
  | collector (ts : Option U64)

/-- `VSYNC_MAX_TIMESTAMPS + N_EXTRA` of `main` -/
def collectorMax : ℕ := 110

def PipePc.hasEnded : PipePc → Bool
  | .ended => true
  | _ => false

namespace PipeSession

variable (sc : SessionConfig)

def start (table : PipeTable) : PipeSession :=
  ⟨.starting, [], [], PipeProcess.start table vsyncMaxTimestamps, false, .absent, [], []⟩

/-- The next step of `main`; `none` while a thread is not finished that is to be joined. -/
def mainStep (s : PipeSession) (ok : Bool) : Option PipeSession :=
  match s.main with
  | .starting =>
      some { s with
        main := .creating sc.pipes
        collector := if sc.pipelock then .created else .absent }
  | .creating [] => some { s with main := .joining sc.pipes }
  | .creating (p :: rest) =>
      some { s with main := .creating rest, created := if ok then s.created ++ [p] else s.created }
  | .joining [] => some { s with main := .stopping }
  | .joining (p :: rest) =>
      if p ∈ s.created then
        if (s.process.thread p).pc.hasEnded then
          some { s with main := .joining rest, joined := s.joined ++ [p] }
        else none
      else some { s with main := .joining rest }
  | .stopping =>
      some { s with
        main := .uninitializing
        collecting := if sc.pipelock then false else s.collecting }
  | .uninitializing => some { s with main := .returned }
  | .returned => none

def collectorStep (s : PipeSession) (ts : Option U64) : Option PipeSession :=
  match s.collector with
  | .created => some { s with collecting := true, collector := .testing }
  | .testing => some { s with collector := if s.collecting then .capturing else .ended }
  | .capturing =>
      match ts with
      | none => some { s with collector := .testing }
      | some ts =>
          (RollingBuffer.push collectorMax s.buffer ts).map fun buffer =>
            { s with buffer, captured := s.captured ++ [ts], collector := .testing }
  | _ => none

/-- `capture_primary_vsync_local`, once the secondary's capture has succeeded. -/
def suits (s : PipeSession) (p : ℤ) : PipeAct → Bool
  | .measure it =>
      !sc.pipelock || it.secondaryVsync.isNone ||
        it.primaryVsync == getLastVsyncs s.buffer []
          (pipeSyncCounts (s.process.thread p).timestamps).2.toNat
  | _ => true

def step (s : PipeSession) (e : SessionEvent) : Option PipeSession :=
  if s.main = .returned then none
  else
    match e with
    | .main ok => s.mainStep sc ok
    | .process (.act p a) =>
        if p ∈ s.created ∧ s.suits sc p a = true then
          (s.process.step sc.cfg (.act p a)).map fun process => { s with process }
        else none
    | .process .close => some { s with process := { s.process with clientDone := true } }
    | .collector ts => s.collectorStep ts

end PipeSession

namespace PipeSession

variable {σ : Type} {lib : VsyncLib σ} {sc : SessionConfig} {s s' : PipeSession}

/-! ## What a step does -/

inductive Stepped (sc : SessionConfig) (s : PipeSession) : SessionEvent → PipeSession → Prop where
  | main {ok : Bool} {s' : PipeSession} (h : s.mainStep sc ok = some s') : Stepped sc s (.main ok) s'
  | act {p : ℤ} {a : PipeAct} {process : PipeProcess} (hp : p ∈ s.created)
      (hsuits : s.suits sc p a = true) (h : s.process.step sc.cfg (.act p a) = some process) :
      Stepped sc s (.process (.act p a)) { s with process }
  | close : Stepped sc s (.process .close) { s with process := { s.process with clientDone := true } }
  | collector {ts : Option U64} {s' : PipeSession} (h : s.collectorStep ts = some s') :
      Stepped sc s (.collector ts) s'

theorem stepped {e : SessionEvent} (h : s.step sc e = some s') : s.Stepped sc e s' := by
  unfold step at h
  split at h
  · cases h
  · cases e with
    | main ok => exact Stepped.main h
    | collector ts => exact Stepped.collector h
    | process e =>
        cases e with
        | close =>
            obtain rfl := Option.some.inj h
            exact Stepped.close
        | act p a =>
            simp only at h
            split at h
            · next hact =>
              obtain ⟨process, hstep, rfl⟩ := Option.map_eq_some_iff.mp h
              exact Stepped.act hact.1 hact.2 hstep
            · cases h

theorem step_act {p : ℤ} {a : PipeAct} {process : PipeProcess} (hmain : s.main ≠ .returned)
    (hp : p ∈ s.created) (hsuits : s.suits sc p a = true)
    (h : s.process.step sc.cfg (.act p a) = some process) :
    s.step sc (.process (.act p a)) = some { s with process } := by
  rw [step, if_neg hmain]
  simp only [hp, hsuits, and_self, if_true, h, Option.map_some]

theorem mainStep_frame {ok : Bool} (h : s.mainStep sc ok = some s') :
    s'.process = s.process ∧ s'.buffer = s.buffer ∧ s'.captured = s.captured := by
  unfold mainStep at h
  cases hmain : s.main with
  | creating rest =>
      cases rest with
      | nil =>
          simp only [hmain] at h
          cases h
          exact ⟨rfl, rfl, rfl⟩
      | cons p rest =>
          simp only [hmain] at h
          cases h
          exact ⟨rfl, rfl, rfl⟩
  | joining rest =>
      cases rest with
      | nil =>
          simp only [hmain] at h
          cases h
          exact ⟨rfl, rfl, rfl⟩
      | cons p rest =>
          simp only [hmain] at h
          split at h
          · split at h
            · cases h
              exact ⟨rfl, rfl, rfl⟩
            · cases h
          · cases h
            exact ⟨rfl, rfl, rfl⟩
  | starting | stopping | uninitializing =>
      simp only [hmain] at h
      cases h
      exact ⟨rfl, rfl, rfl⟩
  | returned =>
      simp only [hmain] at h
      cases h

/-- The collector leaves `main` and the threads alone, and captures one timestamp or none. -/
theorem collectorStep_frame {ts : Option U64} (h : s.collectorStep ts = some s') :
    s'.main = s.main ∧ s'.created = s.created ∧ s'.joined = s.joined ∧ s'.process = s.process ∧
      (s'.buffer = s.buffer ∧ s'.captured = s.captured ∨
        ∃ t, RollingBuffer.push collectorMax s.buffer t = some s'.buffer ∧
          s'.captured = s.captured ++ [t]) := by
  unfold collectorStep at h
  cases hc : s.collector with
  | capturing =>
      simp only [hc] at h
      cases ts with
      | none =>
          cases h
          exact ⟨rfl, rfl, rfl, rfl, Or.inl ⟨rfl, rfl⟩⟩
      | some t =>
          obtain ⟨buffer, hpush, rfl⟩ := Option.map_eq_some_iff.mp h
          exact ⟨rfl, rfl, rfl, rfl, Or.inr ⟨t, hpush, rfl⟩⟩
  | created =>
      simp only [hc] at h
      cases h
      exact ⟨rfl, rfl, rfl, rfl, Or.inl ⟨rfl, rfl⟩⟩
  | testing =>
      simp only [hc] at h
      cases h
      exact ⟨rfl, rfl, rfl, rfl, Or.inl ⟨rfl, rfl⟩⟩
  | absent =>
      simp only [hc] at h
      cases h
  | ended =>
      simp only [hc] at h
      cases h

/-! ## Created and joined -/

/-- The threads that exist and those that were joined, by where `main` is. -/
def Order (sc : SessionConfig) (s : PipeSession) : Prop :=
  match s.main with
  | .starting => s.created = [] ∧ s.joined = []
  | .creating rest => s.joined = [] ∧ ∃ done, sc.pipes = done ++ rest ∧ s.created.Sublist done
  | .joining rest => ∃ done waiting, sc.pipes = done ++ rest ∧ s.created = s.joined ++ waiting ∧
      s.joined.Sublist done ∧ waiting.Sublist rest
  | _ => s.joined = s.created ∧ s.created.Sublist sc.pipes

theorem Order.created_sublist (h : s.Order sc) : s.created.Sublist sc.pipes := by
  unfold Order at h
  cases hmain : s.main with
  | starting =>
      simp only [hmain] at h
      rw [h.1]
      exact List.nil_sublist _
  | creating rest =>
      simp only [hmain] at h
      obtain ⟨-, done, hpipes, hsub⟩ := h
      rw [hpipes]
      exact hsub.trans (List.sublist_append_left done rest)
  | joining rest =>
      simp only [hmain] at h
      obtain ⟨done, waiting, hpipes, hcreated, hjoined, hwaiting⟩ := h
      rw [hpipes, hcreated]
      exact hjoined.append hwaiting
  | stopping | uninitializing | returned =>
      simp only [hmain] at h
      exact h.2

theorem Order.joined_created (h : s.Order sc) {p : ℤ} (hp : p ∈ s.joined) : p ∈ s.created := by
  unfold Order at h
  cases hmain : s.main with
  | starting =>
      simp only [hmain] at h
      simp [h.2] at hp
  | creating rest =>
      simp only [hmain] at h
      simp [h.1] at hp
  | joining rest =>
      simp only [hmain] at h
      obtain ⟨-, waiting, -, hcreated, -, -⟩ := h
      rw [hcreated]
      exact List.mem_append_left waiting hp
  | stopping | uninitializing | returned =>
      simp only [hmain] at h
      rwa [← h.1]

/-- A thread that was created and is next to be joined waits first. -/
theorem Order.waiting_of_created {p : ℤ} {done rest waiting : List ℤ} (hnodup : sc.pipes.Nodup)
    (hpipes : sc.pipes = done ++ p :: rest) (hcreated : s.created = s.joined ++ waiting)
    (hjoined : s.joined.Sublist done) (hwaiting : waiting.Sublist (p :: rest)) :
    (p ∈ s.created → ∃ waiting', waiting = p :: waiting' ∧ waiting'.Sublist rest) ∧
      (p ∉ s.created → waiting.Sublist rest) := by
  rw [hpipes, List.nodup_append] at hnodup
  obtain ⟨-, hrest, hdisjoint⟩ := hnodup
  cases List.sublist_cons_iff.mp hwaiting with
  | inl hsub =>
      refine ⟨fun hp => ?_, fun _ => hsub⟩
      rw [hcreated] at hp
      cases List.mem_append.mp hp with
      | inl hp => exact absurd rfl (hdisjoint p (hjoined.subset hp) p List.mem_cons_self)
      | inr hp => exact absurd (hsub.subset hp) (List.nodup_cons.mp hrest).1
  | inr hsub =>
      obtain ⟨waiting', rfl, hsub⟩ := hsub
      refine ⟨fun _ => ⟨waiting', rfl, hsub⟩, fun hp => ?_⟩
      exact absurd (hcreated ▸ List.mem_append_right _ List.mem_cons_self) hp

theorem Order.mainStep (hnodup : sc.pipes.Nodup) (h : s.Order sc) {ok : Bool}
    (hstep : s.mainStep sc ok = some s') : s'.Order sc := by
  unfold Order at h
  unfold PipeSession.mainStep at hstep
  cases hmain : s.main with
  | starting =>
      simp only [hmain] at h hstep
      cases hstep
      exact ⟨h.2, [], rfl, by simp [h.1]⟩
  | creating rest =>
      cases rest with
      | nil =>
          simp only [hmain] at h hstep
          cases hstep
          obtain ⟨hjoined, done, hpipes, hsub⟩ := h
          rw [List.append_nil] at hpipes
          exact ⟨[], s.created, rfl, by simp [hjoined], by simp [hjoined], hpipes ▸ hsub⟩
      | cons p rest =>
          simp only [hmain] at h hstep
          cases hstep
          obtain ⟨hjoined, done, hpipes, hsub⟩ := h
          refine ⟨hjoined, done ++ [p], by simp [hpipes], ?_⟩
          cases ok with
          | true => exact hsub.append (List.Sublist.refl [p])
          | false => exact hsub.trans (List.sublist_append_left done [p])
  | joining rest =>
      cases rest with
      | nil =>
          simp only [hmain] at h hstep
          cases hstep
          obtain ⟨done, waiting, hpipes, hcreated, hjoined, hwaiting⟩ := h
          obtain rfl := List.sublist_nil.mp hwaiting
          rw [List.append_nil] at hpipes hcreated
          exact ⟨hcreated.symm, by rwa [hcreated, hpipes]⟩
      | cons p rest =>
          simp only [hmain] at h hstep
          obtain ⟨done, waiting, hpipes, hcreated, hjoined, hwaiting⟩ := h
          have hnext := Order.waiting_of_created hnodup hpipes hcreated hjoined hwaiting
          split at hstep
          · next hp =>
            split at hstep
            · cases hstep
              obtain ⟨waiting', rfl, hsub⟩ := hnext.1 hp
              exact ⟨done ++ [p], waiting', by simp [hpipes], by simp [hcreated],
                hjoined.append (List.Sublist.refl [p]), hsub⟩
            · cases hstep
          · next hp =>
            cases hstep
            exact ⟨done ++ [p], waiting, by simp [hpipes], hcreated,
              hjoined.trans (List.sublist_append_left done [p]), hnext.2 hp⟩
  | stopping =>
      simp only [hmain] at h hstep
      cases hstep
      exact h
  | uninitializing =>
      simp only [hmain] at h hstep
      cases hstep
      exact h
  | returned =>
      simp only [hmain] at hstep
      cases hstep

theorem Order.congr (h : s.Order sc) (hmain : s'.main = s.main) (hcreated : s'.created = s.created)
    (hjoined : s'.joined = s.joined) : s'.Order sc := by
  unfold Order at h ⊢
  rwa [hmain, hcreated, hjoined]

/-! ## The invariant -/

/-- The pipes are those of a command line that `parse_pipes_arg` accepts. -/
structure Valid (sc : SessionConfig) : Prop where
  nodup : sc.pipes.Nodup
  range : ∀ p ∈ sc.pipes, 0 ≤ p ∧ p ≤ 3

theorem valid_of_parsed {arg : List Char} {out : List ℤ}
    (h : parsePipesArg arg out = (true, sc.pipes)) : Valid sc := by
  obtain ⟨hsorted, hrange⟩ := parsePipesArg_some h
  exact ⟨hsorted.imp fun h => ne_of_lt h, hrange⟩

/-- Threads that were joined are at their end; the others follow their own loops; the buffer
holds what was captured last. -/
structure Inv (lib : VsyncLib σ) (sc : SessionConfig) (first : SyncWorld σ) (s : PipeSession) :
    Prop where
  order : s.Order sc
  ended : ∀ p ∈ s.joined, (s.process.thread p).pc = .ended
  threads : s.process.Inv lib sc.cfg vsyncMaxTimestamps first
  buffer : s.buffer = s.captured.rtake collectorMax

variable {first : SyncWorld σ}

theorem Inv.range (hv : Valid sc) (hs : s.Inv lib sc first) {p : ℤ} (hp : p ∈ s.created) :
    0 ≤ p ∧ p ≤ 3 :=
  hv.range p (hs.order.created_sublist.subset hp)

theorem step_of_ended {cfg : PipeConfig} {clientDone : Bool} {table : PipeTable} {t : PipeThread}
    (hpc : t.pc = .ended) (hhelper : t.helper = .absent) (a : PipeAct) :
    t.step cfg clientDone table a = none := by
  cases a with
  | measure it => simp only [PipeThread.step, hpc]
  | advance => simp only [PipeThread.step, PipeThread.advance, hpc]
  | helper => simp only [PipeThread.step, PipeThread.background, hhelper, Option.map_none]

theorem Inv.quiet (hv : Valid sc) (hs : s.Inv lib sc first) {p : ℤ} (hp : p ∈ s.joined)
    (a : PipeAct) : s.process.step sc.cfg (.act p a) = none := by
  have hrange := hs.range hv (hs.order.joined_created hp)
  have hpc := hs.ended p hp
  have hbetween := (hs.threads p hrange.1 hrange.2).between (by rw [hpc]; trivial)
  simp only [PipeProcess.step, step_of_ended hpc hbetween.1, Option.map_none]

theorem mainStep_joined {ok : Bool} (h : s.mainStep sc ok = some s') {p : ℤ} (hp : p ∈ s'.joined) :
    p ∈ s.joined ∨ (s.process.thread p).pc.hasEnded = true := by
  unfold mainStep at h
  cases hmain : s.main with
  | creating rest =>
      cases rest with
      | nil =>
          simp only [hmain] at h
          cases h
          exact Or.inl hp
      | cons q rest =>
          simp only [hmain] at h
          cases h
          exact Or.inl hp
  | joining rest =>
      cases rest with
      | nil =>
          simp only [hmain] at h
          cases h
          exact Or.inl hp
      | cons q rest =>
          simp only [hmain] at h
          split at h
          · split at h
            · next hended =>
              cases h
              cases List.mem_append.mp hp with
              | inl hp => exact Or.inl hp
              | inr hp =>
                  obtain rfl := List.mem_singleton.mp hp
                  exact Or.inr hended
            · cases h
          · cases h
            exact Or.inl hp
  | starting | stopping | uninitializing =>
      simp only [hmain] at h
      cases h
      exact Or.inl hp
  | returned =>
      simp only [hmain] at h
      cases h

theorem ended_of_hasEnded {pc : PipePc} (h : pc.hasEnded = true) : pc = .ended := by
  cases pc with
  | ended => rfl
  | _ => cases h

theorem inv_start (table : PipeTable) (state : σ) : (start table).Inv lib sc ⟨table, state⟩ where
  order := ⟨rfl, rfl⟩
  ended := by simp [start]
  threads := PipeProcess.inv_start state
  buffer := rfl

theorem Inv.step (hv : Valid sc) (hs : s.Inv lib sc first) {e : SessionEvent}
    (hstep : s.step sc e = some s') : s'.Inv lib sc first := by
  cases stepped hstep with
  | main h =>
      obtain ⟨hprocess, hbuffer, hcaptured⟩ := mainStep_frame h
      refine ⟨hs.order.mainStep hv.nodup h, ?_, hprocess ▸ hs.threads, ?_⟩
      · intro p hp
        rw [hprocess]
        cases mainStep_joined h hp with
        | inl hp => exact hs.ended p hp
        | inr hended => exact ended_of_hasEnded hended
      · rw [hbuffer, hcaptured]
        exact hs.buffer
  | act hp hsuits h =>
      rename_i p a process
      refine ⟨hs.order.congr rfl rfl rfl, ?_, hs.threads.step h, hs.buffer⟩
      intro q hq
      have hne : q ≠ p := by
        intro heq
        rw [← heq, hs.quiet hv hq a] at h
        cases h
      obtain ⟨r, -, rfl⟩ := Option.map_eq_some_iff.mp h
      have hsame : Function.update s.process.thread p r.2 q = s.process.thread q :=
        Function.update_of_ne hne _ _
      dsimp only
      rw [hsame]
      exact hs.ended q hq
  | close => exact ⟨hs.order.congr rfl rfl rfl, hs.ended, hs.threads.step (e := .close) rfl, hs.buffer⟩
  | collector h =>
      obtain ⟨hmain, hcreated, hjoined, hprocess, hbuffer⟩ := collectorStep_frame h
      refine ⟨hs.order.congr hmain hcreated hjoined, ?_, hprocess ▸ hs.threads, ?_⟩
      · rw [hjoined, hprocess]
        exact hs.ended
      · cases hbuffer with
        | inl hsame =>
            rw [hsame.1, hsame.2]
            exact hs.buffer
        | inr hpush =>
            obtain ⟨t, hpush, hcaptured⟩ := hpush
            rw [hs.buffer, RollingBuffer.push_rtake (by decide)] at hpush
            rw [hcaptured]
            exact (Option.some.inj hpush).symm

theorem inv_run (lib : VsyncLib σ) (hv : Valid sc) {table : PipeTable} (state : σ)
    {events : List SessionEvent}
    (hrun : Steps.run (step sc) events (start table) = some s) : s.Inv lib sc ⟨table, state⟩ := by
  have hall : Steps.All (step sc) (fun _ _ => True) events (start table) :=
    Steps.all_of_forall (fun _ _ => trivial) _
  exact hall.invariant (fun _ _ _ hs _ hstep => hs.step hv hstep) (inv_start table state) hrun

def Joined (s : PipeSession) : Prop :=
  match s.main with
  | .stopping | .uninitializing | .returned => True
  | _ => False

/-- What holds once the library may go: every thread that exists was joined, once and in the
order of the pipes; each has run its own loop to the end; nothing of them is left to run. -/
structure Quiet (lib : VsyncLib σ) (sc : SessionConfig) (first : SyncWorld σ) (s : PipeSession) :
    Prop where
  joined : s.joined = s.created
  order : s.created.Sublist sc.pipes
  loops : ∀ p ∈ s.created, (s.process.thread p).pc = .ended ∧
    (s.process.thread p).helper = .absent ∧
    ∃ w ret, Loop lib (sc.cfg.forPipe p) vsyncMaxTimestamps first
      (s.process.thread p).iterations w (s.process.thread p).requests ret
  still : ∀ p a, s.step sc (.process (.act p a)) = none

theorem Inv.joined_eq (hs : s.Inv lib sc first) (h : s.Joined) : s.joined = s.created := by
  have horder := hs.order
  unfold Order at horder
  unfold Joined at h
  cases hmain : s.main with
  | stopping | uninitializing | returned =>
      simp only [hmain] at horder
      exact horder.1
  | starting | creating rest | joining rest =>
      simp only [hmain] at h

theorem Inv.quiet_of_joined (hv : Valid sc) (hs : s.Inv lib sc first) (h : s.Joined) :
    s.Quiet lib sc first where
  joined := hs.joined_eq h
  order := hs.order.created_sublist
  loops := by
    intro p hp
    have hrange := hs.range hv hp
    have hpc := hs.ended p (hs.joined_eq h ▸ hp)
    obtain ⟨hhelper, w, ret, hloop, -⟩ :=
      (hs.threads p hrange.1 hrange.2).between (by rw [hpc]; trivial)
    exact ⟨hpc, hhelper, w, ret, hloop⟩
  still := by
    intro p a
    rw [PipeSession.step]
    by_cases hreturned : s.main = .returned
    · exact if_pos hreturned
    · rw [if_neg hreturned]
      by_cases hp : p ∈ s.created
      · simp only [hs.quiet hv (hs.joined_eq h ▸ hp) a, Option.map_none, ite_self]
      · exact if_neg fun hact => hp hact.1

theorem mainStep_of_joined {ok : Bool} (h : s.Joined) (hstep : s.mainStep sc ok = some s') :
    s'.Joined := by
  unfold Joined at h
  unfold mainStep at hstep
  cases hmain : s.main with
  | stopping =>
      simp only [hmain] at hstep
      cases hstep
      trivial
  | uninitializing =>
      simp only [hmain] at hstep
      cases hstep
      trivial
  | returned =>
      simp only [hmain] at hstep
      cases hstep
  | starting | creating rest | joining rest =>
      simp only [hmain] at h

/-- After the joins a step leaves the threads and their records as they are. -/
theorem Inv.step_of_joined (hv : Valid sc) (hs : s.Inv lib sc first) (h : s.Joined)
    {e : SessionEvent} (hstep : s.step sc e = some s') :
    s'.Joined ∧ s'.process.thread = s.process.thread ∧ s'.process.table = s.process.table := by
  cases stepped hstep with
  | main hmain =>
      have hframe := mainStep_frame hmain
      exact ⟨mainStep_of_joined h hmain, congrArg _ hframe.1, congrArg _ hframe.1⟩
  | act hp hsuits hact =>
      rw [(hs.quiet_of_joined hv h).still] at hstep
      cases hstep
  | close => exact ⟨h, rfl, rfl⟩
  | collector hcollector =>
      obtain ⟨hmain, -, -, hprocess, -⟩ := collectorStep_frame hcollector
      refine ⟨?_, congrArg _ hprocess, congrArg _ hprocess⟩
      unfold Joined at h ⊢
      rwa [hmain]

end PipeSession

/-- In every run of the session, when `main` has come past its joins every thread that it
created was joined once, in the order of the pipes, with its own loop run to the end and no
helper left; from there on no thread and no record changes. -/
theorem joined_quiet {σ : Type} (lib : VsyncLib σ) (state : σ) {sc : SessionConfig}
    {arg : List Char} {out : List ℤ} (hpipes : parsePipesArg arg out = (true, sc.pipes))
    {table : PipeTable} {events : List SessionEvent} {s : PipeSession}
    (hrun : Steps.run (PipeSession.step sc) events (PipeSession.start table) = some s)
    (hjoined : s.Joined) :
    s.Quiet lib sc ⟨table, state⟩ ∧
      ∀ later s', Steps.run (PipeSession.step sc) later s = some s' →
        s'.process.thread = s.process.thread ∧ s'.process.table = s.process.table := by
  have hv := PipeSession.valid_of_parsed hpipes
  have hs := PipeSession.inv_run lib hv state hrun
  refine ⟨hs.quiet_of_joined hv hjoined, fun later s' hlater => ?_⟩
  have hall : Steps.All (PipeSession.step sc) (fun _ _ => True) later s :=
    Steps.all_of_forall (fun _ _ => trivial) _
  let Kept (r : PipeSession) : Prop := r.Inv lib sc ⟨table, state⟩ ∧ r.Joined ∧
    r.process.thread = s.process.thread ∧ r.process.table = s.process.table
  have hnext : ∀ r e r', Kept r → True → r.step sc e = some r' → Kept r' := by
    intro r e r' hr _ hstep
    obtain ⟨hinv, hj, hthread, htable⟩ := hr
    obtain ⟨hj', hthread', htable'⟩ := hinv.step_of_joined hv hj hstep
    exact ⟨hinv.step hv hstep, hj', hthread'.trans hthread, htable'.trans htable⟩
  have hkept : Kept s' := hall.invariant hnext ⟨hs, hjoined, rfl, rfl⟩ hlater
  exact hkept.2.2

/-! ## A session that corrects -/

def vblanks (first n : ℕ) : List U64 :=
  (List.range n).map fun k => BitVec.ofNat 64 (first + 41666 * k)

/-- A first iteration that finds its pipe in step. -/
def firstIteration : Iteration :=
  { earlyIteration with
    secondaryVsync := some (vblanks (17 * 41666) 95)
    primaryVsync := some (vblanks (12 * 41666) 100) }

theorem firstIteration_delta :
    pipeDelta (vblanks (12 * 41666) 100) (vblanks (17 * 41666) 95) = .ok 0 := by
  have hzero := (findMinimumDelta_eq_zero_iff (vblanks (12 * 41666) 100)
    (vblanks (17 * 41666) 95) 0).mpr ⟨708322, by decide +kernel, by decide +kernel⟩
  have havg : findAvg (vblanks (17 * 41666) 95) = 41666 := by decide +kernel
  unfold pipeDelta
  rw [hzero, havg]
  decide

theorem PipeThread.measure_of_within {cfg : PipeConfig} {t : PipeThread} {it : Iteration}
    {stats : PipeStats} {secondary primary : List U64} {delta : ℤ}
    (hs : it.secondaryVsync = some secondary) (hp : it.primaryVsync = some primary)
    (hdelta : pipeDelta primary secondary = .ok delta)
    (hwithin : beyondThreshold cfg delta = false) :
    t.measure cfg it stats = some { t with
      pc := .storing it { stats with outOfSync := 0, successIter := stats.successIter + 1 } 0 } := by
  simp only [measure, hs, hp, hdelta, hwithin, Bool.false_eq_true, if_false]

namespace PipeSession

def afterFirst (s : PipeSession) (p : ℤ) : PipeSession :=
  { s with process := { s.process with
    thread := Function.update s.process.thread p { s.process.thread p with
      pc := .storing firstIteration { noStats with successIter := 1 } 0 } } }

theorem step_firstIteration {sc : SessionConfig} {s : PipeSession} {p : ℤ}
    (hmain : s.main ≠ .returned) (hp : p ∈ s.created)
    (hsuits : s.suits sc p (.measure firstIteration) = true)
    (hpc : (s.process.thread p).pc = .loaded noStats)
    (hfits : firstIteration.fits (s.process.thread p).timestamps = true)
    (hthreshold : 0 ≤ sc.cfg.syncThresholdUs) :
    s.step sc (.process (.act p (.measure firstIteration))) = some (s.afterFirst p) := by
  have hwithin : beyondThreshold (sc.cfg.forPipe p) 0 = false := by
    simp [beyondThreshold, PipeConfig.forPipe, hthreshold]
  have hmeasure : (s.process.thread p).measure (sc.cfg.forPipe p) firstIteration noStats = _ :=
    PipeThread.measure_of_within rfl rfl firstIteration_delta hwithin
  apply step_act hmain hp hsuits
  simp only [PipeProcess.step, PipeThread.step, hpc, hfits, if_true, hmeasure, Option.map_some]
  rfl

end PipeSession

def threePipes : SessionConfig := ⟨overshootConfig, [0, 1, 2], false⟩

def inTurn (p q : ℤ) (acts : List PipeAct) : List SessionEvent :=
  acts.flatMap fun a => [.process (.act p a), .process (.act q a)]

theorem inTurn_run {sc : SessionConfig} {s s₁ s₂ : PipeSession} {p q : ℤ} {a : PipeAct}
    (hp : s.step sc (.process (.act p a)) = some s₁)
    (hq : s₁.step sc (.process (.act q a)) = some s₂) :
    Steps.run (PipeSession.step sc) (inTurn p q [a]) s = some s₂ := by
  rw [inTurn, List.flatMap_cons, List.flatMap_nil, List.append_nil, Steps.run, hp,
    Option.bind_some, Steps.run, hq, Option.bind_some, Steps.run]

/-- The second pipe gets no thread. -/
def threadCreations : List SessionEvent :=
  [.main true, .main true, .main false, .main true, .main true] ++ inTurn 0 2 [.advance]

theorem threadCreations_run : (Steps.run (PipeSession.step threePipes) threadCreations
    (PipeSession.start fun _ => noStats)).isSome = true := by
  decide +kernel

def threadsCreated : PipeSession := Option.get _ threadCreations_run

def firstRound : List SessionEvent := threadCreations ++ inTurn 0 2 [.measure firstIteration]

theorem firstRound_run : Steps.run (PipeSession.step threePipes) firstRound
    (PipeSession.start fun _ => noStats) =
      some ((threadsCreated.afterFirst 0).afterFirst 2) := by
  have hcreated : Steps.run (PipeSession.step threePipes) threadCreations
      (PipeSession.start fun _ => noStats) = some threadsCreated := (Option.some_get _).symm
  have hzero : threadsCreated.step threePipes (.process (.act 0 (.measure firstIteration))) =
      some (threadsCreated.afterFirst 0) :=
    PipeSession.step_firstIteration (by decide +kernel) (by decide +kernel) rfl rfl
      (by decide +kernel) (by decide)
  have htwo : (threadsCreated.afterFirst 0).step threePipes
      (.process (.act 2 (.measure firstIteration))) =
      some ((threadsCreated.afterFirst 0).afterFirst 2) :=
    PipeSession.step_firstIteration (by decide +kernel) (by decide +kernel) rfl rfl
      (by decide +kernel) (by decide)
  rw [firstRound, Steps.run_append, hcreated, Option.bind_some, inTurn_run hzero htwo]

/-- In their second iteration both threads correct their pipe; then they see the signal and are
joined. -/
def correctingSession : List SessionEvent :=
  firstRound ++ (inTurn 0 2 ([.advance, .advance] ++ correction burstIteration) ++
    [.process .close, .process (.act 0 .advance), .main true, .process (.act 2 .advance),
      .main true, .main true, .main true])

theorem correctingSession_run : ∃ s,
    Steps.run (PipeSession.step threePipes) correctingSession (PipeSession.start fun _ => noStats) =
      some s ∧
      s.main = .stopping ∧ s.joined = [0, 2] ∧
        ∀ p ∈ s.joined, (s.process.thread p).requests.length = 1 := by
  have hrun : (Steps.run (PipeSession.step threePipes) correctingSession
      (PipeSession.start fun _ => noStats)).map (fun s => decide (s.main = .stopping ∧
        s.joined = [0, 2] ∧ ∀ p ∈ s.joined, (s.process.thread p).requests.length = 1)) =
      some true := by
    rw [correctingSession, Steps.run_append, firstRound_run, Option.bind_some]
    decide +kernel
  obtain ⟨s, hs, hend⟩ := Option.map_eq_some_iff.mp hrun
  exact ⟨s, hs, of_decide_eq_true hend⟩

theorem joined_quiet_corrections : ∃ s,
    Steps.run (PipeSession.step threePipes) correctingSession (PipeSession.start fun _ => noStats) =
      some s ∧
      s.joined = [0, 2] ∧ s.Quiet (⟨fun _ w => (0, w)⟩ : VsyncLib Unit) threePipes
        ⟨fun _ => noStats, ()⟩ ∧
      ∀ later s', Steps.run (PipeSession.step threePipes) later s = some s' →
        s'.process.thread = s.process.thread ∧ s'.process.table = s.process.table := by
  obtain ⟨s, hrun, hmain, hjoined, -⟩ := correctingSession_run
  have hparsed : parsePipesArg "2,0,1".toList [] = (true, threePipes.pipes) := by decide
  have hpast : s.Joined := by
    unfold PipeSession.Joined
    rw [hmain]
    trivial
  exact ⟨s, hrun, hjoined, joined_quiet _ () hparsed hrun hpast⟩

end Genlock.Swgenlock
