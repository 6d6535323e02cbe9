import Genlock.Lib.Steps
import Genlock.Swgenlock.Collector
import Genlock.Swgenlock.SyncStatus

/-! # The pipe threads of one process

`main` starts a thread for every pipe, and each synchronization has a helper thread that
prints the vblank interval until `thread_continue` is cleared. They share the table of
counters, which each access locks and unlocks. Here every access is a step of its own; the
iterations of `doPipeSync` are what a thread's steps amount to.
-/

namespace Genlock.Swgenlock

open Vsyncalter

/-! ## The functions of the source -/

/-- A correction in progress: the environment's part, and the locals of `do_pipe_sync`. -/
structure SyncJob where
  it : Iteration
  stats : PipeStats
  delta : ℤ
  duration : ℤ
deriving DecidableEq

inductive PipePc where
  /-- before `get_pipe_stats` of `do_pipe_sync` -/
  | entering
  /-- before the captures -/
  | loaded (stats : PipeStats)
  /-- before the two accesses that set `thread_continue` -/
  | readingOn (job : SyncJob)
  | raising (job : SyncJob) (copy : PipeStats)
  /-- before `pthread_create` -/
  | creating (job : SyncJob)
  /-- before `synchronize_vsync` -/
  | syncing (job : SyncJob)
  /-- before the two accesses that clear `thread_continue` -/
  | readingOff (job : SyncJob)
  | lowering (job : SyncJob) (copy : PipeStats)
  /-- before `pthread_join` -/
  | joining (job : SyncJob)
  /-- before the nudge of adaptive learning -/
  | learning (job : SyncJob)
  /-- before the last `set_pipe_stats` -/
  | storing (it : Iteration) (stats : PipeStats) (ret : ℤ)
  /-- before the test of the loop -/
  | returned (ret : ℤ)
  | ended
deriving DecidableEq

inductive HelperPc where
  | absent
  /-- before `get_pipe_stats` -/
  | testing
  /-- before the last vblank interval -/
  | finishing
  /-- returned and not joined -/
  | returned
deriving DecidableEq, Repr

/-- A thread with its helper. `iterations` and `requests` are history: the iterations that
ended, and what the library was asked for. -/
structure PipeThread where
  pc : PipePc
  timestamps : ℤ
  helper : HelperPc
  iterations : List Iteration
  requests : List SyncRequest

structure PipeProcess where
  table : PipeTable
  clientDone : Bool
  thread : ℤ → PipeThread

inductive PipeAct where
  /-- The captures of an iteration, and all that the iteration meets later. -/
  | measure (it : Iteration)
  | advance
  | helper

inductive ProcessEvent where
  | act (pipe : ℤ) (a : PipeAct)
  /-- `client_close_signal` -/
  | close

/-- The record that `PipeStats stats` is before `get_pipe_stats` fills it. -/
def noStats : PipeStats := ⟨0, 0, 0, ⟨0, 0⟩, 0⟩

def Iteration.fits (it : Iteration) (timestamps : ℤ) : Bool :=
  it.secondaryVsync.all (fun s => decide ((s.length : ℤ) = (pipeSyncCounts timestamps).1)) &&
    it.primaryVsync.all fun p => decide ((p.length : ℤ) = (pipeSyncCounts timestamps).2)

namespace PipeThread

variable (cfg : PipeConfig)

/-- From the captures to the decision; `none` as well for the division by zero that ends the
process. -/
def measure (t : PipeThread) (it : Iteration) (stats : PipeStats) : Option PipeThread :=
  let failed := { t with pc := .returned 1, iterations := t.iterations ++ [it] }
  match it.secondaryVsync with
  | none => some failed
  | some secondaryVsync =>
      match it.primaryVsync with
      | none => some failed
      | some primaryVsync =>
          match pipeDelta primaryVsync secondaryVsync with
          | .error .clocksNotSynchronized => some failed
          | .error .divisionByZero => none
          | .ok delta =>
              if beyondThreshold cfg delta then
                let stats := { stats with outOfSync := stats.outOfSync + 1 }
                if stats.outOfSync < 2 ∧ stats.syncCount > 1 then
                  some { t with pc := .storing it stats 0 }
                else
                  let duration := timespecToMs it.nowSync - timespecToMs stats.lastSync
                  let stats := { stats with outOfSync := 0, lastSync := it.nowSync }
                  some { t with pc := .readingOn ⟨it, stats, delta, duration⟩ }
              else
                some { t with
                  pc := .storing it
                    { stats with outOfSync := 0, successIter := stats.successIter + 1 } 0 }

def advance (clientDone : Bool) (table : PipeTable) (t : PipeThread) :
    Option (PipeTable × PipeThread) :=
  match t.pc with
  | .entering => some (table, { t with pc := .loaded (getPipeStats table cfg.pipe noStats) })
  | .loaded _ => none
  | .readingOn job =>
      some (table, { t with pc := .raising job (getPipeStats table cfg.pipe noStats) })
  | .raising job copy =>
      some (setPipeStats table cfg.pipe { copy with threadContinue := 1 },
        { t with pc := .creating job })
  | .creating job =>
      if job.it.threadCreated then some (table, { t with pc := .syncing job, helper := .testing })
      else some (table, { t with pc := .storing job.it job.stats 1 })
  | .syncing job =>
      some (table, { t with
        pc := .readingOff job
        requests := t.requests ++ [syncRequest cfg (deltaMs job.delta) job.duration] })
  | .readingOff job =>
      some (table, { t with pc := .lowering job (getPipeStats table cfg.pipe noStats) })
  | .lowering job copy =>
      some (setPipeStats table cfg.pipe { copy with threadContinue := 0 },
        { t with pc := .joining job })
  | .joining job =>
      if t.helper = .returned then some (table, { t with pc := .learning job, helper := .absent })
      else none
  | .learning job =>
      some (table, { t with
        pc := .storing job.it
          { job.stats with
            lastSync := job.it.syncDone
            successIter := 0
            syncCount := job.stats.syncCount + 1 } 0
        requests := t.requests ++
          if appliesLearning cfg job.duration job.stats.syncCount then
            [learningRequest cfg (deltaMs job.delta)]
          else [] })
  | .storing it stats ret =>
      some (setPipeStats table cfg.pipe stats,
        { t with pc := .returned ret, iterations := t.iterations ++ [it] })
  | .returned ret =>
      if !clientDone && ret == 0 then some (table, { t with pc := .entering, timestamps := 2 })
      else some (table, { t with pc := .ended })
  | .ended => none

def background (table : PipeTable) (t : PipeThread) : Option PipeThread :=
  match t.helper with
  | .testing =>
      if (getPipeStats table cfg.pipe noStats).threadContinue ≠ 0 then some t
      else some { t with helper := .finishing }
  | .finishing => some { t with helper := .returned }
  | _ => none

def step (clientDone : Bool) (table : PipeTable) (t : PipeThread) :
    PipeAct → Option (PipeTable × PipeThread)
  | .measure it =>
      match t.pc with
      | .loaded stats =>
          if it.fits t.timestamps then (t.measure cfg it stats).map fun t => (table, t) else none
      | _ => none
  | .advance => t.advance cfg clientDone table
  | .helper => (t.background cfg table).map fun t => (table, t)

end PipeThread

def PipeConfig.forPipe (cfg : PipeConfig) (pipe : ℤ) : PipeConfig := { cfg with pipe }

namespace PipeProcess

def start (table : PipeTable) (timestamps : ℤ) : PipeProcess :=
  ⟨table, false, fun _ => ⟨.entering, timestamps, .absent, [], []⟩⟩

def step (cfg : PipeConfig) (s : PipeProcess) : ProcessEvent → Option PipeProcess
  | .act pipe a =>
      ((s.thread pipe).step (cfg.forPipe pipe) s.clientDone s.table a).map fun r =>
        { s with table := r.1, thread := Function.update s.thread pipe r.2 }
  | .close => some { s with clientDone := true }

end PipeProcess

/-! ## One thread alone -/

variable {σ : Type} (lib : VsyncLib σ) (cfg : PipeConfig)

/-- `pipe_sync_thread` with nothing beside it: one `doPipeSync` after another as long as they
return 0, with the sizes of the captures; the world, the requests and the last result. -/
inductive Loop (timestamps : ℤ) (start : SyncWorld σ) :
    List Iteration → SyncWorld σ → List SyncRequest → ℤ → Prop where
  | start : Loop timestamps start [] start [] 0
  | next {its : List Iteration} {w : SyncWorld σ} {requests : List SyncRequest} {it : Iteration}
      {ret : ℤ} (hloop : Loop timestamps start its w requests 0)
      (hfits : it.fits (if its = [] then timestamps else 2) = true)
      (hret : (doPipeSync lib cfg it w).ret = some ret) :
      Loop timestamps start (its ++ [it]) (doPipeSync lib cfg it w).world
        (requests ++ (doPipeSync lib cfg it w).calls.map SyncCall.request) ret

structure SyncJob.Measured (w : SyncWorld σ) (job : SyncJob) : Prop where
  measures : job.it.Measures job.delta
  beyond : beyondThreshold cfg job.delta = true
  goesOn : ¬((w.stats cfg.pipe).outOfSync + 1 < 2 ∧ (w.stats cfg.pipe).syncCount > 1)
  stats : job.stats = { w.stats cfg.pipe with outOfSync := 0, lastSync := job.it.nowSync }
  duration : job.duration =
    timespecToMs job.it.nowSync - timespecToMs (w.stats cfg.pipe).lastSync

structure Ends (it : Iteration) (w : SyncWorld σ) (ret : ℤ) (stats : PipeStats)
    (requests : List SyncRequest) : Prop where
  ret : (doPipeSync lib cfg it w).ret = some ret
  stats : (doPipeSync lib cfg it w).world.stats cfg.pipe = stats
  requests : (doPipeSync lib cfg it w).calls.map SyncCall.request = requests

section Iterations

variable {lib cfg} {w : SyncWorld σ} {it : Iteration} {delta : ℤ} {job : SyncJob}

theorem ends_within (hv : cfg.ValidPipe) (hm : it.Measures delta)
    (hb : beyondThreshold cfg delta = false) :
    Ends lib cfg it w 0
      { w.stats cfg.pipe with
        outOfSync := 0, successIter := (w.stats cfg.pipe).successIter + 1 } [] where
  ret := by
    rw [doPipeSync_of_measures hm]
    simp [pipeDecision, hb]
  stats := (iteration_within lib w hv hm hb).2
  requests := by rw [(iteration_within lib w hv hm hb).1, List.map_nil]

theorem ends_skipped (hv : cfg.ValidPipe) (hm : it.Measures delta)
    (hb : beyondThreshold cfg delta = true)
    (hskip : (w.stats cfg.pipe).outOfSync + 1 < 2 ∧ (w.stats cfg.pipe).syncCount > 1) :
    Ends lib cfg it w 0
      { w.stats cfg.pipe with outOfSync := (w.stats cfg.pipe).outOfSync + 1 } [] where
  ret := by
    rw [doPipeSync_of_measures hm, getPipeStats_of_valid hv]
    simp only [pipeDecision, hb, if_true]
    rw [if_pos hskip]
  stats := (iteration_skipped lib w hv hm hb hskip).2
  requests := by rw [(iteration_skipped lib w hv hm hb hskip).1, List.map_nil]

theorem ends_synced (hv : cfg.ValidPipe) (hj : job.Measured cfg w)
    (ht : job.it.threadCreated = true) :
    Ends lib cfg job.it w 0
      { job.stats with
        lastSync := job.it.syncDone
        successIter := 0
        syncCount := job.stats.syncCount + 1 }
      (syncRequest cfg (deltaMs job.delta) job.duration ::
        if appliesLearning cfg job.duration job.stats.syncCount then
          [learningRequest cfg (deltaMs job.delta)]
        else []) where
  ret := by
    have hret := (performSynchronization_calls lib cfg (deltaMs job.delta)
      (timespecToMs job.it.nowSync - timespecToMs (w.stats cfg.pipe).lastSync)
      (w.stats cfg.pipe).syncCount w).1
    unfold deltaMs at hret
    rw [doPipeSync_of_measures hj.measures, getPipeStats_of_valid hv]
    simp only [pipeDecision, hj.beyond, if_true, ht]
    rw [if_neg hj.goesOn, if_neg (not_not.mpr hret)]
  stats := by
    rw [(iteration_synced lib w hv hj.measures ht hj.beyond hj.goesOn).2, hj.stats]
  requests := by
    rw [(iteration_synced lib w hv hj.measures ht hj.beyond hj.goesOn).1,
      (performSynchronization_calls lib cfg _ _ _ w).2, hj.stats, hj.duration]

theorem ends_noThread (hv : cfg.ValidPipe) (hj : job.Measured cfg w)
    (ht : job.it.threadCreated = false) : Ends lib cfg job.it w 1 job.stats [] where
  ret := by
    rw [doPipeSync_of_measures hj.measures, getPipeStats_of_valid hv]
    simp only [pipeDecision, hj.beyond, if_true, ht, performSynchronization_no_thread]
    rw [if_neg hj.goesOn]
    rfl
  stats := by
    rw [iteration_no_thread lib w hv hj.measures ht hj.beyond hj.goesOn, hj.stats]
  requests := by
    rw [doPipeSync_of_measures hj.measures, getPipeStats_of_valid hv]
    simp only [pipeDecision, hj.beyond, if_true, ht, performSynchronization_no_thread]
    rw [if_neg hj.goesOn]
    rfl

theorem ends_failed (h : doPipeSync lib cfg it w = ⟨some 1, [], w⟩) :
    Ends lib cfg it w 1 (w.stats cfg.pipe) [] := by
  refine ⟨?_, ?_, ?_⟩ <;> rw [h]
  rfl

end Iterations

/-! ## A thread among the others -/

/-- Where a thread stands while it runs beside others: `w`, `requests` and `ret` are those of
its finished iterations. -/
def PipeThread.Stands (timestamps : ℤ) (table : PipeTable) (t : PipeThread) (w : SyncWorld σ)
    (requests : List SyncRequest) (ret : ℤ) : Prop :=
  let asked := if t.iterations = [] then timestamps else 2
  match t.pc with
  | .entering => ret = 0 ∧ table cfg.pipe = w.stats cfg.pipe ∧ t.requests = requests ∧
      t.helper = .absent ∧ t.timestamps = asked
  | .loaded stats => ret = 0 ∧ table cfg.pipe = w.stats cfg.pipe ∧ t.requests = requests ∧
      t.helper = .absent ∧ t.timestamps = asked ∧ stats = w.stats cfg.pipe
  | .readingOn job | .raising job _ => ret = 0 ∧ job.Measured cfg w ∧ job.it.fits asked = true ∧
      t.requests = requests ∧ t.helper = .absent
  | .creating job => ret = 0 ∧ job.Measured cfg w ∧ job.it.fits asked = true ∧
      t.requests = requests ∧ t.helper = .absent ∧ (table cfg.pipe).threadContinue = 1
  | .syncing job => ret = 0 ∧ job.Measured cfg w ∧ job.it.fits asked = true ∧
      t.requests = requests ∧ job.it.threadCreated = true ∧ t.helper = .testing ∧
      (table cfg.pipe).threadContinue = 1
  | .readingOff job | .lowering job _ => ret = 0 ∧ job.Measured cfg w ∧ job.it.fits asked = true ∧
      t.requests = requests ++ [syncRequest cfg (deltaMs job.delta) job.duration] ∧
      job.it.threadCreated = true ∧ t.helper = .testing ∧ (table cfg.pipe).threadContinue = 1
  | .joining job => ret = 0 ∧ job.Measured cfg w ∧ job.it.fits asked = true ∧
      t.requests = requests ++ [syncRequest cfg (deltaMs job.delta) job.duration] ∧
      job.it.threadCreated = true ∧ t.helper ≠ .absent ∧ (table cfg.pipe).threadContinue = 0
  | .learning job => ret = 0 ∧ job.Measured cfg w ∧ job.it.fits asked = true ∧
      t.requests = requests ++ [syncRequest cfg (deltaMs job.delta) job.duration] ∧
      job.it.threadCreated = true ∧ t.helper = .absent
  | .storing it stats r => ret = 0 ∧ it.fits asked = true ∧ t.helper = .absent ∧
      ∃ added, Ends lib cfg it w r stats added ∧ t.requests = requests ++ added
  | .returned r => ret = r ∧ t.iterations ≠ [] ∧ table cfg.pipe = w.stats cfg.pipe ∧
      t.requests = requests ∧ t.helper = .absent
  | .ended => table cfg.pipe = w.stats cfg.pipe ∧ t.requests = requests ∧ t.helper = .absent

/-- The finished iterations of a thread are a loop of its own, from the record `start`. -/
def PipeThread.Follows (timestamps : ℤ) (start : SyncWorld σ) (table : PipeTable) (t : PipeThread) :
    Prop :=
  ∃ w requests ret, Loop lib cfg timestamps start t.iterations w requests ret ∧
    t.Stands lib cfg timestamps table w requests ret

namespace PipeThread

variable {lib cfg} {timestamps : ℤ} {table table' : PipeTable} {t t' : PipeThread}
  {start w : SyncWorld σ} {requests : List SyncRequest} {ret : ℤ}

/-- Only the record of its own pipe matters to a thread. -/
theorem Follows.frame (h : t.Follows lib cfg timestamps start table)
    (htable : table' cfg.pipe = table cfg.pipe) : t.Follows lib cfg timestamps start table' := by
  obtain ⟨w, requests, ret, hloop, hstands⟩ := h
  refine ⟨w, requests, ret, hloop, ?_⟩
  unfold Stands at hstands ⊢
  rw [htable]
  exact hstands

theorem setPipeStats_self (hv : cfg.ValidPipe) (table : PipeTable) (stats : PipeStats) :
    setPipeStats table cfg.pipe stats cfg.pipe = stats := by
  obtain ⟨h0, h3⟩ := hv
  unfold setPipeStats
  rw [if_neg (by omega), Function.update_self]

theorem setPipeStats_of_ne {p q : ℤ} (h : q ≠ p) (table : PipeTable) (stats : PipeStats) :
    setPipeStats table p stats q = table q := by
  unfold setPipeStats
  split
  · rfl
  · exact Function.update_of_ne h ..

/-- The captures and the decision are those of `doPipeSync`. -/
theorem follows_measure (hv : cfg.ValidPipe) {it : Iteration} {stats : PipeStats}
    (hpc : t.pc = .loaded stats) (hfits : it.fits t.timestamps = true)
    (h : t.Follows lib cfg timestamps start table) (hstep : t.measure cfg it stats = some t') :
    t'.Follows lib cfg timestamps start table := by
  obtain ⟨w, requests, ret, hloop, hstands⟩ := h
  simp only [Stands, hpc] at hstands
  obtain ⟨rfl, htable, hrequests, hhelper, htimes, rfl⟩ := hstands
  rw [htimes] at hfits
  have hfailed : doPipeSync lib cfg it w = ⟨some 1, [], w⟩ →
      ({ t with pc := .returned 1, iterations := t.iterations ++ [it] } : PipeThread).Follows lib cfg
        timestamps start table := by
    intro hit
    have hends : Ends lib cfg it w 1 (w.stats cfg.pipe) [] := ends_failed hit
    refine ⟨_, _, _, .next hloop hfits hends.ret, rfl, by simp, ?_, ?_, hhelper⟩
    · rw [htable, hit]
    · rw [hrequests, hends.requests, List.append_nil]
  unfold measure at hstep
  dsimp only at hstep
  cases hs : it.secondaryVsync with
  | none =>
      rw [hs] at hstep
      obtain rfl := Option.some.inj hstep
      exact hfailed (by simp [doPipeSync, hs])
  | some s =>
      cases hp : it.primaryVsync with
      | none =>
          rw [hs, hp] at hstep
          obtain rfl := Option.some.inj hstep
          exact hfailed (by simp [doPipeSync, hs, hp])
      | some p =>
          cases hd : pipeDelta p s with
          | error e =>
              cases e with
              | clocksNotSynchronized =>
                  rw [hs, hp] at hstep
                  simp only [hd] at hstep
                  obtain rfl := Option.some.inj hstep
                  exact hfailed (by simp [doPipeSync, hs, hp, hd])
              | divisionByZero =>
                  rw [hs, hp] at hstep
                  simp only [hd] at hstep
                  cases hstep
          | ok delta =>
              have hm : it.Measures delta := ⟨p, s, hp, hs, hd⟩
              rw [hs, hp] at hstep
              simp only [hd] at hstep
              cases hb : beyondThreshold cfg delta with
              | false =>
                  simp only [hb, Bool.false_eq_true, if_false] at hstep
                  obtain rfl := Option.some.inj hstep
                  exact ⟨w, requests, 0, hloop, rfl, hfits, hhelper, [], ends_within hv hm hb,
                    by rw [hrequests, List.append_nil]⟩
              | true =>
                  simp only [hb, if_true] at hstep
                  by_cases hskip : (w.stats cfg.pipe).outOfSync + 1 < 2 ∧
                      (w.stats cfg.pipe).syncCount > 1
                  · rw [if_pos hskip] at hstep
                    obtain rfl := Option.some.inj hstep
                    exact ⟨w, requests, 0, hloop, rfl, hfits, hhelper, [],
                      ends_skipped hv hm hb hskip, by rw [hrequests, List.append_nil]⟩
                  · rw [if_neg hskip] at hstep
                    obtain rfl := Option.some.inj hstep
                    exact ⟨w, requests, 0, hloop, rfl, ⟨hm, hb, hskip, rfl, rfl⟩, hfits, hrequests,
                      hhelper⟩

/-- An access of the thread is part of the iteration, or ends it. -/
theorem follows_advance (hv : cfg.ValidPipe) {clientDone : Bool}
    (h : t.Follows lib cfg timestamps start table)
    (hstep : t.advance cfg clientDone table = some (table', t')) :
    t'.Follows lib cfg timestamps start table' := by
  obtain ⟨w, requests, ret, hloop, hstands⟩ := h
  unfold advance at hstep
  unfold Stands at hstands
  cases hpc : t.pc with
  | entering =>
      simp only [hpc] at hstep hstands
      obtain ⟨rfl, htable, hrequests, hhelper, htimes⟩ := hstands
      cases hstep
      exact ⟨w, requests, 0, hloop, rfl, htable, hrequests, hhelper, htimes,
        by rw [getPipeStats_of_valid hv, htable]⟩
  | loaded stats =>
      simp only [hpc] at hstep
      cases hstep
  | readingOn job =>
      simp only [hpc] at hstep hstands
      cases hstep
      exact ⟨w, requests, ret, hloop, hstands⟩
  | raising job copy =>
      simp only [hpc] at hstep hstands
      obtain ⟨rfl, hjob, hfits, hrequests, hhelper⟩ := hstands
      cases hstep
      exact ⟨w, requests, 0, hloop, rfl, hjob, hfits, hrequests, hhelper,
        by rw [setPipeStats_self hv]⟩
  | creating job =>
      simp only [hpc] at hstep hstands
      obtain ⟨rfl, hjob, hfits, hrequests, hhelper, hflag⟩ := hstands
      cases hcreated : job.it.threadCreated with
      | true =>
          rw [hcreated, if_pos rfl] at hstep
          cases hstep
          exact ⟨w, requests, 0, hloop, rfl, hjob, hfits, hrequests, hcreated, rfl, hflag⟩
      | false =>
          rw [hcreated, if_neg Bool.false_ne_true] at hstep
          cases hstep
          exact ⟨w, requests, 0, hloop, rfl, hfits, hhelper, [], ends_noThread hv hjob hcreated,
            by rw [hrequests, List.append_nil]⟩
  | syncing job =>
      simp only [hpc] at hstep hstands
      obtain ⟨rfl, hjob, hfits, hrequests, hcreated, hhelper, hflag⟩ := hstands
      cases hstep
      exact ⟨w, requests, 0, hloop, rfl, hjob, hfits, by rw [hrequests], hcreated, hhelper, hflag⟩
  | readingOff job =>
      simp only [hpc] at hstep hstands
      cases hstep
      exact ⟨w, requests, ret, hloop, hstands⟩
  | lowering job copy =>
      simp only [hpc] at hstep hstands
      obtain ⟨rfl, hjob, hfits, hrequests, hcreated, hhelper, hflag⟩ := hstands
      cases hstep
      refine ⟨w, requests, 0, hloop, rfl, hjob, hfits, hrequests, hcreated, ?_, ?_⟩
      · simp [hhelper]
      · rw [setPipeStats_self hv]
  | joining job =>
      simp only [hpc] at hstep hstands
      obtain ⟨rfl, hjob, hfits, hrequests, hcreated, -, -⟩ := hstands
      split at hstep
      · cases hstep
        exact ⟨w, requests, 0, hloop, rfl, hjob, hfits, hrequests, hcreated, rfl⟩
      · cases hstep
  | learning job =>
      simp only [hpc] at hstep hstands
      obtain ⟨rfl, hjob, hfits, hrequests, hcreated, hhelper⟩ := hstands
      cases hstep
      exact ⟨w, requests, 0, hloop, rfl, hfits, hhelper, _, ends_synced hv hjob hcreated,
        by rw [hrequests, List.append_assoc, List.singleton_append]⟩
  | storing it stats r =>
      simp only [hpc] at hstep hstands
      obtain ⟨rfl, hfits, hhelper, added, hends, hrequests⟩ := hstands
      cases hstep
      refine ⟨_, _, r, .next hloop hfits hends.ret, rfl, by simp, ?_, ?_, hhelper⟩
      · rw [setPipeStats_self hv, hends.stats]
      · rw [hrequests, hends.requests]
  | returned r =>
      simp only [hpc] at hstep hstands
      obtain ⟨rfl, hsome, htable, hrequests, hhelper⟩ := hstands
      by_cases hon : (!clientDone && ret == 0) = true
      · rw [if_pos hon] at hstep
        cases hstep
        simp only [Bool.and_eq_true, beq_iff_eq] at hon
        obtain ⟨-, rfl⟩ := hon
        exact ⟨w, requests, 0, hloop, rfl, htable, hrequests, hhelper, (if_neg hsome).symm⟩
      · rw [if_neg hon] at hstep
        cases hstep
        exact ⟨w, requests, ret, hloop, htable, hrequests, hhelper⟩
  | ended =>
      simp only [hpc] at hstep
      cases hstep

/-- While a helper lives, the thread waits for it or the flag is still set. -/
theorem Stands.joining_of_helper (h : t.Stands lib cfg timestamps table w requests ret)
    (hhelper : t.helper ≠ .absent) :
    (∃ job, t.pc = .joining job) ∨
      t.helper = .testing ∧ (table cfg.pipe).threadContinue = 1 := by
  unfold Stands at h
  cases hpc : t.pc with
  | joining job => exact Or.inl ⟨job, rfl⟩
  | syncing job =>
      simp only [hpc] at h
      obtain ⟨-, -, -, -, -, htesting, hflag⟩ := h
      exact Or.inr ⟨htesting, hflag⟩
  | readingOff job =>
      simp only [hpc] at h
      obtain ⟨-, -, -, -, -, htesting, hflag⟩ := h
      exact Or.inr ⟨htesting, hflag⟩
  | lowering job copy =>
      simp only [hpc] at h
      obtain ⟨-, -, -, -, -, htesting, hflag⟩ := h
      exact Or.inr ⟨htesting, hflag⟩
  -- elsewhere there is no helper
  | storing it stats r =>
      simp only [hpc] at h
      exact absurd h.2.2.1 hhelper
  | entering =>
      simp only [hpc] at h
      obtain ⟨-, -, -, habsent, -⟩ := h
      exact absurd habsent hhelper
  | loaded stats =>
      simp only [hpc] at h
      obtain ⟨-, -, -, habsent, -⟩ := h
      exact absurd habsent hhelper
  | readingOn job =>
      simp only [hpc] at h
      obtain ⟨-, -, -, -, habsent⟩ := h
      exact absurd habsent hhelper
  | raising job copy =>
      simp only [hpc] at h
      obtain ⟨-, -, -, -, habsent⟩ := h
      exact absurd habsent hhelper
  | creating job =>
      simp only [hpc] at h
      obtain ⟨-, -, -, -, habsent, -⟩ := h
      exact absurd habsent hhelper
  | learning job =>
      simp only [hpc] at h
      obtain ⟨-, -, -, -, -, habsent⟩ := h
      exact absurd habsent hhelper
  | returned r =>
      simp only [hpc] at h
      obtain ⟨-, -, -, -, habsent⟩ := h
      exact absurd habsent hhelper
  | ended =>
      simp only [hpc] at h
      obtain ⟨-, -, habsent⟩ := h
      exact absurd habsent hhelper

theorem Stands.helper (h : t.Stands lib cfg timestamps table w requests ret) {job : SyncJob}
    (hpc : t.pc = .joining job) {helper : HelperPc} (hhelper : helper ≠ .absent) :
    ({ t with helper } : PipeThread).Stands lib cfg timestamps table w requests ret := by
  unfold Stands at h ⊢
  simp only [hpc] at h ⊢
  obtain ⟨hret, hjob, hfits, hrequests, hcreated, -, hflag⟩ := h
  exact ⟨hret, hjob, hfits, hrequests, hcreated, hhelper, hflag⟩

/-- The helper leaves its loop only when the flag is cleared. -/
theorem follows_background (hv : cfg.ValidPipe) (h : t.Follows lib cfg timestamps start table)
    (hstep : t.background cfg table = some t') : t'.Follows lib cfg timestamps start table := by
  obtain ⟨w, requests, ret, hloop, hstands⟩ := h
  unfold background at hstep
  cases hhelper : t.helper with
  | absent =>
      rw [hhelper] at hstep
      cases hstep
  | returned =>
      rw [hhelper] at hstep
      cases hstep
  | testing =>
      rw [hhelper] at hstep
      dsimp only at hstep
      split at hstep
      · obtain rfl := Option.some.inj hstep
        exact ⟨w, requests, ret, hloop, hstands⟩
      · next hcleared =>
        obtain rfl := Option.some.inj hstep
        rw [getPipeStats_of_valid hv, not_not] at hcleared
        cases hstands.joining_of_helper (by simp [hhelper]) with
        | inl hjoining =>
            obtain ⟨job, hpc⟩ := hjoining
            exact ⟨w, requests, ret, hloop, hstands.helper hpc (by simp)⟩
        | inr hset =>
            rw [hset.2] at hcleared
            cases hcleared
  | finishing =>
      rw [hhelper] at hstep
      obtain rfl := Option.some.inj hstep
      cases hstands.joining_of_helper (by simp [hhelper]) with
      | inl hjoining =>
          obtain ⟨job, hpc⟩ := hjoining
          exact ⟨w, requests, ret, hloop, hstands.helper hpc (by simp)⟩
      | inr hset =>
          rw [hset.1] at hhelper
          cases hhelper

theorem follows_step (hv : cfg.ValidPipe) {clientDone : Bool} {a : PipeAct}
    (h : t.Follows lib cfg timestamps start table)
    (hstep : t.step cfg clientDone table a = some (table', t')) :
    t'.Follows lib cfg timestamps start table' := by
  cases a with
  | measure it =>
      unfold step at hstep
      dsimp only at hstep
      split at hstep
      · next stats hpc =>
        split at hstep
        · next hfits =>
          obtain ⟨t₁, hmeasure, heq⟩ := Option.map_eq_some_iff.mp hstep
          obtain ⟨rfl, rfl⟩ := Prod.mk.inj heq
          exact follows_measure hv hpc hfits h hmeasure
        · cases hstep
      · cases hstep
  | advance => exact follows_advance hv h hstep
  | helper =>
      obtain ⟨t₁, hbackground, heq⟩ := Option.map_eq_some_iff.mp hstep
      obtain ⟨rfl, rfl⟩ := Prod.mk.inj heq
      exact follows_background hv h hbackground

/-- Nothing but the record of the own pipe is written. -/
theorem step_frame {clientDone : Bool} {a : PipeAct}
    (hstep : t.step cfg clientDone table a = some (table', t')) {q : ℤ} (hq : q ≠ cfg.pipe) :
    table' q = table q := by
  cases a with
  | measure it =>
      unfold step at hstep
      dsimp only at hstep
      split at hstep
      · split at hstep
        · obtain ⟨t₁, -, heq⟩ := Option.map_eq_some_iff.mp hstep
          rw [(Prod.mk.inj heq).1]
        · cases hstep
      · cases hstep
  | advance =>
      unfold step advance at hstep
      cases hpc : t.pc with
      | raising job copy | lowering job copy =>
          simp only [hpc] at hstep
          cases hstep
          exact setPipeStats_of_ne hq ..
      | storing it stats ret =>
          simp only [hpc] at hstep
          cases hstep
          exact setPipeStats_of_ne hq ..
      | creating job =>
          simp only [hpc] at hstep
          split at hstep
          · cases hstep
            rfl
          · cases hstep
            rfl
      | returned ret =>
          simp only [hpc] at hstep
          split at hstep
          · cases hstep
            rfl
          · cases hstep
            rfl
      | joining job =>
          simp only [hpc] at hstep
          split at hstep
          · cases hstep
            rfl
          · cases hstep
      | entering =>
          simp only [hpc] at hstep
          cases hstep
          rfl
      | readingOn job | syncing job | readingOff job | learning job =>
          simp only [hpc] at hstep
          cases hstep
          rfl
      | loaded stats =>
          simp only [hpc] at hstep
          cases hstep
      | ended =>
          simp only [hpc] at hstep
          cases hstep
  | helper =>
      obtain ⟨t₁, -, heq⟩ := Option.map_eq_some_iff.mp hstep
      rw [(Prod.mk.inj heq).1]

/-! ### Ending an iteration -/

def Completes (cfg : PipeConfig) (clientDone : Bool) (n : ℕ) (table : PipeTable) (t : PipeThread) :
    Prop :=
  ∃ acts : List PipeAct, acts.length ≤ n ∧ (∀ a ∈ acts, a = .advance ∨ a = .helper) ∧
    ∃ table' t' r, Steps.run (fun s : PipeTable × PipeThread => s.2.step cfg clientDone s.1) acts
      (table, t) = some (table', t') ∧ t'.pc = .returned r

section Completes

variable {clientDone : Bool} {n : ℕ} {job : SyncJob}

theorem Completes.cons {a : PipeAct} (ha : a = .advance ∨ a = .helper)
    (hstep : t.step cfg clientDone table a = some (table', t'))
    (h : Completes cfg clientDone n table' t') : Completes cfg clientDone (n + 1) table t := by
  obtain ⟨acts, hlen, hacts, table₁, t₁, r, hrun, hpc⟩ := h
  refine ⟨a :: acts, Nat.succ_le_succ hlen, ?_, table₁, t₁, r, ?_, hpc⟩
  · rw [List.forall_mem_cons]
    exact ⟨ha, hacts⟩
  · rw [Steps.run]
    dsimp only
    rw [hstep]
    exact hrun

theorem Completes.advance (hstep : t.advance cfg clientDone table = some (table', t'))
    (h : Completes cfg clientDone n table' t') : Completes cfg clientDone (n + 1) table t :=
  h.cons (Or.inl rfl) hstep

theorem Completes.background (hstep : t.background cfg table = some t')
    (h : Completes cfg clientDone n table t') : Completes cfg clientDone (n + 1) table t :=
  h.cons (Or.inr rfl) (by simp [step, hstep])

theorem Completes.mono {m : ℕ} (h : Completes cfg clientDone m table t) (hm : m ≤ n) :
    Completes cfg clientDone n table t := by
  obtain ⟨acts, hlen, hacts⟩ := h
  exact ⟨acts, hlen.trans hm, hacts⟩

end Completes

end PipeThread

/-- Between two iterations, or after the last. -/
def PipePc.Between : PipePc → Prop
  | .entering | .returned _ | .ended => True
  | _ => False

instance decidableBetween : (pc : PipePc) → Decidable pc.Between
  | .entering | .returned _ | .ended => .isTrue trivial
  | .loaded _ | .readingOn _ | .raising _ _ | .creating _ | .syncing _ | .readingOff _
  | .lowering _ _ | .joining _ | .learning _ | .storing _ _ _ => .isFalse not_false

namespace PipeThread

variable {lib cfg} {timestamps : ℤ} {table : PipeTable} {t : PipeThread} {start : SyncWorld σ}

theorem Follows.between (h : t.Follows lib cfg timestamps start table) (hpc : t.pc.Between) :
    t.helper = .absent ∧ ∃ w ret, Loop lib cfg timestamps start t.iterations w t.requests ret ∧
      table cfg.pipe = w.stats cfg.pipe := by
  obtain ⟨w, requests, ret, hloop, hstands⟩ := h
  unfold Stands at hstands
  cases hat : t.pc with
  | entering =>
      simp only [hat] at hstands
      obtain ⟨-, htable, rfl, hhelper, -⟩ := hstands
      exact ⟨hhelper, w, ret, hloop, htable⟩
  | returned r =>
      simp only [hat] at hstands
      obtain ⟨-, -, htable, rfl, hhelper⟩ := hstands
      exact ⟨hhelper, w, ret, hloop, htable⟩
  | ended =>
      simp only [hat] at hstands
      obtain ⟨htable, rfl, hhelper⟩ := hstands
      exact ⟨hhelper, w, ret, hloop, htable⟩
  | _ =>
      rw [hat] at hpc
      exact hpc.elim

end PipeThread

/-! ## Runs of the process -/

namespace PipeProcess

variable {lib cfg} {timestamps : ℤ} {table : PipeTable} {events : List ProcessEvent}
  {s s' : PipeProcess}

def Inv (lib : VsyncLib σ) (cfg : PipeConfig) (timestamps : ℤ) (start : SyncWorld σ)
    (s : PipeProcess) : Prop :=
  ∀ p, 0 ≤ p → p ≤ 3 → (s.thread p).Follows lib (cfg.forPipe p) timestamps start s.table

theorem inv_start (state : σ) :
    (start table timestamps).Inv lib cfg timestamps ⟨table, state⟩ := by
  intro p _ _
  exact ⟨⟨table, state⟩, [], 0, Loop.start, rfl, rfl, rfl, rfl, rfl⟩

theorem Inv.step {start : SyncWorld σ} (hs : s.Inv lib cfg timestamps start) {e : ProcessEvent}
    (hstep : s.step cfg e = some s') : s'.Inv lib cfg timestamps start := by
  intro p hp0 hp3
  have hv : (cfg.forPipe p).ValidPipe := ⟨hp0, hp3⟩
  cases e with
  | close =>
      obtain rfl := Option.some.inj hstep
      exact hs p hp0 hp3
  | act q a =>
      obtain ⟨⟨table', t'⟩, hact, rfl⟩ := Option.map_eq_some_iff.mp hstep
      by_cases hq : p = q
      · subst hq
        have hfollows := PipeThread.follows_step hv (hs p hp0 hp3) hact
        simpa using hfollows
      · have hframe := PipeThread.step_frame hact (q := p) hq
        have hfollows := (hs p hp0 hp3).frame hframe
        simpa [Function.update_of_ne hq] using hfollows

theorem inv_run (lib : VsyncLib σ) (state : σ)
    (hrun : Steps.run (PipeProcess.step cfg) events (start table timestamps) = some s) :
    s.Inv lib cfg timestamps ⟨table, state⟩ := by
  have hall : Steps.All (PipeProcess.step cfg) (fun _ _ => True) events (start table timestamps) :=
    Steps.all_of_forall (fun _ _ => trivial) _
  exact hall.invariant (fun _ _ _ hs _ hstep => hs.step hstep) (inv_start state) hrun

end PipeProcess

/-- However the threads interleave, at the end of each iteration the record of a pipe and its
requests are those of its own thread running alone, and no helper is left. -/
theorem threads_refine (lib : VsyncLib σ) (state : σ) (cfg : PipeConfig) {timestamps : ℤ}
    {table : PipeTable} {events : List ProcessEvent} {s : PipeProcess}
    (hrun : Steps.run (PipeProcess.step cfg) events (PipeProcess.start table timestamps) = some s)
    {p : ℤ} (hp : 0 ≤ p ∧ p ≤ 3) (hpc : (s.thread p).pc.Between) :
    (s.thread p).helper = .absent ∧
      ∃ w ret, Loop lib (cfg.forPipe p) timestamps ⟨table, state⟩ (s.thread p).iterations w
          (s.thread p).requests ret ∧
        s.table p = w.stats p :=
  (PipeProcess.inv_run lib state hrun p hp.1 hp.2).between hpc

def burstIteration : Iteration :=
  { earlyIteration with
    primaryVsync := some [15000, 56666, 98332, 139998, 181664, 223330, 264996] }

/-- A whole correction: the helper finds the flag set once, then cleared. -/
def correction (it : Iteration) : List PipeAct :=
  [.advance, .measure it, .advance, .advance, .advance, .helper, .advance, .advance, .advance,
    .helper, .helper, .advance, .advance, .advance]

def twoCorrections : List ProcessEvent :=
  (correction burstIteration).flatMap fun a => [.act 0 a, .act 1 a]

theorem twoCorrections_run : ∃ s,
    Steps.run (PipeProcess.step overshootConfig) twoCorrections
      (PipeProcess.start (fun _ => noStats) 2) = some s ∧
      ∀ p ∈ ([0, 1] : List ℤ), (s.thread p).pc.Between ∧ (s.thread p).requests.length = 1 := by
  have hrun : (Steps.run (PipeProcess.step overshootConfig) twoCorrections
      (PipeProcess.start (fun _ => noStats) 2)).map (fun s =>
        decide (∀ p ∈ ([0, 1] : List ℤ), (s.thread p).pc.Between ∧ (s.thread p).requests.length = 1)) =
      some true := by
    decide +kernel
  obtain ⟨s, hs, hend⟩ := Option.map_eq_some_iff.mp hrun
  exact ⟨s, hs, of_decide_eq_true hend⟩

theorem threads_refine_twoCorrections :
    ∃ s, Steps.run (PipeProcess.step overshootConfig) twoCorrections
        (PipeProcess.start (fun _ => noStats) 2) = some s ∧
      ∀ p ∈ ([0, 1] : List ℤ), (s.thread p).requests.length = 1 ∧ (s.thread p).helper = .absent ∧
        ∃ w ret, Loop (⟨fun _ w => (0, w)⟩ : VsyncLib Unit) (overshootConfig.forPipe p) 2
            ⟨fun _ => noStats, ()⟩ (s.thread p).iterations w (s.thread p).requests ret ∧
          s.table p = w.stats p := by
  obtain ⟨s, hrun, hend⟩ := twoCorrections_run
  refine ⟨s, hrun, fun p hp => ⟨(hend p hp).2, ?_⟩⟩
  have hrange : 0 ≤ p ∧ p ≤ 3 := by
    simp only [List.mem_cons, List.not_mem_nil, or_false] at hp
    omega
  exact threads_refine _ () overshootConfig hrun hrange (hend p hp).1

end Genlock.Swgenlock
