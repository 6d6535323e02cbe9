import Genlock.Swgenlock.Delta
import Genlock.Vsyncalter.Api

/-! # One pipe's synchronization iterations

`doPipeSync` measures the delta of its pipe, applies the threshold with its
one-iteration hysteresis, calls the library and writes the persisted counters
back. The library is a parameter: any state with a `synchronize_vsync`. Log
lines and the status datagram to the primary are left out.
-/

namespace Genlock.Swgenlock

open CArith Vsyncalter

abbrev U32 := BitVec 32

/-! ## Data of the source -/

structure Timespec where
  tvSec : ℤ
  tvNsec : ℤ
deriving DecidableEq, Repr

def timespecToMs (ts : Timespec) : ℤ := ts.tvSec * 1000 + ts.tvNsec.tdiv 1000000

structure PipeStats where
  successIter : U32
  syncCount : U32
  outOfSync : U32
  lastSync : Timespec
  threadContinue : ℤ
deriving DecidableEq, Repr

abbrev PipeTable := ℤ → PipeStats

/-- An out-of-range pipe leaves the caller's record as it is. -/
def getPipeStats (table : PipeTable) (pipe : ℤ) (out : PipeStats) : PipeStats :=
  if pipe < 0 ∨ pipe > 3 then out else table pipe

def setPipeStats (table : PipeTable) (pipe : ℤ) (stats : PipeStats) : PipeTable :=
  if pipe < 0 ∨ pipe > 3 then table else Function.update table pipe stats

def resetPipeStats (table : PipeTable) (pipe : ℤ) (now : Timespec) : PipeTable :=
  if pipe < 0 ∨ pipe > 3 then table else Function.update table pipe ⟨0, 0, 0, now, 1⟩

/-- What `do_pipe_sync` needs of the library: a state and `synchronize_vsync`. -/
structure VsyncLib (σ : Type) where
  synchronizeVsync : SyncRequest → σ → ℤ × σ

structure PipeConfig where
  pipe : ℤ
  syncThresholdUs : ℤ
  shift : ℚ
  timePeriod : ℤ
  learningRate : ℚ
  shift2 : ℚ
  overshootRatio : ℚ
  stepThreshold : ℤ
  waitBetweenSteps : ℤ

/-- What the environment supplies to one iteration: the two captures (`none` for
a failed one), the successive readings of the monotonic clock and the outcome of
`pthread_create`. -/
structure Iteration where
  secondaryVsync : Option (List U64)
  primaryVsync : Option (List U64)
  now : Timespec
  nowSync : Timespec
  syncDone : Timespec
  threadCreated : Bool
deriving DecidableEq

structure SyncCall where
  request : SyncRequest
  status : ℤ
deriving DecidableEq, Repr

structure SyncWorld (σ : Type) where
  stats : PipeTable
  lib : σ

/-- Return value, library calls in order and the world afterwards. A `none`
return value is the division by zero that ends the process. -/
structure IterResult (σ : Type) where
  ret : Option ℤ
  calls : List SyncCall
  world : SyncWorld σ

/-! ## The functions of the source -/

def isNotZero (value : ℚ) : Bool := decide (|value| ≥ 1 / 1000000000)

def usInMs : ℚ := 1000

/-- Learning is disabled or the last synchronization is too long ago. -/
def appliesOvershoot (cfg : PipeConfig) (duration : ℤ) : Bool :=
  !isNotZero cfg.learningRate || decide (duration > cfg.timePeriod * trunc usInMs)

def appliesLearning (cfg : PipeConfig) (duration : ℤ) (syncCount : U32) : Bool :=
  isNotZero cfg.learningRate && decide (syncCount > 1) &&
    decide (duration < trunc (cfg.timePeriod * usInMs))

def adjustedDeltaMs (cfg : PipeConfig) (deltaMs : ℚ) (duration : ℤ) : ℚ :=
  if appliesOvershoot cfg duration then deltaMs * (1 + cfg.overshootRatio) else deltaMs

/-- The correction: applied, held and restored by the library. -/
def syncRequest (cfg : PipeConfig) (deltaMs : ℚ) (duration : ℤ) : SyncRequest :=
  ⟨adjustedDeltaMs cfg deltaMs duration, cfg.pipe, cfg.shift, cfg.shift2, cfg.stepThreshold,
    cfg.waitBetweenSteps, true, true⟩

/-- The permanent nudge of adaptive learning. -/
def learningRequest (cfg : PipeConfig) (deltaMs : ℚ) : SyncRequest :=
  ⟨deltaMs, cfg.pipe, cfg.learningRate, 0, cfg.stepThreshold, cfg.waitBetweenSteps, false, true⟩

section Source

variable {σ : Type} (lib : VsyncLib σ) (cfg : PipeConfig)

def SyncWorld.setThreadContinue (w : SyncWorld σ) (pipe flag : ℤ) : SyncWorld σ :=
  let stats := getPipeStats w.stats pipe ⟨0, 0, 0, ⟨0, 0⟩, 0⟩
  { w with stats := setPipeStats w.stats pipe { stats with threadContinue := flag } }

/-- The status of `synchronize_vsync` is ignored in both places. -/
def performSynchronization (deltaMs : ℚ) (duration : ℤ) (syncCount : U32) (threadCreated : Bool)
    (w : SyncWorld σ) : IterResult σ :=
  let w := w.setThreadContinue cfg.pipe 1
  if !threadCreated then ⟨some 1, [], w⟩
  else
    let request := syncRequest cfg deltaMs duration
    let (status, libState) := lib.synchronizeVsync request w.lib
    let w := SyncWorld.setThreadContinue { w with lib := libState } cfg.pipe 0
    if appliesLearning cfg duration syncCount then
      let nudge := learningRequest cfg deltaMs
      let (nudgeStatus, libState) := lib.synchronizeVsync nudge w.lib
      ⟨some 0, [⟨request, status⟩, ⟨nudge, nudgeStatus⟩], { w with lib := libState }⟩
    else ⟨some 0, [⟨request, status⟩], w⟩

def beyondThreshold (delta : ℤ) : Bool :=
  decide (cfg.syncThresholdUs ≠ 0) && decide (|delta| > cfg.syncThresholdUs)

def SyncWorld.saveStats (w : SyncWorld σ) (pipe : ℤ) (stats : PipeStats) : SyncWorld σ :=
  { w with stats := setPipeStats w.stats pipe stats }

/-- The part of `do_pipe_sync` after the delta is known. `stats` is the copy
taken at the start of the iteration. -/
def pipeDecision (delta : ℤ) (it : Iteration) (stats : PipeStats) (w : SyncWorld σ) :
    IterResult σ :=
  if beyondThreshold cfg delta then
    let stats := { stats with outOfSync := stats.outOfSync + 1 }
    if stats.outOfSync < 2 ∧ stats.syncCount > 1 then
      ⟨some 0, [], w.saveStats cfg.pipe stats⟩
    else
      let duration := timespecToMs it.nowSync - timespecToMs stats.lastSync
      let stats := { stats with outOfSync := 0, lastSync := it.nowSync }
      let deltaMs : ℚ := (delta * -1) / usInMs
      let r := performSynchronization lib cfg deltaMs duration stats.syncCount it.threadCreated w
      if r.ret ≠ some 0 then
        ⟨some 1, r.calls, r.world.saveStats cfg.pipe stats⟩
      else
        ⟨some 0, r.calls, r.world.saveStats cfg.pipe
          { stats with
            lastSync := it.syncDone
            successIter := 0
            syncCount := stats.syncCount + 1 }⟩
  else
    ⟨some 0, [], w.saveStats cfg.pipe
      { stats with outOfSync := 0, successIter := stats.successIter + 1 }⟩

def doPipeSync (it : Iteration) (w : SyncWorld σ) : IterResult σ :=
  let stats := getPipeStats w.stats cfg.pipe ⟨0, 0, 0, ⟨0, 0⟩, 0⟩
  match it.secondaryVsync with
  | none => ⟨some 1, [], w⟩
  | some secondaryVsync =>
      match it.primaryVsync with
      | none => ⟨some 1, [], w⟩
      | some primaryVsync =>
          match pipeDelta primaryVsync secondaryVsync with
          | .error .clocksNotSynchronized => ⟨some 1, [], w⟩
          | .error .divisionByZero => ⟨none, [], w⟩
          | .ok delta => pipeDecision lib cfg delta it stats w

def worldAt (its : ℕ → Iteration) (start : SyncWorld σ) : ℕ → SyncWorld σ
  | 0 => start
  | k + 1 => (doPipeSync lib cfg (its k) (worldAt its start k)).world

def resultAt (its : ℕ → Iteration) (start : SyncWorld σ) (k : ℕ) : IterResult σ :=
  doPipeSync lib cfg (its k) (worldAt lib cfg its start k)

end Source

/-- The iteration's captures succeed, pass the tolerance and give `delta`. -/
def Iteration.Measures (it : Iteration) (delta : ℤ) : Prop :=
  ∃ primaryVsync secondaryVsync, it.primaryVsync = some primaryVsync ∧
    it.secondaryVsync = some secondaryVsync ∧
    pipeDelta primaryVsync secondaryVsync = .ok delta

/-! ## Small facts -/

@[simp] theorem trunc_usInMs : trunc usInMs = 1000 := by
  simpa [usInMs] using trunc_natCast 1000

@[simp] theorem trunc_timePeriod (n : ℤ) : trunc (n * usInMs) = n * 1000 := by
  have h : (n : ℚ) * usInMs = ((n * 1000 : ℤ) : ℚ) := by
    unfold usInMs
    push_cast
    ring
  rw [h, trunc_intCast]

section Stats

variable {σ : Type} {lib : VsyncLib σ} {cfg : PipeConfig}

def PipeConfig.ValidPipe (cfg : PipeConfig) : Prop := 0 ≤ cfg.pipe ∧ cfg.pipe ≤ 3

theorem getPipeStats_of_valid (h : cfg.ValidPipe) (table : PipeTable) (out : PipeStats) :
    getPipeStats table cfg.pipe out = table cfg.pipe := by
  obtain ⟨h0, h3⟩ := h
  unfold getPipeStats
  rw [if_neg (by omega)]

theorem saveStats_of_valid (h : cfg.ValidPipe) (w : SyncWorld σ) (stats : PipeStats) :
    (w.saveStats cfg.pipe stats).stats cfg.pipe = stats := by
  obtain ⟨h0, h3⟩ := h
  unfold SyncWorld.saveStats setPipeStats
  rw [if_neg (by omega)]
  simp

theorem doPipeSync_of_measures {it : Iteration} {delta : ℤ} (h : it.Measures delta)
    (w : SyncWorld σ) :
    doPipeSync lib cfg it w = pipeDecision lib cfg delta it
      (getPipeStats w.stats cfg.pipe ⟨0, 0, 0, ⟨0, 0⟩, 0⟩) w := by
  obtain ⟨p, s, hp, hs, hd⟩ := h
  simp only [doPipeSync, hp, hs, hd]

theorem performSynchronization_calls (lib : VsyncLib σ) (cfg : PipeConfig) (deltaMs : ℚ)
    (duration : ℤ) (syncCount : U32) (w : SyncWorld σ) :
    (performSynchronization lib cfg deltaMs duration syncCount true w).ret = some 0 ∧
      (performSynchronization lib cfg deltaMs duration syncCount true w).calls.map
          SyncCall.request =
        syncRequest cfg deltaMs duration ::
          (if appliesLearning cfg duration syncCount then [learningRequest cfg deltaMs] else []) := by
  unfold performSynchronization
  simp only [Bool.not_true, Bool.false_eq_true, if_false]
  split <;> simp

/-- The first call of a synchronization is the correction; its status is the
library's answer on the state it found. -/
theorem performSynchronization_head (deltaMs : ℚ) (duration : ℤ) (syncCount : U32)
    (w : SyncWorld σ) :
    (performSynchronization lib cfg deltaMs duration syncCount true w).calls.head? =
      some ⟨syncRequest cfg deltaMs duration,
        (lib.synchronizeVsync (syncRequest cfg deltaMs duration) w.lib).1⟩ := by
  unfold performSynchronization
  simp only [Bool.not_true, Bool.false_eq_true, if_false]
  split <;> rfl

theorem performSynchronization_no_thread (deltaMs : ℚ) (duration : ℤ) (syncCount : U32)
    (w : SyncWorld σ) :
    performSynchronization lib cfg deltaMs duration syncCount false w =
      ⟨some 1, [], w.setThreadContinue cfg.pipe 1⟩ := by
  simp [performSynchronization]

end Stats

end Genlock.Swgenlock
