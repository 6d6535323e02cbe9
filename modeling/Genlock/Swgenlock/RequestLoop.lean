import Genlock.Swgenlock.Connection
import Genlock.Swgenlock.PipeSync

/-!
# The request loop of the secondary

`capture_primary_vsync_network` sends its request and waits for the reply until both succeed. The
loop is bounded here by the number of attempts looked at; `none` means that it has not ended yet.
-/

namespace Genlock.Swgenlock

open Bytes

/-! ## The functions of the source -/

/-- One round of the loop: what `send` takes, and the call of `recvfrom_msg` behind it. -/
structure Attempt where
  accepted : ℕ
  call : RecvCall

/-- `send_msg(...) || recv_msg(...)`, with `m` after it; `none` if `recvfrom_msg` still polls. -/
def Attempt.run (a : Attempt) (m : MsgBytes) : Option (ℕ × MsgBytes) :=
  if sendtoMsg a.accepted ≠ 0 then some (1, m)
  else (recvfromMsg a.call m).map fun o => (if o.ret ≠ 0 then 1 else 0, o.m)

/-- `do { ... } while (ret)` from attempt `i` on. -/
def requestLoop (attempts : ℕ → Attempt) : ℕ → ℕ → MsgBytes → Option MsgBytes
  | 0, _, _ => none
  | fuel + 1, i, m =>
    match (attempts i).run m with
    | none => none
    | some (ret, m) => if ret ≠ 0 then requestLoop attempts fuel (i + 1) m else some m

structure NetworkCapture where
  /-- `init_client` succeeds. -/
  initClient : Bool
  attempts : ℕ → Attempt
  /-- `msg m`, which is not initialised -/
  m : MsgBytes

def capturePrimaryVsyncNetwork (net : NetworkCapture) (timestampsFromPrimary fuel : ℕ) :
    Option (Option (List U64)) :=
  if !net.initClient then some none
  else (requestLoop net.attempts fuel 0 net.m).map fun m =>
    some ((Msg.decode m).vsyncArray.take timestampsFromPrimary)

section Source

variable {σ : Type} (lib : VsyncLib σ) (cfg : PipeConfig)

/-- `do_pipe_sync` in network mode, where `it` supplies all but the primary's timestamps. -/
def doPipeSyncNetwork (it : Iteration) (net : NetworkCapture) (timestampsFromPrimary fuel : ℕ)
    (w : SyncWorld σ) : Option (IterResult σ) :=
  match it.secondaryVsync with
  | none => some ⟨some 1, [], w⟩
  | some _ => (capturePrimaryVsyncNetwork net timestampsFromPrimary fuel).map fun va =>
      doPipeSync lib cfg { it with primaryVsync := va } w

end Source

/-! ## A primary that is gone -/

def Attempt.Fails (a : Attempt) : Prop :=
  a.accepted ≠ sizeofMsg ∨ ∀ m, ∃ o, recvfromMsg a.call m = some o ∧ o.ret ≠ 0

def ClosedFrom (attempts : ℕ → Attempt) (n : ℕ) : Prop :=
  ∀ i, n ≤ i → (attempts i).Fails

theorem Attempt.Fails.run {a : Attempt} (h : a.Fails) (m : MsgBytes) :
    ∃ m', a.run m = some (1, m') := by
  by_cases hsend : a.accepted ≠ sizeofMsg
  · exact ⟨m, by simp [Attempt.run, sendtoMsg, hsend]⟩
  · obtain ⟨o, ho, hret⟩ := h.resolve_left hsend m
    exact ⟨o.m, by simp [Attempt.run, sendtoMsg, not_not.1 hsend, ho, hret]⟩

/-- The loop ends with the message of an attempt that succeeded, or not at all. -/
theorem requestLoop_succeeded {attempts : ℕ → Attempt} {fuel i : ℕ} {m m' : MsgBytes}
    (h : requestLoop attempts fuel i m = some m') :
    ∃ j, i ≤ j ∧ ∃ m'', (attempts j).run m'' = some (0, m') := by
  induction fuel generalizing i m with
  | zero =>
      cases h
  | succ fuel ih =>
      rw [requestLoop] at h
      split at h
      · cases h
      · next ret m₁ hrun =>
        split at h
        · obtain ⟨j, hj, hm⟩ := ih h
          exact ⟨j, Nat.le_of_succ_le hj, hm⟩
        · next hret =>
          cases h
          exact ⟨i, le_rfl, m, by rw [hrun, not_not.1 hret]⟩

/-- Once the connection is set up the capture has no failure to report. -/
theorem capturePrimaryVsyncNetwork_ne_none {net : NetworkCapture} (h : net.initClient = true)
    (count fuel : ℕ) : capturePrimaryVsyncNetwork net count fuel ≠ some none := by
  rw [capturePrimaryVsyncNetwork, h]
  cases requestLoop net.attempts fuel 0 net.m with
  | none => simp
  | some m => simp

section Closure

variable {σ : Type} (lib : VsyncLib σ) (cfg : PipeConfig) (it : Iteration) (net : NetworkCapture)
  (count : ℕ) (w : SyncWorld σ)

/-- The capture fails after finitely many attempts, and the iteration returns 1 with its stats. -/
structure ClosureReported : Prop where
  capture : ∃ fuel, capturePrimaryVsyncNetwork net count fuel = some none
  status : ∃ fuel r, doPipeSyncNetwork lib cfg it net count fuel w = some r ∧ r.ret = some 1 ∧
    r.world.stats = w.stats

theorem doPipeSyncNetwork_succeeded {lib : VsyncLib σ} {cfg : PipeConfig} {it : Iteration}
    {net : NetworkCapture} {count : ℕ} {w : SyncWorld σ} {secondaryVsync : List U64}
    (hsecondary : it.secondaryVsync = some secondaryVsync) (hinit : net.initClient = true)
    {fuel : ℕ} {r : IterResult σ} (h : doPipeSyncNetwork lib cfg it net count fuel w = some r) :
    ∃ i m m', (net.attempts i).run m = some (0, m') := by
  simp only [doPipeSyncNetwork, hsecondary, capturePrimaryVsyncNetwork, hinit, Bool.not_true,
    Bool.false_eq_true, if_false] at h
  cases hloop : requestLoop net.attempts fuel 0 net.m with
  | none =>
      rw [hloop] at h
      cases h
  | some m' =>
      obtain ⟨i, -, m, hrun⟩ := requestLoop_succeeded hloop
      exact ⟨i, m, m', hrun⟩

/-- A closed connection is never reported: nothing ends without a success before it was closed. -/
theorem closure_unreported {secondaryVsync : List U64}
    (hsecondary : it.secondaryVsync = some secondaryVsync) (hinit : net.initClient = true) {n : ℕ}
    (hclosed : ClosedFrom net.attempts n) :
    ¬ ClosureReported lib cfg it net count w ∧
      ∀ fuel r, doPipeSyncNetwork lib cfg it net count fuel w = some r →
        ∃ i < n, ∃ m m', (net.attempts i).run m = some (0, m') := by
  constructor
  · intro h
    obtain ⟨fuel, hcapture⟩ := h.capture
    exact capturePrimaryVsyncNetwork_ne_none hinit count fuel hcapture
  · intro fuel r hr
    obtain ⟨i, m, m', hrun⟩ := doPipeSyncNetwork_succeeded hsecondary hinit hr
    refine ⟨i, ?_, m, m', hrun⟩
    rw [← not_le]
    intro hi
    obtain ⟨m'', hfail⟩ := (hclosed i hi).run m
    rw [hfail] at hrun
    cases hrun

end Closure

def primaryGone : NetworkCapture :=
  ⟨true, fun _ => ⟨0, true, []⟩, Buffer.zero sizeofMsg⟩

theorem primaryGone_fails (i : ℕ) : (primaryGone.attempts i).Fails :=
  Or.inl (by decide : (0 : ℕ) ≠ sizeofMsg)

def idleLib : VsyncLib Unit := ⟨fun _ s => (0, s)⟩

def goneConfig : PipeConfig := ⟨0, 100, 0.01, 0, 0, 0.1, 0, 0, 50⟩

def goneIteration : Iteration := ⟨some [0, 16666], none, ⟨0, 0⟩, ⟨0, 0⟩, ⟨0, 0⟩, true⟩

def goneWorld : SyncWorld Unit := ⟨fun _ => ⟨0, 0, 0, ⟨0, 0⟩, 1⟩, ()⟩

theorem closure_unreported_gone :
    ¬ ClosureReported idleLib goneConfig goneIteration primaryGone 7 goneWorld ∧
      ∀ fuel r, doPipeSyncNetwork idleLib goneConfig goneIteration primaryGone 7 fuel goneWorld =
          some r → ∃ i < 0, ∃ m m', (primaryGone.attempts i).run m = some (0, m') :=
  closure_unreported idleLib goneConfig goneIteration primaryGone 7 goneWorld rfl rfl
    fun i _ => primaryGone_fails i

/-- The secondary asks a primary that is gone for ever. -/
theorem gone_never_returns :
    ¬ ClosureReported idleLib goneConfig goneIteration primaryGone 7 goneWorld := by
  intro h
  obtain ⟨fuel, r, hr, -⟩ := h.status
  obtain ⟨i, m, m', hrun⟩ := doPipeSyncNetwork_succeeded rfl rfl hr
  obtain ⟨m'', hfail⟩ := (primaryGone_fails i).run m
  rw [hfail] at hrun
  cases hrun

end Genlock.Swgenlock
