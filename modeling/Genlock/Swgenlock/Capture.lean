import Genlock.Os.Vblank

/-! # The callers of `get_vsync`

The start-up check of `main`, the collector thread, the capture of `do_pipe_sync` and
`get_vblank_interval`: what each asks for and which entries of its array it uses after
the call. The arrays are on the stack and not initialised.
-/

namespace Genlock.Swgenlock

open Os

def vsyncMaxTimestamps : ℤ := 100

def getVsync (deviceStr : Option String) (size : ℤ) (hardwareTs : Bool) (env : VsyncEnv) : ℤ × VblInfo :=
  if size > vsyncMaxTimestamps then (1, ⟨size, 0, hardwareTs, []⟩)
  else osGetVsync deviceStr true size hardwareTs env

/-- A caller with its own arguments; `clockOk` is whether `os_clock_gettime` succeeds. -/
inductive VsyncCaller where
  | startupCheck (clockOk : Bool)
  | collector
  | pipeSync (timestamps : ℤ)
  | vblankInterval (size : ℤ)
deriving DecidableEq, Repr

namespace VsyncCaller

/-- The number of timestamps asked for; `none` if the caller returns before the call. -/
def request : VsyncCaller → Option ℤ
  | startupCheck _ => some 1
  | collector => some 1
  | pipeSync timestamps => if timestamps > vsyncMaxTimestamps then none else some timestamps
  | vblankInterval size => if size > vsyncMaxTimestamps ∨ size < 2 then none else some size

/-- The entries used after a call that returned `ret`. The start-up check looks for a
return value of -1. -/
def uses (ret : ℤ) : VsyncCaller → List ℕ
  | startupCheck clockOk => if ret = -1 then [] else if clockOk then [0] else []
  | collector => if ret = 0 then [0] else []
  | pipeSync timestamps => if ret ≠ 0 then [] else List.range timestamps.toNat
  | vblankInterval size => if ret = 0 then
      (List.range (size - 1).toNat).flatMap fun i => [i + 1, i] else []

def UsesWritten (c : VsyncCaller) (deviceStr : Option String) (hardwareTs : Bool) (env : VsyncEnv) :
    Prop :=
  ∀ size, c.request = some size → ∀ i ∈ c.uses (getVsync deviceStr size hardwareTs env).1,
    i ∈ (getVsync deviceStr size hardwareTs env).2.writes.map Prod.fst

/-- The handler is called often enough for what the caller goes on with. -/
def EnoughEvents (c : VsyncCaller) (deviceStr : Option String) (env : VsyncEnv) : Prop :=
  ∀ size, c.request = some size →
    match c with
    | startupCheck clockOk => clockOk = true → 1 ≤ (delivered deviceStr true size env).length
    | _ => Completes deviceStr true size env → size.toNat ≤ (delivered deviceStr true size env).length

variable {c : VsyncCaller} {deviceStr : Option String} {size : ℤ} {hardwareTs : Bool} {env : VsyncEnv}

theorem request_le (h : c.request = some size) : size ≤ vsyncMaxTimestamps := by
  cases c with
  | startupCheck clockOk =>
      obtain rfl := Option.some.inj h
      decide
  | collector =>
      obtain rfl := Option.some.inj h
      decide
  | pipeSync timestamps =>
      replace h : (if timestamps > vsyncMaxTimestamps then none else some timestamps) = some size := h
      split at h
      · exact absurd h (by simp)
      · obtain rfl := Option.some.inj h
        omega
  | vblankInterval n =>
      replace h : (if n > vsyncMaxTimestamps ∨ n < 2 then none else some n) = some size := h
      split at h
      · exact absurd h (by simp)
      · obtain rfl := Option.some.inj h
        omega

theorem getVsync_of_request (h : c.request = some size) :
    getVsync deviceStr size hardwareTs env = osGetVsync deviceStr true size hardwareTs env := by
  have hle := request_le h
  exact if_neg (by omega)

/-- Every entry of a non-empty range is used: enough events are needed exactly then. -/
theorem forall_lt_iff {n m : ℕ} (hn : 0 < n) (l : List ℕ) (hl : ∀ i, i ∈ l ↔ i < n) :
    (∀ i ∈ l, i < m ∧ i < n) ↔ n ≤ m := by
  constructor
  · intro h
    have hlast := (h (n - 1) ((hl _).mpr (by omega))).1
    omega
  · intro h i hi
    have hlt := (hl i).mp hi
    omega

theorem mem_intervals_iff {n : ℕ} (hn : 2 ≤ n) (i : ℕ) :
    i ∈ (List.range (n - 1)).flatMap (fun i => [i + 1, i]) ↔ i < n := by
  rw [List.mem_flatMap]
  constructor
  · intro ⟨j, hj, hi⟩
    rw [List.mem_range] at hj
    simp only [List.mem_cons, List.not_mem_nil, or_false] at hi
    omega
  · intro hi
    cases i with
    | zero => exact ⟨0, List.mem_range.mpr (by omega), by simp⟩
    | succ i => exact ⟨i, List.mem_range.mpr (by omega), by simp⟩

/-- The callers that go on after a return value of 0 only use every entry they asked
for. -/
theorem usesWritten_of_return (h : c.request = some size)
    (huses : ∀ ret i, i ∈ c.uses ret ↔ ret = 0 ∧ i < size.toNat) :
    (∀ i ∈ c.uses (getVsync deviceStr size hardwareTs env).1,
      i ∈ (getVsync deviceStr size hardwareTs env).2.writes.map Prod.fst) ↔
      (Completes deviceStr true size env → size.toNat ≤ (delivered deviceStr true size env).length) := by
  rw [getVsync_of_request h]
  obtain ⟨hfill, -, hret⟩ := osGetVsync_spec deviceStr true size hardwareTs env
  constructor
  · intro hall hdone
    have hpos : 0 < size := hdone.1.2.2.1
    apply (forall_lt_iff (by omega) (List.range size.toNat) fun i => List.mem_range).mp
    intro i hi
    exact (mem_indices_iff hfill).mp (hall i ((huses _ i).mpr ⟨hret.mpr hdone, List.mem_range.mp hi⟩))
  · intro henough i hi
    obtain ⟨hzero, hlt⟩ := (huses _ i).mp hi
    have hle := henough (hret.mp hzero)
    exact (mem_indices_iff hfill).mpr ⟨by omega, hlt⟩

theorem usesWritten_iff (c : VsyncCaller) (deviceStr : Option String) (hardwareTs : Bool)
    (env : VsyncEnv) : c.UsesWritten deviceStr hardwareTs env ↔ c.EnoughEvents deviceStr env := by
  unfold UsesWritten EnoughEvents
  apply forall₂_congr
  intro size h
  cases c with
  | startupCheck clockOk =>
      obtain rfl := Option.some.inj h
      rw [getVsync_of_request h]
      obtain ⟨hfill, hret, -⟩ := osGetVsync_spec deviceStr true 1 hardwareTs env
      have huses : (startupCheck clockOk).uses (osGetVsync deviceStr true 1 hardwareTs env).1 =
          if clockOk then [0] else [] := if_neg (by omega)
      rw [huses]
      cases clockOk with
      | false => simp
      | true =>
          simp only [if_true, List.mem_singleton, forall_eq, true_imp_iff, mem_indices_iff hfill]
          omega
  | collector =>
      apply usesWritten_of_return h
      intro ret i
      obtain rfl := Option.some.inj h
      by_cases hret : ret = 0 <;> simp [uses, hret]
  | pipeSync timestamps =>
      apply usesWritten_of_return h
      intro ret i
      replace h : (if timestamps > vsyncMaxTimestamps then none else some timestamps) = some size := h
      split at h
      · exact absurd h (by simp)
      · obtain rfl := Option.some.inj h
        by_cases hret : ret = 0 <;> simp [uses, hret]
  | vblankInterval n =>
      apply usesWritten_of_return h
      intro ret i
      replace h : (if n > vsyncMaxTimestamps ∨ n < 2 then none else some n) = some size := h
      split at h
      · exact absurd h (by simp)
      · rename_i hn
        rw [not_or] at hn
        obtain rfl := Option.some.inj h
        by_cases hret : ret = 0
        · have hsub : (n - 1).toNat = n.toNat - 1 := by omega
          rw [uses, if_pos hret, hsub, mem_intervals_iff (by omega), and_iff_right hret]
        · simp [uses, hret]

end VsyncCaller

/-- A call of `os_get_vsync` and a caller use timestamps from the handler only, exactly
if the handler is called often enough. -/
theorem vsync_entries_iff (deviceStr : Option String) (hasArray : Bool) (size : ℤ) (hardwareTs : Bool)
    (env : VsyncEnv) (c : VsyncCaller) :
    (Delivers size hardwareTs (delivered deviceStr hasArray size env)
        (osGetVsync deviceStr hasArray size hardwareTs env) ∧
      c.UsesWritten deviceStr hardwareTs env) ↔
      (Completes deviceStr hasArray size env →
        size.toNat ≤ (delivered deviceStr hasArray size env).length) ∧
      c.EnoughEvents deviceStr env :=
  and_congr delivers_iff (c.usesWritten_iff deviceStr hardwareTs env)

def timedOut : VsyncEnv := ⟨3, 0, fun _ => ⟨0, [], 0⟩⟩

/-- The collector stores and the start-up check compares a timestamp that nobody
wrote, and the call reports success. -/
theorem timeout_reports_success :
    ¬Delivers 1 false (delivered (some "/dev/dri/card0") true 1 timedOut)
        (osGetVsync (some "/dev/dri/card0") true 1 false timedOut) ∧
      ¬VsyncCaller.collector.UsesWritten (some "/dev/dri/card0") false timedOut ∧
      ¬(VsyncCaller.startupCheck true).UsesWritten (some "/dev/dri/card0") false timedOut := by
  refine ⟨fun h => ?_, fun h => ?_, fun h => ?_⟩
  · exact absurd (h rfl).1 (by decide)
  · exact absurd (h 1 rfl 0 (by decide)) (by decide)
  · exact absurd (h 1 rfl 0 (by decide)) (by decide)

end Genlock.Swgenlock
