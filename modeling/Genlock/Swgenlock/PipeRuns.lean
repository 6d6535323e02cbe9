import Genlock.Swgenlock.PipeSync
import Mathlib.Data.Nat.Count

/-! # Runs of one pipe's synchronization

Counters, hysteresis and learning over whole sequences of iterations. The step
lemmas say what one iteration does to the persisted record; the invariant ties
the record to the history of the run, and the results on runs follow from it.
-/

namespace Genlock.Swgenlock

open CArith

variable {σ : Type} (lib : VsyncLib σ) (cfg : PipeConfig) (its : ℕ → Iteration)
  (start : SyncWorld σ)

/-! ## Observations on a run -/

def statsAt (k : ℕ) : PipeStats := (worldAt lib cfg its start k).stats cfg.pipe

/-- A synchronization ran in iteration `k`: the library was called. -/
def ranSync (k : ℕ) : Bool := !(resultAt lib cfg its start k).calls.isEmpty

def LastSyncBefore (k j : ℕ) : Prop :=
  j < k ∧ ranSync lib cfg its start j = true ∧
    ∀ i, j < i → i < k → ranSync lib cfg its start i = false

/-- The iterations before `k` within the threshold with no synchronization after them. -/
def withinSinceSync (deltas : ℕ → ℤ) (k : ℕ) : Finset ℕ :=
  (Finset.range k).filter fun j => beyondThreshold cfg (deltas j) = false ∧
    ∀ i ∈ Finset.range k, j < i → ranSync lib cfg its start i = false

def syncDuration (k : ℕ) : ℤ :=
  timespecToMs (its k).nowSync - timespecToMs (statsAt lib cfg its start k).lastSync

def deltaMs (delta : ℤ) : ℚ := (delta * -1) / usInMs

/-- The learning rate is on, two synchronizations came before and the time since
the end of the last one is below `time_period`. -/
def LearningDue (k : ℕ) : Prop :=
  isNotZero cfg.learningRate = true ∧ 2 ≤ Nat.count (ranSync lib cfg its start · = true) k ∧
    ∃ j, LastSyncBefore lib cfg its start k j ∧
      timespecToMs (its k).nowSync - timespecToMs (its j).syncDone < cfg.timePeriod * 1000

def MeasuredRun (deltas : ℕ → ℤ) (n : ℕ) : Prop :=
  ∀ k < n, (its k).Measures (deltas k) ∧ (its k).threadCreated = true

/-! ## One iteration -/

section Step

variable {cfg} (w : SyncWorld σ) {it : Iteration} {delta : ℤ}

theorem iteration_within (hv : cfg.ValidPipe) (hm : it.Measures delta)
    (hb : beyondThreshold cfg delta = false) :
    (doPipeSync lib cfg it w).calls = [] ∧
      (doPipeSync lib cfg it w).world.stats cfg.pipe =
        { w.stats cfg.pipe with
          outOfSync := 0, successIter := (w.stats cfg.pipe).successIter + 1 } := by
  rw [doPipeSync_of_measures hm, getPipeStats_of_valid hv]
  simp only [pipeDecision, hb, Bool.false_eq_true, if_false]
  exact ⟨trivial, saveStats_of_valid hv w _⟩

theorem iteration_skipped (hv : cfg.ValidPipe) (hm : it.Measures delta)
    (hb : beyondThreshold cfg delta = true)
    (hskip : (w.stats cfg.pipe).outOfSync + 1 < 2 ∧ (w.stats cfg.pipe).syncCount > 1) :
    (doPipeSync lib cfg it w).calls = [] ∧
      (doPipeSync lib cfg it w).world.stats cfg.pipe =
        { w.stats cfg.pipe with outOfSync := (w.stats cfg.pipe).outOfSync + 1 } := by
  rw [doPipeSync_of_measures hm, getPipeStats_of_valid hv]
  simp only [pipeDecision, hb, if_true]
  rw [if_pos hskip]
  exact ⟨rfl, saveStats_of_valid hv w _⟩

theorem iteration_synced (hv : cfg.ValidPipe) (hm : it.Measures delta)
    (ht : it.threadCreated = true) (hb : beyondThreshold cfg delta = true)
    (hsync : ¬((w.stats cfg.pipe).outOfSync + 1 < 2 ∧ (w.stats cfg.pipe).syncCount > 1)) :
    (doPipeSync lib cfg it w).calls =
        (performSynchronization lib cfg (deltaMs delta)
          (timespecToMs it.nowSync - timespecToMs (w.stats cfg.pipe).lastSync)
          (w.stats cfg.pipe).syncCount true w).calls ∧
      (doPipeSync lib cfg it w).world.stats cfg.pipe =
        { w.stats cfg.pipe with
          outOfSync := 0
          lastSync := it.syncDone
          successIter := 0
          syncCount := (w.stats cfg.pipe).syncCount + 1 } := by
  have hret := (performSynchronization_calls lib cfg (deltaMs delta)
    (timespecToMs it.nowSync - timespecToMs (w.stats cfg.pipe).lastSync)
    (w.stats cfg.pipe).syncCount w).1
  unfold deltaMs at hret ⊢
  rw [doPipeSync_of_measures hm, getPipeStats_of_valid hv]
  simp only [pipeDecision, hb, if_true, ht]
  rw [if_neg hsync, if_neg (not_not.mpr hret)]
  exact ⟨rfl, saveStats_of_valid hv _ _⟩

theorem syncCalls_ne_nil (delta : ℚ) (duration : ℤ) (syncCount : U32) :
    (performSynchronization lib cfg delta duration syncCount true w).calls ≠ [] := by
  intro h
  have := (performSynchronization_calls lib cfg delta duration syncCount w).2
  rw [h] at this
  simp at this

end Step

/-! ## The invariant -/

variable {lib cfg its start} {deltas : ℕ → ℤ}

/-- Iteration `k - 1` was beyond the threshold and did not synchronize. -/
def SkippedBefore (lib : VsyncLib σ) (cfg : PipeConfig) (its : ℕ → Iteration)
    (start : SyncWorld σ) (deltas : ℕ → ℤ) (k : ℕ) : Prop :=
  ∃ j, k = j + 1 ∧ beyondThreshold cfg (deltas j) = true ∧ ranSync lib cfg its start j = false

structure StatsInvariant (lib : VsyncLib σ) (cfg : PipeConfig) (its : ℕ → Iteration)
    (start : SyncWorld σ) (deltas : ℕ → ℤ) (k : ℕ) : Prop where
  skipped : SkippedBefore lib cfg its start deltas k → (statsAt lib cfg its start k).outOfSync = 1
  notSkipped : ¬SkippedBefore lib cfg its start deltas k →
    (statsAt lib cfg its start k).outOfSync = 0
  syncCount : (statsAt lib cfg its start k).syncCount.toNat =
    Nat.count (ranSync lib cfg its start · = true) k
  successIter : (statsAt lib cfg its start k).successIter.toNat =
    (withinSinceSync lib cfg its start deltas k).card
  lastSync : ∀ j, LastSyncBefore lib cfg its start k j →
    (statsAt lib cfg its start k).lastSync = (its j).syncDone

theorem StatsInvariant.outOfSync_le {k : ℕ} (h : StatsInvariant lib cfg its start deltas k) :
    (statsAt lib cfg its start k).outOfSync = 0 ∨ (statsAt lib cfg its start k).outOfSync = 1 := by
  by_cases hs : SkippedBefore lib cfg its start deltas k
  · exact Or.inr (h.skipped hs)
  · exact Or.inl (h.notSkipped hs)

theorem StatsInvariant.skips_iff {k : ℕ} (h : StatsInvariant lib cfg its start deltas k) :
    ((statsAt lib cfg its start k).outOfSync + 1 < 2 ∧
        (statsAt lib cfg its start k).syncCount > 1) ↔
      ¬SkippedBefore lib cfg its start deltas k ∧
        1 < Nat.count (ranSync lib cfg its start · = true) k := by
  have hcount : (statsAt lib cfg its start k).syncCount > 1 ↔
      1 < Nat.count (ranSync lib cfg its start · = true) k := by
    rw [← h.syncCount, gt_iff_lt, BitVec.lt_def]
    simp
  rw [hcount]
  by_cases hs : SkippedBefore lib cfg its start deltas k
  · rw [h.skipped hs]
    simp [hs]
  · rw [h.notSkipped hs]
    simp [hs]

/-! ### The sets of the history after one more iteration -/

theorem withinSinceSync_succ_synced {k : ℕ} (hk : ranSync lib cfg its start k = true)
    (hb : beyondThreshold cfg (deltas k) = true) :
    withinSinceSync lib cfg its start deltas (k + 1) = ∅ := by
  apply Finset.filter_eq_empty_iff.mpr
  rintro j hj ⟨hw, hi⟩
  rw [Finset.mem_range] at hj
  rcases Nat.lt_succ_iff_lt_or_eq.mp hj with hlt | rfl
  · have := hi k (Finset.mem_range.mpr (by omega)) hlt
    rw [hk] at this
    exact Bool.noConfusion this
  · rw [hb] at hw
    exact Bool.noConfusion hw

theorem withinSinceSync_succ_skipped {k : ℕ} (hk : ranSync lib cfg its start k = false)
    (hb : beyondThreshold cfg (deltas k) = true) :
    withinSinceSync lib cfg its start deltas (k + 1) = withinSinceSync lib cfg its start deltas k := by
  ext j
  simp only [withinSinceSync, Finset.mem_filter, Finset.mem_range]
  constructor
  · rintro ⟨hj, hw, hi⟩
    have hne : j ≠ k := by
      rintro rfl
      rw [hb] at hw
      exact Bool.noConfusion hw
    exact ⟨by omega, hw, fun i hik => hi i (by omega)⟩
  · rintro ⟨hj, hw, hi⟩
    refine ⟨by omega, hw, fun i hik hji => ?_⟩
    rcases Nat.lt_succ_iff_lt_or_eq.mp hik with hlt | rfl
    · exact hi i hlt hji
    · exact hk

theorem withinSinceSync_succ_within {k : ℕ} (hk : ranSync lib cfg its start k = false)
    (hb : beyondThreshold cfg (deltas k) = false) :
    withinSinceSync lib cfg its start deltas (k + 1) =
      insert k (withinSinceSync lib cfg its start deltas k) := by
  ext j
  simp only [withinSinceSync, Finset.mem_filter, Finset.mem_range, Finset.mem_insert]
  constructor
  · rintro ⟨hj, hw, hi⟩
    rcases Nat.lt_succ_iff_lt_or_eq.mp hj with hlt | rfl
    · exact Or.inr ⟨hlt, hw, fun i hik => hi i (by omega)⟩
    · exact Or.inl rfl
  · rintro (rfl | ⟨hj, hw, hi⟩)
    · exact ⟨by omega, hb, fun i hik hji => by omega⟩
    · refine ⟨by omega, hw, fun i hik hji => ?_⟩
      rcases Nat.lt_succ_iff_lt_or_eq.mp hik with hlt | rfl
      · exact hi i hlt hji
      · exact hk

theorem withinSinceSync_card_le (lib : VsyncLib σ) (cfg : PipeConfig) (its : ℕ → Iteration)
    (start : SyncWorld σ) (deltas : ℕ → ℤ) (k : ℕ) :
    (withinSinceSync lib cfg its start deltas k).card ≤ k := by
  unfold withinSinceSync
  exact (Finset.card_filter_le _ _).trans_eq (Finset.card_range k)

theorem not_mem_withinSinceSync (lib : VsyncLib σ) (cfg : PipeConfig) (its : ℕ → Iteration)
    (start : SyncWorld σ) (deltas : ℕ → ℤ) (k : ℕ) :
    k ∉ withinSinceSync lib cfg its start deltas k := by
  simp [withinSinceSync]

theorem LastSyncBefore.of_succ_not_synced {k j : ℕ} (hk : ranSync lib cfg its start k = false)
    (h : LastSyncBefore lib cfg its start (k + 1) j) : LastSyncBefore lib cfg its start k j := by
  obtain ⟨hj, hr, hi⟩ := h
  have hne : j ≠ k := by
    rintro rfl
    rw [hk] at hr
    exact Bool.noConfusion hr
  exact ⟨by omega, hr, fun i h1 h2 => hi i h1 (by omega)⟩

theorem LastSyncBefore.of_succ_synced {k j : ℕ} (hk : ranSync lib cfg its start k = true)
    (h : LastSyncBefore lib cfg its start (k + 1) j) : j = k := by
  obtain ⟨hj, _, hi⟩ := h
  by_contra hne
  have := hi k (by omega) (by omega)
  rw [hk] at this
  exact Bool.noConfusion this

/-! ### Preservation -/

theorem toNat_add_one {x : U32} {n k : ℕ} (hx : x.toNat = n) (hle : n ≤ k) (hk : k + 1 < 2 ^ 32) :
    (x + 1).toNat = n + 1 := by
  rw [BitVec.toNat_add, hx]
  exact Nat.mod_eq_of_lt (by simp; omega)

/-- Which of the three paths an iteration takes, on the history. -/
theorem StatsInvariant.ranSync_iff {k : ℕ} (h : StatsInvariant lib cfg its start deltas k)
    (hv : cfg.ValidPipe) (hm : (its k).Measures (deltas k)) (ht : (its k).threadCreated = true) :
    ranSync lib cfg its start k = true ↔
      beyondThreshold cfg (deltas k) = true ∧
        (Nat.count (ranSync lib cfg its start · = true) k ≤ 1 ∨
          SkippedBefore lib cfg its start deltas k) := by
  have hskip := h.skips_iff
  unfold statsAt at hskip
  cases hb : beyondThreshold cfg (deltas k) with
  | false =>
      have := (iteration_within lib (worldAt lib cfg its start k) hv hm hb).1
      simp [ranSync, resultAt, this]
  | true =>
      by_cases hs : ¬SkippedBefore lib cfg its start deltas k ∧
          1 < Nat.count (ranSync lib cfg its start · = true) k
      · have := (iteration_skipped lib (worldAt lib cfg its start k) hv hm hb
          (hskip.mpr hs)).1
        have hnot : ranSync lib cfg its start k = false := by simp [ranSync, resultAt, this]
        rw [hnot]
        constructor
        · exact Bool.noConfusion
        · rintro ⟨-, h1 | h1⟩
          · omega
          · exact absurd h1 hs.1
      · have := (iteration_synced lib (worldAt lib cfg its start k) hv hm ht hb
          (fun hc => hs (hskip.mp hc))).1
        have hran : ranSync lib cfg its start k = true := by
          simp only [ranSync, resultAt, this, Bool.not_eq_true', List.isEmpty_eq_false_iff]
          exact syncCalls_ne_nil _ _ _ _ _
        refine ⟨fun _ => ⟨rfl, ?_⟩, fun _ => hran⟩
        by_contra hc
        exact hs ⟨fun h1 => hc (Or.inr h1), by omega⟩

theorem StatsInvariant.step {k : ℕ} (h : StatsInvariant lib cfg its start deltas k)
    (hv : cfg.ValidPipe) (hm : (its k).Measures (deltas k)) (ht : (its k).threadCreated = true)
    (hk : k + 1 < 2 ^ 32) : StatsInvariant lib cfg its start deltas (k + 1) := by
  have hskip := h.skips_iff
  have hiff := h.ranSync_iff hv hm ht
  have hcountle : Nat.count (ranSync lib cfg its start · = true) k ≤ k :=
    Nat.count_le _
  have hcard := withinSinceSync_card_le lib cfg its start deltas k
  have hsucc : statsAt lib cfg its start (k + 1) =
      (doPipeSync lib cfg (its k) (worldAt lib cfg its start k)).world.stats cfg.pipe := rfl
  cases hb : beyondThreshold cfg (deltas k) with
  | false =>
      have hran : ranSync lib cfg its start k = false := by
        rw [← Bool.not_eq_true, hiff, hb]; simp
      have hstats := (iteration_within lib (worldAt lib cfg its start k) hv hm hb).2
      rw [← hsucc] at hstats
      have hnot : ¬SkippedBefore lib cfg its start deltas (k + 1) := by
        rintro ⟨j, hj, hbj, -⟩
        obtain rfl : k = j := by omega
        rw [hb] at hbj
        exact Bool.noConfusion hbj
      refine ⟨fun hs => absurd hs hnot, fun _ => by rw [hstats], ?_, ?_, ?_⟩
      · rw [hstats, Nat.count_succ, hran]
        simpa [statsAt] using h.syncCount
      · rw [hstats, withinSinceSync_succ_within hran hb,
          Finset.card_insert_of_notMem (not_mem_withinSinceSync lib cfg its start deltas k)]
        exact toNat_add_one h.successIter hcard hk
      · intro j hj
        rw [hstats]
        exact h.lastSync j (hj.of_succ_not_synced hran)
  | true =>
      by_cases hs : ¬SkippedBefore lib cfg its start deltas k ∧
          1 < Nat.count (ranSync lib cfg its start · = true) k
      · have hran : ranSync lib cfg its start k = false := by
          rw [← Bool.not_eq_true, hiff]
          rintro ⟨-, h1 | h1⟩
          · omega
          · exact hs.1 h1
        have hstats := (iteration_skipped lib (worldAt lib cfg its start k) hv hm hb
          (hskip.mpr hs)).2
        rw [← hsucc] at hstats
        have hyes : SkippedBefore lib cfg its start deltas (k + 1) := ⟨k, rfl, hb, hran⟩
        refine ⟨fun _ => ?_, fun hn => absurd hyes hn, ?_, ?_, ?_⟩
        · rw [hstats]
          have h0 := h.notSkipped hs.1
          unfold statsAt at h0
          simp [h0]
        · rw [hstats, Nat.count_succ, hran]
          simpa [statsAt] using h.syncCount
        · rw [hstats, withinSinceSync_succ_skipped hran hb]
          exact h.successIter
        · intro j hj
          rw [hstats]
          exact h.lastSync j (hj.of_succ_not_synced hran)
      · have hran : ranSync lib cfg its start k = true := by
          rw [hiff]
          refine ⟨hb, ?_⟩
          by_contra hc
          exact hs ⟨fun h1 => hc (Or.inr h1), by omega⟩
        have hstats := (iteration_synced lib (worldAt lib cfg its start k) hv hm ht hb
          (fun hc => hs (hskip.mp hc))).2
        rw [← hsucc] at hstats
        have hnot : ¬SkippedBefore lib cfg its start deltas (k + 1) := by
          rintro ⟨j, hj, -, hrj⟩
          obtain rfl : k = j := by omega
          rw [hran] at hrj
          exact Bool.noConfusion hrj
        refine ⟨fun hs' => absurd hs' hnot, fun _ => by rw [hstats], ?_, ?_, ?_⟩
        · rw [hstats, Nat.count_succ, hran]
          simpa [statsAt] using toNat_add_one h.syncCount hcountle hk
        · rw [hstats, withinSinceSync_succ_synced hran hb]
          simp
        · intro j hj
          rw [hstats, hj.of_succ_synced hran]

/-- `reset_pipe_stats` establishes the invariant. -/
theorem statsInvariant_zero (hv : cfg.ValidPipe) {table : PipeTable} {t0 : Timespec}
    (hstart : start.stats = resetPipeStats table cfg.pipe t0) :
    StatsInvariant lib cfg its start deltas 0 := by
  have hs : statsAt lib cfg its start 0 = ⟨0, 0, 0, t0, 1⟩ := by
    obtain ⟨h0, h3⟩ := hv
    unfold statsAt worldAt
    rw [hstart]
    unfold resetPipeStats
    rw [if_neg (by omega)]
    simp
  refine ⟨?_, fun _ => by rw [hs], by rw [hs]; simp, by rw [hs]; simp [withinSinceSync], ?_⟩
  · rintro ⟨j, hj, -⟩
    omega
  · rintro j ⟨hj, -⟩
    omega

theorem statsInvariant_run (hv : cfg.ValidPipe) {table : PipeTable} {t0 : Timespec}
    (hstart : start.stats = resetPipeStats table cfg.pipe t0) {n : ℕ} (hn : n < 2 ^ 32)
    (hrun : MeasuredRun its deltas n) {k : ℕ} (hk : k ≤ n) :
    StatsInvariant lib cfg its start deltas k := by
  induction k with
  | zero => exact statsInvariant_zero hv hstart
  | succ k ih =>
      obtain ⟨hm, ht⟩ := hrun k (by omega)
      exact (ih (by omega)).step hv hm ht (by omega)

/-! ## Learning and the calls of a synchronization -/

theorem exists_lastSyncBefore {k : ℕ} (h : 0 < Nat.count (ranSync lib cfg its start · = true) k) :
    ∃ j, LastSyncBefore lib cfg its start k j := by
  induction k with
  | zero => simp at h
  | succ k ih =>
      cases hk : ranSync lib cfg its start k with
      | true => exact ⟨k, by omega, hk, fun i h1 h2 => by omega⟩
      | false =>
          rw [Nat.count_succ, hk] at h
          obtain ⟨j, hj, hr, hi⟩ := ih (by simpa using h)
          refine ⟨j, by omega, hr, fun i h1 h2 => ?_⟩
          rcases Nat.lt_succ_iff_lt_or_eq.mp h2 with hlt | rfl
          · exact hi i h1 hlt
          · exact hk

theorem LastSyncBefore.unique {k i j : ℕ} (hi : LastSyncBefore lib cfg its start k i)
    (hj : LastSyncBefore lib cfg its start k j) : i = j := by
  obtain ⟨hik, hri, hai⟩ := hi
  obtain ⟨hjk, hrj, haj⟩ := hj
  rcases lt_trichotomy i j with h | h | h
  · rw [hai j h hjk] at hrj
    exact Bool.noConfusion hrj
  · exact h
  · rw [haj i h hik] at hri
    exact Bool.noConfusion hri

/-- The learning test of the source, read on the history. -/
theorem StatsInvariant.appliesLearning_iff {k : ℕ}
    (h : StatsInvariant lib cfg its start deltas k) :
    appliesLearning cfg (syncDuration lib cfg its start k)
        (statsAt lib cfg its start k).syncCount = true ↔
      LearningDue lib cfg its start k := by
  have hcount : (statsAt lib cfg its start k).syncCount > 1 ↔
      2 ≤ Nat.count (ranSync lib cfg its start · = true) k := by
    rw [← h.syncCount, gt_iff_lt, BitVec.lt_def]
    simp [Nat.succ_le_iff]
  simp only [appliesLearning, LearningDue, Bool.and_eq_true, decide_eq_true_eq, hcount, and_assoc,
    trunc_timePeriod]
  refine and_congr_right fun _ => and_congr_right fun htwo => ?_
  obtain ⟨j, hj⟩ : ∃ j, LastSyncBefore lib cfg its start k j :=
    exists_lastSyncBefore (by omega)
  unfold syncDuration
  rw [h.lastSync j hj]
  constructor
  · intro hlt
    exact ⟨j, hj, hlt⟩
  · rintro ⟨i, hi, hlt⟩
    rwa [hi.unique hj] at hlt

theorem appliesOvershoot_of_learning {duration : ℤ} {syncCount : U32}
    (h : appliesLearning cfg duration syncCount = true) : appliesOvershoot cfg duration = false := by
  simp only [appliesLearning, Bool.and_eq_true, decide_eq_true_eq, trunc_timePeriod] at h
  obtain ⟨⟨hrate, -⟩, hlt⟩ := h
  simp only [appliesOvershoot, hrate, trunc_usInMs, Bool.not_true, Bool.false_or,
    decide_eq_false_iff_not]
  omega

theorem calls_of_ranSync {k : ℕ} (hv : cfg.ValidPipe) (hm : (its k).Measures (deltas k))
    (ht : (its k).threadCreated = true) (hr : ranSync lib cfg its start k = true) :
    (resultAt lib cfg its start k).calls =
      (performSynchronization lib cfg (deltaMs (deltas k)) (syncDuration lib cfg its start k)
        (statsAt lib cfg its start k).syncCount true (worldAt lib cfg its start k)).calls := by
  have hne : (doPipeSync lib cfg (its k) (worldAt lib cfg its start k)).calls ≠ [] := by
    simpa [ranSync, resultAt] using hr
  cases hb : beyondThreshold cfg (deltas k) with
  | false => exact absurd (iteration_within lib _ hv hm hb).1 hne
  | true =>
      by_cases hskip : ((worldAt lib cfg its start k).stats cfg.pipe).outOfSync + 1 < 2 ∧
          ((worldAt lib cfg its start k).stats cfg.pipe).syncCount > 1
      · exact absurd (iteration_skipped lib _ hv hm hb hskip).1 hne
      · exact (iteration_synced lib _ hv hm ht hb hskip).1

/-! ## Runs from `reset_pipe_stats` -/

/-- Counters, hysteresis and learning of every run shorter than the counters' range. -/
theorem pipe_run_from_reset (lib : VsyncLib σ) (cfg : PipeConfig) (its : ℕ → Iteration)
    (start : SyncWorld σ) (table : PipeTable) (t0 : Timespec) (deltas : ℕ → ℤ) (n : ℕ)
    (hv : cfg.ValidPipe) (hstart : start.stats = resetPipeStats table cfg.pipe t0)
    (hn : n < 2 ^ 32) (hrun : MeasuredRun its deltas n) :
    (∀ k ≤ n,
      ((statsAt lib cfg its start k).outOfSync = 0 ∨ (statsAt lib cfg its start k).outOfSync = 1) ∧
      (statsAt lib cfg its start k).syncCount.toNat =
        Nat.count (ranSync lib cfg its start · = true) k ∧
      (statsAt lib cfg its start k).successIter.toNat =
        (withinSinceSync lib cfg its start deltas k).card) ∧
    (∀ k < n,
      (ranSync lib cfg its start k = true ↔
        (cfg.syncThresholdUs ≠ 0 ∧ |deltas k| > cfg.syncThresholdUs) ∧
          (Nat.count (ranSync lib cfg its start · = true) k ≤ 1 ∨
            SkippedBefore lib cfg its start deltas k)) ∧
      (ranSync lib cfg its start k = true →
        ((resultAt lib cfg its start k).calls.map SyncCall.request).head? =
            some (syncRequest cfg (deltaMs (deltas k)) (syncDuration lib cfg its start k)) ∧
          (LearningDue lib cfg its start k →
            ((resultAt lib cfg its start k).calls.map SyncCall.request).tail =
                [learningRequest cfg (deltaMs (deltas k))] ∧
              appliesOvershoot cfg (syncDuration lib cfg its start k) = false ∧
              (syncRequest cfg (deltaMs (deltas k)) (syncDuration lib cfg its start k)).timeDiff =
                deltaMs (deltas k)) ∧
          (¬LearningDue lib cfg its start k →
            ((resultAt lib cfg its start k).calls.map SyncCall.request).tail = []))) := by
  constructor
  · intro k hk
    have h : StatsInvariant lib cfg its start deltas k := statsInvariant_run hv hstart hn hrun hk
    exact ⟨h.outOfSync_le, h.syncCount, h.successIter⟩
  · intro k hk
    obtain ⟨hm, ht⟩ := hrun k hk
    have h : StatsInvariant lib cfg its start deltas k :=
      statsInvariant_run hv hstart hn hrun (by omega)
    refine ⟨?_, fun hr => ?_⟩
    · rw [h.ranSync_iff hv hm ht]
      simp [beyondThreshold]
    · rw [calls_of_ranSync hv hm ht hr, (performSynchronization_calls _ _ _ _ _ _).2]
      refine ⟨rfl, fun hdue => ?_, fun hdue => ?_⟩
      · have happly := h.appliesLearning_iff.mpr hdue
        have hover := appliesOvershoot_of_learning happly
        rw [if_pos happly]
        refine ⟨rfl, hover, ?_⟩
        simp only [syncRequest, adjustedDeltaMs, hover, Bool.false_eq_true, if_false]
      · rw [if_neg (fun happly => hdue (h.appliesLearning_iff.mp happly))]
        rfl

/-- A secondary that is 5 ms late at every measurement, one each 10 s. -/
def lateIteration (k : ℕ) : Iteration :=
  ⟨some [5000, 21666], some [0, 16666, 33332], ⟨10 * k, 0⟩, ⟨10 * k, 0⟩, ⟨10 * k + 2, 0⟩, true⟩

theorem lateIteration_measures (k : ℕ) : (lateIteration k).Measures 5000 :=
  ⟨_, _, rfl, rfl, by decide⟩

/-- Such a secondary is corrected at once and once more; after two further measurements it is
corrected by 5 ms and learnt from. -/
theorem pipe_run_from_reset_learning :
    let cfg : PipeConfig := ⟨0, 1000, 1 / 100, 60, 1 / 10, 0, 1 / 2, 1000, 50⟩
    let lib : VsyncLib Unit := ⟨fun _ s => (0, s)⟩
    let start : SyncWorld Unit := ⟨resetPipeStats (fun _ => ⟨0, 0, 0, ⟨0, 0⟩, 0⟩) 0 ⟨0, 0⟩, ()⟩
    LearningDue lib cfg lateIteration start 3 ∧
      (statsAt lib cfg lateIteration start 3).syncCount.toNat = 2 ∧
      ∃ duration, (syncRequest cfg (-5) duration).timeDiff = -5 ∧
        (resultAt lib cfg lateIteration start 3).calls.map SyncCall.request =
          [syncRequest cfg (-5) duration, learningRequest cfg (-5)] := by
  intro cfg lib start
  have h := pipe_run_from_reset lib cfg lateIteration start (fun _ => ⟨0, 0, 0, ⟨0, 0⟩, 0⟩) ⟨0, 0⟩
    (fun _ => 5000) 4 ⟨le_refl 0, by norm_num [cfg]⟩ rfl (by norm_num)
    (fun k _ => ⟨lateIteration_measures k, rfl⟩)
  have hsynced : ranSync lib cfg lateIteration start 1 = true ∧
      ranSync lib cfg lateIteration start 2 = false ∧
      ranSync lib cfg lateIteration start 3 = true := by
    decide +kernel
  have hcount : Nat.count (ranSync lib cfg lateIteration start · = true) 3 = 2 := by
    decide +kernel
  have hdue : LearningDue lib cfg lateIteration start 3 := by
    refine ⟨by decide +kernel, hcount.ge, 1, ⟨by norm_num, hsynced.1, fun i h1 h2 => ?_⟩, by decide⟩
    obtain rfl : i = 2 := by omega
    exact hsynced.2.1
  obtain ⟨hhead, hlearning, -⟩ := (h.2 3 (by norm_num)).2 hsynced.2.2
  obtain ⟨htail, -, hplain⟩ := hlearning hdue
  have hdelta : deltaMs 5000 = -5 := by norm_num [deltaMs, usInMs]
  rw [hdelta] at hhead htail hplain
  refine ⟨hdue, (h.1 3 (by norm_num)).2.1.trans hcount, _, hplain, ?_⟩
  rw [List.head?_eq_some_iff] at hhead
  obtain ⟨rest, hrest⟩ := hhead
  rw [hrest] at htail ⊢
  exact congrArg _ htail

end Genlock.Swgenlock
