import Genlock.Swgenlock.PipeRuns

/-! # What the counters record

The status of `synchronize_vsync` does not reach the counters: an iteration that
triggers a synchronization records it. The record is right exactly in those runs
in which every triggered correction is one that the library carries out.
-/

namespace Genlock.Swgenlock

open Vsyncalter

variable {σ : Type}

def vsyncLib (lib : Library (StateM σ)) : VsyncLib σ :=
  ⟨fun r s => (synchronizeVsync lib r).run s⟩

/-- The counters show a completed synchronization: `sync_count` moved, or
`success_iter` did other than count one iteration. -/
def RecordsSync (before after : PipeStats) : Prop :=
  after.syncCount ≠ before.syncCount ∨
    (after.successIter ≠ before.successIter ∧ after.successIter ≠ before.successIter + 1)

def Corrected (r : IterResult σ) : Prop :=
  ∃ call, r.calls.head? = some call ∧ call.request.Accepted ∧ call.status = 0

/-- The iteration gets as far as the library call, with these counters. -/
def TriggersSync (cfg : PipeConfig) (it : Iteration) (delta : ℤ) (stats : PipeStats) : Prop :=
  it.Measures delta ∧ beyondThreshold cfg delta = true ∧
    ¬(stats.outOfSync + 1 < 2 ∧ stats.syncCount > 1) ∧ it.threadCreated = true

def correctionOf (cfg : PipeConfig) (it : Iteration) (delta : ℤ) (stats : PipeStats) : SyncRequest :=
  syncRequest cfg (deltaMs delta) (timespecToMs it.nowSync - timespecToMs stats.lastSync)

/-! ## One iteration -/

section Step

variable (lib : VsyncLib σ) {cfg : PipeConfig} (w : SyncWorld σ) {it : Iteration} {delta : ℤ}

theorem Iteration.Measures.unique {it : Iteration} {delta delta' : ℤ} (h : it.Measures delta)
    (h' : it.Measures delta') : delta = delta' := by
  obtain ⟨p, s, hp, hs, hd⟩ := h
  obtain ⟨p', s', hp', hs', hd'⟩ := h'
  obtain rfl : p = p' := Option.some.inj (hp.symm.trans hp')
  obtain rfl : s = s' := Option.some.inj (hs.symm.trans hs')
  exact Except.ok.inj (hd.symm.trans hd')

/-- Failed captures, clocks too far apart and a zero average leave the counters alone. -/
theorem iteration_unmeasured (h : ∀ delta, ¬it.Measures delta) :
    (doPipeSync lib cfg it w).calls = [] ∧ (doPipeSync lib cfg it w).world = w := by
  unfold doPipeSync
  cases hs : it.secondaryVsync with
  | none => exact ⟨rfl, rfl⟩
  | some s =>
      cases hp : it.primaryVsync with
      | none => exact ⟨rfl, rfl⟩
      | some p =>
          cases hd : pipeDelta p s with
          | error e => cases e <;> simp only [hd, and_self]
          | ok delta => exact absurd ⟨p, s, hp, hs, hd⟩ (h delta)

theorem iteration_no_thread (hv : cfg.ValidPipe) (hm : it.Measures delta)
    (ht : it.threadCreated = false) (hb : beyondThreshold cfg delta = true)
    (hsync : ¬((w.stats cfg.pipe).outOfSync + 1 < 2 ∧ (w.stats cfg.pipe).syncCount > 1)) :
    (doPipeSync lib cfg it w).world.stats cfg.pipe =
      { w.stats cfg.pipe with outOfSync := 0, lastSync := it.nowSync } := by
  rw [doPipeSync_of_measures hm, getPipeStats_of_valid hv]
  simp only [pipeDecision, hb, if_true, ht, performSynchronization_no_thread]
  rw [if_neg hsync]
  exact saveStats_of_valid hv _ _

theorem not_recordsSync {before after : PipeStats} (hcount : after.syncCount = before.syncCount)
    (hiter : after.successIter = before.successIter ∨ after.successIter = before.successIter + 1) :
    ¬RecordsSync before after := by
  rintro (h | ⟨h1, h2⟩)
  · exact h hcount
  · exact hiter.elim h1 h2

/-- An iteration records a synchronization exactly if it triggers one. -/
theorem recordsSync_iff (hv : cfg.ValidPipe) :
    RecordsSync (w.stats cfg.pipe) ((doPipeSync lib cfg it w).world.stats cfg.pipe) ↔
      ∃ delta, TriggersSync cfg it delta (w.stats cfg.pipe) := by
  constructor
  · intro hrec
    by_contra hno
    refine absurd hrec ?_
    by_cases hm : ∃ delta, it.Measures delta
    · obtain ⟨delta, hm⟩ := hm
      cases hb : beyondThreshold cfg delta with
      | false =>
          rw [(iteration_within lib w hv hm hb).2]
          exact not_recordsSync rfl (Or.inr rfl)
      | true =>
          by_cases hskip : (w.stats cfg.pipe).outOfSync + 1 < 2 ∧ (w.stats cfg.pipe).syncCount > 1
          · rw [(iteration_skipped lib w hv hm hb hskip).2]
            exact not_recordsSync rfl (Or.inl rfl)
          · cases ht : it.threadCreated with
            | true => exact absurd ⟨delta, hm, hb, hskip, ht⟩ hno
            | false =>
                rw [iteration_no_thread lib w hv hm ht hb hskip]
                exact not_recordsSync rfl (Or.inl rfl)
    · push Not at hm
      rw [(iteration_unmeasured lib w hm).2]
      exact not_recordsSync rfl (Or.inl rfl)
  · rintro ⟨delta, hm, hb, hskip, ht⟩
    rw [(iteration_synced lib w hv hm ht hb hskip).2]
    left
    intro h
    exact absurd (BitVec.self_eq_add_right.mp h.symm) (by decide)

theorem head_call (hv : cfg.ValidPipe) (h : TriggersSync cfg it delta (w.stats cfg.pipe)) :
    (doPipeSync lib cfg it w).calls.head? =
      some ⟨correctionOf cfg it delta (w.stats cfg.pipe),
        (lib.synchronizeVsync (correctionOf cfg it delta (w.stats cfg.pipe)) w.lib).1⟩ := by
  obtain ⟨hm, hb, hskip, ht⟩ := h
  rw [(iteration_synced lib w hv hm ht hb hskip).1]
  exact performSynchronization_head _ _ _ _

end Step

theorem corrected_iff (lib : Library (StateM σ)) {cfg : PipeConfig} (w : SyncWorld σ)
    {it : Iteration} {delta : ℤ} (hv : cfg.ValidPipe)
    (h : TriggersSync cfg it delta (w.stats cfg.pipe)) :
    Corrected (doPipeSync (vsyncLib lib) cfg it w) ↔
      lib.Synchronizes (correctionOf cfg it delta (w.stats cfg.pipe)) w.lib := by
  unfold Corrected
  rw [head_call (vsyncLib lib) w hv h]
  simp only [Option.some.injEq, exists_eq_left', ← synchronizeVsync_eq_zero_iff]
  exact and_iff_right_of_imp fun h0 => ((synchronizeVsync_eq_zero_iff _ _ _).mp h0).2.1

/-! ## Runs -/

/-- In the first `n` iterations only corrections that the library carried out are
recorded as synchronizations. -/
def RecordsOnlyCorrections (lib : Library (StateM σ)) (cfg : PipeConfig) (its : ℕ → Iteration)
    (start : SyncWorld σ) (n : ℕ) : Prop :=
  ∀ k < n, RecordsSync (statsAt (vsyncLib lib) cfg its start k)
      (statsAt (vsyncLib lib) cfg its start (k + 1)) →
    Corrected (resultAt (vsyncLib lib) cfg its start k)

def readyLibrary : Library (StateM Unit) :=
  ⟨true, some [⟨0, fun _ => pure 0, pure (), fun _ _ _ => pure 0, pure 0⟩]⟩

/-- Threshold 1 ms, no learning, overshoot ratio one half. -/
def overshootConfig : PipeConfig := ⟨0, 1000, 1 / 100, 60, 0, 0, 1 / 2, 1000, 50⟩

/-- A secondary at 24 Hz that is 15 ms early. -/
def earlyIteration : Iteration :=
  ⟨some [0, 41666], some [15000, 56666, 98332], ⟨10, 0⟩, ⟨10, 0⟩, ⟨12, 0⟩, true⟩

theorem earlyIteration_measures : earlyIteration.Measures (-15000) :=
  ⟨_, _, rfl, rfl, by with_unfolding_all decide⟩

def resetWorld : SyncWorld Unit :=
  ⟨resetPipeStats (fun _ => ⟨0, 0, 0, ⟨0, 0⟩, 0⟩) 0 ⟨0, 0⟩, ()⟩

theorem overshootConfig_validPipe : overshootConfig.ValidPipe :=
  ⟨le_refl 0, by norm_num [overshootConfig]⟩

/-- 15 ms with the overshoot is a request of 22.5 ms, which the library rejects;
the counters record it all the same. -/
theorem overshot_request_recorded :
    ¬RecordsOnlyCorrections readyLibrary overshootConfig (fun _ => earlyIteration) resetWorld 1 := by
  have htrig : TriggersSync overshootConfig earlyIteration (-15000)
      (resetWorld.stats overshootConfig.pipe) :=
    ⟨earlyIteration_measures, by with_unfolding_all decide, by with_unfolding_all decide, rfl⟩
  intro h
  have hcorrected := h 0 (by norm_num)
    ((recordsSync_iff _ _ overshootConfig_validPipe).mpr ⟨-15000, htrig⟩)
  obtain ⟨-, haccepted, -⟩ :=
    (corrected_iff readyLibrary resetWorld overshootConfig_validPipe htrig).mp hcorrected
  exact absurd haccepted (by with_unfolding_all decide)

/-- The counters of a run are right exactly if the library can carry out every
correction that the run triggers. -/
theorem recordsOnlyCorrections_iff (lib : Library (StateM σ)) (cfg : PipeConfig)
    (its : ℕ → Iteration) (start : SyncWorld σ) (n : ℕ) (hv : cfg.ValidPipe) :
    RecordsOnlyCorrections lib cfg its start n ↔
      ∀ k < n, ∀ delta, TriggersSync cfg (its k) delta (statsAt (vsyncLib lib) cfg its start k) →
        lib.Synchronizes
          (correctionOf cfg (its k) delta (statsAt (vsyncLib lib) cfg its start k))
          (worldAt (vsyncLib lib) cfg its start k).lib := by
  refine forall₂_congr fun k _ => ?_
  have hrec : _ ↔ ∃ delta, TriggersSync cfg (its k) delta _ :=
    recordsSync_iff (vsyncLib lib) (worldAt (vsyncLib lib) cfg its start k) hv
  constructor
  · intro h delta htrig
    exact (corrected_iff lib _ hv htrig).mp (h (hrec.mpr ⟨delta, htrig⟩))
  · intro h hrecords
    obtain ⟨delta, htrig⟩ := hrec.mp hrecords
    exact (corrected_iff lib _ hv htrig).mpr (h delta htrig)

theorem recordsOnlyCorrections_iff_early :
    RecordsOnlyCorrections readyLibrary overshootConfig (fun _ => earlyIteration) resetWorld 1 ↔
      ∀ k < 1, ∀ delta, TriggersSync overshootConfig earlyIteration delta
          (statsAt (vsyncLib readyLibrary) overshootConfig (fun _ => earlyIteration) resetWorld k) →
        readyLibrary.Synchronizes (correctionOf overshootConfig earlyIteration delta
          (statsAt (vsyncLib readyLibrary) overshootConfig (fun _ => earlyIteration) resetWorld k))
          () :=
  recordsOnlyCorrections_iff readyLibrary overshootConfig (fun _ => earlyIteration) resetWorld 1
    overshootConfig_validPipe

end Genlock.Swgenlock
