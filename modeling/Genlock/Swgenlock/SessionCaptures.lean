import Genlock.Swgenlock.PipeSession

/-! # The captures of pipelock

The threads of the pipes take the timestamps of the primary out of the collector's rolling
buffer. Each gets what it would get out of everything that the collector has captured.
-/

namespace Genlock.Swgenlock

open Vsyncalter

/-! ## What a thread has measured -/

/-- The iteration that is measured and not finished. -/
def PipePc.pending : PipePc → List Iteration
  | .readingOn job | .raising job _ | .creating job | .syncing job | .readingOff job
  | .lowering job _ | .joining job | .learning job => [job.it]
  | .storing it _ _ => [it]
  | _ => []

namespace PipeThread

/-- The iterations in the order of their captures. -/
def measured (t : PipeThread) : List Iteration := t.iterations ++ t.pc.pending

variable {cfg : PipeConfig} {clientDone : Bool} {table table' : PipeTable} {t t' : PipeThread}

end PipeThread

/-! ## Out of the buffer -/

/-- The `n` timestamps captured last, if there are as many. -/
def newest (captured : List U64) (n : ℕ) : Option (List U64) :=
  if captured.length < n then none else some (captured.rtake n)

def askedOfPrimary (i : ℕ) : ℕ := if i = 0 then 100 else 7

/-- The captures of a thread, each with the number of timestamps that the collector had
captured by then: they never go back, and each is the newest of what there was. -/
structure Sampled (captured : List U64) (t : PipeThread) (log : List (Iteration × ℕ)) : Prop where
  measured : log.map Prod.fst = t.measured
  sorted : (log.map Prod.snd).Pairwise (· ≤ ·)
  bounded : ∀ x ∈ log, x.2 ≤ captured.length
  fresh : ∀ i x, log[i]? = some x → x.1.secondaryVsync ≠ none →
    x.1.primaryVsync = newest (captured.take x.2) (askedOfPrimary i)

namespace Sampled

variable {captured : List U64} {t t' : PipeThread} {log : List (Iteration × ℕ)}

theorem capture (h : Sampled captured t log) (ts : U64) : Sampled (captured ++ [ts]) t log where
  measured := h.measured
  sorted := h.sorted
  bounded := by
    intro x hx
    rw [List.length_append]
    exact (h.bounded x hx).trans (Nat.le_add_right _ _)
  fresh := by
    intro i x hx hs
    rw [List.take_append_of_le_length (h.bounded x (List.mem_of_getElem? hx))]
    exact h.fresh i x hx hs

theorem congr (h : Sampled captured t log) (hmeasured : t'.measured = t.measured) :
    Sampled captured t' log :=
  ⟨h.measured.trans hmeasured.symm, h.sorted, h.bounded, h.fresh⟩

theorem measure (h : Sampled captured t log) {it : Iteration}
    (hmeasured : t'.measured = t.measured ++ [it])
    (hit : it.secondaryVsync ≠ none →
      it.primaryVsync = newest captured (askedOfPrimary t.measured.length)) :
    Sampled captured t' (log ++ [(it, captured.length)]) where
  measured := by rw [List.map_append, h.measured, hmeasured, List.map_singleton]
  sorted := by
    rw [List.map_append, List.map_singleton, List.pairwise_append]
    refine ⟨h.sorted, List.pairwise_singleton _ _, ?_⟩
    intro k hk m hm
    obtain ⟨x, hx, rfl⟩ := List.mem_map.mp hk
    obtain rfl := List.mem_singleton.mp hm
    exact h.bounded x hx
  bounded := by
    intro x hx
    cases List.mem_append.mp hx with
    | inl hx => exact h.bounded x hx
    | inr hx =>
        obtain rfl := List.mem_singleton.mp hx
        exact le_rfl
  fresh := by
    intro i x hx hs
    by_cases hi : i < log.length
    · rw [List.getElem?_append_left hi] at hx
      exact h.fresh i x hx hs
    · rw [List.getElem?_append_right (by omega), List.getElem?_singleton] at hx
      split at hx
      · next hzero =>
        obtain rfl := Option.some.inj hx
        have hlen : log.length = t.measured.length := by
          rw [← h.measured, List.length_map]
        have hi : i = t.measured.length := by omega
        rw [List.take_length, hi]
        exact hit hs
      · cases hx

end Sampled

namespace PipeSession

variable {σ : Type} {lib : VsyncLib σ} {sc : SessionConfig} {s s' : PipeSession}
  {first : SyncWorld σ}

end PipeSession

end Genlock.Swgenlock
