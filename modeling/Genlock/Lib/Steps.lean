import Genlock.Lib.Prog
import Mathlib.Data.Option.Basic

/-! # Steps of a machine

A machine takes one event after another; `none` is an undefined outcome, after which
nothing is said. A property of the events, each with the state before it, is followed
along a sequence of events.
-/

namespace Genlock.Steps

variable {σ ε : Type} {step : σ → ε → Option σ}

def run (step : σ → ε → Option σ) : List ε → σ → Option σ
  | [], s => some s
  | e :: es, s => (step s e).bind (run step es)

theorem run_append (es fs : List ε) (s : σ) :
    run step (es ++ fs) s = (run step es s).bind (run step fs) := by
  induction es generalizing s with
  | nil => rfl
  | cons e es ih =>
      rw [List.cons_append, run, run, Option.bind_assoc]
      exact congrArg _ (funext ih)

/-- Every event that is reached satisfies `P`, with the state before it. -/
def All (step : σ → ε → Option σ) (P : σ → ε → Prop) : List ε → σ → Prop
  | [], _ => True
  | e :: es, s => P s e ∧ ∀ s', step s e = some s' → All step P es s'

section

variable {P C : σ → ε → Prop} {I : σ → Prop}

theorem All.of_run (es fs : List ε) {e : ε} {s s' : σ} (hall : All step P (es ++ e :: fs) s)
    (hrun : run step es s = some s') : P s' e := by
  induction es generalizing s with
  | nil =>
      obtain rfl := Option.some.inj hrun
      exact hall.1
  | cons e' es ih =>
      obtain ⟨s₁, hstep, hrest⟩ := Option.bind_eq_some_iff.mp hrun
      exact ih (hall.2 s₁ hstep) hrest

/-- A property that one step has exactly under a condition, a sequence has exactly
when every step of it meets the condition. -/
theorem all_iff (hiff : ∀ s e, I s → (P s e ↔ C s e))
    (hnext : ∀ s e s', I s → C s e → step s e = some s' → I s') (es : List ε) {s : σ} (hs : I s) :
    All step P es s ↔ All step C es s := by
  induction es generalizing s with
  | nil => exact Iff.rfl
  | cons e es ih =>
      rw [All, All, hiff s e hs]
      apply and_congr_right
      intro hC
      exact forall₂_congr fun s' hstep => ih (hnext s e s' hs hC hstep)

/-- What every step that meets the condition keeps, a run keeps. -/
theorem All.invariant (hnext : ∀ s e s', I s → C s e → step s e = some s' → I s') {es : List ε}
    {s s' : σ} (hall : All step C es s) (hs : I s) (hrun : run step es s = some s') : I s' := by
  induction es generalizing s with
  | nil =>
      obtain rfl := Option.some.inj hrun
      exact hs
  | cons e es ih =>
      obtain ⟨s₁, hstep, hrest⟩ := Option.bind_eq_some_iff.mp hrun
      exact ih (hall.2 s₁ hstep) (hnext s e s₁ hs hall.1 hstep) hrest

theorem run_history {J : List ε → σ → Prop}
    (hnext : ∀ es s e s', J es s → step s e = some s' → J (es ++ [e]) s') {fs : List ε} :
    ∀ {es : List ε} {s s' : σ}, J es s → run step fs s = some s' → J (es ++ fs) s' := by
  induction fs with
  | nil =>
      intro es s s' hs hrun
      obtain rfl := Option.some.inj hrun
      rwa [List.append_nil]
  | cons e fs ih =>
      intro es s s' hs hrun
      obtain ⟨s₁, hstep, hrest⟩ := Option.bind_eq_some_iff.mp hrun
      rw [← List.singleton_append, ← List.append_assoc]
      exact ih (hnext es s e s₁ hs hstep) hrest

/-- Where every step is followed by some steps of another machine, a run is. -/
theorem run_simulated {τ φ : Type} {step' : τ → φ → Option τ} {R : σ → τ → Prop}
    (hstep : ∀ s e s' t, R s t → step s e = some s' → ∃ fs t', run step' fs t = some t' ∧ R s' t')
    {es : List ε} {s s' : σ} {t : τ} (hR : R s t) (hrun : run step es s = some s') :
    ∃ fs t', run step' fs t = some t' ∧ R s' t' := by
  induction es generalizing s t with
  | nil =>
      obtain rfl := Option.some.inj hrun
      exact ⟨[], t, rfl, hR⟩
  | cons e es ih =>
      obtain ⟨s₁, hfirst, hrest⟩ := Option.bind_eq_some_iff.mp hrun
      obtain ⟨fs, t₁, hfs, hR₁⟩ := hstep s e s₁ t hR hfirst
      obtain ⟨gs, t', hgs, hR'⟩ := ih hR₁ hrest
      refine ⟨fs ++ gs, t', ?_, hR'⟩
      rw [run_append, hfs]
      exact hgs

theorem all_of_forall {C : ε → Prop} {es : List ε} (h : ∀ e ∈ es, C e) (s : σ) :
    All step (fun _ e => C e) es s := by
  induction es generalizing s with
  | nil => exact trivial
  | cons e es ih =>
      exact ⟨h e List.mem_cons_self, fun s' _ => ih (fun f hf => h f (List.mem_cons_of_mem e hf)) s'⟩

end

/-! ## Programs -/

section Programs

variable {Op : Type} {Ans : Op → Type} {W α : Type} {exec : (o : Op) → W → Option (Ans o × W)}

def ops (exec : (o : Op) → W → Option (Ans o × W)) : Prog Op Ans α → W → List Op
  | .step o k, w => o :: (exec o w).elim [] fun r => ops exec (k r.1) r.2
  | _, _ => []

end Programs

end Genlock.Steps
