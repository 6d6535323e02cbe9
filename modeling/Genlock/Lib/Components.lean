import Genlock.Lib.Steps
import Mathlib.Logic.Function.Basic

/-! # Components around a shared state

Components with states of their own take steps on a shared state; some events concern all
of them. Where each component confines itself to its view of the shared state, a run of
the system is for each component a run of its own.
-/

namespace Genlock

/-- The shared state and what belongs to each component. -/
structure Components {ι : Type} (W : Type) (L : ι → Type) where
  shared : W
  part : (i : ι) → L i

inductive ComponentEvent {ι : Type} (E : ι → Type) (B : Type) where
  | own (i : ι) (e : E i)
  | all (b : B)

namespace Components

variable {ι W B : Type} {L E : ι → Type} [DecidableEq ι]
  (move : (i : ι) → W × L i → E i → Option (W × L i)) (signal : B → W → Option W)

def step (s : Components W L) : ComponentEvent E B → Option (Components W L)
  | .own i e => (move i (s.shared, s.part i) e).map fun r => ⟨r.1, Function.update s.part i r.2⟩
  | .all b => (signal b s.shared).map fun w => { s with shared := w }

/-- A component without the others, but with what comes from outside. -/
def alone {W B M F : Type} (move : W × M → F → Option (W × M)) (signal : B → W → Option W) :
    W × M → F ⊕ B → Option (W × M)
  | s, .inl e => move s e
  | s, .inr b => (signal b s.1).map fun w => (w, s.2)

def seen (i : ι) : ComponentEvent E B → Option (E i ⊕ B)
  | .own j e => if h : j = i then some (.inl (h ▸ e)) else none
  | .all b => some (.inr b)

theorem seen_eq_inl {i : ι} {ev : ComponentEvent E B} {e : E i} (h : seen i ev = some (.inl e)) :
    ev = .own i e := by
  cases ev with
  | all b => exact absurd h (by simp [seen])
  | own j e' =>
      by_cases hj : j = i
      · subst hj
        have he : e' = e := by simpa [seen] using h
        rw [he]
      · exact absurd h (by simp [seen, hj])

/-- As long as they are `Good`, the components keep to their views. -/
structure Confined (view : ι → W → W) (Good : (i : ι) → L i → Prop) : Prop where
  own : ∀ i w l e, Good i l → move i (view i w, l) e = (move i (w, l) e).map (Prod.map (view i) id)
  frame : ∀ i j w l e r, i ≠ j → Good j l → move j (w, l) e = some r → view i r.1 = view i w
  signal : ∀ i b w, signal b (view i w) = (signal b w).map (view i)
  good : ∀ i w l e r, Good i l → move i (w, l) e = some r → Good i r.2

variable {move signal} {view : ι → W → W} {Good : (i : ι) → L i → Prop}
  {s s' : Components W L}

theorem Confined.step_good (h : Confined move signal view Good) {e : ComponentEvent E B}
    (hs : ∀ i, Good i (s.part i)) (hstep : s.step move signal e = some s') (i : ι) :
    Good i (s'.part i) := by
  cases e with
  | all b =>
      obtain ⟨w, -, rfl⟩ := Option.map_eq_some_iff.mp hstep
      exact hs i
  | own j e =>
      obtain ⟨r, hmove, rfl⟩ := Option.map_eq_some_iff.mp hstep
      show Good i (Function.update s.part j r.2 i)
      by_cases hij : i = j
      · subst hij
        rw [Function.update_self]
        exact h.good i s.shared _ e r (hs i) hmove
      · rw [Function.update_of_ne hij]
        exact hs i

theorem Confined.step_alone (h : Confined move signal view Good) {e : ComponentEvent E B}
    (hs : ∀ i, Good i (s.part i)) (hstep : s.step move signal e = some s') (i : ι) :
    Steps.run (alone (move i) signal) (seen i e).toList (view i s.shared, s.part i) =
      some (view i s'.shared, s'.part i) := by
  cases e with
  | all b =>
      obtain ⟨w, hsignal, rfl⟩ := Option.map_eq_some_iff.mp hstep
      simp [seen, Steps.run, alone, h.signal, hsignal]
  | own j e =>
      obtain ⟨r, hmove, rfl⟩ := Option.map_eq_some_iff.mp hstep
      by_cases hij : j = i
      · subst hij
        simp [seen, Steps.run, alone, h.own j s.shared _ e (hs j), hmove, Prod.map]
      · have hframe := h.frame i j _ _ e r (Ne.symm hij) (hs j) hmove
        simp [seen, hij, Steps.run, hframe, Function.update_of_ne (Ne.symm hij)]

theorem filterMap_seen_cons (i : ι) (e : ComponentEvent E B) (es : List (ComponentEvent E B)) :
    (e :: es).filterMap (seen i) = (seen i e).toList ++ es.filterMap (seen i) := by
  cases hseen : seen i e with
  | none => simp [hseen]
  | some x => simp [hseen]

/-- A run of the system is a run of each component alone, over what it has seen. -/
theorem Confined.run_alone (h : Confined move signal view Good) {es : List (ComponentEvent E B)}
    (hs : ∀ i, Good i (s.part i)) (hrun : Steps.run (step move signal) es s = some s') (i : ι) :
    Steps.run (alone (move i) signal) (es.filterMap (seen i)) (view i s.shared, s.part i) =
      some (view i s'.shared, s'.part i) := by
  induction es generalizing s with
  | nil =>
      obtain rfl := Option.some.inj hrun
      rfl
  | cons e es ih =>
      obtain ⟨s₁, hstep, hrest⟩ := Option.bind_eq_some_iff.mp hrun
      rw [filterMap_seen_cons, Steps.run_append, h.step_alone hs hstep i, Option.bind_some]
      exact ih (h.step_good hs hstep) hrest

/-- What the events of a run are known to be, those of the component alone are. -/
theorem Confined.all_alone (h : Confined move signal view Good) {es : List (ComponentEvent E B)}
    {P : Components W L → ComponentEvent E B → Prop} {i : ι} {Q : W × L i → E i ⊕ B → Prop}
    (hPQ : ∀ s e x, (∀ i, Good i (s.part i)) → P s e → seen i e = some x →
      Q (view i s.shared, s.part i) x)
    (hs : ∀ i, Good i (s.part i)) (hrun : Steps.run (step move signal) es s = some s')
    (hall : Steps.All (step move signal) P es s) :
    Steps.All (alone (move i) signal) Q (es.filterMap (seen i)) (view i s.shared, s.part i) := by
  induction es generalizing s with
  | nil => exact trivial
  | cons e es ih =>
      obtain ⟨s₁, hstep, hrest⟩ := Option.bind_eq_some_iff.mp hrun
      have hfirst := h.step_alone hs hstep i
      have hnext := ih (h.step_good hs hstep) hrest (hall.2 s₁ hstep)
      cases hseen : seen i e with
      | none =>
          rw [hseen] at hfirst
          obtain ⟨hview, hpart⟩ := Prod.mk.inj (Option.some.inj hfirst)
          rw [List.filterMap_cons_none hseen, hview, hpart]
          exact hnext
      | some x =>
          rw [hseen] at hfirst
          rw [List.filterMap_cons_some hseen]
          refine ⟨hPQ s e x hs hall.1 hseen, fun r hr => ?_⟩
          have hr' : Steps.run (alone (move i) signal) [x] (view i s.shared, s.part i) = some r := by
            simp [Steps.run, hr]
          obtain rfl := Option.some.inj (hfirst.symm.trans hr')
          exact hnext

end Components

end Genlock
