import Mathlib.Order.Defs.Unbundled

/-! # Partial state programs

A program over `StateT σ Option` relates its first state to the last, or
preserves an invariant, if every outcome it has does; `none` is an undefined
outcome, about which nothing is said.
-/

namespace Genlock

variable {σ α β : Type} {I : σ → Prop} {R : σ → σ → Prop}

/-! ## Relations between first and last state -/

def Relates (R : σ → σ → Prop) (x : StateT σ Option α) : Prop :=
  ∀ s r, x.run s = some r → R s r.2

theorem relates_pure [Std.Refl R] (a : α) : Relates R (pure a : StateT σ Option α) := by
  intro s r hrun
  obtain rfl := Option.some.inj hrun
  exact Std.Refl.refl s

theorem relates_bind [IsTrans σ R] {x : StateT σ Option α} {f : α → StateT σ Option β}
    (hx : Relates R x) (hf : ∀ a, Relates R (f a)) : Relates R (x >>= f) := by
  intro s r hrun
  obtain ⟨r', hrun', hrest⟩ := Option.bind_eq_some_iff.mp hrun
  exact IsTrans.trans s r'.2 r.2 (hx s r' hrun') (hf r'.1 r'.2 r hrest)

theorem Relates.mono {R' : σ → σ → Prop} {x : StateT σ Option α} (hx : Relates R x)
    (h : ∀ {s s'}, R s s' → R' s s') : Relates R' x :=
  fun s r hrun => h (hx s r hrun)

/-! ## Invariants -/

instance preserves_isPreorder (I : σ → Prop) : IsPreorder σ fun s s' => I s → I s' where
  refl _ h := h
  trans _ _ _ h h' hs := h' (h hs)

def Preserves (I : σ → Prop) (x : StateT σ Option α) : Prop :=
  ∀ s r, I s → x.run s = some r → I r.2

theorem preserves_pure (a : α) : Preserves I (pure a : StateT σ Option α) := by
  intro s r hs hrun
  obtain rfl := Option.some.inj hrun
  exact hs

theorem preserves_bind {x : StateT σ Option α} {f : α → StateT σ Option β} (hx : Preserves I x)
    (hf : ∀ a, Preserves I (f a)) : Preserves I (x >>= f) := by
  intro s r hs hrun
  obtain ⟨r', hrun', hrest⟩ := Option.bind_eq_some_iff.mp hrun
  exact hf r'.1 r'.2 r (hx s r' hs hrun') hrest

theorem preserves_iff {x : StateT σ Option α} :
    Preserves I x ↔ Relates (fun s s' => I s → I s') x :=
  forall₂_congr fun _ _ => imp.swap

def performAll {ι : Type} (exec : ι → StateT σ Option Unit) : List ι → StateT σ Option Unit
  | [] => pure ()
  | i :: is => do
      exec i
      performAll exec is

/-- The invariant of one operation holds after a run. -/
theorem preserves_performAll {ι : Type} {exec : ι → StateT σ Option Unit}
    (h : ∀ i, Preserves I (exec i)) (is : List ι) : Preserves I (performAll exec is) := by
  induction is with
  | nil => exact preserves_pure ()
  | cons i is ih => exact preserves_bind (h i) fun _ => ih

end Genlock
