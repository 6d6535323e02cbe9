import Genlock.Lib.Steps
import Mathlib.Data.Nat.Basic

/-! # Variants

A machine has busy events, each of which uses up something of what is left; no other event adds
to it. A run then has at most so many busy events, and where one is always possible before the
end, busy events alone lead there.
-/

namespace Genlock.Steps

variable {σ ε : Type} {step : σ → ε → Option σ} {busy : σ → ε → Bool}

def countBusy (step : σ → ε → Option σ) (busy : σ → ε → Bool) : List ε → σ → ℕ
  | [], _ => 0
  | e :: es, s => (busy s e).toNat + (step s e).elim 0 (countBusy step busy es)

/-- Among the states of `I`, the busy events use up what is `left`. -/
structure Variant (step : σ → ε → Option σ) (busy : σ → ε → Bool) (I : σ → Prop) (left : σ → ℕ) :
    Prop where
  keeps : ∀ s e s', I s → step s e = some s' → I s'
  uses : ∀ s e s', I s → step s e = some s' → left s' + (busy s e).toNat ≤ left s

namespace Variant

variable {I : σ → Prop} {left : σ → ℕ} {es : List ε} {s s' : σ}

theorem count_le (h : Variant step busy I left) (hs : I s) (hrun : run step es s = some s') :
    left s' + countBusy step busy es s ≤ left s := by
  induction es generalizing s with
  | nil =>
      obtain rfl := Option.some.inj hrun
      exact le_rfl
  | cons e es ih =>
      obtain ⟨s₁, hstep, hrest⟩ := Option.bind_eq_some_iff.mp hrun
      have hfirst := h.uses s e s₁ hs hstep
      have hlater := ih (h.keeps s e s₁ hs hstep) hrest
      rw [countBusy, hstep, Option.elim_some]
      omega

end Variant

end Genlock.Steps
