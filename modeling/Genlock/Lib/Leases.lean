import Mathlib.Logic.Function.Basic

/-! # Names that are given out again

A table says what each name stands for at the moment; a name that is given back may later
stand for something else. Tenants hold names. The leases are in order when exactly the
tenant's own name stands for its target.
-/

namespace Genlock

variable {N A ι : Type} {table : N → Option A} {target : ι → A} {holds : ι → Option N}

/-- Each tenant's name stands for its target, and no other name does. -/
def Leases (table : N → Option A) (target : ι → A) (holds : ι → Option N) : Prop :=
  ∀ n i, table n = some (target i) ↔ holds i = some n

namespace Leases

theorem none_held (h : ∀ n i, table n ≠ some (target i)) : Leases table target fun _ => none := by
  intro n i
  exact iff_of_false (h n i) (by simp)

theorem holds_ne (h : Leases table target holds) (htarget : Function.Injective target) {i j : ι}
    (hij : i ≠ j) {n : N} (hi : holds i = some n) : holds j ≠ some n := by
  intro hj
  have htable := ((h n i).mpr hi).symm.trans ((h n j).mpr hj)
  exact hij (htarget (Option.some.inj htable))

section Update

variable [DecidableEq N] [DecidableEq ι] {n : N} {i : ι}

theorem lease (h : Leases table target holds) (htarget : Function.Injective target)
    (hn : table n = none) (hi : holds i = none) :
    Leases (Function.update table n (some (target i))) target
      (Function.update holds i (some n)) := by
  intro m j
  by_cases hm : m = n
  · subst hm
    rw [Function.update_self]
    by_cases hj : j = i
    · subst hj
      rw [Function.update_self]
      simp
    · rw [Function.update_of_ne hj, ← h m j, hn]
      exact iff_of_false (fun heq => hj (htarget (Option.some.inj heq)).symm) (by simp)
  · rw [Function.update_of_ne hm, h m j]
    by_cases hj : j = i
    · subst hj
      rw [Function.update_self, hi]
      simp [Ne.symm hm]
    · rw [Function.update_of_ne hj]

theorem release (h : Leases table target holds) (htarget : Function.Injective target)
    (hi : holds i = some n) :
    Leases (Function.update table n none) target (Function.update holds i none) := by
  intro m j
  by_cases hm : m = n
  · subst hm
    rw [Function.update_self]
    by_cases hj : j = i
    · subst hj
      rw [Function.update_self]
      simp
    · rw [Function.update_of_ne hj]
      exact iff_of_false (by simp) (h.holds_ne htarget (Ne.symm hj) hi)
  · rw [Function.update_of_ne hm, h m j]
    by_cases hj : j = i
    · subst hj
      rw [Function.update_self, hi]
      simp [Ne.symm hm]
    · rw [Function.update_of_ne hj]

end Update

end Leases

end Genlock
