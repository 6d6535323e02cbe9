import Mathlib.Logic.ExistsUnique
import Mathlib.Logic.Function.Basic

/-! # Exclusive ownership of table entries

A table has a flag in every entry; an owner owns at most one entry. The flags tell
the truth when an entry is flagged exactly if one owner owns it.
-/

namespace Genlock

variable {E ι : Type} {enabled : E → Bool} {owns : ι → Option E}

structure Exclusive (enabled : E → Bool) (owns : ι → Option E) : Prop where
  enabled_iff (e : E) : enabled e = true ↔ ∃ i, owns i = some e
  unique {i j : ι} {e : E} : owns i = some e → owns j = some e → i = j

namespace Exclusive

theorem none_owned (h : ∀ e, enabled e = false) (hi : ∀ i, owns i = none) :
    Exclusive enabled owns where
  enabled_iff e := by
    rw [h e]
    constructor
    · intro hf
      exact absurd hf (by simp)
    · rintro ⟨i, he⟩
      exact absurd (he.symm.trans (hi i)) (by simp)
  unique := by
    intro i j e he
    exact absurd (he.symm.trans (hi i)) (by simp)

theorem existsUnique (h : Exclusive enabled owns) (e : E) :
    enabled e = true ↔ ∃! i, owns i = some e := by
  rw [h.enabled_iff]
  constructor
  · rintro ⟨i, hi⟩
    exact ⟨i, hi, fun j hj => h.unique hj hi⟩
  · exact ExistsUnique.exists

section Update

variable [DecidableEq ι] {i : ι} {d e : E}

theorem update_none (h : Exclusive enabled owns) (hi : owns i = none) :
    Exclusive enabled (Function.update owns i none) := by
  rwa [← hi, Function.update_eq_self]

variable [DecidableEq E]

/-- A new owner takes a free entry. -/
theorem claim (h : Exclusive enabled owns) (hi : owns i = none) (he : enabled e = false) :
    Exclusive (Function.update enabled e true) (Function.update owns i (some e)) := by
  have hfree : ∀ j, owns j ≠ some e := by
    intro j hj
    have := (h.enabled_iff e).mpr ⟨j, hj⟩
    rw [he] at this
    exact absurd this (by simp)
  constructor
  · intro x
    by_cases hx : x = e
    · subst hx
      rw [Function.update_self]
      exact iff_of_true rfl ⟨i, Function.update_self ..⟩
    · rw [Function.update_of_ne hx, h.enabled_iff]
      apply exists_congr
      intro j
      by_cases hj : j = i
      · subst hj
        rw [Function.update_self, hi]
        simp [Ne.symm hx]
      · rw [Function.update_of_ne hj]
  · intro j k x hj hk
    rw [Function.update_apply] at hj hk
    split at hj <;> split at hk
    · rename_i hj' hk'
      rw [hj', hk']
    · exact absurd (Option.some.inj hj ▸ hk) (hfree k)
    · exact absurd (Option.some.inj hk ▸ hj) (hfree j)
    · exact h.unique hj hk

/-- An owner releases its entry. -/
theorem release (h : Exclusive enabled owns) (hi : owns i = some e) :
    Exclusive (Function.update enabled e false) (Function.update owns i none) := by
  constructor
  · intro x
    by_cases hx : x = e
    · subst hx
      rw [Function.update_self]
      apply iff_of_false (by simp)
      rintro ⟨j, hj⟩
      rw [Function.update_apply] at hj
      split at hj
      · exact absurd hj (by simp)
      · exact absurd (h.unique hj hi) ‹_›
    · rw [Function.update_of_ne hx, h.enabled_iff]
      apply exists_congr
      intro j
      by_cases hj : j = i
      · subst hj
        rw [Function.update_self, hi]
        simp [Ne.symm hx]
      · rw [Function.update_of_ne hj]
  · intro j k x hj hk
    rw [Function.update_apply] at hj hk
    split at hj
    · exact absurd hj (by simp)
    · split at hk
      · exact absurd hk (by simp)
      · exact h.unique hj hk

/-- When an owner goes, the flag to clear is the one of its entry. -/
theorem eq_of_release (h : Exclusive enabled owns) (hi : owns i = some e)
    (hd : ∀ x, Function.update enabled d false x = true ↔
      ∃! j, Function.update owns i none j = some x) : d = e := by
  by_contra hne
  have he : Function.update enabled d false e = true := by
    rw [Function.update_of_ne (Ne.symm hne)]
    exact (h.enabled_iff e).mpr ⟨i, hi⟩
  obtain ⟨j, hj, -⟩ := (hd e).mp he
  replace hj : Function.update owns i none j = some e := hj
  rw [Function.update_apply] at hj
  split at hj
  · exact absurd hj (by simp)
  · exact absurd (h.unique hj hi) ‹_›

end Update

end Exclusive

end Genlock
