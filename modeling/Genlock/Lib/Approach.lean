import Mathlib.Order.Interval.Set.Basic

/-! # Approaching a band in steps of two kinds

A value is moved down while it is above a band and up while it is below. Where it
is depends only on how many steps went either way, so the walk finds a point of
the band if one is within reach; and it finds one if no step crosses the band.
-/

namespace Genlock.Approach

variable {α : Type*} [LinearOrder α] {lo hi : α}

/-! ## The walk -/

section Walk

variable (pos : ℕ → ℕ → α) (lo hi : α)

/-- The steps down and up that were made when the band is reached, with `left`
looks at the value to go. -/
def stepsToBand : (left down up : ℕ) → Option (ℕ × ℕ)
  | 0, _, _ => none
  | left + 1, a, b =>
    if hi < pos a b then stepsToBand left (a + 1) b
    else if pos a b < lo then stepsToBand left a (b + 1)
    else some (a, b)

end Walk

section Reach

variable {pos : ℕ → ℕ → α}

/-- The walk goes past no point of the band: a point with more steps down lies
below, one with more steps up above. -/
theorem stepsToBand_isSome_iff (hdown : ∀ b, Antitone fun a => pos a b) (hup : ∀ a, Monotone (pos a))
    (left a b : ℕ) : (stepsToBand pos lo hi left a b).isSome = true ↔
      ∃ a' b', a ≤ a' ∧ b ≤ b' ∧ a' + b' < a + b + left ∧ pos a' b' ∈ Set.Icc lo hi := by
  induction left generalizing a b with
  | zero =>
      refine iff_of_false (by simp [stepsToBand]) fun h => ?_
      obtain ⟨a', b', ha, hb, hlt, -⟩ := h
      omega
  | succ left ih =>
      rw [stepsToBand]
      by_cases habove : hi < pos a b
      · rw [if_pos habove, ih]
        constructor
        · intro h
          obtain ⟨a', b', ha, hb, hlt, hmem⟩ := h
          exact ⟨a', b', by omega, hb, by omega, hmem⟩
        · intro h
          obtain ⟨a', b', ha, hb, hlt, hmem⟩ := h
          have hne : a ≠ a' := by
            intro heq
            subst heq
            exact absurd (habove.trans_le (hup a hb)) (not_lt.mpr hmem.2)
          exact ⟨a', b', by omega, hb, by omega, hmem⟩
      · rw [if_neg habove]
        by_cases hbelow : pos a b < lo
        · rw [if_pos hbelow, ih]
          constructor
          · intro h
            obtain ⟨a', b', ha, hb, hlt, hmem⟩ := h
            exact ⟨a', b', ha, by omega, by omega, hmem⟩
          · intro h
            obtain ⟨a', b', ha, hb, hlt, hmem⟩ := h
            have hne : b ≠ b' := by
              intro heq
              subst heq
              exact absurd ((hdown b ha).trans_lt hbelow) (not_lt.mpr hmem.1)
            exact ⟨a', b', ha, by omega, by omega, hmem⟩
        · rw [if_neg hbelow]
          exact iff_of_true rfl
            ⟨a, b, le_rfl, le_rfl, by omega, not_lt.mp hbelow, not_lt.mp habove⟩

end Reach

/-! ## Steps that cross nothing -/

/-- A sequence that gets below the upper end without a step across the band has a
member in it. -/
theorem exists_mem_of_le {f : ℕ → α} (h0 : lo ≤ f 0) (hstep : ∀ n, hi < f n → lo ≤ f (n + 1)) {N : ℕ}
    (hN : f N ≤ hi) : ∃ n ≤ N, f n ∈ Set.Icc lo hi := by
  induction N with
  | zero => exact ⟨0, le_rfl, h0, hN⟩
  | succ N ih =>
      by_cases hprev : f N ≤ hi
      · obtain ⟨n, hn, hmem⟩ := ih hprev
        exact ⟨n, by omega, hmem⟩
      · exact ⟨N + 1, le_rfl, hstep N (not_le.mp hprev), hN⟩

theorem exists_mem_of_ge {f : ℕ → α} (h0 : f 0 ≤ hi) (hstep : ∀ n, f n < lo → f (n + 1) ≤ hi) {N : ℕ}
    (hN : lo ≤ f N) : ∃ n ≤ N, f n ∈ Set.Icc lo hi := by
  have hdual := @exists_mem_of_le αᵒᵈ _ (OrderDual.toDual hi) (OrderDual.toDual lo)
    (fun n => OrderDual.toDual (f n)) h0 hstep N hN
  obtain ⟨n, hn, hmem⟩ := hdual
  exact ⟨n, hn, hmem.2, hmem.1⟩

end Genlock.Approach
