import Mathlib.Data.List.ProdSigma
import Mathlib.Order.Lattice
import Mathlib.Tactic

/-! # Exhaustive search that keeps the first strict improvement

A scan replaces its current best only by a strictly better candidate. Its
result is therefore the earliest minimum of the scanned list, or the starting
value when no candidate beats it. Nested scans are one scan over the product.
-/

namespace Genlock.ClosestPair

/-! ## One scan -/

section Scan

variable {β κ : Type*} [LinearOrder κ] (key : β → κ)

def keepBetter (best candidate : β) : β :=
  if key candidate < key best then candidate else best

/-- `x` is the earliest element of `l` that attains the minimum of `key`. -/
def EarliestMin (l : List β) (x : β) : Prop :=
  ∃ before after, l = before ++ x :: after ∧
    (∀ y ∈ before, key x < key y) ∧ (∀ y ∈ after, key x ≤ key y)

variable {key}

theorem EarliestMin.mem {l : List β} {x : β} (h : EarliestMin key l x) : x ∈ l := by
  obtain ⟨before, after, rfl, _, _⟩ := h
  simp

theorem EarliestMin.le {l : List β} {x : β} (h : EarliestMin key l x) :
    ∀ y ∈ l, key x ≤ key y := by
  obtain ⟨before, after, rfl, hb, ha⟩ := h
  intro y hy
  rcases List.mem_append.mp hy with hy | hy
  · exact le_of_lt (hb y hy)
  · rcases List.mem_cons.mp hy with rfl | hy
    · exact le_refl _
    · exact ha y hy

/-- The earliest minimum of a list that starts with a worse element lies in its tail. -/
theorem EarliestMin.cons_worse {l : List β} {x y : β} (h : EarliestMin key l x)
    (hlt : key x < key y) : EarliestMin key (y :: l) x := by
  obtain ⟨before, after, rfl, hb, ha⟩ := h
  refine ⟨y :: before, after, rfl, ?_, ha⟩
  intro z hz
  rcases List.mem_cons.mp hz with rfl | hz
  · exact hlt
  · exact hb z hz

/-- Either nothing in the list beats the starting value, or the scan returns
the earliest minimum of the list. -/
theorem foldl_keepBetter (key : β → κ) (l : List β) (start : β) :
    (l.foldl (keepBetter key) start = start ∧ ∀ y ∈ l, key start ≤ key y) ∨
      (key (l.foldl (keepBetter key) start) < key start ∧
        EarliestMin key l (l.foldl (keepBetter key) start)) := by
  induction l generalizing start with
  | nil => exact Or.inl ⟨rfl, by simp⟩
  | cons x l ih =>
      rw [List.foldl_cons]
      by_cases hx : key x < key start
      · have hstep : keepBetter key start x = x := by simp [keepBetter, hx]
        rw [hstep]
        right
        rcases ih x with ⟨hr, hle⟩ | ⟨hlt, hmin⟩
        · rw [hr]
          exact ⟨hx, [], l, rfl, by simp, hle⟩
        · exact ⟨lt_trans hlt hx, hmin.cons_worse hlt⟩
      · have hstep : keepBetter key start x = start := by simp [keepBetter, hx]
        rw [hstep]
        rcases ih start with ⟨hr, hle⟩ | ⟨hlt, hmin⟩
        · refine Or.inl ⟨hr, ?_⟩
          intro y hy
          rcases List.mem_cons.mp hy with rfl | hy
          · exact not_lt.mp hx
          · exact hle y hy
        · exact Or.inr ⟨hlt, hmin.cons_worse (lt_of_lt_of_le hlt (not_lt.mp hx))⟩

/-- A scan that meets at least one improvement returns the earliest minimum. -/
theorem foldl_keepBetter_of_beaten (key : β → κ) {l : List β} {start y : β} (hy : y ∈ l)
    (hlt : key y < key start) :
    EarliestMin key l (l.foldl (keepBetter key) start) := by
  rcases foldl_keepBetter key l start with ⟨_, hle⟩ | ⟨_, hmin⟩
  · exact absurd hlt (not_lt.mpr (hle y hy))
  · exact hmin

end Scan

/-! ## Nested scans -/

theorem foldl_nested {α β γ : Type*} (f : γ → α × β → γ) (outer : List α) (inner : List β)
    (start : γ) :
    outer.foldl (fun acc a => inner.foldl (fun acc b => f acc (a, b)) acc) start =
      (outer ×ˢ inner).foldl f start := by
  induction outer generalizing start with
  | nil => rfl
  | cons a outer ih =>
      rw [List.foldl_cons, List.product_cons, List.foldl_append, List.foldl_map, ih]

/-- The index pairs of two downward loops, latest first. -/
def downPairs (n m : Nat) : List (Nat × Nat) := (List.range n).reverse ×ˢ (List.range m).reverse

@[simp] theorem mem_downPairs {n m : Nat} {q : Nat × Nat} :
    q ∈ downPairs n m ↔ q.1 < n ∧ q.2 < m := by
  obtain ⟨i, j⟩ := q
  simp [downPairs]

/-- Two downward loops visit the pairs in strictly decreasing lexicographic order. -/
theorem downPairs_pairwise (n m : Nat) :
    (downPairs n m).Pairwise (fun p q => q.1 < p.1 ∨ q.1 = p.1 ∧ q.2 < p.2) := by
  have hdown : ∀ k, (List.range k).reverse.Pairwise (fun a b : Nat => b < a) := by
    intro k
    rw [List.pairwise_reverse]
    exact List.pairwise_lt_range
  unfold downPairs
  have houter := hdown n
  generalize (List.range n).reverse = outer at houter
  induction outer with
  | nil => simp
  | cons a outer ih =>
      rw [List.product_cons, List.pairwise_append]
      refine ⟨?_, ih (List.pairwise_cons.mp houter).2, ?_⟩
      · rw [List.pairwise_map]
        exact (hdown m).imp (fun h => Or.inr ⟨rfl, h⟩)
      · intro p hp q hq
        obtain ⟨j, _, rfl⟩ := List.mem_map.mp hp
        obtain ⟨i', j'⟩ := q
        have hi := (List.pairwise_cons.mp houter).1 i' (List.mem_product.mp hq).1
        exact Or.inl hi

/-- The earliest minimum over two downward loops is the latest of the minimising
pairs: the largest first index, then the largest second. -/
theorem EarliestMin.latest {κ : Type*} [LinearOrder κ] {key : Nat × Nat → κ} {n m : Nat}
    {q : Nat × Nat} (h : EarliestMin key (downPairs n m) q) {p : Nat × Nat}
    (hp : p ∈ downPairs n m) (hkey : key p = key q) :
    p.1 < q.1 ∨ p.1 = q.1 ∧ p.2 ≤ q.2 := by
  obtain ⟨before, after, hl, hb, _⟩ := h
  have hpw := downPairs_pairwise n m
  rw [hl] at hp hpw
  rcases List.mem_append.mp hp with hp | hp
  · exact absurd hkey (ne_of_gt (hb p hp))
  · rcases List.mem_cons.mp hp with rfl | hp
    · exact Or.inr ⟨rfl, le_refl _⟩
    · have := (List.pairwise_cons.mp (List.pairwise_append.mp hpw).2.1).1 p hp
      omega

end Genlock.ClosestPair
