import Genlock.Lib.Prog

/-! # Interleaved programs

Threads that each run a program over the same interface, on a shared state. Every
operation is one step; which thread moves next is open. A run keeps its steps, so
that a property of runs can be stated about the state before each of them. An
invariant can speak of ghost states, one for each thread.
-/

namespace Genlock

variable {ι Op : Type} {Ans : Op → Type} {W G α : Type} [DecidableEq ι]

/-- The shared state and what is left of every thread. -/
structure Threads (ι Op : Type) (Ans : Op → Type) (W α : Type) where
  state : W
  prog : ι → Prog Op Ans α

structure ThreadStep (ι Op W : Type) where
  before : W
  thread : ι
  op : Op
  after : W

inductive Threads.Run (exec : ι → (o : Op) → W → Option (Ans o × W)) :
    Threads ι Op Ans W α → List (ThreadStep ι Op W) → Threads ι Op Ans W α → Prop where
  | nil (c) : Threads.Run exec c [] c
  | cons {c c' : Threads ι Op Ans W α} {es : List (ThreadStep ι Op W)} {i : ι} {o : Op}
      {k : Ans o → Prog Op Ans α} {a : Ans o} {w : W} (hprog : c.prog i = .step o k)
      (hexec : exec i o c.state = some (a, w))
      (hrest : Threads.Run exec ⟨w, Function.update c.prog i (k a)⟩ es c') :
      Threads.Run exec c (⟨c.state, i, o, w⟩ :: es) c'

namespace Threads

variable {exec : ι → (o : Op) → W → Option (Ans o × W)} {c c' : Threads ι Op Ans W α}
  {es : List (ThreadStep ι Op W)}

/-- In a run whose steps all satisfy `C`, an invariant is kept and every step
satisfies `S`; `P` is what the operations of each thread are known to be. -/
theorem Run.invariant {P : ι → Op → Prop} {C S : ThreadStep ι Op W → Prop} {I : W → Prop}
    (hstep : ∀ i o w a w', I w → P i o → exec i o w = some (a, w') → C ⟨w, i, o, w'⟩ →
      I w' ∧ S ⟨w, i, o, w'⟩)
    (hrun : Run exec c es c') (hprog : ∀ i, (c.prog i).Each (P i)) (hI : I c.state)
    (hC : ∀ e ∈ es, C e) : I c'.state ∧ ∀ e ∈ es, S e := by
  induction hrun with
  | nil c => exact ⟨hI, List.forall_mem_nil _⟩
  | @cons c c' es i o k a w hi hexec hrest ih =>
      obtain ⟨hC₁, hC₂⟩ := List.forall_mem_cons.mp hC
      have heach : P i o ∧ ∀ a, (k a).Each (P i) := by
        have h := hprog i
        rwa [hi] at h
      obtain ⟨hI', hS⟩ := hstep i o c.state a w hI heach.1 hexec hC₁
      have hprog' : ∀ j, (Function.update c.prog i (k a) j).Each (P j) := by
        intro j
        by_cases hj : j = i
        · subst hj
          rw [Function.update_self]
          exact heach.2 a
        · rw [Function.update_of_ne hj]
          exact hprog j
      obtain ⟨hI'', hS'⟩ := ih hprog' hI' hC₂
      exact ⟨hI'', List.forall_mem_cons.mpr ⟨hS, hS'⟩⟩

/-- Every thread keeps its discipline from a ghost state of its own, and an
invariant ties the ghost states to the shared state. In a run whose steps all
satisfy `C` both go on, and every step satisfies `S`. -/
theorem Run.along {γ : ι → Discipline Op Ans G} {Q : ι → α → G → Prop} {C S : ThreadStep ι Op W → Prop}
    {I : (ι → G) → W → Prop}
    (hstep : ∀ i o g w a w', I g w → (γ i).requires o (g i) → exec i o w = some (a, w') →
      C ⟨w, i, o, w'⟩ → (γ i).answers o (g i) a ∧
        I (Function.update g i ((γ i).next o a (g i))) w' ∧ S ⟨w, i, o, w'⟩)
    (hrun : Run exec c es c') {g : ι → G} (hprog : ∀ i, (c.prog i).Along (γ i) (Q i) (g i))
    (hI : I g c.state) (hC : ∀ e ∈ es, C e) :
    ∃ g', (∀ i, (c'.prog i).Along (γ i) (Q i) (g' i)) ∧ I g' c'.state ∧ ∀ e ∈ es, S e := by
  induction hrun generalizing g with
  | nil c => exact ⟨g, hprog, hI, List.forall_mem_nil _⟩
  | @cons c c' es i o k a w hi hexec hrest ih =>
      obtain ⟨hC₁, hC₂⟩ := List.forall_mem_cons.mp hC
      have halong := hprog i
      rw [hi] at halong
      obtain ⟨hanswer, hI', hS⟩ := hstep i o g c.state a w hI halong.1 hexec hC₁
      have hprog' : ∀ j, (Function.update c.prog i (k a) j).Along (γ j) (Q j)
          (Function.update g i ((γ i).next o a (g i)) j) := by
        intro j
        by_cases hj : j = i
        · subst hj
          rw [Function.update_self, Function.update_self]
          exact halong.2 a hanswer
        · rw [Function.update_of_ne hj, Function.update_of_ne hj]
          exact hprog j
      obtain ⟨g', hprog'', hI'', hS'⟩ := ih hprog' hI' hC₂
      exact ⟨g', hprog'', hI'', List.forall_mem_cons.mpr ⟨hS, hS'⟩⟩

/-! ### Schedules -/

def moveThread (exec : ι → (o : Op) → W → Option (Ans o × W)) (c : Threads ι Op Ans W α) (i : ι) :
    Option (ThreadStep ι Op W × Threads ι Op Ans W α) :=
  match c.prog i with
  | .step o k => (exec i o c.state).map fun r =>
      (⟨c.state, i, o, r.2⟩, ⟨r.2, Function.update c.prog i (k r.1)⟩)
  | _ => none

def schedule (exec : ι → (o : Op) → W → Option (Ans o × W)) :
    List ι → Threads ι Op Ans W α → Option (List (ThreadStep ι Op W) × Threads ι Op Ans W α)
  | [], c => some ([], c)
  | i :: is, c =>
      (moveThread exec c i).bind fun r => (schedule exec is r.2).map fun q => (r.1 :: q.1, q.2)

theorem Run.cons_of_move {c₁ : Threads ι Op Ans W α} {e : ThreadStep ι Op W} {i : ι}
    (hmove : moveThread exec c i = some (e, c₁)) (hrest : Run exec c₁ es c') :
    Run exec c (e :: es) c' := by
  unfold moveThread at hmove
  split at hmove
  · rename_i o k hprog
    obtain ⟨⟨a, w⟩, hexec, heq⟩ := Option.map_eq_some_iff.mp hmove
    obtain ⟨rfl, rfl⟩ := Prod.mk.inj heq
    exact .cons hprog hexec hrest
  · exact absurd hmove (by simp)

theorem run_of_schedule {is : List ι} (h : schedule exec is c = some (es, c')) : Run exec c es c' := by
  induction is generalizing c es with
  | nil =>
      obtain ⟨rfl, rfl⟩ := Prod.mk.inj (Option.some.inj h)
      exact .nil c
  | cons i is ih =>
      obtain ⟨⟨e, c₁⟩, hmove, hrest⟩ := Option.bind_eq_some_iff.mp h
      obtain ⟨⟨es', c₂⟩, hschedule, heq⟩ := Option.map_eq_some_iff.mp hrest
      obtain ⟨rfl, rfl⟩ := Prod.mk.inj heq
      exact .cons_of_move hmove (ih hschedule)

end Threads

end Genlock
