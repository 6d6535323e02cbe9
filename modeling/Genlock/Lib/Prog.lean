import Mathlib.Logic.Function.Basic

/-! # Programs over an interface of operations

A `Prog Op Ans α` performs operations of the interface `Op`, each with an answer
of type `Ans o`, and returns a value. `fail` is a computation without a defined
continuation. A program has no meaning of its own: `run` gives it one over a
sequential state, `expand` one over a lower interface, and `Along` follows every
sequence of answers with a ghost state.
-/

namespace Genlock

inductive Prog (Op : Type) (Ans : Op → Type) (α : Type) : Type where
  | pure (a : α)
  | step (o : Op) (k : Ans o → Prog Op Ans α)
  | fail

variable {Op : Type} {Ans : Op → Type} {W G : Type} {α β : Type}

namespace Prog

def bind : Prog Op Ans α → (α → Prog Op Ans β) → Prog Op Ans β
  | .pure a, f => f a
  | .step o k, f => .step o fun x => (k x).bind f
  | .fail, _ => .fail

def perform (o : Op) : Prog Op Ans (Ans o) := .step o .pure

instance : Monad (Prog Op Ans) where
  pure := .pure
  bind := bind

def returned : Prog Op Ans α → Bool
  | .pure _ => true
  | .step _ _ | .fail => false

theorem eq_pure_of_returned {p : Prog Op Ans Unit} (h : p.returned = true) : p = .pure () := by
  cases p with
  | pure a => rfl
  | step | fail => cases h

def forEach {ι : Type} (body : ι → Prog Op Ans Unit) : List ι → Prog Op Ans Unit
  | [] => .pure ()
  | i :: is => body i >>= fun _ => forEach body is

@[simp] theorem pure_bind' (a : α) (f : α → Prog Op Ans β) : (Prog.pure a >>= f) = f a := rfl

@[simp] theorem step_bind (o : Op) (k : Ans o → Prog Op Ans α) (f : α → Prog Op Ans β) :
    (Prog.step o k >>= f) = .step o fun x => k x >>= f := rfl

@[simp] theorem fail_bind (f : α → Prog Op Ans β) : ((Prog.fail : Prog Op Ans α) >>= f) = .fail :=
  rfl

theorem bind_pure' (p : Prog Op Ans α) : (p >>= Prog.pure) = p := by
  induction p with
  | pure a => rfl
  | step o k ih => exact congrArg (Prog.step o) (funext ih)
  | fail => rfl

theorem bind_assoc' {δ : Type} (p : Prog Op Ans α) (f : α → Prog Op Ans β)
    (g : β → Prog Op Ans δ) : (p >>= f >>= g) = p >>= fun a => f a >>= g := by
  induction p with
  | pure a => rfl
  | step o k ih => exact congrArg (Prog.step o) (funext ih)
  | fail => rfl

instance : LawfulMonad (Prog Op Ans) :=
  LawfulMonad.mk' _ bind_pure' (fun _ _ => rfl) bind_assoc'

@[simp] theorem pure_def (a : α) : (Pure.pure a : Prog Op Ans α) = .pure a := rfl

/-! ## Sequential runs -/

/-- `none` is an undefined outcome: of `fail`, or of an operation the state does
not allow. -/
def run (exec : (o : Op) → W → Option (Ans o × W)) : Prog Op Ans α → W → Option (α × W)
  | .pure a, w => some (a, w)
  | .step o k, w => (exec o w).bind fun r => (k r.1).run exec r.2
  | .fail, _ => none

section Run

variable {exec : (o : Op) → W → Option (Ans o × W)}

@[simp] theorem run_pure (a : α) (w : W) : (Prog.pure a : Prog Op Ans α).run exec w = some (a, w) :=
  rfl

@[simp] theorem run_step (o : Op) (k : Ans o → Prog Op Ans α) (w : W) :
    (Prog.step o k).run exec w = (exec o w).bind fun r => (k r.1).run exec r.2 := rfl

@[simp] theorem run_fail (w : W) : (Prog.fail : Prog Op Ans α).run exec w = none := rfl

@[simp] theorem run_perform (o : Op) (w : W) : (perform o).run exec w = exec o w := by
  cases h : exec o w <;> simp [perform, h]

theorem run_bind (p : Prog Op Ans α) (f : α → Prog Op Ans β) (w : W) :
    (p >>= f).run exec w = (p.run exec w).bind fun r => (f r.1).run exec r.2 := by
  induction p generalizing w with
  | pure a => rfl
  | fail => rfl
  | step o k ih =>
      simp only [step_bind, run_step, Option.bind_assoc]
      exact congrArg _ (funext fun r => ih r.1 r.2)

theorem run_bind_of {p : Prog Op Ans α} {f : α → Prog Op Ans β} {w w' : W} {a : α}
    (h : p.run exec w = some (a, w')) : (p >>= f).run exec w = (f a).run exec w' := by
  rw [run_bind, h]
  rfl

theorem run_bind_eq_some {p : Prog Op Ans α} {f : α → Prog Op Ans β} {w : W} {r : β × W}
    (h : (p >>= f).run exec w = some r) :
    ∃ a w', p.run exec w = some (a, w') ∧ (f a).run exec w' = some r := by
  rw [run_bind] at h
  obtain ⟨⟨a, w'⟩, hp, hf⟩ := Option.bind_eq_some_iff.mp h
  exact ⟨a, w', hp, hf⟩

theorem run_forEach {ι : Type} {body : ι → Prog Op Ans Unit} {f : ι → W → W}
    (h : ∀ i w, (body i).run exec w = some ((), f i w)) (is : List ι) (w : W) :
    (forEach body is).run exec w = some ((), is.foldl (fun w i => f i w) w) := by
  induction is generalizing w with
  | nil => rfl
  | cons i is ih =>
      rw [forEach, run_bind_of (h i w), ih]
      rfl

/-- What a state keeps beside another does not change a run: forgetting it before
or after the run is the same. -/
theorem run_forget {W' : Type} {exec' : (o : Op) → W' → Option (Ans o × W')} {f : W' → W}
    (h : ∀ o w, (exec' o w).map (fun r => (r.1, f r.2)) = exec o (f w)) (p : Prog Op Ans α) (w : W') :
    (p.run exec' w).map (fun r => (r.1, f r.2)) = p.run exec (f w) := by
  induction p generalizing w with
  | pure a => rfl
  | fail => rfl
  | step o k ih =>
      rw [run_step, run_step, ← h o w]
      cases exec' o w with
      | none => rfl
      | some r => exact ih r.1 r.2

/-- Loop invariant of a counted loop. -/
theorem run_forEach_range {e : (o : Op) → W → Option (Ans o × W)} {b : Nat → Prog Op Ans Unit}
    {I : Nat → W → Prop} (h : ∀ i w, I i w → ∃ w', (b i).run e w = some ((), w') ∧ I (i + 1) w')
    {w : W} (h0 : I 0 w) (n : Nat) :
    ∃ w', (forEach b (List.range n)).run e w = some ((), w') ∧ I n w' := by
  have happend : ∀ (is js : List Nat) (w : W), (forEach b (is ++ js)).run e w =
      ((forEach b is).run e w).bind fun r => (forEach b js).run e r.2 := by
    intro is js w
    induction is generalizing w with
    | nil => rfl
    | cons i is ih =>
        simp only [List.cons_append, forEach, run_bind, Option.bind_assoc]
        exact congrArg _ (funext fun r => ih r.2)
  induction n with
  | zero => exact ⟨w, rfl, h0⟩
  | succ n ih =>
      obtain ⟨w', hrun, hI⟩ := ih
      obtain ⟨w'', hrun', hI'⟩ := h n w' hI
      refine ⟨w'', ?_, hI'⟩
      rw [List.range_succ, happend, hrun]
      simp only [Option.bind_some, forEach, run_bind, hrun', run_pure]

end Run

/-! ## Properties of every operation -/

def Each (P : Op → Prop) : Prog Op Ans α → Prop
  | .pure _ => True
  | .step o k => P o ∧ ∀ a, (k a).Each P
  | .fail => True

section Each

variable {P : Op → Prop} {exec exec' : (o : Op) → W → Option (Ans o × W)}

@[simp] theorem each_pure (a : α) : (Prog.pure a : Prog Op Ans α).Each P := trivial

@[simp] theorem each_fail : (Prog.fail : Prog Op Ans α).Each P := trivial

@[simp] theorem each_perform (o : Op) : (perform o : Prog Op Ans (Ans o)).Each P ↔ P o :=
  and_iff_left fun _ => trivial

theorem each_of_forall (h : ∀ o, P o) (p : Prog Op Ans α) : p.Each P := by
  induction p with
  | pure a => trivial
  | step o k ih => exact ⟨h o, ih⟩
  | fail => trivial

theorem Each.mono {P' : Op → Prop} {p : Prog Op Ans α} (hp : p.Each P) (h : ∀ o, P o → P' o) :
    p.Each P' := by
  induction p with
  | pure a => trivial
  | step o k ih => exact ⟨h o hp.1, fun a => ih a (hp.2 a)⟩
  | fail => trivial

theorem each_bind {p : Prog Op Ans α} {f : α → Prog Op Ans β} (hp : p.Each P)
    (hf : ∀ a, (f a).Each P) : (p >>= f).Each P := by
  induction p with
  | pure a => exact hf a
  | step o k ih => exact ⟨hp.1, fun a => ih a (hp.2 a)⟩
  | fail => trivial

theorem each_forEach {ι : Type} {body : ι → Prog Op Ans Unit} (h : ∀ i, (body i).Each P)
    (is : List ι) : (forEach body is).Each P := by
  induction is with
  | nil => trivial
  | cons i is ih => exact each_bind (h i) fun _ => ih

/-- What every operation preserves, a run preserves. -/
theorem Each.run_preserves {I : W → Prop}
    (hop : ∀ o w r, P o → I w → exec o w = some r → I r.2) {p : Prog Op Ans α} (hp : p.Each P)
    {w : W} {r : α × W} (hrun : p.run exec w = some r) (hw : I w) : I r.2 := by
  induction p generalizing w with
  | pure a =>
      obtain rfl := Option.some.inj hrun
      exact hw
  | step o k ih =>
      obtain ⟨r', hexec, hrest⟩ := Option.bind_eq_some_iff.mp hrun
      exact ih r'.1 (hp.2 r'.1) hrest (hop o w r' hp.1 hw hexec)
  | fail => exact absurd hrun (by simp)

theorem Each.run_congr (hop : ∀ o w, P o → exec o w = exec' o w) {p : Prog Op Ans α}
    (hp : p.Each P) (w : W) : p.run exec w = p.run exec' w := by
  induction p generalizing w with
  | pure a => rfl
  | step o k ih =>
      rw [run_step, run_step, hop o w hp.1]
      exact congrArg _ (funext fun r => ih r.1 (hp.2 r.1) r.2)
  | fail => rfl

end Each

/-! ## Expansion into a lower interface -/

section Expand

variable {Op' : Type} {Ans' : Op' → Type}

/-- Replace every operation by a program over a lower interface. -/
def expand (h : (o : Op) → Prog Op' Ans' (Ans o)) : Prog Op Ans α → Prog Op' Ans' α
  | .pure a => .pure a
  | .step o k => h o >>= fun x => (k x).expand h
  | .fail => .fail

theorem each_expand {P : Op → Prop} {P' : Op' → Prop} {h : (o : Op) → Prog Op' Ans' (Ans o)}
    (ho : ∀ o, P o → (h o).Each P') {p : Prog Op Ans α} (hp : p.Each P) : (p.expand h).Each P' := by
  induction p with
  | pure a => trivial
  | fail => trivial
  | step o k ih => exact each_bind (ho o hp.1) fun a => ih a (hp.2 a)

theorem expand_perform (h : (o : Op) → Prog Op' Ans' (Ans o)) (o : Op) :
    (perform o).expand h = h o := bind_pure' (h o)

theorem expand_bind (h : (o : Op) → Prog Op' Ans' (Ans o)) (p : Prog Op Ans α)
    (f : α → Prog Op Ans β) : (p >>= f).expand h = p.expand h >>= fun a => (f a).expand h := by
  induction p with
  | pure a => rfl
  | fail => rfl
  | step o k ih =>
      simp only [step_bind, expand, ih]
      exact (bind_assoc' (h o) _ _).symm

end Expand

end Prog

/-! ## Ghost state along every answer -/

/-- A discipline on the operations of one program: what each needs of the ghost
state, which answers it may get and how the ghost state moves. -/
structure Discipline (Op : Type) (Ans : Op → Type) (G : Type) where
  requires : (o : Op) → G → Prop
  answers : (o : Op) → G → Ans o → Prop
  next : (o : Op) → Ans o → G → G

/-- The program keeps the discipline from ghost state `g` on, whatever the
answers, and its results satisfy `Q`. -/
def Prog.Along (γ : Discipline Op Ans G) : Prog Op Ans α → (α → G → Prop) → G → Prop
  | .pure a, Q, g => Q a g
  | .step o k, Q, g => γ.requires o g ∧ ∀ a, γ.answers o g a → (k a).Along γ Q (γ.next o a g)
  | .fail, _, _ => True

namespace Prog

variable {γ : Discipline Op Ans G} {Q R : α → G → Prop} {g : G}

@[simp] theorem along_pure (a : α) : (Prog.pure a : Prog Op Ans α).Along γ Q g ↔ Q a g := Iff.rfl

@[simp] theorem along_fail : (Prog.fail : Prog Op Ans α).Along γ Q g ↔ True := Iff.rfl

theorem along_step (o : Op) (k : Ans o → Prog Op Ans α) :
    (Prog.step o k).Along γ Q g ↔
      γ.requires o g ∧ ∀ a, γ.answers o g a → (k a).Along γ Q (γ.next o a g) := Iff.rfl

theorem Along.mono {p : Prog Op Ans α} (hp : p.Along γ Q g) (h : ∀ a g, Q a g → R a g) :
    p.Along γ R g := by
  induction p generalizing g with
  | pure a => exact h a g hp
  | fail => trivial
  | step o k ih => exact ⟨hp.1, fun a ha => ih a (hp.2 a ha)⟩

theorem along_bind (p : Prog Op Ans α) (f : α → Prog Op Ans β) {Q : β → G → Prop} {g : G} :
    (p >>= f).Along γ Q g ↔ p.Along γ (fun a g' => (f a).Along γ Q g') g := by
  induction p generalizing g with
  | pure a => rfl
  | fail => rfl
  | step o k ih =>
      simp only [step_bind, along_step]
      exact and_congr_right fun _ => forall₂_congr fun a _ => ih a

theorem Along.bind {p : Prog Op Ans α} {f : α → Prog Op Ans β} {Q : β → G → Prop}
    (hp : p.Along γ R g) (hf : ∀ a g', R a g' → (f a).Along γ Q g') : (p >>= f).Along γ Q g :=
  (along_bind p f).mpr (hp.mono hf)

theorem Along.and {H : Type} {δ : Discipline Op Ans H} {R : α → H → Prop} {h : H}
    (hanswers : ∀ o h a, δ.answers o h a) {p : Prog Op Ans α} (hp : p.Along γ Q g)
    (hp' : p.Along δ R h) : p.Along γ (fun a g' => Q a g' ∧ ∃ h', R a h') g := by
  induction p generalizing g h with
  | pure a => exact ⟨hp, h, hp'⟩
  | fail => trivial
  | step o k ih => exact ⟨hp.1, fun a ha => ih a (hp.2 a ha) (hp'.2 a (hanswers o h a))⟩

theorem Along.expand {Op' : Type} {Ans' : Op' → Type} {δ : Discipline Op' Ans' G}
    {h : (o : Op) → Prog Op' Ans' (Ans o)}
    (hop : ∀ o g, γ.requires o g →
      (h o).Along δ (fun a g' => γ.answers o g a ∧ g' = γ.next o a g) g)
    {p : Prog Op Ans α} (hp : p.Along γ Q g) : (p.expand h).Along δ Q g := by
  induction p generalizing g with
  | pure a => exact hp
  | fail => trivial
  | step o k ih =>
      refine (hop o g hp.1).bind fun a g' hnext => ?_
      obtain ⟨hanswer, rfl⟩ := hnext
      exact ih a (hp.2 a hanswer)

/-- A run follows the ghost state, if every operation does. -/
theorem Along.run {exec : (o : Op) → W → Option (Ans o × W)} {R : G → W → Prop}
    (hop : ∀ o g w r, R g w → γ.requires o g → exec o w = some r →
      γ.answers o g r.1 ∧ R (γ.next o r.1 g) r.2)
    {p : Prog Op Ans α} (hp : p.Along γ Q g) {w : W} (hw : R g w) {r : α × W}
    (hrun : p.run exec w = some r) : ∃ g', Q r.1 g' ∧ R g' r.2 := by
  induction p generalizing g w with
  | pure a =>
      obtain rfl := Option.some.inj hrun
      exact ⟨g, hp, hw⟩
  | step o k ih =>
      obtain ⟨r', hexec, hrest⟩ := Option.bind_eq_some_iff.mp hrun
      obtain ⟨hanswer, hnext⟩ := hop o g w r' hw hp.1 hexec
      exact ih r'.1 (hp.2 r'.1 hanswer) hnext hrest
  | fail => exact absurd hrun (by simp)

end Prog

end Genlock
