import Genlock.Vsyncalter.Signals

/-! # Who owes the original value

One divider register under a call, its timer and Ctrl+C. Whoever writes another
value owes the original one until he has written it; when the caller arms the timer
he lends his debt to the handler. The register holds its original value as soon as
nobody owes it.
-/

namespace Genlock.Vsyncalter

variable {Φ α : Type}

/-! ## The register -/

def Hw.after (hw : Hw) : RegOp → Hw
  | .readReg _ | .cx0Read _ _ _ => hw
  | .writeReg addr val => hw.writeReg addr val
  | .cx0Write port lane addr data committed => hw.cx0Write port lane addr data committed

theorem Hw.exec_after {hw : Hw} {d : RegOp} {r : d.Ans × Hw} (h : hw.exec d = some r) :
    r.2 = hw.after d := by
  cases d with
  | readReg | cx0Read | writeReg | cx0Write =>
      obtain rfl := Option.some.inj h
      rfl

/-- A divider register: when it holds its original value, what every access keeps of
the registers and of the object, and what a party sees of the bytes that it wrote. -/
structure Divider (Φ : Type) where
  intact : Hw → Prop
  frame : Hw → Prop
  copies : Φ → Prop
  sees : (ℕ → U8) → RegOp → Hw → Prop
  intact_of_same : ∀ {hw hw'}, SameDividers hw hw' → intact hw → intact hw'

namespace Divider

variable (D : Divider Φ) (l : ℕ → U8) (d : RegOp)

def KeepsFrame : Prop := ∀ hw, D.frame hw → D.sees l d hw → D.frame (hw.after d)

def Keeps : Prop := ∀ hw, D.frame hw → D.sees l d hw → D.intact hw → D.intact (hw.after d)

def Restores : Prop := ∀ hw, D.frame hw → D.sees l d hw → D.intact (hw.after d)

end Divider

/-! ## What a party knows -/

/-- Where a party is. The caller is alone until it first looks at the flags and then
knows the registers and the object; it arms the timer after its ramp and waits, and
`settled` is a wait that ended without Ctrl+C. -/
inductive Phase (Φ : Type) where
  | alone (hw : Hw) (obj : Obj Φ)
  | ramping
  | armed
  | waited
  | settled
  | idle
  | handling

namespace Phase

def looked : Phase Φ → Bool → Phase Φ
  | alone _ _, _ => ramping
  | waited, false => settled
  | p, _ => p

def polled : Phase Φ → Phase Φ
  | alone _ _ | ramping | armed | waited => waited
  | p => p

def Sharing : Phase Φ → Prop
  | ramping | armed | waited | settled | handling => True
  | alone _ _ | idle => False

def Unarmed : Phase Φ → Prop
  | alone _ _ | ramping => True
  | _ => False

def Calling : Phase Φ → Prop
  | idle | handling => False
  | _ => True

def Follows (p q : Phase Φ) : Prop := q = p ∨ q = p.looked false

end Phase

/-- The debt of one party: whether it owes the original value, whether it has paid it
since the timer was armed, and whether it lent its debt. `latched` holds the bytes it
wrote last. -/
structure Debt (Φ : Type) where
  phase : Phase Φ
  owes : Prop
  paid : Prop
  lent : Prop
  latched : ℕ → U8

def Debt.none (phase : Phase Φ) : Debt Φ := ⟨phase, False, False, False, fun _ => 0⟩

structure Debt.Repaid (g : Debt Φ) : Prop where
  owes : ¬g.owes
  paid : g.paid
  lent : ¬g.lent

def Lowers (f : Obj Φ → Obj Φ) : Prop := ∀ obj, (f obj).base.done = false

def LeavesDone (f : Obj Φ → Obj Φ) : Prop :=
  ∀ obj, (f obj).base.done = true → obj.base.done = true

namespace Divider

variable (D : Divider Φ)

/-- An access repays the debt if it restores, and makes one if it does not keep. -/
def access (d : RegOp) (g : Debt Φ) : Debt Φ := { g with
  owes := ¬D.Restores g.latched d ∧ (g.owes ∨ ¬D.Keeps g.latched d)
  paid := g.paid ∨ D.Restores g.latched d
  lent := g.lent ∧ ¬D.Restores g.latched d
  latched := latch d g.latched }

def lend (f : Obj Φ → Obj Φ) (g : Debt Φ) : Debt Φ := { g with
  owes := g.owes ∧ ¬Lowers f
  lent := g.lent ∨ g.owes ∧ Lowers f }

def requires : PhyOp Φ RegOp → Debt Φ → Prop
  | .getObj, g => g.phase ≠ .idle
  | .modObj f, g => g.phase ≠ .idle ∧ (g.phase.Sharing →
      (∀ obj, D.copies obj.reg → D.copies (f obj).reg) ∧ (LeavesDone f ∨ g.Repaid) ∧
        (Lowers f → g.phase = .ramping))
  | .clientDone, g => g.phase ≠ .idle ∧
      ∀ hw obj, g.phase = .alone hw obj → D.frame hw ∧ D.copies obj.reg
  | .await, g => g.phase.Calling ∧
      ∀ hw obj, g.phase = .alone hw obj → D.frame hw ∧ D.copies obj.reg
  | .makeTimer _, g => g.phase = .ramping
  | .dev d, g => g.phase ≠ .idle ∧ (g.phase.Sharing → D.KeepsFrame g.latched d) ∧
      (¬g.phase.Sharing → ObservesReg d)
  | .usleep _, g | .timerDelete, g | .enter _, g => g.phase.Sharing

def answers : (o : PhyOp Φ RegOp) → Debt Φ → o.Ans RegOp.Ans → Prop
  | .getObj, g, o => (g.phase.Sharing → D.copies o.reg) ∧
      ∀ hw obj, g.phase = .alone hw obj → o = obj
  | .dev d, g, a => (g.phase.Sharing → ∃ hw, D.frame hw ∧ (hw.exec d).map Prod.fst = some a) ∧
      ∀ hw obj, g.phase = .alone hw obj → (hw.exec d).map Prod.fst = some a
  | _, _, _ => True

def next : (o : PhyOp Φ RegOp) → o.Ans RegOp.Ans → Debt Φ → Debt Φ
  | .modObj f, _, g =>
      match g.phase with
      | .alone hw obj => { g with phase := .alone hw (f obj) }
      | _ => lend f g
  | .clientDone, done, g => { g with phase := g.phase.looked done }
  | .await, _, g => { g with phase := g.phase.polled }
  | .makeTimer _, _, g => { g with phase := .armed }
  | .dev d, _, g =>
      match g.phase with
      | .alone hw obj => { g with phase := .alone (hw.after d) obj, latched := latch d g.latched }
      | _ => D.access d g
  | _, _, g => g

def discipline : Discipline (PhyOp Φ RegOp) (PhyOp.Ans RegOp.Ans) (Debt Φ) :=
  ⟨D.requires, D.answers, D.next⟩

section Next

variable {D} {g : Debt Φ}

theorem next_modObj (hg : g.phase.Sharing) (f : Obj Φ → Obj Φ) :
    D.next (.modObj f) () g = lend f g := by
  unfold next
  dsimp only
  split
  · rename_i heq
    rw [heq] at hg
    exact hg.elim
  · rfl

theorem next_modObj_alone {hw : Hw} {obj : Obj Φ} (hg : g.phase = .alone hw obj)
    (f : Obj Φ → Obj Φ) : D.next (.modObj f) () g = { g with phase := .alone hw (f obj) } := by
  unfold next
  dsimp only
  rw [hg]

theorem next_dev (hg : g.phase.Sharing) {d : RegOp} (a : d.Ans) :
    D.next (.dev d) a g = D.access d g := by
  unfold next
  dsimp only
  split
  · rename_i heq
    rw [heq] at hg
    exact hg.elim
  · rfl

theorem next_dev_alone {hw : Hw} {obj : Obj Φ} (hg : g.phase = .alone hw obj) {d : RegOp}
    (a : d.Ans) : D.next (.dev d) a g =
      { g with phase := .alone (hw.after d) obj, latched := latch d g.latched } := by
  unfold next
  dsimp only
  rw [hg]

end Next

end Divider

/-! ## The invariant -/

theorem Phase.sharing_of_not_unarmed {p : Phase Φ} (h : p.Calling) (h' : ¬p.Unarmed) : p.Sharing := by
  cases p with
  | alone | ramping => exact absurd trivial h'
  | armed | waited | settled => trivial
  | idle | handling => exact h.elim

/-- The debts of caller and handler against the registers, the object and the flags. -/
structure Divider.Inv (D : Divider Φ) (c h : Debt Φ) (s : SignalState Φ) : Prop where
  calling : c.phase.Calling
  handler : h.phase = if s.running then .handling else .idle
  alone : ∀ hw obj, c.phase = .alone hw obj →
    s.world.hw = hw ∧ s.world.obj = obj ∧ ¬c.lent
  shared : c.phase.Sharing → D.frame s.world.hw ∧ D.copies s.world.obj.reg
  unarmed : c.phase.Unarmed → s.world.timer = none ∧ s.running = false ∧ ¬h.paid
  debt : D.intact s.world.hw ∨ c.owes ∨ h.owes ∨ (c.lent ∧ ¬h.paid)
  idle : s.running = false → ¬h.owes
  done : s.world.obj.base.done = true → h.paid ∨ ¬c.lent
  waited : c.phase = .waited → h.paid ∨ ¬c.lent ∨ s.world.clientDone = true
  settled : c.phase = .settled → h.paid ∨ ¬c.lent
  latchedCaller : s.latched .caller = c.latched
  latchedHandler : s.latched .handler = h.latched

/-- An access finds in the window what the party wrote there itself. -/
def Divider.SeesOwn (D : Divider Φ) (e : SignalStep Φ) : Prop :=
  ∀ d, e.op = .op (.dev d) → D.sees (e.before.latched e.thread) d e.before.world.hw

namespace Divider.Inv

variable {D : Divider Φ} {c h : Debt Φ} {s s' : SignalState Φ}

theorem access_caller (hI : D.Inv c h s) (hc : c.phase.Sharing) {d : RegOp}
    (hframe : D.KeepsFrame c.latched d) (hsees : D.sees c.latched d s.world.hw) :
    D.Inv (D.access d c) h { s with
      world := { s.world with hw := s.world.hw.after d }
      latched := Function.update s.latched .caller (latch d (s.latched .caller)) } := by
  obtain ⟨hF, hcopies⟩ := hI.shared hc
  have hphase : (D.access d c).phase = c.phase := rfl
  have hlent : (D.access d c).lent → c.lent := fun hlent => hlent.1
  refine {
    calling := hI.calling
    handler := hI.handler
    alone := fun hw obj heq => ?_
    shared := fun _ => ⟨hframe _ hF hsees, hcopies⟩
    unarmed := hI.unarmed
    debt := ?_
    idle := hI.idle
    done := fun hdone => (hI.done hdone).imp_right fun hnot hlent' => hnot (hlent hlent')
    waited := fun hw => (hI.waited hw).imp_right (Or.imp_left fun hnot hlent' => hnot (hlent hlent'))
    settled := fun hs => (hI.settled hs).imp_right fun hnot hlent' => hnot (hlent hlent')
    latchedCaller := ?_
    latchedHandler := hI.latchedHandler }
  · rw [hphase] at heq
    rw [heq] at hc
    exact hc.elim
  · by_cases hR : D.Restores c.latched d
    · exact Or.inl (hR _ hF hsees)
    · rcases hI.debt with hintact | howes | howes | ⟨hlent, hpaid⟩
      · by_cases hK : D.Keeps c.latched d
        · exact Or.inl (hK _ hF hsees hintact)
        · exact Or.inr (Or.inl ⟨hR, Or.inr hK⟩)
      · exact Or.inr (Or.inl ⟨hR, Or.inl howes⟩)
      · exact Or.inr (Or.inr (Or.inl howes))
      · exact Or.inr (Or.inr (Or.inr ⟨⟨hlent, hR⟩, hpaid⟩))
  · simp only [Divider.access, Function.update_self, hI.latchedCaller]

/-- While the handler runs the caller has armed the timer. -/
theorem not_unarmed (hI : D.Inv c h s) (hrunning : s.running = true) : ¬c.phase.Unarmed := by
  intro hc
  rw [(hI.unarmed hc).2.1] at hrunning
  exact absurd hrunning (by decide)

theorem sharing (hI : D.Inv c h s) (hrunning : s.running = true) : c.phase.Sharing :=
  Phase.sharing_of_not_unarmed hI.calling (hI.not_unarmed hrunning)

theorem access_handler (hI : D.Inv c h s) (hrunning : s.running = true) {d : RegOp}
    (hframe : D.KeepsFrame h.latched d) (hsees : D.sees h.latched d s.world.hw) :
    D.Inv c (D.access d h) { s with
      world := { s.world with hw := s.world.hw.after d }
      latched := Function.update s.latched .handler (latch d (s.latched .handler)) } := by
  obtain ⟨hF, hcopies⟩ := hI.shared (hI.sharing hrunning)
  refine {
    calling := hI.calling
    handler := hI.handler
    alone := fun hw obj heq => ?_
    shared := fun _ => ⟨hframe _ hF hsees, hcopies⟩
    unarmed := fun hc => absurd hc (hI.not_unarmed hrunning)
    debt := ?_
    idle := fun hidle => absurd (hrunning.symm.trans hidle) (by decide)
    done := fun hdone => (hI.done hdone).imp_left Or.inl
    waited := fun hw => (hI.waited hw).imp_left Or.inl
    settled := fun hs => (hI.settled hs).imp_left Or.inl
    latchedCaller := hI.latchedCaller
    latchedHandler := ?_ }
  · have hsharing := hI.sharing hrunning
    rw [heq] at hsharing
    exact hsharing.elim
  · by_cases hR : D.Restores h.latched d
    · exact Or.inl (hR _ hF hsees)
    · rcases hI.debt with hintact | howes | howes | ⟨hlent, hpaid⟩
      · by_cases hK : D.Keeps h.latched d
        · exact Or.inl (hK _ hF hsees hintact)
        · exact Or.inr (Or.inr (Or.inl ⟨hR, Or.inr hK⟩))
      · exact Or.inr (Or.inl howes)
      · exact Or.inr (Or.inr (Or.inl ⟨hR, Or.inl howes⟩))
      · refine Or.inr (Or.inr (Or.inr ⟨hlent, ?_⟩))
        rintro (hpaid' | hR')
        · exact hpaid hpaid'
        · exact hR hR'
  · simp only [Divider.access, Function.update_self, hI.latchedHandler]

theorem signalExec_op {i : Party} {o : PhyOp Φ RegOp} {a : o.Ans RegOp.Ans}
    (h : signalExec i (.op o) s = some (a, s')) :
    ∃ w, execOp hwDevice pollFlags o s.world = some (a, w) ∧ s' = { s.note i o a with world := w } := by
  obtain ⟨⟨a', w⟩, hexec, heq⟩ := Option.map_eq_some_iff.mp h
  obtain ⟨rfl, rfl⟩ := Prod.mk.inj heq
  exact ⟨w, hexec, rfl⟩

theorem withPhase (hI : D.Inv c h s) {p : Phase Φ} (hcalling : p.Calling)
    (hshared : p.Sharing ∧ D.frame s.world.hw ∧ D.copies s.world.obj.reg)
    (hunarmed : p.Unarmed → c.phase.Unarmed)
    (hwaited : p = .waited → h.paid ∨ ¬c.lent ∨ s.world.clientDone = true)
    (hsettled : p = .settled → h.paid ∨ ¬c.lent) : D.Inv { c with phase := p } h s := by
  refine { hI with
    calling := hcalling
    alone := fun hw obj heq => ?_
    shared := fun _ => hshared.2
    unarmed := fun hp => hI.unarmed (hunarmed hp)
    waited := hwaited
    settled := hsettled }
  have hsharing := hshared.1
  rw [show p = .alone hw obj from heq] at hsharing
  exact hsharing.elim

/-- What the code before a look at the flags has left. -/
theorem ready (hI : D.Inv c h s)
    (hready : ∀ hw obj, c.phase = .alone hw obj → D.frame hw ∧ D.copies obj.reg) :
    D.frame s.world.hw ∧ D.copies s.world.obj.reg := by
  by_cases hc : c.phase.Sharing
  · exact hI.shared hc
  · cases hphase : c.phase with
    | alone hw obj =>
        obtain ⟨rfl, rfl, -⟩ := hI.alone hw obj hphase
        exact hready _ _ hphase
    | ramping | armed | waited | settled | handling =>
        rw [hphase] at hc
        exact absurd trivial hc
    | idle =>
        have hcalling := hI.calling
        rw [hphase] at hcalling
        exact hcalling.elim

theorem looked (hI : D.Inv c h s)
    (hready : ∀ hw obj, c.phase = .alone hw obj → D.frame hw ∧ D.copies obj.reg) :
    D.Inv { c with phase := c.phase.looked s.world.clientDone } h s := by
  have hboth := hI.ready hready
  have hcalling := hI.calling
  cases hphase : c.phase with
  | alone hw obj =>
      refine hI.withPhase trivial ⟨trivial, hboth⟩ (fun _ => ?_) (fun heq => by cases heq)
        fun heq => by cases heq
      rw [hphase]
      trivial
  | ramping | armed =>
      refine hI.withPhase trivial ⟨trivial, hboth⟩ (fun hp => ?_) (fun heq => by cases heq)
        fun heq => by cases heq
      rw [hphase]
      exact hp
  | waited =>
      cases hclient : s.world.clientDone with
      | true =>
          exact hI.withPhase trivial ⟨trivial, hboth⟩ (fun hp => hp.elim) (fun _ => hI.waited hphase)
            fun heq => by cases heq
      | false =>
          refine hI.withPhase trivial ⟨trivial, hboth⟩ (fun hp => hp.elim) (fun heq => by cases heq)
            fun _ => ?_
          rcases hI.waited hphase with hpaid | hlent | hset
          · exact Or.inl hpaid
          · exact Or.inr hlent
          · exact absurd (hclient.symm.trans hset) (by decide)
  | settled =>
      exact hI.withPhase trivial ⟨trivial, hboth⟩ (fun hp => hp.elim) (fun heq => by cases heq)
        fun _ => hI.settled hphase
  | idle | handling =>
      rw [hphase] at hcalling
      exact hcalling.elim

theorem polled (hI : D.Inv c h s)
    (hready : ∀ hw obj, c.phase = .alone hw obj → D.frame hw ∧ D.copies obj.reg)
    (hflags : (s.world.obj.base.done || s.world.clientDone) = true) :
    D.Inv { c with phase := c.phase.polled } h s := by
  have hboth := hI.ready hready
  have hcalling := hI.calling
  have hwaited : h.paid ∨ ¬c.lent ∨ s.world.clientDone = true := by
    rcases Bool.or_eq_true_iff.mp hflags with hdone | hclient
    · exact (hI.done hdone).imp_right Or.inl
    · exact Or.inr (Or.inr hclient)
  cases hphase : c.phase with
  | alone hw obj | ramping | armed | waited =>
      exact hI.withPhase trivial ⟨trivial, hboth⟩ (fun hp => hp.elim) (fun _ => hwaited)
        fun heq => by cases heq
  | settled =>
      exact hI.withPhase trivial ⟨trivial, hboth⟩ (fun hp => hp.elim) (fun heq => by cases heq)
        fun _ => hI.settled hphase
  | idle | handling =>
      rw [hphase] at hcalling
      exact hcalling.elim

theorem modObj_caller (hI : D.Inv c h s) {f : Obj Φ → Obj Φ}
    (hrequires : D.requires (.modObj f) c) :
    D.Inv (D.next (.modObj f) () c) h
      { s with world := { s.world with obj := f s.world.obj } } := by
  cases hphase : c.phase with
  | alone hw obj =>
      obtain ⟨hhw, hobj, hlent⟩ := hI.alone hw obj hphase
      rw [Divider.next_modObj_alone hphase]
      refine { hI with
        calling := trivial
        alone := fun hw' obj' heq => ?_
        shared := fun hp => hp.elim
        unarmed := fun _ => hI.unarmed (by rw [hphase]; trivial)
        done := fun _ => Or.inr hlent
        waited := fun heq => by cases heq
        settled := fun heq => by cases heq }
      injection heq with hhw' hobj'
      subst hhw' hobj'
      exact ⟨hhw, congrArg f hobj, hlent⟩
  | ramping | armed | waited | settled =>
      have hsharing : c.phase.Sharing := by
        rw [hphase]
        trivial
      obtain ⟨hF, hcopies⟩ := hI.shared hsharing
      obtain ⟨hcopies', hdone, hlowers⟩ := hrequires.2 hsharing
      rw [Divider.next_modObj hsharing]
      have hlent : (Divider.lend f c).lent → ¬Lowers f → c.lent := by
        rintro (hlent | ⟨-, hlower⟩) hnot
        · exact hlent
        · exact absurd hlower hnot
      refine { hI with
        alone := fun hw obj heq => ?_
        shared := fun _ => ⟨hF, hcopies' _ hcopies⟩
        debt := ?_
        done := fun hset => ?_
        waited := fun hw => ?_
        settled := fun hs => ?_ }
      · rw [show c.phase = .alone hw obj from heq] at hsharing
        exact hsharing.elim
      · rcases hI.debt with hintact | howes | howes | ⟨hlent, hpaid⟩
        · exact Or.inl hintact
        · by_cases hlower : Lowers f
          · have hunpaid := (hI.unarmed (by rw [hlowers hlower]; trivial)).2.2
            exact Or.inr (Or.inr (Or.inr ⟨Or.inr ⟨howes, hlower⟩, hunpaid⟩))
          · exact Or.inr (Or.inl ⟨howes, hlower⟩)
        · exact Or.inr (Or.inr (Or.inl howes))
        · exact Or.inr (Or.inr (Or.inr ⟨Or.inl hlent, hpaid⟩))
      · have hnot : ¬Lowers f := fun hlower => by
          have hclear := hlower s.world.obj
          rw [show (f s.world.obj).base.done = true from hset] at hclear
          exact absurd hclear (by decide)
        rcases hdone with hleaves | hrepaid
        · exact (hI.done (hleaves _ hset)).imp_right fun h' hlent' => h' (hlent hlent' hnot)
        · exact Or.inr fun hlent' => hrepaid.lent (hlent hlent' hnot)
      · have hnot : ¬Lowers f := fun hlower => by
          rw [show c.phase = .waited from hw] at hlowers
          exact absurd (hlowers hlower) (by simp)
        exact (hI.waited hw).imp_right (Or.imp_left fun h' hlent' => h' (hlent hlent' hnot))
      · have hnot : ¬Lowers f := fun hlower => by
          rw [show c.phase = .settled from hs] at hlowers
          exact absurd (hlowers hlower) (by simp)
        exact (hI.settled hs).imp_right fun h' hlent' => h' (hlent hlent' hnot)
  | idle | handling =>
      have hcalling := hI.calling
      rw [hphase] at hcalling
      exact hcalling.elim

theorem access_alone (hI : D.Inv c h s) {hw : Hw} {obj : Obj Φ} (hphase : c.phase = .alone hw obj)
    {d : RegOp} (hobserves : ObservesReg d) {r : d.Ans × Hw} (hexec : s.world.hw.exec d = some r) :
    D.Inv { c with phase := .alone (hw.after d) obj, latched := latch d c.latched } h { s with
      world := { s.world with hw := s.world.hw.after d }
      latched := Function.update s.latched .caller (latch d (s.latched .caller)) } := by
  obtain ⟨hhw, hobj, hlent⟩ := hI.alone hw obj hphase
  have hsame := ObservesReg.exec hobserves hexec
  rw [Hw.exec_after hexec] at hsame
  refine { hI with
    calling := trivial
    alone := fun hw' obj' heq => ?_
    shared := fun hp => hp.elim
    unarmed := fun _ => hI.unarmed (by rw [hphase]; trivial)
    debt := hI.debt.imp_left (D.intact_of_same hsame)
    waited := fun heq => by cases heq
    settled := fun heq => by cases heq
    latchedCaller := by simp only [Function.update_self, hI.latchedCaller] }
  injection heq with hhw' hobj'
  subst hhw' hobj'
  exact ⟨congrArg (Hw.after · d) hhw, hobj, hlent⟩

theorem op_caller (hI : D.Inv c h s) {o : PhyOp Φ RegOp} {a : o.Ans RegOp.Ans}
    (hrequires : D.requires o c) (hexec : signalExec .caller (.op o) s = some (a, s'))
    (hsees : D.SeesOwn ⟨s, .caller, .op o, s'⟩) :
    D.answers o c a ∧ D.Inv (D.next o a c) h s' := by
  obtain ⟨w, hw, rfl⟩ := signalExec_op hexec
  cases o with
  | getObj =>
      obtain ⟨rfl, rfl⟩ := Prod.mk.inj (Option.some.inj hw)
      exact ⟨⟨fun hc => (hI.shared hc).2, fun hw obj heq => (hI.alone hw obj heq).2.1⟩, hI⟩
  | modObj f =>
      obtain ⟨-, rfl⟩ := Prod.mk.inj (Option.some.inj hw)
      exact ⟨trivial, hI.modObj_caller hrequires⟩
  | clientDone =>
      obtain ⟨rfl, rfl⟩ := Prod.mk.inj (Option.some.inj hw)
      exact ⟨trivial, { hI.looked hrequires.2 with }⟩
  | usleep usec =>
      obtain ⟨-, rfl⟩ := Prod.mk.inj (Option.some.inj hw)
      exact ⟨trivial, hI⟩
  | enter mod =>
      obtain ⟨-, rfl⟩ := Prod.mk.inj (Option.some.inj hw)
      cases mod with
      | false => exact ⟨trivial, hI⟩
      | true => exact ⟨trivial, { hI with }⟩
  | timerDelete =>
      obtain ⟨-, rfl⟩ := Prod.mk.inj (Option.some.inj hw)
      exact ⟨trivial, { hI with unarmed := fun hc => ⟨rfl, (hI.unarmed hc).2⟩ }⟩
  | makeTimer expireMs =>
      obtain ⟨-, rfl⟩ := Prod.mk.inj (Option.some.inj hw)
      have hsharing : c.phase.Sharing := by
        rw [show c.phase = .ramping from hrequires]
        trivial
      have harmed := hI.withPhase (p := .armed) trivial ⟨trivial, hI.shared hsharing⟩
        (fun hp => hp.elim) (fun heq => by cases heq) fun heq => by cases heq
      exact ⟨trivial, { harmed with unarmed := fun hp => hp.elim }⟩
  | await =>
      obtain ⟨w', hpoll, heq⟩ := Option.map_eq_some_iff.mp hw
      obtain ⟨hflags, hsame⟩ := Option.ite_none_right_eq_some.mp hpoll
      obtain rfl := Option.some.inj hsame
      obtain ⟨-, rfl⟩ := Prod.mk.inj heq
      exact ⟨trivial, hI.polled hrequires.2 hflags⟩
  | dev d =>
      obtain ⟨r, hr, heq⟩ := Option.map_eq_some_iff.mp hw
      obtain ⟨rfl, rfl⟩ := Prod.mk.inj heq
      have hafter := Hw.exec_after hr
      rw [hafter]
      refine ⟨⟨fun hc => ⟨_, (hI.shared hc).1, congrArg (Option.map Prod.fst) hr⟩, fun hw obj heq => ?_⟩, ?_⟩
      · rw [← (hI.alone hw obj heq).1]
        exact congrArg (Option.map Prod.fst) hr
      · by_cases hc : c.phase.Sharing
        · rw [Divider.next_dev hc]
          have hown := hsees d rfl
          rw [show s.latched .caller = c.latched from hI.latchedCaller] at hown
          exact hI.access_caller hc (hrequires.2.1 hc) hown
        · cases hphase : c.phase with
          | alone hw obj =>
              rw [Divider.next_dev_alone hphase]
              exact hI.access_alone hphase (hrequires.2.2 hc) hr
          | ramping | armed | waited | settled | handling =>
              rw [hphase] at hc
              exact absurd trivial hc
          | idle => exact absurd hphase hrequires.1

theorem handling (hI : D.Inv c h s) (hidle : h.phase ≠ .idle) :
    s.running = true ∧ h.phase = .handling := by
  have hphase := hI.handler
  cases hrunning : s.running with
  | false =>
      rw [hrunning] at hphase
      exact absurd hphase hidle
  | true =>
      rw [hrunning] at hphase
      exact ⟨rfl, hphase⟩

theorem modObj_handler (hI : D.Inv c h s) {f : Obj Φ → Obj Φ}
    (hrequires : D.requires (.modObj f) h) :
    D.Inv c (D.next (.modObj f) () h)
      { s with world := { s.world with obj := f s.world.obj } } := by
  obtain ⟨hrunning, hphase⟩ := hI.handling hrequires.1
  have hsharing := hI.sharing hrunning
  obtain ⟨hF, hcopies⟩ := hI.shared hsharing
  have hhandling : h.phase.Sharing := by
    rw [hphase]
    trivial
  obtain ⟨hcopies', hdone, hlowers⟩ := hrequires.2 hhandling
  have hnot : ¬Lowers f := fun hlower => by
    rw [hphase] at hlowers
    exact absurd (hlowers hlower) (by simp)
  rw [Divider.next_modObj hhandling]
  refine { hI with
    alone := fun hw obj heq => ?_
    shared := fun _ => ⟨hF, hcopies' _ hcopies⟩
    debt := hI.debt.imp_right (Or.imp_right (Or.imp_left fun howes => ⟨howes, hnot⟩))
    idle := fun hidle => absurd (hrunning.symm.trans hidle) (by decide)
    done := fun hset => ?_ }
  · rw [heq] at hsharing
    exact hsharing.elim
  · rcases hdone with hleaves | hrepaid
    · exact hI.done (hleaves _ hset)
    · exact Or.inl hrepaid.paid

theorem op_handler (hI : D.Inv c h s) {o : PhyOp Φ RegOp} {a : o.Ans RegOp.Ans}
    (hrequires : D.requires o h) (hexec : signalExec .handler (.op o) s = some (a, s'))
    (hsees : D.SeesOwn ⟨s, .handler, .op o, s'⟩) :
    D.answers o h a ∧ D.Inv c (D.next o a h) s' := by
  obtain ⟨w, hw, rfl⟩ := signalExec_op hexec
  have hnotalone : h.phase ≠ .idle → ∀ hw obj, h.phase ≠ .alone hw obj := by
    intro hidle hw obj heq
    exact absurd ((hI.handling hidle).2.symm.trans heq) (by simp)
  have hshared : h.phase ≠ .idle → D.frame s.world.hw ∧ D.copies s.world.obj.reg :=
    fun hidle => hI.shared (hI.sharing (hI.handling hidle).1)
  cases o with
  | getObj =>
      obtain ⟨rfl, rfl⟩ := Prod.mk.inj (Option.some.inj hw)
      exact ⟨⟨fun _ => (hshared hrequires).2, fun hw obj heq => absurd heq (hnotalone hrequires hw obj)⟩, hI⟩
  | modObj f =>
      obtain ⟨-, rfl⟩ := Prod.mk.inj (Option.some.inj hw)
      exact ⟨trivial, hI.modObj_handler hrequires⟩
  | clientDone =>
      obtain ⟨rfl, rfl⟩ := Prod.mk.inj (Option.some.inj hw)
      have hlooked : h.phase.looked s.world.clientDone = h.phase := by
        rw [(hI.handling hrequires.1).2]
        rfl
      show _ ∧ D.Inv c { h with phase := h.phase.looked s.world.clientDone } _
      rw [hlooked]
      exact ⟨trivial, { hI with }⟩
  | usleep usec =>
      obtain ⟨-, rfl⟩ := Prod.mk.inj (Option.some.inj hw)
      exact ⟨trivial, hI⟩
  | enter mod =>
      obtain ⟨-, rfl⟩ := Prod.mk.inj (Option.some.inj hw)
      cases mod with
      | false => exact ⟨trivial, hI⟩
      | true => exact ⟨trivial, { hI with }⟩
  | timerDelete =>
      obtain ⟨-, rfl⟩ := Prod.mk.inj (Option.some.inj hw)
      exact ⟨trivial, { hI with unarmed := fun hc => ⟨rfl, (hI.unarmed hc).2⟩ }⟩
  | makeTimer expireMs =>
      have hidle : h.phase ≠ .idle := by
        rw [show h.phase = .ramping from hrequires]
        simp
      exact absurd ((hI.handling hidle).2.symm.trans hrequires) (by simp)
  | await =>
      have hidle : h.phase ≠ .idle := fun heq => by
        have hcalling := hrequires.1
        rw [heq] at hcalling
        exact hcalling
      have hcalling := hrequires.1
      rw [(hI.handling hidle).2] at hcalling
      exact hcalling.elim
  | dev d =>
      obtain ⟨r, hr, heq⟩ := Option.map_eq_some_iff.mp hw
      obtain ⟨rfl, rfl⟩ := Prod.mk.inj heq
      have hafter := Hw.exec_after hr
      obtain ⟨hrunning, hphase⟩ := hI.handling hrequires.1
      have hhandling : h.phase.Sharing := by
        rw [hphase]
        trivial
      rw [hafter]
      refine ⟨⟨fun _ => ⟨_, (hshared hrequires.1).1, congrArg (Option.map Prod.fst) hr⟩,
        fun hw obj heq => absurd heq (hnotalone hrequires.1 hw obj)⟩, ?_⟩
      rw [Divider.next_dev hhandling]
      have hown := hsees d rfl
      rw [show s.latched .handler = h.latched from hI.latchedHandler] at hown
      exact hI.access_handler hrunning (hrequires.2.1 hhandling) hown

end Divider.Inv

/-! ## The parties -/

def Divider.partyRequires (D : Divider Φ) (i : Party) : SignalOp Φ → Debt Φ → Prop
  | .expire, _ => i = .handler
  | .handled, g => i = .handler ∧ ¬g.owes
  | .shutdownLib, _ => True
  | .op o, g => i ≠ .shutdown ∧ D.requires o g

def Divider.party (D : Divider Φ) (i : Party) : Discipline (SignalOp Φ) SignalOp.Ans (Debt Φ) where
  requires := D.partyRequires i
  answers o g a := match o, a with
    | .op o, a => D.answers o g a
    | _, _ => True
  next o a g := match o, a with
    | .expire, _ => { g with phase := .handling }
    | .handled, _ => { g with phase := .idle }
    | .shutdownLib, _ => g
    | .op o, a => D.next o a g

theorem Divider.along_party (D : Divider Φ) {i : Party} (hi : i ≠ .shutdown)
    {p : PhyProg Φ RegOp RegOp.Ans α} {Q : α → Debt Φ → Prop} {g : Debt Φ}
    (hp : p.Along D.discipline Q g) : (phyCode p).Along (D.party i) Q g := by
  refine Prog.Along.expand ?_ hp
  intro o g hrequires
  exact ⟨⟨hi, hrequires⟩, fun a hanswer => ⟨hanswer, rfl⟩⟩

theorem Divider.Inv.step {D : Divider Φ} (i : Party) (o : SignalOp Φ) (g : Party → Debt Φ)
    (s : SignalState Φ) (a : o.Ans) (s' : SignalState Φ) (hI : D.Inv (g .caller) (g .handler) s)
    (hrequires : (D.party i).requires o (g i)) (hexec : signalExec i o s = some (a, s'))
    (hsees : D.SeesOwn ⟨s, i, o, s'⟩) : (D.party i).answers o (g i) a ∧
      D.Inv (Function.update g i ((D.party i).next o a (g i)) .caller)
        (Function.update g i ((D.party i).next o a (g i)) .handler) s' := by
  cases o with
  | expire =>
      obtain rfl : i = .handler := hrequires
      obtain ⟨htimer, hsome⟩ := Option.ite_none_right_eq_some.mp hexec
      obtain rfl := congrArg Prod.snd (Option.some.inj hsome)
      have hnot : ¬(g .caller).phase.Unarmed := fun hc => by
        rw [(hI.unarmed hc).1] at htimer
        exact absurd htimer (by decide)
      refine ⟨trivial, ?_⟩
      exact { hI with
        handler := rfl
        unarmed := fun hc => absurd hc hnot
        idle := fun hidle => by cases hidle }
  | handled =>
      obtain ⟨rfl, howes⟩ := hrequires
      obtain rfl := congrArg Prod.snd (Option.some.inj hexec)
      refine ⟨trivial, ?_⟩
      exact { hI with
        handler := rfl
        unarmed := fun hc => ⟨(hI.unarmed hc).1, rfl, (hI.unarmed hc).2.2⟩
        idle := fun _ => howes }
  | shutdownLib =>
      obtain rfl := congrArg Prod.snd (Option.some.inj hexec)
      refine ⟨trivial, ?_⟩
      show D.Inv (Function.update g i (g i) .caller) (Function.update g i (g i) .handler) _
      rw [Function.update_eq_self]
      exact { hI with waited := fun _ => Or.inr (Or.inr rfl) }
  | op o =>
      cases i with
      | caller =>
          obtain ⟨hanswer, hnext⟩ := hI.op_caller hrequires.2 hexec hsees
          exact ⟨hanswer, hnext⟩
      | handler =>
          obtain ⟨hanswer, hnext⟩ := hI.op_handler hrequires.2 hexec hsees
          exact ⟨hanswer, hnext⟩
      | shutdown => exact absurd rfl hrequires.1

end Genlock.Vsyncalter
