import Genlock.Vsyncalter.Debts

/-! # The dividers after the call

Each of the five classes writes the original value of every divider last, in the
caller and in the handler. When the call has returned and no handler runs, nobody
owes an original value.
-/

namespace Genlock.Vsyncalter

variable {Φ α : Type}

/-! ## The base class -/

/-- The code of a class against one of its dividers: computing and writing modified
values leaves a party where it is, writing the original ones repays its debt. -/
structure PhyClass.Repays (cls : PhyClass Φ RegOp RegOp.Ans) (D : Divider Φ) : Prop where
  observing : cls.Observing
  succeeds : cls.NeverFails
  dividers : ∀ x {g : Debt Φ}, g.phase.Sharing →
    (cls.calculateFeedbackDividers x).Along D.discipline (fun _ g' => g'.phase = g.phase) g
  modified : ∀ {g : Debt Φ}, g.phase.Sharing →
    (cls.programMmio true).Along D.discipline (fun _ g' => g'.phase = g.phase) g
  original : ∀ {g : Debt Φ}, g.phase.Sharing → (cls.programMmio false).Along D.discipline
    (fun _ g' => g'.phase = g.phase ∧ g'.Repaid) g

def PhyClass.Prepares (cls : PhyClass Φ RegOp RegOp.Ans) (D : Divider Φ) (w : World Φ Hw) : Prop :=
  ∀ r, (cls.readRegisters >>= fun _ => cls.calculatePllClock).run (regExec fun _ => none) w = some r →
    D.frame r.2.hw ∧ D.copies r.2.obj.reg

def Divider.Ready (D : Divider Φ) (g : Debt Φ) : Prop :=
  ∀ hw obj, g.phase = .alone hw obj → D.frame hw ∧ D.copies obj.reg

/-- What the caller has at its return: no debt, or a handler that has paid it. -/
def Debt.Ended (g : Debt Φ) : Prop := ¬g.owes ∧ (g.phase = .settled ∨ ¬g.lent)

namespace Phase

theorem Sharing.ne_idle {p : Phase Φ} (h : p.Sharing) : p ≠ .idle := by
  rintro rfl
  exact h

theorem Sharing.not_alone {p : Phase Φ} (h : p.Sharing) (hw : Hw) (obj : Obj Φ) :
    p ≠ .alone hw obj := by
  rintro rfl
  exact h

theorem Sharing.looked_true {p : Phase Φ} (h : p.Sharing) : p.looked true = p := by
  cases p with
  | alone | idle => exact h.elim
  | ramping | armed | waited | settled | handling => rfl

theorem looked_sharing {p : Phase Φ} (h : p ≠ .idle) (done : Bool) : (p.looked done).Sharing := by
  cases p with
  | idle => exact absurd rfl h
  | waited => cases done <;> trivial
  | alone | ramping | armed | settled | handling => trivial

theorem Follows.sharing {p q : Phase Φ} (h : p.Follows q) (hp : p.Sharing) : q.Sharing := by
  rcases h with rfl | rfl
  · exact hp
  · exact looked_sharing hp.ne_idle false

theorem follows_looked (p : Phase Φ) : (p.looked true).Follows (p.looked false) := by
  cases p with
  | waited => exact Or.inr rfl
  | alone | ramping | armed | settled | idle | handling => exact Or.inl rfl

theorem Follows.of_looked {p q : Phase Φ} (h : ((p.looked false).looked true).Follows q) :
    (p.looked true).Follows q := by
  rcases h with rfl | rfl
  · cases p with
    | waited => exact Or.inr rfl
    | alone | ramping | armed | settled | idle | handling => exact Or.inl rfl
  · cases p with
    | waited => exact Or.inr rfl
    | alone | ramping | armed | settled | idle | handling => exact Or.inl rfl

end Phase

namespace PhyClass.Repays

variable {cls : PhyClass Φ RegOp RegOp.Ans} {D : Divider Φ} {g : Debt Φ}

theorem ready_of_sharing (h : g.phase.Sharing) : D.Ready g :=
  fun hw obj heq => absurd heq (h.not_alone hw obj)

theorem along_alone {p : PhyProg Φ RegOp RegOp.Ans α} (hp : Accesses ObservesReg p) {w : World Φ Hw}
    (hg : g.phase = .alone w.hw w.obj) : p.Along D.discipline (fun a g' =>
      ∃ w', p.run (regExec fun _ => none) w = some (a, w') ∧ g'.phase = .alone w'.hw w'.obj ∧
        g'.owes = g.owes ∧ g'.lent = g.lent) g := by
  induction p generalizing g w with
  | pure a => exact ⟨w, rfl, hg, rfl, rfl⟩
  | fail => trivial
  | step o k ih =>
      have hidle : g.phase ≠ .idle := by
        rw [hg]
        simp
      have hshare : ¬g.phase.Sharing := by
        rw [hg]
        exact id
      cases o with
      | getObj =>
          refine ⟨hidle, fun a ha => ?_⟩
          obtain rfl := ha.2 _ _ hg
          exact ih w.obj (hp.2 w.obj) hg
      | modObj f =>
          refine ⟨⟨hidle, fun h => absurd h hshare⟩, fun a _ => ?_⟩
          show (k ()).Along _ _ (D.next (.modObj f) () g)
          rw [Divider.next_modObj_alone hg]
          exact ih () (hp.2 ()) (g := { g with phase := .alone w.hw (f w.obj) })
            (w := { w with obj := f w.obj }) rfl
      | dev d =>
          refine ⟨⟨hidle, fun h => absurd h hshare, fun _ => hp.1⟩, fun a ha => ?_⟩
          obtain ⟨r, hexec, rfl⟩ := Option.map_eq_some_iff.mp (ha.2 _ _ hg)
          show (k r.1).Along _ _ (D.next (.dev d) r.1 g)
          rw [Divider.next_dev_alone hg]
          refine (ih r.1 (hp.2 r.1) (w := { w with hw := r.2 }) ?_).mono fun b g' hb => ?_
          · rw [Hw.exec_after hexec]
          · obtain ⟨w', hrun, hrest⟩ := hb
            refine ⟨w', ?_, hrest⟩
            rw [← hrun]
            show Option.bind (Option.map _ (w.hw.exec d)) _ = _
            rw [hexec]
            rfl
      | clientDone | usleep | timerDelete | makeTimer | await | enter => exact hp.1.elim

variable (h : cls.Repays D)

include h

theorem along_stepBody (x : ℚ) (steps : ℕ) (delay : ℤ) (hg : g.phase.Sharing) :
    (stepBody cls x steps delay true).Along D.discipline
      (fun status g' => status = 0 ∧ g'.phase = g.phase) g := by
  have hdividers := (h.dividers x hg).and (fun _ _ _ => trivial) (h.succeeds.dividers x false)
  refine hdividers.bind fun status g₁ hg₁ => ?_
  obtain ⟨hphase, -, rfl⟩ := hg₁
  rw [← hphase] at hg
  have hmodified := (h.modified hg).and (fun _ _ _ => trivial) (h.succeeds.program true false)
  refine ⟨hg, fun _ _ => hmodified.bind fun status g₂ hg₂ => ?_⟩
  obtain ⟨hphase₂, -, rfl⟩ := hg₂
  rw [if_neg (by decide)]
  have hsame := hphase₂.trans hphase
  split
  · refine ⟨?_, fun _ _ => ⟨rfl, hsame⟩⟩
    show g₂.phase.Sharing
    rw [hphase₂]
    exact hg
  · exact ⟨rfl, hsame⟩

theorem along_stepLoop (target size : ℚ) (steps : ℕ) (delay : ℤ) (left : ℕ) (x : ℚ)
    (hg : D.Ready g) (hidle : g.phase ≠ .idle) :
    (stepLoop cls target size steps delay true left x).Along D.discipline (fun status g' =>
      status = 0 ∧ (left = 0 ∧ g'.phase = g.phase ∨ (g.phase.looked true).Follows g'.phase)) g := by
  induction left generalizing g x with
  | zero => exact ⟨rfl, Or.inl ⟨rfl, rfl⟩⟩
  | succ left ih =>
      refine ⟨⟨hidle, hg⟩, fun done _ => ?_⟩
      have hshare := Phase.looked_sharing hidle done
      cases done with
      | true => exact ⟨rfl, Or.inr (Or.inl rfl)⟩
      | false =>
          refine (h.along_stepBody _ steps delay (g := { g with phase := g.phase.looked false })
            hshare).bind fun status g₁ hg₁ => ?_
          obtain ⟨rfl, hphase⟩ := hg₁
          replace hphase : g₁.phase = g.phase.looked false := hphase
          have hshare₁ : g₁.phase.Sharing := by
            rw [hphase]
            exact hshare
          refine (ih _ (ready_of_sharing hshare₁) hshare₁.ne_idle).mono fun status' g₂ hg₂ => ?_
          obtain ⟨rfl, hloop⟩ := hg₂
          refine ⟨rfl, Or.inr ?_⟩
          rcases hloop with ⟨-, hsame⟩ | hfollows
          · rw [hsame, hphase]
            exact g.phase.follows_looked
          · rw [hphase] at hfollows
            exact hfollows.of_looked

/-- A ramp that is turned away does nothing, any other looks at the flag. -/
theorem along_setPllClockFrom (current target shift : ℚ) (delay : ℤ) (hg : D.Ready g)
    (hidle : g.phase ≠ .idle) :
    (setPllClockFrom cls current target shift delay true).Along D.discipline (fun status g' =>
      (status ≠ 0 ∧ g' = g) ∨ (status = 0 ∧ (g.phase.looked true).Follows g'.phase)) g := by
  unfold setPllClockFrom
  split
  · exact Or.inl ⟨by decide, rfl⟩
  · rename_i hvalid
    push Not at hvalid
    cases hramp : rampSteps current target shift with
    | none => exact trivial
    | some ramp =>
        obtain ⟨steps, size⟩ := ramp
        have hpos := (rampSteps_spec hvalid.2.2 hramp).1
        refine (h.along_stepLoop target size steps delay steps current hg hidle).mono ?_
        intro status g' hg'
        obtain ⟨hstatus, hloop⟩ := hg'
        refine Or.inr ⟨hstatus, hloop.resolve_left fun hzero => ?_⟩
        exact absurd hzero.1 hpos.ne'

/-- `reset_phy_regs` repays the debt, however much of its ramp it does. -/
theorem along_resetPhyRegs (hg : g.phase.Sharing) :
    (resetPhyRegs cls).Along D.discipline
      (fun _ g' => g.phase.Follows g'.phase ∧ g'.Repaid) g := by
  refine ⟨hg, fun _ _ => ⟨hg.ne_idle, fun o _ => ?_⟩⟩
  refine (h.along_setPllClockFrom _ _ _ _ (ready_of_sharing hg) hg.ne_idle).bind ?_
  intro status g₁ hg₁
  have hfollows : g.phase.Follows g₁.phase := by
    rcases hg₁ with ⟨-, rfl⟩ | ⟨-, hfollows⟩
    · exact Or.inl rfl
    · rwa [hg.looked_true] at hfollows
  have hg₁ := hfollows.sharing hg
  refine ⟨hg₁, fun _ _ => (h.original hg₁).bind fun _ g₂ hg₂ => ?_⟩
  obtain ⟨hphase, hrepaid⟩ := hg₂
  have hg₂ : g₂.phase.Sharing := by
    rw [hphase]
    exact hg₁
  refine ⟨⟨hg₂.ne_idle, fun _ => ⟨fun _ hcopies => hcopies, Or.inr hrepaid, fun hlower => ?_⟩⟩, ?_⟩
  · exact absurd (hlower o) (by simp)
  · intro _ _
    show g.phase.Follows (D.next (.modObj _) () g₂).phase ∧ (D.next (.modObj _) () g₂).Repaid
    rw [Divider.next_modObj hg₂]
    refine ⟨?_, fun howes => hrepaid.owes howes.1, hrepaid.paid, ?_⟩
    · show g.phase.Follows g₂.phase
      rw [hphase]
      exact hfollows
    · rintro (hlent | ⟨howes, -⟩)
      · exact hrepaid.lent hlent
      · exact hrepaid.owes howes

/-- The wait ends because the handler is done, or with a restore of the caller. -/
theorem along_waitUntilDone (hg : D.Ready g) (hcalling : g.phase.Calling) (howes : ¬g.owes) :
    (waitUntilDone cls).Along D.discipline (fun _ g' => g'.Ended) g := by
  refine ⟨⟨hcalling, hg⟩, fun _ _ => ?_⟩
  have hpolled : g.phase.polled.Sharing ∧ g.phase.polled.looked false = .settled := by
    cases hphase : g.phase with
    | alone | ramping | armed | waited | settled => exact ⟨trivial, rfl⟩
    | idle | handling =>
        rw [hphase] at hcalling
        exact hcalling.elim
  refine ⟨⟨hpolled.1.ne_idle, fun hw obj heq => absurd heq (hpolled.1.not_alone hw obj)⟩, ?_⟩
  intro done _
  cases done with
  | false => exact ⟨howes, Or.inl hpolled.2⟩
  | true =>
      refine (h.along_resetPhyRegs (g := { g with phase := g.phase.polled.looked true })
        (Phase.looked_sharing hpolled.1.ne_idle true)).mono ?_
      intro _ g' hg'
      exact ⟨hg'.2.owes, Or.inr hg'.2.lent⟩

/-- `program_phy`, which ends without a debt: of its own, or lent to the timer. -/
theorem along_programPhy {w : World Φ Hw} (hprepares : cls.Prepares D w)
    (hg : g = Debt.none (.alone w.hw w.obj)) (td shift shift2 : ℚ) (threshold delay : ℤ) :
    (programPhy cls td shift shift2 threshold delay true true).Along D.discipline (fun ret g' =>
      (ret ≠ 0 → g'.Ended) ∧ (ret = 0 → D.Ready g' ∧ g'.phase.Calling ∧ ¬g'.owes)) g := by
  unfold programPhy
  dsimp only
  split
  · exact trivial
  · rename_i steps hsteps
    have hphase : g.phase = .alone w.hw w.obj := by rw [hg]; rfl
    refine (along_alone h.observing.reads hphase).bind ?_
    rintro _ g₁ ⟨w₁, hread, hphase₁, howes₁, hlent₁⟩
    refine (along_alone h.observing.clock hphase₁).bind ?_
    rintro clock g₂ ⟨w₂, hclock, hphase₂, howes₂, hlent₂⟩
    have hready := hprepares (clock, w₂) (by rw [Prog.run_bind_of hread, hclock])
    have hnot : ¬g₂.owes ∧ ¬g₂.lent := by
      rw [howes₂, howes₁, hlent₂, hlent₁, hg]
      exact ⟨id, id⟩
    refine ⟨⟨by rw [hphase₂]; simp, fun hshare => ?_⟩, fun _ _ => ?_⟩
    · rw [hphase₂] at hshare
      exact hshare.elim
    show Prog.Along _ _ _ (D.next (.modObj _) () g₂)
    rw [Divider.next_modObj_alone hphase₂]
    have hready₃ : ∀ obj : Obj Φ, obj.reg = w₂.obj.reg →
        D.Ready { g₂ with phase := .alone w₂.hw obj } := by
      intro obj hreg hw obj' heq
      obtain ⟨rfl, rfl⟩ : w₂.hw = hw ∧ obj = obj' := by
        injection heq with hhw hobj
        exact ⟨hhw, hobj⟩
      rw [hreg]
      exact hready
    split
    · exact ⟨fun hret => absurd rfl hret, fun _ => ⟨hready₃ _ rfl, trivial, hnot.1⟩⟩
    · refine (h.along_setPllClockFrom _ _ _ _ (hready₃ _ ?_) (by simp)).bind ?_
      · rfl
      rintro status g₄ (⟨hstatus, rfl⟩ | ⟨rfl, hfollows⟩)
      · rw [if_pos hstatus]
        exact ⟨fun _ => ⟨hnot.1, Or.inr hnot.2⟩, fun hret => absurd hret one_ne_zero⟩
      · rw [if_neg (by decide)]
        have hramping : g₄.phase = .ramping := by
          rcases hfollows with heq | heq <;> exact heq
        have hshare : g₄.phase.Sharing := by
          rw [hramping]
          trivial
        refine ⟨⟨hshare.ne_idle, fun _ => ⟨fun _ hcopies => hcopies, Or.inl fun obj hdone => ?_,
          fun _ => hramping⟩⟩, fun _ _ => ?_⟩
        · cases hdone
        show Prog.Along _ _ _ (D.next (.modObj _) () g₄)
        rw [Divider.next_modObj hshare]
        refine ⟨hramping, fun _ _ => ?_⟩
        refine ⟨fun hret => absurd rfl hret, fun _ => ⟨fun hw obj heq => ?_, trivial, fun howes => ?_⟩⟩
        · cases heq
        · exact howes.2 fun _ => rfl

/-! ### The three parties -/

def partyEnd : Party → Unit → Debt Φ → Prop
  | .caller, _, g => g.Ended
  | .handler, _, _ | .shutdown, _, _ => True

theorem along_partyThread {w : World Φ Hw} (hprepares : cls.Prepares D w) (pipe : ℤ)
    (r : SyncRequest) (i : Party) :
    (partyThread cls pipe { r with reset := true, commit := true } i).Along (D.party i) (partyEnd i)
      (Debt.none (if i = .caller then .alone w.hw w.obj else .idle)) := by
  cases i with
  | caller =>
      apply D.along_party (by decide)
      refine Prog.Along.bind (R := fun _ => Debt.Ended) ?_ fun _ _ hended => hended
      apply along_synchronizeVsync (Q := Debt.Ended) pipe r ⟨id, Or.inr id⟩
      refine (h.along_programPhy hprepares rfl _ _ _ _ _).mono fun ret g' hg' => ?_
      split
      · rename_i hret
        exact hg'.1 hret
      · rename_i hret
        obtain ⟨hready, hcalling, howes⟩ := hg'.2 (not_not.mp hret)
        exact h.along_waitUntilDone hready hcalling howes
  | handler =>
      refine ⟨rfl, fun _ _ => ?_⟩
      refine (D.along_party (by decide) (h.along_resetPhyRegs (g := Debt.none .handling) trivial)).bind ?_
      intro _ g' hg'
      exact ⟨⟨rfl, hg'.2.owes⟩, fun _ _ => trivial⟩
  | shutdown => exact ⟨trivial, fun _ _ => trivial⟩

/-- In every run whose accesses find in the window what their party wrote there, the
divider holds its original value once the call is over. -/
theorem intact_of_over {hw : Hw} {obj : Obj Φ} (hintact : D.intact hw)
    (hprepares : cls.Prepares D ⟨hw, obj, false, none⟩) (pipe : ℤ) (r : SyncRequest)
    (clientDone : Bool) {es : List (SignalStep Φ)} {c : SignalThreads Φ}
    (hrun : SignalRun (signalStart cls pipe r hw obj clientDone) es c)
    (hown : ∀ e ∈ es, D.SeesOwn e) (hover : CallOver c) : D.intact c.state.world.hw := by
  obtain ⟨g, hprog, hI, -⟩ := hrun.along (γ := D.party) (C := D.SeesOwn) (S := fun _ => True)
    (Q := partyEnd) (I := fun g s => D.Inv (g .caller) (g .handler) s)
    (g := fun i => Debt.none (if i = .caller then .alone hw obj else .idle))
    (fun i o g s a s' hI hrequires hexec hsees => by
      obtain ⟨hanswer, hnext⟩ := Divider.Inv.step i o g s a s' hI hrequires hexec hsees
      exact ⟨hanswer, hnext, trivial⟩)
    (fun i => h.along_partyThread hprepares pipe r i)
    { calling := trivial
      handler := rfl
      alone := fun hw' obj' heq => by
        injection heq with hhw hobj
        exact ⟨hhw, hobj, id⟩
      shared := fun hp => hp.elim
      unarmed := fun _ => ⟨rfl, rfl, id⟩
      debt := Or.inl hintact
      idle := fun _ => id
      done := fun _ => Or.inr id
      waited := fun heq => by cases heq
      settled := fun heq => by cases heq
      latchedCaller := rfl
      latchedHandler := rfl } hown
  have hended : (g .caller).Ended := by
    have halong := hprog .caller
    rw [hover.1] at halong
    exact halong
  rcases hI.debt with hintact | howes | howes | ⟨hlent, hpaid⟩
  · exact hintact
  · exact absurd howes hended.1
  · exact absurd howes (hI.idle hover.2)
  · rcases hended.2 with hsettled | hnot
    · rcases hI.settled hsettled with hpaid' | hnot
      · exact absurd hpaid' hpaid
      · exact absurd hlent hnot
    · exact absurd hlent hnot

end PhyClass.Repays

end Genlock.Vsyncalter
