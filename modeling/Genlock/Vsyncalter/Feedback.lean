import Genlock.Vsyncalter.Cells

/-! # The dividers when a call is over

The call, its handler and Ctrl+C in any order leave the feedback dividers as
`program_phy` read them. On C20 PHYs this needs that no committed write of the SRAM
window finds bytes of the other thread there.
-/

namespace Genlock.Vsyncalter

/-! ## The registers -/

namespace PhyKind

def SameFeedback : PhyKind → (hw hw' : Hw) → Prop
  | combo n, hw, hw' => hw'.mmio (dpllCfgcr0 n) = hw.mmio (dpllCfgcr0 n)
  | dkl phy, hw, hw' => ∀ off ∈ dklOffsets, hw'.dkl phy (dklPage phy hw) off = dklReg phy hw off
  | c10 port, hw, hw' =>
      c10State port hw' c10PllRegQuotLow = c10State port hw c10PllRegQuotLow ∧
        c10State port hw' c10PllRegQuotHigh = c10State port hw c10PllRegQuotHigh
  | c20 port isBMG, hw, hw' =>
      let mpll := c20HwMpll port isBMG hw
      hw'.sram port (rawcmnDigCfg8 mpll) = hw.sram port (rawcmnDigCfg8 mpll) ∧
        hw'.sram port (rawcmnDigCfg9 mpll) = hw.sram port (rawcmnDigCfg9 mpll)
  | dpMN pipe, hw, hw' => hw'.mmio (pipeM1 pipe) = hw.mmio (pipeM1 pipe) ∧
      hw'.mmio (pipeN1 pipe) = hw.mmio (pipeN1 pipe)

/-- What a thread commits through the SRAM window it wrote there itself. -/
def CommitsOwn : (k : PhyKind) → SignalStep k.Reg → Prop
  | c20 port _, e => match e.op with
      | .op (.dev d) => SeesWindow port (e.before.latched e.thread) d e.before.world.hw
      | _ => True
  | _, _ => True

instance decidableCommitsOwn : (k : PhyKind) → (e : SignalStep k.Reg) → Decidable (k.CommitsOwn e)
  | c20 port _, ⟨s, i, .op (.dev d), _⟩ =>
      inferInstanceAs (Decidable (SeesWindow port (s.latched i) d s.world.hw))
  | c20 _ _, ⟨_, _, .op .getObj, _⟩ | c20 _ _, ⟨_, _, .op (.modObj _), _⟩
  | c20 _ _, ⟨_, _, .op .clientDone, _⟩ | c20 _ _, ⟨_, _, .op (.usleep _), _⟩
  | c20 _ _, ⟨_, _, .op .timerDelete, _⟩ | c20 _ _, ⟨_, _, .op (.makeTimer _), _⟩
  | c20 _ _, ⟨_, _, .op .await, _⟩ | c20 _ _, ⟨_, _, .op (.enter _), _⟩
  | c20 _ _, ⟨_, _, .expire, _⟩ | c20 _ _, ⟨_, _, .handled, _⟩
  | c20 _ _, ⟨_, _, .shutdownLib, _⟩ => .isTrue trivial
  | combo _, _ | dkl _, _ | c10 _, _ | dpMN _, _ => .isTrue trivial

end PhyKind

/-- After a call every divider holds its original value. -/
theorem sameFeedback_of_over (k : PhyKind) (pipe : ℤ) (r : SyncRequest) (hw : Hw) (obj : Obj k.Reg)
    (clientDone : Bool) {es : List (SignalStep k.Reg)} {c : SignalThreads k.Reg}
    (hrun : SignalRun (signalStart k.cls pipe r hw obj clientDone) es c)
    (hown : ∀ e ∈ es, k.CommitsOwn e) (hover : CallOver c) : k.SameFeedback hw c.state.world.hw := by
  cases k with
  | combo n =>
      exact (combo_repays n hw).intact_of_over rfl (combo_prepares n hw obj) pipe r clientDone hrun
        (fun _ _ _ _ => trivial) hover
  | dkl phy =>
      intro off hoff
      exact (dkl_repays phy hw hoff).intact_of_over rfl (dkl_prepares phy hw obj) pipe r clientDone hrun
        (fun _ _ _ _ => trivial) hover
  | c10 port =>
      have hbyte {i : ℕ} (hi : C10QuotByte i) : c10State port c.state.world.hw i = c10State port hw i :=
        (c10_repays port hw hi).intact_of_over rfl (c10_prepares port hw hi obj) pipe r clientDone hrun
          (fun _ _ _ _ => trivial) hover
      exact ⟨hbyte (Or.inl rfl), hbyte (Or.inr rfl)⟩
  | c20 port isBMG =>
      have hword {addr : U16} (haddr : addr = rawcmnDigCfg8 (c20HwMpll port isBMG hw) ∨
          addr = rawcmnDigCfg9 (c20HwMpll port isBMG hw)) :
          c.state.world.hw.sram port addr = hw.sram port addr := by
        have hsees : ∀ e ∈ es, (c20Divider port isBMG hw addr).SeesOwn e := by
          intro e he d hd
          have h := hown e he
          simp only [PhyKind.CommitsOwn, hd] at h
          exact h
        have hintact : (c20Divider port isBMG hw addr).intact c.state.world.hw :=
          (c20_repays port isBMG hw haddr).intact_of_over rfl (c20_prepares port isBMG hw obj)
            pipe r clientDone hrun hsees hover
        exact hintact
      exact ⟨hword (Or.inl rfl), hword (Or.inr rfl)⟩
  | dpMN pipe =>
      have hreg {addr : ℕ} (haddr : addr = pipeM1 pipe ∨ addr = pipeN1 pipe) :
          c.state.world.hw.mmio addr = hw.mmio addr :=
        (dpMN_repays pipe hw haddr).intact_of_over rfl (dpMN_prepares pipe hw haddr obj) _ r clientDone
          hrun (fun _ _ _ _ => trivial) hover
      exact ⟨hreg (Or.inl rfl), hreg (Or.inr rfl)⟩

/-- In every run whose commits are the threads' own, the dividers hold their original
values once the call is over, and after the flag is set a thread makes at most the
step that it has started. -/
theorem feedback_restored (k : PhyKind) (pipe : ℤ) (r : SyncRequest) (hw : Hw) (obj : Obj k.Reg)
    (clientDone : Bool) (es : List (SignalStep k.Reg)) (c : SignalThreads k.Reg)
    (hrun : SignalRun (signalStart k.cls pipe r hw obj clientDone) es c)
    (hown : ∀ e ∈ es, k.CommitsOwn e) :
    (CallOver c → k.SameFeedback hw c.state.world.hw) ∧ (∀ i, c.state.lateSteps i ≤ 1) ∧
      ∀ e ∈ es, StartedBefore e :=
  ⟨sameFeedback_of_over k pipe r hw obj clientDone hrun hown,
    lateSteps_le_one k.observing pipe r hw obj clientDone hrun⟩

/-! ### A C20 PHY -/

/-- Every SRAM word is 1, but the fractional remainder of MPLLA is 2. -/
def c20TwoWords : Hw :=
  ⟨fun _ => 0, fun _ _ _ => 0, fun _ _ _ => 0, fun _ addr => if addr = rawcmnDigCfg9 .a then 2 else 1⟩

/-- A drift of 1 ms with a shift of 0.01, on a new PHY. -/
def c20Call : SignalThreads C20PhyReg :=
  signalStart (PhyKind.c20 0 false).cls 0 ⟨1, 0, 1 / 100, 0, 1000, 50, true, true⟩ c20TwoWords
    ⟨⟨true, 0, 0, 0, 0⟩, C20PhyReg.zero⟩ false

def turns (stretches : List (ℕ × Party)) : List Party :=
  stretches.flatMap fun s => List.replicate s.1 s.2

/-- The caller programs the PHY and waits; the handler restores the registers. -/
def restoringTurns : List Party := turns [(125, .caller), (41, .handler), (2, .caller)]

theorem feedback_restored_c20 : ∃ es c, SignalRun c20Call es c ∧ CallOver c ∧
    (PhyKind.c20 0 false).SameFeedback c20TwoWords c.state.world.hw := by
  have hrun : (Threads.schedule signalExec restoringTurns c20Call).map (fun r =>
      ((r.2.prog .caller).returned, r.2.state.running,
        r.1.all fun e => decide ((PhyKind.c20 0 false).CommitsOwn e))) = some (true, false, true) := by
    decide +kernel
  obtain ⟨⟨es, c⟩, hschedule, hend⟩ := Option.map_eq_some_iff.mp hrun
  obtain ⟨hreturned, hrunning, hown⟩ : (c.prog .caller).returned = true ∧ c.state.running = false ∧
      (es.all fun e => decide ((PhyKind.c20 0 false).CommitsOwn e)) = true := by
    simpa using hend
  have hover : CallOver c := ⟨Prog.eq_pure_of_returned hreturned, hrunning⟩
  have hsteps := Threads.run_of_schedule hschedule
  exact ⟨es, c, hsteps, hover, (feedback_restored (.c20 0 false) 0 _ c20TwoWords _ false es c hsteps
    (fun e he => of_decide_eq_true (List.all_eq_true.mp hown e he))).1 hover⟩

/-- Ctrl+C while the handler restores the registers: the caller writes the address of
the quotient into the window before the handler commits the remainder. -/
def losingTurns : List Party :=
  turns [(103, .caller), (1, .shutdown), (3, .caller), (15, .handler), (12, .caller), (7, .handler),
    (10, .caller)]

theorem feedback_lost_c20 : ∃ es c, SignalRun c20Call es c ∧ CallOver c ∧
    ¬(PhyKind.c20 0 false).SameFeedback c20TwoWords c.state.world.hw := by
  have hrun : (Threads.schedule signalExec losingTurns c20Call).map (fun r =>
      ((r.2.prog .caller).returned, r.2.state.running,
        r.2.state.world.hw.sram 0 (rawcmnDigCfg8 .a))) = some (true, false, 2) := by
    decide +kernel
  obtain ⟨⟨es, c⟩, hschedule, hend⟩ := Option.map_eq_some_iff.mp hrun
  obtain ⟨hreturned, hrunning, hword⟩ : (c.prog .caller).returned = true ∧ c.state.running = false ∧
      c.state.world.hw.sram 0 (rawcmnDigCfg8 .a) = 2 := by
    simpa using hend
  have hover : CallOver c := ⟨Prog.eq_pure_of_returned hreturned, hrunning⟩
  have hsteps := Threads.run_of_schedule hschedule
  have hlost : ¬(PhyKind.c20 0 false).SameFeedback c20TwoWords c.state.world.hw := by
    intro hsame
    have hone : c.state.world.hw.sram 0 (rawcmnDigCfg8 .a) = 1 := hsame.1
    rw [hword] at hone
    exact absurd hone (by decide)
  exact ⟨es, c, hsteps, hover, hlost⟩

end Genlock.Vsyncalter
