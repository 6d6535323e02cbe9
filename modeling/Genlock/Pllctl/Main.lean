import Genlock.Vsyncalter.Session

/-! # pllctl

The run of the tool from its parsed options: one clock, a refresh period that is
approached in small changes, or a drift. The host supplies what is outside: the
PHYs that are found, the intervals that are measured and the termination signals.
-/

namespace Genlock.Pllctl

open Vsyncalter

/-! ## Options -/

structure Options where
  pipe : ℤ
  delta : ℤ
  shift : ℚ
  shift2 : ℚ
  frequency : ℚ
  refreshPeriod : ℚ
  stepThreshold : ℤ
  waitBetweenSteps : ℤ
  reset : Bool
  commit : Bool
  mN : Bool
  hardwareTs : Bool
deriving DecidableEq, Repr

def Options.default : Options where
  pipe := 0
  delta := 1000
  shift := 1 / 100
  shift2 := 1 / 10
  frequency := 0
  refreshPeriod := 0
  stepThreshold := 1000
  waitBetweenSteps := 50
  reset := true
  commit := true
  mN := false
  hardwareTs := false

/-- The call of `synchronize_vsync`; the delta becomes milliseconds. -/
def Options.request (o : Options) : SyncRequest where
  timeDiff := o.delta / 1000
  pipe := o.pipe
  shift := o.shift
  shift2 := o.shift2
  stepThreshold := o.stepThreshold
  waitBetweenSteps := o.waitBetweenSteps
  reset := o.reset
  commit := o.commit

/-- `found` is what `find_enabled_phys` finds, `none` if the device cannot be
used; `interval k` is the k-th measured interval in microseconds. -/
structure Host where
  found : (mN : Bool) → Option (List (PhyKind × Fin 4))
  threadStatus : ℤ
  interval : ℕ → ℚ
  terminated : ℕ → Bool

/-! ## The run -/

/-- `terminate_signal`: `thread_continue` and `lib_client_done` change together. -/
def terminateSignal (host : Host) (k : ℕ) : TracedM Unit :=
  modify fun σ => { σ with machine := { σ.machine with
    libClientDone := σ.machine.libClientDone || host.terminated k } }

def maxIterations : ℕ := 1000

/-- A change of 0.001 percent in the direction of the desired period. -/
def adjustedClock (pllClock interval refreshPeriod : ℚ) : ℚ :=
  if refreshPeriod - interval > 0 then pllClock * (1 - 1 / 1000 / 100)
  else pllClock * (1 + 1 / 1000 / 100)

def adjustLoop (o : Options) (host : Host) : ℕ → (iteration : ℕ) → (pllClock interval : ℚ) → TracedM Unit
  | 0, _, _, _ => pure ()
  | left + 1, iteration, pllClock, interval => do
      terminateSignal host iteration
      let σ ← get
      if |interval - o.refreshPeriod| > 1 / 10 ∧ σ.machine.libClientDone = false then
        let pllClock := adjustedClock pllClock interval o.refreshPeriod
        let _ ← libSetPllClock σ.library pllClock o.pipe o.shift (toU32 o.waitBetweenSteps)
        adjustLoop o host left (iteration + 1) pllClock (host.interval (iteration + 1))

def adjust (o : Options) (host : Host) : TracedM Unit := do
  if o.frequency > 0 then
    terminateSignal host 0
    let σ ← get
    let _ ← libSetPllClock σ.library o.frequency o.pipe o.shift (toU32 o.waitBetweenSteps)
  else if o.refreshPeriod > 0 then
    let σ ← get
    let pllClock ← libGetPllClock σ.library o.pipe
    adjustLoop o host maxIterations 0 pllClock (host.interval 0)
  else
    terminateSignal host 0
    let σ ← get
    let _ ← synchronizeVsync σ.library o.request

def vsyncLibUninit (m : Machine) : Machine := { m with isInit := false, phyEnabledList := [] }

def main (o : Options) (host : Host) : TracedM ℤ := do
  modify fun σ => { σ with machine := vsyncLibInit (host.found o.mN) o.hardwareTs σ.machine }
  let σ ← get
  if !σ.machine.isInit then return 1
  else if o.commit && decide (host.threadStatus ≠ 0) then return 1
  else
    adjust o host
    modify fun σ => { σ with machine := vsyncLibUninit σ.machine }
    return 0

/-! ## Preview mode -/

/-- No call of `program_mmio`, and every divider as it was. -/
def OnlyPreviews (hw : Hw) (σ : Session) : Prop :=
  (∀ x ∈ σ.trace, ¬x.IsProgram) ∧ SameDividers hw σ.machine.hw

def start (hw : Hw) : Session := ⟨Machine.start hw, []⟩

section Runs

variable (o : Options) (host : Host)

theorem quiet_modify (f : Session → Session) (h : ∀ σ, Quiet σ (f σ)) :
    Relates Quiet (modify f : TracedM Unit) := by
  intro σ r hrun
  obtain rfl := Option.some.inj hrun
  exact h σ

theorem quiet_terminateSignal (k : ℕ) : Relates Quiet (terminateSignal host k) :=
  quiet_modify _ fun _ => ⟨rfl, SameDividers.refl _⟩

theorem relates_get {R : Session → Session → Prop} [Std.Refl R] :
    Relates R (get : TracedM Session) := by
  intro σ r hrun
  obtain rfl := Option.some.inj hrun
  exact Std.Refl.refl σ

theorem previews_adjustLoop (left iteration : ℕ) (pllClock interval : ℚ) :
    Relates Previews (adjustLoop o host left iteration pllClock interval) := by
  induction left generalizing iteration pllClock interval with
  | zero => exact relates_pure ()
  | succ left ih =>
      apply relates_bind ((quiet_terminateSignal host iteration).mono Quiet.previews)
      intro _
      refine relates_bind relates_get fun σ => ?_
      split
      · apply relates_bind (previews_libSetPllClock σ _ _ _ _)
        intro _
        exact ih _ _ _
      · exact relates_pure ()

theorem previews_adjust (hcommit : o.commit = false) : Relates Previews (adjust o host) := by
  unfold adjust
  split
  · apply relates_bind ((quiet_terminateSignal host 0).mono Quiet.previews)
    intro _
    refine relates_bind relates_get fun σ => ?_
    exact relates_bind (previews_libSetPllClock σ _ _ _ _) fun _ => relates_pure ()
  split
  · refine relates_bind relates_get fun σ => ?_
    apply relates_bind ((quiet_libGetPllClock σ _).mono Quiet.previews)
    intro pllClock
    exact previews_adjustLoop o host _ _ _ _
  · apply relates_bind ((quiet_terminateSignal host 0).mono Quiet.previews)
    intro _
    refine relates_bind relates_get fun σ => ?_
    apply relates_bind ((quiet_synchronizeVsync σ (r := o.request) hcommit).mono Quiet.previews)
    intro _
    exact relates_pure ()

theorem quiet_adjust (hcommit : o.commit = false) (hf : o.frequency ≤ 0) (hR : o.refreshPeriod ≤ 0) :
    Relates Quiet (adjust o host) := by
  unfold adjust
  rw [if_neg (not_lt.mpr hf), if_neg (not_lt.mpr hR)]
  apply relates_bind (quiet_terminateSignal host 0)
  intro _
  refine relates_bind relates_get fun σ => ?_
  exact relates_bind (quiet_synchronizeVsync σ (r := o.request) hcommit) fun _ => relates_pure ()

theorem quiet_vsyncLibInit (found : Option (List (PhyKind × Fin 4))) (hTs : Bool) (σ : Session) :
    Quiet σ { σ with machine := vsyncLibInit found hTs σ.machine } := by
  refine ⟨rfl, ?_⟩
  unfold vsyncLibInit
  dsimp only
  split
  · exact SameDividers.refl _
  split
  · exact SameDividers.refl _
  · dsimp only
    split
    · exact NoDivider.writeReg (by decide) _ _
    · exact SameDividers.refl _

theorem relates_main {R : Session → Session → Prop} [IsPreorder Session R]
    (hquiet : ∀ {σ σ'}, Quiet σ σ' → R σ σ') (hadjust : Relates R (adjust o host)) :
    Relates R (main o host) := by
  refine relates_bind ((quiet_modify _ (quiet_vsyncLibInit _ _)).mono hquiet) fun _ => ?_
  refine relates_bind relates_get fun σ => ?_
  split
  · exact relates_pure 1
  split
  · exact relates_pure 1
  · refine relates_bind hadjust fun _ => ?_
    refine relates_bind ((quiet_modify _ fun _ => ?_).mono hquiet) fun _ => relates_pure 0
    exact ⟨rfl, SameDividers.refl _⟩

end Runs

/-- Without `commit` the run only previews exactly if every call of
`set_pll_clock` in it is turned away by the PHY it reaches; with neither `-f` nor
`-R` there is no such call. -/
theorem noCommit_previews_iff (o : Options) (host : Host) (hw : Hw) (r : ℤ × Session)
    (hcommit : o.commit = false) (hrun : (main o host).run (start hw) = some r) :
    (OnlyPreviews hw r.2 ↔ ∀ x ∈ r.2.trace, x.TurnedAway) ∧
      (o.frequency ≤ 0 → o.refreshPeriod ≤ 0 → OnlyPreviews hw r.2) := by
  constructor
  · obtain ⟨e, htrace, hiff, hsame⟩ :=
      relates_main o host Quiet.previews (previews_adjust o host hcommit) _ r hrun
    obtain rfl : r.2.trace = e := htrace
    exact ⟨fun h => hiff.mp h.1, fun h => ⟨hiff.mpr h, hsame (hiff.mpr h)⟩⟩
  · intro hf hR
    obtain ⟨htrace, hsame⟩ := relates_main o host id (quiet_adjust o host hcommit hf hR) _ r hrun
    refine ⟨?_, hsame⟩
    rw [htrace]
    exact List.forall_mem_nil _

/-! ### A combo PHY in preview mode -/

/-- One combo PHY on the first pipe, a display at 60 Hz and no signal. -/
def comboHost : Host := ⟨fun _ => some comboOnPipeA, 0, fun _ => 16666, fun _ => false⟩

theorem noCommit_previews_iff_delta : ∃ r,
    (main { Options.default with commit := false } comboHost).run (start (constHw 421)) = some r ∧
      OnlyPreviews (constHw 421) r.2 := by
  have hrun : ((main { Options.default with commit := false } comboHost).run
      (start (constHw 421))).isSome = true := by
    decide +kernel
  obtain ⟨r, hr⟩ := Option.isSome_iff_exists.mp hrun
  exact ⟨r, hr, (noCommit_previews_iff _ _ _ r rfl hr).2 (by decide) (by decide)⟩

/-- `--no-commit -f 8100.532` moves a clock of 8083.2. -/
theorem frequency_ignores_noCommit : ∃ o host hw r, o.commit = false ∧
    (main o host).run (start hw) = some r ∧ ¬OnlyPreviews hw r.2 := by
  have hrun : ((main { Options.default with commit := false, frequency := 8100532 / 1000 } comboHost).run
      (start (constHw 421))).map (fun r => r.2.trace.any fun x => decide x.IsProgram) = some true := by
    decide +kernel
  obtain ⟨r, hr, hany⟩ := Option.map_eq_some_iff.mp hrun
  refine ⟨_, comboHost, constHw 421, r, rfl, hr, fun h => ?_⟩
  obtain ⟨x, hx, hprogram⟩ := List.any_eq_true.mp hany
  exact h.1 x hx (of_decide_eq_true hprogram)

end Genlock.Pllctl
