import Genlock.Vsyncalter.Trace

/-! # The library with its trace

The machine and the trace of the process. A stretch of a run previews if it
programs nothing exactly when every call of `set_pll_clock` in it is turned away,
and programming nothing it leaves the dividers alone.
-/

namespace Genlock.Vsyncalter

structure Session where
  machine : Machine
  trace : List PhyEvent

abbrev TracedM := StateT Session Option

def Slot.tracedWorld (s : Slot) (σ : Session) : World s.kind.Reg Traced :=
  ⟨⟨σ.machine.hw, σ.trace⟩, s.obj, σ.machine.libClientDone, s.timer⟩

def tracedOnPhy {α : Type} (i : ℕ) (reads : Bool)
    (p : (k : PhyKind) → PhyProg k.Reg RegOp RegOp.Ans α) : TracedM α := fun σ =>
  match σ.machine.phyEnabledList[i]? with
  | none => none
  | some s =>
      (tracedCaller s.kind.cls (p s.kind) (s.tracedWorld σ)).map fun r => (r.1,
        { machine := { σ.machine with
            hw := r.2.hw.hw
            libClientDone := r.2.clientDone
            phyEnabledList := σ.machine.phyEnabledList.set i { s with
              obj := r.2.obj
              timer := r.2.timer
              lastRead := if reads then s.liveClock σ.machine else s.lastRead } }
          trace := r.2.hw.trace })

/-- The event of a call of `set_pll_clock` on the PHY at a place of the list. -/
def Session.call (σ : Session) (i : ℕ) (target shift : ℚ) : Option PhyEvent :=
  σ.machine.phyEnabledList[i]?.map fun s =>
    .setPllClock target shift (s.liveClock σ.machine) σ.machine.libClientDone

def recordCall (i : ℕ) (target shift : ℚ) : TracedM Unit :=
  modify fun σ => { σ with trace := σ.trace ++ (σ.call i target shift).toList }

def tracedPhyAt (i : ℕ) (pipe : Fin 4) : EnabledPhy TracedM where
  getPipe := (pipe : ℕ)
  programPhy r := tracedOnPhy i true fun k => (k.cls.enabled (pipe : ℕ)).programPhy r
  waitUntilDone := tracedOnPhy i false fun k => (k.cls.enabled (pipe : ℕ)).waitUntilDone
  setPllClock clock shift delay := do
    recordCall i clock shift
    tracedOnPhy i (decide (¬(clock ≤ 0 ∨ shift < 0))) fun k =>
      (k.cls.enabled (pipe : ℕ)).setPllClock clock shift delay
  getPllClock := tracedOnPhy i false fun k => (k.cls.enabled (pipe : ℕ)).getPllClock

def tracedPhysFrom : ℕ → List Slot → List (EnabledPhy TracedM)
  | _, [] => []
  | i, s :: slots => tracedPhyAt i s.pipe :: tracedPhysFrom (i + 1) slots

def Session.library (σ : Session) : Library TracedM :=
  ⟨σ.machine.isInit, some (tracedPhysFrom 0 σ.machine.phyEnabledList)⟩

theorem tracedOnPhy_erase {α : Type} (i : ℕ) (reads : Bool)
    (p : (k : PhyKind) → PhyProg k.Reg RegOp RegOp.Ans α) (σ : Session) :
    ((tracedOnPhy i reads p).run σ).map (fun r => (r.1, r.2.machine)) = (onPhy i reads p).run σ.machine := by
  show Option.map _ (tracedOnPhy i reads p σ) = onPhy i reads p σ.machine
  unfold tracedOnPhy onPhy
  cases σ.machine.phyEnabledList[i]? with
  | none => rfl
  | some s =>
      have herase := tracedCaller_erase s.kind.cls (p s.kind) (s.tracedWorld σ)
      show _ = Option.map _ (runCaller hwDevice s.kind.cls (p s.kind) (s.tracedWorld σ).erase)
      rw [← herase, Option.map_map, Option.map_map]
      rfl

/-! ## Stretches of a run -/

/-- Nothing was programmed exactly if every call was turned away, and then every
divider is what it was. -/
def Previews (σ σ' : Session) : Prop :=
  ∃ e, σ'.trace = σ.trace ++ e ∧ ((∀ x ∈ e, ¬x.IsProgram) ↔ ∀ x ∈ e, x.TurnedAway) ∧
    ((∀ x ∈ e, ¬x.IsProgram) → SameDividers σ.machine.hw σ'.machine.hw)

instance : IsPreorder Session Previews where
  refl _ := ⟨[], (List.append_nil _).symm, by simp, fun _ => SameDividers.refl _⟩
  trans := by
    rintro σ₁ σ₂ σ₃ ⟨e, he, hiff, hsame⟩ ⟨e', he', hiff', hsame'⟩
    refine ⟨e ++ e', by rw [he', he, List.append_assoc], ?_, fun h => ?_⟩
    · rw [List.forall_mem_append, List.forall_mem_append, hiff, hiff']
    · obtain ⟨h1, h2⟩ := List.forall_mem_append.mp h
      exact (hsame h1).trans (hsame' h2)

/-- A stretch that records nothing and leaves the dividers alone. -/
def Quiet (σ σ' : Session) : Prop :=
  σ'.trace = σ.trace ∧ SameDividers σ.machine.hw σ'.machine.hw

instance : IsPreorder Session Quiet where
  refl _ := ⟨rfl, SameDividers.refl _⟩
  trans _ _ _ h h' := ⟨h'.1.trans h.1, h.2.trans h'.2⟩

theorem Quiet.previews {σ σ' : Session} (h : Quiet σ σ') : Previews σ σ' :=
  ⟨[], by rw [h.1, List.append_nil], by simp, fun _ => h.2⟩

theorem quiet_tracedOnPhy {α : Type} (i : ℕ) (reads : Bool)
    {p : (k : PhyKind) → PhyProg k.Reg RegOp RegOp.Ans α} (hp : ∀ k, Observes (p k)) :
    Relates Quiet (tracedOnPhy i reads p) := by
  intro σ r hrun
  change tracedOnPhy i reads p σ = some r at hrun
  unfold tracedOnPhy at hrun
  split at hrun
  · exact absurd hrun (by simp)
  · obtain ⟨r', hrun', rfl⟩ := Option.map_eq_some_iff.mp hrun
    exact ⟨((hp _).run hrun').trace, ((hp _).run hrun').dividers⟩

theorem previews_setPllClock (i : ℕ) (pipe : Fin 4) (target shift : ℚ) (delay : ℤ) :
    Relates Previews ((tracedPhyAt i pipe).setPllClock target shift delay) := by
  intro σ r hrun
  change tracedOnPhy i (decide (¬(target ≤ 0 ∨ shift < 0)))
    (fun k => setPllClock k.cls target shift delay)
    { σ with trace := σ.trace ++ (σ.call i target shift).toList } = some r at hrun
  unfold tracedOnPhy at hrun
  split at hrun
  · exact absurd hrun (by simp)
  · rename_i s hs
    obtain ⟨r', hset, rfl⟩ := Option.map_eq_some_iff.mp hrun
    have hcall : σ.call i target shift =
        some (.setPllClock target shift (s.liveClock σ.machine) σ.machine.libClientDone) :=
      congrArg (Option.map _) hs
    obtain ⟨hobserves, hprograms⟩ :=
      setPllClock_traced s.kind.observing s.kind.succeeds (fun _ _ => tracedWait_grows) hset
    simp only [hcall, Option.toList_some] at hobserves hprograms
    by_cases haway : (PhyEvent.setPllClock target shift (s.liveClock σ.machine)
        σ.machine.libClientDone).TurnedAway
    · obtain ⟨htrace, hsame⟩ := hobserves haway
      refine ⟨_, htrace, ?_, fun _ => hsame⟩
      simp only [List.mem_singleton, forall_eq, haway, iff_true]
      exact id
    · obtain ⟨e, htrace, hmem⟩ := hprograms haway
      refine ⟨.setPllClock target shift (s.liveClock σ.machine) σ.machine.libClientDone :: e, ?_, ?_, ?_⟩
      · rw [htrace]
        exact List.append_assoc _ _ _
      · refine iff_of_false (fun h => ?_) fun h => ?_
        · exact h _ (List.mem_cons_of_mem _ hmem) trivial
        · exact haway (h _ List.mem_cons_self)
      · exact fun h => absurd trivial (h _ (List.mem_cons_of_mem _ hmem))

/-! ## The library's calls -/

theorem mem_tracedPhysFrom {p : EnabledPhy TracedM} (i : ℕ) {slots : List Slot}
    (hp : p ∈ tracedPhysFrom i slots) : ∃ j pipe, p = tracedPhyAt j pipe := by
  induction slots generalizing i with
  | nil => exact absurd hp (by simp [tracedPhysFrom])
  | cons s slots ih =>
      rcases List.mem_cons.mp hp with rfl | hrest
      · exact ⟨i, s.pipe, rfl⟩
      · exact ih (i + 1) hrest

section Library

variable (σ : Session)

theorem mem_library {phys : List (EnabledPhy TracedM)} (hphys : σ.library.phyEnabledList = some phys)
    {p : EnabledPhy TracedM} (hp : p ∈ phys) : ∃ j pipe, p = tracedPhyAt j pipe := by
  obtain rfl := Option.some.inj hphys
  exact mem_tracedPhysFrom 0 hp

theorem quiet_synchronizeVsync {r : SyncRequest} (hcommit : r.commit = false) :
    Relates Quiet (synchronizeVsync σ.library r) := by
  apply relates_synchronizeVsync
  · intro phys hphys p hp
    obtain ⟨j, pipe, rfl⟩ := mem_library σ hphys hp
    refine quiet_tracedOnPhy j true (p := fun k => (k.cls.enabled (pipe : ℕ)).programPhy r) ?_
    intro k
    show Observes (programPhy k.cls _ _ _ _ _ _ r.commit)
    rw [hcommit]
    exact observes_programPhy k.observing _ _ _ _ _ _
  · intro hreset
    exact absurd hreset (by simp [hcommit])

theorem previews_libSetPllClock (clock : ℚ) (pipe : ℤ) (shift : ℚ) (delay : ℤ) :
    Relates Previews (libSetPllClock σ.library clock pipe shift delay) := by
  apply relates_libSetPllClock
  intro phys hphys p hp
  obtain ⟨j, pipe, rfl⟩ := mem_library σ hphys hp
  exact previews_setPllClock j pipe clock shift delay

theorem quiet_libGetPllClock (pipe : ℤ) : Relates Quiet (libGetPllClock σ.library pipe) := by
  apply relates_libGetPllClock
  intro phys hphys p hp
  obtain ⟨j, pipe, rfl⟩ := mem_library σ hphys hp
  exact quiet_tracedOnPhy j false fun k => k.observing.clock.observes

end Library

end Genlock.Vsyncalter
