import Genlock.Vsyncalter.Access

/-! # Whether failures of the message bus are reported

The classes on the message bus cannot tell that a transaction failed: the helpers
return nothing, or a data byte, and `program_mmio` returns 0.
-/

namespace Genlock.Vsyncalter

open MsgBus

/-! ## The classes on the bus -/

/-- C10 and C20. -/
def PhyKind.OnMsgBus : PhyKind → Prop
  | c10 _ | c20 _ _ => True
  | _ => False

theorem PhyKind.neverFails (k : PhyKind) (h : k.OnMsgBus) : k.cls.NeverFails := by
  cases k with
  | c10 port => exact c10_neverFails port
  | c20 port isBMG => exact c20_neverFails port isBMG
  | combo n => exact h.elim
  | dkl phy => exact h.elim
  | dpMN pipe => exact h.elim

/-! ## The status of a call -/

/-- Status 0 only if the bus acknowledged every transaction of the last step. -/
def ReportsFailures (status : ℤ) (bus : Bus) : Prop := status = 0 → bus.LastStepAcknowledged

/-- A run that can fail only before its first step reports nothing. -/
theorem reportsFailures_iff {Φ : Type} {p : PhyProg Φ RegOp RegOp.Ans ℤ}
    (hp : p.Along (stepDiscipline Φ RegOp RegOp.Ans) (fun status g => status = 0 ∨ g = false) false)
    {w w' : World Φ Bus} {status : ℤ} (hw : w.hw.lastStep = none)
    (hrun : p.run busExec w = some (status, w')) :
    ReportsFailures status w'.hw ↔ w'.hw.LastStepAcknowledged := by
  obtain ⟨g, hstatus, hnone⟩ := run_lastStep hp hw hrun
  refine ⟨fun h => ?_, fun h _ => h⟩
  rcases hstatus with h0 | hg
  · exact h h0
  · intro ts hts
    rw [hnone hg] at hts
    exact absurd hts (by simp)

/-- `set_pll_clock` and `program_phy` report failed transactions of their last
step exactly if there are none. -/
theorem failures_reported_iff (k : PhyKind) (hk : k.OnMsgBus) (w : World k.Reg Bus)
    (hw : w.hw.lastStep = none) :
    (∀ target shift delay status w',
      (setPllClock k.cls target shift delay).run busExec w = some (status, w') →
        (ReportsFailures status w'.hw ↔ w'.hw.LastStepAcknowledged)) ∧
    ∀ td shift shift2 threshold delay reset commit status w',
      (programPhy k.cls td shift shift2 threshold delay reset commit).run busExec w =
        some (status, w') →
          (ReportsFailures status w'.hw ↔ w'.hw.LastStepAcknowledged) :=
  ⟨fun _ _ _ _ _ hrun => reportsFailures_iff (setPllClock_returns (k.neverFails hk) _ _ _) hw hrun,
    fun _ _ _ _ _ _ _ _ _ hrun =>
      reportsFailures_iff (programPhy_returns (k.neverFails hk) _ _ _ _ _ _ _) hw hrun⟩

/-! ### A bus without write acknowledgements -/

def constBus (val : U32) : Bus := ⟨fun _ => val, 0, [], none⟩

def c10BusWorld (bus : Bus) : World C10PhyReg Bus :=
  ⟨bus, ⟨⟨true, 0, 0, 0, 0⟩, ⟨fun _ => 0, fun _ => 0⟩⟩, false, none⟩

def Transaction.unacknowledgedWrite (t : Transaction) : Bool :=
  match t.op with
  | .cx0Write _ _ _ _ true => t.events.all fun e =>
      match e with
      | .read _ val => commandType val != p2mCommandWriteAck
      | .write _ _ => true
  | _ => false

theorem Transaction.not_acknowledged {t : Transaction} (h : t.unacknowledgedWrite = true) :
    ¬t.Acknowledged := by
  obtain ⟨op, events⟩ := t
  cases op with
  | cx0Write port lane addr data committed =>
      cases committed with
      | false => exact absurd h (by simp [unacknowledgedWrite])
      | true =>
          rintro ⟨pending, val, hack, hevents⟩
          have hmem : MmioEvent.read (p2mMsgbusStatus port lane) val ∈ events :=
            hevents.subset (by simp)
          have hval := List.all_eq_true.mp h _ hmem
          exact absurd hack.2.2 (by simpa using hval)
  | _ => exact absurd h (by simp [unacknowledgedWrite])

def readAckWord : U32 := 0xA0010000

/-- `set_pll_clock` returns 0 on a bus that acknowledges no write. -/
theorem lost_writes_unreported : ∃ status w',
    (setPllClock (c10 0) 276500 1 0).run busExec (c10BusWorld (constBus readAckWord)) = some (status, w') ∧
      ¬ReportsFailures status w'.hw := by
  have hrun : (((setPllClock (c10 0) 276500 1 0).run busExec (c10BusWorld (constBus readAckWord))).map
      fun r => (r.1, (r.2.hw.lastStep.getD []).any Transaction.unacknowledgedWrite)) =
        some (0, true) := by
    decide +kernel
  obtain ⟨⟨status, w'⟩, hrun, heq⟩ := Option.map_eq_some_iff.mp hrun
  obtain ⟨rfl, hany⟩ := Prod.mk.inj heq
  refine ⟨_, w', hrun, fun h => ?_⟩
  obtain ⟨t, ht, hwrite⟩ := List.any_eq_true.mp hany
  cases hlast : w'.hw.lastStep with
  | none => exact absurd ht (by simp [hlast])
  | some ts => exact t.not_acknowledged hwrite (h rfl ts hlast t (by simpa [hlast] using ht))

theorem failures_reported_iff_c10 : ∃ status w',
    (setPllClock (c10 0) 276500 1 0).run busExec (c10BusWorld (constBus readAckWord)) = some (status, w') ∧
      (ReportsFailures status w'.hw ↔ w'.hw.LastStepAcknowledged) := by
  have hrun : ((setPllClock (c10 0) 276500 1 0).run busExec
      (c10BusWorld (constBus readAckWord))).isSome = true := by
    decide +kernel
  obtain ⟨⟨status, w'⟩, hrun⟩ := Option.isSome_iff_exists.mp hrun
  exact ⟨status, w', hrun, (failures_reported_iff (.c10 0) trivial (c10BusWorld (constBus readAckWord))
    rfl).1 276500 1 0 status w' hrun⟩

end Genlock.Vsyncalter
