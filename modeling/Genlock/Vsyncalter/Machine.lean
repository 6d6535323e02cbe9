import Genlock.Vsyncalter.Calls
import Genlock.Vsyncalter.Copies

/-! # Runs of the library

The registers of the machine, shared by the PHYs of `phy_enabled_list` with
their objects and timers. The operations of the library are those of the calls
on its list; a run is any sequence of them.
-/

namespace Genlock.Vsyncalter

/-! ## The machine -/

def PhyKind.newReg : (k : PhyKind) → k.Reg
  | combo _ => ⟨⟨0, 0⟩, ⟨0, 0⟩⟩
  | dkl _ => ⟨⟨0, 0⟩, ⟨0, 0⟩, ⟨0, 0⟩, ⟨0, 0⟩, ⟨0, 0⟩⟩
  | c10 _ => ⟨fun _ => 0, fun _ => 0⟩
  | c20 _ _ => C20PhyReg.zero
  | dpMN _ => ⟨⟨0, 0⟩, ⟨0, 0⟩⟩

/-- The clock in the zeros of a new object. A C10 PHY divides by their zero
denominator. -/
def PhyKind.newClock : PhyKind → Option ℚ
  | c10 _ => none
  | _ => some 0

/-- A member of `phy_enabled_list`. `lastRead` is a history variable: what the
registers decoded to when the library last read them. -/
structure Slot where
  kind : PhyKind
  pipe : Fin 4
  obj : Obj kind.Reg
  timer : Option ℤ
  lastRead : Option ℚ

def Slot.new (kind : PhyKind) (pipe : Fin 4) : Slot :=
  ⟨kind, pipe, ⟨⟨true, 0, 0, 0, 0⟩, kind.newReg⟩, none, kind.newClock⟩

structure Machine where
  hw : Hw
  libClientDone : Bool
  isInit : Bool
  phyEnabledList : List Slot

def Machine.start (hw : Hw) : Machine := ⟨hw, false, false, []⟩

/-- The machine as a PHY sees it. -/
def Slot.world (s : Slot) (m : Machine) : World s.kind.Reg Hw :=
  ⟨m.hw, s.obj, m.libClientDone, s.timer⟩

def Slot.liveClock (s : Slot) (m : Machine) : Option ℚ := Vsyncalter.liveClock s.kind.cls (s.world m)

abbrev LibM := StateT Machine Option

/-- Run a program of the PHY at a place of the list; `reads` tells whether it
calls `read_registers`. -/
def onPhy {α : Type} (i : ℕ) (reads : Bool) (p : (k : PhyKind) → PhyProg k.Reg RegOp RegOp.Ans α) :
    LibM α := fun m =>
  match m.phyEnabledList[i]? with
  | none => none
  | some s =>
      (runCaller hwDevice s.kind.cls (p s.kind) (s.world m)).map fun r => (r.1, { m with
        hw := r.2.hw
        libClientDone := r.2.clientDone
        phyEnabledList := m.phyEnabledList.set i { s with
          obj := r.2.obj
          timer := r.2.timer
          lastRead := if reads then s.liveClock m else s.lastRead } })

def phyAt (i : ℕ) (pipe : Fin 4) : EnabledPhy LibM where
  getPipe := (pipe : ℕ)
  programPhy r := onPhy i true fun k => (k.cls.enabled (pipe : ℕ)).programPhy r
  waitUntilDone := onPhy i false fun k => (k.cls.enabled (pipe : ℕ)).waitUntilDone
  setPllClock clock shift delay :=
    onPhy i (decide (¬(clock ≤ 0 ∨ shift < 0))) fun k =>
      (k.cls.enabled (pipe : ℕ)).setPllClock clock shift delay
  getPllClock := onPhy i false fun k => (k.cls.enabled (pipe : ℕ)).getPllClock

def physFrom : ℕ → List Slot → List (EnabledPhy LibM)
  | _, [] => []
  | i, s :: slots => phyAt i s.pipe :: physFrom (i + 1) slots

def Machine.library (m : Machine) : Library LibM := ⟨m.isInit, some (physFrom 0 m.phyEnabledList)⟩

/-! ## Operations -/

def hhEnableReg : ℕ := 0x462FC
def hhEnableBit : ℕ := 31

/-- `vsync_lib_init`, with what `find_enabled_phys` finds: `none` if the device
or one of its PHYs cannot be used. -/
def vsyncLibInit (found : Option (List (PhyKind × Fin 4))) (hTs : Bool) (m : Machine) : Machine :=
  if m.isInit then m
  else
    match found with
    | none => { m with phyEnabledList := [] }
    | some phys => { m with
        hw := if hTs then m.hw.writeReg hhEnableReg (m.hw.readReg hhEnableReg ||| 1 <<< hhEnableBit)
          else m.hw
        isInit := true
        phyEnabledList := phys.map fun p => Slot.new p.1 p.2 }

inductive LibOp where
  | vsyncLibInit (found : Option (List (PhyKind × Fin 4))) (hTs : Bool)
  | getPllClock (pipe : ℤ)
  | setPllClock (pllClock : ℚ) (pipe : ℤ) (shift : ℚ) (waitBetweenSteps : ℤ)
  | synchronizeVsync (r : SyncRequest)

def LibOp.exec : LibOp → LibM Unit
  | .vsyncLibInit found hTs => modify (Vsyncalter.vsyncLibInit found hTs)
  | .getPllClock pipe => do
      let m ← get
      let _ ← libGetPllClock m.library pipe
  | .setPllClock clock pipe shift delay => do
      let m ← get
      let _ ← libSetPllClock m.library clock pipe shift delay
  | .synchronizeVsync r => do
      let m ← get
      let _ ← Vsyncalter.synchronizeVsync m.library r

def runLib (ops : List LibOp) : LibM Unit := performAll LibOp.exec ops

/-! ## The copies in a run -/

/-- What the copy of the object decodes to; combo and DKL PHYs decode none. -/
def PhyKind.copyClock : (k : PhyKind) → Option (k.Reg → Option ℚ)
  | combo _ | dkl _ => none
  | c10 _ => some C10PhyReg.clock
  | c20 _ _ => some C20PhyReg.clock
  | dpMN _ => some DpMNPhyReg.clock

theorem PhyKind.decodesCopy {k : PhyKind} {f : k.Reg → Option ℚ} (h : k.copyClock = some f) :
    DecodesCopy k.cls f := by
  cases k with
  | combo n => exact absurd h (by simp [copyClock])
  | dkl phy => exact absurd h (by simp [copyClock])
  | c10 port =>
      obtain rfl := Option.some.inj h
      exact c10_decodesCopy port
  | c20 port isBMG =>
      obtain rfl := Option.some.inj h
      exact c20_decodesCopy port isBMG
  | dpMN pipe =>
      obtain rfl := Option.some.inj h
      exact dpMN_decodesCopy pipe

theorem PhyKind.decodesRegisters {k : PhyKind} (h : k.copyClock = none) :
    DecodesRegisters k.cls := by
  cases k with
  | combo n => exact combo_decodesRegisters n
  | dkl phy => exact dkl_decodesRegisters phy
  | c10 port => exact absurd h (by simp [copyClock])
  | c20 port isBMG => exact absurd h (by simp [copyClock])
  | dpMN pipe => exact absurd h (by simp [copyClock])

def Slot.Coherent (s : Slot) : Prop := ∀ f, s.kind.copyClock = some f → f s.obj.reg = s.lastRead

def Machine.Coherent (m : Machine) : Prop := ∀ s ∈ m.phyEnabledList, s.Coherent

theorem coherent_new (kind : PhyKind) (pipe : Fin 4) : (Slot.new kind pipe).Coherent := by
  intro f hf
  cases kind with
  | combo n => exact absurd hf (by simp [Slot.new, PhyKind.copyClock])
  | dkl phy => exact absurd hf (by simp [Slot.new, PhyKind.copyClock])
  | c10 port =>
      obtain rfl := Option.some.inj hf
      show c10PllClock (c10Fields fun _ => 0) (c10Quot fun _ => 0) = none
      decide
  | c20 port isBMG =>
      obtain rfl := Option.some.inj hf
      show some (c20PllClock ⟨0, 0, 0, 0, 0, 0, 0, 0, 0, 0⟩) = some 0
      norm_num [c20PllClock, C20Fields.frac]
  | dpMN pipe =>
      obtain rfl := Option.some.inj hf
      rfl

theorem coherent_onPhy {α : Type} (i : ℕ) (reads : Bool)
    (p : (k : PhyKind) → PhyProg k.Reg RegOp RegOp.Ans α)
    (h : ∀ (k : PhyKind) f, k.copyClock = some f → ∀ w r,
      runCaller hwDevice k.cls (p k) w = some r →
        f r.2.obj.reg = if reads then liveClock k.cls w else f w.obj.reg) :
    Preserves Machine.Coherent (onPhy i reads p) := by
  intro m r hm hrun
  change onPhy i reads p m = some r at hrun
  unfold onPhy at hrun
  split at hrun
  · exact absurd hrun (by simp)
  · rename_i s hs
    obtain ⟨r', hp, rfl⟩ := Option.map_eq_some_iff.mp hrun
    intro t ht
    rcases List.mem_or_eq_of_mem_set ht with hold | rfl
    · exact hm t hold
    · intro f hf
      rw [h s.kind f hf _ _ hp]
      cases reads with
      | true => rfl
      | false => exact hm s (List.mem_of_getElem? hs) f hf

structure EnabledPhy.Coherent (p : EnabledPhy LibM) : Prop where
  programPhy : ∀ r, Preserves Machine.Coherent (p.programPhy r)
  waitUntilDone : Preserves Machine.Coherent p.waitUntilDone
  setPllClock : ∀ clock shift delay, Preserves Machine.Coherent (p.setPllClock clock shift delay)
  getPllClock : Preserves Machine.Coherent p.getPllClock

theorem coherent_phyAt (i : ℕ) (pipe : Fin 4) : (phyAt i pipe).Coherent where
  programPhy r := by
    show Preserves _ (onPhy i true fun k => (k.cls.enabled (pipe : ℕ)).programPhy r)
    refine coherent_onPhy i true _ fun k f hf w r hrun => ?_
    exact (k.decodesCopy hf).programPhy_copy hrun
  waitUntilDone := by
    show Preserves _ (onPhy i false fun k => waitUntilDone k.cls)
    refine coherent_onPhy i false _ fun k f hf w r hrun => ?_
    exact waitUntilDone_copy (k.decodesCopy hf).keeps hrun
  setPllClock clock shift delay := by
    show Preserves _ (onPhy i (decide _) fun k => setPllClock k.cls clock shift delay)
    refine coherent_onPhy i _ _ fun k f hf w r hrun => ?_
    rw [(k.decodesCopy hf).setPllClock_copy hrun]
    by_cases hinvalid : clock ≤ 0 ∨ shift < 0
    · rw [if_pos hinvalid, if_neg (by simpa only [decide_eq_true_eq, not_not] using hinvalid)]
    · rw [if_neg hinvalid, if_pos (decide_eq_true hinvalid)]
  getPllClock := by
    show Preserves _ (onPhy i false fun k => k.cls.calculatePllClock)
    refine coherent_onPhy i false _ fun k f hf w r hrun => ?_
    exact (k.decodesCopy hf).keeps.clock.run hrun

theorem coherent_physFrom (i : ℕ) (slots : List Slot) : ∀ p ∈ physFrom i slots, p.Coherent := by
  induction slots generalizing i with
  | nil => simp [physFrom]
  | cons s slots ih => exact List.forall_mem_cons.mpr ⟨coherent_phyAt i s.pipe, ih (i + 1)⟩

section Library

variable {lib : Library LibM} (h : ∀ phys, lib.phyEnabledList = some phys → ∀ p ∈ phys, p.Coherent)

include h

theorem coherent_synchronizeVsync (r : SyncRequest) :
    Preserves Machine.Coherent (synchronizeVsync lib r) := by
  rw [preserves_iff]
  apply relates_synchronizeVsync
  · exact fun phys hphys p hp => preserves_iff.mp ((h phys hphys p hp).programPhy r)
  · exact fun _ phys hphys p hp => preserves_iff.mp (h phys hphys p hp).waitUntilDone

theorem coherent_libSetPllClock (clock : ℚ) (pipe : ℤ) (shift : ℚ) (delay : ℤ) :
    Preserves Machine.Coherent (libSetPllClock lib clock pipe shift delay) := by
  rw [preserves_iff]
  apply relates_libSetPllClock
  exact fun phys hphys p hp => preserves_iff.mp ((h phys hphys p hp).setPllClock clock shift delay)

theorem coherent_libGetPllClock (pipe : ℤ) : Preserves Machine.Coherent (libGetPllClock lib pipe) := by
  rw [preserves_iff]
  apply relates_libGetPllClock
  exact fun phys hphys p hp => preserves_iff.mp (h phys hphys p hp).getPllClock

end Library

theorem coherent_library (m : Machine) :
    ∀ phys, m.library.phyEnabledList = some phys → ∀ p ∈ phys, p.Coherent := by
  intro phys hphys
  obtain rfl := Option.some.inj hphys
  exact coherent_physFrom 0 m.phyEnabledList

theorem coherent_vsyncLibInit (found : Option (List (PhyKind × Fin 4))) (hTs : Bool) {m : Machine}
    (hm : m.Coherent) : (vsyncLibInit found hTs m).Coherent := by
  unfold vsyncLibInit
  split
  · exact hm
  split
  · exact fun s hs => absurd hs (by simp)
  · intro s hs
    obtain ⟨p, -, rfl⟩ := List.mem_map.mp hs
    exact coherent_new p.1 p.2

theorem coherent_exec (op : LibOp) : Preserves Machine.Coherent op.exec := by
  intro m r hm hrun
  cases op with
  | vsyncLibInit found hTs =>
      obtain rfl := Option.some.inj hrun
      exact coherent_vsyncLibInit found hTs hm
  | getPllClock pipe =>
      have hget := coherent_libGetPllClock (coherent_library m) pipe
      exact preserves_bind hget (fun _ => preserves_pure ()) m r hm hrun
  | setPllClock clock pipe shift delay =>
      have hset := coherent_libSetPllClock (coherent_library m) clock pipe shift delay
      exact preserves_bind hset (fun _ => preserves_pure ()) m r hm hrun
  | synchronizeVsync req =>
      have hsync := coherent_synchronizeVsync (coherent_library m) req
      exact preserves_bind hsync (fun _ => preserves_pure ()) m r hm hrun

theorem coherent_runLib {hw : Hw} {ops : List LibOp} {m : Machine}
    (hrun : (runLib ops).run (Machine.start hw) = some ((), m)) : m.Coherent :=
  preserves_performAll coherent_exec ops (Machine.start hw) ((), m)
    (fun s hs => absurd hs (by simp [Machine.start])) hrun

/-! ## The clock that is returned -/

/-- The PHY that answers for a pipe. -/
def Machine.phyOf (m : Machine) (pipe : ℤ) : Option Slot :=
  if m.isInit then m.phyEnabledList.find? fun s => decide (pipe = (s.pipe : ℕ)) else none

def ReturnsLiveClock (m : Machine) (pipe : ℤ) : Prop :=
  ∀ s, m.phyOf pipe = some s →
    ∃ c m', (libGetPllClock m.library pipe).run m = some (c, m') ∧ s.liveClock m = some c

/-- A PHY that decodes its registers, or one whose registers decode to what they
did when they were read last. -/
def Slot.UpToDate (s : Slot) (m : Machine) : Prop :=
  s.kind.copyClock = none ∨ ∃ c, s.lastRead = some c ∧ s.liveClock m = some c

theorem find_physFrom (pipe : ℤ) {slots : List Slot} {s : Slot} (i : ℕ)
    (hs : slots.find? (fun s => decide (pipe = (s.pipe : ℕ))) = some s) :
    ∃ j, (physFrom i slots).find? (fun p => decide (pipe = p.getPipe)) = some (phyAt (i + j) s.pipe) ∧
      slots[j]? = some s := by
  induction slots generalizing i with
  | nil => exact absurd hs (by simp)
  | cons t slots ih =>
      by_cases ht : pipe = (t.pipe : ℕ)
      · rw [List.find?_cons_of_pos (by simpa using ht)] at hs
        obtain rfl := Option.some.inj hs
        exact ⟨0, List.find?_cons_of_pos (by simpa [phyAt] using ht), rfl⟩
      · rw [List.find?_cons_of_neg (by simpa using ht)] at hs
        obtain ⟨j, hfind, hj⟩ := ih (i + 1) hs
        refine ⟨j + 1, ?_, hj⟩
        rw [physFrom, List.find?_cons_of_neg (by simpa [phyAt] using ht), hfind]
        congr 2
        omega

/-- The call on a pipe is the decoding of its PHY. -/
theorem libGetPllClock_run {m : Machine} {pipe : ℤ} {s : Slot} (hs : m.phyOf pipe = some s) :
    ((libGetPllClock m.library pipe).run m).map Prod.fst =
      (runCaller hwDevice s.kind.cls s.kind.cls.calculatePllClock (s.world m)).map Prod.fst := by
  unfold Machine.phyOf at hs
  split at hs
  · rename_i hinit
    obtain ⟨j, hfind, hj⟩ := find_physFrom pipe 0 hs
    have hpipe : pipe = (s.pipe : ℕ) := by simpa using List.find?_some hs
    have hall : pipe ≠ vsyncAllPipes := by
      have := s.pipe.isLt
      rw [hpipe, vsyncAllPipes]
      omega
    unfold libGetPllClock
    simp only [Machine.library, hinit, Bool.not_true, Bool.false_eq_true, if_false, if_neg hall, hfind]
    show (onPhy (0 + j) false (fun k => k.cls.calculatePllClock) m).map Prod.fst = _
    unfold onPhy
    rw [Nat.zero_add, hj]
    exact Option.map_map _ _ _
  · exact absurd hs (by simp)

/-- In every run, `get_pll_clock` returns the clock in the registers exactly if
the PHY decodes them or has read them since they changed. -/
theorem getPllClock_live_iff (hw : Hw) (ops : List LibOp) (m : Machine)
    (hrun : (runLib ops).run (Machine.start hw) = some ((), m)) (pipe : ℤ) :
    ReturnsLiveClock m pipe ↔ ∀ s, m.phyOf pipe = some s → s.UpToDate m := by
  refine forall₂_congr fun s hs => ?_
  have hmem : s ∈ m.phyEnabledList := by
    unfold Machine.phyOf at hs
    split at hs
    · exact List.mem_of_find?_eq_some hs
    · exact absurd hs (by simp)
  have hget := libGetPllClock_run hs
  have hreturns (c : ℚ) : (∃ m', (libGetPllClock m.library pipe).run m = some (c, m')) ↔
      (runCaller hwDevice s.kind.cls s.kind.cls.calculatePllClock (s.world m)).map Prod.fst =
        some c := by
    rw [← hget, Option.map_eq_some_iff]
    exact ⟨fun ⟨m', h⟩ => ⟨_, h, rfl⟩, fun ⟨r, h, hr⟩ => ⟨r.2, by rw [h, ← hr]⟩⟩
  simp only [exists_and_right, hreturns]
  cases hcopy : s.kind.copyClock with
  | none =>
      obtain ⟨c, w', hclock, hlive⟩ := PhyKind.decodesRegisters hcopy
        (waitForTimer hwDevice s.kind.cls) (s.world m)
      refine iff_of_true ⟨c, ?_, hlive⟩ (Or.inl hcopy)
      unfold runCaller
      rw [hclock]
      rfl
  | some f =>
      have hcoherent := coherent_runLib hrun s hmem f hcopy
      have hclock := (PhyKind.decodesCopy hcopy).clock (waitForTimer hwDevice s.kind.cls) (s.world m)
      rw [show f (s.world m).obj.reg = s.lastRead from hcoherent] at hclock
      unfold Slot.UpToDate runCaller
      rw [hclock, hcopy]
      simp [Option.map_map, Function.comp_def]

def constHw (val : U32) : Hw := ⟨fun _ => val, fun _ _ _ => val, fun _ _ _ => 0, fun _ _ => 0⟩

def initialised (hw : Hw) (kind : PhyKind) : Machine := ⟨hw, false, true, [Slot.new kind 0]⟩

def comboOnPipeA : List (PhyKind × Fin 4) := [(.combo 0, 0)]

theorem getPllClock_live_iff_combo : ReturnsLiveClock (initialised (constHw 30) (.combo 0)) 0 :=
  (getPllClock_live_iff (constHw 30) [.vsyncLibInit (some [(.combo 0, 0)]) false] _ rfl 0).mpr
    fun s hs => by
      obtain rfl := Option.some.inj hs
      exact Or.inl rfl

/-- Right after the initialisation M/N tells 0 for every M. -/
theorem unread_clock_returned :
    ∃ hw ops m, (runLib ops).run (Machine.start hw) = some ((), m) ∧ ¬ReturnsLiveClock m 0 := by
  refine ⟨constHw 1000, [.vsyncLibInit (some [(.dpMN 0, 0)]) false], _, rfl, ?_⟩
  intro h
  obtain ⟨c, m', hget, hlive⟩ := h (Slot.new (.dpMN 0) 0) rfl
  have h0 : (0 : ℚ) = c := congrArg Prod.fst (Option.some.inj hget)
  have h1000 : (((1000 : U32).toNat : ℕ) : ℚ) = c := Option.some.inj hlive
  exact absurd (h1000.trans h0.symm) (by decide)

end Genlock.Vsyncalter
