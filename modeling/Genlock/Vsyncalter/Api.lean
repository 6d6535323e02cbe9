import Mathlib.Algebra.Order.Ring.Rat
import Mathlib.Control.Monad.Basic

/-! # The library's calls

`synchronize_vsync`, `set_pll_clock` and `get_pll_clock` go through the list of
enabled PHYs. What a PHY of the list does is a parameter, in any monad: the
programs of one PHY, or state transformers of a whole machine.
-/

namespace Genlock.Vsyncalter

def vsyncAllPipes : ℤ := 4

structure SyncRequest where
  timeDiff : ℚ
  pipe : ℤ
  shift : ℚ
  shift2 : ℚ
  stepThreshold : ℤ
  waitBetweenSteps : ℤ
  reset : Bool
  commit : Bool
deriving DecidableEq, Repr

/-- A member of `phy_enabled_list`, by the calls that the library makes on it. -/
structure EnabledPhy (m : Type → Type) where
  getPipe : ℤ
  programPhy : SyncRequest → m ℤ
  waitUntilDone : m Unit
  setPllClock : (pllClock shift : ℚ) → (waitBetweenSteps : ℤ) → m ℤ
  getPllClock : m ℚ

/-- `IS_INIT` and `phy_enabled_list`, which may be null. -/
structure Library (m : Type → Type) where
  isInit : Bool
  phyEnabledList : Option (List (EnabledPhy m))

def EnabledPhy.serves {m : Type → Type} (p : EnabledPhy m) (pipe : ℤ) : Bool :=
  decide (pipe = vsyncAllPipes ∨ pipe = p.getPipe)

def SyncRequest.Accepted (r : SyncRequest) : Prop :=
  ¬(|r.timeDiff| ≥ 20 ∨ r.shift < 0 ∨ r.shift2 < 0 ∨ r.shift > 1 ∨ r.shift2 > 1)

instance (r : SyncRequest) : Decidable r.Accepted := inferInstanceAs (Decidable (¬_))

section Source

variable {m : Type → Type} [Monad m]

/-- The loop of `synchronize_vsync`; a PHY that fails does not end it. -/
def synchronizePhys (r : SyncRequest) : List (EnabledPhy m) → (status : ℤ) → m ℤ
  | [], status => return status
  | p :: phys, status =>
      if p.serves r.pipe then do
        let ret ← p.programPhy r
        if ret ≠ 0 then synchronizePhys r phys 1
        else do
          if r.reset && r.commit then p.waitUntilDone
          synchronizePhys r phys status
      else synchronizePhys r phys status

def synchronizeVsync (lib : Library m) (r : SyncRequest) : m ℤ :=
  if !lib.isInit then return 1
  else if ¬r.Accepted then return 1
  else
    match lib.phyEnabledList with
    | none => return 1
    | some phys => do
        let status ← synchronizePhys r phys 0
        -- `matched` stays false if no PHY of the list serves the pipe
        if phys.any (·.serves r.pipe) then return status else return 1

/-- The loop of `set_pll_clock`, which returns the last failure. -/
def setPllClockPhys (pllClock : ℚ) (pipe : ℤ) (shift : ℚ) (waitBetweenSteps : ℤ) :
    List (EnabledPhy m) → (result : ℤ) → m ℤ
  | [], result => return result
  | p :: phys, result =>
      if p.serves pipe then do
        let ret ← p.setPllClock pllClock shift waitBetweenSteps
        setPllClockPhys pllClock pipe shift waitBetweenSteps phys (if ret ≠ 0 then ret else result)
      else setPllClockPhys pllClock pipe shift waitBetweenSteps phys result

def libSetPllClock (lib : Library m) (pllClock : ℚ) (pipe : ℤ) (shift : ℚ) (waitBetweenSteps : ℤ) :
    m ℤ :=
  if !lib.isInit then return 1
  else
    match lib.phyEnabledList with
    | none => return 1
    | some phys => setPllClockPhys pllClock pipe shift waitBetweenSteps phys 0

/-- The first PHY of the pipe answers; zero is an error. -/
def libGetPllClock (lib : Library m) (pipe : ℤ) : m ℚ :=
  if !lib.isInit then return 0
  else if pipe = vsyncAllPipes then return 0
  else
    match lib.phyEnabledList with
    | none => return 0
    | some phys =>
        match phys.find? fun p => decide (pipe = p.getPipe) with
        | none => return 0
        | some p => p.getPllClock

end Source

/-! ## Success of a call -/

section Success

variable {σ : Type}

/-- `program_phy` succeeds on every PHY that serves the pipe, each on the state
that the calls before it left. -/
def PhysSucceed (r : SyncRequest) : List (EnabledPhy (StateM σ)) → σ → Prop
  | [], _ => True
  | p :: phys, s =>
      if p.serves r.pipe then
        ((p.programPhy r).run s).1 = 0 ∧
          PhysSucceed r phys
            (if r.reset && r.commit then (p.waitUntilDone.run ((p.programPhy r).run s).2).2
              else ((p.programPhy r).run s).2)
      else PhysSucceed r phys s

theorem run_bind_state {α β : Type} (x : StateM σ α) (f : α → StateM σ β) (s : σ) :
    (x >>= f).run s = (f (x.run s).1).run (x.run s).2 := rfl

/-- The loop ends with status 0 exactly if no PHY failed. -/
theorem synchronizePhys_eq_zero_iff (r : SyncRequest) (phys : List (EnabledPhy (StateM σ)))
    (status : ℤ) (s : σ) :
    ((synchronizePhys r phys status).run s).1 = 0 ↔ status = 0 ∧ PhysSucceed r phys s := by
  induction phys generalizing status s with
  | nil =>
      simp only [PhysSucceed, and_true]
      rfl
  | cons p phys ih =>
      unfold synchronizePhys PhysSucceed
      by_cases hserves : p.serves r.pipe = true
      · rw [if_pos hserves, if_pos hserves, run_bind_state]
        by_cases hret : ((p.programPhy r).run s).1 = 0
        · rw [if_neg (not_not.mpr hret)]
          by_cases hwait : (r.reset && r.commit) = true
          · rw [if_pos hwait, if_pos hwait, run_bind_state, ih]
            simp only [hret, true_and]
          · rw [if_neg hwait, if_neg hwait]
            dsimp only
            rw [ih]
            simp only [hret, true_and]
        · rw [if_pos hret, ih]
          simp [hret]
      · rw [if_neg hserves, if_neg hserves]
        exact ih status s

def Library.Synchronizes (lib : Library (StateM σ)) (r : SyncRequest) (s : σ) : Prop :=
  lib.isInit = true ∧ r.Accepted ∧
    ∃ phys, lib.phyEnabledList = some phys ∧ phys.any (·.serves r.pipe) = true ∧
      PhysSucceed r phys s

theorem synchronizeVsync_eq_zero_iff (lib : Library (StateM σ)) (r : SyncRequest) (s : σ) :
    ((synchronizeVsync lib r).run s).1 = 0 ↔ lib.Synchronizes r s := by
  have hone : ((pure 1 : StateM σ ℤ).run s).1 ≠ 0 := one_ne_zero
  unfold synchronizeVsync Library.Synchronizes
  cases hinit : lib.isInit with
  | false => simpa using hone
  | true =>
      by_cases hr : r.Accepted
      · cases hlist : lib.phyEnabledList with
        | none => simpa [hr] using hone
        | some phys =>
            simp only [Bool.not_true, Bool.false_eq_true, if_false, hr, not_true_eq_false,
              Option.some.injEq, exists_eq_left', true_and]
            rw [run_bind_state]
            by_cases hany : phys.any (·.serves r.pipe) = true
            · simp only [hany, if_true, true_and]
              exact (synchronizePhys_eq_zero_iff r phys 0 s).trans (by simp)
            · rw [if_neg hany]
              exact iff_of_false hone fun h => hany h.1
      · simpa [hr] using hone

end Success

end Genlock.Vsyncalter
