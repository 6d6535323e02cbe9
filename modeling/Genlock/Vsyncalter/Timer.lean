import Mathlib.Logic.Basic
import Mathlib.Data.Int.Notation

/-! # Making a timer

`os_make_timer` sets the signal handler, creates the timer and arms it. Each of
the three calls can fail, and then no timer is armed.
-/

namespace Genlock.Vsyncalter

structure TimerCalls where
  sigaction : ℤ
  timerCreate : ℤ
  timerSettime : ℤ
deriving DecidableEq, Repr

def TimerCalls.Succeed (os : TimerCalls) : Prop :=
  os.sigaction ≠ -1 ∧ os.timerCreate = 0 ∧ os.timerSettime = 0

instance (os : TimerCalls) : Decidable os.Succeed := inferInstanceAs (Decidable (_ ∧ _ ∧ _))

structure Timespec where
  tvSec : ℤ
  tvNsec : ℤ
deriving DecidableEq, Repr

structure Itimerspec where
  itInterval : Timespec
  itValue : Timespec
deriving DecidableEq, Repr

/-- The milliseconds of a dwell time also go into the interval. -/
def timerSpec (expireMs : ℤ) : Itimerspec where
  itInterval := ⟨0, expireMs.tmod 1000 * 1000000⟩
  itValue := ⟨expireMs.tdiv 1000, expireMs.tmod 1000 * 1000000⟩

/-- `os_make_timer`: the status, and the timer that is armed. -/
def osMakeTimer (os : TimerCalls) (expireMs : ℤ) : ℤ × Option Itimerspec :=
  if os.sigaction = -1 then (1, none)
  else if os.timerCreate ≠ 0 then (1, none)
  else if os.timerSettime ≠ 0 then (1, none)
  else (0, some (timerSpec expireMs))

theorem osMakeTimer_of_succeed {os : TimerCalls} (h : os.Succeed) (expireMs : ℤ) :
    osMakeTimer os expireMs = (0, some (timerSpec expireMs)) := by
  obtain ⟨hsig, hcreate, hset⟩ := h
  rw [osMakeTimer, if_neg hsig, if_neg (not_not.mpr hcreate), if_neg (not_not.mpr hset)]

theorem osMakeTimer_of_not_succeed {os : TimerCalls} (h : ¬os.Succeed) (expireMs : ℤ) :
    osMakeTimer os expireMs = (1, none) := by
  unfold osMakeTimer
  split
  · rfl
  split
  · rfl
  split
  · rfl
  · rename_i hsig hcreate hset
    exact absurd ⟨hsig, not_not.mp hcreate, not_not.mp hset⟩ h

end Genlock.Vsyncalter
