import Mathlib.Algebra.Order.Field.Basic
import Mathlib.Algebra.Order.Floor.Ring
import Mathlib.Algebra.Order.Group.Nat

/-! # Clocks and timers

A timer that is set to a value expires once after it, and from then on once in every interval;
a zero value disarms it, a zero interval makes it expire once. A periodic clock ticks at the
whole multiples of its period, of either sign. A running counter may have to be read in two
halves: what is put together lies between the two readings exactly if the low half did not go
down.
-/

/-! ## Interval timers, in nanoseconds -/

namespace Genlock

structure IntervalTimer where
  next : ℕ
  interval : ℕ
deriving DecidableEq, Repr

namespace IntervalTimer

def set (now value interval : ℕ) : Option IntervalTimer :=
  if value = 0 then none else some ⟨now + value, interval⟩

def expire (t : IntervalTimer) : Option IntervalTimer :=
  if t.interval = 0 then none else some ⟨t.next + t.interval, t.interval⟩

theorem set_of_pos {now value interval : ℕ} (h : 0 < value) :
    set now value interval = some ⟨now + value, interval⟩ := if_neg h.ne'

theorem expire_periodic {t : IntervalTimer} (h : t.interval ≠ 0) :
    t.expire = some ⟨t.next + t.interval, t.interval⟩ := if_neg h

end IntervalTimer

end Genlock

/-! ## Ticks of a periodic clock -/

namespace Genlock.Ticks

variable {K : Type} [Field K] [LinearOrder K] [FloorRing K]

def next (T t : K) : K := (⌊t / T⌋ + 1) * T

theorem exists_next (T t : K) : ∃ k : ℤ, next T t = k * T :=
  ⟨⌊t / T⌋ + 1, by unfold next; push_cast; rfl⟩

variable [IsStrictOrderedRing K] {T t : K}

theorem next_eq_iff (hT : 0 < T) (k : ℤ) : next T t = (k + 1) * T ↔ k * T ≤ t ∧ t < (k + 1) * T := by
  have hfloor := Int.floor_eq_iff (a := t / T) (z := k)
  rw [le_div_iff₀ hT, div_lt_iff₀ hT] at hfloor
  rw [← hfloor]
  unfold next
  constructor
  · intro h
    exact_mod_cast add_right_cancel (mul_right_cancel₀ hT.ne' h)
  · intro h
    rw [h]

theorem next_of_mem (hT : 0 < T) {k : ℤ} (h0 : k * T ≤ t) (h1 : t < (k + 1) * T) :
    next T t = (k + 1) * T :=
  (next_eq_iff hT k).mpr ⟨h0, h1⟩

theorem next_tick (hT : 0 < T) (k : ℤ) : next T (k * T) = (k + 1) * T := by
  apply next_of_mem hT le_rfl
  linarith

end Genlock.Ticks

/-! ## A counter read in two halves -/

namespace Genlock.Halves

/-- The value put together of the high half of `x` and the low half of `y`, in base `B`. -/
def torn (B x y : ℕ) : ℕ := x / B * B + y % B

variable {B x y : ℕ}

theorem torn_add_mod (B x y : ℕ) : torn B x y + x % B = x + y % B := by
  have hx := Nat.div_add_mod' x B
  unfold torn
  omega

theorem torn_le (h : x ≤ y) : torn B x y ≤ y := by
  have hy := Nat.div_add_mod' y B
  have hhigh : x / B * B ≤ y / B * B := Nat.mul_le_mul_right B (Nat.div_le_div_right h)
  unfold torn
  omega

theorem le_torn_iff : x ≤ torn B x y ↔ x % B ≤ y % B := by
  have hsum := torn_add_mod B x y
  omega

theorem torn_eq_of_div_eq (h : x / B = y / B) : torn B x y = y := by
  unfold torn
  rw [h]
  exact Nat.div_add_mod' y B

/-- A carry between the readings is lost as a whole. -/
theorem torn_add_le (h : x / B < y / B) : torn B x y + B ≤ y := by
  have hy := Nat.div_add_mod' y B
  have hhigh : (x / B + 1) * B ≤ y / B * B := Nat.mul_le_mul_right B h
  rw [Nat.add_mul, Nat.one_mul] at hhigh
  unfold torn
  omega

theorem lt_torn_add (hB : 0 < B) : x < torn B x y + B := by
  have hsum := torn_add_mod B x y
  have hmod := Nat.mod_lt x hB
  omega

end Genlock.Halves
