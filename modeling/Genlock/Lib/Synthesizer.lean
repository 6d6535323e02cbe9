import Mathlib.Order.Interval.Set.OrdConnected

/-! # Tunable synthesizers

A synthesizer gives one clock for each setting of its dividers and chooses a
setting for a requested clock. Two properties of the choice matter to a client
that nudges the clock: it keeps the order of requests, and asking for the clock
of a setting returns that setting.
-/

namespace Genlock

/-- The clock of a setting, the setting chosen for a clock and the clocks that
the dividers can be tuned to. -/
structure Synthesizer (K D : Type*) where
  clock : D → K
  tune : K → D
  range : Set K

namespace Synthesizer

variable {K D : Type*} (S : Synthesizer K D)

def Exact (d : D) : Prop := S.tune (S.clock d) = d

def MonotoneTuning [Preorder K] : Prop := MonotoneOn (fun x => S.clock (S.tune x)) S.range

def KeepsDirection [Preorder K] (d : D) (x : K) : Prop :=
  (x ≤ S.clock d → S.clock (S.tune x) ≤ S.clock d) ∧
    (S.clock d ≤ x → S.clock d ≤ S.clock (S.tune x))

def RoundsDown [LT K] [LE K] [Add K] (u x : K) : Prop :=
  S.clock (S.tune x) ≤ x ∧ x < S.clock (S.tune x) + u

variable {S}

theorem MonotoneTuning.keepsDirection [Preorder K] (hmono : S.MonotoneTuning) {d : D} (hexact : S.Exact d)
    (hd : S.clock d ∈ S.range) {x : K} (hx : x ∈ S.range) : S.KeepsDirection d x := by
  have hclock : S.clock (S.tune (S.clock d)) = S.clock d := congrArg S.clock hexact
  constructor
  · intro hle
    exact (hmono hx hd hle).trans_eq hclock
  · intro hle
    exact hclock.symm.trans_le (hmono hd hx hle)

def retune (S : Synthesizer K D) (d : D) (requests : List K) : D :=
  requests.foldl (fun _ x => S.tune x) d

/-- The last request decides, whatever came before. -/
theorem retune_concat (S : Synthesizer K D) (d : D) (requests : List K) (x : K) :
    S.retune d (requests ++ [x]) = S.tune x := by
  simp [retune]

end Synthesizer

end Genlock
