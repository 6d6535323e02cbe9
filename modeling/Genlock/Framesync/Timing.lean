import Genlock.Lib.Clocks
import Genlock.Framesync.Secondary
import Mathlib.Data.Rat.Floor
import Mathlib.Tactic.IntervalCases
import Mathlib.Tactic.Linarith

/-! # When a colour change is presented

The main loops of the primary and of a secondary in time, in milliseconds. All nodes
share the vblanks, computing takes no time, and `wait_for_vblank` returns at the next
vblank after the call.
-/

namespace Genlock.Framesync

variable {K : Type} [Field K] [LinearOrder K] [FloorRing K]

/-- The option parser refuses less than 10 ms. -/
def DemoConfig.acceptsScheduleAhead (cfg : DemoConfig) : Prop := ¬cfg.scheduleAheadMs < 10

def sleepUntil (target now : K) : K := max now target

structure TimedUpdate (K : Type) where
  target : K
  color : U32
deriving DecidableEq

/-! ## The primary -/

/-- What one change of the primary does: when it is sent, the update, and when the
primary presents it. -/
structure Change (K : Type) where
  sentAt : K
  update : TimedUpdate K
  presentedAt : K

def schedule (T : K) (cfg : DemoConfig) (vblank : K) (color : U32) : Change K :=
  let now := vblank + 1 / 2
  let target := now + cfg.scheduleAheadMs
  ⟨now, ⟨target, color⟩, Ticks.next T (sleepUntil target now)⟩

structure PrimaryLoop (K : Type) where
  now : K
  changes : List (Change K)

/-- One turn of the main loop; `due`: the colour, if the interval is over. -/
def PrimaryLoop.turn (T : K) (cfg : DemoConfig) (p : PrimaryLoop K) (due : Option U32) :
    PrimaryLoop K :=
  let vblank := Ticks.next T p.now
  match due with
  | none => { p with now := vblank + 1 / 2 }
  | some color =>
      let change := schedule T cfg vblank color
      ⟨change.presentedAt, p.changes ++ [change]⟩

def changesFrom (T : K) (cfg : DemoConfig) : K → List (Option U32) → List (Change K)
  | _, [] => []
  | now, none :: dues => changesFrom T cfg (Ticks.next T now + 1 / 2) dues
  | now, some color :: dues =>
      let change := schedule T cfg (Ticks.next T now) color
      change :: changesFrom T cfg change.presentedAt dues

/-! ## A secondary -/

/-- The main loop of a secondary. `inbox` holds the updates on their way or in the
queue with the times they arrive at, in that order; `presented` and `missed` are
history. -/
structure SecondaryLoop (K : Type) where
  now : K
  inbox : List (K × TimedUpdate K)
  presented : List (U32 × K)
  missed : List U32
deriving DecidableEq

def SecondaryLoop.turn (T : K) (s : SecondaryLoop K) : SecondaryLoop K :=
  match s.inbox with
  | [] => { s with now := Ticks.next T s.now }
  | (arrival, update) :: rest =>
      if arrival ≤ s.now then
        let timeUntilTarget := update.target - s.now
        let woken :=
          if timeUntilTarget < -50 then s.now
          else if timeUntilTarget > 0 then sleepUntil update.target s.now
          else s.now
        let presentVblank := Ticks.next T woken
        { now := presentVblank
          inbox := rest
          presented := s.presented ++ [(update.color, presentVblank)]
          missed := if timeUntilTarget < -50 then s.missed ++ [update.color] else s.missed }
      else { s with now := Ticks.next T s.now }

def SecondaryLoop.run (T : K) : ℕ → SecondaryLoop K → SecondaryLoop K
  | 0, s => s
  | n + 1, s => run T n (s.turn T)

/-- At the top of the loop, after a vblank not later than `t`, with nothing to present. -/
structure SecondaryLoop.Idle (T t : K) (s : SecondaryLoop K) : Prop where
  empty : s.inbox = []
  vblank : ∃ j : ℤ, s.now = j * T
  waiting : s.now ≤ t

def SecondaryLoop.send (s : SecondaryLoop K) (arrival : K) (update : TimedUpdate K) :
    SecondaryLoop K :=
  { s with inbox := s.inbox ++ [(arrival, update)] }

/-- The vblank of a secondary for a change: that of the primary if the target leaves it a
whole period, else the next. -/
def shownAt (T : K) (cfg : DemoConfig) (change : Change K) : K :=
  if T ≤ cfg.scheduleAheadMs + 1 / 2 then change.presentedAt else change.presentedAt + T

/-! ## Turns of a secondary -/

theorem SecondaryLoop.run_add (T : K) (m n : ℕ) (s : SecondaryLoop K) :
    s.run T (m + n) = (s.run T m).run T n := by
  induction m generalizing s with
  | zero => rw [Nat.zero_add]; rfl
  | succ m ih =>
      rw [Nat.succ_add]
      exact ih _

/-- With nothing on its way nothing is presented any more. -/
theorem SecondaryLoop.run_presented_of_empty (T : K) (n : ℕ) {s : SecondaryLoop K}
    (h : s.inbox = []) : (s.run T n).presented = s.presented := by
  induction n generalizing s with
  | zero => rfl
  | succ n ih =>
      have hturn : s.turn T = { s with now := Ticks.next T s.now } := by
        unfold turn
        rw [h]
      unfold run
      rw [hturn]
      exact ih h

section Turns

variable [IsStrictOrderedRing K] {T : K} {s : SecondaryLoop K} {arrival : K}
  {update : TimedUpdate K} {rest : List (K × TimedUpdate K)}

/-- Before the update has arrived the loop goes from vblank to vblank. -/
theorem SecondaryLoop.run_waiting (hT : 0 < T) (hinbox : s.inbox = (arrival, update) :: rest)
    {j : ℤ} (hnow : s.now = j * T) (n : ℕ) (hlate : (j + n) * T < arrival + T) :
    s.run T n = { s with now := (j + n) * T } := by
  induction n generalizing s j with
  | zero =>
      rw [Nat.cast_zero, add_zero, ← hnow]
      rfl
  | succ n ih =>
      push_cast at hlate ⊢
      have hnone : ¬arrival ≤ s.now := by
        have hn : (0 : K) ≤ n * T := mul_nonneg (Nat.cast_nonneg n) hT.le
        rw [not_le, hnow]
        linarith
      have hturn : s.turn T = { s with now := ((j + 1 : ℤ) : K) * T } := by
        unfold turn
        rw [hinbox]
        dsimp only
        rw [if_neg hnone, hnow, Ticks.next_tick hT, Int.cast_add, Int.cast_one]
      have hrest := ih (s := { s with now := ((j + 1 : ℤ) : K) * T }) hinbox rfl
        (by push_cast; linarith)
      unfold run
      rw [hturn, hrest]
      push_cast
      ring_nf

/-- Once it has arrived it is presented at the first vblank after its target, or
after the one at which it was found. -/
theorem SecondaryLoop.turn_of_arrived (hinbox : s.inbox = (arrival, update) :: rest)
    (harrived : arrival ≤ s.now) :
    (s.turn T).inbox = rest ∧
      (s.turn T).now = Ticks.next T (max s.now update.target) ∧
      (s.turn T).presented =
        s.presented ++ [(update.color, Ticks.next T (max s.now update.target))] := by
  have hwoken : (if update.target - s.now < -50 then s.now
      else if update.target - s.now > 0 then sleepUntil update.target s.now
      else s.now) = max s.now update.target := by
    by_cases hlate : update.target - s.now < -50
    · rw [if_pos hlate, max_eq_left (by linarith)]
    · rw [if_neg hlate]
      by_cases hfuture : update.target - s.now > 0
      · rw [if_pos hfuture]
        rfl
      · rw [if_neg hfuture, max_eq_left (by linarith)]
  unfold turn
  rw [hinbox]
  dsimp only
  rw [if_pos harrived, hwoken]
  exact ⟨rfl, rfl, rfl⟩

/-- An update that arrives between two vblanks is presented on the turn after the
later one, and not before. -/
theorem SecondaryLoop.run_presented (hT : 0 < T) (hinbox : s.inbox = [(arrival, update)]) {j : ℤ}
    (hnow : s.now = j * T) {m : ℕ} (hlate : (j + m) * T < arrival + T)
    (harrived : arrival ≤ (j + m) * T) (n : ℕ) :
    (s.run T n).presented = s.presented ++
      if n ≤ m then []
      else [(update.color, Ticks.next T (max ((j + m) * T) update.target))] := by
  by_cases hn : n ≤ m
  · have hle : ((j : K) + n) * T ≤ (j + m) * T := by
      have : (n : K) ≤ m := by exact_mod_cast hn
      exact mul_le_mul_of_nonneg_right (by linarith) hT.le
    rw [if_pos hn, List.append_nil, run_waiting hT hinbox hnow n (hle.trans_lt hlate)]
  · obtain ⟨i, rfl⟩ := Nat.exists_eq_add_of_lt (not_le.mp hn)
    obtain ⟨hempty, -, hpresented⟩ := turn_of_arrived (T := T)
      (s := { s with now := ((j : K) + m) * T }) hinbox harrived
    rw [if_neg hn, show m + i + 1 = m + (i + 1) by ring, run_add,
      run_waiting hT hinbox hnow m hlate]
    exact (run_presented_of_empty T i hempty).trans hpresented

/-! ## Both together -/

/-- An update that reaches a waiting secondary within the period it was sent in is
found at the next vblank. -/
theorem SecondaryLoop.Idle.presented {d : K} (hd : 0 ≤ d) (hdT : 1 / 2 + d < T) {k : ℤ}
    (h : s.Idle T (k * T)) (update : TimedUpdate K) : ∃ m, ∀ n,
      ((s.send (k * T + 1 / 2 + d) update).run T n).presented = s.presented ++
        if n ≤ m then []
        else [(update.color, Ticks.next T (max ((k + 1) * T) update.target))] := by
  have hT : 0 < T := by linarith
  obtain ⟨j, hj⟩ := h.vblank
  have hle : j ≤ k := by
    have hjk : (j : K) * T ≤ k * T := hj ▸ h.waiting
    exact_mod_cast le_of_mul_le_mul_right hjk hT
  have hm : (j : K) + ((k + 1 - j).toNat : ℕ) = k + 1 := by
    have hcast : (((k + 1 - j).toNat : ℕ) : K) = ((k + 1 - j : ℤ) : K) := by
      exact_mod_cast congrArg (Int.cast (R := K)) (Int.toNat_of_nonneg (by omega : 0 ≤ k + 1 - j))
    rw [hcast]
    push_cast
    ring
  have hinbox : (s.send (k * T + 1 / 2 + d) update).inbox = [(k * T + 1 / 2 + d, update)] := by
    unfold send
    rw [h.empty]
    rfl
  refine ⟨(k + 1 - j).toNat, fun n => ?_⟩
  have hrun := run_presented hT hinbox hj (m := (k + 1 - j).toNat)
    (by rw [hm]; linarith) (by rw [hm]; linarith) n
  rwa [hm] at hrun

/-- The primary presents at the first vblank after the target, which the secondary
does too unless it finds the update only after its target. -/
theorem next_max_target_iff {T target : K} (hT : 0 < T) {k : ℤ} (h : k * T ≤ target) :
    Ticks.next T (max ((k + 1) * T) target) = Ticks.next T target ↔ (k + 1) * T ≤ target := by
  cases le_or_gt ((k + 1 : K) * T) target with
  | inl hle => exact iff_of_true (by rw [max_eq_right hle]) hle
  | inr hlt =>
      refine iff_of_false ?_ (not_le.mpr hlt)
      have hlate := Ticks.next_tick hT (k + 1)
      push_cast at hlate
      rw [max_eq_left hlt.le, hlate, Ticks.next_of_mem hT h hlt]
      intro heq
      linarith

/-- An idle secondary presents the colour of a change at the vblank at which the
primary does exactly if the period is not longer than the time from the vblank
before the change to its target. -/
theorem presented_together_iff {T d : K} (hd : 0 ≤ d) (hdT : 1 / 2 + d < T) {cfg : DemoConfig}
    (hcfg : cfg.acceptsScheduleAhead) {p : PrimaryLoop K} {color : U32} {change : Change K}
    (hchange : (p.turn T cfg (some color)).changes = p.changes ++ [change])
    {s : SecondaryLoop K} (hidle : s.Idle T (Ticks.next T p.now)) :
    (∃ n, ((s.send (change.sentAt + d) change.update).run T n).presented =
      s.presented ++ [(color, change.presentedAt)]) ↔ T ≤ cfg.scheduleAheadMs + 1 / 2 := by
  have hT : 0 < T := by linarith
  have hahead : (10 : K) ≤ cfg.scheduleAheadMs := by
    exact_mod_cast not_lt.mp hcfg
  obtain ⟨k, hk⟩ := Ticks.exists_next T p.now
  obtain rfl : schedule T cfg (Ticks.next T p.now) color = change := by
    simpa [PrimaryLoop.turn] using hchange
  rw [hk] at hidle ⊢
  have htarget : k * T ≤ k * T + 1 / 2 + (cfg.scheduleAheadMs : K) := by linarith
  have hpresent : (schedule T cfg (k * T) color).presentedAt =
      Ticks.next T (k * T + 1 / 2 + cfg.scheduleAheadMs) := by
    show Ticks.next T (max (k * T + 1 / 2) (k * T + 1 / 2 + cfg.scheduleAheadMs)) = _
    rw [max_eq_right (by linarith)]
  have hiff : (k + 1) * T ≤ k * T + 1 / 2 + (cfg.scheduleAheadMs : K) ↔
      T ≤ cfg.scheduleAheadMs + 1 / 2 := by
    constructor <;> intro h <;> linarith
  obtain ⟨m, hm⟩ := hidle.presented hd hdT (schedule T cfg (k * T) color).update
  rw [← hiff, ← next_max_target_iff hT htarget, hpresent]
  constructor
  · intro h
    obtain ⟨n, hn⟩ := h
    rw [show (schedule T cfg (k * T) color).sentAt = k * T + 1 / 2 from rfl, hm n] at hn
    have hlast := List.append_cancel_left hn
    split at hlast
    · cases hlast
    · exact (Prod.mk.inj (List.cons.inj hlast).1).2
  · intro h
    refine ⟨m + 1, ?_⟩
    rw [show (schedule T cfg (k * T) color).sentAt = k * T + 1 / 2 from rfl, hm (m + 1),
      if_neg (by omega)]
    exact congrArg (fun t => s.presented ++ [(color, t)]) h

end Turns

/-- The default of 16 ms ahead. -/
def defaultDemo : DemoConfig := ⟨true, 16⟩

def freshSecondary (now : ℚ) : SecondaryLoop ℚ := ⟨now, [], [], []⟩

def firstChange (T : ℚ) : Change ℚ := schedule T defaultDemo (Ticks.next T 0) 0x00FF00FF

/-- At 100 Hz the default is enough. -/
theorem presented_together_iff_100Hz :
    (∃ n, (((freshSecondary 10).send ((firstChange 10).sentAt + 1) (firstChange 10).update).run 10
      n).presented = [] ++ [(0x00FF00FF, (firstChange 10).presentedAt)]) ↔
      (10 : ℚ) ≤ defaultDemo.scheduleAheadMs + 1 / 2 :=
  presented_together_iff (p := ⟨0, []⟩) (s := freshSecondary 10) (by norm_num) (by norm_num)
    (by unfold DemoConfig.acceptsScheduleAhead defaultDemo; norm_num) rfl
    ⟨rfl, ⟨1, by norm_num [freshSecondary]⟩, by decide +kernel⟩

/-- At 60 Hz the target of the default lies just before the next vblank, at which the
primary presents; the secondary finds the update there and presents one later. -/
theorem default_60Hz_apart :
    (firstChange (50 / 3)).presentedAt = 100 / 3 ∧
      (((freshSecondary (50 / 3)).send ((firstChange (50 / 3)).sentAt + 1)
        (firstChange (50 / 3)).update).run (50 / 3) 2).presented = [(0x00FF00FF, 50)] ∧
      ¬∃ n, (((freshSecondary (50 / 3)).send ((firstChange (50 / 3)).sentAt + 1)
        (firstChange (50 / 3)).update).run (50 / 3) n).presented =
          [(0x00FF00FF, (firstChange (50 / 3)).presentedAt)] := by
  have hpresent : (firstChange (50 / 3)).presentedAt = 100 / 3 := by decide +kernel
  have hrun : ((freshSecondary (50 / 3)).send ((firstChange (50 / 3)).sentAt + 1)
      (firstChange (50 / 3)).update).run (50 / 3) 2 = ⟨50, [], [(0x00FF00FF, 50)], []⟩ := by
    decide +kernel
  refine ⟨hpresent, by rw [hrun], ?_⟩
  intro h
  obtain ⟨n, hn⟩ := h
  rw [hpresent] at hn
  cases Nat.lt_or_ge n 2 with
  | inl hlt =>
      interval_cases n
      · exact absurd hn (by decide +kernel)
      · exact absurd hn (by decide +kernel)
  | inr hge =>
      obtain ⟨i, rfl⟩ := Nat.exists_eq_add_of_le hge
      rw [SecondaryLoop.run_add, hrun, SecondaryLoop.run_presented_of_empty _ _ rfl] at hn
      exact absurd hn (by decide +kernel)

end Genlock.Framesync
