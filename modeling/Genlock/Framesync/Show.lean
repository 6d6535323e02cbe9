import Genlock.Framesync.Timing

/-! # A whole show

The primary makes one change after another; each reaches a secondary with a delay of its
own. If every delay fits into the period it was sent in, the secondary keeps up with the
primary for ever, at the same vblanks or always one behind.
-/

namespace Genlock.Framesync

variable {K : Type} [Field K] [LinearOrder K] [FloorRing K]

def PrimaryLoop.run (T : K) (cfg : DemoConfig) (p : PrimaryLoop K) (dues : List (Option U32)) :
    PrimaryLoop K :=
  dues.foldl (PrimaryLoop.turn T cfg) p

theorem PrimaryLoop.run_changes (T : K) (cfg : DemoConfig) (p : PrimaryLoop K)
    (dues : List (Option U32)) :
    (p.run T cfg dues).changes = p.changes ++ changesFrom T cfg p.now dues := by
  induction dues generalizing p with
  | nil => exact (List.append_nil _).symm
  | cons due dues ih =>
      cases due with
      | none => exact ih _
      | some color =>
          refine (ih (p.turn T cfg (some color))).trans ?_
          show (p.changes ++ [_]) ++ _ = _
          rw [List.append_assoc]
          rfl

def deliveries (changes : List (Change K)) (delays : List K) : List (K × TimedUpdate K) :=
  List.zipWith (fun change d => (change.sentAt + d, change.update)) changes delays

def shown (T : K) (cfg : DemoConfig) (changes : List (Change K)) : List (U32 × K) :=
  changes.map fun change => (change.update.color, shownAt T cfg change)

section Show

variable [IsStrictOrderedRing K] {T : K} {cfg : DemoConfig} {s : SecondaryLoop K}

omit [IsStrictOrderedRing K] in
/-- With nothing on its way nothing is missed any more. -/
theorem SecondaryLoop.run_missed_of_empty (T : K) (n : ℕ) (h : s.inbox = []) :
    (s.run T n).missed = s.missed := by
  induction n generalizing s with
  | zero => rfl
  | succ n ih =>
      have hturn : s.turn T = { s with now := Ticks.next T s.now } := by
        unfold turn
        rw [h]
      unfold run
      rw [hturn]
      exact ih h

/-- An update found at the vblank after its sending, 500 us behind the vblank before. -/
theorem next_max_eq_shownAt (hhalf : 1 / 2 < T) (hcfg : cfg.acceptsScheduleAhead) (k : ℤ)
    (color : U32) :
    Ticks.next T (max ((k + 1) * T) (schedule T cfg (k * T) color).update.target) =
      shownAt T cfg (schedule T cfg (k * T) color) := by
  have hT : 0 < T := by linarith
  have hahead : (10 : K) ≤ cfg.scheduleAheadMs := by
    exact_mod_cast not_lt.mp hcfg
  have htarget : (schedule T cfg (k * T) color).update.target =
      k * T + 1 / 2 + cfg.scheduleAheadMs := rfl
  have hpresent : (schedule T cfg (k * T) color).presentedAt =
      Ticks.next T (k * T + 1 / 2 + cfg.scheduleAheadMs) := by
    show Ticks.next T (max (k * T + 1 / 2) (k * T + 1 / 2 + cfg.scheduleAheadMs)) = _
    rw [max_eq_right (by linarith)]
  rw [htarget, shownAt, hpresent]
  by_cases hfits : T ≤ cfg.scheduleAheadMs + 1 / 2
  · rw [if_pos hfits]
    exact (next_max_target_iff hT (by linarith)).mpr (by linarith)
  · have hprimary : Ticks.next T (k * T + 1 / 2 + cfg.scheduleAheadMs) = (k + 1) * T :=
      Ticks.next_of_mem hT (by linarith) (by linarith)
    have hsecondary := Ticks.next_tick hT (k + 1)
    push_cast at hsecondary
    rw [if_neg hfits, max_eq_left (by linarith), hprimary, hsecondary]
    ring

/-- The next turn of the primary starts behind the vblank at which the secondary presents. -/
theorem shownAt_le_next (hhalf : 1 / 2 < T) (k : ℤ) (color : U32) :
    shownAt T cfg (schedule T cfg (k * T) color) ≤
      Ticks.next T (schedule T cfg (k * T) color).presentedAt := by
  have hT : 0 < T := by linarith
  obtain ⟨i, hi⟩ := Ticks.exists_next T
    (sleepUntil (schedule T cfg (k * T) color).update.target (k * T + 1 / 2))
  have hpresent : (schedule T cfg (k * T) color).presentedAt = i * T := hi
  rw [hpresent, Ticks.next_tick hT, shownAt, hpresent]
  split
  · linarith
  · linarith

/-- At the top of the loop after a vblank not later than `t`, with updates on their way. -/
structure SecondaryLoop.Ready (T t : K) (s : SecondaryLoop K) (inbox : List (K × TimedUpdate K)) :
    Prop where
  inbox : s.inbox = inbox
  vblank : ∃ j : ℤ, s.now = j * T
  waiting : s.now ≤ t

/-- One change: the turns up to the one that presents it. -/
theorem SecondaryLoop.Ready.change {k : ℤ} {d : K} {color : U32} {rest : List (K × TimedUpdate K)}
    (hd : 0 ≤ d) (hdT : 1 / 2 + d < T) (hcfg : cfg.acceptsScheduleAhead)
    (h : s.Ready T (k * T) (((schedule T cfg (k * T) color).sentAt + d,
      (schedule T cfg (k * T) color).update) :: rest)) :
    ∃ n, (s.run T n).Ready T (Ticks.next T (schedule T cfg (k * T) color).presentedAt) rest ∧
      (s.run T n).presented =
        s.presented ++ [(color, shownAt T cfg (schedule T cfg (k * T) color))] ∧
      (T ≤ cfg.scheduleAheadMs + 101 / 2 → (s.run T n).missed = s.missed) := by
  have hhalf : 1 / 2 < T := by linarith
  have hT : 0 < T := by linarith
  obtain ⟨j, hj⟩ := h.vblank
  have hle : j ≤ k := by
    have hjk : (j : K) * T ≤ k * T := hj ▸ h.waiting
    exact_mod_cast le_of_mul_le_mul_right hjk hT
  -- the turns before the update is found
  have hm : (j : K) + ((k + 1 - j).toNat : ℕ) = k + 1 := by
    have hcast : (((k + 1 - j).toNat : ℕ) : K) = ((k + 1 - j : ℤ) : K) := by
      exact_mod_cast congrArg (Int.cast (R := K)) (Int.toNat_of_nonneg (by omega : 0 ≤ k + 1 - j))
    rw [hcast]
    push_cast
    ring
  have hsent : (schedule T cfg (k * T) color).sentAt = k * T + 1 / 2 := rfl
  have hwait := run_waiting hT h.inbox hj (k + 1 - j).toNat (by rw [hm, hsent]; linarith)
  rw [hm] at hwait
  have harrived : (schedule T cfg (k * T) color).sentAt + d ≤ (k + 1) * T := by
    rw [hsent]
    linarith
  obtain ⟨hinbox, hnow, hpresented⟩ := turn_of_arrived (T := T)
    (s := { s with now := ((k : K) + 1) * T }) h.inbox harrived
  have hshown := next_max_eq_shownAt (T := T) hhalf hcfg k color
  refine ⟨(k + 1 - j).toNat + 1, ?_, ?_, ?_⟩
  · rw [run_add, hwait]
    refine ⟨hinbox, ?_, ?_⟩
    · show ∃ i : ℤ, (turn T _).now = i * T
      rw [hnow]
      exact Ticks.exists_next T _
    · show (turn T _).now ≤ _
      rw [hnow, hshown]
      exact shownAt_le_next hhalf k color
  · rw [run_add, hwait]
    show (turn T _).presented = _
    rw [hpresented, hshown]
    rfl
  · intro hnear
    rw [run_add, hwait]
    have htarget : (schedule T cfg (k * T) color).update.target =
        k * T + 1 / 2 + cfg.scheduleAheadMs := rfl
    show (turn T _).missed = s.missed
    unfold turn
    rw [h.inbox]
    dsimp only
    rw [if_pos harrived]
    dsimp only
    rw [if_neg (by rw [htarget]; linarith)]

theorem SecondaryLoop.Ready.presents (hcfg : cfg.acceptsScheduleAhead) {t : K}
    {dues : List (Option U32)} {delays : List K} (hhalf : 1 / 2 < T)
    (hdelays : ∀ d ∈ delays, 0 ≤ d ∧ 1 / 2 + d < T)
    (hlength : delays.length = (changesFrom T cfg t dues).length)
    (h : s.Ready T (Ticks.next T t) (deliveries (changesFrom T cfg t dues) delays)) :
    ∃ n, (s.run T n).inbox = [] ∧
      (s.run T n).presented = s.presented ++ shown T cfg (changesFrom T cfg t dues) ∧
      (T ≤ cfg.scheduleAheadMs + 101 / 2 → (s.run T n).missed = s.missed) := by
  induction dues generalizing t s delays with
  | nil =>
      refine ⟨0, h.inbox.trans ?_, (List.append_nil _).symm, fun _ => rfl⟩
      rfl
  | cons due dues ih =>
      have hT : 0 < T := by linarith
      obtain ⟨k, hk⟩ := Ticks.exists_next T t
      cases due with
      | none =>
          have hnext : Ticks.next T (Ticks.next T t + 1 / 2) = (k + 1) * T := by
            rw [hk]
            exact Ticks.next_of_mem hT (by linarith) (by linarith)
          have hlater : s.Ready T (Ticks.next T (Ticks.next T t + 1 / 2))
              (deliveries (changesFrom T cfg (Ticks.next T t + 1 / 2) dues) delays) := by
            refine ⟨h.inbox, h.vblank, h.waiting.trans ?_⟩
            rw [hnext, hk]
            linarith
          exact ih hdelays hlength hlater
      | some color =>
          cases delays with
          | nil => exact absurd hlength (by simp [changesFrom])
          | cons d delays =>
              obtain ⟨⟨hd, hdT⟩, hrest⟩ := List.forall_mem_cons.mp hdelays
              have hfirst : s.Ready T (Ticks.next T t)
                  (((schedule T cfg (Ticks.next T t) color).sentAt + d,
                    (schedule T cfg (Ticks.next T t) color).update) ::
                      deliveries (changesFrom T cfg (schedule T cfg (Ticks.next T t) color).presentedAt
                        dues) delays) := h
              rw [hk] at hfirst
              obtain ⟨n, hready, hpresented, hmissed⟩ := hfirst.change hd hdT hcfg
              obtain ⟨m, hempty, hpresented', hmissed'⟩ := ih hrest
                (by simpa [changesFrom, hk] using hlength) hready
              refine ⟨n + m, ?_, ?_, fun hnear => ?_⟩
              · rw [run_add]
                exact hempty
              · rw [run_add, hpresented', hpresented, List.append_assoc]
                show _ = s.presented ++ shown T cfg (schedule T cfg (Ticks.next T t) color ::
                  changesFrom T cfg (schedule T cfg (Ticks.next T t) color).presentedAt dues)
                rw [hk]
                rfl
              · rw [run_add, hmissed' hnear, hmissed hnear]

/-- In a whole show, whenever its changes are due and whatever delay within the period each
has on its way to it, a secondary presents every colour once and in order: all of them at
the vblanks of the primary if the period is not longer than the time from a vblank to the
target, all of them one vblank later otherwise. None counts as missed unless the period is
more than 50 ms longer than that. -/
theorem show_in_step (hhalf : 1 / 2 < T) (hcfg : cfg.acceptsScheduleAhead) (p : PrimaryLoop K)
    (dues : List (Option U32)) {changes : List (Change K)}
    (hchanges : (p.run T cfg dues).changes = p.changes ++ changes) (delays : List K)
    (hlength : delays.length = changes.length) (hdelays : ∀ d ∈ delays, 0 ≤ d ∧ 1 / 2 + d < T)
    (hidle : s.Idle T (Ticks.next T p.now)) :
    ∃ n, ∀ i, n ≤ i →
      (SecondaryLoop.run T i { s with inbox := deliveries changes delays }).presented =
        s.presented ++ shown T cfg changes ∧
      (T ≤ cfg.scheduleAheadMs + 101 / 2 →
        (SecondaryLoop.run T i { s with inbox := deliveries changes delays }).missed = s.missed) := by
  obtain rfl : changesFrom T cfg p.now dues = changes := by
    rw [PrimaryLoop.run_changes] at hchanges
    exact List.append_cancel_left hchanges
  obtain ⟨n, hempty, hpresented, hmissed⟩ := SecondaryLoop.Ready.presents
    (s := { s with inbox := deliveries (changesFrom T cfg p.now dues) delays }) hcfg hhalf hdelays
    hlength ⟨rfl, hidle.vblank, hidle.waiting⟩
  refine ⟨n, fun i hi => ?_⟩
  obtain ⟨m, rfl⟩ := Nat.exists_eq_add_of_le hi
  rw [SecondaryLoop.run_add, SecondaryLoop.run_presented_of_empty T m hempty,
    SecondaryLoop.run_missed_of_empty T m hempty]
  exact ⟨hpresented, hmissed⟩

end Show

/-- Two changes at 100 Hz, delayed by 1 ms and 2 ms. -/
theorem show_in_step_100Hz :
    ∃ n, ∀ i, n ≤ i → (SecondaryLoop.run 10 i { freshSecondary 10 with
        inbox := deliveries (changesFrom 10 defaultDemo 0
          [some 0x00FF00FF, none, some 0x0000FFFF]) [1, 2] }).presented =
      [(0x00FF00FF, 30), (0x0000FFFF, 70)] := by
  obtain ⟨n, hn⟩ := show_in_step (T := 10) (s := freshSecondary 10) (by norm_num)
    (show defaultDemo.acceptsScheduleAhead by
      unfold DemoConfig.acceptsScheduleAhead defaultDemo; norm_num) ⟨0, []⟩
    [some 0x00FF00FF, none, some 0x0000FFFF] (PrimaryLoop.run_changes _ _ _ _) [1, 2] rfl
    (by norm_num) ⟨rfl, ⟨1, by norm_num [freshSecondary]⟩, by decide +kernel⟩
  have hshown : shown (10 : ℚ) defaultDemo (changesFrom 10 defaultDemo 0
      [some 0x00FF00FF, none, some 0x0000FFFF]) = [(0x00FF00FF, 30), (0x0000FFFF, 70)] := by
    decide +kernel
  refine ⟨n, fun i hi => ?_⟩
  rw [← hshown]
  exact (hn i hi).1

end Genlock.Framesync
