import Genlock.Lib.Clocks
import Genlock.Vsyncalter.Kinds
import Genlock.Vsyncalter.Timer
import Mathlib.Logic.Relation

/-! # Expiries and restore handlers

The timer of a PHY runs against a clock, its signal is queued and delivered, and
every delivery starts a handler, which is the program `reset_phy_regs`. Expiries,
deliveries, the operations of the handlers and whatever other threads do come in
any order.
-/

namespace Genlock.Vsyncalter

variable {Φ Dev : Type} {DA : Dev → Type} {H : Type}

/-! ## The system -/

/-- `handlers` holds what is left of every running handler. `expiries`, `started`
and `finished` are history. -/
structure TimedPhy (Φ Dev : Type) (DA : Dev → Type) (H : Type) where
  now : ℕ
  timer : Option IntervalTimer
  pending : Bool
  world : World Φ H
  handlers : List (PhyProg Φ Dev DA Unit)
  expiries : List ℕ
  started : ℕ
  finished : ℕ

def Timespec.nanoseconds (t : Timespec) : ℕ := (t.tvSec * 1000000000 + t.tvNsec).toNat

def armed (now : ℕ) (expireMs : ℤ) (w : World Φ H) : TimedPhy Φ Dev DA H where
  now := now
  timer := IntervalTimer.set now (timerSpec expireMs).itValue.nanoseconds
    (timerSpec expireMs).itInterval.nanoseconds
  pending := false
  world := w
  handlers := []
  expiries := []
  started := 0
  finished := 0

def timerAfter : PhyOp Φ Dev → Option IntervalTimer → Option IntervalTimer
  | .timerDelete, _ => none
  | _, timer => timer

variable (dev : Device Dev DA H) (cls : PhyClass Φ Dev DA)

inductive TimedStep : TimedPhy Φ Dev DA H → TimedPhy Φ Dev DA H → Prop where
  /-- No time passes over an expiry. -/
  | elapse (s) (d : ℕ) (h : ∀ t, s.timer = some t → s.now + d ≤ t.next) :
      TimedStep s { s with now := s.now + d }
  /-- A signal that is already queued is not queued twice. -/
  | expire (s) (t : IntervalTimer) (ht : s.timer = some t) (hnow : s.now = t.next) :
      TimedStep s { s with timer := t.expire, pending := true, expiries := s.expiries ++ [s.now] }
  | deliver (s) (h : s.pending = true) :
      TimedStep s { s with
        pending := false, handlers := s.handlers ++ [resetPhyRegs cls], started := s.started + 1 }
  /-- The kernel may drop the signal of a timer that is deleted or over. -/
  | drop (s) (h : s.timer = none) : TimedStep s { s with pending := false }
  | handler (s) (i : ℕ) (o : PhyOp Φ Dev) (k : o.Ans DA → PhyProg Φ Dev DA Unit)
      (a : o.Ans DA) (w : World Φ H) (hi : s.handlers[i]? = some (.step o k))
      (hexec : execOp dev (fun _ => none) o s.world = some (a, w)) :
      TimedStep s { s with
        timer := timerAfter o s.timer, world := w, handlers := s.handlers.set i (k a) }
  | finish (s) (i : ℕ) (hi : s.handlers[i]? = some (.pure ())) :
      TimedStep s { s with handlers := s.handlers.eraseIdx i, finished := s.finished + 1 }
  /-- Other threads program the PHY and change its object. -/
  | other (s) (w : World Φ H) : TimedStep s { s with world := w }

abbrev TimedRun : TimedPhy Φ Dev DA H → TimedPhy Φ Dev DA H → Prop :=
  Relation.ReflTransGen (TimedStep dev cls)

/-- One expiry, on time; one handler; nothing that could start another one after
it. -/
structure RestoresOnce (armedAt : ℕ) (expireMs : ℤ) (s : TimedPhy Φ Dev DA H) : Prop where
  onTime : s.expiries = [] ∨ s.expiries = [armedAt + (expireMs * 1000000).toNat]
  once : s.started ≤ 1
  quiet : 0 < s.finished → s.timer = none ∧ s.pending = false ∧ s.handlers = []

/-! ## The two timespecs -/

theorem itValue_nanoseconds (expireMs : ℤ) :
    (timerSpec expireMs).itValue.nanoseconds = (expireMs * 1000000).toNat := by
  unfold Timespec.nanoseconds timerSpec
  congr 1
  have hsplit := Int.tmod_add_mul_tdiv expireMs 1000
  dsimp only
  omega

theorem itInterval_nanoseconds {expireMs : ℤ} (h : 0 < expireMs) :
    (timerSpec expireMs).itInterval.nanoseconds = (expireMs % 1000 * 1000000).toNat := by
  unfold Timespec.nanoseconds timerSpec
  rw [Int.tmod_eq_emod_of_nonneg h.le]
  congr 1
  dsimp only
  omega

theorem armed_timer (now : ℕ) {expireMs : ℤ} (h : 0 < expireMs) (w : World Φ H) :
    (armed now expireMs w : TimedPhy Φ Dev DA H).timer =
      some ⟨now + (expireMs * 1000000).toNat, (expireMs % 1000 * 1000000).toNat⟩ := by
  unfold armed
  dsimp only
  rw [itValue_nanoseconds, itInterval_nanoseconds h, IntervalTimer.set_of_pos (by omega)]

/-! ## Whole seconds -/

inductive OneShot (T : ℕ) : TimedPhy Φ Dev DA H → Prop where
  | waiting {s : TimedPhy Φ Dev DA H} (ht : s.timer = some ⟨T, 0⟩) (hp : s.pending = false)
      (hh : s.handlers = []) (he : s.expiries = []) (hs : s.started = 0) (hf : s.finished = 0) :
      OneShot T s
  | expired {s : TimedPhy Φ Dev DA H} (ht : s.timer = none) (hh : s.handlers = [])
      (he : s.expiries = [T]) (hs : s.started = 0) (hf : s.finished = 0) : OneShot T s
  | running {s : TimedPhy Φ Dev DA H} (ht : s.timer = none) (hp : s.pending = false)
      (hh : s.handlers.length = 1) (he : s.expiries = [T]) (hs : s.started = 1) (hf : s.finished = 0) :
      OneShot T s
  | restored {s : TimedPhy Φ Dev DA H} (ht : s.timer = none) (hp : s.pending = false)
      (hh : s.handlers = []) (he : s.expiries = [T]) (hs : s.started = 1) : OneShot T s

variable {dev cls}

theorem OneShot.step {T : ℕ} {s s' : TimedPhy Φ Dev DA H} (h : OneShot T s)
    (hstep : TimedStep dev cls s s') : OneShot T s' := by
  cases hstep with
  | elapse d hd =>
      cases h with
      | waiting ht hp hh he hs hf => exact .waiting ht hp hh he hs hf
      | expired ht hh he hs hf => exact .expired ht hh he hs hf
      | running ht hp hh he hs hf => exact .running ht hp hh he hs hf
      | restored ht hp hh he hs => exact .restored ht hp hh he hs
  | expire t ht' hnow =>
      cases h with
      | waiting ht hp hh he hs hf =>
          obtain rfl : IntervalTimer.mk T 0 = t := Option.some.inj (ht.symm.trans ht')
          exact .expired rfl hh (by rw [he, hnow]; rfl) hs hf
      | expired ht | running ht | restored ht => exact absurd (ht.symm.trans ht') (by simp)
  | deliver hp' =>
      cases h with
      | waiting ht hp => exact absurd (hp.symm.trans hp') (by simp)
      | expired ht hh he hs hf => exact .running ht rfl (by simp [hh]) he (by simp [hs]) hf
      | running ht hp | restored ht hp => exact absurd (hp.symm.trans hp') (by simp)
  | drop ht' =>
      cases h with
      | waiting ht => exact absurd (ht.symm.trans ht') (by simp)
      | expired ht hh he hs hf => exact .expired ht hh he hs hf
      | running ht hp hh he hs hf => exact .running ht rfl hh he hs hf
      | restored ht hp hh he hs => exact .restored ht rfl hh he hs
  | handler i o k a w hi hexec =>
      cases h with
      | waiting ht hp hh | expired ht hh | restored ht hp hh => simp [hh] at hi
      | running ht hp hh he hs hf =>
          refine .running ?_ hp (by simpa using hh) he hs hf
          rw [ht]
          cases o <;> rfl
  | finish i hi =>
      cases h with
      | waiting ht hp hh | expired ht hh | restored ht hp hh => simp [hh] at hi
      | running ht hp hh he hs hf =>
          refine .restored ht hp ?_ he hs
          obtain ⟨p, hp'⟩ := List.length_eq_one_iff.mp hh
          have hi0 : i = 0 := by
            have := (List.getElem?_eq_some_iff.mp hi).1
            omega
          simp [hp', hi0]
  | other w =>
      cases h with
      | waiting ht hp hh he hs hf => exact .waiting ht hp hh he hs hf
      | expired ht hh he hs hf => exact .expired ht hh he hs hf
      | running ht hp hh he hs hf => exact .running ht hp hh he hs hf
      | restored ht hp hh he hs => exact .restored ht hp hh he hs

theorem OneShot.run {T : ℕ} {s s' : TimedPhy Φ Dev DA H} (h : OneShot T s)
    (hrun : TimedRun dev cls s s') : OneShot T s' := by
  induction hrun with
  | refl => exact h
  | tail _ hstep ih => exact ih.step hstep

theorem OneShot.restoresOnce {armedAt : ℕ} {expireMs : ℤ} {s : TimedPhy Φ Dev DA H}
    (h : OneShot (armedAt + (expireMs * 1000000).toNat) s) : RestoresOnce armedAt expireMs s := by
  cases h with
  | waiting ht hp hh he hs hf => exact ⟨Or.inl he, by omega, by omega⟩
  | expired ht hh he hs hf => exact ⟨Or.inr he, by omega, by omega⟩
  | running ht hp hh he hs hf => exact ⟨Or.inr he, by omega, by omega⟩
  | restored ht hp hh he hs => exact ⟨Or.inr he, by omega, fun _ => ⟨ht, hp, hh⟩⟩

/-! ## A remainder of milliseconds -/

variable (dev cls) in
theorem second_restore (now : ℕ) {expireMs : ℤ} (h : 0 < expireMs) (hrest : expireMs % 1000 ≠ 0)
    (w : World Φ H) : ∃ s, TimedRun dev cls (armed now expireMs w) s ∧ s.started = 2 ∧
      s.handlers = [resetPhyRegs cls, resetPhyRegs cls] := by
  let T := now + (expireMs * 1000000).toNat
  let I := (expireMs % 1000 * 1000000).toNat
  have hI : I ≠ 0 := by
    have := Int.emod_nonneg expireMs (show (1000 : ℤ) ≠ 0 by decide)
    simp only [I, ne_eq, Int.toNat_eq_zero]
    omega
  have htimer : (armed now expireMs w : TimedPhy Φ Dev DA H).timer = _ := armed_timer now h w
  let s₀ : TimedPhy Φ Dev DA H := armed now expireMs w
  let s₁ : TimedPhy Φ Dev DA H := { s₀ with now := T }
  let s₂ : TimedPhy Φ Dev DA H := { s₁ with timer := some ⟨T + I, I⟩, pending := true, expiries := [T] }
  let s₃ : TimedPhy Φ Dev DA H := { s₂ with pending := false, handlers := [resetPhyRegs cls], started := 1 }
  let s₄ : TimedPhy Φ Dev DA H := { s₃ with now := T + I }
  let s₅ : TimedPhy Φ Dev DA H := { s₄ with
    timer := some ⟨T + I + I, I⟩, pending := true, expiries := [T, T + I] }
  let s₆ : TimedPhy Φ Dev DA H := { s₅ with
    pending := false, handlers := [resetPhyRegs cls, resetPhyRegs cls], started := 2 }
  have h₁ : TimedStep dev cls s₀ s₁ := by
    refine .elapse s₀ (expireMs * 1000000).toNat fun t ht => ?_
    obtain rfl := Option.some.inj (htimer.symm.trans ht)
    exact le_rfl
  have h₂ : TimedStep dev cls s₁ s₂ := by
    have hstep : TimedStep dev cls s₁ _ := .expire s₁ ⟨T, I⟩ htimer rfl
    rwa [IntervalTimer.expire_periodic hI] at hstep
  have h₃ : TimedStep dev cls s₂ s₃ := .deliver s₂ rfl
  have h₄ : TimedStep dev cls s₃ s₄ := by
    refine .elapse s₃ I fun t ht => ?_
    obtain rfl := Option.some.inj ht
    exact le_rfl
  have h₅ : TimedStep dev cls s₄ s₅ := by
    have hstep : TimedStep dev cls s₄ _ := .expire s₄ ⟨T + I, I⟩ rfl rfl
    rwa [IntervalTimer.expire_periodic hI] at hstep
  have h₆ : TimedStep dev cls s₅ s₆ := .deliver s₅ rfl
  refine ⟨s₆, ?_, rfl, rfl⟩
  exact (((((Relation.ReflTransGen.single h₁).tail h₂).tail h₃).tail h₄).tail h₅).tail h₆

/-- The restore handler of an arming runs once in every run exactly if the dwell
time is a whole number of seconds. -/
theorem restoresOnce_iff (k : PhyKind) (w : World k.Reg Hw) (armedAt : ℕ) (expireMs : ℤ)
    (hexpire : 0 < expireMs) :
    (∀ s, TimedRun hwDevice k.cls (armed armedAt expireMs w) s → RestoresOnce armedAt expireMs s) ↔
      expireMs % 1000 = 0 := by
  constructor
  · intro h
    by_contra hrest
    obtain ⟨s, hrun, hstarted, -⟩ := second_restore hwDevice k.cls armedAt hexpire hrest w
    have honce := (h s hrun).once
    omega
  · intro hrest s hrun
    have hinit : OneShot (armedAt + (expireMs * 1000000).toNat)
        (armed armedAt expireMs w : TimedPhy k.Reg RegOp RegOp.Ans Hw) := by
      refine .waiting ?_ rfl rfl rfl rfl rfl
      rw [armed_timer armedAt hexpire, hrest]
      rfl
    exact (hinit.run hrun).restoresOnce

def comboWaiting : World ComboPhyReg Hw :=
  ⟨⟨fun _ => 421, fun _ _ _ => 0, fun _ _ _ => 0, fun _ _ => 0⟩,
    ⟨⟨false, 0, 0, 0, 0⟩, ⟨⟨0, 0⟩, ⟨0, 0⟩⟩⟩, false, none⟩

theorem restoresOnce_iff_combo :
    ¬∃ s, TimedRun hwDevice (combo 0) (armed 0 2000 comboWaiting) s ∧ ¬RestoresOnce 0 2000 s := by
  have h := (restoresOnce_iff (.combo 0) comboWaiting 0 2000 (by decide)).mpr (by decide)
  exact fun ⟨s, hrun, hnot⟩ => hnot (h s hrun)

/-- A dwell time of 1.5 s: the timer expires again half a second later. -/
theorem restore_twice : ∃ s, TimedRun hwDevice (combo 0) (armed 0 1500 comboWaiting) s ∧
    s.handlers = [resetPhyRegs (combo 0), resetPhyRegs (combo 0)] ∧ ¬RestoresOnce 0 1500 s := by
  obtain ⟨s, hrun, hstarted, hhandlers⟩ := second_restore hwDevice (combo 0) 0
    (show (0 : ℤ) < 1500 by decide) (by decide) comboWaiting
  refine ⟨s, hrun, hhandlers, fun h => ?_⟩
  have honce := h.once
  omega

end Genlock.Vsyncalter
