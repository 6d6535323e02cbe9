import Genlock.Vsyncalter.RoundTrip

/-! # Any number of requests

A PHY under calls of `set_pll_clock`, one after the other. Each reads the registers that the
last one left, with dividers rounded once more; in the end only the last target decides.
-/

namespace Genlock.Vsyncalter

structure PllRequest where
  target : ℚ
  shift : ℚ
  waitBetweenSteps : ℤ

namespace PllRequest

/-- A request that is turned away before the registers are read. -/
def Refused (q : PllRequest) : Prop := q.target ≤ 0 ∨ q.shift < 0

instance (q : PllRequest) : Decidable q.Refused := inferInstanceAs (Decidable (_ ∨ _))

def status (q : PllRequest) : ℤ := if q.Refused then 1 else 0

def targets (qs : List PllRequest) : List ℚ :=
  (qs.filter fun q => decide ¬q.Refused).map target

variable {D : Type} (S : Synthesizer ℚ D)

/-- A PHY with these dividers can step to the target: it runs, both clocks are in the range
of the dividers and the number of steps is an `int`. -/
structure Follows (d : D) (q : PllRequest) : Prop where
  runs : 0 < S.clock d
  clock : S.clock d ∈ S.range
  target : q.target ∈ S.range
  ramp : (rampSteps (S.clock d) q.target q.shift).isSome = true

def FollowsAll : D → List PllRequest → Prop
  | _, [] => True
  | d, q :: qs => if q.Refused then FollowsAll d qs else Follows S d q ∧ FollowsAll (S.tune q.target) qs

theorem targets_cons_refused {q : PllRequest} (h : q.Refused) (qs : List PllRequest) :
    targets (q :: qs) = targets qs := by
  rw [targets, List.filter_cons_of_neg (by simpa using h), targets]

theorem targets_cons {q : PllRequest} (h : ¬q.Refused) (qs : List PllRequest) :
    targets (q :: qs) = q.target :: targets qs := by
  rw [targets, List.filter_cons_of_pos (by simpa using h), List.map_cons, targets]

end PllRequest

section Requests

variable {Φ Frame Div : Type} {cls : PhyClass Φ RegOp RegOp.Ans}

def setPllClocks (cls : PhyClass Φ RegOp RegOp.Ans) :
    List PllRequest → PhyProg Φ RegOp RegOp.Ans (List ℤ)
  | [] => return []
  | q :: qs => do
      let status ← setPllClock cls q.target q.shift q.waitBetweenSteps
      let rest ← setPllClocks cls qs
      return status :: rest

namespace Tunes

variable (T : Tunes cls Frame Div) {v : World Φ Hw → Option (World Φ Hw)} {w w' w'' : World Φ Hw}

structure Retuned (w : World Φ Hw) (d : Div) (w' : World Φ Hw) : Prop where
  admits : T.admits w'.hw
  flag : w'.clientDone = w.clientDone
  frame : T.frame w'.hw w'.obj.reg = T.frame w.hw w.obj.reg
  div : T.div w'.hw = d

variable {T}

theorem Retuned.pll {d : Div} (h : T.Retuned w d w') : T.pll w' = T.pll w := congrArg T.synth h.frame

theorem Retuned.trans {d d' : Div} (h : T.Retuned w d w') (h' : T.Retuned w' d' w'') :
    T.Retuned w d' w'' where
  admits := h'.admits
  flag := h'.flag.trans h.flag
  frame := h'.frame.trans h.frame
  div := h'.div

theorem Retuned.liveClock {d : Div} (h : T.Retuned w d w') :
    liveClock cls w' = some ((T.pll w).clock d) := by
  rw [T.liveClock_of_admits h.admits, h.pll, h.div]

theorem setPllClock_retuned {q : PllRequest} (hadmits : T.admits w.hw) (hflag : w.clientDone = false)
    (hq : ¬q.Refused) (hfollows : q.Follows (T.pll w) (T.div w.hw)) : ∃ w',
      (setPllClock cls q.target q.shift q.waitBetweenSteps).run (regExec v) w = some (0, w') ∧
        T.Retuned w ((T.pll w).tune q.target) w' := by
  obtain ⟨htarget, hshift⟩ := not_or.mp hq
  obtain ⟨⟨n, size⟩, hramp⟩ := Option.isSome_iff_exists.mp hfollows.ramp
  obtain ⟨hw, reg, hrun, htuned⟩ := setPllClock_run (T := T) (v := v) (T.liveClock_of_admits hadmits)
    hflag hfollows.runs (not_le.mp htarget) (not_lt.mp hshift) hramp hfollows.clock hfollows.target
    q.waitBetweenSteps
  exact ⟨w.put hw reg, hrun, htuned.admits, rfl, htuned.frame, htuned.div⟩

theorem setPllClock_refused {q : PllRequest} (hq : q.Refused) :
    (setPllClock cls q.target q.shift q.waitBetweenSteps).run (regExec v) w = some (1, w) := by
  unfold setPllClock
  rw [if_pos (show q.target ≤ 0 ∨ q.shift < 0 from hq)]
  rfl

/-- Calls that are all refused change nothing at all. -/
theorem setPllClocks_refused {qs : List PllRequest} (h : PllRequest.targets qs = []) :
    (setPllClocks cls qs).run (regExec v) w = some (qs.map PllRequest.status, w) := by
  induction qs with
  | nil => rfl
  | cons q qs ih =>
      by_cases hq : q.Refused
      · rw [PllRequest.targets_cons_refused hq] at h
        unfold setPllClocks
        rw [Prog.run_bind_of (setPllClock_refused hq), Prog.run_bind_of (ih h), List.map_cons,
          PllRequest.status, if_pos hq]
        rfl
      · rw [PllRequest.targets_cons hq] at h
        cases h

theorem setPllClocks_retuned {qs : List PllRequest} (hadmits : T.admits w.hw)
    (hflag : w.clientDone = false)
    (hfollows : PllRequest.FollowsAll (T.pll w) (T.div w.hw) qs) : ∃ w',
      (setPllClocks cls qs).run (regExec v) w = some (qs.map PllRequest.status, w') ∧
        T.Retuned w ((T.pll w).retune (T.div w.hw) (PllRequest.targets qs)) w' := by
  induction qs generalizing w with
  | nil => exact ⟨w, rfl, hadmits, rfl, rfl, rfl⟩
  | cons q qs ih =>
      unfold PllRequest.FollowsAll at hfollows
      by_cases hq : q.Refused
      · rw [if_pos hq] at hfollows
        obtain ⟨w', hrun, hretuned⟩ := ih hadmits hflag hfollows
        refine ⟨w', ?_, by rwa [PllRequest.targets_cons_refused hq]⟩
        unfold setPllClocks
        rw [Prog.run_bind_of (setPllClock_refused hq), Prog.run_bind_of hrun, List.map_cons,
          PllRequest.status, if_pos hq]
        rfl
      · rw [if_neg hq] at hfollows
        obtain ⟨w₁, hcall, hfirst⟩ := setPllClock_retuned (v := v) hadmits hflag hq hfollows.1
        have hrest : PllRequest.FollowsAll (T.pll w₁) (T.div w₁.hw) qs := by
          rw [hfirst.pll, hfirst.div]
          exact hfollows.2
        obtain ⟨w', hrun, hretuned⟩ := ih hfirst.admits (hfirst.flag.trans hflag) hrest
        rw [hfirst.pll, hfirst.div] at hretuned
        refine ⟨w', ?_, ?_⟩
        · unfold setPllClocks
          rw [Prog.run_bind_of hcall, Prog.run_bind_of hrun, List.map_cons, PllRequest.status,
            if_neg hq]
          rfl
        · rw [PllRequest.targets_cons hq]
          exact hfirst.trans hretuned

end Tunes

end Requests

/-- After any requests that a PHY can follow, mixed with requests that are refused, it is the
same synthesizer with the dividers of the last target, whatever it ran at before and however
many steps the calls took; where all are refused nothing has changed. -/
theorem last_target_decides (k : PhyKind) (w : World k.Reg Hw) {c : ℚ} (qs : List PllRequest)
    (hlive : liveClock k.cls w = some c) (hc : 0 < c) (hflag : w.clientDone = false)
    (hfollows : PllRequest.FollowsAll (k.pll w) (k.div w) qs) :
    ∃ w', runCaller hwDevice k.cls (setPllClocks k.cls qs) w = some (qs.map PllRequest.status, w') ∧
      k.pll w' = k.pll w ∧ (PllRequest.targets qs = [] → w' = w) ∧
      ∀ before t, PllRequest.targets qs = before ++ [t] → k.div w' = (k.pll w).tune t ∧
        liveClock k.cls w' = some ((k.pll w).clock ((k.pll w).tune t)) := by
  obtain ⟨w', hrun, hretuned⟩ := Tunes.setPllClocks_retuned (T := k.tunes)
    (v := waitForTimer hwDevice k.cls) (k.tunes.admits_of_liveClock hlive hc) hflag hfollows
  refine ⟨w', hrun, hretuned.pll, fun hnone => ?_, fun before t htargets => ?_⟩
  · have hsame := hrun.symm.trans (Tunes.setPllClocks_refused hnone)
    exact congrArg Prod.snd (Option.some.inj hsame)
  · rw [htargets, Synthesizer.retune_concat] at hretuned
    exact ⟨hretuned.div, hretuned.liveClock⟩

/-- To 577 MHz, a request for a negative clock, and back to about 576 MHz. -/
theorem last_target_decides_combo : ∃ w',
    runCaller hwDevice (PhyKind.combo 0).cls
        (setPllClocks (PhyKind.combo 0).cls [⟨577, 1, 50⟩, ⟨-1, 1, 50⟩, ⟨576 + 75 / 64000, 1, 50⟩])
        comboWorld = some ([0, 1, 0], w') ∧
      (PhyKind.combo 0).div w' = comboSynth.tune (576 + 75 / 64000) := by
  have hclock : comboSynth.clock (comboSynth.tune 577) = 492373 * 75 / 64000 := by
    with_unfolding_all decide
  have hdiv : comboSynth.clock ((PhyKind.combo 0).div comboWorld) = 576 + 75 / 64000 :=
    comboWorld_clock
  have hrange {x : ℚ} (hpos : 0 < x) (hle : x ≤ 1000) : x ∈ comboSynth.range :=
    ⟨hpos.le, by norm_num [comboRefclock]; linarith⟩
  have hfirst : PllRequest.Follows comboSynth ((PhyKind.combo 0).div comboWorld) ⟨577, 1, 50⟩ := by
    refine ⟨?_, ?_, hrange (by norm_num) (by norm_num), ?_⟩
    · rw [hdiv]
      norm_num
    · rw [hdiv]
      exact hrange (by norm_num) (by norm_num)
    · rw [hdiv]
      with_unfolding_all decide
  have hsecond : PllRequest.Follows comboSynth (comboSynth.tune 577)
      ⟨576 + 75 / 64000, 1, 50⟩ := by
    refine ⟨?_, ?_, hrange (by norm_num) (by norm_num), ?_⟩
    · rw [hclock]
      norm_num
    · rw [hclock]
      exact hrange (by norm_num) (by norm_num)
    · rw [hclock]
      with_unfolding_all decide
  have hfollows : PllRequest.FollowsAll ((PhyKind.combo 0).pll comboWorld)
      ((PhyKind.combo 0).div comboWorld)
      [⟨577, 1, 50⟩, ⟨-1, 1, 50⟩, ⟨576 + 75 / 64000, 1, 50⟩] := by
    unfold PllRequest.FollowsAll
    rw [if_neg (by norm_num [PllRequest.Refused])]
    refine ⟨hfirst, ?_⟩
    unfold PllRequest.FollowsAll
    rw [if_pos (by norm_num [PllRequest.Refused])]
    unfold PllRequest.FollowsAll
    rw [if_neg (by norm_num [PllRequest.Refused])]
    exact ⟨hsecond, trivial⟩
  obtain ⟨w', hrun, -, -, hlast⟩ := last_target_decides (.combo 0) comboWorld _ comboWorld_live
    (by norm_num) rfl hfollows
  refine ⟨w', ?_, (hlast [577] _ ?_).1⟩
  · rw [hrun]
    norm_num [PllRequest.status, PllRequest.Refused]
  · norm_num [PllRequest.targets, PllRequest.Refused]

end Genlock.Vsyncalter
