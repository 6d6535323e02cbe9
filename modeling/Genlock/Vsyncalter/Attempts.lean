import Genlock.Vsyncalter.Api

/-!
# Which PHYs a call attempts

The calls of the library on a list of PHYs that note each attempt on them: `program_phy` and
`set_pll_clock`, with the place of the PHY in the list and what it returned.
-/

namespace Genlock.Vsyncalter

variable {σ : Type}

/-! ## PHYs that note what is asked of them -/

abbrev Attempts := List (ℕ × ℤ)

def noting {α : Type} (x : StateM σ α) (entry : α → Attempts) : StateM (σ × Attempts) α :=
  fun w => ((x.run w.1).1, (x.run w.1).2, w.2 ++ entry (x.run w.1).1)

def EnabledPhy.noted (i : ℕ) (p : EnabledPhy (StateM σ)) : EnabledPhy (StateM (σ × Attempts)) where
  getPipe := p.getPipe
  programPhy r := noting (p.programPhy r) fun ret => [(i, ret)]
  waitUntilDone := noting p.waitUntilDone fun _ => []
  setPllClock pllClock shift waitBetweenSteps :=
    noting (p.setPllClock pllClock shift waitBetweenSteps) fun ret => [(i, ret)]
  getPllClock := noting p.getPllClock fun _ => []

def notedFrom (k : ℕ) (phys : List (EnabledPhy (StateM σ))) :
    List (EnabledPhy (StateM (σ × Attempts))) :=
  (phys.zipIdx k).map fun p => p.1.noted p.2

def servingFrom (pipe : ℤ) (k : ℕ) (phys : List (EnabledPhy (StateM σ))) : List ℕ :=
  ((phys.zipIdx k).filter fun p => p.1.serves pipe).map Prod.snd

theorem notedFrom_cons (k : ℕ) (p : EnabledPhy (StateM σ)) (phys : List (EnabledPhy (StateM σ))) :
    notedFrom k (p :: phys) = p.noted k :: notedFrom (k + 1) phys := rfl

@[simp] theorem EnabledPhy.noted_serves (i : ℕ) (p : EnabledPhy (StateM σ)) (pipe : ℤ) :
    (p.noted i).serves pipe = p.serves pipe := rfl

theorem servingFrom_cons (pipe : ℤ) (k : ℕ) (p : EnabledPhy (StateM σ))
    (phys : List (EnabledPhy (StateM σ))) :
    servingFrom pipe k (p :: phys) =
      if p.serves pipe then k :: servingFrom pipe (k + 1) phys
      else servingFrom pipe (k + 1) phys := by
  unfold servingFrom
  rw [List.zipIdx_cons, List.filter_cons]
  split <;> rfl

theorem any_serves_notedFrom (pipe : ℤ) (k : ℕ) (phys : List (EnabledPhy (StateM σ))) :
    (notedFrom k phys).any (·.serves pipe) = phys.any (·.serves pipe) := by
  induction phys generalizing k with
  | nil => rfl
  | cons p phys ih => rw [notedFrom_cons, List.any_cons, List.any_cons, ih, p.noted_serves]

theorem servingFrom_eq_nil_iff (pipe : ℤ) (k : ℕ) (phys : List (EnabledPhy (StateM σ))) :
    servingFrom pipe k phys = [] ↔ phys.any (·.serves pipe) = false := by
  induction phys generalizing k with
  | nil =>
      exact iff_of_true rfl rfl
  | cons p phys ih =>
      rw [servingFrom_cons, List.any_cons]
      cases p.serves pipe with
      | true => simp
      | false => simpa using ih (k + 1)

/-! ## The two loops -/

/-- What a loop over the PHYs did: the attempts behind `before`, and whether it ends with 0. -/
structure LoopAttempts (pipe : ℤ) (k : ℕ) (phys : List (EnabledPhy (StateM σ))) (status : ℤ)
    (before : Attempts) (result : ℤ × σ × Attempts) (attempts : Attempts) : Prop where
  noted : result.2.2 = before ++ attempts
  order : attempts.map Prod.fst = servingFrom pipe k phys
  status : result.1 = 0 ↔ status = 0 ∧ ∀ a ∈ attempts, a.2 = 0

theorem LoopAttempts.cons {pipe : ℤ} {k : ℕ} {p : EnabledPhy (StateM σ)}
    {phys : List (EnabledPhy (StateM σ))} {status status' ret : ℤ} {before attempts : Attempts}
    {result : ℤ × σ × Attempts} (hserves : p.serves pipe = true)
    (hstatus : status' = 0 ↔ status = 0 ∧ ret = 0)
    (h : LoopAttempts pipe (k + 1) phys status' (before ++ [(k, ret)]) result attempts) :
    LoopAttempts pipe k (p :: phys) status before result ((k, ret) :: attempts) := by
  constructor
  · rw [h.noted, List.append_assoc]
    rfl
  · rw [List.map_cons, h.order, servingFrom_cons, if_pos hserves]
  · rw [h.status, hstatus, List.forall_mem_cons, and_assoc]

theorem LoopAttempts.skip {pipe : ℤ} {k : ℕ} {p : EnabledPhy (StateM σ)}
    {phys : List (EnabledPhy (StateM σ))} {status : ℤ} {before attempts : Attempts}
    {result : ℤ × σ × Attempts} (hserves : ¬ p.serves pipe = true)
    (h : LoopAttempts pipe (k + 1) phys status before result attempts) :
    LoopAttempts pipe k (p :: phys) status before result attempts := by
  refine ⟨h.noted, ?_, h.status⟩
  rw [h.order, servingFrom_cons, if_neg hserves]

theorem LoopAttempts.nil (pipe : ℤ) (k : ℕ) (status : ℤ) (w : σ × Attempts) :
    LoopAttempts pipe k [] status w.2 (status, w) [] :=
  ⟨(List.append_nil w.2).symm, rfl, by simp⟩

theorem synchronizePhys_attempts (r : SyncRequest) (phys : List (EnabledPhy (StateM σ))) (k : ℕ)
    (status : ℤ) (w : σ × Attempts) :
    ∃ attempts, LoopAttempts r.pipe k phys status w.2
      ((synchronizePhys r (notedFrom k phys) status).run w) attempts := by
  induction phys generalizing k status w with
  | nil =>
      exact ⟨[], LoopAttempts.nil r.pipe k status w⟩
  | cons p phys ih =>
      rw [notedFrom_cons, synchronizePhys, p.noted_serves]
      by_cases hserves : p.serves r.pipe = true
      · rw [if_pos hserves, run_bind_state]
        have hnoted : (((p.noted k).programPhy r).run w).2.2 =
          w.2 ++ [(k, ((p.programPhy r).run w.1).1)] := rfl
        by_cases hret : ((p.programPhy r).run w.1).1 = 0
        · have hret' : ¬ (((p.noted k).programPhy r).run w).1 ≠ 0 := not_not.2 hret
          rw [if_neg hret']
          by_cases hwait : (r.reset && r.commit) = true
          · rw [if_pos hwait, run_bind_state]
            obtain ⟨attempts, h⟩ := ih (k + 1) status
              ((p.noted k).waitUntilDone.run (((p.noted k).programPhy r).run w).2).2
            have hwaited : ((p.noted k).waitUntilDone.run
                (((p.noted k).programPhy r).run w).2).2.2 = w.2 ++ [(k, 0)] := by
              rw [← hret]
              exact List.append_nil _
            rw [hwaited] at h
            exact ⟨_, h.cons hserves (by simp)⟩
          · rw [if_neg hwait]
            obtain ⟨attempts, h⟩ := ih (k + 1) status (((p.noted k).programPhy r).run w).2
            rw [hnoted] at h
            exact ⟨_, h.cons hserves (by simp [hret])⟩
        · have hret' : (((p.noted k).programPhy r).run w).1 ≠ 0 := hret
          rw [if_pos hret']
          obtain ⟨attempts, h⟩ := ih (k + 1) 1 (((p.noted k).programPhy r).run w).2
          rw [hnoted] at h
          exact ⟨_, h.cons hserves (by simp [hret])⟩
      · rw [if_neg hserves]
        obtain ⟨attempts, h⟩ := ih (k + 1) status w
        exact ⟨attempts, h.skip hserves⟩

theorem setPllClockPhys_attempts (pllClock : ℚ) (pipe : ℤ) (shift : ℚ) (waitBetweenSteps : ℤ)
    (phys : List (EnabledPhy (StateM σ))) (k : ℕ) (result : ℤ) (w : σ × Attempts) :
    ∃ attempts, LoopAttempts pipe k phys result w.2
      ((setPllClockPhys pllClock pipe shift waitBetweenSteps (notedFrom k phys) result).run w)
      attempts := by
  induction phys generalizing k result w with
  | nil =>
      exact ⟨[], LoopAttempts.nil pipe k result w⟩
  | cons p phys ih =>
      rw [notedFrom_cons, setPllClockPhys, p.noted_serves]
      by_cases hserves : p.serves pipe = true
      · rw [if_pos hserves, run_bind_state]
        obtain ⟨attempts, h⟩ := ih (k + 1)
          (if (((p.noted k).setPllClock pllClock shift waitBetweenSteps).run w).1 ≠ 0
            then (((p.noted k).setPllClock pllClock shift waitBetweenSteps).run w).1 else result)
          (((p.noted k).setPllClock pllClock shift waitBetweenSteps).run w).2
        have hnoted : (((p.noted k).setPllClock pllClock shift waitBetweenSteps).run w).2.2 =
          w.2 ++ [(k, ((p.setPllClock pllClock shift waitBetweenSteps).run w.1).1)] := rfl
        have hret : (((p.noted k).setPllClock pllClock shift waitBetweenSteps).run w).1 =
          ((p.setPllClock pllClock shift waitBetweenSteps).run w.1).1 := rfl
        rw [hnoted] at h
        refine ⟨_, h.cons hserves ?_⟩
        rw [hret]
        split
        · next hne => exact ⟨fun h0 => absurd h0 hne, fun h0 => absurd h0.2 hne⟩
        · next heq => exact ⟨fun h0 => ⟨h0, not_not.1 heq⟩, fun h0 => h0.1⟩
      · rw [if_neg hserves]
        obtain ⟨attempts, h⟩ := ih (k + 1) result w
        exact ⟨attempts, h.skip hserves⟩

/-! ## The two calls -/

/-- The PHYs of the pipe are attempted once each and in order, and 0 means that all went well. -/
structure Reported (pipe : ℤ) (phys : List (EnabledPhy (StateM σ))) (ret : ℤ)
    (attempts : Attempts) : Prop where
  order : attempts.map Prod.fst = servingFrom pipe 0 phys
  status : ret = 0 ↔ attempts ≠ [] ∧ ∀ a ∈ attempts, a.2 = 0

def notedLibrary (phys : List (EnabledPhy (StateM σ))) : Library (StateM (σ × Attempts)) :=
  ⟨true, some (notedFrom 0 phys)⟩

/-- Both calls report what they did to the PHYs of the pipe, on whatever state they find. -/
structure CallsReported (phys : List (EnabledPhy (StateM σ))) (r : SyncRequest) (pllClock shift : ℚ)
    (waitBetweenSteps : ℤ) (s : σ) : Prop where
  synchronize : Reported r.pipe phys ((synchronizeVsync (notedLibrary phys) r).run (s, [])).1
    ((synchronizeVsync (notedLibrary phys) r).run (s, [])).2.2
  setPll : Reported r.pipe phys
    ((libSetPllClock (notedLibrary phys) pllClock r.pipe shift waitBetweenSteps).run (s, [])).1
    ((libSetPllClock (notedLibrary phys) pllClock r.pipe shift waitBetweenSteps).run (s, [])).2.2

theorem synchronizeVsync_reported {r : SyncRequest} (hr : r.Accepted)
    (phys : List (EnabledPhy (StateM σ))) (s : σ) :
    Reported r.pipe phys ((synchronizeVsync (notedLibrary phys) r).run (s, [])).1
      ((synchronizeVsync (notedLibrary phys) r).run (s, [])).2.2 := by
  obtain ⟨attempts, h⟩ := synchronizePhys_attempts r phys 0 0 (s, [])
  have hattempts := h.noted
  rw [List.nil_append] at hattempts
  have hrun : (synchronizeVsync (notedLibrary phys) r).run (s, []) =
      (if phys.any (·.serves r.pipe) then
          ((synchronizePhys r (notedFrom 0 phys) 0).run (s, [])).1 else 1,
        ((synchronizePhys r (notedFrom 0 phys) 0).run (s, [])).2) := by
    simp only [synchronizeVsync, notedLibrary, Bool.not_true, Bool.false_eq_true, if_false, hr,
      not_true_eq_false]
    rw [run_bind_state, any_serves_notedFrom]
    split <;> rfl
  rw [hrun]
  refine ⟨by rw [hattempts, h.order], ?_⟩
  have hnil : attempts = [] ↔ phys.any (·.serves r.pipe) = false := by
    rw [← servingFrom_eq_nil_iff r.pipe 0, ← h.order, List.map_eq_nil_iff]
  cases hany : phys.any (·.serves r.pipe) with
  | true =>
      have hne : attempts ≠ [] := fun h0 => by simp [hnil.1 h0] at hany
      simp only [if_true, hattempts, h.status, true_and, ne_eq, hne, not_false_eq_true]
  | false =>
      simp [hattempts, hnil.2 hany]

/-- `set_pll_clock` reports as it should exactly if it has a PHY to report on. -/
theorem libSetPllClock_reported_iff (phys : List (EnabledPhy (StateM σ))) (pllClock : ℚ) (pipe : ℤ)
    (shift : ℚ) (waitBetweenSteps : ℤ) (s : σ) :
    Reported pipe phys
        ((libSetPllClock (notedLibrary phys) pllClock pipe shift waitBetweenSteps).run (s, [])).1
        ((libSetPllClock (notedLibrary phys) pllClock pipe shift waitBetweenSteps).run (s, [])).2.2 ↔
      ∃ p ∈ phys, p.serves pipe = true := by
  obtain ⟨attempts, h⟩ := setPllClockPhys_attempts pllClock pipe shift waitBetweenSteps phys 0 0 (s, [])
  have hattempts := h.noted
  rw [List.nil_append] at hattempts
  have hrun : libSetPllClock (notedLibrary phys) pllClock pipe shift waitBetweenSteps =
    setPllClockPhys pllClock pipe shift waitBetweenSteps (notedFrom 0 phys) 0 := rfl
  have hnil : attempts = [] ↔ ¬ ∃ p ∈ phys, p.serves pipe = true := by
    rw [← List.any_eq_true, Bool.not_eq_true, ← servingFrom_eq_nil_iff pipe 0, ← h.order,
      List.map_eq_nil_iff]
  rw [hrun]
  constructor
  · intro hreported
    by_contra hnone
    have hempty := hnil.2 hnone
    have hzero := h.status.2 ⟨rfl, by simp [hempty]⟩
    exact (hreported.status.1 hzero).1 (hattempts.trans hempty)
  · intro hany
    refine ⟨by rw [hattempts, h.order], ?_⟩
    have hne : attempts ≠ [] := fun h0 => hnil.1 h0 hany
    rw [hattempts, h.status]
    simp [hne]

/-- Both calls report on every list that has a PHY for the pipe, and on no other. -/
theorem calls_reported_iff {r : SyncRequest} (hr : r.Accepted)
    (phys : List (EnabledPhy (StateM σ))) (pllClock shift : ℚ) (waitBetweenSteps : ℤ) (s : σ) :
    CallsReported phys r pllClock shift waitBetweenSteps s ↔ ∃ p ∈ phys, p.serves r.pipe = true := by
  rw [← libSetPllClock_reported_iff phys pllClock r.pipe shift waitBetweenSteps s]
  constructor
  · intro h
    exact h.setPll
  · intro h
    exact ⟨synchronizeVsync_reported hr phys s, h⟩

def idlePhy : EnabledPhy (StateM Unit) :=
  ⟨0, fun _ => pure 0, pure (), fun _ _ _ => pure 0, pure 0⟩

def failingPhy : EnabledPhy (StateM Unit) :=
  ⟨1, fun _ => pure 1, pure (), fun _ _ _ => pure 1, pure 0⟩

def correctPipe (pipe : ℤ) : SyncRequest := ⟨1, pipe, 1 / 100, 0, 0, 0, true, true⟩

/-- Of three PHYs on all pipes the second fails; each is attempted and the failure reported. -/
theorem calls_reported_iff_failing :
    (correctPipe vsyncAllPipes).Accepted ∧
      CallsReported [idlePhy, failingPhy, idlePhy] (correctPipe vsyncAllPipes) 5000 (1 / 100) 0 () ∧
      (synchronizeVsync (notedLibrary [idlePhy, failingPhy, idlePhy])
        (correctPipe vsyncAllPipes)).run ((), []) = (1, (), [(0, 0), (1, 1), (2, 0)]) := by
  have hr : (correctPipe vsyncAllPipes).Accepted := by decide +kernel
  have hreported := (calls_reported_iff hr [idlePhy, failingPhy, idlePhy] 5000 (1 / 100) 0 ()).mpr
    ⟨idlePhy, List.mem_cons_self, rfl⟩
  exact ⟨hr, hreported, by rw [synchronizeVsync, if_neg (by decide), if_neg (not_not.mpr hr)]; rfl⟩

/-- A clock set on a pipe without a PHY is reported as a success. -/
theorem unmatched_pipe_succeeds : ¬ CallsReported [idlePhy] (correctPipe 3) 5000 (1 / 100) 0 () := by
  intro h
  exact (h.setPll.status.1 rfl).1 rfl

end Genlock.Vsyncalter
