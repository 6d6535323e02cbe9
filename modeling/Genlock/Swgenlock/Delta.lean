import Genlock.Lib.CArith
import Genlock.Lib.ClosestPair
import Mathlib.Data.BitVec
import Mathlib.Data.List.GetD

/-! # The delta between two pipes

`findMinimumDelta`, `findAvg` and `normalizeDelta` are the three steps by which
`do_pipe_sync` turns two arrays of vblank timestamps into the signed offset it
acts on. Timestamps are unsigned 64-bit microseconds; `long` values are
integers.
-/

namespace Genlock.Swgenlock

open CArith ClosestPair

abbrev U64 := BitVec 64

/-! ## The steps of the source -/

def longMax : ℤ := 2 ^ 63 - 1

/-- `delta` and `*matching_timestamp` while the nested search runs. -/
structure DeltaMatch where
  delta : ℤ
  matchingTimestamp : U64
deriving DecidableEq, Repr

/-- `(int64_t)((uint64_t)secondary_vsync[i] - (uint64_t)primary_vsync[j])` with
the primary timestamp it came from. -/
def candidate (primaryVsync secondaryVsync : List U64) (q : ℕ × ℕ) : DeltaMatch :=
  let p := primaryVsync.getD q.2 0
  ⟨(secondaryVsync.getD q.1 0 - p).toInt, p⟩

/-- Both loops run downward and a pair replaces the running delta only when
`labs(diff) < labs(delta)`. -/
def findMinimumDelta (primaryVsync secondaryVsync : List U64) (matchingTimestamp : U64) :
    DeltaMatch :=
  (List.range secondaryVsync.length).reverse.foldl (fun best i =>
    (List.range primaryVsync.length).reverse.foldl (fun best j =>
      let diff := candidate primaryVsync secondaryVsync (i, j)
      if |diff.delta| < |best.delta| then diff else best) best)
    ⟨longMax, matchingTimestamp⟩

/-- The accumulator is an `int`: each unsigned 64-bit difference is added to
its sign extension and truncated back to 32 bits. -/
def findAvg (va : List U64) : ℤ :=
  let sz : ℤ := va.length
  let avg := (List.range (sz - 1).toNat).foldl
    (fun avg i => (avg.signExtend 64 + (va.getD (i + 1) 0 - va.getD i 0)).setWidth 32)
    (0 : BitVec 32)
  avg.toInt.tdiv (if sz = 1 then sz else sz - 1)

/-- `none` is the division by zero of `delta %= avg_secondary`. -/
def normalizeDelta (delta avgSecondary : ℤ) : Option ℤ := do
  let delta ←
    if delta > avgSecondary ∨ delta < avgSecondary then
      if avgSecondary = 0 then none else some (delta.tmod avgSecondary)
    else some delta
  if delta > avgSecondary.tdiv 2 then some (delta - avgSecondary) else some delta

inductive DeltaError where
  | clocksNotSynchronized
  | divisionByZero
deriving DecidableEq, Repr

def clockSyncToleranceUs : ℤ := 35 * 1000

/-- The delta computation of `do_pipe_sync`, from the two captured arrays to
the value it compares with the threshold. -/
def pipeDelta (primaryVsync secondaryVsync : List U64) : Except DeltaError ℤ :=
  let delta := (findMinimumDelta primaryVsync secondaryVsync 0).delta
  if |delta| > clockSyncToleranceUs then .error .clocksNotSynchronized
  else match normalizeDelta delta (findAvg secondaryVsync) with
    | none => .error .divisionByZero
    | some delta => .ok delta

/-! ## Closest pairs -/

def signedDiff (primaryVsync secondaryVsync : List U64) (q : ℕ × ℕ) : ℤ :=
  (secondaryVsync.getD q.1 0).toNat - (primaryVsync.getD q.2 0).toNat

structure ClosestPair (primaryVsync secondaryVsync : List U64) (q : ℕ × ℕ) : Prop where
  secondary_lt : q.1 < secondaryVsync.length
  primary_lt : q.2 < primaryVsync.length
  minimal : ∀ p : ℕ × ℕ, p.1 < secondaryVsync.length → p.2 < primaryVsync.length →
    |signedDiff primaryVsync secondaryVsync q| ≤ |signedDiff primaryVsync secondaryVsync p|

structure LatestClosestPair (primaryVsync secondaryVsync : List U64) (q : ℕ × ℕ) : Prop
    extends ClosestPair primaryVsync secondaryVsync q where
  latest : ∀ p, ClosestPair primaryVsync secondaryVsync p → p.1 < q.1 ∨ p.1 = q.1 ∧ p.2 ≤ q.2

theorem LatestClosestPair.unique {primaryVsync secondaryVsync : List U64} {q r : ℕ × ℕ}
    (hq : LatestClosestPair primaryVsync secondaryVsync q)
    (hr : LatestClosestPair primaryVsync secondaryVsync r) : q = r := by
  have h1 := hq.latest r hr.toClosestPair
  have h2 := hr.latest q hq.toClosestPair
  exact Prod.ext (by omega) (by omega)

def SmallTimestamps (va : List U64) : Prop := ∀ t ∈ va, t.toNat < 2 ^ 63

theorem SmallTimestamps.getD_lt {va : List U64} (h : SmallTimestamps va) (i : ℕ) :
    (va.getD i 0).toNat < 2 ^ 63 := by
  by_cases hi : i < va.length
  · rw [List.getD_eq_getElem _ _ hi]
    exact h _ (List.getElem_mem hi)
  · rw [List.getD_eq_default _ _ (not_lt.mp hi)]
    simp

section Search

variable {primaryVsync secondaryVsync : List U64}

/-- Below `2^63` the wrapped subtraction is the signed difference. -/
theorem candidate_delta (hp : SmallTimestamps primaryVsync) (hs : SmallTimestamps secondaryVsync)
    (q : ℕ × ℕ) : (candidate primaryVsync secondaryVsync q).delta =
      signedDiff primaryVsync secondaryVsync q := by
  have h1 := hp.getD_lt q.2
  have h2 := hs.getD_lt q.1
  simp only [candidate, signedDiff]
  rw [BitVec.toInt_sub, BitVec.toInt_eq_toNat_of_lt (by omega),
    BitVec.toInt_eq_toNat_of_lt (by omega)]
  apply Int.bmod_eq_of_le <;> omega

/-- The nested loops are one scan over the pairs, latest first. -/
theorem findMinimumDelta_eq_scan (matching : U64) :
    findMinimumDelta primaryVsync secondaryVsync matching =
      ((downPairs secondaryVsync.length primaryVsync.length).map
        (candidate primaryVsync secondaryVsync)).foldl
        (keepBetter (fun m : DeltaMatch => |m.delta|)) ⟨longMax, matching⟩ := by
  rw [List.foldl_map]
  exact foldl_nested (fun best q => keepBetter (fun m : DeltaMatch => |m.delta|) best
    (candidate primaryVsync secondaryVsync q)) _ _ _

/-- When some pair is closer than `LONG_MAX` the search returns the latest
closest pair: its signed difference and its primary timestamp. -/
theorem findMinimumDelta_of_close (hp : SmallTimestamps primaryVsync)
    (hs : SmallTimestamps secondaryVsync) {p : ℕ × ℕ} (hp1 : p.1 < secondaryVsync.length)
    (hp2 : p.2 < primaryVsync.length)
    (hclose : |signedDiff primaryVsync secondaryVsync p| < longMax) (matching : U64) :
    ∃ q, LatestClosestPair primaryVsync secondaryVsync q ∧
      findMinimumDelta primaryVsync secondaryVsync matching =
        ⟨signedDiff primaryVsync secondaryVsync q, primaryVsync.getD q.2 0⟩ := by
  have hmem : candidate primaryVsync secondaryVsync p ∈
      (downPairs secondaryVsync.length primaryVsync.length).map
        (candidate primaryVsync secondaryVsync) :=
    List.mem_map.mpr ⟨p, mem_downPairs.mpr ⟨hp1, hp2⟩, rfl⟩
  have hbeat : |(candidate primaryVsync secondaryVsync p).delta| <
      |(⟨longMax, matching⟩ : DeltaMatch).delta| := by
    rw [candidate_delta hp hs]
    exact hclose.trans_le (le_abs_self _)
  obtain ⟨before, after, hl, hb, ha⟩ :=
    foldl_keepBetter_of_beaten (fun m : DeltaMatch => |m.delta|) hmem hbeat
  rw [← findMinimumDelta_eq_scan] at hl hb ha
  obtain ⟨before', rest, hpairs, hbefore, hrest⟩ := List.map_eq_append_iff.mp hl
  obtain ⟨q, after', rfl, hq, hafter⟩ := List.map_eq_cons_iff.mp hrest
  have hmin : EarliestMin (fun r => |signedDiff primaryVsync secondaryVsync r|)
      (downPairs secondaryVsync.length primaryVsync.length) q := by
    refine ⟨before', after', hpairs, ?_, ?_⟩
    · intro r hr
      have := hb _ (hbefore ▸ List.mem_map.mpr ⟨r, hr, rfl⟩)
      simpa only [← hq, candidate_delta hp hs] using this
    · intro r hr
      have := ha _ (hafter ▸ List.mem_map.mpr ⟨r, hr, rfl⟩)
      simpa only [← hq, candidate_delta hp hs] using this
  have hqmem := mem_downPairs.mp hmin.mem
  refine ⟨q, ⟨⟨hqmem.1, hqmem.2, ?_⟩, ?_⟩, ?_⟩
  · intro r hr1 hr2
    exact hmin.le r (mem_downPairs.mpr ⟨hr1, hr2⟩)
  · intro r hr
    refine hmin.latest (mem_downPairs.mpr ⟨hr.secondary_lt, hr.primary_lt⟩) ?_
    exact le_antisymm (hr.minimal q hqmem.1 hqmem.2)
      (hmin.le r (mem_downPairs.mpr ⟨hr.secondary_lt, hr.primary_lt⟩))
  · rw [← hq, ← candidate_delta hp hs]
    rfl

/-- Without a pair closer than `LONG_MAX` the loops leave everything as it was. -/
theorem findMinimumDelta_of_far (hp : SmallTimestamps primaryVsync)
    (hs : SmallTimestamps secondaryVsync)
    (hfar : ¬∃ p : ℕ × ℕ, p.1 < secondaryVsync.length ∧ p.2 < primaryVsync.length ∧
      |signedDiff primaryVsync secondaryVsync p| < longMax) (matching : U64) :
    findMinimumDelta primaryVsync secondaryVsync matching = ⟨longMax, matching⟩ := by
  have hscan := foldl_keepBetter (fun m : DeltaMatch => |m.delta|)
    ((downPairs secondaryVsync.length primaryVsync.length).map
      (candidate primaryVsync secondaryVsync)) ⟨longMax, matching⟩
  rw [← findMinimumDelta_eq_scan] at hscan
  cases hscan with
  | inl hstart => exact hstart.1
  | inr hbest =>
      obtain ⟨p, hpm, hpe⟩ := List.mem_map.mp hbest.2.mem
      rw [mem_downPairs] at hpm
      have hclose : |signedDiff primaryVsync secondaryVsync p| < longMax := by
        rw [← candidate_delta hp hs, hpe]
        exact hbest.1
      exact absurd ⟨p, hpm.1, hpm.2, hclose⟩ hfar

/-- The starting value `LONG_MAX` never passes the tolerance, so a delta that
does comes from the latest closest pair. -/
theorem findMinimumDelta_of_within (hp : SmallTimestamps primaryVsync)
    (hs : SmallTimestamps secondaryVsync)
    (hpass : |(findMinimumDelta primaryVsync secondaryVsync 0).delta| ≤ clockSyncToleranceUs) :
    ∃ q, LatestClosestPair primaryVsync secondaryVsync q ∧
      (findMinimumDelta primaryVsync secondaryVsync 0).delta =
        signedDiff primaryVsync secondaryVsync q := by
  have hne : ¬ |longMax| ≤ clockSyncToleranceUs := by decide
  by_cases hclose : ∃ p : ℕ × ℕ, p.1 < secondaryVsync.length ∧ p.2 < primaryVsync.length ∧
      |signedDiff primaryVsync secondaryVsync p| < longMax
  · obtain ⟨p, hp1, hp2, hlt⟩ := hclose
    obtain ⟨q, hq, hd⟩ := findMinimumDelta_of_close hp hs hp1 hp2 hlt 0
    exact ⟨q, hq, by rw [hd]⟩
  · rw [findMinimumDelta_of_far hp hs hclose] at hpass
    exact absurd hpass hne

end Search

/-! ## What the search returns -/

/-- The search returns the signed difference of the latest closest pair and stores its
primary timestamp, whatever `*matching_timestamp` held before. -/
def PicksLatest (primaryVsync secondaryVsync : List U64) : Prop :=
  ∀ matching, ∃ q, LatestClosestPair primaryVsync secondaryVsync q ∧
    findMinimumDelta primaryVsync secondaryVsync matching =
      ⟨signedDiff primaryVsync secondaryVsync q, primaryVsync.getD q.2 0⟩

/-- One array holds nothing but 0, the other nothing but the largest timestamp. -/
def OppositeEnds (va vb : List U64) : Prop :=
  (∀ t ∈ va, t.toNat = 0) ∧ ∀ t ∈ vb, t.toNat = 2 ^ 63 - 1

section Returned

variable {primaryVsync secondaryVsync : List U64}

/-- The search picks the latest closest pair if any pair at all beats its start. -/
theorem picksLatest_iff (hp : SmallTimestamps primaryVsync) (hs : SmallTimestamps secondaryVsync) :
    PicksLatest primaryVsync secondaryVsync ↔
      ∃ p : ℕ × ℕ, p.1 < secondaryVsync.length ∧ p.2 < primaryVsync.length ∧
        |signedDiff primaryVsync secondaryVsync p| < longMax := by
  constructor
  · intro h
    by_contra hfar
    -- one pair cannot account for two different values left in `*matching_timestamp`
    obtain ⟨q, hq, hzero⟩ := h 0
    obtain ⟨r, hr, hone⟩ := h 1
    obtain rfl := hq.unique hr
    rw [findMinimumDelta_of_far hp hs hfar, DeltaMatch.mk.injEq] at hzero hone
    exact absurd (hzero.2.trans hone.2.symm) (by decide)
  · intro h matching
    obtain ⟨p, hp1, hp2, hclose⟩ := h
    exact findMinimumDelta_of_close hp hs hp1 hp2 hclose matching

theorem signedDiff_getElem {p : ℕ × ℕ} (hs : p.1 < secondaryVsync.length)
    (hp : p.2 < primaryVsync.length) : signedDiff primaryVsync secondaryVsync p =
      secondaryVsync[p.1].toNat - primaryVsync[p.2].toNat := by
  rw [signedDiff, List.getD_eq_getElem _ _ hs, List.getD_eq_getElem _ _ hp]

/-- A difference of `LONG_MAX` takes both ends of the range. -/
theorem longMax_le_iff {s t : ℕ} (hs : s < 2 ^ 63) (ht : t < 2 ^ 63) :
    longMax ≤ |(s : ℤ) - t| ↔ s = 0 ∧ t = 2 ^ 63 - 1 ∨ t = 0 ∧ s = 2 ^ 63 - 1 := by
  rw [le_abs, longMax]
  omega

/-- All pairs are far apart exactly if the arrays sit at opposite ends. -/
theorem forall_far_iff (hp : SmallTimestamps primaryVsync) (hs : SmallTimestamps secondaryVsync)
    (hpne : primaryVsync ≠ []) (hsne : secondaryVsync ≠ []) :
    (∀ t ∈ secondaryVsync, ∀ u ∈ primaryVsync, longMax ≤ |(t.toNat : ℤ) - u.toNat|) ↔
      OppositeEnds primaryVsync secondaryVsync ∨ OppositeEnds secondaryVsync primaryVsync := by
  constructor
  · intro hfar
    obtain ⟨t₀, ht₀⟩ := List.exists_mem_of_ne_nil _ hsne
    obtain ⟨u₀, hu₀⟩ := List.exists_mem_of_ne_nil _ hpne
    have hends (t : U64) (ht : t ∈ secondaryVsync) (u : U64) (hu : u ∈ primaryVsync) :=
      (longMax_le_iff (hs t ht) (hp u hu)).mp (hfar t ht u hu)
    cases hends t₀ ht₀ u₀ hu₀ with
    | inl hlow =>
        right
        constructor
        · intro t ht
          have := hends t ht u₀ hu₀
          omega
        · intro u hu
          have := hends t₀ ht₀ u hu
          omega
    | inr hhigh =>
        left
        constructor
        · intro u hu
          have := hends t₀ ht₀ u hu
          omega
        · intro t ht
          have := hends t ht u₀ hu₀
          omega
  · intro hends t ht u hu
    rw [longMax_le_iff (hs t ht) (hp u hu)]
    cases hends with
    | inl h => exact Or.inr ⟨h.1 u hu, h.2 t ht⟩
    | inr h => exact Or.inl ⟨h.1 t ht, h.2 u hu⟩

end Returned

/-- The search finds the latest closest pair of two arrays unless one holds nothing but
0 and the other nothing but `LONG_MAX`. -/
theorem minimum_delta_iff (primaryVsync secondaryVsync : List U64)
    (hp : SmallTimestamps primaryVsync) (hs : SmallTimestamps secondaryVsync)
    (hpne : primaryVsync ≠ []) (hsne : secondaryVsync ≠ []) :
    PicksLatest primaryVsync secondaryVsync ↔
      ¬OppositeEnds primaryVsync secondaryVsync ∧ ¬OppositeEnds secondaryVsync primaryVsync := by
  rw [picksLatest_iff hp hs, ← not_or, ← forall_far_iff hp hs hpne hsne]
  constructor
  · intro h hfar
    obtain ⟨p, hp1, hp2, hclose⟩ := h
    have hle := hfar _ (List.getElem_mem hp1) _ (List.getElem_mem hp2)
    rw [← signedDiff_getElem hp1 hp2] at hle
    exact absurd hclose (not_lt.mpr hle)
  · intro hfar
    by_contra hnone
    refine hfar fun t ht u hu => not_lt.mp fun hlt => hnone ?_
    obtain ⟨i, hi, rfl⟩ := List.mem_iff_getElem.mp ht
    obtain ⟨j, hj, rfl⟩ := List.mem_iff_getElem.mp hu
    exact ⟨(i, j), hi, hj, by rwa [signedDiff_getElem hi hj]⟩

theorem minimum_delta_iff_late_secondary :
    PicksLatest [0, 16666] [3000, 19666] ↔
      ¬OppositeEnds [0, 16666] [3000, 19666] ∧ ¬OppositeEnds [3000, 19666] [0, 16666] :=
  minimum_delta_iff [0, 16666] [3000, 19666] (by simp [SmallTimestamps])
    (by simp [SmallTimestamps]) (by simp) (by simp)

/-- A primary at the last timestamp and a secondary at the first: the difference is
`-LONG_MAX`, the search returns `LONG_MAX` and stores nothing. -/
theorem opposite_ends_unmatched :
    let primary : List U64 := [0x7FFFFFFFFFFFFFFF]
    let secondary : List U64 := [0]
    SmallTimestamps primary ∧ SmallTimestamps secondary ∧
      LatestClosestPair primary secondary (0, 0) ∧ signedDiff primary secondary (0, 0) = -longMax ∧
      (∀ matching, findMinimumDelta primary secondary matching = ⟨longMax, matching⟩) ∧
      ¬PicksLatest primary secondary := by
  intro primary secondary
  have hp : SmallTimestamps primary := by simp [primary, SmallTimestamps]
  have hs : SmallTimestamps secondary := by simp [secondary, SmallTimestamps]
  have hdiff : signedDiff primary secondary (0, 0) = -longMax := by decide
  have honly (p : ℕ × ℕ) (hp1 : p.1 < secondary.length) (hp2 : p.2 < primary.length) :
      p = (0, 0) :=
    Prod.ext (Nat.lt_one_iff.mp hp1) (Nat.lt_one_iff.mp hp2)
  have hlatest : LatestClosestPair primary secondary (0, 0) := by
    refine ⟨⟨by decide, by decide, ?_⟩, ?_⟩
    · intro p hp1 hp2
      rw [honly p hp1 hp2]
    · intro p hclosest
      rw [honly p hclosest.secondary_lt hclosest.primary_lt]
      exact Or.inr ⟨rfl, le_rfl⟩
  have hstart (matching : U64) :
      findMinimumDelta primary secondary matching = ⟨longMax, matching⟩ := by
    apply findMinimumDelta_of_far hp hs
    intro hclose
    obtain ⟨p, hp1, hp2, hlt⟩ := hclose
    rw [honly p hp1 hp2, hdiff] at hlt
    exact absurd hlt (by decide)
  refine ⟨hp, hs, hlatest, hdiff, hstart, ?_⟩
  intro h
  obtain ⟨q, hq, hd⟩ := h 0
  obtain rfl := hq.unique hlatest
  rw [hstart, hdiff, DeltaMatch.mk.injEq] at hd
  exact absurd hd.1 (by decide)

/-! ## Normalization -/

/-- With a positive period the early branch is taken or not depending on
equality only, so the result is the truncated remainder, moved down by one
period when it lies above half of it. -/
theorem normalizeDelta_of_pos {avg : ℤ} (h : 0 < avg) (delta : ℤ) :
    normalizeDelta delta avg =
      some (if delta.tmod avg > avg / 2 then delta.tmod avg - avg else delta.tmod avg) := by
  have hne : avg ≠ 0 := h.ne'
  have hdiv : avg.tdiv 2 = avg / 2 := Int.tdiv_eq_ediv_of_nonneg h.le
  unfold normalizeDelta
  rw [hdiv]
  rcases lt_trichotomy delta avg with hd | rfl | hd
  · rw [if_pos (Or.inr hd), if_neg hne]
    simp only [Option.bind_eq_bind, Option.bind_some]
    split <;> rfl
  · rw [if_neg (by omega)]
    have hgt : delta > delta / 2 := by omega
    have hnot : ¬ (0 : ℤ) > delta / 2 := by omega
    simp [hgt, hnot]
  · rw [if_pos (Or.inl hd), if_neg hne]
    simp only [Option.bind_eq_bind, Option.bind_some]
    split <;> rfl

/-- Normalization keeps the delta modulo the period. -/
theorem normalizeDelta_dvd {avg delta d : ℤ} (h : 0 < avg)
    (hd : normalizeDelta delta avg = some d) : avg ∣ d - delta := by
  rw [normalizeDelta_of_pos h, Option.some.injEq] at hd
  have hr := dvd_tmod_sub delta avg
  split at hd
  · rw [← hd, sub_right_comm]
    exact dvd_sub hr (dvd_refl _)
  · rwa [← hd]

/-- The result lies within half a period, unless the delta is negative with a
remainder beyond it: that side is never wrapped. -/
theorem normalizeDelta_abs_le_iff {avg delta d : ℤ} (h : 0 < avg)
    (hd : normalizeDelta delta avg = some d) :
    |d| ≤ (avg + 1) / 2 ↔ 0 ≤ delta ∨ |delta| % avg ≤ (avg + 1) / 2 := by
  rw [normalizeDelta_of_pos h, Option.some.injEq] at hd
  rcases le_or_gt 0 delta with hs | hs
  · have h0 := tmod_nonneg_of_nonneg avg hs
    have h1 := tmod_lt_of_pos delta h
    refine ⟨fun _ => Or.inl hs, fun _ => ?_⟩
    rw [abs_le]
    split at hd <;> omega
  · have habs : 0 ≤ |delta| := abs_nonneg _
    have hneg := tmod_of_nonpos avg hs.le
    rw [Int.tmod_eq_emod_of_nonneg habs] at hneg
    have h0 := Int.emod_nonneg |delta| h.ne'
    have h1 := Int.emod_lt_of_pos |delta| h
    have hno : ¬ delta.tmod avg > avg / 2 := by omega
    rw [if_neg hno] at hd
    rw [← hd, hneg, abs_neg, abs_of_nonneg h0]
    constructor
    · exact Or.inr
    · rintro (h2 | h2)
      · omega
      · exact h2

/-! ## The nearest primary vblank -/

/-- The delta is the signed difference of a closest pair modulo the secondary
period, and at most half a period (rounded up) away from it. -/
def MovesToNearest (primaryVsync secondaryVsync : List U64) : Prop :=
  ∃ d, pipeDelta primaryVsync secondaryVsync = .ok d ∧
    (∃ q, ClosestPair primaryVsync secondaryVsync q ∧
      findAvg secondaryVsync ∣ d - signedDiff primaryVsync secondaryVsync q) ∧
    |d| ≤ (findAvg secondaryVsync + 1) / 2

/-- The secondary is moved to the nearest primary vblank exactly when the latest
closest pair does not show it early by more than half a period beyond a whole
number of periods. -/
theorem movesToNearest_iff (primaryVsync secondaryVsync : List U64)
    (hps : SmallTimestamps primaryVsync) (hss : SmallTimestamps secondaryVsync)
    (hpass : |(findMinimumDelta primaryVsync secondaryVsync 0).delta| ≤ clockSyncToleranceUs)
    (havg : 0 < findAvg secondaryVsync) :
    MovesToNearest primaryVsync secondaryVsync ↔
      ∃ q, LatestClosestPair primaryVsync secondaryVsync q ∧
        (0 ≤ signedDiff primaryVsync secondaryVsync q ∨
          |signedDiff primaryVsync secondaryVsync q| % findAvg secondaryVsync ≤
            (findAvg secondaryVsync + 1) / 2) := by
  obtain ⟨q, hq, hdelta⟩ := findMinimumDelta_of_within hps hss hpass
  obtain ⟨d, hd⟩ : ∃ d, normalizeDelta (signedDiff primaryVsync secondaryVsync q)
      (findAvg secondaryVsync) = some d := ⟨_, normalizeDelta_of_pos havg _⟩
  have hpipe : pipeDelta primaryVsync secondaryVsync = .ok d := by
    unfold pipeDelta
    rw [if_neg (not_lt.mpr hpass), hdelta]
    simp only [hd]
  have hbound := normalizeDelta_abs_le_iff havg hd
  constructor
  · rintro ⟨d', hd', -, hle⟩
    rw [hpipe, Except.ok.injEq] at hd'
    subst hd'
    exact ⟨q, hq, hbound.mp hle⟩
  · rintro ⟨r, hr, hcond⟩
    obtain rfl := hr.unique hq
    exact ⟨d, hpipe, ⟨r, hr.toClosestPair, normalizeDelta_dvd havg hd⟩, hbound.mpr hcond⟩

theorem movesToNearest_iff_late_secondary :
    MovesToNearest [0, 16666] [3000, 19666] ↔
      ∃ q, LatestClosestPair [0, 16666] [3000, 19666] q ∧
        (0 ≤ signedDiff [0, 16666] [3000, 19666] q ∨
          |signedDiff [0, 16666] [3000, 19666] q| % findAvg [3000, 19666] ≤
            (findAvg [3000, 19666] + 1) / 2) :=
  movesToNearest_iff [0, 16666] [3000, 19666] (by simp [SmallTimestamps])
    (by simp [SmallTimestamps]) (by decide) (by decide)

/-- The primary's vblanks arrive after the secondary's window: the closest pair
shows the secondary 10 ms early in a 16.666 ms period, and it is moved by these
10 ms although the previous primary vblank is only 6.666 ms away. -/
theorem early_secondary_not_nearest :
    let primary : List U64 := [26666, 43332, 59998, 76664, 93330, 109996, 126662]
    let secondary : List U64 := [0, 16666]
    SmallTimestamps primary ∧ SmallTimestamps secondary ∧
      |(findMinimumDelta primary secondary 0).delta| ≤ clockSyncToleranceUs ∧
      0 < findAvg secondary ∧ pipeDelta primary secondary = .ok (-10000) ∧
      ¬ MovesToNearest primary secondary := by
  intro primary secondary
  have hd : pipeDelta primary secondary = .ok (-10000) := by decide +kernel
  refine ⟨by simp [primary, SmallTimestamps], by simp [secondary, SmallTimestamps],
    by decide +kernel, by decide +kernel, hd, ?_⟩
  rintro ⟨d, hd', -, hle⟩
  rw [hd, Except.ok.injEq] at hd'
  subst hd'
  exact absurd hle (by decide)

/-! ## Whether the modulus is zero -/

def span (va : List U64) : ℤ := ((va.getD (va.length - 1) 0 - va.getD 0 0).setWidth 32).toInt

/-- The divisor of `find_avg`. -/
def intervals (va : List U64) : ℤ := if (va.length : ℤ) = 1 then 1 else va.length - 1

theorem setWidth_signExtend_add (x : BitVec 32) (y : U64) :
    (x.signExtend 64 + y).setWidth 32 = x + y.setWidth 32 := by
  have hback : (x.signExtend 64).setWidth 32 = x := by
    apply BitVec.eq_of_getLsbD_eq
    intro i hi
    rw [BitVec.getLsbD_setWidth, BitVec.getLsbD_signExtend]
    simp [hi]
    omega
  rw [BitVec.setWidth_add _ _ (by decide), hback]

theorem setWidth_sub (x y : U64) : (x - y).setWidth 32 = x.setWidth 32 - y.setWidth 32 := by
  rw [BitVec.sub_eq_add_neg, BitVec.setWidth_add _ _ (by decide),
    BitVec.setWidth_neg_of_le (by decide), ← BitVec.sub_eq_add_neg]

theorem foldl_differences (va : List U64) (n : ℕ) :
    (List.range n).foldl (fun avg i =>
        (avg.signExtend 64 + (va.getD (i + 1) 0 - va.getD i 0)).setWidth 32) (0 : BitVec 32) =
      (va.getD n 0 - va.getD 0 0).setWidth 32 := by
  simp only [setWidth_signExtend_add, setWidth_sub]
  exact foldl_sub (fun i => (va.getD i 0).setWidth 32) n

theorem findAvg_eq (va : List U64) : findAvg va = (span va).tdiv (intervals va) := by
  have hlen : ((va.length : ℤ) - 1).toNat = va.length - 1 := by omega
  unfold findAvg span intervals
  dsimp only
  rw [hlen, foldl_differences]
  by_cases h : (va.length : ℤ) = 1
  · rw [if_pos h, if_pos h, h]
  · rw [if_neg h, if_neg h]

theorem candidate_delta_eq_zero_iff {primaryVsync secondaryVsync : List U64} {q : ℕ × ℕ} :
    (candidate primaryVsync secondaryVsync q).delta = 0 ↔
      secondaryVsync.getD q.1 0 = primaryVsync.getD q.2 0 := by
  unfold candidate
  dsimp only
  rw [← BitVec.toInt_zero (w := 64), BitVec.toInt_inj, BitVec.sub_eq_iff_eq_add, BitVec.zero_add]

/-- The search ends with a delta of 0 exactly if the arrays share a timestamp. -/
theorem findMinimumDelta_eq_zero_iff (primaryVsync secondaryVsync : List U64) (matching : U64) :
    (findMinimumDelta primaryVsync secondaryVsync matching).delta = 0 ↔
      ∃ t ∈ secondaryVsync, t ∈ primaryVsync := by
  rw [findMinimumDelta_eq_scan]
  constructor
  · intro hzero
    have hscan := foldl_keepBetter (fun m : DeltaMatch => |m.delta|)
      ((downPairs secondaryVsync.length primaryVsync.length).map
        (candidate primaryVsync secondaryVsync)) ⟨longMax, matching⟩
    cases hscan with
    | inl hstart =>
        rw [hstart.1] at hzero
        exact absurd hzero (show longMax ≠ 0 by decide)
    | inr hbest =>
        obtain ⟨q, hq, hcand⟩ := List.mem_map.mp hbest.2.mem
        have hlt := mem_downPairs.mp hq
        rw [← hcand, candidate_delta_eq_zero_iff, List.getD_eq_getElem _ _ hlt.1,
          List.getD_eq_getElem _ _ hlt.2] at hzero
        refine ⟨_, List.getElem_mem hlt.1, ?_⟩
        rw [hzero]
        exact List.getElem_mem hlt.2
  · intro h
    obtain ⟨t, hs, hp⟩ := h
    obtain ⟨i, hi, hti⟩ := List.mem_iff_getElem.mp hs
    obtain ⟨j, hj, htj⟩ := List.mem_iff_getElem.mp hp
    have hcand : (candidate primaryVsync secondaryVsync (i, j)).delta = 0 := by
      rw [candidate_delta_eq_zero_iff, List.getD_eq_getElem _ _ hi, List.getD_eq_getElem _ _ hj,
        hti, htj]
    have hmem : candidate primaryVsync secondaryVsync (i, j) ∈
        (downPairs secondaryVsync.length primaryVsync.length).map
          (candidate primaryVsync secondaryVsync) :=
      List.mem_map.mpr ⟨(i, j), mem_downPairs.mpr ⟨hi, hj⟩, rfl⟩
    have hbeat : |(candidate primaryVsync secondaryVsync (i, j)).delta| <
        |(⟨longMax, matching⟩ : DeltaMatch).delta| := by
      rw [hcand]
      exact show |(0 : ℤ)| < |longMax| by decide
    have hle := (foldl_keepBetter_of_beaten (fun m : DeltaMatch => |m.delta|) hmem hbeat).le _ hmem
    rw [hcand, abs_zero] at hle
    exact abs_nonpos_iff.mp hle

end Genlock.Swgenlock
