import Genlock.Lib.CArith
import Genlock.Lib.Rounded
import Genlock.Swgenlock.Capture
import Mathlib.Data.BitVec
import Mathlib.Data.List.GetD

/-! # The average vblank interval

`get_vblank_interval` captures timestamps into an array on the stack and averages their
differences. The differences are unsigned, the sum of them is signed and wraps; the
conversion to `double` rounds and the divisions are exact.
-/

namespace Genlock.Vsyncalter

open Rounded Swgenlock
open Os (VsyncEnv VblInfo VblankEvent PollOutcome)

/-! ## The source -/

def written (writes : List (ℕ × Os.U64)) (array : ℕ → Os.U64) : ℕ → Os.U64 :=
  writes.foldl (fun array write => Function.update array write.1 write.2) array

/-- `stack` is what the array holds before `get_vsync` writes to it. -/
def getVblankInterval (double : Rounding 53) (deviceStr : Option String) (size : ℤ)
    (hardwareTs : Bool) (env : VsyncEnv) (stack : ℕ → Os.U64) : ℚ :=
  if size > vsyncMaxTimestamps then 0
  else if size < 2 then 0
  else
    let (ret, info) := getVsync deviceStr size hardwareTs env
    if ret = 0 then
      let timestamps := written info.writes stack
      let totalInterval : Os.U64 := (List.range (size - 1).toNat).foldl
        (fun total i => total + (timestamps (i + 1) - timestamps i)) 0
      double.round totalInterval.toInt / (size - 1) / 1000
    else 0

/-! ## What a call captures -/

def Captures (deviceStr : Option String) (hardwareTs : Bool) (env : VsyncEnv) (va : List Os.U64) : Prop :=
  (getVsync deviceStr va.length hardwareTs env).1 = 0 ∧
    (getVsync deviceStr va.length hardwareTs env).2.writes = (List.range va.length).zip va

theorem written_of_notMem {writes : List (ℕ × Os.U64)} {i : ℕ} (h : i ∉ writes.map Prod.fst)
    (array : ℕ → Os.U64) : written writes array i = array i := by
  induction writes generalizing array with
  | nil => rfl
  | cons write writes ih =>
      rw [List.map_cons, List.mem_cons, not_or] at h
      rw [written, List.foldl_cons]
      exact (ih h.2 _).trans (Function.update_of_ne h.1 _ _)

theorem written_of_mem {writes : List (ℕ × Os.U64)} (hnodup : (writes.map Prod.fst).Nodup) {i : ℕ}
    {t : Os.U64} (h : (i, t) ∈ writes) (array : ℕ → Os.U64) : written writes array i = t := by
  induction writes generalizing array with
  | nil => cases h
  | cons write writes ih =>
      rw [List.map_cons, List.nodup_cons] at hnodup
      rw [written, List.foldl_cons]
      cases List.mem_cons.mp h with
      | inl heq =>
          subst heq
          exact (written_of_notMem hnodup.1 _).trans (Function.update_self _ _ _)
      | inr hmem => exact ih hnodup.2 hmem _

theorem written_zip {va : List Os.U64} {i : ℕ} (h : i < va.length) (array : ℕ → Os.U64) :
    written ((List.range va.length).zip va) array i = va.getD i 0 := by
  apply written_of_mem
  · rw [List.map_fst_zip (by simp)]
    exact List.nodup_range
  · rw [List.getD_eq_getElem _ _ h, List.mem_iff_getElem]
    exact ⟨i, by simpa using h, by simp⟩

theorem getVblankInterval_of_captures (double : Rounding 53) {deviceStr : Option String}
    {hardwareTs : Bool} {env : VsyncEnv} {va : List Os.U64} (h2 : 2 ≤ va.length)
    (h100 : va.length ≤ 100) (h : Captures deviceStr hardwareTs env va) (stack : ℕ → Os.U64) :
    getVblankInterval double deviceStr va.length hardwareTs env stack =
      double.round (va.getD (va.length - 1) 0 - va.getD 0 0).toInt / (va.length - 1) / 1000 := by
  have hmax : ¬(va.length : ℤ) > vsyncMaxTimestamps := by
    rw [vsyncMaxTimestamps]
    omega
  have hmin : ¬(va.length : ℤ) < 2 := by omega
  have hlast : ((va.length : ℤ) - 1).toNat = va.length - 1 := by omega
  unfold getVblankInterval
  dsimp only
  rw [if_neg hmax, if_neg hmin, if_pos h.1, h.2, CArith.foldl_sub, hlast, written_zip (by omega),
    written_zip (by omega), Int.cast_natCast]

/-! ## Every array can be captured -/

/-- A device that delivers these timestamps, one a round. -/
def replay (va : List Os.U64) : VsyncEnv :=
  ⟨3, 0, fun i => ⟨1, [⟨0, 0, va.getD i 0⟩], 0⟩⟩

theorem handled_replay (va : List Os.U64) (n i : ℕ) :
    Os.handled (replay va).polls n i =
      (List.range' i n).map fun k => (⟨0, 0, va.getD k 0⟩ : VblankEvent) := by
  induction n generalizing i with
  | zero => rfl
  | succ n ih =>
      rw [Os.handled, ih]
      rfl

theorem captures_replay {va : List Os.U64} (hpos : 0 < va.length) (h100 : va.length ≤ 100) :
    Captures (some "/dev/dri/card0") true (replay va) va := by
  have hopen : Os.Opens (some "/dev/dri/card0") true va.length (replay va) :=
    ⟨⟨by decide, by decide⟩, rfl, by omega, by simp [replay], rfl⟩
  have hmax : ¬(va.length : ℤ) > vsyncMaxTimestamps := by
    rw [vsyncMaxTimestamps]
    omega
  obtain ⟨hfill, -, hret⟩ := Os.osGetVsync_spec (some "/dev/dri/card0") true va.length true (replay va)
  have hdelivered : Os.delivered (some "/dev/dri/card0") true va.length (replay va) =
      (List.range va.length).map fun k => (⟨0, 0, va.getD k 0⟩ : VblankEvent) := by
    rw [Os.delivered, if_pos hopen, Int.toNat_natCast, handled_replay, List.range_eq_range']
  have htimestamps : ((List.range va.length).map fun k => (⟨0, 0, va.getD k 0⟩ : VblankEvent)).map
      (VblankEvent.timestamp true) = va := by
    apply List.ext_getElem
    · simp
    · intro i hi hlt
      simp only [List.getElem_map, List.getElem_range, VblankEvent.timestamp, if_true]
      exact List.getD_eq_getElem _ _ hlt
  rw [hdelivered] at hfill
  have hindices := hfill.indices
  have hvalues := hfill.values
  rw [hfill.counter_eq, List.length_map, List.length_range, Int.toNat_natCast, min_self] at hindices
  rw [Int.toNat_natCast, List.take_of_length_le (by simp), htimestamps] at hvalues
  unfold Captures getVsync
  rw [if_neg hmax]
  exact ⟨hret.mpr ⟨hopen, fun _ _ _ _ => rfl⟩, List.zip_of_prod hindices hvalues⟩

end Genlock.Vsyncalter
