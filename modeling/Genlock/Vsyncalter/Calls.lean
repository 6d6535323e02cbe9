import Genlock.Lib.Preserves
import Genlock.Vsyncalter.Api

/-! # The library's calls relate what their PHYs relate

A relation of machine states that every call on a PHY of the list establishes is
established by the calls of the library, which go through the list.
-/

namespace Genlock.Vsyncalter

variable {σ : Type} {R : σ → σ → Prop} [IsPreorder σ R]
  {phys : List (EnabledPhy (StateT σ Option))} {lib : Library (StateT σ Option)}

/-- A PHY that is waited for has been programmed with `reset` and `commit`. -/
theorem relates_synchronizePhys {r : SyncRequest} (hprogram : ∀ p ∈ phys, Relates R (p.programPhy r))
    (hwait : (r.reset && r.commit) = true → ∀ p ∈ phys, Relates R p.waitUntilDone) (status : ℤ) :
    Relates R (synchronizePhys r phys status) := by
  induction phys generalizing status with
  | nil => exact relates_pure status
  | cons p phys ih =>
      obtain ⟨hp, hphys⟩ := List.forall_mem_cons.mp hprogram
      have hrest := ih hphys fun hreset => (List.forall_mem_cons.mp (hwait hreset)).2
      unfold synchronizePhys
      split
      · apply relates_bind hp
        intro ret
        split
        · exact hrest 1
        · split
          · rename_i hreset
            exact relates_bind ((List.forall_mem_cons.mp (hwait hreset)).1) fun _ => hrest status
          · exact hrest status
      · exact hrest status

theorem relates_synchronizeVsync {r : SyncRequest}
    (hprogram : ∀ phys, lib.phyEnabledList = some phys → ∀ p ∈ phys, Relates R (p.programPhy r))
    (hwait : (r.reset && r.commit) = true →
      ∀ phys, lib.phyEnabledList = some phys → ∀ p ∈ phys, Relates R p.waitUntilDone) :
    Relates R (synchronizeVsync lib r) := by
  unfold synchronizeVsync
  split
  · exact relates_pure 1
  split
  · exact relates_pure 1
  split
  · exact relates_pure 1
  · rename_i phys hphys
    apply relates_bind
    · exact relates_synchronizePhys (hprogram phys hphys)
        (fun hreset => hwait hreset phys hphys) 0
    · intro status
      split
      · exact relates_pure status
      · exact relates_pure 1

section SetPllClock

variable {clock shift : ℚ} {delay : ℤ}

theorem relates_setPllClockPhys (hset : ∀ p ∈ phys, Relates R (p.setPllClock clock shift delay))
    (pipe result : ℤ) : Relates R (setPllClockPhys clock pipe shift delay phys result) := by
  induction phys generalizing result with
  | nil => exact relates_pure result
  | cons p phys ih =>
      obtain ⟨hp, hphys⟩ := List.forall_mem_cons.mp hset
      unfold setPllClockPhys
      split
      · exact relates_bind hp fun ret => ih hphys _
      · exact ih hphys result

theorem relates_libSetPllClock (pipe : ℤ) (hset : ∀ phys, lib.phyEnabledList = some phys →
      ∀ p ∈ phys, Relates R (p.setPllClock clock shift delay)) :
    Relates R (libSetPllClock lib clock pipe shift delay) := by
  unfold libSetPllClock
  split
  · exact relates_pure 1
  split
  · exact relates_pure 1
  · rename_i phys hphys
    exact relates_setPllClockPhys (hset phys hphys) pipe 0

end SetPllClock

theorem relates_libGetPllClock (pipe : ℤ) (hget : ∀ phys, lib.phyEnabledList = some phys →
      ∀ p ∈ phys, Relates R p.getPllClock) : Relates R (libGetPllClock lib pipe) := by
  unfold libGetPllClock
  split
  · exact relates_pure 0
  split
  · exact relates_pure 0
  split
  · exact relates_pure 0
  · rename_i phys hphys
    split
    · exact relates_pure 0
    · rename_i p hp
      exact hget phys hphys p (List.mem_of_find?_eq_some hp)

end Genlock.Vsyncalter
