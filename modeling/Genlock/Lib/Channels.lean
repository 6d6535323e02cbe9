import Mathlib.Data.List.DropRight
import Mathlib.Data.List.Perm.Subperm

/-! # Buffers and networks

A rolling buffer holds at most `n` values: a push into a full one drops the oldest value first,
so that after any pushes it holds the most recent values pushed. A network of datagrams may
lose, repeat and reorder what it carries: what was delivered and what is still in flight
together are no more than what was sent and the repetitions of it.
-/

/-! ## Rolling buffers -/

namespace Genlock.RollingBuffer

variable {α : Type}

/-- `none` where the oldest value of an empty buffer would be dropped. -/
def push (n : ℕ) (buffer : List α) (x : α) : Option (List α) :=
  if n ≤ buffer.length then
    match buffer with
    | [] => none
    | _ :: rest => some (rest ++ [x])
  else some (buffer ++ [x])

theorem length_rtake (l : List α) (n : ℕ) : (l.rtake n).length = min l.length n := by
  rw [List.rtake, List.length_drop]
  omega

theorem rtake_of_length_le {l : List α} {n : ℕ} (h : l.length ≤ n) : l.rtake n = l := by
  rw [List.rtake, Nat.sub_eq_zero_of_le h]
  rfl

theorem rtake_rtake {k n : ℕ} (h : k ≤ n) (l : List α) : (l.rtake n).rtake k = l.rtake k := by
  rw [List.rtake, length_rtake, List.rtake, List.drop_drop, List.rtake]
  congr 1
  omega

theorem tail_rtake_succ {l : List α} {n : ℕ} (h : n < l.length) : (l.rtake (n + 1)).tail = l.rtake n := by
  rw [List.rtake, List.tail_drop, List.rtake]
  congr 1
  omega

/-- A push keeps the buffer at the most recent values. -/
theorem push_rtake {n : ℕ} (hn : 0 < n) (l : List α) (x : α) :
    push n (l.rtake n) x = some ((l ++ [x]).rtake n) := by
  obtain ⟨m, rfl⟩ : ∃ m, n = m + 1 := ⟨n - 1, by omega⟩
  rw [List.rtake_concat_succ]
  unfold push
  rw [length_rtake]
  by_cases hlen : m + 1 ≤ l.length
  · rw [if_pos (by omega)]
    have htail := tail_rtake_succ (l := l) (n := m) (by omega)
    cases hbuf : l.rtake (m + 1) with
    | nil =>
        have hzero := congrArg List.length hbuf
        rw [length_rtake] at hzero
        simp only [List.length_nil] at hzero
        omega
    | cons y rest =>
        rw [hbuf] at htail
        exact congrArg (fun t => some (t ++ [x])) htail
  · rw [if_neg (by omega), rtake_of_length_le (by omega), rtake_of_length_le (by omega)]

end Genlock.RollingBuffer

/-! ## Datagrams -/

namespace Genlock.Datagrams

variable {α : Type}

/-- At most `n` repetitions of what was sent. -/
def Conserved (sent : List α) (n : ℕ) (delivered flight : List α) : Prop :=
  ∃ copies : List α, copies.length ≤ n ∧ (∀ c ∈ copies, c ∈ sent) ∧
    (delivered ++ flight).Subperm (sent ++ copies)

namespace Conserved

variable {sent delivered flight : List α} {n : ℕ} {x : α}

theorem start : Conserved ([] : List α) 0 [] [] :=
  ⟨[], Nat.le_refl 0, by simp, List.Subperm.refl _⟩

theorem send (h : Conserved sent n delivered flight) (x : α) :
    Conserved (sent ++ [x]) n delivered (flight ++ [x]) := by
  obtain ⟨copies, hlen, hcopies, hsub⟩ := h
  refine ⟨copies, hlen, fun c hc => List.mem_append_left _ (hcopies c hc), ?_⟩
  have hperm : (sent ++ copies ++ [x]).Perm (sent ++ [x] ++ copies) := by
    rw [List.append_assoc, List.append_assoc]
    exact List.perm_append_comm.append_left sent
  rw [← List.append_assoc, ← hperm.subperm_left]
  exact (List.subperm_append_right [x]).mpr hsub

theorem lose (h : Conserved sent n delivered flight) (i : ℕ) :
    Conserved sent n delivered (flight.eraseIdx i) := by
  obtain ⟨copies, hlen, hcopies, hsub⟩ := h
  have hless : (delivered ++ flight.eraseIdx i).Subperm (delivered ++ flight) :=
    (List.subperm_append_left delivered).mpr (List.eraseIdx_sublist flight i).subperm
  exact ⟨copies, hlen, hcopies, hless.trans hsub⟩

theorem mem_sent (h : Conserved sent n delivered flight) (hx : x ∈ delivered ++ flight) :
    x ∈ sent := by
  obtain ⟨copies, -, hcopies, hsub⟩ := h
  cases List.mem_append.mp (hsub.subset hx) with
  | inl hsent => exact hsent
  | inr hcopy => exact hcopies x hcopy

theorem duplicate (h : Conserved sent n delivered flight) {i : ℕ} (hx : flight[i]? = some x) :
    Conserved sent (n + 1) delivered (flight ++ [x]) := by
  have hsent : x ∈ sent :=
    h.mem_sent (List.mem_append_right _ (List.mem_of_getElem? hx))
  obtain ⟨copies, hlen, hcopies, hsub⟩ := h
  refine ⟨copies ++ [x], ?_, ?_, ?_⟩
  · rw [List.length_append]
    exact Nat.add_le_add_right hlen 1
  · intro c hc
    cases List.mem_append.mp hc with
    | inl hc => exact hcopies c hc
    | inr hc => exact List.mem_singleton.mp hc ▸ hsent
  · rw [← List.append_assoc, ← List.append_assoc]
    exact (List.subperm_append_right [x]).mpr hsub

theorem deliver (h : Conserved sent n delivered flight) {i : ℕ} (hx : flight[i]? = some x) :
    Conserved sent n (delivered ++ [x]) (flight.eraseIdx i) := by
  obtain ⟨copies, hlen, hcopies, hsub⟩ := h
  refine ⟨copies, hlen, hcopies, ?_⟩
  obtain ⟨hi, rfl⟩ := List.getElem?_eq_some_iff.mp hx
  have hperm : (flight[i] :: flight.eraseIdx i).Perm flight := List.getElem_cons_eraseIdx_perm hi
  rw [List.append_assoc, List.singleton_append]
  exact ((List.perm_append_left_iff delivered).mpr hperm).subperm.trans hsub

theorem forget (h : Conserved sent n delivered flight) : Conserved sent n [] flight := by
  obtain ⟨copies, hlen, hcopies, hsub⟩ := h
  exact ⟨copies, hlen, hcopies, (List.sublist_append_right delivered flight).subperm.trans hsub⟩

/-- Without repetitions nothing is delivered more often than it was sent. -/
theorem subperm (h : Conserved sent 0 delivered flight) : delivered.Subperm sent := by
  obtain ⟨copies, hlen, -, hsub⟩ := h
  obtain rfl := List.length_eq_zero_iff.mp (Nat.le_zero.mp hlen)
  rw [List.append_nil] at hsub
  exact (List.sublist_append_left delivered flight).subperm.trans hsub

end Conserved

end Genlock.Datagrams
