import Genlock.Lib.Bytes
import Mathlib.Data.List.TakeWhile

/-! # C strings in buffers

The string in a buffer ends at its first zero byte.
-/

namespace Genlock.Bytes

/-- A string as C passes it: its bytes, without the zero byte behind them. -/
structure CString where
  bytes : List U8
  noNul : 0 ∉ bytes
deriving DecidableEq, Repr

/-- The string that starts a piece of memory. -/
def cstr (bytes : List U8) : List U8 := bytes.takeWhile (· ≠ 0)

theorem cstr_append {x : List U8} (hx : 0 ∉ x) (rest : List U8) : cstr (x ++ rest) = x ++ cstr rest := by
  apply List.takeWhile_append_of_pos
  intro b hb
  rw [decide_eq_true_eq]
  rintro rfl
  exact hx hb

theorem cstr_nul (rest : List U8) : cstr (0 :: rest) = [] := rfl

theorem noNul_cstr (bytes : List U8) : 0 ∉ cstr bytes := by
  intro h
  simpa using List.mem_takeWhile_imp h

def CString.ofBytes (bytes : List U8) : CString := ⟨cstr bytes, noNul_cstr bytes⟩

namespace Buffer

variable {n : ℕ}

/-- `strncpy(b, src, k)`: zero bytes fill up to `k`, and a longer string is cut without one. -/
def strncpy (b : Buffer n) (src : CString) (k : ℕ) : Buffer n :=
  b.write ((src.bytes ++ List.replicate k 0).take k)

theorem take_bytes_writeAt (b : Buffer n) {off : ℕ} (bytes : List U8) (h : off + bytes.length ≤ n) :
    (b.writeAt off bytes).bytes.take (off + bytes.length) = b.bytes.take off ++ bytes := by
  have hlen : (b.bytes.take off ++ bytes).length = off + bytes.length := by
    rw [List.length_append, List.length_take, b.length_eq]
    omega
  rw [writeAt, ← hlen, take_write _ le_rfl (by omega), List.take_length]

theorem bytes_writeAt_last (b : Buffer n) {k : ℕ} (hk : k + 1 = n) :
    (b.writeAt k [0]).bytes = b.bytes.take k ++ [0] := by
  have htake : (b.writeAt k [0]).bytes.take (k + [0].length) = b.bytes.take k ++ [0] :=
    b.take_bytes_writeAt [0] (by simp [hk])
  rwa [List.take_of_length_le (by rw [length_eq]; simp [hk])] at htake

theorem cstr_copy (b : Buffer n) (src : CString) (rest : List U8) {k : ℕ} (hk : k + 1 = n) :
    cstr ((b.write ((src.bytes ++ 0 :: rest).take k)).writeAt k [0]).bytes = src.bytes.take k := by
  rw [bytes_writeAt_last _ hk]
  by_cases h : src.bytes.length < k
  · have hcopied : (src.bytes ++ 0 :: rest).take k = src.bytes ++ 0 :: rest.take (k - src.bytes.length - 1) := by
      obtain ⟨j, hj⟩ : ∃ j, k = src.bytes.length + (j + 1) := ⟨k - src.bytes.length - 1, by omega⟩
      rw [hj, List.take_length_add_append, List.take_succ_cons]
      congr 3
      omega
    have hlen : ((src.bytes ++ 0 :: rest).take k).length ≤ k := List.length_take_le ..
    rw [write_of_length_le _ (by omega), List.take_append, List.take_take, min_self, hcopied,
      List.append_assoc, List.append_assoc, cstr_append src.noNul, List.cons_append, cstr_nul,
      List.append_nil, List.take_of_length_le (by omega)]
  · have hcopied : (src.bytes ++ 0 :: rest).take k = src.bytes.take k :=
      List.take_append_of_le_length (by omega)
    have hlen : (src.bytes.take k).length = k := by
      rw [List.length_take]
      omega
    have hnoNul : 0 ∉ src.bytes.take k := fun hmem => src.noNul (List.mem_of_mem_take hmem)
    rw [take_write _ (by rw [hcopied, hlen]) (by omega), List.take_take, min_self, hcopied,
      cstr_append hnoNul, cstr_nul, List.append_nil]

theorem cstr_strncpy (b : Buffer n) (src : CString) {k : ℕ} (hk : k + 1 = n) :
    cstr ((b.strncpy src k).writeAt k [0]).bytes = src.bytes.take k := by
  have hpad : (src.bytes ++ List.replicate k 0).take k = (src.bytes ++ 0 :: List.replicate k 0).take k := by
    rw [← List.replicate_succ, List.take_append, List.take_append, List.take_replicate,
      List.take_replicate]
    congr 2
    omega
  rw [strncpy, hpad, cstr_copy b src _ hk]

end Buffer

/-! ## Text -/

def charOf (b : U8) : Char := Char.ofNat b.toNat

end Genlock.Bytes
