import Mathlib.Data.List.Basic
import Mathlib.Data.BitVec

/-! # Bytes in memory

Little-endian words, and buffers of a fixed size that are overwritten from the front.
-/

namespace Genlock.Bytes

abbrev U8 := BitVec 8

/-! ## Words -/

/-- The `k` low bytes of `n`. -/
def le : ℕ → ℕ → List U8
  | 0, _ => []
  | k + 1, n => BitVec.ofNat 8 n :: le k (n / 256)

def readLE : List U8 → ℕ
  | [] => 0
  | b :: bs => b.toNat + 256 * readLE bs

@[simp] theorem length_le (k n : ℕ) : (le k n).length = k := by
  induction k generalizing n with
  | zero => rfl
  | succ k ih => rw [le, List.length_cons, ih]

theorem readLE_le {k n : ℕ} (h : n < 256 ^ k) : readLE (le k n) = n := by
  induction k generalizing n with
  | zero =>
      rw [Nat.pow_zero] at h
      rw [le, readLE]
      omega
  | succ k ih =>
      have hdiv : n / 256 < 256 ^ k := by
        rw [Nat.pow_succ] at h
        omega
      rw [le, readLE, ih hdiv, BitVec.toNat_ofNat]
      omega

theorem ofNat_readLE_le {w k : ℕ} (hw : 2 ^ w ≤ 256 ^ k) (x : BitVec w) :
    BitVec.ofNat w (readLE (le k x.toNat)) = x := by
  rw [readLE_le (Nat.lt_of_lt_of_le x.isLt hw)]
  exact BitVec.eq_of_toNat_eq (by simp)

def leWords (xs : List (BitVec 64)) : List U8 := xs.flatMap fun x => le 8 x.toNat

def readWords : ℕ → List U8 → List (BitVec 64)
  | 0, _ => []
  | k + 1, bs => BitVec.ofNat 64 (readLE (bs.take 8)) :: readWords k (bs.drop 8)

theorem length_leWords (xs : List (BitVec 64)) : (leWords xs).length = 8 * xs.length := by
  induction xs with
  | nil => rfl
  | cons x xs ih =>
      rw [leWords, List.flatMap_cons, List.length_append, length_le, List.length_cons]
      rw [leWords] at ih
      omega

theorem readWords_leWords (xs : List (BitVec 64)) (bs : List U8) :
    readWords xs.length (leWords xs ++ bs) = xs := by
  induction xs with
  | nil => rfl
  | cons x xs ih =>
      have hsplit : leWords (x :: xs) ++ bs = le 8 x.toNat ++ (leWords xs ++ bs) := by
        rw [leWords, List.flatMap_cons, List.append_assoc]
        rfl
      rw [List.length_cons, readWords, hsplit, List.take_left' (length_le ..),
        List.drop_left' (length_le ..), ih, ofNat_readLE_le (by decide)]

/-! ## Fields -/

def slice (off k : ℕ) (bytes : List U8) : List U8 := (bytes.drop off).take k

theorem slice_append {a b : List U8} {off k : ℕ} (ha : a.length = off) (hb : b.length = k)
    (c : List U8) : slice off k (a ++ (b ++ c)) = b := by
  rw [slice, List.drop_left' ha, List.take_left' hb]

theorem slice_take {off k n : ℕ} (h : off + k ≤ n) (bytes : List U8) :
    slice off k (bytes.take n) = slice off k bytes := by
  rw [slice, List.drop_take, List.take_take, Nat.min_eq_left (by omega), slice]

/-! ## Buffers -/

@[ext] structure Buffer (n : ℕ) where
  bytes : List U8
  length_eq : bytes.length = n
deriving DecidableEq, Repr

namespace Buffer

variable {n : ℕ}

def zero (n : ℕ) : Buffer n := ⟨List.replicate n 0, List.length_replicate⟩

/-- The front is overwritten, and what does not fit is lost. -/
def write (b : Buffer n) (bytes : List U8) : Buffer n :=
  ⟨(bytes ++ b.bytes.drop bytes.length).take n, by
    rw [List.length_take, List.length_append, List.length_drop, b.length_eq]
    omega⟩

def writeAt (b : Buffer n) (off : ℕ) (bytes : List U8) : Buffer n :=
  b.write (b.bytes.take off ++ bytes)

theorem write_of_length_le (b : Buffer n) {bytes : List U8} (h : bytes.length ≤ n) :
    (b.write bytes).bytes = bytes ++ b.bytes.drop bytes.length := by
  apply List.take_of_length_le
  rw [List.length_append, List.length_drop, b.length_eq]
  omega

theorem write_of_length_eq (b : Buffer n) {bytes : List U8} (h : bytes.length = n) :
    (b.write bytes).bytes = bytes := by
  show (bytes ++ b.bytes.drop bytes.length).take n = bytes
  exact List.take_left' h

theorem take_write (b : Buffer n) {k : ℕ} {bytes : List U8} (hk : k ≤ bytes.length) (hn : k ≤ n) :
    (b.write bytes).bytes.take k = bytes.take k := by
  show ((bytes ++ b.bytes.drop bytes.length).take n).take k = bytes.take k
  rw [List.take_take, Nat.min_eq_left hn, List.take_append_of_le_length hk]

theorem slice_writeAt (b : Buffer n) {off : ℕ} (bytes : List U8)
    (h : off + bytes.length ≤ n) : slice off bytes.length (b.writeAt off bytes).bytes = bytes := by
  have hfront : (b.bytes.take off).length = off := by
    rw [List.length_take, b.length_eq]
    omega
  have hlen : (b.bytes.take off ++ bytes).length = off + bytes.length := by
    rw [List.length_append, hfront]
  rw [writeAt, write_of_length_le _ (by omega), List.append_assoc]
  exact slice_append hfront rfl _

theorem slice_writeAt_before (b : Buffer n) {off k l : ℕ} (bytes : List U8)
    (hl : l + k ≤ off) (h : off + bytes.length ≤ n) :
    slice l k (b.writeAt off bytes).bytes = slice l k b.bytes := by
  have hfront : (b.bytes.take off).length = off := by
    rw [List.length_take, b.length_eq]
    omega
  have hlen : (b.bytes.take off ++ bytes).length = off + bytes.length := by
    rw [List.length_append, hfront]
  have htake : (b.writeAt off bytes).bytes.take off = b.bytes.take off := by
    rw [writeAt, write_of_length_le _ (by omega), List.append_assoc]
    exact List.take_left' hfront
  rw [← slice_take hl, htake, slice_take hl]

theorem write_bytes (b c : Buffer n) : b.write c.bytes = c :=
  Buffer.ext (b.write_of_length_eq c.length_eq)

end Buffer

end Genlock.Bytes
