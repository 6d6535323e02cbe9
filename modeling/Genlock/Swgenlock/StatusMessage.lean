import Genlock.Lib.CStrings
import Genlock.Lib.Records
import Genlock.Swgenlock.PipeSync

/-! # Status messages and their log

`sync_status_msg` as it lies in memory, the lines that the primary writes for it, and the
reading of such a file.
-/

namespace Genlock.Swgenlock

open Bytes Text

/-! ## The message -/

def syncStatusHeader : U32 := 4

def maxHostnameLen : ℕ := 64

/-- `sizeof(sync_status_msg)`; no padding -/
def sizeofSyncStatusMsg : ℕ := 88

abbrev Hostname := Buffer maxHostnameLen

structure SyncStatusMsg where
  header : U32
  hostname : Hostname
  pipe : U32
  deltaUs : U64
  timestampUs : U64
deriving DecidableEq, Repr

namespace SyncStatusMsg

def init : SyncStatusMsg := ⟨syncStatusHeader, Buffer.zero maxHostnameLen, 0, 0, 0⟩

/-- `hostname[MAX_HOSTNAME_LEN - 1] = '\0'` -/
def terminate (hostname : Hostname) : Hostname := hostname.writeAt (maxHostnameLen - 1) [0]

theorem terminate_terminate (hostname : Hostname) :
    terminate (terminate hostname) = terminate hostname := by
  apply Buffer.ext
  have hlast : maxHostnameLen - 1 + 1 = maxHostnameLen := rfl
  have hlen : (hostname.bytes.take (maxHostnameLen - 1)).length = maxHostnameLen - 1 := by
    rw [List.length_take, hostname.length_eq]
    rfl
  rw [terminate, terminate, Buffer.bytes_writeAt_last _ hlast, Buffer.bytes_writeAt_last _ hlast,
    List.take_left' hlen]

def setSyncStatus (m : SyncStatusMsg) (nodeName : CString) (p delta : ℤ) (ts : U64) : SyncStatusMsg where
  header := syncStatusHeader
  hostname := terminate (m.hostname.strncpy nodeName (maxHostnameLen - 1))
  pipe := BitVec.ofInt 32 p
  deltaUs := BitVec.ofInt 64 delta
  timestampUs := ts

def tail (m : SyncStatusMsg) : List U8 :=
  le 4 m.pipe.toNat ++ (le 8 m.deltaUs.toNat ++ le 8 m.timestampUs.toNat)

def encode (m : SyncStatusMsg) : List U8 :=
  le 4 m.header.toNat ++ (m.hostname.bytes ++ m.tail)

def decode (b : Buffer sizeofSyncStatusMsg) : SyncStatusMsg where
  header := BitVec.ofNat 32 (readLE (slice 0 4 b.bytes))
  hostname := ⟨slice 4 maxHostnameLen b.bytes, by
    rw [slice, List.length_take, List.length_drop, b.length_eq]
    rfl⟩
  pipe := BitVec.ofNat 32 (readLE (slice 68 4 b.bytes))
  deltaUs := BitVec.ofNat 64 (readLE (slice 72 8 b.bytes))
  timestampUs := BitVec.ofNat 64 (readLE (slice 80 8 b.bytes))

theorem length_encode (m : SyncStatusMsg) : m.encode.length = sizeofSyncStatusMsg := by
  simp only [encode, tail, List.length_append, length_le, m.hostname.length_eq]
  rfl

/-- Whatever the memory held, a message that is written over it is read back. -/
theorem decode_write (b : Buffer sizeofSyncStatusMsg) (m : SyncStatusMsg) :
    decode (b.write m.encode) = m := by
  have hbytes : (b.write m.encode).bytes = m.encode := b.write_of_length_eq m.length_encode
  have hheader : slice 0 4 m.encode = le 4 m.header.toNat :=
    slice_append (a := []) rfl (length_le ..) _
  have hhostname : slice 4 maxHostnameLen m.encode = m.hostname.bytes :=
    slice_append (length_le ..) m.hostname.length_eq _
  have hpipe : slice 68 4 m.encode = le 4 m.pipe.toNat := by
    rw [encode, tail, ← List.append_assoc]
    exact slice_append (by simp [m.hostname.length_eq, maxHostnameLen]) (length_le ..) _
  have hdelta : slice 72 8 m.encode = le 8 m.deltaUs.toNat := by
    rw [encode, tail, ← List.append_assoc, ← List.append_assoc]
    exact slice_append (by simp [m.hostname.length_eq, maxHostnameLen]) (length_le ..) _
  have hts : slice 80 8 m.encode = le 8 m.timestampUs.toNat := by
    rw [encode, tail, ← List.append_assoc, ← List.append_assoc, ← List.append_assoc,
      ← List.append_nil (le 8 m.timestampUs.toNat)]
    exact slice_append (by simp [m.hostname.length_eq, maxHostnameLen]) (length_le ..) _
  cases m with
  | mk header hostname pipe deltaUs timestampUs =>
      simp only [decode, hbytes, hheader, hhostname, hpipe, hdelta, hts,
        ofNat_readLE_le (by decide : 2 ^ 32 ≤ 256 ^ 4), ofNat_readLE_le (by decide : 2 ^ 64 ≤ 256 ^ 8)]

end SyncStatusMsg

/-! ## The lines of the primary -/

def csvLine (timestampUs : ℕ) (name : List U8) (pipe deltaUs : ℤ) : List Char :=
  printNat timestampUs ++ ',' :: (name.map charOf ++ ',' :: (printInt pipe ++ ',' :: printInt deltaUs))

def csvHeader : List Char := "timestamp_us,node_name,pipe,delta_us".toList

/-- What `sync_monitor_thread_func` writes for the message. -/
def SyncStatusMsg.line (m : SyncStatusMsg) : List Char :=
  csvLine m.timestampUs.toNat (cstr (terminate m.hostname).bytes) m.pipe.toInt m.deltaUs.toInt

/-- `status_msg` before `recvfrom` writes to it. -/
def SyncStatusMsg.fresh : Buffer sizeofSyncStatusMsg := ⟨init.encode, init.length_encode⟩

/-- A datagram is logged if it fills the buffer and has the right header. -/
def monitorLine (datagram : List U8) : Option (List Char) :=
  let recvLen := min datagram.length sizeofSyncStatusMsg
  let m := SyncStatusMsg.decode (SyncStatusMsg.fresh.write datagram)
  if recvLen = sizeofSyncStatusMsg ∧ m.header = syncStatusHeader then some m.line else none

/-- The datagram passes for a status message, whoever sent it. -/
def StatusDatagram (datagram : List U8) : Prop :=
  sizeofSyncStatusMsg ≤ datagram.length ∧
    BitVec.ofNat 32 (readLE (datagram.take 4)) = syncStatusHeader

theorem monitorLine_eq_none {datagram : List U8} (h : ¬StatusDatagram datagram) :
    monitorLine datagram = none := by
  unfold monitorLine
  dsimp only
  rw [if_neg]
  rintro ⟨hlen, hheader⟩
  have hlong : sizeofSyncStatusMsg ≤ datagram.length := min_eq_right_iff.mp hlen
  have hfits : 4 ≤ sizeofSyncStatusMsg := by decide
  apply h
  refine ⟨hlong, ?_⟩
  rwa [SyncStatusMsg.decode, slice, List.drop_zero,
    Buffer.take_write _ (hfits.trans hlong) hfits] at hheader

/-! ## Reading the file -/

structure LogEntry where
  timestampUs : ℕ
  name : List Char
  pipe : ℤ
  deltaUs : ℤ
deriving DecidableEq, Repr

/-- Split at the commas and read the numbers. -/
def readLine (line : List Char) : Option LogEntry :=
  match line.splitOn ',' with
  | [ts, name, pipe, delta] =>
      some ⟨(strtoul 10 ts).1, name, (strtol 10 pipe).1, (strtol 10 delta).1⟩
  | _ => none

def readLog (text : List Char) : List LogEntry :=
  (lines '\n' text).tail.filterMap readLine

def PlainName (name : List U8) : Prop := ∀ b ∈ name, charOf b ≠ ',' ∧ charOf b ≠ '\n'

section Lines

variable {ts : ℕ} {name : List U8} {pipe delta : ℤ}

theorem not_mem_name {c : Char} (h : ∀ b ∈ name, charOf b ≠ c) : c ∉ name.map charOf := by
  rw [List.mem_map]
  rintro ⟨b, hb, rfl⟩
  exact h b hb rfl

theorem newline_not_mem_csvLine (h : PlainName name) : '\n' ∉ csvLine ts name pipe delta := by
  have hname : '\n' ∉ name.map charOf := not_mem_name fun b hb => (h b hb).2
  have hts : '\n' ∉ printNat ts := not_mem_printNat rfl
  have hint : ∀ z, '\n' ∉ printInt z := fun z => not_mem_printInt rfl (by decide)
  simp only [csvLine, List.mem_append, List.mem_cons, not_or]
  exact ⟨hts, by decide, hname, by decide, hint pipe, by decide, hint delta⟩

theorem readLine_csvLine (h : PlainName name) (hts : ts < 2 ^ 64)
    (hpipe : -2 ^ 63 ≤ pipe ∧ pipe < 2 ^ 63) (hdelta : -2 ^ 63 ≤ delta ∧ delta < 2 ^ 63) :
    readLine (csvLine ts name pipe delta) = some ⟨ts, name.map charOf, pipe, delta⟩ := by
  have hname : ',' ∉ name.map charOf := not_mem_name fun b hb => (h b hb).1
  have hint : ∀ z, ',' ∉ printInt z := fun z => not_mem_printInt rfl (by decide)
  have hsplit : (csvLine ts name pipe delta).splitOn ',' =
      [printNat ts, name.map charOf, printInt pipe, printInt delta] := by
    rw [csvLine, splitOn_cons_field (not_mem_printNat rfl), splitOn_cons_field hname,
      splitOn_cons_field (hint pipe), List.splitOn_eq_singleton (hint delta)]
  simp only [readLine, hsplit, strtoul_printNat hts, strtol_printInt hpipe.1 hpipe.2,
    strtol_printInt hdelta.1 hdelta.2]

end Lines

end Genlock.Swgenlock
