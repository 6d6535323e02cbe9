import Genlock.Lib.Bytes

/-! # Messages of the demo protocol

The packed layout of `DemoMessage` as far as the colour update needs it.
-/

namespace Genlock.Framesync

open Bytes

abbrev U32 := BitVec 32
abbrev U64 := BitVec 64

def msgColorUpdate : U8 := 2

/-- `DemoColorUpdateMsg` -/
structure ColorUpdate where
  targetTimestampUs : U64
  color : U32
  patternType : U32
  sequenceNum : U64
deriving DecidableEq, Repr

def sizeofDemoMessage : ℕ := 264

/-- The header of a `DemoMessage` and its `color_update`. -/
def sizeofColorMessage : ℕ := 32

abbrev DemoMessage := Buffer sizeofDemoMessage

def messageType (bytes : List U8) : U8 := BitVec.ofNat 8 (readLE (slice 0 1 bytes))

def colorUpdate (bytes : List U8) : ColorUpdate where
  targetTimestampUs := BitVec.ofNat 64 (readLE (slice 8 8 bytes))
  color := BitVec.ofNat 32 (readLE (slice 16 4 bytes))
  patternType := BitVec.ofNat 32 (readLE (slice 20 4 bytes))
  sequenceNum := BitVec.ofNat 64 (readLE (slice 24 8 bytes))

namespace ColorUpdate

def payload (u : ColorUpdate) : List U8 :=
  le 8 u.targetTimestampUs.toNat ++ (le 4 u.color.toNat ++
    (le 4 u.patternType.toNat ++ le 8 u.sequenceNum.toNat))

/-- The fields that `broadcast_color_update` sets. -/
def message (u : ColorUpdate) : List U8 :=
  le 1 msgColorUpdate.toNat ++ (le 3 0 ++ (le 4 24 ++ u.payload))

/-- `demo_msg`, zeroed and filled in. -/
def encode (u : ColorUpdate) : DemoMessage := (Buffer.zero sizeofDemoMessage).write u.message

theorem length_payload (u : ColorUpdate) : u.payload.length = 24 := by
  simp only [payload, List.length_append, length_le]

theorem length_message (u : ColorUpdate) : u.message.length = sizeofColorMessage := by
  simp only [message, List.length_append, length_le, length_payload, sizeofColorMessage]

theorem encode_bytes (u : ColorUpdate) :
    u.encode.bytes = u.message ++ List.replicate 232 0 := by
  have hfits : u.message.length ≤ sizeofDemoMessage := by
    rw [length_message]
    decide
  rw [encode, Buffer.write_of_length_le _ hfits, length_message]
  show u.message ++ (List.replicate 264 0).drop 32 = _
  rw [List.drop_replicate]

theorem write_type (u : ColorUpdate) : u.encode.write [msgColorUpdate] = u.encode := by
  have hbytes : u.encode.bytes = msgColorUpdate :: u.encode.bytes.drop 1 := by
    rw [encode_bytes]
    rfl
  apply Buffer.ext
  rw [Buffer.write_of_length_le _ (by decide)]
  exact hbytes.symm

theorem messageType_encode (u : ColorUpdate) : messageType u.encode.bytes = msgColorUpdate := by
  rw [messageType, encode_bytes, message, List.append_assoc]
  rfl

theorem slice_payload {u : ColorUpdate} {a b c : List U8} {off k : ℕ}
    (hpayload : u.payload = a ++ (b ++ c)) (ha : 8 + a.length = off) (hb : b.length = k) :
    slice off k u.encode.bytes = b := by
  have hsplit : u.encode.bytes = (le 1 msgColorUpdate.toNat ++ le 3 0 ++ le 4 24 ++ a) ++
      (b ++ (c ++ List.replicate 232 0)) := by
    rw [encode_bytes, message, hpayload]
    simp only [List.append_assoc]
  rw [hsplit]
  apply slice_append _ hb
  simp only [List.length_append, length_le]
  omega

/-- A message carries the update that it was built from. -/
theorem colorUpdate_encode (u : ColorUpdate) : colorUpdate u.encode.bytes = u := by
  have htarget : slice 8 8 u.encode.bytes = le 8 u.targetTimestampUs.toNat :=
    slice_payload (a := []) rfl rfl (length_le ..)
  have hcolor : slice 16 4 u.encode.bytes = le 4 u.color.toNat :=
    slice_payload rfl (by simp) (length_le ..)
  have hpattern : slice 20 4 u.encode.bytes = le 4 u.patternType.toNat :=
    slice_payload (a := le 8 u.targetTimestampUs.toNat ++ le 4 u.color.toNat)
      (by rw [payload, List.append_assoc]) (by simp) (length_le ..)
  have hsequence : slice 24 8 u.encode.bytes = le 8 u.sequenceNum.toNat :=
    slice_payload (a := le 8 u.targetTimestampUs.toNat ++ (le 4 u.color.toNat ++
      le 4 u.patternType.toNat)) (c := []) (by simp [payload]) (by simp) (length_le ..)
  rw [colorUpdate, htarget, hcolor, hpattern, hsequence]
  simp only [ofNat_readLE_le (by decide : 2 ^ 64 ≤ 256 ^ 8),
    ofNat_readLE_le (by decide : 2 ^ 32 ≤ 256 ^ 4)]

end ColorUpdate

/-- An update lies in the first bytes of a message. -/
theorem colorUpdate_take (bytes : List U8) :
    colorUpdate (bytes.take sizeofColorMessage) = colorUpdate bytes := by
  unfold colorUpdate sizeofColorMessage
  rw [slice_take (by decide), slice_take (by decide), slice_take (by decide),
    slice_take (by decide)]

/-- A datagram that is long enough overwrites all of the update. -/
theorem colorUpdate_write (memory : DemoMessage) {datagram : List U8}
    (h : sizeofColorMessage ≤ datagram.length) :
    colorUpdate (memory.write datagram).bytes = colorUpdate datagram := by
  rw [← colorUpdate_take, memory.take_write h (by decide), colorUpdate_take]

end Genlock.Framesync
