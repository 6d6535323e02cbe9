import Genlock.Swgenlock.Connection

/-! # Timestamps from the collector to the secondary

The collector of the primary, any number of connections and the secondaries behind them run
together. What a secondary goes on with is what the collector had at one moment after the
secondary asked.
-/

namespace Genlock.Swgenlock

open Bytes Os

/-! ## The request -/

namespace Msg

theorem decode_requestBytes (r : MsgBytes) (count : ℕ) :
    (decode (requestBytes r count)).header = ack ∧
      (decode (requestBytes r count)).vblankCount = BitVec.ofInt 32 count := by
  have hheader : slice 0 4 (requestBytes r count).bytes = le 4 ack.toNat := by
    rw [requestBytes, Buffer.slice_writeAt_before _ _ (by decide) (by rw [length_le]; decide)]
    have hslice : slice 0 (le 4 ack.toNat).length (r.writeAt 0 (le 4 ack.toNat)).bytes =
        le 4 ack.toNat := Buffer.slice_writeAt r _ (by rw [length_le]; decide)
    rwa [length_le] at hslice
  have hcount : slice 824 4 (requestBytes r count).bytes =
      le 4 (BitVec.ofInt 32 (count : ℤ)).toNat := by
    have hslice : slice 824 (le 4 (BitVec.ofInt 32 (count : ℤ)).toNat).length
        (requestBytes r count).bytes = le 4 (BitVec.ofInt 32 (count : ℤ)).toNat :=
      Buffer.slice_writeAt (r.writeAt 0 (le 4 ack.toNat)) _ (by rw [length_le]; decide)
    rwa [length_le] at hslice
  refine ⟨?_, ?_⟩
  · show BitVec.ofNat 32 (readLE _) = ack
    rw [hheader, ofNat_readLE_le (by decide)]
  · show BitVec.ofNat 32 (readLE _) = _
    rw [hcount, ofNat_readLE_le (by decide)]

end Msg

/-! ## The primary with its secondaries -/

/-- The collector and the connections. `captured` is history, and so is `asked`: how much had
been captured when the secondary's request was first sent whole. -/
structure Site (ι : Type) where
  buffer : List Os.U64
  captured : List Os.U64
  connection : ι → Connection
  asked : ι → Option ℕ

inductive SiteEvent (ι : Type) where
  | capture (ts : Os.U64)
  | secondarySend (c : ι) (accepted : ℕ)
  | secondaryRecv (c : ι) (call : RecvCall)
  /-- `do_msg` up to its reply, with the buffer as it is. -/
  | primaryRecv (c : ι) (call : RecvCall) (now : ℤ × ℤ)
  | primarySend (c : ι) (accepted : ℕ)

namespace Site

variable {ι : Type} [DecidableEq ι]

def start (secondaryMsg primaryMsg : ι → MsgBytes) : Site ι :=
  ⟨[], [], fun c => .start (secondaryMsg c) (primaryMsg c), fun _ => none⟩

def connected (request : ι → MsgBytes) (count : ι → ℕ) (s : Site ι) (c : ι) (e : ConnectionEvent)
    (asked : Option ℕ) : Option (Site ι) :=
  ((s.connection c).step (request c) (count c) e).map fun conn =>
    { s with
      connection := Function.update s.connection c conn
      asked := Function.update s.asked c asked }

def step (maxCount : ℕ) (request : ι → MsgBytes) (count : ι → ℕ) (s : Site ι) :
    SiteEvent ι → Option (Site ι)
  | .capture ts => (RollingBuffer.push maxCount s.buffer ts).map fun buffer =>
      { s with buffer, captured := s.captured ++ [ts] }
  | .secondarySend c accepted => s.connected request count c (.secondarySend accepted)
      (if sendtoMsg accepted = 0 then (s.asked c).or (some s.captured.length) else s.asked c)
  | .secondaryRecv c call => s.connected request count c (.secondaryRecv call) (s.asked c)
  | .primaryRecv c call now =>
      s.connected request count c (.primaryRecv call s.buffer now) (s.asked c)
  | .primarySend c accepted => s.connected request count c (.primarySend accepted) (s.asked c)

end Site

def SiteEvent.Whole {ι : Type} : SiteEvent ι → Prop
  | capture _ => True
  | secondarySend _ accepted => accepted = sizeofMsg ∨ accepted = 0
  | secondaryRecv _ call => call.Whole
  | primaryRecv _ call _ => call.Whole
  | primarySend _ accepted => accepted = sizeofMsg ∨ accepted = 0

/-! ## What is fresh -/

/-- The most recent `count` timestamps at a moment between the request and now. -/
def Fresh (captured : List Os.U64) (asked : Option ℕ) (count : ℕ) (va : List Os.U64) : Prop :=
  ∃ a k, asked = some a ∧ a ≤ k ∧ k ≤ captured.length ∧ count ≤ k ∧
    va = (captured.take k).rtake count

def FreshReply (captured : List Os.U64) (asked : Option ℕ) (count : ℕ) (b : MsgBytes) : Prop :=
  ∃ m : Msg, b = m.encode ∧ m.vsyncArray.length = vsyncMaxTimestamps.toNat ∧
    Fresh captured asked count (m.vsyncArray.take count)

theorem Fresh.capture {captured va : List Os.U64} {asked : Option ℕ} {count : ℕ}
    (h : Fresh captured asked count va) (ts : Os.U64) : Fresh (captured ++ [ts]) asked count va := by
  obtain ⟨a, k, hasked, ha, hk, hcount, hva⟩ := h
  refine ⟨a, k, hasked, ha, ?_, hcount, ?_⟩
  · rw [List.length_append]
    exact Nat.le_add_right_of_le hk
  · rw [List.take_append_of_le_length hk]
    exact hva

theorem FreshReply.capture {captured : List Os.U64} {asked : Option ℕ} {count : ℕ} {b : MsgBytes}
    (h : FreshReply captured asked count b) (ts : Os.U64) :
    FreshReply (captured ++ [ts]) asked count b := by
  obtain ⟨m, hb, hlen, hfresh⟩ := h
  exact ⟨m, hb, hlen, hfresh.capture ts⟩

structure ConnectionFresh (captured : List Os.U64) (asked : Option ℕ) (request : MsgBytes)
    (count : ℕ) (s : Connection) : Prop where
  whole : s.Inv (requestBytes request count) count
  asked_le : ∀ a, asked = some a → a ≤ captured.length
  silent : asked = none → s.up.bytes = []
  passed : ∀ b ∈ s.down.passed, FreshReply captured asked count b
  sending : ∀ r m, s.primary = .sending r m → FreshReply captured asked count m.encode
  returned : ∀ va, s.secondary = .returned va → Fresh captured asked count va

/-! ## The steps of a connection -/

theorem UpInv.received {request m : MsgBytes} {up up' : Stream} {o : RecvOutcome} {call : RecvCall}
    (hs : UpInv request up) (hcall : call.Whole) (ho : recvfromMsg call m = some o)
    (h : up.recv o = some up') (hret : o.ret = 0) : o.m = request ∧ up.bytes ≠ [] := by
  obtain ⟨k, n, pending, -, hcarries, -⟩ := hs.carries
  obtain ⟨hlen, -⟩ := (recvfromMsg_honest_iff call m).mpr hcall o ho hret
  obtain ⟨⟨rest, hcarries'⟩, -, hacted⟩ := hcarries.recv hcall ho h
  rw [if_pos hret] at hacted
  constructor
  · have hmem : o.m ∈ List.replicate k request := by
      rw [← hcarries'.sent, hacted]
      simp
    exact List.eq_of_mem_replicate hmem
  · intro hempty
    unfold Stream.recv at h
    split at h
    · next hfits =>
      rw [hempty, List.take_nil] at hfits
      rw [← hfits.2] at hlen
      exact absurd hlen (by decide)
    · cases h

theorem freshReply_handle {captured buffer : List Os.U64} {maxCount a count : ℕ} {request : MsgBytes}
    {r m : Msg} {now : ℤ × ℤ} (hbuffer : buffer = captured.rtake maxCount) (ha : a ≤ captured.length)
    (hcount : (count : ℤ) ≤ vsyncMaxTimestamps)
    (h : Connection.handle (Msg.decode (requestBytes request count)) buffer now = .sending r m) :
    FreshReply captured (some a) count m.encode := by
  have hmax : vsyncMaxTimestamps = 100 := rfl
  have hlength := Connection.handle_sending h
  have hasks : (Msg.decode (requestBytes request count)).count = count := by
    show (Msg.decode (requestBytes request count)).vblankCount.toInt = count
    rw [(Msg.decode_requestBytes request count).2,
      BitVec.toInt_ofInt_eq_self (by decide) (by omega) (by omega)]
  unfold Connection.handle at h
  rw [hasks, Int.toNat_natCast] at h
  split at h
  · cases h
  · cases hreply : buildReply buffer count now with
    | none =>
        rw [hreply] at h
        cases h
    | some m' =>
        rw [hreply] at h
        obtain ⟨-, rfl⟩ := Handler.sending.inj h
        obtain ⟨hle, -, hva⟩ := Primary.buildReply_some hreply
        rw [hbuffer, RollingBuffer.length_rtake] at hle
        have hfront : m'.vsyncArray.take count = captured.rtake count := by
          rw [hva, hbuffer, RollingBuffer.rtake_rtake (by omega)]
          exact List.take_left' (by rw [RollingBuffer.length_rtake]; omega)
        refine ⟨m', rfl, hlength, a, captured.length, rfl, ha, le_rfl, by omega, ?_⟩
        rw [hfront, List.take_length]

namespace ConnectionFresh

variable {captured buffer : List Os.U64} {asked : Option ℕ} {request : MsgBytes} {count : ℕ}
  {s s' : Connection}

theorem start (secondaryMsg primaryMsg : MsgBytes) :
    ConnectionFresh [] none request count (.start secondaryMsg primaryMsg) where
  whole := Connection.inv_start
  asked_le := by simp
  silent := fun _ => rfl
  passed := by simp [Connection.start]
  sending := by simp [Connection.start]
  returned := by simp [Connection.start]

theorem capture (hs : ConnectionFresh captured asked request count s) (ts : Os.U64) :
    ConnectionFresh (captured ++ [ts]) asked request count s where
  whole := hs.whole
  asked_le := by
    intro a ha
    rw [List.length_append]
    exact Nat.le_add_right_of_le (hs.asked_le a ha)
  silent := hs.silent
  passed := fun b hb => (hs.passed b hb).capture ts
  sending := fun r m h => (hs.sending r m h).capture ts
  returned := fun va h => (hs.returned va h).capture ts

/-- The first whole request fixes the moment; replies come only after it. -/
theorem secondarySend {accepted : ℕ} (hs : ConnectionFresh captured asked request count s)
    (ha : accepted = sizeofMsg ∨ accepted = 0)
    (h : s.step request count (.secondarySend accepted) = some s') :
    ConnectionFresh captured
      (if sendtoMsg accepted = 0 then asked.or (some captured.length) else asked) request count
      s' := by
  have hwhole := hs.whole.step (e := .secondarySend accepted) ha h
  have hkept : ∀ a, asked = some a →
      (if sendtoMsg accepted = 0 then asked.or (some captured.length) else asked) = some a := by
    intro a hasked
    rw [hasked]
    exact ite_self _
  have hfresh : ∀ va, Fresh captured asked count va → Fresh captured
      (if sendtoMsg accepted = 0 then asked.or (some captured.length) else asked) count va := by
    rintro va ⟨a, k, hasked, hrest⟩
    exact ⟨a, k, hkept a hasked, hrest⟩
  have hreply : ∀ b, FreshReply captured asked count b → FreshReply captured
      (if sendtoMsg accepted = 0 then asked.or (some captured.length) else asked) count b := by
    rintro b ⟨m, hb, hlen, hm⟩
    exact ⟨m, hb, hlen, hfresh _ hm⟩
  cases hc : s.secondary with
  | requesting =>
      simp only [Connection.step, hc] at h
      obtain ⟨up, hup, rfl⟩ := Option.map_eq_some_iff.mp h
      refine ⟨hwhole, ?_, ?_, fun b hb => hreply b (hs.passed b hb),
        fun r m hm => hreply _ (hs.sending r m hm), ?_⟩
      · intro a hasked
        cases hbefore : asked with
        | some a' =>
            rw [hkept a' hbefore] at hasked
            exact Option.some.inj hasked ▸ hs.asked_le a' hbefore
        | none =>
            rw [hbefore] at hasked
            split at hasked
            · exact Nat.le_of_eq (Option.some.inj hasked).symm
            · cases hasked
      · intro hnone
        obtain rfl | rfl := ha
        · simp [sendtoMsg] at hnone
        · have hbefore : asked = none := by
            cases hasked : asked with
            | none => rfl
            | some a =>
                rw [hkept a hasked] at hnone
                cases hnone
          unfold Stream.send at hup
          rw [if_pos (Nat.zero_le _)] at hup
          obtain rfl := Option.some.inj hup
          show s.up.bytes ++ _ = []
          rw [hs.silent hbefore]
          rfl
      · intro va hva
        dsimp only at hva
        split at hva <;> cases hva
  | receiving => simp [Connection.step, hc] at h
  | returned va => simp [Connection.step, hc] at h

theorem secondaryRecv {call : RecvCall} (hs : ConnectionFresh captured asked request count s)
    (hcall : call.Whole) (h : s.step request count (.secondaryRecv call) = some s') :
    ConnectionFresh captured asked request count s' := by
  have hwhole := hs.whole.step (e := .secondaryRecv call) hcall h
  cases hc : s.secondary with
  | receiving =>
      simp only [Connection.step, hc] at h
      obtain ⟨o, ho, hrest⟩ := Option.bind_eq_some_iff.mp h
      obtain ⟨down, hdown, rfl⟩ := Option.map_eq_some_iff.mp hrest
      obtain ⟨sent, pending, hcarries, -, -⟩ := hs.whole.down.carries
      obtain ⟨-, hpassed, -⟩ := hcarries.recv hcall ho hdown
      refine ⟨hwhole, hs.asked_le, hs.silent, ?_, hs.sending, ?_⟩
      · intro b hb
        exact hs.passed b (hpassed ▸ hb)
      · intro va hva
        obtain ⟨b, hb, rfl⟩ := hwhole.returned va hva
        have hsent : b ∈ s.down.passed := hpassed ▸ hwhole.down.acted_prefix.subset hb
        obtain ⟨m, rfl, hlen, hfresh⟩ := hs.passed b hsent
        rwa [Msg.decode_encode_vsyncArray hlen]
  | requesting => simp [Connection.step, hc] at h
  | returned va => simp [Connection.step, hc] at h

theorem primaryRecv {maxCount : ℕ} {call : RecvCall} {now : ℤ × ℤ}
    (hs : ConnectionFresh captured asked request count s)
    (hbuffer : buffer = captured.rtake maxCount) (hcount : (count : ℤ) ≤ vsyncMaxTimestamps)
    (hcall : call.Whole) (h : s.step request count (.primaryRecv call buffer now) = some s') :
    ConnectionFresh captured asked request count s' := by
  have hwhole := hs.whole.step (e := .primaryRecv call buffer now) hcall h
  cases hc : s.primary with
  | receiving =>
      simp only [Connection.step, hc] at h
      obtain ⟨o, ho, hrest⟩ := Option.bind_eq_some_iff.mp h
      obtain ⟨up, hup, rfl⟩ := Option.map_eq_some_iff.mp hrest
      refine ⟨hwhole, hs.asked_le, ?_, hs.passed, ?_, hs.returned⟩
      · intro hnone
        have hempty := hs.silent hnone
        unfold Stream.recv at hup
        split at hup
        · obtain rfl := Option.some.inj hup
          show s.up.bytes.drop _ = []
          rw [hempty, List.drop_nil]
        · cases hup
      · intro r m heq
        dsimp only at heq
        split at heq
        · next hret =>
          obtain ⟨hrequest, hsome⟩ := hs.whole.up.received hcall ho hup hret
          cases hasked : asked with
          | none => exact absurd (hs.silent hasked) hsome
          | some a =>
              rw [hrequest] at heq
              exact freshReply_handle hbuffer (hs.asked_le a hasked) hcount heq
        · cases heq
  | copying r => simp [Connection.step, hc] at h
  | sending r m => simp [Connection.step, hc] at h
  | ended ret => simp [Connection.step, hc] at h

theorem primarySend {accepted : ℕ} (hs : ConnectionFresh captured asked request count s)
    (ha : accepted = sizeofMsg ∨ accepted = 0)
    (h : s.step request count (.primarySend accepted) = some s') :
    ConnectionFresh captured asked request count s' := by
  have hwhole := hs.whole.step (e := .primarySend accepted) ha h
  cases hc : s.primary with
  | sending r m =>
      simp only [Connection.step, hc] at h
      obtain ⟨down, hdown, rfl⟩ := Option.map_eq_some_iff.mp h
      have hpassed : down.passed = s.down.passed ++ [m.encode] := by
        unfold Stream.send at hdown
        split at hdown
        · rw [← Option.some.inj hdown]
        · cases hdown
      refine ⟨hwhole, hs.asked_le, hs.silent, ?_, ?_, hs.returned⟩
      · intro b hb
        dsimp only at hb
        rw [hpassed] at hb
        cases List.mem_append.mp hb with
        | inl hb => exact hs.passed b hb
        | inr hb => exact List.mem_singleton.mp hb ▸ hs.sending r m hc
      · intro r' m' heq
        dsimp only at heq
        split at heq
        · cases heq
        · split at heq <;> cases heq
  | receiving => simp [Connection.step, hc] at h
  | copying r => simp [Connection.step, hc] at h
  | ended ret => simp [Connection.step, hc] at h

end ConnectionFresh

/-! ## Every run -/

namespace Site

variable {ι : Type} [DecidableEq ι] {maxCount : ℕ} {request : ι → MsgBytes} {count : ι → ℕ}
  {s s' : Site ι}

structure Inv (maxCount : ℕ) (request : ι → MsgBytes) (count : ι → ℕ) (s : Site ι) : Prop where
  buffer : s.buffer = s.captured.rtake maxCount
  connection : ∀ c, ConnectionFresh s.captured (s.asked c) (request c) (count c) (s.connection c)

theorem Inv.connected (hs : s.Inv maxCount request count) {c : ι} {e : ConnectionEvent}
    {asked : Option ℕ}
    (hconn : ∀ conn, (s.connection c).step (request c) (count c) e = some conn →
      ConnectionFresh s.captured asked (request c) (count c) conn)
    (h : s.connected request count c e asked = some s') : s'.Inv maxCount request count := by
  obtain ⟨conn, hstep, rfl⟩ := Option.map_eq_some_iff.mp h
  refine ⟨hs.buffer, fun c' => ?_⟩
  by_cases hc : c' = c
  · subst hc
    simpa using hconn conn hstep
  · simpa [Function.update_of_ne hc] using hs.connection c'

theorem Inv.step (hmax : 0 < maxCount) (hcount : ∀ c, (count c : ℤ) ≤ vsyncMaxTimestamps)
    (hs : s.Inv maxCount request count) {e : SiteEvent ι} (he : e.Whole)
    (h : s.step maxCount request count e = some s') : s'.Inv maxCount request count := by
  cases e with
  | capture ts =>
      obtain ⟨buffer, hpush, rfl⟩ := Option.map_eq_some_iff.mp h
      rw [hs.buffer, RollingBuffer.push_rtake hmax] at hpush
      exact ⟨(Option.some.inj hpush).symm, fun c => (hs.connection c).capture ts⟩
  | secondarySend c accepted =>
      exact hs.connected (fun conn hstep => (hs.connection c).secondarySend he hstep) h
  | secondaryRecv c call =>
      exact hs.connected (fun conn hstep => (hs.connection c).secondaryRecv he hstep) h
  | primaryRecv c call now =>
      exact hs.connected
        (fun conn hstep => (hs.connection c).primaryRecv hs.buffer (hcount c) he hstep) h
  | primarySend c accepted =>
      exact hs.connected (fun conn hstep => (hs.connection c).primarySend he hstep) h

/-- However the collector and the connections interleave, a secondary goes on with the most
recent timestamps of the primary at one moment after its request was sent. -/
theorem capture_fresh (hmax : 0 < maxCount) (hcount : ∀ c, (count c : ℤ) ≤ vsyncMaxTimestamps)
    {secondaryMsg primaryMsg : ι → MsgBytes} {events : List (SiteEvent ι)}
    (hwhole : ∀ e ∈ events, e.Whole)
    (hrun : Steps.run (step maxCount request count) events (start secondaryMsg primaryMsg) = some s)
    {c : ι} {va : List Os.U64} (hva : (s.connection c).secondary = .returned va) :
    ∃ a k, s.asked c = some a ∧ a ≤ k ∧ k ≤ s.captured.length ∧ count c ≤ k ∧
      va = (s.captured.take k).rtake (count c) := by
  have hstart : (start secondaryMsg primaryMsg).Inv maxCount request count :=
    ⟨(List.rtake_nil maxCount).symm, fun c => ConnectionFresh.start ..⟩
  have hinv := (Steps.all_of_forall hwhole _).invariant
    (fun _ _ _ hs he h => hs.step hmax hcount he h) hstart hrun
  exact (hinv.connection c).returned va hva

/-- The reply to a request for one timestamp when 8 was the last one captured. -/
def lastReply : Msg := { Msg.zero with header := vsyncMsg, vsyncArray := 8 :: List.replicate 99 0 }

def wholeCall (b : MsgBytes) : RecvCall := ⟨true, [⟨false, .bytes b.bytes⟩]⟩

/-- One secondary asks for one timestamp between two captures. -/
def oneCapture : List (SiteEvent Unit) :=
  [.capture 7, .secondarySend () sizeofMsg, .capture 8,
    .primaryRecv () (wholeCall (requestBytes Connection.garbage 1)) (0, 0),
    .primarySend () sizeofMsg, .secondaryRecv () (wholeCall lastReply.encode)]

theorem handle_oneCapture : Connection.handle (Msg.decode (requestBytes Connection.garbage 1)) [7#64, 8#64]
    (0, 0) = .sending (Msg.decode (requestBytes Connection.garbage 1)) lastReply := by
  have hasks : (Msg.decode (requestBytes Connection.garbage 1)).count = 1 := by
    show (Msg.decode (requestBytes Connection.garbage 1)).vblankCount.toInt = 1
    rw [show requestBytes Connection.garbage 1 = requestBytes Connection.garbage ((1 : ℕ) : ℤ) from rfl,
      (Msg.decode_requestBytes Connection.garbage 1).2]
    rfl
  unfold Connection.handle
  rw [hasks, if_neg (by unfold Msg.CountInvalid; rw [hasks]; decide)]
  rfl

theorem recvfromMsg_wholeCall (m b : MsgBytes) :
    recvfromMsg (wholeCall b) m = some ⟨0, b.bytes, b⟩ := by
  have hpos : 0 < b.bytes.length := by
    rw [b.length_eq]
    decide
  simp [recvfromMsg, wholeCall, recvLoop, hpos, m.write_bytes b]

theorem oneCapture_run : ∃ s, Steps.run (step 110 (fun _ : Unit => Connection.garbage) fun _ => 1)
    oneCapture (start (fun _ => Connection.garbage) fun _ => Connection.garbage) = some s ∧
      (s.connection ()).secondary = .returned [8] := by
  have htake : ∀ b : MsgBytes, b.bytes.take sizeofMsg = b.bytes := fun b =>
    List.take_of_length_le (Nat.le_of_eq b.length_eq)
  have hlen : ∀ b : MsgBytes, b.bytes.length = sizeofMsg := fun b => b.length_eq
  have hreply : (Msg.decode lastReply.encode).vsyncArray.take 1 = [8] := by
    rw [Msg.decode_encode_vsyncArray (by decide)]
    rfl
  simp [oneCapture, Steps.run, step, start, connected, Connection.step, Connection.start,
    RollingBuffer.push, Stream.send, Stream.recv, sendtoMsg, recvfromMsg_wholeCall, htake, hlen,
    handle_oneCapture, hreply]

theorem capture_fresh_oneCapture :
    ∃ s : Site Unit, (s.connection ()).secondary = .returned [8] ∧
      ∃ a k, s.asked () = some a ∧ a ≤ k ∧ k ≤ s.captured.length ∧ 1 ≤ k ∧
        [8] = (s.captured.take k).rtake 1 := by
  obtain ⟨s, hrun, hva⟩ := oneCapture_run
  have hwhole : ∀ e ∈ oneCapture, e.Whole := by
    simp [oneCapture, SiteEvent.Whole, wholeCall, RecvCall.Whole, WholePolls, Buffer.length_eq]
  exact ⟨s, hva, capture_fresh (by decide) (fun _ => by decide) hwhole hrun hva⟩

end Site

end Genlock.Swgenlock
