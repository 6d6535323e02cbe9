import Genlock.Lib.Bytes
import Genlock.Swgenlock.Collector

/-! # Messages over TCP

`recvfrom_msg` polls a non-blocking socket, `sendto_msg` sends once. A connection is two
byte streams between `capture_primary_vsync_network` and `do_msg`, each of which the
network delivers in chunks of any length.
-/

namespace Genlock.Swgenlock

open Bytes Os

/-! ## The layout of a message -/

def sizeofMsg : ℕ := 832

/-- A message in memory, padding included. -/
abbrev MsgBytes := Buffer sizeofMsg

namespace Msg

/-- The bytes of a message that was zeroed first. -/
def encode (m : Msg) : MsgBytes :=
  (Buffer.zero sizeofMsg).write (le 4 m.header.toNat ++ le 4 0 ++
    le 8 (BitVec.ofInt 64 m.tv.1).toNat ++ le 8 (BitVec.ofInt 64 m.tv.2).toNat ++
    (leWords m.vsyncArray ++ le 4 m.vblankCount.toNat))

def decode (b : MsgBytes) : Msg where
  header := BitVec.ofNat 32 (readLE (slice 0 4 b.bytes))
  tv := ((BitVec.ofNat 64 (readLE (slice 8 8 b.bytes))).toInt,
    (BitVec.ofNat 64 (readLE (slice 16 8 b.bytes))).toInt)
  vsyncArray := readWords vsyncMaxTimestamps.toNat (b.bytes.drop 24)
  vblankCount := BitVec.ofNat 32 (readLE (slice 824 4 b.bytes))

/-- The array arrives as it was built. -/
theorem decode_encode_vsyncArray {m : Msg} (h : m.vsyncArray.length = vsyncMaxTimestamps.toNat) :
    (decode m.encode).vsyncArray = m.vsyncArray := by
  have hmax : vsyncMaxTimestamps.toNat = 100 := rfl
  have hbytes : (le 4 m.header.toNat ++ le 4 0 ++ le 8 (BitVec.ofInt 64 m.tv.1).toNat ++
      le 8 (BitVec.ofInt 64 m.tv.2).toNat).length = 24 := by simp
  show readWords vsyncMaxTimestamps.toNat (m.encode.bytes.drop 24) = m.vsyncArray
  rw [encode, Buffer.write_of_length_le _ (by
    rw [List.length_append, hbytes, List.length_append, length_leWords, length_le, h, hmax]
    decide)]
  rw [List.append_assoc, List.drop_left' hbytes, List.append_assoc, ← h, readWords_leWords]

end Msg

/-- `r.ack()` and `r.set_vblank_count()` on a message that is not initialised. -/
def requestBytes (r : MsgBytes) (timestampsFromPrimary : ℤ) : MsgBytes :=
  (r.writeAt 0 (le 4 ack.toNat)).writeAt 824 (le 4 (BitVec.ofInt 32 timestampsFromPrimary).toNat)

/-! ## `recvfrom_msg` and `sendto_msg` -/

inductive RecvResult where
  | bytes (b : List U8)
  /-- `EWOULDBLOCK` or `EAGAIN` -/
  | wouldBlock
  | failed
deriving DecidableEq, Repr

/-- One test of `client_done`, and what `recvfrom` returns if it is called. -/
structure Poll where
  clientDone : Bool
  result : RecvResult
deriving DecidableEq, Repr

/-- A call of `recvfrom_msg`: whether both `fcntl` calls succeed, and the polls. -/
structure RecvCall where
  fcntlOk : Bool
  polls : List Poll
deriving DecidableEq, Repr

structure RecvOutcome where
  ret : ℕ
  received : List U8
  m : MsgBytes
deriving DecidableEq

/-- The loop of `recvfrom_msg`; `none` if it has not returned yet. -/
def recvLoop (m : MsgBytes) : List Poll → Option RecvOutcome
  | [] => none
  | p :: polls =>
    if p.clientDone then some ⟨0, [], m⟩
    else match p.result with
      | .bytes b => if b.length > 0 then some ⟨0, b, m.write b⟩ else some ⟨1, [], m⟩
      | .wouldBlock => recvLoop m polls
      | .failed => some ⟨1, [], m⟩

def recvfromMsg (call : RecvCall) (m : MsgBytes) : Option RecvOutcome :=
  if call.fcntlOk then recvLoop m call.polls else some ⟨1, [], m⟩

/-- `sendto_msg`, of which the socket takes `accepted` bytes; an error takes none. -/
def sendtoMsg (accepted : ℕ) : ℕ := if accepted ≠ sizeofMsg then 1 else 0

/-! ## The connection -/

/-- One direction: the messages passed to `send_msg`, the bytes sent and not received, and
the messages that the receiver went on with. -/
structure Stream where
  passed : List MsgBytes
  bytes : List U8
  acted : List MsgBytes

namespace Stream

def send (s : Stream) (m : MsgBytes) (accepted : ℕ) : Option Stream :=
  if accepted ≤ sizeofMsg then
    some { s with passed := s.passed ++ [m], bytes := s.bytes ++ m.bytes.take accepted }
  else none

def recv (s : Stream) (o : RecvOutcome) : Option Stream :=
  if o.received.length ≤ sizeofMsg ∧ s.bytes.take o.received.length = o.received then
    some { s with
      bytes := s.bytes.drop o.received.length
      acted := if o.ret = 0 then s.acted ++ [o.m] else s.acted }
  else none

end Stream

/-- Where `capture_primary_vsync_network` is; at the end, the timestamps that it returns to
`do_pipe_sync`, which computes the delta from them. -/
inductive Secondary where
  | requesting
  | receiving
  | returned (primaryVsync : List U64)
deriving DecidableEq, Repr

/-- `m` of the secondary and `r` of the primary are not initialised at first. -/
structure Connection where
  up : Stream
  down : Stream
  secondary : Secondary
  secondaryMsg : MsgBytes
  primary : Handler
  primaryMsg : MsgBytes

inductive ConnectionEvent where
  | secondarySend (accepted : ℕ)
  | secondaryRecv (call : RecvCall)
  /-- The buffer and the time that `do_msg` sees if it goes on. -/
  | primaryRecv (call : RecvCall) (buffer : List U64) (now : ℤ × ℤ)
  | primarySend (accepted : ℕ)

namespace Connection

def start (secondaryMsg primaryMsg : MsgBytes) : Connection :=
  ⟨⟨[], [], []⟩, ⟨[], [], []⟩, .requesting, secondaryMsg, .receiving, primaryMsg⟩

def handle (r : Msg) (buffer : List U64) (now : ℤ × ℤ) : Handler :=
  if r.CountInvalid then .ended 1
  else match buildReply buffer r.count.toNat now with
    | none => .ended 1
    | some m => .sending r m

/-- `request` is `r` of the secondary and `count` its `timestamps_from_primary`; `none`: the
event is not that side's next step, or the call has not returned. -/
def step (request : MsgBytes) (count : ℕ) (s : Connection) : ConnectionEvent → Option Connection
  | .secondarySend accepted =>
    match s.secondary with
    | .requesting => (s.up.send (requestBytes request count) accepted).map fun up =>
        { s with up, secondary := if sendtoMsg accepted = 0 then .receiving else .requesting }
    | _ => none
  | .secondaryRecv call =>
    match s.secondary with
    | .receiving => (recvfromMsg call s.secondaryMsg).bind fun o => (s.down.recv o).map fun down =>
        { s with
          down
          secondaryMsg := o.m
          secondary := if o.ret = 0 then .returned ((Msg.decode o.m).vsyncArray.take count)
            else .requesting }
    | _ => none
  | .primaryRecv call buffer now =>
    match s.primary with
    | .receiving => (recvfromMsg call s.primaryMsg).bind fun o => (s.up.recv o).map fun up =>
        { s with
          up
          primaryMsg := o.m
          primary := if o.ret = 0 then handle (Msg.decode o.m) buffer now else .ended 1 }
    | _ => none
  | .primarySend accepted =>
    match s.primary with
    | .sending r m => (s.down.send m.encode accepted).map fun down =>
        { s with
          down
          primary := if sendtoMsg accepted ≠ 0 then .ended 1
            else if r.header = ack then .ended 0 else .receiving }
    | _ => none

end Connection

/-! ## Whole messages -/

/-- `client_done` is clear at each test up to the first `recvfrom` that does not block, and
that one yields nothing or a whole message. -/
def WholePolls : List Poll → Prop
  | [] => True
  | p :: polls => p.clientDone = false ∧ match p.result with
    | .bytes b => b.length = 0 ∨ b.length = sizeofMsg
    | .wouldBlock => WholePolls polls
    | .failed => True

def RecvCall.Whole (call : RecvCall) : Prop := call.fcntlOk = true → WholePolls call.polls

/-- `recvfrom_msg` reports success only with all bytes of the message in `m`. -/
def RecvOutcome.Honest (o : RecvOutcome) : Prop :=
  o.ret = 0 → o.received.length = sizeofMsg ∧ o.m.bytes = o.received

section Recv

variable {m : MsgBytes} {o : RecvOutcome} {call : RecvCall}

theorem recvLoop_honest_iff (m : MsgBytes) (polls : List Poll) :
    (∀ o, recvLoop m polls = some o → o.Honest) ↔ WholePolls polls := by
  induction polls with
  | nil =>
      exact iff_of_true (fun o h => absurd h (by simp [recvLoop])) trivial
  | cons p polls ih =>
      cases hdone : p.clientDone with
      | true =>
          simp only [recvLoop, WholePolls, hdone, if_true, Option.some.injEq, forall_eq',
            Bool.true_eq_false, false_and, iff_false]
          intro h
          exact absurd (h rfl).1 (by simp [sizeofMsg])
      | false =>
          simp only [recvLoop, WholePolls, hdone, Bool.false_eq_true, if_false, true_and]
          cases p.result with
          | wouldBlock => exact ih
          | failed =>
              simp [RecvOutcome.Honest]
          | bytes b =>
              by_cases hb : b.length > 0
              · simp only [hb, if_true, Option.some.injEq, forall_eq']
                constructor
                · intro h
                  exact .inr (h rfl).1
                · intro h _
                  have hlen : b.length = sizeofMsg := by omega
                  exact ⟨hlen, m.write_of_length_eq hlen⟩
              · have hzero : b.length = 0 := by omega
                simp [RecvOutcome.Honest, hzero]

theorem recvfromMsg_honest_iff (call : RecvCall) (m : MsgBytes) :
    (∀ o, recvfromMsg call m = some o → o.Honest) ↔ call.Whole := by
  unfold recvfromMsg RecvCall.Whole
  cases call.fcntlOk with
  | true => simpa using recvLoop_honest_iff m call.polls
  | false => simp [RecvOutcome.Honest]

/-- Without success nothing is received. -/
theorem recvLoop_failed {polls : List Poll} (h : recvLoop m polls = some o) (hret : o.ret ≠ 0) :
    o.received = [] := by
  induction polls with
  | nil => exact absurd h (by simp [recvLoop])
  | cons p polls ih =>
      unfold recvLoop at h
      split at h
      · obtain rfl := Option.some.inj h
        rfl
      · split at h
        · split at h
          · obtain rfl := Option.some.inj h
            exact absurd rfl hret
          · obtain rfl := Option.some.inj h
            rfl
        · exact ih h
        · obtain rfl := Option.some.inj h
          rfl

theorem recvfromMsg_failed (h : recvfromMsg call m = some o) (hret : o.ret ≠ 0) :
    o.received = [] := by
  unfold recvfromMsg at h
  split at h
  · exact recvLoop_failed h hret
  · obtain rfl := Option.some.inj h
    rfl

end Recv

/-! ## Streams of whole messages -/

/-- Of the messages that the socket took, in order, the receiver went on with all but the
pending ones, and the stream is the bytes of these. -/
structure Stream.Carries (s : Stream) (sent pending : List MsgBytes) : Prop where
  bytes : s.bytes = pending.flatMap Buffer.bytes
  sent : s.acted ++ pending = sent

namespace Stream.Carries

variable {s s' : Stream} {sent pending : List MsgBytes} {m : MsgBytes} {o : RecvOutcome}

theorem send_whole (hs : s.Carries sent pending) (h : s.send m sizeofMsg = some s') :
    s'.Carries (sent ++ [m]) (pending ++ [m]) ∧ s'.passed = s.passed ++ [m] ∧ s'.acted = s.acted := by
  unfold Stream.send at h
  rw [if_pos (Nat.le_refl _)] at h
  obtain rfl := Option.some.inj h
  refine ⟨⟨?_, ?_⟩, rfl, rfl⟩
  · show s.bytes ++ m.bytes.take sizeofMsg = _
    rw [List.take_of_length_le (Nat.le_of_eq m.length_eq), hs.bytes, List.flatMap_append]
    simp
  · show s.acted ++ (pending ++ [m]) = _
    rw [← List.append_assoc, hs.sent]

theorem send_none (hs : s.Carries sent pending) (h : s.send m 0 = some s') :
    s'.Carries sent pending ∧ s'.passed = s.passed ++ [m] ∧ s'.acted = s.acted := by
  unfold Stream.send at h
  rw [if_pos (Nat.zero_le _)] at h
  obtain rfl := Option.some.inj h
  refine ⟨⟨?_, hs.sent⟩, rfl, rfl⟩
  show s.bytes ++ m.bytes.take 0 = _
  rw [List.take_zero, List.append_nil, hs.bytes]

theorem recv_failed (hs : s.Carries sent pending) (hret : o.ret ≠ 0) (hnone : o.received = [])
    (h : s.recv o = some s') : s'.Carries sent pending ∧ s'.passed = s.passed ∧ s'.acted = s.acted := by
  unfold Stream.recv at h
  rw [hnone, if_pos ⟨Nat.zero_le _, rfl⟩, if_neg hret] at h
  obtain rfl := Option.some.inj h
  exact ⟨⟨hs.bytes, hs.sent⟩, rfl, rfl⟩

/-- The message received is the first pending one. -/
theorem recv_whole (hs : s.Carries sent pending) (hret : o.ret = 0) (ho : o.Honest)
    (h : s.recv o = some s') :
    ∃ rest, s'.Carries sent rest ∧ s'.passed = s.passed ∧ s'.acted = s.acted ++ [o.m] := by
  obtain ⟨hlen, hm⟩ := ho hret
  unfold Stream.recv at h
  rw [if_pos hret] at h
  split at h
  · rename_i hfits
    obtain rfl := Option.some.inj h
    have htake : s.bytes.take sizeofMsg = o.m.bytes := by rw [hm, ← hlen, hfits.2]
    have hpos : (s.bytes.take sizeofMsg).length = sizeofMsg := by rw [htake, o.m.length_eq]
    cases pending with
    | nil =>
        rw [hs.bytes] at hpos
        exact absurd hpos (by decide)
    | cons b rest =>
        have hbytes : s.bytes = b.bytes ++ rest.flatMap Buffer.bytes := hs.bytes
        have hb : b = o.m := by
          apply Buffer.ext
          rw [← htake, hbytes, List.take_left' b.length_eq]
        refine ⟨rest, ⟨?_, ?_⟩, rfl, rfl⟩
        · show s.bytes.drop o.received.length = _
          rw [hlen, hbytes, List.drop_left' b.length_eq]
        · show s.acted ++ [o.m] ++ rest = sent
          rw [← hb, List.append_assoc]
          exact hs.sent
  · exact absurd h (by simp)

theorem recv (hs : s.Carries sent pending) {call : RecvCall} (hcall : call.Whole)
    (ho : recvfromMsg call m = some o) (h : s.recv o = some s') :
    (∃ rest, s'.Carries sent rest) ∧ s'.passed = s.passed ∧
      s'.acted = if o.ret = 0 then s.acted ++ [o.m] else s.acted := by
  by_cases hret : o.ret = 0
  · have honest := (recvfromMsg_honest_iff call m).mpr hcall o ho
    obtain ⟨rest, hcarries, hpassed, hacted⟩ := hs.recv_whole hret honest h
    exact ⟨⟨rest, hcarries⟩, hpassed, by rw [if_pos hret, hacted]⟩
  · obtain ⟨hcarries, hpassed, hacted⟩ := hs.recv_failed hret (recvfromMsg_failed ho hret) h
    exact ⟨⟨pending, hcarries⟩, hpassed, by rw [if_neg hret, hacted]⟩

end Stream.Carries

/-! ## Every run of a connection -/

/-- Each call receives a whole message if it reports success, and each message is sent
whole or not at all. -/
def ConnectionEvent.Whole : ConnectionEvent → Prop
  | secondarySend accepted => accepted = sizeofMsg ∨ accepted = 0
  | secondaryRecv call => call.Whole
  | primaryRecv call _ _ => call.Whole
  | primarySend accepted => accepted = sizeofMsg ∨ accepted = 0

def Built (b : MsgBytes) : Prop :=
  ∃ m : Msg, b = m.encode ∧ m.vsyncArray.length = vsyncMaxTimestamps.toNat

structure UpInv (request : MsgBytes) (up : Stream) : Prop where
  carries : ∃ k n pending, k ≤ n ∧ up.Carries (List.replicate k request) pending ∧
    up.passed = List.replicate n request

structure DownInv (down : Stream) (primary : Handler) : Prop where
  carries : ∃ sent pending, down.Carries sent pending ∧ sent <+: down.passed ∧
    ((∃ ret, primary = .ended ret) ∨ sent = down.passed)
  built : ∀ b ∈ down.passed, Built b
  next : ∀ r m, primary = .sending r m → m.vsyncArray.length = vsyncMaxTimestamps.toNat

/-- What the secondary goes on with comes from a message it received. -/
def ReturnedInv (count : ℕ) (secondary : Secondary) (down : Stream) : Prop :=
  ∀ va, secondary = .returned va →
    ∃ b ∈ down.acted, va = (Msg.decode b).vsyncArray.take count

structure Connection.Inv (request : MsgBytes) (count : ℕ) (s : Connection) : Prop where
  up : UpInv request s.up
  down : DownInv s.down s.primary
  returned : ReturnedInv count s.secondary s.down

section Sides

variable {request m : MsgBytes} {s s' : Stream} {o : RecvOutcome} {call : RecvCall} {accepted : ℕ}

theorem UpInv.send (hs : UpInv request s) (ha : accepted = sizeofMsg ∨ accepted = 0)
    (h : s.send request accepted = some s') : UpInv request s' := by
  obtain ⟨k, n, pending, hle, hcarries, hpassed⟩ := hs.carries
  rcases ha with rfl | rfl
  · obtain ⟨hcarries', hpassed', -⟩ := hcarries.send_whole h
    refine ⟨k + 1, n + 1, pending ++ [request], by omega, ?_, ?_⟩
    · rw [List.replicate_succ']
      exact hcarries'
    · rw [hpassed', hpassed, List.replicate_succ']
  · obtain ⟨hcarries', hpassed', -⟩ := hcarries.send_none h
    refine ⟨k, n + 1, pending, by omega, hcarries', ?_⟩
    rw [hpassed', hpassed, List.replicate_succ']

theorem UpInv.recv (hs : UpInv request s) (hcall : call.Whole) (ho : recvfromMsg call m = some o)
    (h : s.recv o = some s') : UpInv request s' := by
  obtain ⟨k, n, pending, hle, hcarries, hpassed⟩ := hs.carries
  obtain ⟨⟨rest, hcarries'⟩, hpassed', -⟩ := hcarries.recv hcall ho h
  exact ⟨k, n, rest, hle, hcarries', hpassed'.trans hpassed⟩

theorem UpInv.acted_prefix (hs : UpInv request s) : s.acted <+: s.passed := by
  obtain ⟨k, n, pending, hle, hcarries, hpassed⟩ := hs.carries
  have hsent : s.acted <+: List.replicate k request := ⟨pending, hcarries.sent⟩
  apply hsent.trans
  rw [hpassed]
  refine ⟨List.replicate (n - k) request, ?_⟩
  rw [List.replicate_append_replicate]
  congr 1
  omega

theorem DownInv.acted_prefix {primary : Handler} (hs : DownInv s primary) :
    s.acted <+: s.passed := by
  obtain ⟨sent, pending, hcarries, hprefix, -⟩ := hs.carries
  have hsent : s.acted <+: sent := ⟨pending, hcarries.sent⟩
  exact hsent.trans hprefix

theorem DownInv.recv {primary : Handler} (hs : DownInv s primary) (hcall : call.Whole)
    (ho : recvfromMsg call m = some o) (h : s.recv o = some s') :
    DownInv s' primary ∧ s'.acted = if o.ret = 0 then s.acted ++ [o.m] else s.acted := by
  obtain ⟨sent, pending, hcarries, hprefix, hlive⟩ := hs.carries
  obtain ⟨⟨rest, hcarries'⟩, hpassed, hacted⟩ := hcarries.recv hcall ho h
  rw [← hpassed] at hprefix hlive
  exact ⟨⟨⟨sent, rest, hcarries', hprefix, hlive⟩, hpassed ▸ hs.built, hs.next⟩, hacted⟩

/-- The primary goes from a request to a reply. -/
theorem DownInv.answer (hs : DownInv s .receiving) {primary : Handler}
    (hnext : ∀ r m, primary = .sending r m → m.vsyncArray.length = vsyncMaxTimestamps.toNat) :
    DownInv s primary := by
  obtain ⟨sent, pending, hcarries, hprefix, hlive⟩ := hs.carries
  refine ⟨⟨sent, pending, hcarries, hprefix, .inr ?_⟩, hs.built, hnext⟩
  rcases hlive with ⟨ret, hended⟩ | hsent
  · exact absurd hended (by simp)
  · exact hsent

theorem DownInv.send {r m : Msg} (hs : DownInv s (.sending r m))
    (ha : accepted = sizeofMsg ∨ accepted = 0) (h : s.send m.encode accepted = some s') :
    DownInv s' (if sendtoMsg accepted ≠ 0 then .ended 1
      else if r.header = ack then .ended 0 else .receiving) ∧ s'.acted = s.acted := by
  obtain ⟨sent, pending, hcarries, hprefix, hlive⟩ := hs.carries
  have hsent : sent = s.passed := by
    rcases hlive with ⟨ret, hended⟩ | hsent
    · exact absurd hended (by simp)
    · exact hsent
  have hbuilt : ∀ b ∈ s.passed ++ [m.encode], Built b := by
    intro b hb
    rcases List.mem_append.mp hb with hb | hb
    · exact hs.built b hb
    · rw [List.mem_singleton.mp hb]
      exact ⟨m, rfl, hs.next r m rfl⟩
  rcases ha with rfl | rfl
  · obtain ⟨hcarries', hpassed', hacted⟩ := hcarries.send_whole h
    refine ⟨⟨⟨sent ++ [m.encode], pending ++ [m.encode], hcarries', ?_, .inr ?_⟩, ?_, ?_⟩, hacted⟩
    · rw [hpassed', hsent]
    · rw [hpassed', hsent]
    · rw [hpassed']
      exact hbuilt
    · intro r' m' heq
      have hsends : ¬sendtoMsg sizeofMsg ≠ 0 := by decide
      rw [if_neg hsends] at heq
      split at heq
      · exact absurd heq (by simp)
      · exact absurd heq (by simp)
  · have hfails : sendtoMsg 0 ≠ 0 := by decide
    rw [if_pos hfails]
    obtain ⟨hcarries', hpassed', hacted⟩ := hcarries.send_none h
    refine ⟨⟨⟨sent, pending, hcarries', ?_, .inl ⟨1, rfl⟩⟩, ?_, ?_⟩, hacted⟩
    · rw [hpassed', hsent]
      exact List.prefix_append ..
    · rw [hpassed']
      exact hbuilt
    · intro r' m' heq
      exact absurd heq (by simp)

theorem Connection.handle_sending {r r' m' : Msg} {buffer : List U64} {now : ℤ × ℤ}
    (h : handle r buffer now = .sending r' m') :
    m'.vsyncArray.length = vsyncMaxTimestamps.toNat := by
  unfold handle at h
  split at h
  · exact absurd h (by simp)
  · rename_i hvalid
    cases hreply : buildReply buffer r.count.toNat now with
    | none => exact absurd h (by simp [hreply])
    | some m =>
        simp only [hreply, Handler.sending.injEq] at h
        obtain ⟨-, rfl⟩ := h
        obtain ⟨hle, -, hva⟩ := Primary.buildReply_some hreply
        have hmax : vsyncMaxTimestamps = 100 := rfl
        have hcount : r.count ≤ vsyncMaxTimestamps := by
          by_contra hlt
          exact hvalid (.inr (by omega))
        rw [hva, List.length_append, RollingBuffer.length_rtake, List.length_replicate]
        omega

end Sides

namespace Connection

variable {request secondaryMsg primaryMsg : MsgBytes} {count : ℕ} {s s' : Connection}

theorem inv_start : (start secondaryMsg primaryMsg).Inv (requestBytes request count) count where
  up := ⟨⟨0, 0, [], Nat.le_refl _, ⟨rfl, rfl⟩, rfl⟩⟩
  down := ⟨⟨[], [], ⟨rfl, rfl⟩, List.prefix_refl _, .inr rfl⟩, by simp [start], by simp [start]⟩
  returned := by simp [ReturnedInv, start]

theorem Inv.step (hs : s.Inv (requestBytes request count) count) {e : ConnectionEvent}
    (he : e.Whole) (h : s.step request count e = some s') :
    s'.Inv (requestBytes request count) count := by
  cases e with
  | secondarySend accepted =>
      cases hc : s.secondary with
      | requesting =>
          simp only [Connection.step, hc] at h
          obtain ⟨up, hup, rfl⟩ := Option.map_eq_some_iff.mp h
          refine ⟨hs.up.send he hup, hs.down, ?_⟩
          intro va hva
          simp only at hva
          split at hva
          · exact absurd hva (by simp)
          · exact absurd hva (by simp)
      | receiving => simp [Connection.step, hc] at h
      | returned va => simp [Connection.step, hc] at h
  | secondaryRecv call =>
      cases hc : s.secondary with
      | receiving =>
          simp only [Connection.step, hc] at h
          obtain ⟨o, ho, hrest⟩ := Option.bind_eq_some_iff.mp h
          obtain ⟨down, hdown, rfl⟩ := Option.map_eq_some_iff.mp hrest
          obtain ⟨hinv, hacted⟩ := hs.down.recv he ho hdown
          refine ⟨hs.up, hinv, ?_⟩
          intro va hva
          simp only at hva
          by_cases hret : o.ret = 0
          · rw [if_pos hret] at hva
            rw [if_pos hret] at hacted
            exact ⟨o.m, by simp [hacted], (Secondary.returned.inj hva).symm⟩
          · rw [if_neg hret] at hva
            exact absurd hva (by simp)
      | requesting => simp [Connection.step, hc] at h
      | returned va => simp [Connection.step, hc] at h
  | primaryRecv call buffer now =>
      cases hc : s.primary with
      | receiving =>
          simp only [Connection.step, hc] at h
          obtain ⟨o, ho, hrest⟩ := Option.bind_eq_some_iff.mp h
          obtain ⟨up, hup, rfl⟩ := Option.map_eq_some_iff.mp hrest
          have hdown : DownInv s.down .receiving := hc ▸ hs.down
          refine ⟨hs.up.recv he ho hup, hdown.answer ?_, hs.returned⟩
          intro r m heq
          split at heq
          · exact handle_sending heq
          · exact absurd heq (by simp)
      | copying r => simp [Connection.step, hc] at h
      | sending r m => simp [Connection.step, hc] at h
      | ended ret => simp [Connection.step, hc] at h
  | primarySend accepted =>
      cases hc : s.primary with
      | sending r m =>
          simp only [Connection.step, hc] at h
          obtain ⟨down, hdown, rfl⟩ := Option.map_eq_some_iff.mp h
          have hsending : DownInv s.down (.sending r m) := hc ▸ hs.down
          obtain ⟨hinv, hacted⟩ := hsending.send he hdown
          refine ⟨hs.up, hinv, ?_⟩
          intro va hva
          obtain ⟨b, hb, heq⟩ := hs.returned va hva
          exact ⟨b, hacted ▸ hb, heq⟩
      | receiving => simp [Connection.step, hc] at h
      | copying r => simp [Connection.step, hc] at h
      | ended ret => simp [Connection.step, hc] at h

/-- `recvfrom_msg` is honest exactly on whole calls, and in every run of whole calls and
sends the messages acted on are a prefix of the messages passed, on both sides, and what
`do_pipe_sync` goes on with is the front of an array that `do_msg` built. -/
theorem messages_whole (request secondaryMsg primaryMsg : MsgBytes) (count : ℕ) :
    (∀ call m, (∀ o, recvfromMsg call m = some o → o.Honest) ↔ call.Whole) ∧
    ∀ events s, (∀ e ∈ events, ConnectionEvent.Whole e) →
      Steps.run (Connection.step request count) events (start secondaryMsg primaryMsg) = some s →
      s.up.acted <+: s.up.passed ∧ s.down.acted <+: s.down.passed ∧
      ∀ va, s.secondary = .returned va → ∃ m : Msg, m.encode ∈ s.down.acted ∧
        va = m.vsyncArray.take count := by
  refine ⟨recvfromMsg_honest_iff, fun events s hwhole hrun => ?_⟩
  have hs := (Steps.all_of_forall hwhole _).invariant (fun _ _ _ hs he h => hs.step he h)
    inv_start hrun
  refine ⟨hs.up.acted_prefix, hs.down.acted_prefix, fun va hva => ?_⟩
  obtain ⟨b, hb, rfl⟩ := hs.returned va hva
  obtain ⟨m, rfl, hlen⟩ := hs.down.built b (hs.down.acted_prefix.subset hb)
  exact ⟨m, hb, by rw [Msg.decode_encode_vsyncArray hlen]⟩

def garbage : MsgBytes := ⟨List.replicate sizeofMsg 0xff, List.length_replicate⟩

/-- A request of which one byte is received first, and a reply that has not come when
`client_done` is set. -/
theorem messages_torn :
    (∃ s, Steps.run (Connection.step garbage 7) [.secondarySend 832,
        .primaryRecv ⟨true, [⟨false, .bytes [0]⟩]⟩ [] (0, 0)] (start garbage garbage) = some s ∧
      ¬s.up.acted <+: s.up.passed) ∧
    ∃ s va, Steps.run (Connection.step garbage 7) [.secondarySend 832,
        .secondaryRecv ⟨true, [⟨true, .wouldBlock⟩]⟩] (start garbage garbage) = some s ∧
      ¬s.down.acted <+: s.down.passed ∧ s.secondary = .returned va := by
  constructor
  · refine ⟨_, rfl, ?_⟩
    intro h
    have heq : garbage.write [0] = requestBytes garbage 7 := by
      obtain ⟨rest, hrest⟩ := h
      exact (List.cons.inj hrest).1
    exact absurd (congrArg (fun b => b.bytes[1]?) heq) (by decide)
  · refine ⟨_, _, rfl, ?_, rfl⟩
    intro h
    exact absurd (List.prefix_nil.mp h) (by simp)


/-- The request is not sent at first, and then received whole. -/
def requestEvents : List ConnectionEvent :=
  [.secondarySend 0, .secondarySend sizeofMsg,
    .primaryRecv ⟨true, [⟨false, .wouldBlock⟩, ⟨false, .bytes (requestBytes garbage 1).bytes⟩]⟩
      [7, 8] (0, 0)]

theorem requestEvents_run :
    ∃ s, Steps.run (Connection.step garbage 1) requestEvents (start garbage garbage) = some s ∧
      s.up.acted = [requestBytes garbage 1] := by
  have hlen := (requestBytes garbage 1).length_eq
  have htake : (requestBytes garbage 1).bytes.take sizeofMsg = (requestBytes garbage 1).bytes :=
    List.take_of_length_le (Nat.le_of_eq hlen)
  have hpos : 0 < sizeofMsg := by decide
  have hne : 0 ≠ sizeofMsg := by decide
  have hwrite : garbage.write (requestBytes garbage 1).bytes = requestBytes garbage 1 :=
    garbage.write_bytes _
  simp [requestEvents, Steps.run, step, start, Stream.send, sendtoMsg, recvfromMsg, recvLoop,
    Stream.recv, hlen, htake, hpos, hne, hwrite]

theorem messages_whole_request :
    ∃ s, Steps.run (Connection.step garbage 1) requestEvents (start garbage garbage) = some s ∧
      s.up.acted = [requestBytes garbage 1] ∧ s.up.acted <+: s.up.passed := by
  have hlen := (requestBytes garbage 1).length_eq
  have hwhole : ∀ e ∈ requestEvents, e.Whole := by
    simp [requestEvents, ConnectionEvent.Whole, RecvCall.Whole, WholePolls, hlen]
  obtain ⟨s, hrun, hacted⟩ := requestEvents_run
  exact ⟨s, hrun, hacted, ((messages_whole garbage garbage garbage 1).2 _ s hwhole hrun).1⟩

end Connection

end Genlock.Swgenlock
