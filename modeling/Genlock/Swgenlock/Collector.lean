import Genlock.Lib.Channels
import Genlock.Lib.Steps
import Genlock.Swgenlock.Capture

/-! # The primary: collector and request handlers

The collector thread pushes timestamps into a rolling buffer under a lock; every client
has a handler thread in `do_msg`. The threads interleave in the order of the events.
Messages are delivered whole, with any content.
-/

namespace Genlock.Swgenlock

open Os

/-! ## Messages -/

/-- `header_t` -/
def ack : U32 := 0

def vsyncMsg : U32 := 2

structure Msg where
  header : U32
  tv : ℤ × ℤ
  vsyncArray : List U64
  vblankCount : U32
deriving DecidableEq, Repr

def Msg.zero : Msg := ⟨0, (0, 0), List.replicate vsyncMaxTimestamps.toNat 0, 0⟩

def Msg.count (r : Msg) : ℤ := r.vblankCount.toInt

def Msg.CountInvalid (r : Msg) : Prop := r.count ≤ 0 ∨ r.count > vsyncMaxTimestamps

instance (r : Msg) : Decidable r.CountInvalid := inferInstanceAs (Decidable (_ ∨ _))

/-- `get_last_vsyncs`: `none` if the buffer has not enough yet. -/
def getLastVsyncs (buffer dest : List U64) (count : ℕ) : Option (List U64) :=
  if buffer.length < count then none else some (buffer.rtake count ++ dest.drop count)

def buildReply (buffer : List U64) (count : ℕ) (now : ℤ × ℤ) : Option Msg :=
  (getLastVsyncs buffer Msg.zero.vsyncArray count).map fun va =>
    { Msg.zero with header := vsyncMsg, tv := now, vsyncArray := va }

/-! ## The threads -/

inductive Handler where
  | receiving
  | copying (r : Msg)
  | sending (r m : Msg)
  | ended (ret : ℕ)
deriving DecidableEq, Repr

/-- A request that was received: what had been captured when it was decided, and the
reply. -/
structure Exchange where
  request : Msg
  captured : List U64
  reply : Option Msg
deriving DecidableEq, Repr

/-- `captured` and, for each client, what was received, decided and sent are history. -/
structure Primary (ι : Type) where
  buffer : List U64
  handler : ι → Handler
  captured : List U64
  received : ι → List Msg
  log : ι → List Exchange
  replies : ι → List Msg

inductive PrimaryEvent (ι : Type) where
  /-- The collector gets a timestamp and pushes it. -/
  | capture (ts : U64)
  /-- `recv_msg` returns with a message, or fails. -/
  | receive (c : ι) (r : Option Msg)
  /-- `get_last_vsyncs` under the lock, and the rest of the reply. -/
  | copy (c : ι) (now : ℤ × ℤ)
  /-- `send_msg`, and whether it succeeds. -/
  | send (c : ι) (sent : Bool)

namespace Primary

variable {ι : Type} [DecidableEq ι]

def start : Primary ι := ⟨[], fun _ => .receiving, [], fun _ => [], fun _ => [], fun _ => []⟩

def setHandler (s : Primary ι) (c : ι) (h : Handler) : Primary ι :=
  { s with handler := Function.update s.handler c h }

def record (s : Primary ι) (c : ι) (r : Msg) (reply : Option Msg) : Primary ι :=
  { s with log := Function.update s.log c (s.log c ++ [⟨r, s.captured, reply⟩]) }

/-- `none`: the event is not that thread's next step, or an empty buffer is popped. -/
def step (maxCount : ℕ) (s : Primary ι) : PrimaryEvent ι → Option (Primary ι)
  | .capture ts => (RollingBuffer.push maxCount s.buffer ts).map fun buffer =>
      { s with buffer, captured := s.captured ++ [ts] }
  | .receive c r =>
    match s.handler c, r with
    | .receiving, none => some (s.setHandler c (.ended 1))
    | .receiving, some r =>
      let s := { s with received := Function.update s.received c (s.received c ++ [r]) }
      if r.CountInvalid then some ((s.record c r none).setHandler c (.ended 1))
      else some (s.setHandler c (.copying r))
    | _, _ => none
  | .copy c now =>
    match s.handler c with
    | .copying r =>
      match buildReply s.buffer r.count.toNat now with
      | none => some ((s.record c r none).setHandler c (.ended 1))
      | some m => some ((s.record c r (some m)).setHandler c (.sending r m))
    | _ => none
  | .send c sent =>
    match s.handler c with
    | .sending r m =>
      if sent = false then some (s.setHandler c (.ended 1))
      else
        let s := { s with replies := Function.update s.replies c (s.replies c ++ [m]) }
        if r.header = ack then some (s.setHandler c (.ended 0))
        else some (s.setHandler c .receiving)
    | _ => none

end Primary

/-! ## What every request gets -/

/-- No reply to a count that is invalid or exceeds the buffer; else the most recent
timestamps, oldest first, and zeros. -/
def Exchange.Answered (maxCount : ℕ) (x : Exchange) : Prop :=
  if x.request.CountInvalid ∨ min x.captured.length maxCount < x.request.count.toNat then
    x.reply = none
  else ∃ m, x.reply = some m ∧ m.header = vsyncMsg ∧
    m.vsyncArray = x.captured.rtake x.request.count.toNat ++
      List.replicate (vsyncMaxTimestamps.toNat - x.request.count.toNat) 0

def Exchange.GoesOn (x : Exchange) : Prop := x.reply ≠ none ∧ x.request.header ≠ ack

/-- The request that is received and not decided, and the reply that is not sent. -/
def Handler.undecided : Handler → List Msg
  | copying r => [r]
  | _ => []

def Handler.unsent : Handler → List Msg
  | sending _ m => [m]
  | _ => []

/-- The exchanges before the last all let the handler go on; the last decides. -/
inductive Phase : Handler → List Exchange → Prop where
  | receiving {xs : List Exchange} (h : ∀ x ∈ xs, x.GoesOn) : Phase .receiving xs
  | copying {xs : List Exchange} (r : Msg) (hr : ¬r.CountInvalid) (h : ∀ x ∈ xs, x.GoesOn) :
      Phase (.copying r) xs
  | sending {xs : List Exchange} (x : Exchange) (m : Msg) (h : ∀ y ∈ xs, y.GoesOn)
      (hm : x.reply = some m) : Phase (.sending x.request m) (xs ++ [x])
  | lost {xs : List Exchange} (h : ∀ x ∈ xs, x.GoesOn) : Phase (.ended 1) xs
  | refused {xs : List Exchange} (x : Exchange) (h : ∀ y ∈ xs, y.GoesOn) (hx : x.reply = none) :
      Phase (.ended 1) (xs ++ [x])
  | served {xs : List Exchange} (x : Exchange) (h : ∀ y ∈ xs, y.GoesOn) (hx : x.reply ≠ none)
      (hack : x.request.header = ack) : Phase (.ended 0) (xs ++ [x])

structure ClientInv (maxCount : ℕ) (h : Handler) (received : List Msg) (log : List Exchange)
    (replies : List Msg) : Prop where
  answered : ∀ x ∈ log, x.Answered maxCount
  requests : received = log.map Exchange.request ++ h.undecided
  sent : log.filterMap Exchange.reply = replies ++ h.unsent
  phase : Phase h log

section Client

variable {maxCount : ℕ} {received replies : List Msg} {log : List Exchange} {r m : Msg}

theorem answered_append {x : Exchange} (h : ∀ y ∈ log, y.Answered maxCount)
    (hx : x.Answered maxCount) : ∀ y ∈ log ++ [x], y.Answered maxCount := by
  intro y hy
  rcases List.mem_append.mp hy with hy | hy
  · exact h y hy
  · rw [List.mem_singleton.mp hy]
    exact hx

theorem answered_none {captured : List U64}
    (h : r.CountInvalid ∨ min captured.length maxCount < r.count.toNat) :
    Exchange.Answered maxCount ⟨r, captured, none⟩ := by
  rw [Exchange.Answered, if_pos h]

theorem ClientInv.lost (h : ClientInv maxCount .receiving received log replies) :
    ClientInv maxCount (.ended 1) received log replies := by
  refine ⟨h.answered, h.requests, h.sent, ?_⟩
  cases h.phase with
  | receiving hall => exact .lost hall

theorem ClientInv.invalid (h : ClientInv maxCount .receiving received log replies)
    (hr : r.CountInvalid) (captured : List U64) :
    ClientInv maxCount (.ended 1) (received ++ [r]) (log ++ [⟨r, captured, none⟩]) replies where
  answered := answered_append h.answered (answered_none (.inl hr))
  requests := by
    rw [h.requests, List.map_append]
    simp [Handler.undecided]
  sent := by
    rw [List.filterMap_append, h.sent]
    simp [Handler.unsent]
  phase := by
    cases h.phase with
    | receiving hall => exact .refused _ hall rfl

theorem ClientInv.valid (h : ClientInv maxCount .receiving received log replies)
    (hr : ¬r.CountInvalid) : ClientInv maxCount (.copying r) (received ++ [r]) log replies where
  answered := h.answered
  requests := by
    rw [h.requests]
    simp [Handler.undecided]
  sent := h.sent
  phase := by
    cases h.phase with
    | receiving hall => exact .copying r hr hall

theorem ClientInv.count_valid (h : ClientInv maxCount (.copying r) received log replies) :
    ¬r.CountInvalid := by
  cases h.phase with
  | copying _ hr _ => exact hr

theorem ClientInv.short (h : ClientInv maxCount (.copying r) received log replies)
    {captured : List U64} (hlen : min captured.length maxCount < r.count.toNat) :
    ClientInv maxCount (.ended 1) received (log ++ [⟨r, captured, none⟩]) replies where
  answered := answered_append h.answered (answered_none (.inr hlen))
  requests := by
    rw [h.requests, List.map_append]
    simp [Handler.undecided]
  sent := by
    rw [List.filterMap_append, h.sent]
    simp [Handler.unsent]
  phase := by
    cases h.phase with
    | copying _ _ hall => exact .refused _ hall rfl

theorem ClientInv.copied (h : ClientInv maxCount (.copying r) received log replies)
    {captured : List U64} (hx : Exchange.Answered maxCount ⟨r, captured, some m⟩) :
    ClientInv maxCount (.sending r m) received (log ++ [⟨r, captured, some m⟩]) replies where
  answered := answered_append h.answered hx
  requests := by
    rw [h.requests, List.map_append]
    simp [Handler.undecided]
  sent := by
    rw [List.filterMap_append, h.sent]
    simp [Handler.unsent]
  phase := by
    cases h.phase with
    | copying _ _ hall => exact .sending ⟨r, captured, some m⟩ m hall rfl

/-- The reply is sent: the handler ends if the request was of type `ACK`. -/
theorem ClientInv.replied (h : ClientInv maxCount (.sending r m) received log replies) :
    ClientInv maxCount (if r.header = ack then .ended 0 else .receiving) received log
      (replies ++ [m]) := by
  have hsent : log.filterMap Exchange.reply = replies ++ [m] := h.sent
  cases h.phase with
  | sending x m hall hm =>
      have hne : x.reply ≠ none := by simp [hm]
      split
      · rename_i hack
        exact ⟨h.answered, h.requests, hsent.trans (List.append_nil _).symm,
          .served x hall hne hack⟩
      · rename_i hack
        refine ⟨h.answered, h.requests, hsent.trans (List.append_nil _).symm,
          .receiving fun y hy => ?_⟩
        rcases List.mem_append.mp hy with hy | hy
        · exact hall y hy
        · rw [List.mem_singleton.mp hy]
          exact ⟨hne, hack⟩

/-- An exchange after which the handler does not go on is the last one. -/
theorem append_cons_of_goesOn {xs ys zs : List Exchange} {x z : Exchange}
    (hall : ∀ y ∈ zs, y.GoesOn) (h : zs ++ [z] = xs ++ x :: ys) (hx : ¬x.GoesOn) :
    ys = [] ∧ x = z := by
  rcases List.eq_nil_or_concat ys with rfl | ⟨ys', y, rfl⟩
  · have hlast := List.append_inj_right' h rfl
    exact ⟨rfl, (List.cons.inj hlast).1.symm⟩
  · have hinit : zs = xs ++ x :: ys' := by
      have hsplit : zs ++ [z] = (xs ++ x :: ys') ++ [y] := by
        rw [h, List.concat_eq_append, List.append_assoc]
        rfl
      exact List.append_inj_left' hsplit rfl
    exact absurd (hall x (by rw [hinit]; simp)) hx

end Client

/-! ## Every interleaving -/

namespace Primary

variable {ι : Type} [DecidableEq ι] {maxCount : ℕ} {s s' : Primary ι}

structure Inv (maxCount : ℕ) (s : Primary ι) : Prop where
  buffer : s.buffer = s.captured.rtake maxCount
  client : ∀ c, ClientInv maxCount (s.handler c) (s.received c) (s.log c) (s.replies c)

omit [DecidableEq ι] in
theorem Inv.client_of_eq (hs : s.Inv maxCount) {c : ι} {h : Handler} (heq : s.handler c = h) :
    ClientInv maxCount h (s.received c) (s.log c) (s.replies c) := heq ▸ hs.client c

theorem Inv.update (hs : s.Inv maxCount) {c : ι} {h : Handler} {received replies : List Msg}
    {log : List Exchange} (hc : ClientInv maxCount h received log replies)
    (hbuffer : s'.buffer = s.buffer) (hcaptured : s'.captured = s.captured)
    (hhandler : s'.handler = Function.update s.handler c h)
    (hreceived : s'.received = Function.update s.received c received)
    (hlog : s'.log = Function.update s.log c log)
    (hreplies : s'.replies = Function.update s.replies c replies) : s'.Inv maxCount where
  buffer := by rw [hbuffer, hcaptured, hs.buffer]
  client d := by
    rw [hhandler, hreceived, hlog, hreplies]
    by_cases hd : d = c
    · subst hd
      simp only [Function.update_self]
      exact hc
    · simp only [Function.update_of_ne hd]
      exact hs.client d

theorem buildReply_none {buffer : List U64} {count : ℕ} {now : ℤ × ℤ}
    (h : buildReply buffer count now = none) : buffer.length < count := by
  unfold buildReply getLastVsyncs at h
  by_contra hlen
  rw [if_neg hlen] at h
  exact absurd h (by simp)

theorem buildReply_some {buffer : List U64} {count : ℕ} {now : ℤ × ℤ} {m : Msg}
    (h : buildReply buffer count now = some m) : count ≤ buffer.length ∧ m.header = vsyncMsg ∧
      m.vsyncArray = buffer.rtake count ++ List.replicate (vsyncMaxTimestamps.toNat - count) 0 := by
  unfold buildReply getLastVsyncs at h
  by_cases hlen : buffer.length < count
  · rw [if_pos hlen] at h
    exact absurd h (by simp)
  · rw [if_neg hlen] at h
    obtain rfl := Option.some.inj h
    refine ⟨by omega, rfl, ?_⟩
    show buffer.rtake count ++ (List.replicate vsyncMaxTimestamps.toNat 0).drop count = _
    rw [List.drop_replicate]

theorem Inv.step (hmax : 0 < maxCount) (hs : s.Inv maxCount) {e : PrimaryEvent ι}
    (hsent : ∀ c, e ≠ .send c false) (h : s.step maxCount e = some s') : s'.Inv maxCount := by
  cases e with
  | capture ts =>
      obtain ⟨buffer, hpush, rfl⟩ := Option.map_eq_some_iff.mp h
      rw [hs.buffer, RollingBuffer.push_rtake hmax] at hpush
      exact ⟨(Option.some.inj hpush).symm, hs.client⟩
  | receive c r =>
      cases hc : s.handler c with
      | receiving =>
          have hclient := hs.client_of_eq hc
          cases r with
          | none =>
              simp only [Primary.step, hc, Option.some.injEq] at h
              subst h
              exact hs.update hclient.lost rfl rfl rfl (Function.update_eq_self ..).symm
                (Function.update_eq_self ..).symm (Function.update_eq_self ..).symm
          | some r =>
              simp only [Primary.step, hc] at h
              split at h
              · rename_i hinvalid
                obtain rfl := Option.some.inj h
                exact hs.update (hclient.invalid hinvalid s.captured) rfl rfl rfl rfl rfl
                  (Function.update_eq_self ..).symm
              · rename_i hvalid
                obtain rfl := Option.some.inj h
                exact hs.update (hclient.valid hvalid) rfl rfl rfl rfl
                  (Function.update_eq_self ..).symm (Function.update_eq_self ..).symm
      | copying r' => simp [Primary.step, hc] at h
      | sending r' m => simp [Primary.step, hc] at h
      | ended ret => simp [Primary.step, hc] at h
  | copy c now =>
      cases hc : s.handler c with
      | copying r =>
          have hclient := hs.client_of_eq hc
          have hlen : s.buffer.length = min s.captured.length maxCount := by
            rw [hs.buffer, RollingBuffer.length_rtake]
          simp only [Primary.step, hc] at h
          cases hreply : buildReply s.buffer r.count.toNat now with
          | none =>
              simp only [hreply, Option.some.injEq] at h
              subst h
              have hshort := buildReply_none hreply
              exact hs.update (hclient.short (hlen ▸ hshort)) rfl rfl rfl
                (Function.update_eq_self ..).symm rfl (Function.update_eq_self ..).symm
          | some m =>
              simp only [hreply, Option.some.injEq] at h
              subst h
              obtain ⟨hle, hheader, hva⟩ := buildReply_some hreply
              have hx : Exchange.Answered maxCount ⟨r, s.captured, some m⟩ := by
                have hdec : ¬(r.CountInvalid ∨ min s.captured.length maxCount < r.count.toNat) := by
                  rw [not_or, ← hlen]
                  exact ⟨hclient.count_valid, by omega⟩
                rw [Exchange.Answered, if_neg hdec]
                refine ⟨m, rfl, hheader, ?_⟩
                rw [hva, hs.buffer, RollingBuffer.rtake_rtake (by omega)]
              exact hs.update (hclient.copied hx) rfl rfl rfl (Function.update_eq_self ..).symm rfl
                (Function.update_eq_self ..).symm
      | receiving => simp [Primary.step, hc] at h
      | sending r' m => simp [Primary.step, hc] at h
      | ended ret => simp [Primary.step, hc] at h
  | send c sent =>
      have htrue : sent = true := by
        cases sent with
        | true => rfl
        | false => exact absurd rfl (hsent c)
      subst htrue
      cases hc : s.handler c with
      | sending r m =>
          have hclient := (hs.client_of_eq hc).replied
          simp only [Primary.step, hc] at h
          rw [if_neg (by simp)] at h
          split at h
          · rename_i hack
            obtain rfl := Option.some.inj h
            rw [if_pos hack] at hclient
            exact hs.update hclient rfl rfl rfl (Function.update_eq_self ..).symm
              (Function.update_eq_self ..).symm rfl
          · rename_i hack
            obtain rfl := Option.some.inj h
            rw [if_neg hack] at hclient
            exact hs.update hclient rfl rfl rfl (Function.update_eq_self ..).symm
              (Function.update_eq_self ..).symm rfl
      | receiving => simp [Primary.step, hc] at h
      | copying r' => simp [Primary.step, hc] at h
      | ended ret => simp [Primary.step, hc] at h

omit [DecidableEq ι] in
theorem inv_start : (start : Primary ι).Inv maxCount where
  buffer := by simp [start, List.rtake]
  client _ := ⟨by simp [start], rfl, rfl, .receiving (by simp [start])⟩

/-- Messages are delivered whole: no `send_msg` fails. -/
def Delivered (e : PrimaryEvent ι) : Prop := ∀ c, e ≠ .send c false

theorem Inv.run (hmax : 0 < maxCount) {events : List (PrimaryEvent ι)}
    (hsent : ∀ e ∈ events, Delivered e) (hs : s.Inv maxCount)
    (h : Steps.run (Primary.step maxCount) events s = some s') : s'.Inv maxCount :=
  (Steps.all_of_forall hsent s).invariant (fun _ _ _ hs he h => hs.step hmax he h) hs h

end Primary

/-! ## What the clients see -/

/-- The log of a client: a refused request ends the handler with an error, the first
served `ACK` ends it without, and nothing else does. -/
structure ClientServed (maxCount : ℕ) (h : Handler) (received : List Msg) (log : List Exchange)
    (replies : List Msg) : Prop where
  answered : ∀ x ∈ log, x.Answered maxCount
  requests : received = log.map Exchange.request ++ h.undecided
  sent : log.filterMap Exchange.reply = replies ++ h.unsent
  refused : ∀ xs x ys, log = xs ++ x :: ys → x.reply = none → ys = [] ∧ h = .ended 1
  acked : ∀ xs x ys, log = xs ++ x :: ys → x.reply ≠ none → x.request.header = ack →
    ys = [] ∧ (h = .ended 0 ∨ ∃ m, h = .sending x.request m)
  done : h = .ended 0 → ∃ xs x, log = xs ++ [x] ∧ x.reply ≠ none ∧ x.request.header = ack

/-- An exchange after which the handler does not go on is the last one, and the handler is
where that exchange left it. -/
theorem ClientInv.stopped {maxCount : ℕ} {h : Handler} {received replies : List Msg}
    {log : List Exchange} (hinv : ClientInv maxCount h received log replies)
    {xs ys : List Exchange} {x : Exchange} (hlog : log = xs ++ x :: ys) (hstop : ¬x.GoesOn) :
    ys = [] ∧ ((∃ m, h = .sending x.request m ∧ x.reply = some m) ∨
      h = .ended 1 ∧ x.reply = none ∨ h = .ended 0 ∧ x.reply ≠ none) := by
  have hmem : x ∈ log := by simp [hlog]
  cases hinv.phase with
  | receiving hall => exact absurd (hall x hmem) hstop
  | copying r hr hall => exact absurd (hall x hmem) hstop
  | lost hall => exact absurd (hall x hmem) hstop
  | sending z m hall hm =>
      obtain ⟨hys, rfl⟩ := append_cons_of_goesOn hall hlog hstop
      exact ⟨hys, .inl ⟨m, rfl, hm⟩⟩
  | refused z hall hz =>
      obtain ⟨hys, rfl⟩ := append_cons_of_goesOn hall hlog hstop
      exact ⟨hys, .inr (.inl ⟨rfl, hz⟩)⟩
  | served z hall hz hack =>
      obtain ⟨hys, rfl⟩ := append_cons_of_goesOn hall hlog hstop
      exact ⟨hys, .inr (.inr ⟨rfl, hz⟩)⟩

theorem ClientInv.refused {maxCount : ℕ} {h : Handler} {received replies : List Msg}
    {log : List Exchange} (hinv : ClientInv maxCount h received log replies)
    {xs ys : List Exchange} {x : Exchange} (hlog : log = xs ++ x :: ys) (hx : x.reply = none) :
    ys = [] ∧ h = .ended 1 := by
  obtain ⟨hys, hleft⟩ := hinv.stopped hlog fun hgo => hgo.1 hx
  refine ⟨hys, ?_⟩
  rcases hleft with ⟨m, -, hm⟩ | ⟨hended, -⟩ | ⟨-, hreply⟩
  · exact absurd (hx.symm.trans hm) (by simp)
  · exact hended
  · exact absurd hx hreply

theorem ClientInv.acked {maxCount : ℕ} {h : Handler} {received replies : List Msg}
    {log : List Exchange} (hinv : ClientInv maxCount h received log replies)
    {xs ys : List Exchange} {x : Exchange} (hlog : log = xs ++ x :: ys) (hx : x.reply ≠ none)
    (hack : x.request.header = ack) :
    ys = [] ∧ (h = .ended 0 ∨ ∃ m, h = .sending x.request m) := by
  obtain ⟨hys, hleft⟩ := hinv.stopped hlog fun hgo => hgo.2 hack
  refine ⟨hys, ?_⟩
  rcases hleft with ⟨m, hsending, -⟩ | ⟨-, hreply⟩ | ⟨hended, -⟩
  · exact .inr ⟨m, hsending⟩
  · exact absurd hreply hx
  · exact .inl hended

theorem ClientInv.served {maxCount : ℕ} {h : Handler} {received replies : List Msg}
    {log : List Exchange} (hinv : ClientInv maxCount h received log replies) :
    ClientServed maxCount h received log replies where
  answered := hinv.answered
  requests := hinv.requests
  sent := hinv.sent
  refused _ _ _ hlog hx := hinv.refused hlog hx
  acked _ _ _ hlog hx hack := hinv.acked hlog hx hack
  done hdone := by
    subst hdone
    cases hinv.phase with
    | served x hall hx hack => exact ⟨_, x, rfl, hx, hack⟩

/-! ## The request of `do_pipe_sync` -/

def nExtra : ℤ := 5

/-- `actual_timestamps` and `timestamps_from_primary`. -/
def pipeSyncCounts (timestamps : ℤ) : ℤ × ℤ :=
  if timestamps + nExtra > vsyncMaxTimestamps then
    (vsyncMaxTimestamps - nExtra, vsyncMaxTimestamps)
  else (timestamps, timestamps + nExtra)

/-- The request of `capture_primary_vsync_network`; its other fields are not set. -/
def ackRequest (r : Msg) (timestampsFromPrimary : ℤ) : Msg :=
  { r with header := ack, vblankCount := BitVec.ofInt 32 timestampsFromPrimary }

namespace Primary

variable {ι : Type} [DecidableEq ι] {maxCount : ℕ}

end Primary

end Genlock.Swgenlock
