import Genlock.Swgenlock.Collector

/-! # What the primary is for

A service of the captured timestamps: any peer asks, each request is decided by what has
been captured and answered to the peer that asked. Threads and sockets do not occur.
-/

namespace Genlock.Swgenlock

inductive RequestPhase where
  | idle
  | deciding (r : Msg)
  | answering (m : Msg)
deriving DecidableEq, Repr

namespace RequestPhase

def undecided : RequestPhase → List Msg
  | deciding r => [r]
  | _ => []

def unsent : RequestPhase → List Msg
  | answering m => [m]
  | _ => []

end RequestPhase

structure PeerHistory where
  received : List Msg
  log : List Exchange
  replies : List Msg
deriving DecidableEq, Repr

def PeerHistory.none : PeerHistory := ⟨[], [], []⟩

structure Service (π : Type) where
  captured : List Os.U64
  phase : π → RequestPhase
  history : π → PeerHistory

inductive ServiceEvent (π : Type) where
  | capture (ts : Os.U64)
  | ask (p : π) (r : Msg)
  | decide (p : π) (now : ℤ × ℤ)
  /-- The answer gets through, or is lost. -/
  | answer (p : π) (sent : Bool)

namespace PeerHistory

def receive (h : PeerHistory) (r : Msg) : PeerHistory := { h with received := h.received ++ [r] }

def record (h : PeerHistory) (x : Exchange) : PeerHistory := { h with log := h.log ++ [x] }

def reply (h : PeerHistory) (m : Msg) : PeerHistory := { h with replies := h.replies ++ [m] }

end PeerHistory

namespace Service

variable {π : Type} [DecidableEq π]

def start : Service π := ⟨[], fun _ => .idle, fun _ => .none⟩

def setPeer (t : Service π) (p : π) (x : RequestPhase) (h : PeerHistory) : Service π :=
  { t with phase := Function.update t.phase p x, history := Function.update t.history p h }

/-- `maxCount` timestamps are kept. -/
def step (maxCount : ℕ) (t : Service π) : ServiceEvent π → Option (Service π)
  | .capture ts => some { t with captured := t.captured ++ [ts] }
  | .ask p r =>
    match t.phase p with
    | .idle =>
      let h := (t.history p).receive r
      if r.CountInvalid then some (t.setPeer p .idle (h.record ⟨r, t.captured, none⟩))
      else some (t.setPeer p (.deciding r) h)
    | _ => none
  | .decide p now =>
    match t.phase p with
    | .deciding r =>
      let reply := buildReply (t.captured.rtake maxCount) r.count.toNat now
      some (t.setPeer p (reply.elim .idle .answering) ((t.history p).record ⟨r, t.captured, reply⟩))
    | _ => none
  | .answer p sent =>
    match t.phase p with
    | .answering m =>
      some (t.setPeer p .idle (if sent then (t.history p).reply m else t.history p))
    | _ => none

end Service

/-! ## Every peer is served -/

/-- Each request is decided once, in order, and what was sent are answers to them, in order
and each at most once. -/
structure PeerInv (maxCount : ℕ) (x : RequestPhase) (h : PeerHistory) : Prop where
  answered : ∀ e ∈ h.log, e.Answered maxCount
  requests : h.received = h.log.map Exchange.request ++ x.undecided
  sent : ∃ older, h.log.filterMap Exchange.reply = older ++ x.unsent ∧ h.replies.Sublist older
  valid : ∀ r, x = .deciding r → ¬r.CountInvalid

namespace PeerInv

variable {maxCount : ℕ} {x : RequestPhase} {h : PeerHistory} {r m : Msg} {captured : List Os.U64}

theorem none : PeerInv maxCount .idle .none where
  answered := by simp [PeerHistory.none]
  requests := rfl
  sent := ⟨[], rfl, List.Sublist.slnil⟩
  valid := by simp

theorem receive (hs : PeerInv maxCount .idle h) (hr : ¬r.CountInvalid) :
    PeerInv maxCount (.deciding r) (h.receive r) where
  answered := hs.answered
  requests := by
    show h.received ++ [r] = _
    rw [hs.requests]
    simp [RequestPhase.undecided, PeerHistory.receive]
  sent := hs.sent
  valid := by
    rintro r' ⟨⟩
    exact hr

theorem refuse (hs : PeerInv maxCount .idle h) (hr : r.CountInvalid) :
    PeerInv maxCount .idle ((h.receive r).record ⟨r, captured, .none⟩) where
  answered := answered_append hs.answered (answered_none (.inl hr))
  requests := by
    show h.received ++ [r] = _
    rw [hs.requests]
    simp [RequestPhase.undecided, PeerHistory.receive, PeerHistory.record]
  sent := by
    obtain ⟨older, hlog, hsub⟩ := hs.sent
    refine ⟨older, ?_, hsub⟩
    show (h.log ++ [_]).filterMap Exchange.reply = _
    rw [List.filterMap_append, hlog]
    simp [RequestPhase.unsent]
  valid := by simp

theorem decide (hmax : 0 < maxCount) (hs : PeerInv maxCount (.deciding r) h) (now : ℤ × ℤ)
    {reply : Option Msg} (hreply : buildReply (captured.rtake maxCount) r.count.toNat now = reply) :
    PeerInv maxCount (reply.elim .idle .answering) (h.record ⟨r, captured, reply⟩) := by
  have hanswered : Exchange.Answered maxCount ⟨r, captured, reply⟩ := by
    cases reply with
    | none =>
        have hshort := Primary.buildReply_none hreply
        rw [RollingBuffer.length_rtake] at hshort
        exact answered_none (.inr hshort)
    | some m =>
        obtain ⟨hle, hheader, hva⟩ := Primary.buildReply_some hreply
        rw [RollingBuffer.length_rtake] at hle
        have hgo : ¬(r.CountInvalid ∨ min captured.length maxCount < r.count.toNat) := by
          rintro (hinvalid | hshort)
          · exact hs.valid r rfl hinvalid
          · omega
        rw [Exchange.Answered, if_neg hgo]
        refine ⟨m, rfl, hheader, ?_⟩
        rw [hva, RollingBuffer.rtake_rtake (by omega)]
  obtain ⟨older, hlog, hsub⟩ := hs.sent
  have hunsent : (RequestPhase.deciding r).unsent = [] := rfl
  rw [hunsent, List.append_nil] at hlog
  refine ⟨answered_append hs.answered hanswered, ?_, ⟨older, ?_, hsub⟩, ?_⟩
  · show h.received = (h.log ++ [_]).map Exchange.request ++ _
    rw [hs.requests, List.map_append]
    cases reply with
    | none => simp [RequestPhase.undecided]
    | some m => simp [RequestPhase.undecided]
  · show (h.log ++ [_]).filterMap Exchange.reply = _
    rw [List.filterMap_append, hlog]
    cases reply with
    | none => simp [RequestPhase.unsent]
    | some m => simp [RequestPhase.unsent]
  · cases reply with
    | none => simp
    | some m => simp

theorem answer (hs : PeerInv maxCount (.answering m) h) (sent : Bool) :
    PeerInv maxCount .idle (if sent then h.reply m else h) := by
  obtain ⟨older, hlog, hsub⟩ := hs.sent
  have hrequests : h.received = h.log.map Exchange.request ++ [] := hs.requests
  cases sent with
  | true =>
      refine ⟨hs.answered, hrequests, ⟨older ++ [m], ?_, hsub.append (List.Sublist.refl _)⟩, by simp⟩
      exact hlog.trans (List.append_nil _).symm
  | false =>
      refine ⟨hs.answered, hrequests, ⟨older ++ [m], hlog.trans (List.append_nil _).symm, ?_⟩, by simp⟩
      exact hsub.trans (List.sublist_append_left older [m])

end PeerInv

namespace Service

variable {π : Type} [DecidableEq π] {maxCount : ℕ} {t t' : Service π}

def Inv (maxCount : ℕ) (t : Service π) : Prop := ∀ p, PeerInv maxCount (t.phase p) (t.history p)

omit [DecidableEq π] in
theorem inv_start : (start : Service π).Inv maxCount := fun _ => .none

theorem Inv.setPeer (ht : t.Inv maxCount) {p : π} {x : RequestPhase} {h : PeerHistory}
    (hp : PeerInv maxCount x h) : (t.setPeer p x h).Inv maxCount := by
  intro q
  show PeerInv maxCount (Function.update t.phase p x q) (Function.update t.history p h q)
  by_cases hq : q = p
  · subst hq
    rw [Function.update_self, Function.update_self]
    exact hp
  · rw [Function.update_of_ne hq, Function.update_of_ne hq]
    exact ht q

theorem Inv.step (hmax : 0 < maxCount) (ht : t.Inv maxCount) {e : ServiceEvent π}
    (h : t.step maxCount e = some t') : t'.Inv maxCount := by
  cases e with
  | capture ts =>
      obtain rfl := Option.some.inj h
      exact ht
  | ask p r =>
      simp only [Service.step] at h
      split at h
      · rename_i hphase
        have hp := ht p
        rw [hphase] at hp
        split at h
        · rename_i hinvalid
          obtain rfl := Option.some.inj h
          exact ht.setPeer (hp.refuse hinvalid)
        · rename_i hvalid
          obtain rfl := Option.some.inj h
          exact ht.setPeer (hp.receive hvalid)
      · exact absurd h (by simp)
  | decide p now =>
      simp only [Service.step] at h
      split at h
      · rename_i r hphase
        have hp := ht p
        rw [hphase] at hp
        obtain rfl := Option.some.inj h
        exact ht.setPeer (hp.decide hmax now rfl)
      · exact absurd h (by simp)
  | answer p sent =>
      simp only [Service.step] at h
      split at h
      · rename_i m hphase
        have hp := ht p
        rw [hphase] at hp
        obtain rfl := Option.some.inj h
        exact ht.setPeer (hp.answer sent)
      · exact absurd h (by simp)

theorem Inv.run (hmax : 0 < maxCount) (ht : t.Inv maxCount) {events : List (ServiceEvent π)}
    (hrun : Steps.run (Service.step maxCount) events t = some t') : t'.Inv maxCount :=
  (Steps.all_of_forall (C := fun _ => True) (fun _ _ => trivial) t).invariant
    (fun _ _ _ ht _ h => ht.step hmax h) ht hrun

end Service

end Genlock.Swgenlock
