import Genlock.Framesync.Protocol
import Genlock.Lib.Steps
import Mathlib.Data.List.Sort

/-! # Colour updates from the primary to a secondary

The primary numbers and broadcasts updates. A secondary has a thread that queues what it
receives and a main loop that presents the queue in order. The network delivers any
datagrams in any order.
-/

namespace Genlock.Framesync

open Bytes

def demoColors : List U32 :=
  [0xFF0000FF, 0x00FF00FF, 0x0000FFFF, 0xFFFF00FF, 0xFF00FFFF, 0x00FFFFFF, 0xFFFFFFFF, 0x000000FF]

structure DemoConfig where
  cycleColors : Bool
  scheduleAheadMs : ℤ
deriving DecidableEq, Repr

/-- An update in the queue, with the datagram that it was read from. -/
structure Enqueued where
  update : ColorUpdate
  datagram : List U8
deriving DecidableEq, Repr

/-- The primary and one secondary. `sent`, `enqueued`, `presented` and `missed` are
history. -/
structure Demo where
  sequenceNum : U64
  colorIndex : ℕ
  sent : List ColorUpdate
  receiving : Bool
  pendingUpdates : List ColorUpdate
  running : Bool
  enqueued : List Enqueued
  presented : List ColorUpdate
  missed : List ColorUpdate
deriving DecidableEq, Repr

inductive DemoEvent where
  /-- The primary schedules a change; `sent`: whether `sendto` succeeds. -/
  | schedule (realtimeUs : U64) (sent : Bool)
  /-- `recvfrom` yields a datagram; `msg` is on the stack and not initialised. -/
  | receive (msg : DemoMessage) (datagram : List U8)
  /-- `select` fails. -/
  | selectFails
  /-- One turn of the main loop; `vblankOk`: whether `wait_for_vblank` succeeds. -/
  | turn (now : U64) (vblankOk : Bool)
  | close

namespace Demo

def start : Demo := ⟨0, 0, [], true, [], true, [], [], []⟩

def nextUpdate (cfg : DemoConfig) (s : Demo) (realtimeUs : U64) : ℕ × ColorUpdate :=
  let colorIndex := if cfg.cycleColors then (s.colorIndex + 1) % demoColors.length else s.colorIndex
  (colorIndex, {
    targetTimestampUs := realtimeUs + BitVec.ofInt 64 cfg.scheduleAheadMs * 1000
    color := demoColors.getD colorIndex 0
    patternType := 0
    sequenceNum := s.sequenceNum + 1 })

def timeUntilTarget (u : ColorUpdate) (now : U64) : ℤ := u.targetTimestampUs.toInt - now.toInt

/-- One change that `run_primary` schedules; `sent`: whether `sendto` succeeds. -/
def runPrimary (cfg : DemoConfig) (s : Demo) (realtimeUs : U64) (sent : Bool) : Demo :=
  let (colorIndex, u) := s.nextUpdate cfg realtimeUs
  { s with
    sequenceNum := u.sequenceNum
    colorIndex
    sent := if sent then s.sent ++ [u] else s.sent }

/-- One datagram in `receive_updates_thread`; `none`: the thread has ended. -/
def receiveUpdates (s : Demo) (msg : DemoMessage) (datagram : List U8) : Option Demo :=
  if s.receiving = false then none
  else if datagram.length = 0 then some s
  else if messageType (msg.write datagram).bytes = msgColorUpdate then
    let update := colorUpdate (msg.write datagram).bytes
    some { s with
      pendingUpdates := s.pendingUpdates ++ [update]
      enqueued := s.enqueued ++ [⟨update, datagram⟩] }
  else some s

/-- One turn of the main loop of `run_secondary`. A late update is reported, and presented
all the same. -/
def runSecondary (s : Demo) (now : U64) (vblankOk : Bool) : Option Demo :=
  if s.running = false then none
  else match s.pendingUpdates with
    | [] => if vblankOk then some s else some { s with running := false }
    | update :: rest => some { s with
        pendingUpdates := rest
        missed := if timeUntilTarget update now < -50000 then s.missed ++ [update] else s.missed
        presented := if vblankOk then s.presented ++ [update] else s.presented }

def step (cfg : DemoConfig) (s : Demo) : DemoEvent → Option Demo
  | .schedule realtimeUs sent => some (s.runPrimary cfg realtimeUs sent)
  | .receive msg datagram => s.receiveUpdates msg datagram
  | .selectFails => some { s with receiving := false }
  | .turn now vblankOk => s.runSecondary now vblankOk
  | .close => some { s with running := false }

/-! ## Updates in order -/

def Older (u v : ColorUpdate) : Prop := u.sequenceNum < v.sequenceNum

instance instDecidableRelOlder : DecidableRel Older := fun u v =>
  inferInstanceAs (Decidable (u.sequenceNum < v.sequenceNum))

/-- What is presented are updates that the primary sent, in the order sent, and every
update that was queued came in a datagram that is long enough. -/
def Faithful (s : Demo) : Prop :=
  s.presented.Sublist s.sent ∧ s.presented.Pairwise Older ∧
    ∀ x ∈ s.enqueued, sizeofColorMessage ≤ x.datagram.length

/-- A datagram that is taken for a colour update is long enough and carries an update that
was sent and is newer than those before; the sequence number does not wrap. -/
def InOrder (s : Demo) : DemoEvent → Prop
  | .receive msg datagram =>
    datagram.length ≠ 0 → messageType (msg.write datagram).bytes = msgColorUpdate →
      sizeofColorMessage ≤ datagram.length ∧ colorUpdate datagram ∈ s.sent ∧
        ∀ x ∈ s.enqueued, Older x.update (colorUpdate datagram)
  | .schedule _ _ => s.sequenceNum ≠ BitVec.allOnes 64
  | _ => True

/-- The numbers of `sent` rise to `sequence_num`; the queue and what is presented are a
part of what was queued, in its order. -/
structure Inv (s : Demo) : Prop where
  sent : s.sent.Pairwise Older
  numbered : ∀ u ∈ s.sent, u.sequenceNum ≤ s.sequenceNum
  complete : ∀ x ∈ s.enqueued, sizeofColorMessage ≤ x.datagram.length
  genuine : ∀ x ∈ s.enqueued, x.update ∈ s.sent
  ordered : (s.enqueued.map Enqueued.update).Pairwise Older
  drained : (s.presented ++ s.pendingUpdates).Sublist (s.enqueued.map Enqueued.update)

variable {cfg : DemoConfig} {s s' : Demo}

theorem inv_start : start.Inv :=
  ⟨.nil, by simp [start], by simp [start], by simp [start], .nil, List.Sublist.refl _⟩

/-- The next number is above those that were sent. -/
theorem Inv.older_next (hs : s.Inv) (hwrap : s.sequenceNum ≠ BitVec.allOnes 64)
    {u : ColorUpdate} (hu : u ∈ s.sent) : u.sequenceNum < s.sequenceNum + 1 := by
  have hle := hs.numbered u hu
  have hne : s.sequenceNum.toNat ≠ 2 ^ 64 - 1 := by
    intro heq
    apply hwrap
    apply BitVec.eq_of_toNat_eq
    rw [heq, BitVec.toNat_allOnes]
  rw [BitVec.le_def] at hle
  rw [BitVec.lt_def, BitVec.toNat_add]
  have hone : (1 : U64).toNat = 1 := rfl
  have hlt := s.sequenceNum.isLt
  omega

theorem Inv.runPrimary (hs : s.Inv) {realtimeUs : U64} {sent : Bool}
    (he : s.InOrder (.schedule realtimeUs sent)) : (s.runPrimary cfg realtimeUs sent).Inv := by
  have hnext : ∀ u ∈ s.sent, u.sequenceNum < s.sequenceNum + 1 := fun u hu => hs.older_next he hu
  cases sent with
  | false =>
      refine ⟨hs.sent, fun u hu => ?_, hs.complete, hs.genuine, hs.ordered, hs.drained⟩
      exact BitVec.le_of_lt (hnext u hu)
  | true =>
      refine ⟨?_, ?_, hs.complete, ?_, hs.ordered, hs.drained⟩
      · apply List.pairwise_append.mpr
        refine ⟨hs.sent, List.pairwise_singleton .., ?_⟩
        intro u hu v hv
        rw [List.mem_singleton.mp hv]
        exact hnext u hu
      · intro u hu
        rcases List.mem_append.mp hu with hu | hu
        · exact BitVec.le_of_lt (hnext u hu)
        · rw [List.mem_singleton.mp hu]
          exact BitVec.le_refl _
      · intro x hx
        exact List.mem_append_left _ (hs.genuine x hx)

theorem Inv.receiveUpdates (hs : s.Inv) {msg : DemoMessage} {datagram : List U8}
    (he : s.InOrder (.receive msg datagram))
    (h : s.receiveUpdates msg datagram = some s') : s'.Inv := by
  unfold Demo.receiveUpdates at h
  split at h
  · exact absurd h (by simp)
  · split at h
    · exact Option.some.inj h ▸ hs
    · rename_i hlen
      split at h
      · rename_i htype
        obtain ⟨hcomplete, hsent, hnewer⟩ := he hlen htype
        rw [colorUpdate_write msg hcomplete] at h
        obtain rfl := Option.some.inj h
        refine ⟨hs.sent, hs.numbered, ?_, ?_, ?_, ?_⟩
        · exact List.forall_mem_append.mpr ⟨hs.complete, List.forall_mem_singleton.mpr hcomplete⟩
        · exact List.forall_mem_append.mpr ⟨hs.genuine, List.forall_mem_singleton.mpr hsent⟩
        · rw [List.map_append]
          apply List.pairwise_append.mpr
          refine ⟨hs.ordered, List.pairwise_singleton .., ?_⟩
          intro u hu v hv
          obtain ⟨x, hx, rfl⟩ := List.mem_map.mp hu
          rw [List.mem_singleton.mp hv]
          exact hnewer x hx
        · rw [List.map_append, ← List.append_assoc]
          exact hs.drained.append (List.Sublist.refl _)
      · exact Option.some.inj h ▸ hs

theorem Inv.runSecondary (hs : s.Inv) {now : U64} {vblankOk : Bool}
    (h : s.runSecondary now vblankOk = some s') : s'.Inv := by
  unfold Demo.runSecondary at h
  split at h
  · exact absurd h (by simp)
  · cases hqueue : s.pendingUpdates with
    | nil =>
        simp only [hqueue] at h
        split at h
        · exact Option.some.inj h ▸ hs
        · obtain rfl := Option.some.inj h
          exact ⟨hs.sent, hs.numbered, hs.complete, hs.genuine, hs.ordered, hqueue ▸ hs.drained⟩
    | cons update rest =>
        simp only [hqueue, Option.some.injEq] at h
        obtain rfl := h
        refine ⟨hs.sent, hs.numbered, hs.complete, hs.genuine, hs.ordered, ?_⟩
        have hdrained := hs.drained
        rw [hqueue] at hdrained
        cases vblankOk with
        | true =>
            show (s.presented ++ [update] ++ rest).Sublist _
            rw [List.append_assoc]
            exact hdrained
        | false =>
            show (s.presented ++ rest).Sublist _
            exact ((List.sublist_cons_self update rest).append_left s.presented).trans hdrained

theorem Inv.step (hs : s.Inv) {e : DemoEvent} (he : s.InOrder e) (h : s.step cfg e = some s') :
    s'.Inv := by
  cases e with
  | schedule realtimeUs sent =>
      obtain rfl := Option.some.inj h
      exact hs.runPrimary he
  | receive msg datagram => exact hs.receiveUpdates he h
  | turn now vblankOk => exact hs.runSecondary h
  | selectFails =>
      obtain rfl := Option.some.inj h
      exact ⟨hs.sent, hs.numbered, hs.complete, hs.genuine, hs.ordered, hs.drained⟩
  | close =>
      obtain rfl := Option.some.inj h
      exact ⟨hs.sent, hs.numbered, hs.complete, hs.genuine, hs.ordered, hs.drained⟩

instance instAntisymmOlder : Std.Antisymm Older where
  antisymm u v huv hvu := by
    rw [Older, BitVec.lt_def] at huv hvu
    omega

/-- A whole datagram of the primary queues its update, whatever `msg` was before. -/
theorem receiveUpdates_encode (hs : s.receiving = true) (msg : DemoMessage) (u : ColorUpdate) :
    s.receiveUpdates msg u.encode.bytes = some { s with
      pendingUpdates := s.pendingUpdates ++ [u]
      enqueued := s.enqueued ++ [⟨u, u.encode.bytes⟩] } := by
  have hlen : u.encode.bytes.length ≠ 0 := by
    rw [u.encode.length_eq]
    decide
  rw [receiveUpdates, if_neg (by simp [hs]), if_neg hlen, Buffer.write_bytes,
    if_pos u.messageType_encode, u.colorUpdate_encode]

/-- So does a single byte over the message of an update. -/
theorem receiveUpdates_type (hs : s.receiving = true) (u : ColorUpdate) :
    s.receiveUpdates u.encode [msgColorUpdate] = some { s with
      pendingUpdates := s.pendingUpdates ++ [u]
      enqueued := s.enqueued ++ [⟨u, [msgColorUpdate]⟩] } := by
  rw [receiveUpdates, if_neg (by simp [hs]), if_neg (by simp), u.write_type,
    if_pos u.messageType_encode, u.colorUpdate_encode]

/-- A whole datagram of an update that was sent, with a new number. -/
theorem inOrder_encode {u : ColorUpdate} (hsent : u ∈ s.sent)
    (hnewer : ∀ x ∈ s.enqueued, Older x.update u) (msg : DemoMessage) :
    s.InOrder (.receive msg u.encode.bytes) := by
  intro _ _
  rw [u.colorUpdate_encode, u.encode.length_eq]
  exact ⟨by decide, hsent, hnewer⟩

/-- In order of their numbers, a part of what was sent is a subsequence of it. -/
theorem Inv.faithful (hs : s.Inv) : s.Faithful := by
  have hpart : s.presented.Sublist (s.enqueued.map Enqueued.update) :=
    (List.sublist_append_left ..).trans hs.drained
  have hordered : s.presented.Pairwise Older := hs.ordered.sublist hpart
  have hsubset : s.presented ⊆ s.sent := by
    intro u hu
    obtain ⟨x, hx, rfl⟩ := List.mem_map.mp (hpart.subset hu)
    exact hs.genuine x hx
  have hnodup : s.presented.Nodup := by
    apply hordered.imp
    intro u v huv heq
    rw [heq, Older, BitVec.lt_def] at huv
    omega
  exact ⟨List.sublist_of_subperm_of_pairwise (hnodup.subperm hsubset) hordered hs.sent, hordered,
    hs.complete⟩

/-- If every datagram taken for an update is complete and in order, the secondary presents
a subsequence of what was sent. -/
theorem presented_faithful (cfg : DemoConfig) (events : List DemoEvent) (s : Demo)
    (horder : Steps.All (Demo.step cfg) InOrder events start)
    (hrun : Steps.run (Demo.step cfg) events start = some s) : s.Faithful :=
  (horder.invariant (fun _ _ _ hs he h => hs.step he h) inv_start hrun).faithful

/-- The first two updates of a primary that starts at time 0 and schedules 1 s ahead. -/
def demoConfig : DemoConfig := ⟨true, 1000⟩

def firstUpdate : ColorUpdate := ⟨1000000, 0x00FF00FF, 0, 1⟩

def secondUpdate : ColorUpdate := ⟨2000000, 0x0000FFFF, 0, 2⟩

def bothSent : List DemoEvent := [.schedule 0 true, .schedule 1000000 true]

def afterSent : Demo := { start with sequenceNum := 2, colorIndex := 2, sent := [firstUpdate, secondUpdate] }

theorem run_bothSent (events : List DemoEvent) :
    Steps.run (Demo.step demoConfig) (bothSent ++ events) start =
      Steps.run (Demo.step demoConfig) events afterSent := rfl

/-- The two datagrams swapped on the way, and one byte over the memory of an earlier
message. -/
theorem presented_reordered :
    (∃ s, Steps.run (Demo.step demoConfig) (bothSent ++
        [.receive firstUpdate.encode secondUpdate.encode.bytes,
          .receive secondUpdate.encode firstUpdate.encode.bytes, .turn 0 true, .turn 0 true])
        start = some s ∧ s.presented = [secondUpdate, firstUpdate] ∧ ¬s.Faithful) ∧
    ∃ s, Steps.run (Demo.step demoConfig) (bothSent ++
        [.receive firstUpdate.encode secondUpdate.encode.bytes,
          .receive secondUpdate.encode [msgColorUpdate]]) start = some s ∧
      s.enqueued.map Enqueued.update = [secondUpdate, secondUpdate] ∧ ¬s.Faithful := by
  constructor
  · have hrun : ∃ s, Steps.run (Demo.step demoConfig) (bothSent ++
        [.receive firstUpdate.encode secondUpdate.encode.bytes,
          .receive secondUpdate.encode firstUpdate.encode.bytes, .turn 0 true, .turn 0 true])
        start = some s ∧ s.presented = [secondUpdate, firstUpdate] := by
      simp only [run_bothSent]
      simp [Steps.run, step, afterSent, start, receiveUpdates_encode, runSecondary]
    obtain ⟨s, hrun, hpresented⟩ := hrun
    refine ⟨s, hrun, hpresented, fun h => ?_⟩
    have hordered := h.2.1
    rw [hpresented] at hordered
    exact absurd hordered (by decide)
  · have hrun : ∃ s, Steps.run (Demo.step demoConfig) (bothSent ++
        [.receive firstUpdate.encode secondUpdate.encode.bytes,
          .receive secondUpdate.encode [msgColorUpdate]]) start = some s ∧
        s.enqueued = [⟨secondUpdate, secondUpdate.encode.bytes⟩, ⟨secondUpdate, [msgColorUpdate]⟩] := by
      simp only [run_bothSent]
      simp [Steps.run, step, afterSent, start, receiveUpdates_encode, receiveUpdates_type]
    obtain ⟨s, hrun, henqueued⟩ := hrun
    refine ⟨s, hrun, by rw [henqueued]; rfl, fun h => ?_⟩
    have hlong := h.2.2 ⟨secondUpdate, [msgColorUpdate]⟩ (by simp [henqueued])
    exact absurd hlong (by decide)

/-- Both datagrams in order, and the first update lost at the vertical blank. -/
def bothReceived : List DemoEvent := bothSent ++
  [.receive secondUpdate.encode firstUpdate.encode.bytes,
    .receive firstUpdate.encode secondUpdate.encode.bytes, .turn 0 false, .turn 0 true]

theorem presented_faithful_both :
    ∃ s, Steps.run (Demo.step demoConfig) bothReceived start = some s ∧
      s.presented = [secondUpdate] ∧ s.Faithful := by
  have hrun : ∃ s, Steps.run (Demo.step demoConfig) bothReceived start = some s ∧
      s.presented = [secondUpdate] := by
    simp only [bothReceived, run_bothSent]
    simp [Steps.run, step, afterSent, start, receiveUpdates_encode, runSecondary]
  have horder : Steps.All (Demo.step demoConfig) InOrder bothReceived start := by
    refine ⟨by simp [InOrder, start], fun s hs => ?_⟩
    obtain rfl := Option.some.inj hs
    refine ⟨by simp [InOrder, runPrimary, nextUpdate, start], fun s hs => ?_⟩
    obtain rfl := Option.some.inj hs
    refine ⟨inOrder_encode (by decide) (by decide) _, fun s hs => ?_⟩
    rw [step, receiveUpdates_encode rfl] at hs
    obtain rfl := Option.some.inj hs
    refine ⟨inOrder_encode (by decide) (by decide) _, fun s hs => ?_⟩
    exact ⟨trivial, fun s _ => ⟨trivial, fun s _ => trivial⟩⟩
  obtain ⟨s, hrun, hpresented⟩ := hrun
  exact ⟨s, hrun, hpresented, presented_faithful demoConfig bothReceived s horder hrun⟩

end Demo

end Genlock.Framesync
