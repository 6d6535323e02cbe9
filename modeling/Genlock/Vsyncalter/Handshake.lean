import Genlock.Vsyncalter.BusStatus

/-! # The handshake of a bus transaction

What a call of `__intel_cx0_read_once` or `__intel_cx0_write_once` makes of the
words it reads: a command waits for the one before it, a success for the
acknowledgement. The words are arbitrary, so the conditions are about them.
-/

namespace Genlock.Vsyncalter

open MsgBus

/-! ## Accesses and words -/

def Bus.word (bus : Bus) (i : ℕ) : U32 := bus.answers (bus.reads + i)

def Bus.record (bus : Bus) (n : ℕ) (es : List MmioEvent) : Bus :=
  { bus with reads := bus.reads + n, events := bus.events ++ es }

@[simp] theorem Bus.word_record (bus : Bus) (n i : ℕ) (es : List MmioEvent) :
    (bus.record n es).word i = bus.word (n + i) := by
  unfold Bus.word Bus.record
  rw [Nat.add_assoc]

@[simp] theorem Bus.record_record (bus : Bus) (m n : ℕ) (es es' : List MmioEvent) :
    (bus.record m es).record n es' = bus.record (m + n) (es ++ es') := by
  unfold Bus.record
  rw [Nat.add_assoc, List.append_assoc]

@[simp] theorem Bus.events_record (bus : Bus) (n : ℕ) (es : List MmioEvent) :
    (bus.record n es).events = bus.events ++ es := rfl

section Runs

variable {bus : Bus} {port lane : ℕ}

theorem run_readDword (addr : ℕ) :
    (readDword addr).run Bus.exec bus = some (bus.word 0, bus.record 1 [.read addr (bus.word 0)]) :=
  rfl

theorem run_writeDword (addr : ℕ) (val : U32) :
    (writeDword addr val).run Bus.exec bus = some ((), bus.record 0 [.write addr val]) := rfl

theorem run_waitForRegister (reg : ℕ) (mask value : U32) :
    (intelDeWaitForRegister reg mask value).run Bus.exec bus =
      some ((0, bus.word 0), bus.record 1 [.read reg (bus.word 0)]) := rfl

theorem run_waitForClear (reg : ℕ) (mask : U32) :
    (intelDeWaitForClear reg mask).run Bus.exec bus =
      some (0, bus.record 1 [.read reg (bus.word 0)]) := rfl

def clearFlagEvents (port lane : ℕ) (status : U32) : List MmioEvent :=
  [.read (p2mMsgbusStatus port lane) status,
    .write (p2mMsgbusStatus port lane) ((status &&& ~~~0) ||| (responseReady ||| errorSet))]

theorem run_clearFlag :
    (intelClearResponseReadyFlag port lane).run Bus.exec bus =
      some ((), bus.record 1 (clearFlagEvents port lane (bus.word 0))) := by
  unfold intelClearResponseReadyFlag intelDeRmw
  rw [Prog.run_bind_of (run_readDword _), run_writeDword]
  simp [clearFlagEvents]

def resetEvents (port lane : ℕ) (control status : U32) : List MmioEvent :=
  [.write (m2pMsgbusCtl port lane) transactionReset, .read (m2pMsgbusCtl port lane) control] ++
    clearFlagEvents port lane status

theorem run_busReset :
    (intelCx0BusReset port lane).run Bus.exec bus =
      some ((), bus.record 2 (resetEvents port lane (bus.word 0) (bus.word 1))) := by
  unfold intelCx0BusReset
  rw [Prog.run_bind_of (run_writeDword _ _), Prog.run_bind_of (run_waitForClear _ _),
    if_neg (by simp), run_clearFlag]
  simp [resetEvents]

def taken (command : ℕ) (val : U32) : Prop := val &&& errorSet = 0 ∧ commandType val = command

instance decidableTaken (command : ℕ) (val : U32) : Decidable (taken command val) :=
  inferInstanceAs (Decidable (_ ∧ _))

theorem run_waitForAck_taken {command : ℕ} (h : taken command (bus.word 0)) :
    (intelCx0WaitForAck port command lane).run Bus.exec bus =
      some ((0, bus.word 0), bus.record 1 [.read (p2mMsgbusStatus port lane) (bus.word 0)]) := by
  unfold intelCx0WaitForAck
  rw [Prog.run_bind_of (run_waitForRegister _ _ _)]
  simp [h.1, h.2]

theorem run_waitForAck_refused {command : ℕ} (h : ¬taken command (bus.word 0)) :
    (intelCx0WaitForAck port command lane).run Bus.exec bus =
      some ((-einval, bus.word 0), bus.record 3 (.read (p2mMsgbusStatus port lane) (bus.word 0) ::
        resetEvents port lane (bus.word 1) (bus.word 2))) := by
  unfold intelCx0WaitForAck
  rw [Prog.run_bind_of (run_waitForRegister _ _ _)]
  dsimp only
  rw [if_neg (by simp)]
  by_cases herror : bus.word 0 &&& errorSet ≠ 0
  · rw [if_pos herror, Prog.run_bind_of run_busReset]
    simp
  · rw [if_neg herror, if_pos fun htype => h ⟨not_not.mp herror, htype⟩,
      Prog.run_bind_of run_busReset]
    simp

end Runs

/-! ## Calls -/

inductive BusCall where
  | read (addr : ℕ)
  | write (addr : ℕ) (data : U8) (committed : Bool)
deriving DecidableEq

namespace BusCall

variable (port lane : ℕ)

def once : BusCall → BusProg ℤ
  | read addr => intelCx0ReadOnce port lane addr
  | write addr data committed => intelCx0WriteOnce port lane addr data committed

def command : BusCall → U32
  | read addr => readCommand addr
  | write addr data committed => writeCommand addr data committed

def Succeeds : BusCall → ℤ → Prop
  | read _, r => 0 ≤ r
  | write _ _ _, r => r = 0

/-- The acknowledgement a success stands for; an uncommitted write has none. -/
def ackType : BusCall → Option ℕ
  | read _ => some p2mCommandReadAck
  | write _ _ true => some p2mCommandWriteAck
  | write _ _ false => none

/-- The words before the status word: the control word before the command, and
for a write the one after it. -/
def statusIndex : BusCall → ℕ
  | read _ => 1
  | write _ _ _ => 2

def Accepts : BusCall → U32 → Prop
  | read _, val => taken p2mCommandReadAck val
  | write _ _ true, val => taken p2mCommandWriteAck val
  | write _ _ false, val => val &&& errorSet = 0

def issueEvents (call : BusCall) (bus : Bus) : List MmioEvent :=
  [.read (m2pMsgbusCtl port lane) (bus.word 0), .write (m2pMsgbusCtl port lane) call.command] ++
    match call with
    | read _ => []
    | write _ _ _ => [.read (m2pMsgbusCtl port lane) (bus.word 1)]

theorem once_run_accepted {call : BusCall} {bus : Bus}
    (h : call.Accepts (bus.word call.statusIndex)) : ∃ r n, call.Succeeds r ∧
      (call.once port lane).run Bus.exec bus = some (r, bus.record n
        (call.issueEvents port lane bus ++
          .read (p2mMsgbusStatus port lane) (bus.word call.statusIndex) ::
            clearFlagEvents port lane (bus.word (call.statusIndex + 1)))) := by
  cases call with
  | read addr =>
      have hack : taken p2mCommandReadAck (bus.word 1) := h
      refine ⟨getBits (bus.word 1) 23 16, 3, Int.natCast_nonneg _, ?_⟩
      unfold once intelCx0ReadOnce
      rw [Prog.run_bind_of (run_waitForClear _ _), if_neg (by simp),
        Prog.run_bind_of (run_writeDword _ _),
        Prog.run_bind_of (run_waitForAck_taken (by simpa using hack)), if_neg (by simp),
        Prog.run_bind_of run_clearFlag]
      simp [issueEvents, command, statusIndex]
  | write addr data committed =>
      refine ⟨0, 4, rfl, ?_⟩
      unfold once intelCx0WriteOnce
      rw [Prog.run_bind_of (run_waitForClear _ _), if_neg (by simp),
        Prog.run_bind_of (run_writeDword _ _), Prog.run_bind_of (run_waitForClear _ _),
        if_neg (by simp)]
      cases committed with
      | true =>
          have hack : taken p2mCommandWriteAck (bus.word 2) := h
          rw [if_pos rfl, Prog.run_bind_of (run_waitForAck_taken (by simpa using hack)),
            if_neg (by simp), Prog.run_bind_of run_clearFlag]
          simp [issueEvents, command, statusIndex]
      | false =>
          have hok : bus.word 2 &&& errorSet = 0 := h
          rw [if_neg (by simp), Prog.run_bind_of (run_readDword _),
            if_neg (by simpa using hok), Prog.run_bind_of run_clearFlag]
          simp [issueEvents, command, statusIndex]

theorem once_run_refused {call : BusCall} {bus : Bus}
    (h : ¬call.Accepts (bus.word call.statusIndex)) : ∃ n ws, ws ≠ [] ∧
      (call.once port lane).run Bus.exec bus = some (-einval, bus.record n
        (call.issueEvents port lane bus ++
          .read (p2mMsgbusStatus port lane) (bus.word call.statusIndex) ::
            ws.flatMap fun w : U32 × U32 => resetEvents port lane w.1 w.2)) := by
  cases call with
  | read addr =>
      have hack : ¬taken p2mCommandReadAck (bus.word 1) := h
      refine ⟨6, [(bus.word 2, bus.word 3), (bus.word 4, bus.word 5)], by simp, ?_⟩
      unfold once intelCx0ReadOnce
      rw [Prog.run_bind_of (run_waitForClear _ _), if_neg (by simp),
        Prog.run_bind_of (run_writeDword _ _),
        Prog.run_bind_of (run_waitForAck_refused (by simpa using hack)), if_pos (show -einval < 0 by decide),
        Prog.run_bind_of run_busReset]
      simp [issueEvents, command, statusIndex]
  | write addr data committed =>
      unfold once intelCx0WriteOnce
      rw [Prog.run_bind_of (run_waitForClear _ _), if_neg (by simp),
        Prog.run_bind_of (run_writeDword _ _), Prog.run_bind_of (run_waitForClear _ _),
        if_neg (by simp)]
      cases committed with
      | true =>
          have hack : ¬taken p2mCommandWriteAck (bus.word 2) := h
          refine ⟨7, [(bus.word 3, bus.word 4), (bus.word 5, bus.word 6)], by simp, ?_⟩
          rw [if_pos rfl, Prog.run_bind_of (run_waitForAck_refused (by simpa using hack)),
            if_pos (show -einval < 0 by decide), Prog.run_bind_of run_busReset]
          simp [issueEvents, command, statusIndex]
      | false =>
          have herror : ¬bus.word 2 &&& errorSet = 0 := h
          refine ⟨5, [(bus.word 3, bus.word 4)], by simp, ?_⟩
          rw [if_neg (by simp), Prog.run_bind_of (run_readDword _),
            if_pos (by simpa using herror), Prog.run_bind_of run_busReset]
          simp [issueEvents, command, statusIndex]

end BusCall

/-! ## The handshake -/

/-- Walk the accesses with the control word read last: a command is written only
if that word was not pending. -/
def RespectsPending (ctl : ℕ) : Option U32 → List MmioEvent → Prop
  | _, [] => True
  | last, .read addr val :: es => RespectsPending ctl (if addr = ctl then some val else last) es
  | last, .write addr val :: es =>
      (addr = ctl → val &&& transactionPending ≠ 0 →
        ∀ word, last = some word → word &&& transactionPending = 0) ∧
      RespectsPending ctl last es

theorem respectsPending_of_quiet {ctl : ℕ} {es : List MmioEvent}
    (h : ∀ val, .write ctl val ∈ es → val &&& transactionPending = 0) (last : Option U32) :
    RespectsPending ctl last es := by
  induction es generalizing last with
  | nil => exact trivial
  | cons e es ih =>
      have hrest := ih fun val hmem => h val (List.mem_cons_of_mem _ hmem)
      cases e with
      | read addr val => exact hrest _
      | write addr val =>
          refine ⟨?_, hrest _⟩
          intro haddr hpending
          subst haddr
          exact absurd (h val List.mem_cons_self) hpending

def AckedAfter (status ctl : ℕ) (command : U32) (ack : ℕ) (es : List MmioEvent) : Prop :=
  ∃ pre post val, es = pre ++ .write ctl command :: post ∧ .read status val ∈ post ∧
    acknowledges ack val

namespace BusCall

variable (port lane : ℕ) (call : BusCall) (bus : Bus)

/-- A success was acknowledged, a command waited for the one before it, and
anything else was a failure with the bus reset. -/
structure Handshake (r : ℤ) (es : List MmioEvent) : Prop where
  acked : call.Succeeds r → ∀ ack, call.ackType = some ack →
    AckedAfter (p2mMsgbusStatus port lane) (m2pMsgbusCtl port lane) call.command ack es
  pending : RespectsPending (m2pMsgbusCtl port lane) none es
  failed : ¬call.Succeeds r → (r = -etimedout ∨ r = -einval) ∧
    .write (m2pMsgbusCtl port lane) transactionReset ∈ es

def Sound : Prop :=
  ∃ r bus' es, (call.once port lane).run Bus.exec bus = some (r, bus') ∧
    bus'.events = bus.events ++ es ∧ call.Handshake port lane r es

/-- The words make up for the missing waits: nothing is pending before the
command, and a status word that is taken is ready, or acknowledges the command
when it is read again for clearing its flags. -/
def Answered : Prop :=
  bus.word 0 &&& transactionPending = 0 ∧
    ∀ ack, call.ackType = some ack → taken ack (bus.word call.statusIndex) →
      bus.word call.statusIndex &&& responseReady ≠ 0 ∨
        acknowledges ack (bus.word (call.statusIndex + 1))

theorem status_ne_ctl : p2mMsgbusStatus port lane ≠ m2pMsgbusCtl port lane := by
  unfold p2mMsgbusStatus
  omega

theorem command_pending : call.command &&& transactionPending ≠ 0 := by
  have hbit : call.command.getLsbD 31 = true := by
    cases call <;> simp [command, readCommand, writeCommand, transactionPending]
  intro h0
  have := congrArg (BitVec.getLsbD · 31) h0
  rw [BitVec.getLsbD_and, hbit] at this
  exact absurd this (by decide)

/-- Clearing the flags writes the status register only. -/
theorem not_mem_clearFlagEvents (status val : U32) :
    .write (m2pMsgbusCtl port lane) val ∉ clearFlagEvents port lane status := by
  simp [clearFlagEvents, (status_ne_ctl port lane).symm]

/-- A reset is not a command. -/
theorem eq_reset_of_mem {ws : List (U32 × U32)} {val : U32}
    (h : .write (m2pMsgbusCtl port lane) val ∈
      ws.flatMap fun w : U32 × U32 => resetEvents port lane w.1 w.2) : val = transactionReset := by
  obtain ⟨w, -, hmem⟩ := List.mem_flatMap.mp h
  unfold resetEvents at hmem
  rw [List.mem_append] at hmem
  cases hmem with
  | inl hreset => simpa using hreset
  | inr hclear => exact absurd hclear (not_mem_clearFlagEvents port lane _ _)

/-- Whatever follows the status word, the pending bit is respected exactly if it
was clear before the command. -/
theorem respectsPending_iff (es : List MmioEvent)
    (hquiet : ∀ val, .write (m2pMsgbusCtl port lane) val ∈ es → val &&& transactionPending = 0) :
    RespectsPending (m2pMsgbusCtl port lane) none (call.issueEvents port lane bus ++ es) ↔
      bus.word 0 &&& transactionPending = 0 := by
  have hcommand := call.command_pending
  cases call with
  | read addr =>
      simp [issueEvents, RespectsPending, respectsPending_of_quiet hquiet]
      exact Or.inl hcommand
  | write addr data committed =>
      simp [issueEvents, RespectsPending, respectsPending_of_quiet hquiet]
      exact Or.inl hcommand

/-- After a command that ended in a success the status register was read twice:
for the acknowledgement and to clear its flags. -/
theorem ackedAfter_iff (ack : ℕ) (val val' : U32) :
    AckedAfter (p2mMsgbusStatus port lane) (m2pMsgbusCtl port lane) call.command ack
        (call.issueEvents port lane bus ++
          .read (p2mMsgbusStatus port lane) val :: clearFlagEvents port lane val') ↔
      acknowledges ack val ∨ acknowledges ack val' := by
  have hne := status_ne_ctl port lane
  constructor
  · intro h
    obtain ⟨pre, post, word, heq, hmem, hack⟩ := h
    have hes : MmioEvent.read (p2mMsgbusStatus port lane) word ∈ call.issueEvents port lane bus ++
        .read (p2mMsgbusStatus port lane) val :: clearFlagEvents port lane val' := by
      rw [heq]
      exact List.mem_append_right _ (List.mem_cons_of_mem _ hmem)
    have hword : word = val ∨ word = val' := by
      cases call <;> simpa [issueEvents, clearFlagEvents, hne] using hes
    cases hword with
    | inl h => exact Or.inl (h ▸ hack)
    | inr h => exact Or.inr (h ▸ hack)
  · intro h
    have hpost : ∃ word ∈ [val, val'], acknowledges ack word := by simpa using h
    obtain ⟨word, hmem, hack⟩ := hpost
    refine ⟨[.read (m2pMsgbusCtl port lane) (bus.word 0)], _, word, rfl, ?_, hack⟩
    apply List.mem_append_right
    simpa [clearFlagEvents] using hmem

variable {port lane call bus}

theorem accepts_iff {ack : ℕ} (h : call.ackType = some ack) (val : U32) :
    call.Accepts val ↔ taken ack val := by
  cases call with
  | read addr =>
      obtain rfl := Option.some.inj h
      exact Iff.rfl
  | write addr data committed =>
      cases committed with
      | true =>
          obtain rfl := Option.some.inj h
          exact Iff.rfl
      | false => cases h

theorem not_succeeds_einval : ¬call.Succeeds (-einval) := by
  cases call <;> simp [Succeeds, einval]

theorem handshake_accepted_iff {r : ℤ} (hr : call.Succeeds r)
    (h : call.Accepts (bus.word call.statusIndex)) :
    call.Handshake port lane r (call.issueEvents port lane bus ++
        .read (p2mMsgbusStatus port lane) (bus.word call.statusIndex) ::
          clearFlagEvents port lane (bus.word (call.statusIndex + 1))) ↔
      call.Answered bus := by
  have hpending := call.respectsPending_iff port lane bus
    (.read (p2mMsgbusStatus port lane) (bus.word call.statusIndex) ::
      clearFlagEvents port lane (bus.word (call.statusIndex + 1))) (by
        intro val hmem
        cases hmem with
        | tail _ hmem => exact absurd hmem (not_mem_clearFlagEvents port lane _ _))
  have hready : ∀ ack, call.ackType = some ack →
      (acknowledges ack (bus.word call.statusIndex) ↔
        bus.word call.statusIndex &&& responseReady ≠ 0) := by
    intro ack hack
    exact and_iff_left ((accepts_iff hack _).mp h)
  constructor
  · intro hs
    refine ⟨hpending.mp hs.pending, ?_⟩
    intro ack hack _
    rw [← hready ack hack]
    exact (call.ackedAfter_iff port lane bus ack _ _).mp (hs.acked hr ack hack)
  · intro ha
    refine ⟨?_, hpending.mpr ha.1, fun hfail => absurd hr hfail⟩
    intro _ ack hack
    rw [ackedAfter_iff, hready ack hack]
    exact ha.2 ack hack ((accepts_iff hack _).mp h)

theorem handshake_refused_iff {ws : List (U32 × U32)} (hws : ws ≠ [])
    (h : ¬call.Accepts (bus.word call.statusIndex)) :
    call.Handshake port lane (-einval) (call.issueEvents port lane bus ++
        .read (p2mMsgbusStatus port lane) (bus.word call.statusIndex) ::
          ws.flatMap fun w : U32 × U32 => resetEvents port lane w.1 w.2) ↔
      call.Answered bus := by
  have hpending := call.respectsPending_iff port lane bus
    (.read (p2mMsgbusStatus port lane) (bus.word call.statusIndex) ::
      ws.flatMap fun w : U32 × U32 => resetEvents port lane w.1 w.2) (by
        intro val hmem
        cases hmem with
        | tail _ hmem =>
            rw [eq_reset_of_mem port lane hmem]
            decide)
  constructor
  · intro hs
    refine ⟨hpending.mp hs.pending, ?_⟩
    intro ack hack htaken
    exact absurd ((accepts_iff hack _).mpr htaken) h
  · intro ha
    refine ⟨fun hs => absurd hs not_succeeds_einval, hpending.mpr ha.1, ?_⟩
    intro _
    refine ⟨Or.inr rfl, ?_⟩
    apply List.mem_append_right
    apply List.mem_cons_of_mem
    obtain ⟨w, ws, rfl⟩ := List.exists_cons_of_ne_nil hws
    simp [resetEvents]

theorem sound_iff_answered : call.Sound port lane bus ↔ call.Answered bus := by
  have hrun : ∃ r n es, (call.once port lane).run Bus.exec bus = some (r, bus.record n es) ∧
      (call.Handshake port lane r es ↔ call.Answered bus) := by
    by_cases h : call.Accepts (bus.word call.statusIndex)
    · obtain ⟨r, n, hr, hrun⟩ := once_run_accepted port lane h
      exact ⟨r, n, _, hrun, handshake_accepted_iff hr h⟩
    · obtain ⟨n, ws, hws, hrun⟩ := once_run_refused port lane h
      exact ⟨_, n, _, hrun, handshake_refused_iff hws h⟩
  obtain ⟨r, n, es, hrun, hiff⟩ := hrun
  constructor
  · intro h
    obtain ⟨r', bus', es', hrun', hes, hsound⟩ := h
    obtain ⟨rfl, rfl⟩ := Prod.mk.inj (Option.some.inj (hrun.symm.trans hrun'))
    rw [Bus.events_record, List.append_cancel_left_eq] at hes
    exact hiff.mp (hes ▸ hsound)
  · intro h
    exact ⟨r, _, es, hrun, rfl, hiff.mpr h⟩

end BusCall

/-! ## Sequences of calls -/

def BusCall.after (port lane : ℕ) (call : BusCall) (bus : Bus) : Bus :=
  (((call.once port lane).run Bus.exec bus).map Prod.snd).getD bus

def EachCall (P : ℕ → ℕ → BusCall → Bus → Prop) : List (ℕ × ℕ × BusCall) → Bus → Prop
  | [], _ => True
  | c :: cs, bus => P c.1 c.2.1 c.2.2 bus ∧ EachCall P cs (c.2.2.after c.1 c.2.1 bus)

/-- Whatever the hardware answers and whatever was done before: the calls keep to
the handshake exactly if the words make up for the waits. -/
theorem calls_sound_iff (calls : List (ℕ × ℕ × BusCall)) (bus : Bus) :
    EachCall (fun port lane call bus => call.Sound port lane bus) calls bus ↔
      EachCall (fun _ _ call bus => call.Answered bus) calls bus := by
  induction calls generalizing bus with
  | nil => exact Iff.rfl
  | cons c cs ih => exact and_congr BusCall.sound_iff_answered (ih _)

/-- A read acknowledgement with data 1 that is not ready is taken as the data, and
a command is written while another is pending. -/
theorem unready_acknowledge_taken :
    (∃ bus', (intelCx0ReadOnce 0 0 0x10).run Bus.exec (constBus 0x20010000) = some (1, bus')) ∧
      ¬(BusCall.read 0x10).Sound 0 0 (constBus 0x20010000) ∧
      ¬(BusCall.read 0x10).Sound 0 0 (constBus 0xA0010000) := by
  refine ⟨?_, ?_, ?_⟩
  · have hrun : (((intelCx0ReadOnce 0 0 0x10).run Bus.exec (constBus 0x20010000)).map Prod.fst) =
        some 1 := by
      decide +kernel
    obtain ⟨⟨r, bus'⟩, hrun, rfl⟩ := Option.map_eq_some_iff.mp hrun
    exact ⟨bus', hrun⟩
  · rw [BusCall.sound_iff_answered]
    intro h
    exact absurd (h.2 _ rfl (by decide)) (by unfold acknowledges; decide)
  · rw [BusCall.sound_iff_answered]
    intro h
    exact absurd h.1 (by decide)

end Genlock.Vsyncalter
