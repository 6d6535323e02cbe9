import Genlock.Vsyncalter.Kinds

/-! # The message bus

The helpers below `cx0Read` and `cx0Write`, over single MMIO accesses whose
answers are arbitrary. A transaction writes its command to the control register
of the lane and looks at the status register once; three tries are made.
-/

namespace Genlock.Vsyncalter

/-! ## MMIO accesses -/

inductive MmioOp where
  | read (addr : ℕ)
  | write (addr : ℕ) (val : U32)
deriving DecidableEq

@[reducible] def MmioOp.Ans : MmioOp → Type
  | .read _ => U32
  | .write _ _ => Unit

abbrev BusProg := Prog MmioOp MmioOp.Ans

namespace MsgBus

def readDword (addr : ℕ) : BusProg U32 := Prog.perform (MmioOp.read addr)

def writeDword (addr : ℕ) (val : U32) : BusProg Unit := Prog.perform (MmioOp.write addr val)

/-! ### Registers and words -/

/-- `XELPDP_PORT_M2P_MSGBUS_CTL`: two ranges of evenly spaced ports. -/
def m2pMsgbusCtl (port lane : ℕ) : ℕ :=
  (if port < 3 then 0x64040 + port * 0x100 else 0x16F240 + (port - 3) * 0x200) + lane * 4

def p2mMsgbusStatus (port lane : ℕ) : ℕ := m2pMsgbusCtl port lane + 8

def transactionPending : U32 := 1 <<< 31
def transactionReset : U32 := 1 <<< 15
def m2pCommandRead : U32 := 3 <<< 27
def m2pCommandWriteUncommitted : U32 := 1 <<< 27
def m2pCommandWriteCommitted : U32 := 2 <<< 27
def m2pAddress (addr : ℕ) : U32 := BitVec.ofNat 32 addr &&& 0xFFF
def m2pData (data : U8) : U32 := data.setWidth 32 <<< 16
def responseReady : U32 := 1 <<< 31
def errorSet : U32 := 1 <<< 15
def p2mCommandReadAck : ℕ := 4
def p2mCommandWriteAck : ℕ := 5

def commandType (val : U32) : ℕ := getBits val 30 27

def etimedout : ℤ := 110
def einval : ℤ := 22

def readCommand (addr : ℕ) : U32 := transactionPending ||| m2pCommandRead ||| m2pAddress addr

def writeCommand (addr : ℕ) (data : U8) (committed : Bool) : U32 :=
  transactionPending ||| (if committed then m2pCommandWriteCommitted else m2pCommandWriteUncommitted) |||
    m2pData data ||| m2pAddress addr

/-! ### Helpers -/

/-- `__intel_wait_for_register_fw`, and the wrappers around it: the register is
read once, and what it holds is not compared with anything. -/
def intelDeWaitForRegister (reg : ℕ) (_mask _value : U32) : BusProg (ℤ × U32) := do
  let val ← readDword reg
  return (0, val)

def intelDeWaitForClear (reg : ℕ) (mask : U32) : BusProg ℤ := do
  let out ← intelDeWaitForRegister reg mask 0
  return out.1

def intelDeRmw (reg : ℕ) (clear set : U32) : BusProg Unit := do
  let old ← readDword reg
  writeDword reg ((old &&& ~~~clear) ||| set)

def intelClearResponseReadyFlag (port lane : ℕ) : BusProg Unit :=
  intelDeRmw (p2mMsgbusStatus port lane) 0 (responseReady ||| errorSet)

def intelCx0BusReset (port lane : ℕ) : BusProg Unit := do
  writeDword (m2pMsgbusCtl port lane) transactionReset
  let status ← intelDeWaitForClear (m2pMsgbusCtl port lane) transactionReset
  if status ≠ 0 then return ()
  else intelClearResponseReadyFlag port lane

/-- The status word and how it is taken. -/
def intelCx0WaitForAck (port command lane : ℕ) : BusProg (ℤ × U32) := do
  let out ← intelDeWaitForRegister (p2mMsgbusStatus port lane) responseReady responseReady
  let val := out.2
  if out.1 ≠ 0 then return (-etimedout, val)
  else if val &&& errorSet ≠ 0 then
    intelCx0BusReset port lane
    return (-einval, val)
  else if commandType val ≠ command then
    intelCx0BusReset port lane
    return (-einval, val)
  else return (0, val)

/-- `__intel_cx0_read_once`: the data byte, or a negative status. -/
def intelCx0ReadOnce (port lane addr : ℕ) : BusProg ℤ := do
  let status ← intelDeWaitForClear (m2pMsgbusCtl port lane) transactionPending
  if status ≠ 0 then
    intelCx0BusReset port lane
    return -etimedout
  else
    writeDword (m2pMsgbusCtl port lane) (readCommand addr)
    let ack ← intelCx0WaitForAck port p2mCommandReadAck lane
    if ack.1 < 0 then
      intelCx0BusReset port lane
      return ack.1
    else
      intelClearResponseReadyFlag port lane
      return (getBits ack.2 23 16 : ℕ)

/-- `__intel_cx0_read` with `tries` left; it returns 0 when they are used up. -/
def intelCx0Read (port lane addr : ℕ) : ℕ → BusProg U8
  | 0 => return 0
  | tries + 1 => do
      let status ← intelCx0ReadOnce port lane addr
      if status ≥ 0 then return BitVec.ofInt 8 status
      else intelCx0Read port lane addr tries

def intelCx0WriteOnce (port lane addr : ℕ) (data : U8) (committed : Bool) : BusProg ℤ := do
  let status ← intelDeWaitForClear (m2pMsgbusCtl port lane) transactionPending
  if status ≠ 0 then
    intelCx0BusReset port lane
    return -etimedout
  else
    writeDword (m2pMsgbusCtl port lane) (writeCommand addr data committed)
    let status ← intelDeWaitForClear (m2pMsgbusCtl port lane) transactionPending
    if status ≠ 0 then
      intelCx0BusReset port lane
      return -etimedout
    else if committed then
      let ack ← intelCx0WaitForAck port p2mCommandWriteAck lane
      if ack.1 < 0 then
        intelCx0BusReset port lane
        return -einval
      else
        intelClearResponseReadyFlag port lane
        return 0
    else
      let val ← readDword (p2mMsgbusStatus port lane)
      if val &&& errorSet ≠ 0 then
        intelCx0BusReset port lane
        return -einval
      else
        intelClearResponseReadyFlag port lane
        return 0

/-- `__intel_cx0_write` with `tries` left; nothing tells that they were used up. -/
def intelCx0Write (port lane addr : ℕ) (data : U8) (committed : Bool) : ℕ → BusProg Unit
  | 0 => return ()
  | tries + 1 => do
      let status ← intelCx0WriteOnce port lane addr data committed
      if status = 0 then return ()
      else intelCx0Write port lane addr data committed tries

end MsgBus

def RegOp.low : (o : RegOp) → BusProg o.Ans
  | .readReg addr => MsgBus.readDword addr
  | .writeReg addr val => MsgBus.writeDword addr val
  | .cx0Read port lane addr => MsgBus.intelCx0Read port lane addr 3
  | .cx0Write port lane addr data committed => MsgBus.intelCx0Write port lane addr data committed 3

/-! ## The bus with its transcript -/

inductive MmioEvent where
  | read (addr : ℕ) (val : U32)
  | write (addr : ℕ) (val : U32)
deriving DecidableEq, Repr

/-- A register access of a PHY and the MMIO accesses it was made of. -/
structure Transaction where
  op : RegOp
  events : List MmioEvent

/-- What every read answers, in order, and the history: the accesses of the
current transaction and the transactions of the last step, if there was one. -/
structure Bus where
  answers : ℕ → U32
  reads : ℕ
  events : List MmioEvent
  lastStep : Option (List Transaction)

def Bus.exec : (o : MmioOp) → Bus → Option (o.Ans × Bus)
  | .read addr, bus => some (bus.answers bus.reads, { bus with
      reads := bus.reads + 1
      events := bus.events ++ [.read addr (bus.answers bus.reads)] })
  | .write addr val, bus => some ((), { bus with events := bus.events ++ [.write addr val] })

def busDevice : Device RegOp RegOp.Ans Bus where
  exec o bus := (o.low.run Bus.exec { bus with events := [] }).map fun r =>
    (r.1, { r.2 with lastStep := bus.lastStep.map (· ++ [⟨o, r.2.events⟩]) })
  elapse _ bus := bus

/-- The operations on the bus; a call of `program_mmio` begins a step. -/
def busExec {Φ : Type} : (o : PhyOp Φ RegOp) → World Φ Bus →
    Option (o.Ans RegOp.Ans × World Φ Bus)
  | .enter _, w => some ((), { w with hw := { w.hw with lastStep := some [] } })
  | o, w => execOp busDevice (fun _ => none) o w

def acknowledges (command : ℕ) (val : U32) : Prop :=
  val &&& MsgBus.responseReady ≠ 0 ∧ val &&& MsgBus.errorSet = 0 ∧ MsgBus.commandType val = command

open MsgBus in
/-- Among the accesses there is a command of the transaction with the status word
read after it, which acknowledges it; an uncommitted write needs none, but no
error either. -/
def Transaction.Acknowledged (t : Transaction) : Prop :=
  match t.op with
  | .readReg _ | .writeReg _ _ => True
  | .cx0Read port lane addr => ∃ val, acknowledges p2mCommandReadAck val ∧
      [.write (m2pMsgbusCtl port lane) (readCommand addr), .read (p2mMsgbusStatus port lane) val] <:+:
        t.events
  | .cx0Write port lane addr data true => ∃ pending val, acknowledges p2mCommandWriteAck val ∧
      [.write (m2pMsgbusCtl port lane) (writeCommand addr data true),
        .read (m2pMsgbusCtl port lane) pending, .read (p2mMsgbusStatus port lane) val] <:+: t.events
  | .cx0Write port lane addr data false => ∃ pending val, val &&& errorSet = 0 ∧
      [.write (m2pMsgbusCtl port lane) (writeCommand addr data false),
        .read (m2pMsgbusCtl port lane) pending, .read (p2mMsgbusStatus port lane) val] <:+: t.events

def Bus.LastStepAcknowledged (bus : Bus) : Prop :=
  ∀ ts, bus.lastStep = some ts → ∀ t ∈ ts, t.Acknowledged

/-! ## Steps and results -/

section Steps

variable {Φ Dev : Type} {DA : Dev → Type} {α : Type} {g : Bool}

def stepDiscipline (Φ Dev : Type) (DA : Dev → Type) :
    Discipline (PhyOp Φ Dev) (PhyOp.Ans DA) Bool where
  requires _ _ := True
  answers _ _ _ := True
  next o _ g := match o with
    | .enter _ => true
    | _ => g

def StepFree (p : PhyProg Φ Dev DA α) : Prop :=
  ∀ g, p.Along (stepDiscipline Φ Dev DA) (fun _ g' => g' = g) g

structure PhyClass.NeverFails (cls : PhyClass Φ Dev DA) : Prop where
  reads : StepFree cls.readRegisters
  clock : StepFree cls.calculatePllClock
  dividers : ∀ x g, (cls.calculateFeedbackDividers x).Along (stepDiscipline Φ Dev DA)
    (fun status _ => status = 0) g
  program : ∀ mod g, (cls.programMmio mod).Along (stepDiscipline Φ Dev DA)
    (fun status _ => status = 0) g

variable {cls : PhyClass Φ Dev DA} (h : cls.NeverFails)

include h

theorem stepBody_returns (clock : ℚ) (steps : ℕ) (delay : ℤ) (commit : Bool) (g : Bool) :
    (stepBody cls clock steps delay commit).Along (stepDiscipline Φ Dev DA)
      (fun status _ => status = 0) g := by
  have hwait (g : Bool) : (if steps > 1 then osUsleep (delay * 1000) >>= fun _ => .pure 0
      else .pure 0 : PhyProg Φ Dev DA ℤ).Along (stepDiscipline Φ Dev DA)
        (fun status _ => status = 0) g := by
    split
    · exact ⟨trivial, fun _ _ => rfl⟩
    · exact rfl
  refine (h.dividers clock g).bind fun status g' hstatus => ?_
  rw [if_neg (not_not.mpr hstatus)]
  cases commit with
  | false => exact hwait g'
  | true =>
      refine ⟨trivial, fun _ _ => ?_⟩
      refine (h.program true true).bind fun status g' hstatus => ?_
      rw [if_neg (not_not.mpr hstatus)]
      exact hwait g'

theorem stepLoop_returns (target size : ℚ) (steps : ℕ) (delay : ℤ) (commit : Bool) (left : ℕ) (x : ℚ)
    (g : Bool) :
    (stepLoop cls target size steps delay commit left x).Along (stepDiscipline Φ Dev DA)
      (fun status _ => status = 0) g := by
  induction left generalizing x g with
  | zero => exact rfl
  | succ left ih =>
      refine ⟨trivial, fun done _ => ?_⟩
      cases done with
      | true => exact rfl
      | false =>
          refine (stepBody_returns h _ _ _ _ _).bind fun status g' hstatus => ?_
          rw [if_neg (not_not.mpr hstatus)]
          exact ih _ _

/-- A failure is reported only before the first step. -/
theorem setPllClockFrom_returns (current target shift : ℚ) (delay : ℤ) (commit : Bool) (g : Bool) :
    (setPllClockFrom cls current target shift delay commit).Along (stepDiscipline Φ Dev DA)
      (fun status g' => status = 0 ∨ g' = g) g := by
  unfold setPllClockFrom
  split
  · exact Or.inr rfl
  · split
    · exact trivial
    · exact (stepLoop_returns h _ _ _ _ _ _ _ g).mono fun _ _ hstatus => Or.inl hstatus

theorem setPllClock_returns (target shift : ℚ) (delay : ℤ) :
    (setPllClock cls target shift delay).Along (stepDiscipline Φ Dev DA)
      (fun status g' => status = 0 ∨ g' = false) false := by
  unfold setPllClock
  split
  · exact Or.inr rfl
  · refine (h.reads false).bind fun _ g' hg' => ?_
    refine (h.clock g').bind fun current g'' hg'' => ?_
    rw [hg'', hg']
    exact setPllClockFrom_returns h _ _ _ _ _ false

theorem programPhy_returns (td shift shift2 : ℚ) (threshold delay : ℤ) (reset commit : Bool) :
    (programPhy cls td shift shift2 threshold delay reset commit).Along (stepDiscipline Φ Dev DA)
      (fun status g' => status = 0 ∨ g' = false) false := by
  unfold programPhy
  dsimp only
  split
  · exact trivial
  · refine (h.reads false).bind fun _ g' hg' => ?_
    refine (h.clock g').bind fun clock g'' hg'' => ?_
    rw [hg'', hg']
    refine ⟨trivial, fun _ _ => ?_⟩
    show Prog.Along _ (ite _ _ _) _ false
    split
    · exact Or.inl rfl
    · refine (setPllClockFrom_returns h _ _ _ _ _ false).bind fun status g' hstatus => ?_
      by_cases h0 : status ≠ 0
      · rw [if_pos h0]
        exact Or.inr (hstatus.resolve_left h0)
      · rw [if_neg h0]
        cases reset with
        | false => exact Or.inl rfl
        | true => exact ⟨trivial, fun _ _ => ⟨trivial, fun _ _ => Or.inl rfl⟩⟩

end Steps

/-- A run on the bus whose ghost state says that no step began has no last step. -/
theorem run_lastStep {Φ α : Type} {p : PhyProg Φ RegOp RegOp.Ans α} {Q : α → Bool → Prop}
    (hp : p.Along (stepDiscipline Φ RegOp RegOp.Ans) Q false) {w : World Φ Bus} {r : α × World Φ Bus}
    (hw : w.hw.lastStep = none) (hrun : p.run busExec w = some r) :
    ∃ g, Q r.1 g ∧ (g = false → r.2.hw.lastStep = none) := by
  refine Prog.Along.run (R := fun g w => g = false → w.hw.lastStep = none) ?_ hp (fun _ => hw) hrun
  intro o g w r hR _ hexec
  refine ⟨trivial, fun hg => ?_⟩
  cases o with
  | enter mod => exact absurd hg (by simp [stepDiscipline])
  | await => exact absurd hexec (by simp [busExec, execOp])
  | dev d =>
      obtain ⟨r', hdev, rfl⟩ := Option.map_eq_some_iff.mp hexec
      obtain ⟨r'', -, rfl⟩ := Option.map_eq_some_iff.mp hdev
      show w.hw.lastStep.map _ = none
      rw [hR hg]
      rfl
  | _ =>
      obtain rfl := Option.some.inj hexec
      exact hR hg

end Genlock.Vsyncalter
