import Genlock.Vsyncalter.Handshake

/-! # Read-modify-write over a bus that fails

`intel_cx0_rmw` with the message bus below it and the lanes of a PHY behind the
bus. Every try of a read or a write has an outcome of its own: the status word
the lane answers with, and whether a byte was stored.
-/

namespace Genlock.Vsyncalter

open MsgBus

/-! ## Words on the bus -/

/-- The register that a command addresses: the field has 12 bits. -/
def wordAddress (word : U32) : ℕ := getBits word 11 0

def wordData (word : U32) : U8 := BitVec.ofNat 8 (getBits word 23 16)

theorem getBits_or {w : ℕ} (x y : BitVec w) (h l : ℕ) :
    getBits (x ||| y) h l = getBits x h l ||| getBits y h l := by
  unfold getBits
  rw [← BitVec.toNat_or]
  congr 1
  apply BitVec.eq_of_getLsbD_eq
  intro i hi
  simp [hi]

theorem toNat_m2pAddress (addr : ℕ) : (m2pAddress addr).toNat = addr % 2 ^ 12 := by
  have hmod : addr % 2 ^ 32 % 2 ^ 12 = addr % 2 ^ 12 := Nat.mod_mod_of_dvd _ (by decide)
  unfold m2pAddress
  rw [BitVec.toNat_and, BitVec.toNat_ofNat, ← hmod]
  exact Nat.and_two_pow_sub_one_eq_mod _ 12

theorem toNat_m2pData (data : U8) : (m2pData data).toNat = data.toNat * 2 ^ 16 := by
  have hdata := data.isLt
  unfold m2pData
  rw [BitVec.toNat_shiftLeft, BitVec.toNat_setWidth, Nat.shiftLeft_eq,
    Nat.mod_eq_of_lt (by omega), Nat.mod_eq_of_lt (by omega)]

theorem fields_m2pAddress (addr : ℕ) : commandType (m2pAddress addr) = 0 ∧
    getBits (m2pAddress addr) 23 16 = 0 ∧ getBits (m2pAddress addr) 11 0 = addr % 2 ^ 12 := by
  unfold commandType
  rw [getBits_eq, getBits_eq, getBits_eq, toNat_m2pAddress]
  omega

theorem fields_m2pData (data : U8) : commandType (m2pData data) = 0 ∧
    getBits (m2pData data) 23 16 = data.toNat ∧ getBits (m2pData data) 11 0 = 0 := by
  have hdata := data.isLt
  unfold commandType
  rw [getBits_eq, getBits_eq, getBits_eq, toNat_m2pData]
  omega

theorem fields_readCommand (addr : ℕ) :
    commandType (readCommand addr) = 3 ∧ wordAddress (readCommand addr) = addr % 2 ^ 12 := by
  have haddr := fields_m2pAddress addr
  unfold commandType at haddr
  unfold commandType wordAddress readCommand
  rw [getBits_or, getBits_or, getBits_or, getBits_or, haddr.1, haddr.2.2]
  refine ⟨rfl, ?_⟩
  rw [show getBits transactionPending 11 0 ||| getBits m2pCommandRead 11 0 = 0 from rfl,
    Nat.zero_or]

theorem fields_writeCommand (addr : ℕ) (data : U8) (committed : Bool) :
    commandType (writeCommand addr data committed) = (if committed then 2 else 1) ∧
      wordAddress (writeCommand addr data committed) = addr % 2 ^ 12 ∧
      wordData (writeCommand addr data committed) = data := by
  have haddr := fields_m2pAddress addr
  have hdata := fields_m2pData data
  unfold commandType at haddr hdata
  unfold commandType wordAddress wordData writeCommand
  simp only [getBits_or, haddr, hdata]
  cases committed with
  | true =>
      have hzero : getBits transactionPending 11 0 ||| getBits m2pCommandWriteCommitted 11 0 = 0 := rfl
      have hhigh : getBits transactionPending 23 16 ||| getBits m2pCommandWriteCommitted 23 16 = 0 := rfl
      rw [if_pos rfl, if_pos rfl, hzero, hhigh]
      exact ⟨rfl, by simp, by simp⟩
  | false =>
      have hzero : getBits transactionPending 11 0 ||| getBits m2pCommandWriteUncommitted 11 0 = 0 := rfl
      have hhigh : getBits transactionPending 23 16 ||| getBits m2pCommandWriteUncommitted 23 16 = 0 := rfl
      rw [if_neg Bool.false_ne_true, if_neg Bool.false_ne_true, hzero, hhigh]
      exact ⟨rfl, by simp, by simp⟩

def dataWord (data : U8) : U32 := responseReady ||| (4 : U32) <<< 27 ||| m2pData data

theorem taken_dataWord (data : U8) : taken p2mCommandReadAck (dataWord data) := by
  constructor
  · have hbit : (dataWord data).getLsbD 15 = false := by
      simp [dataWord, responseReady, m2pData]
    rw [show errorSet = BitVec.twoPow 32 15 by decide, BitVec.and_twoPow, hbit]
    rfl
  · unfold commandType dataWord
    rw [getBits_or, getBits_or, show getBits (m2pData data) 30 27 = 0 from (fields_m2pData data).1]
    rfl

theorem getBits_dataWord (data : U8) : getBits (dataWord data) 23 16 = data.toNat := by
  unfold dataWord
  rw [getBits_or, getBits_or, (fields_m2pData data).2.1]
  exact Nat.zero_or _

/-! ## The lanes behind the bus -/

/-- What becomes of a try of a read: the data byte, or a status word that does
not acknowledge it. -/
inductive ReadTry where
  | answered
  | refused (status : U32) (h : ¬taken p2mCommandReadAck status)

def ReadTry.fails : ReadTry → Bool
  | answered => false
  | refused _ _ => true

/-- What becomes of a try of a write: any status word, and the byte is stored or
is not. -/
structure WriteTry where
  status : U32
  stored : Bool

/-- A lane: its registers, the status word it shows, the outcomes of all tries
and how many commands it has seen. -/
structure Lane where
  regs : ℕ → U8
  status : U32
  readTries : ℕ → ReadTry
  writeTries : ℕ → WriteTry
  readsSeen : ℕ
  writesSeen : ℕ

abbrev Lanes := ℕ → Lane

namespace Lane

def readStatus (l : Lane) (addr : ℕ) : U32 :=
  match l.readTries l.readsSeen with
  | .answered => dataWord (l.regs addr)
  | .refused status _ => status

def read (l : Lane) (addr : ℕ) : Lane :=
  { l with status := l.readStatus addr, readsSeen := l.readsSeen + 1 }

def write (l : Lane) (addr : ℕ) (data : U8) : Lane :=
  { l with
    regs := if (l.writeTries l.writesSeen).stored then Function.update l.regs addr data else l.regs
    status := (l.writeTries l.writesSeen).status
    writesSeen := l.writesSeen + 1 }

/-- A word in the control register: a pending command starts a transaction, a
reset does not touch the registers. -/
def control (l : Lane) (word : U32) : Lane :=
  if word &&& transactionPending = 0 then l
  else if commandType word = 3 then l.read (wordAddress word)
  else l.write (wordAddress word) (wordData word)

def clearFlags (l : Lane) (word : U32) : Lane :=
  { l with status := l.status &&& ~~~(word &&& (responseReady ||| errorSet)) }

theorem control_readCommand (l : Lane) (addr : ℕ) :
    l.control (readCommand addr) = l.read (addr % 2 ^ 12) := by
  have hfields := fields_readCommand addr
  have hpending : readCommand addr &&& transactionPending ≠ 0 :=
    BusCall.command_pending (.read addr)
  unfold control
  rw [if_neg hpending, if_pos hfields.1, hfields.2]

theorem control_writeCommand (l : Lane) (addr : ℕ) (data : U8) (committed : Bool) :
    l.control (writeCommand addr data committed) = l.write (addr % 2 ^ 12) data := by
  have hfields := fields_writeCommand addr data committed
  have htype : commandType (writeCommand addr data committed) ≠ 3 := by
    rw [hfields.1]
    cases committed <;> decide
  have hpending : writeCommand addr data committed &&& transactionPending ≠ 0 :=
    BusCall.command_pending (.write addr data committed)
  unfold control
  rw [if_neg hpending, if_neg htype, hfields.2.1, hfields.2.2]

theorem control_reset (l : Lane) : l.control transactionReset = l := if_pos (by decide)

/-- The three tries that a read makes from here all fail. -/
def ReadFails (l : Lane) : Prop := ∀ i < 3, (l.readTries (l.readsSeen + i)).fails = true

instance decidableReadFails (l : Lane) : Decidable l.ReadFails :=
  inferInstanceAs (Decidable (∀ i < 3, _))

end Lane

def laneAt (reg : ℕ → ℕ) (addr : ℕ) : Option ℕ := [0, 1].find? fun lane => reg lane = addr

/-- The accesses to the registers of a port. Nothing is ever pending. -/
def Lanes.exec (port : ℕ) : (o : MmioOp) → Lanes → Option (o.Ans × Lanes)
  | .read addr, ls => some (match laneAt (p2mMsgbusStatus port) addr with
      | some lane => (ls lane).status
      | none => 0, ls)
  | .write addr val, ls => some ((), match laneAt (m2pMsgbusCtl port) addr with
      | some lane => Function.update ls lane ((ls lane).control val)
      | none => match laneAt (p2mMsgbusStatus port) addr with
        | some lane => Function.update ls lane ((ls lane).clearFlags val)
        | none => ls)

/-! ### Accesses of one lane -/

section Runs

variable {port lane : ℕ} {ls : Lanes}

theorem m2pMsgbusCtl_eq (port lane : ℕ) :
    m2pMsgbusCtl port lane = m2pMsgbusCtl port 0 + lane * 4 := rfl

/-- Registers of one kind at different addresses are told apart. -/
theorem laneAt_reg {reg : ℕ → ℕ} (hreg : reg 0 ≠ reg 1) (hlane : lane < 2) :
    laneAt reg (reg lane) = some lane := by
  have h : lane = 0 ∨ lane = 1 := by omega
  unfold laneAt
  cases h with
  | inl h => subst h; simp
  | inr h => subst h; simp [hreg]

theorem m2pMsgbusCtl_ne : m2pMsgbusCtl port 0 ≠ m2pMsgbusCtl port 1 := by
  rw [m2pMsgbusCtl_eq port 1]
  omega

theorem laneAt_ctl (hlane : lane < 2) :
    laneAt (m2pMsgbusCtl port) (m2pMsgbusCtl port lane) = some lane :=
  laneAt_reg m2pMsgbusCtl_ne hlane

theorem laneAt_status (hlane : lane < 2) :
    laneAt (p2mMsgbusStatus port) (p2mMsgbusStatus port lane) = some lane :=
  laneAt_reg (fun h => m2pMsgbusCtl_ne (Nat.add_right_cancel h)) hlane

/-- The status registers come after the control registers. -/
theorem laneAt_ctl_status : laneAt (m2pMsgbusCtl port) (p2mMsgbusStatus port lane) = none := by
  unfold laneAt p2mMsgbusStatus
  simp only [List.find?_eq_none, List.mem_cons, List.not_mem_nil, or_false, decide_eq_true_eq]
  intro x hx
  rw [m2pMsgbusCtl_eq port x, m2pMsgbusCtl_eq port lane]
  omega

variable (port) (ls) (hlane : lane < 2)

include hlane

theorem read_status : (readDword (p2mMsgbusStatus port lane)).run (Lanes.exec port) ls =
    some ((ls lane).status, ls) := by
  unfold readDword
  rw [Prog.run_perform, Lanes.exec, laneAt_status hlane]

theorem write_control (val : U32) : (writeDword (m2pMsgbusCtl port lane) val).run (Lanes.exec port) ls =
    some ((), Function.update ls lane ((ls lane).control val)) := by
  unfold writeDword
  rw [Prog.run_perform, Lanes.exec, laneAt_ctl hlane]

theorem write_status (val : U32) : (writeDword (p2mMsgbusStatus port lane) val).run (Lanes.exec port) ls =
    some ((), Function.update ls lane ((ls lane).clearFlags val)) := by
  unfold writeDword
  rw [Prog.run_perform, Lanes.exec, laneAt_ctl_status, laneAt_status hlane]

omit hlane in
theorem wait_control (mask : U32) :
    (intelDeWaitForClear (m2pMsgbusCtl port lane) mask).run (Lanes.exec port) ls = some (0, ls) := rfl

def Lanes.Shows (lane : ℕ) (ls ls' : Lanes) : Prop :=
  ∃ status, ls' = Function.update ls lane { ls lane with status := status }

theorem clearFlag_shows : ∃ ls', (intelClearResponseReadyFlag port lane).run (Lanes.exec port) ls =
    some ((), ls') ∧ ls.Shows lane ls' := by
  unfold intelClearResponseReadyFlag intelDeRmw
  rw [Prog.run_bind_of (read_status _ _ hlane), write_status _ _ hlane]
  exact ⟨_, rfl, _, rfl⟩

theorem busReset_shows : ∃ ls', (intelCx0BusReset port lane).run (Lanes.exec port) ls =
    some ((), ls') ∧ ls.Shows lane ls' := by
  unfold intelCx0BusReset
  rw [Prog.run_bind_of (write_control _ _ hlane _), Lane.control_reset, Function.update_eq_self,
    Prog.run_bind_of (wait_control _ _ _), if_neg (by simp)]
  exact clearFlag_shows port ls hlane

omit hlane in
theorem Lanes.Shows.trans {ls ls' ls'' : Lanes} (h : ls.Shows lane ls') (h' : ls'.Shows lane ls'') :
    ls.Shows lane ls'' := by
  obtain ⟨status, rfl⟩ := h
  obtain ⟨status', rfl⟩ := h'
  refine ⟨status', ?_⟩
  rw [Function.update_self, Function.update_idem]

theorem waitForAck_shows (command : ℕ) : ∃ ls', (intelCx0WaitForAck port command lane).run
      (Lanes.exec port) ls =
        some ((if taken command (ls lane).status then 0 else -einval, (ls lane).status), ls') ∧
    ls.Shows lane ls' := by
  have hwait : (intelDeWaitForRegister (p2mMsgbusStatus port lane) responseReady responseReady).run
      (Lanes.exec port) ls = some ((0, (ls lane).status), ls) := by
    unfold intelDeWaitForRegister
    rw [Prog.run_bind_of (read_status _ _ hlane)]
    rfl
  unfold intelCx0WaitForAck
  rw [Prog.run_bind_of hwait]
  dsimp only
  rw [if_neg (by simp)]
  by_cases herror : (ls lane).status &&& errorSet ≠ 0
  · obtain ⟨ls', hrun, hshows⟩ := busReset_shows port ls hlane
    rw [if_pos herror, Prog.run_bind_of hrun, if_neg fun h => herror h.1]
    exact ⟨ls', rfl, hshows⟩
  · rw [if_neg herror]
    by_cases htype : commandType (ls lane).status ≠ command
    · obtain ⟨ls', hrun, hshows⟩ := busReset_shows port ls hlane
      rw [if_pos htype, Prog.run_bind_of hrun, if_neg fun h => htype h.2]
      exact ⟨ls', rfl, hshows⟩
    · rw [if_neg htype, if_pos ⟨not_not.mp herror, not_not.mp htype⟩]
      exact ⟨ls, rfl, (ls lane).status, (Function.update_eq_self lane ls).symm⟩

/-! ### Reads -/

def Lanes.ReadFrom (lane : ℕ) (ls ls' : Lanes) : Prop :=
  ∃ n status, ls' = Function.update ls lane
    { ls lane with status := status, readsSeen := (ls lane).readsSeen + n }

/-- A try of a read ends with the data byte or with a negative status. -/
theorem readOnce_run (addr : ℕ) : ∃ r status, (intelCx0ReadOnce port lane addr).run
      (Lanes.exec port) ls = some (r, Function.update ls lane
        { ls lane with status := status, readsSeen := (ls lane).readsSeen + 1 }) ∧
    if ((ls lane).readTries (ls lane).readsSeen).fails then r < 0
    else r = ((ls lane).regs (addr % 2 ^ 12)).toNat := by
  have hself : Function.update ls lane ((ls lane).read (addr % 2 ^ 12)) lane =
      (ls lane).read (addr % 2 ^ 12) := Function.update_self ..
  obtain ⟨ls', hack, status, rfl⟩ := waitForAck_shows port
    (Function.update ls lane ((ls lane).read (addr % 2 ^ 12))) hlane p2mCommandReadAck
  rw [hself, Function.update_idem] at hack
  unfold intelCx0ReadOnce
  rw [Prog.run_bind_of (wait_control _ _ _), if_neg (by simp),
    Prog.run_bind_of (write_control _ _ hlane _), Lane.control_readCommand, Prog.run_bind_of hack]
  dsimp only
  cases htry : (ls lane).readTries (ls lane).readsSeen with
  | answered =>
      have hstatus : ((ls lane).read (addr % 2 ^ 12)).status =
          dataWord ((ls lane).regs (addr % 2 ^ 12)) := by
        simp [Lane.read, Lane.readStatus, htry]
      obtain ⟨ls', hclear, status', rfl⟩ := clearFlag_shows port (Function.update ls lane
        { (ls lane).read (addr % 2 ^ 12) with status := status }) hlane
      rw [Function.update_self, Function.update_idem] at hclear
      rw [hstatus, if_pos (taken_dataWord _), if_neg (by simp), Prog.run_bind_of hclear,
        getBits_dataWord]
      exact ⟨_, status', rfl, rfl⟩
  | refused word hword =>
      have hstatus : ((ls lane).read (addr % 2 ^ 12)).status = word := by
        simp [Lane.read, Lane.readStatus, htry]
      obtain ⟨ls', hreset, status', rfl⟩ := busReset_shows port (Function.update ls lane
        { (ls lane).read (addr % 2 ^ 12) with status := status }) hlane
      rw [Function.update_self, Function.update_idem] at hreset
      rw [hstatus, if_neg hword, if_pos (show -einval < 0 by decide), Prog.run_bind_of hreset]
      exact ⟨_, status', rfl, by simp [ReadTry.fails, einval]⟩

/-- What a read of the lane gives: the byte, or 0 when all its tries fail. -/
theorem cx0Read_run (addr tries : ℕ) (ls : Lanes) : ∃ ls',
    (MsgBus.intelCx0Read port lane addr tries).run (Lanes.exec port) ls =
      some (if ∀ i < tries, ((ls lane).readTries ((ls lane).readsSeen + i)).fails = true then 0
        else (ls lane).regs (addr % 2 ^ 12), ls') ∧ ls.ReadFrom lane ls' := by
  induction tries generalizing ls with
  | zero =>
      refine ⟨ls, ?_, 0, (ls lane).status, (Function.update_eq_self lane ls).symm⟩
      rw [if_pos (by simp)]
      rfl
  | succ tries ih =>
      obtain ⟨r, status, honce, hr⟩ := readOnce_run port ls hlane addr
      rw [MsgBus.intelCx0Read, Prog.run_bind_of honce]
      by_cases hfails : ((ls lane).readTries (ls lane).readsSeen).fails = true
      · rw [if_pos hfails] at hr
        obtain ⟨ls', hrest, n, status', rfl⟩ := ih (Function.update ls lane
          { ls lane with status := status, readsSeen := (ls lane).readsSeen + 1 })
        rw [Function.update_self, Function.update_idem] at hrest
        rw [if_neg (by omega), hrest]
        refine ⟨_, ?_, n + 1, status', rfl⟩
        simp only [Nat.forall_lt_succ_left, Nat.add_zero, hfails, true_and, Nat.add_assoc,
          Nat.add_comm 1]
      · rw [if_neg hfails] at hr
        rw [if_pos (by omega), if_neg fun h => hfails (h 0 (by omega))]
        refine ⟨_, ?_, 1, status, rfl⟩
        rw [hr]
        simp

/-! ### Writes -/

/-- The lane has seen `n` commands to write `data` to a register, which holds it
or is as it was. -/
def Lanes.Written (lane addr : ℕ) (data : U8) (n : ℕ) (ls ls' : Lanes) : Prop :=
  ∃ regs status, (regs = (ls lane).regs ∨ regs = Function.update (ls lane).regs addr data) ∧
    ls' = Function.update ls lane { ls lane with
      regs := regs, status := status, writesSeen := (ls lane).writesSeen + n }

omit hlane in
theorem Lanes.Written.refl (addr : ℕ) (data : U8) (ls : Lanes) :
    Lanes.Written lane addr data 0 ls ls :=
  ⟨(ls lane).regs, (ls lane).status, Or.inl rfl, (Function.update_eq_self lane ls).symm⟩

omit hlane in
theorem Lanes.Written.trans {addr m n : ℕ} {data : U8} {ls ls' ls'' : Lanes}
    (h : Lanes.Written lane addr data m ls ls') (h' : Lanes.Written lane addr data n ls' ls'') :
    Lanes.Written lane addr data (m + n) ls ls'' := by
  obtain ⟨regs, status, hregs, rfl⟩ := h
  obtain ⟨regs', status', hregs', rfl⟩ := h'
  refine ⟨regs', status', ?_, ?_⟩
  · rw [Function.update_self] at hregs'
    cases hregs' with
    | inl heq => exact heq ▸ hregs
    | inr heq =>
        right
        cases hregs with
        | inl h => rw [heq, h]
        | inr h => rw [heq, h, Function.update_idem]
  · rw [Function.update_self, Function.update_idem, Nat.add_assoc]

/-- A try of a write sends one command, whatever it reports. -/
theorem writeOnce_run (addr : ℕ) (data : U8) (committed : Bool) (ls : Lanes) : ∃ r ls',
    (intelCx0WriteOnce port lane addr data committed).run (Lanes.exec port) ls = some (r, ls') ∧
      Lanes.Written lane (addr % 2 ^ 12) data 1 ls ls' := by
  have hwritten (ls' : Lanes) (h : Lanes.Shows lane
      (Function.update ls lane ((ls lane).write (addr % 2 ^ 12) data)) ls') :
      Lanes.Written lane (addr % 2 ^ 12) data 1 ls ls' := by
    obtain ⟨status, rfl⟩ := h
    refine ⟨((ls lane).write (addr % 2 ^ 12) data).regs, status, ?_, ?_⟩
    · exact (ite_eq_or_eq _ _ _).symm
    · rw [Function.update_self, Function.update_idem]
      rfl
  unfold intelCx0WriteOnce
  rw [Prog.run_bind_of (wait_control _ _ _), if_neg (by simp),
    Prog.run_bind_of (write_control _ _ hlane _), Lane.control_writeCommand,
    Prog.run_bind_of (wait_control _ _ _), if_neg (by simp)]
  have hreset (ls' : Lanes) := busReset_shows port ls' hlane
  have hclear (ls' : Lanes) := clearFlag_shows port ls' hlane
  cases committed with
  | true =>
      obtain ⟨ls₁, hack, hshows⟩ := waitForAck_shows port
        (Function.update ls lane ((ls lane).write (addr % 2 ^ 12) data)) hlane p2mCommandWriteAck
      rw [if_pos rfl, Prog.run_bind_of hack]
      dsimp only
      rw [Function.update_self]
      by_cases htaken : taken p2mCommandWriteAck ((ls lane).write (addr % 2 ^ 12) data).status
      · obtain ⟨ls₂, hrun, hshows'⟩ := hclear ls₁
        rw [if_pos htaken, if_neg (by simp), Prog.run_bind_of hrun]
        exact ⟨_, ls₂, rfl, hwritten _ (hshows.trans hshows')⟩
      · obtain ⟨ls₂, hrun, hshows'⟩ := hreset ls₁
        rw [if_neg htaken, if_pos (show -einval < 0 by decide), Prog.run_bind_of hrun]
        exact ⟨_, ls₂, rfl, hwritten _ (hshows.trans hshows')⟩
  | false =>
      rw [if_neg (by simp), Prog.run_bind_of (read_status _ _ hlane)]
      split
      · obtain ⟨ls₂, hrun, hshows⟩ := hreset _
        rw [Prog.run_bind_of hrun]
        exact ⟨_, ls₂, rfl, hwritten _ hshows⟩
      · obtain ⟨ls₂, hrun, hshows⟩ := hclear _
        rw [Prog.run_bind_of hrun]
        exact ⟨_, ls₂, rfl, hwritten _ hshows⟩

theorem cx0Write_run (addr tries : ℕ) (data : U8) (committed : Bool) (ls : Lanes) : ∃ n ls',
    (MsgBus.intelCx0Write port lane addr data committed tries).run (Lanes.exec port) ls =
        some ((), ls') ∧
      Lanes.Written lane (addr % 2 ^ 12) data n ls ls' ∧ (0 < tries → 0 < n) := by
  induction tries generalizing ls with
  | zero => exact ⟨0, ls, rfl, .refl _ _ _, id⟩
  | succ tries ih =>
      obtain ⟨r, ls₁, honce, hfirst⟩ := writeOnce_run port hlane addr data committed ls
      rw [MsgBus.intelCx0Write, Prog.run_bind_of honce]
      by_cases hr : r = 0
      · rw [if_pos hr]
        exact ⟨1, ls₁, rfl, hfirst, fun _ => Nat.one_pos⟩
      · rw [if_neg hr]
        obtain ⟨n, ls₂, hrest, hwritten, -⟩ := ih ls₁
        exact ⟨1 + n, ls₂, hrest, hfirst.trans hwritten, fun _ => by omega⟩

end Runs

/-! ## Read-modify-write -/

/-- The PHY of a port, its register accesses made of accesses of the bus. -/
def phyDevice (port : ℕ) : Device RegOp RegOp.Ans Lanes where
  exec o ls := o.low.run (Lanes.exec port) ls
  elapse _ ls := ls

/-- `for_each_cx0_lane_in_mask`: of the two lanes those whose bit is set. -/
def lanesInMask (laneMask : U8) : List ℕ := [0, 1].filter fun lane => laneMask.getLsbD lane

def intelCx0RmwMask {Φ : Type} (port : ℕ) (laneMask : U8) (addr : ℕ) (clear set : U8)
    (committed : Bool) : RegProg Φ Unit :=
  Prog.forEach (fun lane => cx0Rmw port lane addr clear set committed) (lanesInMask laneMask)

def LaneMask.bits : LaneMask → U8
  | .lane0 => 1
  | .bothLanes => 3

/-- The masks of the classes are masks of this kind. -/
theorem intelCx0Rmw_eq {Φ : Type} (port : ℕ) (mask : LaneMask) (addr : ℕ) (clear set : U8)
    (committed : Bool) : intelCx0Rmw (Φ := Φ) port mask addr clear set committed =
      intelCx0RmwMask port mask.bits addr clear set committed := by
  cases mask <;> rfl

namespace Lane

/-- What `__intel_cx0_read` returns for the register: 0 when it fails. -/
def readValue (l : Lane) (addr : ℕ) : U8 := if l.ReadFails then 0 else l.regs addr

def rmwValue (l : Lane) (addr : ℕ) (clear set : U8) : U8 :=
  (l.readValue addr &&& ~~~clear) ||| set

structure Modified (addr : ℕ) (clear set : U8) (l l' : Lane) : Prop where
  kept : l.rmwValue addr clear set = l.readValue addr →
    l'.regs = l.regs ∧ l'.writesSeen = l.writesSeen
  sent : l.rmwValue addr clear set ≠ l.readValue addr → l.writesSeen < l'.writesSeen ∧
    (l'.regs = l.regs ∨ l'.regs = Function.update l.regs addr (l.rmwValue addr clear set))

/-- A read-modify-write as it should be: the register changes in the bits to be
cleared or set, and only after it was read. -/
structure Lawful (addr : ℕ) (clear set : U8) (l l' : Lane) : Prop where
  bits : ∀ i, (clear ||| set).getLsbD i = false → (l'.regs addr).getLsbD i = (l.regs addr).getLsbD i
  others : ∀ r, r ≠ addr → l'.regs r = l.regs r
  unread : l.ReadFails → l'.writesSeen = l.writesSeen

theorem rmwValue_of_fails {l : Lane} (h : l.ReadFails) (addr : ℕ) (clear set : U8) :
    l.rmwValue addr clear set = set := by
  unfold rmwValue readValue
  rw [if_pos h]
  simp

theorem rmwValue_bit {l : Lane} (h : ¬l.ReadFails) {addr : ℕ} {clear set : U8} {i : ℕ}
    (hi : (clear ||| set).getLsbD i = false) :
    (l.rmwValue addr clear set).getLsbD i = (l.regs addr).getLsbD i := by
  rw [BitVec.getLsbD_or, Bool.or_eq_false_iff] at hi
  unfold rmwValue readValue
  rw [if_neg h]
  exact getLsbD_clear_keep hi.1 hi.2

theorem Modified.lawful_iff {addr : ℕ} {clear set : U8} {l l' : Lane}
    (h : Modified addr clear set l l') :
    Lawful addr clear set l l' ↔ (l.ReadFails → set = 0) := by
  constructor
  · intro hlaw hfails
    by_contra hset
    have hne : l.rmwValue addr clear set ≠ l.readValue addr := by
      rw [rmwValue_of_fails hfails, readValue, if_pos hfails]
      exact hset
    have hsent := (h.sent hne).1
    have hunread := hlaw.unread hfails
    omega
  · intro hcond
    by_cases hsame : l.rmwValue addr clear set = l.readValue addr
    · have hkept := h.kept hsame
      refine ⟨fun i _ => ?_, fun r _ => ?_, fun _ => hkept.2⟩
      · rw [hkept.1]
      · rw [hkept.1]
    · have hread : ¬l.ReadFails := by
        intro hfails
        apply hsame
        rw [rmwValue_of_fails hfails, readValue, if_pos hfails]
        exact hcond hfails
      refine ⟨fun i hi => ?_, fun r hr => ?_, fun hfails => absurd hfails hread⟩
      · cases (h.sent hsame).2 with
        | inl heq => rw [heq]
        | inr heq =>
            rw [heq, Function.update_self]
            exact rmwValue_bit hread hi
      · cases (h.sent hsame).2 with
        | inl heq => rw [heq]
        | inr heq => rw [heq, Function.update_of_ne hr]

end Lane

section Rmw

variable {Φ : Type} (port : ℕ) (wait : World Φ Lanes → Option (World Φ Lanes))

/-- A register access runs as the accesses of the bus it is made of. -/
theorem run_access (o : RegOp) {w : World Φ Lanes} {a : o.Ans} {ls' : Lanes}
    (h : o.low.run (Lanes.exec port) w.hw = some (a, ls')) :
    (onDev o : RegProg Φ o.Ans).run (execOp (phyDevice port) wait) w =
      some (a, { w with hw := ls' }) := by
  rw [run_onDev]
  exact congrArg (Option.map fun r : o.Ans × Lanes => (r.1, { w with hw := r.2 })) h

theorem cx0Rmw_run {lane : ℕ} (hlane : lane < 2) (addr : ℕ) (clear set : U8) (committed : Bool)
    (w : World Φ Lanes) : ∃ ls',
      (cx0Rmw port lane addr clear set committed).run (execOp (phyDevice port) wait) w =
          some ((), { w with hw := ls' }) ∧
        (∀ lane', lane' ≠ lane → ls' lane' = w.hw lane') ∧
        (w.hw lane).Modified (addr % 2 ^ 12) clear set (ls' lane) := by
  obtain ⟨ls₁, hread, m, status, rfl⟩ := cx0Read_run port hlane addr 3 w.hw
  have hvalue : (RegOp.cx0Read port lane addr).low.run (Lanes.exec port) w.hw =
      some ((w.hw lane).readValue (addr % 2 ^ 12), _) := hread
  unfold cx0Rmw cx0Read
  rw [Prog.run_bind_of (run_access port wait _ hvalue)]
  dsimp only
  by_cases hsame : (w.hw lane).rmwValue (addr % 2 ^ 12) clear set =
      (w.hw lane).readValue (addr % 2 ^ 12)
  · have hstop : ¬((w.hw lane).readValue (addr % 2 ^ 12) &&& ~~~clear ||| set ≠
        (w.hw lane).readValue (addr % 2 ^ 12)) := not_not.mpr hsame
    rw [if_neg hstop]
    refine ⟨_, rfl, fun lane' h => Function.update_of_ne h _ _, ?_⟩
    rw [Function.update_self]
    exact ⟨fun _ => ⟨rfl, rfl⟩, fun hne => absurd hsame hne⟩
  · have hgo : (w.hw lane).readValue (addr % 2 ^ 12) &&& ~~~clear ||| set ≠
        (w.hw lane).readValue (addr % 2 ^ 12) := hsame
    obtain ⟨n, ls₂, hwrite, hwritten, hpos⟩ := cx0Write_run port hlane addr 3
      ((w.hw lane).rmwValue (addr % 2 ^ 12) clear set) committed (Function.update w.hw lane
        { w.hw lane with status := status, readsSeen := (w.hw lane).readsSeen + m })
    obtain ⟨regs, status', hregs, rfl⟩ := hwritten
    rw [Function.update_self, Function.update_idem] at hwrite
    rw [Function.update_self] at hregs
    rw [if_pos hgo]
    refine ⟨_, run_access port wait (.cx0Write port lane addr _ committed) hwrite,
      fun lane' h => Function.update_of_ne h _ _, ?_⟩
    rw [Function.update_self]
    refine ⟨fun heq => absurd heq hsame, fun _ => ⟨?_, hregs⟩⟩
    have h := hpos (by decide)
    dsimp only
    omega

/-- The lanes of a list without repetitions are modified one after the other. -/
theorem forEach_cx0Rmw_run (addr : ℕ) (clear set : U8) (committed : Bool) {lanes : List ℕ}
    (hlanes : ∀ lane ∈ lanes, lane < 2) (hnodup : lanes.Nodup) (w : World Φ Lanes) : ∃ ls',
      (Prog.forEach (fun lane => cx0Rmw port lane addr clear set committed) lanes).run
          (execOp (phyDevice port) wait) w = some ((), { w with hw := ls' }) ∧
        (∀ lane ∈ lanes, (w.hw lane).Modified (addr % 2 ^ 12) clear set (ls' lane)) ∧
        ∀ lane, lane ∉ lanes → ls' lane = w.hw lane := by
  induction lanes generalizing w with
  | nil => exact ⟨w.hw, rfl, by simp, fun _ _ => rfl⟩
  | cons lane lanes ih =>
      obtain ⟨ls₁, hfirst, hkeep, hmod⟩ := cx0Rmw_run port wait
        (hlanes lane List.mem_cons_self) addr clear set committed w
      obtain ⟨hnot, hnodup'⟩ := List.nodup_cons.mp hnodup
      obtain ⟨ls₂, hrest, hmods, hkeeps⟩ := ih (fun l hl => hlanes l (List.mem_cons_of_mem _ hl))
        hnodup' { w with hw := ls₁ }
      refine ⟨ls₂, ?_, ?_, ?_⟩
      · rw [Prog.forEach, Prog.run_bind_of hfirst]
        exact hrest
      · intro l hl
        cases List.mem_cons.mp hl with
        | inl heq =>
            subst heq
            rw [hkeeps l hnot]
            exact hmod
        | inr hmem =>
            have hne : l ≠ lane := fun heq => hnot (heq ▸ hmem)
            have hl' := hmods l hmem
            dsimp only at hl'
            rw [hkeep l hne] at hl'
            exact hl'
      · intro l hl
        rw [List.mem_cons, not_or] at hl
        rw [hkeeps l hl.2]
        exact hkeep l hl.1

end Rmw

/-- The selected lanes are modified as they should be and the others are not
touched. -/
structure RmwLawful (laneMask : U8) (addr : ℕ) (clear set : U8) (ls ls' : Lanes) : Prop where
  selected : ∀ lane ∈ lanesInMask laneMask, (ls lane).Lawful addr clear set (ls' lane)
  unselected : ∀ lane, lane ∉ lanesInMask laneMask → ls' lane = ls lane

/-- `intel_cx0_rmw` keeps to the bits it is to change exactly if every selected
lane answers one of the three tries to read it, or there are no bits to set. -/
theorem rmw_lawful_iff {Φ : Type} (port : ℕ) (laneMask : U8) (addr : ℕ) (clear set : U8)
    (committed : Bool) (wait : World Φ Lanes → Option (World Φ Lanes)) (w : World Φ Lanes) :
    ∃ w', (intelCx0RmwMask port laneMask addr clear set committed).run
        (execOp (phyDevice port) wait) w = some ((), w') ∧
      (RmwLawful laneMask (addr % 2 ^ 12) clear set w.hw w'.hw ↔
        ∀ lane ∈ lanesInMask laneMask, (w.hw lane).ReadFails → set = 0) := by
  have hlanes : ∀ lane ∈ lanesInMask laneMask, lane < 2 := by
    intro lane hlane
    have hmem : lane ∈ [0, 1] := (List.mem_filter.mp hlane).1
    simp only [List.mem_cons, List.not_mem_nil, or_false] at hmem
    omega
  have hnodup : (lanesInMask laneMask).Nodup := List.Nodup.filter _ (by decide)
  obtain ⟨ls', hrun, hmods, hkeeps⟩ := forEach_cx0Rmw_run port wait addr clear set committed hlanes
    hnodup w
  refine ⟨{ w with hw := ls' }, hrun, ?_⟩
  constructor
  · intro hlaw lane hlane
    exact (hmods lane hlane).lawful_iff.mp (hlaw.selected lane hlane)
  · intro hcond
    exact ⟨fun lane hlane => (hmods lane hlane).lawful_iff.mpr (hcond lane hlane), hkeeps⟩

/-- A lane whose registers hold `0xFF` and which answers no read. -/
def deafLane : Lane :=
  ⟨fun _ => 0xFF, 0, fun _ => .refused 0 (by decide), fun _ => ⟨0xA8000000, true⟩, 0, 0⟩

def deafWorld : World C10PhyReg Lanes :=
  ⟨fun _ => deafLane, ⟨⟨true, 0, 0, 0, 0⟩, ⟨fun _ => 0, fun _ => 0⟩⟩, false, none⟩

/-- The first step of `c10::program_mmio` on lanes that answer no read writes 4
over `0xFF`. -/
theorem unread_register_overwritten : ∃ w',
    (intelCx0RmwMask 0 3 (phyC10VdrControl 1) 0 c10VdrCtrlMsgbusAccess true).run
        (execOp (phyDevice 0) fun _ => none) deafWorld = some ((), w') ∧
      (deafWorld.hw 0).regs (phyC10VdrControl 1) = 0xFF ∧
      (w'.hw 0).regs (phyC10VdrControl 1) = 4 ∧
      ¬RmwLawful 3 (phyC10VdrControl 1) 0 c10VdrCtrlMsgbusAccess deafWorld.hw w'.hw := by
  have hrun : (((intelCx0RmwMask 0 3 (phyC10VdrControl 1) 0 c10VdrCtrlMsgbusAccess true).run
      (execOp (phyDevice 0) fun _ => none) deafWorld).map fun r =>
        (r.2.hw 0).regs (phyC10VdrControl 1)) = some 4 := by decide
  obtain ⟨⟨_, w'⟩, hw', hreg⟩ := Option.map_eq_some_iff.mp hrun
  refine ⟨w', hw', rfl, hreg, fun hlaw => ?_⟩
  have hbit := (hlaw.selected 0 (by decide)).bits 0 (by decide)
  rw [hreg] at hbit
  exact absurd hbit (by decide)

end Genlock.Vsyncalter
