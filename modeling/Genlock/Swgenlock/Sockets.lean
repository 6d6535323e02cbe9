import Genlock.Lib.Prog
import Genlock.Swgenlock.Addresses
import Genlock.Swgenlock.L2Address

/-!
# Setting a connection up

The clients and servers of `connection` and `ptp_connection` over the calls of the system, each of
which may fail.
-/

namespace Genlock.Swgenlock

open Bytes

/-! ## The calls -/

def ifnamsiz : ℕ := 16

def portid : ℕ := 5001

inductive InAddr where
  | any
  | of (ipAddress : List Char)
deriving DecidableEq, Repr

inductive SysOp where
  | socket (domain : Domain) (type : SockType)
  | gethostbyname (name : List Char)
  | connect (sockfd : ℕ) (host : List U8) (port : ℕ)
  /-- `setsockopt` of `SO_REUSEADDR` -/
  | setReuseAddr (sockfd : ℕ)
  | bindInet (sockfd : ℕ) (addr : InAddr) (port : ℕ)
  /-- `bind` to an interface -/
  | bindPacket (sockfd : ℕ) (protocol : ℕ) (ifindex : ℤ)
  | listen (sockfd : ℕ)
  /-- `ioctl` with `SIOCGIFINDEX` -/
  | ioctlIfindex (sd : ℕ) (ifrName : List Char)
  | close (sockfd : ℕ)
deriving DecidableEq, Repr

/-- What a call answers: a value or none, or whether it succeeded. -/
abbrev SysOp.Ans : SysOp → Type
  | .socket _ _ => Option ℕ
  | .gethostbyname _ => Option (List U8)
  | .ioctlIfindex _ _ => Option ℤ
  | .connect _ _ _ | .setReuseAddr _ | .bindInet _ _ _ | .bindPacket _ _ _ | .listen _
  | .close _ => Bool

abbrev Sys := Prog SysOp SysOp.Ans

namespace Sys

def socket (domain : Domain) (type : SockType) : Sys (Option ℕ) :=
  Prog.perform (SysOp.socket domain type)

def gethostbyname (name : List Char) : Sys (Option (List U8)) :=
  Prog.perform (SysOp.gethostbyname name)

def connect (sockfd : ℕ) (host : List U8) (port : ℕ) : Sys Bool :=
  Prog.perform (SysOp.connect sockfd host port)

def setReuseAddr (sockfd : ℕ) : Sys Bool :=
  Prog.perform (SysOp.setReuseAddr sockfd)

def bindInet (sockfd : ℕ) (addr : InAddr) (port : ℕ) : Sys Bool :=
  Prog.perform (SysOp.bindInet sockfd addr port)

def bindPacket (sockfd protocol : ℕ) (ifindex : ℤ) : Sys Bool :=
  Prog.perform (SysOp.bindPacket sockfd protocol ifindex)

def listen (sockfd : ℕ) : Sys Bool :=
  Prog.perform (SysOp.listen sockfd)

def ioctlIfindex (sd : ℕ) (ifrName : List Char) : Sys (Option ℤ) :=
  Prog.perform (SysOp.ioctlIfindex sd ifrName)

def close (sockfd : ℕ) : Sys Bool :=
  Prog.perform (SysOp.close sockfd)

end Sys

/-! ## `connection` -/

structure TcpConnection where
  ipAddress : List Char
deriving DecidableEq, Repr

def openSocket (type : ConType) : Sys (Option ℕ) :=
  Sys.socket (socketArgs type).1 (socketArgs type).2

/-- `connection::init_client`; `none` is a null name. -/
def TcpConnection.initClient (_ : TcpConnection) (serverName : Option (List Char)) : Sys ℕ :=
  match serverName with
  | none => pure 1
  | some name => do
    match ← openSocket .tcp with
    | none => pure 1
    | some sockfd =>
      match ← Sys.gethostbyname name with
      | none => pure 1
      | some host =>
        if ← Sys.connect sockfd host portid then pure 0 else pure 1

def TcpConnection.initServer (c : TcpConnection) : Sys ℕ := do
  match ← openSocket .tcp with
  | none => pure 1
  | some sockfd =>
    if ← Sys.setReuseAddr sockfd then
      let bindAddr := if c.ipAddress = [] then InAddr.any else .of c.ipAddress
      if ← Sys.bindInet sockfd bindAddr portid then
        if ← Sys.listen sockfd then pure 0
        else
          let _ ← Sys.close sockfd
          pure 1
      else
        let _ ← Sys.close sockfd
        pure 1
    else pure 1

/-! ## `ptp_connection` -/

/-- The fields of `dest_sa` that name the peer. -/
structure SockaddrLl where
  addr : L2Addr
  ifindex : ℤ

structure PtpConnection where
  iface : List Char
  /-- the MAC address of the server, under the name of the member -/
  serverIp : List Char
  addr : L2Addr
  ifaceIndex : ℤ
  destSa : SockaddrLl

/-- `find_iface_index`, whose failures return 1. -/
def findIfaceIndex (iface : List Char) : Sys ℤ := do
  match ← Sys.socket .unix .dgram with
  | none => pure 1
  | some sd =>
    match ← Sys.ioctlIfindex sd (iface.take (ifnamsiz - 1)) with
    | none =>
      let _ ← Sys.close sd
      pure 1
    | some ifindex =>
      let _ ← Sys.close sd
      pure ifindex

def ptpOpen (c : PtpConnection) (iface : Option (List Char)) : Sys (ℕ × PtpConnection) :=
  match iface with
  | none => pure (1, c)
  | some iface => do
    match ← openSocket .ptp with
    | none => pure (1, c)
    | some sockfd =>
      let c := { c with ifaceIndex := ← findIfaceIndex iface }
      if c.ifaceIndex = -1 then pure (1, c)
      else if ← Sys.bindPacket sockfd portid c.ifaceIndex then pure (0, c)
      else pure (1, c)

def PtpConnection.initClient (c : PtpConnection) : Sys (ℕ × PtpConnection) := do
  let (ret, c) ← ptpOpen c (some c.iface)
  if ret ≠ 0 then pure (1, c)
  else
    let (ok, addr) := strToL2Addr c.serverIp c.addr
    let c := { c with addr }
    if !ok then pure (1, c)
    else pure (0, { c with destSa := ⟨c.addr, c.ifaceIndex⟩ })

def PtpConnection.initServer (c : PtpConnection) : Sys (ℕ × PtpConnection) := do
  let (ret, c) ← ptpOpen c (some c.iface)
  if ret ≠ 0 then pure (1, c) else pure (0, c)

/-! ## Outcomes -/

/-- How each call turns out. No interface has a name that does not fit into `ifr_name`. -/
structure Outcomes where
  socket : Domain → Option ℕ
  host : List Char → Option (List U8)
  ifindex : List Char → Option ℤ
  short : ∀ name, (ifindex name).isSome = true → name.length < ifnamsiz
  connect : Bool
  reuseAddr : Bool
  bind : Bool
  listen : Bool
  close : Bool

def Outcomes.answer (k : Outcomes) : (o : SysOp) → o.Ans
  | .socket domain _ => k.socket domain
  | .gethostbyname name => k.host name
  | .connect _ _ _ => k.connect
  | .setReuseAddr _ => k.reuseAddr
  | .bindInet _ _ _ | .bindPacket _ _ _ => k.bind
  | .listen _ => k.listen
  | .ioctlIfindex _ ifrName => k.ifindex ifrName
  | .close _ => k.close

def SysOp.succeeded : (o : SysOp) → o.Ans → Bool
  | .socket _ _, r => r.isSome
  | .gethostbyname _, r => r.isSome
  | .ioctlIfindex _ _, r => r.isSome
  | .connect _ _ _, r | .setReuseAddr _, r | .bindInet _ _ _, r | .bindPacket _ _ _, r
  | .listen _, r | .close _, r => r

structure Net where
  opened : List ℕ
  calls : List (SysOp × Bool)

/-- `close` gives the descriptor back whatever it returns. -/
def SysOp.after : (o : SysOp) → o.Ans → List ℕ → List ℕ
  | .socket _ _, r, opened => r.toList ++ opened
  | .close sockfd, _, opened => opened.erase sockfd
  | _, _, opened => opened

def Outcomes.exec (k : Outcomes) (o : SysOp) (n : Net) : Option (o.Ans × Net) :=
  some (k.answer o,
    ⟨o.after (k.answer o) n.opened, n.calls ++ [(o, o.succeeded (k.answer o))]⟩)

section Run
variable (k : Outcomes) (n : Net)

@[simp] theorem run_socket (domain : Domain) (type : SockType) :
    (Sys.socket domain type).run k.exec n = some (k.socket domain,
      ⟨(k.socket domain).toList ++ n.opened,
        n.calls ++ [(.socket domain type, (k.socket domain).isSome)]⟩) := rfl

@[simp] theorem run_gethostbyname (name : List Char) :
    (Sys.gethostbyname name).run k.exec n = some (k.host name,
      ⟨n.opened, n.calls ++ [(.gethostbyname name, (k.host name).isSome)]⟩) := rfl

@[simp] theorem run_connect (sockfd : ℕ) (host : List U8) (port : ℕ) :
    (Sys.connect sockfd host port).run k.exec n = some (k.connect,
      ⟨n.opened, n.calls ++ [(.connect sockfd host port, k.connect)]⟩) := rfl

@[simp] theorem run_setReuseAddr (sockfd : ℕ) :
    (Sys.setReuseAddr sockfd).run k.exec n = some (k.reuseAddr,
      ⟨n.opened, n.calls ++ [(.setReuseAddr sockfd, k.reuseAddr)]⟩) := rfl

@[simp] theorem run_bindInet (sockfd : ℕ) (addr : InAddr) (port : ℕ) :
    (Sys.bindInet sockfd addr port).run k.exec n = some (k.bind,
      ⟨n.opened, n.calls ++ [(.bindInet sockfd addr port, k.bind)]⟩) := rfl

@[simp] theorem run_bindPacket (sockfd protocol : ℕ) (ifindex : ℤ) :
    (Sys.bindPacket sockfd protocol ifindex).run k.exec n = some (k.bind,
      ⟨n.opened, n.calls ++ [(.bindPacket sockfd protocol ifindex, k.bind)]⟩) := rfl

@[simp] theorem run_listen (sockfd : ℕ) :
    (Sys.listen sockfd).run k.exec n = some (k.listen,
      ⟨n.opened, n.calls ++ [(.listen sockfd, k.listen)]⟩) := rfl

@[simp] theorem run_ioctlIfindex (sd : ℕ) (ifrName : List Char) :
    (Sys.ioctlIfindex sd ifrName).run k.exec n = some (k.ifindex ifrName,
      ⟨n.opened, n.calls ++ [(.ioctlIfindex sd ifrName, (k.ifindex ifrName).isSome)]⟩) := rfl

@[simp] theorem run_close (sockfd : ℕ) :
    (Sys.close sockfd).run k.exec n = some (k.close,
      ⟨n.opened.erase sockfd, n.calls ++ [(.close sockfd, k.close)]⟩) := rfl

end Run

/-! ## The five functions -/

inductive Setup where
  | initClient (c : TcpConnection) (serverName : Option (List Char))
  | initServer (c : TcpConnection)
  | ptpOpen (c : PtpConnection) (iface : Option (List Char))
  | ptpInitClient (c : PtpConnection)
  | ptpInitServer (c : PtpConnection)

namespace Setup

/-- The call, with what it returns and, in Ethernet mode, the object after it. -/
def prog : Setup → Sys (ℕ × Option PtpConnection)
  | .initClient c serverName => (·, none) <$> c.initClient serverName
  | .initServer c => (·, none) <$> c.initServer
  | .ptpOpen c iface => Prod.map id some <$> Swgenlock.ptpOpen c iface
  | .ptpInitClient c => Prod.map id some <$> c.initClient
  | .ptpInitServer c => Prod.map id some <$> c.initServer

def requested : Setup → Option (List Char)
  | .initClient _ _ | .initServer _ => none
  | .ptpOpen _ iface => iface
  | .ptpInitClient c | .ptpInitServer c => some c.iface

def boundIndices (calls : List (SysOp × Bool)) : List ℤ :=
  calls.filterMap fun call => match call.1 with
    | .bindPacket _ _ ifindex => some ifindex
    | _ => none

/-- The interface indices put to use: of the packet socket, and of the messages of a client. -/
def usedIndices (s : Setup) (c : Option PtpConnection) (calls : List (SysOp × Bool)) : List ℤ :=
  boundIndices calls ++
  match s, c with
  | .ptpInitClient _, some c => [c.destSa.ifindex]
  | _, _ => []

end Setup

/-- Success means that every call succeeded on the right interface, failure leaves no socket. -/
structure SetUpProperly (k : Outcomes) (s : Setup) : Prop where
  succeeded : ∀ r n, s.prog.run k.exec ⟨[], []⟩ = some (r, n) → r.1 = 0 →
    ∀ call ∈ n.calls, call.2 = true
  index : ∀ r n, s.prog.run k.exec ⟨[], []⟩ = some (r, n) → r.1 = 0 →
    ∀ iface ∈ s.requested, ∀ i ∈ s.usedIndices r.2 n.calls, k.ifindex iface = some i
  closed : ∀ r n, s.prog.run k.exec ⟨[], []⟩ = some (r, n) → r.1 ≠ 0 → n.opened = []

/-- The packet socket can be bound to the interface, and nothing fails on the way. -/
def Outcomes.Binds (k : Outcomes) (iface : List Char) : Prop :=
  (k.socket .unix).isSome = true ∧ (∃ i, k.ifindex iface = some i ∧ i ≠ -1) ∧ k.close = true ∧
    k.bind = true

def Setup.Goes (k : Outcomes) : Setup → Prop
  | .initClient _ none => True
  | .initClient _ (some name) =>
      k.socket .inet = none ∨ (k.host name).isSome = true ∧ k.connect = true
  | .initServer _ => k.socket .inet = none ∨ k.reuseAddr = true
  | .ptpOpen _ none => True
  | .ptpOpen _ (some iface) => k.socket .packet = none ∨ k.Binds iface
  | .ptpInitClient c =>
      k.socket .packet = none ∨ k.Binds c.iface ∧ (strToL2Addr c.serverIp c.addr).1 = true
  | .ptpInitServer c => k.socket .packet = none ∨ k.Binds c.iface

theorem setUpProperly_iff {k : Outcomes} {s : Setup} :
    SetUpProperly k s ↔ ∀ r n, s.prog.run k.exec ⟨[], []⟩ = some (r, n) →
      (r.1 = 0 → (∀ call ∈ n.calls, call.2 = true) ∧
        ∀ iface ∈ s.requested, ∀ i ∈ s.usedIndices r.2 n.calls, k.ifindex iface = some i) ∧
      (r.1 ≠ 0 → n.opened = []) := by
  constructor
  · intro h r n hrun
    exact ⟨fun hr => ⟨h.succeeded r n hrun hr, h.index r n hrun hr⟩, h.closed r n hrun⟩
  · intro h
    exact ⟨fun r n hrun hr => ((h r n hrun).1 hr).1, fun r n hrun hr => ((h r n hrun).1 hr).2,
      fun r n hrun hr => (h r n hrun).2 hr⟩

/-! ## TCP -/

theorem initClient_iff (k : Outcomes) (c : TcpConnection) (serverName : Option (List Char)) :
    SetUpProperly k (.initClient c serverName) ↔ Setup.Goes k (.initClient c serverName) := by
  rw [setUpProperly_iff]
  cases serverName with
  | none =>
      simp [Setup.prog, TcpConnection.initClient, Setup.Goes, map_eq_pure_bind]
  | some name =>
      simp only [Setup.prog, TcpConnection.initClient, openSocket, socketArgs, map_eq_pure_bind,
        Prog.run_bind, run_socket, Setup.Goes, Setup.requested]
      cases hsocket : k.socket .inet with
      | none =>
          simp [hsocket]
      | some sockfd =>
          cases hhost : k.host name with
          | none => simp [hsocket, hhost, Prog.run_bind]
          | some host => cases hconnect : k.connect <;> simp [hsocket, hhost, hconnect, Prog.run_bind]

theorem initServer_iff (k : Outcomes) (c : TcpConnection) :
    SetUpProperly k (.initServer c) ↔ Setup.Goes k (.initServer c) := by
  rw [setUpProperly_iff]
  simp only [Setup.prog, TcpConnection.initServer, openSocket, socketArgs, map_eq_pure_bind,
    Prog.run_bind, run_socket, Setup.Goes, Setup.requested]
  cases hsocket : k.socket .inet with
  | none =>
      simp [hsocket]
  | some sockfd =>
      cases hreuse : k.reuseAddr with
      | false =>
          simp [hsocket, hreuse, Prog.run_bind]
      | true =>
          -- the two failures behind it close the socket
          cases hbind : k.bind with
          | false => simp [hsocket, hreuse, hbind, Prog.run_bind]
          | true => cases hlisten : k.listen <;> simp [hsocket, hreuse, hbind, hlisten, Prog.run_bind]

/-! ## Ethernet -/

/-- The calls of `find_iface_index`, which opens and closes a socket of its own. -/
theorem findIfaceIndex_run (k : Outcomes) (iface : List Char) (n : Net) :
    ∃ calls, (findIfaceIndex iface).run k.exec n = some
      (if (k.socket .unix).isSome then (k.ifindex (iface.take (ifnamsiz - 1))).getD 1 else 1,
        ⟨n.opened, n.calls ++ calls⟩) ∧
      ((∀ call ∈ calls, call.2 = true) ↔ (k.socket .unix).isSome = true ∧
        (k.ifindex (iface.take (ifnamsiz - 1))).isSome = true ∧ k.close = true) ∧
      Setup.boundIndices calls = [] := by
  simp only [findIfaceIndex, Prog.run_bind, run_socket]
  cases hsocket : k.socket .unix with
  | none =>
      exact ⟨[(.socket .unix .dgram, false)], by simp [Setup.boundIndices]⟩
  | some sd =>
      cases hindex : k.ifindex (iface.take (ifnamsiz - 1)) with
      | none =>
          exact ⟨[(.socket .unix .dgram, true), (.ioctlIfindex sd (iface.take (ifnamsiz - 1)), false),
            (.close sd, k.close)], by simp [hindex, Prog.run_bind, Setup.boundIndices]⟩
      | some i =>
          exact ⟨[(.socket .unix .dgram, true), (.ioctlIfindex sd (iface.take (ifnamsiz - 1)), true),
            (.close sd, k.close)], by simp [hindex, Prog.run_bind, Setup.boundIndices]⟩

theorem Outcomes.Binds.take_eq {k : Outcomes} {iface : List Char} (h : k.Binds iface) :
    iface.take (ifnamsiz - 1) = iface := by
  obtain ⟨-, hindex, -⟩ := h
  obtain ⟨i, hi, -⟩ := hindex
  have hshort := k.short iface (by rw [hi]; rfl)
  exact List.take_of_length_le (Nat.le_pred_of_lt hshort)

/-- Without a packet socket there is nothing to give back. -/
theorem ptpOpen_run_none {k : Outcomes} (hsocket : k.socket .packet = none) (c : PtpConnection)
    (iface : List Char) :
    (ptpOpen c (some iface)).run k.exec ⟨[], []⟩ =
      some ((1, c), ⟨[], [(.socket .packet .dgram, false)]⟩) := by
  simp [ptpOpen, openSocket, socketArgs, Prog.run_bind, hsocket]

/-- Once the packet socket is open it stays open, and only `Binds` makes that a proper success. -/
theorem ptpOpen_run {k : Outcomes} {sockfd : ℕ} (hsocket : k.socket .packet = some sockfd)
    (c : PtpConnection) (iface : List Char) :
    ∃ ret c' n, (ptpOpen c (some iface)).run k.exec ⟨[], []⟩ = some ((ret, c'), n) ∧
      n.opened ≠ [] ∧ c'.serverIp = c.serverIp ∧ c'.addr = c.addr ∧
      (ret = 0 → Setup.boundIndices n.calls = [c'.ifaceIndex]) ∧
      ((ret = 0 ∧ (∀ call ∈ n.calls, call.2 = true) ∧ k.ifindex iface = some c'.ifaceIndex) ↔
        k.Binds iface) := by
  obtain ⟨calls, hfind, hcalls, hbound⟩ :=
    findIfaceIndex_run k iface ⟨[sockfd], [(.socket .packet .dgram, true)]⟩
  generalize hidx : (if (k.socket .unix).isSome then
    (k.ifindex (iface.take (ifnamsiz - 1))).getD 1 else 1) = idx at hfind
  -- what `Binds` says of the index that `find_iface_index` returned
  have hbinds : k.Binds iface ↔ idx ≠ -1 ∧ k.bind = true ∧ (∀ call ∈ calls, call.2 = true) ∧
      k.ifindex iface = some idx := by
    rw [hcalls]
    constructor
    · intro h
      have htake := h.take_eq
      obtain ⟨hunix, hindex, hclose, hbind⟩ := h
      obtain ⟨i, hi, hne⟩ := hindex
      rw [if_pos hunix, htake, hi, Option.getD_some] at hidx
      exact ⟨hidx ▸ hne, hbind, ⟨hunix, by rw [htake, hi]; rfl, hclose⟩, hidx ▸ hi⟩
    · intro h
      exact ⟨h.2.2.1.1, ⟨idx, h.2.2.2, h.1⟩, h.2.2.1.2.2, h.2.1⟩
  simp only [ptpOpen, openSocket, socketArgs, Prog.run_bind, run_socket]
  simp only [if_true, reduceCtorEq, if_false, hsocket, Option.toList_some, List.append_nil,
    List.nil_append, Option.isSome_some, Option.bind_some, Prog.run_bind, hfind]
  by_cases hinvalid : idx = -1
  · refine ⟨1, { c with ifaceIndex := idx }, ⟨[sockfd], (.socket .packet .dgram, true) :: calls⟩, ?_⟩
    simp [hinvalid, hbinds]
  · cases hbind : k.bind with
    | false =>
        refine ⟨1, { c with ifaceIndex := idx }, ⟨[sockfd], (.socket .packet .dgram, true) ::
          (calls ++ [(.bindPacket sockfd portid idx, false)])⟩, ?_⟩
        simp [hinvalid, hbinds, hbind, Prog.run_bind]
    | true =>
        refine ⟨0, { c with ifaceIndex := idx }, ⟨[sockfd], (.socket .packet .dgram, true) ::
          (calls ++ [(.bindPacket sockfd portid idx, true)])⟩, ?_⟩
        have hboth : Setup.boundIndices ((.socket .packet .dgram, true) ::
            (calls ++ [(.bindPacket sockfd portid idx, true)])) = [idx] := by
          rw [Setup.boundIndices] at hbound ⊢
          simp [hbound]
        simp [hinvalid, hbinds, hbind, Prog.run_bind, hboth]

theorem ptpOpen_iff (k : Outcomes) (c : PtpConnection) (iface : Option (List Char)) :
    SetUpProperly k (.ptpOpen c iface) ↔ Setup.Goes k (.ptpOpen c iface) := by
  cases iface with
  | none =>
      rw [setUpProperly_iff]
      simp [Setup.prog, ptpOpen, Setup.Goes, map_eq_pure_bind]
  | some iface =>
      cases hsocket : k.socket .packet with
      | none =>
          rw [setUpProperly_iff]
          simp [Setup.prog, map_eq_pure_bind, Prog.run_bind, ptpOpen_run_none hsocket, Setup.Goes,
            hsocket]
      | some sockfd =>
          obtain ⟨ret, c', n, hrun, hopened, -, -, hbound, hiff⟩ := ptpOpen_run hsocket c iface
          rw [setUpProperly_iff]
          simp only [Setup.prog, map_eq_pure_bind, Prog.run_bind, hrun, Setup.Goes, hsocket, ← hiff,
            Setup.requested, Setup.usedIndices]
          by_cases hret : ret = 0
          · simp [hret, hbound hret]
          · simp [hret, hopened]

theorem ptpInitServer_iff (k : Outcomes) (c : PtpConnection) :
    SetUpProperly k (.ptpInitServer c) ↔ Setup.Goes k (.ptpInitServer c) := by
  cases hsocket : k.socket .packet with
  | none =>
      rw [setUpProperly_iff]
      simp [Setup.prog, PtpConnection.initServer, map_eq_pure_bind, Prog.run_bind,
        ptpOpen_run_none hsocket, Setup.Goes, hsocket]
  | some sockfd =>
      obtain ⟨ret, c', n, hrun, hopened, -, -, hbound, hiff⟩ := ptpOpen_run hsocket c c.iface
      rw [setUpProperly_iff]
      simp only [Setup.prog, PtpConnection.initServer, map_eq_pure_bind, Prog.run_bind, hrun,
        Setup.Goes, hsocket, ← hiff, Setup.requested, Setup.usedIndices]
      by_cases hret : ret = 0
      · simp [hret, hbound hret]
      · simp [hret, hopened]

theorem ptpInitClient_iff (k : Outcomes) (c : PtpConnection) :
    SetUpProperly k (.ptpInitClient c) ↔ Setup.Goes k (.ptpInitClient c) := by
  cases hsocket : k.socket .packet with
  | none =>
      rw [setUpProperly_iff]
      simp [Setup.prog, PtpConnection.initClient, map_eq_pure_bind, Prog.run_bind,
        ptpOpen_run_none hsocket, Setup.Goes, hsocket]
  | some sockfd =>
      obtain ⟨ret, c', n, hrun, hopened, hserver, haddr, hbound, hiff⟩ :=
        ptpOpen_run hsocket c c.iface
      rw [setUpProperly_iff]
      simp only [Setup.prog, PtpConnection.initClient, map_eq_pure_bind, Prog.run_bind, hrun,
        Setup.Goes, hsocket, ← hiff, Setup.requested, Setup.usedIndices, ← hserver, ← haddr]
      by_cases hret : ret = 0
      · cases hparse : (strToL2Addr c'.serverIp c'.addr).1 with
        | false => simp [hret, hparse, hopened]
        | true => simp [hret, hparse, hbound hret]
      · simp [hret, hopened]

/-! ## All five -/

/-- A connection is set up properly exactly when nothing fails that is not cleaned up after. -/
theorem setup_proper_iff (k : Outcomes) (s : Setup) : SetUpProperly k s ↔ s.Goes k := by
  cases s with
  | initClient c serverName => exact initClient_iff k c serverName
  | initServer c => exact initServer_iff k c
  | ptpOpen c iface => exact ptpOpen_iff k c iface
  | ptpInitClient c => exact ptpInitClient_iff k c
  | ptpInitServer c => exact ptpInitServer_iff k c

/-- Every call succeeds but the question for the index of the interface. -/
def unknownInterface : Outcomes where
  socket domain := some (if domain = .packet then 3 else 4)
  host _ := none
  ifindex _ := none
  short _ h := absurd h (by decide)
  connect := true
  reuseAddr := true
  bind := true
  listen := true
  close := true

/-- The server of an interface that does not exist comes up on interface 1. -/
theorem unknown_interface_bound :
    ¬ SetUpProperly unknownInterface (.ptpInitServer ⟨"enp176s0".toList, [], 0, 0, ⟨0, 0⟩⟩) := by
  intro h
  have hclosed := h.succeeded _ _ rfl rfl (.ioctlIfindex 4 "enp176s0".toList, false) (by decide)
  exact absurd hclosed (by decide)

end Genlock.Swgenlock
