import Genlock.Swgenlock.Service

/-! # The accept loop and its handlers

`do_primary` accepts clients and starts a thread for each. Over TCP the threads run side by
side, each on its own descriptor, and a descriptor that is closed may be given out again;
over PTP there is one packet socket, and the loop waits for each thread.
-/

namespace Genlock.Swgenlock

/-! ## The functions of the source -/

/-- `VSYNC_MAX_TIMESTAMPS + N_EXTRA` of `do_primary`. -/
def collectorCount : ℕ := vsyncMaxTimestamps.toNat + 10

/-- What a descriptor stands for; clients are numbered in the order of `accept`. -/
inductive OpenFile where
  | server
  | client (c : ℕ)
  | other
deriving DecidableEq, Repr

/-- A thread in `client_handler`. `peer` is history: whom the last request came from. -/
structure HandlerThread where
  sockfd : ℕ
  /-- `do_msg` up to the end of its loop -/
  handler : Handler
  /-- behind the `os_close_socket` of `do_msg` -/
  closed : Bool
  peer : ℕ

inductive Acceptor where
  | accepting
  | accepted (c sockfd : ℕ)
  /-- `pthread_join` -/
  | joining (c : ℕ)
  | returned (ret : ℕ)
deriving DecidableEq, Repr

/-- `captured`, `history` and `closes`, what each close hit, are history. -/
structure PrimaryServer where
  table : ℕ → Option OpenFile
  acceptor : Acceptor
  accepted : ℕ
  thread : ℕ → Option HandlerThread
  buffer : List Os.U64
  /-- `dest_sa` of `ptp_connection`, which `recvfrom` fills in -/
  destSa : Option ℕ
  captured : List Os.U64
  history : ℕ → PeerHistory
  closes : List (Option OpenFile)

inductive ServerEvent where
  | capture (ts : Os.U64)
  /-- `accept_client` succeeds with this descriptor. -/
  | accept (sockfd : ℕ)
  | acceptFails
  /-- `pthread_create`, and whether it succeeds. -/
  | create (started : Bool)
  | join
  /-- `recv_msg` returns with a message, or fails; over PTP with the address of its sender. -/
  | receive (c : ℕ) (message : Option (ℕ × Msg))
  | copy (c : ℕ) (now : ℤ × ℤ)
  | send (c : ℕ) (sent : Bool)
  | close (c : ℕ)

/-- `sockid ? sockid : sockfd` -/
def descriptor (sockfd sockid : ℕ) : ℕ := if sockid ≠ 0 then sockid else sockfd

/-- Who may have sent what comes out of a descriptor: the client behind it, or anyone that
sends to the packet socket. -/
def OpenFile.sender (isPtp : Bool) (sender : ℕ) : OpenFile → Option ℕ
  | client c => some c
  | server => if isPtp then some sender else none
  | other => none

def OpenFile.receiver (isPtp : Bool) (destSa : Option ℕ) : OpenFile → Option ℕ
  | client c => some c
  | server => if isPtp then destSa else none
  | other => none

namespace PrimaryServer

def start (sockfd : ℕ) (others : ℕ → Bool) : PrimaryServer where
  table fd := if fd = sockfd then some .server else if others fd then some .other else none
  acceptor := .accepting
  accepted := 0
  thread _ := none
  buffer := []
  destSa := none
  captured := []
  history _ := .none
  closes := []

def setThread (s : PrimaryServer) (c : ℕ) (t : HandlerThread) : PrimaryServer :=
  { s with thread := Function.update s.thread c (some t) }

def setHistory (s : PrimaryServer) (p : ℕ) (h : PeerHistory) : PrimaryServer :=
  { s with history := Function.update s.history p h }

def closeSocket (s : PrimaryServer) (fd : ℕ) : PrimaryServer :=
  { s with table := Function.update s.table fd none, closes := s.closes ++ [s.table fd] }

def acceptClient (isPtp : Bool) (s : PrimaryServer) (sockfd : ℕ) : Option PrimaryServer :=
  if isPtp then
    if sockfd = 0 then
      some { s with acceptor := .accepted s.accepted 0, accepted := s.accepted + 1 }
    else none
  else if s.table sockfd = none then
    some { s with
      table := Function.update s.table sockfd (some (.client s.accepted))
      acceptor := .accepted s.accepted sockfd
      accepted := s.accepted + 1 }
  else none

/-- `recv_msg` in `do_msg` with the message `r`, and the check of its count. -/
def receiveFrom (isPtp : Bool) (s : PrimaryServer) (c : ℕ) (t : HandlerThread) (p : ℕ) (r : Msg) :
    PrimaryServer :=
  let s := { s with destSa := if isPtp then some p else s.destSa }
  if r.CountInvalid then
    (s.setThread c { t with handler := .ended 1, peer := p }).setHistory p
      (((s.history p).receive r).record ⟨r, s.captured, none⟩)
  else
    (s.setThread c { t with handler := .copying r, peer := p }).setHistory p
      ((s.history p).receive r)

/-- `none`: the event is not that thread's next step, or cannot happen on its descriptor. -/
def step (isPtp : Bool) (sockfd : ℕ) (s : PrimaryServer) : ServerEvent → Option PrimaryServer
  | .capture ts => (RollingBuffer.push collectorCount s.buffer ts).map fun buffer =>
      { s with buffer, captured := s.captured ++ [ts] }
  | .accept fd =>
    match s.acceptor with
    | .accepting => acceptClient isPtp s fd
    | _ => none
  | .acceptFails =>
    match s.acceptor with
    | .accepting => if isPtp then none else some { s with acceptor := .returned 1 }
    | _ => none
  | .create started =>
    match s.acceptor with
    | .accepted c fd =>
      if started then
        some { s.setThread c ⟨fd, .receiving, false, 0⟩ with
          acceptor := if isPtp then .joining c else .accepting }
      else some { s.closeSocket fd with acceptor := .accepting }
    | _ => none
  | .join =>
    match s.acceptor with
    | .joining c =>
      if (s.thread c).any (·.closed) then some { s with acceptor := .accepting } else none
    | _ => none
  | .receive c message => (s.thread c).bind fun t =>
    match t.handler, message with
    | .receiving, none => some (s.setThread c { t with handler := .ended 1 })
    | .receiving, some (sender, r) =>
      ((s.table (descriptor sockfd t.sockfd)).bind (OpenFile.sender isPtp sender)).map fun p =>
        receiveFrom isPtp s c t p r
    | _, _ => none
  | .copy c now => (s.thread c).bind fun t =>
    match t.handler with
    | .copying r =>
      let reply := buildReply s.buffer r.count.toNat now
      some ((s.setThread c { t with handler := reply.elim (.ended 1) (.sending r) }).setHistory t.peer
        ((s.history t.peer).record ⟨r, s.captured, reply⟩))
    | _ => none
  | .send c sent => (s.thread c).bind fun t =>
    match t.handler with
    | .sending r m =>
      if sent then
        ((s.table (descriptor sockfd t.sockfd)).bind (OpenFile.receiver isPtp s.destSa)).map fun p =>
          (s.setThread c { t with handler := if r.header = ack then .ended 0 else .receiving }).setHistory
            p ((s.history p).reply m)
      else some (s.setThread c { t with handler := .ended 1 })
    | _ => none
  | .close c => (s.thread c).bind fun t =>
    match t.handler, t.closed with
    | .ended _, false =>
      some ((if t.sockfd ≠ 0 then s.closeSocket t.sockfd else s).setThread c { t with closed := true })
    | _, _ => none

/-! ## What a step does -/

inductive Moved (isPtp : Bool) (sockfd : ℕ) (s : PrimaryServer) : PrimaryServer → Prop where
  | capture (ts : Os.U64) {buffer : List Os.U64}
      (hpush : RollingBuffer.push collectorCount s.buffer ts = some buffer) :
      Moved isPtp sockfd s { s with buffer, captured := s.captured ++ [ts] }
  | acceptPtp (hmode : isPtp = true) (hacceptor : s.acceptor = .accepting) :
      Moved isPtp sockfd s
        { s with acceptor := .accepted s.accepted 0, accepted := s.accepted + 1 }
  | acceptTcp {fd : ℕ} (hmode : isPtp = false) (hacceptor : s.acceptor = .accepting)
      (hfree : s.table fd = none) :
      Moved isPtp sockfd s { s with
        table := Function.update s.table fd (some (.client s.accepted))
        acceptor := .accepted s.accepted fd
        accepted := s.accepted + 1 }
  | acceptFails (hmode : isPtp = false) (hacceptor : s.acceptor = .accepting) :
      Moved isPtp sockfd s { s with acceptor := .returned 1 }
  | started {c fd : ℕ} (hacceptor : s.acceptor = .accepted c fd) :
      Moved isPtp sockfd s { s.setThread c ⟨fd, .receiving, false, 0⟩ with
        acceptor := if isPtp then .joining c else .accepting }
  | notStarted {c fd : ℕ} (hacceptor : s.acceptor = .accepted c fd) :
      Moved isPtp sockfd s { s.closeSocket fd with acceptor := .accepting }
  | joined {c : ℕ} {t : HandlerThread} (hacceptor : s.acceptor = .joining c)
      (ht : s.thread c = some t) (hclosed : t.closed = true) :
      Moved isPtp sockfd s { s with acceptor := .accepting }
  | lost {c : ℕ} {t : HandlerThread} (ht : s.thread c = some t) (hpc : t.handler = .receiving) :
      Moved isPtp sockfd s (s.setThread c { t with handler := .ended 1 })
  | received {c sender p : ℕ} {t : HandlerThread} {f : OpenFile} (ht : s.thread c = some t)
      (hpc : t.handler = .receiving) (hfile : s.table (descriptor sockfd t.sockfd) = some f)
      (hsender : f.sender isPtp sender = some p) (r : Msg) :
      Moved isPtp sockfd s (receiveFrom isPtp s c t p r)
  | copied {c : ℕ} {t : HandlerThread} {r : Msg} (ht : s.thread c = some t)
      (hpc : t.handler = .copying r) (now : ℤ × ℤ) {reply : Option Msg}
      (hreply : buildReply s.buffer r.count.toNat now = reply) :
      Moved isPtp sockfd s
        ((s.setThread c { t with handler := reply.elim (.ended 1) (.sending r) }).setHistory t.peer
          ((s.history t.peer).record ⟨r, s.captured, reply⟩))
  | unsent {c : ℕ} {t : HandlerThread} {r m : Msg} (ht : s.thread c = some t)
      (hpc : t.handler = .sending r m) :
      Moved isPtp sockfd s (s.setThread c { t with handler := .ended 1 })
  | sent {c p : ℕ} {t : HandlerThread} {f : OpenFile} {r m : Msg} (ht : s.thread c = some t)
      (hpc : t.handler = .sending r m) (hfile : s.table (descriptor sockfd t.sockfd) = some f)
      (hreceiver : f.receiver isPtp s.destSa = some p) :
      Moved isPtp sockfd s
        ((s.setThread c { t with handler := if r.header = ack then .ended 0 else .receiving }).setHistory
          p ((s.history p).reply m))
  | closed {c ret : ℕ} {t : HandlerThread} (ht : s.thread c = some t) (hpc : t.handler = .ended ret)
      (hopen : t.closed = false) :
      Moved isPtp sockfd s ((if t.sockfd ≠ 0 then s.closeSocket t.sockfd else s).setThread c
        { t with handler := .ended ret, closed := true })

section StepCases

variable {isPtp : Bool} {sockfd : ℕ} {s s' : PrimaryServer}

theorem moved_acceptor {e : ServerEvent} (he : (∃ fd, e = .accept fd) ∨ e = .acceptFails ∨
    (∃ started, e = .create started) ∨ e = .join) (h : s.step isPtp sockfd e = some s') :
    Moved isPtp sockfd s s' := by
  cases hacceptor : s.acceptor with
  | accepting =>
      obtain ⟨fd, rfl⟩ | rfl | ⟨started, rfl⟩ | rfl := he
      · simp only [step, hacceptor, acceptClient] at h
        cases isPtp with
        | true =>
            simp only [if_true] at h
            split at h
            · obtain rfl := Option.some.inj h
              exact .acceptPtp rfl hacceptor
            · exact absurd h (by simp)
        | false =>
            simp only [Bool.false_eq_true, if_false] at h
            split at h
            · rename_i hfree
              obtain rfl := Option.some.inj h
              exact .acceptTcp rfl hacceptor hfree
            · exact absurd h (by simp)
      · cases isPtp with
        | true => simp [step, hacceptor] at h
        | false =>
            simp only [step, hacceptor, Bool.false_eq_true, if_false] at h
            obtain rfl := Option.some.inj h
            exact .acceptFails rfl hacceptor
      · simp [step, hacceptor] at h
      · simp [step, hacceptor] at h
  | accepted c fd =>
      obtain ⟨fd, rfl⟩ | rfl | ⟨started, rfl⟩ | rfl := he
      · simp [step, hacceptor] at h
      · simp [step, hacceptor] at h
      · simp only [step, hacceptor] at h
        split at h
        · obtain rfl := Option.some.inj h
          exact .started hacceptor
        · obtain rfl := Option.some.inj h
          exact .notStarted hacceptor
      · simp [step, hacceptor] at h
  | joining c =>
      obtain ⟨fd, rfl⟩ | rfl | ⟨started, rfl⟩ | rfl := he
      · simp [step, hacceptor] at h
      · simp [step, hacceptor] at h
      · simp [step, hacceptor] at h
      · simp only [step, hacceptor] at h
        split at h
        · rename_i hclosed
          obtain rfl := Option.some.inj h
          obtain ⟨t, ht, hclosed⟩ := (Option.any_eq_true _ _).mp hclosed
          exact .joined hacceptor ht hclosed
        · exact absurd h (by simp)
  | returned ret =>
      obtain ⟨fd, rfl⟩ | rfl | ⟨started, rfl⟩ | rfl := he
      · simp [step, hacceptor] at h
      · simp [step, hacceptor] at h
      · simp [step, hacceptor] at h
      · simp [step, hacceptor] at h

theorem moved_of_step {e : ServerEvent} (h : s.step isPtp sockfd e = some s') :
    Moved isPtp sockfd s s' := by
  cases e with
  | capture ts =>
      obtain ⟨buffer, hpush, rfl⟩ := Option.map_eq_some_iff.mp h
      exact .capture ts hpush
  | accept fd => exact moved_acceptor (.inl ⟨fd, rfl⟩) h
  | acceptFails => exact moved_acceptor (.inr (.inl rfl)) h
  | create started => exact moved_acceptor (.inr (.inr (.inl ⟨started, rfl⟩))) h
  | join => exact moved_acceptor (.inr (.inr (.inr rfl))) h
  | receive c message =>
      obtain ⟨t, ht, h⟩ := Option.bind_eq_some_iff.mp h
      cases hpc : t.handler with
      | receiving =>
          cases message with
          | none =>
              simp only [hpc, Option.some.injEq] at h
              subst h
              exact .lost ht hpc
          | some message =>
              simp only [hpc] at h
              obtain ⟨p, hp, rfl⟩ := Option.map_eq_some_iff.mp h
              obtain ⟨f, hfile, hsender⟩ := Option.bind_eq_some_iff.mp hp
              exact .received ht hpc hfile hsender message.2
      | copying r => simp [hpc] at h
      | sending r m => simp [hpc] at h
      | ended ret => simp [hpc] at h
  | copy c now =>
      obtain ⟨t, ht, h⟩ := Option.bind_eq_some_iff.mp h
      cases hpc : t.handler with
      | copying r =>
          simp only [hpc, Option.some.injEq] at h
          subst h
          exact .copied ht hpc now rfl
      | receiving => simp [hpc] at h
      | sending r m => simp [hpc] at h
      | ended ret => simp [hpc] at h
  | send c sent =>
      obtain ⟨t, ht, h⟩ := Option.bind_eq_some_iff.mp h
      cases hpc : t.handler with
      | sending r m =>
          simp only [hpc] at h
          split at h
          · obtain ⟨p, hp, rfl⟩ := Option.map_eq_some_iff.mp h
            obtain ⟨f, hfile, hreceiver⟩ := Option.bind_eq_some_iff.mp hp
            exact .sent ht hpc hfile hreceiver
          · obtain rfl := Option.some.inj h
            exact .unsent ht hpc
      | receiving => simp [hpc] at h
      | copying r => simp [hpc] at h
      | ended ret => simp [hpc] at h
  | close c =>
      obtain ⟨t, ht, h⟩ := Option.bind_eq_some_iff.mp h
      cases hpc : t.handler with
      | ended ret =>
          cases hopen : t.closed with
          | false =>
              simp only [hpc, hopen, Option.some.injEq] at h
              subst h
              exact .closed ht hpc hopen
          | true => simp [hpc, hopen] at h
      | receiving => simp [hpc] at h
      | copying r => simp [hpc] at h
      | sending r m => simp [hpc] at h

end StepCases

end PrimaryServer

/-! ## Handlers at work -/

def Handler.phase : Handler → RequestPhase
  | copying r => .deciding r
  | sending _ m => .answering m
  | _ => .idle

namespace PrimaryServer

variable {isPtp : Bool} {sockfd : ℕ} {s s' : PrimaryServer} {c : ℕ} {t : HandlerThread}

theorem thread_setThread {d : ℕ} {u : HandlerThread} (h : (s.setThread c t).thread d = some u) :
    d = c ∧ u = t ∨ d ≠ c ∧ s.thread d = some u := by
  change Function.update s.thread c (some t) d = some u at h
  by_cases hd : d = c
  · subst hd
    rw [Function.update_self] at h
    exact .inl ⟨rfl, (Option.some.inj h).symm⟩
  · rw [Function.update_of_ne hd] at h
    exact .inr ⟨hd, h⟩

theorem forall_setThread {P : ℕ → HandlerThread → Prop} (hs : ∀ d u, s.thread d = some u → P d u)
    (ht : P c t) : ∀ d u, (s.setThread c t).thread d = some u → P d u := by
  intro d u hu
  obtain ⟨rfl, rfl⟩ | ⟨-, hu⟩ := thread_setThread hu
  · exact ht
  · exact hs d u hu

/-- Handlers at work on requests of their peers, each of which waits for no other. -/
structure Isolated (isPtp : Bool) (sockfd : ℕ) (s : PrimaryServer) : Prop where
  unique : ∀ c d t u, s.thread c = some t → s.thread d = some u → t.handler.phase ≠ .idle →
    u.handler.phase ≠ .idle → t.peer = u.peer → c = d
  fresh : ∀ c t f sender p, s.thread c = some t → t.handler = .receiving →
    s.table (descriptor sockfd t.sockfd) = some f → f.sender isPtp sender = some p →
    ∀ d u, s.thread d = some u → u.handler.phase ≠ .idle → u.peer ≠ p
  answers : ∀ c t f p, s.thread c = some t → t.handler.phase ≠ .idle →
    s.table (descriptor sockfd t.sockfd) = some f → f.receiver isPtp s.destSa = some p → p = t.peer

structure Numbered (s : PrimaryServer) : Prop where
  accepted : ∀ c t, s.thread c = some t → c < s.accepted
  waiting : ∀ c fd, s.acceptor = .accepted c fd → c < s.accepted ∧ s.thread c = none
  ended : ∀ c t, s.thread c = some t → t.closed = true → ∃ ret, t.handler = .ended ret

theorem numbered_start (others : ℕ → Bool) : (start sockfd others).Numbered where
  accepted := by simp [start]
  waiting := by simp [start]
  ended := by simp [start]

theorem Numbered.not_closed (hs : s.Numbered) (ht : s.thread c = some t)
    (hpc : ∀ ret, t.handler ≠ .ended ret) : t.closed = false := by
  rw [Bool.eq_false_iff]
  intro hclosed
  obtain ⟨ret, hret⟩ := hs.ended c t ht hclosed
  exact hpc ret hret

theorem Numbered.next (hs : s.Numbered) : s.thread s.accepted = none := by
  cases hthread : s.thread s.accepted with
  | none => rfl
  | some t => exact absurd (hs.accepted _ t hthread) (Nat.lt_irrefl _)

theorem Numbered.move (hs : s.Numbered) (ht : s.thread c = some t) {u : HandlerThread}
    (hended : u.closed = true → ∃ ret, u.handler = .ended ret)
    (hthread : s'.thread = (s.setThread c u).thread) (hacceptor : s'.acceptor = s.acceptor)
    (haccepted : s'.accepted = s.accepted) : s'.Numbered where
  accepted := by
    rw [hthread, haccepted]
    exact forall_setThread hs.accepted (hs.accepted c t ht)
  waiting d fd hd := by
    rw [hacceptor] at hd
    obtain ⟨hlt, hnone⟩ := hs.waiting d fd hd
    have hne : d ≠ c := by
      rintro rfl
      exact absurd (hnone.symm.trans ht) (by simp)
    rw [hthread, haccepted]
    exact ⟨hlt, (Function.update_of_ne hne ..).trans hnone⟩
  ended := by
    rw [hthread]
    exact forall_setThread hs.ended hended

theorem Numbered.advance (hs : s.Numbered) (ht : s.thread c = some t)
    (hpc : ∀ ret, t.handler ≠ .ended ret) {h : Handler} {p : ℕ}
    (hthread : s'.thread = (s.setThread c { t with handler := h, peer := p }).thread)
    (hacceptor : s'.acceptor = s.acceptor) (haccepted : s'.accepted = s.accepted) : s'.Numbered := by
  have hopen := hs.not_closed ht hpc
  refine hs.move ht (fun hclosed => ?_) hthread hacceptor haccepted
  exact absurd (hclosed.symm.trans hopen) (by simp)

theorem Numbered.step (hs : s.Numbered) (h : Moved isPtp sockfd s s') : s'.Numbered := by
  cases h with
  | capture ts hpush => exact ⟨hs.accepted, hs.waiting, hs.ended⟩
  | acceptPtp _ hacceptor =>
      refine ⟨fun c t ht => Nat.lt_succ_of_lt (hs.accepted c t ht), ?_, hs.ended⟩
      intro c fd hc
      obtain ⟨rfl, rfl⟩ := Acceptor.accepted.inj hc
      exact ⟨Nat.lt_succ_self _, hs.next⟩
  | acceptTcp _ hacceptor _ =>
      refine ⟨fun c t ht => Nat.lt_succ_of_lt (hs.accepted c t ht), ?_, hs.ended⟩
      intro c fd hc
      obtain ⟨rfl, rfl⟩ := Acceptor.accepted.inj hc
      exact ⟨Nat.lt_succ_self _, hs.next⟩
  | acceptFails => exact ⟨hs.accepted, by simp, hs.ended⟩
  | @started c fd hacceptor =>
      refine ⟨forall_setThread hs.accepted (hs.waiting c fd hacceptor).1, ?_,
        forall_setThread hs.ended (by simp)⟩
      cases isPtp with
      | true => simp
      | false => simp
  | notStarted => exact ⟨hs.accepted, by simp, hs.ended⟩
  | joined => exact ⟨hs.accepted, by simp, hs.ended⟩
  | lost ht hpc => exact hs.advance ht (by simp [hpc]) rfl rfl rfl
  | received ht hpc =>
      unfold receiveFrom
      dsimp only
      split
      · exact hs.advance ht (by simp [hpc]) rfl rfl rfl
      · exact hs.advance ht (by simp [hpc]) rfl rfl rfl
  | copied ht hpc => exact hs.advance ht (by simp [hpc]) rfl rfl rfl
  | unsent ht hpc => exact hs.advance ht (by simp [hpc]) rfl rfl rfl
  | sent ht hpc => exact hs.advance ht (by simp [hpc]) rfl rfl rfl
  | @closed c ret t ht hpc hopen =>
      split
      · exact hs.move ht (fun _ => ⟨ret, rfl⟩) rfl rfl rfl
      · exact hs.move ht (fun _ => ⟨ret, rfl⟩) rfl rfl rfl

end PrimaryServer

end Genlock.Swgenlock
