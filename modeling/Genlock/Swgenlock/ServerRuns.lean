import Genlock.Lib.Leases
import Genlock.Swgenlock.Server
import Mathlib.Data.List.Nodup

/-! # Every client by itself

The handlers keep out of each other's way: over TCP because each has a descriptor that nobody
else closes, over PTP because there is one at a time. Seen from the peers the primary is
then the service of the timestamps alone.
-/

namespace Genlock.Swgenlock

namespace PrimaryServer

variable {isPtp : Bool} {sockfd : ℕ} {s s' : PrimaryServer} {c : ℕ} {t : HandlerThread}

/-! ## Over TCP -/

/-- The descriptor of a client that its thread, or the loop before that, has not closed. -/
def holds (s : PrimaryServer) (c : ℕ) : Option ℕ :=
  match s.thread c with
  | some t => if t.closed ∧ t.sockfd ≠ 0 then none else some t.sockfd
  | none =>
    match s.acceptor with
    | .accepted d fd => if d = c then some fd else none
    | _ => none

/-- What is open besides the clients is what was open at the start, and each client has its
descriptor until that is closed, once. -/
structure Kept (table₀ table : ℕ → Option OpenFile) (holds : ℕ → Option ℕ) (accepted : ℕ)
    (closes : List (Option OpenFile)) : Prop where
  leases : Leases table OpenFile.client holds
  own : ∀ fd f, table₀ fd = some f → table fd = some f
  foreign : ∀ fd c, table₀ fd ≠ some (.client c)
  nodup : closes.Nodup
  closed : ∀ f, f ∈ closes ↔ ∃ c, c < accepted ∧ holds c = none ∧ f = some (.client c)

namespace Kept

variable {table₀ table : ℕ → Option OpenFile} {holds : ℕ → Option ℕ} {accepted fd : ℕ}
  {closes : List (Option OpenFile)}

theorem client_injective : Function.Injective OpenFile.client := fun _ _ h => OpenFile.client.inj h

theorem lease (h : Kept table₀ table holds accepted closes) (hfree : table fd = none)
    (hnext : holds accepted = none) :
    Kept table₀ (Function.update table fd (some (.client accepted)))
      (Function.update holds accepted (some fd)) (accepted + 1) closes where
  leases := h.leases.lease client_injective hfree hnext
  own fd' f hf := by
    have hne : fd' ≠ fd := by
      rintro rfl
      exact absurd ((h.own fd' f hf).symm.trans hfree) (by simp)
    rw [Function.update_of_ne hne]
    exact h.own fd' f hf
  foreign := h.foreign
  nodup := h.nodup
  closed f := by
    rw [h.closed f]
    constructor
    · rintro ⟨d, hd, hholds, rfl⟩
      refine ⟨d, Nat.lt_succ_of_lt hd, ?_, rfl⟩
      rw [Function.update_of_ne (Nat.ne_of_lt hd)]
      exact hholds
    · rintro ⟨d, hd, hholds, rfl⟩
      have hne : d ≠ accepted := by
        rintro rfl
        rw [Function.update_self] at hholds
        exact absurd hholds (by simp)
      rw [Function.update_of_ne hne] at hholds
      exact ⟨d, by omega, hholds, rfl⟩

theorem release (h : Kept table₀ table holds accepted closes) {c : ℕ} (hc : c < accepted)
    (hholds : holds c = some fd) :
    Kept table₀ (Function.update table fd none) (Function.update holds c none) accepted
      (closes ++ [table fd]) where
  leases := h.leases.release client_injective hholds
  own fd' f hf := by
    have hne : fd' ≠ fd := by
      rintro rfl
      have hclient := (h.own fd' f hf).symm.trans ((h.leases fd' c).mpr hholds)
      obtain rfl := Option.some.inj hclient
      exact h.foreign fd' c hf
    rw [Function.update_of_ne hne]
    exact h.own fd' f hf
  foreign := h.foreign
  nodup := by
    rw [(h.leases fd c).mpr hholds, List.nodup_append]
    refine ⟨h.nodup, List.nodup_singleton _, ?_⟩
    intro f hf g hg heq
    rw [List.mem_singleton] at hg
    subst hg
    subst heq
    obtain ⟨d, -, hd, hclient⟩ := (h.closed _).mp hf
    obtain rfl := client_injective (Option.some.inj hclient)
    exact absurd (hd.symm.trans hholds) (by simp)
  closed f := by
    rw [(h.leases fd c).mpr hholds, List.mem_append, List.mem_singleton, h.closed f]
    constructor
    · rintro (⟨d, hd, hnone, rfl⟩ | rfl)
      · have hne : d ≠ c := by
          rintro rfl
          exact absurd (hnone.symm.trans hholds) (by simp)
        exact ⟨d, hd, by rw [Function.update_of_ne hne]; exact hnone, rfl⟩
      · exact ⟨c, hc, Function.update_self .., rfl⟩
    · rintro ⟨d, hd, hnone, rfl⟩
      by_cases hdc : d = c
      · exact .inr (by rw [hdc])
      · rw [Function.update_of_ne hdc] at hnone
        exact .inl ⟨d, hd, hnone, rfl⟩

end Kept

structure TcpInv (sockfd : ℕ) (others : ℕ → Bool) (s : PrimaryServer) : Prop where
  numbered : s.Numbered
  kept : Kept (start sockfd others).table s.table s.holds s.accepted s.closes
  peer : ∀ c t, s.thread c = some t → t.handler.phase ≠ .idle → t.peer = c

section Tcp

variable {others : ℕ → Bool}

theorem start_foreign (fd c : ℕ) : (start sockfd others).table fd ≠ some (.client c) := by
  unfold start
  dsimp only
  split
  · simp
  · split
    · simp
    · simp

theorem tcpInv_start : (start sockfd others).TcpInv sockfd others where
  numbered := numbered_start others
  kept := by
    have hholds : (start sockfd others).holds = fun _ => none := rfl
    refine ⟨?_, fun _ _ h => h, start_foreign, List.nodup_nil, fun f => ?_⟩
    · rw [hholds]
      exact Leases.none_held start_foreign
    · simp [start]
  peer := by simp [start]

/-- A thread that goes on with its descriptor. -/
theorem holds_setThread {u : HandlerThread} (ht : s.thread c = some t) (hsockfd : u.sockfd = t.sockfd)
    (hclosed : u.closed = t.closed) : (s.setThread c u).holds = s.holds := by
  funext d
  unfold holds
  by_cases hd : d = c
  · subst hd
    simp [setThread, ht, hsockfd, hclosed]
  · simp [setThread, Function.update_of_ne hd]

/-- The descriptor of a thread that has not closed it, until it does. -/
theorem TcpInv.holds_eq (hs : s.TcpInv sockfd others) (ht : s.thread c = some t)
    (hpc : ∀ ret, t.handler ≠ .ended ret) : s.holds c = some t.sockfd := by
  simp [holds, ht, hs.numbered.not_closed ht hpc]

/-- A thread is on the connection of its client; with descriptor 0 it is on the listening
socket. -/
theorem TcpInv.file_eq (hs : s.TcpInv sockfd others) (ht : s.thread c = some t)
    (hpc : ∀ ret, t.handler ≠ .ended ret) {f : OpenFile}
    (hfile : s.table (descriptor sockfd t.sockfd) = some f) : f = .client c ∨ f = .server := by
  by_cases hzero : t.sockfd = 0
  · have hserver : s.table sockfd = some .server := hs.kept.own sockfd .server (if_pos rfl)
    rw [descriptor, if_neg (not_not.mpr hzero), hserver] at hfile
    exact .inr (Option.some.inj hfile).symm
  · have hclient := (hs.kept.leases t.sockfd c).mpr (hs.holds_eq ht hpc)
    rw [descriptor, if_pos hzero, hclient] at hfile
    exact .inl (Option.some.inj hfile).symm

theorem TcpInv.advance (hs : s.TcpInv sockfd others) (ht : s.thread c = some t)
    (hnumbered : s'.Numbered) {h : Handler} {p : ℕ} (hpeer : h.phase ≠ .idle → p = c)
    (hthread : s'.thread = (s.setThread c { t with handler := h, peer := p }).thread)
    (htable : s'.table = s.table) (hacceptor : s'.acceptor = s.acceptor)
    (haccepted : s'.accepted = s.accepted) (hcloses : s'.closes = s.closes) :
    s'.TcpInv sockfd others where
  numbered := hnumbered
  kept := by
    have hholds : s'.holds = s.holds := by
      rw [← holds_setThread (u := { t with handler := h, peer := p }) ht rfl rfl]
      unfold holds
      rw [hthread, hacceptor]
      rfl
    rw [htable, hholds, haccepted, hcloses]
    exact hs.kept
  peer := by
    rw [hthread]
    exact forall_setThread hs.peer hpeer

theorem TcpInv.close (hs : s.TcpInv sockfd others) {ret : ℕ} (ht : s.thread c = some t)
    (hopen : t.closed = false) :
    ((if t.sockfd ≠ 0 then s.closeSocket t.sockfd else s).setThread c
      { t with handler := .ended ret, closed := true }).TcpInv sockfd others := by
  by_cases hzero : t.sockfd ≠ 0
  · rw [if_pos hzero]
    have hholds : ((s.closeSocket t.sockfd).setThread c
        { t with handler := .ended ret, closed := true }).holds = Function.update s.holds c none := by
      funext d
      by_cases hd : d = c
      · subst hd
        simp [holds, setThread, hzero]
      · simp [holds, setThread, closeSocket, Function.update_of_ne hd]
    refine ⟨hs.numbered.move ht (fun _ => ⟨ret, rfl⟩) rfl rfl rfl, ?_,
      forall_setThread hs.peer fun h => absurd rfl h⟩
    rw [hholds]
    exact hs.kept.release (hs.numbered.accepted c t ht) (by simp [holds, ht, hopen])
  · rw [if_neg hzero]
    have hholds : (s.setThread c { t with handler := .ended ret, closed := true }).holds = s.holds := by
      funext d
      by_cases hd : d = c
      · subst hd
        simp [holds, setThread, ht, not_not.mp hzero]
      · simp [holds, setThread, Function.update_of_ne hd]
    refine ⟨hs.numbered.move ht (fun _ => ⟨ret, rfl⟩) rfl rfl rfl, ?_,
      forall_setThread hs.peer fun h => absurd rfl h⟩
    rw [hholds]
    exact hs.kept

theorem TcpInv.step (hs : s.TcpInv sockfd others) (h : Moved false sockfd s s') :
    s'.TcpInv sockfd others := by
  have hnumbered := hs.numbered.step h
  cases h with
  | capture ts hpush => exact ⟨hnumbered, hs.kept, hs.peer⟩
  | acceptPtp hmode => exact absurd hmode (by simp)
  | @acceptTcp fd _ hacceptor hfree =>
      refine ⟨hnumbered, ?_, hs.peer⟩
      have hnext := hs.numbered.next
      have hholds : holds { s with
          table := Function.update s.table fd (some (.client s.accepted))
          acceptor := .accepted s.accepted fd
          accepted := s.accepted + 1 } = Function.update s.holds s.accepted (some fd) := by
        funext c
        by_cases hc : c = s.accepted
        · subst hc
          simp [holds, hnext]
        · simp [holds, Function.update_of_ne hc, hacceptor, Ne.symm hc]
      rw [hholds]
      exact hs.kept.lease hfree (by simp [holds, hnext, hacceptor])
  | acceptFails _ hacceptor =>
      refine ⟨hnumbered, ?_, hs.peer⟩
      have hholds : holds { s with acceptor := .returned 1 } = s.holds := by
        funext c
        simp [holds, hacceptor]
      rw [hholds]
      exact hs.kept
  | @started c fd hacceptor =>
      obtain ⟨hlt, hnone⟩ := hs.numbered.waiting c fd hacceptor
      refine ⟨hnumbered, ?_, forall_setThread hs.peer fun h => absurd rfl h⟩
      have hholds : holds { s.setThread c ⟨fd, .receiving, false, 0⟩ with
          acceptor := if false then .joining c else .accepting } = s.holds := by
        funext d
        by_cases hd : d = c
        · subst hd
          simp [holds, setThread, hnone, hacceptor]
        · simp [holds, setThread, Function.update_of_ne hd, hacceptor, Ne.symm hd]
      rw [hholds]
      exact hs.kept
  | @notStarted c fd hacceptor =>
      obtain ⟨hlt, hnone⟩ := hs.numbered.waiting c fd hacceptor
      refine ⟨hnumbered, ?_, hs.peer⟩
      have hholds : holds { s.closeSocket fd with acceptor := .accepting } =
          Function.update s.holds c none := by
        funext d
        by_cases hd : d = c
        · subst hd
          simp [holds, closeSocket, hnone]
        · simp [holds, closeSocket, Function.update_of_ne hd, hacceptor, Ne.symm hd]
      rw [hholds]
      exact hs.kept.release hlt (by simp [holds, hnone, hacceptor])
  | joined hacceptor =>
      refine ⟨hnumbered, ?_, hs.peer⟩
      have hholds : holds { s with acceptor := .accepting } = s.holds := by
        funext c
        simp [holds, hacceptor]
      rw [hholds]
      exact hs.kept
  | lost ht hpc => exact hs.advance ht hnumbered (fun h => absurd rfl h) rfl rfl rfl rfl rfl
  | @received c sender p t f ht hpc hfile hsender r =>
      have hpeer : p = c := by
        obtain rfl | rfl := hs.file_eq ht (by simp [hpc]) hfile
        · exact (Option.some.inj hsender).symm
        · exact absurd hsender (by simp [OpenFile.sender])
      unfold receiveFrom at hnumbered ⊢
      dsimp only at hnumbered ⊢
      split at hnumbered
      · rename_i hinvalid
        rw [if_pos hinvalid]
        exact hs.advance ht hnumbered (fun _ => hpeer) rfl rfl rfl rfl rfl
      · rename_i hvalid
        rw [if_neg hvalid]
        exact hs.advance ht hnumbered (fun _ => hpeer) rfl rfl rfl rfl rfl
  | @copied c t r ht hpc now reply hreply =>
      exact hs.advance ht hnumbered (fun _ => hs.peer c t ht (by simp [hpc, Handler.phase]))
        rfl rfl rfl rfl rfl
  | unsent ht hpc => exact hs.advance ht hnumbered (fun h => absurd rfl h) rfl rfl rfl rfl rfl
  | @sent c p t f r m ht hpc hfile hreceiver =>
      exact hs.advance ht hnumbered (fun _ => hs.peer c t ht (by simp [hpc, Handler.phase]))
        rfl rfl rfl rfl rfl
  | closed ht _ hopen => exact hs.close ht hopen

theorem TcpInv.isolated (hs : s.TcpInv sockfd others) : s.Isolated false sockfd where
  unique c d t u ht hu htphase huphase hpeer := by
    rw [← hs.peer c t ht htphase, ← hs.peer d u hu huphase, hpeer]
  fresh c t f sender p ht hpc hfile hsender d u hu huphase hpeer := by
    have hp : p = c := by
      obtain rfl | rfl := hs.file_eq ht (by simp [hpc]) hfile
      · exact (Option.some.inj hsender).symm
      · exact absurd hsender (by simp [OpenFile.sender])
    obtain rfl : d = c := (hs.peer d u hu huphase).symm.trans (hpeer.trans hp)
    obtain rfl := Option.some.inj (hu.symm.trans ht)
    exact huphase (by rw [hpc]; rfl)
  answers c t f p ht htphase hfile hreceiver := by
    have hpc : ∀ ret, t.handler ≠ .ended ret := by
      intro ret hret
      exact htphase (by rw [hret]; rfl)
    obtain rfl | rfl := hs.file_eq ht hpc hfile
    · exact (Option.some.inj hreceiver).symm.trans (hs.peer c t ht htphase).symm
    · exact absurd hreceiver (by simp [OpenFile.receiver])

end Tcp

/-! ## Over PTP -/

/-- One thread at a time; whom it is to answer is in `dest_sa`. -/
structure PtpInv (sockfd : ℕ) (others : ℕ → Bool) (s : PrimaryServer) : Prop where
  numbered : s.Numbered
  one : ∀ c t, s.thread c = some t → t.closed = true ∨ s.acceptor = .joining c
  waiting : ∀ c fd, s.acceptor = .accepted c fd → fd = 0
  zero : ∀ c t, s.thread c = some t → t.sockfd = 0
  own : ∀ fd, fd ≠ 0 → s.table fd = (start sockfd others).table fd
  noClient : ∀ fd c, s.table fd ≠ some (.client c)
  dest : ∀ c t, s.thread c = some t → t.handler.phase ≠ .idle → s.destSa = some t.peer

section Ptp

variable {others : ℕ → Bool}

theorem ptpInv_start : (start sockfd others).PtpInv sockfd others where
  numbered := numbered_start others
  one := by simp [start]
  waiting := by simp [start]
  zero := by simp [start]
  own _ _ := rfl
  noClient := start_foreign
  dest := by simp [start]

theorem PtpInv.joining (hs : s.PtpInv sockfd others) (ht : s.thread c = some t)
    (hpc : ∀ ret, t.handler ≠ .ended ret) : s.acceptor = .joining c := by
  refine (hs.one c t ht).resolve_left ?_
  rw [hs.numbered.not_closed ht hpc]
  simp

theorem PtpInv.alone (hs : s.PtpInv sockfd others) (ht : s.thread c = some t)
    (hpc : ∀ ret, t.handler ≠ .ended ret) {d : ℕ} {u : HandlerThread} (hu : s.thread d = some u)
    (huphase : u.handler.phase ≠ .idle) : d = c := by
  have hd : s.acceptor = .joining d := by
    refine hs.joining hu ?_
    intro ret hret
    exact huphase (by rw [hret]; rfl)
  exact Acceptor.joining.inj (hd.symm.trans (hs.joining ht hpc))

theorem PtpInv.advance (hs : s.PtpInv sockfd others) (ht : s.thread c = some t)
    (hnumbered : s'.Numbered) (hpc : ∀ ret, t.handler ≠ .ended ret) {h : Handler} {p : ℕ}
    (hdest : h.phase ≠ .idle → s'.destSa = some p)
    (hthread : s'.thread = (s.setThread c { t with handler := h, peer := p }).thread)
    (htable : s'.table = s.table) (hacceptor : s'.acceptor = s.acceptor) :
    s'.PtpInv sockfd others where
  numbered := hnumbered
  one := by
    rw [hthread, hacceptor]
    exact forall_setThread hs.one (.inr (hs.joining ht hpc))
  waiting := by
    rw [hacceptor]
    exact hs.waiting
  zero := by
    rw [hthread]
    exact forall_setThread hs.zero (hs.zero c t ht)
  own := by
    rw [htable]
    exact hs.own
  noClient := by
    rw [htable]
    exact hs.noClient
  dest d u hu huphase := by
    rw [hthread] at hu
    obtain ⟨rfl, rfl⟩ | ⟨hd, hu⟩ := thread_setThread hu
    · exact hdest huphase
    · exact absurd (hs.alone ht hpc hu huphase) hd

theorem PtpInv.step (hs : s.PtpInv sockfd others) (h : Moved true sockfd s s') :
    s'.PtpInv sockfd others := by
  have hnumbered := hs.numbered.step h
  cases h with
  | capture ts hpush =>
      exact ⟨hnumbered, hs.one, hs.waiting, hs.zero, hs.own, hs.noClient, hs.dest⟩
  | acceptPtp _ hacceptor =>
      refine ⟨hnumbered, fun c t ht => ?_, ?_, hs.zero, hs.own, hs.noClient, hs.dest⟩
      · exact .inl ((hs.one c t ht).resolve_right (by simp [hacceptor]))
      · intro c fd hc
        exact (Acceptor.accepted.inj hc).2.symm
  | acceptTcp hmode => exact absurd hmode (by simp)
  | acceptFails hmode => exact absurd hmode (by simp)
  | @started c fd hacceptor =>
      refine ⟨hnumbered, ?_, by simp, forall_setThread hs.zero (hs.waiting c fd hacceptor), hs.own,
        hs.noClient, forall_setThread hs.dest fun h => absurd rfl h⟩
      refine forall_setThread (fun d u hu => ?_) (.inr rfl)
      exact .inl ((hs.one d u hu).resolve_right (by simp [hacceptor]))
  | @notStarted c fd hacceptor =>
      obtain rfl := hs.waiting c fd hacceptor
      refine ⟨hnumbered, fun d u hu => ?_, by simp, hs.zero, fun fd hfd => ?_, fun fd d => ?_, hs.dest⟩
      · exact .inl ((hs.one d u hu).resolve_right (by simp [hacceptor]))
      · exact (Function.update_of_ne hfd ..).trans (hs.own fd hfd)
      · by_cases hfd : fd = 0
        · subst hfd
          simp [closeSocket]
        · intro hclient
          exact hs.noClient fd d ((Function.update_of_ne hfd ..).symm.trans hclient)
  | @joined c t hacceptor ht hclosed =>
      refine ⟨hnumbered, fun d u hu => .inl ?_, by simp, hs.zero, hs.own, hs.noClient, hs.dest⟩
      cases hs.one d u hu with
      | inl hd => exact hd
      | inr hd =>
          obtain rfl := Acceptor.joining.inj (hacceptor.symm.trans hd)
          obtain rfl := Option.some.inj (ht.symm.trans hu)
          exact hclosed
  | lost ht hpc =>
      exact hs.advance ht hnumbered (by simp [hpc]) (fun h => absurd rfl h) rfl rfl rfl
  | @received c sender p t f ht hpc hfile hsender r =>
      unfold receiveFrom at hnumbered ⊢
      dsimp only at hnumbered ⊢
      split at hnumbered
      · rename_i hinvalid
        rw [if_pos hinvalid]
        exact hs.advance ht hnumbered (by simp [hpc]) (fun _ => rfl) rfl rfl rfl
      · rename_i hvalid
        rw [if_neg hvalid]
        exact hs.advance ht hnumbered (by simp [hpc]) (fun _ => rfl) rfl rfl rfl
  | @copied c t r ht hpc now reply hreply =>
      exact hs.advance ht hnumbered (by simp [hpc])
        (fun _ => hs.dest c t ht (by simp [hpc, Handler.phase])) rfl rfl rfl
  | unsent ht hpc =>
      exact hs.advance ht hnumbered (by simp [hpc]) (fun h => absurd rfl h) rfl rfl rfl
  | @sent c p t f r m ht hpc hfile hreceiver =>
      exact hs.advance ht hnumbered (by simp [hpc])
        (fun _ => hs.dest c t ht (by simp [hpc, Handler.phase])) rfl rfl rfl
  | @closed c ret t ht hpc hopen =>
      rw [if_neg (not_not.mpr (hs.zero c t ht))] at hnumbered ⊢
      exact ⟨hnumbered, forall_setThread hs.one (.inl rfl), hs.waiting,
        forall_setThread hs.zero (hs.zero c t ht), hs.own, hs.noClient,
        forall_setThread hs.dest fun h => absurd rfl h⟩

theorem PtpInv.isolated (hs : s.PtpInv sockfd others) : s.Isolated true sockfd where
  unique c d t u ht hu htphase huphase _ := by
    refine hs.alone hu ?_ ht htphase
    intro ret hret
    exact huphase (by rw [hret]; rfl)
  fresh c t f sender p ht hpc _ _ d u hu huphase _ := by
    obtain rfl := hs.alone ht (by simp [hpc]) hu huphase
    obtain rfl := Option.some.inj (hu.symm.trans ht)
    exact huphase (by rw [hpc]; rfl)
  answers c t f p ht htphase hfile hreceiver := by
    cases f with
    | server => exact Option.some.inj (hreceiver.symm.trans (hs.dest c t ht htphase))
    | client d => exact absurd hfile (hs.noClient _ d)
    | other => exact absurd hreceiver (by simp [OpenFile.receiver])

end Ptp

/-! ## Each peer as if it were alone -/

def Tracks (thread : ℕ → Option HandlerThread) (phase : ℕ → RequestPhase) : Prop :=
  ∀ p x, x ≠ .idle → (phase p = x ↔ ∃ c t, thread c = some t ∧ t.peer = p ∧ t.handler.phase = x)

namespace Tracks

variable {thread : ℕ → Option HandlerThread} {phase : ℕ → RequestPhase} {u : HandlerThread}

theorem idle (h : Tracks thread phase) (ht : ∀ t, thread c = some t → t.handler.phase = .idle)
    (hu : u.handler.phase = .idle) : Tracks (Function.update thread c (some u)) phase := by
  intro p x hx
  rw [h p x hx]
  constructor
  · rintro ⟨d, v, hv, hpeer, hphase⟩
    have hd : d ≠ c := by
      rintro rfl
      exact hx (hphase.symm.trans (ht v hv))
    exact ⟨d, v, (Function.update_of_ne hd ..).trans hv, hpeer, hphase⟩
  · rintro ⟨d, v, hv, hpeer, hphase⟩
    have hd : d ≠ c := by
      rintro rfl
      rw [Function.update_self] at hv
      obtain rfl := Option.some.inj hv
      exact hx (hphase.symm.trans hu)
    rw [Function.update_of_ne hd] at hv
    exact ⟨d, v, hv, hpeer, hphase⟩

theorem move {p : ℕ} (h : Tracks thread phase) (hc : thread c = some t)
    (hothers : ∀ d v, d ≠ c → thread d = some v → v.handler.phase ≠ .idle → v.peer ≠ p)
    (ht : t.handler.phase ≠ .idle → t.peer = p) (hu : u.peer = p) :
    Tracks (Function.update thread c (some u)) (Function.update phase p u.handler.phase) := by
  intro q x hx
  by_cases hq : q = p
  · subst hq
    rw [Function.update_self]
    constructor
    · intro hphase
      exact ⟨c, u, Function.update_self .., hu, hphase⟩
    · rintro ⟨d, v, hv, hpeer, hphase⟩
      by_cases hd : d = c
      · subst hd
        rw [Function.update_self] at hv
        obtain rfl := Option.some.inj hv
        exact hphase
      · rw [Function.update_of_ne hd] at hv
        exact absurd hpeer (hothers d v hd hv (by rw [hphase]; exact hx))
  · rw [Function.update_of_ne hq, h q x hx]
    constructor
    · rintro ⟨d, v, hv, hpeer, hphase⟩
      have hd : d ≠ c := by
        rintro rfl
        obtain rfl := Option.some.inj (hv.symm.trans hc)
        exact hq (hpeer.symm.trans (ht (by rw [hphase]; exact hx)))
      exact ⟨d, v, (Function.update_of_ne hd ..).trans hv, hpeer, hphase⟩
    · rintro ⟨d, v, hv, hpeer, hphase⟩
      have hd : d ≠ c := by
        rintro rfl
        rw [Function.update_self] at hv
        obtain rfl := Option.some.inj hv
        exact hq (hpeer.symm.trans hu)
      rw [Function.update_of_ne hd] at hv
      exact ⟨d, v, hv, hpeer, hphase⟩

end Tracks

structure Serves (s : PrimaryServer) (t : Service ℕ) : Prop where
  captured : t.captured = s.captured
  history : t.history = s.history
  buffer : s.buffer = s.captured.rtake collectorCount
  tracks : Tracks s.thread t.phase

theorem serves_start (others : ℕ → Bool) : (start sockfd others).Serves Service.start where
  captured := rfl
  history := rfl
  buffer := rfl
  tracks p x hx := by
    refine iff_of_false (fun h => hx h.symm) ?_
    rintro ⟨c, t, ht, -⟩
    exact absurd ht (by simp [start])

section Serves

variable {v : Service ℕ}

theorem Serves.quiet (hs : s.Serves v) (htracks : Tracks s'.thread v.phase)
    (hcaptured : s'.captured = s.captured) (hbuffer : s'.buffer = s.buffer)
    (hhistory : s'.history = s.history) :
    ∃ fs v', Steps.run (Service.step collectorCount) fs v = some v' ∧ s'.Serves v' := by
  refine ⟨[], v, rfl, ?_⟩
  exact ⟨hs.captured.trans hcaptured.symm, hs.history.trans hhistory.symm, by
    rw [hbuffer, hcaptured]
    exact hs.buffer, htracks⟩

theorem Serves.event (hs : s.Serves v) {p : ℕ} {u : HandlerThread} {x : RequestPhase}
    {h : PeerHistory} {e : ServiceEvent ℕ} (he : v.step collectorCount e = some (v.setPeer p x h))
    (hx : u.handler.phase = x) (hc : s.thread c = some t)
    (hothers : ∀ d w, d ≠ c → s.thread d = some w → w.handler.phase ≠ .idle → w.peer ≠ p)
    (ht : t.handler.phase ≠ .idle → t.peer = p) (hu : u.peer = p)
    (hthread : s'.thread = (s.setThread c u).thread)
    (hcaptured : s'.captured = s.captured) (hbuffer : s'.buffer = s.buffer)
    (hhistory : s'.history = Function.update s.history p h) :
    ∃ fs v', Steps.run (Service.step collectorCount) fs v = some v' ∧ s'.Serves v' := by
  refine ⟨[e], v.setPeer p x h, ?_, ?_⟩
  · rw [Steps.run, he]
    rfl
  · refine ⟨hs.captured.trans hcaptured.symm, ?_, ?_, ?_⟩
    · rw [hhistory, ← hs.history]
      rfl
    · rw [hbuffer, hcaptured]
      exact hs.buffer
    · rw [hthread]
      have htracks := hs.tracks.move hc hothers ht hu
      rwa [hx] at htracks

theorem Serves.step (hs : s.Serves v) (hn : s.Numbered) (hi : s.Isolated isPtp sockfd)
    (h : Moved isPtp sockfd s s') :
    ∃ fs v', Steps.run (Service.step collectorCount) fs v = some v' ∧ s'.Serves v' := by
  have hmax : 0 < collectorCount := by decide
  have hothers {c : ℕ} {t : HandlerThread} (ht : s.thread c = some t) (hphase : t.handler.phase ≠ .idle) :
      ∀ d w, d ≠ c → s.thread d = some w → w.handler.phase ≠ .idle → w.peer ≠ t.peer := by
    intro d w hd hw hwphase hpeer
    exact hd (hi.unique d c w t hw ht hwphase hphase hpeer)
  cases h with
  | @capture ts buffer hpush =>
      refine ⟨[.capture ts], _, rfl, ?_⟩
      have hbuffer : buffer = (s.captured ++ [ts]).rtake collectorCount := by
        rw [hs.buffer, RollingBuffer.push_rtake hmax] at hpush
        exact (Option.some.inj hpush).symm
      exact ⟨congrArg (· ++ [ts]) hs.captured, hs.history, hbuffer, hs.tracks⟩
  | acceptPtp => exact hs.quiet hs.tracks rfl rfl rfl
  | acceptTcp => exact hs.quiet hs.tracks rfl rfl rfl
  | acceptFails => exact hs.quiet hs.tracks rfl rfl rfl
  | @started c fd hacceptor =>
      refine hs.quiet (hs.tracks.idle (fun t ht => ?_) rfl) rfl rfl rfl
      exact absurd ((hn.waiting c fd hacceptor).2.symm.trans ht) (by simp)
  | notStarted => exact hs.quiet hs.tracks rfl rfl rfl
  | joined => exact hs.quiet hs.tracks rfl rfl rfl
  | @lost c t ht hpc =>
      refine hs.quiet (hs.tracks.idle (fun u hu => ?_) rfl) rfl rfl rfl
      obtain rfl := Option.some.inj (ht.symm.trans hu)
      rw [hpc]
      rfl
  | @received c sender p t f ht hpc hfile hsender r =>
      have hfresh := hi.fresh c t f sender p ht hpc hfile hsender
      have hphase : v.phase p = .idle := by
        by_contra hbusy
        obtain ⟨d, u, hu, hpeer, huphase⟩ := (hs.tracks p _ hbusy).mp rfl
        exact hfresh d u hu (by rw [huphase]; exact hbusy) hpeer
      have hidle : t.handler.phase ≠ .idle → t.peer = p := by
        intro hne
        exact absurd (by rw [hpc]; rfl) hne
      unfold receiveFrom
      dsimp only
      split
      · rename_i hinvalid
        refine hs.event (e := .ask p r) ?_ rfl ht (fun d w _ => hfresh d w) hidle rfl rfl rfl rfl rfl
        simp only [Service.step, hphase, if_pos hinvalid, hs.history, hs.captured]
        rfl
      · rename_i hvalid
        refine hs.event (e := .ask p r) ?_ rfl ht (fun d w _ => hfresh d w) hidle rfl rfl rfl rfl rfl
        simp only [Service.step, hphase, if_neg hvalid, hs.history]
        rfl
  | @copied c t r ht hpc now reply hreply =>
      have htphase : t.handler.phase = .deciding r := by
        rw [hpc]
        rfl
      have hne : t.handler.phase ≠ .idle := by simp [htphase]
      have hphase := (hs.tracks t.peer (.deciding r) (by simp)).mpr ⟨c, t, ht, rfl, htphase⟩
      refine hs.event (e := .decide t.peer now) (x := reply.elim .idle .answering)
        (u := { t with handler := reply.elim (.ended 1) (.sending r) }) ?_ ?_ ht
        (hothers ht hne) (fun _ => rfl) rfl rfl rfl rfl rfl
      · rw [hs.buffer] at hreply
        simp only [Service.step, hphase, hs.history, hs.captured, hreply]
      · cases reply with
        | none => rfl
        | some m => rfl
  | @unsent c t r m ht hpc =>
      have htphase : t.handler.phase = .answering m := by
        rw [hpc]
        rfl
      have hne : t.handler.phase ≠ .idle := by simp [htphase]
      have hphase := (hs.tracks t.peer (.answering m) (by simp)).mpr ⟨c, t, ht, rfl, htphase⟩
      refine hs.event (e := .answer t.peer false) (x := .idle) (h := v.history t.peer)
        (u := { t with handler := .ended 1 }) ?_ ?_ ht
        (hothers ht hne) (fun _ => rfl) rfl rfl rfl rfl ?_
      · simp only [Service.step, hphase, Bool.false_eq_true, if_false]
      · rfl
      · rw [hs.history, Function.update_eq_self]
        rfl
  | @sent c p t f r m ht hpc hfile hreceiver =>
      have htphase : t.handler.phase = .answering m := by
        rw [hpc]
        rfl
      have hne : t.handler.phase ≠ .idle := by simp [htphase]
      obtain rfl := hi.answers c t f p ht hne hfile hreceiver
      have hphase := (hs.tracks t.peer (.answering m) (by simp)).mpr ⟨c, t, ht, rfl, htphase⟩
      refine hs.event (e := .answer t.peer true) (x := .idle)
        (u := { t with handler := if r.header = ack then .ended 0 else .receiving }) ?_ ?_ ht
        (hothers ht hne) (fun _ => rfl) rfl rfl rfl rfl rfl
      · simp only [Service.step, hphase, if_true, hs.history]
      · split
        · rfl
        · rfl
  | @closed c ret t ht hpc hopen =>
      have htracks := hs.tracks.idle (c := c) (u := { t with handler := .ended ret, closed := true })
        (fun u hu => by
          obtain rfl := Option.some.inj (ht.symm.trans hu)
          rw [hpc]
          rfl) rfl
      split
      · exact hs.quiet htracks rfl rfl rfl
      · exact hs.quiet htracks rfl rfl rfl

end Serves

/-! ## Every run -/

def ModeInv (isPtp : Bool) (sockfd : ℕ) (others : ℕ → Bool) (s : PrimaryServer) : Prop :=
  if isPtp then s.PtpInv sockfd others else s.TcpInv sockfd others

section Run

variable {others : ℕ → Bool}

theorem modeInv_start : (start sockfd others).ModeInv isPtp sockfd others := by
  cases isPtp with
  | true => exact ptpInv_start
  | false => exact tcpInv_start

theorem ModeInv.numbered (hs : s.ModeInv isPtp sockfd others) : s.Numbered := by
  cases isPtp with
  | true => exact PtpInv.numbered hs
  | false => exact TcpInv.numbered hs

theorem ModeInv.isolated (hs : s.ModeInv isPtp sockfd others) : s.Isolated isPtp sockfd := by
  cases isPtp with
  | true => exact PtpInv.isolated hs
  | false => exact TcpInv.isolated hs

theorem ModeInv.step (hs : s.ModeInv isPtp sockfd others) {e : ServerEvent}
    (h : s.step isPtp sockfd e = some s') : s'.ModeInv isPtp sockfd others := by
  have hmoved := moved_of_step h
  cases isPtp with
  | true => exact PtpInv.step hs hmoved
  | false => exact TcpInv.step hs hmoved

theorem ModeInv.run {events : List ServerEvent}
    (hrun : Steps.run (PrimaryServer.step isPtp sockfd) events (start sockfd others) = some s) :
    s.ModeInv isPtp sockfd others :=
  (Steps.all_of_forall (C := fun _ => True) (fun _ _ => trivial) _).invariant
    (fun _ _ _ hs _ h => hs.step h) modeInv_start hrun

/-- The primary with its threads and descriptors is the service of the timestamps. -/
theorem serves_of_run {events : List ServerEvent}
    (hrun : Steps.run (step isPtp sockfd) events (start sockfd others) = some s) :
    ∃ fs v, Steps.run (Service.step collectorCount) fs Service.start = some v ∧ s.Serves v := by
  have hstep (s : PrimaryServer) (e : ServerEvent) (s' : PrimaryServer) (v : Service ℕ)
      (hR : s.ModeInv isPtp sockfd others ∧ s.Serves v) (h : s.step isPtp sockfd e = some s') :
      ∃ fs v', Steps.run (Service.step collectorCount) fs v = some v' ∧
        s'.ModeInv isPtp sockfd others ∧ s'.Serves v' := by
    obtain ⟨fs, v', hfs, hv'⟩ := hR.2.step hR.1.numbered hR.1.isolated (moved_of_step h)
    exact ⟨fs, v', hfs, hR.1.step h, hv'⟩
  obtain ⟨fs, v, hfs, -, hv⟩ :=
    Steps.run_simulated hstep ⟨modeInv_start, serves_start others⟩ hrun
  exact ⟨fs, v, hfs, hv⟩

/-- However the loop, the handlers and the collector interleave, over TCP or PTP, the
primary is a service in which no peer sees another: each request is decided once, by what
was captured by then, and a peer is sent the answers to its own requests only, in order
and each at most once. -/
theorem peers_served (isPtp : Bool) (sockfd : ℕ) (others : ℕ → Bool) (events : List ServerEvent)
    {s : PrimaryServer} (hrun : Steps.run (step isPtp sockfd) events (start sockfd others) = some s) :
    (∃ fs v, Steps.run (Service.step collectorCount) fs Service.start = some v ∧
      v.captured = s.captured ∧ v.history = s.history) ∧
    ∀ p, (∀ x ∈ (s.history p).log, x.Answered collectorCount) ∧
      (∃ undecided, undecided.length ≤ 1 ∧
        (s.history p).received = (s.history p).log.map Exchange.request ++ undecided) ∧
      (s.history p).replies.Sublist ((s.history p).log.filterMap Exchange.reply) := by
  obtain ⟨fs, v, hfs, hv⟩ := serves_of_run hrun
  refine ⟨⟨fs, v, hfs, hv.captured, hv.history⟩, fun p => ?_⟩
  have hp := Service.inv_start.run (by decide) hfs p
  rw [hv.history] at hp
  refine ⟨hp.answered, ⟨(v.phase p).undecided, ?_, hp.requests⟩, ?_⟩
  · cases v.phase p with
    | idle => exact Nat.zero_le _
    | deciding r => exact le_rfl
    | answering m => exact Nat.zero_le _
  · obtain ⟨older, hlog, hsub⟩ := hp.sent
    rw [hlog]
    exact hsub.trans (List.sublist_append_left _ _)

/-- Over TCP a client has its descriptor until its handler, or the loop, closes it, and no
close hits anything else, although descriptors are given out again. -/
theorem descriptors_kept (sockfd : ℕ) (others : ℕ → Bool) (events : List ServerEvent)
    {s : PrimaryServer} (hrun : Steps.run (step false sockfd) events (start sockfd others) = some s) :
    (∀ fd f, (start sockfd others).table fd = some f → s.table fd = some f) ∧
    (∀ c t, s.thread c = some t → t.closed = false → s.table t.sockfd = some (.client c)) ∧
    (∀ c fd, s.acceptor = .accepted c fd → s.table fd = some (.client c)) ∧
    (∀ fd c, s.table fd = some (.client c) → s.acceptor = .accepted c fd ∨
      ∃ t, s.thread c = some t ∧ t.sockfd = fd ∧ (t.closed = false ∨ fd = 0)) ∧
    s.closes.Nodup ∧ ∀ f, f ∈ s.closes ↔
      ∃ c, c < s.accepted ∧ (∀ fd, s.table fd ≠ some (.client c)) ∧ f = some (.client c) := by
  have hs : s.TcpInv sockfd others := ModeInv.run hrun
  refine ⟨hs.kept.own, fun c t ht hopen => ?_, fun c fd hacceptor => ?_, fun fd c hc => ?_,
    hs.kept.nodup, fun f => ?_⟩
  · exact (hs.kept.leases t.sockfd c).mpr (by simp [holds, ht, hopen])
  · have hthread := (hs.numbered.waiting c fd hacceptor).2
    exact (hs.kept.leases fd c).mpr (by simp [holds, hthread, hacceptor])
  · have hholds := (hs.kept.leases fd c).mp hc
    cases hthread : s.thread c with
    | some t =>
        refine .inr ⟨t, rfl, ?_⟩
        simp only [holds, hthread] at hholds
        split at hholds
        · exact absurd hholds (by simp)
        · rename_i hnot
          obtain rfl := Option.some.inj hholds
          refine ⟨rfl, ?_⟩
          cases hclosed : t.closed with
          | false => exact .inl rfl
          | true => exact .inr (not_not.mp fun hne => hnot ⟨hclosed, hne⟩)
    | none =>
        left
        simp only [holds, hthread] at hholds
        cases hacceptor : s.acceptor with
        | accepted d fd' =>
            simp only [hacceptor] at hholds
            split at hholds
            · rename_i hd
              rw [hd, Option.some.inj hholds]
            · exact absurd hholds (by simp)
        | accepting => simp [hacceptor] at hholds
        | joining d => simp [hacceptor] at hholds
        | returned ret => simp [hacceptor] at hholds
  · rw [hs.kept.closed f]
    refine exists_congr fun c => and_congr_right fun _ => and_congr_left fun _ => ?_
    constructor
    · intro hnone fd hfd
      exact absurd (hnone.symm.trans ((hs.kept.leases fd c).mp hfd)) (by simp)
    · intro hnone
      cases hholds : s.holds c with
      | none => rfl
      | some fd => exact absurd ((hs.kept.leases fd c).mpr hholds) (hnone fd)

end Run

/-- Over PTP peer 7 asks for one timestamp, then peer 9 for two. -/
def twoPeers : List ServerEvent :=
  [.capture 5, .accept 0, .create true, .receive 0 (some (7, ackRequest Msg.zero 1)), .capture 6,
    .copy 0 (0, 0), .send 0 true, .close 0, .join, .accept 0, .create true,
    .receive 1 (some (9, ackRequest Msg.zero 2)), .copy 1 (0, 0), .send 1 true, .close 1]

theorem peers_served_twoPeers : ∃ s,
    Steps.run (step true 3) twoPeers (start 3 (· < 3)) = some s ∧
      (s.history 7).replies.length = 1 ∧ (s.history 9).replies.length = 1 ∧
      ∀ p, (s.history p).replies.Sublist ((s.history p).log.filterMap Exchange.reply) :=
  ⟨_, rfl, rfl, rfl, fun p => ((peers_served true 3 (· < 3) twoPeers rfl).2 p).2.2⟩

/-- Over TCP the second client gets the descriptor of the first, which has left. -/
def reusedDescriptor : List ServerEvent :=
  [.capture 5, .accept 4, .create true, .receive 0 (some (0, ackRequest Msg.zero 1)),
    .copy 0 (0, 0), .send 0 true, .close 0, .accept 4, .create true, .receive 1 none, .close 1,
    .accept 4, .create false]

theorem descriptors_kept_reused : ∃ s,
    Steps.run (step false 3) reusedDescriptor (start 3 (· < 3)) = some s ∧ s.accepted = 3 ∧
      s.closes.length = 3 ∧ s.closes.Nodup :=
  ⟨_, rfl, rfl, rfl, (descriptors_kept 3 (· < 3) reusedDescriptor rfl).2.2.2.2.1⟩

end PrimaryServer

end Genlock.Swgenlock
