import Genlock.Lib.Channels
import Genlock.Lib.Steps
import Genlock.Swgenlock.StatusMessage
import Genlock.Swgenlock.SyncStatus

/-! # Monitoring

Every secondary reports the delta of each iteration to the primary in one datagram, and the
monitor thread of the primary writes a line for each one that arrives. Anybody else can send
datagrams to that port too.
-/

namespace Genlock.Swgenlock

open Bytes Text Datagrams

/-! ## What a secondary sends -/

/-- The process of a secondary for one pipe: `g_enable_monitoring`, whether it has a
`server_ip`, and the name that `gethostname` knows. -/
structure Node where
  enableMonitoring : Bool
  serverIp : Bool
  hostname : CString
  cfg : PipeConfig
  validPipe : cfg.ValidPipe

/-- `gethostname(hostname, MAX_HOSTNAME_LEN - 1)` over what the stack holds, and the zero byte
behind it. -/
def gethostname (name : CString) (stack : Hostname) : CString :=
  .ofBytes (SyncStatusMsg.terminate
    (stack.write ((name.bytes ++ [0]).take (maxHostnameLen - 1)))).bytes

structure StatusReport where
  node : Node
  iteration : Iteration
  deltaUs : ℤ
  measures : iteration.Measures deltaUs
  timestampUs : U64
  stack : Hostname

/-- The part of `do_pipe_sync` up to `send_sync_status`. -/
def statusReport (n : Node) (it : Iteration) (timestampUs : U64) (stack : Hostname) :
    Option StatusReport :=
  match hs : it.secondaryVsync, hp : it.primaryVsync with
  | some s, some p =>
      match hd : pipeDelta p s with
      | .ok delta =>
          if n.enableMonitoring && n.serverIp then
            some ⟨n, it, delta, ⟨p, s, hp, hs, hd⟩, timestampUs, stack⟩
          else none
      | .error _ => none
  | _, _ => none

namespace StatusReport

def datagram (r : StatusReport) : List U8 :=
  (SyncStatusMsg.init.setSyncStatus (gethostname r.node.hostname r.stack) r.node.cfg.pipe r.deltaUs
    r.timestampUs).encode

def line (r : StatusReport) : List Char :=
  csvLine r.timestampUs.toNat (r.node.hostname.bytes.take (maxHostnameLen - 1)) r.node.cfg.pipe
    r.deltaUs

end StatusReport

/-- The name is cut to 63 bytes. -/
theorem gethostname_bytes (name : CString) (stack : Hostname) :
    (gethostname name stack).bytes = name.bytes.take (maxHostnameLen - 1) :=
  stack.cstr_copy name [] rfl

theorem findAvg_natAbs_le (va : List U64) : (findAvg va).natAbs ≤ 2 ^ 31 := by
  have hspan : (span va).natAbs ≤ 2 ^ 31 := by
    have hlow := BitVec.le_toInt ((va.getD (va.length - 1) 0 - va.getD 0 0).setWidth 32)
    have hhigh := BitVec.toInt_lt (x := (va.getD (va.length - 1) 0 - va.getD 0 0).setWidth 32)
    unfold span
    omega
  rw [findAvg_eq, Int.natAbs_tdiv]
  exact (Nat.div_le_self _ _).trans hspan

theorem normalizeDelta_natAbs_le {delta avg d : ℤ} (h : normalizeDelta delta avg = some d) :
    d.natAbs ≤ delta.natAbs + avg.natAbs := by
  have hmod : (delta.tmod avg).natAbs ≤ delta.natAbs := by
    rw [Int.natAbs_tmod]
    exact Nat.mod_le _ _
  unfold normalizeDelta at h
  by_cases hout : delta > avg ∨ delta < avg
  · by_cases havg : avg = 0
    · rw [if_pos hout, if_pos havg] at h
      cases h
    · simp only [if_pos hout, if_neg havg, Option.bind_eq_bind, Option.bind_some] at h
      split at h <;> · injection h; omega
  · simp only [if_neg hout, Option.bind_eq_bind, Option.bind_some] at h
    split at h <;> · injection h; omega

/-- The normalized delta is far inside a `long`. -/
theorem pipeDelta_bounds {primaryVsync secondaryVsync : List U64} {delta : ℤ}
    (h : pipeDelta primaryVsync secondaryVsync = .ok delta) : -2 ^ 63 ≤ delta ∧ delta < 2 ^ 63 := by
  have havg := findAvg_natAbs_le secondaryVsync
  have htolerance : clockSyncToleranceUs = 35000 := rfl
  unfold pipeDelta at h
  dsimp only at h
  split at h
  · cases h
  · next hclose =>
    rw [Int.abs_eq_natAbs] at hclose
    split at h
    · cases h
    · next d hnormal =>
      have hd := normalizeDelta_natAbs_le hnormal
      injection h
      omega

/-- The wire carries the report: its line is what the secondary measured. -/
theorem monitorLine_datagram (r : StatusReport) : monitorLine r.datagram = some r.line := by
  obtain ⟨p, s, -, -, hdelta⟩ := r.measures
  have hbounds := pipeDelta_bounds hdelta
  obtain ⟨hpipe0, hpipe3⟩ := r.node.validPipe
  have hname : cstr (SyncStatusMsg.terminate (SyncStatusMsg.terminate
      (SyncStatusMsg.init.hostname.strncpy (gethostname r.node.hostname r.stack)
        (maxHostnameLen - 1)))).bytes = r.node.hostname.bytes.take (maxHostnameLen - 1) := by
    have hcopied := SyncStatusMsg.init.hostname.cstr_strncpy
      (gethostname r.node.hostname r.stack) (rfl : maxHostnameLen - 1 + 1 = maxHostnameLen)
    rw [gethostname_bytes, List.take_take, min_self] at hcopied
    rw [SyncStatusMsg.terminate_terminate]
    exact hcopied
  have hlen : min r.datagram.length sizeofSyncStatusMsg = sizeofSyncStatusMsg := by
    rw [StatusReport.datagram, SyncStatusMsg.length_encode, min_self]
  unfold monitorLine
  dsimp only
  rw [hlen, StatusReport.datagram, SyncStatusMsg.decode_write, if_pos ⟨rfl, rfl⟩]
  unfold SyncStatusMsg.line SyncStatusMsg.setSyncStatus StatusReport.line
  dsimp only
  rw [hname, BitVec.toInt_ofInt_eq_self (by decide) (by omega) (by omega),
    BitVec.toInt_ofInt_eq_self (by decide) hbounds.1 hbounds.2]

/-! ## The network and the monitor thread -/

inductive Packet where
  | report (r : StatusReport)
  | foreign (datagram : List U8)

namespace Packet

def bytes : Packet → List U8
  | report r => r.datagram
  | foreign datagram => datagram

def line (p : Packet) : Option (List Char) := monitorLine p.bytes

end Packet

inductive MonitorThread where
  | notJoinable
  /-- before the test of `g_monitoring` -/
  | testing
  /-- in `recvfrom` -/
  | receiving
  /-- returned and not joined -/
  | returned
deriving DecidableEq, Repr

/-- The network and the primary's monitor; `csv` is the file that was opened last. -/
structure Monitor where
  flight : List Packet
  monitoring : Bool
  thread : MonitorThread
  sockOpen : Bool
  csvOpen : Bool
  csv : Option (List Char)

inductive MonitorEvent where
  /-- A secondary's iteration; `sent`: `socket` and `sendto` succeed. -/
  | iterate (n : Node) (it : Iteration) (timestampUs : U64) (stack : Hostname) (sent : Bool)
  | foreign (datagram : List U8)
  | lose (i : ℕ)
  | duplicate (i : ℕ)
  /-- `start_sync_monitor_thread`, with the outcomes of opening the file, `socket` and `bind`. -/
  | start (csvOpens socketOk bindOk : Bool)
  | test
  /-- `recvfrom` takes this packet. -/
  | receive (i : ℕ)
  /-- `recvfrom` fails or would block. -/
  | receiveNothing
  /-- `stop_sync_monitor_thread` up to `join`. -/
  | stop
  | join

namespace Monitor

def init : Monitor := ⟨[], false, .notJoinable, false, false, none⟩

/-- `sync_monitor_thread_func` up to its loop. -/
def openMonitor (s : Monitor) (csvOpens socketOk bindOk : Bool) : Monitor :=
  if !csvOpens then { s with thread := .returned }
  else if socketOk && bindOk then
    { s with thread := .testing, sockOpen := true, csvOpen := true,
             csv := some (unlines '\n' [csvHeader]) }
  else { s with thread := .returned, csv := some (unlines '\n' [csvHeader]) }

/-- `none`: the thread or the caller is not there, or the process is terminated because a
running thread is overwritten. -/
def step (s : Monitor) : MonitorEvent → Option Monitor
  | .iterate n it timestampUs stack sent =>
      match statusReport n it timestampUs stack with
      | some r => some (if sent then { s with flight := s.flight ++ [.report r] } else s)
      | none => some s
  | .foreign datagram => some { s with flight := s.flight ++ [.foreign datagram] }
  | .lose i => some { s with flight := s.flight.eraseIdx i }
  | .duplicate i => s.flight[i]?.map fun p => { s with flight := s.flight ++ [p] }
  | .start csvOpens socketOk bindOk =>
      if s.monitoring then some s
      else if s.thread ≠ .notJoinable then none
      else some (openMonitor { s with monitoring := true } csvOpens socketOk bindOk)
  | .test =>
      if s.thread ≠ .testing then none
      else if s.monitoring then some { s with thread := .receiving }
      else some { s with thread := .returned, sockOpen := false, csvOpen := false }
  | .receive i =>
      if s.thread ≠ .receiving then none
      else s.flight[i]?.map fun p =>
        { s with
          flight := s.flight.eraseIdx i
          thread := .testing
          csv := s.csv.map (· ++ unlines '\n' p.line.toList) }
  | .receiveNothing =>
      if s.thread ≠ .receiving then none else some { s with thread := .testing }
  | .stop => some { s with monitoring := false }
  | .join =>
      if s.monitoring then none
      else if s.thread = .testing ∨ s.thread = .receiving then none
      else some { s with thread := .notJoinable }

end Monitor

/-! ## What the file says -/

namespace MonitorEvent

def packet : MonitorEvent → Option Packet
  | .iterate n it timestampUs stack sent =>
      if sent then (statusReport n it timestampUs stack).map .report else none
  | .foreign datagram => some (.foreign datagram)
  | _ => none

def duplicates : MonitorEvent → Bool
  | .duplicate _ => true
  | _ => false

def sent (events : List MonitorEvent) : List Packet := events.filterMap packet

end MonitorEvent

/-- The line that should stand for a packet: a report's own line. -/
def Packet.logLine : Packet → Option (List Char)
  | report r => some r.line
  | foreign datagram => monitorLine datagram

theorem Packet.line_eq_logLine (p : Packet) : p.line = p.logLine := by
  cases p with
  | report r => exact monitorLine_datagram r
  | foreign datagram => rfl

def logText (log : List Packet) : List Char :=
  unlines '\n' (csvHeader :: log.filterMap Packet.logLine)

theorem logText_append (log : List Packet) (p : Packet) :
    logText (log ++ [p]) = logText log ++ unlines '\n' p.line.toList := by
  rw [logText, List.filterMap_append, ← List.cons_append, unlines_append, p.line_eq_logLine]
  cases hline : p.logLine with
  | none => simp [hline, logText]
  | some line => simp [hline, logText]

def logged (log : List Packet) : List Packet := log.filter fun p => p.logLine.isSome

theorem logText_logged (log : List Packet) : logText (logged log) = logText log := by
  unfold logText logged
  rw [List.filterMap_filter]
  congr 2
  apply List.filterMap_congr
  intro p _
  cases hline : p.logLine with
  | none => rfl
  | some line => rfl

/-- After these events the file shows packets that were sent, each at most once if the
network repeats none, and socket and file are open exactly while the thread is in its loop. -/
structure MonitorInv (events : List MonitorEvent) (s : Monitor) : Prop where
  log : ∃ log : List Packet, (∀ text, s.csv = some text → text = logText log) ∧
    Conserved (MonitorEvent.sent events) (events.countP MonitorEvent.duplicates) log s.flight
  opened : s.sockOpen = true ↔ s.thread = .testing ∨ s.thread = .receiving
  file : s.csvOpen = s.sockOpen

namespace MonitorInv

variable {events : List MonitorEvent} {s s' : Monitor}

theorem init : MonitorInv [] Monitor.init where
  log := ⟨[], by simp [Monitor.init], Conserved.start⟩
  opened := by simp [Monitor.init]
  file := rfl

theorem sent_append (events : List MonitorEvent) (e : MonitorEvent) :
    MonitorEvent.sent (events ++ [e]) = MonitorEvent.sent events ++ e.packet.toList := by
  rw [MonitorEvent.sent, List.filterMap_append]
  cases hp : e.packet with
  | none => simp [hp, MonitorEvent.sent]
  | some p => simp [hp, MonitorEvent.sent]

theorem countP_append (events : List MonitorEvent) (e : MonitorEvent) :
    (events ++ [e]).countP MonitorEvent.duplicates =
      events.countP MonitorEvent.duplicates + e.duplicates.toNat := by
  rw [List.countP_append]
  cases hd : e.duplicates <;> simp [hd]

theorem quiet (events : List MonitorEvent) {e : MonitorEvent} (hpacket : e.packet = none)
    (hdup : e.duplicates = false) :
    MonitorEvent.sent (events ++ [e]) = MonitorEvent.sent events ∧
      (events ++ [e]).countP MonitorEvent.duplicates = events.countP MonitorEvent.duplicates := by
  rw [sent_append, countP_append, hpacket, hdup]
  exact ⟨List.append_nil _, rfl⟩

theorem network (hs : MonitorInv events s) {e : MonitorEvent} {flight : List Packet}
    (hflight : ∀ log, Conserved (MonitorEvent.sent events) (events.countP MonitorEvent.duplicates)
        log s.flight →
      Conserved (MonitorEvent.sent (events ++ [e]))
        ((events ++ [e]).countP MonitorEvent.duplicates) log flight) :
    MonitorInv (events ++ [e]) { s with flight } := by
  obtain ⟨log, htext, hconserved⟩ := hs.log
  exact ⟨⟨log, htext, hflight log hconserved⟩, hs.opened, hs.file⟩

theorem thread (hs : MonitorInv events s) {e : MonitorEvent} (hpacket : e.packet = none)
    (hdup : e.duplicates = false) (hcsv : s'.csv = s.csv) (hflight : s'.flight = s.flight)
    (hopened : s'.sockOpen = true ↔ s'.thread = .testing ∨ s'.thread = .receiving)
    (hfile : s'.csvOpen = s'.sockOpen) : MonitorInv (events ++ [e]) s' := by
  obtain ⟨log, htext, hconserved⟩ := hs.log
  obtain ⟨hsent, hcount⟩ := quiet events hpacket hdup
  refine ⟨⟨log, ?_, ?_⟩, hopened, hfile⟩
  · rw [hcsv]
    exact htext
  · rw [hsent, hcount, hflight]
    exact hconserved

theorem newFile (hs : MonitorInv events s) {e : MonitorEvent} (hpacket : e.packet = none)
    (hdup : e.duplicates = false) (hcsv : s'.csv = some (logText [])) (hflight : s'.flight = s.flight)
    (hopened : s'.sockOpen = true ↔ s'.thread = .testing ∨ s'.thread = .receiving)
    (hfile : s'.csvOpen = s'.sockOpen) : MonitorInv (events ++ [e]) s' := by
  obtain ⟨log, -, hconserved⟩ := hs.log
  obtain ⟨hsent, hcount⟩ := quiet events hpacket hdup
  refine ⟨⟨[], ?_, ?_⟩, hopened, hfile⟩
  · intro text htext
    rw [hcsv] at htext
    exact (Option.some.inj htext).symm
  · rw [hsent, hcount, hflight]
    exact hconserved.forget

theorem closed (hs : MonitorInv events s) (h : ¬(s.thread = .testing ∨ s.thread = .receiving)) :
    s.sockOpen = false := by
  rw [← Bool.not_eq_true]
  exact fun hopen => h (hs.opened.mp hopen)

theorem step (hs : MonitorInv events s) (e : MonitorEvent) (hstep : s.step e = some s') :
    MonitorInv (events ++ [e]) s' := by
  cases e with
  | iterate n it timestampUs stack sent =>
      cases hreport : statusReport n it timestampUs stack with
      | none =>
          have hnothing : (MonitorEvent.iterate n it timestampUs stack sent).packet = none := by
            simp [MonitorEvent.packet, hreport]
          simp only [Monitor.step, hreport, Option.some.injEq] at hstep
          subst hstep
          exact hs.thread hnothing rfl rfl rfl hs.opened hs.file
      | some r =>
          simp only [Monitor.step, hreport, Option.some.injEq] at hstep
          subst hstep
          cases sent with
          | false => exact hs.thread rfl rfl rfl rfl hs.opened hs.file
          | true =>
              have hsent : (MonitorEvent.iterate n it timestampUs stack true).packet =
                  some (.report r) := by
                simp [MonitorEvent.packet, hreport]
              refine hs.network fun log h => ?_
              rw [sent_append, countP_append, hsent]
              exact h.send _
  | foreign datagram =>
      obtain rfl := Option.some.inj hstep
      refine hs.network fun log h => ?_
      rw [sent_append, countP_append]
      exact h.send _
  | lose i =>
      obtain rfl := Option.some.inj hstep
      refine hs.network fun log h => ?_
      rw [(quiet _ rfl rfl).1, (quiet _ rfl rfl).2]
      exact h.lose i
  | duplicate i =>
      obtain ⟨p, hp, rfl⟩ := Option.map_eq_some_iff.mp hstep
      refine hs.network fun log h => ?_
      rw [sent_append, countP_append]
      simpa [MonitorEvent.packet, MonitorEvent.duplicates] using h.duplicate hp
  | start csvOpens socketOk bindOk =>
      rw [Monitor.step] at hstep
      by_cases hmonitoring : s.monitoring = true
      · rw [if_pos hmonitoring] at hstep
        obtain rfl := Option.some.inj hstep
        exact hs.thread rfl rfl rfl rfl hs.opened hs.file
      · rw [if_neg hmonitoring] at hstep
        by_cases hthread : s.thread = .notJoinable
        · have hclosed : s.sockOpen = false := hs.closed (by simp [hthread])
          have hfile : s.csvOpen = false := hs.file.trans hclosed
          rw [if_neg (not_not.mpr hthread), Option.some.injEq] at hstep
          subst hstep
          unfold Monitor.openMonitor
          split
          · exact hs.thread rfl rfl rfl rfl (by simp [hclosed]) (by simp [hclosed, hfile])
          · split
            · exact hs.newFile rfl rfl rfl rfl (by simp) rfl
            · exact hs.newFile rfl rfl rfl rfl (by simp [hclosed]) (by simp [hclosed, hfile])
        · rw [if_pos hthread] at hstep
          cases hstep
  | test =>
      rw [Monitor.step] at hstep
      by_cases hthread : s.thread = .testing
      · have hopen : s.sockOpen = true := hs.opened.mpr (Or.inl hthread)
        rw [if_neg (not_not.mpr hthread)] at hstep
        split at hstep
        · obtain rfl := Option.some.inj hstep
          exact hs.thread rfl rfl rfl rfl (by simp [hopen]) hs.file
        · obtain rfl := Option.some.inj hstep
          exact hs.thread rfl rfl rfl rfl (by simp) rfl
      · rw [if_pos hthread] at hstep
        cases hstep
  | receive i =>
      rw [Monitor.step] at hstep
      by_cases hthread : s.thread = .receiving
      · have hopen : s.sockOpen = true := hs.opened.mpr (Or.inr hthread)
        rw [if_neg (not_not.mpr hthread)] at hstep
        obtain ⟨p, hp, rfl⟩ := Option.map_eq_some_iff.mp hstep
        obtain ⟨log, htext, hconserved⟩ := hs.log
        refine ⟨⟨log ++ [p], ?_, ?_⟩, by simp [hopen], hs.file⟩
        · intro text hcsv
          obtain ⟨before, hbefore, rfl⟩ := Option.map_eq_some_iff.mp hcsv
          rw [htext before hbefore, logText_append]
        · rw [(quiet _ rfl rfl).1, (quiet _ rfl rfl).2]
          exact hconserved.deliver hp
      · rw [if_pos hthread] at hstep
        cases hstep
  | receiveNothing =>
      rw [Monitor.step] at hstep
      by_cases hthread : s.thread = .receiving
      · have hopen : s.sockOpen = true := hs.opened.mpr (Or.inr hthread)
        rw [if_neg (not_not.mpr hthread)] at hstep
        obtain rfl := Option.some.inj hstep
        exact hs.thread rfl rfl rfl rfl (by simp [hopen]) hs.file
      · rw [if_pos hthread] at hstep
        cases hstep
  | stop =>
      obtain rfl := Option.some.inj hstep
      exact hs.thread rfl rfl rfl rfl hs.opened hs.file
  | join =>
      rw [Monitor.step] at hstep
      split at hstep
      · cases hstep
      · split at hstep
        · cases hstep
        · next hended =>
          obtain rfl := Option.some.inj hstep
          exact hs.thread rfl rfl rfl rfl (by simp [hs.closed hended]) hs.file

end MonitorInv

theorem monitorInv_run {events : List MonitorEvent} {s : Monitor}
    (hrun : Steps.run Monitor.step events Monitor.init = some s) : MonitorInv events s := by
  have hnext : ∀ es s e s', MonitorInv es s → s.step e = some s' → MonitorInv (es ++ [e]) s' :=
    fun es s e s' hs hstep => hs.step e hstep
  exact Steps.run_history hnext MonitorInv.init hrun

structure MonitorRecord (events : List MonitorEvent) (s : Monitor) : Prop where
  /-- Each line stands for a packet that was sent, and for one of its own unless the network
  repeats packets. -/
  log : ∀ text, s.csv = some text → ∃ log : List Packet, text = logText log ∧
    (∀ p ∈ log, p ∈ MonitorEvent.sent events ∧ p.logLine ≠ none) ∧
    (events.countP MonitorEvent.duplicates = 0 → log.Subperm (MonitorEvent.sent events))
  opened : s.sockOpen = true ↔ s.thread = .testing ∨ s.thread = .receiving
  file : s.csvOpen = s.sockOpen

/-- In every run of secondaries, network and monitor, the file is the log of packets sent. -/
theorem monitor_record {events : List MonitorEvent} {s : Monitor}
    (hrun : Steps.run Monitor.step events Monitor.init = some s) : MonitorRecord events s := by
  have hinv := monitorInv_run hrun
  obtain ⟨log, htext, hconserved⟩ := hinv.log
  refine ⟨fun text hcsv => ⟨logged log, ?_, fun p hp => ?_, fun hzero => ?_⟩, hinv.opened,
    hinv.file⟩
  · rw [logText_logged, htext text hcsv]
  · obtain ⟨hmem, hline⟩ := List.mem_filter.mp hp
    exact ⟨hconserved.mem_sent (List.mem_append_left _ hmem),
      Option.isSome_iff_ne_none.mp hline⟩
  · rw [hzero] at hconserved
    exact List.filter_sublist.subperm.trans hconserved.subperm

def nodeName : CString := ⟨[110, 111, 100, 101], by decide⟩

def monitoredNode : Node := ⟨true, true, nodeName, overshootConfig, overshootConfig_validPipe⟩

def monitoredRun : List MonitorEvent :=
  [.start true true true, .iterate monitoredNode earlyIteration 7#64 (Buffer.zero _) true, .test,
    .receive 0]

theorem statusReport_of_measures {n : Node} {it : Iteration} {delta : ℤ} (h : it.Measures delta)
    (hmonitoring : n.enableMonitoring = true) (hip : n.serverIp = true) (timestampUs : U64)
    (stack : Hostname) : ∃ r, statusReport n it timestampUs stack = some r := by
  cases hr : statusReport n it timestampUs stack with
  | some r => exact ⟨r, rfl⟩
  | none =>
      obtain ⟨p, s, hp, hs, hd⟩ := h
      unfold statusReport at hr
      split at hr
      · next s' p' hs' hp' =>
        obtain rfl := Option.some.inj (hs.symm.trans hs')
        obtain rfl := Option.some.inj (hp.symm.trans hp')
        split at hr
        · simp [hmonitoring, hip] at hr
        · next e he =>
          rw [hd] at he
          cases he
      · next hnone => exact absurd hp (hnone s p hs)

theorem monitoredRun_run : ∃ s, Steps.run Monitor.step monitoredRun Monitor.init = some s ∧
    ∃ text, s.csv = some text := by
  obtain ⟨r, hr⟩ := statusReport_of_measures (n := monitoredNode) earlyIteration_measures rfl rfl
    7#64 (Buffer.zero _)
  simp [monitoredRun, Steps.run, Monitor.step, Monitor.init, Monitor.openMonitor, hr]

theorem monitor_record_monitored :
    ∃ s, Steps.run Monitor.step monitoredRun Monitor.init = some s ∧ MonitorRecord monitoredRun s := by
  obtain ⟨s, hrun, -⟩ := monitoredRun_run
  exact ⟨s, hrun, monitor_record hrun⟩

/-! ## Reading the file back -/

def StatusReport.entry (r : StatusReport) : LogEntry :=
  ⟨r.timestampUs.toNat, (r.node.hostname.bytes.take (maxHostnameLen - 1)).map charOf,
    r.node.cfg.pipe, r.deltaUs⟩

/-- Names fit in a field, and nobody else sends status messages. -/
def MonitorEvent.Plain : MonitorEvent → Prop
  | .iterate n _ _ _ _ => PlainName n.hostname.bytes
  | .foreign datagram => ¬StatusDatagram datagram
  | _ => True

def Packet.report? : Packet → Option StatusReport
  | report r => some r
  | foreign _ => none

def Packet.Plain : Packet → Prop
  | report r => PlainName r.node.hostname.bytes
  | foreign datagram => ¬StatusDatagram datagram

theorem statusReport_node {n : Node} {it : Iteration} {timestampUs : U64} {stack : Hostname}
    {r : StatusReport} (h : statusReport n it timestampUs stack = some r) : r.node = n := by
  unfold statusReport at h
  split at h
  · split at h
    · split at h
      · cases h
        rfl
      · cases h
    · cases h
  · cases h

theorem plain_of_sent {events : List MonitorEvent} (hplain : ∀ e ∈ events, e.Plain) {p : Packet}
    (hp : p ∈ MonitorEvent.sent events) : p.Plain := by
  obtain ⟨e, he, hpacket⟩ := List.mem_filterMap.mp hp
  have hevent := hplain e he
  cases e with
  | iterate n it timestampUs stack sent =>
      cases sent with
      | false => cases hpacket
      | true =>
          obtain ⟨r, hr, rfl⟩ := Option.map_eq_some_iff.mp hpacket
          show PlainName r.node.hostname.bytes
          rw [statusReport_node hr]
          exact hevent
  | foreign datagram =>
      cases hpacket
      exact hevent
  | _ => cases hpacket

theorem PlainName.take {name : List U8} (h : PlainName name) (k : ℕ) : PlainName (name.take k) :=
  fun b hb => h b (List.mem_of_mem_take hb)

theorem readLine_line {r : StatusReport} (h : PlainName r.node.hostname.bytes) :
    '\n' ∉ r.line ∧ readLine r.line = some r.entry := by
  obtain ⟨p, s, -, -, hdelta⟩ := r.measures
  obtain ⟨hpipe0, hpipe3⟩ := r.node.validPipe
  have hname := h.take (maxHostnameLen - 1)
  exact ⟨newline_not_mem_csvLine hname,
    readLine_csvLine hname r.timestampUs.isLt ⟨by omega, by omega⟩ (pipeDelta_bounds hdelta)⟩

theorem readLog_logText {log : List Packet} (h : ∀ p ∈ log, p.Plain) :
    readLog (logText log) = (log.filterMap Packet.report?).map StatusReport.entry := by
  have hlines : ∀ line ∈ csvHeader :: log.filterMap Packet.logLine, '\n' ∉ line := by
    intro line hline
    cases List.mem_cons.mp hline with
    | inl hheader =>
        rw [hheader]
        decide
    | inr hline =>
        obtain ⟨p, hp, hlog⟩ := List.mem_filterMap.mp hline
        cases p with
        | report r =>
            cases hlog
            exact (readLine_line (h _ hp)).1
        | foreign datagram =>
            rw [Packet.logLine, monitorLine_eq_none (h _ hp)] at hlog
            cases hlog
  rw [readLog, logText, lines_unlines hlines, List.tail_cons, List.filterMap_filterMap,
    List.map_filterMap]
  apply List.filterMap_congr
  intro p hp
  cases p with
  | report r => exact (readLine_line (h _ hp)).2
  | foreign datagram =>
      rw [Packet.logLine, monitorLine_eq_none (h _ hp)]
      rfl

theorem reports_sublist (log : List Packet) :
    ((log.filterMap Packet.report?).map Packet.report).Sublist log := by
  induction log with
  | nil => exact List.Sublist.slnil
  | cons p log ih =>
      cases p with
      | report r => exact ih.cons_cons _
      | foreign datagram => exact ih.cons _

/-- Where names fit and no foreign datagram passes for a report, the file is read back as
what secondaries measured: the name cut to 63 bytes, the pipe, the delta and its time. -/
theorem log_read_back {events : List MonitorEvent} {s : Monitor} {text : List Char}
    (hrun : Steps.run Monitor.step events Monitor.init = some s) (hcsv : s.csv = some text)
    (hplain : ∀ e ∈ events, e.Plain) :
    ∃ log : List StatusReport, readLog text = log.map StatusReport.entry ∧
      (∀ r ∈ log, .report r ∈ MonitorEvent.sent events) ∧
      (events.countP MonitorEvent.duplicates = 0 →
        (log.map Packet.report).Subperm (MonitorEvent.sent events)) := by
  obtain ⟨log, htext, hconserved⟩ := (monitorInv_run hrun).log
  have hsent : ∀ p ∈ log, p ∈ MonitorEvent.sent events := fun p hp =>
    hconserved.mem_sent (List.mem_append_left _ hp)
  have hread := readLog_logText fun p hp => plain_of_sent hplain (hsent p hp)
  refine ⟨log.filterMap Packet.report?, by rw [htext text hcsv, hread], ?_, ?_⟩
  · intro r hr
    exact hsent _ ((reports_sublist log).subset (List.mem_map_of_mem hr))
  · intro hzero
    rw [hzero] at hconserved
    exact (reports_sublist log).subperm.trans hconserved.subperm

theorem plain_node : PlainName nodeName.bytes := by
  intro b hb
  simp only [nodeName, List.mem_cons, List.not_mem_nil, or_false] at hb
  obtain rfl | rfl | rfl | rfl := hb <;> decide

theorem log_read_back_monitored :
    ∃ s text, Steps.run Monitor.step monitoredRun Monitor.init = some s ∧ s.csv = some text ∧
      ∃ log : List StatusReport, readLog text = log.map StatusReport.entry ∧
        (∀ r ∈ log, .report r ∈ MonitorEvent.sent monitoredRun) ∧
        (monitoredRun.countP MonitorEvent.duplicates = 0 →
          (log.map Packet.report).Subperm (MonitorEvent.sent monitoredRun)) := by
  obtain ⟨s, hrun, text, hcsv⟩ := monitoredRun_run
  refine ⟨s, text, hrun, hcsv, log_read_back hrun hcsv ?_⟩
  intro e he
  simp only [monitoredRun, List.mem_cons, List.not_mem_nil, or_false] at he
  obtain rfl | rfl | rfl | rfl := he
  · trivial
  · exact plain_node
  · trivial
  · trivial

end Genlock.Swgenlock
