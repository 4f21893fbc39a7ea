import NetDefender.Behavior.Runs

/-!
# One source beside the others

What a run does to the port-scan and the exfiltration trackers of one address is what the
packets with that address would do alone, if nothing was ever swept: a tracker that the
sweep removes would have started a new window at its next packet.
-/

namespace NetDefender.Behavior

open CString Flows Rules Fallible

/-! ## One call -/

/-- The tracker that `get_port_scan_tracker` creates. -/
def PacketCall.newScan (call : PacketCall) : PortScanTracker where
  srcIp := call.flow.srcAddr.word0
  firstSeen := call.clock.seconds
  lastSeen := call.clock.seconds

/-- The tracker that `get_exfil_tracker` creates. -/
def PacketCall.newExfil (call : PacketCall) : DataExfilTracker where
  srcIp := call.flow.srcAddr.word0
  dstIp := call.flow.dstAddr.word0
  windowStart := call.clock.seconds
  lastTransfer := call.clock.seconds
  offHours := isOffHours call.clock.hour

/-- What `detect_port_scan` does to the trackers, and what it finds. -/
def PacketCall.scan (call : PacketCall) (trackers : List PortScanTracker) :
    List PortScanTracker × Option Bytes :=
  match call.tcpFlags with
  | none => (trackers, none)
  | some tcpFlags =>
      if call.flow.proto ≠ IPPROTO_TCP then (trackers, none)
      else
        track (fun tracker => tracker.srcIp == call.flow.srcAddr.word0) call.newScan
          (call.grants.tracker .portScan 0)
          (PortScanTracker.observe call.clock.seconds tcpFlags call.flow.dstPort) trackers

/-- What `detect_data_exfiltration` does to the trackers, and what it finds. -/
def PacketCall.exfil (call : PacketCall) (trackers : List DataExfilTracker) :
    List DataExfilTracker × Option Bytes :=
  if call.packetLen > 0 then
    track
      (fun tracker =>
        tracker.srcIp == call.flow.srcAddr.word0 && tracker.dstIp == call.flow.dstAddr.word0)
      call.newExfil (call.grants.tracker .dataExfil 0)
      (DataExfilTracker.observe call.clock call.packetLen) trackers
  else (trackers, none)

/-- The alerts of a rule, without their numbers. -/
def alertsOf (ruleId : Nat) (raised : List Alert) : List Alert :=
  (raised.filter (·.ruleId = ruleId)).map unnumbered

section Call

variable {grants : Grants} {clock : Clock} {flow : Flow}

theorem alertsOf_append (ruleId : Nat) (raised more : List Alert) :
    alertsOf ruleId (raised ++ more) = alertsOf ruleId raised ++ alertsOf ruleId more := by
  rw [alertsOf, List.filter_append, List.map_append]
  rfl

theorem Watch.Only.alertsOf_eq {kind : TrackerKind} {before after : Watch}
    (only : Watch.Only kind before after) {ruleId : Nat} (other : ruleId ∉ kind.ruleIds) :
    alertsOf ruleId after.raised = alertsOf ruleId before.raised :=
  congrArg (List.map unnumbered) (only.filter_raised other)

/-- A report adds the alerts for its finding to those of its rule. -/
theorem alertsOf_report (kind : TrackerKind) (index : Nat) (rule : EngineRule)
    (finding : Option Bytes) (watch : Watch) :
    alertsOf rule.ruleId (watch.report grants clock flow kind index rule finding).raised =
      alertsOf rule.ruleId watch.raised ++
        findingAlerts (grants.alert kind index) clock.now rule flow finding := by
  obtain ⟨-, news, raised, found⟩ :=
    @Watch.report_spec grants clock flow kind index rule finding watch
  have all : news.filter (·.ruleId = rule.ruleId) = news := by
    apply List.filter_eq_self.mpr
    intro alert member
    exact decide_eq_true (ruleId_of_unnumbered found alert member)
  rw [raised, alertsOf_append, ← found, alertsOf, alertsOf, all]

theorem findingAlerts_none (granted : Bool) (now : BitVec 64) (rule : EngineRule) :
    findingAlerts granted now rule flow none = [] := by
  rw [findingAlerts]
  split <;> rfl

theorem detectPortScan_spec (call : PacketCall) (watch : Watch) :
    let after := detectPortScan call.grants call.clock call.flow call.tcpFlags watch
    after.detector.scanTrackers = (call.scan watch.detector.scanTrackers).1 ∧
      alertsOf 9000 after.raised = alertsOf 9000 watch.raised ++
        findingAlerts (call.grants.alert .portScan 0) call.clock.now scanRule call.flow
          (call.scan watch.detector.scanTrackers).2 := by
  cases flags : call.tcpFlags with
  | none =>
      rw [PacketCall.scan, flags, findingAlerts_none, List.append_nil]
      exact ⟨rfl, rfl⟩
  | some tcpFlags =>
      rw [PacketCall.scan, flags, detectPortScan]
      dsimp only
      split
      next =>
        rw [findingAlerts_none, List.append_nil]
        exact ⟨rfl, rfl⟩
      next =>
        refine ⟨?_, alertsOf_report .portScan 0 scanRule _ _⟩
        rw [(Watch.report_spec .portScan 0 scanRule _ _).1]
        rfl

theorem detectDataExfiltration_spec (call : PacketCall) (watch : Watch) :
    let after := if call.packetLen > 0 then
      detectDataExfiltration call.grants call.clock call.flow call.packetLen watch else watch
    after.detector.exfilTrackers = (call.exfil watch.detector.exfilTrackers).1 ∧
      alertsOf 9002 after.raised = alertsOf 9002 watch.raised ++
        findingAlerts (call.grants.alert .dataExfil 0) call.clock.now exfilRule call.flow
          (call.exfil watch.detector.exfilTrackers).2 := by
  rw [PacketCall.exfil]
  dsimp only
  split
  next =>
    refine ⟨?_, alertsOf_report .dataExfil 0 exfilRule _ _⟩
    rw [detectDataExfiltration, (Watch.report_spec .dataExfil 0 exfilRule _ _).1]
    rfl
  next =>
    rw [findingAlerts_none, List.append_nil]
    exact ⟨rfl, rfl⟩

theorem exfil_only (call : PacketCall) (watch : Watch) :
    Watch.Only .dataExfil watch (if call.packetLen > 0 then
      detectDataExfiltration call.grants call.clock call.flow call.packetLen watch
      else watch) := by
  split
  next => exact detectDataExfiltration_only _ watch
  next => exact .refl _ watch

/-- What a call does to the trackers of port scans and exfiltration, and the alerts that it
raises for them. -/
theorem Monitor.inspect_tables {monitor after : Monitor} {call : PacketCall}
    {raised : List Alert} (ran : monitor.inspect call = .ok (after, raised)) :
    let aged := monitor.detector.ageAt (monitor.packetCount + 1) call.clock.seconds
    (after.detector.scanTrackers = (call.scan aged.scanTrackers).1 ∧
        alertsOf 9000 raised = findingAlerts (call.grants.alert .portScan 0) call.clock.now
          scanRule call.flow (call.scan aged.scanTrackers).2) ∧
      after.detector.exfilTrackers = (call.exfil aged.exfilTrackers).1 ∧
        alertsOf 9002 raised = findingAlerts (call.grants.alert .dataExfil 0) call.clock.now
          exfilRule call.flow (call.exfil aged.exfilTrackers).2 := by
  obtain ⟨⟨count, watch⟩, inspected, same⟩ := map_ok ran
  cases same
  obtain ⟨-, afterBrute, brute, anomaly⟩ := inspectPacket_cases inspected
  dsimp only at brute anomaly ⊢
  generalize monitor.detector.ageAt (monitor.packetCount + 1) call.clock.seconds = aged at *
  obtain ⟨scanned, scanAlerts⟩ :=
    detectPortScan_spec call { detector := aged, engine := monitor.engine }
  obtain ⟨sent, exfilAlerts⟩ := detectDataExfiltration_spec call afterBrute
  have onlyScan := @detectPortScan_only call.grants call.clock call.flow call.tcpFlags
    { detector := aged, engine := monitor.engine }
  have onlyBrute := detectBruteForce_only brute
  have onlyExfil := exfil_only call afterBrute
  have onlyAnomaly := detectTrafficAnomaly_only anomaly
  have before : afterBrute.detector.exfilTrackers = aged.exfilTrackers :=
    (onlyBrute.exfil (by decide)).trans (onlyScan.exfil (by decide))
  have quiet : alertsOf 9002 afterBrute.raised = [] :=
    (onlyBrute.alertsOf_eq (by decide)).trans (onlyScan.alertsOf_eq (by decide))
  refine ⟨⟨?_, ?_⟩, ?_, ?_⟩
  · rw [onlyAnomaly.scan (by decide), onlyExfil.scan (by decide), onlyBrute.scan (by decide)]
    exact scanned
  · rw [onlyAnomaly.alertsOf_eq (by decide), onlyExfil.alertsOf_eq (by decide),
      onlyBrute.alertsOf_eq (by decide)]
    exact scanAlerts
  · rw [onlyAnomaly.exfil (by decide), sent, before]
  · rw [onlyAnomaly.alertsOf_eq (by decide), exfilAlerts, quiet, before]
    rfl

end Call

/-! ## A source alone -/

/-- Does `detect_port_scan` count the packet? -/
def PacketCall.scans (call : PacketCall) : Bool :=
  call.tcpFlags.isSome && decide (call.flow.proto = IPPROTO_TCP)

/-- What a packet does to the tracker of its source. -/
def PacketCall.scanCell (call : PacketCall) (cell : Option PortScanTracker) :
    Option PortScanTracker × Option Bytes :=
  if call.scans then
    visit call.newScan
      (PortScanTracker.observe call.clock.seconds (call.tcpFlags.getD 0) call.flow.dstPort) cell
  else (cell, none)

/-- What a packet does to the tracker of its source and its destination. -/
def PacketCall.exfilCell (call : PacketCall) (cell : Option DataExfilTracker) :
    Option DataExfilTracker × Option Bytes :=
  if call.packetLen > 0 then
    visit call.newExfil (DataExfilTracker.observe call.clock call.packetLen) cell
  else (cell, none)

/-- The trackers of a source to which nothing but its own packets happens: that of its port
scans, and those of its transfers by their destination. -/
structure Alone where
  scan : Option PortScanTracker := none
  exfil : BitVec 32 → Option DataExfilTracker := fun _ => none

/-- What is seen of a packet: the alerts that it raises, and the trackers that have counted
it. -/
structure Observed where
  scanAlerts : List Alert
  exfilAlerts : List Alert
  scanTracker : Option PortScanTracker
  exfilTracker : Option DataExfilTracker
  deriving DecidableEq, Repr

/-- A packet of a source that is alone. -/
def Alone.inspect (alone : Alone) (call : PacketCall) : Alone × Observed :=
  let dstIp := call.flow.dstAddr.word0
  let (scan, scanned) := call.scanCell alone.scan
  let (exfil, sent) := call.exfilCell (alone.exfil dstIp)
  ({ scan, exfil := Function.update alone.exfil dstIp exfil },
    { scanAlerts := findingAlerts (call.grants.alert .portScan 0) call.clock.now scanRule
        call.flow scanned
      exfilAlerts := findingAlerts (call.grants.alert .dataExfil 0) call.clock.now exfilRule
        call.flow sent
      scanTracker := if call.scans then scan else none
      exfilTracker := if call.packetLen > 0 then exfil else none })

/-- The packets of a source that is alone. -/
def Alone.run : Alone → List PacketCall → List Observed
  | _, [] => []
  | alone, call :: calls => (alone.inspect call).2 :: run (alone.inspect call).1 calls

/-- What is seen of a packet in a run. -/
def Inspected.observed (inspected : Inspected) : Observed where
  scanAlerts := alertsOf 9000 inspected.raised
  exfilAlerts := alertsOf 9002 inspected.raised
  scanTracker :=
    if inspected.call.scans then
      Keyed.find PortScanTracker.srcIp inspected.call.flow.srcAddr.word0
        inspected.after.detector.scanTrackers
    else none
  exfilTracker :=
    if inspected.call.packetLen > 0 then
      Keyed.find DataExfilTracker.pair
        (inspected.call.flow.srcAddr.word0, inspected.call.flow.dstAddr.word0)
        inspected.after.detector.exfilTrackers
    else none

/-! ## Windows that are over -/

/-- The window is over. -/
def PortScanTracker.Expired (now : Int) (tracker : PortScanTracker) : Prop :=
  isWithinWindow now tracker.firstSeen PORT_SCAN_WINDOW = false

/-- The window is over. -/
def DataExfilTracker.Expired (now : Int) (tracker : DataExfilTracker) : Prop :=
  isWithinWindow now tracker.windowStart DATA_EXFIL_WINDOW = false

theorem isWithinWindow_eq_false {now start window : Int} :
    isWithinWindow now start window = false ↔ window < now - start := by
  rw [isWithinWindow, decide_eq_false_iff_not, not_le]

theorem isWithinWindow_later {now then' start window : Int} (order : now ≤ then')
    (elapsed : isWithinWindow now start window = false) :
    isWithinWindow then' start window = false := by
  rw [isWithinWindow_eq_false] at elapsed ⊢
  omega

theorem isWithinWindow_self (now window : Int) (nonnegative : 0 ≤ window) :
    isWithinWindow now now window = true := by
  rw [isWithinWindow, decide_eq_true_eq]
  omega

/-! ## What a packet leaves of a tracker -/

section Observe

variable (now : Int) (tcpFlags : BitVec 8) (port : BitVec 16) (tracker : PortScanTracker)

theorem PortScanTracker.restart_srcIp : (tracker.restart now).srcIp = tracker.srcIp := by
  rw [PortScanTracker.restart]
  split <;> rfl

theorem PortScanTracker.restart_firstSeen_le (order : tracker.firstSeen ≤ now) :
    (tracker.restart now).firstSeen ≤ now := by
  rw [PortScanTracker.restart]
  split
  next => exact order
  next => exact le_rfl

theorem PortScanTracker.addPort_keeps :
    (tracker.addPort port).2.srcIp = tracker.srcIp ∧
      (tracker.addPort port).2.firstSeen = tracker.firstSeen ∧
      (tracker.addPort port).2.lastSeen = tracker.lastSeen ∧
      (tracker.addPort port).2.alerted = tracker.alerted := by
  rw [PortScanTracker.addPort]
  split
  next => exact ⟨rfl, rfl, rfl, rfl⟩
  next => split <;> exact ⟨rfl, rfl, rfl, rfl⟩

theorem PortScanTracker.countSyn_keeps (ack : Bool) :
    (tracker.countSyn now port ack).1.srcIp = tracker.srcIp ∧
      (tracker.countSyn now port ack).1.firstSeen = tracker.firstSeen ∧
      (tracker.countSyn now port ack).1.lastSeen = tracker.lastSeen := by
  obtain ⟨srcIp, firstSeen, lastSeen, -⟩ :=
    PortScanTracker.addPort_keeps port { tracker with synCount := tracker.synCount + 1 }
  rw [PortScanTracker.countSyn]
  dsimp only
  cases ack with
  | false =>
      rw [if_neg Bool.false_ne_true]
      split <;> exact ⟨srcIp, firstSeen, lastSeen⟩
  | true =>
      rw [if_pos rfl]
      split <;> exact ⟨srcIp, firstSeen, lastSeen⟩

theorem PortScanTracker.observe_keeps :
    (tracker.observe now tcpFlags port).1.srcIp = tracker.srcIp ∧
      (tracker.observe now tcpFlags port).1.firstSeen = (tracker.restart now).firstSeen ∧
      (tracker.observe now tcpFlags port).1.lastSeen = now := by
  obtain ⟨srcIp, firstSeen, lastSeen⟩ := PortScanTracker.countSyn_keeps now port
    { tracker.restart now with lastSeen := now } (hasFlag tcpFlags RTE_TCP_ACK_FLAG)
  have same := tracker.restart_srcIp now
  rw [PortScanTracker.observe]
  dsimp only
  split
  next => split <;> exact ⟨srcIp.trans same, firstSeen, lastSeen⟩
  next => exact ⟨same, rfl, rfl⟩

end Observe

theorem DataExfilTracker.observe_pair (clock : Clock) (bytes : BitVec 32)
    (tracker : DataExfilTracker) : (tracker.observe clock bytes).1.pair = tracker.pair := by
  have same : (tracker.restart clock).pair = tracker.pair := by
    rw [DataExfilTracker.restart]
    split <;> rfl
  rw [DataExfilTracker.observe]
  dsimp only
  split <;> exact same

/-- A tracker whose window is over is taken for a new one. -/
theorem PortScanTracker.Expired.observe_eq {now : Int} {tracker : PortScanTracker}
    (expired : tracker.Expired now) (tcpFlags : BitVec 8) (port : BitVec 16) :
    tracker.observe now tcpFlags port =
      PortScanTracker.observe now tcpFlags port
        { srcIp := tracker.srcIp, firstSeen := now, lastSeen := now } := by
  have elapsed : isWithinWindow now tracker.firstSeen PORT_SCAN_WINDOW = false := expired
  have new : isWithinWindow now now PORT_SCAN_WINDOW = true :=
    isWithinWindow_self now _ (by decide)
  simp only [PortScanTracker.observe, PortScanTracker.restart, elapsed, new, if_pos,
    Bool.false_eq_true, if_false]

/-- A tracker whose window is over is taken for a new one. -/
theorem DataExfilTracker.Expired.observe_eq {clock : Clock} {tracker : DataExfilTracker}
    (expired : tracker.Expired clock.seconds) (bytes : BitVec 32) :
    tracker.observe clock bytes =
      DataExfilTracker.observe clock bytes
        { srcIp := tracker.srcIp, dstIp := tracker.dstIp, windowStart := clock.seconds
          lastTransfer := clock.seconds, offHours := isOffHours clock.hour } := by
  have elapsed : isWithinWindow clock.seconds tracker.windowStart DATA_EXFIL_WINDOW = false :=
    expired
  have new : isWithinWindow clock.seconds clock.seconds DATA_EXFIL_WINDOW = true :=
    isWithinWindow_self _ _ (by decide)
  simp only [DataExfilTracker.observe, DataExfilTracker.restart, elapsed, new, if_pos,
    Bool.false_eq_true, if_false]

/-! ## The source in a run -/

/-- The tables of a run hold what the source would have alone, but for what has expired at
a time. -/
structure Shadows (source : BitVec 32) (now : Int) (scans : List PortScanTracker)
    (exfils : List DataExfilTracker) (alone : Alone) : Prop where
  scanDistinct : Keyed.Distinct PortScanTracker.srcIp scans
  exfilDistinct : Keyed.Distinct DataExfilTracker.pair exfils
  scan : Keyed.Agrees PortScanTracker.Expired now
    (Keyed.find PortScanTracker.srcIp source scans) alone.scan
  exfil : ∀ dstIp, Keyed.Agrees DataExfilTracker.Expired now
    (Keyed.find DataExfilTracker.pair (source, dstIp) exfils) (alone.exfil dstIp)
  scanKept : ∀ tracker ∈ alone.scan, tracker.srcIp = source ∧
    tracker.firstSeen ≤ tracker.lastSeen ∧ tracker.lastSeen ≤ now
  exfilKept : ∀ dstIp, ∀ tracker ∈ alone.exfil dstIp, tracker.pair = (source, dstIp)

section Shadows

variable {source : BitVec 32} {now : Int} {scans : List PortScanTracker}
variable {exfils : List DataExfilTracker} {alone : Alone}

/-- Nothing is tracked at first. -/
theorem shadows_init (source : BitVec 32) (now : Int) : Shadows source now [] [] {} where
  scanDistinct := List.nodup_nil
  exfilDistinct := List.nodup_nil
  scan := .same none
  exfil := fun _ => .same none
  scanKept := fun _ member => absurd member (by simp)
  exfilKept := fun _ _ member => absurd member (by simp)

theorem Shadows.later (shadows : Shadows source now scans exfils alone) {reading : Int}
    (order : now ≤ reading) : Shadows source reading scans exfils alone where
  scanDistinct := shadows.scanDistinct
  exfilDistinct := shadows.exfilDistinct
  scan := shadows.scan.later fun _ => isWithinWindow_later order
  exfil := fun dstIp => (shadows.exfil dstIp).later fun _ => isWithinWindow_later order
  scanKept := fun tracker member =>
    have ⟨key, first, last⟩ := shadows.scanKept tracker member
    ⟨key, first, last.trans order⟩
  exfilKept := shadows.exfilKept

/-- The sweep removes only trackers whose window is over. -/
theorem Shadows.age (shadows : Shadows source now scans exfils alone) {reading : Int}
    (order : reading ≤ now) :
    Shadows source now (ageOut PortScanTracker.lastSeen 300 reading scans)
      (ageOut DataExfilTracker.windowStart 1800 reading exfils) alone := by
  constructor
  case scanDistinct => exact shadows.scanDistinct.filter _
  case exfilDistinct => exact shadows.exfilDistinct.filter _
  case scan =>
    rw [ageOut, shadows.scanDistinct.find_filter]
    apply shadows.scan.sweep
    intro tracker member dropped
    have times := shadows.scanKept tracker member
    simp only [Bool.not_eq_false', decide_eq_true_eq] at dropped
    rw [PortScanTracker.Expired, isWithinWindow_eq_false, PORT_SCAN_WINDOW]
    omega
  case exfil =>
    intro dstIp
    rw [ageOut, shadows.exfilDistinct.find_filter]
    apply (shadows.exfil dstIp).sweep
    intro tracker _ dropped
    simp only [Bool.not_eq_false', decide_eq_true_eq] at dropped
    rw [DataExfilTracker.Expired, isWithinWindow_eq_false, DATA_EXFIL_WINDOW]
    omega
  case scanKept => exact shadows.scanKept
  case exfilKept => exact shadows.exfilKept

theorem Shadows.ageAt {detector : Detector}
    (shadows : Shadows source now detector.scanTrackers detector.exfilTrackers alone)
    (packetCount : BitVec 64) {reading : Int} (order : reading ≤ now) :
    Shadows source now (detector.ageAt packetCount reading).scanTrackers
      (detector.ageAt packetCount reading).exfilTrackers alone := by
  rw [Detector.ageAt]
  split
  next => exact shadows.age order
  next => exact shadows

/-! ### The tables at a call -/

theorem scan_of_scans {call : PacketCall} (counts : call.scans = true)
    (trackers : List PortScanTracker) :
    call.scan trackers =
      track (fun tracker => tracker.srcIp == call.flow.srcAddr.word0) call.newScan
        (call.grants.tracker .portScan 0)
        (PortScanTracker.observe call.clock.seconds (call.tcpFlags.getD 0) call.flow.dstPort)
        trackers := by
  rw [PacketCall.scans] at counts
  rw [PacketCall.scan]
  cases flags : call.tcpFlags with
  | none => simp [flags] at counts
  | some tcpFlags =>
      have tcp : call.flow.proto = IPPROTO_TCP := by simpa [flags] using counts
      dsimp only
      rw [if_neg (not_not.mpr tcp)]
      rfl

theorem scan_of_not_scans {call : PacketCall} (counts : ¬call.scans = true)
    (trackers : List PortScanTracker) : call.scan trackers = (trackers, none) := by
  rw [PacketCall.scans] at counts
  rw [PacketCall.scan]
  cases flags : call.tcpFlags with
  | none => rfl
  | some tcpFlags =>
      have other : call.flow.proto ≠ IPPROTO_TCP := by simpa [flags] using counts
      exact if_pos other

theorem scanKey_decides (source : BitVec 32) (tracker : PortScanTracker) :
    (tracker.srcIp == source) = decide (tracker.srcIp = source) := rfl

theorem exfilKey_decides (srcIp dstIp : BitVec 32) (tracker : DataExfilTracker) :
    (tracker.srcIp == srcIp && tracker.dstIp == dstIp) =
      decide (tracker.pair = (srcIp, dstIp)) := by
  rw [Bool.eq_iff_iff]
  simp [DataExfilTracker.pair]

/-- A packet of another source. -/
theorem Shadows.other (shadows : Shadows source now scans exfils alone) {call : PacketCall}
    (different : call.flow.srcAddr.word0 ≠ source) :
    Shadows source now (call.scan scans).1 (call.exfil exfils).1 alone := by
  have scanned : Keyed.Distinct PortScanTracker.srcIp (call.scan scans).1 ∧
      Keyed.find PortScanTracker.srcIp source (call.scan scans).1 =
        Keyed.find PortScanTracker.srcIp source scans := by
    by_cases counts : call.scans = true
    · rw [scan_of_scans counts]
      have keeps := fun tracker : PortScanTracker =>
        (tracker.observe_keeps call.clock.seconds (call.tcpFlags.getD 0) call.flow.dstPort).1
      have decides := scanKey_decides call.flow.srcAddr.word0
      exact ⟨track_distinct decides rfl keeps shadows.scanDistinct _,
        track_find_of_ne decides rfl keeps different _ scans⟩
    · rw [scan_of_not_scans counts]
      exact ⟨shadows.scanDistinct, rfl⟩
  have sent : Keyed.Distinct DataExfilTracker.pair (call.exfil exfils).1 ∧ ∀ dstIp,
      Keyed.find DataExfilTracker.pair (source, dstIp) (call.exfil exfils).1 =
        Keyed.find DataExfilTracker.pair (source, dstIp) exfils := by
    rw [PacketCall.exfil]
    split
    next =>
      have keeps := fun tracker : DataExfilTracker =>
        tracker.observe_pair call.clock call.packetLen
      have decides := exfilKey_decides call.flow.srcAddr.word0 call.flow.dstAddr.word0
      refine ⟨track_distinct decides rfl keeps shadows.exfilDistinct _, ?_⟩
      intro dstIp
      apply track_find_of_ne decides rfl keeps
      exact fun same => different (congrArg Prod.fst same)
    next => exact ⟨shadows.exfilDistinct, fun _ => rfl⟩
  constructor
  case scanDistinct => exact scanned.1
  case exfilDistinct => exact sent.1
  case scan => exact scanned.2 ▸ shadows.scan
  case exfil => exact fun dstIp => sent.2 dstIp ▸ shadows.exfil dstIp
  case scanKept => exact shadows.scanKept
  case exfilKept => exact shadows.exfilKept

/-- The port-scan tracker at a packet of the source. -/
theorem Shadows.scan_own {call : PacketCall}
    (shadows : Shadows call.flow.srcAddr.word0 call.clock.seconds scans exfils alone)
    (granted : call.grants.tracker .portScan 0 = true) :
    Keyed.Distinct PortScanTracker.srcIp (call.scan scans).1 ∧
      (call.scan scans).2 = (call.scanCell alone.scan).2 ∧
      Keyed.Agrees PortScanTracker.Expired call.clock.seconds
        (Keyed.find PortScanTracker.srcIp call.flow.srcAddr.word0 (call.scan scans).1)
        (call.scanCell alone.scan).1 ∧
      (call.scans = true →
        Keyed.find PortScanTracker.srcIp call.flow.srcAddr.word0 (call.scan scans).1 =
          (call.scanCell alone.scan).1) ∧
      ∀ tracker ∈ (call.scanCell alone.scan).1,
        tracker.srcIp = call.flow.srcAddr.word0 ∧ tracker.firstSeen ≤ tracker.lastSeen ∧
          tracker.lastSeen ≤ call.clock.seconds := by
  by_cases counts : call.scans = true
  · rw [scan_of_scans counts, PacketCall.scanCell, if_pos counts, granted]
    have keeps := fun tracker : PortScanTracker =>
      tracker.observe_keeps call.clock.seconds (call.tcpFlags.getD 0) call.flow.dstPort
    have renewed : ∀ tracker ∈ alone.scan, tracker.Expired call.clock.seconds →
        tracker.observe call.clock.seconds (call.tcpFlags.getD 0) call.flow.dstPort =
          call.newScan.observe call.clock.seconds (call.tcpFlags.getD 0) call.flow.dstPort := by
      intro tracker member expired
      rw [expired.observe_eq, (shadows.scanKept tracker member).1]
      rfl
    obtain ⟨distinct, finding, found⟩ := track_shadowed
      (scanKey_decides call.flow.srcAddr.word0) (rfl : call.newScan.srcIp = _)
      (fun tracker => (keeps tracker).1) shadows.scanDistinct shadows.scan renewed
    refine ⟨distinct, finding, found ▸ .same _, fun _ => found, ?_⟩
    have before : (alone.scan.getD call.newScan).srcIp = call.flow.srcAddr.word0 ∧
        (alone.scan.getD call.newScan).firstSeen ≤ call.clock.seconds := by
      cases kept : alone.scan with
      | none => exact ⟨rfl, le_rfl⟩
      | some tracker =>
          obtain ⟨key, first, last⟩ := shadows.scanKept tracker kept
          exact ⟨key, first.trans last⟩
    intro tracker member
    obtain ⟨key, first, last⟩ := keeps (alone.scan.getD call.newScan)
    have same : tracker = (PortScanTracker.observe call.clock.seconds (call.tcpFlags.getD 0)
        call.flow.dstPort (alone.scan.getD call.newScan)).1 := (Option.some.inj member).symm
    rw [same, key, first, last]
    exact ⟨before.1, PortScanTracker.restart_firstSeen_le _ _ before.2, le_rfl⟩
  · rw [scan_of_not_scans counts, PacketCall.scanCell, if_neg counts]
    exact ⟨shadows.scanDistinct, rfl, shadows.scan, fun scanned => absurd scanned counts,
      shadows.scanKept⟩

/-- The tracker of a transfer at a packet of the source. -/
theorem Shadows.exfil_own {call : PacketCall}
    (shadows : Shadows call.flow.srcAddr.word0 call.clock.seconds scans exfils alone)
    (granted : call.grants.tracker .dataExfil 0 = true) :
    let cell := call.exfilCell (alone.exfil call.flow.dstAddr.word0)
    Keyed.Distinct DataExfilTracker.pair (call.exfil exfils).1 ∧
      (call.exfil exfils).2 = cell.2 ∧
      (∀ dstIp, Keyed.Agrees DataExfilTracker.Expired call.clock.seconds
        (Keyed.find DataExfilTracker.pair (call.flow.srcAddr.word0, dstIp) (call.exfil exfils).1)
        (Function.update alone.exfil call.flow.dstAddr.word0 cell.1 dstIp)) ∧
      (call.packetLen > 0 →
        Keyed.find DataExfilTracker.pair (call.flow.srcAddr.word0, call.flow.dstAddr.word0)
          (call.exfil exfils).1 = cell.1) ∧
      ∀ dstIp, ∀ tracker ∈ Function.update alone.exfil call.flow.dstAddr.word0 cell.1 dstIp,
        tracker.pair = (call.flow.srcAddr.word0, dstIp) := by
  rw [PacketCall.exfil, PacketCall.exfilCell]
  by_cases counts : call.packetLen > 0
  · rw [if_pos counts, if_pos counts, granted]
    have decides := exfilKey_decides call.flow.srcAddr.word0 call.flow.dstAddr.word0
    have keeps := fun tracker : DataExfilTracker =>
      tracker.observe_pair call.clock call.packetLen
    have renewed : ∀ tracker ∈ alone.exfil call.flow.dstAddr.word0,
        tracker.Expired call.clock.seconds →
          tracker.observe call.clock call.packetLen =
            call.newExfil.observe call.clock call.packetLen := by
      intro tracker member expired
      have keyed := shadows.exfilKept _ tracker member
      have src : tracker.srcIp = call.flow.srcAddr.word0 := congrArg Prod.fst keyed
      have dst : tracker.dstIp = call.flow.dstAddr.word0 := congrArg Prod.snd keyed
      rw [expired.observe_eq, PacketCall.newExfil, src, dst]
    obtain ⟨distinct, finding, found⟩ := track_shadowed decides
      (rfl : call.newExfil.pair = _) keeps shadows.exfilDistinct
      (shadows.exfil call.flow.dstAddr.word0) renewed
    refine ⟨distinct, finding, fun dstIp => ?_, fun _ => found, fun dstIp tracker member => ?_⟩
    · by_cases same : dstIp = call.flow.dstAddr.word0
      · subst same
        rw [Function.update_self, found]
        exact .same _
      · have other : (call.flow.srcAddr.word0, call.flow.dstAddr.word0) ≠
            (call.flow.srcAddr.word0, dstIp) := fun pairs => same (congrArg Prod.snd pairs).symm
        rw [Function.update_of_ne same, track_find_of_ne decides rfl keeps other]
        exact shadows.exfil dstIp
    · by_cases same : dstIp = call.flow.dstAddr.word0
      · subst same
        rw [Function.update_self] at member
        rw [← found] at member
        exact Keyed.key_of_find member
      · rw [Function.update_of_ne same] at member
        exact shadows.exfilKept dstIp tracker member
  · rw [if_neg counts, if_neg counts]
    dsimp only
    rw [Function.update_eq_self]
    exact ⟨shadows.exfilDistinct, rfl, shadows.exfil, fun sent => absurd sent counts,
      shadows.exfilKept⟩

/-- A packet of the source is seen as if the source were alone. -/
theorem Shadows.own {call : PacketCall}
    (shadows : Shadows call.flow.srcAddr.word0 call.clock.seconds scans exfils alone)
    (scanGranted : call.grants.tracker .portScan 0 = true)
    (exfilGranted : call.grants.tracker .dataExfil 0 = true) :
    Shadows call.flow.srcAddr.word0 call.clock.seconds (call.scan scans).1 (call.exfil exfils).1
      (alone.inspect call).1 := by
  obtain ⟨scanDistinct, -, scan, -, scanKept⟩ := shadows.scan_own scanGranted
  obtain ⟨exfilDistinct, -, exfil, -, exfilKept⟩ := shadows.exfil_own exfilGranted
  exact ⟨scanDistinct, exfilDistinct, scan, exfil, scanKept, exfilKept⟩

theorem Shadows.observed {call : PacketCall} {raised : List Alert} {after : Monitor}
    (shadows : Shadows call.flow.srcAddr.word0 call.clock.seconds scans exfils alone)
    (scanGranted : call.grants.tracker .portScan 0 = true)
    (exfilGranted : call.grants.tracker .dataExfil 0 = true)
    (tables : (after.detector.scanTrackers = (call.scan scans).1 ∧
        alertsOf 9000 raised = findingAlerts (call.grants.alert .portScan 0) call.clock.now
          scanRule call.flow (call.scan scans).2) ∧
      after.detector.exfilTrackers = (call.exfil exfils).1 ∧
        alertsOf 9002 raised = findingAlerts (call.grants.alert .dataExfil 0) call.clock.now
          exfilRule call.flow (call.exfil exfils).2) :
    Inspected.observed ⟨call, raised, after⟩ = (alone.inspect call).2 := by
  obtain ⟨-, scanned, -, scanTracker, -⟩ := shadows.scan_own scanGranted
  obtain ⟨-, sent, -, exfilTracker, -⟩ := shadows.exfil_own exfilGranted
  obtain ⟨⟨scanTable, scanAlerts⟩, exfilTable, exfilAlerts⟩ := tables
  rw [Inspected.observed, Alone.inspect]
  dsimp only
  rw [scanAlerts, exfilAlerts, scanned, sent, scanTable, exfilTable]
  congr 1
  · split
    next counts => exact scanTracker counts
    next => rfl
  · split
    next counts => exact exfilTracker counts
    next => rfl

end Shadows

/-! ## Runs -/

/-- No packet with an address reads the clock before what it read at an earlier packet. -/
def Forward (source : BitVec 32) (calls : List PacketCall) : Prop :=
  calls.Pairwise fun earlier call =>
    call.flow.srcAddr.word0 = source → earlier.clock.seconds ≤ call.clock.seconds

/-- The trackers of the packets with an address can be allocated. -/
def Granted (source : BitVec 32) (calls : List PacketCall) : Prop :=
  ∀ call ∈ calls, call.flow.srcAddr.word0 = source →
    call.grants.tracker .portScan 0 = true ∧ call.grants.tracker .dataExfil 0 = true

/-- What is seen of the packets with an address in a run is what is seen of them alone. -/
theorem Shadows.run {source : BitVec 32} {now : Int} {counter : BitVec 64 → BitVec 64}
    {monitor : Monitor} {alone : Alone} {calls : List PacketCall} {trace : List Inspected}
    (shadows : Shadows source now monitor.detector.scanTrackers monitor.detector.exfilTrackers
      alone)
    (ran : monitor.run counter calls = .ok trace)
    (after : ∀ call ∈ calls, call.flow.srcAddr.word0 = source → now ≤ call.clock.seconds)
    (forward : Forward source calls) (granted : Granted source calls) :
    (trace.filter fun inspected => inspected.call.flow.srcAddr.word0 = source).map
        Inspected.observed =
      alone.run (calls.filter fun call => call.flow.srcAddr.word0 = source) := by
  induction calls generalizing now monitor alone trace with
  | nil =>
      cases ran
      rfl
  | cons call calls ih =>
      obtain ⟨⟨next, raised⟩, inspected, ran⟩ := bind_ok ran
      obtain ⟨rest, onward, rfl⟩ := map_ok ran
      obtain ⟨first, forward⟩ := List.pairwise_cons.mp forward
      rw [Granted, List.forall_mem_cons] at granted
      rw [List.forall_mem_cons] at after
      have tables := Monitor.inspect_tables inspected
      dsimp only at tables
      by_cases own : call.flow.srcAddr.word0 = source
      · subst own
        have aged := (shadows.later (after.1 rfl)).ageAt
          (counter monitor.packetCount + 1) (le_refl call.clock.seconds)
        obtain ⟨scanGranted, exfilGranted⟩ := granted.1 rfl
        have stepped := aged.own scanGranted exfilGranted
        rw [← tables.1.1, ← tables.2.1] at stepped
        rw [List.filter_cons_of_pos (by simp), List.filter_cons_of_pos (by simp), List.map_cons,
          Alone.run, aged.observed scanGranted exfilGranted tables]
        congr 1
        exact ih stepped onward (fun later member own => first later member own) forward granted.2
      · have aged := (shadows.later (le_max_left now call.clock.seconds)).ageAt
          (counter monitor.packetCount + 1) (le_max_right now call.clock.seconds)
        have stepped := aged.other own
        rw [← tables.1.1, ← tables.2.1] at stepped
        rw [List.filter_cons_of_neg (by simpa using own),
          List.filter_cons_of_neg (by simpa using own)]
        apply ih stepped onward _ forward granted.2
        exact fun later member own => max_le (after.2 later member own) (first later member own)

/-! ## Sources -/

/-- The source of a flow: its whole address, of IPv4 or not. -/
structure Source where
  ipv4 : Bool
  address : FlowAddress
  deriving DecidableEq, Repr

def PacketCall.source (call : PacketCall) : Source where
  ipv4 := decide (call.flow.flags &&& FLOW_IPV4 ≠ 0)
  address := call.flow.srcAddr

/-- What the detections of scans and transfers read of a call. -/
def PacketCall.sighting (call : PacketCall) : PacketCall :=
  { call with
    alproto := .unknown
    ctx := .null
    flow :=
      { id := 0
        useCnt := 0
        proto := call.flow.proto
        flags := call.flow.flags
        srcAddr := call.flow.srcAddr
        dstAddr := call.flow.dstAddr
        srcPort := call.flow.srcPort
        dstPort := call.flow.dstPort } }

theorem Alone.run_sighting (alone : Alone) (calls : List PacketCall) :
    alone.run (calls.map PacketCall.sighting) = alone.run calls := by
  induction calls generalizing alone with
  | nil => rfl
  | cons call calls ih =>
      rw [List.map_cons, Alone.run, ih]
      rfl

/-- No other source has the first word of the address, the clock never goes back to a packet
of the source, and the trackers of its packets can be allocated. -/
structure Apart (source : Source) (calls : List PacketCall) : Prop where
  key : ∀ call ∈ calls, call.flow.srcAddr.word0 = source.address.word0 → call.source = source
  forward : Forward source.address.word0 calls
  granted : Granted source.address.word0 calls

theorem Apart.source_eq_iff {source : Source} {calls : List PacketCall}
    (apart : Apart source calls) (call : PacketCall) (member : call ∈ calls) :
    call.source = source ↔ call.flow.srcAddr.word0 = source.address.word0 := by
  constructor
  case mp =>
    rintro rfl
    rfl
  case mpr => exact apart.key call member

/-- What is seen of a source in a run from a new detector. -/
theorem Apart.observed {source : Source} {calls : List PacketCall}
    (apart : Apart source calls) {monitor : Monitor} (new : monitor.detector = {})
    {trace : List Inspected} (ran : monitor.run id calls = .ok trace) :
    (trace.filter fun inspected => inspected.call.source = source).map Inspected.observed =
      Alone.run {} ((calls.filter fun call => call.source = source).map
        PacketCall.sighting) := by
  have calls_eq := Monitor.run_calls ran
  have inside : (trace.filter fun inspected => decide (inspected.call.source = source)) =
      trace.filter fun inspected =>
        decide (inspected.call.flow.srcAddr.word0 = source.address.word0) := by
    apply List.filter_congr
    intro inspected member
    have made : inspected.call ∈ calls := calls_eq ▸ List.mem_map_of_mem member
    rw [decide_eq_decide]
    exact apart.source_eq_iff _ made
  have outside : (calls.filter fun call => decide (call.source = source)) =
      calls.filter fun call => decide (call.flow.srcAddr.word0 = source.address.word0) := by
    apply List.filter_congr
    intro call member
    rw [decide_eq_decide]
    exact apart.source_eq_iff call member
  have earliest : ∃ now : Int, ∀ call ∈ calls, now ≤ call.clock.seconds :=
    ⟨-2 ^ 63, fun call _ => BitVec.le_toInt _⟩
  obtain ⟨now, before⟩ := earliest
  have shadows : Shadows source.address.word0 now monitor.detector.scanTrackers
      monitor.detector.exfilTrackers {} := by
    rw [new]
    exact shadows_init _ now
  rw [Alone.run_sighting, inside, outside]
  exact shadows.run ran (fun call member _ => before call member) apart.forward apart.granted

/-- Two runs that agree on the packets of a source raise the same alerts of port scans and
exfiltration for it, and count its packets alike, if no other source has the first word of its
address. -/
theorem sources_isolated (source : Source) {monitor monitor' : Monitor}
    (new : monitor.detector = {}) (new' : monitor'.detector = {})
    {calls calls' : List PacketCall} (apart : Apart source calls) (apart' : Apart source calls')
    (agree : (calls.filter fun call => call.source = source).map PacketCall.sighting =
      (calls'.filter fun call => call.source = source).map PacketCall.sighting)
    {trace trace' : List Inspected} (ran : monitor.run id calls = .ok trace)
    (ran' : monitor'.run id calls' = .ok trace') :
    (trace.filter fun inspected => inspected.call.source = source).map Inspected.observed =
      (trace'.filter fun inspected => inspected.call.source = source).map
        Inspected.observed := by
  rw [apart.observed new ran, apart'.observed new' ran', agree]

/-- A packet with the SYN flag, of a flow with the flag of its IP version. -/
def probe (version : BitVec 32) (address : FlowAddress) (port : BitVec 16) : PacketCall where
  clock := ⟨0, 12⟩
  flow :=
    { id := 0, useCnt := 1, proto := IPPROTO_TCP, flags := version, srcAddr := address
      dstPort := port }
  packetLen := 60
  tcpFlags := some RTE_TCP_SYN_FLAG

/-- A source beside one whose address begins otherwise. -/
theorem sources_isolated_pair :
    let source : Source := ⟨false, ⟨1, 0, 0, 1⟩⟩
    let calls := [probe FLOW_IPV6 ⟨1, 0, 0, 1⟩ 80]
    let calls' := [probe FLOW_IPV6 ⟨2, 0, 0, 1⟩ 80, probe FLOW_IPV6 ⟨1, 0, 0, 1⟩ 80]
    ∃ trace trace', Monitor.run id {} calls = .ok trace ∧ Monitor.run id {} calls' = .ok trace' ∧
      (trace.filter fun inspected => inspected.call.source = source).map Inspected.observed =
        (trace'.filter fun inspected => inspected.call.source = source).map
          Inspected.observed := by
  have readable (address : FlowAddress) : (probe FLOW_IPV6 address 80).Readable :=
    ⟨nofun, nofun, nofun⟩
  obtain ⟨trace, ran⟩ := (Monitor.run_ok_iff id {} [probe FLOW_IPV6 ⟨1, 0, 0, 1⟩ 80]).mpr
    (List.forall_mem_singleton.mpr (readable _))
  obtain ⟨trace', ran'⟩ :=
    (Monitor.run_ok_iff id {}
        [probe FLOW_IPV6 ⟨2, 0, 0, 1⟩ 80, probe FLOW_IPV6 ⟨1, 0, 0, 1⟩ 80]).mpr
      (List.forall_mem_cons.mpr ⟨readable _, List.forall_mem_singleton.mpr (readable _)⟩)
  refine ⟨trace, trace', ran, ran',
    sources_isolated ⟨false, ⟨1, 0, 0, 1⟩⟩ rfl rfl ⟨?_, ?_, ?_⟩ ⟨?_, ?_, ?_⟩
      (by rfl) ran ran'⟩
  · exact List.forall_mem_singleton.mpr fun _ => rfl
  · exact List.pairwise_singleton _ _
  · exact List.forall_mem_singleton.mpr fun _ => ⟨rfl, rfl⟩
  · exact List.forall_mem_cons.mpr
      ⟨fun same => absurd same (by decide), List.forall_mem_singleton.mpr fun _ => rfl⟩
  · exact List.pairwise_pair.mpr fun _ => le_rfl
  · exact List.forall_mem_cons.mpr
      ⟨fun _ => ⟨rfl, rfl⟩, List.forall_mem_singleton.mpr fun _ => ⟨rfl, rfl⟩⟩

/-- Another source completes the scan of an IPv6 source whose address begins alike. -/
theorem sources_share_tracker :
    let address : FlowAddress := ⟨0xb80d0120, 0, 0, 1⟩
    let own := (List.range 9).map fun port => probe FLOW_IPV6 address (BitVec.ofNat 16 port)
    let calls := probe FLOW_IPV6 { address with word3 := 2 } 9 :: own
    let alerts (calls : List PacketCall) : Option (List Nat) :=
      (Monitor.run id {} calls).toOption.map fun trace =>
        (trace.filter fun inspected => inspected.call.source = ⟨false, address⟩).map
          fun inspected => inspected.observed.scanAlerts.length
    (calls.filter fun call => call.source = ⟨false, address⟩) =
        (own.filter fun call => call.source = ⟨false, address⟩) ∧
      alerts own = some [0, 0, 0, 0, 0, 0, 0, 0, 0] ∧
        alerts calls = some [0, 0, 0, 0, 0, 0, 0, 0, 1] := by
  refine ⟨?_, by decide +kernel, by decide +kernel⟩
  apply List.filter_cons_of_neg
  decide

end NetDefender.Behavior
