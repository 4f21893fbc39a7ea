import Mathlib.Data.List.Defs
import NetDefender.Bridge.Process
import NetDefender.Lib.Fallible
import NetDefender.Rules.Engine

/-!
# The behavioral detector

`behavioral_detector.c`: trackers of port scans, brute force, exfiltration and traffic
anomalies, which are found by an address and changed by each packet of a flow.

The clock is read once in a call.  A hash table of trackers is the list of its entries,
latest first: the bucket that an entry is in decides nothing.  Statistics that nothing
reads, and the fields of a tracker that only they read, are left out.
-/

namespace NetDefender.Behavior

open CString Flows Rules Fallible

/-! ## Contexts -/

/-- What the union `flow->protoctx` points to. -/
inductive ProtoCtx where
  | null
  | session (appParser : Option Bridge.AppParser)
  | dns (conn : DnsParser.DnsConn)
  deriving DecidableEq, Repr

/-- `protoctx.tcp`: the parser of the session, if there is a session. -/
def ProtoCtx.tcp : ProtoCtx → Except Bridge.Fault (Option (Option Bridge.AppParser))
  | .null => .ok none
  | .session appParser => .ok (some appParser)
  | .dns _ => .error .confused

/-- `protoctx.udp`, as it is used for a `dns_conn_t`. -/
def ProtoCtx.udp : ProtoCtx → Except Bridge.Fault (Option DnsParser.DnsConn)
  | .null => .ok none
  | .session _ => .error .confused
  | .dns conn => .ok (some conn)

/-- `(http_conn_t *)flow->protoctx.tcp->app_parser`, if there is one. -/
def ProtoCtx.http (ctx : ProtoCtx) : Except Bridge.Fault (Option Http.HttpConn) :=
  ctx.tcp.bind fun
    | none | some none => .ok none
    | some (some (.http conn)) => .ok (some conn)
    | some (some (.tls _)) => .error .confused

/-- `(tls_conn_t *)flow->protoctx.tcp->app_parser`, if there is one. -/
def ProtoCtx.tls (ctx : ProtoCtx) : Except Bridge.Fault (Option Tls.TlsConn) :=
  ctx.tcp.bind fun
    | none | some none => .ok none
    | some (some (.tls st)) => .ok (some st.conn)
    | some (some (.http _)) => .error .confused

/-- What a call reads of the clock: the time of day, and the hour of `localtime`. -/
structure Clock where
  now : BitVec 64
  hour : Nat
  deriving DecidableEq, Repr

/-- `get_current_time`. -/
def Clock.seconds (clock : Clock) : Int := clock.now.toInt

/-! ## Trackers -/

def PORT_SCAN_WINDOW : Int := 60
def PORT_SCAN_THRESHOLD : Nat := 10
def BRUTE_FORCE_WINDOW : Int := 600
def BRUTE_FORCE_THRESHOLD : BitVec 32 := 5
def DATA_EXFIL_WINDOW : Int := 600
def DATA_EXFIL_THRESHOLD : BitVec 64 := 100 * 1024 * 1024
def MAX_TRACKED_PORTS : Nat := 1024
def DNS_HIGH_FREQ_THRESHOLD : BitVec 32 := 100
def ANOMALY_WINDOW : Int := 300

/-- `port_scan_tracker_t`. -/
structure PortScanTracker where
  srcIp : BitVec 32
  portsContacted : List (BitVec 16) := []
  firstSeen : Int
  lastSeen : Int
  synCount : BitVec 32 := 0
  synAckCount : BitVec 32 := 0
  isSynScan : Bool := false
  alerted : Bool := false
  deriving DecidableEq, Repr

/-- `brute_force_tracker_t`. -/
structure BruteForceTracker where
  targetIp : BitVec 32
  targetPort : BitVec 16
  failedAttempts : BitVec 32 := 0
  windowStart : Int
  lastAttempt : Int
  alerted : Bool := false
  http401Count : BitVec 32 := 0
  http403Count : BitVec 32 := 0
  deriving DecidableEq, Repr

/-- `data_exfil_tracker_t`. -/
structure DataExfilTracker where
  srcIp : BitVec 32
  dstIp : BitVec 32
  bytesTransferred : BitVec 64 := 0
  packetCount : BitVec 32 := 0
  windowStart : Int
  lastTransfer : Int
  alerted : Bool := false
  offHours : Bool
  deriving DecidableEq, Repr

/-- `traffic_anomaly_tracker_t`. -/
structure TrafficAnomalyTracker where
  srcIp : BitVec 32
  largeRequests : BitVec 32 := 0
  highFreqQueries : BitVec 32 := 0
  certErrors : BitVec 32 := 0
  weakCiphers : BitVec 32 := 0
  windowStart : Int
  alerted : Bool := false
  deriving DecidableEq, Repr

/-- `is_within_window`. -/
def isWithinWindow (current first windowSec : Int) : Bool := decide (current - first ≤ windowSec)

/-- `IS_EXTERNAL_IP`, on an address as it is loaded from memory. -/
def isExternalIp (ip : BitVec 32) : Bool :=
  ip &&& 0xFF ≠ 10 && ip &&& 0xFFF0 ≠ 0xAC10 && ip &&& 0xFFFF ≠ 0xC0A8

/-- `IS_OFF_HOURS`. -/
def isOffHours (hour : Nat) : Bool := decide (hour ≥ 22) || decide (hour < 6)

/-- A number as `%u` prints it. -/
def printed (value : Nat) : Bytes := ascii (toString value)

/-- A number as `%ld` prints it. -/
def printedSigned (value : Int) : Bytes := ascii (toString value)

/-- `ip_to_str`: the most significant byte comes first. -/
def ipToStr (ip : BitVec 32) : Bytes :=
  let byte (index : Nat) : Bytes := printed ((ip >>> (8 * index)) &&& 0xFF).toNat
  byte 3 ++ ascii "." ++ byte 2 ++ ascii "." ++ byte 1 ++ ascii "." ++ byte 0

/-! ## What a packet does to a tracker -/

/-- The rule that is made up for an alert of the detector. -/
def detectorRule (ruleId : Nat) (name : String) (severity : AlertSeverity)
    (category : AlertCategory) : EngineRule :=
  { ruleId, enabled := true, name := ascii name, severity, category }

def scanRule : EngineRule := detectorRule 9000 "Port Scan Detected" .high .scan
def bruteRule : EngineRule := detectorRule 9001 "HTTP Brute Force Attack" .high .bruteForce
def exfilRule : EngineRule :=
  detectorRule 9002 "Potential Data Exfiltration" .critical .exfiltration
def dnsRule : EngineRule := detectorRule 9004 "DNS High Frequency Anomaly" .medium .anomaly
def tlsRule : EngineRule := detectorRule 9005 "TLS Certificate Anomaly" .medium .anomaly

/-- `add_port_to_tracker`. -/
def PortScanTracker.addPort (tracker : PortScanTracker) (port : BitVec 16) :
    Bool × PortScanTracker :=
  if tracker.portsContacted.contains port then (false, tracker)
  else if tracker.portsContacted.length < MAX_TRACKED_PORTS then
    (true, { tracker with portsContacted := tracker.portsContacted ++ [port] })
  else (false, tracker)

/-- The start of a new window. -/
def PortScanTracker.restart (now : Int) (tracker : PortScanTracker) : PortScanTracker :=
  if isWithinWindow now tracker.firstSeen PORT_SCAN_WINDOW then tracker
  else
    { tracker with
      firstSeen := now
      portsContacted := []
      synCount := 0
      synAckCount := 0
      isSynScan := false
      alerted := false }

/-- The part of `detect_port_scan` for a packet with the SYN flag: the tracker, and the
detail of an alert. -/
def PortScanTracker.countSyn (now : Int) (port : BitVec 16) (ack : Bool)
    (tracker : PortScanTracker) : PortScanTracker × Option Bytes :=
  let tracker := { tracker with synCount := tracker.synCount + 1 }
  let (newPort, tracker) := tracker.addPort port
  let tracker := if ack then tracker else { tracker with isSynScan := true }
  if newPort ∧ tracker.portsContacted.length ≥ PORT_SCAN_THRESHOLD ∧ !tracker.alerted then
    ({ tracker with alerted := true },
      some ((ascii "Port scan detected from " ++ ipToStr tracker.srcIp ++ ascii ": " ++
        printed tracker.portsContacted.length ++ ascii " ports in " ++
        printedSigned (now - tracker.firstSeen) ++ ascii " seconds (SYN scan: " ++
        ascii (if tracker.isSynScan then "yes" else "no") ++ ascii ")").take 255))
  else (tracker, none)

/-- What `detect_port_scan` does to the tracker of the source. -/
def PortScanTracker.observe (now : Int) (tcpFlags : BitVec 8) (port : BitVec 16)
    (tracker : PortScanTracker) : PortScanTracker × Option Bytes :=
  let tracker := { tracker.restart now with lastSeen := now }
  let ack := hasFlag tcpFlags RTE_TCP_ACK_FLAG
  if hasFlag tcpFlags RTE_TCP_SYN_FLAG then
    let (tracker, finding) := tracker.countSyn now port ack
    (if ack then { tracker with synAckCount := tracker.synAckCount + 1 } else tracker, finding)
  else (tracker, none)

/-- The start of a new window. -/
def BruteForceTracker.restart (now : Int) (tracker : BruteForceTracker) : BruteForceTracker :=
  if isWithinWindow now tracker.windowStart BRUTE_FORCE_WINDOW then tracker
  else
    { tracker with
      windowStart := now, failedAttempts := 0, http401Count := 0, http403Count := 0
      alerted := false }

/-- What `detect_brute_force_http` does to the tracker of the target. -/
def BruteForceTracker.observe (now : Int) (statusCode : Nat) (tracker : BruteForceTracker) :
    BruteForceTracker × Option Bytes :=
  let tracker := tracker.restart now
  let tracker :=
    { tracker with
      lastAttempt := now
      failedAttempts := tracker.failedAttempts + 1
      http401Count :=
        if statusCode = 401 then tracker.http401Count + 1 else tracker.http401Count
      http403Count :=
        if statusCode = 403 then tracker.http403Count + 1 else tracker.http403Count }
  if tracker.failedAttempts ≥ BRUTE_FORCE_THRESHOLD ∧ !tracker.alerted then
    ({ tracker with alerted := true },
      some ((ascii "HTTP brute force attack against " ++ ipToStr tracker.targetIp ++ ascii ":" ++
        printed tracker.targetPort.toNat ++ ascii " - " ++
        printed tracker.failedAttempts.toNat ++ ascii " failed attempts (401: " ++
        printed tracker.http401Count.toNat ++ ascii ", 403: " ++
        printed tracker.http403Count.toNat ++ ascii ") in " ++
        printedSigned (now - tracker.windowStart) ++ ascii " seconds").take 255))
  else (tracker, none)

/-- The start of a new window. -/
def DataExfilTracker.restart (clock : Clock) (tracker : DataExfilTracker) : DataExfilTracker :=
  if isWithinWindow clock.seconds tracker.windowStart DATA_EXFIL_WINDOW then tracker
  else
    { tracker with
      windowStart := clock.seconds, bytesTransferred := 0, packetCount := 0
      offHours := isOffHours clock.hour, alerted := false }

/-- `reason`: the second one that holds replaces the first. -/
def DataExfilTracker.reason (tracker : DataExfilTracker) : Option Bytes :=
  let megabytes := printed (tracker.bytesTransferred / (1024 * 1024)).toNat
  if tracker.offHours ∧ tracker.bytesTransferred ≥ DATA_EXFIL_THRESHOLD / 10 ∧
      !tracker.alerted then
    some (ascii "off-hours transfer (" ++ megabytes ++ ascii " MB during 22:00-06:00)")
  else if tracker.bytesTransferred ≥ DATA_EXFIL_THRESHOLD ∧ isExternalIp tracker.dstIp ∧
      !tracker.alerted then
    some (ascii "large transfer to external IP (" ++ megabytes ++ ascii " MB)")
  else none

/-- What `detect_data_exfiltration` does to the tracker of the pair of addresses. -/
def DataExfilTracker.observe (clock : Clock) (bytesTransferred : BitVec 32)
    (tracker : DataExfilTracker) : DataExfilTracker × Option Bytes :=
  let tracker := tracker.restart clock
  let tracker :=
    { tracker with
      lastTransfer := clock.seconds
      bytesTransferred := tracker.bytesTransferred + bytesTransferred.setWidth 64
      packetCount := tracker.packetCount + 1
      offHours := tracker.offHours || isOffHours clock.hour }
  match tracker.reason with
  | none => (tracker, none)
  | some reason =>
      ({ tracker with alerted := true },
        some ((ascii "Potential data exfiltration: " ++ ipToStr tracker.srcIp ++ ascii " -> " ++
          ipToStr tracker.dstIp ++ ascii ", " ++ reason ++ ascii ", " ++
          printed tracker.packetCount.toNat ++ ascii " packets in " ++
          printedSigned (clock.seconds - tracker.windowStart) ++ ascii " seconds").take 511))

/-- What `detect_http_anomalies` does to the tracker of the source. -/
def TrafficAnomalyTracker.observeHttp (tracker : TrafficAnomalyTracker) :
    TrafficAnomalyTracker × Option Bytes :=
  ({ tracker with largeRequests := tracker.largeRequests + 1 }, none)

/-- What `detect_dns_anomalies` does to the tracker of the source: every transaction of
the connection is counted. -/
def TrafficAnomalyTracker.observeDns (now : Int) (conn : DnsParser.DnsConn)
    (tracker : TrafficAnomalyTracker) : TrafficAnomalyTracker × Option Bytes :=
  let tracker :=
    if isWithinWindow now tracker.windowStart ANOMALY_WINDOW then tracker
    else { tracker with windowStart := now, highFreqQueries := 0, alerted := false }
  let tracker :=
    { tracker with
      highFreqQueries :=
        tracker.highFreqQueries + BitVec.ofNat 32 conn.transactions.length }
  if tracker.highFreqQueries > DNS_HIGH_FREQ_THRESHOLD ∧ !tracker.alerted then
    ({ tracker with alerted := true },
      some ((ascii "High-frequency DNS queries from " ++ ipToStr tracker.srcIp ++ ascii ": " ++
        printed tracker.highFreqQueries.toNat ++ ascii " queries in " ++
        printedSigned (now - tracker.windowStart) ++ ascii " seconds").take 255))
  else (tracker, none)

/-- What `detect_tls_anomalies` does to the tracker of the source. -/
def TrafficAnomalyTracker.observeTls (conn : Tls.TlsConn) (tracker : TrafficAnomalyTracker) :
    TrafficAnomalyTracker × Option Bytes :=
  let tracker :=
    if conn.weakCipher then { tracker with weakCiphers := tracker.weakCiphers + 1 } else tracker
  if conn.expiredCert || conn.selfSignedCert then
    let tracker := { tracker with certErrors := tracker.certErrors + 1 }
    if tracker.alerted then (tracker, none)
    else
      ({ tracker with alerted := true },
        some ((ascii "TLS certificate anomaly from " ++ ipToStr tracker.srcIp ++ ascii ": " ++
          (if conn.expiredCert then ascii "expired" else []) ++
          if conn.selfSignedCert then ascii "self-signed" else []).take 255))
  else (tracker, none)

/-! ## The detector -/

/-- `behavioral_detector_t`. -/
structure Detector where
  scanTrackers : List PortScanTracker := []
  bruteTrackers : List BruteForceTracker := []
  exfilTrackers : List DataExfilTracker := []
  anomalyTrackers : List TrafficAnomalyTracker := []
  scansDetected : BitVec 64 := 0
  bruteForcesDetected : BitVec 64 := 0
  exfiltrationsDetected : BitVec 64 := 0
  anomaliesDetected : BitVec 64 := 0
  deriving DecidableEq, Repr

/-- The trackers that were used at most `maxAge` seconds ago. -/
def ageOut {τ : Type} (stamp : τ → Int) (maxAge now : Int) (trackers : List τ) : List τ :=
  trackers.filter fun tracker => !decide (now - stamp tracker > maxAge)

/-- `age_port_scan_trackers`, `age_brute_force_trackers`, `age_exfil_trackers` and
`age_anomaly_trackers`. -/
def Detector.ageTrackers (now : Int) (detector : Detector) : Detector :=
  { detector with
    scanTrackers := ageOut PortScanTracker.lastSeen 300 now detector.scanTrackers
    bruteTrackers := ageOut BruteForceTracker.windowStart 600 now detector.bruteTrackers
    exfilTrackers := ageOut DataExfilTracker.windowStart 1800 now detector.exfilTrackers
    anomalyTrackers :=
      ageOut TrafficAnomalyTracker.windowStart 300 now detector.anomalyTrackers }

/-- The tracker with a key, which is created if it is missing. -/
def fetchTracker {τ : Type} (same : τ → Bool) (fresh : τ) (granted : Bool)
    (trackers : List τ) : Option τ :=
  (trackers.find? same).or (if granted then some fresh else none)

/-- The table with a tracker changed in place, or put at its head. -/
def storeTracker {τ : Type} (same : τ → Bool) (tracker : τ) (trackers : List τ) : List τ :=
  if trackers.any same then
    trackers.replaceF fun entry => if same entry then some tracker else none
  else tracker :: trackers

/-- A tracker is looked up or created, changed, and stored; without one nothing
happens. -/
def track {τ : Type} (same : τ → Bool) (fresh : τ) (granted : Bool)
    (observe : τ → τ × Option Bytes) (trackers : List τ) : List τ × Option Bytes :=
  match fetchTracker same fresh granted trackers with
  | none => (trackers, none)
  | some tracker =>
      let (tracker, finding) := observe tracker
      (storeTracker same tracker trackers, finding)

/-- The kinds of trackers. -/
inductive TrackerKind where
  | portScan
  | bruteForce
  | dataExfil
  | trafficAnomaly
  deriving DecidableEq, Repr

/-- The allocations of a call: of trackers and of alerts, for the transaction of an
index where there are several. -/
structure Grants where
  tracker : TrackerKind → Nat → Bool := fun _ _ => true
  alert : TrackerKind → Nat → Bool := fun _ _ => true

/-- The detector, the engine that it reports to, and the alerts that the call has raised
so far. -/
structure Watch where
  detector : Detector
  engine : RuleEngine
  raised : List Alert := []

section Detections

variable (grants : Grants) (clock : Clock) (flow : Flow)

/-- The alert for what a tracker has found, if it has found something. -/
def Watch.report (kind : TrackerKind) (index : Nat) (rule : EngineRule)
    (finding : Option Bytes) (watch : Watch) : Watch :=
  match finding with
  | none => watch
  | some detail =>
      let (engine, raised) := ruleEngineCreateCustomAlert (grants.alert kind index) clock.now
        watch.engine rule flow detail
      { watch with engine, raised := watch.raised ++ raised }

/-- One more finding, if there is one. -/
def countFinding (finding : Option Bytes) (count : BitVec 64) : BitVec 64 :=
  if finding.isSome then count + 1 else count

/-- `detect_port_scan`. -/
def detectPortScan (tcpFlags : Option (BitVec 8)) (watch : Watch) : Watch :=
  match tcpFlags with
  | none => watch
  | some tcpFlags =>
      if flow.proto ≠ IPPROTO_TCP then watch
      else
        let srcIp := flow.srcAddr.word0
        let (scanTrackers, finding) := track (fun tracker => tracker.srcIp == srcIp)
          { srcIp, firstSeen := clock.seconds, lastSeen := clock.seconds }
          (grants.tracker .portScan 0)
          (PortScanTracker.observe clock.seconds tcpFlags flow.dstPort)
          watch.detector.scanTrackers
        { watch with
          detector :=
            { watch.detector with
              scanTrackers
              scansDetected := countFinding finding watch.detector.scansDetected } }.report
          grants clock flow .portScan 0 scanRule finding

/-- `detect_brute_force_http`. -/
def detectBruteForceHttp (index : Nat) (tx : Http.HttpTransaction) (watch : Watch) : Watch :=
  match tx.response with
  | none => watch
  | some response =>
      if response.statusCode ≠ 401 ∧ response.statusCode ≠ 403 then watch
      else
        let targetIp := flow.dstAddr.word0
        let (bruteTrackers, finding) := track
          (fun tracker => tracker.targetIp == targetIp && tracker.targetPort == flow.dstPort)
          { targetIp, targetPort := flow.dstPort, windowStart := clock.seconds
            lastAttempt := clock.seconds }
          (grants.tracker .bruteForce index)
          (BruteForceTracker.observe clock.seconds response.statusCode)
          watch.detector.bruteTrackers
        { watch with
          detector :=
            { watch.detector with
              bruteTrackers
              bruteForcesDetected :=
                countFinding finding watch.detector.bruteForcesDetected } }.report
          grants clock flow .bruteForce index bruteRule finding

/-- The loops over the transactions of a connection. -/
def eachTransaction (detect : Nat → Http.HttpTransaction → Watch → Watch)
    (conn : Http.HttpConn) (watch : Watch) : Watch :=
  conn.transactions.zipIdx.foldl (fun watch (tx, index) => detect index tx watch) watch

/-- `detect_brute_force`. -/
def detectBruteForce (alproto : Proto.AppProto) (ctx : ProtoCtx) (watch : Watch) :
    Except Bridge.Fault Watch :=
  if alproto = .http then
    ctx.http.map fun
      | none => watch
      | some conn => eachTransaction (detectBruteForceHttp grants clock flow) conn watch
  else .ok watch

/-- `detect_data_exfiltration`. -/
def detectDataExfiltration (bytesTransferred : BitVec 32) (watch : Watch) : Watch :=
  let srcIp := flow.srcAddr.word0
  let dstIp := flow.dstAddr.word0
  let (exfilTrackers, finding) := track
    (fun tracker => tracker.srcIp == srcIp && tracker.dstIp == dstIp)
    { srcIp, dstIp, windowStart := clock.seconds, lastTransfer := clock.seconds
      offHours := isOffHours clock.hour }
    (grants.tracker .dataExfil 0) (DataExfilTracker.observe clock bytesTransferred)
    watch.detector.exfilTrackers
  { watch with
    detector :=
      { watch.detector with
        exfilTrackers
        exfiltrationsDetected :=
          countFinding finding watch.detector.exfiltrationsDetected } }.report
    grants clock flow .dataExfil 0 exfilRule finding

/-- What the detections of traffic anomalies share: the tracker of the source. -/
def detectAnomaly (index : Nat) (rule : EngineRule)
    (observe : TrafficAnomalyTracker → TrafficAnomalyTracker × Option Bytes) (watch : Watch) :
    Watch :=
  let srcIp := flow.srcAddr.word0
  let (anomalyTrackers, finding) := track (fun tracker => tracker.srcIp == srcIp)
    { srcIp, windowStart := clock.seconds } (grants.tracker .trafficAnomaly index) observe
    watch.detector.anomalyTrackers
  { watch with
    detector :=
      { watch.detector with
        anomalyTrackers
        anomaliesDetected := countFinding finding watch.detector.anomaliesDetected } }.report
    grants clock flow .trafficAnomaly index rule finding

/-- `detect_http_anomalies`, which raises no alert. -/
def detectHttpAnomalies (index : Nat) (watch : Watch) : Watch :=
  detectAnomaly grants clock flow index (detectorRule 0 "" .info .unknown)
    TrafficAnomalyTracker.observeHttp watch

/-- `detect_dns_anomalies`: what `protoctx` points to is taken for a `dns_conn_t`. -/
def detectDnsAnomalies (alproto : Proto.AppProto) (ctx : ProtoCtx) (watch : Watch) :
    Except Bridge.Fault Watch :=
  if alproto = .dns then
    ctx.udp.map fun
      | none => watch
      | some conn =>
          detectAnomaly grants clock flow 0 dnsRule
            (TrafficAnomalyTracker.observeDns clock.seconds conn) watch
  else .ok watch

/-- `detect_tls_anomalies`. -/
def detectTlsAnomalies (alproto : Proto.AppProto) (ctx : ProtoCtx) (watch : Watch) :
    Except Bridge.Fault Watch :=
  if alproto = .tls then
    ctx.tls.map fun
      | none => watch
      | some conn =>
          detectAnomaly grants clock flow 0 tlsRule (TrafficAnomalyTracker.observeTls conn) watch
  else .ok watch

/-- `detect_traffic_anomaly`. -/
def detectTrafficAnomaly (alproto : Proto.AppProto) (ctx : ProtoCtx) (watch : Watch) :
    Except Bridge.Fault Watch :=
  let http : Except Bridge.Fault Watch :=
    if alproto = .http then
      ctx.http.map fun
        | none => watch
        | some conn =>
            eachTransaction (fun index _ => detectHttpAnomalies grants clock flow index) conn
              watch
    else .ok watch
  http.bind fun watch =>
    (detectDnsAnomalies grants clock flow alproto ctx watch).bind fun watch =>
      detectTlsAnomalies grants clock flow alproto ctx watch

/-- `behavioral_detector_inspect_packet`, with `packet_count` before and after. -/
def inspectPacket (alproto : Proto.AppProto) (ctx : ProtoCtx) (packetLen : BitVec 32)
    (tcpFlags : Option (BitVec 8)) (packetCount : BitVec 64) (watch : Watch) :
    Except Bridge.Fault (BitVec 64 × Watch) :=
  let packetCount := packetCount + 1
  let watch :=
    if packetCount.toNat % 10000 = 0 then
      { watch with detector := watch.detector.ageTrackers clock.seconds }
    else watch
  let watch := detectPortScan grants clock flow tcpFlags watch
  (detectBruteForce grants clock flow alproto ctx watch).bind fun watch =>
    let watch :=
      if packetLen > 0 then detectDataExfiltration grants clock flow packetLen watch else watch
    (detectTrafficAnomaly grants clock flow alproto ctx watch).map fun watch =>
      (packetCount, watch)

/-! ## The rules of the engine -/

variable {grants clock flow}

@[simp]
theorem Watch.report_rules (kind : TrackerKind) (index : Nat) (rule : EngineRule)
    (finding : Option Bytes) (watch : Watch) :
    (watch.report grants clock flow kind index rule finding).engine.rules =
      watch.engine.rules := by
  cases finding with
  | none => rfl
  | some detail => exact createAlert_rules _ _ _ _

theorem detectPortScan_rules (tcpFlags : Option (BitVec 8)) (watch : Watch) :
    (detectPortScan grants clock flow tcpFlags watch).engine.rules = watch.engine.rules := by
  cases tcpFlags with
  | none => rfl
  | some tcpFlags =>
      simp only [detectPortScan]
      split
      next => rfl
      next => exact Watch.report_rules _ _ _ _ _

theorem detectBruteForceHttp_rules (index : Nat) (tx : Http.HttpTransaction)
    (watch : Watch) :
    (detectBruteForceHttp grants clock flow index tx watch).engine.rules =
      watch.engine.rules := by
  rw [detectBruteForceHttp]
  cases tx.response with
  | none => rfl
  | some response =>
      dsimp only
      split
      next => rfl
      next => exact Watch.report_rules _ _ _ _ _

theorem detectAnomaly_rules (index : Nat) (rule : EngineRule)
    (observe : TrafficAnomalyTracker → TrafficAnomalyTracker × Option Bytes) (watch : Watch) :
    (detectAnomaly grants clock flow index rule observe watch).engine.rules =
      watch.engine.rules := by
  exact Watch.report_rules _ _ _ _ _

theorem eachTransaction_rules {detect : Nat → Http.HttpTransaction → Watch → Watch}
    (keeps : ∀ index tx watch, (detect index tx watch).engine.rules = watch.engine.rules)
    (conn : Http.HttpConn) (watch : Watch) :
    (eachTransaction detect conn watch).engine.rules = watch.engine.rules := by
  rw [eachTransaction]
  generalize conn.transactions.zipIdx = entries
  induction entries generalizing watch with
  | nil => rfl
  | cons entry rest inductionHypothesis =>
      rw [List.foldl_cons, inductionHypothesis]
      exact keeps _ _ _

theorem detectBruteForce_rules {alproto : Proto.AppProto} {ctx : ProtoCtx}
    {watch after : Watch}
    (run : detectBruteForce grants clock flow alproto ctx watch = .ok after) :
    after.engine.rules = watch.engine.rules := by
  rw [detectBruteForce] at run
  split at run
  next =>
    obtain ⟨conn?, -, rfl⟩ := map_ok run
    cases conn? with
    | none => rfl
    | some conn => exact eachTransaction_rules detectBruteForceHttp_rules conn watch
  next =>
    cases run
    rfl

theorem detectDnsAnomalies_rules {alproto : Proto.AppProto} {ctx : ProtoCtx}
    {watch after : Watch}
    (run : detectDnsAnomalies grants clock flow alproto ctx watch = .ok after) :
    after.engine.rules = watch.engine.rules := by
  rw [detectDnsAnomalies] at run
  split at run
  next =>
    obtain ⟨conn?, -, rfl⟩ := map_ok run
    cases conn? with
    | none => rfl
    | some conn => exact detectAnomaly_rules _ _ _ watch
  next =>
    cases run
    rfl

theorem detectTlsAnomalies_rules {alproto : Proto.AppProto} {ctx : ProtoCtx}
    {watch after : Watch}
    (run : detectTlsAnomalies grants clock flow alproto ctx watch = .ok after) :
    after.engine.rules = watch.engine.rules := by
  rw [detectTlsAnomalies] at run
  split at run
  next =>
    obtain ⟨conn?, -, rfl⟩ := map_ok run
    cases conn? with
    | none => rfl
    | some conn => exact detectAnomaly_rules _ _ _ watch
  next =>
    cases run
    rfl

theorem detectTrafficAnomaly_rules {alproto : Proto.AppProto} {ctx : ProtoCtx}
    {watch after : Watch}
    (run : detectTrafficAnomaly grants clock flow alproto ctx watch = .ok after) :
    after.engine.rules = watch.engine.rules := by
  obtain ⟨afterHttp, http, run⟩ := bind_ok run
  obtain ⟨afterDns, dns, tls⟩ := bind_ok run
  have first : afterHttp.engine.rules = watch.engine.rules := by
    split at http
    next =>
      obtain ⟨conn?, -, rfl⟩ := map_ok http
      cases conn? with
      | none => rfl
      | some conn =>
          exact eachTransaction_rules (fun _ _ _ => detectAnomaly_rules _ _ _ _) conn watch
    next =>
      cases http
      rfl
  rw [detectTlsAnomalies_rules tls, detectDnsAnomalies_rules dns, first]

/-- The detector leaves the rules of its engine alone. -/
theorem inspectPacket_rules {alproto : Proto.AppProto} {ctx : ProtoCtx}
    {packetLen : BitVec 32} {tcpFlags : Option (BitVec 8)} {packetCount count : BitVec 64}
    {watch after : Watch}
    (run : inspectPacket grants clock flow alproto ctx packetLen tcpFlags packetCount watch =
      .ok (count, after)) : after.engine.rules = watch.engine.rules := by
  obtain ⟨afterBrute, brute, run⟩ := bind_ok run
  obtain ⟨afterAnomaly, anomaly, same⟩ := map_ok run
  cases same
  have exfil : ∀ watch : Watch, (if packetLen > 0 then
      detectDataExfiltration grants clock flow packetLen watch else watch).engine.rules =
        watch.engine.rules := by
    intro watch
    split
    next => exact Watch.report_rules _ _ _ _ _
    next => rfl
  rw [detectTrafficAnomaly_rules anomaly, exfil, detectBruteForce_rules brute,
    detectPortScan_rules]
  split <;> rfl

end Detections

end NetDefender.Behavior
