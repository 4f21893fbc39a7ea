import NetDefender.Behavior.Model
import NetDefender.Lib.Keyed

/-!
# Runs of the behavioral detector

Calls of `behavioral_detector_inspect_packet` one after another.  Each detection changes
the trackers of its own kind and raises alerts of its own rules; a table of trackers is a
table with a key.
-/

namespace NetDefender.Behavior

open CString Flows Rules Fallible

/-! ## Tables of trackers -/

/-- The key of `get_exfil_tracker`. -/
def DataExfilTracker.pair (tracker : DataExfilTracker) : BitVec 32 × BitVec 32 :=
  (tracker.srcIp, tracker.dstIp)

/-- The key of `get_brute_force_tracker`. -/
def BruteForceTracker.target (tracker : BruteForceTracker) : BitVec 32 × BitVec 16 :=
  (tracker.targetIp, tracker.targetPort)

/-- The tracker that a packet is counted in, new if there is none. -/
def visit {τ : Type} (fresh : τ) (observe : τ → τ × Option Bytes) (cell : Option τ) :
    Option τ × Option Bytes :=
  let (tracker, finding) := observe (cell.getD fresh)
  (some tracker, finding)

section Track

variable {τ κ : Type} [DecidableEq κ] {key : τ → κ} {wanted : κ} {same : τ → Bool} {fresh : τ}
variable {observe : τ → τ × Option Bytes}

theorem storeTracker_eq {tracker : τ}
    (decides : ∀ other, same other = decide (key other = key tracker)) (trackers : List τ) :
    storeTracker same tracker trackers = Keyed.put key tracker trackers := by
  obtain rfl : same = fun other => decide (key other = key tracker) := funext decides
  simp only [storeTracker, Keyed.put, Keyed.replace, decide_eq_true_eq]

theorem key_of_taken (fresh_key : key fresh = wanted) {granted : Bool} {trackers : List τ}
    {tracker : τ}
    (taken : (Keyed.find key wanted trackers).or (if granted then some fresh else none) =
      some tracker) : key tracker = wanted := by
  rcases Option.or_eq_some_iff.mp taken with found | ⟨-, created⟩
  · exact Keyed.key_of_find found
  · split at created
    · cases created
      exact fresh_key
    · cases created

/-- A tracker is looked up by its key. -/
theorem track_eq (decides : ∀ tracker, same tracker = decide (key tracker = wanted))
    (fresh_key : key fresh = wanted) (keeps : ∀ tracker, key (observe tracker).1 = key tracker)
    (granted : Bool) (trackers : List τ) :
    track same fresh granted observe trackers =
      match (Keyed.find key wanted trackers).or (if granted then some fresh else none) with
      | none => (trackers, none)
      | some tracker => (Keyed.put key (observe tracker).1 trackers, (observe tracker).2) := by
  have look : trackers.find? same = Keyed.find key wanted trackers := by
    obtain rfl : same = fun tracker => decide (key tracker = wanted) := funext decides
    rfl
  rw [track, fetchTracker, look]
  cases taken : (Keyed.find key wanted trackers).or (if granted then some fresh else none) with
  | none => rfl
  | some tracker =>
      have keyed := key_of_taken fresh_key taken
      dsimp only
      rw [@storeTracker_eq _ _ _ key]
      intro other
      rw [decides, keeps, keyed]

variable (decides : ∀ tracker, same tracker = decide (key tracker = wanted))
variable (fresh_key : key fresh = wanted)
variable (keeps : ∀ tracker, key (observe tracker).1 = key tracker)

include decides fresh_key keeps

/-- What an allocated tracker becomes, and what it finds. -/
theorem track_granted (trackers : List τ) :
    let tracker := (Keyed.find key wanted trackers).getD fresh
    Keyed.find key wanted (track same fresh true observe trackers).1 =
        some (observe tracker).1 ∧
      (track same fresh true observe trackers).2 = (observe tracker).2 := by
  rw [track_eq decides fresh_key keeps]
  cases found : Keyed.find key wanted trackers with
  | none =>
      dsimp only [Option.getD, Option.or, if_pos]
      refine ⟨?_, rfl⟩
      have keyed : key (observe fresh).1 = wanted := (keeps fresh).trans fresh_key
      rw [← keyed]
      exact Keyed.find_put_self _ _
  | some tracker =>
      refine ⟨?_, rfl⟩
      have keyed : key (observe tracker).1 = wanted :=
        (keeps tracker).trans (Keyed.key_of_find found)
      dsimp only [Option.getD, Option.or]
      rw [← keyed]
      exact Keyed.find_put_self _ _

/-- Other trackers are left alone. -/
theorem track_find_of_ne {other : κ} (different : wanted ≠ other) (granted : Bool)
    (trackers : List τ) :
    Keyed.find key other (track same fresh granted observe trackers).1 =
      Keyed.find key other trackers := by
  rw [track_eq decides fresh_key keeps]
  cases taken : (Keyed.find key wanted trackers).or (if granted then some fresh else none) with
  | none => rfl
  | some tracker =>
      have keyed : key (observe tracker).1 = wanted :=
        (keeps tracker).trans (key_of_taken fresh_key taken)
      exact Keyed.find_put_of_ne (keyed ▸ different) trackers

theorem track_distinct {trackers : List τ} (distinct : Keyed.Distinct key trackers)
    (granted : Bool) : Keyed.Distinct key (track same fresh granted observe trackers).1 := by
  rw [track_eq decides fresh_key keeps]
  split
  next => exact distinct
  next => exact distinct.put _

/-- A table that agrees with a cell but for what has expired, where an expired tracker is
taken for a new one. -/
theorem track_shadowed {expired : Int → τ → Prop} {now : Int} {trackers : List τ}
    {kept : Option τ} (distinct : Keyed.Distinct key trackers)
    (agrees : Keyed.Agrees expired now (Keyed.find key wanted trackers) kept)
    (renewed : ∀ tracker ∈ kept, expired now tracker → observe tracker = observe fresh) :
    Keyed.Distinct key (track same fresh true observe trackers).1 ∧
      (track same fresh true observe trackers).2 = (visit fresh observe kept).2 ∧
      Keyed.find key wanted (track same fresh true observe trackers).1 =
        (visit fresh observe kept).1 := by
  obtain ⟨found, finding⟩ := track_granted decides fresh_key keeps trackers
  have access := agrees.access observe fresh renewed
  refine ⟨track_distinct decides fresh_key keeps distinct true, ?_, ?_⟩
  · rw [finding, access]
    rfl
  · rw [found, access]
    rfl

end Track

/-! ## What a detection changes -/

/-- The identities of the rules that a detection makes up; 0 is never reported. -/
def TrackerKind.ruleIds : TrackerKind → List Nat
  | .portScan => [9000]
  | .bruteForce => [9001]
  | .dataExfil => [9002]
  | .trafficAnomaly => [0, 9004, 9005]

/-- Only the trackers of a kind have changed, and only alerts of its rules were raised. -/
structure Watch.Only (kind : TrackerKind) (before after : Watch) : Prop where
  scan : kind ≠ .portScan → after.detector.scanTrackers = before.detector.scanTrackers
  brute : kind ≠ .bruteForce → after.detector.bruteTrackers = before.detector.bruteTrackers
  exfil : kind ≠ .dataExfil → after.detector.exfilTrackers = before.detector.exfilTrackers
  anomaly : kind ≠ .trafficAnomaly →
    after.detector.anomalyTrackers = before.detector.anomalyTrackers
  raised : ∃ news, after.raised = before.raised ++ news ∧
    ∀ alert ∈ news, alert.ruleId ∈ kind.ruleIds

/-- An alert without its number, which counts the alerts of the engine. -/
def unnumbered (alert : Alert) : Alert := { alert with alertId := 0 }

/-- The alerts for a finding, without their numbers. -/
def findingAlerts (granted : Bool) (now : BitVec 64) (rule : EngineRule) (flow : Flow)
    (finding : Option Bytes) : List Alert :=
  if granted then finding.toList.map fun detail => newAlert 0 rule flow detail now else []

section Detections

variable {grants : Grants} {clock : Clock} {flow : Flow}

theorem Watch.Only.refl (kind : TrackerKind) (watch : Watch) : Watch.Only kind watch watch :=
  ⟨fun _ => rfl, fun _ => rfl, fun _ => rfl, fun _ => rfl, [], (List.append_nil _).symm,
    fun _ member => absurd member List.not_mem_nil⟩

theorem Watch.Only.trans {kind : TrackerKind} {first second third : Watch}
    (before : Watch.Only kind first second) (after : Watch.Only kind second third) :
    Watch.Only kind first third := by
  obtain ⟨news, raised, ids⟩ := before.raised
  obtain ⟨more, raised', ids'⟩ := after.raised
  constructor
  case scan => exact fun other => (after.scan other).trans (before.scan other)
  case brute => exact fun other => (after.brute other).trans (before.brute other)
  case exfil => exact fun other => (after.exfil other).trans (before.exfil other)
  case anomaly => exact fun other => (after.anomaly other).trans (before.anomaly other)
  case raised =>
    refine ⟨news ++ more, by rw [raised', raised, List.append_assoc], ?_⟩
    exact List.forall_mem_append.mpr ⟨ids, ids'⟩

/-- The alerts of other rules are those from before. -/
theorem Watch.Only.filter_raised {kind : TrackerKind} {before after : Watch}
    (only : Watch.Only kind before after) {ruleId : Nat} (other : ruleId ∉ kind.ruleIds) :
    after.raised.filter (·.ruleId = ruleId) = before.raised.filter (·.ruleId = ruleId) := by
  obtain ⟨news, raised, ids⟩ := only.raised
  have none : news.filter (·.ruleId = ruleId) = [] := by
    apply List.filter_eq_nil_iff.mpr
    intro alert member same
    exact other (decide_eq_true_eq.mp same ▸ ids alert member)
  rw [raised, List.filter_append, none, List.append_nil]

/-- A report raises the alerts for its finding. -/
theorem Watch.report_spec (kind : TrackerKind) (index : Nat) (rule : EngineRule)
    (finding : Option Bytes) (watch : Watch) :
    (watch.report grants clock flow kind index rule finding).detector = watch.detector ∧
      ∃ news,
        (watch.report grants clock flow kind index rule finding).raised =
            watch.raised ++ news ∧
          news.map unnumbered =
            findingAlerts (grants.alert kind index) clock.now rule flow finding := by
  cases finding with
  | none =>
      refine ⟨rfl, [], (List.append_nil _).symm, ?_⟩
      rw [findingAlerts]
      split <;> rfl
  | some detail =>
      rw [Watch.report, ruleEngineCreateCustomAlert, createAlert, findingAlerts]
      cases grants.alert kind index with
      | false => exact ⟨rfl, [], rfl, rfl⟩
      | true => exact ⟨rfl, _, rfl, rfl⟩

theorem ruleId_of_unnumbered {news : List Alert} {granted : Bool} {now : BitVec 64}
    {rule : EngineRule} {finding : Option Bytes}
    (raised : news.map unnumbered = findingAlerts granted now rule flow finding)
    (alert : Alert) (member : alert ∈ news) : alert.ruleId = rule.ruleId := by
  have found : unnumbered alert ∈ findingAlerts granted now rule flow finding :=
    raised ▸ List.mem_map_of_mem member
  rw [findingAlerts] at found
  split at found
  next =>
    obtain ⟨detail, -, same⟩ := List.mem_map.mp found
    exact (congrArg Alert.ruleId same).symm
  next => cases found

/-- A report of a rule of the kind. -/
theorem Watch.Only.report {kind : TrackerKind} {before changed : Watch}
    (only : Watch.Only kind before changed) {rule : EngineRule}
    (own : rule.ruleId ∈ kind.ruleIds) (index : Nat) (finding : Option Bytes) :
    Watch.Only kind before (changed.report grants clock flow kind index rule finding) := by
  obtain ⟨same, news, raised, unnumbered⟩ :=
    @Watch.report_spec grants clock flow kind index rule finding changed
  apply only.trans
  constructor
  case scan => exact fun _ => congrArg Detector.scanTrackers same
  case brute => exact fun _ => congrArg Detector.bruteTrackers same
  case exfil => exact fun _ => congrArg Detector.exfilTrackers same
  case anomaly => exact fun _ => congrArg Detector.anomalyTrackers same
  case raised =>
    refine ⟨news, raised, fun alert member => ?_⟩
    rw [ruleId_of_unnumbered unnumbered alert member]
    exact own

/-! ## The detections -/

theorem detectPortScan_only (tcpFlags : Option (BitVec 8)) (watch : Watch) :
    Watch.Only .portScan watch (detectPortScan grants clock flow tcpFlags watch) := by
  cases tcpFlags with
  | none => exact .refl _ watch
  | some tcpFlags =>
      rw [detectPortScan]
      dsimp only
      split
      next => exact .refl _ watch
      next =>
        apply Watch.Only.report _ (by decide)
        exact ⟨fun own => absurd rfl own, fun _ => rfl, fun _ => rfl, fun _ => rfl, [],
          (List.append_nil _).symm, fun _ member => absurd member List.not_mem_nil⟩

theorem detectBruteForceHttp_only (index : Nat) (tx : Http.HttpTransaction) (watch : Watch) :
    Watch.Only .bruteForce watch (detectBruteForceHttp grants clock flow index tx watch) := by
  rw [detectBruteForceHttp]
  cases tx.response with
  | none => exact .refl _ watch
  | some response =>
      dsimp only
      split
      next => exact .refl _ watch
      next =>
        apply Watch.Only.report _ (by decide)
        exact ⟨fun _ => rfl, fun own => absurd rfl own, fun _ => rfl, fun _ => rfl, [],
          (List.append_nil _).symm, fun _ member => absurd member List.not_mem_nil⟩

theorem detectDataExfiltration_only (packetLen : BitVec 32) (watch : Watch) :
    Watch.Only .dataExfil watch (detectDataExfiltration grants clock flow packetLen watch) := by
  rw [detectDataExfiltration]
  apply Watch.Only.report _ (by decide)
  exact ⟨fun _ => rfl, fun _ => rfl, fun own => absurd rfl own, fun _ => rfl, [],
    (List.append_nil _).symm, fun _ member => absurd member List.not_mem_nil⟩

theorem detectAnomaly_only (index : Nat) {rule : EngineRule}
    (own : rule.ruleId ∈ TrackerKind.trafficAnomaly.ruleIds)
    (observe : TrafficAnomalyTracker → TrafficAnomalyTracker × Option Bytes) (watch : Watch) :
    Watch.Only .trafficAnomaly watch
      (detectAnomaly grants clock flow index rule observe watch) := by
  rw [detectAnomaly]
  apply Watch.Only.report _ own
  exact ⟨fun _ => rfl, fun _ => rfl, fun _ => rfl, fun own => absurd rfl own, [],
    (List.append_nil _).symm, fun _ member => absurd member List.not_mem_nil⟩

/-- A relation of two watches that each transaction keeps. -/
theorem eachTransaction_only {kind : TrackerKind}
    {detect : Nat → Http.HttpTransaction → Watch → Watch}
    (each : ∀ index tx watch, Watch.Only kind watch (detect index tx watch))
    (conn : Http.HttpConn) (watch : Watch) :
    Watch.Only kind watch (eachTransaction detect conn watch) := by
  rw [eachTransaction]
  generalize conn.transactions.zipIdx = entries
  induction entries generalizing watch with
  | nil => exact .refl _ watch
  | cons entry rest ih => exact (each entry.2 entry.1 watch).trans (ih _)

theorem detectBruteForce_only {alproto : Proto.AppProto} {ctx : ProtoCtx} {watch after : Watch}
    (run : detectBruteForce grants clock flow alproto ctx watch = .ok after) :
    Watch.Only .bruteForce watch after := by
  rw [detectBruteForce] at run
  split at run
  next =>
    obtain ⟨conn?, -, rfl⟩ := map_ok run
    cases conn? with
    | none => exact .refl _ watch
    | some conn => exact eachTransaction_only detectBruteForceHttp_only conn watch
  next =>
    cases run
    exact .refl _ watch

theorem detectDnsAnomalies_only {alproto : Proto.AppProto} {ctx : ProtoCtx}
    {watch after : Watch}
    (run : detectDnsAnomalies grants clock flow alproto ctx watch = .ok after) :
    Watch.Only .trafficAnomaly watch after := by
  rw [detectDnsAnomalies] at run
  split at run
  next =>
    obtain ⟨conn?, -, rfl⟩ := map_ok run
    cases conn? with
    | none => exact .refl _ watch
    | some conn => exact detectAnomaly_only 0 (by decide) _ watch
  next =>
    cases run
    exact .refl _ watch

theorem detectTlsAnomalies_only {alproto : Proto.AppProto} {ctx : ProtoCtx}
    {watch after : Watch}
    (run : detectTlsAnomalies grants clock flow alproto ctx watch = .ok after) :
    Watch.Only .trafficAnomaly watch after := by
  rw [detectTlsAnomalies] at run
  split at run
  next =>
    obtain ⟨conn?, -, rfl⟩ := map_ok run
    cases conn? with
    | none => exact .refl _ watch
    | some conn => exact detectAnomaly_only 0 (by decide) _ watch
  next =>
    cases run
    exact .refl _ watch

theorem detectTrafficAnomaly_only {alproto : Proto.AppProto} {ctx : ProtoCtx}
    {watch after : Watch}
    (run : detectTrafficAnomaly grants clock flow alproto ctx watch = .ok after) :
    Watch.Only .trafficAnomaly watch after := by
  obtain ⟨afterHttp, http, run⟩ := bind_ok run
  obtain ⟨afterDns, dns, tls⟩ := bind_ok run
  have first : Watch.Only .trafficAnomaly watch afterHttp := by
    split at http
    next =>
      obtain ⟨conn?, -, rfl⟩ := map_ok http
      cases conn? with
      | none => exact .refl _ watch
      | some conn =>
          apply eachTransaction_only
          exact fun index _ watch => detectAnomaly_only index (by decide) _ watch
    next =>
      cases http
      exact .refl _ watch
  exact first.trans ((detectDnsAnomalies_only dns).trans (detectTlsAnomalies_only tls))

/-- The trackers after the sweep that a call may begin with. -/
def Detector.ageAt (packetCount : BitVec 64) (now : Int) (detector : Detector) : Detector :=
  if packetCount.toNat % 10000 = 0 then detector.ageTrackers now else detector

/-- The detections of a call, one after the other. -/
theorem inspectPacket_cases {alproto : Proto.AppProto} {ctx : ProtoCtx}
    {packetLen : BitVec 32} {tcpFlags : Option (BitVec 8)} {packetCount count : BitVec 64}
    {watch after : Watch}
    (run : inspectPacket grants clock flow alproto ctx packetLen tcpFlags packetCount watch =
      .ok (count, after)) :
    let afterScan := detectPortScan grants clock flow tcpFlags
      { watch with detector := watch.detector.ageAt (packetCount + 1) clock.seconds }
    count = packetCount + 1 ∧
      ∃ afterBrute,
        detectBruteForce grants clock flow alproto ctx afterScan = .ok afterBrute ∧
          detectTrafficAnomaly grants clock flow alproto ctx
            (if packetLen > 0 then detectDataExfiltration grants clock flow packetLen afterBrute
              else afterBrute) = .ok after := by
  obtain ⟨afterBrute, brute, run⟩ := bind_ok run
  obtain ⟨afterAnomaly, anomaly, same⟩ := map_ok run
  cases same
  refine ⟨rfl, afterBrute, ?_, anomaly⟩
  rw [← brute, Detector.ageAt]
  split <;> rfl

end Detections

/-! ## Calls -/

/-- The arguments of a call, what it reads of the clock, and its allocations. -/
structure PacketCall where
  grants : Grants := {}
  clock : Clock
  flow : Flow
  alproto : Proto.AppProto := .unknown
  ctx : ProtoCtx := .null
  packetLen : BitVec 32
  tcpFlags : Option (BitVec 8)

/-- The detector with its engine, and the counter that `inspect_packet` keeps. -/
structure Monitor where
  packetCount : BitVec 64 := 0
  detector : Detector := {}
  engine : RuleEngine := {}

/-- A call, with the alerts that it raises. -/
def Monitor.inspect (monitor : Monitor) (call : PacketCall) :
    Except Bridge.Fault (Monitor × List Alert) :=
  (inspectPacket call.grants call.clock call.flow call.alproto call.ctx call.packetLen
    call.tcpFlags monitor.packetCount
    { detector := monitor.detector, engine := monitor.engine }).map fun (packetCount, watch) =>
      ({ packetCount, detector := watch.detector, engine := watch.engine }, watch.raised)

/-- A call that was made, the alerts that it raised, and the monitor after it. -/
structure Inspected where
  call : PacketCall
  raised : List Alert
  after : Monitor

/-- A run.  Before each call the counter is changed: not at all, unless the sweeps are to
come at other packets than they do. -/
def Monitor.run (counter : BitVec 64 → BitVec 64) :
    Monitor → List PacketCall → Except Bridge.Fault (List Inspected)
  | _, [] => .ok []
  | monitor, call :: calls =>
      ({ monitor with packetCount := counter monitor.packetCount }.inspect call).bind
        fun (after, raised) =>
          (run counter after calls).map fun trace => ⟨call, raised, after⟩ :: trace

/-! ## Contexts that can be read -/

/-- The context of the flow is one for its protocol. -/
structure PacketCall.Readable (call : PacketCall) : Prop where
  http : call.alproto = .http → ∃ conn?, call.ctx.http = .ok conn?
  dns : call.alproto = .dns → ∃ conn?, call.ctx.udp = .ok conn?
  tls : call.alproto = .tls → ∃ conn?, call.ctx.tls = .ok conn?

section Readable

variable {grants : Grants} {clock : Clock} {flow : Flow}

/-- A context is read only for the protocol that it is read for. -/
theorem exists_ite_map_ok_iff {γ : Type} {guard : Prop} [Decidable guard]
    {read : Except Bridge.Fault γ} {use : γ → Watch} {watch : Watch} :
    (∃ after, (if guard then read.map use else .ok watch) = .ok after) ↔
      (guard → ∃ conn?, read = .ok conn?) := by
  split
  next holds => rw [exists_map_ok_iff, forall_prop_of_true holds]
  next fails => exact iff_of_true ⟨watch, rfl⟩ fun holds => absurd holds fails

/-- A call succeeds if the context can be read. -/
theorem Monitor.inspect_ok_iff (monitor : Monitor) (call : PacketCall) :
    (∃ result, monitor.inspect call = .ok result) ↔ call.Readable := by
  rw [Monitor.inspect, exists_map_ok_iff, inspectPacket]
  dsimp only
  rw [exists_bind_ok_iff]
  constructor
  case mp =>
    rintro ⟨afterBrute, brute, rest⟩
    obtain ⟨after, anomaly⟩ := exists_map_ok_iff.mp rest
    obtain ⟨afterHttp, -, rest⟩ := bind_ok anomaly
    obtain ⟨afterDns, dns, tls⟩ := bind_ok rest
    exact ⟨exists_ite_map_ok_iff.mp ⟨_, brute⟩, exists_ite_map_ok_iff.mp ⟨_, dns⟩,
      exists_ite_map_ok_iff.mp ⟨_, tls⟩⟩
  case mpr =>
    intro readable
    obtain ⟨afterBrute, brute⟩ := exists_ite_map_ok_iff.mpr readable.http
    refine ⟨afterBrute, brute, exists_map_ok_iff.mpr ?_⟩
    apply exists_bind_ok_iff.mpr
    obtain ⟨afterHttp, http⟩ := exists_ite_map_ok_iff.mpr readable.http
    refine ⟨afterHttp, http, exists_bind_ok_iff.mpr ?_⟩
    obtain ⟨afterDns, dns⟩ := exists_ite_map_ok_iff.mpr readable.dns
    exact ⟨afterDns, dns, exists_ite_map_ok_iff.mpr readable.tls⟩

/-- A run succeeds if the context can be read at each of its calls. -/
theorem Monitor.run_ok_iff (counter : BitVec 64 → BitVec 64) (monitor : Monitor)
    (calls : List PacketCall) :
    (∃ trace, monitor.run counter calls = .ok trace) ↔ ∀ call ∈ calls, call.Readable := by
  induction calls generalizing monitor with
  | nil => exact iff_of_true ⟨[], rfl⟩ fun _ member => absurd member List.not_mem_nil
  | cons call calls ih =>
      rw [Monitor.run, exists_bind_ok_iff, List.forall_mem_cons]
      constructor
      case mp =>
        rintro ⟨result, inspected, rest⟩
        exact ⟨(Monitor.inspect_ok_iff _ call).mp ⟨result, inspected⟩,
          (ih result.1).mp (exists_map_ok_iff.mp rest)⟩
      case mpr =>
        rintro ⟨first, later⟩
        obtain ⟨result, inspected⟩ := (Monitor.inspect_ok_iff _ call).mpr first
        exact ⟨result, inspected, exists_map_ok_iff.mpr ((ih result.1).mpr later)⟩

end Readable

/-- The calls of a trace are those that were made. -/
theorem Monitor.run_calls {counter : BitVec 64 → BitVec 64} {monitor : Monitor}
    {calls : List PacketCall} {trace : List Inspected}
    (ran : monitor.run counter calls = .ok trace) : trace.map Inspected.call = calls := by
  induction calls generalizing monitor trace with
  | nil =>
      cases ran
      rfl
  | cons call calls ih =>
      obtain ⟨⟨next, raised⟩, -, ran⟩ := bind_ok ran
      obtain ⟨rest, onward, rfl⟩ := map_ok ran
      rw [List.map_cons, ih onward]

/-- A call of a run leads on from the detector that the call before it has left. -/
theorem Monitor.run_step {counter : BitVec 64 → BitVec 64} {monitor : Monitor}
    {calls : List PacketCall} {earlier later : List Inspected} {inspected : Inspected}
    (ran : monitor.run counter calls = .ok (earlier ++ inspected :: later)) :
    ∃ before : Monitor,
      before.detector =
          (earlier.getLast?.map fun last => last.after.detector).getD monitor.detector ∧
        before.inspect inspected.call = .ok (inspected.after, inspected.raised) := by
  induction earlier generalizing monitor calls with
  | nil =>
      cases calls with
      | nil => cases ran
      | cons call calls =>
          obtain ⟨⟨next, raised⟩, stepped, ran⟩ := bind_ok ran
          obtain ⟨rest, -, same⟩ := map_ok ran
          cases same
          exact ⟨{ monitor with packetCount := counter monitor.packetCount }, rfl, stepped⟩
  | cons first earlier ih =>
      cases calls with
      | nil => cases ran
      | cons call calls =>
          obtain ⟨⟨next, raised⟩, -, ran⟩ := bind_ok ran
          obtain ⟨rest, onward, same⟩ := map_ok ran
          cases same
          obtain ⟨before, last, stepped⟩ := ih onward
          refine ⟨before, ?_, stepped⟩
          rw [last, List.getLast?_cons]
          cases earlier.getLast? <;> rfl

/-- What every call keeps holds of every detector of a run. -/
theorem Monitor.run_keeps {holds : Detector → Prop}
    (step : ∀ {monitor after : Monitor} {call : PacketCall} {raised : List Alert},
      monitor.inspect call = .ok (after, raised) → holds monitor.detector →
        holds after.detector)
    {counter : BitVec 64 → BitVec 64} {monitor : Monitor} {calls : List PacketCall}
    {trace : List Inspected} (ran : monitor.run counter calls = .ok trace)
    (first : holds monitor.detector) : ∀ inspected ∈ trace, holds inspected.after.detector := by
  induction calls generalizing monitor trace with
  | nil =>
      cases ran
      exact fun _ member => absurd member List.not_mem_nil
  | cons call calls ih =>
      obtain ⟨⟨next, raised⟩, stepped, ran⟩ := bind_ok ran
      obtain ⟨rest, onward, rfl⟩ := map_ok ran
      have kept := step stepped first
      exact List.forall_mem_cons.mpr ⟨kept, ih onward kept⟩

end NetDefender.Behavior
