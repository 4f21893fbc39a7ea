import NetDefender.Bridge.Alerts
import NetDefender.Bridge.Beside

/-!
# Alerts and unrelated traffic

The detection systems of an lcore are created by the first HTTP flow and are used by all
flows.  Traffic that does not create them has no influence on the alerts of other flows;
traffic that does makes them appear.
-/

namespace NetDefender.Bridge

open NetDefender.Flows NetDefender.Behavior NetDefender.Rules NetDefender.Fallible

/-! ## Traffic without detection systems -/

section Quiet

variable {env : Env} {arrival : Arrival} {decoded : Decoded} {flow : Flow}
variable {alproto : Proto.AppProto} {ctx : ProtoCtx} {systems after : Systems}
variable {lcore final : Lcore} {reports : List Report}

theorem start_absent (absent : systems.engine = none)
    (still : (systems.start arrival).engine = none) : systems.start arrival = systems := by
  rw [Systems.start, absent] at still ⊢
  dsimp only at still ⊢
  split at still
  next => cases still
  next refused => exact if_neg refused

theorem inspectHttp_absent
    (run : inspectHttp arrival flow alproto ctx systems = .ok (after, reports))
    (absent : systems.engine = none) (still : after.engine = none) :
    after = systems ∧ reports = [] := by
  rcases inspectHttp_cases run with ⟨rfl | rfl, rfl⟩ | ⟨_, _, _, -, -, rfl, -⟩
  · exact ⟨rfl, rfl⟩
  · exact ⟨start_absent absent still, rfl⟩
  · cases still

theorem dnsStage_absent {app : FlowApp} {dns dns' : Option DnsParser.DnsConn}
    (run : dnsStage arrival decoded flow app dns systems = .ok (dns', after, reports))
    (absent : systems.engine = none) : after = systems ∧ reports = [] := by
  rcases dnsStage_cases run with unchanged | ⟨_, _, _, present, -⟩
  · exact unchanged
  · rw [absent] at present
    cases present

theorem inspectTls_absent
    (run : inspectTls arrival flow alproto ctx systems = .ok (after, reports))
    (absent : systems.engine = none) : after = systems ∧ reports = [] := by
  rcases inspectTls_cases run with unchanged | ⟨_, _, _, present, -⟩
  · exact unchanged
  · rw [absent] at present
    cases present

theorem inspectBehavior_absent
    (run : inspectBehavior arrival decoded flow alproto ctx systems = .ok (after, reports))
    (absent : systems.engine = none) : after = systems ∧ reports = [] := by
  rcases inspectBehavior_cases run with unchanged | ⟨_, _, _, _, present, -⟩
  · exact unchanged
  · rw [absent] at present
    cases present

/-- The systems stay absent until the end if they are absent there. -/
theorem Inspects.absent {granted : Prop} (inspects : Inspects granted systems after reports)
    (still : after.engine = none) : systems.engine = none := by
  cases present : systems.engine with
  | none => rfl
  | some engine =>
      obtain ⟨engine', stored, -⟩ := inspects.keeps engine present
      rw [still] at stored
      cases stored

theorem Passes.absent (passes : Passes env arrival decoded lcore flow final reports)
    (still : final.systems.engine = none) :
    final.systems = lcore.systems ∧ reports = [] := by
  cases passes with
  | mk tracked httpApp app dns afterHttp afterDns afterTls systems httpReports dnsReports
      tlsReports behaviorReports track http inspectedHttp parsedDns tls inspectedTls
      inspectedBehavior printed =>
      have absentTls := (inspectBehavior_inspects inspectedBehavior).absent still
      have absentDns := (inspectTls_inspects inspectedTls).absent absentTls
      have absentHttp := (dnsStage_inspects parsedDns).absent absentDns
      have absent := (inspectHttp_inspects inspectedHttp).absent absentHttp
      obtain ⟨rfl, rfl⟩ := inspectHttp_absent inspectedHttp absent absentHttp
      obtain ⟨rfl, rfl⟩ := dnsStage_absent parsedDns absent
      obtain ⟨rfl, rfl⟩ := inspectTls_absent inspectedTls absent
      obtain ⟨rfl, rfl⟩ := inspectBehavior_absent inspectedBehavior absent
      exact ⟨rfl, rfl⟩

theorem processPacket_absent {ret : Int}
    (processed : lcore.processPacket env arrival = .ok (ret, final, reports))
    (still : final.systems.engine = none) :
    final.systems = lcore.systems ∧ reports = [] := by
  rcases processPacket_cases processed with ⟨-, -, rfl, rfl⟩ | ⟨table, -, -, rfl, rfl⟩ |
    ⟨decoded, table, flow, -, -, passes⟩
  · exact ⟨rfl, rfl⟩
  · exact ⟨rfl, rfl⟩
  · exact passes.absent still

/-- A run that leaves no detection systems has inspected nothing. -/
theorem runEvents_absent {arrivals : List Arrival}
    (run : runEvents env lcore (arrivals.map .packet) = .ok (final, reports))
    (still : final.systems.engine = none) :
    final.systems = lcore.systems ∧ reports = [] := by
  induction arrivals generalizing lcore reports with
  | nil =>
      cases run
      exact ⟨rfl, rfl⟩
  | cons arrival arrivals inductionHypothesis =>
      obtain ⟨middle, first, more, step, rest, rfl⟩ := runEvents_cons_iff.mp run
      obtain ⟨ret, processed⟩ := run_packet_iff.mp step
      have absent := (runEvents_inspects rest).absent still
      obtain ⟨here, rfl⟩ := processPacket_absent processed absent
      obtain ⟨later, rfl⟩ := inductionHypothesis rest
      exact ⟨later.trans here, rfl⟩

end Quiet

/-! ## Whose flows there are -/

/-- An lcore that has processed some packets of a list since it had an empty table: its flows
are those of the packets, and nothing is stored for a flow to come. -/
structure Lcore.Served (env : Env) (arrivals : List Arrival) (table : FlowTable)
    (lcore : Lcore) : Prop where
  coherent : Coherent env lcore
  config : lcore.table.config = table.config
  stream : lcore.table.stream = table.stream
  opened : ∀ flow ∈ lcore.table.flows, ∃ arrival ∈ arrivals, ∃ decoded,
    decode arrival.mbuf = some decoded ∧ decoded.pkt.IsIp ∧ flow.key.tuple = decoded.pkt.tuple
  unused : ∀ id, lcore.table.nextId ≤ id → lcore.apps id = {}

section Served

variable {env : Env} {arrivals : List Arrival} {table : FlowTable} {lcore : Lcore}
variable {arrival : Arrival} {decoded : Decoded} {flow : Flow}

theorem decode_isIp {mbuf : Mbuf} (accepted : decode mbuf = some decoded)
    (transport : decoded.flags &&& Packets.PKT_DECODED_TCP ≠ 0 ∨
      decoded.flags &&& Packets.PKT_DECODED_UDP ≠ 0) : decoded.pkt.IsIp := by
  have version := @Packets.decodePacket_version mbuf.memory mbuf.pktLen
  rw [decode] at accepted
  generalize Packets.decodePacket mbuf.memory mbuf.pktLen = result at accepted version
  obtain ⟨ret, decodedInfo⟩ := result
  dsimp only at accepted version
  split at accepted
  next => cases accepted
  next =>
      cases accepted
      rcases version with bare | version
      · rcases transport with tcp | udp
        · exact absurd bare.1 tcp
        · exact absurd bare.2 udp
      · exact version

theorem flowGet_config {rteHashCrc : List (BitVec 32) → BitVec 32} {alloc : FlowAllocation}
    {now : BitVec 64} {pkt : Packet} :
    (flowGet rteHashCrc alloc now table pkt).2.config = table.config ∧
      (flowGet rteHashCrc alloc now table pkt).2.stream = table.stream := by
  rw [flowGet]
  dsimp only
  split
  next => exact ⟨rfl, rfl⟩
  next => split_ifs <;> exact ⟨rfl, rfl⟩

theorem trackStage_key {call : Call} {st : State} {tracked : Tracked}
    (track : trackStage env call decoded st flow = .ok tracked) :
    tracked.flow.key = flow.key := by
  rw [trackStage] at track
  dsimp only at track
  split at track
  next => cases track
  next updated reassembly update =>
      cases track
      exact flowUpdate_key update

theorem start_served (tallied : Tallied env.rteHashCrc table) (empty : table.flows = []) :
    (Lcore.start table).Served env arrivals table where
  coherent := start_coherent tallied empty
  config := rfl
  stream := rfl
  opened := by
    intro flow member
    rw [Lcore.start, empty] at member
    cases member
  unused := fun _ _ => rfl

/-- The table that a packet leaves is the one before it, or that of `flow_get`. -/
theorem receive_table {table after : FlowTable} {call : Call}
    (received : receive env table call = .noFlow after ∨
      ∃ decoded flow, receive env table call = .inFlow decoded after flow) :
    after = table ∨ ∃ decoded, decode call.mbuf = some decoded ∧ decoded.pkt.IsIp ∧
      after = (flowGet env.rteHashCrc call.flow call.now table decoded.pkt).2 := by
  rw [receive] at received
  cases accepted : decode call.mbuf with
  | none =>
      simp [accepted] at received
  | some decoded =>
      rw [accepted] at received
      dsimp only at received
      split at received
      next transport =>
          refine Or.inr ⟨decoded, rfl, decode_isIp accepted transport, ?_⟩
          generalize flowGet env.rteHashCrc call.flow call.now table decoded.pkt = got
            at received ⊢
          obtain ⟨id?, got⟩ := got
          cases id? with
          | none =>
              rcases received with (same | ⟨_, _, bad⟩)
              · cases same
                rfl
              · cases bad
          | some id =>
              dsimp only at received
              rcases received with (same | ⟨_, _, same⟩)
              · split at same <;> cases same
                rfl
              · split at same <;> cases same
                rfl
      next =>
          rcases received with (same | ⟨_, _, bad⟩)
          · cases same
            exact Or.inl rfl
          · cases bad

/-- One of the packets is counted, and its flow is looked up. -/
theorem Lcore.Served.lookup {after : FlowTable} (served : lcore.Served env arrivals table)
    (member : arrival ∈ arrivals)
    (received : receive env lcore.table arrival.toCall = .noFlow after ∨
      ∃ decoded flow, receive env lcore.table arrival.toCall = .inFlow decoded after flow) :
    Lcore.Served env arrivals table
      { lcore with table := after, processed := lcore.processed + 1 } := by
  rcases receive_table received with rfl | ⟨decoded, accepted, isIp, rfl⟩
  · exact ⟨served.coherent.count, served.config, served.stream, served.opened, served.unused⟩
  · obtain ⟨-, later, flows⟩ := @get_flows env.rteHashCrc lcore.table _ arrival.flow arrival.now
      decoded.pkt served.coherent.tallied rfl
    obtain ⟨config, stream⟩ := @flowGet_config lcore.table env.rteHashCrc arrival.flow
      arrival.now decoded.pkt
    constructor
    case coherent => exact served.coherent.lookup rfl
    case config => exact config.trans served.config
    case stream => exact stream.trans served.stream
    case opened =>
      intro flow present
      rcases flows flow present with ⟨old, before, key, -⟩ | fresh
      · rw [← key]
        exact served.opened old before
      · exact ⟨arrival, member, decoded, accepted, isIp, fresh.tuple⟩
    case unused => exact fun id outside => served.unused id (later.trans outside)

/-- The stages on a flow of the table. -/
theorem Lcore.Served.stages {after : Lcore} {reports : List Report}
    (served : lcore.Served env arrivals table) (member : flow ∈ lcore.table.flows)
    (passes : Passes env arrival decoded lcore flow after reports)
    (coherent : Coherent env after) : after.Served env arrivals table := by
  cases passes with
  | mk tracked httpApp app dns afterHttp afterDns afterTls systems httpReports dnsReports
      tlsReports behaviorReports track http inspectedHttp parsedDns tls inspectedTls
      inspectedBehavior printed =>
  have key := trackStage_key track
  have id : tracked.flow.id = flow.id := congrArg FlowKey.id key
  constructor
  case coherent => exact coherent
  case config => exact served.config
  case stream => exact served.stream
  case opened =>
    intro other present
    have changed : other ∈ lcore.table.flows.map
        (changeFlow tracked.flow.id fun _ => flowRelease tracked.flow) := by
      rw [← FlowTable.modify_flows]
      exact present
    obtain ⟨old, before, rfl⟩ := List.mem_map.mp changed
    rw [changeFlow]
    split
    next =>
        rw [flowRelease_key, key]
        exact served.opened flow member
    next => exact served.opened old before
  case unused =>
    intro other outside
    have inside : flow.id < lcore.table.nextId :=
      served.coherent.tallied.fresh flow.key (mem_keys_iff.mpr ⟨flow, member, rfl⟩)
    have outside' : lcore.table.nextId ≤ other := outside
    have apart : other ≠ tracked.flow.id := by
      rw [id]
      omega
    exact (Function.update_of_ne apart _ _).trans (served.unused other outside')

/-- One of the packets is processed. -/
theorem Lcore.Served.packet {ret : Int} {after : Lcore} {reports : List Report}
    (served : lcore.Served env arrivals table) (member : arrival ∈ arrivals)
    (processed : lcore.processPacket env arrival = .ok (ret, after, reports)) :
    after.Served env arrivals table := by
  have coherent : Coherent env after := by
    have run := run_packet_iff.mpr ⟨ret, processed⟩
    obtain ⟨stops, passes⟩ := served.coherent.packet arrival
    by_cases misread : Misread env lcore arrival
    · rw [stops misread] at run
      cases run
    · obtain ⟨after', reports', run', coherent'⟩ := passes misread
      rw [run] at run'
      cases run'
      exact coherent'
  rcases processPacket_cases processed with ⟨-, -, rfl, -⟩ | ⟨table', received, -, rfl, -⟩ |
    ⟨decoded, table', flow, received, -, passes⟩
  · exact ⟨coherent, served.config, served.stream, served.opened, served.unused⟩
  · exact served.lookup member (Or.inl received)
  · have outcome := receive_outcome env lcore.table arrival.toCall
    rw [received] at outcome
    cases outcome with
    | inFlow accepted got found =>
        have present : flow ∈ table'.flows := List.mem_of_find?_eq_some found
        have looked := served.lookup member (Or.inr ⟨decoded, flow, received⟩)
        exact looked.stages present passes coherent

theorem Lcore.Served.run {some : List Arrival} {after : Lcore} {reports : List Report}
    (served : lcore.Served env arrivals table) (members : ∀ arrival ∈ some, arrival ∈ arrivals)
    (run : runEvents env lcore (some.map .packet) = .ok (after, reports)) :
    after.Served env arrivals table := by
  induction some generalizing lcore reports with
  | nil =>
      cases run
      exact served
  | cons arrival rest inductionHypothesis =>
      obtain ⟨middle, first, more, step, later, rfl⟩ := runEvents_cons_iff.mp run
      obtain ⟨ret, processed⟩ := run_packet_iff.mp step
      exact inductionHypothesis (served.packet (members arrival List.mem_cons_self) processed)
        (fun next member => members next (List.mem_cons_of_mem arrival member)) later

end Served

/-! ## Independence -/

/-- No packet of one list has an endpoint of a packet of the other. -/
def Unrelated (left right : List Arrival) : Prop :=
  ∀ arrival ∈ left, ∀ other ∈ right, ∀ decoded ∈ decode arrival.mbuf,
    ∀ decoded' ∈ decode other.mbuf,
      decoded.pkt.endpoints.Disjoint decoded'.pkt.endpoints

section Independence

variable {env : Env} {table : FlowTable} {unrelated probe : List Arrival} {middle : Lcore}

/-- The packets of a list, as they are decoded. -/
def Decodes (arrivals : List Arrival) (pkt : Packet) : Prop :=
  ∃ arrival ∈ arrivals, ∃ decoded ∈ decode arrival.mbuf, decoded.pkt = pkt

/-- After unrelated traffic that created no detection systems, the lcore is a new one beside
the flows of that traffic. -/
theorem Lcore.Served.beside (served : middle.Served env unrelated table)
    (tallied : Tallied env.rteHashCrc table) (empty : table.flows = []) (first : table.nextId = 0)
    (apart : Unrelated unrelated probe) (systems : middle.systems = {}) :
    Lcore.Beside middle.table.nextId (Decodes probe) (.start table) middle where
  table := by
    constructor
    case config => exact served.config
    case stream => exact served.stream
    case buckets =>
      have none : ∀ bucket ∈ table.buckets, bucket = [] := List.flatten_eq_nil_iff.mp empty
      have older : ∀ bucket ∈ middle.table.buckets, since middle.table.nextId bucket = [] := by
        intro bucket member
        rw [since, List.filter_eq_nil_iff]
        intro flow inBucket
        have known : flow.id < middle.table.nextId := served.coherent.tallied.fresh flow.key
          (mem_keys_iff.mpr ⟨flow, List.mem_flatten_of_mem member inBucket, rfl⟩)
        simpa using known
      have size : middle.table.buckets.length = table.buckets.length := by
        have left := served.coherent.tallied.size
        have right := tallied.size
        rw [FlowTable.keys, List.length_map] at left right
        rw [left, right, served.config]
      have left : middle.table.buckets.map (since middle.table.nextId) =
          List.replicate table.buckets.length [] := by
        refine List.eq_replicate_iff.mpr ⟨by rw [List.length_map, size], ?_⟩
        intro bucket member
        obtain ⟨before, present, rfl⟩ := List.mem_map.mp member
        exact older before present
      have right : table.buckets.map (List.map (Flow.shift middle.table.nextId)) =
          List.replicate table.buckets.length [] := by
        refine List.eq_replicate_iff.mpr ⟨List.length_map _, ?_⟩
        intro bucket member
        obtain ⟨before, present, rfl⟩ := List.mem_map.mp member
        rw [none before present, List.map_nil]
      exact left.trans right.symm
    case older =>
      rintro flow member - pkt ⟨arrival, asking, decoded, accepted, rfl⟩
      obtain ⟨opener, inUnrelated, opened, accepted', isIp, tuple⟩ := served.opened flow member
      rw [← Bool.not_eq_true, flowMatch_iff]
      intro matched
      obtain ⟨endpoint, left, right⟩ := matched.shared isIp tuple
      exact apart opener inUnrelated arrival asking opened accepted' decoded accepted left right
    case nextId =>
      rw [Lcore.start, first, Nat.zero_add]
  apps := fun id => served.unused (id + middle.table.nextId) (Nat.le_add_left _ _)
  dns := fun id => served.coherent.noDns _
  systems := systems

/-- The traffic leaves no rule engine behind. -/
def CreatesNoEngine (env : Env) (table : FlowTable) (arrivals : List Arrival) : Prop :=
  ∀ middle reports, runEvents env (.start table) (arrivals.map .packet) = .ok (middle, reports) →
    middle.systems.engine = none

/-- Unrelated traffic that leaves no rule engine behind has no influence on the alerts of
what follows, as long as there is room and memory for the flows. -/
theorem alerts_independent (env : Env) (memory : ∀ id index, env.rteMalloc id index = true)
    (stream : Stream.StreamConfig) (reassembly : Stream.ReassemblyStats)
    (hashSize maxFlows : BitVec 32) (allocated : Bool) (table : FlowTable)
    (init : flowInit stream reassembly hashSize maxFlows allocated = some table)
    (unrelated probe : List Arrival) (apart : Unrelated unrelated probe)
    (alone combined : Lcore) (reports reports' : List Report)
    (run : runEvents env (.start table) (probe.map .packet) = .ok (alone, reports))
    (run' : runEvents env (.start table) ((unrelated ++ probe).map .packet) =
      .ok (combined, reports'))
    (room : RoomThroughout env (.start table) probe)
    (room' : RoomThroughout env (.start table) (unrelated ++ probe))
    (absent : CreatesNoEngine env table unrelated) : raised reports' = raised reports := by
  have tallied : Tallied env.rteHashCrc table := flowInit_tallied init
  have empty := (flowInit_empty init).1
  rw [List.map_append] at run'
  obtain ⟨middle, before, after, inFront, inBack, rfl⟩ := runEvents_append_iff.mp run'
  have still := absent middle before inFront
  obtain ⟨systems, rfl⟩ := runEvents_absent inFront still
  have served := (start_served tallied empty).run (fun _ member => member) inFront
  have beside := served.beside tallied empty (flowInit_nextId init) apart systems
  refine beside.run (fun id => ?_) ?_ room ?_ run inBack
  · funext index
    rw [memory, memory]
  · exact fun arrival member decoded accepted => ⟨arrival, member, decoded, accepted, rfl⟩
  · intro front arrival back last more split inLast
    refine room' (unrelated ++ front) arrival back last ([] ++ more)
      (by rw [split, List.append_assoc]) ?_
    rw [List.map_append]
    exact runEvents_append_iff.mpr ⟨middle, [], more, inFront, inLast, rfl⟩

end Independence

/-! ## A scan and a request -/

/-- A frame between two other hosts of the network. -/
def Mbuf.between (source destination : UInt8) (mbuf : Mbuf) : Mbuf :=
  { mbuf with
    memory := fun offset =>
      if offset = 29 then source else if offset = 33 then destination else mbuf.memory offset }

/-- Segments from one host to ports of another, with their flags and payloads. -/
def segments (source destination : UInt8) (contents : List (Nat × UInt8 × List UInt8)) :
    List Arrival :=
  contents.map fun (port, flags, payload) =>
    arrivalOf (Mbuf.between source destination (tcpFrame port flags payload))

/-- A connection to port 80 of a host, with a request of this line. -/
def request (source destination : UInt8) (line : String) : List Arrival :=
  segments source destination
    [(80, 0x02, []), (80, 0x02, []), (80, 0x10, []),
      (80, 0x18, CString.ascii line ++ CString.ascii "\r\n")]

/-- SYN packets to ten ports of a host. -/
def scan : List Arrival := segments 3 4 ((List.range 10).map fun port => (port + 1, 0x02, []))

/-- The endpoints of the packets of a list. -/
def endpointsOf (arrivals : List Arrival) : List (BitVec 8 × FlowAddress × BitVec 16) :=
  arrivals.flatMap fun arrival => ((decode arrival.mbuf).map (·.pkt.endpoints)).getD []

theorem unrelated_of_endpoints {left right : List Arrival}
    (apart : ∀ endpoint ∈ endpointsOf left, endpoint ∉ endpointsOf right) :
    Unrelated left right := by
  intro arrival inLeft other inRight decoded accepted decoded' accepted' endpoint here there
  have listed : ∀ {arrivals : List Arrival} {arrival : Arrival} {decoded : Decoded},
      arrival ∈ arrivals → decoded ∈ decode arrival.mbuf →
        endpoint ∈ decoded.pkt.endpoints → endpoint ∈ endpointsOf arrivals := by
    intro arrivals arrival decoded member accepted inside
    refine List.mem_flatMap.mpr ⟨arrival, member, ?_⟩
    rw [Option.mem_def.mp accepted]
    exact inside
  exact apart endpoint (listed inLeft accepted here) (listed inRight accepted' there)

/-- Whether there is room after a run that succeeds. -/
def roomAfter : Except Fault (Lcore × List Report) → Bool
  | .ok (lcore, _) =>
      decide (lcore.table.stats.flowsActive < lcore.table.config.maxFlows.setWidth 64)
  | .error _ => true

theorem roomThroughout_of_prefixes {env : Env} {lcore : Lcore} {arrivals : List Arrival}
    (checked : ∀ count < arrivals.length,
      roomAfter (runEvents env lcore ((arrivals.take count).map .packet)) = true) :
    RoomThroughout env lcore arrivals := by
  rintro front arrival back middle reports rfl run
  have room := checked front.length (by simp)
  rw [List.take_left, run] at room
  simpa [roomAfter, Lcore.HasRoom] using room

/-- The alerts of a run: the rule and the source of each. -/
def alertsOf : Except Fault (Lcore × List Report) → Option (List (Nat × BitVec 32))
  | .ok (_, reports) => some ((raised reports).map fun alert => (alert.ruleId, alert.srcIp))
  | .error _ => none

theorem alertsOf_eq_some {result : Except Fault (Lcore × List Report)}
    {alerts : List (Nat × BitVec 32)} (found : alertsOf result = some alerts) :
    ∃ lcore reports, result = .ok (lcore, reports) ∧
      (raised reports).map (fun alert => (alert.ruleId, alert.srcIp)) = alerts := by
  cases result with
  | error fault => cases found
  | ok final =>
      obtain ⟨lcore, reports⟩ := final
      exact ⟨lcore, reports, rfl, Option.some.inj found⟩

/-- Whether a run leaves a rule engine behind. -/
def engineAfter : Except Fault (Lcore × List Report) → Bool
  | .ok (lcore, _) => lcore.systems.engine.isSome
  | .error _ => false

/-- The scan is reported if a request between two other hosts came before it, and is not
reported on its own. -/
theorem scan_seen_after_request :
    Unrelated (request 1 2 "GET / HTTP/1.1") scan ∧
    RoomThroughout plainEnv (.start plainTable) scan ∧
    RoomThroughout plainEnv (.start plainTable) (request 1 2 "GET / HTTP/1.1" ++ scan) ∧
    ∃ alone reports combined reports',
      runEvents plainEnv (.start plainTable) (scan.map .packet) = .ok (alone, reports) ∧
      runEvents plainEnv (.start plainTable)
        ((request 1 2 "GET / HTTP/1.1" ++ scan).map .packet) = .ok (combined, reports') ∧
      raised reports = [] ∧
      (raised reports').map (fun alert => (alert.ruleId, alert.srcIp)) =
        [(9000, 0x0300000A)] := by
  have quiet : alertsOf (runEvents plainEnv (.start plainTable) (scan.map .packet)) = some [] := by
    decide +kernel
  have loud : alertsOf (runEvents plainEnv (.start plainTable)
      ((request 1 2 "GET / HTTP/1.1" ++ scan).map .packet)) = some [(9000, 0x0300000A)] := by
    decide +kernel
  obtain ⟨alone, reports, run, none⟩ := alertsOf_eq_some quiet
  obtain ⟨combined, reports', run', one⟩ := alertsOf_eq_some loud
  refine ⟨unrelated_of_endpoints (by decide +kernel),
    roomThroughout_of_prefixes (by decide +kernel),
    roomThroughout_of_prefixes (by decide +kernel), alone, reports, combined, reports', run,
    run', List.map_eq_nil_iff.mp none, one⟩

/-- The first packets of a connection create nothing, and the request of another one is
reported after them as it is without them. -/
theorem alerts_independent_handshake :
    ∃ alone reports combined reports',
      runEvents plainEnv (.start plainTable)
        ((request 3 4 "GET /unionselect HTTP/1.1").map .packet) = .ok (alone, reports) ∧
      runEvents plainEnv (.start plainTable)
        (((request 1 2 "GET / HTTP/1.1").take 3 ++
          request 3 4 "GET /unionselect HTTP/1.1").map .packet) = .ok (combined, reports') ∧
      (raised reports).map (·.ruleId) = [1001] ∧ raised reports' = raised reports := by
  have found : alertsOf (runEvents plainEnv (.start plainTable)
      ((request 3 4 "GET /unionselect HTTP/1.1").map .packet)) = some [(1001, 0x0300000A)] := by
    decide +kernel
  have found' : alertsOf (runEvents plainEnv (.start plainTable)
      (((request 1 2 "GET / HTTP/1.1").take 3 ++
        request 3 4 "GET /unionselect HTTP/1.1").map .packet)) = some [(1001, 0x0300000A)] := by
    decide +kernel
  have unstarted : engineAfter (runEvents plainEnv (.start plainTable)
      (((request 1 2 "GET / HTTP/1.1").take 3).map .packet)) = false := by
    decide +kernel
  obtain ⟨alone, reports, run, one⟩ := alertsOf_eq_some found
  obtain ⟨combined, reports', run', -⟩ := alertsOf_eq_some found'
  refine ⟨alone, reports, combined, reports', run, run', ?_, ?_⟩
  · have rules := congrArg (List.map (·.1)) one
    rwa [List.map_map] at rules
  · refine alerts_independent plainEnv (fun _ _ => rfl) .default {} 4 16 true plainTable
      plainTable_init ((request 1 2 "GET / HTTP/1.1").take 3)
      (request 3 4 "GET /unionselect HTTP/1.1") (unrelated_of_endpoints (by decide +kernel))
      alone combined reports reports' run run'
      (roomThroughout_of_prefixes (by decide +kernel))
      (roomThroughout_of_prefixes (by decide +kernel)) ?_
    intro middle before inFront
    rw [inFront] at unstarted
    exact Option.isSome_eq_false_iff.mp unstarted |> Option.isNone_iff_eq_none.mp

end NetDefender.Bridge
