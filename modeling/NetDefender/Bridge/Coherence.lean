import NetDefender.Bridge.Connection
import NetDefender.Bridge.Inspection

/-!
# Coherent states

What holds of an lcore between two events: the transport of a flow, its detected
protocol and the parser that is stored for it fit together.  A stage of
`process_packet` then succeeds, or it reads the context of a TCP flow as a DNS connection.
-/

namespace NetDefender.Bridge

open NetDefender.Flows NetDefender.Behavior NetDefender.Rules NetDefender.Fallible

/-! ## Flows and transports -/

theorem decode_labelled {mbuf : Mbuf} {decoded : Decoded}
    (accepted : decode mbuf = some decoded) :
    (decoded.flags &&& Packets.PKT_DECODED_TCP ≠ 0 → decoded.pkt.ipProto = IPPROTO_TCP) ∧
      (decoded.flags &&& Packets.PKT_DECODED_UDP ≠ 0 →
        decoded.pkt.ipProto = Packets.IPPROTO_UDP) := by
  have labelled : (Packets.decodePacket mbuf.memory mbuf.pktLen).2.info.Labelled :=
    Packets.decodePacket_labelled
  rw [decode] at accepted
  generalize Packets.decodePacket mbuf.memory mbuf.pktLen = result at accepted labelled
  obtain ⟨ret, decodedInfo⟩ := result
  dsimp only at accepted labelled
  split at accepted
  next => cases accepted
  next =>
    cases accepted
    exact ⟨labelled.tcp, labelled.udp⟩

section Get

variable {rteHashCrc : List (BitVec 32) → BitVec 32} {table after : FlowTable}
variable {alloc : FlowAllocation} {now : BitVec 64} {pkt : Packet} {id : Nat} {flow : Flow}

theorem mem_keys_iff {key : FlowKey} :
    key ∈ table.keys.flatten ↔ ∃ flow ∈ table.flows, flow.key = key := by
  rw [table.keys_flatten]
  exact List.mem_map

theorem mem_bucketKeys {hash : BitVec 32} {key : FlowKey}
    (member : key ∈ table.bucketKeys hash) : key ∈ table.keys.flatten := by
  rw [FlowTable.bucketKeys, List.getD_eq_getElem?_getD] at member
  cases bucket : table.keys[bucketIdx table.config hash]? with
  | none =>
      rw [bucket] at member
      cases member
  | some keys =>
      rw [bucket] at member
      exact List.mem_flatten_of_mem (List.mem_of_getElem? bucket) member

/-- The flow that a packet is given has the protocol of the packet. -/
theorem get_proto (tallied : Tallied rteHashCrc table)
    (got : flowGet rteHashCrc alloc now table pkt = (some id, after))
    (found : after.find id = some flow) : flow.proto = pkt.ipProto := by
  have present : flow ∈ after.flows := List.mem_of_find?_eq_some found
  have sameId : flow.id = id := by simpa using List.find?_some found
  have inKeys : flow.key ∈ after.keys.flatten := mem_keys_iff.mpr ⟨flow, present, rfl⟩
  have effect := flowGet_effect rteHashCrc alloc now table pkt
  rw [got] at effect
  cases effect with
  | found key search keys config nextId stats =>
      rw [keys] at inKeys
      have searched := mem_bucketKeys (List.mem_of_find?_eq_some search)
      have same : flow.key = key :=
        List.inj_on_of_nodup_map tallied.ids inKeys searched sameId
      have accepted := List.find?_some search
      simp only [decide_eq_true_eq] at accepted
      have proto : flow.key.proto = pkt.ipProto := by
        rw [same]
        exact accepted.2.1
      exact proto
  | created alloc now search keys config nextId stats =>
      have new : flow.key = (newFlow table.config alloc now table.nextId
          (flowHashCalculate rteHashCrc pkt) pkt).key := by
        by_contra other
        have old : flow.key ∈ table.keys.flatten := by
          rw [keys] at inKeys
          obtain ⟨bucket, inTable, inBucket⟩ := List.mem_flatten.mp inKeys
          rcases List.mem_or_eq_of_mem_set inTable with kept | rfl
          · exact List.mem_flatten_of_mem kept inBucket
          · exact mem_bucketKeys (List.mem_of_ne_of_mem other inBucket)
        exact absurd sameId (Nat.ne_of_lt (tallied.fresh flow.key old))
      have proto : flow.key.proto = pkt.ipProto := by
        rw [new]
        exact newFlow_proto
      exact proto

/-- A flow that was there before, with its key and its session. -/
def Kept (table : FlowTable) (flow : Flow) : Prop :=
  ∃ old ∈ table.flows, old.key = flow.key ∧ (flow.tcp = none ↔ old.tcp = none)

/-- The new flow of a packet, whose session is that of a TCP flow. -/
structure Fresh (table : FlowTable) (pkt : Packet) (flow : Flow) : Prop where
  id : flow.id = table.nextId
  tuple : flow.key.tuple = pkt.tuple
  proto : flow.proto = pkt.ipProto
  session : flow.tcp ≠ none → flow.proto = IPPROTO_TCP

theorem newFlow_fresh (hash : BitVec 32) :
    Fresh table pkt (newFlow table.config alloc now table.nextId hash pkt) := by
  have proto : (newFlow table.config alloc now table.nextId hash pkt).proto = pkt.ipProto :=
    @newFlow_proto table.config alloc now table.nextId hash pkt
  refine ⟨newFlow_id .., (newFlow_tuple table.config alloc now table.nextId hash pkt).2.2,
    proto, ?_⟩
  intro session
  rw [proto]
  by_contra other
  exact session (if_neg other)

/-- `flow_get` keeps the flows of the table and adds at most one. -/
theorem get_flows (tallied : Tallied rteHashCrc table)
    (got : (flowGet rteHashCrc alloc now table pkt).2 = after) :
    Tallied rteHashCrc after ∧ table.nextId ≤ after.nextId ∧
      ∀ flow ∈ after.flows, Kept table flow ∨ Fresh table pkt flow := by
  obtain ⟨_, run, step⟩ := tallied.run (.get alloc now pkt)
  cases run
  rw [got] at step
  refine ⟨tallied.step step, ?_⟩
  have outcome := tallied.getOutcome alloc now pkt
  rw [← got]
  generalize flowGet rteHashCrc alloc now table pkt = result at outcome
  cases outcome with
  | found held present =>
      refine ⟨le_refl _, ?_⟩
      intro flow member
      rw [table.modify_flows] at member
      obtain ⟨old, inTable, rfl⟩ := List.mem_map.mp member
      refine Or.inl ⟨old, inTable, ?_⟩
      rw [changeFlow]
      split <;> exact ⟨rfl, Iff.rfl⟩
  | refused => exact ⟨le_refl _, fun flow member => Or.inl ⟨flow, member, rfl, Iff.rfl⟩⟩
  | created search room =>
      refine ⟨Nat.le_succ _, ?_⟩
      intro flow member
      have perm := tallied.withNew_flows alloc now (flowHashCalculate rteHashCrc pkt) pkt
      rcases List.mem_cons.mp (perm.mem_iff.mp member) with rfl | old
      · exact Or.inr (newFlow_fresh _)
      · exact Or.inl ⟨flow, old, rfl, Iff.rfl⟩

end Get

/-! ## Parsers and protocols -/

/-- The protocol that a parser is for. -/
def AppParser.proto : AppParser → Proto.AppProto
  | .http _ => .http
  | .tls _ => .tls

/-- The parser of a session is the one for the protocol of its flow. -/
def FlowApp.Fits (app : FlowApp) : Prop := ∀ parser ∈ app.appParser, parser.proto = app.alproto

theorem AppParser.proto_ne_unknown (parser : AppParser) : parser.proto ≠ .unknown := by
  cases parser <;> exact nofun

section Stages

variable {env : Env} {call : Call} {decoded : Decoded} {flow : Flow}
variable {direction : Flows.Direction} {app : FlowApp}

/-- Protocol detection leaves the parser alone, and changes the protocol only on a TCP
packet of a flow without one. -/
theorem detectStage_cases (stats : Proto.DetectStats) (memory : Packets.Memory) :
    let after := (detectStage env stats memory decoded flow direction app).1
    after.appParser = app.appParser ∧ (after.alproto = app.alproto ∨
      app.alproto = .unknown ∧ decoded.flags &&& Packets.PKT_DECODED_TCP ≠ 0) := by
  rw [detectStage]
  split
  next tried =>
    dsimp only
    refine ⟨?_, Or.inr ⟨tried.1, tried.2.1⟩⟩
    split <;> cases direction <;> rfl
  next => exact ⟨rfl, Or.inl rfl⟩

theorem detectStage_fits (stats : Proto.DetectStats) (memory : Packets.Memory)
    (fits : app.Fits) : (detectStage env stats memory decoded flow direction app).1.Fits := by
  obtain ⟨sameParser, same | ⟨unknown, _⟩⟩ := @detectStage_cases env decoded flow direction app
    stats memory
  · rw [FlowApp.Fits, sameParser, same]
    exact fits
  · intro parser stored
    rw [sameParser] at stored
    have proto := fits parser stored
    rw [unknown] at proto
    exact absurd proto parser.proto_ne_unknown

/-- A parsing stage succeeds on a parser of its protocol, and leaves one. -/
theorem parserStage_fits {proto : Proto.AppProto} {fresh : AppParser}
    {parse : AppParser → Option (List UInt8) → Except Fault AppParser} {granted : Bool}
    (created : fresh.proto = proto)
    (parses : ∀ parser data, parser.proto = proto →
      ∃ after, parse parser data = .ok after ∧ after.proto = proto) (fits : app.Fits) :
    ∃ after, parserStage proto fresh parse granted flow direction app = .ok after ∧
      after.Fits ∧ after.alproto = app.alproto := by
  rw [parserStage]
  cases flow.tcp with
  | none => exact ⟨app, rfl, fits, rfl⟩
  | some tcp =>
      dsimp only
      by_cases same : app.alproto = proto
      · rw [if_pos same]
        have known : ∀ parser ∈ app.appParser.or (if granted then some fresh else none),
            parser.proto = proto := by
          intro parser member
          rcases Option.or_eq_some_iff.mp member with stored | ⟨_, new⟩
          · exact (fits parser stored).trans same
          · split at new
            next =>
              cases new
              exact created
            next => cases new
        cases found : app.appParser.or (if granted then some fresh else none) with
        | none => exact ⟨app, rfl, fits, rfl⟩
        | some parser =>
            obtain ⟨after, parsed, proto'⟩ :=
              parses parser (streamData tcp direction) (known parser found)
            dsimp only
            rw [parsed]
            refine ⟨_, rfl, ?_, rfl⟩
            rintro stored ⟨⟩
            exact proto'.trans same.symm
      · rw [if_neg same]
        exact ⟨app, rfl, fits, rfl⟩

theorem httpStage_fits (fits : app.Fits) :
    ∃ after, httpStage call flow direction app = .ok after ∧ after.Fits ∧
      after.alproto = app.alproto := by
  refine parserStage_fits rfl ?_ fits
  intro parser data proto
  cases parser with
  | http conn => cases data <;> exact ⟨_, rfl, rfl⟩
  | tls st => cases proto

theorem tlsStage_fits (fits : app.Fits) :
    ∃ after, tlsStage env call flow direction app = .ok after ∧ after.Fits ∧
      after.alproto = app.alproto := by
  refine parserStage_fits rfl ?_ fits
  intro parser data proto
  cases parser with
  | http conn => cases proto
  | tls st => cases data <;> exact ⟨_, rfl, rfl⟩

/-! ## Readers -/

/-- The context is that of a TCP flow, and the protocol is one whose connections are kept
in the contexts of UDP flows. -/
def Confused (flow : Flow) (alproto : Proto.AppProto) : Prop :=
  alproto = .dns ∧ flow.tcp ≠ none

instance (flow : Flow) (alproto : Proto.AppProto) : Decidable (Confused flow alproto) :=
  inferInstanceAs (Decidable (_ ∧ _))

/-- Without DNS connections, the protocol of a flow tells what its context points to,
unless that is a session. -/
theorem readContext_contextOf (flow : Flow) (fits : app.Fits) :
    readContext app.alproto (contextOf flow app none) =
      if Confused flow app.alproto then .error .confused else .ok () := by
  cases session : flow.tcp with
  | none =>
      have clear : ¬Confused flow app.alproto := fun confused => confused.2 session
      rw [if_neg clear]
      simp only [contextOf, session]
      cases app.alproto <;> rfl
  | some tcp =>
      have present : flow.tcp ≠ none := by simp [session]
      simp only [contextOf, session, Confused, ne_eq, reduceCtorEq, not_false_eq_true, and_true]
      cases stored : app.appParser with
      | none => cases app.alproto <;> rfl
      | some parser =>
          have proto := fits parser stored
          cases parser with
          | http conn =>
              rw [← proto]
              rfl
          | tls st =>
              rw [← proto]
              rfl

variable {alproto : Proto.AppProto} {ctx : ProtoCtx} {fault : Fault}

theorem inspectHttp_reads (arrival : Arrival) (systems : Systems) :
    ((inspectHttp arrival flow alproto ctx systems).map fun _ => ()) =
      if alproto = .http then readContext alproto ctx else .ok () := by
  rw [inspectHttp]
  by_cases http : alproto = .http
  · rw [if_pos http, if_pos http, http, readContext]
    cases ctx.http <;> rfl
  · rw [if_neg http, if_neg http]
    rfl

theorem inspectTls_reads (arrival : Arrival) (systems : Systems) :
    ((inspectTls arrival flow alproto ctx systems).map fun _ => ()) =
      if alproto = .tls then readContext alproto ctx else .ok () := by
  rw [inspectTls]
  by_cases tls : alproto = .tls
  · rw [if_pos tls, if_pos tls, tls, readContext]
    cases ctx.tls <;> rfl
  · rw [if_neg tls, if_neg tls]
    rfl

/-- The detector reads the context as the protocol says. -/
theorem inspectPacket_reads (grants : Behavior.Grants) (clock : Clock)
    (packetLen : BitVec 32) (tcpFlags : Option (BitVec 8)) (packetCount : BitVec 64)
    (watch : Watch) :
    ((inspectPacket grants clock flow alproto ctx packetLen tcpFlags packetCount watch).map
      fun _ => ()) = readContext alproto ctx := by
  simp only [inspectPacket, detectBruteForce, detectTrafficAnomaly, detectDnsAnomalies,
    detectTlsAnomalies]
  cases alproto
  case http =>
    rw [readContext]
    cases ctx.http <;> rfl
  case tls =>
    rw [readContext]
    cases ctx.tls <;> rfl
  case dns =>
    rw [readContext]
    cases ctx.udp <;> rfl
  all_goals rfl

theorem inspectBehavior_reads (arrival : Arrival) (decoded : Decoded) (flow : Flow)
    (alproto : Proto.AppProto) (ctx : ProtoCtx) (systems : Systems) :
    ((inspectBehavior arrival decoded flow alproto ctx systems).map fun _ => ()) =
      if systems.engine.isSome ∧ systems.detector.isSome then readContext alproto ctx
      else .ok () := by
  rw [inspectBehavior]
  cases systems.engine with
  | none => rfl
  | some engine =>
      cases systems.detector with
      | none => rfl
      | some detector =>
          have reads := @inspectPacket_reads flow alproto ctx arrival.behavior
            ⟨arrival.now, arrival.hour⟩ (decoded.pkt.payloadLen.setWidth 32)
            (decoded.pkt.tcpHdr.map (·.tcpFlags)) systems.packetCount { detector, engine }
          rw [if_pos ⟨rfl, rfl⟩, ← reads]
          dsimp only
          cases inspectPacket arrival.behavior ⟨arrival.now, arrival.hour⟩ flow alproto ctx
            (decoded.pkt.payloadLen.setWidth 32) (decoded.pkt.tcpHdr.map (·.tcpFlags))
            systems.packetCount { detector, engine } <;> rfl

/-! ## Detection systems -/

/-- The detector reports to an engine. -/
def Systems.Reporting (systems : Systems) : Prop :=
  systems.detector ≠ none → systems.engine ≠ none

theorem Systems.start_reporting (arrival : Arrival) {systems : Systems}
    (reporting : systems.Reporting) : (systems.start arrival).Reporting := by
  rw [Systems.start]
  split
  next => exact reporting
  next =>
    split
    next => exact fun _ => nofun
    next => exact reporting

variable {arrival : Arrival} {systems after : Systems} {reports : List Report}

theorem inspectHttp_reporting (reporting : systems.Reporting)
    (inspected : inspectHttp arrival flow alproto ctx systems = .ok (after, reports)) :
    after.Reporting := by
  rcases inspectHttp_cases inspected with ⟨rfl | rfl, -⟩ | ⟨_, _, _, -, -, rfl, -⟩
  · exact reporting
  · exact Systems.start_reporting arrival reporting
  · exact fun _ => nofun

theorem inspectTls_reporting (reporting : systems.Reporting)
    (inspected : inspectTls arrival flow alproto ctx systems = .ok (after, reports)) :
    after.Reporting := by
  rcases inspectTls_cases inspected with ⟨rfl, -⟩ | ⟨_, _, _, -, -, rfl, -⟩
  · exact reporting
  · exact fun _ => nofun

theorem inspectBehavior_reporting (reporting : systems.Reporting)
    (inspected : inspectBehavior arrival decoded flow alproto ctx systems =
      .ok (after, reports)) : after.Reporting := by
  rcases inspectBehavior_cases inspected with ⟨rfl, -⟩ | ⟨_, _, _, _, -, -, -, rfl, -⟩
  · exact reporting
  · exact fun _ => nofun

end Stages

/-! ## The invariant -/

/-- The state of an lcore between two events: sessions belong to TCP flows, a parser is the
one for the protocol of its flow, only TCP flows have a protocol, no flow has a DNS
connection, and the detector has an engine. -/
structure Coherent (env : Env) (lcore : Lcore) : Prop where
  tallied : Tallied env.rteHashCrc lcore.table
  sessions : ∀ flow ∈ lcore.table.flows, flow.tcp ≠ none → flow.proto = IPPROTO_TCP
  fits : ∀ id, (lcore.apps id).Fits
  unclassified : ∀ flow ∈ lcore.table.flows, flow.proto ≠ IPPROTO_TCP →
    (lcore.apps flow.id).alproto = .unknown
  unused : ∀ id, lcore.table.nextId ≤ id → (lcore.apps id).alproto = .unknown
  noDns : ∀ id, lcore.dns id = none
  reporting : lcore.systems.Reporting

/-- The protocol of a flow after the detection on a packet. -/
def protocolAfter (env : Env) (lcore : Lcore) (arrival : Arrival) (decoded : Decoded)
    (flow : Flow) : Proto.AppProto :=
  (detectStage env lcore.detectStats arrival.mbuf.memory decoded flow
    (getPacketDirection flow decoded.pkt) (lcore.apps flow.id)).1.alproto

/-- The packet belongs to a TCP flow with a session that is known as DNS, and its context is
looked at: by the detector, or because statistics are printed. -/
def Misread (env : Env) (lcore : Lcore) (arrival : Arrival) : Prop :=
  ∃ decoded table flow,
    receive env lcore.table arrival.toCall = .inFlow decoded table flow ∧
      Confused flow (protocolAfter env lcore arrival decoded flow) ∧
      (lcore.systems.detector ≠ none ∨ (lcore.processed + 1).toNat % 10000 = 0)

theorem start_coherent {env : Env} {table : FlowTable}
    (tallied : Tallied env.rteHashCrc table) (empty : table.flows = []) :
    Coherent env (.start table) := by
  constructor
  case tallied => exact tallied
  case sessions => simp [Lcore.start, empty]
  case fits =>
    intro id parser stored
    cases stored
  case unclassified => simp [Lcore.start, empty]
  case unused => exact fun _ _ => rfl
  case noDns => exact fun _ => rfl
  case reporting =>
    intro present
    exact absurd rfl present

/-- The update of a flow keeps its key and whether it has a session. -/
theorem flowUpdate_session {config : FlowConfig} {stream : Stream.StreamConfig}
    {alloc : UpdateAllocation} {now : BitVec 64} {stats after : Stream.ReassemblyStats}
    {flow updated : Flow} {pkt : Packet} {direction : Flows.Direction}
    (update : flowUpdate config stream alloc now stats flow pkt direction =
      .ok (updated, after)) : updated.tcp = none ↔ flow.tcp = none := by
  obtain ⟨sameTcp, -⟩ := countPacket_tcp now flow pkt direction
  simp only [flowUpdate] at update
  split at update
  next =>
    split at update
    next tcp hdr session header =>
      rw [sameTcp] at session
      split at update
      next => cases update
      next =>
        cases update
        simp [session]
    next =>
      cases update
      rw [sameTcp]
  next =>
    cases update
    rw [sameTcp]

/-- The table after `flow_get`, or as it was. -/
theorem Coherent.lookup {env : Env} {lcore : Lcore} {alloc : FlowAllocation}
    {now : BitVec 64} {pkt : Packet} {table : FlowTable} (coherent : Coherent env lcore)
    (got : (flowGet env.rteHashCrc alloc now lcore.table pkt).2 = table) :
    Coherent env { lcore with table, processed := lcore.processed + 1 } := by
  obtain ⟨tallied, later, flows⟩ := get_flows coherent.tallied got
  constructor
  case tallied => exact tallied
  case sessions =>
    intro flow member session
    rcases flows flow member with ⟨old, present, key, same⟩ | fresh
    · have proto : old.proto = flow.proto := congrArg FlowKey.proto key
      rw [← proto]
      exact coherent.sessions old present fun gone => session (same.mpr gone)
    · exact fresh.session session
  case fits => exact coherent.fits
  case unclassified =>
    intro flow member other
    rcases flows flow member with ⟨old, present, key, -⟩ | fresh
    · have proto : old.proto = flow.proto := congrArg FlowKey.proto key
      have id : old.id = flow.id := congrArg FlowKey.id key
      rw [← proto] at other
      rw [← id]
      exact coherent.unclassified old present other
    · exact coherent.unused flow.id (le_of_eq fresh.id.symm)
  case unused => exact fun id outside => coherent.unused id (later.trans outside)
  case noDns => exact coherent.noDns
  case reporting => exact coherent.reporting

theorem Coherent.count {env : Env} {lcore : Lcore} (coherent : Coherent env lcore) :
    Coherent env { lcore with processed := lcore.processed + 1 } :=
  ⟨coherent.tallied, coherent.sessions, coherent.fits, coherent.unclassified,
    coherent.unused, coherent.noDns, coherent.reporting⟩

/-- What decoding and `flow_get` come to. -/
inductive ReceiveOutcome (env : Env) (table : FlowTable) (call : Call) : Received → Prop where
  | undecoded : ReceiveOutcome env table call .undecoded
  | ignored : ReceiveOutcome env table call (.noFlow table)
  | noFlow {decoded : Decoded} {after : FlowTable}
      (got : (flowGet env.rteHashCrc call.flow call.now table decoded.pkt).2 = after) :
      ReceiveOutcome env table call (.noFlow after)
  | inFlow {decoded : Decoded} {id : Nat} {after : FlowTable} {flow : Flow}
      (accepted : decode call.mbuf = some decoded)
      (got : flowGet env.rteHashCrc call.flow call.now table decoded.pkt = (some id, after))
      (found : after.find id = some flow) :
      ReceiveOutcome env table call (.inFlow decoded after flow)

theorem receive_outcome (env : Env) (table : FlowTable) (call : Call) :
    ReceiveOutcome env table call (receive env table call) := by
  rw [receive]
  cases accepted : decode call.mbuf with
  | none => exact .undecoded
  | some decoded =>
      dsimp only
      split
      next =>
        cases got : flowGet env.rteHashCrc call.flow call.now table decoded.pkt with
        | mk id? after =>
            cases id? with
            | none => exact .noFlow (congrArg Prod.snd got)
            | some id =>
                dsimp only
                cases found : after.find id with
                | none => exact .noFlow (congrArg Prod.snd got)
                | some flow => exact .inFlow accepted got found
      next => exact .ignored

/-- The flow of a packet is in the table, and has the protocol of the packet. -/
structure Found (table : FlowTable) (decoded : Decoded) (flow : Flow) : Prop where
  member : flow ∈ table.flows
  tcp : decoded.flags &&& Packets.PKT_DECODED_TCP ≠ 0 → flow.proto = IPPROTO_TCP
  udp : decoded.flags &&& Packets.PKT_DECODED_UDP ≠ 0 → flow.proto = Packets.IPPROTO_UDP

theorem get_found {env : Env} {lcore : Lcore} {call : Call} {decoded : Decoded} {id : Nat}
    {after : FlowTable} {flow : Flow} (coherent : Coherent env lcore)
    (accepted : decode call.mbuf = some decoded)
    (got : flowGet env.rteHashCrc call.flow call.now lcore.table decoded.pkt =
      (some id, after)) (found : after.find id = some flow) : Found after decoded flow := by
  have proto := get_proto coherent.tallied got found
  have labelled := decode_labelled accepted
  exact ⟨List.mem_of_find?_eq_some found, fun set => proto.trans (labelled.1 set),
    fun set => proto.trans (labelled.2 set)⟩

/-! ## The stages on a coherent state -/

section Flow

variable {env : Env} {lcore : Lcore} {arrival : Arrival} {decoded : Decoded} {flow : Flow}

/-- The stages before the detector, on a flow of a coherent state. -/
structure Reached (env : Env) (lcore : Lcore) (arrival : Arrival) (decoded : Decoded)
    (flow : Flow) where
  tracked : Tracked
  httpApp : FlowApp
  app : FlowApp
  afterHttp : Systems
  afterTls : Systems
  httpReports : List Report
  tlsReports : List Report
  track : trackStage env arrival.toCall decoded lcore.toState flow = .ok tracked
  http : httpStage arrival.toCall tracked.flow tracked.direction tracked.app = .ok httpApp
  inspectedHttp : inspectHttp arrival tracked.flow httpApp.alproto
    (contextOf tracked.flow httpApp none) lcore.systems = .ok (afterHttp, httpReports)
  parsedDns : dnsStage arrival decoded tracked.flow httpApp none afterHttp =
    .ok (none, afterHttp, [])
  tls : tlsStage env arrival.toCall tracked.flow tracked.direction httpApp = .ok app
  inspectedTls : inspectTls arrival tracked.flow app.alproto (contextOf tracked.flow app none)
    afterHttp = .ok (afterTls, tlsReports)
  key : tracked.flow.key = flow.key
  session : tracked.flow.tcp = none ↔ flow.tcp = none
  ready : tracked.flow.Ready
  fits : app.Fits
  alproto : app.alproto = protocolAfter env lcore arrival decoded flow
  reporting : afterTls.Reporting
  untouched : app.alproto = .dns → afterTls = lcore.systems

theorem detectStage_key {stats : Proto.DetectStats} {memory : Packets.Memory}
    {direction : Flows.Direction} {app : FlowApp} {other : Flow} (key : other.key = flow.key) :
    detectStage env stats memory decoded other direction app =
      detectStage env stats memory decoded flow direction app := by
  have src : other.srcPort = flow.srcPort := congrArg FlowKey.srcPort key
  have dst : other.dstPort = flow.dstPort := congrArg FlowKey.dstPort key
  rw [detectStage, detectStage, src, dst]

/-- A flow that is no TCP flow is not given a protocol. -/
theorem Coherent.undetected (coherent : Coherent env lcore)
    (found : Found lcore.table decoded flow) (notTcp : flow.proto ≠ IPPROTO_TCP) :
    protocolAfter env lcore arrival decoded flow = .unknown := by
  have unknown := coherent.unclassified flow found.member notTcp
  obtain ⟨-, same | ⟨-, isTcp⟩⟩ := @detectStage_cases env decoded flow
    (getPacketDirection flow decoded.pkt) (lcore.apps flow.id) lcore.detectStats
    arrival.mbuf.memory
  · exact same.trans unknown
  · exact absurd (found.tcp isTcp) notTcp

theorem Coherent.not_dns (coherent : Coherent env lcore)
    (found : Found lcore.table decoded flow) :
    ¬(protocolAfter env lcore arrival decoded flow = .dns ∧
      decoded.flags &&& Packets.PKT_DECODED_UDP ≠ 0) := by
  rintro ⟨dns, isUdp⟩
  have notTcp : flow.proto ≠ IPPROTO_TCP := by
    rw [found.udp isUdp]
    decide
  rw [coherent.undetected found notTcp] at dns
  cases dns

theorem Coherent.reach (coherent : Coherent env lcore)
    (found : Found lcore.table decoded flow) :
    Nonempty (Reached env lcore arrival decoded flow) := by
  obtain ⟨⟨updated, reassembly⟩, update, ready, -, -⟩ := flowUpdate_ok lcore.table.config
    lcore.table.stream arrival.update arrival.now lcore.table.reassembly decoded.pkt
    (getPacketDirection flow decoded.pkt) (coherent.tallied.ready flow found.member)
  have key : updated.key = flow.key := flowUpdate_key update
  have id : updated.id = flow.id := congrArg FlowKey.id key
  have track : trackStage env arrival.toCall decoded lcore.toState flow = .ok
      { flow := updated
        direction := getPacketDirection flow decoded.pkt
        reassembly
        app := (detectStage env lcore.detectStats arrival.mbuf.memory decoded flow
          (getPacketDirection flow decoded.pkt) (lcore.apps flow.id)).1
        detectStats := (detectStage env lcore.detectStats arrival.mbuf.memory decoded flow
          (getPacketDirection flow decoded.pkt) (lcore.apps flow.id)).2 } := by
    simp only [trackStage, update, detectStage_key key, id]
  have detected := @detectStage_fits env decoded flow (getPacketDirection flow decoded.pkt)
    (lcore.apps flow.id) lcore.detectStats arrival.mbuf.memory (coherent.fits flow.id)
  obtain ⟨httpApp, http, httpFits, httpProto⟩ := @httpStage_fits arrival.toCall updated
    (getPacketDirection flow decoded.pkt) _ detected
  obtain ⟨app, tls, fits, proto⟩ := @tlsStage_fits env arrival.toCall updated
    (getPacketDirection flow decoded.pkt) _ httpFits
  have notDns : ¬(httpApp.alproto = .dns ∧
      decoded.flags &&& Packets.PKT_DECODED_UDP ≠ 0) := by
    rw [httpProto]
    exact coherent.not_dns found
  have readHttp := readContext_contextOf updated httpFits
  have readTls := readContext_contextOf updated fits
  have succeedsHttp : ((inspectHttp arrival updated httpApp.alproto
      (contextOf updated httpApp none) lcore.systems).map fun _ => ()) = .ok () := by
    rw [inspectHttp_reads, readHttp]
    split
    next isHttp =>
      refine if_neg fun confused => ?_
      rw [isHttp] at confused
      exact absurd confused.1 (by decide)
    next => rfl
  obtain ⟨⟨afterHttp, httpReports⟩, inspectedHttp⟩ := ok_of_map_ok succeedsHttp
  have succeedsTls : ((inspectTls arrival updated app.alproto
      (contextOf updated app none) afterHttp).map fun _ => ()) = .ok () := by
    rw [inspectTls_reads, readTls]
    split
    next isTls =>
      refine if_neg fun confused => ?_
      rw [isTls] at confused
      exact absurd confused.1 (by decide)
    next => rfl
  obtain ⟨⟨afterTls, tlsReports⟩, inspectedTls⟩ := ok_of_map_ok succeedsTls
  refine ⟨{
    tracked := _
    httpApp, app, afterHttp, afterTls, httpReports, tlsReports, track, http, inspectedHttp
    tls, inspectedTls, key, ready, fits
    parsedDns := if_neg notDns
    session := flowUpdate_session update
    alproto := proto.trans httpProto
    reporting := inspectTls_reporting (inspectHttp_reporting coherent.reporting inspectedHttp)
      inspectedTls
    untouched := ?_ }⟩
  intro dns
  rw [inspectTls, dns, if_neg (by decide)] at inspectedTls
  rw [inspectHttp, ← proto, dns, if_neg (by decide)] at inspectedHttp
  cases inspectedTls
  cases inspectedHttp
  rfl

/-- The state after a packet, from what its stages leave. -/
def Reached.after (reached : Reached env lcore arrival decoded flow) (systems : Systems) :
    Lcore where
  table :=
    { lcore.table.modify reached.tracked.flow.id fun _ => flowRelease reached.tracked.flow with
      reassembly := reached.tracked.reassembly }
  apps := Function.update lcore.apps reached.tracked.flow.id reached.app
  detectStats := reached.tracked.detectStats
  dns := Function.update lcore.dns reached.tracked.flow.id none
  systems := systems
  processed := lcore.processed

theorem Reached.id (reached : Reached env lcore arrival decoded flow) :
    reached.tracked.flow.id = flow.id :=
  congrArg FlowKey.id reached.key

theorem Reached.after_apps (reached : Reached env lcore arrival decoded flow)
    (systems : Systems) :
    (reached.after systems).apps = Function.update lcore.apps flow.id reached.app := by
  rw [← reached.id]
  rfl

theorem Reached.after_dns (reached : Reached env lcore arrival decoded flow)
    (systems : Systems) :
    (reached.after systems).dns = Function.update lcore.dns flow.id none := by
  rw [← reached.id]
  rfl

theorem Coherent.after (coherent : Coherent env lcore)
    (found : Found lcore.table decoded flow)
    (reached : Reached env lcore arrival decoded flow) {systems : Systems}
    (reporting : systems.Reporting) : Coherent env (reached.after systems) := by
  have id := reached.id
  have proto : reached.tracked.flow.proto = flow.proto := congrArg FlowKey.proto reached.key
  obtain ⟨releasedProto, releasedTcp⟩ := flowRelease_session reached.tracked.flow
  have releasedKey : (flowRelease reached.tracked.flow).key = flow.key :=
    (flowRelease_key _).trans reached.key
  have releasedId : (flowRelease reached.tracked.flow).id = flow.id :=
    congrArg FlowKey.id releasedKey
  have flows : ∀ other ∈ (reached.after systems).table.flows,
      other = flowRelease reached.tracked.flow ∨
        other ∈ lcore.table.flows ∧ other.id ≠ flow.id := by
    intro other member
    have changed : other ∈ lcore.table.flows.map
        (changeFlow reached.tracked.flow.id fun _ => flowRelease reached.tracked.flow) := by
      rw [← FlowTable.modify_flows]
      exact member
    obtain ⟨old, present, rfl⟩ := List.mem_map.mp changed
    rw [changeFlow]
    split
    next => exact Or.inl rfl
    next apart => exact Or.inr ⟨present, fun same => apart (same.trans id.symm)⟩
  constructor
  case tallied =>
    refine coherent.tallied.change reached.tracked.reassembly ?_ fun _ _ => ?_
    · intro other member same
      rw [releasedKey, coherent.tallied.same_flow member found.member (same.trans id)]
    · intro tcp session
      exact reached.ready tcp (releasedTcp ▸ session)
  case sessions =>
    intro other member session
    rcases flows other member with rfl | ⟨old, -⟩
    · rw [releasedProto, proto]
      rw [releasedTcp] at session
      exact coherent.sessions flow found.member fun gone => session (reached.session.mpr gone)
    · exact coherent.sessions other old session
  case fits =>
    intro other
    rw [reached.after_apps]
    by_cases same : other = flow.id
    · rw [same, Function.update_self]
      exact reached.fits
    · rw [Function.update_of_ne same]
      exact coherent.fits other
  case unclassified =>
    intro other member notTcp
    rw [reached.after_apps]
    rcases flows other member with rfl | ⟨old, apart⟩
    · rw [releasedProto, proto] at notTcp
      rw [releasedId, Function.update_self, reached.alproto]
      exact coherent.undetected found notTcp
    · rw [Function.update_of_ne apart]
      exact coherent.unclassified other old notTcp
  case unused =>
    intro other outside
    have inside : flow.id < lcore.table.nextId :=
      coherent.tallied.fresh flow.key (mem_keys_iff.mpr ⟨flow, found.member, rfl⟩)
    have outside' : lcore.table.nextId ≤ other := outside
    rw [reached.after_apps, Function.update_of_ne (by omega)]
    exact coherent.unused other outside'
  case noDns =>
    intro other
    rw [reached.after_dns]
    by_cases same : other = flow.id
    · rw [same, Function.update_self]
    · rw [Function.update_of_ne same]
      exact coherent.noDns other
  case reporting => exact reporting

/-- What is left after the stages that succeed. -/
theorem Reached.processFlow (reached : Reached env lcore arrival decoded flow)
    (noDns : lcore.dns reached.tracked.flow.id = none) :
    Lcore.processFlow env arrival decoded lcore flow =
      inspectBehavior arrival decoded reached.tracked.flow reached.app.alproto
        (contextOf reached.tracked.flow reached.app none) reached.afterTls >>=
          fun (systems, behaviorReports) =>
            printStage lcore.processed reached.tracked.flow reached.app.alproto
              (contextOf reached.tracked.flow reached.app none) >>= fun _ =>
                .ok (reached.after systems,
                  reached.httpReports ++ [] ++ reached.tlsReports ++ behaviorReports) := by
  simp only [Lcore.processFlow, reached.track, ok_bind, noDns, reached.http,
    reached.inspectedHttp, reached.parsedDns, reached.tls, reached.inspectedTls]
  rfl

/-- The last two stages succeed. -/
theorem Coherent.finish (coherent : Coherent env lcore)
    (found : Found lcore.table decoded flow)
    (reached : Reached env lcore arrival decoded flow)
    (inspected : ((inspectBehavior arrival decoded reached.tracked.flow reached.app.alproto
      (contextOf reached.tracked.flow reached.app none) reached.afterTls).map fun _ => ()) =
        .ok ())
    (printed : printStage lcore.processed reached.tracked.flow reached.app.alproto
      (contextOf reached.tracked.flow reached.app none) = .ok ()) :
    ∃ after reports, Lcore.processFlow env arrival decoded lcore flow = .ok (after, reports) ∧
      Coherent env after := by
  obtain ⟨⟨systems, behaviorReports⟩, inspected⟩ := ok_of_map_ok inspected
  have reporting := inspectBehavior_reporting reached.reporting inspected
  refine ⟨reached.after systems,
    reached.httpReports ++ [] ++ reached.tlsReports ++ behaviorReports, ?_,
    coherent.after found reached reporting⟩
  rw [reached.processFlow (coherent.noDns _), inspected, ok_bind]
  dsimp only
  rw [printed, ok_bind]

/-- On a flow of a coherent state, `process_packet` takes the context for something else
if it is a TCP flow known as DNS and somebody looks; otherwise it succeeds. -/
theorem Coherent.processFlow (coherent : Coherent env lcore) (arrival : Arrival)
    (found : Found lcore.table decoded flow) :
    let misread := Confused flow (protocolAfter env lcore arrival decoded flow) ∧
      (lcore.systems.detector ≠ none ∨ lcore.processed.toNat % 10000 = 0)
    (misread → Lcore.processFlow env arrival decoded lcore flow = .error .confused) ∧
      (¬misread → ∃ after reports,
        Lcore.processFlow env arrival decoded lcore flow = .ok (after, reports) ∧
          Coherent env after) := by
  intro misread
  obtain ⟨reached⟩ := @Coherent.reach env lcore arrival decoded flow coherent found
  have run := reached.processFlow (coherent.noDns _)
  have proto : reached.tracked.flow.proto = flow.proto := congrArg FlowKey.proto reached.key
  have same : Confused reached.tracked.flow reached.app.alproto ↔
      Confused flow (protocolAfter env lcore arrival decoded flow) := by
    rw [Confused, Confused, reached.alproto, ne_eq, ne_eq, reached.session]
  have read := readContext_contextOf reached.tracked.flow reached.fits
  have reads := inspectBehavior_reads arrival decoded reached.tracked.flow
    reached.app.alproto (contextOf reached.tracked.flow reached.app none) reached.afterTls
  rw [read] at reads
  by_cases confused : Confused flow (protocolAfter env lcore arrival decoded flow)
  · have dns : reached.app.alproto = .dns := reached.alproto.trans confused.1
    have tcp : reached.tracked.flow.proto = IPPROTO_TCP :=
      proto.trans (coherent.sessions flow found.member confused.2)
    rw [if_pos (same.mpr confused)] at read reads
    by_cases watched : lcore.systems.detector ≠ none
    · have engine := coherent.reporting watched
      rw [reached.untouched dns, if_pos ⟨Option.isSome_iff_ne_none.mpr engine,
        Option.isSome_iff_ne_none.mpr watched⟩] at reads
      refine ⟨fun _ => ?_, fun fine => absurd ⟨confused, Or.inl watched⟩ fine⟩
      rw [run, reached.untouched dns, error_of_map_error reads]
      rfl
    · have quiet : ¬(reached.afterTls.engine.isSome ∧ reached.afterTls.detector.isSome) := by
        rw [reached.untouched dns]
        exact fun both => watched (Option.isSome_iff_ne_none.mp both.2)
      rw [if_neg quiet] at reads
      by_cases due : lcore.processed.toNat % 10000 = 0
      · obtain ⟨_, inspected⟩ := ok_of_map_ok reads
        refine ⟨fun _ => ?_, fun fine => absurd ⟨confused, Or.inr due⟩ fine⟩
        rw [run, inspected, ok_bind]
        dsimp only
        rw [printStage, if_pos ⟨due, tcp⟩, read]
        rfl
      · refine ⟨fun bad => absurd bad.2 (not_or.mpr ⟨watched, due⟩), fun _ => ?_⟩
        exact coherent.finish found reached reads (if_neg fun both => due both.1)
  · rw [if_neg fun bad => confused (same.mp bad)] at read reads
    refine ⟨fun bad => absurd bad.1 confused, fun _ => ?_⟩
    refine coherent.finish found reached (reads.trans (ite_self _)) ?_
    rw [printStage, read, ite_self]

end Flow

/-! ## Events -/

section Runs

variable {env : Env} {lcore : Lcore}

/-- A packet is processed unless it is misread. -/
theorem Coherent.packet (coherent : Coherent env lcore) (arrival : Arrival) :
    (Misread env lcore arrival → Event.run env lcore (.packet arrival) = .error .confused) ∧
      (¬Misread env lcore arrival → ∃ after reports,
        Event.run env lcore (.packet arrival) = .ok (after, reports) ∧ Coherent env after) := by
  have outcome := receive_outcome env lcore.table arrival.toCall
  simp only [Misread, Event.run, Lcore.processPacket]
  generalize receive env lcore.table arrival.toCall = received at outcome
  cases outcome with
  | undecoded =>
      refine ⟨?_, fun _ => ⟨_, _, rfl, coherent.count⟩⟩
      rintro ⟨_, _, _, ⟨⟩, _⟩
  | ignored =>
      refine ⟨?_, fun _ => ⟨_, _, rfl, coherent.count⟩⟩
      rintro ⟨_, _, _, ⟨⟩, _⟩
  | noFlow got =>
      refine ⟨?_, fun _ => ⟨_, _, rfl, coherent.lookup got⟩⟩
      rintro ⟨_, _, _, ⟨⟩, _⟩
  | @inFlow decoded id after flow accepted got found =>
      have step := (coherent.lookup (congrArg Prod.snd got)).processFlow arrival
        (get_found coherent accepted got found)
      constructor
      · rintro ⟨_, _, _, ⟨⟩, misread⟩
        have stopped := step.1 misread
        dsimp only at stopped ⊢
        rw [stopped]
        rfl
      · intro fine
        obtain ⟨next, reports, run, coherent'⟩ :=
          step.2 fun misread => fine ⟨decoded, after, flow, rfl, misread⟩
        dsimp only at run ⊢
        rw [run]
        exact ⟨next, reports, rfl, coherent'⟩

/-- `flow_free` takes the context of a flow for what it is. -/
theorem Coherent.freeContext_ok (coherent : Coherent env lcore) {flow : Flow}
    (member : flow ∈ lcore.table.flows) :
    freeContext flow (lcore.apps flow.id) (lcore.dns flow.id) = .ok () := by
  have read := readContext_contextOf flow (coherent.fits flow.id)
  rw [coherent.noDns, freeContext]
  split
  next =>
    cases proto : (lcore.apps flow.id).alproto
    case http =>
      rw [proto, if_neg fun confused => absurd confused.1 (by decide)] at read
      exact read
    case tls =>
      rw [proto, if_neg fun confused => absurd confused.1 (by decide)] at read
      exact read
    all_goals
      simp only [contextOf]
      cases flow.tcp <;> rfl
  next notTcp =>
    refine if_neg fun udp => ?_
    rw [coherent.unclassified flow member notTcp] at udp
    exact absurd udp.2 (by decide)

theorem Coherent.cleanup (coherent : Coherent env lcore) (now : BitVec 64) :
    ∃ after, Event.run env lcore (.cleanup now) = .ok (after, []) ∧ Coherent env after := by
  refine ⟨{ lcore with table := (flowCleanupExpired now lcore.table).2 }, ?_, ?_⟩
  · have freed : (lcore.table.buckets.flatten.filter (shouldRemove now)).forM (fun flow =>
        freeContext flow (lcore.apps flow.id) (lcore.dns flow.id)) = .ok () :=
      forM_ok fun flow expired => coherent.freeContext_ok (List.mem_filter.mp expired).1
    rw [Event.run, freed]
    rfl
  · have kept : ∀ flow ∈ (flowCleanupExpired now lcore.table).2.flows,
        flow ∈ lcore.table.flows := by
      intro flow member
      rw [lcore.table.cleanup_flows] at member
      exact (List.mem_filter.mp member).1
    exact ⟨coherent.tallied.cleanup now,
      fun flow member => coherent.sessions flow (kept flow member),
      coherent.fits, fun flow member => coherent.unclassified flow (kept flow member),
      coherent.unused, coherent.noDns, coherent.reporting⟩

/-- A packet of the run is misread. -/
def Misreads (env : Env) (lcore : Lcore) (events : List Event) : Prop :=
  ∃ front arrival back middle reports, events = front ++ .packet arrival :: back ∧
    runEvents env lcore front = .ok (middle, reports) ∧ Misread env middle arrival

theorem misreads_cons {event : Event} {events : List Event} {middle : Lcore}
    {reports : List Report} (step : event.run env lcore = .ok (middle, reports))
    (fine : ∀ arrival, event = .packet arrival → ¬Misread env lcore arrival) :
    Misreads env lcore (event :: events) ↔ Misreads env middle events := by
  constructor
  · rintro ⟨front, arrival, back, last, all, split, run, misread⟩
    cases front with
    | nil =>
        cases split
        cases run
        exact absurd misread (fine arrival rfl)
    | cons first front =>
        cases split
        obtain ⟨_, _, _, again, rest, -⟩ := runEvents_cons_iff.mp run
        rw [step] at again
        cases again
        exact ⟨front, arrival, back, _, _, rfl, rest, misread⟩
  · rintro ⟨front, arrival, back, last, all, rfl, run, misread⟩
    exact ⟨event :: front, arrival, back, last, reports ++ all, rfl,
      runEvents_cons_iff.mpr ⟨middle, reports, all, step, run, rfl⟩, misread⟩

/-- A run ends at the first packet that is misread, and only there. -/
theorem Coherent.run (events : List Event) : ∀ {lcore : Lcore}, Coherent env lcore →
    (Misreads env lcore events → runEvents env lcore events = .error .confused) ∧
      (¬Misreads env lcore events → ∃ after reports,
        runEvents env lcore events = .ok (after, reports) ∧ Coherent env after) := by
  induction events with
  | nil =>
      intro lcore coherent
      refine ⟨?_, fun _ => ⟨lcore, [], rfl, coherent⟩⟩
      rintro ⟨front, _, _, _, _, split, _⟩
      cases front <;> cases split
  | cons event events inductionHypothesis =>
      intro lcore coherent
      by_cases misread : ∃ arrival, event = .packet arrival ∧ Misread env lcore arrival
      · obtain ⟨arrival, rfl, misread⟩ := misread
        have stopped := (coherent.packet arrival).1 misread
        refine ⟨fun _ => ?_, fun fine => ?_⟩
        · rw [runEvents, stopped]
          rfl
        · exact absurd ⟨[], arrival, events, lcore, [], rfl, rfl, misread⟩ fine
      · have fine : ∀ arrival, event = .packet arrival → ¬Misread env lcore arrival :=
          fun arrival same bad => misread ⟨arrival, same, bad⟩
        have step : ∃ middle reports, event.run env lcore = .ok (middle, reports) ∧
            Coherent env middle := by
          cases event with
          | packet arrival => exact (coherent.packet arrival).2 (fine arrival rfl)
          | cleanup now =>
              obtain ⟨middle, run, coherent'⟩ := coherent.cleanup now
              exact ⟨middle, [], run, coherent'⟩
        obtain ⟨middle, reports, run, coherent'⟩ := step
        obtain ⟨stops, passes⟩ := inductionHypothesis coherent'
        rw [misreads_cons run fine, runEvents, run, ok_bind]
        dsimp only
        refine ⟨fun bad => ?_, fun good => ?_⟩
        · rw [stops bad]
          rfl
        · obtain ⟨after, more, rest, coherent''⟩ := passes good
          refine ⟨after, reports ++ more, ?_, coherent''⟩
          rw [rest]
          rfl

end Runs

end NetDefender.Bridge
