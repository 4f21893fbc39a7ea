import NetDefender.Behavior.Model

/-!
# Inspection

`process_packet` in full, over the stages of the packet pipeline: after the HTTP parser the
rule engine and the behavioral detector are created, if they are not there yet, and the
transactions, the connections and the packets are inspected.  The run of an lcore is a list
of packets and of calls of `flow_cleanup_expired`.

Every cast of a protocol context is a read of what the context points to: it is a fault if
that is something else.  What the inspections raise is returned along with what they
looked at.  The JSON output and the packet counters are left out, but for the one that
decides when statistics are printed.
-/

namespace NetDefender.Bridge

open NetDefender.Flows NetDefender.Behavior NetDefender.Rules NetDefender.Fallible

/-! ## The state -/

/-- The detection systems of an lcore, and `packet_count` of the detector. -/
structure Systems where
  engine : Option RuleEngine := none
  detector : Option Detector := none
  packetCount : BitVec 64 := 0

/-- The state of the pipeline with the DNS connections of the flows, the detection systems
and `packets_processed`. -/
structure Lcore extends State where
  dns : Nat → Option DnsParser.DnsConn := fun _ => none
  systems : Systems := {}
  processed : BitVec 64 := 0

/-- An lcore before its first packet. -/
def Lcore.start (table : FlowTable) : Lcore where
  table := table
  apps := fun _ => {}
  detectStats := {}

/-- One call of `process_packet`, with the outcomes of all its allocations, the hour, and
what the detail buffer of an inspection holds at first. -/
structure Arrival extends Call where
  dnsParser : Bool := true
  dns : DnsParser.Grants := {}
  engine : Bool := true
  rule : Nat → Bool := fun _ => true
  detector : Bool := true
  alert : Nat → Bool := fun _ => true
  stack : CString.Bytes := []
  hour : Nat := 12
  behavior : Behavior.Grants := {}

/-- What an inspection looks at, in the flow with an identity. -/
inductive Subject where
  | http (flow : Nat) (tx : Http.HttpTransaction)
  | dns (flow : Nat) (tx : DnsParser.DnsTransaction)
  | tls (flow : Nat) (conn : Tls.TlsConn)
  | behavior (flow : Nat)
  deriving DecidableEq, Repr

/-- An inspection and the alerts that it has raised. -/
structure Report where
  subject : Subject
  alerts : List Alert
  deriving DecidableEq, Repr

/-! ## Stages -/

/-- What `protoctx` of a flow points to. -/
def contextOf (flow : Flow) (app : FlowApp) (dns : Option DnsParser.DnsConn) : ProtoCtx :=
  match dns, flow.tcp with
  | some conn, _ => .dns conn
  | none, some _ => .session app.appParser
  | none, none => .null

/-- A packet in its flow: the flow after `flow_update`, and its application state after
protocol detection. -/
structure Tracked where
  flow : Flow
  direction : Direction
  reassembly : Stream.ReassemblyStats
  app : FlowApp
  detectStats : Proto.DetectStats

/-- The update of the flow and the detection of its protocol. -/
def trackStage (env : Env) (call : Call) (decoded : Decoded) (st : State) (flow : Flow) :
    Except Fault Tracked :=
  let direction := getPacketDirection flow decoded.pkt
  match flowUpdate st.table.config st.table.stream call.update call.now st.table.reassembly
      flow decoded.pkt direction with
  | .error fault => .error (.stream fault)
  | .ok (flow, reassembly) =>
      let (app, detectStats) := detectStage env st.detectStats call.mbuf.memory decoded flow
        direction (st.apps flow.id)
      .ok { flow, direction, reassembly, app, detectStats }

/-- The creation of the rule engine, with its built-in rules, and of the detector. -/
def Systems.start (arrival : Arrival) (systems : Systems) : Systems :=
  match systems.engine with
  | some _ => systems
  | none =>
      if arrival.engine then
        { systems with
          engine := some (ruleEngineLoadBuiltinRules arrival.rule {})
          detector := if arrival.detector then some {} else none }
      else systems

/-- What follows HTTP parsing: the detection systems are created, and the current
transaction is inspected. -/
def inspectHttp (arrival : Arrival) (flow : Flow) (alproto : Proto.AppProto)
    (ctx : ProtoCtx) (systems : Systems) : Except Fault (Systems × List Report) :=
  if alproto = .http then
    ctx.http.map fun
      | none => (systems, [])
      | some conn =>
          let systems := systems.start arrival
          match systems.engine, conn.httpGetCurrentTransaction with
          | some engine, some tx =>
              let (engine, alerts) := ruleEngineInspectHttp arrival.alert arrival.now
                arrival.stack engine flow tx
              ({ systems with engine := some engine }, [⟨.http flow.id tx, alerts⟩])
          | _, _ => (systems, [])
  else .ok (systems, [])

/-- DNS parsing of a packet and the inspection of its transaction. -/
def dnsStage (arrival : Arrival) (decoded : Decoded) (flow : Flow) (app : FlowApp)
    (dns : Option DnsParser.DnsConn) (systems : Systems) :
    Except Fault (Option DnsParser.DnsConn × Systems × List Report) :=
  if app.alproto = .dns ∧ decoded.flags &&& Packets.PKT_DECODED_UDP ≠ 0 then
    (contextOf flow app dns).udp.map fun stored =>
      match stored.or (if arrival.dnsParser then some {} else none) with
      | none => (none, systems, [])
      | some conn =>
          if decoded.pkt.payloadLen > 0 then
            let (_, conn) := Logged.value (DnsParser.dnsParserParse arrival.dns conn
              (fun index => arrival.mbuf.memory (decoded.payloadAt + index))
              decoded.pkt.payloadLen.toNat false)
            match systems.engine, DnsParser.dnsGetLatestTransaction conn with
            | some engine, some tx =>
                let (engine, alerts) := ruleEngineInspectDns arrival.alert arrival.now
                  arrival.stack engine flow tx.asRead
                (some conn, { systems with engine := some engine },
                  [⟨.dns flow.id tx, alerts⟩])
            | _, _ => (some conn, systems, [])
          else (some conn, systems, [])
  else .ok (dns, systems, [])

/-- The inspection of a TLS connection that has a ClientHello. -/
def inspectTls (arrival : Arrival) (flow : Flow) (alproto : Proto.AppProto) (ctx : ProtoCtx)
    (systems : Systems) : Except Fault (Systems × List Report) :=
  if alproto = .tls then
    ctx.tls.map fun
      | none => (systems, [])
      | some conn =>
          match systems.engine, conn.clientHello with
          | some engine, some _ =>
              let (engine, alerts) := ruleEngineInspectTls arrival.alert arrival.now
                arrival.stack engine flow conn
              ({ systems with engine := some engine }, [⟨.tls flow.id conn, alerts⟩])
          | _, _ => (systems, [])
  else .ok (systems, [])

/-- The inspection of a packet by the detector. -/
def inspectBehavior (arrival : Arrival) (decoded : Decoded) (flow : Flow)
    (alproto : Proto.AppProto) (ctx : ProtoCtx) (systems : Systems) :
    Except Fault (Systems × List Report) :=
  match systems.engine, systems.detector with
  | some engine, some detector =>
      (inspectPacket arrival.behavior ⟨arrival.now, arrival.hour⟩ flow alproto ctx
        (decoded.pkt.payloadLen.setWidth 32) (decoded.pkt.tcpHdr.map (·.tcpFlags))
        systems.packetCount { detector, engine }).map fun (packetCount, watch) =>
          ({ engine := some watch.engine, detector := some watch.detector, packetCount },
            [⟨.behavior flow.id, watch.raised⟩])
  | _, _ => .ok (systems, [])

/-! ## What an inspection comes to -/

section Cases

variable {arrival : Arrival} {decoded : Decoded} {flow : Flow} {alproto : Proto.AppProto}
variable {ctx : ProtoCtx} {systems after : Systems} {reports : List Report}

theorem inspectHttp_cases
    (run : inspectHttp arrival flow alproto ctx systems = .ok (after, reports)) :
    ((after = systems ∨ after = systems.start arrival) ∧ reports = []) ∨
    ∃ engine tx inspected, (systems.start arrival).engine = some engine ∧
      ruleEngineInspectHttp arrival.alert arrival.now arrival.stack engine flow tx = inspected ∧
      after = { systems.start arrival with engine := some inspected.1 } ∧
      reports = [⟨.http flow.id tx, inspected.2⟩] := by
  rw [inspectHttp] at run
  split at run
  next =>
      obtain ⟨conn?, _, run⟩ := map_ok run
      cases conn? with
      | none =>
          cases run
          exact Or.inl ⟨Or.inl rfl, rfl⟩
      | some conn =>
          dsimp only at run
          split at run
          next engine tx present current =>
              cases run
              exact Or.inr ⟨engine, tx, _, present, rfl, rfl, rfl⟩
          next =>
              cases run
              exact Or.inl ⟨Or.inr rfl, rfl⟩
  next =>
      cases run
      exact Or.inl ⟨Or.inl rfl, rfl⟩

theorem dnsStage_cases {app : FlowApp} {dns dns' : Option DnsParser.DnsConn}
    (run : dnsStage arrival decoded flow app dns systems = .ok (dns', after, reports)) :
    (after = systems ∧ reports = []) ∨
    ∃ engine tx inspected, systems.engine = some engine ∧
      ruleEngineInspectDns arrival.alert arrival.now arrival.stack engine flow tx.asRead =
        inspected ∧
      after = { systems with engine := some inspected.1 } ∧
      reports = [⟨.dns flow.id tx, inspected.2⟩] := by
  rw [dnsStage] at run
  split at run
  next =>
      obtain ⟨stored, _, run⟩ := map_ok run
      dsimp only at run
      split at run
      next =>
          cases run
          exact Or.inl ⟨rfl, rfl⟩
      next conn opened =>
          split at run
          next =>
              split at run
              next engine tx present latest =>
                  cases run
                  exact Or.inr ⟨engine, tx, _, present, rfl, rfl, rfl⟩
              next =>
                  cases run
                  exact Or.inl ⟨rfl, rfl⟩
          next =>
              cases run
              exact Or.inl ⟨rfl, rfl⟩
  next =>
      cases run
      exact Or.inl ⟨rfl, rfl⟩

theorem inspectTls_cases
    (run : inspectTls arrival flow alproto ctx systems = .ok (after, reports)) :
    (after = systems ∧ reports = []) ∨
    ∃ engine conn inspected, systems.engine = some engine ∧
      ruleEngineInspectTls arrival.alert arrival.now arrival.stack engine flow conn = inspected ∧
      after = { systems with engine := some inspected.1 } ∧
      reports = [⟨.tls flow.id conn, inspected.2⟩] := by
  rw [inspectTls] at run
  split at run
  next =>
      obtain ⟨conn?, _, run⟩ := map_ok run
      cases conn? with
      | none =>
          cases run
          exact Or.inl ⟨rfl, rfl⟩
      | some conn =>
          dsimp only at run
          split at run
          next engine hello present opened =>
              cases run
              exact Or.inr ⟨engine, conn, _, present, rfl, rfl, rfl⟩
          next =>
              cases run
              exact Or.inl ⟨rfl, rfl⟩
  next =>
      cases run
      exact Or.inl ⟨rfl, rfl⟩

theorem inspectBehavior_cases
    (run : inspectBehavior arrival decoded flow alproto ctx systems = .ok (after, reports)) :
    (after = systems ∧ reports = []) ∨
    ∃ engine detector packetCount watch, systems.engine = some engine ∧
      systems.detector = some detector ∧
      inspectPacket arrival.behavior ⟨arrival.now, arrival.hour⟩ flow alproto ctx
        (decoded.pkt.payloadLen.setWidth 32) (decoded.pkt.tcpHdr.map (·.tcpFlags))
        systems.packetCount { detector, engine } = .ok (packetCount, watch) ∧
      after = { engine := some watch.engine, detector := some watch.detector, packetCount } ∧
      reports = [⟨.behavior flow.id, watch.raised⟩] := by
  rw [inspectBehavior] at run
  split at run
  next engine detector present attached =>
      obtain ⟨⟨packetCount, watch⟩, inspected, run⟩ := map_ok run
      cases run
      exact Or.inr ⟨engine, detector, packetCount, watch, present, attached, inspected, rfl, rfl⟩
  next =>
      cases run
      exact Or.inl ⟨rfl, rfl⟩

end Cases

/-- What the context is taken for by the protocol of the flow. -/
def readContext (alproto : Proto.AppProto) (ctx : ProtoCtx) : Except Fault Unit :=
  match alproto with
  | .http => ctx.http.map fun _ => ()
  | .tls => ctx.tls.map fun _ => ()
  | .dns => ctx.udp.map fun _ => ()
  | _ => .ok ()

/-- The statistics of the flow, which are printed every 10000 packets. -/
def printStage (processed : BitVec 64) (flow : Flow) (alproto : Proto.AppProto)
    (ctx : ProtoCtx) : Except Fault Unit :=
  if processed.toNat % 10000 = 0 ∧ flow.proto = IPPROTO_TCP then readContext alproto ctx
  else .ok ()

/-! ## Packets -/

/-- What `process_packet` does with the flow that `flow_get` has returned. -/
def Lcore.processFlow (env : Env) (arrival : Arrival) (decoded : Decoded) (lcore : Lcore)
    (flow : Flow) : Except Fault (Lcore × List Report) := do
  let tracked ← trackStage env arrival.toCall decoded lcore.toState flow
  let flow := tracked.flow
  let dns := lcore.dns flow.id
  let app ← httpStage arrival.toCall flow tracked.direction tracked.app
  let (systems, httpReports) ← inspectHttp arrival flow app.alproto (contextOf flow app dns)
    lcore.systems
  let (dns, systems, dnsReports) ← dnsStage arrival decoded flow app dns systems
  let app ← tlsStage env arrival.toCall flow tracked.direction app
  let (systems, tlsReports) ← inspectTls arrival flow app.alproto (contextOf flow app dns)
    systems
  let (systems, behaviorReports) ← inspectBehavior arrival decoded flow app.alproto
    (contextOf flow app dns) systems
  printStage lcore.processed flow app.alproto (contextOf flow app dns)
  .ok
    ({ table :=
         { lcore.table.modify flow.id fun _ => flowRelease flow with
           reassembly := tracked.reassembly }
       apps := Function.update lcore.apps flow.id app
       detectStats := tracked.detectStats
       dns := Function.update lcore.dns flow.id dns
       systems
       processed := lcore.processed },
      httpReports ++ dnsReports ++ tlsReports ++ behaviorReports)

/-- The stages of `process_packet` on a flow, if none of them faults. -/
inductive Passes (env : Env) (arrival : Arrival) (decoded : Decoded) (lcore : Lcore)
    (flow : Flow) : Lcore → List Report → Prop where
  | mk (tracked : Tracked) (httpApp app : FlowApp) (dns : Option DnsParser.DnsConn)
      (afterHttp afterDns afterTls systems : Systems)
      (httpReports dnsReports tlsReports behaviorReports : List Report)
      (track : trackStage env arrival.toCall decoded lcore.toState flow = .ok tracked)
      (http : httpStage arrival.toCall tracked.flow tracked.direction tracked.app =
        .ok httpApp)
      (inspectedHttp : inspectHttp arrival tracked.flow httpApp.alproto
        (contextOf tracked.flow httpApp (lcore.dns tracked.flow.id)) lcore.systems =
          .ok (afterHttp, httpReports))
      (parsedDns : dnsStage arrival decoded tracked.flow httpApp
        (lcore.dns tracked.flow.id) afterHttp = .ok (dns, afterDns, dnsReports))
      (tls : tlsStage env arrival.toCall tracked.flow tracked.direction httpApp = .ok app)
      (inspectedTls : inspectTls arrival tracked.flow app.alproto
        (contextOf tracked.flow app dns) afterDns = .ok (afterTls, tlsReports))
      (inspectedBehavior : inspectBehavior arrival decoded tracked.flow app.alproto
        (contextOf tracked.flow app dns) afterTls = .ok (systems, behaviorReports))
      (printed : printStage lcore.processed tracked.flow app.alproto
        (contextOf tracked.flow app dns) = .ok ()) :
      Passes env arrival decoded lcore flow
        { table :=
            { lcore.table.modify tracked.flow.id fun _ => flowRelease tracked.flow with
              reassembly := tracked.reassembly }
          apps := Function.update lcore.apps tracked.flow.id app
          detectStats := tracked.detectStats
          dns := Function.update lcore.dns tracked.flow.id dns
          systems
          processed := lcore.processed }
        (httpReports ++ dnsReports ++ tlsReports ++ behaviorReports)

theorem processFlow_iff {env : Env} {arrival : Arrival} {decoded : Decoded}
    {lcore after : Lcore} {flow : Flow} {reports : List Report} :
    Lcore.processFlow env arrival decoded lcore flow = .ok (after, reports) ↔
      Passes env arrival decoded lcore flow after reports := by
  constructor
  · intro processed
    obtain ⟨tracked, track, processed⟩ := bind_ok processed
    obtain ⟨httpApp, http, processed⟩ := bind_ok processed
    obtain ⟨⟨afterHttp, httpReports⟩, inspectedHttp, processed⟩ := bind_ok processed
    obtain ⟨⟨dns, afterDns, dnsReports⟩, parsedDns, processed⟩ := bind_ok processed
    obtain ⟨app, tls, processed⟩ := bind_ok processed
    obtain ⟨⟨afterTls, tlsReports⟩, inspectedTls, processed⟩ := bind_ok processed
    obtain ⟨⟨systems, behaviorReports⟩, inspectedBehavior, processed⟩ := bind_ok processed
    obtain ⟨_, printed, processed⟩ := bind_ok processed
    cases processed
    exact .mk tracked httpApp app dns afterHttp afterDns afterTls systems httpReports dnsReports
      tlsReports behaviorReports track http inspectedHttp parsedDns tls inspectedTls
      inspectedBehavior printed
  · intro passes
    cases passes with
    | mk tracked httpApp app dns afterHttp afterDns afterTls systems httpReports dnsReports
        tlsReports behaviorReports track http inspectedHttp parsedDns tls inspectedTls
        inspectedBehavior printed =>
        simp only [Lcore.processFlow, track, http, inspectedHttp, parsedDns, tls,
          inspectedTls, inspectedBehavior, printed, ok_bind]

/-- What becomes of a packet before the flow is looked at. -/
inductive Received where
  | undecoded
  | noFlow (table : FlowTable)
  | inFlow (decoded : Decoded) (table : FlowTable) (flow : Flow)

/-- Decoding and `flow_get`. -/
def receive (env : Env) (table : FlowTable) (call : Call) : Received :=
  match decode call.mbuf with
  | none => .undecoded
  | some decoded =>
      if decoded.flags &&& Packets.PKT_DECODED_TCP ≠ 0 ∨
          decoded.flags &&& Packets.PKT_DECODED_UDP ≠ 0 then
        match flowGet env.rteHashCrc call.flow call.now table decoded.pkt with
        | (none, table) => .noFlow table
        | (some id, table) =>
            match table.find id with
            | none => .noFlow table
            | some flow => .inFlow decoded table flow
      else .noFlow table

/-- `process_packet` in full: the return value, the state after the call, and what it has
inspected. -/
def Lcore.processPacket (env : Env) (lcore : Lcore) (arrival : Arrival) :
    Except Fault (Int × Lcore × List Report) :=
  let lcore := { lcore with processed := lcore.processed + 1 }
  match receive env lcore.table arrival.toCall with
  | .undecoded => .ok (-1, lcore, [])
  | .noFlow table => .ok (0, { lcore with table }, [])
  | .inFlow decoded table flow =>
      (Lcore.processFlow env arrival decoded { lcore with table } flow).map
        fun (lcore, reports) => (0, lcore, reports)

/-- A packet that is processed is not decoded, or has no flow, or passes the stages on its
flow. -/
theorem processPacket_cases {env : Env} {lcore after : Lcore} {arrival : Arrival} {ret : Int}
    {reports : List Report}
    (processed : lcore.processPacket env arrival = .ok (ret, after, reports)) :
    (receive env lcore.table arrival.toCall = .undecoded ∧ ret = -1 ∧
      after = { lcore with processed := lcore.processed + 1 } ∧ reports = []) ∨
    (∃ table, receive env lcore.table arrival.toCall = .noFlow table ∧ ret = 0 ∧
      after = { lcore with table, processed := lcore.processed + 1 } ∧ reports = []) ∨
    ∃ decoded table flow,
      receive env lcore.table arrival.toCall = .inFlow decoded table flow ∧ ret = 0 ∧
      Passes env arrival decoded { lcore with table, processed := lcore.processed + 1 } flow
        after reports := by
  rw [Lcore.processPacket] at processed
  dsimp only at processed
  cases received : receive env lcore.table arrival.toCall with
  | undecoded =>
      rw [received] at processed
      cases processed
      exact Or.inl ⟨rfl, rfl, rfl, rfl⟩
  | noFlow table =>
      rw [received] at processed
      cases processed
      exact Or.inr (Or.inl ⟨table, rfl, rfl, rfl, rfl⟩)
  | inFlow decoded table flow =>
      rw [received] at processed
      obtain ⟨⟨_, _⟩, passes, same⟩ := map_ok processed
      cases same
      exact Or.inr (Or.inr ⟨decoded, table, flow, rfl, rfl, processFlow_iff.mp passes⟩)

/-- The inspections only read what the pipeline maintains. -/
theorem Passes.pipeline {env : Env} {arrival : Arrival} {decoded : Decoded}
    {lcore after : Lcore} {flow : Flow} {reports : List Report}
    (passes : Passes env arrival decoded lcore flow after reports) :
    processFlow env arrival.toCall decoded lcore.toState flow = .ok after.toState := by
  cases passes with
  | mk tracked httpApp app dns afterHttp afterDns afterTls systems httpReports dnsReports
      tlsReports behaviorReports track http inspectedHttp parsedDns tls inspectedTls
      inspectedBehavior printed =>
      rw [trackStage] at track
      dsimp only at track
      rw [processFlow]
      split at track
      next => cases track
      next updated reassembly update =>
        cases track
        simp only [update, http, tls]

theorem processPacket_receive (env : Env) (st : State) (call : Call) :
    processPacket env st call =
      match receive env st.table call with
      | .undecoded => .ok (-1, st)
      | .noFlow table => .ok (0, { st with table })
      | .inFlow decoded table flow =>
          (processFlow env call decoded { st with table } flow).map fun st => (0, st) := by
  rw [processPacket, receive]
  cases decode call.mbuf with
  | none => rfl
  | some decoded =>
      dsimp only
      split
      next =>
        generalize flowGet env.rteHashCrc call.flow call.now st.table decoded.pkt = got
        obtain ⟨id?, table⟩ := got
        cases id? with
        | none => rfl
        | some id =>
            dsimp only
            cases table.find id with
            | none => rfl
            | some flow =>
                dsimp only
                cases processFlow env call decoded { st with table } flow <;> rfl
      next => rfl

/-- `process_packet` in full does to the pipeline what the pipeline does alone. -/
theorem processPacket_pipeline {env : Env} {lcore after : Lcore} {arrival : Arrival} {ret : Int}
    {reports : List Report}
    (processed : lcore.processPacket env arrival = .ok (ret, after, reports)) :
    processPacket env lcore.toState arrival.toCall = .ok (ret, after.toState) := by
  rw [processPacket_receive]
  rcases processPacket_cases processed with ⟨received, rfl, rfl, -⟩ |
    ⟨table, received, rfl, rfl, -⟩ | ⟨decoded, table, flow, received, rfl, passes⟩
  · simp only [received]
  · simp only [received]
  · have pipeline := passes.pipeline
    simp only [received, pipeline]
    rfl

/-! ## Runs -/

/-- What `flow_free` takes the context of a flow for. -/
def freeContext (flow : Flow) (app : FlowApp) (dns : Option DnsParser.DnsConn) :
    Except Fault Unit :=
  let ctx := contextOf flow app dns
  if flow.proto = IPPROTO_TCP then
    match app.alproto with
    | .http => ctx.http.map fun _ => ()
    | .tls => ctx.tls.map fun _ => ()
    | _ => ctx.tcp.map fun _ => ()
  else if flow.proto = Packets.IPPROTO_UDP ∧ app.alproto = .dns then ctx.udp.map fun _ => ()
  else .ok ()

/-- What an lcore does. -/
inductive Event where
  | packet (arrival : Arrival)
  | cleanup (now : BitVec 64)

/-- The state after an event, and what was inspected. -/
def Event.run (env : Env) (lcore : Lcore) : Event → Except Fault (Lcore × List Report)
  | .packet arrival =>
      (lcore.processPacket env arrival).map fun (_, lcore, reports) => (lcore, reports)
  | .cleanup now => do
      (lcore.table.buckets.flatten.filter (shouldRemove now)).forM fun flow =>
        freeContext flow (lcore.apps flow.id) (lcore.dns flow.id)
      .ok ({ lcore with table := (flowCleanupExpired now lcore.table).2 }, [])

/-- The state after a list of events, and all inspections in their order. -/
def runEvents (env : Env) : Lcore → List Event → Except Fault (Lcore × List Report)
  | lcore, [] => .ok (lcore, [])
  | lcore, event :: events => do
      let (lcore, reports) ← event.run env lcore
      let (lcore, more) ← runEvents env lcore events
      .ok (lcore, reports ++ more)

section Runs

variable {env : Env} {lcore final : Lcore} {reports : List Report}

theorem run_packet_iff {arrival : Arrival} :
    Event.run env lcore (.packet arrival) = .ok (final, reports) ↔
      ∃ ret, lcore.processPacket env arrival = .ok (ret, final, reports) := by
  constructor
  · intro run
    obtain ⟨⟨ret, _, _⟩, processed, same⟩ := map_ok run
    cases same
    exact ⟨ret, processed⟩
  · rintro ⟨ret, processed⟩
    rw [Event.run, processed]
    rfl

theorem runEvents_cons_iff {event : Event} {events : List Event} :
    runEvents env lcore (event :: events) = .ok (final, reports) ↔
      ∃ middle first more, event.run env lcore = .ok (middle, first) ∧
        runEvents env middle events = .ok (final, more) ∧ reports = first ++ more := by
  constructor
  · intro run
    obtain ⟨⟨middle, first⟩, step, run⟩ := bind_ok run
    obtain ⟨⟨_, more⟩, rest, same⟩ := bind_ok run
    cases same
    exact ⟨middle, first, more, step, rest, rfl⟩
  · rintro ⟨middle, first, more, step, rest, rfl⟩
    rw [runEvents, step, ok_bind]
    dsimp only
    rw [rest]
    rfl

/-- A run on one list of events after another is a run on both. -/
theorem runEvents_append_iff {front back : List Event} :
    runEvents env lcore (front ++ back) = .ok (final, reports) ↔
      ∃ middle first second, runEvents env lcore front = .ok (middle, first) ∧
        runEvents env middle back = .ok (final, second) ∧ reports = first ++ second := by
  induction front generalizing lcore reports with
  | nil =>
      constructor
      · exact fun run => ⟨lcore, [], reports, rfl, run, rfl⟩
      · rintro ⟨middle, first, second, here, run, rfl⟩
        cases here
        exact run
  | cons event front inductionHypothesis =>
      rw [List.cons_append, runEvents_cons_iff]
      constructor
      · rintro ⟨next, here, later, step, run, rfl⟩
        obtain ⟨middle, first, second, inFront, inBack, rfl⟩ := inductionHypothesis.mp run
        exact ⟨middle, here ++ first, second,
          runEvents_cons_iff.mpr ⟨next, here, first, step, inFront, rfl⟩, inBack,
          (List.append_assoc ..).symm⟩
      · rintro ⟨middle, first, second, run, inBack, rfl⟩
        obtain ⟨next, here, later, step, inFront, rfl⟩ := runEvents_cons_iff.mp run
        exact ⟨next, here, later ++ second, step,
          inductionHypothesis.mpr ⟨middle, later, second, inFront, inBack, rfl⟩,
          List.append_assoc ..⟩

end Runs

end NetDefender.Bridge
