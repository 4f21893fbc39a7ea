import NetDefender.Bridge.Coherence
import NetDefender.Flow.Renaming

/-!
# An lcore beside another one

An lcore that has flows of other packets besides does to a packet what the lcore without
them does, and raises the same alerts, as long as both have room for a new flow and the same
detection systems.  The identities of the flows differ by what was handed out before.
-/

namespace NetDefender.Bridge

open NetDefender.Flows NetDefender.Behavior NetDefender.Rules NetDefender.Fallible

/-- The alerts of a list of inspections. -/
def raised (reports : List Report) : List Alert := reports.flatMap (·.alerts)

theorem raised_append (first second : List Report) :
    raised (first ++ second) = raised first ++ raised second :=
  List.flatMap_append

/-! ## Stages -/

/-- The same detection systems, and the same alerts. -/
def SameAlerts (done done' : Systems × List Report) : Prop :=
  done'.1 = done.1 ∧ raised done'.2 = raised done.2

section Stages

variable {env : Env} {arrival : Arrival} {decoded : Decoded} {flow : Flow} {offset : Nat}
variable {alproto : Proto.AppProto} {ctx : ProtoCtx} {systems : Systems}

/-- An inspection by rules reads the addresses and the ports of the flow. -/
theorem inspectRules_shift (check : EngineRule → CString.Bytes → Bool × CString.Bytes)
    (protocol : Proto.AppProto) (granted : Nat → Bool) (now : BitVec 64)
    (rules : List EngineRule) (index : Nat) (detail : CString.Bytes) (engine : RuleEngine) :
    inspectRules check protocol granted now (flow.shift offset) rules index detail engine =
      inspectRules check protocol granted now flow rules index detail engine := by
  induction rules generalizing index detail engine with
  | nil => rfl
  | cons rule rest inductionHypothesis =>
      have created : ∀ allocated engine detail,
          createAlert allocated now engine rule (flow.shift offset) detail =
            createAlert allocated now engine rule flow detail := fun _ _ _ => rfl
      simp only [inspectRules, created, inductionHypothesis]

/-- What is detected does not depend on what was counted before. -/
theorem detectStage_shift {stats other : Proto.DetectStats} {memory : Packets.Memory}
    {direction : Flows.Direction} {app : FlowApp} :
    (detectStage env other memory decoded (flow.shift offset) direction app).1 =
      (detectStage env stats memory decoded flow direction app).1 := by
  rw [detectStage, detectStage]
  split
  next =>
      obtain ⟨first, second⟩ := @Proto.protoDetectGetProto_result env.detectConfig env.registry
        stats other ⟨flow.srcPort, flow.dstPort⟩
        (fun index => memory (decoded.payloadAt + index)) (decoded.pkt.payloadLen.setWidth 32)
        (detectDir direction)
      dsimp only [Flow.shift]
      rw [first, second]
  next => rfl

theorem inspectHttp_shift :
    Alike SameAlerts (inspectHttp arrival flow alproto ctx systems)
      (inspectHttp arrival (flow.shift offset) alproto ctx systems) := by
  rw [inspectHttp, inspectHttp]
  split
  next =>
      refine Alike.map (Alike.refl (fun _ => rfl) ctx.http) ?_
      rintro conn? _ rfl
      cases conn? with
      | none => exact ⟨rfl, rfl⟩
      | some conn =>
          dsimp only
          generalize systems.start arrival = systems
          cases systems.engine with
          | none => exact ⟨rfl, rfl⟩
          | some engine =>
              cases conn.httpGetCurrentTransaction with
              | none => exact ⟨rfl, rfl⟩
              | some tx =>
                  simp only [ruleEngineInspectHttp, inspectRules_shift]
                  exact ⟨rfl, rfl⟩
  next => exact .ok ⟨rfl, rfl⟩

theorem dnsStage_shift {app : FlowApp} {dns : Option DnsParser.DnsConn} :
    Alike (fun done done' => done'.1 = done.1 ∧ SameAlerts done.2 done'.2)
      (dnsStage arrival decoded flow app dns systems)
      (dnsStage arrival decoded (flow.shift offset) app dns systems) := by
  rw [dnsStage, dnsStage]
  split
  next =>
      refine Alike.map (Alike.refl (fun _ => rfl) (contextOf flow app dns).udp) ?_
      rintro stored _ rfl
      dsimp only
      generalize stored.or (if arrival.dnsParser then some {} else none) = opened
      cases opened with
      | none => exact ⟨rfl, rfl, rfl⟩
      | some conn =>
          dsimp only
          split
          next =>
              generalize Logged.value (DnsParser.dnsParserParse arrival.dns conn _ _ false) = parsed
              obtain ⟨ret, conn⟩ := parsed
              dsimp only
              cases systems.engine with
              | none => exact ⟨rfl, rfl, rfl⟩
              | some engine =>
                  cases DnsParser.dnsGetLatestTransaction conn with
                  | none => exact ⟨rfl, rfl, rfl⟩
                  | some tx =>
                      dsimp only
                      rw [ruleEngineInspectDns, ruleEngineInspectDns, inspectRules_shift]
                      exact ⟨rfl, rfl, rfl⟩
          next => exact ⟨rfl, rfl, rfl⟩
  next => exact .ok ⟨rfl, rfl, rfl⟩

theorem inspectTls_shift :
    Alike SameAlerts (inspectTls arrival flow alproto ctx systems)
      (inspectTls arrival (flow.shift offset) alproto ctx systems) := by
  rw [inspectTls, inspectTls]
  split
  next =>
      refine Alike.map (Alike.refl (fun _ => rfl) ctx.tls) ?_
      rintro conn? _ rfl
      cases conn? with
      | none => exact ⟨rfl, rfl⟩
      | some conn =>
          dsimp only
          cases systems.engine with
          | none => exact ⟨rfl, rfl⟩
          | some engine =>
              cases conn.clientHello with
              | none => exact ⟨rfl, rfl⟩
              | some hello =>
                  simp only [ruleEngineInspectTls, inspectRules_shift]
                  exact ⟨rfl, rfl⟩
  next => exact .ok ⟨rfl, rfl⟩

theorem inspectBehavior_shift :
    Alike SameAlerts (inspectBehavior arrival decoded flow alproto ctx systems)
      (inspectBehavior arrival decoded (flow.shift offset) alproto ctx systems) := by
  rw [inspectBehavior, inspectBehavior]
  cases systems.engine with
  | none => exact .ok ⟨rfl, rfl⟩
  | some engine =>
      cases systems.detector with
      | none => exact .ok ⟨rfl, rfl⟩
      | some detector =>
          refine Alike.map (Alike.refl (fun _ => rfl) (inspectPacket arrival.behavior
            ⟨arrival.now, arrival.hour⟩ flow alproto ctx _ _ systems.packetCount
              { detector, engine })) ?_
          rintro ⟨packetCount, watch⟩ _ rfl
          exact ⟨rfl, rfl⟩

/-- What a packet makes of its flow, under both identities. -/
structure Tracked.Shifted (offset : Nat) (tracked tracked' : Tracked) : Prop where
  flow : tracked'.flow = tracked.flow.shift offset
  direction : tracked'.direction = tracked.direction
  app : tracked'.app = tracked.app

theorem trackStage_shift {call : Call} {st st' : State}
    (config : st'.table.config = st.table.config) (stream : st'.table.stream = st.table.stream)
    (apps : ∀ id, st'.apps (id + offset) = st.apps id) :
    Alike (Tracked.Shifted offset) (trackStage env call decoded st flow)
      (trackStage env call decoded st' (flow.shift offset)) := by
  have direction : getPacketDirection (flow.shift offset) decoded.pkt =
      getPacketDirection flow decoded.pkt := rfl
  rw [trackStage, trackStage, config, stream, direction]
  have updated := @flowUpdate_shift st.table.config st.table.stream call.update call.now
    st.table.reassembly st'.table.reassembly flow decoded.pkt
    (getPacketDirection flow decoded.pkt) offset
  dsimp only
  generalize flowUpdate st.table.config st.table.stream call.update call.now
    st.table.reassembly flow decoded.pkt (getPacketDirection flow decoded.pkt) = left
      at updated ⊢
  generalize flowUpdate st.table.config st.table.stream call.update call.now
    st'.table.reassembly (flow.shift offset) decoded.pkt
      (getPacketDirection flow decoded.pkt) = right at updated ⊢
  cases updated with
  | error fault => exact .error _
  | @ok done done' moved =>
      obtain ⟨flow, reassembly⟩ := done
      obtain ⟨flow', reassembly'⟩ := done'
      cases moved
      refine .ok ⟨rfl, rfl, ?_⟩
      dsimp only [Flow.shift]
      rw [apps]
      exact detectStage_shift

end Stages

/-! ## Two lcores -/

/-- An lcore with all that another one has, under moved identities, and with older flows that
none of the packets looks for. -/
structure Lcore.Beside (offset : Nat) (asked : Packet → Prop) (lcore other : Lcore) : Prop where
  table : FlowTable.Beside offset asked lcore.table other.table
  apps : ∀ id, other.apps (id + offset) = lcore.apps id
  dns : ∀ id, other.dns (id + offset) = lcore.dns id
  systems : other.systems = lcore.systems

section Packets

variable {env : Env} {offset : Nat} {asked : Packet → Prop} {lcore other after after' : Lcore}
variable {arrival : Arrival} {reports reports' : List Report}

theorem update_shift {α : Type} {left right : Nat → α}
    (same : ∀ id, right (id + offset) = left id) (changed : Nat) (value : α) (id : Nat) :
    Function.update right (changed + offset) value (id + offset) =
      Function.update left changed value id := by
  by_cases here : id = changed
  · rw [here, Function.update_self, Function.update_self]
  · rw [Function.update_of_ne here, Function.update_of_ne fun bad => here (by omega), same]

/-- The stages on a flow, beside others. -/
theorem Passes.beside {decoded : Decoded} {flow : Flow}
    (uniform : ∀ id, env.rteMalloc (id + offset) = env.rteMalloc id)
    (beside : Lcore.Beside offset asked lcore other)
    (passes : Passes env arrival decoded lcore flow after reports)
    (passes' : Passes env arrival decoded other (flow.shift offset) after' reports') :
    Lcore.Beside offset asked after after' ∧ raised reports' = raised reports := by
  cases passes with
  | mk tracked httpApp app dns afterHttp afterDns afterTls systems httpReports dnsReports
      tlsReports behaviorReports track http inspectedHttp parsedDns tls inspectedTls
      inspectedBehavior printed =>
  cases passes' with
  | mk tracked' httpApp' app' dns' afterHttp' afterDns' afterTls' systems' httpReports'
      dnsReports' tlsReports' behaviorReports' track' http' inspectedHttp' parsedDns' tls'
      inspectedTls' inspectedBehavior' printed' =>
  have shifted := @trackStage_shift env decoded flow offset arrival.toCall lcore.toState
    other.toState beside.table.config beside.table.stream beside.apps
  obtain ⟨sameFlow, sameDirection, sameApp⟩ := shifted.of_ok track track'
  have sameDns : other.dns tracked'.flow.id = lcore.dns tracked.flow.id := by
    rw [sameFlow]
    exact beside.dns _
  have sameMalloc : env.rteMalloc tracked'.flow.id = env.rteMalloc tracked.flow.id := by
    rw [sameFlow]
    exact uniform _
  rw [sameDns] at inspectedHttp' parsedDns'
  rw [tlsStage, sameMalloc] at tls'
  rw [sameFlow] at http' inspectedHttp' parsedDns' tls' inspectedTls' inspectedBehavior'
  rw [sameDirection] at http' tls'
  rw [sameApp] at http'
  obtain rfl : httpApp' = httpApp := Except.ok.inj (http'.symm.trans http)
  obtain rfl : app' = app := Except.ok.inj (tls'.symm.trans tls)
  rw [beside.systems] at inspectedHttp'
  obtain ⟨sameHttp, alertsHttp⟩ := inspectHttp_shift.of_ok inspectedHttp inspectedHttp'
  obtain rfl : afterHttp' = afterHttp := sameHttp
  obtain ⟨sameConn, sameDns, alertsDns⟩ := dnsStage_shift.of_ok parsedDns parsedDns'
  obtain rfl : dns' = dns := sameConn
  obtain rfl : afterDns' = afterDns := sameDns
  obtain ⟨sameTls, alertsTls⟩ := inspectTls_shift.of_ok inspectedTls inspectedTls'
  obtain rfl : afterTls' = afterTls := sameTls
  obtain ⟨sameSystems, alertsBehavior⟩ :=
    inspectBehavior_shift.of_ok inspectedBehavior inspectedBehavior'
  constructor
  · constructor
    case table =>
      have released : (flowRelease tracked.flow).id = tracked.flow.id :=
        congrArg FlowKey.id (flowRelease_key tracked.flow)
      have modified := beside.table.modify (flowRelease tracked.flow) tracked.reassembly
        tracked'.reassembly
      rw [released, ← flowRelease_shift, ← sameFlow] at modified
      rw [sameFlow]
      rw [sameFlow] at modified
      exact modified
    case apps =>
      rw [sameFlow]
      exact update_shift beside.apps tracked.flow.id app'
    case dns =>
      rw [sameFlow]
      exact update_shift beside.dns tracked.flow.id dns'
    case systems => exact sameSystems
  · dsimp only at alertsHttp alertsDns alertsTls alertsBehavior
    rw [raised_append, raised_append, raised_append, raised_append, raised_append,
      raised_append, alertsHttp, alertsDns, alertsTls, alertsBehavior]

/-- There is room for one more flow. -/
def Lcore.HasRoom (lcore : Lcore) : Prop :=
  lcore.table.stats.flowsActive < lcore.table.config.maxFlows.setWidth 64

/-- What becomes of a packet in two tables, one beside the other. -/
inductive Received.Beside (offset : Nat) (asked : Packet → Prop) : Received → Received → Prop where
  | undecoded : Received.Beside offset asked .undecoded .undecoded
  | noFlow {table other : FlowTable} (tables : FlowTable.Beside offset asked table other) :
      Received.Beside offset asked (.noFlow table) (.noFlow other)
  | inFlow {decoded : Decoded} {table other : FlowTable} {flow : Flow}
      (tables : FlowTable.Beside offset asked table other) :
      Received.Beside offset asked (.inFlow decoded table flow)
        (.inFlow decoded other (flow.shift offset))

/-- A packet that no older flow is for finds the same flow, or opens one. -/
theorem FlowTable.Beside.receive {table other : FlowTable} {call : Call}
    (beside : FlowTable.Beside offset asked table other)
    (asks : ∀ decoded, decode call.mbuf = some decoded → asked decoded.pkt)
    (room : table.stats.flowsActive < table.config.maxFlows.setWidth 64)
    (room' : other.stats.flowsActive < other.config.maxFlows.setWidth 64) :
    Received.Beside offset asked (receive env table call) (receive env other call) := by
  rw [Bridge.receive, Bridge.receive]
  cases accepted : decode call.mbuf with
  | none => exact .undecoded
  | some decoded =>
      dsimp only
      by_cases transport : decoded.flags &&& Packets.PKT_DECODED_TCP ≠ 0 ∨
          decoded.flags &&& Packets.PKT_DECODED_UDP ≠ 0
      · rw [if_pos transport, if_pos transport]
        obtain ⟨sameId, tables⟩ := @FlowTable.Beside.get offset asked table other env.rteHashCrc
          call.flow call.now decoded.pkt beside (asks decoded accepted) room room'
        generalize flowGet env.rteHashCrc call.flow call.now table decoded.pkt = got
          at sameId tables ⊢
        generalize flowGet env.rteHashCrc call.flow call.now other decoded.pkt = got'
          at sameId tables ⊢
        obtain ⟨id?, table⟩ := got
        obtain ⟨id?', other⟩ := got'
        dsimp only at sameId tables
        subst sameId
        cases id? with
        | none => exact .noFlow tables
        | some id =>
            have found := tables.find id
            dsimp only [Option.map_some]
            rw [found]
            cases table.find id with
            | none => exact .noFlow tables
            | some flow => exact .inFlow tables
      · rw [if_neg transport, if_neg transport]
        exact .noFlow beside

/-- A packet that no older flow is for. -/
theorem Lcore.Beside.packet {ret ret' : Int}
    (uniform : ∀ id, env.rteMalloc (id + offset) = env.rteMalloc id)
    (beside : Lcore.Beside offset asked lcore other)
    (asks : ∀ decoded, decode arrival.mbuf = some decoded → asked decoded.pkt)
    (room : lcore.HasRoom) (room' : other.HasRoom)
    (run : lcore.processPacket env arrival = .ok (ret, after, reports))
    (run' : other.processPacket env arrival = .ok (ret', after', reports')) :
    Lcore.Beside offset asked after after' ∧ raised reports' = raised reports := by
  have received := @FlowTable.Beside.receive env offset asked lcore.table other.table
    arrival.toCall beside.table asks room room'
  rcases processPacket_cases run with ⟨here, -, rfl, rfl⟩ | ⟨table, here, -, rfl, rfl⟩ |
    ⟨decoded, table, flow, here, -, passes⟩
  all_goals
    rcases processPacket_cases run' with ⟨there, -, rfl, rfl⟩ | ⟨table', there, -, rfl, rfl⟩ |
      ⟨decoded', table', flow', there, -, passes'⟩
  all_goals
    rw [here, there] at received
    cases received
  case inl.inl => exact ⟨⟨beside.table, beside.apps, beside.dns, beside.systems⟩, rfl⟩
  case inr.inl.inr.inl tables => exact ⟨⟨tables, beside.apps, beside.dns, beside.systems⟩, rfl⟩
  case inr.inr.inr.inr tables =>
    have counted : Lcore.Beside offset asked
        { lcore with table, processed := lcore.processed + 1 }
        { other with table := table', processed := other.processed + 1 } :=
      ⟨tables, beside.apps, beside.dns, beside.systems⟩
    exact Passes.beside uniform counted passes passes'

/-- There is room for one more flow whenever a packet comes. -/
def RoomThroughout (env : Env) (lcore : Lcore) (arrivals : List Arrival) : Prop :=
  ∀ front arrival back middle reports, arrivals = front ++ arrival :: back →
    runEvents env lcore (front.map .packet) = .ok (middle, reports) → middle.HasRoom

theorem RoomThroughout.tail {arrivals : List Arrival} {middle : Lcore}
    (room : RoomThroughout env lcore (arrival :: arrivals))
    (step : Event.run env lcore (.packet arrival) = .ok (middle, reports)) :
    RoomThroughout env middle arrivals := by
  intro front next back last more split run
  exact room (arrival :: front) next back last (reports ++ more)
    (by rw [split, List.cons_append])
    (runEvents_cons_iff.mpr ⟨middle, reports, more, step, run, rfl⟩)

/-- A run on packets that no older flow is for. -/
theorem Lcore.Beside.run {arrivals : List Arrival}
    (uniform : ∀ id, env.rteMalloc (id + offset) = env.rteMalloc id)
    (beside : Lcore.Beside offset asked lcore other)
    (asks : ∀ arrival ∈ arrivals, ∀ decoded, decode arrival.mbuf = some decoded →
      asked decoded.pkt)
    (room : RoomThroughout env lcore arrivals) (room' : RoomThroughout env other arrivals)
    (run : runEvents env lcore (arrivals.map .packet) = .ok (after, reports))
    (run' : runEvents env other (arrivals.map .packet) = .ok (after', reports')) :
    raised reports' = raised reports := by
  induction arrivals generalizing lcore other reports reports' with
  | nil =>
      cases run
      cases run'
      rfl
  | cons arrival arrivals inductionHypothesis =>
      obtain ⟨middle, first, more, step, rest, rfl⟩ := runEvents_cons_iff.mp run
      obtain ⟨middle', first', more', step', rest', rfl⟩ := runEvents_cons_iff.mp run'
      obtain ⟨ret, processed⟩ := run_packet_iff.mp step
      obtain ⟨ret', processed'⟩ := run_packet_iff.mp step'
      obtain ⟨beside', alerts⟩ := beside.packet uniform (asks arrival List.mem_cons_self)
        (room [] arrival arrivals lcore [] rfl rfl) (room' [] arrival arrivals other [] rfl rfl)
        processed processed'
      have later := inductionHypothesis beside'
        (fun next member => asks next (List.mem_cons_of_mem arrival member))
        (room.tail step) (room'.tail step') rest rest'
      rw [raised_append, raised_append, alerts, later]

end Packets

end NetDefender.Bridge
