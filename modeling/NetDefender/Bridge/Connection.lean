import NetDefender.Bridge.Process
import NetDefender.Flow.Counts
import NetDefender.Packet.Bounds
import NetDefender.Stream.InOrder
import NetDefender.Tls.Records

/-!
# One packet of an established connection

What `process_packet` does with a packet to the server, on a connection that is
established and known to speak TLS: the payload is passed to the to-server buffer, and
the parser is called on everything that is then in it.
-/

namespace NetDefender.Bridge

open NetDefender.Flows NetDefender.Stream Serial

/-! ## Packets in order -/

/-- The payload of a packet. -/
def Decoded.payload (decoded : Decoded) : List UInt8 := decoded.pkt.payload.getD []

/-- The payload length of a decoded packet is the length of its payload. -/
theorem decode_payloadLen {mbuf : Mbuf} {decoded : Decoded}
    (accepted : decode mbuf = some decoded) :
    decoded.pkt.payloadLen.toNat = decoded.payload.length := by
  have sized : (Packets.decodePacket mbuf.memory mbuf.pktLen).2.info.Sized :=
    Packets.decodePacket_sized
  rw [decode] at accepted
  generalize Packets.decodePacket mbuf.memory mbuf.pktLen = result at accepted sized
  obtain ⟨ret, decodedInfo⟩ := result
  dsimp only at accepted sized
  split at accepted
  next => cases accepted
  next =>
    cases accepted
    rw [Decoded.payload, packetOf]
    dsimp only
    cases payload : decodedInfo.info.payload with
    | none =>
        rw [sized payload]
        rfl
    | some offset => simp

/-- The mbuf holds a TCP packet with this tuple, header and payload. -/
structure Carries (tuple : FlowTuple) (mbuf : Mbuf) (hdr : TcpHdr)
    (payload : List UInt8) (decoded : Decoded) : Prop where
  accepted : decode mbuf = some decoded
  isTcp : decoded.flags &&& Packets.PKT_DECODED_TCP ≠ 0
  isIp : decoded.pkt.IsIp
  tuple : decoded.pkt.tuple = tuple
  header : decoded.pkt.tcpHdr = some hdr
  payload : decoded.payload = payload

/-- Calls with the packets that one side sends in order, the first one with the given
sequence number: each continues where the one before it ends. -/
inductive InOrder (tuple : FlowTuple) :
    BitVec 32 → List Call → List (List UInt8) → Prop where
  | nil (seq : BitVec 32) : InOrder tuple seq [] []
  | cons {call : Call} {hdr : TcpHdr} {payload : List UInt8} {decoded : Decoded}
      {seq : BitVec 32} {calls : List Call} {payloads : List (List UInt8)}
      (carries : Carries tuple call.mbuf hdr payload decoded) (start : hdr.sentSeq = seq)
      (rest : InOrder tuple (seq + BitVec.ofNat 32 payload.length) calls payloads) :
      InOrder tuple seq (call :: calls) (payload :: payloads)

/-- The packet does not close the connection. -/
def Call.Quiet (call : Call) : Prop :=
  ∀ decoded ∈ decode call.mbuf, ∀ hdr ∈ decoded.pkt.tcpHdr,
    hasFlag hdr.tcpFlags RTE_TCP_FIN_FLAG = false ∧
      hasFlag hdr.tcpFlags RTE_TCP_RST_FLAG = false

/-! ## Refused payloads -/

/-- The payload is the next one, and the buffer has no room for it. -/
def Full (insertion : InsertCall) : Prop :=
  ∃ payload ∈ insertion.payload,
    let segment : Incoming := ⟨insertion.seq, payload, insertion.payloadLen⟩
    ¬segment.BeforeBase insertion.sb ∧
      (segment.fromBase insertion.sb).seq = insertion.sb.nextSeq ∧
      (segment.fromBase insertion.sb).Overflows insertion.sb

/-- The call of `stream_buffer_insert_segment` in a call of `process_packet`. -/
def Call.insertion (env : Env) (st : State) (call : Call) : Option InsertCall :=
  match decode call.mbuf with
  | none => none
  | some decoded =>
      if decoded.flags &&& Packets.PKT_DECODED_TCP ≠ 0 ∨
          decoded.flags &&& Packets.PKT_DECODED_UDP ≠ 0 then
        match flowGet env.rteHashCrc call.flow call.now st.table decoded.pkt with
        | (none, _) => none
        | (some id, table) =>
            match table.find id with
            | none => none
            | some flow =>
                Update.insertion table.stream flow
                  { alloc := call.update
                    now := call.now
                    pkt := decoded.pkt
                    direction := getPacketDirection flow decoded.pkt }
      else none

/-! ## The insertion of a payload -/

section Insertion

variable {bytes payload : List UInt8} {sb : StreamBuffer} {hdr : TcpHdr} {pkt : Packet}

theorem payload_present (given : pkt.payload.getD [] = payload) (nonempty : payload ≠ []) :
    pkt.payload = some payload := by
  cases found : pkt.payload with
  | none =>
      rw [found] at given
      exact absurd given.symm nonempty
  | some carried =>
      rw [found] at given
      exact congrArg some given

theorem payloadLen_pos_iff (length : pkt.payloadLen.toNat = payload.length) :
    pkt.payloadLen > 0 ↔ payload ≠ [] := by
  have zero : (0 : BitVec 16).toNat = 0 := rfl
  rw [gt_iff_lt, BitVec.lt_def, zero, length, List.length_pos_iff]

/-- The insertion of the next payload, if the buffer has room for it. -/
theorem insertPayload_gathered (config : StreamConfig) (alloc : Allocation)
    (stats : ReassemblyStats) (gathered : Gathered bytes sb)
    (near : sb.maxBufferSize.toNat + 2 ^ 16 ≤ 2 ^ 31) (inOrder : hdr.sentSeq = sb.nextSeq)
    (given : pkt.payload.getD [] = payload)
    (length : pkt.payloadLen.toNat = payload.length)
    (room : bytes.length + payload.length ≤ sb.maxBufferSize.toNat) :
    ∃ after stats', insertPayload config alloc .established hdr pkt stats (some sb) =
        .ok (some after, stats') ∧
      after.maxBufferSize = sb.maxBufferSize ∧ after.baseSeq = sb.baseSeq ∧
      Gathered (bytes ++ payload) after := by
  have positive := payloadLen_pos_iff length
  rw [insertPayload]
  by_cases empty : payload = []
  · rw [if_neg fun passed => positive.mp passed.1 empty]
    refine ⟨sb, stats, rfl, rfl, rfl, ?_⟩
    rw [empty, List.append_nil]
    exact gathered
  · have present : pkt.payload = some payload := payload_present given empty
    rw [if_pos ⟨positive.mpr empty, rfl, gathered.live⟩, present]
    obtain ⟨ret, st, equation, effect⟩ := streamBufferInsertSegment_effect config alloc
      { sb, stats } ⟨hdr.sentSeq, payload, pkt.payloadLen⟩ gathered.favors
    obtain ⟨sameMax, sameBase, after⟩ :=
      gathered.insertEffect near inOrder length empty effect
    rw [if_neg (not_lt.mpr room)] at after
    rw [equation]
    exact ⟨st.sb, st.stats, rfl, sameMax, sameBase, after⟩

/-- The payload of the next packet is refused if there is no room for it. -/
theorem full_iff_gathered (gathered : Gathered bytes sb)
    (near : sb.maxBufferSize.toNat + 2 ^ 16 ≤ 2 ^ 31) (inOrder : hdr.sentSeq = sb.nextSeq)
    (given : pkt.payload.getD [] = payload)
    (length : pkt.payloadLen.toNat = payload.length) :
    (∃ insertion ∈ payloadCall .established hdr pkt (some sb), Full insertion) ↔
      sb.maxBufferSize.toNat < bytes.length + payload.length := by
  have bounded := gathered.bounded
  have positive := payloadLen_pos_iff length
  rw [payloadCall]
  by_cases empty : payload = []
  · rw [if_neg fun passed => positive.mp passed.1 empty, empty, List.length_nil,
      Nat.add_zero]
    constructor
    · rintro ⟨insertion, member, _⟩
      cases member
    · intro full
      exact absurd full (not_lt.mpr bounded)
  · have present : pkt.payload = some payload := payload_present given empty
    obtain ⟨live, whole, overflows⟩ := gathered.nextSegment near inOrder length empty
    rw [if_pos ⟨positive.mpr empty, rfl, gathered.live⟩, ← overflows]
    constructor
    · rintro ⟨insertion, ⟨⟩, carried, member, _, _, full⟩
      dsimp only at member full
      rw [present] at member
      cases member
      rw [whole] at full
      exact full
    · intro full
      refine ⟨_, rfl, payload, present, live, ?_, ?_⟩
      · rw [whole]
        exact inOrder
      · rw [whole]
        exact full

/-- A buffer that waits for the byte before the first one is never full. -/
theorem not_full_waiting {base : BitVec 32} (waiting : Waiting base sb)
    (start : 0 < offset base hdr.sentSeq)
    (stop : offset base hdr.sentSeq + pkt.payloadLen.toNat ≤ 2 ^ 32) {insertion : InsertCall}
    (made : insertion ∈ payloadCall .established hdr pkt (some sb)) : ¬Full insertion := by
  rw [payloadCall] at made
  split at made
  next =>
    cases made
    rintro ⟨payload, _, live, next, _⟩
    obtain ⟨whole, _⟩ := waiting.untrimmed start stop live
    rw [whole] at next
    exact waiting.seq_ne_next start next
  next => cases made

end Insertion

/-! ## One packet -/

theorem getPacketDirection_toserver {flow : Flow} {pkt : Packet} (isIp : pkt.IsIp)
    (same : pkt.tuple = flow.tuple) : getPacketDirection flow pkt = .toserver := by
  have other : (6 : BitVec 8) ≠ 4 := by decide
  rcases isIp with version | version
  · simp only [Packet.tuple, version, if_true] at same
    have address := congrArg (fun tuple => tuple.srcAddr.word0) same
    have port := congrArg FlowTuple.srcPort same
    rw [getPacketDirection, if_pos version]
    exact if_pos ⟨address.symm, port.symm⟩
  · simp only [Packet.tuple, version, if_neg other, if_true] at same
    have address := congrArg FlowTuple.srcAddr same
    have port := congrArg FlowTuple.srcPort same
    rw [getPacketDirection, if_neg (by rw [version]; exact other), if_pos version]
    exact if_pos ⟨address.symm, port.symm⟩

theorem detectStage_known {env : Env} {stats : Proto.DetectStats}
    {memory : Packets.Memory} {decoded : Decoded} {flow : Flow}
    {direction : Flows.Direction} {app : FlowApp} (known : app.alproto ≠ .unknown) :
    detectStage env stats memory decoded flow direction app = (app, stats) := by
  rw [detectStage, if_neg fun passed => known passed.1]

theorem parserStage_other {proto : Proto.AppProto} {fresh : AppParser}
    {parse : AppParser → Option (List UInt8) → Except Fault AppParser} {granted : Bool}
    {flow : Flow} {direction : Flows.Direction} {app : FlowApp}
    (other : app.alproto ≠ proto) :
    parserStage proto fresh parse granted flow direction app = .ok app := by
  rw [parserStage]
  cases flow.tcp with
  | none => rfl
  | some tcp => exact if_neg other

theorem flowRelease_session (flow : Flow) :
    (flowRelease flow).proto = flow.proto ∧ (flowRelease flow).tcp = flow.tcp := by
  rw [flowRelease]
  split <;> exact ⟨rfl, rfl⟩

theorem modify_member {table : FlowTable} {flow : Flow} (change : Flow → Flow)
    (member : flow ∈ table.flows) :
    change flow ∈ (table.modify flow.id change).flows := by
  rw [table.modify_flows]
  refine List.mem_map.mpr ⟨flow, member, ?_⟩
  rw [changeFlow, if_pos rfl]

/-- What the parser is called on: the buffer has its memory, and these bytes are in
it. -/
structure Holds (bytes : List UInt8) (sb : StreamBuffer) : Prop where
  live : sb.data ≠ none
  data : sb.getData = bytes
  length : sb.dataLen.toNat = bytes.length

section Session

variable {bytes : List UInt8} {sb after : StreamBuffer} {tcp : TcpSession} {hdr : TcpHdr}
variable {pkt : Packet}

theorem holds_gathered (gathered : Gathered bytes sb) : Holds bytes sb :=
  ⟨gathered.live, gathered.data, gathered.length⟩

theorem holds_waiting {base : BitVec 32} (waiting : Waiting base sb) : Holds [] sb :=
  ⟨waiting.live, waiting.getData, congrArg BitVec.toNat waiting.empty⟩

theorem nextState_quiet (flags : BitVec 8) (direction : Flows.Direction)
    (noFin : hasFlag flags RTE_TCP_FIN_FLAG = false)
    (noRst : hasFlag flags RTE_TCP_RST_FLAG = false) :
    nextState .established flags direction = .established := by
  simp [nextState, noFin, noRst]

/-- An established session passes a payload on to its to-server buffer. -/
theorem updateSession_quiet {config : StreamConfig} {alloc : UpdateAllocation}
    {stats stats' : ReassemblyStats} (state : tcp.state = .established)
    (buffer : tcp.toserverSb = some sb)
    (noFin : hasFlag hdr.tcpFlags RTE_TCP_FIN_FLAG = false)
    (noRst : hasFlag hdr.tcpFlags RTE_TCP_RST_FLAG = false)
    (inserted : insertPayload config alloc.insert .established hdr pkt stats (some sb) =
      .ok (some after, stats')) :
    updateSession config alloc stats tcp hdr pkt .toserver =
      .ok (⟨.established, tcp.segCnt + 1, tcp.byteCnt + pkt.payloadLen.toNat, some after,
        tcp.toclientSb⟩, stats') := by
  have notSent : TcpState.established ≠ .synSent := by decide
  have notRecv : TcpState.established ≠ .synRecv := by decide
  simp only [updateSession, state, nextState_quiet _ _ noFin noRst,
    initStreamBuffer_other _ notSent, initStreamBuffer_other _ notRecv, buffer, inserted]

theorem streamData_toserver (holds : Holds bytes sb) (buffer : tcp.toserverSb = some sb) :
    streamData tcp .toserver = if bytes = [] then none else some bytes := by
  have length := holds.length
  simp only [streamData, TcpSession.buffer, buffer, holds.data]
  by_cases empty : bytes = []
  · rw [empty, List.length_nil] at length
    have zero : sb.dataLen = 0 := BitVec.eq_of_toNat_eq length
    simp [empty, zero]
  · have positive : sb.dataLen > 0 := by
      have zero : (0 : BitVec 32).toNat = 0 := rfl
      rw [gt_iff_lt, BitVec.lt_def, zero, length]
      exact List.length_pos_iff.mpr empty
    rw [if_pos ⟨holds.live, positive⟩, if_neg empty]

/-- The parser counts the records that the buffer holds, new or not. -/
theorem tlsStage_counts {flow : Flow} {app : FlowApp} {conn : Tls.TlsState} (env : Env)
    (call : Call) (session : flow.tcp = some tcp) (buffer : tcp.toserverSb = some sb)
    (holds : Holds bytes sb) (alproto : app.alproto = .tls)
    (parser : app.appParser = some (.tls conn)) :
    ∃ reached, tlsStage env call flow .toserver app =
        .ok { app with appParser := some (.tls reached) } ∧
      reached.conn.recordsParsed =
        conn.conn.recordsParsed + (Tls.records.frames bytes).length := by
  simp only [tlsStage, parserStage, session, alproto, parser, Option.some_or, if_true,
    streamData_toserver holds buffer]
  by_cases empty : bytes = []
  · refine ⟨conn, ?_, ?_⟩
    · rw [if_pos empty]
      rfl
    · rw [empty, Framing.frames_nil]
      rfl
  · rw [if_neg empty]
    exact ⟨_, rfl, Tls.tlsParserParse_recordsParsed env.md5 (env.rteMalloc flow.id) _ conn
      empty⟩

end Session

/-- A TLS connection in the table, with its to-server buffer and its parser. -/
structure Streaming (env : Env) (st : State) (flow : Flow) (sb : StreamBuffer)
    (conn : Tls.TlsState) : Prop where
  tallied : Tallied env.rteHashCrc st.table
  keyed : Keyed st.table
  member : flow ∈ st.table.flows
  proto : flow.proto = IPPROTO_TCP
  session : ∃ tcp, flow.tcp = some tcp ∧ tcp.state = .established ∧
    tcp.toserverSb = some sb
  alproto : (st.apps flow.id).alproto = .tls
  parser : (st.apps flow.id).appParser = some (.tls conn)

namespace Streaming

variable {env : Env} {st : State} {flow : Flow} {sb : StreamBuffer} {conn : Tls.TlsState}

/-- `flow_get` takes a reference to the flow of the connection. -/
theorem getFlow (streaming : Streaming env st flow sb conn) (call : Call)
    {decoded : Decoded} (isIp : decoded.pkt.IsIp) (tuple : decoded.pkt.tuple = flow.tuple) :
    flowGet env.rteHashCrc call.flow call.now st.table decoded.pkt =
        (some flow.id, st.table.modify flow.id Flow.retain) ∧
      Tallied env.rteHashCrc (st.table.modify flow.id Flow.retain) ∧
      Keyed (st.table.modify flow.id Flow.retain) ∧
      flow.retain ∈ (st.table.modify flow.id Flow.retain).flows ∧
      (st.table.modify flow.id Flow.retain).find flow.id = some flow.retain := by
  have tallied : Tallied env.rteHashCrc (st.table.modify flow.id Flow.retain) :=
    streaming.tallied.change st.table.reassembly (fun _ _ _ => rfl)
      fun flow present => streaming.tallied.ready flow present
  have member := modify_member Flow.retain streaming.member
  exact ⟨streaming.tallied.get_found streaming.keyed call.flow call.now streaming.member
    isIp tuple, tallied,
    Tallied.change_keyed streaming.keyed st.table.reassembly fun _ _ _ => rfl, member,
    tallied.find_eq member⟩

section Step

variable {call : Call} {hdr : TcpHdr} {payload bytes : List UInt8} {decoded : Decoded}

theorem insertion_eq (streaming : Streaming env st flow sb conn)
    (carries : Carries flow.tuple call.mbuf hdr payload decoded) (quiet : call.Quiet) :
    call.insertion env st = payloadCall .established hdr decoded.pkt (some sb) := by
  obtain ⟨tcp, session, state, buffer⟩ := streaming.session
  obtain ⟨noFin, noRst⟩ := quiet decoded carries.accepted hdr carries.header
  obtain ⟨got, _, _, _, found⟩ := streaming.getFlow call carries.isIp carries.tuple
  have direction : getPacketDirection flow.retain decoded.pkt = .toserver :=
    getPacketDirection_toserver carries.isIp carries.tuple
  have proto : flow.retain.proto = IPPROTO_TCP := streaming.proto
  have retained : flow.retain.tcp = some tcp := session
  have notSent : TcpState.established ≠ .synSent := by decide
  simp only [Call.insertion, carries.accepted, got, found, direction, Update.insertion,
    proto, retained, carries.header, if_true]
  rw [if_pos (Or.inl carries.isTcp), TcpSession.insertion, TcpSession.prepared, state,
    nextState_quiet _ _ noFin noRst, Direction.setUpState, TcpSession.buffer,
    initStreamBuffer_other _ notSent, buffer]

/-- One packet: the buffer becomes what the insertion makes of it, and the parser counts
all records that are then in it. -/
theorem step (streaming : Streaming env st flow sb conn)
    (carries : Carries flow.tuple call.mbuf hdr payload decoded) (quiet : call.Quiet)
    {sb' : StreamBuffer} {reassembly : ReassemblyStats}
    (inserted : insertPayload st.table.stream call.update.insert .established hdr
      decoded.pkt st.table.reassembly (some sb) = .ok (some sb', reassembly))
    (holds : Holds bytes sb') :
    ∃ next flow' reached, call.run env st = .ok next ∧ flow'.key = flow.key ∧
      Streaming env next flow' sb' reached ∧
      reached.conn.recordsParsed =
        conn.conn.recordsParsed + (Tls.records.frames bytes).length := by
  obtain ⟨tcp, session, state, buffer⟩ := streaming.session
  obtain ⟨noFin, noRst⟩ := quiet decoded carries.accepted hdr carries.header
  obtain ⟨got, tallied, keyed, member, found⟩ :=
    streaming.getFlow call carries.isIp carries.tuple
  have direction : getPacketDirection flow.retain decoded.pkt = .toserver :=
    getPacketDirection_toserver carries.isIp carries.tuple
  have proto : flow.retain.proto = IPPROTO_TCP := streaming.proto
  have retained : flow.retain.tcp = some tcp := session
  have update := updateSession_quiet state buffer noFin noRst inserted
  obtain ⟨flow', updated, proto', session'⟩ := flowUpdate_tcp st.table.config call.now
    proto retained carries.header update
  have key : flow'.key = flow.retain.key := flowUpdate_key updated
  have id : flow'.id = flow.id := congrArg FlowKey.id key
  have alproto := streaming.alproto
  have known : (st.apps flow.id).alproto ≠ .unknown := by
    rw [alproto]
    decide
  have notHttp : (st.apps flow.id).alproto ≠ .http := by
    rw [alproto]
    decide
  obtain ⟨reached, parsed, counted⟩ :=
    tlsStage_counts env call session' rfl holds alproto streaming.parser
  have sameConfig : (st.table.modify flow.id Flow.retain).config = st.table.config := rfl
  have sameStream : (st.table.modify flow.id Flow.retain).stream = st.table.stream := rfl
  have sameStats :
      (st.table.modify flow.id Flow.retain).reassembly = st.table.reassembly := rfl
  generalize st.table.modify flow.id Flow.retain = middle
    at got tallied keyed member found sameConfig sameStream sameStats
  have run : call.run env st = .ok
      { table := { middle.modify flow.id fun _ => flowRelease flow' with reassembly }
        apps := Function.update st.apps flow.id
          { st.apps flow.id with appParser := some (.tls reached) }
        detectStats := st.detectStats } := by
    simp only [Call.run, processPacket, carries.accepted, got, found, processFlow,
      direction, sameConfig, sameStream, sameStats, updated, id, detectStage_known known,
      httpStage, parserStage_other notHttp, parsed]
    rw [if_pos (Or.inl carries.isTcp)]
    rfl
  have released : (flowRelease flow').key = flow.retain.key :=
    (flowRelease_key flow').trans key
  have releasedId : (flowRelease flow').id = flow.id := congrArg FlowKey.id released
  obtain ⟨sameProto, sameTcp⟩ := flowRelease_session flow'
  have keeps : ∀ other ∈ middle.flows, other.id = flow.id →
      (flowRelease flow').key = other.key := by
    intro other present same
    rw [tallied.same_flow present member same, released]
  have ready : (flowRelease flow').Ready := by
    obtain ⟨_, again, ready, _⟩ := flowUpdate_ok st.table.config st.table.stream
      call.update call.now st.table.reassembly decoded.pkt .toserver
      (tallied.ready _ member)
    rw [updated] at again
    cases again
    rw [Flow.Ready, sameTcp]
    exact ready
  refine ⟨_, flowRelease flow', reached, run, released, ?_, counted⟩
  constructor
  case tallied => exact tallied.change reassembly keeps fun _ _ => ready
  case keyed => exact Tallied.change_keyed keyed reassembly keeps
  case member => exact @modify_member middle flow.retain (fun _ => flowRelease flow') member
  case proto => exact sameProto.trans proto'
  case session => exact ⟨_, sameTcp.trans session', rfl, rfl⟩
  case alproto =>
    dsimp only
    rw [releasedId, Function.update_self]
    exact alproto
  case parser =>
    dsimp only
    rw [releasedId, Function.update_self]

end Step

end Streaming

end NetDefender.Bridge
