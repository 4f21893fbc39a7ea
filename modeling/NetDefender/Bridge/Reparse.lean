import NetDefender.Bridge.Connection

/-!
# A buffer that is parsed again and again

`process_packet` calls the parser on all that the stream buffer holds, and it never
calls `stream_buffer_consume`.  So each packet has the bytes of the packets before it
parsed again, and a connection stops being read when the buffer is full.  And if the
buffer still waits for the byte before the first one, as it does after a handshake,
nothing is read at all.
-/

namespace NetDefender.Bridge

open NetDefender.Flows NetDefender.Stream Serial

/-! ## The outcome of a run -/

/-- In no call of the run is a payload refused because a buffer is full. -/
def NeverFull (env : Env) : State → List Call → Prop
  | _, [] => True
  | st, call :: calls =>
      (∀ insertion ∈ call.insertion env st, ¬Full insertion) ∧
        ∀ next, call.run env st = .ok next → NeverFull env next calls

/-- The run has a result, and the TLS parser of the flow has then counted this many
records. -/
def Counts (env : Env) (st : State) (id : Nat) (calls : List Call) (count : Nat) : Prop :=
  ∃ final reached, runPackets env st calls = .ok final ∧
    (final.apps id).appParser = some (.tls reached) ∧ reached.conn.recordsParsed = count

/-- The parser has counted as many records as there are, and no payload was refused. -/
structure ParsedOnce (env : Env) (st : State) (id : Nat) (calls : List Call)
    (count : Nat) : Prop where
  counts : Counts env st id calls count
  room : NeverFull env st calls

section Runs

variable {env : Env} {st next : State} {id : Nat} {call : Call} {calls : List Call}

theorem Counts.unique {left right : Nat} (first : Counts env st id calls left)
    (second : Counts env st id calls right) : left = right := by
  obtain ⟨final, reached, run, parser, rfl⟩ := first
  obtain ⟨other, again, otherRun, otherParser, rfl⟩ := second
  rw [run] at otherRun
  cases otherRun
  rw [parser] at otherParser
  cases otherParser
  rfl

theorem Counts.cons {count : Nat} (run : call.run env st = .ok next)
    (counts : Counts env next id calls count) : Counts env st id (call :: calls) count := by
  obtain ⟨final, reached, rest, parser⟩ := counts
  refine ⟨final, reached, ?_, parser⟩
  rw [runPackets, List.foldlM_cons, run]
  exact rest

theorem neverFull_cons (run : call.run env st = .ok next) :
    NeverFull env st (call :: calls) ↔
      (∀ insertion ∈ call.insertion env st, ¬Full insertion) ∧ NeverFull env next calls := by
  rw [NeverFull]
  apply and_congr_right
  intro _
  constructor
  · intro later
    exact later next run
  · intro later other reached
    rw [run] at reached
    cases reached
    exact later

end Runs

/-! ## Whole runs -/

/-- Packets that start where the buffer is: no payload is refused exactly if the buffer
has room for all of them, and then the parser reads the buffer once for each packet. -/
theorem Streaming.run_gathered {env : Env} (calls : List Call) : ∀ {st : State}
    {flow : Flow} {sb : StreamBuffer} {conn : Tls.TlsState} {bytes : List UInt8}
    {seq : BitVec 32} {payloads : List (List UInt8)}, Streaming env st flow sb conn →
    Gathered bytes sb → sb.maxBufferSize.toNat + 2 ^ 16 ≤ 2 ^ 31 →
    InOrder flow.tuple seq calls payloads → seq = sb.nextSeq →
    (∀ call ∈ calls, call.Quiet) →
    (NeverFull env st calls ↔
        bytes.length + payloads.flatten.length ≤ sb.maxBufferSize.toNat) ∧
      (bytes.length + payloads.flatten.length ≤ sb.maxBufferSize.toNat →
        Counts env st flow.id calls
          (conn.conn.recordsParsed + Tls.records.rereads bytes payloads)) := by
  induction calls with
  | nil =>
      intro st flow sb conn bytes seq payloads streaming gathered _ inOrder _ _
      cases inOrder with
      | nil =>
          refine ⟨⟨fun _ => gathered.bounded, fun _ => trivial⟩, ?_⟩
          intro _
          exact ⟨st, conn, rfl, streaming.parser, rfl⟩
  | cons call calls inductionHypothesis =>
      intro st flow sb conn bytes seq payloads streaming gathered near inOrder nextSeq quiet
      cases inOrder with
      | @cons _ hdr payload decoded _ _ payloads carries start rest =>
          have quietCall := quiet call List.mem_cons_self
          have length := decode_payloadLen carries.accepted
          rw [carries.payload] at length
          have full := full_iff_gathered gathered near (start.trans nextSeq)
            carries.payload length
          rw [← streaming.insertion_eq carries quietCall] at full
          rw [List.flatten_cons, List.length_append]
          -- a refused payload is never made up for: nothing is consumed
          by_cases room : bytes.length + payload.length ≤ sb.maxBufferSize.toNat
          · obtain ⟨sb', stats, inserted, sameMax, sameBase, gatheredAfter⟩ :=
              insertPayload_gathered st.table.stream call.update.insert
                st.table.reassembly gathered near (start.trans nextSeq) carries.payload
                length room
            obtain ⟨next, flow', reached, run, key, streams, counted⟩ := streaming.step
              carries quietCall inserted (holds_gathered gatheredAfter)
            have tuple : flow'.tuple = flow.tuple := congrArg FlowKey.tuple key
            have id : flow'.id = flow.id := congrArg FlowKey.id key
            have nextSeq' : seq + BitVec.ofNat 32 payload.length = sb'.nextSeq := by
              rw [gatheredAfter.nextSeq_eq, sameBase, List.length_append,
                BitVec.ofNat_add, ← BitVec.add_assoc, ← gathered.nextSeq_eq, nextSeq]
            rw [← sameMax] at near
            rw [← tuple] at rest
            obtain ⟨never, counts⟩ := inductionHypothesis streams gatheredAfter near rest
              nextSeq' fun other member => quiet other (List.mem_cons_of_mem _ member)
            rw [sameMax, List.length_append, Nat.add_assoc] at never counts
            rw [neverFull_cons run, never]
            constructor
            · apply and_iff_right
              intro insertion made refused
              exact absurd (full.mp ⟨insertion, made, refused⟩) (not_lt.mpr room)
            · intro fits
              have rereads := (counts fits).cons run
              rwa [counted, id, Nat.add_assoc] at rereads
          · obtain ⟨insertion, made, refused⟩ := full.mpr (not_le.mp room)
            constructor
            · rw [NeverFull]
              constructor
              · rintro ⟨never, _⟩
                exact absurd refused (never insertion made)
              · intro fits
                omega
            · intro fits
              omega

/-- Packets that start behind a byte that the buffer waits for: nothing is delivered, and
so nothing is refused and nothing is parsed. -/
theorem Streaming.run_waiting {env : Env} {base : BitVec 32} (calls : List Call) :
    ∀ {st : State} {flow : Flow} {sb : StreamBuffer} {conn : Tls.TlsState}
    {seq : BitVec 32} {payloads : List (List UInt8)}, Streaming env st flow sb conn →
    Waiting base sb → InOrder flow.tuple seq calls payloads → 0 < offset base seq →
    offset base seq + payloads.flatten.length < 2 ^ 32 → (∀ call ∈ calls, call.Quiet) →
    NeverFull env st calls ∧ Counts env st flow.id calls conn.conn.recordsParsed := by
  induction calls with
  | nil =>
      intro st flow sb conn seq payloads streaming _ inOrder _ _ _
      cases inOrder with
      | nil => exact ⟨trivial, st, conn, rfl, streaming.parser, rfl⟩
  | cons call calls inductionHypothesis =>
      intro st flow sb conn seq payloads streaming waiting inOrder ahead turn quiet
      cases inOrder with
      | @cons _ hdr payload decoded _ _ payloads carries start rest =>
          have quietCall := quiet call List.mem_cons_self
          have length := decode_payloadLen carries.accepted
          rw [carries.payload] at length
          rw [List.flatten_cons, List.length_append] at turn
          have ahead' : 0 < offset base hdr.sentSeq := by
            rw [start]
            exact ahead
          have stop : offset base hdr.sentSeq + decoded.pkt.payloadLen.toNat ≤ 2 ^ 32 := by
            rw [start, length]
            omega
          obtain ⟨sb', stats, inserted, waits⟩ := insertPayload_waiting waiting
            st.table.stream call.update.insert st.table.reassembly hdr decoded.pkt ahead'
            stop
          obtain ⟨next, flow', reached, run, key, streams, counted⟩ := streaming.step
            carries quietCall inserted (holds_waiting waits)
          rw [Framing.frames_nil] at counted
          have tuple : flow'.tuple = flow.tuple := congrArg FlowKey.tuple key
          have id : flow'.id = flow.id := congrArg FlowKey.id key
          -- the sequence numbers do not wrap around to the missing byte
          have nextOffset : offset base (seq + BitVec.ofNat 32 payload.length) =
              (offset base seq + payload.length) % 2 ^ 32 := offset_add_ofNat _ _ _
          rw [← tuple] at rest
          obtain ⟨never, counts⟩ := inductionHypothesis streams waits rest (by omega)
            (by omega) fun other member => quiet other (List.mem_cons_of_mem _ member)
          rw [neverFull_cons run]
          refine ⟨⟨?_, never⟩, ?_⟩
          · intro insertion made
            rw [streaming.insertion_eq carries quietCall] at made
            exact not_full_waiting waiting ahead' stop made
          · have same := counts.cons run
            rwa [counted, id] at same

/-- An established connection of a reachable flow table that is known to speak TLS: its
parser has just been created, and nothing has reached its to-server buffer. -/
structure TlsReady (env : Env) (st : State) (flow : Flow) (sb : StreamBuffer) : Prop where
  reachable : ∃ stream reassembly hashSize maxFlows allocated initial ops,
    flowInit stream reassembly hashSize maxFlows allocated = some initial ∧
      (∀ op ∈ ops, op.OnIp) ∧ runTable env.rteHashCrc initial ops = .ok st.table
  member : flow ∈ st.table.flows
  proto : flow.proto = IPPROTO_TCP
  session : ∃ tcp, flow.tcp = some tcp ∧ tcp.state = .established ∧
    tcp.toserverSb = some sb
  empty : Gathered [] sb
  alproto : (st.apps flow.id).alproto = .tls
  parser : (st.apps flow.id).appParser = some (.tls {})

namespace TlsReady

variable {env : Env} {st : State} {flow : Flow} {sb : StreamBuffer}

theorem streaming (ready : TlsReady env st flow sb) : Streaming env st flow sb {} := by
  obtain ⟨stream, reassembly, hashSize, maxFlows, allocated, initial, ops, init, onIp, run⟩ :=
    ready.reachable
  have start : Tallied env.rteHashCrc initial := flowInit_tallied init
  obtain ⟨table, again, tallied, _⟩ := Tallied.runTable (fun _ => True) (fun _ => True)
    (fun _ _ _ _ => trivial) ops start trivial fun _ _ => trivial
  rw [run] at again
  cases again
  exact ⟨tallied, (Keyed.runTable ops (flowInit_keyed init) onIp run).1, ready.member,
    ready.proto, ready.session, ready.alproto, ready.parser⟩

theorem waiting (ready : TlsReady env st flow sb) : Waiting sb.nextSeq sb where
  favors := ready.empty.favors
  live := ready.empty.live
  baseSeq := by
    have next := ready.empty.nextSeq_eq
    rw [next]
    exact (BitVec.add_zero _).symm
  nextSeq := rfl
  empty := BitVec.eq_of_toNat_eq ready.empty.length
  queue := by
    rw [ready.empty.queue]
    exact List.forall_mem_nil _

variable {calls : List Call} {payloads : List (List UInt8)}

/-- Packets that start where the buffer is. -/
theorem parsedOnce_iff (ready : TlsReady env st flow sb)
    (near : sb.maxBufferSize.toNat + 2 ^ 16 ≤ 2 ^ 31)
    (inOrder : InOrder flow.tuple sb.nextSeq calls payloads)
    (quiet : ∀ call ∈ calls, call.Quiet) (count : Nat) :
    ParsedOnce env st flow.id calls count ↔
      payloads.flatten.length ≤ sb.maxBufferSize.toNat ∧
        Tls.records.rereads [] payloads = count := by
  obtain ⟨never, counts⟩ :=
    ready.streaming.run_gathered calls ready.empty near inOrder rfl quiet
  have zero : Tls.TlsConn.recordsParsed {} = 0 := rfl
  rw [List.length_nil, Nat.zero_add] at never counts
  rw [zero, Nat.zero_add] at counts
  constructor
  · rintro ⟨counted, room⟩
    exact ⟨never.mp room, (counts (never.mp room)).unique counted⟩
  · rintro ⟨fits, rfl⟩
    exact ⟨counts fits, never.mpr fits⟩

/-- Packets that start one byte later. -/
theorem parsedOnce_iff_behind (ready : TlsReady env st flow sb)
    (inOrder : InOrder flow.tuple (sb.nextSeq + 1) calls payloads)
    (turn : payloads.flatten.length < 2 ^ 32 - 1) (quiet : ∀ call ∈ calls, call.Quiet)
    (count : Nat) : ParsedOnce env st flow.id calls count ↔ 0 = count := by
  have one : offset sb.nextSeq (sb.nextSeq + 1) = 1 := by
    have next := offset_add_ofNat sb.nextSeq sb.nextSeq 1
    rwa [offset_self] at next
  obtain ⟨never, counts⟩ := ready.streaming.run_waiting calls ready.waiting inOrder
    (by rw [one]; exact one_pos) (by rw [one]; omega) quiet
  have zero : Tls.TlsConn.recordsParsed {} = 0 := rfl
  rw [zero] at counts
  constructor
  · rintro ⟨counted, _⟩
    exact counts.unique counted
  · rintro rfl
    exact ⟨counts, never⟩

end TlsReady

/-! ## A connection -/

/-- A frame from 10.0.0.1:40000 to 10.0.0.2:443. -/
def clientFrame (sentSeq : BitVec 32) (payload : List UInt8) : Mbuf :=
  let byte (shift : Nat) : UInt8 := UInt8.ofNat (sentSeq >>> shift).toNat
  let frame : List UInt8 :=
    [2, 0, 0, 0, 0, 2, 2, 0, 0, 0, 0, 1, 0x08, 0x00] ++
    [0x45, 0, 0, UInt8.ofNat (40 + payload.length), 0, 0, 0, 0, 64, 6, 0, 0, 10, 0, 0, 1,
      10, 0, 0, 2] ++
    [0x9C, 0x40, 0x01, 0xBB, byte 24, byte 16, byte 8, byte 0, 0, 0, 0, 0, 0x50, 0x10, 0,
      0, 0, 0, 0, 0] ++ payload
  { memory := Packets.frameMemory frame
    pktLen := BitVec.ofNat 32 frame.length }

/-- The packet in such a frame, without its TCP part. -/
def clientPacket : Packet where
  ipVersion := 4
  ipProto := IPPROTO_TCP
  srcAddr := { word0 := 0x0100000A }
  dstAddr := { word0 := 0x0200000A }
  srcPort := 40000
  dstPort := 443

/-- The handshake of the connection on a table for one flow. -/
def clientOps : List TableOp :=
  [.get {} 0 clientPacket,
    .update .ok 0 0 (tcpPacket clientPacket RTE_TCP_SYN_FLAG 1000 []) .toserver,
    .update .ok 0 0 (tcpPacket clientPacket (RTE_TCP_SYN_FLAG ||| RTE_TCP_ACK_FLAG) 7 [])
      .toclient,
    .update .ok 0 0 (tcpPacket clientPacket RTE_TCP_ACK_FLAG 1001 []) .toserver,
    .release 0]

/-- The to-server buffer after the handshake. -/
def clientBuffer : StreamBuffer := (streamBufferInit .default {} 1000 .linux true).2.sb

/-- The flow after the handshake. -/
def clientFlow : Flow :=
  { newFlow ⟨4, 1, 30, 3600⟩ {} 0 0 (flowHashCalculate crc32c clientPacket)
      clientPacket with
    flags := FLOW_IPV4 ||| FLOW_TO_DST_SEEN ||| FLOW_TO_SRC_SEEN
    timeoutPolicy := 3600
    tcp := some
      { state := .established
        segCnt := 3
        toserverSb := some clientBuffer
        toclientSb := some (streamBufferInit .default {} 7 .linux true).2.sb }
    toserverPktCnt := 2
    toclientPktCnt := 1
    useCnt := 0 }

/-- The connection, known to speak TLS. -/
def clientState : State where
  table :=
    { config := ⟨4, 1, 30, 3600⟩
      stream := .default
      buckets := [[], [], [clientFlow], []]
      stats := { flowsCreated := 1, flowsActive := 1 }
      reassembly := { memoryUsed := 524288, memoryPeak := 524288 }
      nextId := 1 }
  apps _ := { alproto := .tls, appParser := some (.tls {}) }
  detectStats := {}

def clientEnv : Env where
  rteHashCrc := crc32c
  md5 _ := []
  rteMalloc _ _ := true
  detectConfig := {}
  registry := Proto.protoDetectInit

theorem client_ready : TlsReady clientEnv clientState clientFlow clientBuffer where
  reachable := by
    refine ⟨.default, {}, 4, 1, true, _, clientOps, rfl, ?_, by decide +kernel⟩
    simp [clientOps, TableOp.OnIp, Packet.IsIp, clientPacket, tcpPacket]
  member := by simp [FlowTable.flows, clientState]
  proto := rfl
  session := ⟨_, rfl, rfl, rfl⟩
  empty := by
    refine ⟨trivial, ?_, rfl, rfl, rfl, rfl, Nat.zero_le _⟩
    intro missing
    cases missing
  alproto := rfl
  parser := rfl

section Client

variable {sentSeq : BitVec 32} {payload : List UInt8}

theorem client_carries (accepted : decode (clientFrame sentSeq payload) =
      some ⟨tcpPacket clientPacket RTE_TCP_ACK_FLAG sentSeq payload, 11, 54⟩) :
    Carries clientFlow.tuple (clientFrame sentSeq payload) ⟨sentSeq, RTE_TCP_ACK_FLAG⟩
      payload ⟨tcpPacket clientPacket RTE_TCP_ACK_FLAG sentSeq payload, 11, 54⟩ where
  accepted := accepted
  isTcp := (by decide : (11 : BitVec 32) &&& Packets.PKT_DECODED_TCP ≠ 0)
  isIp := Or.inl rfl
  tuple := rfl
  header := rfl
  payload := rfl

theorem client_quiet (accepted : decode (clientFrame sentSeq payload) =
      some ⟨tcpPacket clientPacket RTE_TCP_ACK_FLAG sentSeq payload, 11, 54⟩) :
    Call.Quiet { mbuf := clientFrame sentSeq payload, now := 0 } := by
  intro decoded present hdr header
  rw [accepted] at present
  cases present
  cases header
  have noFin : hasFlag RTE_TCP_ACK_FLAG RTE_TCP_FIN_FLAG = false := by decide
  have noRst : hasFlag RTE_TCP_ACK_FLAG RTE_TCP_RST_FLAG = false := by decide
  exact ⟨noFin, noRst⟩

end Client

/-! ## Records -/

/-- TLS records that arrive in order are counted once each, and none of their bytes is
refused, exactly if there are none, or if they start at the byte that the buffer waits
for, fit into the buffer together, and none of them is complete before the last packet.
The first byte of a connection is the one after its SYN, and after a handshake the
buffer waits for the byte before it. -/
theorem records_parsed_once_iff (env : Env) (st : State) (flow : Flow) (sb : StreamBuffer)
    (seq : BitVec 32) (calls : List Call) (payloads pieces : List (List UInt8))
    (ready : TlsReady env st flow sb) (near : sb.maxBufferSize.toNat + 2 ^ 16 ≤ 2 ^ 31)
    (inOrder : InOrder flow.tuple seq calls payloads)
    (start : seq = sb.nextSeq ∨
      seq = sb.nextSeq + 1 ∧ payloads.flatten.length < 2 ^ 32 - 1)
    (quiet : ∀ call ∈ calls, call.Quiet)
    (areRecords : ∀ piece ∈ pieces, Tls.IsRecord piece)
    (content : payloads.flatten = pieces.flatten) :
    ParsedOnce env st flow.id calls pieces.length ↔
      pieces = [] ∨ seq = sb.nextSeq ∧
        payloads.flatten.length ≤ sb.maxBufferSize.toNat ∧
        ∀ first ∈ pieces.head?, payloads.dropLast.flatten.length < first.length := by
  rcases start with rfl | ⟨rfl, turn⟩
  · rw [ready.parsedOnce_iff near inOrder quiet, Framing.rereads_flatten_iff
      (fun piece member => Tls.isFrame_iff.mpr (areRecords piece member)) content]
    constructor
    · rintro ⟨fits, late⟩
      exact Or.inr ⟨rfl, fits, late⟩
    · rintro (rfl | ⟨_, fits, late⟩)
      · rw [content]
        exact ⟨Nat.zero_le _, fun first member => nomatch member⟩
      · exact ⟨fits, late⟩
  · have apart : sb.nextSeq + 1 ≠ sb.nextSeq := by
      intro same
      bv_omega
    rw [ready.parsedOnce_iff_behind inOrder turn quiet, eq_comm, List.length_eq_zero_iff]
    constructor
    · exact Or.inl
    · rintro (none | ⟨same, _⟩)
      · exact none
      · exact absurd same apart

/-- Two records in two packets, the first one cut in the middle of its header. -/
theorem records_parsed_once_iff_cut :
    let payloads : List (List UInt8) := [[23, 3, 3], [0, 2, 104, 105, 21, 3, 3, 0, 2, 1, 0]]
    let calls : List Call := [{ mbuf := clientFrame 1000 [23, 3, 3], now := 0 },
      { mbuf := clientFrame 1003 [0, 2, 104, 105, 21, 3, 3, 0, 2, 1, 0], now := 0 }]
    InOrder clientFlow.tuple clientBuffer.nextSeq calls payloads ∧
      ParsedOnce clientEnv clientState clientFlow.id calls 2 := by
  intro payloads calls
  have first : decode (clientFrame 1000 [23, 3, 3]) =
      some ⟨tcpPacket clientPacket RTE_TCP_ACK_FLAG 1000 [23, 3, 3], 11, 54⟩ := by
    decide +kernel
  have second : decode (clientFrame 1003 [0, 2, 104, 105, 21, 3, 3, 0, 2, 1, 0]) =
      some ⟨tcpPacket clientPacket RTE_TCP_ACK_FLAG 1003
        [0, 2, 104, 105, 21, 3, 3, 0, 2, 1, 0], 11, 54⟩ := by
    decide +kernel
  have inOrder : InOrder clientFlow.tuple clientBuffer.nextSeq calls payloads :=
    .cons (client_carries first) rfl (.cons (client_carries second) rfl (.nil _))
  refine ⟨inOrder, ?_⟩
  refine (records_parsed_once_iff clientEnv clientState clientFlow clientBuffer 1000 calls
    payloads [[23, 3, 3, 0, 2, 104, 105], [21, 3, 3, 0, 2, 1, 0]] client_ready (by decide)
    inOrder (Or.inl rfl) ?_ ?_ rfl).mpr (by decide)
  · simp only [calls, List.forall_mem_cons]
    exact ⟨client_quiet first, client_quiet second, List.forall_mem_nil _⟩
  · simp only [List.forall_mem_cons]
    exact ⟨⟨by decide, by decide, by decide⟩, ⟨by decide, by decide, by decide⟩,
      List.forall_mem_nil _⟩

/-- Two packets that hold one record each: three records are counted. -/
theorem records_parsed_again :
    let record : List UInt8 := [23, 3, 3, 0, 0]
    let calls : List Call := [{ mbuf := clientFrame 1000 record, now := 0 },
      { mbuf := clientFrame 1005 record, now := 0 }]
    TlsReady clientEnv clientState clientFlow clientBuffer ∧
      InOrder clientFlow.tuple clientBuffer.nextSeq calls [record, record] ∧
      Tls.IsRecord record ∧
      ParsedOnce clientEnv clientState clientFlow.id calls 3 ∧
      ¬ParsedOnce clientEnv clientState clientFlow.id calls 2 := by
  intro record calls
  have first : decode (clientFrame 1000 record) =
      some ⟨tcpPacket clientPacket RTE_TCP_ACK_FLAG 1000 record, 11, 54⟩ := by
    decide +kernel
  have second : decode (clientFrame 1005 record) =
      some ⟨tcpPacket clientPacket RTE_TCP_ACK_FLAG 1005 record, 11, 54⟩ := by
    decide +kernel
  have inOrder : InOrder clientFlow.tuple clientBuffer.nextSeq calls [record, record] :=
    .cons (client_carries first) rfl (.cons (client_carries second) rfl (.nil _))
  have quiet : ∀ call ∈ calls, call.Quiet := by
    simp only [calls, List.forall_mem_cons]
    exact ⟨client_quiet first, client_quiet second, List.forall_mem_nil _⟩
  have counts := client_ready.parsedOnce_iff (by decide) inOrder quiet
  have three : Tls.records.rereads [] [record, record] = 3 := by decide
  refine ⟨client_ready, inOrder, ⟨by decide, by decide, by decide⟩, ?_, ?_⟩
  · rw [counts, three]
    decide
  · rw [counts, three]
    decide

end NetDefender.Bridge
