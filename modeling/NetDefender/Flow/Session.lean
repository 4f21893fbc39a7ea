import NetDefender.Flow.Model
import NetDefender.Stream.Steps

/-!
# From the handshake to the stream buffers

`flow_update` sets up each stream buffer with the sequence number of the SYN
itself.  The first payload byte of a connection carries the number after it, so
the buffer waits for a byte that no segment holds: every payload is queued behind
that gap and none is delivered.
-/

namespace NetDefender.Stream

open Serial

/-! ## A buffer behind a gap -/

/-- A segment that starts strictly after `base`. -/
def TcpSegment.Ahead (base : BitVec 32) (segment : TcpSegment) : Prop :=
  0 < offset base segment.seq ∧ offset base segment.seq < 2 ^ 31

/-- An empty window at `base` whose queue lies beyond a gap. -/
structure Waiting (base : BitVec 32) (sb : StreamBuffer) : Prop where
  favors : sb.osPolicy.FavorsNew
  live : sb.data ≠ none
  baseSeq : sb.baseSeq = base
  nextSeq : sb.nextSeq = base
  empty : sb.dataLen = 0
  queue : ∀ segment ∈ sb.segList, segment.Ahead base

namespace Waiting

variable {base : BitVec 32} {sb after : StreamBuffer}

theorem getData (waiting : Waiting base sb) : sb.getData = [] := by
  have zero : (0 : BitVec 32).toNat = 0 := rfl
  rw [StreamBuffer.getData, waiting.empty, zero, List.take_zero]

theorem of_sameWindow (waiting : Waiting base sb) (same : SameWindow sb after)
    (queue : ∀ segment ∈ after.segList, segment.Ahead base) :
    Waiting base after where
  favors := by
    rw [same.osPolicy]
    exact waiting.favors
  live := by
    rw [same.data]
    exact waiting.live
  baseSeq := same.baseSeq.trans waiting.baseSeq
  nextSeq := same.nextSeq.trans waiting.nextSeq
  empty := same.dataLen.trans waiting.empty
  queue := queue

theorem of_sameContent (waiting : Waiting base sb) (same : SameContent sb after) :
    Waiting base after := by
  apply waiting.of_sameWindow same.toSameWindow
  rw [same.segList]
  exact waiting.queue

theorem seq_ne_next {seq : BitVec 32} (waiting : Waiting base sb)
    (start : 0 < offset base seq) : seq ≠ sb.nextSeq := by
  intro next
  rw [next, waiting.nextSeq, offset_self] at start
  exact lt_irrefl 0 start

/-- The gap stops the drain before its first step. -/
theorem halted (waiting : Waiting base sb) : Halted sb := by
  intro segment first
  have ahead := waiting.queue segment (List.mem_of_mem_head? first)
  refine Or.inl ⟨waiting.seq_ne_next ahead.1, ?_⟩
  rw [toInt_sub_pos_iff, waiting.nextSeq]
  exact ahead

theorem drain (waiting : Waiting base sb) (drained : Drained sb after) :
    Waiting base after :=
  waiting.of_sameContent (drained.of_halted waiting.halted)

end Waiting

/-- Merging never changes where a queue entry starts. -/
theorem MergeSteps.starts {before after : List TcpSegment} {base : BitVec 32}
    (steps : MergeSteps before after)
    (queue : ∀ segment ∈ before, segment.Ahead base) :
    ∀ segment ∈ after, segment.Ahead base := by
  induction steps with
  | refl => exact queue
  | tail _ step inductionHypothesis =>
      intro segment member
      cases step with
      | contained front rest curr next touching inside =>
          apply inductionHypothesis
          simp only [List.mem_append, List.mem_cons] at member ⊢
          exact member.imp_right (Or.imp_right Or.inr)
      | absorbed front rest curr next touching longer =>
          simp only [List.mem_append, List.mem_cons] at member
          rcases member with member | rfl | member
          · exact inductionHypothesis segment (by simp [member])
          · exact inductionHypothesis curr (by simp)
          · exact inductionHypothesis segment (by simp [member])

theorem cutBy_starts {base : BitVec 32} {newSeg curr kept : TcpSegment}
    (ahead : curr.Ahead base)
    (stop : 0 < offset base newSeg.endSeq ∧ offset base newSeg.endSeq < 2 ^ 31)
    (cut : cutBy newSeg curr = some kept) : kept.Ahead base := by
  rw [cutBy] at cut
  split at cut
  next => cases cut
  next =>
    split at cut
    next =>
      cases cut
      exact stop
    next =>
      split at cut
      next =>
        cases cut
        exact ahead
      next =>
        cases cut
        exact ahead

/-- A segment past the first byte is not trimmed, unless it is dropped. -/
theorem Waiting.untrimmed {base : BitVec 32} {sb : StreamBuffer} {segment : Incoming}
    (waiting : Waiting base sb) (start : 0 < offset base segment.seq)
    (stop : offset base segment.seq + segment.payloadLen.toNat ≤ 2 ^ 32)
    (live : ¬segment.BeforeBase sb) :
    segment.fromBase sb = segment ∧ segment.pastWindow sb = segment ∧
      offset base segment.seq < 2 ^ 31 ∧
      0 < offset base segment.endSeq ∧ offset base segment.endSeq < 2 ^ 31 := by
  have ahead : ¬seqCompare segment.endSeq sb.baseSeq ≤ 0 :=
    fun old => live (Or.inl old)
  have endOffset : offset base segment.endSeq =
      (offset base segment.seq + segment.payloadLen.toNat) % 2 ^ 32 := by
    rw [Incoming.endSeq, setWidth_eq_ofNat, offset_add_ofNat]
  rw [seqCompare_nonpos_iff, waiting.baseSeq] at ahead
  have near : offset base segment.seq < 2 ^ 31 := by omega
  have notBefore : ¬seqCompare segment.seq base < 0 := by
    rw [seqCompare_neg_iff]
    omega
  refine ⟨?_, ?_, near, by omega, by omega⟩
  · rw [Incoming.fromBase, waiting.baseSeq, if_neg notBefore]
  · rw [Incoming.pastWindow, waiting.nextSeq, if_neg notBefore]

/-- An insertion past the first byte leaves the buffer waiting. -/
theorem Waiting.insertEffect {config : StreamConfig} {alloc : Allocation}
    {base : BitVec 32} {sb after : StreamBuffer} {segment : Incoming}
    (waiting : Waiting base sb) (start : 0 < offset base segment.seq)
    (stop : offset base segment.seq + segment.payloadLen.toNat ≤ 2 ^ 32)
    (effect : InsertEffect config alloc sb segment after) :
    Waiting base after := by
  cases effect with
  | ignored reason same => exact waiting.of_sameContent same
  | inOrder valid live next fits drained =>
      rw [(waiting.untrimmed start stop live).1] at next
      exact absurd next (waiting.seq_ne_next start)
  | queued middle front back valid live other nonempty room enqueued drained =>
      obtain ⟨atBase, atNext, near, endOffset⟩ := waiting.untrimmed start stop live
      rw [atBase, atNext] at enqueued
      have sameEnd : segment.toSegment.endSeq = segment.endSeq := rfl
      rw [← sameEnd] at endOffset
      have queue : ∀ curr ∈ front ++ segment.toSegment :: back,
          curr.Ahead base := by
        intro curr member
        rw [List.mem_append, List.mem_cons, or_left_comm, ← List.mem_append,
          ← enqueued.split] at member
        rcases member with rfl | member
        · exact ⟨start, near⟩
        · obtain ⟨source, inQueue, cut⟩ := List.mem_filterMap.mp member
          exact cutBy_starts (waiting.queue source inQueue) endOffset cut
      exact (waiting.of_sameWindow enqueued.window
        (enqueued.mergeSteps.starts queue)).drain drained

theorem streamBufferInit_waiting (config : StreamConfig) (stats : ReassemblyStats)
    (initialSeq : BitVec 32) :
    Waiting initialSeq (streamBufferInit config stats initialSeq .linux true).2.sb where
  favors := trivial
  live := by
    intro missing
    cases missing
  baseSeq := rfl
  nextSeq := rfl
  empty := rfl
  queue := by
    intro segment member
    cases member

end NetDefender.Stream

namespace NetDefender.Flows

open NetDefender.Stream Serial

/-! ## Runs of one flow -/

/-- The flow after a list of packets, with every allocation granted. -/
def runFlow (config : FlowConfig) (stream : StreamConfig) (now : BitVec 64) :
    Flow × ReassemblyStats → List (Packet × Direction) →
      Except Fault (Flow × ReassemblyStats) :=
  List.foldlM fun (flow, stats) (pkt, direction) =>
    flowUpdate config stream .ok now stats flow pkt direction

/-- A TCP packet of the connection that `template` belongs to. -/
def tcpPacket (template : Packet) (tcpFlags : BitVec 8) (sentSeq : BitVec 32)
    (payload : List UInt8) : Packet :=
  { template with
    tcpHdr := some { sentSeq, tcpFlags }
    payload := some payload
    payloadLen := BitVec.ofNat 16 payload.length }

/-- The three-way handshake with the initial sequence numbers `client` and
`server`. -/
def handshake (template : Packet) (client server : BitVec 32) :
    List (Packet × Direction) :=
  [(tcpPacket template RTE_TCP_SYN_FLAG client [], .toserver),
    (tcpPacket template (RTE_TCP_SYN_FLAG ||| RTE_TCP_ACK_FLAG) server [],
      .toclient),
    (tcpPacket template RTE_TCP_ACK_FLAG (client + 1) [], .toserver)]

/-- In-order data segments, the first one at sequence number `seq`. -/
def dataSegments (template : Packet) (direction : Direction) (seq : BitVec 32) :
    List (List UInt8) → List (Packet × Direction)
  | [] => []
  | payload :: payloads =>
      (tcpPacket template RTE_TCP_ACK_FLAG seq payload, direction) ::
        dataSegments template direction (seq + BitVec.ofNat 32 payload.length)
          payloads

/-- The initial sequence number of the side that sends in a direction. -/
def Direction.isn (client server : BitVec 32) : Direction → BitVec 32
  | .toserver => client
  | .toclient => server

/-- The stream buffer of a direction. -/
def TcpSession.buffer (tcp : TcpSession) : Direction → Option StreamBuffer
  | .toserver => tcp.toserverSb
  | .toclient => tcp.toclientSb

/-- What has been reassembled in a direction. -/
def Flow.reassembled (flow : Flow) (direction : Direction) : List UInt8 :=
  match flow.tcp with
  | none => []
  | some tcp => ((tcp.buffer direction).map StreamBuffer.getData).getD []

/-- An established session whose buffers wait behind the sequence numbers of the
two SYN packets. -/
structure Established (client server : BitVec 32) (flow : Flow) : Prop where
  proto : flow.proto = IPPROTO_TCP
  session : ∃ tcp toserver toclient, flow.tcp = some tcp ∧
    tcp.state = .established ∧
    tcp.toserverSb = some toserver ∧ Waiting client toserver ∧
    tcp.toclientSb = some toclient ∧ Waiting server toclient

namespace Established

variable {client server : BitVec 32} {flow : Flow}

theorem reassembled (established : Established client server flow)
    (direction : Direction) : flow.reassembled direction = [] := by
  obtain ⟨tcp, toserver, toclient, session, _, first, waiting, second, other⟩ :=
    established.session
  rw [Flow.reassembled, session]
  cases direction with
  | toserver => simp [TcpSession.buffer, first, waiting.getData]
  | toclient => simp [TcpSession.buffer, second, other.getData]

end Established

theorem countPacket_tcp (now : BitVec 64) (flow : Flow) (pkt : Packet)
    (direction : Direction) :
    (countPacket now flow pkt direction).tcp = flow.tcp ∧
      (countPacket now flow pkt direction).proto = flow.proto := by
  cases direction <;> exact ⟨rfl, rfl⟩

theorem newFlow_tcp (config : FlowConfig) (alloc : FlowAllocation) (now : BitVec 64)
    (id : Nat) (hash : BitVec 32) (pkt : Packet) :
    (newFlow config alloc now id hash pkt).proto = pkt.ipProto ∧
      (newFlow config alloc now id hash pkt).tcp =
        if pkt.ipProto = IPPROTO_TCP then newSession alloc else none := by
  rw [newFlow]
  split
  next => exact ⟨rfl, rfl⟩
  next =>
    split
    next => exact ⟨rfl, rfl⟩
    next => exact ⟨rfl, rfl⟩

/-! ## The handshake -/

section Buffers

variable {config : StreamConfig} {allocated : Bool} {expected state : TcpState}
variable {hdr : TcpHdr} {stats : ReassemblyStats}

theorem initStreamBuffer_other (sb : Option StreamBuffer) (other : state ≠ expected) :
    initStreamBuffer config allocated expected state hdr stats sb = (sb, stats) := by
  cases sb with
  | none => rfl
  | some buffer => simp [initStreamBuffer, other]

/-- A buffer that has no memory yet starts to wait at the sequence number of the
packet. -/
theorem initStreamBuffer_fresh (config : StreamConfig) (expected : TcpState)
    (hdr : TcpHdr) (stats : ReassemblyStats) (buffer : StreamBuffer)
    (fresh : buffer.data = none) :
    ∃ after, (initStreamBuffer config true expected expected hdr stats
        (some buffer)).1 = some after ∧ Waiting hdr.sentSeq after := by
  refine ⟨_, ?_, streamBufferInit_waiting config stats hdr.sentSeq⟩
  simp [initStreamBuffer, fresh]

end Buffers

section Session

variable {stream : StreamConfig} {alloc : UpdateAllocation}
variable {stats : ReassemblyStats} {tcp session : TcpSession} {hdr : TcpHdr}
variable {pkt : Packet} {direction : Direction} {flow : Flow}

/-- `flow_update` on a TCP flow is the update of its session. -/
theorem flowUpdate_tcp {after : ReassemblyStats} (config : FlowConfig)
    (now : BitVec 64) (proto : flow.proto = IPPROTO_TCP)
    (sessionEq : flow.tcp = some tcp) (header : pkt.tcpHdr = some hdr)
    (update : updateSession stream alloc stats tcp hdr pkt direction =
      .ok (session, after)) :
    ∃ final, flowUpdate config stream alloc now stats flow pkt direction =
        .ok (final, after) ∧
      final.proto = IPPROTO_TCP ∧ final.tcp = some session := by
  obtain ⟨sameTcp, sameProto⟩ := countPacket_tcp now flow pkt direction
  simp only [flowUpdate, sameProto, proto, sameTcp, sessionEq, header, update,
    if_true]
  exact ⟨_, rfl, rfl, rfl⟩

end Session

/-- A packet without payload moves the state and may set up buffers. -/
theorem flowUpdate_bare {flow : Flow} {tcp : TcpSession} (config : FlowConfig)
    (stream : StreamConfig) (now : BitVec 64) (stats : ReassemblyStats)
    (template : Packet) (flags : BitVec 8) (seq : BitVec 32)
    (direction : Direction) (proto : flow.proto = IPPROTO_TCP)
    (sessionEq : flow.tcp = some tcp) :
    ∃ final after session middle,
      flowUpdate config stream .ok now stats flow (tcpPacket template flags seq [])
        direction = .ok (final, after) ∧
      final.proto = IPPROTO_TCP ∧ final.tcp = some session ∧
      session.state = nextState tcp.state flags direction ∧
      session.toserverSb = (initStreamBuffer stream true .synSent
        (nextState tcp.state flags direction) ⟨seq, flags⟩ stats
        tcp.toserverSb).1 ∧
      session.toclientSb = (initStreamBuffer stream true .synRecv
        (nextState tcp.state flags direction) ⟨seq, flags⟩ middle
        tcp.toclientSb).1 := by
  have unchanged : ∀ state stats sb,
      insertPayload stream .ok state ⟨seq, flags⟩ (tcpPacket template flags seq [])
        stats sb = .ok (sb, stats) := by
    intro state stats sb
    cases sb <;> simp [insertPayload, tcpPacket]
  obtain ⟨session, after, middle, update, fields⟩ : ∃ session after middle,
      updateSession stream .ok stats tcp ⟨seq, flags⟩
        (tcpPacket template flags seq []) direction = .ok (session, after) ∧
      session.state = nextState tcp.state flags direction ∧
      session.toserverSb = (initStreamBuffer stream true .synSent
        (nextState tcp.state flags direction) ⟨seq, flags⟩ stats
        tcp.toserverSb).1 ∧
      session.toclientSb = (initStreamBuffer stream true .synRecv
        (nextState tcp.state flags direction) ⟨seq, flags⟩ middle
        tcp.toclientSb).1 := by
    cases direction with
    | toserver =>
        simp only [updateSession, UpdateAllocation.ok, unchanged]
        exact ⟨_, _, _, rfl, rfl, rfl, rfl⟩
    | toclient =>
        simp only [updateSession, UpdateAllocation.ok, unchanged]
        exact ⟨_, _, _, rfl, rfl, rfl, rfl⟩
  obtain ⟨final, step, finalProto, finalSession⟩ :=
    flowUpdate_tcp config now proto sessionEq rfl update
  exact ⟨final, after, session, middle, step, finalProto, finalSession, fields⟩

theorem runFlow_cons {config : FlowConfig} {stream : StreamConfig}
    {now : BitVec 64} {stats after : ReassemblyStats} {flow next : Flow}
    {pkt : Packet} {direction : Direction} (rest : List (Packet × Direction))
    (step : flowUpdate config stream .ok now stats flow pkt direction =
      .ok (next, after)) :
    runFlow config stream now (flow, stats) ((pkt, direction) :: rest) =
      runFlow config stream now (next, after) rest := by
  rw [runFlow, List.foldlM_cons]
  dsimp only
  rw [step]
  rfl

/-- After the handshake the session is established and both buffers wait. -/
theorem handshake_established (config : FlowConfig) (stream : StreamConfig)
    (now : BitVec 64) (stats : ReassemblyStats) (template : Packet)
    (client server : BitVec 32) (id : Nat) (hash : BitVec 32)
    (tcp : template.ipProto = IPPROTO_TCP) :
    ∃ flow after, Established client server flow ∧ ∀ rest,
      runFlow config stream now (newFlow config {} now id hash template, stats)
        (handshake template client server ++ rest) =
        runFlow config stream now (flow, after) rest := by
  obtain ⟨proto, session⟩ := newFlow_tcp config {} now id hash template
  have granted : newSession {} =
      some { toserverSb := some .zeroed, toclientSb := some .zeroed } := rfl
  rw [if_pos tcp, granted] at session
  rw [tcp] at proto
  obtain ⟨opened, openedStats, openedSession, _, openedStep, openedProto,
      openedEq, openedState, openedServer, openedClient⟩ :=
    flowUpdate_bare config stream now stats template RTE_TCP_SYN_FLAG client
      .toserver proto session
  have synSent : nextState .none RTE_TCP_SYN_FLAG .toserver = .synSent := by decide
  rw [synSent] at openedState openedServer openedClient
  obtain ⟨toserver, toserverEq, toserverWaits⟩ := initStreamBuffer_fresh stream
    .synSent ⟨client, RTE_TCP_SYN_FLAG⟩ stats .zeroed rfl
  rw [toserverEq] at openedServer
  rw [initStreamBuffer_other _ (by decide)] at openedClient
  obtain ⟨answered, answeredStats, answeredSession, middle, answeredStep,
      answeredProto, answeredEq, answeredState, answeredServer, answeredClient⟩ :=
    flowUpdate_bare config stream now openedStats template
      (RTE_TCP_SYN_FLAG ||| RTE_TCP_ACK_FLAG) server .toclient openedProto openedEq
  have synRecv : nextState .synSent (RTE_TCP_SYN_FLAG ||| RTE_TCP_ACK_FLAG)
      .toclient = .synRecv := by decide
  rw [openedState, synRecv] at answeredState answeredServer answeredClient
  rw [initStreamBuffer_other _ (by decide), openedServer] at answeredServer
  rw [openedClient] at answeredClient
  obtain ⟨toclient, toclientEq, toclientWaits⟩ := initStreamBuffer_fresh stream
    .synRecv ⟨server, RTE_TCP_SYN_FLAG ||| RTE_TCP_ACK_FLAG⟩ middle
    .zeroed rfl
  rw [toclientEq] at answeredClient
  obtain ⟨flow, after, last, _, lastStep, lastProto, lastEq, lastState,
      lastServer, lastClient⟩ :=
    flowUpdate_bare config stream now answeredStats template RTE_TCP_ACK_FLAG
      (client + 1) .toserver answeredProto answeredEq
  have established : nextState .synRecv RTE_TCP_ACK_FLAG .toserver =
      .established := by decide
  rw [answeredState, established] at lastState lastServer lastClient
  rw [initStreamBuffer_other _ (by decide), answeredServer] at lastServer
  rw [initStreamBuffer_other _ (by decide), answeredClient] at lastClient
  refine ⟨flow, after, ⟨lastProto, last, toserver, toclient, lastEq, lastState,
    lastServer, toserverWaits, lastClient, toclientWaits⟩, ?_⟩
  intro rest
  rw [handshake, List.cons_append, runFlow_cons _ openedStep, List.cons_append,
    runFlow_cons _ answeredStep, List.cons_append, runFlow_cons _ lastStep,
    List.nil_append]

/-! ## Data -/

/-- Inserting a payload past the first byte keeps a buffer waiting. -/
theorem insertPayload_waiting {base : BitVec 32} {buffer : StreamBuffer}
    (waiting : Waiting base buffer) (config : StreamConfig) (alloc : Allocation)
    (stats : ReassemblyStats) (hdr : TcpHdr) (pkt : Packet)
    (start : 0 < offset base hdr.sentSeq)
    (stop : offset base hdr.sentSeq + pkt.payloadLen.toNat ≤ 2 ^ 32) :
    ∃ buffer' stats', insertPayload config alloc .established hdr pkt stats
        (some buffer) = .ok (some buffer', stats') ∧ Waiting base buffer' := by
  rw [insertPayload]
  split
  next =>
    cases given : pkt.payload with
    | none => exact ⟨buffer, stats, rfl, waiting⟩
    | some payload =>
        obtain ⟨ret, st, equation, effect⟩ := streamBufferInsertSegment_effect config
          alloc ⟨buffer, stats⟩ ⟨hdr.sentSeq, payload, pkt.payloadLen⟩ waiting.favors
        rw [equation]
        exact ⟨st.sb, st.stats, rfl, waiting.insertEffect start stop effect⟩
  next => exact ⟨buffer, stats, rfl, waiting⟩

/-- One payload past the first byte leaves the session waiting. -/
theorem Established.update {client server : BitVec 32} {flow : Flow}
    (established : Established client server flow) (config : FlowConfig)
    (stream : StreamConfig) (now : BitVec 64) (stats : ReassemblyStats)
    (template : Packet) (direction : Direction) (seq : BitVec 32)
    (payload : List UInt8)
    (start : 0 < offset (direction.isn client server) seq)
    (stop : offset (direction.isn client server) seq + payload.length ≤ 2 ^ 32) :
    ∃ next after, flowUpdate config stream .ok now stats flow
        (tcpPacket template RTE_TCP_ACK_FLAG seq payload) direction =
        .ok (next, after) ∧
      Established client server next := by
  obtain ⟨proto, tcp, toserver, toclient, session, state, toserverEq,
    toserverWaits, toclientEq, toclientWaits⟩ := established
  have stays : nextState .established RTE_TCP_ACK_FLAG direction =
      .established := by
    cases direction <;> decide
  have notSent : TcpState.established ≠ .synSent := by decide
  have notRecv : TcpState.established ≠ .synRecv := by decide
  have length : (tcpPacket template RTE_TCP_ACK_FLAG seq payload).payloadLen.toNat ≤
      payload.length := by
    rw [tcpPacket, BitVec.toNat_ofNat]
    exact Nat.mod_le _ _
  cases direction with
  | toserver =>
      obtain ⟨buffer, stats', insert, waits⟩ := insertPayload_waiting toserverWaits
        stream .ok stats ⟨seq, RTE_TCP_ACK_FLAG⟩ _ start
        ((Nat.add_le_add_left length _).trans stop)
      have update : updateSession stream .ok stats tcp ⟨seq, RTE_TCP_ACK_FLAG⟩
          (tcpPacket template RTE_TCP_ACK_FLAG seq payload) .toserver =
          .ok (⟨.established, tcp.segCnt + 1, tcp.byteCnt +
            (tcpPacket template RTE_TCP_ACK_FLAG seq payload).payloadLen.toNat,
            some buffer, some toclient⟩, stats') := by
        simp only [updateSession, state, stays, toserverEq, toclientEq,
          initStreamBuffer_other _ notSent, initStreamBuffer_other _ notRecv,
          UpdateAllocation.ok, insert]
      obtain ⟨final, step, finalProto, finalSession⟩ :=
        flowUpdate_tcp config now proto session rfl update
      exact ⟨final, stats', step, finalProto, _, buffer, toclient, finalSession,
        rfl, rfl, waits, rfl, toclientWaits⟩
  | toclient =>
      obtain ⟨buffer, stats', insert, waits⟩ := insertPayload_waiting toclientWaits
        stream .ok stats ⟨seq, RTE_TCP_ACK_FLAG⟩ _ start
        ((Nat.add_le_add_left length _).trans stop)
      have update : updateSession stream .ok stats tcp ⟨seq, RTE_TCP_ACK_FLAG⟩
          (tcpPacket template RTE_TCP_ACK_FLAG seq payload) .toclient =
          .ok (⟨.established, tcp.segCnt + 1, tcp.byteCnt +
            (tcpPacket template RTE_TCP_ACK_FLAG seq payload).payloadLen.toNat,
            some toserver, some buffer⟩, stats') := by
        simp only [updateSession, state, stays, toserverEq, toclientEq,
          initStreamBuffer_other _ notSent, initStreamBuffer_other _ notRecv,
          UpdateAllocation.ok, insert]
      obtain ⟨final, step, finalProto, finalSession⟩ :=
        flowUpdate_tcp config now proto session rfl update
      exact ⟨final, stats', step, finalProto, _, toserver, buffer, finalSession,
        rfl, rfl, toserverWaits, rfl, waits⟩

/-- A whole transfer within one turn of the sequence space delivers nothing. -/
theorem Established.transfer {client server : BitVec 32} (config : FlowConfig)
    (stream : StreamConfig) (now : BitVec 64) (template : Packet)
    (direction : Direction) (payloads : List (List UInt8)) :
    ∀ {flow : Flow} (stats : ReassemblyStats) {seq : BitVec 32},
      Established client server flow → (∀ payload ∈ payloads, payload ≠ []) →
      0 < offset (direction.isn client server) seq ∨ payloads = [] →
      offset (direction.isn client server) seq + payloads.flatten.length ≤ 2 ^ 32 →
      ∃ next after, runFlow config stream now (flow, stats)
          (dataSegments template direction seq payloads) = .ok (next, after) ∧
        Established client server next := by
  induction payloads with
  | nil =>
      intro flow stats seq established _ _ _
      exact ⟨flow, stats, rfl, established⟩
  | cons payload payloads inductionHypothesis =>
      intro flow stats seq established nonempty start stop
      rw [List.flatten_cons, List.length_append] at stop
      have ahead : 0 < offset (direction.isn client server) seq := by
        simpa using start
      obtain ⟨middle, middleStats, step, middleEstablished⟩ := established.update
        config stream now stats template direction seq payload ahead (by omega)
      have nextOffset : offset (direction.isn client server)
          (seq + BitVec.ofNat 32 payload.length) =
          (offset (direction.isn client server) seq + payload.length) % 2 ^ 32 :=
        offset_add_ofNat _ _ _
      rw [dataSegments, runFlow_cons _ step]
      apply inductionHypothesis middleStats middleEstablished
      · intro other member
        exact nonempty other (List.mem_cons_of_mem _ member)
      · -- the sequence number can only wrap to the start after the last byte
        cases payloads with
        | nil => exact Or.inr rfl
        | cons following rest =>
            left
            have more := List.length_pos_of_ne_nil (nonempty following (by simp))
            rw [List.flatten_cons, List.length_append] at stop
            omega
      · omega

/-- The payload of a connection is delivered, in either direction, exactly when
there is none. -/
theorem session_delivers_iff_no_payload (config : FlowConfig)
    (stream : StreamConfig) (now : BitVec 64) (stats : ReassemblyStats)
    (template : Packet) (id : Nat) (hash client server : BitVec 32)
    (direction : Direction) (payloads : List (List UInt8))
    (tcp : template.ipProto = IPPROTO_TCP)
    (nonempty : ∀ payload ∈ payloads, payload ≠ [])
    (fits : payloads.flatten.length ≤ stream.maxBufferSize.toNat) :
    (∃ flow after, runFlow config stream now
        (newFlow config {} now id hash template, stats)
        (handshake template client server ++ dataSegments template direction
          (direction.isn client server + 1) payloads) = .ok (flow, after) ∧
      flow.reassembled direction = payloads.flatten) ↔ payloads = [] := by
  obtain ⟨opened, openedStats, established, run⟩ := handshake_established config
    stream now stats template client server id hash tcp
  have start : offset (direction.isn client server)
      (direction.isn client server + 1) = 1 := by
    have one := offset_add_ofNat (direction.isn client server)
      (direction.isn client server) 1
    rw [offset_self] at one
    exact one
  have bound := stream.maxBufferSize.isLt
  obtain ⟨final, finalStats, transfer, finalEstablished⟩ :=
    Established.transfer config stream now template direction payloads openedStats
      established nonempty (Or.inl (by rw [start]; exact one_pos))
      (by rw [start]; omega)
  rw [run, transfer]
  constructor
  · rintro ⟨flow, after, same, delivered⟩
    cases same
    rw [finalEstablished.reassembled] at delivered
    cases payloads with
    | nil => rfl
    | cons payload payloads =>
        have more := List.length_pos_of_ne_nil (nonempty payload (by simp))
        have none := congrArg List.length delivered
        rw [List.flatten_cons, List.length_append, List.length_nil] at none
        omega
  · rintro rfl
    exact ⟨final, finalStats, rfl, finalEstablished.reassembled direction⟩

/-- A client that sends one request after the handshake. -/
theorem session_delivers_iff_no_payload_request :
    let template : Packet := ⟨4, IPPROTO_TCP, {}, {}, 49152, 80, none, none, 0⟩
    let config : FlowConfig := ⟨65536, 1000000, 30, 3600⟩
    ¬∃ flow after, runFlow config .default 0
        (newFlow config {} 0 0 0 template, {})
        (handshake template 0xFFFFFFFF 7 ++
          dataSegments template .toserver (0xFFFFFFFF + 1) [[71, 69, 84], [32]]) =
          .ok (flow, after) ∧
      flow.reassembled .toserver = [71, 69, 84, 32] := by
  intro template config delivered
  have none := (session_delivers_iff_no_payload config .default 0 {} template 0 0
    0xFFFFFFFF 7 .toserver [[71, 69, 84], [32]] rfl (by decide) (by decide)).mp
    delivered
  cases none

/-- The first payload byte of a connection stays in the queue. -/
theorem session_loses_first_payload :
    let template : Packet := ⟨4, IPPROTO_TCP, {}, {}, 49152, 80, none, none, 0⟩
    let config : FlowConfig := ⟨65536, 1000000, 30, 3600⟩
    ∃ flow after, runFlow config .default 0
        (newFlow config {} 0 0 0 template, {})
        (handshake template 1000 7 ++
          dataSegments template .toserver (1000 + 1) [[71]]) = .ok (flow, after) ∧
      flow.reassembled .toserver = [] ∧
      flow.reassembled .toserver ≠ [[71]].flatten :=
  ⟨_, _, rfl, by decide, by decide⟩

end NetDefender.Flows
