import NetDefender.Stream.Model

/-!
# Flows

The flow table of `flow.c`: flows are looked up by the hash of a packet's
addresses and ports, created on the first packet, updated by a TCP state machine
that feeds the two stream buffers of the session, and removed when they expire.

`rte_hash_crc` is a parameter of the table.  A flow's identity, its address in
memory, is a number handed out by `flow_alloc`.  Locks and log lines are left
out, and so are the parser contexts that `flow_free` releases.
-/

namespace NetDefender.Flows

open NetDefender.Stream

/-! ## Packets -/

/-- `flow_address_t`; IPv4 uses the first word only. -/
structure FlowAddress where
  word0 : BitVec 32 := 0
  word1 : BitVec 32 := 0
  word2 : BitVec 32 := 0
  word3 : BitVec 32 := 0
  deriving DecidableEq, Repr

/-- The words of an address in memory order. -/
def FlowAddress.words (address : FlowAddress) : List (BitVec 32) :=
  [address.word0, address.word1, address.word2, address.word3]

/-- The fields of a TCP header that `flow_update` reads. -/
structure TcpHdr where
  sentSeq : BitVec 32
  tcpFlags : BitVec 8
  deriving DecidableEq, Repr

/-- A decoded packet as the flow code reads it: `packet_info_t` with the header
pointers followed.  The addresses are those of the IPv4 or of the IPv6 header,
as `ip_version` says. -/
structure Packet where
  ipVersion : BitVec 8
  ipProto : BitVec 8
  srcAddr : FlowAddress
  dstAddr : FlowAddress
  srcPort : BitVec 16
  dstPort : BitVec 16
  tcpHdr : Option TcpHdr := none
  payload : Option (List UInt8) := none
  payloadLen : BitVec 16 := 0
  deriving DecidableEq, Repr

def IPPROTO_TCP : BitVec 8 := 6

def RTE_TCP_FIN_FLAG : BitVec 8 := 0x01
def RTE_TCP_SYN_FLAG : BitVec 8 := 0x02
def RTE_TCP_RST_FLAG : BitVec 8 := 0x04
def RTE_TCP_ACK_FLAG : BitVec 8 := 0x10

/-- `flags & flag` as a condition. -/
def hasFlag (flags flag : BitVec 8) : Bool := decide (flags &&& flag ≠ 0)

/-- `FLOW_DIR_TOSERVER` and `FLOW_DIR_TOCLIENT`. -/
inductive Direction where
  | toserver
  | toclient
  deriving DecidableEq, Repr

/-! ## Flows -/

/-- `tcp_state_t`. -/
inductive TcpState where
  | none
  | listen
  | synSent
  | synRecv
  | established
  | finWait1
  | finWait2
  | timeWait
  | closeWait
  | lastAck
  | closing
  | closed
  deriving DecidableEq, Repr

/-- `tcp_session_t`; a stream buffer is `none` if its allocation failed. -/
structure TcpSession where
  state : TcpState := .none
  segCnt : Nat := 0
  byteCnt : Nat := 0
  toserverSb : Option StreamBuffer
  toclientSb : Option StreamBuffer
  deriving DecidableEq, Repr

def FLOW_IPV4 : BitVec 32 := 1
def FLOW_IPV6 : BitVec 32 := 2
def FLOW_TO_SRC_SEEN : BitVec 32 := 4
def FLOW_TO_DST_SEEN : BitVec 32 := 8

/-- `flow_t`. -/
structure Flow where
  id : Nat
  srcAddr : FlowAddress := {}
  dstAddr : FlowAddress := {}
  srcPort : BitVec 16 := 0
  dstPort : BitVec 16 := 0
  proto : BitVec 8 := 0
  flags : BitVec 32 := 0
  flowHash : BitVec 32 := 0
  startTs : BitVec 64 := 0
  lastTs : BitVec 64 := 0
  timeoutPolicy : BitVec 32 := 0
  tcp : Option TcpSession := none
  toserverPktCnt : Nat := 0
  toclientPktCnt : Nat := 0
  toserverByteCnt : Nat := 0
  toclientByteCnt : Nat := 0
  useCnt : BitVec 16
  deriving DecidableEq, Repr

/-- `flow_config_t`. -/
structure FlowConfig where
  hashSize : BitVec 32
  maxFlows : BitVec 32
  timeoutNew : BitVec 32
  timeoutEst : BitVec 32
  deriving DecidableEq, Repr

/-- `flow_stats_t`. -/
structure FlowStats where
  flowsCreated : BitVec 64 := 0
  flowsRemoved : BitVec 64 := 0
  flowsTimeout : BitVec 64 := 0
  flowsActive : BitVec 64 := 0
  deriving DecidableEq, Repr

/-- The module's globals, the statistics of the reassembler, and the next
identity that `flow_alloc` hands out. -/
structure FlowTable where
  config : FlowConfig
  stream : StreamConfig
  buckets : List (List Flow)
  stats : FlowStats
  reassembly : ReassemblyStats
  nextId : Nat
  deriving DecidableEq, Repr

/-- `flow_init`; `none` reports an invalid size or a failed `calloc`. -/
def flowInit (stream : StreamConfig) (reassembly : ReassemblyStats)
    (hashSize maxFlows : BitVec 32) (allocated : Bool) : Option FlowTable :=
  if hashSize = 0 ∨ hashSize &&& (hashSize - 1) ≠ 0 then none
  else if allocated then
    some
      { config := { hashSize, maxFlows, timeoutNew := 30, timeoutEst := 3600 }
        stream
        buckets := List.replicate hashSize.toNat []
        stats := {}
        reassembly
        nextId := 0 }
  else none

/-! ## Lookup -/

/-- The words that `flow_hash_calculate` hashes. -/
def hashInput (pkt : Packet) : List (BitVec 32) :=
  (if pkt.ipVersion = 4 then [pkt.srcAddr.word0, pkt.dstAddr.word0]
    else if pkt.ipVersion = 6 then pkt.srcAddr.words ++ pkt.dstAddr.words
    else []) ++
  [pkt.srcPort.setWidth 32 <<< 16 ||| pkt.dstPort.setWidth 32,
    pkt.ipProto.setWidth 32]

/-- `flow_hash_calculate`. -/
def flowHashCalculate (rteHashCrc : List (BitVec 32) → BitVec 32) (pkt : Packet) :
    BitVec 32 :=
  rteHashCrc (hashInput pkt)

/-- The address comparison of `flow_match` for the version of the packet. -/
def sameAddress (ipVersion : BitVec 8) (left right : FlowAddress) : Bool :=
  if ipVersion = 4 then decide (left.word0 = right.word0)
  else if ipVersion = 6 then decide (left = right)
  else false

/-- `flow_match`. -/
def flowMatch (flow : Flow) (pkt : Packet) : Bool :=
  if flow.proto ≠ pkt.ipProto then false
  else if flow.flags &&& FLOW_IPV4 ≠ 0 ∧ pkt.ipVersion ≠ 4 then false
  else if flow.flags &&& FLOW_IPV6 ≠ 0 ∧ pkt.ipVersion ≠ 6 then false
  else
    let forwardMatch :=
      sameAddress pkt.ipVersion flow.srcAddr pkt.srcAddr &&
        sameAddress pkt.ipVersion flow.dstAddr pkt.dstAddr &&
        flow.srcPort = pkt.srcPort && flow.dstPort = pkt.dstPort
    let reverseMatch :=
      sameAddress pkt.ipVersion flow.srcAddr pkt.dstAddr &&
        sameAddress pkt.ipVersion flow.dstAddr pkt.srcAddr &&
        flow.srcPort = pkt.dstPort && flow.dstPort = pkt.srcPort
    forwardMatch || reverseMatch

/-- Outcomes of the allocations of `flow_get`. -/
structure FlowAllocation where
  flow : Bool := true
  session : Bool := true
  toserverSb : Bool := true
  toclientSb : Bool := true
  deriving DecidableEq, Repr

/-- `flow_alloc`. -/
def flowAlloc (id : Nat) : Flow := { id, useCnt := 1 }

/-- The session that `flow_get` sets up for a TCP flow. -/
def newSession (alloc : FlowAllocation) : Option TcpSession :=
  if alloc.session then
    some
      { toserverSb := if alloc.toserverSb then some .zeroed else none
        toclientSb := if alloc.toclientSb then some .zeroed else none }
  else none

/-- The initialisation of a new flow in `flow_get`; `now` is the time of day. -/
def newFlow (config : FlowConfig) (alloc : FlowAllocation) (now : BitVec 64)
    (id : Nat) (hash : BitVec 32) (pkt : Packet) : Flow :=
  let flow := { flowAlloc id with flowHash := hash, proto := pkt.ipProto }
  let flow :=
    if pkt.ipVersion = 4 then
      { flow with
        flags := flow.flags ||| FLOW_IPV4
        srcAddr := { flow.srcAddr with word0 := pkt.srcAddr.word0 }
        dstAddr := { flow.dstAddr with word0 := pkt.dstAddr.word0 } }
    else if pkt.ipVersion = 6 then
      { flow with
        flags := flow.flags ||| FLOW_IPV6
        srcAddr := pkt.srcAddr
        dstAddr := pkt.dstAddr }
    else flow
  { flow with
    srcPort := pkt.srcPort
    dstPort := pkt.dstPort
    startTs := now
    lastTs := now
    timeoutPolicy := config.timeoutNew
    tcp := if pkt.ipProto = IPPROTO_TCP then newSession alloc else none }

/-- `flow->use_cnt++` on the first flow of a bucket that the test accepts. -/
def takeFirst (test : Flow → Bool) : List Flow → Option (Flow × List Flow)
  | [] => none
  | flow :: rest =>
      if test flow then
        let taken := { flow with useCnt := flow.useCnt + 1 }
        some (taken, taken :: rest)
      else
        match takeFirst test rest with
        | none => none
        | some (taken, rest) => some (taken, flow :: rest)

/-- `flow_get`: the flow's identity, or `none` for `NULL`. -/
def flowGet (rteHashCrc : List (BitVec 32) → BitVec 32) (alloc : FlowAllocation)
    (now : BitVec 64) (table : FlowTable) (pkt : Packet) :
    Option Nat × FlowTable :=
  let hash := flowHashCalculate rteHashCrc pkt
  let bucketIdx := (hash &&& (table.config.hashSize - 1)).toNat
  let bucket := table.buckets.getD bucketIdx []
  match takeFirst (fun flow => flow.flowHash = hash && flowMatch flow pkt) bucket with
  | some (flow, bucket) =>
      (some flow.id, { table with buckets := table.buckets.set bucketIdx bucket })
  | none =>
      if table.stats.flowsActive ≥ table.config.maxFlows.setWidth 64 then
        (none, table)
      else if alloc.flow then
        let flow := newFlow table.config alloc now table.nextId hash pkt
        (some flow.id,
          { table with
            buckets := table.buckets.set bucketIdx (flow :: bucket)
            stats :=
              { table.stats with
                flowsCreated := table.stats.flowsCreated + 1
                flowsActive := table.stats.flowsActive + 1 }
            nextId := table.nextId + 1 })
      else (none, table)

/-! ## The TCP state machine -/

/-- The `switch` of `flow_update`: the state after a packet with these flags. -/
def nextState (state : TcpState) (flags : BitVec 8) (direction : Direction) :
    TcpState :=
  let syn := hasFlag flags RTE_TCP_SYN_FLAG
  let ack := hasFlag flags RTE_TCP_ACK_FLAG
  let fin := hasFlag flags RTE_TCP_FIN_FLAG
  let rst := hasFlag flags RTE_TCP_RST_FLAG
  match state with
  | .none =>
      if syn then (if ack then .synRecv else .synSent)
      else if rst then .closed
      else .none
  | .synSent =>
      if syn && ack then .synRecv
      else if syn then .synRecv
      else if rst then .closed
      else .synSent
  | .synRecv =>
      if ack then .established
      else if rst then .closed
      else .synRecv
  | .established =>
      if fin then
        match direction with
        | .toserver => .finWait1
        | .toclient => .closeWait
      else if rst then .closed
      else .established
  | .finWait1 =>
      if fin then (if ack then .timeWait else .closing)
      else if ack then .finWait2
      else if rst then .closed
      else .finWait1
  | .finWait2 =>
      if fin then .timeWait
      else if rst then .closed
      else .finWait2
  | .closing =>
      if ack then .timeWait
      else if rst then .closed
      else .closing
  | .timeWait => if rst then .closed else .timeWait
  | .closeWait =>
      if fin then .lastAck
      else if rst then .closed
      else .closeWait
  | .lastAck =>
      if ack then .closed
      else if rst then .closed
      else .lastAck
  | .closed => .closed
  | .listen => .listen

/-- Outcomes of the allocations of `flow_update`: the memory of the two stream
buffers, and what the insertion of the payload asks for. -/
structure UpdateAllocation where
  toserverData : Bool
  toclientData : Bool
  insert : Allocation

/-- Every allocation of the call succeeds. -/
def UpdateAllocation.ok : UpdateAllocation := ⟨true, true, .ok⟩

/-- Set up a stream buffer that has no memory yet, with the sequence number of the
packet, as `flow_update` does when the session is in the state `expected`. -/
def initStreamBuffer (config : StreamConfig) (allocated : Bool)
    (expected state : TcpState) (hdr : TcpHdr) (stats : ReassemblyStats)
    (sb : Option StreamBuffer) : Option StreamBuffer × ReassemblyStats :=
  match sb with
  | none => (none, stats)
  | some buffer =>
      if state = expected ∧ buffer.data = none then
        let (_, st) := streamBufferInit config stats hdr.sentSeq .linux allocated
        (some st.sb, st.stats)
      else (some buffer, stats)

/-- Insert the packet's payload into the stream buffer of its direction. -/
def insertPayload (config : StreamConfig) (alloc : Allocation) (state : TcpState)
    (hdr : TcpHdr) (pkt : Packet) (stats : ReassemblyStats)
    (sb : Option StreamBuffer) :
    Except Fault (Option StreamBuffer × ReassemblyStats) :=
  match sb with
  | none => .ok (none, stats)
  | some buffer =>
      if pkt.payloadLen > 0 ∧ state = .established ∧ buffer.data ≠ none then
        match streamBufferInsertSegment config alloc { sb := buffer, stats }
            hdr.sentSeq pkt.payload pkt.payloadLen with
        | .error fault => .error fault
        | .ok (_, st) => .ok (some st.sb, st.stats)
      else .ok (some buffer, stats)

/-- The session part of `flow_update`. -/
def updateSession (config : StreamConfig) (alloc : UpdateAllocation)
    (stats : ReassemblyStats) (tcp : TcpSession) (hdr : TcpHdr) (pkt : Packet)
    (direction : Direction) : Except Fault (TcpSession × ReassemblyStats) :=
  let state := nextState tcp.state hdr.tcpFlags direction
  let (toserverSb, stats) := initStreamBuffer config alloc.toserverData .synSent
    state hdr stats tcp.toserverSb
  let (toclientSb, stats) := initStreamBuffer config alloc.toclientData .synRecv
    state hdr stats tcp.toclientSb
  let tcp : TcpSession :=
    { state
      segCnt := tcp.segCnt + 1
      byteCnt := tcp.byteCnt + pkt.payloadLen.toNat
      toserverSb
      toclientSb }
  match direction with
  | .toserver =>
      match insertPayload config alloc.insert state hdr pkt stats toserverSb with
      | .error fault => .error fault
      | .ok (sb, stats) => .ok ({ tcp with toserverSb := sb }, stats)
  | .toclient =>
      match insertPayload config alloc.insert state hdr pkt stats toclientSb with
      | .error fault => .error fault
      | .ok (sb, stats) => .ok ({ tcp with toclientSb := sb }, stats)

/-- Entering `TCP_ESTABLISHED` from `TCP_SYN_RECV` moves the flow to the longer
timeout. -/
def timeoutAfter (config : FlowConfig) (timeoutPolicy : BitVec 32)
    (tcp : TcpSession) (hdr : TcpHdr) : BitVec 32 :=
  if tcp.state = .synRecv ∧ hasFlag hdr.tcpFlags RTE_TCP_ACK_FLAG then
    config.timeoutEst
  else timeoutPolicy

/-- The timestamp and the packet counters of `flow_update`. -/
def countPacket (now : BitVec 64) (flow : Flow) (pkt : Packet)
    (direction : Direction) : Flow :=
  let flow := { flow with lastTs := now }
  match direction with
  | .toserver =>
      { flow with
        toserverPktCnt := flow.toserverPktCnt + 1
        toserverByteCnt := flow.toserverByteCnt + pkt.payloadLen.toNat
        flags := flow.flags ||| FLOW_TO_DST_SEEN }
  | .toclient =>
      { flow with
        toclientPktCnt := flow.toclientPktCnt + 1
        toclientByteCnt := flow.toclientByteCnt + pkt.payloadLen.toNat
        flags := flow.flags ||| FLOW_TO_SRC_SEEN }

/-- `flow_update`. -/
def flowUpdate (config : FlowConfig) (stream : StreamConfig)
    (alloc : UpdateAllocation) (now : BitVec 64) (stats : ReassemblyStats)
    (flow : Flow) (pkt : Packet) (direction : Direction) :
    Except Fault (Flow × ReassemblyStats) :=
  let flow := countPacket now flow pkt direction
  if flow.proto = IPPROTO_TCP then
    match flow.tcp, pkt.tcpHdr with
    | some tcp, some hdr =>
        match updateSession stream alloc stats tcp hdr pkt direction with
        | .error fault => .error fault
        | .ok (session, stats) =>
            .ok ({ flow with
              tcp := some session
              timeoutPolicy := timeoutAfter config flow.timeoutPolicy tcp hdr },
              stats)
    | _, _ => .ok (flow, stats)
  else .ok (flow, stats)

/-- `flow_release`. -/
def flowRelease (flow : Flow) : Flow :=
  if flow.useCnt > 0 then { flow with useCnt := flow.useCnt - 1 } else flow

/-! ## Expiry -/

/-- The test of `flow_cleanup_expired`; the age is computed in 32 bits. -/
def shouldRemove (now : BitVec 64) (flow : Flow) : Bool :=
  let age : BitVec 32 := (now - flow.lastTs).setWidth 32
  flow.useCnt = 0 && age > flow.timeoutPolicy

/-- The stream buffers that `flow_free` releases. -/
def flowFree (stats : ReassemblyStats) (flow : Flow) : ReassemblyStats :=
  let release (stats : ReassemblyStats) (sb : Option StreamBuffer) :
      ReassemblyStats :=
    match sb with
    | none => stats
    | some buffer => (streamBufferFree { sb := buffer, stats }).stats
  match flow.tcp with
  | some tcp =>
      if flow.proto = IPPROTO_TCP then
        release (release stats tcp.toserverSb) tcp.toclientSb
      else stats
  | none => stats

/-- `flow_cleanup_expired`. -/
def flowCleanupExpired (now : BitVec 64) (table : FlowTable) : Nat × FlowTable :=
  let expired := table.buckets.flatten.filter (shouldRemove now)
  let removed := expired.length
  (removed,
    { table with
      buckets := table.buckets.map (List.filter fun flow => !shouldRemove now flow)
      stats :=
        { table.stats with
          flowsRemoved := table.stats.flowsRemoved + BitVec.ofNat 64 removed
          flowsTimeout := table.stats.flowsTimeout + BitVec.ofNat 64 removed
          flowsActive := table.stats.flowsActive - BitVec.ofNat 64 removed }
      reassembly := expired.foldl flowFree table.reassembly })

/-! ## Runs -/

/-- Replace the flow with the given identity. -/
def FlowTable.modify (table : FlowTable) (id : Nat) (change : Flow → Flow) :
    FlowTable :=
  { table with
    buckets := table.buckets.map fun bucket =>
      bucket.map fun flow => if flow.id = id then change flow else flow }

/-- The flow with the given identity, if it is in the table. -/
def FlowTable.find (table : FlowTable) (id : Nat) : Option Flow :=
  table.buckets.flatten.find? fun flow => flow.id = id

/-- One call on the flow table; a flow is named by its identity. -/
inductive TableOp where
  | get (alloc : FlowAllocation) (now : BitVec 64) (pkt : Packet)
  | update (alloc : UpdateAllocation) (now : BitVec 64) (id : Nat) (pkt : Packet)
      (direction : Direction)
  | release (id : Nat)
  | cleanup (now : BitVec 64)

/-- The table after one call.  A call that names no flow of the table does
nothing, as for a `NULL` flow. -/
def TableOp.run (rteHashCrc : List (BitVec 32) → BitVec 32) (table : FlowTable) :
    TableOp → Except Fault FlowTable
  | .get alloc now pkt => .ok (flowGet rteHashCrc alloc now table pkt).2
  | .update alloc now id pkt direction =>
      match table.find id with
      | none => .ok table
      | some flow =>
          match flowUpdate table.config table.stream alloc now table.reassembly
              flow pkt direction with
          | .error fault => .error fault
          | .ok (flow, reassembly) =>
              .ok { table.modify id fun _ => flow with reassembly }
  | .release id => .ok (table.modify id flowRelease)
  | .cleanup now => .ok (flowCleanupExpired now table).2

/-- The table after a list of calls. -/
def runTable (rteHashCrc : List (BitVec 32) → BitVec 32) (table : FlowTable)
    (ops : List TableOp) : Except Fault FlowTable :=
  ops.foldlM (TableOp.run rteHashCrc) table

end NetDefender.Flows
