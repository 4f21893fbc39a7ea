import NetDefender.Bridge.Coherence

/-!
# What the protocol contexts point to

Three places decide how a context is used: the transport of a flow, its detected
protocol, and the pointer that is stored.  They agree in every run, for every reader but
two: the detector and the statistics take the context of a flow that is known as DNS for a
DNS connection, and a TCP flow keeps its session there.  A UDP flow never gets a protocol,
so that its DNS connection is never created.
-/

namespace NetDefender.Bridge

open NetDefender.Flows

/-! ## Contexts -/

/-- In a run from a new table, no context is taken for an object of another protocol, if and
only if no packet is misread. -/
theorem contexts_not_confused_iff (env : Env) (stream : Stream.StreamConfig)
    (reassembly : Stream.ReassemblyStats) (hashSize maxFlows : BitVec 32) (allocated : Bool)
    (table : FlowTable)
    (init : flowInit stream reassembly hashSize maxFlows allocated = some table)
    (events : List Event) :
    runEvents env (.start table) events ≠ .error .confused ↔
      ∀ front arrival back middle reports, events = front ++ .packet arrival :: back →
        runEvents env (.start table) front = .ok (middle, reports) →
          ¬Misread env middle arrival := by
  have coherent : Coherent env (.start table) :=
    start_coherent (flowInit_tallied init) (flowInit_empty init).1
  obtain ⟨stops, passes⟩ := Coherent.run events coherent
  constructor
  · intro fine front arrival back middle reports split run misread
    exact fine (stops ⟨front, arrival, back, middle, reports, split, run, misread⟩)
  · intro none confused
    obtain ⟨after, reports, run, -⟩ := passes fun ⟨front, arrival, back, middle, reports,
      split, run, misread⟩ => none front arrival back middle reports split run misread
    rw [run] at confused
    cases confused

/-! ## Packets on the wire -/

/-- A 16-bit number in network byte order. -/
def bigEndian (value : Nat) : List UInt8 := [UInt8.ofNat (value / 256), UInt8.ofNat value]

/-- A frame with an IPv4 packet from 10.0.0.1 to 10.0.0.2. -/
def ipv4Frame (ipProto : UInt8) (segment : List UInt8) : Mbuf :=
  let frame : List UInt8 :=
    [2, 0, 0, 0, 0, 2, 2, 0, 0, 0, 0, 1, 0x08, 0x00] ++
    [0x45, 0] ++ bigEndian (20 + segment.length) ++
    [0, 0, 0, 0, 64, ipProto, 0, 0, 10, 0, 0, 1, 10, 0, 0, 2] ++ segment
  { memory := Packets.frameMemory frame
    pktLen := BitVec.ofNat 32 frame.length }

/-- A TCP segment from port 40000 with sequence number 1000. -/
def tcpFrame (dstPort : Nat) (flags : UInt8) (payload : List UInt8) : Mbuf :=
  ipv4Frame 6 (bigEndian 40000 ++ bigEndian dstPort ++
    [0, 0, 3, 0xE8, 0, 0, 0, 0, 0x50, flags, 0, 0, 0, 0, 0, 0] ++ payload)

/-- A UDP datagram from port 40000. -/
def udpFrame (dstPort : Nat) (payload : List UInt8) : Mbuf :=
  ipv4Frame 17 (bigEndian 40000 ++ bigEndian dstPort ++ bigEndian (8 + payload.length) ++
    [0, 0] ++ payload)

/-- A call on a frame, with every allocation granted. -/
def arrivalOf (mbuf : Mbuf) : Arrival := { mbuf, now := 0 }

/-- The functions and tables of the program, with one hash for all flows. -/
def plainEnv : Env where
  rteHashCrc _ := 0
  md5 _ := []
  rteMalloc _ _ := true
  detectConfig := {}
  registry := Proto.protoDetectInit

/-- A new flow table with room for 16 flows. -/
def plainTable : FlowTable where
  config := { hashSize := 4, maxFlows := 16, timeoutNew := 30, timeoutEst := 3600 }
  stream := .default
  buckets := [[], [], [], []]
  stats := {}
  reassembly := {}
  nextId := 0

theorem plainTable_init : flowInit .default {} 4 16 true = some plainTable := by decide +kernel

/-- A DNS query for the address of `a`. -/
def query : List UInt8 := [0, 7, 1, 0, 0, 1, 0, 0, 0, 0, 0, 0, 1, 97, 0, 0, 1, 0, 1]

/-- A TCP connection to port 80 and one to port 53, with a request and a query in their
first packets. -/
def requestThenQuery : List Event :=
  [.packet (arrivalOf (tcpFrame 80 0x18 (CString.ascii "GET / HTTP/1.1\r\n"))),
    .packet (arrivalOf (tcpFrame 53 0x18 query))]

/-- The fault that a run ends with. -/
def faultOf {α : Type} : Except Fault α → Option Fault
  | .error fault => some fault
  | .ok _ => none

theorem faultOf_eq_some {α : Type} {result : Except Fault α} {fault : Fault} :
    faultOf result = some fault ↔ result = .error fault := by
  cases result <;> simp [faultOf]

/-- The session of a TCP flow is taken for a DNS connection. -/
theorem session_taken_for_dns :
    runEvents plainEnv (.start plainTable) requestThenQuery = .error .confused :=
  faultOf_eq_some.mp (by decide +kernel)

/-- The first packet alone is processed: there is no detector yet. -/
theorem contexts_not_confused_request :
    runEvents plainEnv (.start plainTable) (requestThenQuery.take 1) ≠ .error .confused := by
  refine (contexts_not_confused_iff plainEnv .default {} 4 16 true plainTable plainTable_init
    (requestThenQuery.take 1)).mpr ?_
  rintro front arrival back middle reports split run ⟨_, _, _, _, _, watched⟩
  cases front with
  | nil =>
      cases run
      rcases watched with present | due
      · exact present rfl
      · exact absurd due (by decide)
  | cons first front =>
      have short := congrArg List.length split
      simp [requestThenQuery] at short

/-! ## DNS over UDP -/

/-- The flow is known as DNS, and its connection has a transaction with this id and first
question. -/
structure Recorded (lcore : Lcore) (flow : Flow) (txid : BitVec 16) (qname : CString.Bytes) :
    Prop where
  alproto : (lcore.apps flow.id).alproto = .dns
  transaction : ∃ conn ∈ lcore.dns flow.id, ∃ tx ∈ conn.transactions, tx.txid = txid ∧
    tx.questions.head?.bind (·.qname) = some qname

/-- In no run is a UDP flow known as DNS, or a message of it recorded, whatever its packets
are. -/
theorem udp_never_recorded (env : Env) (stream : Stream.StreamConfig)
    (reassembly : Stream.ReassemblyStats) (hashSize maxFlows : BitVec 32) (allocated : Bool)
    (table : FlowTable)
    (init : flowInit stream reassembly hashSize maxFlows allocated = some table)
    (events : List Event) (lcore : Lcore) (reports : List Report)
    (run : runEvents env (.start table) events = .ok (lcore, reports)) (flow : Flow)
    (member : flow ∈ lcore.table.flows) (udp : flow.proto = Packets.IPPROTO_UDP)
    (txid : BitVec 16) (qname : CString.Bytes) :
    (lcore.apps flow.id).alproto ≠ .dns ∧ lcore.dns flow.id = none ∧
      ¬Recorded lcore flow txid qname := by
  have coherent : Coherent env (.start table) :=
    start_coherent (flowInit_tallied init) (flowInit_empty init).1
  obtain ⟨stops, passes⟩ := Coherent.run events coherent
  have fine : ¬Misreads env (.start table) events := by
    intro misreads
    rw [stops misreads] at run
    cases run
  obtain ⟨after, reports', run', coherent'⟩ := passes fine
  rw [run] at run'
  cases run'
  have notTcp : flow.proto ≠ IPPROTO_TCP := by
    rw [udp]
    decide
  have unknown : (lcore.apps flow.id).alproto ≠ .dns := by
    rw [coherent'.unclassified flow member notTcp]
    decide
  exact ⟨unknown, coherent'.noDns flow.id, fun recorded => unknown recorded.alproto⟩

/-- The flows after a run, with their protocols. -/
def flowsAfter : Except Fault (Lcore × List Report) → List (Flow × Proto.AppProto)
  | .ok (lcore, _) => lcore.table.flows.map fun flow => (flow, (lcore.apps flow.id).alproto)
  | .error _ => []

/-- A datagram to port 53 with a query. -/
def queryDatagram : List Event := [.packet (arrivalOf (udpFrame 53 query))]

/-- Its flow has no protocol. -/
theorem queryDatagram_flow :
    ∃ lcore reports flow, runEvents plainEnv (.start plainTable) queryDatagram =
        .ok (lcore, reports) ∧
      flow ∈ lcore.table.flows ∧ flow.proto = Packets.IPPROTO_UDP ∧ flow.dstPort = 53 ∧
      (lcore.apps flow.id).alproto = .unknown := by
  have flows : (flowsAfter (runEvents plainEnv (.start plainTable) queryDatagram)).map
      (fun (flow, alproto) => (flow.proto, flow.dstPort, alproto)) =
        [(Packets.IPPROTO_UDP, 53, .unknown)] := by
    decide +kernel
  generalize runEvents plainEnv (.start plainTable) queryDatagram = result at flows
  cases result with
  | error fault => cases flows
  | ok final =>
      obtain ⟨lcore, reports⟩ := final
      simp only [flowsAfter, List.map_map] at flows
      have first : (Packets.IPPROTO_UDP, 53, .unknown) ∈
          [(Packets.IPPROTO_UDP, (53 : BitVec 16), Proto.AppProto.unknown)] :=
        List.mem_cons_self
      rw [← flows] at first
      obtain ⟨flow, member, same⟩ := List.mem_map.mp first
      simp only [Function.comp_apply, Prod.mk.injEq] at same
      exact ⟨lcore, reports, flow, rfl, member, same.1, same.2.1, same.2.2⟩

theorem udp_never_recorded_query :
    ∃ lcore reports flow, runEvents plainEnv (.start plainTable) queryDatagram =
        .ok (lcore, reports) ∧
      flow ∈ lcore.table.flows ∧ flow.proto = Packets.IPPROTO_UDP ∧ flow.dstPort = 53 ∧
      (lcore.apps flow.id).alproto ≠ .dns ∧ lcore.dns flow.id = none ∧
      ¬Recorded lcore flow 7 (CString.ascii "a") := by
  obtain ⟨lcore, reports, flow, run, member, udp, port, -⟩ := queryDatagram_flow
  exact ⟨lcore, reports, flow, run, member, udp, port,
    udp_never_recorded plainEnv .default {} 4 16 true plainTable plainTable_init queryDatagram
      lcore reports run flow member udp 7 (CString.ascii "a")⟩

/-- The parser takes the query, and still no flow records it. -/
theorem query_not_recorded :
    (Logged.value (DnsParser.dnsParserParse {} {} (Packets.frameMemory query) query.length
      false)).2.transactions.map (fun tx => (tx.txid, tx.questions.map (·.qname))) =
        [(7, [some (CString.ascii "a")])] ∧
    ∃ lcore reports flow, runEvents plainEnv (.start plainTable) queryDatagram =
        .ok (lcore, reports) ∧
      flow ∈ lcore.table.flows ∧ flow.proto = Packets.IPPROTO_UDP ∧ flow.dstPort = 53 ∧
      ¬Recorded lcore flow 7 (CString.ascii "a") := by
  refine ⟨by decide +kernel, ?_⟩
  obtain ⟨lcore, reports, flow, run, member, udp, port, unknown⟩ := queryDatagram_flow
  refine ⟨lcore, reports, flow, run, member, udp, port, fun recorded => ?_⟩
  rw [recorded.alproto] at unknown
  cases unknown

end NetDefender.Bridge
