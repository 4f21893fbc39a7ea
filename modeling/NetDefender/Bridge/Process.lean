import NetDefender.Flow.Session
import NetDefender.Http.Parser
import NetDefender.Packet.Decode
import NetDefender.Proto.Detect
import NetDefender.Tls.Parser

/-!
# The packet pipeline

`process_packet` of `suricata_bridge.c`: a packet is decoded, assigned to a flow, and
used to update the flow; then the application protocol is detected, and the parser of
that protocol is called on what the stream buffer of the packet's direction holds.
The DNS stage, which works on UDP flows that have a detected protocol, the rule
engine, the behavioral detector and the JSON output, which only read this state, and
the packet counters are left out.
-/

namespace NetDefender.Bridge

open NetDefender.Flows NetDefender.Stream

/-! ## Packets -/

/-- `struct rte_mbuf`: the bytes from the start of the data on, and their number. -/
structure Mbuf where
  memory : Packets.Memory
  pktLen : BitVec 32

/-- A 32-bit number as it is loaded from memory. -/
def loadAt (memory : Packets.Memory) (offset : Nat) : BitVec 32 :=
  Packets.byteAt memory (offset + 3) ++ Packets.byteAt memory (offset + 2) ++
    Packets.byteAt memory (offset + 1) ++ Packets.byteAt memory offset

/-- `rte_be_to_cpu_32` of the four bytes at an offset. -/
def longAt (memory : Packets.Memory) (offset : Nat) : BitVec 32 :=
  Packets.wordAt memory offset ++ Packets.wordAt memory (offset + 2)

/-- An address in the IP header. -/
def addressAt (memory : Packets.Memory) (ipVersion : BitVec 8) (offset : Nat) :
    FlowAddress :=
  if ipVersion = 6 then
    ⟨loadAt memory offset, loadAt memory (offset + 4), loadAt memory (offset + 8),
      loadAt memory (offset + 12)⟩
  else { word0 := loadAt memory offset }

/-- The packet that the flow code sees behind the pointers of `packet_info_t`. -/
def packetOf (memory : Packets.Memory) (info : Packets.PacketInfo) : Packet where
  ipVersion := info.ipVersion
  ipProto := info.ipProto
  srcAddr := addressAt memory info.ipVersion
    (info.ipHdr.getD 0 + if info.ipVersion = 6 then 8 else 12)
  dstAddr := addressAt memory info.ipVersion
    (info.ipHdr.getD 0 + if info.ipVersion = 6 then 24 else 16)
  srcPort := info.srcPort
  dstPort := info.dstPort
  tcpHdr := info.transportHdr.map fun offset =>
    { sentSeq := longAt memory (offset + 4)
      tcpFlags := Packets.byteAt memory (offset + 13) }
  payload := info.payload.map fun offset =>
    (List.range info.payloadLen.toNat).map fun index => memory (offset + index)
  payloadLen := info.payloadLen

/-- What `decode_packet` makes of an mbuf: the packet, its flags, and where its payload
starts. -/
structure Decoded where
  pkt : Packet
  flags : BitVec 32
  payloadAt : Nat
  deriving DecidableEq, Repr

/-- `decode_packet`; `none` if it fails. -/
def decode (mbuf : Mbuf) : Option Decoded :=
  let (ret, decoded) := Packets.decodePacket mbuf.memory mbuf.pktLen
  if ret < 0 then none
  else
    some
      { pkt := packetOf mbuf.memory decoded.info
        flags := decoded.info.flags
        payloadAt := decoded.info.payload.getD 0 }

/-! ## The state -/

/-- What `tcp->app_parser` points to. -/
inductive AppParser where
  | http (conn : Http.HttpConn)
  | tls (st : Tls.TlsState)
  deriving DecidableEq, Repr

/-- The fields of a flow and its session that only `process_packet` maintains. -/
structure FlowApp where
  alproto : Proto.AppProto := .unknown
  alprotoTs : BitVec 8 := 0
  alprotoTc : BitVec 8 := 0
  appParser : Option AppParser := none
  deriving DecidableEq, Repr

/-- The flow table, the application state of the flows by identity, and the counters
of the detection context. -/
structure State where
  table : FlowTable
  apps : Nat → FlowApp
  detectStats : Proto.DetectStats

/-- Undefined behaviour that a call can run into: in the stream buffers, or by taking
the parser of one protocol for that of another. -/
inductive Fault where
  | stream (fault : Stream.Fault)
  | confused
  deriving DecidableEq, Repr

/-- The functions and tables that the pipeline is built on; the allocator is asked by
the parser of each flow in its own order. -/
structure Env where
  rteHashCrc : List (BitVec 32) → BitVec 32
  md5 : List Char → CString.Bytes
  rteMalloc : Nat → Nat → Bool
  detectConfig : Proto.DetectConfig
  registry : Proto.Registry

/-- One call of `process_packet`: its argument, the time of day, and the outcomes of
its allocations. -/
structure Call where
  mbuf : Mbuf
  now : BitVec 64
  flow : FlowAllocation := {}
  update : UpdateAllocation := .ok
  parser : Bool := true
  http : Http.Grants := {}

/-! ## Stages -/

/-- `get_packet_direction`. -/
def getPacketDirection (flow : Flow) (pkt : Packet) : Direction :=
  if pkt.ipVersion = 4 then
    if flow.srcAddr.word0 = pkt.srcAddr.word0 ∧ flow.srcPort = pkt.srcPort then
      .toserver
    else .toclient
  else if pkt.ipVersion = 6 then
    if flow.srcAddr = pkt.srcAddr ∧ flow.srcPort = pkt.srcPort then .toserver
    else .toclient
  else .toclient

def FLOW_ALPROTO_MAX_ATTEMPTS : BitVec 8 := 5

/-- The direction as the detection code and the parsers number it. -/
def detectDir : Direction → Proto.Direction
  | .toserver => .toserver
  | .toclient => .toclient

def parserDir : Direction → Nat
  | .toserver => 0
  | .toclient => 1

/-- The detection attempts of a direction. -/
def FlowApp.attempts (app : FlowApp) : Direction → BitVec 8
  | .toserver => app.alprotoTs
  | .toclient => app.alprotoTc

/-- `(*attempts)++`. -/
def FlowApp.countAttempt (app : FlowApp) : Direction → FlowApp
  | .toserver => { app with alprotoTs := app.alprotoTs + 1 }
  | .toclient => { app with alprotoTc := app.alprotoTc + 1 }

/-- Protocol detection, for a TCP flow whose protocol is not known yet. -/
def detectStage (env : Env) (stats : Proto.DetectStats) (memory : Packets.Memory)
    (decoded : Decoded) (flow : Flow) (direction : Direction) (app : FlowApp) :
    FlowApp × Proto.DetectStats :=
  if app.alproto = .unknown ∧ decoded.flags &&& Packets.PKT_DECODED_TCP ≠ 0 ∧
      decoded.pkt.tcpHdr ≠ none ∧ decoded.pkt.payloadLen > 0 ∧
      app.attempts direction < FLOW_ALPROTO_MAX_ATTEMPTS then
    let (ret, result, stats) := Proto.protoDetectGetProto env.detectConfig env.registry
      stats ⟨flow.srcPort, flow.dstPort⟩
      (fun index => memory (decoded.payloadAt + index))
      (decoded.pkt.payloadLen.setWidth 32) (detectDir direction)
    let app :=
      if ret = 0 ∧ result.protocol ≠ .unknown then
        { app with alproto := result.protocol }
      else app
    (app.countAttempt direction, stats)
  else (app, stats)

/-- The data that a parser is called on: what `stream_buffer_get_data` returns for the
direction of the packet, if it is something. -/
def streamData (tcp : TcpSession) (direction : Direction) : Option (List UInt8) :=
  match tcp.buffer direction with
  | none => none
  | some sb => if sb.data ≠ none ∧ sb.dataLen > 0 then some sb.getData else none

/-- The parsing stage of one protocol: its parser is created on first use and called on
the data of the packet's direction. -/
def parserStage (proto : Proto.AppProto) (fresh : AppParser)
    (parse : AppParser → Option (List UInt8) → Except Fault AppParser) (granted : Bool)
    (flow : Flow) (direction : Direction) (app : FlowApp) : Except Fault FlowApp :=
  match flow.tcp with
  | none => .ok app
  | some tcp =>
      if app.alproto = proto then
        match app.appParser.or (if granted then some fresh else none) with
        | none => .ok app
        | some parser =>
            match parse parser (streamData tcp direction) with
            | .error fault => .error fault
            | .ok parser => .ok { app with appParser := some parser }
      else .ok app

/-- The call of `http_parser_parse` on what `app_parser` points to. -/
def parseHttp (grants : Http.Grants) (direction : Direction) :
    AppParser → Option (List UInt8) → Except Fault AppParser
  | .tls _, _ => .error .confused
  | .http conn, none => .ok (.http conn)
  | .http conn, some data =>
      .ok (.http (conn.httpParserParse data (parserDir direction) grants).2)

/-- The call of `tls_parser_parse` on what `app_parser` points to; the number of bytes
that it has used is only logged. -/
def parseTls (md5 : List Char → CString.Bytes) (rteMalloc : Nat → Bool)
    (direction : Direction) :
    AppParser → Option (List UInt8) → Except Fault AppParser
  | .http _, _ => .error .confused
  | .tls conn, none => .ok (.tls conn)
  | .tls conn, some data =>
      .ok (.tls (Tls.tlsParserParse md5 rteMalloc conn data
        (UInt8.ofNat (parserDir direction))).2)

/-- HTTP parsing. -/
def httpStage (call : Call) (flow : Flow) (direction : Direction) (app : FlowApp) :
    Except Fault FlowApp :=
  parserStage .http (.http {}) (parseHttp call.http direction) call.parser flow direction
    app

/-- TLS parsing. -/
def tlsStage (env : Env) (call : Call) (flow : Flow) (direction : Direction)
    (app : FlowApp) : Except Fault FlowApp :=
  parserStage .tls (.tls {}) (parseTls env.md5 (env.rteMalloc flow.id) direction)
    call.parser flow direction app

/-- What `process_packet` does with the flow that `flow_get` has returned. -/
def processFlow (env : Env) (call : Call) (decoded : Decoded) (st : State)
    (flow : Flow) : Except Fault State :=
  let table := st.table
  let direction := getPacketDirection flow decoded.pkt
  match flowUpdate table.config table.stream call.update call.now table.reassembly flow
      decoded.pkt direction with
  | .error fault => .error (.stream fault)
  | .ok (flow, reassembly) =>
      let (app, detectStats) := detectStage env st.detectStats call.mbuf.memory decoded
        flow direction (st.apps flow.id)
      match httpStage call flow direction app with
      | .error fault => .error fault
      | .ok app =>
          match tlsStage env call flow direction app with
          | .error fault => .error fault
          | .ok app =>
              .ok
                { table :=
                    { table.modify flow.id fun _ => flowRelease flow with reassembly }
                  apps := Function.update st.apps flow.id app
                  detectStats }

/-- `process_packet`: the return value and the state after the call. -/
def processPacket (env : Env) (st : State) (call : Call) : Except Fault (Int × State) :=
  match decode call.mbuf with
  | none => .ok (-1, st)
  | some decoded =>
      if decoded.flags &&& Packets.PKT_DECODED_TCP ≠ 0 ∨
          decoded.flags &&& Packets.PKT_DECODED_UDP ≠ 0 then
        match flowGet env.rteHashCrc call.flow call.now st.table decoded.pkt with
        | (none, table) => .ok (0, { st with table })
        | (some id, table) =>
            match table.find id with
            | none => .ok (0, { st with table })
            | some flow =>
                match processFlow env call decoded { st with table } flow with
                | .error fault => .error fault
                | .ok st => .ok (0, st)
      else .ok (0, st)

/-- The state after one call. -/
def Call.run (env : Env) (st : State) (call : Call) : Except Fault State :=
  (processPacket env st call).map Prod.snd

/-- The state after a list of calls. -/
def runPackets (env : Env) (st : State) (calls : List Call) : Except Fault State :=
  calls.foldlM (Call.run env) st

end NetDefender.Bridge
