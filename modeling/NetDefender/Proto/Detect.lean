import NetDefender.Lib.CString
import Mathlib.Data.BitVec

/-!
# Protocol detection

The detection engine of `proto_detect.c` with the detectors that
`proto_detect_init` registers: HTTP patterns (`proto_http.c`) and the TLS and DNS
probing parsers (`proto_tls.c`, `proto_dns.c`).  Lists are built by prepending, as
in the source.  A payload is the memory behind `data` and a length.  Log lines are
left out; registration is modelled with its allocations granted.
-/

namespace NetDefender.Proto

open CString

/-- The bytes from a data pointer on. -/
abbrev Memory := Nat → UInt8

/-- `app_proto_t`. -/
inductive AppProto where
  | unknown
  | http
  | tls
  | dns
  | smtp
  | imap
  | pop3
  | ftp
  | ftpData
  | ssh
  | telnet
  | mysql
  | pgsql
  | redis
  | mqtt
  | amqp
  | smb
  | nfs
  | dhcp
  | failed
  deriving DecidableEq, Repr

/-- A detected protocol: neither unknown nor failed. -/
def AppProto.IsReal (proto : AppProto) : Prop := proto ≠ .unknown ∧ proto ≠ .failed

instance (proto : AppProto) : Decidable proto.IsReal :=
  inferInstanceAs (Decidable (_ ∧ _))

/-- `proto_confidence_t`. -/
inductive Confidence where
  | low
  | medium
  | high
  | certain
  deriving DecidableEq, Repr

/-- `PROTO_DETECT_DIR_TOSERVER` and `PROTO_DETECT_DIR_TOCLIENT`. -/
inductive Direction where
  | toserver
  | toclient
  deriving DecidableEq, Repr

/-- The flag of a direction. -/
def Direction.flag : Direction → BitVec 8
  | .toserver => 0x01
  | .toclient => 0x02

/-- `PROTO_DETECT_DIR_BOTH`. -/
def PROTO_DETECT_DIR_BOTH : BitVec 8 := 0x03

/-- `proto_pattern_t`. -/
structure Pattern where
  protocol : AppProto
  pattern : List UInt8
  depth : BitVec 16
  offset : BitVec 16
  caseSensitive : Bool
  deriving DecidableEq, Repr

/-- `proto_prober_t`.  The flow, the direction and `reverse_flow` are not passed on:
no probing parser uses them. -/
structure Prober where
  protocol : AppProto
  port : BitVec 16
  minDepth : BitVec 16
  maxDepth : BitVec 16
  direction : BitVec 8
  parserFn : Memory → BitVec 32 → AppProto

/-- The global lists. -/
structure Registry where
  patternsTs : List Pattern := []
  patternsTc : List Pattern := []
  probers : List Prober := []

/-- `proto_detect_config_t`. -/
structure DetectConfig where
  maxInspectDepth : BitVec 32 := 4096
  enablePortDetection : Bool := true
  enablePatternMatching : Bool := true
  enableProbingParsers : Bool := true
  deriving DecidableEq, Repr

/-- The counters of `proto_detect_ctx_t`. -/
structure DetectStats where
  detectionsByPattern : Nat := 0
  detectionsByProber : Nat := 0
  detectionsByPort : Nat := 0
  detectionFailures : Nat := 0
  deriving DecidableEq, Repr

/-- `proto_detect_result_t`. -/
structure DetectResult where
  protocol : AppProto := .unknown
  confidence : Confidence := .low
  reverseFlow : Bool := false
  deriving DecidableEq, Repr

/-! ## Registration -/

/-- `proto_detect_register_pattern`. -/
def registerPattern (registry : Registry) (direction : BitVec 8)
    (entry : Pattern) : Registry :=
  if entry.pattern = [] then registry
  else
    { registry with
      patternsTs :=
        if direction &&& 0x01 ≠ 0 then entry :: registry.patternsTs
        else registry.patternsTs
      patternsTc :=
        if direction &&& 0x02 ≠ 0 then entry :: registry.patternsTc
        else registry.patternsTc }

/-- `proto_detect_register_prober`. -/
def registerProber (registry : Registry) (entry : Prober) : Registry :=
  { registry with probers := entry :: registry.probers }

/-- `http_methods`. -/
def httpMethods : List String :=
  ["GET ", "POST ", "PUT ", "DELETE ", "HEAD ", "OPTIONS ", "TRACE ", "CONNECT ",
    "PATCH "]

/-- `http_versions`. -/
def httpVersions : List String := ["HTTP/1.0", "HTTP/1.1", "HTTP/2"]

/-- `proto_detect_register_http`. -/
def registerHttp (registry : Registry) : Registry :=
  let registry := httpMethods.foldl (fun registry method =>
    registerPattern registry 0x01 ⟨.http, ascii method, 8, 0, false⟩) registry
  httpVersions.foldl (fun registry version =>
    registerPattern registry 0x02 ⟨.http, ascii version, 16, 0, false⟩) registry

/-- The big-endian 16-bit word at an offset. -/
def word (data : Memory) (offset : Nat) : BitVec 16 :=
  (data offset).toBitVec ++ (data (offset + 1)).toBitVec

/-- `tls_probing_parser`. -/
def tlsProbingParser (data : Memory) (len : BitVec 32) : AppProto :=
  if len < 5 then .unknown
  else
    let contentType := data 0
    let version := word data 1
    let recordLen := word data 3
    if contentType < 20 ∨ contentType > 24 then
      -- SSLv2 format: the first byte has its high bit set
      if data 0 &&& 0x80 ≠ 0 ∧ len ≥ 3 ∧ data 2 = 1 then .tls else .failed
    else if version < 0x0300 ∨ version > 0x0304 then .failed
    else if recordLen > 16384 then .failed
    else if contentType = 22 ∧ len ≥ 6 then .tls
    else if contentType = 23 ∨ contentType = 20 ∨ contentType = 21 ∨
        contentType = 24 then .tls
    else .unknown

/-- Where the walk over the question name of `dns_probing_parser` ends. -/
inductive QnameWalk where
  | failed
  | stopped (validQname : Bool) (offset : Nat)
  deriving DecidableEq, Repr

/-- The loop over the labels of a question name.  A turn moves the offset on by at
least two bytes, so `len` turns are enough. -/
def walkQname (data : Memory) (len : Nat) : Nat → Nat → QnameWalk
  | 0, offset => .stopped false offset
  | fuel + 1, offset =>
      if offset < len then
        let labelLen := data offset
        if labelLen = 0 then .stopped true (offset + 1)
        else if labelLen &&& 0xC0 = 0xC0 then .stopped true (offset + 2)
        else if labelLen > 63 then .failed
        else if offset + 1 + labelLen.toNat > 255 then .failed
        else walkQname data len fuel (offset + 1 + labelLen.toNat)
      else .stopped false offset

/-- More turns than bytes make no difference: the walk never stops for want of fuel. -/
theorem walkQname_fuel (data : Memory) (len fuel extra offset : Nat)
    (enough : len ≤ offset + fuel) :
    walkQname data len (fuel + extra) offset = walkQname data len fuel offset := by
  induction fuel generalizing offset with
  | zero =>
      have stops : ¬ offset < len := by omega
      cases extra with
      | zero => rfl
      | succ extra => simp [walkQname, stops]
  | succ fuel ih =>
      have next := ih (offset + 1 + (data offset).toNat) (by omega)
      rw [Nat.add_right_comm fuel 1 extra]
      simp only [walkQname, next]

/-- The checks of `dns_probing_parser` on the counts of a DNS header. -/
def dnsHeaderValid (data : Memory) : Bool :=
  let flags := word data 2
  let qdcount := word data 4
  let ancount := word data 6
  let nscount := word data 8
  let arcount := word data 10
  let isResponse := decide (flags &&& 0x8000 ≠ 0)
  let opcode := (flags &&& 0x7800) >>> 11
  let rcode := flags &&& 0x000F
  let totalRr := qdcount.toNat + ancount.toNat + nscount.toNat + arcount.toNat
  !(opcode > 5 || rcode > 15 || (!isResponse && qdcount = 0) ||
    (isResponse && qdcount = 0 && ancount = 0) || totalRr > 100)

/-- `dns_probing_parser`. -/
def dnsProbingParser (data : Memory) (len : BitVec 32) : AppProto :=
  if len < 12 then .unknown
  else if !dnsHeaderValid data then .failed
  else
    let isResponse := decide (word data 2 &&& 0x8000 ≠ 0)
    -- for responses or short queries, header validation is enough
    let headerOnly : AppProto :=
      if isResponse ∨ len = 12 then .dns else .unknown
    if !isResponse ∧ len > 12 then
      match walkQname data len.toNat len.toNat 12 with
      | .failed => .failed
      | .stopped validQname offset =>
          if validQname ∧ offset + 4 ≤ len.toNat then
            let qtype := word data offset
            let qclass := word data (offset + 2)
            if qtype = 0 then .failed
            else if qclass = 0 ∨ (qclass > 4 ∧ qclass ≠ 255) then .failed
            else .dns
          else headerOnly
    else headerOnly

/-- `proto_detect_register_tls`. -/
def registerTls (registry : Registry) : Registry :=
  let registry := registerProber registry
    ⟨.tls, 443, 5, 64, PROTO_DETECT_DIR_BOTH, tlsProbingParser⟩
  registerProber registry ⟨.tls, 0, 5, 64, PROTO_DETECT_DIR_BOTH, tlsProbingParser⟩

/-- `proto_detect_register_dns`. -/
def registerDns (registry : Registry) : Registry :=
  let registry := registerProber registry
    ⟨.dns, 53, 12, 512, PROTO_DETECT_DIR_BOTH, dnsProbingParser⟩
  registerProber registry ⟨.dns, 0, 12, 512, PROTO_DETECT_DIR_BOTH, dnsProbingParser⟩

/-- The lists after `proto_detect_init`. -/
def protoDetectInit : Registry := registerDns (registerTls (registerHttp {}))

/-! ## Detection -/

/-- `pattern_match`. -/
def patternMatch (data : Memory) (dataLen : BitVec 32) (pattern : List UInt8)
    (caseSensitive : Bool) : Bool :=
  if dataLen.toNat < pattern.length then false
  else
    (List.range (dataLen.toNat - pattern.length + 1)).any fun i =>
      (List.range pattern.length).all fun j =>
        if caseSensitive then data (i + j) = pattern.getD j 0
        else tolower (data (i + j)) = tolower (pattern.getD j 0)

/-- The turn of `try_pattern_detection` for one pattern; `search_len` is a 32-bit
counter. -/
def tryPattern (data : Memory) (len : BitVec 32) (p : Pattern) : Bool :=
  if p.offset > 0 ∧ len < p.offset.setWidth 32 then false
  else
    let searchLen :=
      if p.depth > 0 ∧ len > p.depth.setWidth 32 then p.depth.setWidth 32 else len
    patternMatch (fun index => data (p.offset.toNat + index))
      (searchLen - p.offset.setWidth 32) p.pattern p.caseSensitive

/-- `try_pattern_detection`. -/
def tryPatternDetection (registry : Registry) (stats : DetectStats) (data : Memory)
    (len : BitVec 32) (direction : Direction) : AppProto × DetectStats :=
  let patterns :=
    match direction with
    | .toserver => registry.patternsTs
    | .toclient => registry.patternsTc
  match patterns.find? (tryPattern data len) with
  | some p =>
      (p.protocol, { stats with detectionsByPattern := stats.detectionsByPattern + 1 })
  | none => (.unknown, stats)

/-- The ports of the flow that is inspected. -/
structure Ports where
  srcPort : BitVec 16
  dstPort : BitVec 16
  deriving DecidableEq, Repr

/-- The server's port, as seen in a direction. -/
def Ports.server (ports : Ports) : Direction → BitVec 16
  | .toserver => ports.dstPort
  | .toclient => ports.srcPort

/-- The direction, port and depth constraints of a prober. -/
def Prober.Applies (p : Prober) (len : BitVec 32) (direction : Direction)
    (port : BitVec 16) : Prop :=
  p.direction &&& direction.flag ≠ 0 ∧ (p.port = 0 ∨ p.port = port) ∧
    p.minDepth.setWidth 32 ≤ len

instance (p : Prober) (len : BitVec 32) (direction : Direction) (port : BitVec 16) :
    Decidable (p.Applies len direction port) :=
  inferInstanceAs (Decidable (_ ∧ _))

/-- The probing function, called on at most `max_depth` bytes. -/
def Prober.verdict (p : Prober) (data : Memory) (len : BitVec 32) : AppProto :=
  p.parserFn data
    (if p.maxDepth > 0 ∧ len > p.maxDepth.setWidth 32 then p.maxDepth.setWidth 32
      else len)

/-- `try_prober_detection`: the first verdict that is not `APP_PROTO_UNKNOWN`. -/
def tryProberDetection (data : Memory) (len : BitVec 32) (direction : Direction)
    (port : BitVec 16) : List Prober → AppProto
  | [] => .unknown
  | p :: rest =>
      if p.Applies len direction port then
        let result := p.verdict data len
        if result ≠ .unknown then result
        else tryProberDetection data len direction port rest
      else tryProberDetection data len direction port rest

/-- `try_port_detection`. -/
def tryPortDetection (port : BitVec 16) : AppProto :=
  if port = 80 ∨ port = 8080 then .http
  else if port = 443 ∨ port = 8443 then .tls
  else if port = 53 then .dns
  else if port = 22 then .ssh
  else if port = 21 then .ftp
  else if port = 25 then .smtp
  else if port = 3306 then .mysql
  else if port = 5432 then .pgsql
  else .unknown

/-- The length that is inspected. -/
def inspectLen (config : DetectConfig) (len : BitVec 32) : BitVec 32 :=
  if len > config.maxInspectDepth then config.maxInspectDepth else len

/-- The last step of `proto_detect_get_proto`. -/
def getProtoByPort (config : DetectConfig) (stats : DetectStats) (port : BitVec 16) :
    Int × DetectResult × DetectStats :=
  if config.enablePortDetection ∧ tryPortDetection port ≠ .unknown then
    (0, { protocol := tryPortDetection port },
      { stats with detectionsByPort := stats.detectionsByPort + 1 })
  else (-1, {}, stats)

/-- `proto_detect_get_proto` on valid pointers: the return value, the result and the
counters. -/
def protoDetectGetProto (config : DetectConfig) (registry : Registry)
    (stats : DetectStats) (ports : Ports) (data : Memory) (len : BitVec 32)
    (direction : Direction) : Int × DetectResult × DetectStats :=
  let len := inspectLen config len
  let port := ports.server direction
  if len < 4 then (-1, {}, stats)
  else
    let (byPattern, stats) :=
      if config.enablePatternMatching then
        tryPatternDetection registry stats data len direction
      else (.unknown, stats)
    if byPattern ≠ .unknown then
      (0, { protocol := byPattern, confidence := .high }, stats)
    else if config.enableProbingParsers then
      match tryProberDetection data len direction port registry.probers with
      | .failed =>
          (0, { protocol := .failed },
            { stats with detectionFailures := stats.detectionFailures + 1 })
      | .unknown => getProtoByPort config stats port
      | proto =>
          (0, { protocol := proto, confidence := .medium },
            { stats with detectionsByProber := stats.detectionsByProber + 1 })
    else getProtoByPort config stats port

/-! ## The counters are only kept -/

section Counters

variable {config : DetectConfig} {registry : Registry} {stats other : DetectStats}

theorem tryPatternDetection_fst (stats other : DetectStats) (data : Memory) (len : BitVec 32)
    (direction : Direction) :
    (tryPatternDetection registry stats data len direction).1 =
      (tryPatternDetection registry other data len direction).1 := by
  cases direction with
  | toserver =>
      simp only [tryPatternDetection]
      cases registry.patternsTs.find? (tryPattern data len) <;> rfl
  | toclient =>
      simp only [tryPatternDetection]
      cases registry.patternsTc.find? (tryPattern data len) <;> rfl

theorem getProtoByPort_result (port : BitVec 16) :
    (getProtoByPort config stats port).1 = (getProtoByPort config other port).1 ∧
      (getProtoByPort config stats port).2.1 = (getProtoByPort config other port).2.1 := by
  rw [getProtoByPort, getProtoByPort]
  split <;> exact ⟨rfl, rfl⟩

/-- What is detected does not depend on what was counted before. -/
theorem protoDetectGetProto_result (ports : Ports) (data : Memory) (len : BitVec 32)
    (direction : Direction) :
    (protoDetectGetProto config registry stats ports data len direction).1 =
        (protoDetectGetProto config registry other ports data len direction).1 ∧
      (protoDetectGetProto config registry stats ports data len direction).2.1 =
        (protoDetectGetProto config registry other ports data len direction).2.1 := by
  rw [protoDetectGetProto, protoDetectGetProto]
  dsimp only
  split
  next => exact ⟨rfl, rfl⟩
  next =>
      have pattern : (if config.enablePatternMatching then
            tryPatternDetection registry stats data (inspectLen config len) direction
          else (.unknown, stats)).1 =
          (if config.enablePatternMatching then
            tryPatternDetection registry other data (inspectLen config len) direction
          else (.unknown, other)).1 := by
        split
        next => exact tryPatternDetection_fst stats other data _ direction
        next => rfl
      generalize (if config.enablePatternMatching then
          tryPatternDetection registry stats data (inspectLen config len) direction
        else (.unknown, stats)) = left at pattern ⊢
      generalize (if config.enablePatternMatching then
          tryPatternDetection registry other data (inspectLen config len) direction
        else (.unknown, other)) = right at pattern ⊢
      obtain ⟨byPattern, stats⟩ := left
      obtain ⟨_, other⟩ := right
      cases pattern
      dsimp only
      split
      next => exact ⟨rfl, rfl⟩
      next =>
          split
          next =>
              generalize tryProberDetection data (inspectLen config len)
                direction (ports.server direction) registry.probers = found
              cases found with
              | unknown => exact getProtoByPort_result _
              | _ => exact ⟨rfl, rfl⟩
          next => exact getProtoByPort_result _

end Counters

end NetDefender.Proto
