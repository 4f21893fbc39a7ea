import NetDefender.Behavior.Model
import NetDefender.Packet.Decode
import NetDefender.Output.Builder

/-!
# Events as lines of JSON

The emitters `json_output_*` of `output_json.c`, each as the calls of the builder that it
makes.  The counters and the rotation of the output file, which come after a line was
written, are left out, and so are null arguments, for which no line is written.  `gmtime_r`
does not fail for the times that a clock shows.
-/

namespace NetDefender.Output

open CString Json Flows

/-! ## Times and addresses -/

/-- `struct timeval`, as `gettimeofday` fills it in. -/
structure Timeval where
  tvSec : BitVec 64
  tvUsec : BitVec 64
  deriving DecidableEq, Repr

/-- `struct tm`. -/
structure Tm where
  tmYear : Int
  tmMon : Int
  tmMday : Int
  tmHour : Int
  tmMin : Int
  tmSec : Int
  deriving DecidableEq, Repr

/-- `gmtime_r`, in the proleptic Gregorian calendar; the years of the computation begin in
March. -/
def gmtime (seconds : Int) : Tm :=
  let days := seconds / 86400 + 719468
  let second := seconds % 86400
  let era := days / 146097
  let dayOfEra := days % 146097
  let yearOfEra := (dayOfEra - dayOfEra / 1460 + dayOfEra / 36524 - dayOfEra / 146096) / 365
  let dayOfYear := dayOfEra - (365 * yearOfEra + yearOfEra / 4 - yearOfEra / 100)
  let month := (5 * dayOfYear + 2) / 153
  let tmMon := if month < 10 then month + 2 else month - 10
  { tmYear := yearOfEra + era * 400 + (if tmMon ≤ 1 then 1 else 0) - 1900
    tmMon
    tmMday := dayOfYear - (153 * month + 2) / 5 + 1
    tmHour := second / 3600
    tmMin := second % 3600 / 60
    tmSec := second % 60 }

example : gmtime 951782399 = ⟨100, 1, 28, 23, 59, 59⟩ := by decide

example : gmtime 951782400 = ⟨100, 1, 29, 0, 0, 0⟩ := by decide

/-- `%0*d`. -/
def printPadded (width : Nat) (value : Int) : Bytes :=
  let sign := if value < 0 then ascii "-" else []
  let digits := printUnsigned value.natAbs
  sign ++ List.replicate (width - (sign.length + digits.length)) 48 ++ digits

/-- The buffer of `json_add_timestamp`. -/
def timestampText (timestamp : Timeval) : Bytes :=
  let tm := gmtime timestamp.tvSec.toInt
  snprintf 64 (printPadded 4 (tm.tmYear + 1900) ++ ascii "-" ++ printPadded 2 (tm.tmMon + 1) ++
    ascii "-" ++ printPadded 2 tm.tmMday ++ ascii "T" ++ printPadded 2 tm.tmHour ++ ascii ":" ++
    printPadded 2 tm.tmMin ++ ascii ":" ++ printPadded 2 tm.tmSec ++ ascii "." ++
    printPadded 6 timestamp.tvUsec.toInt ++ ascii "Z")

/-- `inet_ntop` for `AF_INET`. -/
def inetNtop4 (addr : Bytes) : Bytes :=
  let byte (index : Nat) : Bytes := printUnsigned (addr.getD index 0).toNat
  byte 0 ++ ascii "." ++ byte 1 ++ ascii "." ++ byte 2 ++ ascii "." ++ byte 3

/-- `%x`. -/
def printHex (value : Nat) : Bytes :=
  (Nat.toDigits 16 value).map fun digit => UInt8.ofNat digit.toNat

/-- The groups of an IPv6 address. -/
def groups (addr : Bytes) : List Nat :=
  (List.range 8).map fun index =>
    256 * (addr.getD (2 * index) 0).toNat + (addr.getD (2 * index + 1) 0).toNat

/-- The first of the longest runs of at least two groups that are zero, by its start and its
length. -/
def longestZeros (groups : List Nat) : Option (Nat × Nat) :=
  (List.range 8).foldl (fun best base =>
    let len := ((groups.drop base).takeWhile (· = 0)).length
    if 2 ≤ len ∧ ∀ run ∈ best, run.2 < len then some (base, len) else best) none

/-- What `inet_ntop` prints at a group of an IPv6 address; an IPv4 address at the end is
printed as one. -/
def ntop6Piece (addr : Bytes) (best : Option (Nat × Nat)) (index : Nat) : Bytes :=
  let groups := groups addr
  let embedded := best = some (0, 6) ∨ (best = some (0, 5) ∧ groups.getD 5 0 = 0xffff)
  match best.filter fun (base, len) => base ≤ index ∧ index < base + len with
  | some (base, _) => if index = base then ascii ":" else []
  | none =>
      if embedded ∧ index = 7 then []
      else (if index = 0 then [] else ascii ":") ++
        if embedded ∧ index = 6 then inetNtop4 (addr.drop 12)
        else printHex (groups.getD index 0)

/-- `inet_ntop` for `AF_INET6`. -/
def inetNtop6 (addr : Bytes) : Bytes :=
  let best := longestZeros (groups addr)
  (List.range 8).flatMap (ntop6Piece addr best) ++
    if best.any fun (base, len) => base + len = 8 then ascii ":" else []

/-- The bytes of an address in memory. -/
def addressBytes (address : FlowAddress) : Bytes :=
  address.words.flatMap fun word =>
    (List.range 4).map fun index => UInt8.ofNat (word.toNat >>> (8 * index))

example : inetNtop6 (addressBytes ⟨0xb80d0120, 0, 0, 0x01000000⟩) = ascii "2001:db8::1" := by
  decide +kernel

/-! ## Names -/

/-- `alert_severity_to_string`. -/
def alertSeverityToString : Rules.AlertSeverity → String
  | .info => "INFO"
  | .low => "LOW"
  | .medium => "MEDIUM"
  | .high => "HIGH"
  | .critical => "CRITICAL"

/-- `alert_category_to_string`. -/
def alertCategoryToString : Rules.AlertCategory → String
  | .webAttack => "WEB_ATTACK"
  | .malware => "MALWARE"
  | .policyViolation => "POLICY_VIOLATION"
  | .recon => "RECONNAISSANCE"
  | .dos => "DOS"
  | .dataLeak => "DATA_LEAK"
  | .anomaly => "ANOMALY"
  | .scan => "SCAN"
  | .bruteForce => "BRUTE_FORCE"
  | .exfiltration => "EXFILTRATION"
  | .crypto => "CRYPTO"
  | .unknown => "UNKNOWN"

/-- `http_method_to_string`. -/
def httpMethodToString : Http.HttpMethod → String
  | .unknown => "UNKNOWN"
  | .get => "GET"
  | .post => "POST"
  | .put => "PUT"
  | .delete => "DELETE"
  | .head => "HEAD"
  | .options => "OPTIONS"
  | .trace => "TRACE"
  | .connect => "CONNECT"
  | .patch => "PATCH"

/-- The name of a value in a table. -/
def nameOf {α : Type} [DecidableEq α] (default : String) (table : List (α × String)) (value : α) :
    String :=
  ((table.find? fun entry => entry.1 = value).map Prod.snd).getD default

/-- `dns_type_to_string`. -/
def dnsTypeToString : DnsParser.DnsType → String :=
  nameOf "UNKNOWN" [(1, "A"), (2, "NS"), (5, "CNAME"), (6, "SOA"), (12, "PTR"), (15, "MX"),
    (16, "TXT"), (28, "AAAA"), (33, "SRV"), (41, "OPT"), (255, "ANY")]

/-- `dns_rcode_to_string`. -/
def dnsRcodeToString : BitVec 8 → String :=
  nameOf "UNKNOWN" [(0, "NOERROR"), (1, "FORMERR"), (2, "SERVFAIL"), (3, "NXDOMAIN"),
    (4, "NOTIMP"), (5, "REFUSED")]

/-- `tls_version_to_string`. -/
def tlsVersionToString : BitVec 16 → String :=
  nameOf "Unknown" [(0x0300, "SSL 3.0"), (0x0301, "TLS 1.0"), (0x0302, "TLS 1.1"),
    (0x0303, "TLS 1.2"), (0x0304, "TLS 1.3")]

/-- `app_proto_to_string`. -/
def appProtoToString : Proto.AppProto → String
  | .unknown => "unknown"
  | .http => "http"
  | .tls => "tls"
  | .dns => "dns"
  | .smtp => "smtp"
  | .imap => "imap"
  | .pop3 => "pop3"
  | .ftp => "ftp"
  | .ftpData => "ftp-data"
  | .ssh => "ssh"
  | .telnet => "telnet"
  | .mysql => "mysql"
  | .pgsql => "pgsql"
  | .redis => "redis"
  | .mqtt => "mqtt"
  | .amqp => "amqp"
  | .smb => "smb"
  | .nfs => "nfs"
  | .dhcp => "dhcp"
  | .failed => "failed"

/-! ## The emitters -/

/-- The fields of `json_output_ctx_t` that the emitters read. -/
structure JsonOutputCtx where
  logFlowInfo : Bool := true
  logTimestamp : Bool := true
  eventsWritten : BitVec 64 := 0
  bytesWritten : BitVec 64 := 0
  rotations : BitVec 64 := 0
  deriving DecidableEq, Repr

/-- `json_add_timestamp`. -/
def jsonAddTimestamp (timestamp : Timeval) : List Call :=
  [.addString "timestamp" (timestampText timestamp)]

/-- `json_add_flow_info`. -/
def jsonAddFlowInfo (flow : Flow) : List Call :=
  let ip (address : FlowAddress) : Bytes :=
    if flow.flags &&& FLOW_IPV4 ≠ 0 then inetNtop4 (addressBytes address)
    else inetNtop6 (addressBytes address)
  [.addString "src_ip" (ip flow.srcAddr), .addUint "src_port" (flow.srcPort.setWidth 64),
    .addString "dest_ip" (ip flow.dstAddr), .addUint "dest_port" (flow.dstPort.setWidth 64),
    .addString "proto" (ascii (if flow.proto = IPPROTO_TCP then "TCP"
      else if flow.proto = Packets.IPPROTO_UDP then "UDP" else "OTHER"))]

/-- The fields that every event begins with. -/
def leadingFields (ctx : JsonOutputCtx) (timestamp : Timeval) (eventType : String)
    (flow : Option Flow) : List Call :=
  (if ctx.logTimestamp then jsonAddTimestamp timestamp else []) ++
    [.addString "event_type" (ascii eventType)] ++
    flow.elim [] fun flow => if ctx.logFlowInfo then jsonAddFlowInfo flow else []

/-- An event with a nested member of the name of the event: a string member and an object. -/
def eventCalls (ctx : JsonOutputCtx) (timestamp : Timeval) (eventType : String)
    (flow : Option Flow) (nested : List Call) : List Call :=
  .startObject :: (leadingFields ctx timestamp eventType flow ++
    .addString eventType none :: .startObject :: (nested ++ [.endObject, .endObject]))

/-- `json_output_alert`, with the timestamp of the alert. -/
def jsonOutputAlert (ctx : JsonOutputCtx) (alert : Rules.Alert) (timestamp : Timeval)
    (flow : Option Flow) : List Call :=
  eventCalls ctx timestamp "alert" flow
    [.addString "action" (ascii "allowed"), .addUint "gid" 1,
      .addUint "signature_id" (BitVec.ofNat 64 alert.ruleId), .addUint "rev" 1,
      .addString "signature" alert.message,
      .addString "category" (ascii (alertCategoryToString alert.category)),
      .addString "severity" (ascii (alertSeverityToString alert.severity))]

/-- `json_output_http`. -/
def jsonOutputHttp (ctx : JsonOutputCtx) (now : Timeval) (tx : Http.HttpTransaction)
    (flow : Option Flow) : List Call :=
  let request (req : Http.HttpRequest) : List Call :=
    [.addString "http_method" (ascii (httpMethodToString req.method)), .addString "url" req.uri,
      .addString "hostname" req.host, .addString "http_user_agent" req.userAgent,
      .addString "http_content_type" req.contentType] ++
    if req.contentLength > 0 then [.addUint "length" (BitVec.ofNat 64 req.contentLength)] else []
  let response (resp : Http.HttpResponse) : List Call :=
    [.addUint "status" (BitVec.ofNat 64 resp.statusCode),
      .addString "http_refer" resp.reasonPhrase, .addString "server" resp.server]
  eventCalls ctx now "http" flow
    (tx.request.elim [] request ++ tx.response.elim [] response ++
      [.addString "protocol" (ascii "HTTP/1.1")])

/-- What `json_output_dns` prints of the union `parsed`.  An MX record is read as a domain, so
that its preference becomes a pointer. -/
def rdataText (rr : DnsParser.DnsRr) : Except Bridge.Fault (Option Bytes) :=
  if rr.type = DnsParser.DNS_TYPE_A then
    match rr.parsed with
    | .a addr => .ok (inetNtop4 addr)
    | .zero => .ok (inetNtop4 [])
    | _ => .error .confused
  else if rr.type = DnsParser.DNS_TYPE_AAAA then
    match rr.parsed with
    | .aaaa addr => .ok (inetNtop6 addr)
    | .zero => .ok (inetNtop6 [])
    | _ => .error .confused
  else
    match rr.parsed with
    | .domain name => .ok name
    | .zero => .ok none
    | .mx preference _ => if preference = 0 then .ok none else .error .confused
    | _ => .error .confused

/-- An answer. -/
def answerCalls (rr : DnsParser.DnsRr) : Except Bridge.Fault (List Call) :=
  (rdataText rr).map fun rdata =>
    [.startObject, .addString "rrname" rr.name,
      .addString "rrtype" (ascii (dnsTypeToString rr.type)),
      .addUint "ttl" (rr.ttl.setWidth 64)] ++
    rdata.elim [] (fun rdata => [.addString "rdata" rdata]) ++ [.endObject]

/-- `json_output_dns`. -/
def jsonOutputDns (ctx : JsonOutputCtx) (now : Timeval) (tx : DnsParser.DnsTransaction)
    (flow : Option Flow) : Except Bridge.Fault (List Call) :=
  let question : List Call :=
    match tx.questions with
    | [] => []
    | question :: _ =>
        match question.qname with
        | none => []
        | some qname =>
            [.addString "rrname" qname,
              .addString "rrtype" (ascii (dnsTypeToString question.qtype))]
  let answers : Except Bridge.Fault (List Call) :=
    if tx.answers = [] then .ok []
    else ((tx.answers.take tx.ancount.toNat).mapM answerCalls).map fun answers =>
      [.addString "answers" none, .startArray] ++ answers.flatten ++ [.endArray]
  let response : Except Bridge.Fault (List Call) :=
    if tx.isResponse then
      answers.map fun answers =>
        .addString "rcode" (ascii (dnsRcodeToString tx.rcode)) :: answers
    else .ok []
  response.map fun response =>
    eventCalls ctx now "dns" flow
      ([.addString "type" (ascii (if tx.isResponse then "answer" else "query")),
        .addUint "id" (tx.txid.setWidth 64)] ++ question ++ response)

/-- `json_output_tls`. -/
def jsonOutputTls (ctx : JsonOutputCtx) (now : Timeval) (conn : Tls.TlsConn)
    (flow : Option Flow) : List Call :=
  let client (ch : Tls.TlsClientHello) : List Call :=
    ch.sni.elim [] (fun sni => [.addString "sni" sni]) ++
    [.addString "version" (ascii (tlsVersionToString ch.version)),
      .addString "ja3" (Rules.printHex 16 ch.ja3.hash),
      .addString "ja3_string" (ascii (String.ofList ch.ja3.string))]
  let server (sh : Tls.TlsServerHello) : List Call :=
    [.addString "version_agreed" (ascii (tlsVersionToString sh.version)),
      .addString "cipher" (ascii sh.cipherSuiteName),
      .addString "ja3s" (Rules.printHex 16 sh.ja3s.hash)]
  eventCalls ctx now "tls" flow
    (conn.clientHello.elim [] client ++ conn.serverHello.elim [] server)

/-- `json_output_stats`. -/
def jsonOutputStats (ctx : JsonOutputCtx) (now : Timeval) : List Call :=
  eventCalls ctx now "stats" none
    [.addUint "events_written" ctx.eventsWritten, .addUint "bytes_written" ctx.bytesWritten,
      .addUint "rotations" ctx.rotations]

/-- `json_output_flow`. -/
def jsonOutputFlow (ctx : JsonOutputCtx) (now : Timeval) (flow : Flow)
    (alproto : Proto.AppProto) : List Call :=
  .startObject ::
    ((if ctx.logTimestamp then jsonAddTimestamp now else []) ++
      [.addString "event_type" (ascii "flow")] ++ jsonAddFlowInfo flow ++
      [.addString "app_proto" (ascii (appProtoToString alproto))] ++
      flow.tcp.elim [] (fun tcp =>
        [.addUint "pkts_toserver" (BitVec.ofNat 64 tcp.segCnt),
          .addUint "bytes_toserver" (BitVec.ofNat 64 tcp.byteCnt)])) ++ [.endObject]

/-- What the emitters ask of the system: the memory for a builder, more memory, the time, and
a line in the file. -/
structure Host where
  allocates : Bool := true
  realloc : Nat → Bool := fun _ => true
  now : Timeval
  writes : Bool := true

/-- The line that the calls leave in the output file, without the newline. -/
def Host.line (host : Host) (calls : List Call) : Option Bytes :=
  if host.allocates && host.writes then some (JsonBuilder.run host.realloc {} calls).buf
  else none

/-- An event with a nested member. -/
inductive Event where
  | alert (alert : Rules.Alert) (timestamp : Timeval)
  | http (tx : Http.HttpTransaction)
  | dns (tx : DnsParser.DnsTransaction)
  | tls (conn : Tls.TlsConn)
  | stats

/-- The calls of the emitter for an event. -/
def Event.calls (ctx : JsonOutputCtx) (now : Timeval) (flow : Option Flow) :
    Event → Except Bridge.Fault (List Call)
  | .alert raised timestamp => .ok (jsonOutputAlert ctx raised timestamp flow)
  | .http tx => .ok (jsonOutputHttp ctx now tx flow)
  | .dns tx => jsonOutputDns ctx now tx flow
  | .tls conn => .ok (jsonOutputTls ctx now conn flow)
  | .stats => .ok (jsonOutputStats ctx now)

/-- The line that is written for an event. -/
def Event.line (host : Host) (ctx : JsonOutputCtx) (flow : Option Flow) (event : Event) :
    Except Bridge.Fault (Option Bytes) :=
  (event.calls ctx host.now flow).map host.line

end NetDefender.Output
