import NetDefender.Lib.Logged
import NetDefender.Rules.Check

/-!
# The DNS parser

`dns_parser.c`: `dns_parser_parse` reads a query or a response from a message and adds a
transaction to the connection.  The message is the memory behind `data`, which has
contents past its end too; pointers are offsets from `data`.  Every byte that is read is
recorded, and so is every question and every resource record that is stored, with the
place where it starts and the place where the cursor stands after it.

Names are built in a buffer of 256 bytes, which is taken to be large enough here; what is
written to it is the matter of another module.  The allocations are parameters of each call.
The timestamps, the two flags of a connection that are never set, and the log lines are left
out.
-/

namespace NetDefender.DnsParser

open CString Logged

/-- The bytes from `data` on. -/
abbrev Memory := Nat → UInt8

/-! ## Records -/

/-- The type of a resource record, as it is sent: `dns_type_t`. -/
abbrev DnsType := BitVec 16

def DNS_TYPE_A : DnsType := 1
def DNS_TYPE_NS : DnsType := 2
def DNS_TYPE_CNAME : DnsType := 5
def DNS_TYPE_PTR : DnsType := 12
def DNS_TYPE_MX : DnsType := 15
def DNS_TYPE_TXT : DnsType := 16
def DNS_TYPE_AAAA : DnsType := 28

def DNS_RCODE_NXDOMAIN : BitVec 8 := 3

def DNS_FLAG_QR : BitVec 16 := 0x8000
def DNS_FLAG_AA : BitVec 16 := 0x0400
def DNS_FLAG_TC : BitVec 16 := 0x0200
def DNS_FLAG_RD : BitVec 16 := 0x0100
def DNS_FLAG_RA : BitVec 16 := 0x0080

def DNS_HEADER_SIZE : Nat := 12
def DNS_MAX_NAME_LEN : Nat := 255
def DNS_MAX_LABEL_LEN : UInt8 := 63

/-- `dns_question_t`. -/
structure DnsQuestion extends Dns.DnsQuestion where
  qnameLen : Nat
  qclass : BitVec 16
  deriving DecidableEq, Repr

/-- The union `parsed` of a resource record, by the arm that was written last. -/
inductive RrParsed where
  | zero
  | a (addr : Bytes)
  | aaaa (addr : Bytes)
  | domain (name : Bytes)
  | mx (preference : BitVec 16) (exchange : Option Bytes)
  deriving DecidableEq, Repr

/-- `dns_rr_t`. -/
structure DnsRr where
  name : Bytes
  nameLen : Nat
  type : DnsType
  rrClass : BitVec 16
  ttl : BitVec 32
  rdlength : BitVec 16
  rdata : Option Bytes
  parsed : RrParsed
  deriving DecidableEq, Repr

/-- `dns_transaction_t`. -/
structure DnsTransaction where
  txid : BitVec 16
  isResponse : Bool
  opcode : BitVec 8
  rcode : BitVec 8
  recursionDesired : Bool
  authoritative : Bool
  truncated : Bool
  recursionAvailable : Bool
  qdcount : BitVec 16
  ancount : BitVec 16
  nscount : BitVec 16
  arcount : BitVec 16
  questions : List DnsQuestion := []
  answers : List DnsRr := []
  authority : List DnsRr := []
  additional : List DnsRr := []
  queryLen : Nat := 0
  responseLen : Nat := 0
  deriving DecidableEq, Repr

/-- What the rules read of a transaction. -/
def DnsTransaction.asRead (tx : DnsTransaction) : Dns.DnsTransaction where
  questions := tx.questions.map DnsQuestion.toDnsQuestion

/-- `dns_conn_t`; the latest transaction comes first. -/
structure DnsConn where
  transactions : List DnsTransaction := []
  txCount : BitVec 32 := 0
  queriesParsed : BitVec 64 := 0
  responsesParsed : BitVec 64 := 0
  parseErrors : BitVec 64 := 0
  nxdomainCount : BitVec 64 := 0
  aRecords : BitVec 64 := 0
  aaaaRecords : BitVec 64 := 0
  cnameRecords : BitVec 64 := 0
  txtRecords : BitVec 64 := 0
  suspiciousTld : Bool := false
  highEntropyDomain : Bool := false
  deriving DecidableEq, Repr

/-! ## Reading -/

/-- The sections of resource records. -/
inductive RrSection where
  | answer
  | authority
  | additional
  deriving DecidableEq, Repr

/-- What is recorded: a byte read, and a question or a resource record that was stored,
with its start and the cursor after it. -/
inductive Event where
  | read (offset : Nat)
  | question (start next : Nat) (q : DnsQuestion)
  | record (sec : RrSection) (start next : Nat) (rr : DnsRr)
  deriving DecidableEq, Repr

/-- `packet` and `packet_len`: the message without the length that TCP puts before it. -/
structure Message where
  memory : Memory
  packet : Nat
  packetLen : Nat

/-- `packet_end`. -/
def Message.packetEnd (msg : Message) : Nat := msg.packet + msg.packetLen

/-- `*p`. -/
def byteAt (memory : Memory) (p : Nat) : Recording Event UInt8 := do
  record (.read p)
  pure (memory p)

/-- `ntohs` of the two bytes at an offset. -/
def wordAt (memory : Memory) (p : Nat) : Recording Event (BitVec 16) := do
  let high ← byteAt memory p
  let low ← byteAt memory (p + 1)
  pure (high.toBitVec ++ low.toBitVec)

/-- `ntohl` of the four bytes at an offset. -/
def longAt (memory : Memory) (p : Nat) : Recording Event (BitVec 32) := do
  let high ← wordAt memory p
  let low ← wordAt memory (p + 2)
  pure (high ++ low)

/-- A number of bytes from an offset on. -/
def bytesAt (memory : Memory) (p : Nat) : Nat → Recording Event Bytes
  | 0 => pure []
  | count + 1 => do
      let byte ← byteAt memory p
      let rest ← bytesAt memory (p + 1) count
      pure (byte :: rest)

/-! ## Names -/

/-- `isprint`. -/
def isprint (byte : UInt8) : Bool := 32 ≤ byte ∧ byte ≤ 126

/-- A character of a label as it is stored. -/
def nameChar (byte : UInt8) : UInt8 :=
  if !isprint byte && byte ≠ 45 && byte ≠ 95 then 63 else byte

/-- A label is added to a name, with a dot before all but the first. -/
def appendLabel (out label : Bytes) : Bytes :=
  (if out = [] then out else out ++ [46]) ++ label.map nameChar

/-- `max_jumps`. -/
def MAX_JUMPS : Nat := 10

/-- The loop of `parse_dns_name`: the bytes consumed and the name.  `consumed` is set by
the first jump, so that `jumped` need not be kept. -/
def nameLoop (msg : Message) (ptr : Nat) :
    Nat → Nat → Bytes → Nat → Option Nat → Recording Event (Option (Nat × Bytes))
  | 0, _, _, _, _ => pure none
  | turns + 1, p, out, jumps, consumed =>
      if p < msg.packetEnd then do
        let len ← byteAt msg.memory p
        if len &&& 0xC0 = 0xC0 then
          if p + 1 ≥ msg.packetEnd then pure none
          else do
            let low ← byteAt msg.memory (p + 1)
            let offset := (len &&& 0x3F).toNat <<< 8 ||| low.toNat
            if offset ≥ msg.packetLen then pure none
            else if jumps + 1 > MAX_JUMPS then pure none
            else
              nameLoop msg ptr turns (msg.packet + offset) out (jumps + 1)
                (consumed.or (some (p - ptr + 2)))
        else if len = 0 then pure (some (consumed.getD (p - ptr + 1), out))
        else if len > DNS_MAX_LABEL_LEN then pure none
        else if p + 1 + len.toNat > msg.packetEnd then pure none
        else do
          let label ← bytesAt msg.memory (p + 1) len.toNat
          let out := appendLabel out label
          if out.length > DNS_MAX_NAME_LEN - 1 then pure none
          else nameLoop msg ptr turns (p + 1 + len.toNat) out jumps consumed
      else pure none

/-- The turns that the loop can take: a label makes the name longer, up to 254 bytes, a
jump is counted, and the last turn returns. -/
def NAME_TURNS : Nat := 267

/-- `parse_dns_name`. -/
def parseDnsName (msg : Message) (ptr : Nat) : Recording Event (Option (Nat × Bytes)) :=
  nameLoop msg ptr NAME_TURNS ptr [] 0 none

@[simp]
theorem value_byteAt (memory : Memory) (p : Nat) : value (byteAt memory p) = memory p := by
  simp only [byteAt, value_bind, value_pure]

@[simp]
theorem value_bytesAt (memory : Memory) (p count : Nat) :
    value (bytesAt memory p count) = (List.range' p count).map memory := by
  induction count generalizing p with
  | zero => rfl
  | succ count ih => simp [bytesAt, ih, List.range'_succ]

theorem appendLabel_length (out label : Bytes) :
    out.length + label.length ≤ (appendLabel out label).length := by
  unfold appendLabel
  split <;> simp

/-! ## Questions and resource records -/

/-- The allocations for a question. -/
structure QuestionGrants where
  question : Bool := true
  qname : Bool := true
  deriving DecidableEq, Repr

/-- `parse_dns_question`. -/
def parseDnsQuestion (msg : Message) (ptr : Nat) (granted : QuestionGrants) :
    Recording Event (Option (Nat × DnsQuestion)) := do
  match ← parseDnsName msg ptr with
  | none => pure none
  | some (consumed, name) =>
      let ptr := ptr + consumed
      if ptr + 4 > msg.packetEnd then pure none
      else do
        let qtype ← wordAt msg.memory ptr
        let qclass ← wordAt msg.memory (ptr + 2)
        if granted.question && granted.qname then
          pure (some (consumed + 4,
            { qname := some name, qtype, qnameLen := name.length, qclass }))
        else pure none

/-- The allocations for a resource record; `target` is the name in its data. -/
structure RrGrants where
  rr : Bool := true
  name : Bool := true
  rdata : Bool := true
  target : Bool := true
  deriving DecidableEq, Repr

/-- The name in the data of a record: it is stored if it parses and can be allocated. -/
def parseTarget (msg : Message) (ptr : Nat) (granted : Bool) :
    Recording Event (Option Bytes) := do
  match ← parseDnsName msg ptr with
  | none => pure none
  | some (consumed, name) => pure (if consumed > 0 && granted then some name else none)

/-- The common record types. -/
def parseRdata (msg : Message) (ptr : Nat) (type : DnsType) (rdlength : Nat)
    (granted : Bool) : Recording Event RrParsed :=
  if type = DNS_TYPE_A ∧ rdlength = 4 then do
    let addr ← bytesAt msg.memory ptr 4
    pure (.a addr)
  else if type = DNS_TYPE_AAAA ∧ rdlength = 16 then do
    let addr ← bytesAt msg.memory ptr 16
    pure (.aaaa addr)
  else if type = DNS_TYPE_CNAME ∨ type = DNS_TYPE_NS ∨ type = DNS_TYPE_PTR then do
    match ← parseTarget msg ptr granted with
    | none => pure .zero
    | some name => pure (.domain name)
  else if type = DNS_TYPE_MX ∧ rdlength ≥ 2 then do
    let preference ← wordAt msg.memory ptr
    let exchange ← parseTarget msg (ptr + 2) granted
    pure (.mx preference exchange)
  else pure .zero

/-- `parse_dns_rr`. -/
def parseDnsRr (msg : Message) (ptr : Nat) (granted : RrGrants) :
    Recording Event (Option (Nat × DnsRr)) := do
  match ← parseDnsName msg ptr with
  | none => pure none
  | some (consumed, name) =>
      let ptr := ptr + consumed
      if ptr + 10 > msg.packetEnd then pure none
      else do
        let type ← wordAt msg.memory ptr
        let rrClass ← wordAt msg.memory (ptr + 2)
        let ttl ← longAt msg.memory (ptr + 4)
        let rdlength ← wordAt msg.memory (ptr + 8)
        let ptr := ptr + 10
        if ptr + rdlength.toNat > msg.packetEnd then pure none
        else if !(granted.rr && granted.name) then pure none
        else if rdlength = 0 then
          pure (some (consumed + 10,
            { name, nameLen := name.length, type, rrClass, ttl, rdlength,
              rdata := none, parsed := .zero }))
        else if !granted.rdata then pure none
        else do
          let rdata ← bytesAt msg.memory ptr rdlength.toNat
          let parsed ← parseRdata msg ptr type rdlength.toNat granted.target
          pure (some (consumed + 10 + rdlength.toNat,
            { name, nameLen := name.length, type, rrClass, ttl, rdlength,
              rdata := some rdata, parsed }))

/-! ## Suspicious names -/

/-- `suspicious_tlds`. -/
def suspiciousTlds : List String :=
  [".xyz", ".top", ".club", ".work", ".click", ".country", ".stream", ".download",
    ".loan", ".win", ".bid", ".gq", ".ml", ".cf", ".tk"]

/-- `dns_is_suspicious_domain`. -/
def dnsIsSuspiciousDomain (domain : Bytes) : Bool :=
  suspiciousTlds.any (fun tld => occursIn (ascii tld) (text domain)) ||
    decide ((text domain).count 46 > 5) ||
    (text domain).any fun byte => !isprint byte && byte ≠ 46

/-- `dns_calculate_entropy`: dots do not count. -/
def dnsCalculateEntropy (domain : Bytes) : Float :=
  let bytes := (text domain).filter (· ≠ 46)
  if bytes.length = 0 then 0
  else
    (List.range 256).foldl (fun entropy byte =>
      let freq := bytes.count (UInt8.ofNat byte)
      if freq > 0 then
        let p := Float.ofNat freq / Float.ofNat bytes.length
        entropy - p * Float.log2 p
      else entropy) 0

/-- The flags that a question's name sets. -/
def DnsConn.checkName (conn : DnsConn) (qname : Bytes) : DnsConn :=
  { conn with
    suspiciousTld := conn.suspiciousTld || dnsIsSuspiciousDomain qname
    highEntropyDomain := conn.highEntropyDomain || decide (dnsCalculateEntropy qname > 4.5) }

/-- The counters of the record types. -/
def DnsConn.countRecord (conn : DnsConn) (rr : DnsRr) : DnsConn :=
  if rr.type = DNS_TYPE_A then { conn with aRecords := conn.aRecords + 1 }
  else if rr.type = DNS_TYPE_AAAA then { conn with aaaaRecords := conn.aaaaRecords + 1 }
  else if rr.type = DNS_TYPE_CNAME then { conn with cnameRecords := conn.cnameRecords + 1 }
  else if rr.type = DNS_TYPE_TXT then { conn with txtRecords := conn.txtRecords + 1 }
  else conn

/-! ## Sections -/

/-- The loop over the questions, with the number that are left and the index of the next
one: the connection, and the cursor and the questions unless one of them fails. -/
def questionLoop (msg : Message) (granted : Nat → QuestionGrants) :
    Nat → Nat → Nat → DnsConn →
      Recording Event (DnsConn × Option (Nat × List DnsQuestion))
  | 0, _, ptr, conn => pure (conn, some (ptr, []))
  | left + 1, index, ptr, conn => do
      match ← parseDnsQuestion msg ptr (granted index) with
      | none => pure (conn, none)
      | some (consumed, q) => do
          record (.question ptr (ptr + consumed) q)
          let (conn, rest) ← questionLoop msg granted left (index + 1) (ptr + consumed)
            (conn.checkName (q.qname.getD []))
          pure (conn, rest.map fun (ptr, qs) => (ptr, q :: qs))

/-- The loop over a section of resource records: it ends at the first that fails. -/
def recordLoop (msg : Message) (sec : RrSection) (granted : Nat → RrGrants) :
    Nat → Nat → Nat → Recording Event (Nat × List DnsRr)
  | 0, _, ptr => pure (ptr, [])
  | left + 1, index, ptr => do
      match ← parseDnsRr msg ptr (granted index) with
      | none => pure (ptr, [])
      | some (consumed, rr) => do
          record (.record sec ptr (ptr + consumed) rr)
          let (ptr, rrs) ← recordLoop msg sec granted left (index + 1) (ptr + consumed)
          pure (ptr, rr :: rrs)

/-- The limits of the sections. -/
def MAX_QUESTIONS : Nat := 10
def RrSection.limit : RrSection → Nat
  | .answer => 20
  | .authority => 10
  | .additional => 10

/-! ## Messages -/

/-- The allocations of a call. -/
structure Grants where
  tx : Bool := true
  question : Nat → QuestionGrants := fun _ => {}
  rr : RrSection → Nat → RrGrants := fun _ _ => {}

/-- The transaction as the header describes it. -/
def parseHeader (msg : Message) : Recording Event DnsTransaction := do
  let txid ← wordAt msg.memory msg.packet
  let flags ← wordAt msg.memory (msg.packet + 2)
  let qdcount ← wordAt msg.memory (msg.packet + 4)
  let ancount ← wordAt msg.memory (msg.packet + 6)
  let nscount ← wordAt msg.memory (msg.packet + 8)
  let arcount ← wordAt msg.memory (msg.packet + 10)
  let isResponse := decide (flags &&& DNS_FLAG_QR ≠ 0)
  pure
    { txid
      isResponse
      opcode := ((flags >>> 11) &&& 0x0F).setWidth 8
      rcode := (flags &&& 0x0F).setWidth 8
      recursionDesired := decide (flags &&& DNS_FLAG_RD ≠ 0)
      authoritative := decide (flags &&& DNS_FLAG_AA ≠ 0)
      truncated := decide (flags &&& DNS_FLAG_TC ≠ 0)
      recursionAvailable := decide (flags &&& DNS_FLAG_RA ≠ 0)
      qdcount
      ancount
      nscount
      arcount
      queryLen := if isResponse then 0 else msg.packetLen
      responseLen := if isResponse then msg.packetLen else 0 }

/-- The counters that the header of a message moves. -/
def DnsConn.countMessage (conn : DnsConn) (tx : DnsTransaction) : DnsConn :=
  if tx.isResponse then
    { conn with
      responsesParsed := conn.responsesParsed + 1
      nxdomainCount :=
        if tx.rcode = DNS_RCODE_NXDOMAIN then conn.nxdomainCount + 1
        else conn.nxdomainCount }
  else { conn with queriesParsed := conn.queriesParsed + 1 }

/-- `conn->parse_errors++`. -/
def DnsConn.countError (conn : DnsConn) : DnsConn :=
  { conn with parseErrors := conn.parseErrors + 1 }

/-- The transaction is put at the head of the list. -/
def DnsConn.addTransaction (conn : DnsConn) (tx : DnsTransaction) : DnsConn :=
  { conn with
    transactions := tx :: conn.transactions
    txCount := conn.txCount + 1 }

/-- The three sections of resource records, from a cursor on. -/
def parseRecords (msg : Message) (granted : Grants) (tx : DnsTransaction) (ptr : Nat) :
    Recording Event (List DnsRr × List DnsRr × List DnsRr) := do
  let (ptr, answers) ← recordLoop msg .answer (granted.rr .answer)
    (min tx.ancount.toNat RrSection.answer.limit) 0 ptr
  let (ptr, authority) ← recordLoop msg .authority (granted.rr .authority)
    (min tx.nscount.toNat RrSection.authority.limit) 0 ptr
  let (_, additional) ← recordLoop msg .additional (granted.rr .additional)
    (min tx.arcount.toNat RrSection.additional.limit) 0 ptr
  pure (answers, authority, additional)

/-- `dns_parser_parse`, once it knows where the message is. -/
def parseMessage (granted : Grants) (conn : DnsConn) (msg : Message) :
    Recording Event (Int × DnsConn) :=
  if msg.packetLen < DNS_HEADER_SIZE then pure (-1, conn.countError)
  else do
    let tx ← parseHeader msg
    if !granted.tx then pure (-1, conn.countError)
    else do
      match ← questionLoop msg granted.question (min tx.qdcount.toNat MAX_QUESTIONS) 0
          (msg.packet + DNS_HEADER_SIZE) (conn.countMessage tx) with
      | (conn, none) => pure (-1, conn.countError)
      | (conn, some (ptr, questions)) =>
          let tx := { tx with questions }
          if tx.isResponse then do
            let (answers, authority, additional) ← parseRecords msg granted tx ptr
            let conn := answers.foldl DnsConn.countRecord conn
            pure (0, conn.addTransaction { tx with answers, authority, additional })
          else pure (0, conn.addTransaction tx)

/-- `dns_parser_parse`; over TCP a 16-bit length comes before the message. -/
def dnsParserParse (granted : Grants) (conn : DnsConn) (data : Memory) (len : Nat)
    (isTcp : Bool) : Recording Event (Int × DnsConn) :=
  if isTcp then
    if len < 2 then pure (-1, conn)
    else do
      let dnsLen ← wordAt data 0
      if len - 2 < dnsLen.toNat then pure (-1, conn)
      else parseMessage granted conn ⟨data, 2, dnsLen.toNat⟩
  else parseMessage granted conn ⟨data, 0, len⟩

/-- `dns_get_latest_transaction`. -/
def dnsGetLatestTransaction (conn : DnsConn) : Option DnsTransaction :=
  conn.transactions.head?

end NetDefender.DnsParser
