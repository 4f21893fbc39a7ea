import Mathlib.Algebra.Group.Nat.Defs
import NetDefender.Lib.CString

/-!
# The TLS parser

`tls_parser.c`: `tls_parser_parse` walks over the records of the data it is given and
keeps what it learns from handshake messages in the connection.  Messages are byte
lists of exactly the length that their header says.  MD5 is a parameter, and so is the
outcome of every call of the allocator, in the order of the calls; the state counts
them.  The counters of the connection are numbers without a bound.  Certificates,
which are allocated but never filled in, the copies of extension data, return codes
that no caller reads, and log lines are left out.
-/

namespace NetDefender.Tls

open CString

def TLS_VERSION_TLS13 : BitVec 16 := 0x0304

def TLS_RECORD_HANDSHAKE : UInt8 := 22
def TLS_RECORD_APPLICATION_DATA : UInt8 := 23

def TLS_HANDSHAKE_CLIENT_HELLO : UInt8 := 1
def TLS_HANDSHAKE_SERVER_HELLO : UInt8 := 2
def TLS_HANDSHAKE_CERTIFICATE : UInt8 := 11
def TLS_HANDSHAKE_SERVER_HELLO_DONE : UInt8 := 14
def TLS_HANDSHAKE_FINISHED : UInt8 := 20

def TLS_EXT_SERVER_NAME : BitVec 16 := 0
def TLS_EXT_ALPN : BitVec 16 := 16

def TLS_MAX_CIPHER_SUITES : Nat := 128
def TLS_MAX_EXTENSIONS : Nat := 32
def TLS_MAX_SNI_LEN : Nat := 256
def TLS_MAX_ALPN_LEN : Nat := 32
def TLS_MAX_JA3_STR : Nat := 512

/-- `tls_cipher_suite_t`. -/
structure TlsCipherSuite where
  value : BitVec 16
  name : String
  isWeak : Bool
  deriving DecidableEq, Repr

/-- `tls_extension_t`. -/
structure TlsExtension where
  type : BitVec 16
  length : BitVec 16
  deriving DecidableEq, Repr

/-- A JA3 or JA3S string with its hash, and whether a write landed outside the buffer
in which the string was built. -/
structure Fingerprint where
  string : List Char := []
  hash : Bytes := []
  overflow : Bool := false
  deriving DecidableEq, Repr

/-- `tls_client_hello_t`; the counts are the lengths of the lists. -/
structure TlsClientHello where
  version : BitVec 16
  random : Bytes
  sessionId : Bytes
  cipherSuites : List (BitVec 16)
  compressionMethods : Bytes
  extensions : List TlsExtension := []
  sni : Option Bytes := none
  alpn : Option Bytes := none
  ja3 : Fingerprint := {}
  deriving DecidableEq, Repr

/-- `tls_server_hello_t`. -/
structure TlsServerHello where
  version : BitVec 16
  random : Bytes
  sessionId : Bytes
  cipherSuite : BitVec 16
  cipherSuiteName : String
  compressionMethod : UInt8
  extensions : List TlsExtension := []
  ja3s : Fingerprint := {}
  deriving DecidableEq, Repr

/-- `tls_conn_t`; a new connection is zeroed. -/
structure TlsConn where
  clientHello : Option TlsClientHello := none
  serverHello : Option TlsServerHello := none
  negotiatedVersion : BitVec 16 := 0
  negotiatedCipher : BitVec 16 := 0
  clientHelloSeen : Bool := false
  serverHelloSeen : Bool := false
  serverCertSeen : Bool := false
  clientCertSeen : Bool := false
  handshakeCompleted : Bool := false
  versionDowngrade : Bool := false
  weakCipher : Bool := false
  selfSignedCert : Bool := false
  expiredCert : Bool := false
  invalidCertChain : Bool := false
  recordsParsed : Nat := 0
  handshakesParsed : Nat := 0
  appDataRecords : Nat := 0
  deriving DecidableEq, Repr

/-- A connection, and how many allocations its parser has asked for. -/
structure TlsState where
  conn : TlsConn := {}
  mallocs : Nat := 0
  deriving DecidableEq, Repr

/-! ## Cipher suites -/

def cipherSuiteDb : List TlsCipherSuite :=
  [⟨0x0000, "TLS_NULL_WITH_NULL_NULL", true⟩,
    ⟨0x0004, "TLS_RSA_WITH_RC4_128_MD5", true⟩,
    ⟨0x0005, "TLS_RSA_WITH_RC4_128_SHA", true⟩,
    ⟨0x000A, "TLS_RSA_WITH_3DES_EDE_CBC_SHA", true⟩,
    ⟨0x002F, "TLS_RSA_WITH_AES_128_CBC_SHA", false⟩,
    ⟨0x0035, "TLS_RSA_WITH_AES_256_CBC_SHA", false⟩,
    ⟨0x003C, "TLS_RSA_WITH_AES_128_CBC_SHA256", false⟩,
    ⟨0x003D, "TLS_RSA_WITH_AES_256_CBC_SHA256", false⟩,
    ⟨0x009C, "TLS_RSA_WITH_AES_128_GCM_SHA256", false⟩,
    ⟨0x009D, "TLS_RSA_WITH_AES_256_GCM_SHA384", false⟩,
    ⟨0xC007, "TLS_ECDHE_ECDSA_WITH_RC4_128_SHA", true⟩,
    ⟨0xC009, "TLS_ECDHE_ECDSA_WITH_AES_128_CBC_SHA", false⟩,
    ⟨0xC00A, "TLS_ECDHE_ECDSA_WITH_AES_256_CBC_SHA", false⟩,
    ⟨0xC011, "TLS_ECDHE_RSA_WITH_RC4_128_SHA", true⟩,
    ⟨0xC013, "TLS_ECDHE_RSA_WITH_AES_128_CBC_SHA", false⟩,
    ⟨0xC014, "TLS_ECDHE_RSA_WITH_AES_256_CBC_SHA", false⟩,
    ⟨0xC023, "TLS_ECDHE_ECDSA_WITH_AES_128_CBC_SHA256", false⟩,
    ⟨0xC024, "TLS_ECDHE_ECDSA_WITH_AES_256_CBC_SHA384", false⟩,
    ⟨0xC027, "TLS_ECDHE_RSA_WITH_AES_128_CBC_SHA256", false⟩,
    ⟨0xC028, "TLS_ECDHE_RSA_WITH_AES_256_CBC_SHA384", false⟩,
    ⟨0xC02B, "TLS_ECDHE_ECDSA_WITH_AES_128_GCM_SHA256", false⟩,
    ⟨0xC02C, "TLS_ECDHE_ECDSA_WITH_AES_256_GCM_SHA384", false⟩,
    ⟨0xC02F, "TLS_ECDHE_RSA_WITH_AES_128_GCM_SHA256", false⟩,
    ⟨0xC030, "TLS_ECDHE_RSA_WITH_AES_256_GCM_SHA384", false⟩,
    ⟨0x1301, "TLS_AES_128_GCM_SHA256", false⟩,
    ⟨0x1302, "TLS_AES_256_GCM_SHA384", false⟩,
    ⟨0x1303, "TLS_CHACHA20_POLY1305_SHA256", false⟩]

/-- `tls_cipher_suite_to_string`. -/
def tlsCipherSuiteToString (cipherSuite : BitVec 16) : String :=
  match cipherSuiteDb.find? fun entry => entry.value = cipherSuite with
  | some entry => entry.name
  | none => "UNKNOWN_CIPHER"

/-- `tls_is_weak_cipher`. -/
def tlsIsWeakCipher (cipherSuite : BitVec 16) : Bool :=
  match cipherSuiteDb.find? fun entry => entry.value = cipherSuite with
  | some entry => entry.isWeak
  | none => false

/-! ## Fingerprints -/

/-- `buf` and `offset` of `build_ja3_string`, and whether a call of `snprintf` got the
size `sizeof(buf) - offset` after `offset` had passed the end. -/
structure Ja3Buffer where
  text : List Char := []
  offset : Nat := 0
  overflow : Bool := false

/-- `offset += snprintf(buf + offset, sizeof(buf) - offset, ...)`; the result counts
what was cut off, too. -/
def Ja3Buffer.snprintf (buf : Ja3Buffer) (piece : List Char) : Ja3Buffer where
  text :=
    if buf.offset ≤ TLS_MAX_JA3_STR then
      (buf.text ++ piece).take (TLS_MAX_JA3_STR - 1)
    else buf.text
  offset := buf.offset + piece.length
  overflow := buf.overflow || decide (TLS_MAX_JA3_STR < buf.offset)

/-- The pieces of a list of numbers with dashes between them. -/
def dashed (values : List (BitVec 16)) : List (List Char) :=
  (values.map fun value => Nat.toDigits 10 value.toNat).intersperse ['-']

/-- The buffer after a series of calls of `snprintf`. -/
def printAll (pieces : List (List Char)) : Ja3Buffer :=
  pieces.foldl Ja3Buffer.snprintf {}

/-- `build_ja3_string`; the groups and the point formats are left empty. -/
def buildJa3String (ch : TlsClientHello) : Ja3Buffer :=
  printAll ([Nat.toDigits 10 ch.version.toNat ++ [',']] ++ dashed ch.cipherSuites ++
    [[',']] ++ dashed (ch.extensions.map TlsExtension.type) ++ [[','], [',']])

/-- `build_ja3s_string`. -/
def buildJa3sString (sh : TlsServerHello) : Ja3Buffer :=
  printAll ([Nat.toDigits 10 sh.version.toNat ++ [','],
    Nat.toDigits 10 sh.cipherSuite.toNat ++ [',']] ++
      dashed (sh.extensions.map TlsExtension.type))

/-- `calculate_ja3_hash` of the string that was built. -/
def Ja3Buffer.fingerprint (md5 : List Char → Bytes) (buf : Ja3Buffer) :
    Fingerprint where
  string := buf.text
  hash := md5 buf.text
  overflow := buf.overflow

/-! ## Extensions -/

/-- The big-endian number in two bytes. -/
def word (data : Bytes) (offset : Nat) : BitVec 16 :=
  (data.getD offset 0).toBitVec ++ (data.getD (offset + 1) 0).toBitVec

/-- The big-endian number in three bytes. -/
def triple (data : Bytes) (offset : Nat) : Nat :=
  ((data.getD offset 0).toBitVec ++ word data (offset + 1)).toNat

/-- The copy of a string in memory of its own, if the allocation is granted. -/
def copyText (rteMalloc : Nat → Bool) (mallocs : Nat) (bytes : Bytes) :
    Option Bytes × Nat :=
  (if rteMalloc mallocs then some bytes else none, mallocs + 1)

/-- The loop of `parse_sni_extension`: the first host name that can be stored. -/
def findHostName : Nat → Bytes → Option Bytes
  | 0, _ => none
  | fuel + 1, remaining =>
      if remaining.length < 3 then none
      else
        let nameType := remaining.getD 0 0
        let nameLen := (word remaining 1).toNat
        let p := remaining.drop 3
        if nameLen > p.length then none
        else if nameType = 0 ∧ nameLen > 0 ∧ nameLen < TLS_MAX_SNI_LEN then
          some (p.take nameLen)
        else findHostName fuel (p.drop nameLen)

/-- `parse_sni_extension`. -/
def parseSniExtension (rteMalloc : Nat → Bool) (data : Bytes)
    (st : TlsClientHello × Nat) : TlsClientHello × Nat :=
  if data.length < 5 then st
  else
    let listLen := (word data 0).toNat
    if listLen + 2 > data.length then st
    else
      match findHostName listLen ((data.drop 2).take listLen) with
      | none => st
      | some name =>
          let (sni, mallocs) := copyText rteMalloc st.2 name
          ({ st.1 with sni }, mallocs)

/-- `parse_alpn_extension`: the first protocol of the list. -/
def parseAlpnExtension (rteMalloc : Nat → Bool) (data : Bytes)
    (st : TlsClientHello × Nat) : TlsClientHello × Nat :=
  if data.length < 2 then st
  else
    let listLen := (word data 0).toNat
    if listLen + 2 > data.length then st
    else
      match (data.drop 2).take listLen with
      | [] => st
      | protoLen :: p =>
          if protoLen.toNat > 0 ∧ protoLen.toNat ≤ p.length ∧
              protoLen.toNat < TLS_MAX_ALPN_LEN then
            let (alpn, mallocs) := copyText rteMalloc st.2 (p.take protoLen.toNat)
            ({ st.1 with alpn }, mallocs)
          else st

/-- The loop over the extensions of a hello message. -/
def parseExtensions {σ : Type} (store : TlsExtension → Bytes → σ → σ) :
    Nat → Bytes → σ → σ
  | 0, _, st => st
  | fuel + 1, remaining, st =>
      if remaining.length < 4 then st
      else
        let extType := word remaining 0
        let extLen := word remaining 2
        let p := remaining.drop 4
        if extLen.toNat > p.length then st
        else
          parseExtensions store fuel (p.drop extLen.toNat)
            (store ⟨extType, extLen⟩ (p.take extLen.toNat) st)

/-- What `parse_client_hello_extensions` does with one extension. -/
def storeClientExtension (rteMalloc : Nat → Bool) (ext : TlsExtension) (data : Bytes)
    (st : TlsClientHello × Nat) : TlsClientHello × Nat :=
  if st.1.extensions.length < TLS_MAX_EXTENSIONS then
    let (ch, mallocs) :=
      if ext.type = TLS_EXT_SERVER_NAME then parseSniExtension rteMalloc data st
      else if ext.type = TLS_EXT_ALPN then parseAlpnExtension rteMalloc data st
      else st
    ({ ch with extensions := ch.extensions ++ [ext] }, mallocs)
  else st

/-- `parse_client_hello_extensions`. -/
def parseClientHelloExtensions (rteMalloc : Nat → Bool) (data : Bytes)
    (st : TlsClientHello × Nat) : TlsClientHello × Nat :=
  parseExtensions (storeClientExtension rteMalloc) data.length data st

/-- What `parse_server_hello_extensions` does with one extension. -/
def storeServerExtension (ext : TlsExtension) (_ : Bytes) (sh : TlsServerHello) :
    TlsServerHello :=
  if sh.extensions.length < TLS_MAX_EXTENSIONS then
    { sh with extensions := sh.extensions ++ [ext] }
  else sh

/-- `parse_server_hello_extensions`. -/
def parseServerHelloExtensions (data : Bytes) (sh : TlsServerHello) : TlsServerHello :=
  parseExtensions storeServerExtension data.length data sh

/-! ## Hello messages -/

/-- The length of the session id, if the message has a valid one.  Up to 32 bytes are
copied before the next length is checked; if they are not there, the check fails and
the copy is never looked at. -/
def sessionIdLen (data : Bytes) : Option Nat :=
  let len := (data.getD 34 0).toNat
  if len > 32 then none else some len

/-- The extensions at the end of a hello message, if they are there as a whole. -/
def extensionBlock (data : Bytes) (p : Nat) : Bytes :=
  if p + 2 ≤ data.length then
    let extensionsLen := (word data p).toNat
    if p + 2 + extensionsLen ≤ data.length then (data.drop (p + 2)).take extensionsLen
    else []
  else []

/-- The fields of a ClientHello in front of its extensions, and the extensions. -/
def clientHelloFields (data : Bytes) : Option (TlsClientHello × Bytes) := do
  let sessionIdLen ← sessionIdLen data
  let p := 35 + sessionIdLen
  if p + 2 > data.length then none
  else
    let cipherSuitesLen := (word data p).toNat
    let p := p + 2
    if cipherSuitesLen % 2 ≠ 0 ∨ p + cipherSuitesLen > data.length then none
    else
      let cipherSuiteCount := min (cipherSuitesLen / 2) TLS_MAX_CIPHER_SUITES
      let cipherSuites := (List.range cipherSuiteCount).map fun i =>
        word data (p + 2 * i)
      let p := p + cipherSuitesLen
      if p + 1 > data.length then none
      else
        let compressionLen := (data.getD p 0).toNat
        let p := p + 1
        if p + compressionLen > data.length then none
        else
          some
            ({ version := word data 0
               random := (data.drop 2).take 32
               sessionId := (data.drop 35).take sessionIdLen
               cipherSuites
               compressionMethods := (data.drop p).take (min compressionLen 16) },
              extensionBlock data (p + compressionLen))

/-- `parse_client_hello`. -/
def parseClientHello (md5 : List Char → Bytes) (rteMalloc : Nat → Bool) (data : Bytes)
    (st : TlsState) : TlsState :=
  if data.length < 38 then st
  else if rteMalloc st.mallocs then
    match clientHelloFields data with
    | none => { st with mallocs := st.mallocs + 1 }
    | some (ch, block) =>
        let (ch, mallocs) := parseClientHelloExtensions rteMalloc block
          (ch, st.mallocs + 1)
        let ch := { ch with ja3 := (buildJa3String ch).fingerprint md5 }
        { conn := { st.conn with clientHello := some ch, clientHelloSeen := true }
          mallocs }
  else { st with mallocs := st.mallocs + 1 }

/-- The fields of a ServerHello in front of its extensions, and the extensions. -/
def serverHelloFields (data : Bytes) : Option (TlsServerHello × Bytes) := do
  let sessionIdLen ← sessionIdLen data
  let p := 35 + sessionIdLen
  if p + 2 > data.length then none
  else
    let cipherSuite := word data p
    let p := p + 2
    if p + 1 > data.length then none
    else
      some
        ({ version := word data 0
           random := (data.drop 2).take 32
           sessionId := (data.drop 35).take sessionIdLen
           cipherSuite
           cipherSuiteName := tlsCipherSuiteToString cipherSuite
           compressionMethod := data.getD p 0 },
          extensionBlock data (p + 1))

/-- The client offered TLS 1.3 and the server chose less. -/
def downgraded (conn : TlsConn) (sh : TlsServerHello) : Bool :=
  match conn.clientHello with
  | none => false
  | some ch => ch.version ≥ TLS_VERSION_TLS13 && sh.version < TLS_VERSION_TLS13

/-- `parse_server_hello`. -/
def parseServerHello (md5 : List Char → Bytes) (rteMalloc : Nat → Bool) (data : Bytes)
    (st : TlsState) : TlsState :=
  if data.length < 38 then st
  else if rteMalloc st.mallocs then
    match serverHelloFields data with
    | none => { st with mallocs := st.mallocs + 1 }
    | some (sh, block) =>
        let sh := parseServerHelloExtensions block sh
        let sh := { sh with ja3s := (buildJa3sString sh).fingerprint md5 }
        { conn :=
            { st.conn with
              serverHello := some sh
              serverHelloSeen := true
              negotiatedVersion := sh.version
              negotiatedCipher := sh.cipherSuite
              weakCipher := tlsIsWeakCipher sh.cipherSuite || st.conn.weakCipher
              versionDowngrade := downgraded st.conn sh || st.conn.versionDowngrade }
          mallocs := st.mallocs + 1 }
  else { st with mallocs := st.mallocs + 1 }

/-- `parse_certificate`; only whether a first certificate is there counts. -/
def parseCertificate (rteMalloc : Nat → Bool) (data : Bytes) (direction : UInt8)
    (st : TlsState) : TlsState :=
  if data.length < 3 then st
  else
    let certsLen := triple data 0
    if certsLen > data.length - 3 then st
    else if certsLen ≥ 3 then
      let certLen := triple data 3
      if certLen > 0 ∧ certLen ≤ certsLen - 3 then
        let conn :=
          if rteMalloc st.mallocs then
            if direction = 0 then { st.conn with clientCertSeen := true }
            else { st.conn with serverCertSeen := true }
          else st.conn
        { conn, mallocs := st.mallocs + 1 }
      else st
    else st

/-! ## Records -/

/-- `parse_handshake`: the first message of a record. -/
def parseHandshake (md5 : List Char → Bytes) (rteMalloc : Nat → Bool) (data : Bytes)
    (direction : UInt8) (st : TlsState) : TlsState :=
  if data.length < 4 then st
  else
    let handshakeType := data.getD 0 0
    let handshakeLen := triple data 1
    if handshakeLen + 4 > data.length then st
    else
      let handshakeData := (data.drop 4).take handshakeLen
      let st :=
        { st with
          conn := { st.conn with handshakesParsed := st.conn.handshakesParsed + 1 } }
      if handshakeType = TLS_HANDSHAKE_CLIENT_HELLO then
        parseClientHello md5 rteMalloc handshakeData st
      else if handshakeType = TLS_HANDSHAKE_SERVER_HELLO then
        parseServerHello md5 rteMalloc handshakeData st
      else if handshakeType = TLS_HANDSHAKE_CERTIFICATE then
        parseCertificate rteMalloc handshakeData direction st
      else if handshakeType = TLS_HANDSHAKE_SERVER_HELLO_DONE ∨
          handshakeType = TLS_HANDSHAKE_FINISHED then
        { st with conn := { st.conn with handshakeCompleted := true } }
      else st

/-- The `switch` of `parse_tls_record` over the content type. -/
def parseContent (md5 : List Char → Bytes) (rteMalloc : Nat → Bool)
    (contentType : UInt8) (recordData : Bytes) (direction : UInt8) (st : TlsState) :
    TlsState :=
  if contentType = TLS_RECORD_HANDSHAKE then
    parseHandshake md5 rteMalloc recordData direction st
  else if contentType = TLS_RECORD_APPLICATION_DATA then
    { st with conn := { st.conn with appDataRecords := st.conn.appDataRecords + 1 } }
  else st

/-- `parse_tls_record`: 0 for an incomplete header, -1 for a record that is too long or
incomplete, and otherwise the size of the record. -/
def parseTlsRecord (md5 : List Char → Bytes) (rteMalloc : Nat → Bool) (data : Bytes)
    (direction : UInt8) (st : TlsState) : Int × TlsState :=
  if data.length < 5 then (0, st)
  else
    let contentType := data.getD 0 0
    let recordLen := (word data 3).toNat
    if recordLen > 16384 ∨ recordLen + 5 > data.length then (-1, st)
    else
      let recordData := (data.drop 5).take recordLen
      let st :=
        { st with conn := { st.conn with recordsParsed := st.conn.recordsParsed + 1 } }
      ((recordLen + 5 : Nat),
        parseContent md5 rteMalloc contentType recordData direction st)

/-- The loop of `tls_parser_parse`; it ends within as many rounds as there are bytes. -/
def parseRecords (md5 : List Char → Bytes) (rteMalloc : Nat → Bool) (data : Bytes)
    (direction : UInt8) : Nat → TlsState × Nat → TlsState × Nat
  | 0, result => result
  | fuel + 1, (st, consumed) =>
      if consumed < data.length then
        let (ret, st) := parseTlsRecord md5 rteMalloc (data.drop consumed) direction st
        if ret ≤ 0 then (st, consumed)
        else parseRecords md5 rteMalloc data direction fuel (st, consumed + ret.toNat)
      else (st, consumed)

/-- `tls_parser_parse` for a connection and data that are not `NULL`: the number of
bytes consumed, a `uint32_t` that is returned as an `int`. -/
def tlsParserParse (md5 : List Char → Bytes) (rteMalloc : Nat → Bool) (st : TlsState)
    (data : Bytes) (direction : UInt8) : Int × TlsState :=
  if data.length = 0 then (-1, st)
  else
    let (st, consumed) := parseRecords md5 rteMalloc data direction data.length (st, 0)
    ((BitVec.ofNat 32 consumed).toInt, st)

end NetDefender.Tls
