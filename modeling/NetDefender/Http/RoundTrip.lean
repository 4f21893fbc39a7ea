import NetDefender.Http.Feeding

/-!
# Requests and responses on the wire

A request, or a response, as it is meant, and the bytes that it is sent as.  One call of
`http_parser_parse` on these bytes gets it back: the start line, the headers in their
order, and the values that are copied out of them.
-/

namespace NetDefender.Http

open CString

/-! ## Messages as they are meant -/

/-- A word of a start line. -/
structure Word where
  bytes : Bytes
  token : IsToken bytes
  plain : ∀ byte ∈ bytes, byte ≠ 0 ∧ byte ≠ 10 ∧ byte ≠ 13

/-- A header: a name without a colon, and a value without spaces around it. -/
structure Field where
  name : Bytes
  value : Bytes
  name_plain : ∀ byte ∈ name, byte ≠ 0 ∧ byte ≠ 10 ∧ byte ≠ 13 ∧ byte ≠ 58
  value_plain : ∀ byte ∈ value, byte ≠ 0 ∧ byte ≠ 10 ∧ byte ≠ 13
  first : ∀ byte ∈ value.head?, isSpace byte = false
  last : ∀ byte ∈ value.getLast?, isSpace byte = false
  name_short : name.length < 2 ^ 16
  value_short : value.length < 2 ^ 16

/-- A request. -/
structure RequestText where
  method : Word
  uri : Word
  version : Word
  fields : List Field
  uri_short : uri.bytes.length ≤ HTTP_MAX_URI_LEN
  few : fields.length < HTTP_MAX_HEADERS

/-- A response: its status has three digits. -/
structure ResponseText where
  version : Word
  status : Bytes
  reason : Bytes
  fields : List Field
  three : status.length = 3
  digits : ∀ byte ∈ status, isdigit byte = true
  plain : ∀ byte ∈ reason, byte ≠ 10 ∧ byte ≠ 13
  first : ∀ byte ∈ reason.head?, isSpace byte = false
  few : fields.length < HTTP_MAX_HEADERS

/-- A header as it is stored. -/
def Field.stored (field : Field) : HttpHeader :=
  ⟨field.name, field.value, field.name.length, field.value.length⟩

/-- The value of the first header of a name, whatever its case. -/
def valueOf (fields : List Field) (name : Bytes) : Option Bytes :=
  (fields.find? fun field => sameIgnoringCase field.name name).map Field.value

/-- The request is parsed to what it means. -/
structure RequestText.Recovered (req : RequestText) (parsed : HttpRequest) : Prop where
  method : parsed.method = parseMethod req.method.bytes
  uri : parsed.uri = some req.uri.bytes ∧ parsed.uriLen = req.uri.bytes.length
  version : parsed.version = parseVersion req.version.bytes
  headers : parsed.headers = req.fields.map Field.stored
  headerCount : parsed.headerCount = req.fields.length
  host : parsed.host = valueOf req.fields (ascii "Host")
  contentType : parsed.contentType = valueOf req.fields (ascii "Content-Type")
  userAgent : parsed.userAgent = valueOf req.fields (ascii "User-Agent")
  complete : parsed.complete = true

/-- Likewise a response; a reason without a byte is none. -/
structure ResponseText.Recovered (resp : ResponseText) (parsed : HttpResponse) : Prop where
  version : parsed.version = parseVersion resp.version.bytes
  statusCode : parsed.statusCode = decimal resp.status
  reasonPhrase : parsed.reasonPhrase = if resp.reason = [] then none else some resp.reason
  headers : parsed.headers = resp.fields.map Field.stored
  headerCount : parsed.headerCount = resp.fields.length
  contentType : parsed.contentType = valueOf resp.fields (ascii "Content-Type")
  server : parsed.server = valueOf resp.fields (ascii "Server")
  complete : parsed.complete = true

/-! ## Lines -/

/-- A text without line feeds, ended by CRLF. -/
def crlfLine (text : Bytes) (noLf : 10 ∉ text) : Line := ⟨text, .crlf, noLf, nofun⟩

theorem Word.noLf (word : Word) : 10 ∉ word.bytes :=
  fun member => (word.plain 10 member).2.1 rfl

theorem Field.noLf (field : Field) : 10 ∉ field.name ++ 58 :: 32 :: field.value := by
  intro member
  simp only [List.mem_append, List.mem_cons] at member
  rcases member with inName | colon | space | inValue
  · exact (field.name_plain 10 inName).2.1 rfl
  · exact absurd colon (by decide)
  · exact absurd space (by decide)
  · exact (field.value_plain 10 inValue).2.1 rfl

/-- `NAME: SP VALUE`. -/
def Field.line (field : Field) : Line :=
  crlfLine (field.name ++ 58 :: 32 :: field.value) field.noLf

theorem RequestText.noLf (req : RequestText) :
    10 ∉ req.method.bytes ++ 32 :: (req.uri.bytes ++ 32 :: req.version.bytes) := by
  simp [req.method.noLf, req.uri.noLf, req.version.noLf]

theorem ResponseText.noLf (resp : ResponseText) :
    10 ∉ resp.version.bytes ++ 32 :: (resp.status ++ 32 :: resp.reason) := by
  have noStatus : 10 ∉ resp.status := fun member =>
    absurd (resp.digits 10 member) (by decide)
  have noReason : 10 ∉ resp.reason := fun member => (resp.plain 10 member).1 rfl
  simp [resp.version.noLf, noStatus, noReason]

/-- A request on the wire. -/
def RequestText.message (req : RequestText) : Message where
  start := crlfLine (req.method.bytes ++ 32 :: (req.uri.bytes ++ 32 :: req.version.bytes))
    req.noLf
  headers := req.fields.map Field.line
  blank := .crlf

/-- A response on the wire. -/
def ResponseText.message (resp : ResponseText) : Message where
  start := crlfLine (resp.version.bytes ++ 32 :: (resp.status ++ 32 :: resp.reason)) resp.noLf
  headers := resp.fields.map Field.line
  blank := .crlf

/-- `M SP U SP V CRLF (name: SP value CRLF)* CRLF`. -/
def RequestText.bytes (req : RequestText) : Bytes :=
  req.method.bytes ++ [32] ++ req.uri.bytes ++ [32] ++ req.version.bytes ++ [13, 10] ++
    req.fields.flatMap (fun field => field.name ++ [58, 32] ++ field.value ++ [13, 10]) ++
    [13, 10]

/-- `V SP STATUS SP REASON CRLF (name: SP value CRLF)* CRLF`. -/
def ResponseText.bytes (resp : ResponseText) : Bytes :=
  resp.version.bytes ++ [32] ++ resp.status ++ [32] ++ resp.reason ++ [13, 10] ++
    resp.fields.flatMap (fun field => field.name ++ [58, 32] ++ field.value ++ [13, 10]) ++
    [13, 10]

theorem bytesOf_fields (fields : List Field) :
    bytesOf (fields.map Field.line) =
      fields.flatMap fun field => field.name ++ [58, 32] ++ field.value ++ [13, 10] := by
  rw [bytesOf, List.flatMap_map]
  refine congrArg (fun bytes => fields.flatMap bytes) (funext fun field => ?_)
  simp [Line.bytes, Field.line, crlfLine, Eol.bytes]

theorem RequestText.message_bytes (req : RequestText) : req.message.bytes = req.bytes := by
  simp [Message.bytes, message, bytes, bytesOf_fields, Line.bytes, crlfLine, Eol.bytes]

theorem ResponseText.message_bytes (resp : ResponseText) :
    resp.message.bytes = resp.bytes := by
  simp [Message.bytes, message, bytes, bytesOf_fields, Line.bytes, crlfLine, Eol.bytes]

/-! ## Headers -/

theorem Field.isHeader (field : Field) : field.line.IsHeader := by
  simp [Line.IsHeader, line, crlfLine]

/-- Spaces around a value are cut off, and only these. -/
theorem Field.trimValue_value (field : Field) :
    trimValue (32 :: field.value) = field.value := by
  have leading : (32 :: field.value).dropWhile isSpace = field.value := by
    rw [List.dropWhile_cons_of_pos (by decide), List.dropWhile_eq_self_iff]
    intro positive
    have head := field.first (field.value[0]) (by simp [List.head?_eq_getElem?])
    simp [head]
  rw [trimValue, leading, List.rdropWhile_eq_self_iff]
  intro nonempty
  have last := field.last (field.value.getLast nonempty) (List.getLast?_eq_some_getLast nonempty)
  simp [last]

theorem Field.line_header (field : Field) : field.line.header = field.stored := by
  have name_plain : ∀ byte ∈ field.name, decide (byte ≠ 58) = true := fun byte member =>
    decide_eq_true (field.name_plain byte member).2.2.2
  have name : (field.name ++ 58 :: 32 :: field.value).takeWhile (· ≠ 58) = field.name := by
    rw [List.takeWhile_append_of_pos name_plain]
    simp
  have rest : (field.name ++ 58 :: 32 :: field.value).dropWhile (· ≠ 58) =
      58 :: 32 :: field.value := by
    rw [List.dropWhile_append_of_pos name_plain]
    simp
  simp only [Line.header, line, crlfLine, name, rest, List.tail_cons, trimValue_value, stored]
  rw [Nat.mod_eq_of_lt field.name_short, Nat.mod_eq_of_lt field.value_short]

theorem text_of_noNul {bytes : Bytes} (noNul : ∀ byte ∈ bytes, byte ≠ 0) :
    text bytes = bytes :=
  List.takeWhile_eq_self_iff.mpr fun byte member => decide_eq_true (noNul byte member)

/-- The copied value of a header that is looked up. -/
theorem copyValue_find (fields : List Field) (name : Bytes) :
    (httpFindHeader (fields.map Field.stored) name).map HttpHeader.copyValue =
      valueOf fields name := by
  have same (field : Field) : text field.stored.name = field.name :=
    text_of_noNul fun byte member => (field.name_plain byte member).1
  have copied (field : Field) : field.stored.copyValue = field.value := List.take_length
  rw [httpFindHeader, List.find?_map, Option.map_map, valueOf]
  have sought : ((fun header : HttpHeader => sameIgnoringCase (text header.name) name) ∘
      Field.stored) = fun field => sameIgnoringCase field.name name :=
    funext fun field => congrArg (sameIgnoringCase · name) (same field)
  rw [sought]
  exact congrArg (fun copy => Option.map copy _) (funext copied)

section Extract

/-- The content type that is found, and what is left alone. -/
theorem extractContent_fields (message : HttpMessage) (unset : message.contentType = none) :
    (extractContentType (extractContentLength message)).contentType =
        (httpFindHeader message.headers (ascii "Content-Type")).map HttpHeader.copyValue ∧
      (extractContentType (extractContentLength message)).headers = message.headers ∧
      (extractContentType (extractContentLength message)).headerCount = message.headerCount ∧
      (extractContentType (extractContentLength message)).complete = message.complete := by
  have length : (extractContentLength message).headers = message.headers ∧
      (extractContentLength message).headerCount = message.headerCount ∧
      (extractContentLength message).complete = message.complete ∧
      (extractContentLength message).contentType = message.contentType := by
    rw [extractContentLength]
    split <;> exact ⟨rfl, rfl, rfl, rfl⟩
  obtain ⟨headers, count, complete, type⟩ := length
  rw [extractContentType, headers]
  split
  next none => exact ⟨by rw [none, type, unset, Option.map_none], headers, count, complete⟩
  next header found => exact ⟨by rw [found, Option.map_some], rfl, count, complete⟩

theorem extractRequestHeaders_fields (req : HttpRequest) (host : req.host = none)
    (contentType : req.contentType = none) (userAgent : req.userAgent = none) :
    let parsed := extractRequestHeaders req
    parsed.host = (httpFindHeader req.headers (ascii "Host")).map HttpHeader.copyValue ∧
      parsed.userAgent =
        (httpFindHeader req.headers (ascii "User-Agent")).map HttpHeader.copyValue ∧
      parsed.toHttpMessage =
        extractContentType (extractContentLength req.toHttpMessage) ∧
      parsed.method = req.method ∧ parsed.uri = req.uri ∧ parsed.uriLen = req.uriLen ∧
      parsed.version = req.version := by
  have headers := (extractContent_fields req.toHttpMessage contentType).2.1
  dsimp only
  rw [extractRequestHeaders]
  cases hosted : httpFindHeader req.headers (ascii "Host") with
  | none =>
      dsimp only
      rw [headers]
      cases httpFindHeader req.headers (ascii "User-Agent") with
      | none => exact ⟨host, userAgent, rfl, rfl, rfl, rfl, rfl⟩
      | some header => exact ⟨host, rfl, rfl, rfl, rfl, rfl, rfl⟩
  | some header =>
      dsimp only
      rw [headers]
      cases httpFindHeader req.headers (ascii "User-Agent") with
      | none => exact ⟨rfl, userAgent, rfl, rfl, rfl, rfl, rfl⟩
      | some header => exact ⟨rfl, rfl, rfl, rfl, rfl, rfl, rfl⟩

theorem extractResponseHeaders_fields (resp : HttpResponse)
    (contentType : resp.contentType = none) (server : resp.server = none) :
    let parsed := extractResponseHeaders resp
    parsed.server = (httpFindHeader resp.headers (ascii "Server")).map HttpHeader.copyValue ∧
      parsed.toHttpMessage =
        extractContentType (extractContentLength resp.toHttpMessage) ∧
      parsed.version = resp.version ∧ parsed.statusCode = resp.statusCode ∧
      parsed.reasonPhrase = resp.reasonPhrase := by
  have headers := (extractContent_fields resp.toHttpMessage contentType).2.1
  dsimp only
  rw [extractResponseHeaders]
  dsimp only
  rw [headers]
  cases httpFindHeader resp.headers (ascii "Server") with
  | none => exact ⟨server, rfl, rfl, rfl, rfl⟩
  | some header => exact ⟨rfl, rfl, rfl, rfl, rfl⟩

end Extract

/-! ## One call -/

section Whole

variable {α : Type} {kind : MessageKind α} {m : Message} {initial started : α}

/-- A whole message is parsed to its end in one call. -/
theorem parseMessage_whole (lawful : kind.Lawful) (valid : m.Valid kind initial started) :
    parseMessage kind true m.bytes initial =
      ((m.bytes.length : Int), .complete, finished kind started m.headers 0) := by
  have fresh : kind.withMessage started (headersAfter [] 0) = started := by
    rw [show headersAfter [] 0 = kind.message started from valid.fresh.symm,
      lawful.with_message]
  have room : ([] : List Line).length + m.headers.length < HTTP_MAX_HEADERS := by
    simpa using valid.few
  have rest_more : bytesOf m.headers ++ m.blank.bytes ≠ [] := by
    cases m.blank <;> simp [Eol.bytes]
  rcases parseHeaders_block lawful started 0 valid.headers room (List.append_nil _) with
    ⟨new, later, buffer, lines, split, short, -⟩ | ⟨-, parsed⟩
  · have lengths := congrArg List.length split
    rw [lines, bytesOf_append] at lengths
    cases later with
    | nil =>
        simp only [List.length_append, bytesOf_nil, List.length_nil] at lengths
        simp only [nextLength] at short
        omega
    | cons line later =>
        simp only [List.length_append, bytesOf_cons] at lengths
        simp only [nextLength] at short
        omega
  · have lost : lostAfter [] m.headers 0 = 0 := by simp [lostAfter]
    rw [fresh, List.nil_append, lost] at parsed
    rw [Message.bytes, parseMessage_accepted (valid.line _) m.start.bytes_length_pos,
      parseRest_eq rest_more parsed, ← List.length_append]
    simp only [finished, lawful.extract_complete, lawful.message_with, if_true]

end Whole

/-- A connection that waits for a request takes a whole one up. -/
theorem HttpConn.parse_request (conn : HttpConn) (idle : conn.state = .idle)
    (none : conn.currentTx = none) {m : Message} {started : HttpRequest}
    (valid : m.Valid requestKind {} started) :
    conn.httpParserParse m.bytes 0 =
      ((m.bytes.length : Int),
        conn.holdRequest .complete (finished requestKind started m.headers 0)) := by
  have created : conn.createTx.requestOf conn.transactions.length = {} := by
    simp [requestOf, createTx, findTx]
  have parse : conn.httpParserParse m.bytes 0 =
      conn.createTx.parseRequest m.bytes true conn.transactions.length := by
    simp [httpParserParse, bytes_ne_nil m, idle, none]
  rw [parse, parseRequest, created, parseMessage_whole requestKind_lawful valid]
  rfl

/-- A connection that waits for a response takes a whole one up. -/
theorem HttpConn.parse_response (conn : HttpConn) {id : Nat} {tx : HttpTransaction}
    (waiting : conn.state = .responseLine) (current : conn.currentTx = some id)
    (found : conn.findTx id = some tx) (none : tx.response = none) {m : Message}
    {started : HttpResponse} (valid : m.Valid responseKind {} started) :
    conn.httpParserParse m.bytes 1 =
      ((m.bytes.length : Int),
        conn.afterResponse id .complete (finished responseKind started m.headers 0)) := by
  have parse : conn.httpParserParse m.bytes 1 = conn.parseResponse m.bytes true id {} := by
    simp [httpParserParse, bytes_ne_nil m, waiting, current, responseOf, found, none]
  rw [parse, parseResponse, parseMessage_whole responseKind_lawful valid]

/-- The headers of a message that is meant. -/
theorem headersAfter_fields (fields : List Field) :
    headersAfter (fields.map Field.line) 0 =
      { headers := fields.map Field.stored, headerCount := fields.length } := by
  have headers : (fields.map Field.line).map Line.header = fields.map Field.stored := by
    rw [List.map_map]
    exact List.map_congr_left fun field _ => field.line_header
  rw [headersAfter, headers, List.drop_zero, List.length_map]

/-- A request after its request line. -/
def RequestText.started (req : RequestText) : HttpRequest where
  method := parseMethod req.method.bytes
  uri := some req.uri.bytes
  uriLen := req.uri.bytes.length
  version := parseVersion req.version.bytes

/-- The fields of a request after its headers. -/
theorem RequestText.recovered_finished (req : RequestText) :
    req.Recovered (finished requestKind req.started req.message.headers 0) := by
  rw [message, finished, headersAfter_fields]
  dsimp only [requestKind]
  generalize given : HttpRequest.mk _ _ _ _ _ _ _ _ _ = parsed
  have unset : parsed.host = none ∧ parsed.contentType = none ∧ parsed.userAgent = none := by
    subst given
    exact ⟨rfl, rfl, rfl⟩
  obtain ⟨host, userAgent, content, method, uri, uriLen, version⟩ :=
    extractRequestHeaders_fields parsed unset.1 unset.2.1 unset.2.2
  obtain ⟨contentType, headers, count, complete⟩ :=
    extractContent_fields parsed.toHttpMessage unset.2.1
  have stored : parsed.headers = req.fields.map Field.stored := given ▸ rfl
  rw [← content] at contentType headers count complete
  rw [stored, copyValue_find] at host userAgent contentType
  subst given
  exact ⟨method, ⟨uri, uriLen⟩, version, headers, count, host, contentType, userAgent,
    complete⟩

theorem RequestText.valid (req : RequestText) :
    req.message.Valid requestKind {} req.started := by
  have whole : req.uri.bytes.take HTTP_MAX_URI_LEN = req.uri.bytes :=
    List.take_of_length_le req.uri_short
  have line := @parseRequestLine_line req.message.start _ _ _ req.method.token
    req.uri.token req.version.token rfl
  rw [whole] at line
  refine ⟨line, rfl, fun line member => ?_, ?_⟩
  · obtain ⟨field, -, rfl⟩ := List.mem_map.mp member
    exact field.isHeader
  · rw [message, List.length_map]
    exact req.few

/-- A response after its status line. -/
def ResponseText.started (resp : ResponseText) : HttpResponse where
  version := parseVersion resp.version.bytes
  statusCode := decimal resp.status
  reasonPhrase := if resp.reason = [] then none else some resp.reason
  reasonPhraseLen := resp.reason.length % 2 ^ 16

/-- The fields of a response after its headers. -/
theorem ResponseText.recovered_finished (resp : ResponseText) :
    resp.Recovered (finished responseKind resp.started resp.message.headers 0) := by
  rw [message, finished, headersAfter_fields]
  dsimp only [responseKind]
  generalize given : HttpResponse.mk _ _ _ _ _ _ _ = parsed
  have unset : parsed.contentType = none ∧ parsed.server = none := by
    subst given
    exact ⟨rfl, rfl⟩
  obtain ⟨server, content, version, statusCode, reasonPhrase⟩ :=
    extractResponseHeaders_fields parsed unset.1 unset.2
  obtain ⟨contentType, headers, count, complete⟩ :=
    extractContent_fields parsed.toHttpMessage unset.1
  have stored : parsed.headers = resp.fields.map Field.stored := given ▸ rfl
  rw [← content] at contentType headers count complete
  rw [stored, copyValue_find] at server contentType
  subst given
  exact ⟨version, statusCode, reasonPhrase, headers, count, contentType, server, complete⟩

theorem ResponseText.valid (resp : ResponseText) :
    resp.message.Valid responseKind {} resp.started := by
  have some_digit : resp.status ≠ [] := fun empty => by
    have three := resp.three
    rw [empty] at three
    exact absurd three (by decide)
  have all : resp.status.take 3 = resp.status := List.take_of_length_le (by rw [resp.three])
  have status : atoi resp.status = decimal resp.status := by
    rw [atoi, List.takeWhile_eq_self_iff.mpr resp.digits]
  have reason : (32 :: resp.reason).dropWhile isSpace = resp.reason := by
    rw [List.dropWhile_cons_of_pos (by decide), List.dropWhile_eq_self_iff]
    intro positive
    have head := resp.first (resp.reason[0]) (by simp [List.head?_eq_getElem?])
    simp [head]
  have line := @parseResponseLine_line resp.message.start _ _ _ resp.version.token some_digit
    resp.digits rfl
  have started : (let parsed : HttpResponse :=
        { version := parseVersion resp.version.bytes, statusCode := atoi (resp.status.take 3) }
      let reason := (32 :: resp.reason).dropWhile isSpace
      if reason = [] then parsed
      else
        { parsed with
          reasonPhrase := some reason, reasonPhraseLen := reason.length % 2 ^ 16 }) =
      resp.started := by
    rw [all, status, reason, ResponseText.started]
    by_cases empty : resp.reason = []
    · rw [empty]
      rfl
    · simp only [empty, if_false]
  rw [started] at line
  refine ⟨line, ?_, fun line member => ?_, ?_⟩
  · rfl
  · obtain ⟨field, -, rfl⟩ := List.mem_map.mp member
    exact field.isHeader
  · rw [message, List.length_map]
    exact resp.few

/-! ## The theorem -/

/-- On a connection that waits for a request, the bytes of any request are taken up whole and
give back the request; and then the bytes of any response are taken up whole, give back the
response beside that request, and leave the connection waiting for the next one. -/
theorem request_and_response_recovered (conn : HttpConn) (req : RequestText)
    (resp : ResponseText) (idle : conn.state = .idle) (free : conn.currentTx = none) :
    let first := conn.httpParserParse req.bytes 0
    let second := first.2.httpParserParse resp.bytes 1
    (first.1 = req.bytes.length ∧ first.2.state = .responseLine) ∧
      (second.1 = resp.bytes.length ∧ second.2.state = .idle ∧ second.2.currentTx = none) ∧
      ∃ tx tx', first.2.httpGetCurrentTransaction = some tx ∧
        second.2.findTx tx.id = some tx' ∧
        (∃ parsed, tx.request = some parsed ∧ tx'.request = some parsed ∧
          req.Recovered parsed) ∧
        ∃ parsed, tx'.response = some parsed ∧ resp.Recovered parsed := by
  have parsed := conn.parse_request idle free req.valid
  have reqRecovered := req.recovered_finished
  have respRecovered := resp.recovered_finished
  rw [req.message_bytes] at parsed
  rw [parsed]
  generalize finished requestKind req.started req.message.headers 0 = request at reqRecovered ⊢
  have current := conn.current_holdRequest request
  have found : (conn.holdRequest .complete request).findTx conn.transactions.length =
      some ⟨conn.transactions.length, some request, none, .requestHeaders⟩ := current
  have answered := HttpConn.parse_response (conn.holdRequest .complete request) rfl rfl found rfl
    resp.valid
  rw [resp.message_bytes] at answered
  dsimp only
  rw [answered, current]
  have after := (conn.holdRequest .complete request).findTx_afterResponse
    conn.transactions.length .complete (finished responseKind resp.started
      resp.message.headers 0)
  rw [found, Option.map_some] at after
  exact ⟨⟨rfl, rfl⟩, ⟨rfl, rfl, rfl⟩, _, _, rfl, after, ⟨_, rfl, rfl, reqRecovered⟩, _, rfl,
    respRecovered⟩

/-- A request with a port in its host and a header without a value. -/
def getIndex : RequestText where
  method := ⟨ascii "GET", ⟨by decide +kernel, by decide +kernel⟩, by decide +kernel⟩
  uri := ⟨ascii "/index", ⟨by decide +kernel, by decide +kernel⟩, by decide +kernel⟩
  version := ⟨ascii "HTTP/1.1", ⟨by decide +kernel, by decide +kernel⟩, by decide +kernel⟩
  fields :=
    [⟨ascii "host", ascii "a:80", by decide +kernel, by decide +kernel, by decide +kernel,
        by decide +kernel, by decide +kernel, by decide +kernel⟩,
      ⟨ascii "X", [], by decide +kernel, by decide +kernel, by decide +kernel,
        by decide +kernel, by decide +kernel, by decide +kernel⟩]
  uri_short := by decide +kernel
  few := by decide

/-- A response without a reason. -/
def noReason : ResponseText where
  version := ⟨ascii "HTTP/1.1", ⟨by decide +kernel, by decide +kernel⟩, by decide +kernel⟩
  status := ascii "204"
  reason := []
  fields := []
  three := by decide +kernel
  digits := by decide +kernel
  plain := by decide +kernel
  first := by decide +kernel
  few := by decide

/-- The request is taken up whole, and so is the response to it. -/
theorem get_index_recovered :
    (HttpConn.httpParserParse {} getIndex.bytes 0).1 = getIndex.bytes.length ∧
      ((HttpConn.httpParserParse {} getIndex.bytes 0).2.httpParserParse noReason.bytes 1).1 =
        noReason.bytes.length :=
  have recovered := request_and_response_recovered {} getIndex noReason rfl rfl
  ⟨recovered.1.1, recovered.2.1.1⟩

end NetDefender.Http
