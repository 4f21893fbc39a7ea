import NetDefender.Lib.CString

/-!
# The HTTP parser

`http_parser.c`: a connection with its list of transactions, and `http_parser_parse`,
which takes up a request (or a response) where the last call left it.  Requests and
responses are parsed by near-identical code, which is written once, over a
`MessageKind`.  Whether a transaction, its request or its response can be allocated is
a parameter of each call; the smaller allocations are granted.  Offsets and return
values are numbers without a bound, as for data below 2^31 bytes.  The unused parse
buffer, the timestamps and the log lines are left out.
-/

namespace NetDefender.Http

open CString

/-- The headers that end the parsing of a header block. -/
def HTTP_MAX_HEADERS : Nat := 50

/-- The bytes of a URI that are kept. -/
def HTTP_MAX_URI_LEN : Nat := 2048

/-- `http_method_t`. -/
inductive HttpMethod where
  | unknown
  | get
  | post
  | put
  | delete
  | head
  | options
  | trace
  | connect
  | patch
  deriving DecidableEq, Repr

/-- `http_version_t`. -/
inductive HttpVersion where
  | unknown
  | http09
  | http10
  | http11
  | http20
  deriving DecidableEq, Repr

/-- `http_state_t`. -/
inductive HttpState where
  | idle
  | requestLine
  | requestHeaders
  | requestBody
  | responseLine
  | responseHeaders
  | responseBody
  | done
  | error
  deriving DecidableEq, Repr

/-- `http_header_t`; the lengths are 16-bit. -/
structure HttpHeader where
  name : Bytes
  value : Bytes
  nameLen : Nat
  valueLen : Nat
  deriving DecidableEq, Repr

/-- The fields that `http_request_t` and `http_response_t` share. -/
structure HttpMessage where
  headers : List HttpHeader := []
  headerCount : Nat := 0
  contentLength : Nat := 0
  hasContentLength : Bool := false
  contentType : Option Bytes := none
  contentTypeLen : Nat := 0
  complete : Bool := false
  deriving DecidableEq, Repr

/-- `http_request_t`. -/
structure HttpRequest extends HttpMessage where
  method : HttpMethod := .unknown
  uri : Option Bytes := none
  uriLen : Nat := 0
  host : Option Bytes := none
  hostLen : Nat := 0
  version : HttpVersion := .unknown
  userAgent : Option Bytes := none
  userAgentLen : Nat := 0
  deriving DecidableEq, Repr

/-- `http_response_t`. -/
structure HttpResponse extends HttpMessage where
  version : HttpVersion := .unknown
  statusCode : Nat := 0
  reasonPhrase : Option Bytes := none
  reasonPhraseLen : Nat := 0
  server : Option Bytes := none
  serverLen : Nat := 0
  deriving DecidableEq, Repr

/-- `http_transaction_t`; `id` stands for its address. -/
structure HttpTransaction where
  id : Nat
  request : Option HttpRequest := none
  response : Option HttpResponse := none
  state : HttpState := .idle
  deriving DecidableEq, Repr

/-- `http_conn_t`. -/
structure HttpConn where
  transactions : List HttpTransaction := []
  currentTx : Option Nat := none
  txCount : Nat := 0
  state : HttpState := .idle
  requestsParsed : Nat := 0
  responsesParsed : Nat := 0
  parseErrors : Nat := 0
  deriving DecidableEq, Repr

/-! ## Lines -/

/-- `IS_SPACE`. -/
def isSpace (byte : UInt8) : Bool := byte = 32 ∨ byte = 9

/-- `find_eol`: the offset and the length of the first CRLF or LF. -/
def findEol : Bytes → Option (Nat × Nat)
  | [] => none
  | 13 :: 10 :: _ => some (0, 2)
  | 10 :: _ => some (0, 1)
  | _ :: rest => (findEol rest).map fun (offset, eolLen) => (offset + 1, eolLen)

/-- `parse_method`. -/
def parseMethod (token : Bytes) : HttpMethod :=
  if sameIgnoringCase token (ascii "GET") then .get
  else if sameIgnoringCase token (ascii "POST") then .post
  else if sameIgnoringCase token (ascii "PUT") then .put
  else if sameIgnoringCase token (ascii "DELETE") then .delete
  else if sameIgnoringCase token (ascii "HEAD") then .head
  else if sameIgnoringCase token (ascii "OPTIONS") then .options
  else if sameIgnoringCase token (ascii "TRACE") then .trace
  else if sameIgnoringCase token (ascii "CONNECT") then .connect
  else if sameIgnoringCase token (ascii "PATCH") then .patch
  else .unknown

/-- `parse_version`: the first eight bytes count. -/
def parseVersion (token : Bytes) : HttpVersion :=
  if token.take 8 = ascii "HTTP/0.9" then .http09
  else if token.take 8 = ascii "HTTP/1.0" then .http10
  else if token.take 8 = ascii "HTTP/1.1" then .http11
  else if token.take 8 = ascii "HTTP/2.0" then .http20
  else .unknown

/-- The bytes up to the next space, and the rest from it on. -/
def scanToken (line : Bytes) : Bytes × Bytes := line.span fun byte => !isSpace byte

/-- `parse_request_line`. -/
def parseRequestLine (data : Bytes) (req : HttpRequest) : Int × HttpRequest :=
  match findEol data with
  | none => (0, req)
  | some (eol, eolLen) =>
      let (method, rest) := scanToken (data.take eol)
      if rest = [] then (-1, req)
      else
        let req := { req with method := parseMethod method }
        let rest := rest.dropWhile isSpace
        if rest = [] then (-1, req)
        else
          let (uri, rest) := scanToken rest
          if rest = [] then (-1, req)
          else
            let uri := uri.take HTTP_MAX_URI_LEN
            let req := { req with uri := some uri, uriLen := uri.length }
            let rest := rest.dropWhile isSpace
            -- HTTP/0.9 does not have a version
            if rest = [] then ((eol + eolLen : Nat), { req with version := .http09 })
            else
              ((eol + eolLen : Nat),
                { req with version := parseVersion (scanToken rest).1 })

/-- `parse_response_line`. -/
def parseResponseLine (data : Bytes) (resp : HttpResponse) : Int × HttpResponse :=
  match findEol data with
  | none => (0, resp)
  | some (eol, eolLen) =>
      let (version, rest) := scanToken (data.take eol)
      if rest = [] then (-1, resp)
      else
        let resp := { resp with version := parseVersion version }
        let rest := rest.dropWhile isSpace
        if rest = [] then (-1, resp)
        else
          let (status, rest) := rest.span isdigit
          if rest = [] ∨ status = [] then (-1, resp)
          else
            let resp := { resp with statusCode := atoi (status.take 3) }
            let reason := rest.dropWhile isSpace
            let resp :=
              if reason = [] then resp
              else
                { resp with
                  reasonPhrase := some reason, reasonPhraseLen := reason.length % 2 ^ 16 }
            ((eol + eolLen : Nat), resp)

/-! ## Headers -/

/-- What `parse_header` returns. -/
inductive HeaderLine where
  | needMore
  | invalid
  | blank (used : Nat)
  | header (used : Nat) (header : HttpHeader)
  deriving DecidableEq, Repr

/-- The value of a header: without the spaces around it. -/
def trimValue (value : Bytes) : Bytes := (value.dropWhile isSpace).rdropWhile isSpace

/-- `parse_header`. -/
def parseHeader (data : Bytes) : HeaderLine :=
  match findEol data with
  | none => .needMore
  | some (eol, eolLen) =>
      if eol = 0 then .blank eolLen
      else
        match (data.take eol).span (· ≠ 58) with
        | (_, []) => .invalid
        | (name, _ :: rest) =>
            let value := trimValue rest
            .header (eol + eolLen)
              ⟨name, value, name.length % 2 ^ 16, value.length % 2 ^ 16⟩

/-- `http_find_header`. -/
def httpFindHeader (headers : List HttpHeader) (name : Bytes) : Option HttpHeader :=
  headers.find? fun header => sameIgnoringCase (text header.name) name

/-- `strndup_malloc(h->value, h->value_len)`. -/
def HttpHeader.copyValue (header : HttpHeader) : Bytes := header.value.take header.valueLen

/-- The part of the extraction that requests and responses share. -/
def extractContentLength (message : HttpMessage) : HttpMessage :=
  match httpFindHeader message.headers (ascii "Content-Length") with
  | none => message
  | some header =>
      { message with
        contentLength := strtoull (text header.value), hasContentLength := true }

/-- Likewise for the content type. -/
def extractContentType (message : HttpMessage) : HttpMessage :=
  match httpFindHeader message.headers (ascii "Content-Type") with
  | none => message
  | some header =>
      { message with
        contentType := some header.copyValue, contentTypeLen := header.valueLen }

/-- `extract_request_headers`. -/
def extractRequestHeaders (req : HttpRequest) : HttpRequest :=
  let req :=
    match httpFindHeader req.headers (ascii "Host") with
    | none => req
    | some header => { req with host := some header.copyValue, hostLen := header.valueLen }
  let req :=
    { req with toHttpMessage := extractContentType (extractContentLength req.toHttpMessage) }
  match httpFindHeader req.headers (ascii "User-Agent") with
  | none => req
  | some header =>
      { req with userAgent := some header.copyValue, userAgentLen := header.valueLen }

/-- `extract_response_headers`. -/
def extractResponseHeaders (resp : HttpResponse) : HttpResponse :=
  let resp :=
    { resp with
      toHttpMessage := extractContentType (extractContentLength resp.toHttpMessage) }
  match httpFindHeader resp.headers (ascii "Server") with
  | none => resp
  | some header => { resp with server := some header.copyValue, serverLen := header.valueLen }

/-- How the loop over the header lines ends. -/
inductive ScanResult where
  | invalid
  | unfinished
  | finished
  deriving DecidableEq, Repr

/-- The loop over the header lines: the bytes consumed, the message, and its end. -/
structure HeaderScan where
  consumed : Nat
  message : HttpMessage
  result : ScanResult
  deriving DecidableEq, Repr

/-- A header is added where `header_tail` points: to the list of the message as long as
no header was added in this call, to the last header afterwards. -/
def addHeader (message : HttpMessage) (first : Bool) (header : HttpHeader) : HttpMessage :=
  { message with
    headers := if first then [header] else message.headers ++ [header]
    headerCount := (message.headerCount + 1) % 2 ^ 16 }

/-- The loop of `parse_request_headers` and `parse_response_headers`.  Each turn
consumes a byte at least, so that the length of the data is enough fuel. -/
def scanHeaders : Nat → Bytes → Nat → Bool → HttpMessage → HeaderScan
  | 0, _, consumed, _, message => ⟨consumed, message, .unfinished⟩
  | fuel + 1, data, consumed, first, message =>
      if data = [] then ⟨consumed, message, .unfinished⟩
      else
        match parseHeader data with
        | .invalid => ⟨consumed, message, .invalid⟩
        | .needMore => ⟨consumed, message, .unfinished⟩
        | .blank used => ⟨consumed + used, message, .finished⟩
        | .header used header =>
            let message := addHeader message first header
            if message.headerCount ≥ HTTP_MAX_HEADERS then
              ⟨consumed + used, message, .finished⟩
            else scanHeaders fuel (data.drop used) (consumed + used) false message

/-! ## Messages -/

/-- What the code for requests and for responses does differently. -/
structure MessageKind (α : Type) where
  parseLine : Bytes → α → Int × α
  message : α → HttpMessage
  withMessage : α → HttpMessage → α
  extract : α → α

/-- Requests. -/
def requestKind : MessageKind HttpRequest where
  parseLine := parseRequestLine
  message := HttpRequest.toHttpMessage
  withMessage req message := { req with toHttpMessage := message }
  extract := extractRequestHeaders

/-- Responses. -/
def responseKind : MessageKind HttpResponse where
  parseLine := parseResponseLine
  message := HttpResponse.toHttpMessage
  withMessage resp message := { resp with toHttpMessage := message }
  extract := extractResponseHeaders

variable {α : Type}

/-- The common body of `parse_request_headers` and `parse_response_headers`. -/
def parseHeaders (kind : MessageKind α) (data : Bytes) (msg : α) : Int × α :=
  let scan := scanHeaders data.length data 0 true (kind.message msg)
  match scan.result with
  | .invalid => (-1, kind.withMessage msg scan.message)
  | .unfinished => (scan.consumed, kind.withMessage msg scan.message)
  | .finished =>
      (scan.consumed,
        kind.extract (kind.withMessage msg { scan.message with complete := true }))

/-- `parse_request_headers`. -/
def parseRequestHeaders : Bytes → HttpRequest → Int × HttpRequest :=
  parseHeaders requestKind

/-- `parse_response_headers`. -/
def parseResponseHeaders : Bytes → HttpResponse → Int × HttpResponse :=
  parseHeaders responseKind

/-- Where a message stands after a call. -/
inductive Phase where
  | line
  | headers
  | complete
  | badLine
  | badHeaders
  deriving DecidableEq, Repr

/-- The headers of a message, after `consumed` bytes of the data. -/
def parseRest (kind : MessageKind α) (data : Bytes) (consumed : Nat) (msg : α) :
    Int × Phase × α :=
  if consumed < data.length then
    let (ret, msg) := parseHeaders kind (data.drop consumed) msg
    if ret < 0 then (-1, .badHeaders, msg)
    else if (kind.message msg).complete then (consumed + ret, .complete, msg)
    else (consumed + ret, .headers, msg)
  else (consumed, .headers, msg)

/-- The branch of `http_parser_parse` for a message, once it is allocated. -/
def parseMessage (kind : MessageKind α) (inLine : Bool) (data : Bytes) (msg : α) :
    Int × Phase × α :=
  if inLine then
    let (ret, msg) := kind.parseLine data msg
    if ret < 0 then (-1, .badLine, msg)
    else if ret = 0 then (0, .line, msg)
    else parseRest kind data ret.toNat msg
  else parseRest kind data 0 msg

/-! ## The connection -/

/-- The allocations of a call that are granted. -/
structure Grants where
  transaction : Bool := true
  request : Bool := true
  response : Bool := true
  deriving DecidableEq, Repr

/-- A transaction after a call on its request. -/
def HttpTransaction.afterRequest (tx : HttpTransaction) (phase : Phase)
    (req : HttpRequest) : HttpTransaction :=
  { tx with
    request := some req
    state :=
      match phase with
      | .line | .badLine => tx.state
      | .headers | .badHeaders | .complete => .requestHeaders }

/-- A transaction after a call on its response. -/
def HttpTransaction.afterResponse (tx : HttpTransaction) (phase : Phase)
    (resp : HttpResponse) : HttpTransaction :=
  { tx with
    response := some resp
    state :=
      match phase with
      | .line | .badLine => tx.state
      | .headers | .badHeaders => .responseHeaders
      | .complete => .done }

namespace HttpConn

/-- The transaction at an address. -/
def findTx (conn : HttpConn) (id : Nat) : Option HttpTransaction :=
  conn.transactions.find? fun tx => tx.id = id

/-- `http_get_current_transaction`. -/
def httpGetCurrentTransaction (conn : HttpConn) : Option HttpTransaction :=
  conn.currentTx.bind conn.findTx

/-- The transaction at an address is changed. -/
def updateTx (conn : HttpConn) (id : Nat) (change : HttpTransaction → HttpTransaction) :
    HttpConn :=
  { conn with
    transactions := conn.transactions.map fun tx => if tx.id = id then change tx else tx }

/-- A new transaction at the head of the list. -/
def createTx (conn : HttpConn) : HttpConn :=
  { conn with
    transactions :=
      { id := conn.transactions.length, request := some {}, state := .requestLine } ::
        conn.transactions
    currentTx := some conn.transactions.length
    txCount := (conn.txCount + 1) % 2 ^ 32 }

/-- The bookkeeping of the request branch. -/
def afterRequest (conn : HttpConn) (id : Nat) (phase : Phase) (req : HttpRequest) :
    HttpConn :=
  let conn := conn.updateTx id (·.afterRequest phase req)
  match phase with
  | .line => conn
  | .headers => { conn with state := .requestHeaders }
  | .complete =>
      { conn with state := .responseLine, requestsParsed := conn.requestsParsed + 1 }
  | .badLine | .badHeaders =>
      { conn with state := .error, parseErrors := conn.parseErrors + 1 }

/-- The bookkeeping of the response branch. -/
def afterResponse (conn : HttpConn) (id : Nat) (phase : Phase) (resp : HttpResponse) :
    HttpConn :=
  let conn := conn.updateTx id (·.afterResponse phase resp)
  match phase with
  | .line => conn
  | .headers => { conn with state := .responseHeaders }
  | .complete =>
      -- the transaction is complete, ready for the next request
      { conn with
        state := .idle, currentTx := none, responsesParsed := conn.responsesParsed + 1 }
  | .badLine | .badHeaders =>
      { conn with state := .error, parseErrors := conn.parseErrors + 1 }

/-- The request of a transaction. -/
def requestOf (conn : HttpConn) (id : Nat) : HttpRequest :=
  ((conn.findTx id).bind (·.request)).getD {}

/-- The response of a transaction, if it is allocated. -/
def responseOf (conn : HttpConn) (id : Nat) : Option HttpResponse :=
  (conn.findTx id).bind (·.response)

/-- The request branch of `http_parser_parse` on a current transaction. -/
def parseRequest (conn : HttpConn) (data : Bytes) (inLine : Bool) (id : Nat) :
    Int × HttpConn :=
  let (ret, phase, req) := parseMessage requestKind inLine data (conn.requestOf id)
  (ret, conn.afterRequest id phase req)

/-- The response branch of `http_parser_parse` on a current transaction. -/
def parseResponse (conn : HttpConn) (data : Bytes) (inLine : Bool) (id : Nat)
    (resp : HttpResponse) : Int × HttpConn :=
  let (ret, phase, resp) := parseMessage responseKind inLine data resp
  (ret, conn.afterResponse id phase resp)

/-- `http_parser_parse`; direction 0 is to the server.  A missing current transaction in
the states that need one would be a NULL dereference. -/
def httpParserParse (conn : HttpConn) (data : Bytes) (direction : Nat)
    (grants : Grants := {}) : Int × HttpConn :=
  if data = [] then (-1, conn)
  else if direction = 0 then
    match conn.state, conn.currentTx with
    | .idle, some id | .requestLine, some id => conn.parseRequest data true id
    | .idle, none | .requestLine, none =>
        if grants.transaction ∧ grants.request then
          conn.createTx.parseRequest data true conn.transactions.length
        else (-1, conn)
    | .requestHeaders, some id => conn.parseRequest data false id
    | _, _ => (0, conn)
  else
    match conn.state, conn.currentTx with
    | .responseLine, none => (-1, conn)
    | .responseLine, some id =>
        match conn.responseOf id with
        | some resp => conn.parseResponse data true id resp
        | none =>
            if grants.response then conn.parseResponse data true id {} else (-1, conn)
    | .responseHeaders, some id =>
        conn.parseResponse data false id ((conn.responseOf id).getD {})
    | _, _ => (0, conn)

end HttpConn

end NetDefender.Http
