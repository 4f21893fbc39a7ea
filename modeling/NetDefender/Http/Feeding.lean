import NetDefender.Http.Chunking

/-!
# A connection fed in chunks

The caller's loop around `http_parser_parse`, for the requests and the responses of a
connection: the transaction that comes out depends on the chunks exactly as the
message does.
-/

namespace NetDefender.Http

open CString

/-- One turn of the caller: the chunk is appended to the buffer, and what the parser
consumed is dropped. -/
def feed (direction : Nat) (state : HttpConn × Bytes) (chunk : Bytes) : HttpConn × Bytes :=
  let data := state.2 ++ chunk
  let parsed := state.1.httpParserParse data direction
  (parsed.2, data.drop parsed.1.toNat)

/-- The connection after all chunks. -/
def feedAll (conn : HttpConn) (direction : Nat) (chunks : List Bytes) : HttpConn :=
  (chunks.foldl (feed direction) (conn, [])).1

/-! ## Connections that hold a message -/

section Wrap

variable {α : Type} {kind : MessageKind α} {direction : Nat} {wrap : Phase → α → HttpConn}
  {m : Message} {initial started : α}

/-- The connection `wrap phase msg` passes its data on to the parser of the message. -/
def Wraps (kind : MessageKind α) (direction : Nat) (wrap : Phase → α → HttpConn) : Prop :=
  ∀ phase msg data, (phase = .line ∨ phase = .headers) → data ≠ [] →
    (wrap phase msg).httpParserParse data direction =
      let parsed := parseMessage kind (phase = .line) data msg
      (parsed.1, wrap parsed.2.1 parsed.2.2)

theorem feed_wrap (wraps : Wraps kind direction wrap) {phase : Phase}
    (open_ : phase = .line ∨ phase = .headers) (msg : α) (buffer : Bytes) {chunk : Bytes}
    (nonempty : chunk ≠ []) :
    feed direction (wrap phase msg, buffer) chunk =
      let state := feedMessage kind (phase, msg, buffer) chunk
      (wrap state.1 state.2.1, state.2.2) := by
  have more : buffer ++ chunk ≠ [] := fun empty =>
    nonempty (List.append_eq_nil_iff.mp empty).2
  simp only [feed, wraps phase msg (buffer ++ chunk) open_ more, feedMessage]

/-- A message with bytes to come is in its line or in its headers. -/
theorem Standing.open_ {cuts : List Nat} {unfed : Bytes} {state : Phase × α × Bytes}
    (standing : Standing kind m initial started cuts unfed state) (more : unfed ≠ []) :
    state.1 = .line ∨ state.1 = .headers := by
  cases standing with
  | start => exact .inl rfl
  | headers => exact .inr rfl
  | complete lost spent => exact absurd spent more

theorem foldl_feed_wrap (lawful : kind.Lawful) (wraps : Wraps kind direction wrap)
    (valid : m.Valid kind initial started) (chunks : List Bytes) :
    ∀ (cuts : List Nat) (state : Phase × α × Bytes), (∀ chunk ∈ chunks, chunk ≠ []) →
      Standing kind m initial started cuts chunks.flatten state →
      chunks.foldl (feed direction) (wrap state.1 state.2.1, state.2.2) =
        let final := chunks.foldl (feedMessage kind) state
        (wrap final.1 final.2.1, final.2.2) := by
  induction chunks with
  | nil =>
      intro cuts state _ _
      rfl
  | cons chunk chunks ih =>
      intro cuts state nonempty standing
      have first := nonempty chunk List.mem_cons_self
      have more : chunk ++ chunks.flatten ≠ [] := fun empty =>
        first (List.append_eq_nil_iff.mp empty).1
      rw [List.foldl_cons, List.foldl_cons,
        feed_wrap wraps (standing.open_ more) state.2.1 state.2.2 first]
      exact ih _ _ (fun other member => nonempty other (List.mem_cons_of_mem chunk member))
        (feed_standing lawful valid first standing)

/-- The connection after a valid message in chunks. -/
theorem feedAll_wrap (lawful : kind.Lawful) (wraps : Wraps kind direction wrap)
    (valid : m.Valid kind initial started) (chunks : List Bytes)
    (nonempty : ∀ chunk ∈ chunks, chunk ≠ []) (whole : chunks.flatten = m.bytes) :
    ∃ lost ≤ m.headers.length, (lost = 0 ↔ m.KeptTogether chunks) ∧
      feedAll (wrap .line initial) direction chunks =
        wrap .complete (finished kind started m.headers lost) := by
  obtain ⟨lost, bound, kept, run⟩ := feed_chunks lawful valid chunks nonempty whole
  refine ⟨lost, bound, kept, ?_⟩
  have begins : Standing kind m initial started [] chunks.flatten (.line, initial, []) :=
    .start [] whole m.start.bytes_length_pos (by simp)
  have folded := foldl_feed_wrap lawful wraps valid chunks [] _ nonempty begins
  rw [run] at folded
  exact congrArg Prod.fst folded

/-- A message in one piece loses nothing. -/
theorem keptTogether_one (m : Message) : m.KeptTogether [m.bytes] := by
  intro cut member ⟨low, _⟩
  rw [chunkStarts, chunkStarts, List.mem_singleton] at member
  have positive := m.start.bytes_length_pos
  rw [member, Message.endOf] at low
  omega

theorem bytes_ne_nil (m : Message) : m.bytes ≠ [] := by
  apply List.ne_nil_of_length_pos
  rw [Message.bytes, List.length_append]
  exact Nat.lt_of_lt_of_le m.start.bytes_length_pos (Nat.le_add_right _ _)

theorem feedAll_wrap_one (lawful : kind.Lawful) (wraps : Wraps kind direction wrap)
    (valid : m.Valid kind initial started) :
    feedAll (wrap .line initial) direction [m.bytes] =
      wrap .complete (finished kind started m.headers 0) := by
  obtain ⟨lost, -, kept, fed⟩ := feedAll_wrap lawful wraps valid [m.bytes]
    (by simpa using bytes_ne_nil m) (by simp)
  rw [fed, kept.mpr (keptTogether_one m)]

end Wrap

/-! ## Requests and responses -/

theorem extractContent_headers (message : HttpMessage) :
    (extractContentType (extractContentLength message)).headers = message.headers ∧
      (extractContentType (extractContentLength message)).complete = message.complete := by
  simp only [extractContentType, extractContentLength]
  split <;> split <;> exact ⟨rfl, rfl⟩

theorem requestKind_lawful : requestKind.Lawful where
  message_with _ _ := rfl
  with_with _ _ _ := rfl
  with_message _ := rfl
  extract_headers req := by
    simp only [requestKind, extractRequestHeaders]
    split <;> split <;> exact (extractContent_headers _).1
  extract_complete req := by
    simp only [requestKind, extractRequestHeaders]
    split <;> split <;> exact (extractContent_headers _).2
  parseLine_short data req noLf := by
    simp only [requestKind, parseRequestLine, findEol_of_noLf noLf]

theorem responseKind_lawful : responseKind.Lawful where
  message_with _ _ := rfl
  with_with _ _ _ := rfl
  with_message _ := rfl
  extract_headers resp := by
    simp only [responseKind, extractResponseHeaders]
    split <;> exact (extractContent_headers _).1
  extract_complete resp := by
    simp only [responseKind, extractResponseHeaders]
    split <;> exact (extractContent_headers _).2
  parseLine_short data resp noLf := by
    simp only [responseKind, parseResponseLine, findEol_of_noLf noLf]

namespace HttpConn

variable (conn : HttpConn) (id : Nat)

/-- Two changes of one transaction make one change. -/
theorem change_change {first second : HttpTransaction → HttpTransaction}
    (keeps : ∀ tx, (first tx).id = tx.id) (txs : List HttpTransaction) :
    (txs.map fun tx => if tx.id = id then first tx else tx).map
        (fun tx => if tx.id = id then second tx else tx) =
      txs.map fun tx => if tx.id = id then second (first tx) else tx := by
  rw [List.map_map]
  apply List.map_congr_left
  intro tx _
  by_cases here : tx.id = id <;> simp [here, keeps]

theorem findTx_updateTx {change : HttpTransaction → HttpTransaction}
    (keeps : ∀ tx, (change tx).id = tx.id) :
    (conn.updateTx id change).findTx id = (conn.findTx id).map change := by
  simp only [updateTx, findTx]
  induction conn.transactions with
  | nil => rfl
  | cons tx rest ih =>
      by_cases here : tx.id = id
      · simp [here, keeps]
      · simpa [here] using ih

/-- A connection that has taken up a request. -/
def holdRequest (phase : Phase) (req : HttpRequest) : HttpConn :=
  conn.createTx.afterRequest conn.transactions.length phase req

theorem findTx_holdRequest (phase : Phase) (req : HttpRequest) :
    ∃ state, (conn.holdRequest phase req).findTx conn.transactions.length =
      some ⟨conn.transactions.length, some req, none, state⟩ := by
  cases phase <;>
    exact ⟨_, by
      simp [holdRequest, afterRequest, updateTx, createTx, findTx,
        HttpTransaction.afterRequest]
      rfl⟩

theorem afterRequest_line (req req' : HttpRequest) (phase : Phase) :
    (conn.afterRequest id .line req).afterRequest id phase req' =
      conn.afterRequest id phase req' := by
  cases phase <;> simp [afterRequest, HttpTransaction.afterRequest, updateTx, change_change,
    -List.map_map]

theorem afterRequest_headers (req req' : HttpRequest) {phase : Phase}
    (later : phase = .headers ∨ phase = .complete ∨ phase = .badHeaders) :
    (conn.afterRequest id .headers req).afterRequest id phase req' =
      conn.afterRequest id phase req' := by
  rcases later with rfl | rfl | rfl <;>
    simp [afterRequest, HttpTransaction.afterRequest, updateTx, change_change,
    -List.map_map]

theorem afterResponse_line (resp resp' : HttpResponse) (phase : Phase) :
    (conn.afterResponse id .line resp).afterResponse id phase resp' =
      conn.afterResponse id phase resp' := by
  cases phase <;> simp [afterResponse, HttpTransaction.afterResponse, updateTx, change_change,
    -List.map_map]

theorem afterResponse_headers (resp resp' : HttpResponse) {phase : Phase}
    (later : phase = .headers ∨ phase = .complete ∨ phase = .badHeaders) :
    (conn.afterResponse id .headers resp).afterResponse id phase resp' =
      conn.afterResponse id phase resp' := by
  rcases later with rfl | rfl | rfl <;>
    simp [afterResponse, HttpTransaction.afterResponse, updateTx, change_change,
    -List.map_map]

end HttpConn

/-- Once the line is parsed, a message is in its headers or beyond. -/
theorem parseRest_phase {α : Type} (kind : MessageKind α) (data : Bytes) (used : Nat)
    (msg : α) :
    (parseRest kind data used msg).2.1 = .headers ∨
      (parseRest kind data used msg).2.1 = .complete ∨
      (parseRest kind data used msg).2.1 = .badHeaders := by
  simp only [parseRest]
  repeat' split
  all_goals simp

namespace HttpConn

variable (conn : HttpConn)

theorem requestOf_holdRequest (phase : Phase) (req : HttpRequest) :
    (conn.holdRequest phase req).requestOf conn.transactions.length = req := by
  obtain ⟨state, found⟩ := conn.findTx_holdRequest phase req
  simp [requestOf, found]

theorem holdRequest_wraps (idle : conn.state = .idle) :
    Wraps requestKind 0 conn.holdRequest := by
  intro phase req data open_ more
  have request := conn.requestOf_holdRequest phase req
  rcases open_ with rfl | rfl
  · have parse : (conn.holdRequest .line req).httpParserParse data 0 =
        (conn.holdRequest .line req).parseRequest data true conn.transactions.length := by
      simp [httpParserParse, more, holdRequest, afterRequest, updateTx, createTx, idle]
    rw [parse, parseRequest, request]
    simp only [holdRequest, afterRequest_line, decide_true]
  · have parse : (conn.holdRequest .headers req).httpParserParse data 0 =
        (conn.holdRequest .headers req).parseRequest data false
          conn.transactions.length := by
      simp [httpParserParse, more, holdRequest, afterRequest, updateTx, createTx]
    rw [parse, parseRequest, request]
    have later := parseRest_phase requestKind data 0 req
    simp only [holdRequest, parseMessage, Bool.false_eq_true, if_false, reduceCtorEq,
      decide_false, afterRequest_headers _ _ _ _ later]

/-- The first chunk of a request creates its transaction. -/
theorem feed_first_request (idle : conn.state = .idle) (none : conn.currentTx = none)
    {chunk : Bytes} (nonempty : chunk ≠ []) :
    feed 0 (conn, []) chunk = feed 0 (conn.holdRequest .line {}, []) chunk := by
  have wraps := conn.holdRequest_wraps idle .line {} chunk (.inl rfl) nonempty
  have created : conn.createTx.requestOf conn.transactions.length = {} := by
    simp [requestOf, createTx, findTx]
  have parse : conn.httpParserParse chunk 0 =
      conn.createTx.parseRequest chunk true conn.transactions.length := by
    simp [httpParserParse, nonempty, idle, none]
  simp only [feed, List.nil_append, wraps, parse, parseRequest, created, decide_true]
  rfl

theorem findTx_afterResponse (id : Nat) (phase : Phase) (resp : HttpResponse) :
    (conn.afterResponse id phase resp).findTx id =
      (conn.findTx id).map (·.afterResponse phase resp) := by
  have updated : (conn.updateTx id (·.afterResponse phase resp)).findTx id = _ :=
    conn.findTx_updateTx id fun _ => rfl
  cases phase <;> exact updated

theorem afterResponse_wraps {id : Nat} {tx : HttpTransaction}
    (waiting : conn.state = .responseLine) (current : conn.currentTx = some id)
    (found : conn.findTx id = some tx) :
    Wraps responseKind 1 (conn.afterResponse id) := by
  intro phase resp data open_ more
  have response : (conn.afterResponse id phase resp).responseOf id = some resp := by
    simp [responseOf, findTx_afterResponse, found, HttpTransaction.afterResponse]
  rcases open_ with rfl | rfl
  · have parse : (conn.afterResponse id .line resp).httpParserParse data 1 =
        (conn.afterResponse id .line resp).parseResponse data true id resp := by
      have state : (conn.afterResponse id .line resp).state = .responseLine := waiting
      have same : (conn.afterResponse id .line resp).currentTx = some id := current
      simp [httpParserParse, more, state, same, response]
    rw [parse, parseResponse]
    simp only [afterResponse_line, decide_true]
  · have parse : (conn.afterResponse id .headers resp).httpParserParse data 1 =
        (conn.afterResponse id .headers resp).parseResponse data false id resp := by
      have state : (conn.afterResponse id .headers resp).state = .responseHeaders := rfl
      have same : (conn.afterResponse id .headers resp).currentTx = some id := current
      simp [httpParserParse, more, state, same, response]
    rw [parse, parseResponse]
    have later := parseRest_phase responseKind data 0 resp
    simp only [parseMessage, Bool.false_eq_true, if_false, reduceCtorEq, decide_false,
      afterResponse_headers _ _ _ _ later]

/-- The first chunk of a response allocates it. -/
theorem feed_first_response {id : Nat} {tx : HttpTransaction}
    (waiting : conn.state = .responseLine) (current : conn.currentTx = some id)
    (found : conn.findTx id = some tx) (none : tx.response = none)
    {chunk : Bytes} (nonempty : chunk ≠ []) :
    feed 1 (conn, []) chunk = feed 1 (conn.afterResponse id .line {}, []) chunk := by
  have wraps := conn.afterResponse_wraps waiting current found .line {} chunk (.inl rfl)
    nonempty
  have parse : conn.httpParserParse chunk 1 = conn.parseResponse chunk true id {} := by
    simp [httpParserParse, nonempty, waiting, current, responseOf, found, none]
  simp only [feed, List.nil_append, wraps, parse, parseResponse, decide_true]

end HttpConn

/-- The first chunk decides how a connection is fed. -/
theorem feedAll_congr {conn conn' : HttpConn} {direction : Nat} {chunks : List Bytes}
    (nonempty : ∀ chunk ∈ chunks, chunk ≠ []) (some_chunk : chunks ≠ [])
    (first : ∀ chunk : Bytes, chunk ≠ [] →
      feed direction (conn, []) chunk = feed direction (conn', []) chunk) :
    feedAll conn direction chunks = feedAll conn' direction chunks := by
  cases chunks with
  | nil => exact absurd rfl some_chunk
  | cons chunk chunks =>
      simp only [feedAll, List.foldl_cons, first chunk (nonempty chunk List.mem_cons_self)]

/-! ## Start lines -/

/-- Some bytes without a space. -/
def IsToken (token : Bytes) : Prop := token ≠ [] ∧ ∀ byte ∈ token, isSpace byte = false

theorem scanToken_token {token rest : Bytes} (isToken : IsToken token) :
    scanToken (token ++ 32 :: rest) = (token, 32 :: rest) := by
  have noSpace : ∀ byte ∈ token, (!isSpace byte) = true := fun byte member => by
    simp [isToken.2 byte member]
  simp only [scanToken, List.span_eq_takeWhile_dropWhile,
    List.takeWhile_append_of_pos noSpace, List.dropWhile_append_of_pos noSpace]
  simp [isSpace]

theorem dropWhile_space_token {token : Bytes} (isToken : IsToken token) (rest : Bytes) :
    (32 :: (token ++ rest)).dropWhile isSpace = token ++ rest := by
  obtain ⟨nonempty, noSpace⟩ := isToken
  cases token with
  | nil => exact absurd rfl nonempty
  | cons byte token =>
      have first := noSpace byte List.mem_cons_self
      simp [first, show isSpace 32 = true from rfl]

/-- `METHOD SP URI SP VERSION`. -/
def Line.IsRequestLine (line : Line) : Prop :=
  ∃ method uri version, IsToken method ∧ IsToken uri ∧ IsToken version ∧
    line.text = method ++ 32 :: (uri ++ 32 :: version)

/-- `VERSION SP STATUS SP REASON`. -/
def Line.IsStatusLine (line : Line) : Prop :=
  ∃ version status reason, IsToken version ∧ status ≠ [] ∧
    (∀ byte ∈ status, isdigit byte = true) ∧
    line.text = version ++ 32 :: (status ++ 32 :: reason)

theorem take_text (line : Line) (rest : Bytes) :
    (line.bytes ++ rest).take line.text.length = line.text := by
  simp [Line.bytes]

theorem scanToken_all {token : Bytes} (isToken : IsToken token) :
    scanToken token = (token, []) := by
  have noSpace : ∀ byte ∈ token, (!isSpace byte) = true := fun byte member => by
    simp [isToken.2 byte member]
  rw [scanToken, List.span_eq_takeWhile_dropWhile, List.takeWhile_eq_self_iff.mpr noSpace,
    List.dropWhile_eq_nil_iff.mpr noSpace]

/-- What `parse_request_line` makes of a request line. -/
theorem parseRequestLine_line {line : Line} {method uri version : Bytes}
    (isMethod : IsToken method) (isUri : IsToken uri) (isVersion : IsToken version)
    (text : line.text = method ++ 32 :: (uri ++ 32 :: version)) (rest : Bytes) :
    parseRequestLine (line.bytes ++ rest) {} =
      ((line.bytes.length : Int),
        { method := parseMethod method, uri := some (uri.take HTTP_MAX_URI_LEN),
          uriLen := (uri.take HTTP_MAX_URI_LEN).length, version := parseVersion version }) := by
  have uri_more : uri ++ 32 :: version ≠ [] := by simp
  have version_tail := dropWhile_space_token isVersion []
  rw [List.append_nil] at version_tail
  simp only [parseRequestLine, findEol_line, take_text]
  rw [text, scanToken_token isMethod]
  simp only [reduceCtorEq, if_false, dropWhile_space_token isUri, uri_more,
    scanToken_token isUri, version_tail, isVersion.1, scanToken_all isVersion]
  simp [Line.length_bytes, text]

theorem parseRequestLine_accepts {line : Line} (isLine : line.IsRequestLine) :
    ∃ started : HttpRequest, started.toHttpMessage = {} ∧
      ∀ rest, parseRequestLine (line.bytes ++ rest) {} =
        ((line.bytes.length : Int), started) := by
  obtain ⟨method, uri, version, isMethod, isUri, isVersion, text⟩ := isLine
  exact ⟨_, rfl, parseRequestLine_line isMethod isUri isVersion text⟩

/-- What `parse_response_line` makes of a status line. -/
theorem parseResponseLine_line {line : Line} {version status reason : Bytes}
    (isVersion : IsToken version) (nonempty : status ≠ [])
    (digits : ∀ byte ∈ status, isdigit byte = true)
    (text : line.text = version ++ 32 :: (status ++ 32 :: reason)) (rest : Bytes) :
    parseResponseLine (line.bytes ++ rest) {} =
      ((line.bytes.length : Int),
        let resp : HttpResponse :=
          { version := parseVersion version, statusCode := atoi (status.take 3) }
        let reason := (32 :: reason).dropWhile isSpace
        if reason = [] then resp
        else
          { resp with
            reasonPhrase := some reason, reasonPhraseLen := reason.length % 2 ^ 16 }) := by
  have isStatus : IsToken status := by
    refine ⟨nonempty, fun byte member => ?_⟩
    have digit := digits byte member
    by_contra space
    have cases_space : byte = 32 ∨ byte = 9 := by
      simpa [isSpace, or_iff_not_imp_left] using space
    rcases cases_space with rfl | rfl <;> exact absurd digit (by decide)
  have status_more : status ++ 32 :: reason ≠ [] := by simp
  have status_span : (status ++ 32 :: reason).span isdigit = (status, 32 :: reason) := by
    rw [List.span_eq_takeWhile_dropWhile, List.takeWhile_append_of_pos digits,
      List.dropWhile_append_of_pos digits]
    simp [show isdigit 32 = false from rfl]
  simp only [parseResponseLine, findEol_line, take_text]
  rw [text, scanToken_token isVersion]
  simp only [reduceCtorEq, if_false, dropWhile_space_token isStatus, status_more,
    status_span, nonempty, or_self]
  simp [Line.length_bytes, text]

theorem parseResponseLine_accepts {line : Line} (isLine : line.IsStatusLine) :
    ∃ started : HttpResponse, started.toHttpMessage = {} ∧
      ∀ rest, parseResponseLine (line.bytes ++ rest) {} =
        ((line.bytes.length : Int), started) := by
  obtain ⟨version, status, reason, isVersion, nonempty, digits, text⟩ := isLine
  refine ⟨_, ?_, parseResponseLine_line isVersion nonempty digits text⟩
  dsimp only
  split <;> rfl

/-! ## The theorem -/

/-- A request that the parser takes: a request line, fewer than 50 headers and a blank
line. -/
structure Message.IsRequest (m : Message) : Prop where
  line : m.start.IsRequestLine
  headers : ∀ line ∈ m.headers, line.IsHeader
  few : m.headers.length < HTTP_MAX_HEADERS

/-- Likewise a response. -/
structure Message.IsResponse (m : Message) : Prop where
  line : m.start.IsStatusLine
  headers : ∀ line ∈ m.headers, line.IsHeader
  few : m.headers.length < HTTP_MAX_HEADERS

variable {m : Message} {chunks : List Bytes}

theorem chunks_ne_nil (whole : chunks.flatten = m.bytes) : chunks ≠ [] := by
  rintro rfl
  exact bytes_ne_nil m whole.symm

theorem HttpConn.current_holdRequest (conn : HttpConn) (req : HttpRequest) :
    (conn.holdRequest .complete req).httpGetCurrentTransaction =
      some ⟨conn.transactions.length, some req, none, .requestHeaders⟩ := by
  simp [httpGetCurrentTransaction, holdRequest, afterRequest, updateTx, createTx, findTx,
    HttpTransaction.afterRequest]

theorem request_chunks_iff (conn : HttpConn) (isRequest : m.IsRequest)
    (nonempty : ∀ chunk ∈ chunks, chunk ≠ []) (whole : chunks.flatten = m.bytes)
    (idle : conn.state = .idle) (none : conn.currentTx = none) :
    (feedAll conn 0 chunks).httpGetCurrentTransaction =
        (feedAll conn 0 [m.bytes]).httpGetCurrentTransaction ↔
      m.KeptTogether chunks := by
  obtain ⟨started, fresh, line⟩ := parseRequestLine_accepts isRequest.line
  have valid : m.Valid requestKind {} started :=
    ⟨line, fresh, isRequest.headers, isRequest.few⟩
  have wraps := conn.holdRequest_wraps idle
  have first := fun (chunk : Bytes) (nonempty : chunk ≠ []) =>
    conn.feed_first_request idle none nonempty
  obtain ⟨lost, bound, kept, fed⟩ :=
    feedAll_wrap requestKind_lawful wraps valid chunks nonempty whole
  have same : finished requestKind started m.headers lost =
      finished requestKind started m.headers 0 ↔ lost = 0 :=
    finished_eq_iff requestKind_lawful bound
  rw [feedAll_congr nonempty (chunks_ne_nil whole) first, fed,
    feedAll_congr (by simpa using bytes_ne_nil m) (by simp) first,
    feedAll_wrap_one requestKind_lawful wraps valid]
  rw [HttpConn.current_holdRequest, HttpConn.current_holdRequest, ← kept,
    ← same]
  simp

theorem response_chunks_iff (conn : HttpConn) {id : Nat} {tx : HttpTransaction}
    (isResponse : m.IsResponse) (nonempty : ∀ chunk ∈ chunks, chunk ≠ [])
    (whole : chunks.flatten = m.bytes) (waiting : conn.state = .responseLine)
    (current : conn.currentTx = some id) (found : conn.findTx id = some tx)
    (none : tx.response = none) :
    (feedAll conn 1 chunks).findTx id = (feedAll conn 1 [m.bytes]).findTx id ↔
      m.KeptTogether chunks := by
  obtain ⟨started, fresh, line⟩ := parseResponseLine_accepts isResponse.line
  have valid : m.Valid responseKind {} started :=
    ⟨line, fresh, isResponse.headers, isResponse.few⟩
  have wraps := conn.afterResponse_wraps waiting current found
  have first := fun (chunk : Bytes) (nonempty : chunk ≠ []) =>
    conn.feed_first_response waiting current found none nonempty
  obtain ⟨lost, bound, kept, fed⟩ :=
    feedAll_wrap responseKind_lawful wraps valid chunks nonempty whole
  have same : finished responseKind started m.headers lost =
      finished responseKind started m.headers 0 ↔ lost = 0 :=
    finished_eq_iff responseKind_lawful bound
  rw [feedAll_congr nonempty (chunks_ne_nil whole) first, fed,
    feedAll_congr (by simpa using bytes_ne_nil m) (by simp) first,
    feedAll_wrap_one responseKind_lawful wraps valid]
  rw [HttpConn.findTx_afterResponse, HttpConn.findTx_afterResponse, found, ← kept,
    ← same]
  simp [HttpTransaction.afterResponse]

/-- The transaction that a request or a response in chunks ends with is the one that the
whole message in one call ends with, if and only if no chunk begins between the end of
its first header and the end of its last one. -/
theorem chunking_independent_iff (m : Message) (chunks : List Bytes)
    (nonempty : ∀ chunk ∈ chunks, chunk ≠ []) (whole : chunks.flatten = m.bytes) :
    (∀ conn : HttpConn, m.IsRequest → conn.state = .idle → conn.currentTx = none →
      ((feedAll conn 0 chunks).httpGetCurrentTransaction =
          (feedAll conn 0 [m.bytes]).httpGetCurrentTransaction ↔
        m.KeptTogether chunks)) ∧
    (∀ (conn : HttpConn) (id : Nat) (tx : HttpTransaction), m.IsResponse →
      conn.state = .responseLine → conn.currentTx = some id → conn.findTx id = some tx →
      tx.response = none →
      ((feedAll conn 1 chunks).findTx id = (feedAll conn 1 [m.bytes]).findTx id ↔
        m.KeptTogether chunks)) := by
  constructor
  · intro conn isRequest idle none
    exact request_chunks_iff conn isRequest nonempty whole idle none
  · intro conn id tx isResponse waiting current found none
    exact response_chunks_iff conn isResponse nonempty whole waiting current found none

instance (m : Message) (chunks : List Bytes) : Decidable (m.KeptTogether chunks) :=
  inferInstanceAs (Decidable (∀ cut ∈ chunkStarts 0 chunks, _))

/-- A request with two headers. -/
def twoHeaders : Message where
  start := ⟨ascii "GET / HTTP/1.1", .crlf, by decide +kernel, by decide⟩
  headers :=
    [⟨ascii "Host: a", .crlf, by decide +kernel, by decide⟩,
      ⟨ascii "User-Agent: b", .crlf, by decide +kernel, by decide⟩]
  blank := .crlf

theorem twoHeaders_isRequest : twoHeaders.IsRequest where
  line := by
    refine ⟨ascii "GET", ascii "/", ascii "HTTP/1.1", ?_, ?_, ?_, by decide +kernel⟩ <;>
      constructor <;> decide +kernel
  headers := by
    intro line member
    simp only [twoHeaders, List.mem_cons, List.not_mem_nil, or_false] at member
    rcases member with rfl | rfl <;> simp only [Line.IsHeader] <;> decide +kernel
  few := by decide

/-- A cut in the first header does no harm. -/
theorem chunking_independent_iff_early_cut :
    (feedAll {} 0 [twoHeaders.bytes.take 20, twoHeaders.bytes.drop 20]).httpGetCurrentTransaction =
      (feedAll {} 0 [twoHeaders.bytes]).httpGetCurrentTransaction :=
  ((chunking_independent_iff twoHeaders _ (by decide +kernel) (by decide +kernel)).1 {}
    twoHeaders_isRequest rfl rfl).mpr (by decide +kernel)

/-- A cut between the two headers loses the first: no host is found. -/
theorem chunking_loses_host :
    twoHeaders.IsRequest ∧
      [twoHeaders.bytes.take 25, twoHeaders.bytes.drop 25].flatten = twoHeaders.bytes ∧
      (feedAll {} 0 [twoHeaders.bytes.take 25,
        twoHeaders.bytes.drop 25]).httpGetCurrentTransaction ≠
        (feedAll {} 0 [twoHeaders.bytes]).httpGetCurrentTransaction := by
  refine ⟨twoHeaders_isRequest, ?_, ?_⟩
  · decide +kernel
  · decide +kernel

end NetDefender.Http
