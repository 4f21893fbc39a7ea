import NetDefender.Http.RoundTrip
import Mathlib.Data.List.Nodup

/-!
# Any order of calls

Requests and responses come in two streams, and each call of `http_parser_parse` may bring
a part of either, which may be malformed or out of turn.  Whatever the order, the current
transaction, the state and the counters of the connection agree.
-/

namespace NetDefender.Http

open CString

/-- One call of `http_parser_parse`. -/
structure ParseCall where
  data : Bytes
  direction : Nat
  grants : Grants := {}

/-- The return value and the connection after the call. -/
def ParseCall.run (call : ParseCall) (conn : HttpConn) : Int × HttpConn :=
  conn.httpParserParse call.data call.direction call.grants

/-- The connection after a list of calls. -/
def runParses (conn : HttpConn) (calls : List ParseCall) : HttpConn :=
  calls.foldl (fun conn call => (call.run conn).2) conn

/-! ## Return values -/

/-- What a function that consumes data may return. -/
def Returns (ret : Int) (length : Nat) : Prop := ret = -1 ∨ 0 ≤ ret ∧ ret ≤ length

theorem Returns.fail (length : Nat) : Returns (-1) length := .inl rfl

theorem Returns.of_le {used length : Nat} (fits : used ≤ length) : Returns used length :=
  .inr ⟨Int.natCast_nonneg used, Int.ofNat_le.mpr fits⟩

theorem Returns.zero (length : Nat) : Returns 0 length := .of_le (Nat.zero_le length)

theorem findEol_le {data : Bytes} {offset eolLen : Nat}
    (found : findEol data = some (offset, eolLen)) : offset + eolLen ≤ data.length := by
  fun_induction findEol data generalizing offset with
  | case1 => cases found
  | case2 rest =>
      obtain ⟨rfl, rfl⟩ := Prod.mk.inj (Option.some.inj found)
      rw [List.length_cons, List.length_cons]
      omega
  | case3 rest =>
      obtain ⟨rfl, rfl⟩ := Prod.mk.inj (Option.some.inj found)
      rw [List.length_cons]
      omega
  | case4 byte rest _ _ ih =>
      obtain ⟨⟨offset', eolLen'⟩, later, same⟩ := Option.map_eq_some_iff.mp found
      obtain ⟨rfl, rfl⟩ := Prod.mk.inj same
      have fits := ih later
      rw [List.length_cons]
      omega

theorem parseRequestLine_returns (data : Bytes) (req : HttpRequest) :
    Returns (parseRequestLine data req).1 data.length := by
  rw [parseRequestLine]
  cases found : findEol data with
  | none => exact .zero _
  | some eol =>
      have fits := Returns.of_le (findEol_le found)
      dsimp only
      split
      next => exact .fail _
      next =>
        split
        next => exact .fail _
        next =>
          split
          next => exact .fail _
          next =>
            split
            next => exact fits
            next => exact fits

theorem parseResponseLine_returns (data : Bytes) (resp : HttpResponse) :
    Returns (parseResponseLine data resp).1 data.length := by
  rw [parseResponseLine]
  cases found : findEol data with
  | none => exact .zero _
  | some eol =>
      have fits := Returns.of_le (findEol_le found)
      dsimp only
      split
      next => exact .fail _
      next =>
        split
        next => exact .fail _
        next =>
          split
          next => exact .fail _
          next => exact fits

/-- The bytes that a header line takes. -/
def HeaderLine.used : HeaderLine → Nat
  | .needMore | .invalid => 0
  | .blank used | .header used _ => used

theorem parseHeader_used (data : Bytes) : (parseHeader data).used ≤ data.length := by
  rw [parseHeader]
  cases found : findEol data with
  | none => exact Nat.zero_le _
  | some eol =>
      have fits := findEol_le found
      dsimp only
      split
      next => exact Nat.le_trans (Nat.le_add_left _ _) fits
      next =>
        cases (data.take eol.1).span (fun byte => decide (byte ≠ 58)) with
        | mk name rest =>
            cases rest with
            | nil => exact Nat.zero_le _
            | cons colon rest => exact fits

theorem scanHeaders_consumed (fuel : Nat) (data : Bytes) (consumed : Nat) (first : Bool)
    (message : HttpMessage) :
    (scanHeaders fuel data consumed first message).consumed ≤ consumed + data.length := by
  induction fuel generalizing data consumed first message with
  | zero => exact Nat.le_add_right _ _
  | succ fuel ih =>
      have taken := parseHeader_used data
      rw [scanHeaders]
      split
      next => exact Nat.le_add_right _ _
      next =>
        cases line : parseHeader data with
        | needMore => exact Nat.le_add_right _ _
        | invalid => exact Nat.le_add_right _ _
        | blank used =>
            rw [line] at taken
            exact Nat.add_le_add_left taken consumed
        | header used header =>
            rw [line] at taken
            have fits : used ≤ data.length := taken
            dsimp only
            split
            next => exact Nat.add_le_add_left fits consumed
            next =>
              have rest := ih (data.drop used) (consumed + used) false
                (addHeader message first header)
              rw [List.length_drop] at rest
              omega

section Kind

variable {α : Type} (kind : MessageKind α)

theorem parseHeaders_returns (data : Bytes) (msg : α) :
    Returns (parseHeaders kind data msg).1 data.length := by
  have consumed := scanHeaders_consumed data.length data 0 true (kind.message msg)
  rw [Nat.zero_add] at consumed
  rw [parseHeaders]
  dsimp only
  split
  next => exact .fail _
  next => exact .of_le consumed
  next => exact .of_le consumed

theorem parseRest_returns {data : Bytes} {consumed : Nat} (fits : consumed ≤ data.length)
    (msg : α) : Returns (parseRest kind data consumed msg).1 data.length := by
  have rest := parseHeaders_returns kind (data.drop consumed) msg
  rw [List.length_drop] at rest
  rw [parseRest]
  split
  next more =>
    dsimp only
    split
    next => exact .fail _
    next positive =>
      have bounded : Returns (consumed + (parseHeaders kind (data.drop consumed) msg).1)
          data.length := by
        rcases rest with failed | ⟨nonneg, le⟩
        · exact absurd (by rw [failed]; decide) positive
        · exact .inr ⟨by omega, by omega⟩
      split
      next => exact bounded
      next => exact bounded
  next => exact .of_le fits

theorem parseMessage_returns (lines : ∀ data msg, Returns (kind.parseLine data msg).1 data.length)
    (inLine : Bool) (data : Bytes) (msg : α) :
    Returns (parseMessage kind inLine data msg).1 data.length := by
  have line := lines data msg
  rw [parseMessage]
  split
  next =>
    dsimp only
    split
    next => exact .fail _
    next nonneg =>
      split
      next => exact .zero _
      next =>
        refine parseRest_returns kind ?_ _
        rcases line with failed | ⟨_, le⟩
        · exact absurd (by rw [failed]; decide) nonneg
        · exact Int.toNat_le.mpr le
  next => exact parseRest_returns kind (Nat.zero_le _) msg

end Kind

/-- `http_parser_parse` returns -1, or a number of bytes that it was given. -/
theorem ParseCall.run_returns (call : ParseCall) (conn : HttpConn) :
    Returns (call.run conn).1 call.data.length := by
  have request (conn : HttpConn) (inLine : Bool) (id : Nat) :
      Returns (conn.parseRequest call.data inLine id).1 call.data.length :=
    parseMessage_returns requestKind parseRequestLine_returns inLine call.data _
  have response (conn : HttpConn) (inLine : Bool) (id : Nat) (resp : HttpResponse) :
      Returns (conn.parseResponse call.data inLine id resp).1 call.data.length :=
    parseMessage_returns responseKind parseResponseLine_returns inLine call.data resp
  rw [run, HttpConn.httpParserParse]
  split
  next => exact .fail _
  next =>
    split
    next =>
      split
      next => exact request ..
      next => exact request ..
      next =>
        split
        next => exact request ..
        next => exact .fail _
      next =>
        split
        next => exact request ..
        next => exact .fail _
      next => exact request ..
      next => exact .zero _
    next =>
      split
      next => exact .fail _
      next =>
        split
        next => exact response ..
        next =>
          split
          next => exact response ..
          next => exact .fail _
      next => exact response ..
      next => exact .zero _

/-! ## The invariant -/

/-- The current transaction is the first of the list, and has a request. -/
structure HttpConn.Heads (conn : HttpConn) (tx : HttpTransaction) : Prop where
  head : conn.transactions.head? = some tx
  current : conn.currentTx = some tx.id
  request : tx.request.isSome = true

/-- Whose turn it is, with the counters that go with it. -/
inductive HttpConn.Turn (conn : HttpConn) : Prop where
  | free (state : conn.state = .idle) (current : conn.currentTx = none)
      (length : conn.transactions.length = conn.responsesParsed)
      (requests : conn.requestsParsed = conn.responsesParsed)
  | asking (tx : HttpTransaction) (heads : conn.Heads tx)
      (state : conn.state = .idle ∨ conn.state = .requestHeaders)
      (length : conn.transactions.length = conn.responsesParsed + 1)
      (requests : conn.requestsParsed = conn.responsesParsed)
  | answering (tx : HttpTransaction) (heads : conn.Heads tx)
      (state : conn.state = .responseLine ∨
        conn.state = .responseHeaders ∧ tx.response.isSome = true)
      (length : conn.transactions.length = conn.responsesParsed + 1)
      (requests : conn.requestsParsed = conn.responsesParsed + 1)
  | failed (state : conn.state = .error)
      (responses : conn.responsesParsed ≤ conn.requestsParsed)
      (requests : conn.requestsParsed ≤ conn.transactions.length)
      (length : conn.transactions.length ≤ conn.responsesParsed + 1)

/-- The transactions are numbered, and counted in 32 bits. -/
structure HttpConn.Consistent (conn : HttpConn) : Prop where
  numbered : conn.transactions.map (·.id) = (List.range conn.transactions.length).reverse
  count : conn.txCount = conn.transactions.length % 2 ^ 32
  turn : conn.Turn

namespace HttpConn

variable {conn : HttpConn}

theorem Heads.findTx {tx : HttpTransaction} (heads : conn.Heads tx) :
    conn.findTx tx.id = some tx := by
  have head := heads.head
  rw [HttpConn.findTx]
  cases list : conn.transactions with
  | nil =>
      rw [list] at head
      cases head
  | cons first rest =>
      rw [list] at head
      obtain rfl : first = tx := Option.some.inj head
      exact List.find?_cons_of_pos (decide_eq_true rfl)

/-- A change of the current transaction leaves it the current one. -/
theorem Heads.updateTx {tx : HttpTransaction} (heads : conn.Heads tx)
    {change : HttpTransaction → HttpTransaction} (keeps : ∀ tx, (change tx).id = tx.id)
    (request : (change tx).request.isSome = true) :
    (conn.updateTx tx.id change).Heads (change tx) := by
  constructor
  case head =>
    rw [HttpConn.updateTx, List.head?_map, heads.head, Option.map_some, if_pos rfl]
  case current => rw [keeps, ← heads.current, HttpConn.updateTx]
  case request => exact request

theorem updateTx_ids (id : Nat) {change : HttpTransaction → HttpTransaction}
    (keeps : ∀ tx, (change tx).id = tx.id) :
    (conn.updateTx id change).transactions.map (·.id) = conn.transactions.map (·.id) := by
  rw [updateTx, List.map_map]
  refine List.map_congr_left fun tx _ => ?_
  rw [Function.comp_apply]
  split
  next => exact keeps tx
  next => rfl

theorem updateTx_length (id : Nat) (change : HttpTransaction → HttpTransaction) :
    (conn.updateTx id change).transactions.length = conn.transactions.length :=
  List.length_map ..

/-- The request branch hands the turn on. -/
theorem Turn.afterRequest {tx : HttpTransaction} (heads : conn.Heads tx)
    (state : conn.state = .idle ∨ conn.state = .requestHeaders)
    (length : conn.transactions.length = conn.responsesParsed + 1)
    (requests : conn.requestsParsed = conn.responsesParsed) (phase : Phase)
    (req : HttpRequest) : (conn.afterRequest tx.id phase req).Turn := by
  have updated := @Heads.updateTx _ _ heads (·.afterRequest phase req) (fun _ => rfl) rfl
  have same : (conn.afterRequest tx.id phase req).transactions.length =
      conn.responsesParsed + 1 := by
    rw [← length, ← conn.updateTx_length tx.id (·.afterRequest phase req)]
    cases phase <;> rfl
  cases phase with
  | line => exact .asking _ ⟨updated.head, updated.current, rfl⟩ state same requests
  | headers => exact .asking _ ⟨updated.head, updated.current, rfl⟩ (.inr rfl) same requests
  | complete =>
      exact .answering _ ⟨updated.head, updated.current, rfl⟩ (.inl rfl) same
        (congrArg Nat.succ requests)
  | badLine | badHeaders =>
      refine .failed rfl (Nat.le_of_eq requests.symm) ?_ (Nat.le_of_eq same)
      rw [same]
      exact Nat.le_succ_of_le (Nat.le_of_eq requests)

/-- The response branch hands the turn on. -/
theorem Turn.afterResponse {tx : HttpTransaction} (heads : conn.Heads tx)
    (state : conn.state = .responseLine ∨ conn.state = .responseHeaders)
    (length : conn.transactions.length = conn.responsesParsed + 1)
    (requests : conn.requestsParsed = conn.responsesParsed + 1) (phase : Phase)
    (resp : HttpResponse) : (conn.afterResponse tx.id phase resp).Turn := by
  have updated := @Heads.updateTx _ _ heads (·.afterResponse phase resp) (fun _ => rfl)
    heads.request
  have same : (conn.afterResponse tx.id phase resp).transactions.length =
      conn.responsesParsed + 1 := by
    rw [← length, ← conn.updateTx_length tx.id (·.afterResponse phase resp)]
    cases phase <;> rfl
  cases phase with
  | line =>
      exact .answering _ ⟨updated.head, updated.current, heads.request⟩
        (state.imp_right fun headers => ⟨headers, rfl⟩) same requests
  | headers =>
      exact .answering _ ⟨updated.head, updated.current, heads.request⟩ (.inr ⟨rfl, rfl⟩) same
        requests
  | complete => exact .free rfl rfl same requests
  | badLine | badHeaders =>
      refine .failed rfl ?_ ?_ (Nat.le_of_eq same)
      · exact Nat.le_trans (Nat.le_succ _) (Nat.le_of_eq requests.symm)
      · rw [same]
        exact Nat.le_of_eq requests

/-- A call that only changes transactions in place keeps them numbered. -/
theorem Consistent.update (consistent : conn.Consistent) {after : HttpConn}
    (ids : after.transactions.map (·.id) = conn.transactions.map (·.id))
    (count : after.txCount = conn.txCount) (turn : after.Turn) : after.Consistent := by
  have length : after.transactions.length = conn.transactions.length := by
    rw [← List.length_map (·.id), ids, List.length_map]
  exact ⟨by rw [ids, length, consistent.numbered], by rw [count, length, consistent.count], turn⟩

theorem Consistent.parseRequest (consistent : conn.Consistent) {tx : HttpTransaction}
    (heads : conn.Heads tx) (state : conn.state = .idle ∨ conn.state = .requestHeaders)
    (length : conn.transactions.length = conn.responsesParsed + 1)
    (requests : conn.requestsParsed = conn.responsesParsed) (data : Bytes) (inLine : Bool) :
    (conn.parseRequest data inLine tx.id).2.Consistent := by
  rw [HttpConn.parseRequest]
  generalize parseMessage requestKind inLine data (conn.requestOf tx.id) = parsed
  obtain ⟨ret, phase, req⟩ := parsed
  have ids := @updateTx_ids conn tx.id (·.afterRequest phase req) fun _ => rfl
  refine consistent.update ?_ ?_ (Turn.afterRequest heads state length requests phase req)
  · cases phase <;> exact ids
  · cases phase <;> rfl

theorem Consistent.parseResponse (consistent : conn.Consistent) {tx : HttpTransaction}
    (heads : conn.Heads tx) (state : conn.state = .responseLine ∨ conn.state = .responseHeaders)
    (length : conn.transactions.length = conn.responsesParsed + 1)
    (requests : conn.requestsParsed = conn.responsesParsed + 1) (data : Bytes) (inLine : Bool)
    (resp : HttpResponse) : (conn.parseResponse data inLine tx.id resp).2.Consistent := by
  rw [HttpConn.parseResponse]
  generalize parseMessage responseKind inLine data resp = parsed
  obtain ⟨ret, phase, resp⟩ := parsed
  have ids := @updateTx_ids conn tx.id (·.afterResponse phase resp) fun _ => rfl
  refine consistent.update ?_ ?_ (Turn.afterResponse heads state length requests phase resp)
  · cases phase <;> exact ids
  · cases phase <;> rfl

/-- The transaction that is created. -/
theorem createTx_heads (conn : HttpConn) :
    conn.createTx.Heads
      { id := conn.transactions.length, request := some {}, state := .requestLine } :=
  ⟨rfl, rfl, rfl⟩

/-- A new transaction is the next in number. -/
theorem Consistent.createTx (consistent : conn.Consistent) (state : conn.state = .idle)
    (length : conn.transactions.length = conn.responsesParsed)
    (requests : conn.requestsParsed = conn.responsesParsed) : conn.createTx.Consistent := by
  refine ⟨?_, ?_, .asking _ conn.createTx_heads (.inl state) (congrArg Nat.succ length) requests⟩
  · rw [HttpConn.createTx, List.map_cons, consistent.numbered, List.length_cons, List.range_succ,
      List.reverse_append]
    rfl
  · rw [HttpConn.createTx, List.length_cons, consistent.count, Nat.mod_add_mod]

/-- Every call keeps the connection consistent. -/
theorem Consistent.httpParserParse (consistent : conn.Consistent) (data : Bytes)
    (direction : Nat) (grants : Grants) :
    (conn.httpParserParse data direction grants).2.Consistent := by
  rw [HttpConn.httpParserParse]
  split
  next => exact consistent
  next =>
    cases consistent.turn with
    | free state current length requests =>
        simp only [state, current]
        split
        next =>
          split
          next granted =>
            have created := consistent.createTx state length requests
            exact created.parseRequest conn.createTx_heads (.inl state)
              (congrArg Nat.succ length) requests data true
          next refused => exact consistent
        next => exact consistent
    | asking tx heads state length requests =>
        have asks := consistent.parseRequest heads state length requests data
        rcases state with state | state
        · simp only [state, heads.current]
          split
          next => exact asks true
          next => exact consistent
        · simp only [state, heads.current]
          split
          next => exact asks false
          next => exact consistent
    | answering tx heads state length requests =>
        have answers := consistent.parseResponse heads (state.imp_right And.left) length
          requests data
        rcases state with state | ⟨state, -⟩
        · simp only [state, heads.current]
          split
          next => exact consistent
          next =>
            split
            next resp found => exact answers true resp
            next missing =>
              split
              next granted => exact answers true {}
              next refused => exact consistent
        · simp only [state, heads.current]
          split
          next => exact consistent
          next => exact answers false _
    | failed state responses requests length =>
        simp only [state]
        split
        next => exact consistent
        next => exact consistent

end HttpConn

/-! ## Runs -/

theorem fresh_consistent : HttpConn.Consistent {} := ⟨rfl, rfl, .free rfl rfl rfl rfl⟩

theorem runParses_consistent (calls : List ParseCall) {conn : HttpConn}
    (consistent : conn.Consistent) : (runParses conn calls).Consistent := by
  induction calls generalizing conn with
  | nil => exact consistent
  | cons call calls ih =>
      exact ih (consistent.httpParserParse call.data call.direction call.grants)

/-- The counters of a connection agree with each other and with its list. -/
theorem HttpConn.Turn.counters {conn : HttpConn} (turn : conn.Turn) :
    conn.responsesParsed ≤ conn.requestsParsed ∧
      conn.requestsParsed ≤ conn.transactions.length ∧
      conn.transactions.length ≤ conn.responsesParsed + 1 := by
  cases turn with
  | free state current length requests => omega
  | asking tx heads state length requests => omega
  | answering tx heads state length requests => omega
  | failed state responses requests length => exact ⟨responses, requests, length⟩

/-- Where a transaction is needed it is there, with its response where that is needed. -/
theorem HttpConn.Turn.current {conn : HttpConn} (turn : conn.Turn)
    (needed : conn.state ∈ [.requestHeaders, .responseLine, .responseHeaders]) :
    ∃ tx, conn.Heads tx ∧ (conn.state = .responseHeaders → tx.response.isSome = true) := by
  simp only [List.mem_cons, List.not_mem_nil, or_false] at needed
  cases turn with
  | free state current length requests => simp [state] at needed
  | asking tx heads state length requests =>
      refine ⟨tx, heads, fun headers => ?_⟩
      simp [headers] at state
  | answering tx heads state length requests =>
      refine ⟨tx, heads, fun headers => ?_⟩
      rcases state with line | ⟨-, response⟩
      · rw [headers] at line
        exact nomatch line
      · exact response
  | failed state responses requests length => simp [state] at needed

/-- A number of requests, each answered before the next. -/
def rounds (count : Nat) : List ParseCall :=
  (List.replicate count [⟨getIndex.bytes, 0, {}⟩, ⟨noReason.bytes, 1, {}⟩]).flatten

theorem HttpConn.length_holdRequest (conn : HttpConn) (phase : Phase) (req : HttpRequest) :
    (conn.holdRequest phase req).transactions.length = conn.transactions.length + 1 := by
  cases phase <;> exact conn.createTx.updateTx_length ..

theorem HttpConn.length_afterResponse (conn : HttpConn) (id : Nat) (phase : Phase)
    (resp : HttpResponse) :
    (conn.afterResponse id phase resp).transactions.length = conn.transactions.length := by
  cases phase <;> exact conn.updateTx_length ..

theorem rounds_length (count : Nat) {conn : HttpConn} (idle : conn.state = .idle)
    (free : conn.currentTx = none) :
    (runParses conn (rounds count)).transactions.length = conn.transactions.length + count := by
  induction count generalizing conn with
  | zero => rfl
  | succ count ih =>
      have asked := conn.parse_request idle free getIndex.valid
      rw [getIndex.message_bytes] at asked
      generalize finished requestKind _ _ _ = request at asked
      have found : (conn.holdRequest .complete request).findTx conn.transactions.length =
          some ⟨conn.transactions.length, some request, none, .requestHeaders⟩ :=
        conn.current_holdRequest request
      have answered := HttpConn.parse_response (conn.holdRequest .complete request) rfl rfl found
        rfl noReason.valid
      rw [noReason.message_bytes] at answered
      generalize finished responseKind _ _ _ = response at answered
      have next := @ih ((conn.holdRequest .complete request).afterResponse
        conn.transactions.length .complete response) rfl rfl
      rw [HttpConn.length_afterResponse, HttpConn.length_holdRequest, Nat.add_assoc,
        Nat.add_comm 1] at next
      rw [← next, rounds, List.replicate_succ, List.flatten_cons, runParses, List.foldl_append,
        List.foldl_cons, List.foldl_cons, List.foldl_nil, ParseCall.run, ParseCall.run,
        asked, answered]
      rfl

end NetDefender.Http
