import Mathlib.Data.List.Infix
import NetDefender.Http.Feeding
import NetDefender.Rules.Check

/-!
# A URI on the wire and a content condition

The parser keeps the bytes of a URI with their length, and a content condition is looked
for in a string that ends at the first NUL.  A pattern that is only found behind a NUL is
missed.
-/

namespace NetDefender.Rules

open CString Http

/-! ## Occurrences -/

section Occurrences

variable {needle haystack : Bytes}

/-- `strstr` finds a needle where it occurs. -/
theorem occursIn_iff : occursIn needle haystack = true ↔ needle <:+: haystack := by
  rw [occursIn, List.any_eq_true, List.infix_iff_prefix_suffix]
  apply exists_congr
  intro tail
  rw [List.mem_tails, List.isPrefixOf_iff_prefix, and_comm]

theorem text_of_plain (plain : 0 ∉ needle) : text needle = needle := by
  rw [text, List.takeWhile_eq_self_iff]
  intro byte member
  refine decide_eq_true ?_
  rintro rfl
  exact plain member

/-- An occurrence in the string is one in the bytes with no NUL before it. -/
theorem infix_text_iff (plain : 0 ∉ needle) :
    needle <:+: text haystack ↔
      ∃ before after, haystack = before ++ needle ++ after ∧ 0 ∉ before := by
  constructor
  · rintro ⟨before, after, same⟩
    obtain ⟨behind, split⟩ : text haystack <+: haystack := List.takeWhile_prefix _
    refine ⟨before, after ++ behind, ?_, ?_⟩
    · rw [← split, ← same, List.append_assoc]
    · intro member
      have inside : 0 ∈ text haystack := by simp [← same, member]
      have nonzero := List.mem_takeWhile_imp inside
      simp at nonzero
  · rintro ⟨before, after, rfl, none⟩
    have nonzero : ∀ byte ∈ before ++ needle, decide (byte ≠ 0) = true := by
      intro byte member
      refine decide_eq_true ?_
      rintro rfl
      exact (List.mem_append.mp member).elim none plain
    exact ⟨before, text after, by rw [text, text, List.takeWhile_append_of_pos nonzero]⟩

end Occurrences

/-! ## The request line -/

/-- A request line as it is accepted: a method, spaces, the URI, spaces, and the rest. -/
structure UriLine where
  method : Bytes
  gap : Bytes
  uri : Bytes
  gap' : Bytes
  version : Bytes
  method_plain : ∀ byte ∈ method, isSpace byte = false ∧ byte ≠ 10
  gap_spaces : gap ≠ [] ∧ ∀ byte ∈ gap, isSpace byte = true
  uri_plain : uri ≠ [] ∧ ∀ byte ∈ uri, isSpace byte = false ∧ byte ≠ 10 ∧ byte ≠ 13
  uri_short : uri.length ≤ HTTP_MAX_URI_LEN
  gap'_spaces : gap' ≠ [] ∧ ∀ byte ∈ gap', isSpace byte = true
  version_plain : 10 ∉ version ∧ 13 ∉ version

namespace UriLine

variable (line : UriLine)

/-- The bytes before the end of the line. -/
def text : Bytes := line.method ++ line.gap ++ line.uri ++ line.gap' ++ line.version

theorem gap_noLf {gap : Bytes} (spaces : ∀ byte ∈ gap, isSpace byte = true) : 10 ∉ gap :=
  fun member => absurd (spaces 10 member) (by decide)

theorem text_noLf : 10 ∉ line.text := by
  intro member
  simp only [text, List.mem_append] at member
  rcases member with (((inMethod | inGap) | inUri) | inGap') | inVersion
  · exact (line.method_plain 10 inMethod).2 rfl
  · exact gap_noLf line.gap_spaces.2 inGap
  · exact (line.uri_plain.2 10 inUri).2.1 rfl
  · exact gap_noLf line.gap'_spaces.2 inGap'
  · exact line.version_plain.1 inVersion

theorem text_last : line.text.getLast? ≠ some 13 := by
  intro last
  have member := List.mem_of_getLast? last
  have split : line.text = line.method ++ line.gap ++ line.uri ++ (line.gap' ++ line.version) := by
    simp [text]
  have nonempty : line.gap' ++ line.version ≠ [] := by simp [line.gap'_spaces.1]
  rw [split, List.getLast?_append_of_ne_nil _ nonempty] at last
  rcases List.mem_append.mp (List.mem_of_getLast? last) with inGap | inVersion
  · exact absurd (line.gap'_spaces.2 13 inGap) (by decide)
  · exact line.version_plain.2 inVersion

/-- The line on the wire. -/
def onWire (eol : Eol) : Line where
  text := line.text
  eol := eol
  noLf := line.text_noLf
  noCr := fun _ => line.text_last

end UriLine

/-- A token ends at the spaces behind it. -/
theorem scanToken_gap {token gap rest : Bytes} (plain : ∀ byte ∈ token, isSpace byte = false)
    (spaces : gap ≠ [] ∧ ∀ byte ∈ gap, isSpace byte = true) :
    scanToken (token ++ (gap ++ rest)) = (token, gap ++ rest) := by
  have inToken : ∀ byte ∈ token, (!isSpace byte) = true := fun byte member => by
    simp [plain byte member]
  obtain ⟨nonempty, isGap⟩ := spaces
  cases gap with
  | nil => exact absurd rfl nonempty
  | cons space gap =>
      have first := isGap space List.mem_cons_self
      simp only [scanToken, List.span_eq_takeWhile_dropWhile,
        List.takeWhile_append_of_pos inToken, List.dropWhile_append_of_pos inToken]
      simp [first]

/-- The spaces before a token are skipped. -/
theorem dropWhile_gap {gap token rest : Bytes} (spaces : ∀ byte ∈ gap, isSpace byte = true)
    (plain : token ≠ [] ∧ ∀ byte ∈ token, isSpace byte = false) :
    (gap ++ (token ++ rest)).dropWhile isSpace = token ++ rest := by
  rw [List.dropWhile_append_of_pos spaces]
  obtain ⟨nonempty, noSpace⟩ := plain
  cases token with
  | nil => exact absurd rfl nonempty
  | cons byte token => simp [noSpace byte List.mem_cons_self]

/-- The URI of a request line is stored as it was sent. -/
theorem parseRequestLine_uri (line : UriLine) (eol : Eol) (rest : Bytes) (req : HttpRequest) :
    ∃ method version, parseRequestLine ((line.onWire eol).bytes ++ rest) req =
      (((line.onWire eol).bytes.length : Int),
        { req with method, uri := some line.uri, uriLen := line.uri.length, version }) := by
  have method_plain : ∀ byte ∈ line.method, isSpace byte = false := fun byte member =>
    (line.method_plain byte member).1
  have uri_plain : line.uri ≠ [] ∧ ∀ byte ∈ line.uri, isSpace byte = false :=
    ⟨line.uri_plain.1, fun byte member => (line.uri_plain.2 byte member).1⟩
  have split : (line.onWire eol).text =
      line.method ++ (line.gap ++ (line.uri ++ (line.gap' ++ line.version))) := by
    simp [UriLine.onWire, UriLine.text]
  have whole : line.uri.take HTTP_MAX_URI_LEN = line.uri := List.take_of_length_le line.uri_short
  have gap_more : line.gap ++ (line.uri ++ (line.gap' ++ line.version)) ≠ [] := by
    simp [line.gap_spaces.1]
  have uri_more : line.uri ++ (line.gap' ++ line.version) ≠ [] := by simp [uri_plain.1]
  have gap'_more : line.gap' ++ line.version ≠ [] := by simp [line.gap'_spaces.1]
  have used : (line.onWire eol).text.length + (line.onWire eol).eol.bytes.length =
      (line.onWire eol).bytes.length := (Line.length_bytes _).symm
  simp only [parseRequestLine, findEol_line, take_text]
  rw [used, split, scanToken_gap method_plain line.gap_spaces]
  simp only [gap_more, if_false, dropWhile_gap line.gap_spaces.2 uri_plain, uri_more,
    scanToken_gap uri_plain.2 line.gap'_spaces, gap'_more, whole]
  split <;> exact ⟨_, _, rfl⟩

/-! ## The connection -/

theorem extractRequestHeaders_uri (req : HttpRequest) :
    (extractRequestHeaders req).uri = req.uri := by
  rw [extractRequestHeaders]
  dsimp only
  split <;> split <;> rfl

/-- The headers leave the URI alone. -/
theorem parseHeaders_uri (data : Bytes) (req : HttpRequest) :
    (parseHeaders requestKind data req).2.uri = req.uri := by
  rw [parseHeaders]
  dsimp only
  split
  next => rfl
  next => rfl
  next => exact extractRequestHeaders_uri _

theorem parseRest_uri (data : Bytes) (consumed : Nat) (req : HttpRequest) :
    (parseRest requestKind data consumed req).2.2.uri = req.uri := by
  have kept := parseHeaders_uri (data.drop consumed) req
  rw [parseRest]
  split
  next =>
      dsimp only
      split
      next => exact kept
      next => split <;> exact kept
  next => rfl

/-- A connection that waits for a request line: it has no current transaction, or one in its
list. -/
structure Awaits (conn : HttpConn) : Prop where
  state : conn.state = .idle ∨ conn.state = .requestLine
  current : ∀ id ∈ conn.currentTx, ∃ tx, conn.findTx id = some tx

theorem findTx_afterRequest (conn : HttpConn) (id : Nat) (phase : Phase) (req : HttpRequest) :
    (conn.afterRequest id phase req).findTx id =
      (conn.findTx id).map (·.afterRequest phase req) := by
  have updated : (conn.updateTx id (·.afterRequest phase req)).findTx id = _ :=
    conn.findTx_updateTx id fun _ => rfl
  cases phase <;> exact updated

theorem afterRequest_current (conn : HttpConn) (id : Nat) (phase : Phase) (req : HttpRequest) :
    (conn.afterRequest id phase req).currentTx = conn.currentTx := by
  cases phase <;> rfl

/-- The request that a call leaves in the current transaction. -/
theorem parseRequest_current {conn : HttpConn} {id : Nat} {tx : HttpTransaction}
    (current : conn.currentTx = some id) (found : conn.findTx id = some tx) (data : Bytes) :
    ∃ after, (conn.parseRequest data true id).2.httpGetCurrentTransaction = some after ∧
      after.request =
        some (parseMessage requestKind true data (conn.requestOf id)).2.2 := by
  rw [HttpConn.parseRequest]
  dsimp only
  rw [HttpConn.httpGetCurrentTransaction, afterRequest_current, current, Option.bind_some,
    findTx_afterRequest, found, Option.map_some]
  exact ⟨_, rfl, rfl⟩

/-- The current transaction after a call on a request line and what follows it. -/
def transactionAfter (conn : HttpConn) (line : UriLine) (eol : Eol) (rest : Bytes) :
    Option HttpTransaction :=
  (conn.httpParserParse ((line.onWire eol).bytes ++ rest) 0).2.httpGetCurrentTransaction

/-- After the call, the current transaction has the URI as it was sent. -/
theorem httpParserParse_uri {conn : HttpConn} (awaits : Awaits conn) (line : UriLine)
    (eol : Eol) (rest : Bytes) :
    ∃ tx, transactionAfter conn line eol rest = some tx ∧
      tx.request.bind (·.uri) = some line.uri := by
  have nonempty : (line.onWire eol).bytes ++ rest ≠ [] := by
    have positive := (line.onWire eol).bytes_length_pos
    intro empty
    rw [(List.append_eq_nil_iff.mp empty).1] at positive
    exact Nat.lt_irrefl 0 positive
  have stored : ∀ req, (parseMessage requestKind true ((line.onWire eol).bytes ++ rest)
      req).2.2.uri = some line.uri := by
    intro req
    obtain ⟨method, version, parsed⟩ := parseRequestLine_uri line eol rest req
    have accepted : parseMessage requestKind true ((line.onWire eol).bytes ++ rest) req =
        parseRest requestKind _ _ _ :=
      parseMessage_accepted parsed (line.onWire eol).bytes_length_pos
    rw [accepted, parseRest_uri]
  cases current : conn.currentTx with
  | none =>
      have parse : conn.httpParserParse ((line.onWire eol).bytes ++ rest) 0 =
          conn.createTx.parseRequest ((line.onWire eol).bytes ++ rest) true
            conn.transactions.length := by
        rcases awaits.state with state | state <;>
          simp [HttpConn.httpParserParse, nonempty, state, current]
      have found : conn.createTx.findTx conn.transactions.length =
          some { id := conn.transactions.length, request := some {}, state := .requestLine } := by
        simp [HttpConn.findTx, HttpConn.createTx]
      obtain ⟨tx, now, request⟩ := parseRequest_current rfl found
        ((line.onWire eol).bytes ++ rest)
      refine ⟨tx, by rw [transactionAfter, parse, now], ?_⟩
      rw [request, Option.bind_some, stored]
  | some id =>
      obtain ⟨before, found⟩ := awaits.current id current
      have parse : conn.httpParserParse ((line.onWire eol).bytes ++ rest) 0 =
          conn.parseRequest ((line.onWire eol).bytes ++ rest) true id := by
        rcases awaits.state with state | state <;>
          simp [HttpConn.httpParserParse, nonempty, state, current]
      obtain ⟨tx, now, request⟩ := parseRequest_current current found
        ((line.onWire eol).bytes ++ rest)
      refine ⟨tx, by rw [transactionAfter, parse, now], ?_⟩
      rw [request, Option.bind_some, stored]

/-! ## The verdict -/

/-- A rule for the URI with one case-sensitive content condition. -/
structure SeeksInUri (rule : DetectionRule) (pattern : Bytes) : Prop where
  enabled : rule.enabled = true
  uri : rule.http.checkUri = true
  headers : rule.http.checkHeaders = false
  conditions : rule.conditions = [ruleConditionContent pattern true]

/-- The rule finds what is in the string of the URI. -/
theorem checkHttpRule_uri {rule : DetectionRule} {pattern uri detail : Bytes} {size : Nat}
    {tx : HttpTransaction} (seeks : SeeksInUri rule pattern) (plain : 0 ∉ pattern)
    (stored : tx.request.bind (·.uri) = some uri) :
    (checkHttpRule rule tx detail size).1 = true ↔ pattern <:+: text uri := by
  have fields : httpFields rule tx = [uri] := by
    rw [httpFields, uriField, headerField, if_pos seeks.uri, stored,
      if_neg (by simp [seeks.headers])]
    rfl
  rw [checkHttpRule_iff, fields, ← occursIn_iff, ← text_of_plain plain]
  simp [seeks.enabled, DetectionRule.Holds, seeks.conditions, checkCondition,
    ruleConditionContent, stringContains, text_of_plain plain]

/-- After a request line, a rule with one pattern fires exactly when the pattern occurs in
the URI that was sent, if and only if a pattern that occurs also does so with no NUL
before it. -/
theorem uri_match_iff (conn : HttpConn) (awaits : Awaits conn) (line : UriLine) (eol : Eol)
    (rest : Bytes) (rule : DetectionRule) (pattern : Bytes) (seeks : SeeksInUri rule pattern)
    (plain : 0 ∉ pattern) (detail : Bytes) (size : Nat) :
    ∃ tx, transactionAfter conn line eol rest = some tx ∧
      (((checkHttpRule rule tx detail size).1 = true ↔ pattern <:+: line.uri) ↔
        (pattern <:+: line.uri →
          ∃ before after, line.uri = before ++ pattern ++ after ∧ 0 ∉ before)) := by
  obtain ⟨tx, current, stored⟩ := httpParserParse_uri awaits line eol rest
  refine ⟨tx, current, ?_⟩
  rw [checkHttpRule_uri seeks plain stored, infix_text_iff plain]
  constructor
  · exact fun exact occurs => exact.mpr occurs
  · intro early
    refine ⟨?_, early⟩
    rintro ⟨before, after, split, -⟩
    exact ⟨before, after, split.symm⟩

/-- `GET URI HTTP/1.1`. -/
def getLine (uri : Bytes)
    (plain : uri ≠ [] ∧ ∀ byte ∈ uri, isSpace byte = false ∧ byte ≠ 10 ∧ byte ≠ 13)
    (short : uri.length ≤ HTTP_MAX_URI_LEN) : UriLine where
  method := ascii "GET"
  gap := ascii " "
  uri := uri
  gap' := ascii " "
  version := ascii "HTTP/1.1"
  method_plain := by decide +kernel
  gap_spaces := by decide +kernel
  uri_plain := plain
  uri_short := short
  gap'_spaces := by decide +kernel
  version_plain := by decide +kernel

theorem fresh_awaits : Awaits {} where
  state := Or.inl rfl
  current := nofun

/-- A rule for `union` in the URI. -/
def seekUnion : DetectionRule where
  ruleId := 1
  enabled := true
  protocol := .http
  conditions := [ruleConditionContent (ascii "union") true]
  http := { checkUri := true }

/-- A URI that is text is searched as a whole. -/
theorem uri_match_iff_text :
    let line := getLine (ascii "/union") (by decide +kernel) (by decide +kernel)
    ∃ tx, transactionAfter {} line .crlf [] = some tx ∧
      (((checkHttpRule seekUnion tx [] 256).1 = true ↔ ascii "union" <:+: line.uri) ↔
        (ascii "union" <:+: line.uri →
          ∃ before after, line.uri = before ++ ascii "union" ++ after ∧ 0 ∉ before)) :=
  uri_match_iff {} fresh_awaits _ .crlf [] seekUnion (ascii "union") ⟨rfl, rfl, rfl, rfl⟩
    (by decide +kernel) [] 256

/-- A NUL hides the rest of a URI. -/
theorem union_hidden_by_nul :
    let line := getLine (ascii "/" ++ 0 :: ascii "union") (by decide +kernel) (by decide +kernel)
    ascii "union" <:+: line.uri ∧
      ∃ tx, transactionAfter {} line .crlf [] = some tx ∧
        (checkHttpRule seekUnion tx [] 256).1 = false := by
  refine ⟨⟨ascii "/" ++ [0], [], by decide +kernel⟩, ?_⟩
  obtain ⟨tx, current, stored⟩ := httpParserParse_uri fresh_awaits
    (getLine (ascii "/" ++ 0 :: ascii "union") (by decide +kernel) (by decide +kernel)) .crlf []
  refine ⟨tx, current, ?_⟩
  have hidden : ¬ascii "union" <:+: text (ascii "/" ++ 0 :: ascii "union") := by
    rw [← occursIn_iff]
    decide +kernel
  rw [← Bool.not_eq_true, checkHttpRule_uri ⟨rfl, rfl, rfl, rfl⟩ (by decide +kernel) stored]
  exact hidden

end NetDefender.Rules
