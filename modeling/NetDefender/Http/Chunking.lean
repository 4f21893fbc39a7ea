import NetDefender.Http.Parser
import Mathlib.Data.List.TakeDrop

/-!
# Feeding a message in chunks

A caller appends each chunk to what the last call left over and parses again.  The
parser resumes line by line, but each call starts a new list of headers: the headers
of earlier calls are lost as soon as a later call reads another one.  For a valid
message this happens exactly when a chunk ends between the end of its first header and
the end of its last one.
-/

namespace NetDefender.Http

open CString

/-! ## Lines -/

/-- The end of a line. -/
inductive Eol where
  | crlf
  | lf
  deriving DecidableEq, Repr

/-- The bytes of an end of line. -/
def Eol.bytes : Eol → Bytes
  | .crlf => [13, 10]
  | .lf => [10]

/-- A line: its text has no line feed, and does not take the end for a CRLF. -/
structure Line where
  text : Bytes
  eol : Eol
  noLf : 10 ∉ text
  noCr : eol = .lf → text.getLast? ≠ some 13

namespace Line

/-- The bytes of a line. -/
def bytes (line : Line) : Bytes := line.text ++ line.eol.bytes

/-- A line without its last byte. -/
def body (line : Line) : Bytes := line.text ++ line.eol.bytes.dropLast

theorem bytes_eq_body (line : Line) : line.bytes = line.body ++ [10] := by
  obtain ⟨text, eol, noLf, noCr⟩ := line
  cases eol <;> simp [bytes, body, Eol.bytes]

theorem body_noLf (line : Line) : 10 ∉ line.body := by
  obtain ⟨text, eol, noLf, noCr⟩ := line
  cases eol <;> simp [body, Eol.bytes, noLf]

theorem length_bytes (line : Line) :
    line.bytes.length = line.text.length + line.eol.bytes.length := by
  simp [bytes]

theorem bytes_length_pos (line : Line) : 0 < line.bytes.length := by
  simp [bytes_eq_body]

/-- What comes before the end of a line has no line feed. -/
theorem noLf_of_short (line : Line) {data rest tail : Bytes}
    (split : data ++ rest = line.bytes ++ tail)
    (short : data.length < line.bytes.length) : 10 ∉ data := by
  have part : data <+: line.body := by
    have whole : data <+: line.body ++ ([10] ++ tail) := by
      rw [← List.append_assoc, ← bytes_eq_body, ← split]
      exact List.prefix_append data rest
    refine List.prefix_of_prefix_length_le whole (List.prefix_append _ _) ?_
    rw [bytes_eq_body, List.length_append] at short
    exact Nat.lt_succ_iff.mp short
  exact fun found => line.body_noLf (part.subset found)

end Line

theorem findEol_of_noLf {data : Bytes} (noLf : 10 ∉ data) : findEol data = none := by
  fun_induction findEol data with
  | case1 => rfl
  | case2 => simp at noLf
  | case3 => simp at noLf
  | case4 byte rest _ _ ih =>
      rw [ih fun found => noLf (List.mem_cons_of_mem byte found)]
      rfl

theorem findEol_cons {byte : UInt8} {rest : Bytes} (notLf : byte ≠ 10)
    (notCrlf : byte = 13 → rest.head? ≠ some 10) :
    findEol (byte :: rest) =
      (findEol rest).map fun (offset, eolLen) => (offset + 1, eolLen) := by
  rw [findEol.eq_def]
  split
  · simp_all
  · simp_all
  · simp_all
  · simp_all

/-- The end of the first line is found where it is. -/
theorem findEol_line (line : Line) (rest : Bytes) :
    findEol (line.bytes ++ rest) = some (line.text.length, line.eol.bytes.length) := by
  obtain ⟨text, eol, noLf, noCr⟩ := line
  simp only [Line.bytes]
  induction text with
  | nil => cases eol <;> rfl
  | cons byte text ih =>
      have shorter := ih (fun found => noLf (List.mem_cons_of_mem byte found))
        (fun isLf => by
          have last := noCr isLf
          cases text with
          | nil => simp
          | cons => simpa [List.getLast?_cons_cons] using last)
      have notLf : byte ≠ 10 := fun same => noLf (same ▸ List.mem_cons_self)
      have notCrlf : byte = 13 → (text ++ eol.bytes ++ rest).head? ≠ some 10 := by
        intro isCr
        cases text with
        | nil =>
            cases eol with
            | crlf => simp [Eol.bytes]
            | lf => exact absurd (by simp [isCr]) (noCr rfl)
        | cons next text =>
            have next_ne : next ≠ 10 := fun same => noLf (by simp [same])
            simpa using next_ne
      rw [List.cons_append, List.cons_append, findEol_cons notLf notCrlf, shorter]
      rfl

/-! ## Header blocks -/

/-- A line with a colon. -/
def Line.IsHeader (line : Line) : Prop := 58 ∈ line.text

/-- The header in a line. -/
def Line.header (line : Line) : HttpHeader :=
  let name := line.text.takeWhile (· ≠ 58)
  let value := trimValue (line.text.dropWhile (· ≠ 58)).tail
  ⟨name, value, name.length % 2 ^ 16, value.length % 2 ^ 16⟩

theorem parseHeader_line {line : Line} (isHeader : line.IsHeader) (rest : Bytes) :
    parseHeader (line.bytes ++ rest) = .header line.bytes.length line.header := by
  have notBlank : line.text.length ≠ 0 := by
    intro empty
    simp [Line.IsHeader, List.length_eq_zero_iff.mp empty] at isHeader
  have lineText : (line.bytes ++ rest).take line.text.length = line.text := by
    simp [Line.bytes]
  simp only [parseHeader, findEol_line, notBlank, if_false, lineText,
    List.span_eq_takeWhile_dropWhile, Line.header]
  cases found : line.text.dropWhile (· ≠ 58) with
  | nil =>
      have all := List.dropWhile_eq_nil_iff.mp found 58 isHeader
      simp at all
  | cons colon value => simp only [Line.length_bytes, List.tail_cons]

/-- A line without a text. -/
def Eol.line (eol : Eol) : Line := ⟨[], eol, by simp, by simp⟩

theorem parseHeader_blank (eol : Eol) (rest : Bytes) :
    parseHeader (eol.bytes ++ rest) = .blank eol.bytes.length := by
  have found := findEol_line eol.line rest
  simp only [Eol.line, Line.bytes, List.nil_append, List.length_nil] at found
  simp [parseHeader, found]

theorem parseHeader_needMore {data : Bytes} (noLf : 10 ∉ data) :
    parseHeader data = .needMore := by
  simp [parseHeader, findEol_of_noLf noLf]

/-- The bytes of some lines. -/
def bytesOf (lines : List Line) : Bytes := lines.flatMap Line.bytes

@[simp]
theorem bytesOf_nil : bytesOf [] = [] := rfl

@[simp]
theorem bytesOf_cons (line : Line) (lines : List Line) :
    bytesOf (line :: lines) = line.bytes ++ bytesOf lines := by
  simp [bytesOf]

theorem bytesOf_append (lines lines' : List Line) :
    bytesOf (lines ++ lines') = bytesOf lines ++ bytesOf lines' := by
  simp [bytesOf]

/-- The length of the next line of a header block. -/
def nextLength (lines : List Line) (blank : Eol) : Nat :=
  match lines with
  | [] => blank.bytes.length
  | line :: _ => line.bytes.length

/-- Headers that are added in one call. -/
def addHeaders (message : HttpMessage) (first : Bool) : List HttpHeader → HttpMessage
  | [] => message
  | header :: headers => addHeaders (addHeader message first header) false headers

/-- Below the limit the 16-bit counter does not wrap. -/
theorem addHeader_eq (message : HttpMessage) (first : Bool) (header : HttpHeader)
    (room : message.headerCount + 1 < HTTP_MAX_HEADERS) :
    addHeader message first header =
      { message with
        headers := if first then [header] else message.headers ++ [header]
        headerCount := message.headerCount + 1 } := by
  rw [addHeader, Nat.mod_eq_of_lt (room.trans (by decide))]

/-- Without a whole line the loop stops where it is. -/
theorem scanHeaders_short {data : Bytes} (noLf : 10 ∉ data) (fuel consumed : Nat)
    (first : Bool) (message : HttpMessage) :
    scanHeaders fuel data consumed first message = ⟨consumed, message, .unfinished⟩ := by
  cases fuel with
  | zero => rfl
  | succ fuel => simp [scanHeaders, parseHeader_needMore noLf]

/-- The turn of the loop for a header line. -/
theorem scanHeaders_line {line : Line} (isHeader : line.IsHeader) (rest : Bytes)
    (fuel consumed : Nat) (first : Bool) (message : HttpMessage)
    (room : message.headerCount + 1 < HTTP_MAX_HEADERS) :
    scanHeaders (fuel + 1) (line.bytes ++ rest) consumed first message =
      scanHeaders fuel rest (consumed + line.bytes.length) false
        (addHeader message first line.header) := by
  have positive := line.bytes_length_pos
  have nonempty : line.bytes ++ rest ≠ [] :=
    List.ne_nil_of_length_pos (by rw [List.length_append]; omega)
  have few : ¬ (addHeader message first line.header).headerCount ≥ HTTP_MAX_HEADERS := by
    rw [addHeader_eq _ _ _ room]
    exact Nat.not_le.mpr room
  simp only [scanHeaders, nonempty, if_false, few, parseHeader_line isHeader,
    List.drop_left]

/-- The turn of the loop for the blank line. -/
theorem scanHeaders_blank (blank : Eol) (fuel consumed : Nat) (first : Bool)
    (message : HttpMessage) :
    scanHeaders (fuel + 1) blank.bytes consumed first message =
      ⟨consumed + blank.bytes.length, message, .finished⟩ := by
  have found := parseHeader_blank blank []
  rw [List.append_nil] at found
  have nonempty : blank.bytes ≠ [] := by cases blank <;> simp [Eol.bytes]
  simp [scanHeaders, found, nonempty]

/-- The loop over a header block of which `data` has arrived: it takes the headers that
are whole, and ends with the blank line. -/
theorem scanHeaders_block (blank : Eol) (lines : List Line) :
    ∀ (fuel : Nat) (data unfed : Bytes) (consumed : Nat) (first : Bool)
      (message : HttpMessage),
      (∀ line ∈ lines, line.IsHeader) →
      data ++ unfed = bytesOf lines ++ blank.bytes → data.length ≤ fuel →
      message.headerCount + lines.length < HTTP_MAX_HEADERS →
      (∃ new later buffer, lines = new ++ later ∧ data = bytesOf new ++ buffer ∧
        buffer.length < nextLength later blank ∧
        scanHeaders fuel data consumed first message =
          ⟨consumed + (bytesOf new).length, addHeaders message first (new.map Line.header),
            .unfinished⟩) ∨
      (unfed = [] ∧ scanHeaders fuel data consumed first message =
        ⟨consumed + data.length, addHeaders message first (lines.map Line.header),
          .finished⟩) := by
  induction lines with
  | nil =>
      intro fuel data unfed consumed first message _ split enough _
      rw [bytesOf_nil, List.nil_append] at split
      by_cases short : data.length < blank.bytes.length
      · have noLf : 10 ∉ data := blank.line.noLf_of_short
          (split.trans (List.append_nil _).symm) short
        exact .inl ⟨[], [], data, rfl, rfl, short, by
          simp [scanHeaders_short noLf, addHeaders]⟩
      · have whole : unfed = [] ∧ data = blank.bytes := by
          have lengths := congrArg List.length split
          rw [List.length_append] at lengths
          have empty : unfed = [] := List.length_eq_zero_iff.mp (by omega)
          exact ⟨empty, by simpa [empty] using split⟩
        obtain ⟨rfl, rfl⟩ := whole
        refine .inr ⟨rfl, ?_⟩
        cases fuel with
        | zero => cases blank <;> simp [Eol.bytes] at enough
        | succ fuel => exact scanHeaders_blank blank fuel consumed first message
  | cons line lines ih =>
      intro fuel data unfed consumed first message headers split enough room
      rw [bytesOf_cons, List.append_assoc] at split
      by_cases short : data.length < line.bytes.length
      · have noLf := line.noLf_of_short split short
        exact .inl ⟨[], line :: lines, data, rfl, rfl, short, by
          simp [scanHeaders_short noLf, addHeaders]⟩
      · obtain ⟨data', rfl⟩ : ∃ data', data = line.bytes ++ data' :=
          List.prefix_of_prefix_length_le (List.prefix_append _ _)
            (split ▸ List.prefix_append data unfed) (Nat.le_of_not_lt short) |>.imp
            fun _ same => same.symm
        rw [List.append_assoc, List.append_cancel_left_eq] at split
        rw [List.length_append] at enough
        have positive := line.bytes_length_pos
        obtain ⟨fuel, rfl⟩ : ∃ fuel', fuel = fuel' + 1 := ⟨fuel - 1, by omega⟩
        rw [List.length_cons] at room
        have count : (addHeader message first line.header).headerCount =
            message.headerCount + 1 := by
          rw [addHeader_eq _ _ _ (by omega)]
        rw [scanHeaders_line (headers line List.mem_cons_self) _ _ _ _ _ (by omega)]
        rcases ih fuel data' unfed (consumed + line.bytes.length) false
            (addHeader message first line.header)
            (fun other member => headers other (List.mem_cons_of_mem line member)) split
            (by omega) (by omega) with
          ⟨new, later, buffer, rfl, rfl, next, scan⟩ | ⟨rfl, scan⟩
        · refine .inl ⟨line :: new, later, buffer, rfl, by simp, next, ?_⟩
          rw [scan]
          simp [addHeaders, Nat.add_assoc]
        · refine .inr ⟨rfl, ?_⟩
          rw [scan]
          simp [addHeaders, Nat.add_assoc]

theorem addHeaders_eq (new : List HttpHeader) (message : HttpMessage) (first : Bool)
    (room : message.headerCount + new.length < HTTP_MAX_HEADERS) :
    addHeaders message first new =
      { message with
        headers :=
          if new = [] then message.headers
          else if first then new
          else message.headers ++ new
        headerCount := message.headerCount + new.length } := by
  induction new generalizing message first with
  | nil => simp [addHeaders]
  | cons header new ih =>
      rw [List.length_cons] at room
      rw [addHeaders, addHeader_eq _ _ _ (by omega), ih _ _ (by simp only; omega)]
      cases new <;> cases first <;> simp [Nat.add_assoc, Nat.add_comm 1]

/-! ## One call -/

/-- A message on the wire: a start line, header lines and a blank line. -/
structure Message where
  start : Line
  headers : List Line
  blank : Eol

namespace Message

/-- The bytes of a message. -/
def bytes (m : Message) : Bytes := m.start.bytes ++ (bytesOf m.headers ++ m.blank.bytes)

/-- Where the first `count` headers of a message end. -/
def endOf (m : Message) (count : Nat) : Nat :=
  m.start.bytes.length + (bytesOf (m.headers.take count)).length

theorem endOf_mono (m : Message) {less more : Nat} (le : less ≤ more) :
    m.endOf less ≤ m.endOf more := by
  obtain ⟨rest, same⟩ := List.take_prefix_take_left (l := m.headers) le
  simp [endOf, ← same, bytesOf_append]

end Message

/-- The access to the common fields behaves like one to fields. -/
structure MessageKind.Lawful {α : Type} (kind : MessageKind α) : Prop where
  message_with : ∀ msg message, kind.message (kind.withMessage msg message) = message
  with_with : ∀ msg message message',
    kind.withMessage (kind.withMessage msg message) message' =
      kind.withMessage msg message'
  with_message : ∀ msg, kind.withMessage msg (kind.message msg) = msg
  extract_headers : ∀ msg,
    (kind.message (kind.extract msg)).headers = (kind.message msg).headers
  extract_complete : ∀ msg,
    (kind.message (kind.extract msg)).complete = (kind.message msg).complete
  parseLine_short : ∀ data msg, 10 ∉ data → kind.parseLine data msg = (0, msg)

section OneCall

variable {α : Type} {kind : MessageKind α} (lawful : kind.Lawful) (m : Message)
  (started : α)

/-- The common fields after the headers in `done`, of which the first `lost` are no
longer in the list. -/
def headersAfter (done : List Line) (lost : Nat) : HttpMessage :=
  { headers := (done.map Line.header).drop lost, headerCount := done.length }

/-- The message after its headers. -/
def finished (kind : MessageKind α) (started : α) (headers : List Line) (lost : Nat) : α :=
  kind.extract (kind.withMessage started { headersAfter headers lost with complete := true })

/-- The headers that are lost once a call has added the lines `new` to `done`. -/
def lostAfter (done new : List Line) (lost : Nat) : Nat :=
  if new = [] then lost else done.length

theorem addHeaders_headersAfter {done new : List Line} {lost : Nat}
    (room : done.length + new.length < HTTP_MAX_HEADERS) :
    addHeaders (headersAfter done lost) true (new.map Line.header) =
      headersAfter (done ++ new) (lostAfter done new lost) := by
  rw [addHeaders_eq _ _ _ (by simpa [headersAfter] using room)]
  cases new with
  | nil => simp [headersAfter, lostAfter]
  | cons line new => simp [headersAfter, lostAfter]

include lawful in
/-- What a call does to a header block of which `data` has arrived. -/
theorem parseHeaders_block {done later : List Line} (lost : Nat) {data unfed : Bytes}
    {blank : Eol} (headers : ∀ line ∈ later, line.IsHeader)
    (room : done.length + later.length < HTTP_MAX_HEADERS)
    (split : data ++ unfed = bytesOf later ++ blank.bytes) :
    (∃ new later' buffer, later = new ++ later' ∧ data = bytesOf new ++ buffer ∧
      buffer.length < nextLength later' blank ∧
      parseHeaders kind data (kind.withMessage started (headersAfter done lost)) =
        (((bytesOf new).length : Int), kind.withMessage started
          (headersAfter (done ++ new) (lostAfter done new lost)))) ∨
    (unfed = [] ∧
      parseHeaders kind data (kind.withMessage started (headersAfter done lost)) =
        ((data.length : Int), finished kind started (done ++ later)
          (lostAfter done later lost))) := by
  rcases scanHeaders_block blank later data.length data unfed 0 true
      (headersAfter done lost) headers split (Nat.le_refl _)
      (by simpa [headersAfter] using room) with
    ⟨new, later', buffer, rfl, rfl, next, scan⟩ | ⟨rfl, scan⟩
  · rw [List.length_append] at room
    refine .inl ⟨new, later', buffer, rfl, rfl, next, ?_⟩
    rw [addHeaders_headersAfter (by omega), Nat.zero_add] at scan
    simp only [parseHeaders, lawful.message_with, scan, lawful.with_with]
  · refine .inr ⟨rfl, ?_⟩
    rw [addHeaders_headersAfter room, Nat.zero_add] at scan
    simp only [parseHeaders, lawful.message_with, scan, lawful.with_with, finished]

/-- Where the parsing of a message stands, between two calls: the message so far and the
bytes left over, with the bytes that are still to come and the offsets `cuts` at which
the calls so far began to see new bytes. -/
inductive Standing (kind : MessageKind α) (m : Message) (initial started : α)
    (cuts : List Nat) (unfed : Bytes) : Phase × α × Bytes → Prop where
  | start (buffer : Bytes) (split : buffer ++ unfed = m.bytes)
      (short : buffer.length < m.start.bytes.length)
      (past : ∀ cut ∈ cuts, cut ≤ buffer.length) :
      Standing kind m initial started cuts unfed (.line, initial, buffer)
  | headers (done later : List Line) (lost : Nat) (buffer : Bytes)
      (lines : m.headers = done ++ later)
      (split : buffer ++ unfed = bytesOf later ++ m.blank.bytes)
      (short : buffer.length < nextLength later m.blank)
      (past : ∀ cut ∈ cuts, cut ≤ m.endOf done.length + buffer.length)
      (bound : lost ≤ done.length)
      (kept : lost = 0 ↔
        ∀ cut ∈ cuts, ¬ (m.endOf 1 ≤ cut ∧ cut < m.endOf done.length)) :
      Standing kind m initial started cuts unfed
        (.headers, kind.withMessage started (headersAfter done lost), buffer)
  | complete (lost : Nat) (spent : unfed = []) (bound : lost ≤ m.headers.length)
      (kept : lost = 0 ↔
        ∀ cut ∈ cuts, ¬ (m.endOf 1 ≤ cut ∧ cut < m.endOf m.headers.length)) :
      Standing kind m initial started cuts unfed
        (.complete, finished kind started m.headers lost, [])

/-- A new call loses the headers so far exactly when there are some and it adds more. -/
theorem lostAfter_eq_zero_iff {done new : List Line} {lost fed : Nat} {cuts : List Nat}
    (kept : lost = 0 ↔ ∀ cut ∈ cuts, ¬ (m.endOf 1 ≤ cut ∧ cut < m.endOf done.length))
    (past : ∀ cut ∈ cuts, cut ≤ fed)
    (above : done ≠ [] → m.endOf done.length ≤ fed)
    (below : new ≠ [] → fed < m.endOf (done.length + 1)) :
    lostAfter done new lost = 0 ↔
      ∀ cut ∈ cuts ++ [fed],
        ¬ (m.endOf 1 ≤ cut ∧ cut < m.endOf (done ++ new).length) := by
  by_cases none : new = []
  · subst none
    rw [lostAfter, if_pos rfl, kept, List.append_nil, List.forall_mem_append]
    have last : ¬ (m.endOf 1 ≤ fed ∧ fed < m.endOf done.length) := by
      rintro ⟨low, high⟩
      by_cases empty : done = []
      · have mono := m.endOf_mono (Nat.zero_le 1)
        simp only [empty, List.length_nil] at high
        omega
      · exact absurd (above empty) (Nat.not_le.mpr high)
    refine ⟨fun all => ⟨all, fun cut member => ?_⟩, fun all => all.1⟩
    rwa [List.mem_singleton.mp member]
  · rw [lostAfter, if_neg none]
    by_cases empty : done = []
    · subst empty
      have before := below none
      simp only [List.length_nil, Nat.zero_add, true_iff] at before ⊢
      rintro cut member ⟨low, -⟩
      rcases List.mem_append.mp member with earlier | last
      · exact absurd (past cut earlier) (by omega)
      · rw [List.mem_singleton] at last
        omega
    · have some_done : 1 ≤ done.length := List.length_pos_iff.mpr empty
      have some_new : 1 ≤ new.length := List.length_pos_iff.mpr none
      have low := (m.endOf_mono some_done).trans (above empty)
      have high : fed < m.endOf (done ++ new).length :=
        (below none).trans_le (m.endOf_mono (by rw [List.length_append]; omega))
      constructor
      · intro zero
        omega
      · intro all
        exact absurd ⟨low, high⟩ (all fed (by simp))

/-- The parser accepts the start line of a message, and its headers are headers. -/
structure Message.Valid (m : Message) (kind : MessageKind α) (initial started : α) :
    Prop where
  line : ∀ rest, kind.parseLine (m.start.bytes ++ rest) initial =
    ((m.start.bytes.length : Int), started)
  fresh : kind.message started = {}
  headers : ∀ line ∈ m.headers, line.IsHeader
  few : m.headers.length < HTTP_MAX_HEADERS

/-- One turn of the caller: the chunk is appended to what was left, and what is consumed
is dropped. -/
def feedMessage (kind : MessageKind α) (state : Phase × α × Bytes) (chunk : Bytes) :
    Phase × α × Bytes :=
  let data := state.2.2 ++ chunk
  let parsed := parseMessage kind (state.1 = .line) data state.2.1
  (parsed.2.1, parsed.2.2, data.drop parsed.1.toNat)

theorem Message.endOf_done {m : Message} {done later : List Line}
    (lines : m.headers = done ++ later) :
    m.endOf done.length = m.start.bytes.length + (bytesOf done).length := by
  simp [endOf, lines]

theorem Message.endOf_next {m : Message} {done later : List Line} {line : Line}
    (lines : m.headers = done ++ line :: later) :
    m.endOf (done.length + 1) = m.endOf done.length + line.bytes.length := by
  have more : done.length + 1 = (done ++ [line]).length := by simp
  have linesNext : m.headers = (done ++ [line]) ++ later := by simp [lines]
  rw [more, endOf_done linesNext, endOf_done lines]
  simp [bytesOf_append, Nat.add_assoc]

theorem parseRest_eq {front data : Bytes} {msg msg' : α} {used : Nat} (more : data ≠ [])
    (parsed : parseHeaders kind data msg = ((used : Int), msg')) :
    parseRest kind (front ++ data) front.length msg =
      (((front.length + used : Nat) : Int),
        if (kind.message msg').complete then .complete else .headers, msg') := by
  have enters : front.length < (front ++ data).length := by
    rw [List.length_append]
    exact Nat.lt_add_of_pos_right (List.length_pos_iff.mpr more)
  have positive : ¬ (used : Int) < 0 := by omega
  simp only [parseRest, enters, if_true, List.drop_left, parsed, positive, if_false]
  split <;> simp

theorem parseMessage_waiting {data : Bytes} {msg msg' : α}
    (parsed : kind.parseLine data msg = (0, msg')) :
    parseMessage kind true data msg = (0, .line, msg') := by
  rw [parseMessage, if_pos rfl, parsed]
  rfl

theorem parseMessage_accepted {data : Bytes} {msg msg' : α} {used : Nat}
    (parsed : kind.parseLine data msg = ((used : Int), msg')) (positive : 0 < used) :
    parseMessage kind true data msg = parseRest kind data used msg' := by
  have accepted : ¬ ((used : Int) < 0) ∧ ¬ ((used : Int) = 0) := by omega
  rw [parseMessage, if_pos rfl, parsed]
  simp only [accepted, if_false, Int.toNat_natCast]

variable {m started} {initial : α}

/-- The cuts up to now, with the one at `fed`. -/
theorem le_of_mem_cuts {cuts : List Nat} {fed bound : Nat}
    (past : ∀ cut ∈ cuts, cut ≤ fed) (arrived : fed ≤ bound) :
    ∀ cut ∈ cuts ++ [fed], cut ≤ bound := by
  intro cut member
  rcases List.mem_append.mp member with earlier | last
  · exact (past cut earlier).trans arrived
  · rwa [List.mem_singleton.mp last]

include lawful in
/-- The headers part of a call, after some bytes `front` of its data. -/
theorem standing_rest (valid : m.Valid kind initial started) (front : Bytes) (fed : Nat)
    {done later : List Line} {lost : Nat} {cuts : List Nat} {data unfed : Bytes}
    (lines : m.headers = done ++ later)
    (split : data ++ unfed = bytesOf later ++ m.blank.bytes) (more : data ≠ [])
    (past : ∀ cut ∈ cuts, cut ≤ fed) (bound : lost ≤ done.length)
    (kept : lost = 0 ↔ ∀ cut ∈ cuts, ¬ (m.endOf 1 ≤ cut ∧ cut < m.endOf done.length))
    (above : done ≠ [] → m.endOf done.length ≤ fed)
    (below : later ≠ [] → fed < m.endOf (done.length + 1))
    (arrived : fed ≤ m.endOf done.length + data.length) :
    let parsed := parseRest kind (front ++ data) front.length
      (kind.withMessage started (headersAfter done lost))
    Standing kind m initial started (cuts ++ [fed]) unfed
      (parsed.2.1, parsed.2.2, (front ++ data).drop parsed.1.toNat) := by
  have room : done.length + later.length < HTTP_MAX_HEADERS := by
    simpa [lines] using valid.few
  have isHeader : ∀ line ∈ later, line.IsHeader := fun line member =>
    valid.headers line (by simp [lines, member])
  rcases parseHeaders_block lawful started lost isHeader room split with
    ⟨new, later', buffer, rfl, rfl, short, parsed⟩ | ⟨rfl, parsed⟩
  · simp only [parseRest_eq more parsed, lawful.message_with]
    have rest : (front ++ (bytesOf new ++ buffer)).drop
        (front.length + (bytesOf new).length) = buffer := by
      rw [← List.append_assoc, ← List.length_append, List.drop_left]
    rw [Int.toNat_natCast, rest]
    have below' : new ≠ [] → fed < m.endOf (done.length + 1) := fun some_new =>
      below fun empty => some_new (List.append_eq_nil_iff.mp empty).1
    have longer : m.endOf (done ++ new).length + buffer.length =
        m.endOf done.length + (bytesOf new ++ buffer).length := by
      rw [Message.endOf_done (by rw [lines, List.append_assoc]),
        Message.endOf_done lines, bytesOf_append]
      simp only [List.length_append, Nat.add_assoc]
    refine Standing.headers (done ++ new) later' (lostAfter done new lost) buffer
      (by rw [lines, List.append_assoc]) ?_ short ?_ ?_
      (lostAfter_eq_zero_iff m kept past above below')
    · rw [List.append_assoc, bytesOf_append, List.append_assoc,
        List.append_cancel_left_eq] at split
      exact split
    · rw [longer]
      exact le_of_mem_cuts past arrived
    · simp only [lostAfter]
      split <;> simp_all
  · simp only [parseRest_eq more parsed, finished, lawful.extract_complete,
      lawful.message_with, if_true]
    rw [Int.toNat_natCast, ← List.length_append, List.drop_length]
    have all := lostAfter_eq_zero_iff m kept past above below
    rw [← lines] at all ⊢
    refine Standing.complete (lostAfter done later lost) rfl ?_ all
    simp only [lostAfter, lines, List.length_append]
    split <;> omega

include lawful in
/-- The call in which the start line becomes whole, with `data` behind it. -/
theorem standing_accepted (valid : m.Valid kind initial started) {cuts : List Nat}
    {fed : Nat} {data unfed : Bytes}
    (split : data ++ unfed = bytesOf m.headers ++ m.blank.bytes)
    (short : fed < m.start.bytes.length) (past : ∀ cut ∈ cuts, cut ≤ fed) :
    let parsed := parseRest kind (m.start.bytes ++ data) m.start.bytes.length started
    Standing kind m initial started (cuts ++ [fed]) unfed
      (parsed.2.1, parsed.2.2, (m.start.bytes ++ data).drop parsed.1.toNat) := by
  have fresh : kind.withMessage started (headersAfter [] 0) = started := by
    rw [show headersAfter [] 0 = kind.message started from valid.fresh.symm,
      lawful.with_message]
  have none_done : m.headers = [] ++ m.headers := rfl
  have noCut : ∀ cut, ¬ (m.endOf 1 ≤ cut ∧ cut < m.endOf ([] : List Line).length) := by
    intro cut ⟨low, high⟩
    have mono := m.endOf_mono (Nat.zero_le 1)
    simp only [List.length_nil] at high
    omega
  have lineEnd : m.endOf ([] : List Line).length = m.start.bytes.length := by
    simp [Message.endOf]
  by_cases more : data = []
  · subst more
    have stops : ¬ m.start.bytes.length < (m.start.bytes ++ []).length := by simp
    simp only [parseRest, stops, if_false, Int.toNat_natCast, List.drop_left]
    have waits : 0 < nextLength m.headers m.blank := by
      cases m.headers with
      | nil => cases m.blank <;> simp [nextLength, Eol.bytes]
      | cons line lines => exact line.bytes_length_pos
    have standing : Standing kind m initial started (cuts ++ [fed]) unfed
        (.headers, kind.withMessage started (headersAfter [] 0), []) :=
      Standing.headers [] m.headers 0 [] none_done split waits
        (le_of_mem_cuts past (lineEnd ▸ short.le)) (Nat.le_refl 0)
        ⟨fun _ cut _ => noCut cut, fun _ => rfl⟩
    rwa [fresh] at standing
  · have standing := standing_rest lawful valid m.start.bytes fed none_done
      split more past (Nat.le_refl 0) ⟨fun _ cut _ => noCut cut, fun _ => rfl⟩
      (fun some_done => absurd rfl some_done)
      (fun _ => short.trans_le (lineEnd ▸ m.endOf_mono (Nat.zero_le 1)))
      (lineEnd ▸ short.le.trans (Nat.le_add_right _ _))
    rwa [fresh] at standing

include lawful in
theorem standing_line (valid : m.Valid kind initial started) {cuts : List Nat}
    {buffer chunk unfed : Bytes} (split : buffer ++ (chunk ++ unfed) = m.bytes)
    (short : buffer.length < m.start.bytes.length)
    (past : ∀ cut ∈ cuts, cut ≤ buffer.length) :
    Standing kind m initial started (cuts ++ [buffer.length]) unfed
      (feedMessage kind (.line, initial, buffer) chunk) := by
  rw [← List.append_assoc, Message.bytes] at split
  simp only [feedMessage, decide_true]
  by_cases waiting : (buffer ++ chunk).length < m.start.bytes.length
  · have noLf := m.start.noLf_of_short split waiting
    rw [parseMessage_waiting (lawful.parseLine_short _ initial noLf)]
    refine Standing.start (buffer ++ chunk) split waiting (le_of_mem_cuts past ?_)
    rw [List.length_append]
    exact Nat.le_add_right _ _
  · obtain ⟨data, whole⟩ : m.start.bytes <+: buffer ++ chunk :=
      List.prefix_of_prefix_length_le (List.prefix_append _ _)
        (split ▸ List.prefix_append _ _) (Nat.le_of_not_lt waiting)
    rw [← whole] at split ⊢
    rw [List.append_assoc, List.append_cancel_left_eq] at split
    rw [parseMessage_accepted (valid.line data) m.start.bytes_length_pos]
    exact standing_accepted lawful valid split short past

include lawful in
/-- Each turn of the caller keeps the standing, with one more cut. -/
theorem feed_standing (valid : m.Valid kind initial started) {cuts : List Nat}
    {chunk unfed : Bytes} {state : Phase × α × Bytes} (nonempty : chunk ≠ [])
    (standing : Standing kind m initial started cuts (chunk ++ unfed) state) :
    Standing kind m initial started
      (cuts ++ [m.bytes.length - (chunk ++ unfed).length]) unfed
      (feedMessage kind state chunk) := by
  cases standing with
  | start buffer split short past =>
      have fed : m.bytes.length - (chunk ++ unfed).length = buffer.length := by
        have lengths := congrArg List.length split
        simp only [List.length_append] at lengths ⊢
        omega
      rw [fed]
      exact standing_line lawful valid split short past
  | headers done later lost buffer lines split short past bound kept =>
      have fed : m.bytes.length - (chunk ++ unfed).length =
          m.endOf done.length + buffer.length := by
        have lengths := congrArg List.length split
        rw [Message.endOf_done lines, Message.bytes, lines, bytesOf_append]
        simp only [List.length_append] at lengths ⊢
        omega
      rw [fed]
      rw [← List.append_assoc] at split
      have more : buffer ++ chunk ≠ [] := fun empty =>
        nonempty (List.append_eq_nil_iff.mp empty).2
      have standing := standing_rest lawful valid [] (m.endOf done.length + buffer.length)
        lines split more past bound kept (fun _ => Nat.le_add_right _ _)
        (fun some_later => by
          cases later with
          | nil => exact absurd rfl some_later
          | cons line later =>
              rw [Message.endOf_next lines]
              exact Nat.add_lt_add_left short _)
        (by simp)
      simpa [feedMessage, parseMessage] using standing
  | complete lost spent => exact absurd (List.append_eq_nil_iff.mp spent).1 nonempty

/-! ## Whole runs -/

/-- The offsets at which chunks begin. -/
def chunkStarts : Nat → List Bytes → List Nat
  | _, [] => []
  | offset, chunk :: chunks => offset :: chunkStarts (offset + chunk.length) chunks

/-- No chunk begins between the end of the first header and the end of the last one. -/
def Message.KeptTogether (m : Message) (chunks : List Bytes) : Prop :=
  ∀ cut ∈ chunkStarts 0 chunks, ¬ (m.endOf 1 ≤ cut ∧ cut < m.endOf m.headers.length)

include lawful in
theorem run_standing (valid : m.Valid kind initial started) (chunks : List Bytes) :
    ∀ (cuts : List Nat) (state : Phase × α × Bytes), (∀ chunk ∈ chunks, chunk ≠ []) →
      chunks.flatten.length ≤ m.bytes.length →
      Standing kind m initial started cuts chunks.flatten state →
      Standing kind m initial started
        (cuts ++ chunkStarts (m.bytes.length - chunks.flatten.length) chunks) []
        (chunks.foldl (feedMessage kind) state) := by
  induction chunks with
  | nil =>
      intro cuts state _ _ standing
      simpa [chunkStarts] using standing
  | cons chunk chunks ih =>
      intro cuts state nonempty fits standing
      have next := feed_standing lawful valid (nonempty chunk List.mem_cons_self) standing
      have rest := ih _ _ (fun other member =>
        nonempty other (List.mem_cons_of_mem chunk member))
        (by rw [List.flatten_cons, List.length_append] at fits; omega) next
      have offset : m.bytes.length - (chunk :: chunks).flatten.length + chunk.length =
          m.bytes.length - chunks.flatten.length := by
        rw [List.flatten_cons, List.length_append] at fits ⊢
        omega
      rw [List.foldl_cons, chunkStarts, offset]
      rwa [List.append_assoc, List.singleton_append] at rest

include lawful in
/-- A valid message is read to its end, and the headers that are lost are none exactly
when no chunk begins among them. -/
theorem feed_chunks (valid : m.Valid kind initial started) (chunks : List Bytes)
    (nonempty : ∀ chunk ∈ chunks, chunk ≠ []) (whole : chunks.flatten = m.bytes) :
    ∃ lost ≤ m.headers.length, (lost = 0 ↔ m.KeptTogether chunks) ∧
      chunks.foldl (feedMessage kind) (.line, initial, []) =
        (.complete, finished kind started m.headers lost, []) := by
  have begins : Standing kind m initial started [] chunks.flatten (.line, initial, []) :=
    .start [] whole m.start.bytes_length_pos (by simp)
  have standing := run_standing lawful valid chunks [] _ nonempty (by rw [whole]) begins
  rw [whole, Nat.sub_self, List.nil_append] at standing
  generalize chunks.foldl (feedMessage kind) (.line, initial, []) = final at standing
  cases standing with
  | start buffer split short =>
      have lengths := congrArg List.length split
      rw [Message.bytes] at lengths
      simp only [List.length_append, List.length_nil] at lengths
      omega
  | headers done later lost buffer lines split short =>
      have lengths := congrArg List.length split
      cases later with
      | nil =>
          simp only [List.length_append, bytesOf_nil, List.length_nil] at lengths
          simp only [nextLength] at short
          omega
      | cons line later =>
          simp only [List.length_append, bytesOf_cons, List.length_nil] at lengths
          simp only [nextLength] at short
          omega
  | complete lost _ bound kept => exact ⟨lost, bound, kept, rfl⟩

include lawful in
/-- Lost headers show in the message. -/
theorem finished_eq_iff {headers : List Line} {lost : Nat} (bound : lost ≤ headers.length) :
    finished kind started headers lost = finished kind started headers 0 ↔ lost = 0 := by
  constructor
  · intro same
    have lists := congrArg (fun msg => (kind.message msg).headers.length) same
    simp only [finished, lawful.extract_headers, lawful.message_with, headersAfter,
      List.length_drop, List.length_map] at lists
    omega
  · rintro rfl
    rfl

end OneCall

end NetDefender.Http
