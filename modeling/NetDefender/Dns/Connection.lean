import NetDefender.Dns.Message

/-!
# The connection after a failed parse

`dns_parser_parse` counts the message, and sets the flags of its names, before it knows
that all questions parse.  A call that fails on a question therefore leaves the counters
of the connection changed, without a transaction; every other failure leaves it alone.
-/

namespace NetDefender.DnsParser

open CString Logged

/-- Nothing but the count of the errors has changed. -/
def DnsConn.OnlyErrors (before after : DnsConn) : Prop :=
  { after with parseErrors := before.parseErrors } = before

instance (before after : DnsConn) : Decidable (before.OnlyErrors after) :=
  inferInstanceAs (Decidable (_ = _))

/-- One call of `dns_parser_parse` on a connection. -/
structure ParseCall where
  granted : Grants := {}
  data : Memory
  len : Nat
  isTcp : Bool := false

/-- The return value and the connection after the call. -/
def ParseCall.run (call : ParseCall) (conn : DnsConn) : Int × DnsConn :=
  value (dnsParserParse call.granted conn call.data call.len call.isTcp)

/-- The connection after a list of calls. -/
def runParses (conn : DnsConn) (calls : List ParseCall) : DnsConn :=
  calls.foldl (fun conn call => (call.run conn).2) conn

/-- The message of the call. -/
def ParseCall.message (call : ParseCall) : Message :=
  messageOf call.data call.len call.isTcp

/-- The message is there in full. -/
def ParseCall.Delivers (call : ParseCall) : Prop :=
  (call.isTcp = true → 2 ≤ call.len) ∧ call.message.packetEnd ≤ call.len

/-- The message is there, has a header, and a transaction is allocated for it. -/
def ParseCall.Opens (call : ParseCall) : Prop :=
  call.Delivers ∧ DNS_HEADER_SIZE ≤ call.message.packetLen ∧ call.granted.tx = true

/-- The number of questions that are read. -/
def Message.asked (msg : Message) : Nat :=
  min (word msg.memory (msg.packet + 4)).toNat MAX_QUESTIONS

/-- The questions that are read are all there and can be allocated. -/
def Message.Asks (msg : Message) (granted : Nat → QuestionGrants) : Prop :=
  ∃ entries next, Consecutive (QuestionAt msg) (msg.packet + DNS_HEADER_SIZE) entries next ∧
    entries.length = msg.asked ∧ ∀ index < msg.asked, (granted index).All

/-- The number of messages that were counted. -/
def DnsConn.messages (conn : DnsConn) : BitVec 64 := conn.queriesParsed + conn.responsesParsed

/-- The transactions and the counters that should agree with them. -/
def DnsConn.counts (conn : DnsConn) : List DnsTransaction × BitVec 32 × BitVec 64 :=
  (conn.transactions, conn.txCount, conn.messages)

theorem DnsConn.OnlyErrors.counts {before after : DnsConn} (only : before.OnlyErrors after) :
    after.counts = before.counts := by
  unfold DnsConn.OnlyErrors at only
  rw [← only]
  rfl

section Questions

variable {msg : Message} {granted : Nat → QuestionGrants}

/-- The questions all parse if they are there and can be allocated, and only then. -/
theorem questionLoop_isSome (left index ptr : Nat) (conn : DnsConn) :
    (value (questionLoop msg granted left index ptr conn)).2.isSome = true ↔
      ∃ entries next, Consecutive (QuestionAt msg) ptr entries next ∧ entries.length = left ∧
        ∀ offset < left, (granted (index + offset)).All := by
  induction left generalizing index ptr conn with
  | zero =>
      refine ⟨fun _ => ⟨[], ptr, .nil ptr, rfl, fun _ below => absurd below (Nat.not_lt_zero _)⟩,
        fun _ => rfl⟩
  | succ left ih =>
      rw [questionLoop, value_bind]
      constructor
      · intro finished
        cases parsed : value (parseDnsQuestion msg ptr (granted index)) with
        | none =>
            rw [parsed] at finished
            cases finished
        | some result =>
            obtain ⟨taken, q⟩ := result
            rw [parsed] at finished
            simp only [value_bind, value_pure, Option.isSome_map] at finished
            obtain ⟨entries, next, behind, length, all⟩ := (ih _ _ _).mp finished
            obtain ⟨here_all, here⟩ := questionAt_of_parse parsed
            refine ⟨(ptr, q.asSent) :: entries, next, .cons here behind,
              by rw [List.length_cons, length], fun offset below => ?_⟩
            cases offset with
            | zero => exact here_all
            | succ offset =>
                have later := all offset (by omega)
                rwa [Nat.add_right_comm] at later
      · rintro ⟨entries, next, laid, length, all⟩
        cases laid with
        | nil => cases length
        | @cons _ middle _ q rest here behind =>
            obtain ⟨stored, parsed, -⟩ := here.parse (all 0 (Nat.succ_pos _))
            have parsed : value (parseDnsQuestion msg ptr (granted index)) = _ := parsed
            have forward := here.next_gt
            have behind_q : ptr + (middle - ptr) = middle := by omega
            rw [parsed]
            simp only [value_bind, value_pure, Option.isSome_map]
            rw [behind_q]
            refine (ih _ _ _).mpr ⟨rest, next, behind, Nat.succ.inj length, fun offset below => ?_⟩
            have later := all (offset + 1) (by omega)
            rwa [Nat.add_right_comm]

/-- The loop only sets flags of the connection. -/
theorem questionLoop_counts (left index ptr : Nat) (conn : DnsConn) :
    (value (questionLoop msg granted left index ptr conn)).1.counts = conn.counts := by
  induction left generalizing index ptr conn with
  | zero => rfl
  | succ left ih =>
      rw [questionLoop, value_bind]
      cases value (parseDnsQuestion msg ptr (granted index)) with
      | none => rfl
      | some result =>
          exact ih (index + 1) (ptr + result.1) (conn.checkName (result.2.qname.getD []))

end Questions

/-! ## One call -/

section Call

variable {msg : Message} {granted : Grants}

theorem counts_countMessage (conn : DnsConn) (tx : DnsTransaction) :
    (conn.countMessage tx).counts = (conn.transactions, conn.txCount, conn.messages + 1) := by
  simp only [DnsConn.counts, DnsConn.countMessage, DnsConn.messages]
  split
  next => rw [BitVec.add_assoc]
  next => rw [BitVec.add_assoc, BitVec.add_comm 1, ← BitVec.add_assoc]

theorem counts_addTransaction (conn : DnsConn) (tx : DnsTransaction) :
    (conn.addTransaction tx).counts =
      (tx :: conn.counts.1, conn.counts.2.1 + 1, conn.counts.2.2) := rfl

theorem counts_foldl_countRecord (rrs : List DnsRr) (conn : DnsConn) :
    (rrs.foldl DnsConn.countRecord conn).counts = conn.counts := by
  induction rrs generalizing conn with
  | nil => rfl
  | cons rr rrs ih =>
      rw [List.foldl_cons, ih]
      simp only [DnsConn.countRecord]
      split_ifs <;> rfl

theorem questionLoop_isSome_iff_asks (conn : DnsConn) :
    (value (questionLoop msg granted.question msg.asked 0 (msg.packet + DNS_HEADER_SIZE)
        conn)).2.isSome = true ↔ msg.Asks granted.question := by
  simpa only [Message.Asks, Nat.zero_add] using questionLoop_isSome msg.asked 0 _ conn

/-- A message with a header, for which a transaction is allocated, comes down to its
questions. -/
theorem parseMessage_opened (conn : DnsConn) (header : DNS_HEADER_SIZE ≤ msg.packetLen)
    (allocated : granted.tx = true) :
    ∃ tx, value (parseMessage granted conn msg) =
      match value (questionLoop msg granted.question msg.asked 0
          (msg.packet + DNS_HEADER_SIZE) (conn.countMessage tx)) with
      | (conn, none) => (-1, conn.countError)
      | (conn, some (ptr, questions)) =>
          if tx.isResponse then
            let records := value (parseRecords msg granted { tx with questions } ptr)
            (0, (records.1.foldl DnsConn.countRecord conn).addTransaction
              { tx with
                questions, answers := records.1, authority := records.2.1,
                additional := records.2.2 })
          else (0, conn.addTransaction { tx with questions }) := by
  refine ⟨value (parseHeader msg), ?_⟩
  have granted_tx : ¬ (!granted.tx) = true := by simp [allocated]
  rw [parseMessage, if_neg (Nat.not_lt.mpr header), value_bind, if_neg granted_tx, value_bind]
  have count : min (value (parseHeader msg)).qdcount.toNat MAX_QUESTIONS = msg.asked := rfl
  rw [count]
  cases value (questionLoop msg granted.question msg.asked 0 (msg.packet + DNS_HEADER_SIZE)
      (conn.countMessage (value (parseHeader msg)))) with
  | mk conn result =>
      cases result with
      | none => rfl
      | some result =>
          dsimp only
          rw [value_ite]
          rfl

/-- If the questions parse, the call succeeds, with one transaction and one message
more. -/
theorem parseMessage_asked (conn : DnsConn) (header : DNS_HEADER_SIZE ≤ msg.packetLen)
    (allocated : granted.tx = true) (asks : msg.Asks granted.question) :
    (value (parseMessage granted conn msg)).1 = 0 ∧
      ∃ tx, (value (parseMessage granted conn msg)).2.counts =
        (tx :: conn.transactions, conn.txCount + 1, conn.messages + 1) := by
  obtain ⟨tx, same⟩ := parseMessage_opened conn header allocated
  have finished := (questionLoop_isSome_iff_asks (conn.countMessage tx)).mpr asks
  have counts := @questionLoop_counts msg granted.question msg.asked 0
    (msg.packet + DNS_HEADER_SIZE) (conn.countMessage tx)
  rw [counts_countMessage] at counts
  cases asked : value (questionLoop msg granted.question msg.asked 0
      (msg.packet + DNS_HEADER_SIZE) (conn.countMessage tx)) with
  | mk after result =>
      rw [asked] at same finished counts
      cases result with
      | none => exact nomatch finished
      | some result =>
          rw [same]
          have added (conn' : DnsConn) (unchanged : conn'.counts = after.counts)
              (stored : DnsTransaction) : (conn'.addTransaction stored).counts =
                (stored :: conn.transactions, conn.txCount + 1, conn.messages + 1) := by
            rw [counts_addTransaction, unchanged, counts]
          dsimp only
          split
          next => exact ⟨rfl, _, added _ (counts_foldl_countRecord _ after) _⟩
          next => exact ⟨rfl, _, added after rfl _⟩

/-- If a question does not parse, the call fails, and one message more is counted. -/
theorem parseMessage_unasked (conn : DnsConn) (header : DNS_HEADER_SIZE ≤ msg.packetLen)
    (allocated : granted.tx = true) (unasked : ¬ msg.Asks granted.question) :
    (value (parseMessage granted conn msg)).1 = -1 ∧
      (value (parseMessage granted conn msg)).2.messages = conn.messages + 1 := by
  obtain ⟨tx, same⟩ := parseMessage_opened conn header allocated
  have failed := (questionLoop_isSome_iff_asks (conn.countMessage tx)).not.mpr unasked
  have counts := @questionLoop_counts msg granted.question msg.asked 0
    (msg.packet + DNS_HEADER_SIZE) (conn.countMessage tx)
  rw [counts_countMessage] at counts
  cases asked : value (questionLoop msg granted.question msg.asked 0
      (msg.packet + DNS_HEADER_SIZE) (conn.countMessage tx)) with
  | mk after result =>
      rw [asked] at same failed counts
      cases result with
      | none =>
          rw [same]
          exact ⟨rfl, congrArg (fun counts => counts.2.2) counts⟩
      | some result => exact absurd rfl failed

/-- Without a header or a transaction the call fails at once. -/
theorem parseMessage_unopened (conn : DnsConn)
    (unopened : ¬ (DNS_HEADER_SIZE ≤ msg.packetLen ∧ granted.tx = true)) :
    value (parseMessage granted conn msg) = (-1, conn.countError) := by
  rw [parseMessage, value_ite, value_bind, value_ite]
  split
  next => rfl
  next long =>
    split
    next => rfl
    next allocated =>
      refine absurd ⟨Nat.le_of_not_lt long, ?_⟩ unopened
      simpa using allocated

end Call

/-! ## What a failed call leaves -/

theorem ParseCall.run_delivered (call : ParseCall) (conn : DnsConn)
    (delivers : call.Delivers) :
    call.run conn = value (parseMessage call.granted conn call.message) := by
  obtain ⟨granted, data, len, isTcp⟩ := call
  cases isTcp with
  | false => rfl
  | true =>
      have long : 2 ≤ len := delivers.1 rfl
      have whole : 2 + (value (wordAt data 0)).toNat ≤ len := delivers.2
      have fits : ¬ len - 2 < (value (wordAt data 0)).toNat := by omega
      rw [ParseCall.run, dnsParserParse, if_pos rfl, if_neg (Nat.not_lt.mpr long), value_bind,
        if_neg fits]
      rfl

theorem ParseCall.run_undelivered (call : ParseCall) (conn : DnsConn)
    (undelivered : ¬ call.Delivers) : call.run conn = (-1, conn) := by
  obtain ⟨granted, data, len, isTcp⟩ := call
  cases isTcp with
  | false =>
      exact absurd ⟨Bool.noConfusion, Nat.le_of_eq (Nat.zero_add len)⟩ undelivered
  | true =>
      rw [ParseCall.run, dnsParserParse, if_pos rfl, value_ite, value_bind, value_ite]
      split
      next => rfl
      next long =>
        split
        next => rfl
        next whole =>
          have long : ¬ len < 2 := long
          have whole : ¬ len - 2 < (value (wordAt data 0)).toNat := whole
          have fits : 2 + (value (wordAt data 0)).toNat ≤ len := by omega
          exact absurd ⟨fun _ => Nat.le_of_not_lt long, fits⟩ undelivered

/-- A call that does not get as far as its questions fails and leaves the connection
alone, but for the count of the errors. -/
theorem ParseCall.run_unopened (call : ParseCall) (conn : DnsConn) (unopened : ¬ call.Opens) :
    (call.run conn).1 = -1 ∧ conn.OnlyErrors (call.run conn).2 := by
  by_cases delivers : call.Delivers
  · rw [call.run_delivered conn delivers,
      parseMessage_unopened conn fun rest => unopened ⟨delivers, rest⟩]
    exact ⟨rfl, rfl⟩
  · rw [call.run_undelivered conn delivers]
    exact ⟨rfl, rfl⟩

/-- If the questions are read, they all parse. -/
def ParseCall.Atomic (call : ParseCall) : Prop :=
  call.Opens → call.message.Asks call.granted.question

/-- A failed call leaves the connection alone exactly if it does not fail on a question. -/
theorem ParseCall.run_atomic_iff (call : ParseCall) (conn : DnsConn) :
    ((call.run conn).1 = -1 → conn.OnlyErrors (call.run conn).2) ↔ call.Atomic := by
  by_cases opens : call.Opens
  · rw [call.run_delivered conn opens.1]
    constructor
    · intro unchanged _
      by_contra unasked
      obtain ⟨failed, counted⟩ := parseMessage_unasked conn opens.2.1 opens.2.2 unasked
      have same := congrArg (fun counts => counts.2.2) (unchanged failed).counts
      have grown : conn.messages = conn.messages + 1 := same.symm.trans counted
      bv_omega
    · intro atomic failed
      have succeeds := (parseMessage_asked conn opens.2.1 opens.2.2 (atomic opens)).1
      rw [succeeds] at failed
      exact absurd failed (by decide)
  · exact ⟨fun _ opened => absurd opened opens, fun _ _ => (call.run_unopened conn opens).2⟩

/-- The counters of a connection agree with its list of transactions, as numbers of 32 and
of 64 bits. -/
structure DnsConn.Tallied (conn : DnsConn) : Prop where
  count : conn.txCount = BitVec.ofNat 32 conn.transactions.length
  messages : conn.messages = BitVec.ofNat 64 conn.transactions.length

theorem ParseCall.run_tallied (call : ParseCall) {conn : DnsConn} (tallied : conn.Tallied)
    (atomic : call.Atomic) : (call.run conn).2.Tallied := by
  by_cases opens : call.Opens
  · rw [call.run_delivered conn opens.1]
    obtain ⟨-, tx, counts⟩ := parseMessage_asked conn opens.2.1 opens.2.2 (atomic opens)
    obtain ⟨transactions, counts⟩ := Prod.mk.inj counts
    obtain ⟨count, messages⟩ := Prod.mk.inj counts
    constructor
    case count =>
      rw [count, transactions, tallied.count, List.length_cons]
      exact (BitVec.ofNat_add ..).symm
    case messages =>
      rw [messages, transactions, tallied.messages, List.length_cons]
      exact (BitVec.ofNat_add ..).symm
  · have unchanged := (call.run_unopened conn opens).2
    generalize (call.run conn).2 = after at unchanged ⊢
    obtain ⟨transactions, same⟩ := Prod.mk.inj unchanged.counts
    obtain ⟨count, messages⟩ := Prod.mk.inj same
    constructor
    case count => rw [count, transactions, tallied.count]
    case messages => rw [messages, transactions, tallied.messages]

theorem runParses_tallied (calls : List ParseCall) {conn : DnsConn} (tallied : conn.Tallied)
    (atomic : ∀ call ∈ calls, call.Atomic) : (runParses conn calls).Tallied := by
  induction calls generalizing conn with
  | nil => exact tallied
  | cons call calls ih =>
      have here := call.run_tallied tallied (atomic call List.mem_cons_self)
      exact ih here fun later member => atomic later (List.mem_cons_of_mem _ member)

/-- A call that fails leaves every field of the connection but `parse_errors` as it was, if
and only if it does not read questions of which one does not parse; and in every run of
such calls on a new connection of fewer than 2^32 transactions, `tx_count` is the number of
transactions and the number of queries and responses parsed. -/
theorem failed_parse_atomic_iff (call : ParseCall) (conn : DnsConn) (calls : List ParseCall) :
    (((call.run conn).1 = -1 → conn.OnlyErrors (call.run conn).2) ↔ call.Atomic) ∧
    ((∀ call ∈ calls, call.Atomic) → (runParses {} calls).transactions.length < 2 ^ 32 →
      (runParses {} calls).txCount.toNat = (runParses {} calls).transactions.length ∧
      ((runParses {} calls).queriesParsed + (runParses {} calls).responsesParsed).toNat =
        (runParses {} calls).transactions.length) := by
  refine ⟨ParseCall.run_atomic_iff call conn, fun atomic few => ?_⟩
  have fresh : DnsConn.Tallied {} := ⟨rfl, by decide⟩
  have tallied := runParses_tallied calls fresh atomic
  have messages := tallied.messages
  rw [tallied.count]
  generalize (runParses {} calls).transactions.length = length at few messages ⊢
  rw [DnsConn.messages] at messages
  rw [messages, BitVec.toNat_ofNat, BitVec.toNat_ofNat]
  constructor
  · exact Nat.mod_eq_of_lt few
  · exact Nat.mod_eq_of_lt (Nat.lt_trans few (by decide))

/-- A header without questions. -/
def emptyQuery : ParseCall where
  data := fun _ => 0
  len := 12

/-- Two such queries are counted as two transactions. -/
theorem empty_queries_counted :
    (runParses {} [emptyQuery, emptyQuery]).txCount.toNat =
      (runParses {} [emptyQuery, emptyQuery]).transactions.length := by
  have atomic : emptyQuery.Atomic := fun _ =>
    ⟨[], 12, .nil 12, by decide, fun index below => absurd below (by
      rw [show emptyQuery.message.asked = 0 by decide]
      exact Nat.not_lt_zero index)⟩
  exact ((failed_parse_atomic_iff emptyQuery {} [emptyQuery, emptyQuery]).2 (by
    intro call member
    simp only [List.mem_cons, List.not_mem_nil, or_false, or_self] at member
    exact member ▸ atomic) (by decide +kernel)).1

/-- A query that ends after its header: one question is announced, none is there. -/
def bareQuery : ParseCall where
  data := fun offset => if offset = 5 then 1 else 0
  len := 12

/-- The call fails, and the query is counted without a transaction. -/
theorem failed_query_is_counted :
    (bareQuery.run {}).1 = -1 ∧ ¬ DnsConn.OnlyErrors {} (bareQuery.run {}).2 ∧
      (runParses {} [bareQuery]).transactions = [] ∧
      (runParses {} [bareQuery]).queriesParsed = 1 := by
  decide +kernel

end NetDefender.DnsParser
