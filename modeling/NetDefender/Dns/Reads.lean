import NetDefender.Dns.Parser

/-!
# Reads of the DNS parser

The cursor is moved by label lengths, compression pointers and data lengths from the
message.  Each is compared with the end of the message before it is used, so that every
read is inside the message, and the cursor moves on after every question and every
resource record without passing the end.
-/

namespace NetDefender.DnsParser

open CString Logged

/-- A read in the message, or a question or record after which the cursor has moved on and
not passed the end. -/
def Message.Permits (msg : Message) : Event → Prop
  | .read offset => msg.packet ≤ offset ∧ offset < msg.packetEnd
  | .question start next _ => start < next ∧ next ≤ msg.packetEnd
  | .record _ start next _ => start < next ∧ next ≤ msg.packetEnd

/-! ## Bytes -/

section Bytes

variable {memory : Memory} {P : Event → Prop} {p : Nat}

theorem byteAt_always (reads : P (.read p)) : Always P (byteAt memory p) :=
  .bind ((Always.record_iff _).mpr reads) (.pure _)

theorem wordAt_always (reads : ∀ offset, p ≤ offset → offset < p + 2 → P (.read offset)) :
    Always P (wordAt memory p) :=
  .bind (byteAt_always (reads p (Nat.le_refl p) (by omega)))
    (.bind (byteAt_always (reads (p + 1) (by omega) (by omega))) (.pure _))

theorem longAt_always (reads : ∀ offset, p ≤ offset → offset < p + 4 → P (.read offset)) :
    Always P (longAt memory p) :=
  .bind (wordAt_always fun offset low high => reads offset low (by omega))
    (.bind (wordAt_always fun offset low high => reads offset (by omega) (by omega))
      (.pure _))

theorem bytesAt_always {count : Nat}
    (reads : ∀ offset, p ≤ offset → offset < p + count → P (.read offset)) :
    Always P (bytesAt memory p count) := by
  induction count generalizing p with
  | zero => exact .pure _
  | succ count ih =>
      exact .bind (byteAt_always (reads p (Nat.le_refl p) (by omega)))
        (.bind (ih fun offset low high => reads offset (by omega) (by omega)) (.pure _))

end Bytes

section Message

variable {msg : Message} {p ptr : Nat}

/-- A read in the message and nothing else. -/
def Message.Reads (msg : Message) : Event → Prop
  | .read offset => msg.packet ≤ offset ∧ offset < msg.packetEnd
  | .question .. | .record .. => False

theorem Message.Reads.permits {event : Event} (reads : msg.Reads event) :
    msg.Permits event := by
  cases event with
  | read offset => exact reads
  | question start next q => exact reads.elim
  | record sec start next rr => exact reads.elim

theorem Message.reads_read {start count : Nat} (low : msg.packet ≤ start)
    (high : start + count ≤ msg.packetEnd) :
    ∀ offset, start ≤ offset → offset < start + count → msg.Reads (.read offset) :=
  fun _ after before => ⟨Nat.le_trans low after, Nat.lt_of_lt_of_le before high⟩

/-! ## Names -/

/-- What is known about the bytes consumed: before the first jump the loop has not gone
back, afterwards the number is set and fits. -/
def Message.Consumed (msg : Message) (ptr p : Nat) : Option Nat → Prop
  | none => ptr ≤ p
  | some consumed => 0 < consumed ∧ ptr + consumed ≤ msg.packetEnd

/-- Only the message is read, and a result takes at least one byte and stays in the
message. -/
structure Message.Bounded {α : Type} (msg : Message) (ptr : Nat)
    (program : Recording Event (Option (Nat × α))) : Prop where
  always : Always msg.Reads program
  advances : ∀ consumed result, value program = some (consumed, result) →
    0 < consumed ∧ ptr + consumed ≤ msg.packetEnd

variable {α : Type}

theorem Message.Bounded.fail : msg.Bounded ptr (pure none : Recording Event (Option (Nat × α))) :=
  ⟨.pure _, fun _ _ found => nomatch found⟩

theorem Message.Bounded.bind {β : Type} {first : Recording Event β}
    {next : β → Recording Event (Option (Nat × α))} (before : Always msg.Reads first)
    (after : msg.Bounded ptr (next (value first))) : msg.Bounded ptr (first >>= next) :=
  ⟨.bind before after.always, after.advances⟩

theorem Message.Bounded.ite {condition : Prop} [Decidable condition]
    {yes no : Recording Event (Option (Nat × α))}
    (holds : condition → msg.Bounded ptr yes) (fails : ¬ condition → msg.Bounded ptr no) :
    msg.Bounded ptr (if condition then yes else no) := by
  split
  next yes => exact holds yes
  next no => exact fails no

/-- The loop over a name, by induction on its turns. -/
theorem nameLoop_bounded (turns : Nat) {out : Bytes} {jumps : Nat} {consumed : Option Nat}
    (inside : msg.packet ≤ p) (known : msg.Consumed ptr p consumed) :
    msg.Bounded ptr (nameLoop msg ptr turns p out jumps consumed) := by
  induction turns generalizing p out jumps consumed with
  | zero => exact .fail
  | succ turns ih =>
      unfold nameLoop
      refine .ite (fun before => ?_) fun _ => .fail
      refine .bind (byteAt_always ⟨inside, before⟩) ?_
      rw [value_byteAt]
      refine .ite (fun pointer => ?_) fun notPointer => .ite (fun ends => ?_) fun more => ?_
      · refine .ite (fun _ => .fail) fun second => ?_
        have second : p + 1 < msg.packetEnd := Nat.lt_of_not_ge second
        refine .bind (byteAt_always ⟨Nat.le_succ_of_le inside, second⟩) ?_
        rw [value_byteAt]
        refine .ite (fun _ => .fail) fun _ => .ite (fun _ => .fail) fun _ => ?_
        apply ih (Nat.le_add_right _ _)
        cases consumed with
        | none =>
            have forward : ptr ≤ p := known
            exact ⟨by omega, by omega⟩
        | some consumed => exact known
      · refine ⟨.pure _, fun taken name found => ?_⟩
        obtain rfl : consumed.getD (p - ptr + 1) = taken :=
          congrArg Prod.fst (Option.some.inj found)
        cases consumed with
        | none =>
            have forward : ptr ≤ p := known
            exact ⟨Nat.succ_pos _, by simp only [Option.getD_none]; omega⟩
        | some consumed => exact known
      · refine .ite (fun _ => .fail) fun _ => .ite (fun _ => .fail) fun fits => ?_
        have label := Message.reads_read (Nat.le_succ_of_le inside) (Nat.le_of_not_gt fits)
        refine .bind (bytesAt_always label) (.ite (fun _ => .fail) fun _ => ?_)
        apply ih (by omega)
        cases consumed with
        | none =>
            have forward : ptr ≤ p := known
            exact (by omega : ptr ≤ p + 1 + (msg.memory p).toNat)
        | some consumed => exact known

theorem parseDnsName_bounded (inside : msg.packet ≤ ptr) :
    msg.Bounded ptr (parseDnsName msg ptr) :=
  nameLoop_bounded NAME_TURNS inside (Nat.le_refl ptr)

/-! ## Questions and resource records -/

/-- What follows a name starts behind it. -/
theorem Message.Bounded.afterName (inside : msg.packet ≤ ptr)
    {next : Option (Nat × Bytes) → Recording Event (Option (Nat × α))}
    (nameless : next none = pure none)
    (named : ∀ consumed name, 0 < consumed → ptr + consumed ≤ msg.packetEnd →
      msg.Bounded ptr (next (some (consumed, name)))) :
    msg.Bounded ptr (parseDnsName msg ptr >>= next) := by
  have name := parseDnsName_bounded inside
  refine .bind name.always ?_
  cases found : value (parseDnsName msg ptr) with
  | none => exact nameless ▸ .fail
  | some result =>
      obtain ⟨positive, fits⟩ := name.advances result.1 result.2 found
      exact named result.1 result.2 positive fits

theorem parseDnsQuestion_bounded (inside : msg.packet ≤ ptr) (granted : QuestionGrants) :
    msg.Bounded ptr (parseDnsQuestion msg ptr granted) := by
  refine .afterName inside rfl fun consumed name positive _ => ?_
  refine .ite (fun _ => .fail) fun fits => ?_
  have reads := Message.reads_read (Nat.le_trans inside (Nat.le_add_right ptr consumed))
    (Nat.le_of_not_gt fits)
  refine .bind (wordAt_always fun offset low high => reads offset low (by omega)) ?_
  refine .bind (wordAt_always fun offset low high => reads offset (by omega) (by omega)) ?_
  refine .ite (fun _ => ⟨.pure _, fun taken q found => ?_⟩) fun _ => .fail
  obtain rfl : consumed + 4 = taken := congrArg Prod.fst (Option.some.inj found)
  exact ⟨by omega, by omega⟩

theorem parseTarget_always (inside : msg.packet ≤ ptr) (granted : Bool) :
    Always msg.Reads (parseTarget msg ptr granted) := by
  refine .bind (parseDnsName_bounded inside).always ?_
  cases value (parseDnsName msg ptr) with
  | none => exact .pure _
  | some result => exact .pure _

theorem parseRdata_always {rdlength : Nat} (inside : msg.packet ≤ ptr)
    (fits : ptr + rdlength ≤ msg.packetEnd) (type : DnsType) (granted : Bool) :
    Always msg.Reads (parseRdata msg ptr type rdlength granted) := by
  unfold parseRdata
  refine .ite (fun address => ?_) fun _ => .ite (fun address => ?_) fun _ =>
    .ite (fun _ => ?_) fun _ => .ite (fun exchange => ?_) fun _ => .pure _
  · exact .bind (bytesAt_always (Message.reads_read inside (address.2 ▸ fits))) (.pure _)
  · exact .bind (bytesAt_always (Message.reads_read inside (address.2 ▸ fits))) (.pure _)
  · refine .bind (parseTarget_always inside granted) ?_
    cases value (parseTarget msg ptr granted) with
    | none => exact .pure _
    | some name => exact .pure _
  · have two : ptr + 2 ≤ msg.packetEnd := by omega
    exact .bind (wordAt_always (Message.reads_read inside two))
      (.bind (parseTarget_always (by omega) granted) (.pure _))

theorem parseDnsRr_bounded (inside : msg.packet ≤ ptr) (granted : RrGrants) :
    msg.Bounded ptr (parseDnsRr msg ptr granted) := by
  refine .afterName inside rfl fun consumed name positive _ => ?_
  refine .ite (fun _ => .fail) fun fixed => ?_
  have behind : msg.packet ≤ ptr + consumed := Nat.le_trans inside (Nat.le_add_right ..)
  have reads := Message.reads_read behind (Nat.le_of_not_gt fixed)
  refine .bind (wordAt_always fun offset low high => reads offset low (by omega)) ?_
  refine .bind (wordAt_always fun offset low high => reads offset (by omega) (by omega)) ?_
  refine .bind (longAt_always fun offset low high => reads offset (by omega) (by omega)) ?_
  refine .bind (wordAt_always fun offset low high => reads offset (by omega) (by omega)) ?_
  generalize value (wordAt msg.memory (ptr + consumed + 8)) = rdlength
  refine .ite (fun _ => .fail) fun fits => .ite (fun _ => .fail) fun _ =>
    .ite (fun _ => ?_) fun _ => .ite (fun _ => .fail) fun _ => ?_
  · refine ⟨.pure _, fun taken rr found => ?_⟩
    obtain rfl : consumed + 10 = taken := congrArg Prod.fst (Option.some.inj found)
    exact ⟨by omega, by omega⟩
  · have data : ptr + consumed + 10 + rdlength.toNat ≤ msg.packetEnd := Nat.le_of_not_gt fits
    have here : msg.packet ≤ ptr + consumed + 10 := by omega
    refine .bind (bytesAt_always (Message.reads_read here data)) ?_
    refine .bind (parseRdata_always here data _ _) ⟨.pure _, fun taken rr found => ?_⟩
    obtain rfl : consumed + 10 + rdlength.toNat = taken :=
      congrArg Prod.fst (Option.some.inj found)
    exact ⟨by omega, by omega⟩

/-! ## Sections -/

theorem questionLoop_always (granted : Nat → QuestionGrants) (left index : Nat)
    (conn : DnsConn) (inside : msg.packet ≤ ptr) :
    Always msg.Permits (questionLoop msg granted left index ptr conn) := by
  induction left generalizing index ptr conn with
  | zero => exact .pure _
  | succ left ih =>
      have question := parseDnsQuestion_bounded inside (granted index)
      refine .bind (question.always.mono fun _ => Message.Reads.permits) ?_
      cases found : value (parseDnsQuestion msg ptr (granted index)) with
      | none => exact .pure _
      | some result =>
          have moved := question.advances result.1 result.2 found
          exact .bind ((Always.record_iff _).mpr ⟨by omega, moved.2⟩)
            (.bind (ih _ _ (by omega)) (.pure _))

/-- The cursor after the questions. -/
theorem questionLoop_cursor (granted : Nat → QuestionGrants) {left index : Nat}
    {conn : DnsConn} (inside : msg.packet ≤ ptr) {after : Nat} {questions : List DnsQuestion}
    (finished : (value (questionLoop msg granted left index ptr conn)).2 =
      some (after, questions)) : msg.packet ≤ after := by
  induction left generalizing index ptr conn questions with
  | zero =>
      obtain rfl : ptr = after := congrArg Prod.fst (Option.some.inj finished)
      exact inside
  | succ left ih =>
      simp only [questionLoop, value_bind] at finished
      cases found : value (parseDnsQuestion msg ptr (granted index)) with
      | none => simp [found] at finished
      | some result =>
          simp only [found, value_bind, value_pure, Option.map_eq_some_iff] at finished
          obtain ⟨rest, again, same⟩ := finished
          have moved := Nat.le_trans inside (Nat.le_add_right ptr result.1)
          obtain rfl : rest.1 = after := congrArg Prod.fst same
          exact ih moved again

theorem recordLoop_always (sec : RrSection) (granted : Nat → RrGrants) (left index : Nat)
    (inside : msg.packet ≤ ptr) :
    Always msg.Permits (recordLoop msg sec granted left index ptr) ∧
      msg.packet ≤ (value (recordLoop msg sec granted left index ptr)).1 := by
  induction left generalizing index ptr with
  | zero => exact ⟨.pure _, inside⟩
  | succ left ih =>
      have rr := parseDnsRr_bounded inside (granted index)
      simp only [recordLoop]
      cases found : value (parseDnsRr msg ptr (granted index)) with
      | none => 
          constructor
          · refine .bind (rr.always.mono fun _ => Message.Reads.permits) ?_
            rw [found]
            exact .pure _
          · simpa [found] using inside
      | some result =>
          have moved := rr.advances result.1 result.2 found
          have rest := @ih (ptr + result.1) (index + 1) (by omega)
          constructor
          · refine .bind (rr.always.mono fun _ => Message.Reads.permits) ?_
            rw [found]
            exact .bind ((Always.record_iff _).mpr ⟨by omega, moved.2⟩)
              (.bind rest.1 (.pure _))
          · simpa [found] using rest.2

theorem parseRecords_always (granted : Grants) (tx : DnsTransaction)
    (inside : msg.packet ≤ ptr) : Always msg.Permits (parseRecords msg granted tx ptr) := by
  have answers := recordLoop_always .answer (granted.rr .answer)
    (min tx.ancount.toNat RrSection.answer.limit) 0 inside
  refine .bind answers.1 ?_
  have authority := recordLoop_always .authority (granted.rr .authority)
    (min tx.nscount.toNat RrSection.authority.limit) 0 answers.2
  refine .bind authority.1 ?_
  have additional := recordLoop_always .additional (granted.rr .additional)
    (min tx.arcount.toNat RrSection.additional.limit) 0 authority.2
  exact .bind additional.1 (.pure _)

/-! ## Messages -/

theorem parseHeader_always (header : DNS_HEADER_SIZE ≤ msg.packetLen) :
    Always msg.Reads (parseHeader msg) := by
  have fits : msg.packet + 12 ≤ msg.packetEnd := Nat.add_le_add_left header msg.packet
  have word : ∀ index < 6, Always msg.Reads (wordAt msg.memory (msg.packet + 2 * index)) :=
    fun index bound => wordAt_always fun offset low high =>
      Message.reads_read (Nat.le_refl _) fits offset (by omega) (by omega)
  exact .bind (word 0 (by omega)) (.bind (word 1 (by omega)) (.bind (word 2 (by omega))
    (.bind (word 3 (by omega)) (.bind (word 4 (by omega)) (.bind (word 5 (by omega))
      (.pure _))))))

theorem parseMessage_always (granted : Grants) (conn : DnsConn) :
    Always msg.Permits (parseMessage granted conn msg) := by
  refine .ite (fun _ => .pure _) fun long => ?_
  refine .bind ((parseHeader_always (Nat.le_of_not_lt long)).mono fun _ =>
    Message.Reads.permits) ?_
  refine .ite (fun _ => .pure _) fun _ => ?_
  generalize value (parseHeader msg) = tx
  have start : msg.packet ≤ msg.packet + DNS_HEADER_SIZE := Nat.le_add_right _ _
  refine .bind (questionLoop_always granted.question _ _ _ start) ?_
  cases asked : value (questionLoop msg granted.question (min tx.qdcount.toNat MAX_QUESTIONS)
      0 (msg.packet + DNS_HEADER_SIZE) (conn.countMessage tx)) with
  | mk conn result =>
      cases result with
      | none => exact .pure _
      | some result =>
          have behind := questionLoop_cursor granted.question start
            (congrArg Prod.snd asked)
          refine .ite (fun _ => ?_) fun _ => .pure _
          exact .bind (parseRecords_always granted _ behind) (.pure _)

end Message

/-! ## The whole call -/

/-- The message in the data: all of it, or over TCP the bytes behind the length that it
starts with. -/
def messageOf (data : Memory) (len : Nat) (isTcp : Bool) : Message :=
  if isTcp then ⟨data, 2, (value (wordAt data 0)).toNat⟩ else ⟨data, 0, len⟩

/-- A read of the length before a message, or of the message, which both lie in the data;
or a cursor that moves on in the message. -/
def Permitted (data : Memory) (len : Nat) (isTcp : Bool) : Event → Prop
  | .read offset =>
      offset < len ∧
        (isTcp = true ∧ offset < 2 ∨
          (messageOf data len isTcp).packet ≤ offset ∧
            offset < (messageOf data len isTcp).packetEnd)
  | .question start next _ | .record _ start next _ =>
      start < next ∧ next ≤ (messageOf data len isTcp).packetEnd

theorem Message.Permits.permitted {data : Memory} {len : Nat} {isTcp : Bool}
    (whole : (messageOf data len isTcp).packetEnd ≤ len) {event : Event}
    (permits : (messageOf data len isTcp).Permits event) : Permitted data len isTcp event := by
  cases event with
  | read offset => exact ⟨Nat.lt_of_lt_of_le permits.2 whole, .inr permits⟩
  | question start next q => exact permits
  | record sec start next rr => exact permits

/-- Every byte that `dns_parser_parse` reads lies in the message, or in the length before
it, and after every question and every resource record the cursor has moved on by a byte
at least and has not passed the end of the message. -/
theorem dns_reads_inside (granted : Grants) (conn : DnsConn) (data : Memory) (len : Nat)
    (isTcp : Bool) :
    Always (Permitted data len isTcp) (dnsParserParse granted conn data len isTcp) := by
  have message (whole : (messageOf data len isTcp).packetEnd ≤ len) :
      Always (Permitted data len isTcp)
        (parseMessage granted conn (messageOf data len isTcp)) :=
    (parseMessage_always granted conn).mono fun _ permits => permits.permitted whole
  cases isTcp with
  | false => exact message (Nat.le_of_eq (Nat.zero_add len))
  | true =>
      rw [dnsParserParse, if_pos rfl]
      refine .ite (fun _ => .pure _) fun long => ?_
      refine .bind (wordAt_always fun offset _ high => ?_) (.ite (fun _ => .pure _) ?_)
      · exact ⟨by omega, .inl ⟨rfl, high⟩⟩
      · intro fits
        have whole : 2 + (value (wordAt data 0)).toNat ≤ len := by omega
        exact message whole

end NetDefender.DnsParser
