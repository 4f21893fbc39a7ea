import NetDefender.Tls.RoundTrip

/-!
# Several handshake messages in one record

A record may carry any number of handshake messages, one after the other.  `parse_tls_record`
hands the whole payload to `parse_handshake`, which returns the size of the message that it
has parsed; nobody asks for the rest.  So a record does what its first message does alone.
-/

namespace NetDefender.Tls

open CString

/-! ## Messages and records -/

/-- A complete handshake message: a header of four bytes, and a body. -/
structure IsMessage (message : Bytes) : Prop where
  header : 4 ≤ message.length
  complete : message.length = triple message 1 + 4

/-- A handshake record. -/
def handshakeRecord (version : BitVec 16) (payload : Bytes) : Bytes :=
  TLS_RECORD_HANDSHAKE :: (wordBytes version ++ vector16 payload)

section Messages

variable {message : Bytes} (rest : Bytes)

theorem getD_append_left {index : Nat} (inside : index < message.length) :
    (message ++ rest).getD index 0 = message.getD index 0 := by
  rw [List.getD_eq_getElem?_getD, List.getD_eq_getElem?_getD, List.getElem?_append_left inside]

theorem triple_append (header : 4 ≤ message.length) :
    triple (message ++ rest) 1 = triple message 1 := by
  rw [triple, triple, word, word, getD_append_left rest (by omega),
    getD_append_left rest (by omega), getD_append_left rest (by omega)]

theorem IsMessage.inFront (isMessage : IsMessage message) : MessageInFront (message ++ rest) := by
  have header := isMessage.header
  have complete := isMessage.complete
  rw [MessageInFront, triple_append rest header, List.length_append]
  omega

theorem handshakeRecord_length (version : BitVec 16) (payload : Bytes) :
    (handshakeRecord version payload).length = payload.length + 5 := by
  rw [handshakeRecord, List.length_cons, List.length_append, length_wordBytes, length_vector16]
  omega

theorem word_handshakeRecord (version : BitVec 16) {payload : Bytes}
    (limit : payload.length ≤ 16384) :
    (word (handshakeRecord version payload) 3).toNat = payload.length := by
  have length := @word_drop (handshakeRecord version payload) 3 0
  have behind : (handshakeRecord version payload).drop 3 = vector16 payload ++ [] :=
    (List.append_nil _).symm
  rw [← length, behind, word_vector16 (by omega)]

theorem recordSize_handshakeRecord (version : BitVec 16) {payload : Bytes}
    (limit : payload.length ≤ 16384) :
    recordSize (handshakeRecord version payload) = some (payload.length + 5) := by
  rw [recordSize_eq_some_iff, handshakeRecord_length, word_handshakeRecord version limit]
  exact ⟨Nat.le_add_left _ _, Nat.le_refl _, rfl, limit⟩

end Messages

/-! ## The parser on them -/

section Parser

variable (md5 : List Char → Bytes) (rteMalloc : Nat → Bool) (direction : UInt8)
variable (version : BitVec 16) (st : TlsState)

/-- `parse_handshake` does not look behind a complete message. -/
theorem parseHandshake_append {message : Bytes} (isMessage : IsMessage message) (rest : Bytes) :
    parseHandshake md5 rteMalloc (message ++ rest) direction st =
      parseHandshake md5 rteMalloc message direction st := by
  have header := isMessage.header
  have complete := isMessage.complete
  have type : (message ++ rest).getD 0 0 = message.getD 0 0 :=
    getD_append_left rest (by omega)
  have bodyLength : triple message 1 ≤ (message.drop 4).length := by
    rw [List.length_drop]
    omega
  have body : ((message ++ rest).drop 4).take (triple message 1) =
      (message.drop 4).take (triple message 1) := by
    rw [List.drop_append_of_le_length header, List.take_append_of_le_length bodyLength]
  have longer : message.length ≤ (message ++ rest).length :=
    (List.prefix_append message rest).length_le
  have inside : ¬ triple message 1 + 4 > (message ++ rest).length := by omega
  have insideAlone : ¬ triple message 1 + 4 > message.length := by omega
  have long : ¬ (message ++ rest).length < 4 := by omega
  have longAlone : ¬ message.length < 4 := by omega
  rw [parseHandshake, parseHandshake, if_neg long, if_neg longAlone]
  dsimp only
  rw [triple_append rest header, type, if_neg inside, if_neg insideAlone, body]

/-- A handshake record does what `parse_handshake` does with its payload. -/
theorem recordStep_handshakeRecord {payload : Bytes} (limit : payload.length ≤ 16384) :
    recordStep md5 rteMalloc direction st (handshakeRecord version payload) =
      parseHandshake md5 rteMalloc payload direction
        { st with conn := { st.conn with recordsParsed := st.conn.recordsParsed + 1 } } := by
  have contents : ((handshakeRecord version payload).drop 5).take (payload.length + 5 - 5) =
      payload := List.take_length
  rw [recordStep, parseTlsRecord_eq md5 rteMalloc direction st
    (recordSize_handshakeRecord version limit), contents]
  rfl

/-- A record does what its first message does in a record of its own. -/
theorem recordStep_first {message : Bytes} (isMessage : IsMessage message) (others : List Bytes)
    (limit : (message :: others).flatten.length ≤ 16384) :
    recordStep md5 rteMalloc direction st
        (handshakeRecord version (message :: others).flatten) =
      recordStep md5 rteMalloc direction st (handshakeRecord version message) := by
  have shorter : message.length ≤ 16384 := by
    rw [List.flatten_cons, List.length_append] at limit
    omega
  rw [recordStep_handshakeRecord md5 rteMalloc direction version st limit,
    recordStep_handshakeRecord md5 rteMalloc direction version st shorter, List.flatten_cons,
    parseHandshake_append md5 rteMalloc direction _ isMessage]

theorem recordStep_handshakesParsed {message : Bytes} (isMessage : IsMessage message)
    (limit : message.length ≤ 16384) :
    (recordStep md5 rteMalloc direction st
        (handshakeRecord version message)).conn.handshakesParsed =
      st.conn.handshakesParsed + 1 := by
  have counted := parseHandshake_counters md5 rteMalloc direction message
    { st with conn := { st.conn with recordsParsed := st.conn.recordsParsed + 1 } }
  have whole : MessageInFront message := by
    have inFront := isMessage.inFront []
    rwa [List.append_nil] at inFront
  rw [if_pos whole] at counted
  rw [recordStep_handshakeRecord md5 rteMalloc direction version st limit]
  exact congrArg (fun counts => counts.2.1) counted

/-! ## Packings -/

/-- A connection without its count of records. -/
def withoutRecords (st : TlsState) : TlsConn := { st.conn with recordsParsed := 0 }

/-- One record with the messages against a record for each of them. -/
structure PackingLaw (messages : List Bytes) : Prop where
  counted : (recordStep md5 rteMalloc direction st
      (handshakeRecord version messages.flatten)).conn.handshakesParsed =
    st.conn.handshakesParsed + messages.length
  same : withoutRecords (recordStep md5 rteMalloc direction st
      (handshakeRecord version messages.flatten)) =
    withoutRecords ((messages.map (handshakeRecord version)).foldl
      (recordStep md5 rteMalloc direction) st)

/-- A record with complete handshake messages is parsed like a record for each of them exactly
when it is one message. -/
theorem packing_law_iff {messages : List Bytes} (nonempty : messages ≠ [])
    (complete : ∀ message ∈ messages, IsMessage message)
    (limit : messages.flatten.length ≤ 16384) :
    PackingLaw md5 rteMalloc direction version st messages ↔ messages.length = 1 := by
  cases messages with
  | nil => exact absurd rfl nonempty
  | cons message others =>
      have isMessage := complete message List.mem_cons_self
      have first := recordStep_first md5 rteMalloc direction version st isMessage others limit
      have shorter : message.length ≤ 16384 := by
        rw [List.flatten_cons, List.length_append] at limit
        omega
      have one := recordStep_handshakesParsed md5 rteMalloc direction version st isMessage shorter
      constructor
      · intro law
        have counted := law.counted
        rw [first, one] at counted
        omega
      · intro alone
        constructor
        · rw [first, one, alone]
        · have none : others = [] := List.eq_nil_of_length_eq_zero (Nat.succ.inj alone)
          rw [first, none]
          rfl

end Parser

/-- A `ServerHelloDone` alone. -/
theorem packing_law_alone :
    PackingLaw (fun _ => []) (fun _ => true) 1 0x0303 {} [[14, 0, 0, 0]] :=
  (packing_law_iff (fun _ => []) (fun _ => true) 1 0x0303 {} (List.cons_ne_nil _ _)
    (List.forall_mem_singleton.mpr ⟨by decide, by decide⟩) (by decide)).mpr rfl

/-- The `ServerHelloDone` behind another message is not parsed, and the handshake is not
completed. -/
theorem packed_message_lost :
    let messages : List Bytes := [[12, 0, 0, 1, 7], [14, 0, 0, 0]]
    (∀ message ∈ messages, IsMessage message) ∧
      (recordStep (fun _ => []) (fun _ => true) 1 {}
        (handshakeRecord 0x0303 messages.flatten)).conn.handshakeCompleted = false ∧
      ((messages.map (handshakeRecord 0x0303)).foldl
        (recordStep (fun _ => []) (fun _ => true) 1) {}).conn.handshakeCompleted = true ∧
      ¬ PackingLaw (fun _ => []) (fun _ => true) 1 0x0303 {} messages := by
  intro messages
  have complete : ∀ message ∈ messages, IsMessage message := by
    intro message member
    rcases List.mem_cons.mp member with rfl | later
    · exact ⟨by decide, by decide⟩
    · rw [List.mem_singleton.mp later]
      exact ⟨by decide, by decide⟩
  refine ⟨complete, by decide, by decide, ?_⟩
  intro law
  exact absurd law.counted (by decide)

end NetDefender.Tls
