import NetDefender.Lib.Framing
import NetDefender.Tls.Parser

/-!
# Records and chunks

`tls_parser_parse` handles the complete records at the front of its data, one after
the other, and returns how many bytes they take.  So parsing a stream in two calls,
the second from where the first stopped, does the same as parsing it in one.  The
returned number is the exception: a `uint32_t` goes back as an `int`, so that 2^31
bytes of records or more come out negative.
-/

namespace NetDefender.Tls

open CString

/-! ## Records -/

/-- A complete record: a header of five bytes, and at most 16384 bytes of content. -/
structure IsRecord (record : Bytes) : Prop where
  header : 5 ≤ record.length
  limit : (word record 3).toNat ≤ 16384
  complete : record.length = (word record 3).toNat + 5

/-- The size of the record at the front of the data, if it is complete. -/
def recordSize (data : Bytes) : Option Nat :=
  if 5 ≤ data.length ∧ (word data 3).toNat ≤ 16384 ∧
      (word data 3).toNat + 5 ≤ data.length then
    some ((word data 3).toNat + 5)
  else none

theorem recordSize_eq_some_iff {data : Bytes} {size : Nat} :
    recordSize data = some size ↔ 5 ≤ size ∧ size ≤ data.length ∧
      size = (word data 3).toNat + 5 ∧ (word data 3).toNat ≤ 16384 := by
  rw [recordSize]
  split
  next complete =>
    rw [Option.some_inj]
    omega
  next incomplete =>
    simp only [reduceCtorEq, false_iff]
    omega

section Front

variable {data : Bytes} {size : Nat}

/-- The front of the data can be read from the record alone. -/
theorem getD_take_append (more : Bytes) {index : Nat} (inside : index < size)
    (bound : size ≤ data.length) :
    (data.take size ++ more).getD index 0 = data.getD index 0 := by
  have taken : index < (data.take size).length := by
    rw [List.length_take]
    omega
  rw [List.getD_eq_getElem?_getD, List.getD_eq_getElem?_getD,
    List.getElem?_append_left taken, List.getElem?_take_of_lt inside]

theorem word_take_append (more : Bytes) {offset : Nat} (inside : offset + 2 ≤ size)
    (bound : size ≤ data.length) :
    word (data.take size ++ more) offset = word data offset := by
  rw [word, word, getD_take_append more (by omega) bound,
    getD_take_append more (by omega) bound]

end Front

/-- Records as frames. -/
def records : Framing UInt8 where
  size := recordSize
  positive := by
    intro data size found
    have large := (recordSize_eq_some_iff.mp found).1
    omega
  bounded := by
    intro data size found
    exact (recordSize_eq_some_iff.mp found).2.1
  stable := by
    intro data size found more
    obtain ⟨large, bound, sizeEq, limit⟩ := recordSize_eq_some_iff.mp found
    rw [recordSize_eq_some_iff, word_take_append more large bound]
    refine ⟨large, ?_, sizeEq, limit⟩
    rw [List.length_append, List.length_take]
    omega

theorem isFrame_iff {record : Bytes} : records.IsFrame record ↔ IsRecord record := by
  rw [Framing.IsFrame]
  refine recordSize_eq_some_iff.trans ?_
  constructor
  · rintro ⟨header, _, complete, limit⟩
    exact ⟨header, limit, complete⟩
  · rintro ⟨header, limit, complete⟩
    exact ⟨header, Nat.le_refl _, complete, limit⟩

/-! ## The parser on records -/

section Parser

variable (md5 : List Char → Bytes) (rteMalloc : Nat → Bool) (direction : UInt8)

/-- What one record does to the connection. -/
def recordStep (st : TlsState) (record : Bytes) : TlsState :=
  (parseTlsRecord md5 rteMalloc record direction st).2

theorem parseTlsRecord_none {data : Bytes} (st : TlsState)
    (incomplete : recordSize data = none) :
    (parseTlsRecord md5 rteMalloc data direction st).1 ≤ 0 ∧
      (parseTlsRecord md5 rteMalloc data direction st).2 = st := by
  rw [parseTlsRecord]
  split
  next => exact ⟨Int.le_refl 0, rfl⟩
  next header =>
    dsimp only
    split
    next => exact ⟨(by decide : (-1 : Int) ≤ 0), rfl⟩
    next valid =>
      exfalso
      rw [recordSize, if_pos (by omega)] at incomplete
      cases incomplete

theorem parseTlsRecord_eq {data : Bytes} {size : Nat} (st : TlsState)
    (found : recordSize data = some size) :
    parseTlsRecord md5 rteMalloc data direction st =
      ((size : Int), parseContent md5 rteMalloc (data.getD 0 0)
        ((data.drop 5).take (size - 5)) direction
        { st with
          conn := { st.conn with recordsParsed := st.conn.recordsParsed + 1 } }) := by
  obtain ⟨large, bound, sizeEq, limit⟩ := recordSize_eq_some_iff.mp found
  have contentLen : size - 5 = (word data 3).toNat := by
    omega
  rw [parseTlsRecord, if_neg (by omega)]
  dsimp only
  rw [if_neg (by omega), ← sizeEq, contentLen]

theorem parseTlsRecord_some {data : Bytes} {size : Nat} (st : TlsState)
    (found : recordSize data = some size) :
    parseTlsRecord md5 rteMalloc data direction st =
      ((size : Int), recordStep md5 rteMalloc direction st (data.take size)) := by
  obtain ⟨large, bound, _⟩ := recordSize_eq_some_iff.mp found
  have alone := records.stable found []
  have first := getD_take_append [] (by omega : 0 < size) bound
  rw [List.append_nil] at alone first
  rw [recordStep, parseTlsRecord_eq md5 rteMalloc direction st alone,
    parseTlsRecord_eq md5 rteMalloc direction st found, first, List.drop_take,
    List.take_take, Nat.min_self]

/-- The loop from a position of the data on. -/
theorem parseRecords_eq (data : Bytes) {fuel : Nat} : ∀ {consumed : Nat} (st : TlsState),
    (data.drop consumed).length ≤ fuel → consumed ≤ data.length →
      parseRecords md5 rteMalloc data direction fuel (st, consumed) =
        ((records.frames (data.drop consumed)).foldl
          (recordStep md5 rteMalloc direction) st,
          consumed + records.covered (data.drop consumed)) := by
  induction fuel with
  | zero =>
      intro consumed st enough _
      have done : data.drop consumed = [] :=
        List.eq_nil_of_length_eq_zero (Nat.le_zero.mp enough)
      rw [parseRecords, done, Framing.covered_nil, Framing.frames_nil]
      rfl
  | succ fuel inductionHypothesis =>
      intro consumed st enough inside
      rw [parseRecords]
      split
      next more =>
        cases found : recordSize (data.drop consumed) with
        | none =>
            obtain ⟨stops, same⟩ :=
              parseTlsRecord_none md5 rteMalloc direction st found
            rw [Framing.covered, Framing.frames_of_none found]
            dsimp only
            rw [if_pos stops, same]
            rfl
        | some size =>
            obtain ⟨large, bound, _⟩ := recordSize_eq_some_iff.mp found
            have longer : (data.drop (consumed + size)).length ≤ fuel := by
              rw [List.length_drop] at enough ⊢
              omega
            have within : consumed + size ≤ data.length := by
              rw [List.length_drop] at bound
              omega
            have first : records.frames (data.drop consumed) =
                (data.drop consumed).take size ::
                  records.frames (data.drop (consumed + size)) := by
              rw [Framing.frames_of_some (show records.size _ = some size from found),
                List.drop_drop]
            rw [parseTlsRecord_some md5 rteMalloc direction st found]
            dsimp only
            rw [if_neg (by omega), Int.toNat_natCast, inductionHypothesis _ longer within,
              Framing.covered, Framing.covered, first, List.foldl_cons,
              List.flatten_cons, List.length_append, List.length_take_of_le bound,
              Nat.add_assoc]
      next finished =>
        have done : data.drop consumed = [] :=
          List.drop_eq_nil_of_le (not_lt.mp finished)
        rw [done, Framing.covered_nil, Framing.frames_nil]
        rfl

/-- `tls_parser_parse` folds over the complete records of its data. -/
theorem tlsParserParse_eq {data : Bytes} (st : TlsState) (nonempty : data ≠ []) :
    tlsParserParse md5 rteMalloc st data direction =
      ((BitVec.ofNat 32 (records.covered data)).toInt,
        (records.frames data).foldl (recordStep md5 rteMalloc direction) st) := by
  rw [tlsParserParse, if_neg fun empty => nonempty (List.eq_nil_of_length_eq_zero empty),
    parseRecords_eq md5 rteMalloc direction data st (by simp) (Nat.zero_le _)]
  dsimp only
  rw [List.drop_zero, Nat.zero_add]

/-! ## The counts -/

/-- What `tls_get_stats` shows of what was parsed. -/
def counters (conn : TlsConn) : Nat × Nat × Nat :=
  (conn.recordsParsed, conn.handshakesParsed, conn.appDataRecords)

theorem parseClientHello_counters (data : Bytes) (st : TlsState) :
    counters (parseClientHello md5 rteMalloc data st).conn = counters st.conn := by
  rw [parseClientHello]
  split
  next => rfl
  next =>
    split
    next =>
      cases clientHelloFields data with
      | none => rfl
      | some fields => rfl
    next => rfl

theorem parseServerHello_counters (data : Bytes) (st : TlsState) :
    counters (parseServerHello md5 rteMalloc data st).conn = counters st.conn := by
  rw [parseServerHello]
  split
  next => rfl
  next =>
    split
    next =>
      cases serverHelloFields data with
      | none => rfl
      | some fields => rfl
    next => rfl

theorem parseCertificate_counters (data : Bytes) (st : TlsState) :
    counters (parseCertificate rteMalloc data direction st).conn = counters st.conn := by
  simp only [parseCertificate]
  repeat' split
  all_goals rfl

/-- A complete handshake message at the front of the data. -/
def MessageInFront (data : Bytes) : Prop := 4 ≤ data.length ∧ triple data 1 + 4 ≤ data.length

instance (data : Bytes) : Decidable (MessageInFront data) :=
  inferInstanceAs (Decidable (_ ∧ _))

/-- `parse_handshake` counts one message, if it is there as a whole. -/
theorem parseHandshake_counters (data : Bytes) (st : TlsState) :
    counters (parseHandshake md5 rteMalloc data direction st).conn =
      (st.conn.recordsParsed,
        st.conn.handshakesParsed + if MessageInFront data then 1 else 0,
        st.conn.appDataRecords) := by
  rw [parseHandshake]
  split
  next short =>
    rw [if_neg fun complete => absurd complete.1 (Nat.not_le.mpr short)]
    rfl
  next header =>
    dsimp only
    split
    next cut =>
      rw [if_neg fun complete => absurd complete.2 (Nat.not_le.mpr cut)]
      rfl
    next whole =>
      have complete : MessageInFront data := ⟨Nat.not_lt.mp header, Nat.not_lt.mp whole⟩
      rw [if_pos complete]
      repeat' split
      · exact parseClientHello_counters ..
      · exact parseServerHello_counters ..
      · exact parseCertificate_counters ..
      · rfl
      · rfl

/-- Only `parse_tls_record` itself counts records. -/
theorem parseContent_recordsParsed (contentType : UInt8) (recordData : Bytes)
    (st : TlsState) :
    (parseContent md5 rteMalloc contentType recordData direction st).conn.recordsParsed =
      st.conn.recordsParsed := by
  rw [parseContent]
  split
  next =>
    exact congrArg Prod.fst (parseHandshake_counters md5 rteMalloc direction recordData st)
  next => split <;> rfl

theorem recordStep_recordsParsed (st : TlsState) {record : Bytes}
    (isRecord : records.IsFrame record) :
    (recordStep md5 rteMalloc direction st record).conn.recordsParsed =
      st.conn.recordsParsed + 1 := by
  rw [recordStep, parseTlsRecord_eq md5 rteMalloc direction st isRecord,
    parseContent_recordsParsed]

theorem foldl_recordsParsed {pieces : List Bytes} : ∀ (st : TlsState),
    (∀ piece ∈ pieces, records.IsFrame piece) →
      (pieces.foldl (recordStep md5 rteMalloc direction) st).conn.recordsParsed =
        st.conn.recordsParsed + pieces.length := by
  induction pieces with
  | nil =>
      intro st _
      rfl
  | cons piece pieces inductionHypothesis =>
      intro st areRecords
      rw [List.foldl_cons, inductionHypothesis,
        recordStep_recordsParsed md5 rteMalloc direction st
          (areRecords piece List.mem_cons_self), List.length_cons]
      · omega
      · exact fun other member => areRecords other (List.mem_cons_of_mem _ member)

/-- A call counts the complete records of its data. -/
theorem tlsParserParse_recordsParsed {data : Bytes} (st : TlsState)
    (nonempty : data ≠ []) :
    (tlsParserParse md5 rteMalloc st data direction).2.conn.recordsParsed =
      st.conn.recordsParsed + (records.frames data).length := by
  rw [tlsParserParse_eq md5 rteMalloc direction st nonempty]
  exact foldl_recordsParsed md5 rteMalloc direction st (records.frames_spec data).1

/-! ## Chunks -/

/-- Parsing `x`, and what it leaves with `y` behind it, against parsing both at
once. -/
structure ChunkingLaw (st : TlsState) (x y : Bytes) : Prop where
  bounds : 0 ≤ (tlsParserParse md5 rteMalloc st x direction).1 ∧
    (tlsParserParse md5 rteMalloc st x direction).1 ≤ x.length
  longest : IsGreatest { length | ∃ pieces : List Bytes,
    (∀ piece ∈ pieces, IsRecord piece) ∧ pieces.flatten <+: x ∧
      pieces.flatten.length = length }
    (tlsParserParse md5 rteMalloc st x direction).1.toNat
  continued :
    let (consumed, reached) := tlsParserParse md5 rteMalloc st x direction
    x.drop consumed.toNat ++ y ≠ [] →
      let (later, final) := tlsParserParse md5 rteMalloc reached
        (x.drop consumed.toNat ++ y) direction
      tlsParserParse md5 rteMalloc st (x ++ y) direction = (consumed + later, final)

/-- The lengths that come back as they are: those of the records of `x`, and those of
`x ++ y`, unless the second call wraps around in the same way. -/
def Representable (x y : Bytes) : Prop :=
  records.covered x < 2 ^ 31 ∧ (records.rest x ++ y ≠ [] →
    records.covered (x ++ y) < 2 ^ 31 ∨ 2 ^ 31 ≤ records.covered (records.rest x ++ y))

theorem toInt_ofNat_32 {length : Nat} (small : length < 2 ^ 32) :
    (BitVec.ofNat 32 length).toInt =
      if length < 2 ^ 31 then (length : Int) else length - 4294967296 := by
  rw [BitVec.toInt_eq_toNat_cond, BitVec.toNat_ofNat, Nat.mod_eq_of_lt small]
  split <;> split <;> omega

theorem covered_longest (x : Bytes) : IsGreatest { length | ∃ pieces : List Bytes,
    (∀ piece ∈ pieces, IsRecord piece) ∧ pieces.flatten <+: x ∧
      pieces.flatten.length = length } (records.covered x) := by
  have longest := records.covered_isGreatest x
  simpa only [isFrame_iff] using longest

end Parser

/-- An application data record of the maximal size. -/
def fullRecord : Bytes := [23, 3, 3, 64, 0] ++ List.replicate 16384 0

theorem fullRecord_length : fullRecord.length = 16389 := by
  rw [fullRecord, List.length_append, List.length_replicate]
  rfl

theorem fullRecord_isRecord : IsRecord fullRecord := by
  have content : (word fullRecord 3).toNat = 16384 := rfl
  have length := fullRecord_length
  exact ⟨by omega, by omega, by omega⟩

theorem length_flatten_replicate (count : Nat) (piece : Bytes) :
    (List.replicate count piece).flatten.length = count * piece.length := by
  induction count with
  | zero => simp
  | succ count inductionHypothesis =>
      rw [List.replicate_succ, List.flatten_cons, List.length_append,
        inductionHypothesis, Nat.succ_mul, Nat.add_comm]

end NetDefender.Tls
