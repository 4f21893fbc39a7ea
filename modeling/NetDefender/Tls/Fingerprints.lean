import Mathlib.Algebra.GroupWithZero.Nat
import NetDefender.Tls.Records

/-!
# Fingerprints of ClientHello messages

`build_ja3_string` prints the numbers of a ClientHello to a buffer of `TLS_MAX_JA3_STR`
bytes and adds up what `snprintf` returns, which is the length that the text would have.
-/

namespace NetDefender.Tls

open CString

/-! ## The text -/

/-- Numbers with dashes between them. -/
def dashedText (values : List (BitVec 16)) : List Char :=
  ['-'].intercalate (values.map fun value => Nat.toDigits 10 value.toNat)

/-- The text of JA3, without groups and point formats:
`version,c1-c2-..,e1-e2-..,,`. -/
def ja3Text (ch : TlsClientHello) : List Char :=
  Nat.toDigits 10 ch.version.toNat ++ [','] ++ dashedText ch.cipherSuites ++ [','] ++
    dashedText (ch.extensions.map TlsExtension.type) ++ [',', ',']

/-- The number of decimal digits. -/
def digits (value : BitVec 16) : Nat := (Nat.toDigits 10 value.toNat).length

/-- The room that numbers take with a dash between each two. -/
def dashedRoom (values : List (BitVec 16)) : Nat :=
  (values.map digits).sum + (values.length - 1)

/-- The room that a ClientHello takes: its numbers, the dashes and four commas. -/
def ja3Room (ch : TlsClientHello) : Nat :=
  digits ch.version + dashedRoom ch.cipherSuites +
    dashedRoom (ch.extensions.map TlsExtension.type) + 4

theorem dashed_flatten (values : List (BitVec 16)) :
    (dashed values).flatten = dashedText values := rfl

theorem length_dashedText (values : List (BitVec 16)) :
    (dashedText values).length = dashedRoom values := by
  cases values with
  | nil => rfl
  | cons first rest =>
      induction rest generalizing first with
      | nil => simp [dashedText, dashedRoom, digits, List.intercalate]
      | cons second rest ih =>
          have later := ih second
          simp only [dashedText, dashedRoom, digits, List.intercalate, List.map_cons,
            List.intersperse_cons_cons, List.flatten_cons, List.length_append, List.length_cons,
            List.length_nil, List.sum_cons] at later ⊢
          omega

theorem length_ja3Text (ch : TlsClientHello) : (ja3Text ch).length = ja3Room ch := by
  simp only [ja3Text, ja3Room, List.length_append, length_dashedText, digits, List.length_cons,
    List.length_nil]
  omega

/-! ## The buffer -/

/-- What a series of calls of `snprintf` leaves in the buffer, by induction on the calls. -/
theorem foldl_snprintf (pieces : List (List Char)) {buf : Ja3Buffer} {past : List Char}
    (text : buf.text = past.take (TLS_MAX_JA3_STR - 1)) (offset : buf.offset = past.length) :
    (pieces.foldl Ja3Buffer.snprintf buf).text =
      (past ++ pieces.flatten).take (TLS_MAX_JA3_STR - 1) := by
  induction pieces generalizing buf past with
  | nil => rw [List.foldl_nil, List.flatten_nil, List.append_nil, text]
  | cons piece pieces ih =>
      rw [List.foldl_cons, List.flatten_cons, ← List.append_assoc]
      refine ih ?_ ?_
      · rw [Ja3Buffer.snprintf]
        dsimp only
        split
        next =>
          have left : TLS_MAX_JA3_STR - 1 - (past.take (TLS_MAX_JA3_STR - 1)).length =
              TLS_MAX_JA3_STR - 1 - past.length := by
            rw [List.length_take]
            omega
          rw [text, List.take_append, List.take_append, List.take_take, Nat.min_self, left]
        next outside =>
          rw [text, List.take_append_of_le_length (by omega)]
      · rw [Ja3Buffer.snprintf, List.length_append, offset]

/-- No call of `snprintf` starts behind the buffer if the whole text ends in it. -/
theorem foldl_snprintf_overflow (pieces : List (List Char)) {buf : Ja3Buffer}
    (fits : buf.offset + pieces.flatten.length ≤ TLS_MAX_JA3_STR) :
    (pieces.foldl Ja3Buffer.snprintf buf).overflow = buf.overflow := by
  induction pieces generalizing buf with
  | nil => rfl
  | cons piece pieces ih =>
      rw [List.flatten_cons, List.length_append] at fits
      rw [List.foldl_cons, ih (by rw [Ja3Buffer.snprintf]; dsimp only; omega),
        Ja3Buffer.snprintf]
      dsimp only
      rw [decide_eq_false (by omega), Bool.or_false]

/-- The pieces that are printed make up the text. -/
theorem buildJa3String_text (ch : TlsClientHello) :
    (buildJa3String ch).text = (ja3Text ch).take (TLS_MAX_JA3_STR - 1) := by
  rw [buildJa3String, printAll, @foldl_snprintf _ {} [] rfl rfl]
  simp [ja3Text, dashed_flatten]

theorem buildJa3String_overflow {ch : TlsClientHello} (fits : ja3Room ch ≤ TLS_MAX_JA3_STR) :
    (buildJa3String ch).overflow = false := by
  rw [buildJa3String, printAll, foldl_snprintf_overflow]
  rw [← length_ja3Text] at fits
  simpa [ja3Text, dashed_flatten] using fits

/-! ## Messages -/

/-- The ClientHello that `parse_client_hello` makes of a message, if it accepts it; the number
says how many allocations were asked for before. -/
def acceptedHello (md5 : List Char → Bytes) (rteMalloc : Nat → Bool) (data : Bytes)
    (mallocs : Nat) : Option TlsClientHello :=
  (parseClientHello md5 rteMalloc data ⟨{}, mallocs⟩).conn.clientHello

/-- The fingerprint of an accepted message is the one of its numbers. -/
theorem ja3_of_accepted {md5 : List Char → Bytes} {rteMalloc : Nat → Bool} {data : Bytes}
    {mallocs : Nat} {ch : TlsClientHello}
    (accepted : acceptedHello md5 rteMalloc data mallocs = some ch) :
    ch.ja3 = (buildJa3String ch).fingerprint md5 := by
  rw [acceptedHello, parseClientHello] at accepted
  split at accepted
  next => cases accepted
  next =>
    split at accepted
    next =>
      split at accepted
      next => cases accepted
      next =>
        cases accepted
        rfl
    next => cases accepted

/-- The ClientHello of an accepted message is kept, whatever the connection held before. -/
theorem parseClientHello_of_accepted {md5 : List Char → Bytes} {rteMalloc : Nat → Bool}
    {data : Bytes} {st : TlsState} {ch : TlsClientHello}
    (accepted : acceptedHello md5 rteMalloc data st.mallocs = some ch) :
    (parseClientHello md5 rteMalloc data st).conn.clientHello = some ch := by
  rw [acceptedHello, parseClientHello] at accepted
  rw [parseClientHello]
  split at accepted
  next => cases accepted
  next long =>
    rw [if_neg long]
    split at accepted
    next granted =>
      rw [if_pos granted]
      split at accepted
      next => cases accepted
      next => exact accepted
    next => cases accepted

/-- The JA3 string of an accepted message is whole, and no write lands behind the buffer,
exactly if the numbers with their dashes and commas take less room than the buffer has. -/
theorem ja3_whole_iff {md5 : List Char → Bytes} {rteMalloc : Nat → Bool} {data : Bytes}
    {st : TlsState} {ch : TlsClientHello}
    (accepted : acceptedHello md5 rteMalloc data st.mallocs = some ch) :
    (parseClientHello md5 rteMalloc data st).conn.clientHello = some ch ∧
      (ch.ja3.string = ja3Text ch ∧ ch.ja3.overflow = false ↔
        ja3Room ch < TLS_MAX_JA3_STR) := by
  refine ⟨parseClientHello_of_accepted accepted, ?_⟩
  rw [ja3_of_accepted accepted]
  simp only [Ja3Buffer.fingerprint, buildJa3String_text]
  constructor
  · rintro ⟨whole, -⟩
    have short := congrArg List.length whole
    rw [List.length_take, length_ja3Text] at short
    simp only [TLS_MAX_JA3_STR] at short ⊢
    omega
  · intro fits
    refine ⟨List.take_of_length_le ?_, buildJa3String_overflow (Nat.le_of_lt fits)⟩
    rw [length_ja3Text]
    exact Nat.le_sub_one_of_lt fits

/-- A ClientHello of TLS 1.2 with a number of cipher suites, each 0xFFFF. -/
def helloWith (suites : Nat) : Bytes :=
  [3, 3] ++ List.replicate 32 0 ++ [0, UInt8.ofNat (suites / 128), UInt8.ofNat (2 * suites)] ++
    List.replicate (2 * suites) 255 ++ [1, 0]

theorem two_suites_whole : ∃ ch,
    acceptedHello (fun _ => []) (fun _ => true) (helloWith 2) 0 = some ch ∧
      ch.ja3.string = "771,65535-65535,,,".toList ∧ ch.ja3.overflow = false := by
  have isAccepted : ((acceptedHello (fun _ => []) (fun _ => true) (helloWith 2) 0).map
      fun ch => (ja3Text ch, ja3Room ch)) = some ("771,65535-65535,,,".toList, 18) := by
    decide +kernel
  obtain ⟨ch, accepted, same⟩ := Option.map_eq_some_iff.mp isAccepted
  obtain ⟨text, room⟩ := Prod.mk.inj same
  have whole := (@ja3_whole_iff (fun _ => []) (fun _ => true) (helloWith 2) ⟨{}, 0⟩ ch
    accepted).2.mpr (by rw [room]; decide)
  exact ⟨ch, accepted, by rw [whole.1, text], whole.2⟩

/-- With 128 cipher suites the text would take 774 bytes, and the last calls of `snprintf`
write behind the buffer. -/
theorem many_suites_overflow :
    ¬∀ (md5 : List Char → Bytes) (rteMalloc : Nat → Bool) (data : Bytes) (mallocs : Nat)
        (ch : TlsClientHello), acceptedHello md5 rteMalloc data mallocs = some ch →
      ch.ja3.string = ja3Text ch ∧ ch.ja3.overflow = false := by
  intro all
  have isAccepted : ((acceptedHello (fun _ => []) (fun _ => true) (helloWith 128) 0).map
      fun ch => ch.ja3.overflow) = some true := by
    decide +kernel
  obtain ⟨ch, accepted, overflows⟩ := Option.map_eq_some_iff.mp isAccepted
  have none := (all _ _ _ _ ch accepted).2
  rw [overflows] at none
  cases none

/-! ## Connections -/

/-- The digest that is kept of a ClientHello is the one of its JA3 string. -/
def KeepsDigest (md5 : List Char → Bytes) (conn : TlsConn) : Prop :=
  ∀ hello, conn.clientHello = some hello → hello.ja3.hash = md5 hello.ja3.string

section Connections

variable {md5 : List Char → Bytes} {rteMalloc : Nat → Bool} {direction : UInt8}
variable {st : TlsState}

theorem parseClientHello_keepsDigest (kept : KeepsDigest md5 st.conn) (data : Bytes) :
    KeepsDigest md5 (parseClientHello md5 rteMalloc data st).conn := by
  rw [parseClientHello]
  split
  next => exact kept
  next =>
    split
    next =>
      cases clientHelloFields data with
      | none => exact kept
      | some fields =>
          intro hello stored
          cases stored
          rfl
    next => exact kept

theorem parseServerHello_clientHello (data : Bytes) :
    (parseServerHello md5 rteMalloc data st).conn.clientHello = st.conn.clientHello := by
  rw [parseServerHello]
  split
  next => rfl
  next =>
    split
    next =>
      cases serverHelloFields data with
      | none => rfl
      | some fields => rfl
    next => rfl

theorem parseCertificate_clientHello (data : Bytes) :
    (parseCertificate rteMalloc data direction st).conn.clientHello = st.conn.clientHello := by
  simp only [parseCertificate]
  repeat' split
  all_goals rfl

theorem parseHandshake_keepsDigest (kept : KeepsDigest md5 st.conn) (data : Bytes) :
    KeepsDigest md5 (parseHandshake md5 rteMalloc data direction st).conn := by
  simp only [parseHandshake]
  repeat' split
  · exact kept
  · exact kept
  · exact parseClientHello_keepsDigest (by exact kept) _
  · rw [KeepsDigest, parseServerHello_clientHello]
    exact kept
  · rw [KeepsDigest, parseCertificate_clientHello]
    exact kept
  · exact kept
  · exact kept

theorem recordStep_keepsDigest (kept : KeepsDigest md5 st.conn) (record : Bytes) :
    KeepsDigest md5 (recordStep md5 rteMalloc direction st record).conn := by
  simp only [recordStep, parseTlsRecord, parseContent]
  repeat' split
  · exact kept
  · exact kept
  · exact parseHandshake_keepsDigest (by exact kept) _
  · exact kept
  · exact kept

theorem tlsParserParse_keepsDigest (kept : KeepsDigest md5 st.conn) (data : Bytes) :
    KeepsDigest md5 (tlsParserParse md5 rteMalloc st data direction).2.conn := by
  by_cases empty : data = []
  · rw [tlsParserParse, if_pos (by rw [empty]; rfl)]
    exact kept
  · rw [tlsParserParse_eq md5 rteMalloc direction st empty]
    exact List.foldlRecOn (motive := fun st : TlsState => KeepsDigest md5 st.conn) _ _ kept
      fun _ kept record _ => recordStep_keepsDigest kept record

/-- A new connection after calls of `tls_parser_parse`, each with its direction. -/
def parseCalls (md5 : List Char → Bytes) (rteMalloc : Nat → Bool)
    (calls : List (Bytes × UInt8)) : TlsState :=
  calls.foldl (fun st call => (tlsParserParse md5 rteMalloc st call.1 call.2).2) {}

/-- The digest is kept over every run. -/
theorem parseCalls_keepsDigest (calls : List (Bytes × UInt8)) :
    KeepsDigest md5 (parseCalls md5 rteMalloc calls).conn := by
  refine List.foldlRecOn (motive := fun st : TlsState => KeepsDigest md5 st.conn) _ _ ?_
    fun _ kept call _ => tlsParserParse_keepsDigest kept call.1
  intro hello absent
  cases absent

end Connections

end NetDefender.Tls
