import NetDefender.Tls.Records

/-!
# A ClientHello on the wire

A ClientHello as it is meant, and the bytes that it is sent as: fields of fixed length, and
vectors behind a length of one or two bytes, some of them inside others.  `parse_client_hello`
gets the message back from these bytes, up to the sizes of its tables.
-/

namespace NetDefender.Tls

open CString

/-! ## Numbers and vectors -/

/-- A number of two bytes. -/
def wordBytes (value : BitVec 16) : Bytes :=
  [UInt8.ofBitVec (value.extractLsb' 8 8), UInt8.ofBitVec (value.extractLsb' 0 8)]

/-- A vector behind a length of one byte. -/
def vector8 (bytes : Bytes) : Bytes := UInt8.ofNat bytes.length :: bytes

/-- A vector behind a length of two bytes. -/
def vector16 (bytes : Bytes) : Bytes := wordBytes (BitVec.ofNat 16 bytes.length) ++ bytes

/-! ## Messages as they are meant -/

/-- An extension. -/
inductive ExtensionText where
  | serverName (host : Bytes)
  | alpn (protocols : List Bytes)
  | other (type : BitVec 16) (data : Bytes)
  deriving DecidableEq, Repr

namespace ExtensionText

def type : ExtensionText → BitVec 16
  | serverName _ => TLS_EXT_SERVER_NAME
  | alpn _ => TLS_EXT_ALPN
  | other type _ => type

/-- The data: a list of one host name, a list of protocols, or anything. -/
def data : ExtensionText → Bytes
  | serverName host => vector16 (0 :: vector16 host)
  | alpn protocols => vector16 (protocols.flatMap vector8)
  | other _ data => data

def encode (ext : ExtensionText) : Bytes := wordBytes ext.type ++ vector16 ext.data

/-- The lengths can be encoded, and other extensions are of other types. -/
structure WellFormed (ext : ExtensionText) : Prop where
  short : ext.data.length < 2 ^ 16
  protocols : ∀ protocols, ext = alpn protocols → ∀ protocol ∈ protocols,
    protocol.length < 2 ^ 8
  apart : ∀ type data, ext = other type data →
    type ≠ TLS_EXT_SERVER_NAME ∧ type ≠ TLS_EXT_ALPN

def isServerName : ExtensionText → Bool
  | serverName _ => true
  | _ => false

def isAlpn : ExtensionText → Bool
  | alpn _ => true
  | _ => false

/-- What is stored of an extension. -/
def stored (ext : ExtensionText) : TlsExtension := ⟨ext.type, BitVec.ofNat 16 ext.data.length⟩

end ExtensionText

/-- A ClientHello.  Its extensions may be left out as a whole. -/
structure ClientHelloText where
  version : BitVec 16
  random : Bytes
  sessionId : Bytes
  cipherSuites : List (BitVec 16)
  compressionMethods : Bytes
  extensions : Option (List ExtensionText)
  random_length : random.length = 32
  session_short : sessionId.length ≤ 32
  suites_short : 2 * cipherSuites.length < 2 ^ 16
  methods_short : compressionMethods.length < 2 ^ 8
  block_short : ((extensions.getD []).flatMap ExtensionText.encode).length < 2 ^ 16
  few : (extensions.getD []).length ≤ TLS_MAX_EXTENSIONS
  well_formed : ∀ ext ∈ extensions.getD [], ext.WellFormed
  one_server_name : (extensions.getD []).countP ExtensionText.isServerName ≤ 1
  one_alpn : (extensions.getD []).countP ExtensionText.isAlpn ≤ 1

namespace ClientHelloText

/-- The extensions, which are none if they are left out. -/
def extensionList (hello : ClientHelloText) : List ExtensionText := hello.extensions.getD []

/-- The extensions as a vector, if they are there. -/
def block (hello : ClientHelloText) : Bytes :=
  hello.extensions.elim [] fun extensions => vector16 (extensions.flatMap ExtensionText.encode)

/-- The bytes of the message. -/
def encode (hello : ClientHelloText) : Bytes :=
  wordBytes hello.version ++ hello.random ++ vector8 hello.sessionId ++
    vector16 (hello.cipherSuites.flatMap wordBytes) ++ vector8 hello.compressionMethods ++
    hello.block

end ClientHelloText

section Vectors

variable {data rest bytes : Bytes} {p : Nat}

@[simp]
theorem length_wordBytes (value : BitVec 16) : (wordBytes value).length = 2 := rfl

@[simp]
theorem length_vector8 : (vector8 bytes).length = bytes.length + 1 := rfl

@[simp]
theorem length_vector16 : (vector16 bytes).length = bytes.length + 2 := by
  rw [vector16, List.length_append, length_wordBytes, Nat.add_comm]

theorem word_wordBytes (value : BitVec 16) : word (wordBytes value ++ rest) 0 = value := by
  simp only [word, wordBytes, List.cons_append, List.getD_cons_zero, List.getD_cons_succ,
    UInt8.toBitVec_ofBitVec]
  exact @BitVec.extractLsb'_append_extractLsb' 8 8 value

theorem word_drop (index : Nat) : word (data.drop p) index = word data (p + index) := by
  simp only [word, List.getD_eq_getElem?_getD, List.getElem?_drop, Nat.add_assoc]

/-- The length in front of a vector. -/
theorem word_vector16 (short : bytes.length < 2 ^ 16) :
    (word (vector16 bytes ++ rest) 0).toNat = bytes.length := by
  rw [vector16, List.append_assoc, word_wordBytes, BitVec.toNat_ofNat, Nat.mod_eq_of_lt short]

theorem drop_vector16 : (vector16 bytes ++ rest).drop 2 = bytes ++ rest := by
  rw [vector16, List.append_assoc]
  rfl

end Vectors

/-! ## The extensions of which the data are parsed -/

/-- Every allocation is granted. -/
abbrev granted : Nat → Bool := fun _ => true

/-- The host name of a list of one, if it fits. -/
def hostName (host : Bytes) : Option Bytes :=
  if 1 ≤ host.length ∧ host.length < TLS_MAX_SNI_LEN then some host else none

/-- The first protocol of a list, if it fits. -/
def firstProtocol : List Bytes → Option Bytes
  | [] => none
  | first :: _ =>
      if 1 ≤ first.length ∧ first.length < TLS_MAX_ALPN_LEN then some first else none

section Specific

variable {st : TlsClientHello × Nat}

theorem findHostName_one {host : Bytes} (short : host.length < 2 ^ 16) (fuel : Nat) :
    findHostName (fuel + 1) (0 :: vector16 host) = hostName host := by
  have size : (0 :: vector16 host).length = host.length + 3 := by simp
  have nameLen : (word (0 :: vector16 host) 1).toNat = host.length := by
    have behind := @word_drop (0 :: vector16 host) 1 0
    rw [List.drop_one, List.tail_cons] at behind
    rw [← behind, ← List.append_nil (vector16 host), word_vector16 short]
  have name : (0 :: vector16 host).drop 3 = host := rfl
  rw [findHostName, hostName, size, if_neg (by omega)]
  dsimp only
  rw [nameLen, name, if_neg (Nat.lt_irrefl _), List.getD_cons_zero, List.take_length,
    List.drop_length]
  by_cases fits : 1 ≤ host.length ∧ host.length < TLS_MAX_SNI_LEN
  · rw [if_pos ⟨rfl, fits⟩, if_pos fits]
  · rw [if_neg fun stored => fits stored.2, if_neg fits]
    cases fuel with
    | zero => rfl
    | succ fuel => rfl

/-- A list of one host name. -/
theorem parseSniExtension_one {host : Bytes} (short : host.length + 3 < 2 ^ 16) :
    (parseSniExtension granted (vector16 (0 :: vector16 host)) st).1 =
      { st.1 with sni := (hostName host).or st.1.sni } := by
  have size : (0 :: vector16 host).length = host.length + 3 := by simp
  have listLen : (word (vector16 (0 :: vector16 host)) 0).toNat = host.length + 3 := by
    rw [← List.append_nil (vector16 (0 :: vector16 host)), word_vector16 (by omega), size]
  have list : ((vector16 (0 :: vector16 host)).drop 2).take (host.length + 3) =
      0 :: vector16 host := by
    rw [← List.append_nil (vector16 (0 :: vector16 host)), drop_vector16, List.append_nil,
      ← size, List.take_length]
  rw [parseSniExtension, length_vector16, size, if_neg (by omega)]
  dsimp only
  rw [listLen, if_neg (by omega), list, findHostName_one (by omega)]
  cases hostName host with
  | none => rfl
  | some name => rfl

/-- A list of protocols. -/
theorem parseAlpnExtension_list {protocols : List Bytes}
    (short : (protocols.flatMap vector8).length < 2 ^ 16)
    (each : ∀ protocol ∈ protocols, protocol.length < 2 ^ 8) :
    (parseAlpnExtension granted (vector16 (protocols.flatMap vector8)) st).1 =
      { st.1 with alpn := (firstProtocol protocols).or st.1.alpn } := by
  have listLen : (word (vector16 (protocols.flatMap vector8)) 0).toNat =
      (protocols.flatMap vector8).length := by
    rw [← List.append_nil (vector16 _), word_vector16 short]
  have list : ((vector16 (protocols.flatMap vector8)).drop 2).take
      (protocols.flatMap vector8).length = protocols.flatMap vector8 := by
    rw [← List.append_nil (vector16 _), drop_vector16, List.append_nil, List.take_length]
  rw [parseAlpnExtension, length_vector16, if_neg (by omega)]
  dsimp only
  rw [listLen, if_neg (by omega), list]
  cases protocols with
  | nil => rfl
  | cons first others =>
      have length : (UInt8.ofNat first.length).toNat = first.length :=
        UInt8.toNat_ofNat_of_lt (each first List.mem_cons_self)
      rw [List.flatMap_cons, vector8, List.cons_append, firstProtocol]
      dsimp only
      rw [length]
      by_cases fits : 1 ≤ first.length ∧ first.length < TLS_MAX_ALPN_LEN
      · have stored : first.length > 0 ∧
            first.length ≤ (first ++ others.flatMap vector8).length ∧
              first.length < TLS_MAX_ALPN_LEN := by
          rw [List.length_append]
          exact ⟨fits.1, Nat.le_add_right _ _, fits.2⟩
        rw [if_pos stored, if_pos fits, List.take_left]
        rfl
      · rw [if_neg fun stored => fits ⟨stored.1, stored.2.2⟩, if_neg fits]
        rfl

end Specific

/-! ## The list of extensions -/

namespace ExtensionText

/-- The host name that an extension gives. -/
def host : ExtensionText → Option Bytes
  | serverName host => hostName host
  | _ => none

/-- The protocol that an extension gives. -/
def protocol : ExtensionText → Option Bytes
  | alpn protocols => firstProtocol protocols
  | _ => none

/-- A message with one more extension. -/
def storeIn (ch : TlsClientHello) (ext : ExtensionText) : TlsClientHello :=
  { ch with
    extensions := ch.extensions ++ [ext.stored]
    sni := ext.host.or ch.sni
    alpn := ext.protocol.or ch.alpn }

theorem length_encode (ext : ExtensionText) : ext.encode.length = ext.data.length + 4 := by
  rw [encode, List.length_append, length_wordBytes, length_vector16]
  omega

end ExtensionText

section Extensions

open ExtensionText

/-- The loop over extensions that were encoded, by induction on their list. -/
theorem parseExtensions_encode {σ : Type} (store : TlsExtension → Bytes → σ → σ)
    {extensions : List ExtensionText}
    (short : ∀ ext ∈ extensions, ext.data.length < 2 ^ 16) {fuel : Nat}
    (enough : (extensions.flatMap encode).length ≤ fuel) (st : σ) :
    parseExtensions store fuel (extensions.flatMap encode) st =
      extensions.foldl (fun st ext => store ext.stored ext.data st) st := by
  induction extensions generalizing fuel st with
  | nil => cases fuel <;> rfl
  | cons ext rest ih =>
      rw [List.flatMap_cons] at enough ⊢
      have size : (ext.encode ++ rest.flatMap encode).length =
          ext.data.length + 4 + (rest.flatMap encode).length := by
        rw [List.length_append, length_encode]
      obtain ⟨fuel, rfl⟩ : ∃ fewer, fuel = fewer + 1 :=
        Nat.exists_eq_add_one_of_ne_zero (by omega)
      have fits := short ext List.mem_cons_self
      have opened : ext.encode ++ rest.flatMap encode =
          wordBytes ext.type ++ (vector16 ext.data ++ rest.flatMap encode) :=
        List.append_assoc ..
      have type : word (ext.encode ++ rest.flatMap encode) 0 = ext.type := by
        rw [opened, word_wordBytes]
      have behind : (ext.encode ++ rest.flatMap encode).drop 2 =
          vector16 ext.data ++ rest.flatMap encode := by
        rw [opened]
        rfl
      have length : word (ext.encode ++ rest.flatMap encode) 2 =
          BitVec.ofNat 16 ext.data.length := by
        have here := @word_drop (ext.encode ++ rest.flatMap encode) 2 0
        rw [← here, behind, vector16, List.append_assoc, word_wordBytes]
      have contents : (ext.encode ++ rest.flatMap encode).drop 4 =
          ext.data ++ rest.flatMap encode := by
        rw [← List.drop_drop (i := 2) (j := 2), behind, drop_vector16]
      have toNat : (BitVec.ofNat 16 ext.data.length).toNat = ext.data.length := by
        rw [BitVec.toNat_ofNat, Nat.mod_eq_of_lt fits]
      rw [parseExtensions, size, if_neg (by omega)]
      dsimp only
      rw [type, length, toNat, contents, List.length_append, if_neg (by omega), List.drop_left,
        List.take_left, ih (fun other member => short other (List.mem_cons_of_mem _ member))
          (by omega)]
      rfl

/-- One extension that was encoded, while there is room in the table. -/
theorem storeClientExtension_stored {ext : ExtensionText} (formed : ext.WellFormed)
    {st : TlsClientHello × Nat} (room : st.1.extensions.length < TLS_MAX_EXTENSIONS) :
    (storeClientExtension granted ext.stored ext.data st).1 = storeIn st.1 ext := by
  rw [storeClientExtension, if_pos room]
  dsimp only
  cases ext with
  | serverName host =>
      have known : (serverName host).stored.type = TLS_EXT_SERVER_NAME := rfl
      have short := formed.short
      rw [data, length_vector16, List.length_cons, length_vector16] at short
      rw [if_pos known, data, parseSniExtension_one (by omega)]
      rfl
  | alpn protocols =>
      have unknown : ¬ (alpn protocols).stored.type = TLS_EXT_SERVER_NAME := by
        simp only [stored, type]
        decide
      have known : (alpn protocols).stored.type = TLS_EXT_ALPN := rfl
      have short := formed.short
      rw [data, length_vector16] at short
      rw [if_neg unknown, if_pos known, data,
        parseAlpnExtension_list (by omega) (formed.protocols protocols rfl)]
      rfl
  | other type data =>
      obtain ⟨notName, notAlpn⟩ := formed.apart type data rfl
      have first : ¬ (other type data).stored.type = TLS_EXT_SERVER_NAME := notName
      have second : ¬ (other type data).stored.type = TLS_EXT_ALPN := notAlpn
      rw [if_neg first, if_neg second]
      rfl

/-- The extensions that were encoded, if there is room for all of them, by induction on their
list. -/
theorem parseClientHelloExtensions_encode {extensions : List ExtensionText}
    (formed : ∀ ext ∈ extensions, ext.WellFormed) {st : TlsClientHello × Nat}
    (room : st.1.extensions.length + extensions.length ≤ TLS_MAX_EXTENSIONS) :
    (parseClientHelloExtensions granted (extensions.flatMap encode) st).1 =
      extensions.foldl storeIn st.1 := by
  rw [parseClientHelloExtensions, parseExtensions_encode _
    (fun ext member => (formed ext member).short) (Nat.le_refl _)]
  induction extensions generalizing st with
  | nil => rfl
  | cons ext rest ih =>
      rw [List.length_cons] at room
      have stored := storeClientExtension_stored (formed ext List.mem_cons_self)
        (by omega : st.1.extensions.length < TLS_MAX_EXTENSIONS)
      have more : (storeClientExtension granted ext.stored ext.data st).1.extensions.length =
          st.1.extensions.length + 1 := by
        rw [stored, storeIn, List.length_append, List.length_singleton]
      rw [List.foldl_cons, List.foldl_cons, ← stored]
      exact ih (fun other member => formed other (List.mem_cons_of_mem _ member)) (by omega)

/-- What a list of extensions leaves in a message. -/
theorem foldl_storeIn (extensions : List ExtensionText) (ch : TlsClientHello) :
    extensions.foldl storeIn ch =
      { ch with
        extensions := ch.extensions ++ extensions.map stored
        sni := extensions.foldl (fun sni ext => ext.host.or sni) ch.sni
        alpn := extensions.foldl (fun alpn ext => ext.protocol.or alpn) ch.alpn } := by
  induction extensions generalizing ch with
  | nil => simp
  | cons ext rest ih =>
      rw [List.foldl_cons, ih]
      simp [storeIn]

end Extensions

/-! ## At most one of a kind -/

section One

variable {α β : Type} {kind : α → Bool} {value : α → Option β}

theorem foldl_or_none {entries : List α} (absent : ∀ entry ∈ entries, value entry = none)
    (start : Option β) :
    entries.foldl (fun found entry => (value entry).or found) start = start := by
  induction entries generalizing start with
  | nil => rfl
  | cons entry rest ih =>
      rw [List.foldl_cons, absent entry List.mem_cons_self, Option.none_or]
      exact ih (fun other member => absent other (List.mem_cons_of_mem _ member)) start

/-- If at most one entry is of a kind, and only that kind has values, the last value is that
of the entry. -/
theorem foldl_or_one (only : ∀ entry, kind entry = false → value entry = none)
    {entries : List α} (one : entries.countP kind ≤ 1) {entry : α} (member : entry ∈ entries)
    (fits : kind entry = true) :
    entries.foldl (fun found entry => (value entry).or found) none = value entry := by
  induction entries with
  | nil => exact absurd member List.not_mem_nil
  | cons first rest ih =>
      rw [List.countP_cons] at one
      rw [List.foldl_cons, Option.or_none]
      cases matched : kind first with
      | true =>
          rw [if_pos matched] at one
          have absent : ∀ other ∈ rest, kind other = false := by
            have none : rest.countP kind = 0 := by omega
            simpa using List.countP_eq_zero.mp none
          rcases List.mem_cons.mp member with rfl | later
          · exact foldl_or_none (fun other later => only other (absent other later)) _
          · exact absurd ((absent entry later).symm.trans fits) (by decide)
      | false =>
          have later : entry ∈ rest := by
            rcases List.mem_cons.mp member with rfl | later
            · exact absurd (matched.symm.trans fits) (by decide)
            · exact later
          rw [only first matched]
          exact ih (by omega) later

end One

/-! ## The fields -/

theorem take_min_length {α : Type} (values : List α) (limit : Nat) :
    values.take (min values.length limit) = values.take limit := by
  rw [Nat.min_comm]
  exact List.take_eq_take_min.symm

section Fields

variable {data rest piece : Bytes} {p : Nat}

theorem getD_drop (index : Nat) (default : UInt8) :
    (data.drop p).getD index default = data.getD (p + index) default := by
  rw [List.getD_eq_getElem?_getD, List.getD_eq_getElem?_getD, List.getElem?_drop]

/-- The cursor behind a piece that stands at a place. -/
theorem drop_behind (stands : data.drop p = piece ++ rest) {size : Nat}
    (length : piece.length = size) : data.drop (p + size) = rest := by
  rw [← List.drop_drop, stands, ← length, List.drop_left]

theorem length_of_stands (stands : data.drop p = piece) (inside : p ≤ data.length) :
    data.length = p + piece.length := by
  rw [← stands, List.length_drop]
  omega

/-- A length of one byte, and the vector behind it. -/
theorem vector8_stands {bytes : Bytes} (short : bytes.length < 2 ^ 8)
    (stands : data.drop p = vector8 bytes ++ rest) :
    (data.getD p 0).toNat = bytes.length ∧ data.drop (p + 1) = bytes ++ rest := by
  constructor
  · rw [← Nat.add_zero p, ← getD_drop, stands]
    exact UInt8.toNat_ofNat_of_lt short
  · exact @drop_behind data (bytes ++ rest) [UInt8.ofNat bytes.length] p stands 1 rfl

/-- A length of two bytes, and the vector behind it. -/
theorem vector16_stands {bytes : Bytes} (short : bytes.length < 2 ^ 16)
    (stands : data.drop p = vector16 bytes ++ rest) :
    (word data p).toNat = bytes.length ∧ data.drop (p + 2) = bytes ++ rest := by
  constructor
  · rw [← Nat.add_zero p, ← word_drop, stands, word_vector16 short]
  · rw [← List.drop_drop, stands, drop_vector16]

@[simp]
theorem length_flatMap_wordBytes (values : List (BitVec 16)) :
    (values.flatMap wordBytes).length = 2 * values.length := by
  induction values with
  | nil => rfl
  | cons value values ih =>
      rw [List.flatMap_cons, List.length_append, ih, length_wordBytes, List.length_cons]
      omega

/-- Numbers that stand one after the other, by induction on how many are read. -/
theorem words_stand (count : Nat) {values : List (BitVec 16)} (enough : count ≤ values.length)
    (stands : data.drop p = values.flatMap wordBytes ++ rest) :
    ((List.range count).map fun i => word data (p + 2 * i)) = values.take count := by
  induction count generalizing p values with
  | zero => rfl
  | succ count ih =>
      cases values with
      | nil => exact absurd enough (Nat.not_succ_le_zero count)
      | cons value values =>
          rw [List.flatMap_cons, List.append_assoc] at stands
          have first : word data p = value := by
            rw [← Nat.add_zero p, ← word_drop, stands, word_wordBytes]
          have later := ih (Nat.le_of_succ_le_succ enough)
            (drop_behind stands (length_wordBytes value))
          rw [List.range_succ_eq_map, List.map_cons, List.map_map, List.take_succ_cons, ← later]
          refine congr (congrArg List.cons first) (List.map_congr_left fun i _ => ?_)
          rw [Function.comp_apply, Nat.mul_succ, Nat.add_assoc, Nat.add_comm 2]

namespace ClientHelloText

variable (hello : ClientHelloText)

/-- The extensions behind the other fields. -/
theorem extensionBlock_stands (inside : p ≤ data.length) (stands : data.drop p = hello.block) :
    extensionBlock data p = hello.extensionList.flatMap ExtensionText.encode := by
  have short := hello.block_short
  have length := length_of_stands stands inside
  rw [block] at stands length
  rw [extensionBlock, extensionList]
  cases extensions : hello.extensions with
  | none =>
      rw [extensions, Option.elim_none, List.length_nil] at length
      rw [if_neg (by omega)]
      rfl
  | some list =>
      rw [extensions] at stands length short
      rw [Option.elim_some, length_vector16] at length
      rw [Option.getD_some] at short ⊢
      rw [Option.elim_some, ← List.append_nil (vector16 _)] at stands
      obtain ⟨size, contents⟩ := vector16_stands short stands
      rw [if_pos (by omega)]
      dsimp only
      rw [size, if_pos (by omega), contents, List.append_nil, List.take_length]

theorem clientHelloFields_encode :
    clientHelloFields hello.encode =
      some
        ({ version := hello.version
           random := hello.random
           sessionId := hello.sessionId
           cipherSuites := hello.cipherSuites.take TLS_MAX_CIPHER_SUITES
           compressionMethods := hello.compressionMethods.take 16 },
          hello.extensionList.flatMap ExtensionText.encode) := by
  have sessionShort := hello.session_short
  have suitesShort := hello.suites_short
  have methodsShort := hello.methods_short
  have suitesSize := length_flatMap_wordBytes hello.cipherSuites
  -- the places of the fields, one behind the other
  have whole : hello.encode = (wordBytes hello.version ++ hello.random) ++
      (vector8 hello.sessionId ++ (vector16 (hello.cipherSuites.flatMap wordBytes) ++
        (vector8 hello.compressionMethods ++ hello.block))) := by
    simp only [encode, List.append_assoc]
  have frontSize : (wordBytes hello.version ++ hello.random).length = 34 := by
    rw [List.length_append, length_wordBytes, hello.random_length]
  have size : hello.encode.length = 34 + (hello.sessionId.length + 1 +
      (2 * hello.cipherSuites.length + 2 + (hello.compressionMethods.length + 1 +
        hello.block.length))) := by
    rw [whole, List.length_append, frontSize, List.length_append, List.length_append,
      List.length_append, length_vector8, length_vector16, length_vector8, suitesSize]
  have behindFront : hello.encode.drop 34 = vector8 hello.sessionId ++
      (vector16 (hello.cipherSuites.flatMap wordBytes) ++
        (vector8 hello.compressionMethods ++ hello.block)) := by
    rw [whole, List.drop_left' frontSize]
  obtain ⟨sessionLen, atSession⟩ := vector8_stands (by omega) behindFront
  have atSuitesLen := @drop_behind hello.encode _ hello.sessionId 35 atSession _ rfl
  obtain ⟨suitesLen, atSuites⟩ := vector16_stands (by omega) atSuitesLen
  have atMethodsLen := drop_behind atSuites suitesSize
  obtain ⟨methodsLen, atMethods⟩ := vector8_stands methodsShort atMethodsLen
  have atBlock := drop_behind atMethods rfl
  -- the fields at these places
  have version : word hello.encode 0 = hello.version := by
    rw [whole, List.append_assoc, word_wordBytes]
  have random : (hello.encode.drop 2).take 32 = hello.random := by
    obtain ⟨rest, behind⟩ : ∃ rest, hello.encode.drop 2 = hello.random ++ rest := by
      rw [whole, List.append_assoc]
      exact ⟨_, List.drop_left' (length_wordBytes hello.version)⟩
    rw [behind, ← hello.random_length, List.take_left]
  have suites := @words_stand hello.encode _ (35 + hello.sessionId.length + 2)
    (min hello.cipherSuites.length TLS_MAX_CIPHER_SUITES) hello.cipherSuites (Nat.min_le_left _ _)
    atSuites
  have sessionId : (hello.encode.drop 35).take hello.sessionId.length = hello.sessionId := by
    rw [show hello.encode.drop 35 = _ from atSession, List.take_left]
  have half : 2 * hello.cipherSuites.length / 2 = hello.cipherSuites.length := by omega
  rw [clientHelloFields, sessionIdLen, sessionLen, if_neg (by omega), Option.bind_eq_bind,
    Option.bind_some]
  dsimp only
  rw [suitesLen, suitesSize, size, if_neg (by omega), if_neg (by omega), if_neg (by omega),
    methodsLen, if_neg (by omega), version, random, sessionId, half, suites, atMethods,
    hello.extensionBlock_stands (by omega) atBlock, List.take_append_of_le_length
      (Nat.min_le_left _ _), take_min_length, take_min_length]

end ClientHelloText

end Fields

/-! ## The round trip -/

section RoundTrip

open ExtensionText

theorem ExtensionText.host_of_not {ext : ExtensionText} (not : ext.isServerName = false) :
    ext.host = none := by
  cases ext with
  | serverName host => cases not
  | alpn | other => rfl

theorem ExtensionText.protocol_of_not {ext : ExtensionText} (not : ext.isAlpn = false) :
    ext.protocol = none := by
  cases ext with
  | alpn protocols => cases not
  | serverName | other => rfl

theorem ClientHelloText.length_encode (hello : ClientHelloText) : 38 ≤ hello.encode.length := by
  have random := hello.random_length
  simp only [ClientHelloText.encode, List.length_append, length_wordBytes, length_vector8,
    length_vector16]
  omega

/-- What `parse_client_hello` keeps of a ClientHello, apart from its fingerprint. -/
def ClientHelloText.kept (hello : ClientHelloText) : TlsClientHello where
  version := hello.version
  random := hello.random
  sessionId := hello.sessionId
  cipherSuites := hello.cipherSuites.take TLS_MAX_CIPHER_SUITES
  compressionMethods := hello.compressionMethods.take 16
  extensions := hello.extensionList.map stored
  sni := hello.extensionList.foldl (fun sni ext => ext.host.or sni) none
  alpn := hello.extensionList.foldl (fun alpn ext => ext.protocol.or alpn) none

theorem parseClientHello_encode (md5 : List Char → Bytes) (hello : ClientHelloText)
    (st : TlsState) :
    ∃ ja3, (parseClientHello md5 granted hello.encode st).conn =
      { st.conn with
        clientHello := some { hello.kept with ja3 := ja3 }
        clientHelloSeen := true } := by
  have enough := hello.length_encode
  let front : TlsClientHello :=
    { version := hello.version
      random := hello.random
      sessionId := hello.sessionId
      cipherSuites := hello.cipherSuites.take TLS_MAX_CIPHER_SUITES
      compressionMethods := hello.compressionMethods.take 16 }
  have room : front.extensions.length + hello.extensionList.length ≤ TLS_MAX_EXTENSIONS := by
    rw [show front.extensions = [] from rfl, List.length_nil, Nat.zero_add]
    exact hello.few
  have parsed := @parseClientHelloExtensions_encode hello.extensionList hello.well_formed
    (front, st.mallocs + 1) room
  rw [foldl_storeIn] at parsed
  have all : (parseClientHelloExtensions granted (hello.extensionList.flatMap encode)
      (front, st.mallocs + 1)).1 = hello.kept := parsed
  rw [parseClientHello, if_neg (by omega), if_pos rfl, hello.clientHelloFields_encode]
  dsimp only
  rw [all]
  exact ⟨_, rfl⟩

/-- `parse_client_hello` gets every well-formed ClientHello back from its bytes: the fields, of
the cipher suites and the compression methods as many as its tables hold, the types and
lengths of the extensions, and the host name and the first protocol if they are short
enough. -/
theorem client_hello_round_trip (md5 : List Char → Bytes) (hello : ClientHelloText)
    (st : TlsState) :
    ∃ stored, (parseClientHello md5 granted hello.encode st).conn =
        { st.conn with clientHello := some stored, clientHelloSeen := true } ∧
      stored.version = hello.version ∧ stored.random = hello.random ∧
      stored.sessionId = hello.sessionId ∧
      stored.cipherSuites = hello.cipherSuites.take 128 ∧
      stored.compressionMethods = hello.compressionMethods.take 16 ∧
      stored.extensions = hello.extensionList.map (fun ext =>
        ⟨ext.type, BitVec.ofNat 16 ext.data.length⟩) ∧
      (∀ host, serverName host ∈ hello.extensionList →
        stored.sni = if 1 ≤ host.length ∧ host.length ≤ 255 then some host else none) ∧
      ((∀ host, serverName host ∉ hello.extensionList) → stored.sni = none) ∧
      (∀ first others, alpn (first :: others) ∈ hello.extensionList →
        stored.alpn = if 1 ≤ first.length ∧ first.length ≤ 31 then some first else none) ∧
      ((∀ first others, alpn (first :: others) ∉ hello.extensionList) →
        stored.alpn = none) := by
  obtain ⟨ja3, parsed⟩ := parseClientHello_encode md5 hello st
  refine ⟨{ hello.kept with ja3 := ja3 }, parsed, rfl, rfl, rfl, rfl, rfl, rfl, ?_, ?_, ?_, ?_⟩
  · intro host member
    refine (foldl_or_one (fun _ => host_of_not) hello.one_server_name member rfl).trans ?_
    simp only [ExtensionText.host, hostName, TLS_MAX_SNI_LEN, Nat.lt_succ_iff]
  · intro absent
    refine foldl_or_none (fun ext member => ?_) none
    cases ext with
    | serverName host => exact absurd member (absent host)
    | alpn | other => rfl
  · intro first others member
    refine (foldl_or_one (fun _ => protocol_of_not) hello.one_alpn member rfl).trans ?_
    simp only [ExtensionText.protocol, firstProtocol, TLS_MAX_ALPN_LEN, Nat.lt_succ_iff]
  · intro absent
    refine foldl_or_none (fun ext member => ?_) none
    cases ext with
    | alpn protocols =>
        cases protocols with
        | nil => rfl
        | cons first others => exact absurd member (absent first others)
    | serverName | other => rfl

/-- A host name without characters is not stored, and its extension is. -/
example :
    let hello : ClientHelloText :=
      { version := 0x0303
        random := List.replicate 32 7
        sessionId := [1, 2]
        cipherSuites := [0x1301, 0xC02F]
        compressionMethods := [0]
        extensions := some [serverName []]
        random_length := rfl
        session_short := by decide
        suites_short := by decide
        methods_short := by decide
        block_short := by decide
        few := by decide
        well_formed := List.forall_mem_singleton.mpr ⟨by decide, nofun, nofun⟩
        one_server_name := by decide
        one_alpn := by decide }
    hello.kept.sni = none ∧ hello.kept.extensions = [⟨0, 5⟩] := by
  decide

end RoundTrip

end NetDefender.Tls
