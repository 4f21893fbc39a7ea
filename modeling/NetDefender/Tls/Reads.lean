import NetDefender.Lib.Reading
import NetDefender.Tls.Parser

/-!
# Reads of the hello parsers

`parse_client_hello` and `parse_server_hello` of `tls_parser.c` with every read of the
message, which is the memory behind `data` together with a length.  Each of the lengths in
the message is compared with the length of the whole before the bytes behind it are read,
but for one: the session id is copied first.
-/

namespace NetDefender.Tls

open CString Logged Reading

/-- The big-endian number in two bytes. -/
def wordAt (memory : Nat → UInt8) (p : Nat) : Recording Nat (BitVec 16) := do
  let high ← readAt memory p
  let low ← readAt memory (p + 1)
  pure (high.toBitVec ++ low.toBitVec)

/-- `rte_malloc` and `memcpy`. -/
def copyAt (rteMalloc : Nat → Bool) (memory : Nat → UInt8) (mallocs p count : Nat) :
    Recording Nat (Option Bytes × Nat) :=
  if rteMalloc mallocs then do
    let bytes ← readMany memory p count
    pure (some bytes, mallocs + 1)
  else pure (none, mallocs + 1)

/-! ## Extensions -/

/-- The loop of `parse_sni_extension`: the place of the host name, and its length. -/
def sniLoop (memory : Nat → UInt8) : Nat → Nat → Nat → Recording Nat (Option (Nat × Nat))
  | 0, _, _ => pure none
  | fuel + 1, p, remaining =>
      if remaining < 3 then pure none
      else do
        let nameType ← readAt memory p
        let nameLen ← wordAt memory (p + 1)
        let p := p + 3
        let remaining := remaining - 3
        if nameLen.toNat > remaining then pure none
        else if nameType = 0 ∧ nameLen.toNat > 0 ∧ nameLen.toNat < TLS_MAX_SNI_LEN then
          pure (some (p, nameLen.toNat))
        else sniLoop memory fuel (p + nameLen.toNat) (remaining - nameLen.toNat)

/-- `parse_sni_extension`. -/
def readSniExtension (rteMalloc : Nat → Bool) (memory : Nat → UInt8) (data len : Nat)
    (st : TlsClientHello × Nat) : Recording Nat (TlsClientHello × Nat) :=
  if len < 5 then pure st
  else do
    let listLen ← wordAt memory data
    if listLen.toNat + 2 > len then pure st
    else do
      match ← sniLoop memory listLen.toNat (data + 2) listLen.toNat with
      | none => pure st
      | some (p, nameLen) => do
          let (sni, mallocs) ← copyAt rteMalloc memory st.2 p nameLen
          pure ({ st.1 with sni }, mallocs)

/-- `parse_alpn_extension`. -/
def readAlpnExtension (rteMalloc : Nat → Bool) (memory : Nat → UInt8) (data len : Nat)
    (st : TlsClientHello × Nat) : Recording Nat (TlsClientHello × Nat) :=
  if len < 2 then pure st
  else do
    let listLen ← wordAt memory data
    if listLen.toNat + 2 > len then pure st
    else if listLen.toNat ≥ 1 then do
      let protoLen ← readAt memory (data + 2)
      if protoLen.toNat > 0 ∧ protoLen.toNat ≤ listLen.toNat - 1 ∧
          protoLen.toNat < TLS_MAX_ALPN_LEN then do
        let (alpn, mallocs) ← copyAt rteMalloc memory st.2 (data + 3) protoLen.toNat
        pure ({ st.1 with alpn }, mallocs)
      else pure st
    else pure st

/-- The loop over the extensions of a hello message. -/
def readExtensions {σ : Type} (memory : Nat → UInt8)
    (store : TlsExtension → Nat → σ → Recording Nat σ) :
    Nat → Nat → Nat → σ → Recording Nat σ
  | 0, _, _, st => pure st
  | fuel + 1, p, remaining, st =>
      if remaining < 4 then pure st
      else do
        let extType ← wordAt memory p
        let extLen ← wordAt memory (p + 2)
        let p := p + 4
        let remaining := remaining - 4
        if extLen.toNat > remaining then pure st
        else do
          let st ← store ⟨extType, extLen⟩ p st
          readExtensions memory store fuel (p + extLen.toNat) (remaining - extLen.toNat) st

/-- The extensions of which the data are parsed. -/
def readSpecific (rteMalloc : Nat → Bool) (memory : Nat → UInt8) (ext : TlsExtension)
    (p : Nat) (st : TlsClientHello × Nat) : Recording Nat (TlsClientHello × Nat) :=
  if ext.type = TLS_EXT_SERVER_NAME then
    readSniExtension rteMalloc memory p ext.length.toNat st
  else if ext.type = TLS_EXT_ALPN then
    readAlpnExtension rteMalloc memory p ext.length.toNat st
  else pure st

/-- What `parse_client_hello_extensions` does with one extension. -/
def readClientExtension (rteMalloc : Nat → Bool) (memory : Nat → UInt8) (ext : TlsExtension)
    (p : Nat) (st : TlsClientHello × Nat) : Recording Nat (TlsClientHello × Nat) :=
  if st.1.extensions.length < TLS_MAX_EXTENSIONS then do
    let (ch, mallocs) ← readSpecific rteMalloc memory ext p st
    pure ({ ch with extensions := ch.extensions ++ [ext] }, mallocs)
  else pure st

/-- `parse_client_hello_extensions`. -/
def readClientHelloExtensions (rteMalloc : Nat → Bool) (memory : Nat → UInt8) (data len : Nat)
    (st : TlsClientHello × Nat) : Recording Nat (TlsClientHello × Nat) :=
  readExtensions memory (readClientExtension rteMalloc memory) len data len st

/-- `parse_server_hello_extensions`. -/
def readServerHelloExtensions (memory : Nat → UInt8) (data len : Nat) (sh : TlsServerHello) :
    Recording Nat TlsServerHello :=
  readExtensions memory (fun ext _ sh => pure (storeServerExtension ext [] sh)) len data len sh

/-! ## Hello messages -/

/-- The front of a hello message: the version, the random bytes and the session id, with the
place behind it. -/
def readFront (memory : Nat → UInt8) :
    Recording Nat (Option (BitVec 16 × Bytes × Bytes × Nat)) := do
  let version ← wordAt memory 0
  let random ← readMany memory 2 32
  let sessionIdLen ← readAt memory 34
  if sessionIdLen.toNat > 32 then pure none
  else do
    let sessionId ← readMany memory 35 sessionIdLen.toNat
    pure (some (version, random, sessionId, 35 + sessionIdLen.toNat))

/-- The cipher suites that are stored. -/
def readWords (memory : Nat → UInt8) : Nat → Nat → Recording Nat (List (BitVec 16))
  | _, 0 => pure []
  | p, count + 1 => do
      let first ← wordAt memory p
      let rest ← readWords memory (p + 2) count
      pure (first :: rest)

/-- Where the extensions of a hello message start, and their length, if they are there as a
whole. -/
def readBlock (memory : Nat → UInt8) (len p : Nat) : Recording Nat (Option (Nat × Nat)) :=
  if p + 2 ≤ len then do
    let extensionsLen ← wordAt memory p
    if p + 2 + extensionsLen.toNat ≤ len then pure (some (p + 2, extensionsLen.toNat))
    else pure none
  else pure none

/-- The fields of a ClientHello in front of its extensions, and where the extensions are. -/
def readClientHelloFields (memory : Nat → UInt8) (len : Nat) :
    Recording Nat (Option (TlsClientHello × Option (Nat × Nat))) := do
  match ← readFront memory with
  | none => pure none
  | some (version, random, sessionId, p) =>
      if p + 2 > len then pure none
      else do
        let cipherSuitesLen ← wordAt memory p
        let p := p + 2
        if cipherSuitesLen.toNat % 2 ≠ 0 ∨ p + cipherSuitesLen.toNat > len then pure none
        else do
          let cipherSuites ← readWords memory p
            (min (cipherSuitesLen.toNat / 2) TLS_MAX_CIPHER_SUITES)
          let p := p + cipherSuitesLen.toNat
          if p + 1 > len then pure none
          else do
            let compressionLen ← readAt memory p
            let p := p + 1
            if p + compressionLen.toNat > len then pure none
            else do
              let compressionMethods ← readMany memory p (min compressionLen.toNat 16)
              let block ← readBlock memory len (p + compressionLen.toNat)
              pure (some
                ({ version, random, sessionId, cipherSuites, compressionMethods }, block))

/-- `parse_client_hello`. -/
def readClientHello (md5 : List Char → Bytes) (rteMalloc : Nat → Bool) (memory : Nat → UInt8)
    (len : Nat) (st : TlsState) : Recording Nat TlsState :=
  if len < 38 then pure st
  else if rteMalloc st.mallocs then do
    match ← readClientHelloFields memory len with
    | none => pure { st with mallocs := st.mallocs + 1 }
    | some (ch, block) => do
        let (ch, mallocs) ←
          match block with
          | none => pure (ch, st.mallocs + 1)
          | some (p, extensionsLen) =>
              readClientHelloExtensions rteMalloc memory p extensionsLen (ch, st.mallocs + 1)
        let ch := { ch with ja3 := (buildJa3String ch).fingerprint md5 }
        pure
          { conn := { st.conn with clientHello := some ch, clientHelloSeen := true }
            mallocs }
  else pure { st with mallocs := st.mallocs + 1 }

/-- The fields of a ServerHello in front of its extensions, and where the extensions are. -/
def readServerHelloFields (memory : Nat → UInt8) (len : Nat) :
    Recording Nat (Option (TlsServerHello × Option (Nat × Nat))) := do
  match ← readFront memory with
  | none => pure none
  | some (version, random, sessionId, p) =>
      if p + 2 > len then pure none
      else do
        let cipherSuite ← wordAt memory p
        let p := p + 2
        if p + 1 > len then pure none
        else do
          let compressionMethod ← readAt memory p
          let block ← readBlock memory len (p + 1)
          pure (some
            ({ version, random, sessionId, cipherSuite
               cipherSuiteName := tlsCipherSuiteToString cipherSuite
               compressionMethod }, block))

/-- `parse_server_hello`. -/
def readServerHello (md5 : List Char → Bytes) (rteMalloc : Nat → Bool) (memory : Nat → UInt8)
    (len : Nat) (st : TlsState) : Recording Nat TlsState :=
  if len < 38 then pure st
  else if rteMalloc st.mallocs then do
    match ← readServerHelloFields memory len with
    | none => pure { st with mallocs := st.mallocs + 1 }
    | some (sh, block) => do
        let sh ←
          match block with
          | none => pure sh
          | some (p, extensionsLen) => readServerHelloExtensions memory p extensionsLen sh
        let sh := { sh with ja3s := (buildJa3sString sh).fingerprint md5 }
        pure
          { conn :=
              { st.conn with
                serverHello := some sh
                serverHelloSeen := true
                negotiatedVersion := sh.version
                negotiatedCipher := sh.cipherSuite
                weakCipher := tlsIsWeakCipher sh.cipherSuite || st.conn.weakCipher
                versionDowngrade := downgraded st.conn sh || st.conn.versionDowngrade }
            mallocs := st.mallocs + 1 }
  else pure { st with mallocs := st.mallocs + 1 }

/-! ## The parsers without their reads -/

section Values

variable {rteMalloc : Nat → Bool} {memory : Nat → UInt8} {p len : Nat}

theorem value_wordAt {index : Nat} (inside : index + 2 ≤ len) :
    value (wordAt memory (p + index)) = word (stretch memory p len) index := by
  rw [word, getD_stretch (by omega), getD_stretch (by omega)]
  rfl

theorem value_wordAt_zero (inside : 2 ≤ len) :
    value (wordAt memory p) = word (stretch memory p len) 0 := by
  rw [word, getD_stretch (by omega), getD_stretch (by omega)]
  rfl

theorem value_wordAt_whole (inside : p + 2 ≤ len) :
    value (wordAt memory p) = word (stretch memory 0 len) p := by
  rw [word, getD_stretch (by omega), getD_stretch (by omega), Nat.zero_add, Nat.zero_add]
  rfl

theorem value_copyAt (mallocs count : Nat) :
    value (copyAt rteMalloc memory mallocs p count) =
      copyText rteMalloc mallocs (stretch memory p count) := by
  rw [copyAt, copyText, value_ite, value_bind, value_readMany]
  split <;> rfl

/-- The loop over the names, by induction on its turns. -/
theorem value_sniLoop (fuel remaining : Nat) :
    (value (sniLoop memory fuel p remaining)).map (fun (place, count) =>
      stretch memory place count) = findHostName fuel (stretch memory p remaining) := by
  induction fuel generalizing p remaining with
  | zero => rfl
  | succ fuel ih =>
      rw [sniLoop, findHostName, value_ite, length_stretch]
      by_cases few : remaining < 3
      · rw [if_pos few, if_pos few]
        rfl
      · have nameType : (stretch memory p remaining).getD 0 0 = memory p := by
          rw [getD_stretch (by omega), Nat.add_zero]
        have enough : 1 + 2 ≤ remaining := by omega
        rw [if_neg few, if_neg few, nameType, drop_stretch]
        simp only [value_bind, value_readAt, value_ite, value_wordAt enough, value_pure,
          apply_ite (Option.map _), Option.map_none, Option.map_some, length_stretch, ih]
        split
        next => rfl
        next inside =>
          rw [take_stretch (Nat.le_of_not_gt inside), drop_stretch]

theorem value_readSniExtension (st : TlsClientHello × Nat) :
    value (readSniExtension rteMalloc memory p len st) =
      parseSniExtension rteMalloc (stretch memory p len) st := by
  rw [readSniExtension, parseSniExtension, value_ite, length_stretch]
  split
  next => rfl
  next enough =>
    have enough : 2 ≤ len := by omega
    simp only [value_bind, value_wordAt_zero enough, value_ite, value_pure, drop_stretch]
    generalize (word (stretch memory p len) 0).toNat = size
    split
    next => rfl
    next inside =>
      have within : size ≤ len - 2 := by omega
      rw [take_stretch within, ← value_sniLoop]
      cases value (sniLoop memory size (p + 2) size) with
      | none => rfl
      | some place =>
          simp only [Option.map_some, value_bind, value_copyAt, value_pure]

theorem value_readAlpnExtension (st : TlsClientHello × Nat) :
    value (readAlpnExtension rteMalloc memory p len st) =
      parseAlpnExtension rteMalloc (stretch memory p len) st := by
  rw [readAlpnExtension, parseAlpnExtension, value_ite, length_stretch]
  split
  next => rfl
  next enough =>
    have enough : 2 ≤ len := Nat.le_of_not_lt enough
    rw [value_bind, value_wordAt_zero enough, value_ite, drop_stretch]
    dsimp only
    generalize (word (stretch memory p len) 0).toNat = size
    split
    next => rfl
    next inside =>
      have within : size ≤ len - 2 := by omega
      rw [take_stretch within]
      cases size with
      | zero => rfl
      | succ rest =>
          rw [stretch_succ, if_pos (Nat.le_add_left 1 rest), Nat.add_sub_cancel, value_bind,
            value_readAt, value_ite]
          dsimp only
          rw [length_stretch]
          split
          next stored =>
            rw [value_bind, value_copyAt, take_stretch stored.2.1]
            rfl
          next => rfl

/-- The loop over the extensions, by induction on its turns. -/
theorem value_readExtensions {σ : Type} {store : TlsExtension → Bytes → σ → σ}
    {reads : TlsExtension → Nat → σ → Recording Nat σ}
    (each : ∀ ext place st, value (reads ext place st) =
      store ext (stretch memory place ext.length.toNat) st) (fuel : Nat) (st : σ) :
    value (readExtensions memory reads fuel p len st) =
      parseExtensions store fuel (stretch memory p len) st := by
  induction fuel generalizing p len st with
  | zero => rfl
  | succ fuel ih =>
      rw [readExtensions, parseExtensions, value_ite, length_stretch]
      split
      next => rfl
      next enough =>
        have type : 2 ≤ len := by omega
        have length : 2 + 2 ≤ len := by omega
        rw [value_bind, value_wordAt_zero type, value_bind, value_wordAt length, value_ite,
          drop_stretch]
        dsimp only
        rw [length_stretch]
        split
        next => rfl
        next inside =>
          rw [value_bind, each, ih, drop_stretch, take_stretch (Nat.le_of_not_gt inside)]

theorem value_readClientHelloExtensions (st : TlsClientHello × Nat) :
    value (readClientHelloExtensions rteMalloc memory p len st) =
      parseClientHelloExtensions rteMalloc (stretch memory p len) st := by
  have each : ∀ ext place st, value (readClientExtension rteMalloc memory ext place st) =
      storeClientExtension rteMalloc ext (stretch memory place ext.length.toNat) st := by
    intro ext place st
    rw [readClientExtension, storeClientExtension, value_ite, value_bind, readSpecific, value_ite,
      value_ite, value_readSniExtension, value_readAlpnExtension]
    rfl
  rw [readClientHelloExtensions, parseClientHelloExtensions, value_readExtensions each,
    length_stretch]

theorem value_readServerHelloExtensions (sh : TlsServerHello) :
    value (readServerHelloExtensions memory p len sh) =
      parseServerHelloExtensions (stretch memory p len) sh := by
  have each : ∀ ext place (sh : TlsServerHello),
      value (pure (storeServerExtension ext [] sh) : Recording Nat TlsServerHello) =
        storeServerExtension ext (stretch memory place ext.length.toNat) sh :=
    fun _ _ _ => rfl
  rw [readServerHelloExtensions, parseServerHelloExtensions, value_readExtensions each,
    length_stretch]

theorem value_readWords (count : Nat) {start : Nat} (inside : start + 2 * count ≤ len) :
    value (readWords memory (p + start) count) =
      (List.range count).map fun i => word (stretch memory p len) (start + 2 * i) := by
  induction count generalizing start with
  | zero => rfl
  | succ count ih =>
      have first : start + 2 ≤ len := by omega
      have later := @ih (start + 2) (by omega)
      simp only [readWords, value_bind, value_wordAt first, value_pure]
      rw [Nat.add_assoc, later, List.range_succ_eq_map, List.map_cons, List.map_map]
      refine congrArg _ (List.map_congr_left fun i _ => ?_)
      rw [Function.comp_apply, Nat.mul_succ, Nat.add_assoc, Nat.add_comm 2]

theorem value_readBlock :
    ((value (readBlock memory len p)).elim [] fun (place, size) => stretch memory place size) =
      extensionBlock (stretch memory 0 len) p := by
  rw [readBlock, extensionBlock, value_ite, length_stretch]
  split
  next enough =>
    rw [value_bind, value_wordAt_whole enough, value_ite]
    dsimp only
    split
    next inside =>
      rw [take_drop_stretch inside]
      rfl
    next => rfl
  next => rfl

/-- The front of a message whose session id is there as a whole. -/
theorem value_readFront (enough : 38 ≤ len) :
    value (readFront memory) =
      (sessionIdLen (stretch memory 0 len)).map fun size =>
        (word (stretch memory 0 len) 0, ((stretch memory 0 len).drop 2).take 32,
          stretch memory 35 size, 35 + size) := by
  have size : (stretch memory 0 len).getD 34 0 = memory 34 := by
    rw [getD_stretch (by omega), Nat.zero_add]
  have version : value (wordAt memory 0) = word (stretch memory 0 len) 0 :=
    value_wordAt_zero (by omega)
  have random : ((stretch memory 0 len).drop 2).take 32 = stretch memory 2 32 :=
    take_drop_stretch (by omega)
  rw [sessionIdLen, size, random, readFront, value_bind, version, value_bind, value_readMany,
    value_bind, value_readAt, value_ite, value_bind, value_readMany]
  split <;> rfl

/-- The places of the extensions stand for their bytes. -/
def withBlock {α : Type} (memory : Nat → UInt8) (fields : α × Option (Nat × Nat)) : α × Bytes :=
  (fields.1, fields.2.elim [] fun (place, size) => stretch memory place size)

theorem value_readClientHelloFields (enough : 38 ≤ len) :
    (value (readClientHelloFields memory len)).map (withBlock memory) =
      clientHelloFields (stretch memory 0 len) := by
  rw [readClientHelloFields, clientHelloFields, value_bind, value_readFront enough]
  cases sessionIdLen (stretch memory 0 len) with
  | none => rfl
  | some size =>
      rw [Option.bind_eq_bind, Option.bind_some, Option.map_some]
      dsimp only
      rw [length_stretch, value_ite]
      split
      next => rfl
      next suites =>
        have suites : 35 + size + 2 ≤ len := by omega
        rw [value_bind, value_wordAt_whole suites, value_ite]
        generalize (word (stretch memory 0 len) (35 + size)).toNat = suitesLen
        split
        next => rfl
        next valid =>
          have whole : 35 + size + 2 + suitesLen ≤ len := by omega
          have stored := @value_readWords memory 0 len
            (min (suitesLen / 2) TLS_MAX_CIPHER_SUITES) (35 + size + 2) (by omega)
          rw [Nat.zero_add] at stored
          rw [value_bind, stored, value_ite]
          split
          next => rfl
          next methods =>
            have first : (stretch memory 0 len).getD (35 + size + 2 + suitesLen) 0 =
                memory (35 + size + 2 + suitesLen) := by
              rw [getD_stretch (by omega), Nat.zero_add]
            rw [value_bind, value_readAt, value_ite, first]
            generalize (memory (35 + size + 2 + suitesLen)).toNat = methodsLen
            split
            next => rfl
            next inside =>
              have methods : 35 + size + 2 + suitesLen + 1 + min methodsLen 16 ≤ len := by
                omega
              have sessionId : 35 + size ≤ len := by omega
              rw [value_bind, value_readMany, value_bind, ← value_readBlock,
                take_drop_stretch methods, take_drop_stretch sessionId]
              rfl

theorem value_readServerHelloFields (enough : 38 ≤ len) :
    (value (readServerHelloFields memory len)).map (withBlock memory) =
      serverHelloFields (stretch memory 0 len) := by
  rw [readServerHelloFields, serverHelloFields, value_bind, value_readFront enough]
  cases sessionIdLen (stretch memory 0 len) with
  | none => rfl
  | some size =>
      rw [Option.bind_eq_bind, Option.bind_some, Option.map_some]
      dsimp only
      rw [length_stretch, value_ite]
      split
      next => rfl
      next suite =>
        have suite : 35 + size + 2 ≤ len := by omega
        rw [value_bind, value_wordAt_whole suite, value_ite]
        split
        next => rfl
        next method =>
          have first : (stretch memory 0 len).getD (35 + size + 2) 0 =
              memory (35 + size + 2) := by
            rw [getD_stretch (by omega), Nat.zero_add]
          have sessionId : 35 + size ≤ len := by omega
          rw [value_bind, value_readAt, first, value_bind, ← value_readBlock,
            take_drop_stretch sessionId]
          rfl

/-- The reads belong to `parse_client_hello`: it does the same with the bytes of the
message. -/
theorem value_readClientHello (md5 : List Char → Bytes) (st : TlsState) :
    value (readClientHello md5 rteMalloc memory len st) =
      parseClientHello md5 rteMalloc (stretch memory 0 len) st := by
  rw [readClientHello, parseClientHello, value_ite, length_stretch]
  split
  next => rfl
  next enough =>
    rw [value_ite, ← value_readClientHelloFields (Nat.le_of_not_lt enough), value_bind]
    split
    next =>
      cases value (readClientHelloFields memory len) with
      | none => rfl
      | some fields =>
          obtain ⟨ch, block⟩ := fields
          cases block with
          | none => rfl
          | some place =>
              rw [Option.map_some]
              dsimp only [withBlock, Option.elim_some]
              rw [value_bind, value_readClientHelloExtensions]
              rfl
    next => rfl

/-- The reads belong to `parse_server_hello`. -/
theorem value_readServerHello (md5 : List Char → Bytes) (st : TlsState) :
    value (readServerHello md5 rteMalloc memory len st) =
      parseServerHello md5 rteMalloc (stretch memory 0 len) st := by
  rw [readServerHello, parseServerHello, value_ite, length_stretch]
  split
  next => rfl
  next enough =>
    rw [value_ite, ← value_readServerHelloFields (Nat.le_of_not_lt enough), value_bind]
    split
    next =>
      cases value (readServerHelloFields memory len) with
      | none => rfl
      | some fields =>
          obtain ⟨sh, block⟩ := fields
          cases block with
          | none => rfl
          | some place =>
              rw [Option.map_some]
              dsimp only [withBlock, Option.elim_some]
              rw [value_bind, value_readServerHelloExtensions]
              rfl
    next => rfl

end Values

/-! ## Reads inside the message -/

section Below

variable {rteMalloc : Nat → Bool} {memory : Nat → UInt8} {p len bound : Nat}

theorem wordAt_below (inside : p + 2 ≤ bound) : Below bound (wordAt memory p) :=
  .bind (readAt_below_iff.mpr (by omega))
    (.bind (readAt_below_iff.mpr (by omega)) (.pure _))

theorem copyAt_below {mallocs count : Nat} (inside : p + count ≤ bound) :
    Below bound (copyAt rteMalloc memory mallocs p count) :=
  .ite (fun _ => .bind (readMany_below inside) (.pure _)) fun _ => .pure _

/-- The loop over the names stays in the list, by induction on its turns. -/
theorem sniLoop_yields (fuel : Nat) {remaining : Nat} (inside : p + remaining ≤ bound) :
    Yields bound (Within bound) (sniLoop memory fuel p remaining) := by
  induction fuel generalizing p remaining with
  | zero => exact .pure trivial
  | succ fuel ih =>
      refine .ite (fun _ => .pure trivial) fun enough => ?_
      refine .bind (readAt_below_iff.mpr (by omega)) (.bind (wordAt_below (by omega)) ?_)
      refine .ite (fun _ => .pure trivial) fun fits => .ite (fun _ => .pure ?_) fun _ => ih ?_
      · exact (by omega : p + 3 + (value (wordAt memory (p + 1))).toNat ≤ bound)
      · omega

theorem readSniExtension_below {st : TlsClientHello × Nat} (inside : p + len ≤ bound) :
    Below bound (readSniExtension rteMalloc memory p len st) := by
  refine .ite (fun _ => .pure _) fun enough => .bind (wordAt_below (by omega)) ?_
  refine .ite (fun _ => .pure _) fun fits => ?_
  have names : Yields bound (Within bound) (sniLoop memory (value (wordAt memory p)).toNat (p + 2)
      (value (wordAt memory p)).toNat) := sniLoop_yields _ (by omega)
  refine .bind names.below ?_
  have within := names.yields
  split
  next => exact .pure _
  next place count found =>
    rw [found] at within
    exact .bind (copyAt_below within) (.pure _)

theorem readAlpnExtension_below {st : TlsClientHello × Nat} (inside : p + len ≤ bound) :
    Below bound (readAlpnExtension rteMalloc memory p len st) := by
  refine .ite (fun _ => .pure _) fun enough => .bind (wordAt_below (by omega)) ?_
  refine .ite (fun _ => .pure _) fun fits => .ite (fun some => ?_) fun _ => .pure _
  refine .bind (readAt_below_iff.mpr (by omega)) (.ite (fun stored => ?_) fun _ => .pure _)
  exact .bind (copyAt_below (by omega)) (.pure _)

/-- The loop over the extensions stays in them, by induction on its turns. -/
theorem readExtensions_below {σ : Type} {reads : TlsExtension → Nat → σ → Recording Nat σ}
    (each : ∀ (ext : TlsExtension) place st, place + ext.length.toNat ≤ bound →
      Below bound (reads ext place st)) (fuel : Nat) {st : σ} (inside : p + len ≤ bound) :
    Below bound (readExtensions memory reads fuel p len st) := by
  induction fuel generalizing p len st with
  | zero => exact .pure _
  | succ fuel ih =>
      refine .ite (fun _ => .pure _) fun enough => ?_
      refine .bind (wordAt_below (by omega)) (.bind (wordAt_below (by omega)) ?_)
      refine .ite (fun _ => .pure _) fun fits => .bind (each _ _ _ ?_) (ih ?_)
      · dsimp only
        omega
      · omega

theorem readClientHelloExtensions_below {st : TlsClientHello × Nat}
    (inside : p + len ≤ bound) :
    Below bound (readClientHelloExtensions rteMalloc memory p len st) := by
  refine readExtensions_below (fun ext place st within => ?_) len inside
  refine .ite (fun _ => .bind (.ite (fun _ => readSniExtension_below within) fun _ =>
    .ite (fun _ => readAlpnExtension_below within) fun _ => .pure _) (.pure _)) fun _ => .pure _

theorem readServerHelloExtensions_below {sh : TlsServerHello} (inside : p + len ≤ bound) :
    Below bound (readServerHelloExtensions memory p len sh) :=
  readExtensions_below (fun _ _ _ _ => .pure _) len inside

theorem readWords_below (count : Nat) (inside : p + 2 * count ≤ bound) :
    Below bound (readWords memory p count) := by
  induction count generalizing p with
  | zero => exact .pure _
  | succ count ih =>
      exact .bind (wordAt_below (by omega)) (.bind (ih (by omega)) (.pure _))

theorem readBlock_yields : Yields len (Within len) (readBlock memory len p) := by
  refine .ite (fun enough => .bind (wordAt_below enough) ?_) fun _ => .pure trivial
  exact .ite (fun fits => .pure fits) fun _ => .pure trivial

/-- The session id is there as a whole, if its length is one that is accepted. -/
def SessionIdFits (memory : Nat → UInt8) (len : Nat) : Prop :=
  (memory 34).toNat ≤ 32 → 35 + (memory 34).toNat ≤ len

/-- The fields of a message were found, and its extensions end inside it. -/
def BlockWithin {α : Type} (len : Nat) : Option (α × Option (Nat × Nat)) → Prop
  | none => True
  | some (_, block) => Within len block

/-- Only the session id is read before its length is compared with that of the message. -/
theorem readFront_below_iff (enough : 38 ≤ len) :
    Below len (readFront memory) ↔ SessionIdFits memory len := by
  constructor
  · intro below valid
    have rest := below.next.next.next
    rw [value_readAt, if_neg (Nat.not_lt.mpr valid)] at rest
    have copied := rest.first
    by_cases some : 0 < (memory 34).toNat
    · exact (readMany_below_iff some).mp copied
    · omega
  · intro fits
    refine .bind (wordAt_below (by omega)) (.bind (readMany_below (by omega)) ?_)
    refine .bind (readAt_below_iff.mpr (by omega)) (.ite (fun _ => .pure _) fun valid => ?_)
    exact .bind (readMany_below (fits (Nat.le_of_not_gt valid))) (.pure _)

theorem readClientHelloFields_yields (enough : 38 ≤ len) (fits : SessionIdFits memory len) :
    Yields len (BlockWithin len) (readClientHelloFields memory len) := by
  refine .bind ((readFront_below_iff enough).mpr fits) ?_
  split
  next => exact .pure trivial
  next version random sessionId p front =>
    refine .ite (fun _ => .pure trivial) fun suites => .bind (wordAt_below (by omega)) ?_
    refine .ite (fun _ => .pure trivial) fun valid => .bind (readWords_below _ (by omega)) ?_
    refine .ite (fun _ => .pure trivial) fun methods =>
      .bind (readAt_below_iff.mpr (by omega)) ?_
    refine .ite (fun _ => .pure trivial) fun inside => .bind (readMany_below (by omega)) ?_
    exact .bind readBlock_yields.below (.pure readBlock_yields.yields)

theorem readServerHelloFields_yields (enough : 38 ≤ len) (fits : SessionIdFits memory len) :
    Yields len (BlockWithin len) (readServerHelloFields memory len) := by
  refine .bind ((readFront_below_iff enough).mpr fits) ?_
  split
  next => exact .pure trivial
  next version random sessionId p front =>
    refine .ite (fun _ => .pure trivial) fun suite => .bind (wordAt_below (by omega)) ?_
    refine .ite (fun _ => .pure trivial) fun method =>
      .bind (readAt_below_iff.mpr (by omega)) ?_
    exact .bind readBlock_yields.below (.pure readBlock_yields.yields)

theorem readClientHello_below (md5 : List Char → Bytes) {st : TlsState} (enough : 38 ≤ len)
    (fits : SessionIdFits memory len) :
    Below len (readClientHello md5 rteMalloc memory len st) := by
  refine .ite (fun _ => .pure _) fun _ => .ite (fun _ => ?_) fun _ => .pure _
  have fields := readClientHelloFields_yields enough fits
  refine .bind fields.below ?_
  have within := fields.yields
  split
  next => exact .pure _
  next ch block found =>
    rw [found] at within
    cases block with
    | none => exact .bind (.pure _) (.pure _)
    | some place => exact .bind (readClientHelloExtensions_below within) (.pure _)

theorem readServerHello_below (md5 : List Char → Bytes) {st : TlsState} (enough : 38 ≤ len)
    (fits : SessionIdFits memory len) :
    Below len (readServerHello md5 rteMalloc memory len st) := by
  refine .ite (fun _ => .pure _) fun _ => .ite (fun _ => ?_) fun _ => .pure _
  have fields := readServerHelloFields_yields enough fits
  refine .bind fields.below ?_
  have within := fields.yields
  split
  next => exact .pure _
  next sh block found =>
    rw [found] at within
    cases block with
    | none => exact .bind (.pure _) (.pure _)
    | some place => exact .bind (readServerHelloExtensions_below within) (.pure _)

/-- The hello parsers stay in the message, unless it gives a valid length for a session id
that ends behind it. -/
def FrontInside (rteMalloc : Nat → Bool) (memory : Nat → UInt8) (len : Nat) (st : TlsState) :
    Prop :=
  len < 38 ∨ rteMalloc st.mallocs = false ∨ 32 < (memory 34).toNat ∨
    35 + (memory 34).toNat ≤ len

theorem sessionIdFits_of_inside {st : TlsState} (enough : ¬ len < 38)
    (granted : rteMalloc st.mallocs = true) (inside : FrontInside rteMalloc memory len st) :
    SessionIdFits memory len := by
  intro valid
  rcases inside with short | failed | long | fits
  · exact absurd short enough
  · exact absurd (granted.symm.trans failed) (by decide)
  · omega
  · exact fits

theorem frontInside_of_fits {st : TlsState} (fits : SessionIdFits memory len) :
    FrontInside rteMalloc memory len st := by
  by_cases valid : (memory 34).toNat ≤ 32
  · exact .inr (.inr (.inr (fits valid)))
  · exact .inr (.inr (.inl (Nat.lt_of_not_le valid)))

/-- `parse_client_hello`, `parse_server_hello` and the parsers of their extensions read below
`len` exactly if the session id, the one field that is copied before its length is checked,
ends there. -/
theorem hello_reads_inside_iff (md5 : List Char → Bytes) (rteMalloc : Nat → Bool)
    (memory : Nat → UInt8) (len : Nat) (st : TlsState) :
    ((∀ offset ∈ log (readClientHello md5 rteMalloc memory len st), offset < len) ↔
        FrontInside rteMalloc memory len st) ∧
      ((∀ offset ∈ log (readServerHello md5 rteMalloc memory len st), offset < len) ↔
        FrontInside rteMalloc memory len st) := by
  by_cases short : len < 38
  · have client : readClientHello md5 rteMalloc memory len st = pure st := if_pos short
    have server : readServerHello md5 rteMalloc memory len st = pure st := if_pos short
    rw [client, server, log_pure]
    have inside : FrontInside rteMalloc memory len st := .inl short
    simp [inside]
  · have enough : 38 ≤ len := Nat.le_of_not_lt short
    cases granted : rteMalloc st.mallocs with
    | false =>
        have inside : FrontInside rteMalloc memory len st := .inr (.inl granted)
        have client : log (readClientHello md5 rteMalloc memory len st) = [] := by
          rw [readClientHello, if_neg short, granted]
          rfl
        have server : log (readServerHello md5 rteMalloc memory len st) = [] := by
          rw [readServerHello, if_neg short, granted]
          rfl
        rw [client, server]
        simp [inside]
    | true =>
        refine ⟨⟨fun below => ?_, fun inside => ?_⟩, ⟨fun below => ?_, fun inside => ?_⟩⟩
        · have whole : Below len (readClientHello md5 rteMalloc memory len st) := below
          rw [readClientHello, if_neg short, if_pos granted] at whole
          exact frontInside_of_fits ((readFront_below_iff enough).mp whole.first.first)
        · exact readClientHello_below md5 enough (sessionIdFits_of_inside short granted inside)
        · have whole : Below len (readServerHello md5 rteMalloc memory len st) := below
          rw [readServerHello, if_neg short, if_pos granted] at whole
          exact frontInside_of_fits ((readFront_below_iff enough).mp whole.first.first)
        · exact readServerHello_below md5 enough (sessionIdFits_of_inside short granted inside)

/-- A message of the least length that is accepted, with a session id of 32 bytes. -/
theorem session_id_read_outside :
    ¬∀ (md5 : List Char → Bytes) (rteMalloc : Nat → Bool) (memory : Nat → UInt8) (len : Nat)
      (st : TlsState),
      (∀ offset ∈ log (readClientHello md5 rteMalloc memory len st), offset < len) ∧
        ∀ offset ∈ log (readServerHello md5 rteMalloc memory len st), offset < len := by
  intro all
  have read : 66 ∈ log (readClientHello (fun _ => []) (fun _ => true)
      (fun p => if p = 34 then 32 else 0) 38 {}) := by
    decide +kernel
  have outside := (all _ _ _ _ _).1 66 read
  exact absurd outside (by decide)

end Below

end NetDefender.Tls
