import Mathlib.Data.List.GetD
import NetDefender.Rules.Engine
import NetDefender.Rules.Wire
import NetDefender.Tls.Fingerprints

/-!
# Rules for fingerprints

`TLS_JA3_HASH_LEN` is the length of an MD5 digest in hexadecimal digits, and it is used as the
length in bytes: a digest of 16 bytes is kept with 16 zeros behind it and printed with 32 digits
`0` behind its own.  `check_tls_rule` looks for the fingerprint of a rule anywhere in these 64
digits.
-/

namespace NetDefender.Rules

open CString

/-! ## Hexadecimal text -/

/-- The digits of bytes, in lower case. -/
def hexText (bytes : Bytes) : Bytes := bytes.flatMap hexByte

/-- A hexadecimal digit in upper or lower case. -/
def IsHexDigit (byte : UInt8) : Prop :=
  48 ≤ byte ∧ byte ≤ 57 ∨ 65 ≤ byte ∧ byte ≤ 70 ∨ 97 ≤ byte ∧ byte ≤ 102

instance (byte : UInt8) : Decidable (IsHexDigit byte) := inferInstanceAs (Decidable (_ ∨ _))

theorem length_hexText (bytes : Bytes) : (hexText bytes).length = 2 * bytes.length := by
  induction bytes with
  | nil => rfl
  | cons byte rest ih =>
      rw [hexText, List.flatMap_cons, List.length_append, List.length_cons, ← hexText, ih, hexByte,
        List.length_cons, List.length_singleton]
      omega

/-- The digits are in lower case. -/
theorem map_tolower_hexByte (byte : UInt8) : (hexByte byte).map tolower = hexByte byte := by
  have sixteen : ∀ value < 16,
      let digit := if value < 10 then UInt8.ofNat (48 + value) else UInt8.ofNat (87 + value)
      tolower digit = digit := by
    decide
  have bound := byte.toNat_lt
  simp only [hexByte, List.map_cons, List.map_nil]
  rw [sixteen (byte.toNat / 16) (by omega), sixteen (byte.toNat % 16) (by omega)]

theorem map_tolower_hexText (bytes : Bytes) : (hexText bytes).map tolower = hexText bytes := by
  rw [hexText, List.map_flatMap]
  exact List.flatMap_congr fun byte _ => map_tolower_hexByte byte

/-- With the length of a digest, its digits are printed. -/
theorem printHex_digest {digest : Bytes} (size : digest.length = 16) :
    printHex 16 digest = hexText digest := by
  have bytes : (List.range 16).map (fun index => digest.getD index 0) = digest := by
    refine List.ext_getElem (by simp [size]) fun index _ inside => ?_
    rw [List.getElem_map, List.getElem_range, List.getD_eq_getElem _ _ inside]
  rw [hexText]
  nth_rewrite 2 [← bytes]
  rw [List.flatMap_map, printHex]

/-- With `TLS_JA3_HASH_LEN`, as many zeros follow. -/
theorem ja3Hex_digest {digest : Bytes} (size : digest.length = 16) :
    ja3Hex digest = hexText digest ++ List.replicate 32 48 := by
  have behind : ∀ index ∈ List.range 16, digest.getD (16 + index) 0 = 0 := fun index _ =>
    List.getD_eq_default _ _ (by omega)
  have zeros : ((List.range 16).map (16 + ·)).flatMap (fun index => hexByte (digest.getD index 0)) =
      List.replicate 32 48 := by
    rw [List.flatMap_map, List.flatMap_congr fun index member => by rw [behind index member]]
    rfl
  rw [ja3Hex, printHex, show TLS_JA3_HASH_LEN = 16 + 16 from rfl, List.range_add,
    List.flatMap_append, zeros, ← printHex, printHex_digest size]

/-! ## Occurrences in a padded text -/

section Padding

variable {needle front back : Bytes}

/-- The stretches of a text of two halves that are as long as a half. -/
theorem infix_halves_iff (frontSize : front.length = needle.length)
    (backSize : back.length = needle.length) :
    needle <:+: front ++ back ↔
      ∃ places ≤ needle.length, needle = front.drop places ++ back.take places := by
  constructor
  · rintro ⟨before, after, whole⟩
    have sizes := congrArg List.length whole
    simp only [List.length_append] at sizes
    have within : before.length ≤ front.length := by omega
    have behind : needle ++ after = front.drop before.length ++ back := by
      have dropped := congrArg (List.drop before.length) whole
      rwa [List.append_assoc, List.drop_left, List.drop_append_of_le_length within] at dropped
    have taken := congrArg (List.take needle.length) behind
    have left : needle.length - (front.length - before.length) = before.length := by omega
    rw [List.take_left, List.take_append, List.take_of_length_le (by rw [List.length_drop]; omega),
      List.length_drop, left] at taken
    exact ⟨before.length, by omega, taken⟩
  · rintro ⟨places, -, same⟩
    refine ⟨front.take places, back.drop places, ?_⟩
    rw [same, ← List.append_assoc, List.take_append_drop, List.append_assoc, List.take_append_drop]

end Padding

/-- If the digits of a fingerprint are those of a digest behind a place, with zeros for the ones
in front of it, they are those of the digest. -/
def Unpadded (hash digest : Bytes) : Prop :=
  ∀ places ≤ 32, hash.map tolower = (hexText digest).drop places ++ List.replicate places 48 →
    hash.map tolower = hexText digest

instance (hash digest : Bytes) : Decidable (Unpadded hash digest) :=
  inferInstanceAs (Decidable (∀ places ≤ 32, _))

section Search

variable {hash digest : Bytes}

/-- Where `strcasestr` finds a fingerprint. -/
theorem occursIn_ja3Hex_iff (hashSize : hash.length = 32) (size : digest.length = 16) :
    occursInIgnoringCase hash (ja3Hex digest) = true ↔
      ∃ places ≤ 32, hash.map tolower =
        (hexText digest).drop places ++ List.replicate places 48 := by
  have needleSize : (hash.map tolower).length = 32 := by rw [List.length_map, hashSize]
  have lower : (ja3Hex digest).map tolower = hexText digest ++ List.replicate 32 48 := by
    rw [ja3Hex_digest size, List.map_append, map_tolower_hexText, List.map_replicate]
    rfl
  rw [occursInIgnoringCase, occursIn_iff, lower,
    infix_halves_iff (by rw [length_hexText, size, needleSize])
      (by rw [List.length_replicate, needleSize]), needleSize]
  refine exists_congr fun places => and_congr_right fun within => ?_
  rw [List.take_replicate, Nat.min_eq_left within]

/-- The fingerprint is found exactly if it is the one of the digest, unless it begins inside the
digest and ends in the zeros. -/
theorem found_iff_same_iff (hashSize : hash.length = 32) (size : digest.length = 16) :
    (occursInIgnoringCase hash (ja3Hex digest) = true ↔
        sameIgnoringCase (hexText digest) hash = true) ↔ Unpadded hash digest := by
  rw [occursIn_ja3Hex_iff hashSize size, sameIgnoringCase, decide_eq_true_eq,
    map_tolower_hexText]
  constructor
  · intro agree places within padded
    exact (agree.mp ⟨places, within, padded⟩).symm
  · intro unpadded
    constructor
    · rintro ⟨places, within, padded⟩
      exact (unpadded places within padded).symm
    · intro same
      exact ⟨0, Nat.zero_le _, by rw [List.drop_zero, List.replicate_zero, List.append_nil, same]⟩

end Search

/-! ## The check -/

/-- The rule checks a fingerprint of 32 hexadecimal digits, and nothing else. -/
structure EngineRule.ChecksJa3 (rule : EngineRule) (hash : Bytes) : Prop where
  sni : rule.tls.checkSni = false
  ja3 : rule.tls.checkJa3 = true
  cipher : rule.tls.checkCipher = false
  version : rule.tls.checkVersion = false
  cert : rule.tls.checkCert = false
  fingerprint : rule.tls.ja3Hash = some hash
  length : hash.length = 32
  digits : ∀ byte ∈ hash, IsHexDigit byte

section Check

variable {rule : EngineRule} {hash : Bytes}

/-- A string of digits has no NUL. -/
theorem EngineRule.ChecksJa3.text_eq (checks : rule.ChecksJa3 hash) : text hash = hash := by
  refine text_of_plain fun member => ?_
  exact absurd (checks.digits 0 member) (by decide)

theorem checkTlsRule_ja3 (checks : rule.ChecksJa3 hash) {conn : Tls.TlsConn}
    {hello : Tls.TlsClientHello} (parsed : conn.clientHello = some hello) {detail : Bytes}
    {size : Nat} :
    (checkTlsRule rule conn detail size).1 =
      (rule.enabled && occursInIgnoringCase hash (ja3Hex hello.ja3.hash)) := by
  simp only [checkTlsRule, checks.sni, checks.ja3, checks.cipher, checks.version, checks.cert,
    checks.fingerprint, checks.text_eq, parsed, Bool.false_and, Bool.true_and]
  cases rule.enabled with
  | false => rfl
  | true =>
      cases occursInIgnoringCase hash (ja3Hex hello.ja3.hash) with
      | false => rfl
      | true => rfl

/-- An enabled rule fires on exactly the fingerprint of the connection if its own does not begin
inside the digest and end in the zeros behind it; a rule that is not enabled does not fire. -/
theorem check_ja3_iff {md5 : List Char → Bytes} (sixteen : ∀ string, (md5 string).length = 16)
    (rteMalloc : Nat → Bool) (calls : List (Bytes × UInt8)) {hello : Tls.TlsClientHello}
    (parsed : (Tls.parseCalls md5 rteMalloc calls).conn.clientHello = some hello)
    (checks : rule.ChecksJa3 hash) (detail : Bytes) (size : Nat) :
    ((checkTlsRule rule (Tls.parseCalls md5 rteMalloc calls).conn detail size).1 = true ↔
        sameIgnoringCase (hexText (md5 hello.ja3.string)) hash = true) ↔
      if rule.enabled then Unpadded hash (md5 hello.ja3.string)
      else sameIgnoringCase (hexText (md5 hello.ja3.string)) hash = false := by
  have kept : hello.ja3.hash = md5 hello.ja3.string :=
    Tls.parseCalls_keepsDigest calls hello parsed
  rw [checkTlsRule_ja3 checks parsed, kept]
  cases enabled : rule.enabled with
  | true =>
      rw [if_pos rfl, Bool.true_and]
      exact found_iff_same_iff checks.length (sixteen _)
  | false =>
      rw [if_neg Bool.false_ne_true, Bool.false_and]
      simp

end Check

/-- A handshake record with a ClientHello of two cipher suites. -/
def helloRecord : Bytes := [22, 3, 3, 0, 47, 1, 0, 0, 43] ++ Tls.helloWith 2

/-- The MD5 digest of `771,65535-65535,,,`. -/
def helloDigest : Bytes := [0xab, 0x76, 0x33, 0x26, 0x81, 0x26, 0x9c, 0x40,
  0x15, 0xa8, 0x30, 0x3c, 0xeb, 0xcf, 0x29, 0x1c]

/-- A rule for a fingerprint. -/
def ja3Rule (hash : Bytes) : EngineRule where
  ruleId := 1
  enabled := true
  protocol := .tls
  conditions := []
  tls := { checkJa3 := true, ja3Hash := some hash }
  name := ascii "fingerprint"
  severity := .low
  category := .malware

theorem ja3Rule_checksJa3 {hash : Bytes} (length : hash.length = 32)
    (digits : ∀ byte ∈ hash, IsHexDigit byte) : (ja3Rule hash).ChecksJa3 hash :=
  ⟨rfl, rfl, rfl, rfl, rfl, rfl, length, digits⟩

/-- The ClientHello is kept with the string of its numbers. -/
theorem helloRecord_parsed :
    ∃ hello, (Tls.parseCalls (fun _ => helloDigest) (fun _ => true)
        [(helloRecord, 0)]).conn.clientHello = some hello ∧
      hello.ja3.string = "771,65535-65535,,,".toList := by
  have stored : ((Tls.parseCalls (fun _ => helloDigest) (fun _ => true)
      [(helloRecord, 0)]).conn.clientHello.map (·.ja3.string)) =
        some "771,65535-65535,,,".toList := by
    decide +kernel
  exact Option.map_eq_some_iff.mp stored

theorem check_ja3_iff_hello : ∃ hello,
    (Tls.parseCalls (fun _ => helloDigest) (fun _ => true)
        [(helloRecord, 0)]).conn.clientHello = some hello ∧
      hello.ja3.string = "771,65535-65535,,,".toList ∧
      ((checkTlsRule (ja3Rule (hexText helloDigest)) (Tls.parseCalls (fun _ => helloDigest)
          (fun _ => true) [(helloRecord, 0)]).conn [] 512).1 = true ↔
        sameIgnoringCase (hexText helloDigest) (hexText helloDigest) = true) := by
  obtain ⟨hello, parsed, string⟩ := helloRecord_parsed
  have unpadded : Unpadded (hexText helloDigest) helloDigest := by decide +kernel
  refine ⟨hello, parsed, string, ?_⟩
  exact (check_ja3_iff (fun _ => rfl) (fun _ => true) [(helloRecord, 0)] parsed
    (ja3Rule_checksJa3 rfl (by decide +kernel)) [] 512).mpr unpadded

/-- The rule for another fingerprint fires: its first 30 digits are the last ones of the digest,
and two zeros follow. -/
theorem other_fingerprint_fires :
    let hash := (hexText helloDigest).drop 2 ++ [48, 48]
    hash.length = 32 ∧ (∀ byte ∈ hash, IsHexDigit byte) ∧
      (checkTlsRule (ja3Rule hash) (Tls.parseCalls (fun _ => helloDigest) (fun _ => true)
        [(helloRecord, 0)]).conn [] 512).1 = true ∧
      sameIgnoringCase (hexText helloDigest) hash = false := by
  intro hash
  have digits : ∀ byte ∈ hash, IsHexDigit byte := by decide +kernel
  obtain ⟨hello, parsed, -⟩ := helloRecord_parsed
  have kept : hello.ja3.hash = helloDigest := Tls.parseCalls_keepsDigest _ hello parsed
  refine ⟨rfl, digits, ?_, by decide +kernel⟩
  rw [checkTlsRule_ja3 (ja3Rule_checksJa3 rfl digits) parsed, kept]
  decide +kernel

end NetDefender.Rules
