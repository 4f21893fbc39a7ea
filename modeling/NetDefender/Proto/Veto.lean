import NetDefender.Proto.Detect

/-!
# One prober against another

`try_prober_detection` returns the first verdict that is not `APP_PROTO_UNKNOWN`, a
negative one included.  The verdicts of the probers that apply are written as a
list, in which an early `APP_PROTO_FAILED` hides every later protocol; with the
built-in probers this is the DNS prober rejecting a TLS record.
-/

namespace NetDefender.Proto

variable (data : Memory) (len : BitVec 32) (direction : Direction) (port : BitVec 16)

/-! ## The list of verdicts -/

/-- The verdicts of the probers that apply, in the order of the list. -/
def verdicts (probers : List Prober) : List AppProto :=
  (probers.filter fun p => p.Applies len direction port).map (·.verdict data len)

theorem mem_verdicts (probers : List Prober) (proto : AppProto) :
    proto ∈ verdicts data len direction port probers ↔
      ∃ p ∈ probers, p.Applies len direction port ∧ p.verdict data len = proto := by
  simp [verdicts, and_assoc]

theorem tryProberDetection_eq_find? (probers : List Prober) :
    tryProberDetection data len direction port probers =
      ((verdicts data len direction port probers).find?
        fun proto => !decide (proto = .unknown)).getD .unknown := by
  induction probers with
  | nil => rfl
  | cons p rest ih =>
      by_cases applies : p.Applies len direction port
      · by_cases unknown : p.verdict data len = .unknown
        · simpa [tryProberDetection, verdicts, applies, unknown] using ih
        · simp [tryProberDetection, verdicts, applies, unknown]
      · simpa [tryProberDetection, verdicts, applies] using ih

/-- The probing step fails exactly when the first verdict that is not unknown is a
negative one. -/
theorem tryProberDetection_failed_iff (probers : List Prober) :
    tryProberDetection data len direction port probers = .failed ↔
      ∃ before after, verdicts data len direction port probers =
          before ++ .failed :: after ∧ ∀ proto ∈ before, proto = .unknown := by
  rw [tryProberDetection_eq_find?]
  generalize verdicts data len direction port probers = found
  constructor
  · intro failed
    cases first : found.find? (fun proto => !decide (proto = .unknown)) with
    | none => simp [first] at failed
    | some proto =>
        obtain rfl : proto = .failed := by simpa [first] using failed
        obtain ⟨-, before, after, split, unknown⟩ :=
          List.find?_eq_some_iff_append.mp first
        exact ⟨before, after, split, by simpa using unknown⟩
  · rintro ⟨before, after, rfl, unknown⟩
    have skipped : (before.find? fun proto => !decide (proto = .unknown)) = none := by
      simpa using unknown
    simp [List.find?_append, skipped]

/-! ## The verdicts of the built-in probers -/

/-- A payload that opens like a TLS record, or like an SSLv2 client hello. -/
def OpensTls : Prop :=
  (20 ≤ data 0 ∧ data 0 ≤ 24 ∧ 0x0300 ≤ word data 1 ∧ word data 1 ≤ 0x0304 ∧
    word data 3 ≤ 16384) ∨
  (¬ (20 ≤ data 0 ∧ data 0 ≤ 24) ∧ data 0 &&& 0x80 ≠ 0 ∧ data 2 = 1)

instance : Decidable (OpensTls data) := inferInstanceAs (Decidable (_ ∨ _))

/-- A length cut to the depth of a prober. -/
def probeLen (maxDepth : BitVec 32) : BitVec 32 :=
  if len > maxDepth then maxDepth else len

theorem registerPattern_probers (registry : Registry) (flags : BitVec 8)
    (entry : Pattern) :
    (registerPattern registry flags entry).probers = registry.probers := by
  simp only [registerPattern]
  split <;> rfl

theorem registerHttp_probers (registry : Registry) :
    (registerHttp registry).probers = registry.probers := by
  simp [registerHttp, httpMethods, httpVersions, registerPattern_probers]

/-- The probers after `proto_detect_init`, last registered first. -/
theorem protoDetectInit_probers :
    protoDetectInit.probers =
      [⟨.dns, 0, 12, 512, 0x03, dnsProbingParser⟩,
        ⟨.dns, 53, 12, 512, 0x03, dnsProbingParser⟩,
        ⟨.tls, 0, 5, 64, 0x03, tlsProbingParser⟩,
        ⟨.tls, 443, 5, 64, 0x03, tlsProbingParser⟩] := by
  simp [protoDetectInit, registerDns, registerTls, registerProber,
    registerHttp_probers, PROTO_DETECT_DIR_BOTH]

/-- The DNS probers' verdict. -/
abbrev dnsVerdict : AppProto := dnsProbingParser data (probeLen len 512)

/-- The TLS probers' verdict. -/
abbrev tlsVerdict : AppProto := tlsProbingParser data (probeLen len 64)

theorem verdicts_cons (p : Prober) (rest : List Prober) :
    verdicts data len direction port (p :: rest) =
      (if p.Applies len direction port then [p.verdict data len] else []) ++
        verdicts data len direction port rest := by
  by_cases applies : p.Applies len direction port <;> simp [verdicts, applies]

/-- A prober for both directions applies by its port and depth alone. -/
theorem applies_both (proto : AppProto) (own minDepth maxDepth : BitVec 16)
    (parserFn : Memory → BitVec 32 → AppProto) :
    (⟨proto, own, minDepth, maxDepth, 0x03, parserFn⟩ : Prober).Applies len direction
        port ↔
      (own = 0 ∨ own = port) ∧ minDepth.setWidth 32 ≤ len := by
  have both : (0x03 : BitVec 8) &&& direction.flag ≠ 0 := by
    cases direction <;> decide
  constructor
  · exact fun applies => applies.2
  · exact fun applies => ⟨both, applies⟩

/-- The built-in probers as a list of verdicts: DNS first, each protocol once for any
port and once more on its own port. -/
theorem verdicts_init :
    verdicts data len direction port protoDetectInit.probers =
      (if 12 ≤ len then [dnsVerdict data len] else []) ++
      ((if 53 = port ∧ 12 ≤ len then [dnsVerdict data len] else []) ++
      ((if 5 ≤ len then [tlsVerdict data len] else []) ++
      (if 443 = port ∧ 5 ≤ len then [tlsVerdict data len] else []))) := by
  simp only [protoDetectInit_probers, verdicts_cons, applies_both]
  simp [Prober.verdict, dnsVerdict, tlsVerdict, probeLen, verdicts]

theorem dnsProbingParser_cases (size : BitVec 32) :
    dnsProbingParser data size = .unknown ∨ dnsProbingParser data size = .failed ∨
      dnsProbingParser data size = .dns := by
  simp only [dnsProbingParser]
  repeat' split
  all_goals simp

theorem tlsProbingParser_cases (size : BitVec 32) :
    tlsProbingParser data size = .unknown ∨ tlsProbingParser data size = .failed ∨
      tlsProbingParser data size = .tls := by
  simp only [tlsProbingParser]
  repeat' split
  all_goals simp

/-- On twelve bytes or more the TLS probers look at the first five only. -/
theorem tlsVerdict_eq_tls_iff (long : 12 ≤ len) :
    tlsVerdict data len = .tls ↔ OpensTls data := by
  have cut : 12 ≤ probeLen len 64 := by
    simp only [probeLen]
    split
    · decide
    · exact long
  have noShort : ¬ probeLen len 64 < 5 := by bv_omega
  have handshake : probeLen len 64 ≥ 6 := by bv_omega
  have sslv2 : probeLen len 64 ≥ 3 := by bv_omega
  by_cases record : data 0 < 20 ∨ data 0 > 24
  · have outside : ¬ (20 ≤ data 0 ∧ data 0 ≤ 24) := by
      rintro ⟨above, below⟩
      rcases record with low | high
      · exact absurd above (UInt8.not_le.mpr low)
      · exact absurd below (UInt8.not_le.mpr high)
    simp only [tlsVerdict, tlsProbingParser, OpensTls, if_neg noShort, if_pos record,
      sslv2, outside, true_and]
    split <;> simp_all
  · have inside : 20 ≤ data 0 ∧ data 0 ≤ 24 := by
      simpa [UInt8.not_lt] using record
    have types : data 0 = 22 ∨ data 0 = 23 ∨ data 0 = 20 ∨ data 0 = 21 ∨ data 0 = 24 := by
      simp only [UInt8.le_iff_toNat_le, ← UInt8.toNat_inj] at inside ⊢
      have twenty : (20 : UInt8).toNat = 20 := rfl
      have last : (24 : UInt8).toNat = 24 := rfl
      simp
      omega
    by_cases version : word data 1 < 0x0300 ∨ word data 1 > 0x0304
    · simp only [tlsVerdict, tlsProbingParser, OpensTls, if_neg noShort, if_neg record,
        if_pos version, inside]
      simp
      bv_omega
    · by_cases large : word data 3 > 16384
      · simp only [tlsVerdict, tlsProbingParser, OpensTls, if_neg noShort,
          if_neg record, if_neg version, if_pos large, inside]
        simp
        bv_omega
      · have opens : OpensTls data :=
          .inl ⟨inside.1, inside.2, by bv_omega, by bv_omega, by bv_omega⟩
        simp only [tlsVerdict, tlsProbingParser, opens, if_neg noShort, if_neg record,
          if_neg version, if_neg large, handshake]
        simp only [and_true, iff_true]
        split
        · rfl
        · next other => rw [if_pos (types.resolve_left other)]

/-- A verdict that is listed again right after itself changes nothing. -/
theorem find?_listed_again (listed again : Prop) [Decidable listed] [Decidable again]
    (proto : AppProto) (rest : List AppProto) :
    (((if listed then [proto] else []) ++
        ((if again ∧ listed then [proto] else []) ++ rest)).find?
        fun proto => !decide (proto = .unknown)) =
      if listed ∧ proto ≠ .unknown then some proto
      else rest.find? fun proto => !decide (proto = .unknown) := by
  by_cases first : listed <;> by_cases second : again <;>
    by_cases unknown : proto = .unknown <;> simp [first, second, unknown]

/-- The built-in probers decide by DNS, and by TLS where DNS says nothing. -/
theorem tryProberDetection_init :
    tryProberDetection data len direction port protoDetectInit.probers =
      if 12 ≤ len ∧ dnsVerdict data len ≠ .unknown then dnsVerdict data len
      else if 5 ≤ len then tlsVerdict data len
      else .unknown := by
  rw [tryProberDetection_eq_find?, verdicts_init, find?_listed_again]
  rw [← List.append_nil (if 443 = port ∧ 5 ≤ len then [tlsVerdict data len] else []),
    find?_listed_again]
  split
  · rfl
  · by_cases unknown : tlsVerdict data len = .unknown
    · simp [unknown]
    · simp only [unknown, ne_eq, not_false_eq_true, and_true, List.find?_nil]
      split <;> rfl

theorem exists_real_verdict_iff :
    (∃ proto ∈ verdicts data len direction port protoDetectInit.probers,
        proto.IsReal) ↔
      (12 ≤ len ∧ (dnsVerdict data len).IsReal) ∨
        (5 ≤ len ∧ (tlsVerdict data len).IsReal) := by
  simp only [verdicts_init, List.mem_append, List.mem_ite_nil_right, List.mem_singleton]
  constructor
  · rintro ⟨proto, (⟨long, rfl⟩ | ⟨⟨-, long⟩, rfl⟩ | ⟨five, rfl⟩ | ⟨⟨-, five⟩, rfl⟩), real⟩
    · exact .inl ⟨long, real⟩
    · exact .inl ⟨long, real⟩
    · exact .inr ⟨five, real⟩
    · exact .inr ⟨five, real⟩
  · rintro (⟨long, real⟩ | ⟨five, real⟩)
    · exact ⟨_, .inl ⟨long, rfl⟩, real⟩
    · exact ⟨_, .inr (.inr (.inl ⟨five, rfl⟩)), real⟩

/-- With the built-in probers a protocol is hidden behind a negative verdict exactly
when the DNS prober rejects what the TLS prober recognises. -/
theorem failed_and_real_iff :
    (tryProberDetection data len direction port protoDetectInit.probers = .failed ∧
        ∃ proto ∈ verdicts data len direction port protoDetectInit.probers,
          proto.IsReal) ↔
      12 ≤ len ∧ dnsVerdict data len = .failed ∧ tlsVerdict data len = .tls := by
  rw [tryProberDetection_init, exists_real_verdict_iff]
  have five : 12 ≤ len → 5 ≤ len := by bv_omega
  rcases dnsProbingParser_cases data (probeLen len 512) with dns | dns | dns <;>
    rcases tlsProbingParser_cases data (probeLen len 64) with tls | tls | tls <;>
    grind [AppProto.IsReal]

/-! ## The whole detection -/

theorem tryPortDetection_ne_failed : tryPortDetection port ≠ .failed := by
  simp only [tryPortDetection]
  repeat' split
  all_goals simp

theorem getProtoByPort_ne_failed (config : DetectConfig) (stats : DetectStats) :
    (getProtoByPort config stats port).2.1.protocol ≠ .failed := by
  simp only [getProtoByPort]
  split
  · exact tryPortDetection_ne_failed port
  · simp

/-- The pattern step does not decide. -/
def PatternsSilent (config : DetectConfig) (registry : Registry) : Prop :=
  config.enablePatternMatching →
    (tryPatternDetection registry {} data (inspectLen config len) direction).1 = .unknown

instance (config : DetectConfig) (registry : Registry) :
    Decidable (PatternsSilent data len direction config registry) :=
  inferInstanceAs (Decidable (_ → _))

theorem tryPatternDetection_protocol (registry : Registry) (stats : DetectStats) :
    (tryPatternDetection registry stats data len direction).1 =
      (tryPatternDetection registry {} data len direction).1 := by
  simp only [tryPatternDetection]
  split <;> rfl

/-- Where the patterns are silent, only a negative verdict of the probers makes the
detection fail. -/
theorem protoDetectGetProto_failed_iff (config : DetectConfig) (registry : Registry)
    (stats : DetectStats) (ports : Ports)
    (silent : PatternsSilent data len direction config registry) :
    (protoDetectGetProto config registry stats ports data len direction).2.1.protocol =
        .failed ↔
      4 ≤ inspectLen config len ∧ config.enableProbingParsers ∧
        tryProberDetection data (inspectLen config len) direction
          (ports.server direction) registry.probers = .failed := by
  simp only [protoDetectGetProto]
  by_cases short : inspectLen config len < 4
  · have notLong : ¬ 4 ≤ inspectLen config len := BitVec.not_le.mpr short
    simp only [short, notLong, if_true, false_and, iff_false]
    exact AppProto.noConfusion
  · have long : 4 ≤ inspectLen config len := BitVec.not_lt.mp short
    have undecided : (if config.enablePatternMatching then
        tryPatternDetection registry stats data (inspectLen config len) direction
        else (.unknown, stats)).1 = .unknown := by
      split
      · next enabled =>
          rw [tryPatternDetection_protocol]
          exact silent enabled
      · rfl
    simp only [short, long, undecided, if_false, ne_eq, not_true, true_and]
    by_cases probing : config.enableProbingParsers
    · simp only [probing, if_true, true_and]
      split
      · next failed => simp [failed]
      · next unknown => simp [unknown, getProtoByPort_ne_failed]
      · simp
    · simp [probing, getProtoByPort_ne_failed]

variable (config : DetectConfig) (stats : DetectStats) (ports : Ports)

/-- With the built-in detectors and no pattern matching, a protocol that some prober
recognises is not reported as failed, if and only if the payload is not one that opens
like TLS and that the DNS prober rejects. -/
theorem probers_not_vetoed_iff
    (silent : PatternsSilent data len direction config protoDetectInit) :
    ((∃ p ∈ protoDetectInit.probers,
        p.Applies (inspectLen config len) direction (ports.server direction) ∧
          (p.verdict data (inspectLen config len)).IsReal) →
      (protoDetectGetProto config protoDetectInit stats ports data len
        direction).2.1.protocol ≠ .failed) ↔
    ¬ (config.enableProbingParsers ∧ 12 ≤ inspectLen config len ∧ OpensTls data ∧
        dnsProbingParser data (probeLen (inspectLen config len) 512) = .failed) := by
  have hidden := failed_and_real_iff data (inspectLen config len) direction
    (ports.server direction)
  have four : 12 ≤ inspectLen config len → 4 ≤ inspectLen config len := by bv_omega
  have real : (∃ p ∈ protoDetectInit.probers,
      p.Applies (inspectLen config len) direction (ports.server direction) ∧
        (p.verdict data (inspectLen config len)).IsReal) ↔
      ∃ proto ∈ verdicts data (inspectLen config len) direction
        (ports.server direction) protoDetectInit.probers, proto.IsReal := by
    simp only [mem_verdicts]
    constructor
    · rintro ⟨p, member, applies, recognised⟩
      exact ⟨_, ⟨p, member, applies, rfl⟩, recognised⟩
    · rintro ⟨_, ⟨p, member, applies, rfl⟩, recognised⟩
      exact ⟨p, member, applies, recognised⟩
  rw [real, ne_eq, protoDetectGetProto_failed_iff data len direction config
    protoDetectInit stats ports silent]
  constructor
  · rintro kept ⟨probing, long, opens, rejected⟩
    obtain ⟨failed, recognised⟩ := hidden.mpr
      ⟨long, rejected, (tlsVerdict_eq_tls_iff data _ long).mpr opens⟩
    exact kept recognised ⟨four long, probing, failed⟩
  · rintro allowed recognised ⟨-, probing, failed⟩
    obtain ⟨long, rejected, tls⟩ := hidden.mp ⟨failed, recognised⟩
    exact allowed ⟨probing, long, (tlsVerdict_eq_tls_iff data _ long).mp tls, rejected⟩

/-- The first bytes of a TLS client hello. -/
def clientHello : Memory := fun index =>
  [0x16, 0x03, 0x01, 0x02, 0x00, 0x01, 0x00, 0x01, 0xfc, 0x03, 0x03, 0x5a].getD index 0

/-- Six bytes are too few for the DNS prober, and the hello is recognised. -/
theorem probers_not_vetoed_iff_short_hello :
    PatternsSilent clientHello 6 .toserver {} protoDetectInit ∧
      ((∃ p ∈ protoDetectInit.probers,
          p.Applies 6 .toserver 443 ∧ (p.verdict clientHello 6).IsReal) →
        (protoDetectGetProto {} protoDetectInit {} ⟨49152, 443⟩ clientHello 6
          .toserver).2.1.protocol ≠ .failed) := by
  have silent : PatternsSilent clientHello 6 .toserver {} protoDetectInit := by
    decide +kernel
  exact ⟨silent, (probers_not_vetoed_iff clientHello 6 .toserver {} {} ⟨49152, 443⟩
    silent).mpr (by decide +kernel)⟩

/-- Twelve bytes of the same hello to port 443 are reported as failed, although the
TLS prober recognises them. -/
theorem client_hello_vetoed_by_dns :
    PatternsSilent clientHello 12 .toserver {} protoDetectInit ∧
      (∃ p ∈ protoDetectInit.probers,
        p.Applies 12 .toserver 443 ∧ (p.verdict clientHello 12).IsReal) ∧
      (protoDetectGetProto {} protoDetectInit {} ⟨49152, 443⟩ clientHello 12
        .toserver).2.1.protocol = .failed := by
  refine ⟨?_, ?_, ?_⟩
  · decide +kernel
  · decide +kernel
  · decide +kernel

end NetDefender.Proto
