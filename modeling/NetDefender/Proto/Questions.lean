import NetDefender.Dns.Message
import NetDefender.Proto.Detect

/-!
# The DNS prober and the DNS parser

`dns_probing_parser` walks over the name of the first question by itself.  It stops at the
first pointer, and it compares the offset from the start of the message with 255, where
`parse_dns_name` compares the length of the text of the name.
-/

namespace NetDefender.Proto

open CString Logged
open DnsParser (NameAt DNS_MAX_LABEL_LEN tag_of_short parseDnsQuestion questionAt_of_parse)

/-- The payload of a packet, as the parser gets it. -/
def messageOf (data : Memory) (len : BitVec 32) : DnsParser.Message := ⟨data, 0, len.toNat⟩

/-- Labels lead from a place to the first pointer or to the end of the name. -/
inductive LabelsTo (data : Memory) : Nat → Nat → Prop where
  | ends {p : Nat} (zero : data p = 0) : LabelsTo data p p
  | pointer {p : Nat} (tag : data p &&& 0xC0 = 0xC0) : LabelsTo data p p
  | label {p last : Nat} (nonzero : data p ≠ 0) (short : data p ≤ DNS_MAX_LABEL_LEN)
      (rest : LabelsTo data (p + 1 + (data p).toNat) last) : LabelsTo data p last

section Walk

variable {data : Memory} {p last : Nat}

theorem LabelsTo.le (labels : LabelsTo data p last) : p ≤ last := by
  induction labels with
  | ends => exact Nat.le_refl _
  | pointer => exact Nat.le_refl _
  | label nonzero short rest ih => omega

/-- The labels lead to one place. -/
theorem LabelsTo.unique (labels : LabelsTo data p last) {other : Nat}
    (labels' : LabelsTo data p other) : other = last := by
  induction labels with
  | ends zero =>
      cases labels' with
      | ends => rfl
      | pointer => rfl
      | label nonzero => exact absurd zero nonzero
  | pointer tag =>
      cases labels' with
      | ends => rfl
      | pointer => rfl
      | label _ short => exact absurd tag (tag_of_short short)
  | label nonzero short rest ih =>
      cases labels' with
      | ends zero => exact absurd zero nonzero
      | pointer tag => exact absurd tag (tag_of_short short)
      | label _ _ rest' => exact ih rest'

/-- Every name begins with labels that lead to its first pointer or to its end. -/
theorem exists_labelsTo {msg : DnsParser.Message} {labels : List Bytes} {jumps next : Nat}
    (name : NameAt msg p labels jumps next) : ∃ last, LabelsTo msg.memory p last := by
  induction name with
  | @root p inside zero => exact ⟨p, .ends zero⟩
  | @label p next jumps labels positive short inside rest ih =>
      obtain ⟨last, lead⟩ := ih
      have nonzero : msg.memory p ≠ 0 := fun zero => by simp [zero] at positive
      exact ⟨last, .label nonzero short lead⟩
  | @pointer p next jumps labels inside tag target rest ih => exact ⟨p, .pointer tag⟩

/-- The walk over a name that the parser knows, by induction on the name. -/
theorem walkQname_named {msg : DnsParser.Message} {labels : List Bytes}
    {jumps next fuel : Nat} (name : NameAt msg p labels jumps next)
    (lead : LabelsTo msg.memory p last) (near : p ≤ 255)
    (enough : msg.packetEnd ≤ p + fuel) :
    walkQname msg.memory msg.packetEnd fuel p =
      if last ≤ 255 then .stopped true next else .failed := by
  have before : p < msg.packetEnd := Nat.lt_of_lt_of_le name.next_gt name.next_le
  obtain ⟨fuel, rfl⟩ : ∃ fewer, fuel = fewer + 1 :=
    Nat.exists_eq_add_one_of_ne_zero (by omega)
  induction name generalizing fuel with
  | @root p inside zero =>
      obtain rfl := lead.unique (.ends zero)
      rw [walkQname, if_pos before, if_pos zero, if_pos near]
  | @pointer p next jumps labels inside tag target rest ih =>
      obtain rfl := lead.unique (.pointer tag)
      have nonzero : msg.memory p ≠ 0 := by
        intro zero
        rw [zero] at tag
        exact absurd tag (by decide)
      rw [walkQname, if_pos before, if_neg nonzero, if_pos tag, if_pos near]
  | @label p next jumps labels positive short inside rest ih =>
      have nonzero : msg.memory p ≠ 0 := fun zero => by simp [zero] at positive
      obtain ⟨after, further⟩ := exists_labelsTo rest
      obtain rfl := lead.unique (.label nonzero short further)
      have within : ¬ msg.memory p > 63 := UInt8.not_lt.mpr short
      rw [walkQname, if_pos before, if_neg nonzero, if_neg (tag_of_short short),
        if_neg within]
      by_cases far : p + 1 + (msg.memory p).toNat > 255
      · have beyond := further.le
        rw [if_pos far, if_neg (by omega)]
      · have more : p + 1 + (msg.memory p).toNat < msg.packetEnd :=
          Nat.lt_of_lt_of_le rest.next_gt rest.next_le
        obtain ⟨fuel, rfl⟩ : ∃ fewer, fuel = fewer + 1 :=
          Nat.exists_eq_add_one_of_ne_zero (by omega)
        rw [if_neg far]
        exact ih further (Nat.le_of_not_gt far) more fuel (by omega)

/-! ## Queries -/

/-- The classes that the prober knows. -/
def KNOWN_CLASSES : List (BitVec 16) := [1, 2, 3, 4, 255]

/-- A query of a known kind whose first question the parser accepts. -/
structure Asks (data : Memory) (len : BitVec 32) : Prop where
  short : len ≤ 512
  query : word data 2 &&& 0x8000 = 0
  opcode : (word data 2 &&& 0x7800) >>> 11 ≤ 5
  asked : 1 ≤ word data 4
  few : (word data 4).toNat + (word data 6).toNat + (word data 8).toNat +
    (word data 10).toNat ≤ 100
  question : ∃ granted taken q,
    value (parseDnsQuestion (messageOf data len) 12 granted) = some (taken, q) ∧
      q.qtype ≠ 0 ∧ q.qclass ∈ KNOWN_CLASSES

variable {len : BitVec 32}

theorem rcode_le (flags : BitVec 16) : flags &&& 0x000F#16 ≤ 15#16 := by
  rw [BitVec.le_def, BitVec.toNat_and]
  exact Nat.and_le_right

theorem Asks.headerValid (asks : Asks data len) : dnsHeaderValid data = true := by
  have query : word data 2 &&& 0x8000#16 = 0#16 := asks.query
  have asked : ¬ word data 4 = 0#16 := by
    intro none
    have one := asks.asked
    rw [none] at one
    exact absurd one (by decide)
  have opcode : (word data 2 &&& 0x7800#16) >>> 11 ≤ 5#16 := asks.opcode
  simp [dnsHeaderValid, query, asked, opcode, rcode_le, Nat.not_lt.mpr asks.few]

theorem qclass_valid {qclass : BitVec 16} (known : qclass ∈ KNOWN_CLASSES) :
    ¬(qclass = 0 ∨ (qclass > 4 ∧ qclass ≠ 255)) := by
  simp only [KNOWN_CLASSES, List.mem_cons, List.not_mem_nil, or_false] at known
  rcases known with rfl | rfl | rfl | rfl | rfl <;> decide

/-- What the prober says of a query, by the place to which the labels of its first question
lead. -/
theorem dnsProbingParser_asks (asks : Asks data len) :
    ∃ last, LabelsTo data 12 last ∧
      dnsProbingParser data len = if last ≤ 255 then .dns else .failed := by
  obtain ⟨granted, taken, q, parsed, typed, classed⟩ := asks.question
  obtain ⟨-, fields, text, taken_eq, fits, qtype, qclass⟩ := questionAt_of_parse parsed
  have forward := text.bounds.1
  obtain ⟨labels, jumps, name, -⟩ := text
  have finish : (messageOf data len).packetEnd = len.toNat := Nat.zero_add _
  rw [taken_eq, finish] at fits
  have typed : ¬ word data fields = 0 := fun zero => typed (qtype.trans zero)
  have classed : word data (fields + 2) ∈ KNOWN_CLASSES := by
    rw [show word data (fields + 2) = q.qclass from qclass.symm]
    exact classed
  obtain ⟨last, lead⟩ := exists_labelsTo name
  refine ⟨last, lead, ?_⟩
  have walked := walkQname_named name lead (by decide) (Nat.le_add_left _ _)
  rw [finish] at walked
  have walked : walkQname data len.toNat len.toNat 12 =
    if last ≤ 255 then .stopped true fields else .failed := walked
  have long : ¬ len < 12 := by
    rw [BitVec.not_lt, BitVec.le_def]
    exact Nat.le_trans (by decide : 12 ≤ 16) (by omega)
  have longer : len > 12 := by
    rw [gt_iff_lt, BitVec.lt_def]
    exact Nat.lt_of_lt_of_le (by decide : 12 < 16) (by omega)
  have query : decide (word data 2 &&& 0x8000 ≠ 0) = false :=
    decide_eq_false (not_not_intro asks.query)
  have valid : ¬ (!dnsHeaderValid data) = true := by simp [asks.headerValid]
  rw [dnsProbingParser, if_neg long, if_neg valid]
  dsimp only
  rw [query, if_pos ⟨rfl, longer⟩, walked]
  by_cases near : last ≤ 255
  · rw [if_pos near, if_pos near]
    dsimp only
    rw [if_pos ⟨rfl, fits⟩, if_neg typed, if_neg (qclass_valid classed)]
  · rw [if_neg near, if_neg near]

/-- The prober and the parser agree on a query exactly if the labels of its first question,
up to the first pointer or the end of the name, stay within 255 bytes of the start of the
message. -/
theorem prober_agrees_iff (data : Memory) (len : BitVec 32) (asks : Asks data len) :
    (dnsProbingParser data len = .dns ↔ ∃ last ≤ 255, LabelsTo data 12 last) ∧
      (dnsProbingParser data len ≠ .failed ↔ ∃ last ≤ 255, LabelsTo data 12 last) := by
  obtain ⟨last, lead, verdict⟩ := dnsProbingParser_asks asks
  have near : (∃ last ≤ 255, LabelsTo data 12 last) ↔ last ≤ 255 := by
    constructor
    · rintro ⟨other, near, lead'⟩
      rwa [← lead.unique lead']
    · exact fun near => ⟨last, near, lead⟩
  rw [near, verdict]
  by_cases within : last ≤ 255
  · simp [within]
  · simp [within]

end Walk

/-- A query with one question for an address: a header, the name, its type and its class. -/
def queryOf (name : Bytes) : Memory := fun p =>
  ([0, 1, 1, 0, 0, 1, 0, 0, 0, 0, 0, 0] ++ name ++ [0, 1, 0, 1]).getD p 0

/-- A name of one label. -/
theorem prober_agrees_short :
    (dnsProbingParser (queryOf [1, 97, 0]) 19 = .dns ↔
        ∃ last ≤ 255, LabelsTo (queryOf [1, 97, 0]) 12 last) ∧
      (dnsProbingParser (queryOf [1, 97, 0]) 19 ≠ .failed ↔
        ∃ last ≤ 255, LabelsTo (queryOf [1, 97, 0]) 12 last) := by
  refine prober_agrees_iff (queryOf [1, 97, 0]) 19 ⟨by decide, by decide, by decide, by decide,
    by decide, {}, 7, ⟨⟨some [97], 1⟩, 1, 1⟩, ?_⟩
  decide +kernel

/-- Labels of 63, 63, 63 and 51 bytes. -/
def longLabels : Bytes :=
  63 :: List.replicate 63 97 ++ 63 :: List.replicate 63 97 ++ 63 :: List.replicate 63 97 ++
    51 :: List.replicate 51 97 ++ [0]

/-- A name of 243 characters, which the prober rejects and the parser accepts. -/
theorem prober_rejects_long :
    ¬∀ (data : Memory) (len : BitVec 32), Asks data len →
      dnsProbingParser data len = .dns ∧ dnsProbingParser data len ≠ .failed := by
  intro all
  have asks : Asks (queryOf longLabels) 261 := by
    refine ⟨by decide, by decide, by decide, by decide, by decide, {}, 249, ?_⟩
    refine ⟨⟨⟨some ((longLabels.drop 1).take 63 ++ 46 :: (longLabels.drop 65).take 63 ++
      46 :: (longLabels.drop 129).take 63 ++ 46 :: (longLabels.drop 193).take 51), 1⟩, 243, 1⟩,
      ?_⟩
    decide +kernel
  have failed : dnsProbingParser (queryOf longLabels) 261 = .failed := by decide +kernel
  exact (all _ _ asks).2 failed

end NetDefender.Proto
