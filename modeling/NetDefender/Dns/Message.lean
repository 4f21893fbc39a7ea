import NetDefender.Dns.Reads

/-!
# The wire format

What a name, a question and a resource record of a message are, apart from how they are
parsed: a name is a run of labels that may end with a jump to another place of the
message.  The parser accepts exactly the names within its limits, and what it stores of
questions and resource records is what the message holds.
-/

namespace NetDefender.DnsParser

open CString Logged

/-! ## Names -/

/-- A big-endian number of two bytes. -/
def word (memory : Memory) (p : Nat) : BitVec 16 := value (wordAt memory p)

/-- A big-endian number of four bytes. -/
def long (memory : Memory) (p : Nat) : BitVec 32 := value (longAt memory p)

/-- The bytes from an offset on. -/
def slice (memory : Memory) (p count : Nat) : Bytes := (List.range' p count).map memory

/-- The offset in a compression pointer. -/
def pointerAt (memory : Memory) (p : Nat) : Nat :=
  (memory p &&& 0x3F).toNat <<< 8 ||| (memory (p + 1)).toNat

/-- The labels of the name at a place, the number of jumps to find them, and the place
behind the name. -/
inductive NameAt (msg : Message) : Nat → List Bytes → Nat → Nat → Prop where
  | root {p : Nat} (inside : p < msg.packetEnd) (zero : msg.memory p = 0) :
      NameAt msg p [] 0 (p + 1)
  | label {p next jumps : Nat} {labels : List Bytes}
      (positive : 0 < (msg.memory p).toNat) (short : msg.memory p ≤ DNS_MAX_LABEL_LEN)
      (inside : p + 1 + (msg.memory p).toNat ≤ msg.packetEnd)
      (rest : NameAt msg (p + 1 + (msg.memory p).toNat) labels jumps next) :
      NameAt msg p (slice msg.memory (p + 1) (msg.memory p).toNat :: labels) jumps next
  | pointer {p next jumps : Nat} {labels : List Bytes} (inside : p + 1 < msg.packetEnd)
      (tag : msg.memory p &&& 0xC0 = 0xC0)
      (target : pointerAt msg.memory p < msg.packetLen)
      (rest : NameAt msg (msg.packet + pointerAt msg.memory p) labels jumps next) :
      NameAt msg p labels (jumps + 1) (p + 2)

/-- The text of a name. -/
def dotted (labels : List Bytes) : Bytes := labels.foldl appendLabel []

/-- The name at a place, if it keeps the limits on jumps and on the length of its text. -/
def TextAt (msg : Message) (start : Nat) (text : Bytes) (next : Nat) : Prop :=
  ∃ labels jumps, NameAt msg start labels jumps next ∧ jumps ≤ MAX_JUMPS ∧
    text = dotted labels ∧ text.length < DNS_MAX_NAME_LEN

section Name

variable {msg : Message} {p ptr : Nat} {out : Bytes}

theorem appendLabel_foldl_length (labels : List Bytes) (out : Bytes) :
    out.length ≤ (labels.foldl appendLabel out).length := by
  induction labels generalizing out with
  | nil => exact Nat.le_refl _
  | cons label labels ih =>
      have here := appendLabel_length out label
      have later := ih (appendLabel out label)
      rw [List.foldl_cons]
      omega

theorem NameAt.next_gt {labels : List Bytes} {jumps next : Nat}
    (name : NameAt msg p labels jumps next) : p < next := by
  induction name with
  | root => exact Nat.lt_succ_self _
  | label positive short inside rest ih => omega
  | pointer => omega

theorem NameAt.next_le {labels : List Bytes} {jumps next : Nat}
    (name : NameAt msg p labels jumps next) : next ≤ msg.packetEnd := by
  induction name with
  | root inside zero => exact inside
  | label positive short inside rest ih => exact ih
  | pointer inside tag target rest ih => omega

/-- The tag of a pointer is not the length of a label. -/
theorem tag_of_short {len : UInt8} (short : len ≤ DNS_MAX_LABEL_LEN) :
    ¬ len &&& 0xC0 = 0xC0 := by
  have every : ∀ bits : BitVec 8, bits ≤ 63#8 → ¬ bits &&& 0xC0#8 = 0xC0#8 := by decide
  intro tag
  exact every len.toBitVec short (congrArg UInt8.toBitVec tag)

/-- One turn of the loop, without the reads. -/
theorem value_nameLoop (turns jumps : Nat) (consumed : Option Nat) :
    value (nameLoop msg ptr (turns + 1) p out jumps consumed) =
      if p < msg.packetEnd then
        if msg.memory p &&& 0xC0 = 0xC0 then
          if p + 1 ≥ msg.packetEnd then none
          else if pointerAt msg.memory p ≥ msg.packetLen then none
          else if jumps + 1 > MAX_JUMPS then none
          else
            value (nameLoop msg ptr turns (msg.packet + pointerAt msg.memory p) out
              (jumps + 1) (consumed.or (some (p - ptr + 2))))
        else if msg.memory p = 0 then some (consumed.getD (p - ptr + 1), out)
        else if msg.memory p > DNS_MAX_LABEL_LEN then none
        else if p + 1 + (msg.memory p).toNat > msg.packetEnd then none
        else
          let out := appendLabel out (slice msg.memory (p + 1) (msg.memory p).toNat)
          if out.length > DNS_MAX_NAME_LEN - 1 then none
          else
            value (nameLoop msg ptr turns (p + 1 + (msg.memory p).toNat) out jumps consumed)
      else none := by
  simp only [nameLoop, value_ite, value_bind, value_byteAt, value_bytesAt, value_pure]
  rfl

/-- What the loop returns for the labels from a place on, by induction on its turns. -/
theorem nameLoop_sound (turns : Nat) {jumps : Nat} {consumed : Option Nat} {taken : Nat}
    {name : Bytes} (short : out.length < DNS_MAX_NAME_LEN) (few : jumps ≤ MAX_JUMPS)
    (forward : consumed = none → ptr ≤ p)
    (found : value (nameLoop msg ptr turns p out jumps consumed) = some (taken, name)) :
    ∃ labels more next, NameAt msg p labels more next ∧ jumps + more ≤ MAX_JUMPS ∧
      name = labels.foldl appendLabel out ∧ name.length < DNS_MAX_NAME_LEN ∧
      taken = consumed.getD (next - ptr) := by
  induction turns generalizing p out jumps consumed with
  | zero => exact nomatch found
  | succ turns ih =>
      rw [value_nameLoop] at found
      split at found
      next before =>
        split at found
        next tag =>
          split at found
          next => exact nomatch found
          next second =>
            split at found
            next => exact nomatch found
            next target =>
              split at found
              next => exact nomatch found
              next more =>
                obtain ⟨labels, jumped, next, name_at, bound, text, fits, taken_eq⟩ :=
                  ih short (by omega) (fun missing => by
                    cases consumed with
                    | none => exact nomatch missing
                    | some consumed => exact nomatch missing) found
                refine ⟨labels, jumped + 1, p + 2, ?_, by omega, text, fits, ?_⟩
                · exact .pointer (Nat.lt_of_not_ge second) tag (Nat.lt_of_not_ge target)
                    name_at
                · cases consumed with
                  | none =>
                      have forward : ptr ≤ p := forward rfl
                      rw [taken_eq, Option.none_or, Option.getD_some, Option.getD_none]
                      omega
                  | some consumed => exact taken_eq
        next notTag =>
          split at found
          next ends =>
            obtain ⟨rfl, rfl⟩ := Prod.mk.inj (Option.some.inj found)
            refine ⟨[], 0, p + 1, .root before ends, few, rfl, short, ?_⟩
            cases consumed with
            | none =>
                have forward : ptr ≤ p := forward rfl
                rw [Option.getD_none, Option.getD_none]
                omega
            | some consumed => rfl
          next nonzero =>
            split at found
            next => exact nomatch found
            next bounded =>
              split at found
              next => exact nomatch found
              next inside =>
                dsimp only at found
                split at found
                next => exact nomatch found
                next fits =>
                  obtain ⟨labels, jumped, next, name_at, bound, text, fits, taken_eq⟩ :=
                    ih (by omega) few (fun missing => by have := forward missing; omega)
                      found
                  refine ⟨_ :: labels, jumped, next, .label ?_ ?_ ?_ name_at, bound, text,
                    fits, taken_eq⟩
                  · exact Nat.pos_of_ne_zero fun none => nonzero (UInt8.toNat_inj.mp none)
                  · exact UInt8.not_lt.mp bounded
                  · exact Nat.le_of_not_gt inside
      next => exact nomatch found

/-- The loop finds every name within the limits, by induction on the name. -/
theorem NameAt.complete {labels : List Bytes} {more next : Nat}
    (name : NameAt msg p labels more next) (turns : Nat) {jumps : Nat}
    {consumed : Option Nat} (few : jumps + more ≤ MAX_JUMPS)
    (short : (labels.foldl appendLabel out).length < DNS_MAX_NAME_LEN)
    (enough : DNS_MAX_NAME_LEN - out.length + (MAX_JUMPS + 1 - jumps) ≤ turns)
    (forward : consumed = none → ptr ≤ p) :
    value (nameLoop msg ptr turns p out jumps consumed) =
      some (consumed.getD (next - ptr), labels.foldl appendLabel out) := by
  have still := appendLabel_foldl_length labels out
  obtain ⟨turns, rfl⟩ : ∃ fewer, turns = fewer + 1 :=
    Nat.exists_eq_add_one_of_ne_zero (by omega)
  induction name generalizing turns out jumps consumed with
  | @root p inside zero =>
      have notTag : ¬ msg.memory p &&& 0xC0 = 0xC0 := by rw [zero]; decide
      rw [value_nameLoop, if_pos inside, if_neg notTag, if_pos zero]
      cases consumed with
      | none =>
          have forward : ptr ≤ p := forward rfl
          rw [Option.getD_none, Option.getD_none, Nat.sub_add_comm forward]
          rfl
      | some consumed => rfl
  | @label p next more labels positive bounded inside rest ih =>
      have before : p < msg.packetEnd := by omega
      have nonzero : ¬ msg.memory p = 0 := by
        intro zero
        simp [zero] at positive
      rw [List.foldl_cons] at short still
      have longer := appendLabel_length out (slice msg.memory (p + 1) (msg.memory p).toNat)
      have later := appendLabel_foldl_length labels
        (appendLabel out (slice msg.memory (p + 1) (msg.memory p).toNat))
      have count : (slice msg.memory (p + 1) (msg.memory p).toNat).length =
          (msg.memory p).toNat := by rw [slice, List.length_map, List.length_range']
      rw [value_nameLoop, if_pos before, if_neg (tag_of_short bounded), if_neg nonzero,
        if_neg (UInt8.not_lt.mpr bounded), if_neg (Nat.not_lt.mpr inside)]
      dsimp only
      obtain ⟨turns, rfl⟩ : ∃ fewer, turns = fewer + 1 :=
        Nat.exists_eq_add_one_of_ne_zero (by omega)
      rw [if_neg (by omega)]
      exact ih few short (fun missing => by have := forward missing; omega) later turns
        (by omega)
  | @pointer p next more labels inside tag target rest ih =>
      have before : p < msg.packetEnd := by omega
      rw [value_nameLoop, if_pos before, if_pos tag, if_neg (Nat.not_le.mpr inside),
        if_neg (Nat.not_le.mpr target), if_neg (by omega)]
      have jumped : consumed.or (some (p - ptr + 2)) = none →
          ptr ≤ msg.packet + pointerAt msg.memory p := fun missing => by
        cases consumed with
        | none => exact nomatch missing
        | some consumed => exact nomatch missing
      obtain ⟨turns, rfl⟩ : ∃ fewer, turns = fewer + 1 :=
        Nat.exists_eq_add_one_of_ne_zero (by omega)
      rw [ih (by omega) short jumped still turns (by omega)]
      cases consumed with
      | none =>
          have forward : ptr ≤ p := forward rfl
          rw [Option.none_or, Option.getD_some, Option.getD_none, Nat.sub_add_comm forward]
      | some consumed => rfl

/-- `parse_dns_name` is exact: it returns the name at a place, and the bytes that the name
takes there, if there is one within the limits, and fails otherwise. -/
theorem parseDnsName_iff (start taken : Nat) (name : Bytes) :
    value (parseDnsName msg start) = some (taken, name) ↔
      ∃ next, TextAt msg start name next ∧ taken = next - start := by
  constructor
  · intro found
    obtain ⟨labels, jumps, next, name_at, few, text, short, taken_eq⟩ :=
      nameLoop_sound NAME_TURNS (by decide) (by decide) (fun _ => Nat.le_refl start) found
    rw [Nat.zero_add] at few
    exact ⟨next, ⟨labels, jumps, name_at, few, text, short⟩, taken_eq⟩
  · rintro ⟨next, ⟨labels, jumps, name_at, few, rfl, short⟩, rfl⟩
    exact name_at.complete NAME_TURNS (by rwa [Nat.zero_add]) short (by decide)
      fun _ => Nat.le_refl start

theorem TextAt.bounds {start next : Nat} {text : Bytes} (name : TextAt msg start text next) :
    start < next ∧ next ≤ msg.packetEnd := by
  obtain ⟨labels, jumps, name_at, -⟩ := name
  exact ⟨name_at.next_gt, name_at.next_le⟩

/-- There is one name at a place. -/
theorem TextAt.unique {start next other : Nat} {text text' : Bytes}
    (name : TextAt msg start text next) (name' : TextAt msg start text' other) :
    text' = text ∧ other = next := by
  have found := (parseDnsName_iff start _ text).mpr ⟨next, name, rfl⟩
  have found' := (parseDnsName_iff start _ text').mpr ⟨other, name', rfl⟩
  rw [found] at found'
  obtain ⟨taken, rfl⟩ := Prod.mk.inj (Option.some.inj found')
  have forward := name.bounds.1
  have forward' := name'.bounds.1
  exact ⟨rfl, by omega⟩

/-- The name at a place, as the parser reports it. -/
theorem parseDnsName_cases (start : Nat) :
    value (parseDnsName msg start) = none ∧ (∀ text next, ¬ TextAt msg start text next) ∨
      ∃ text next, TextAt msg start text next ∧
        value (parseDnsName msg start) = some (next - start, text) := by
  cases found : value (parseDnsName msg start) with
  | none =>
      refine .inl ⟨rfl, fun text next name => ?_⟩
      have parsed := (parseDnsName_iff start _ text).mpr ⟨next, name, rfl⟩
      rw [found] at parsed
      exact nomatch parsed
  | some result =>
      obtain ⟨next, name, taken⟩ := (parseDnsName_iff start result.1 result.2).mp found
      exact .inr ⟨result.2, next, name, by rw [← taken]⟩

end Name

/-! ## Questions and resource records -/

/-- A question as it is sent. -/
structure Question where
  qname : Bytes
  qtype : BitVec 16
  qclass : BitVec 16
  deriving DecidableEq, Repr

/-- A resource record as it is sent. -/
structure Resource where
  name : Bytes
  type : DnsType
  rrClass : BitVec 16
  ttl : BitVec 32
  rdata : Bytes
  deriving DecidableEq, Repr

/-- The question at a place, and the place behind it. -/
def QuestionAt (msg : Message) (start : Nat) (q : Question) (next : Nat) : Prop :=
  ∃ fields, TextAt msg start q.qname fields ∧ next = fields + 4 ∧ next ≤ msg.packetEnd ∧
    q.qtype = word msg.memory fields ∧ q.qclass = word msg.memory (fields + 2)

/-- The resource record at a place, and the place behind it. -/
def ResourceAt (msg : Message) (start : Nat) (rr : Resource) (next : Nat) : Prop :=
  ∃ fields, TextAt msg start rr.name fields ∧ fields + 10 ≤ msg.packetEnd ∧
    next = fields + 10 + (word msg.memory (fields + 8)).toNat ∧ next ≤ msg.packetEnd ∧
    rr.type = word msg.memory fields ∧ rr.rrClass = word msg.memory (fields + 2) ∧
    rr.ttl = long msg.memory (fields + 4) ∧
    rr.rdata = slice msg.memory (fields + 10) (word msg.memory (fields + 8)).toNat

/-- What a stored question says of the one that was sent. -/
def DnsQuestion.asSent (q : DnsQuestion) : Question where
  qname := q.qname.getD []
  qtype := q.qtype
  qclass := q.qclass

/-- What a stored record says of the one that was sent. -/
def DnsRr.asSent (rr : DnsRr) : Resource where
  name := rr.name
  type := rr.type
  rrClass := rr.rrClass
  ttl := rr.ttl
  rdata := rr.rdata.getD []

/-- Both allocations for a question succeed. -/
def QuestionGrants.All (granted : QuestionGrants) : Prop :=
  granted.question = true ∧ granted.qname = true

instance (granted : QuestionGrants) : Decidable granted.All :=
  inferInstanceAs (Decidable (_ ∧ _))

/-- The allocations succeed that storing the record needs. -/
def RrGrants.Stores (granted : RrGrants) (rr : Resource) : Prop :=
  granted.rr = true ∧ granted.name = true ∧ (rr.rdata = [] ∨ granted.rdata = true)

instance (granted : RrGrants) (rr : Resource) : Decidable (granted.Stores rr) :=
  inferInstanceAs (Decidable (_ ∧ _ ∧ (_ ∨ _)))

section Records

variable {msg : Message} {start : Nat}

theorem QuestionAt.next_gt {q : Question} {next : Nat}
    (question : QuestionAt msg start q next) : start < next := by
  obtain ⟨fields, name, rfl, -⟩ := question
  have forward := name.bounds.1
  omega

theorem ResourceAt.next_gt {rr : Resource} {next : Nat}
    (resource : ResourceAt msg start rr next) : start < next := by
  obtain ⟨fields, name, -, rfl, -⟩ := resource
  have forward := name.bounds.1
  omega

/-- What is left to do behind a name. -/
theorem parseDnsQuestion_named {name : Bytes} {fields : Nat}
    (at_start : TextAt msg start name fields) (granted : QuestionGrants) :
    value (parseDnsQuestion msg start granted) =
      if fields + 4 > msg.packetEnd then none
      else if granted.question && granted.qname then
        some (fields - start + 4,
          { qname := some name, qtype := word msg.memory fields, qnameLen := name.length,
            qclass := word msg.memory (fields + 2) })
      else none := by
  have found := (parseDnsName_iff start _ name).mpr ⟨fields, at_start, rfl⟩
  have forward := at_start.bounds.1
  have behind : start + (fields - start) = fields := by omega
  rw [parseDnsQuestion, value_bind, found]
  dsimp only
  rw [behind, value_ite, value_bind, value_bind, value_ite]
  rfl

/-- A question that is there and can be allocated is parsed. -/
theorem QuestionAt.parse {q : Question} {next : Nat} (question : QuestionAt msg start q next)
    {granted : QuestionGrants} (all : granted.All) :
    ∃ stored, value (parseDnsQuestion msg start granted) = some (next - start, stored) ∧
      stored.asSent = q := by
  obtain ⟨fields, name, rfl, fits, qtype, qclass⟩ := question
  have both : (granted.question && granted.qname) = true := Bool.and_eq_true_iff.mpr all
  have forward := name.bounds.1
  have length : fields + 4 - start = fields - start + 4 := by omega
  rw [parseDnsQuestion_named name, if_neg (Nat.not_lt.mpr fits), if_pos both, length]
  refine ⟨_, rfl, ?_⟩
  rw [DnsQuestion.asSent, Option.getD_some, ← qtype, ← qclass]

/-- Only a question that is there and can be allocated is parsed. -/
theorem questionAt_of_parse {granted : QuestionGrants} {taken : Nat} {stored : DnsQuestion}
    (parsed : value (parseDnsQuestion msg start granted) = some (taken, stored)) :
    granted.All ∧ QuestionAt msg start stored.asSent (start + taken) := by
  rcases parseDnsName_cases start with ⟨missing, -⟩ | ⟨name, fields, at_start, -⟩
  · rw [parseDnsQuestion, value_bind, missing] at parsed
    exact nomatch parsed
  · have forward := at_start.bounds.1
    rw [parseDnsQuestion_named at_start] at parsed
    split at parsed
    next => exact nomatch parsed
    next fits =>
      split at parsed
      next all =>
        obtain ⟨rfl, rfl⟩ := Prod.mk.inj (Option.some.inj parsed)
        refine ⟨Bool.and_eq_true_iff.mp all, fields, at_start, by omega, by omega, rfl, rfl⟩
      next => exact nomatch parsed

/-- What is left to do behind the name of a resource record. -/
theorem parseDnsRr_named {name : Bytes} {fields : Nat}
    (at_start : TextAt msg start name fields) (granted : RrGrants) :
    value (parseDnsRr msg start granted) =
      let type := word msg.memory fields
      let rdlength := word msg.memory (fields + 8)
      let rr (rdata : Option Bytes) (parsed : RrParsed) : DnsRr :=
        { name, nameLen := name.length, type, rrClass := word msg.memory (fields + 2)
          ttl := long msg.memory (fields + 4), rdlength, rdata, parsed }
      if fields + 10 > msg.packetEnd then none
      else if fields + 10 + rdlength.toNat > msg.packetEnd then none
      else if !(granted.rr && granted.name) then none
      else if rdlength = 0 then some (fields - start + 10, rr none .zero)
      else if !granted.rdata then none
      else
        some (fields - start + 10 + rdlength.toNat,
          rr (some (slice msg.memory (fields + 10) rdlength.toNat))
            (value (parseRdata msg (fields + 10) type rdlength.toNat granted.target))) := by
  have found := (parseDnsName_iff start _ name).mpr ⟨fields, at_start, rfl⟩
  have forward := at_start.bounds.1
  have behind : start + (fields - start) = fields := by omega
  rw [parseDnsRr, value_bind, found]
  dsimp only
  rw [behind]
  simp only [value_bind, value_ite, value_pure, value_bytesAt]
  rfl

theorem slice_eq_nil {memory : Memory} {p count : Nat} :
    slice memory p count = [] ↔ count = 0 := by
  rw [slice, List.map_eq_nil_iff, List.range'_eq_nil_iff]

/-- A resource record that is there and can be allocated is parsed. -/
theorem ResourceAt.parse {rr : Resource} {next : Nat} (resource : ResourceAt msg start rr next)
    {granted : RrGrants} (stores : granted.Stores rr) :
    ∃ stored, value (parseDnsRr msg start granted) = some (next - start, stored) ∧
      stored.asSent = rr := by
  obtain ⟨fields, name, fixed, rfl, fits, type, rrClass, ttl, rdata⟩ := resource
  obtain ⟨rrGranted, nameGranted, rdataGranted⟩ := stores
  have forward := name.bounds.1
  have both : ¬ (!(granted.rr && granted.name)) = true := by simp [rrGranted, nameGranted]
  rw [parseDnsRr_named name]
  dsimp only
  rw [if_neg (Nat.not_lt.mpr fixed), if_neg (Nat.not_lt.mpr fits), if_neg both]
  split
  next empty =>
    have zero : (word msg.memory (fields + 8)).toNat = 0 := congrArg BitVec.toNat empty
    have length : fields + 10 + (word msg.memory (fields + 8)).toNat - start =
        fields - start + 10 := by
      rw [zero]
      omega
    have none : slice msg.memory (fields + 10) (word msg.memory (fields + 8)).toNat = [] :=
      slice_eq_nil.mpr zero
    refine ⟨_, congrArg some (Prod.ext length.symm rfl), ?_⟩
    rw [DnsRr.asSent, Option.getD_none, ← none, ← type, ← rrClass, ← ttl, ← rdata]
  next some_data =>
    have present : rr.rdata ≠ [] := by
      rw [rdata, ne_eq, slice_eq_nil]
      exact fun zero => some_data (BitVec.eq_of_toNat_eq zero)
    have allocated := rdataGranted.resolve_left present
    rw [if_neg (by simp [allocated])]
    have length : fields + 10 + (word msg.memory (fields + 8)).toNat - start =
        fields - start + 10 + (word msg.memory (fields + 8)).toNat := by omega
    refine ⟨_, congrArg some (Prod.ext length.symm rfl), ?_⟩
    rw [DnsRr.asSent, Option.getD_some, ← type, ← rrClass, ← ttl, ← rdata]

/-- Only a resource record that is there and can be allocated is parsed. -/
theorem resourceAt_of_parse {granted : RrGrants} {taken : Nat} {stored : DnsRr}
    (parsed : value (parseDnsRr msg start granted) = some (taken, stored)) :
    granted.Stores stored.asSent ∧ ResourceAt msg start stored.asSent (start + taken) := by
  rcases parseDnsName_cases start with ⟨missing, -⟩ | ⟨name, fields, at_start, -⟩
  · rw [parseDnsRr, value_bind, missing] at parsed
    exact nomatch parsed
  · have forward := at_start.bounds.1
    rw [parseDnsRr_named at_start] at parsed
    dsimp only at parsed
    split at parsed
    next => exact nomatch parsed
    next fixed =>
      split at parsed
      next => exact nomatch parsed
      next fits =>
        split at parsed
        next => exact nomatch parsed
        next both =>
          have both : granted.rr = true ∧ granted.name = true := by simpa using both
          split at parsed
          next empty =>
            obtain ⟨rfl, rfl⟩ := Prod.mk.inj (Option.some.inj parsed)
            have zero : (word msg.memory (fields + 8)).toNat = 0 := congrArg BitVec.toNat empty
            have none : slice msg.memory (fields + 10) (word msg.memory (fields + 8)).toNat = [] :=
              slice_eq_nil.mpr zero
            exact ⟨⟨both.1, both.2, .inl rfl⟩, fields, at_start, by omega, by omega, by omega,
              rfl, rfl, rfl, none.symm⟩
          next some_data =>
            split at parsed
            next => exact nomatch parsed
            next allocated =>
              obtain ⟨rfl, rfl⟩ := Prod.mk.inj (Option.some.inj parsed)
              exact ⟨⟨both.1, both.2, .inr (by simpa using allocated)⟩, fields, at_start,
                by omega, by omega, by omega, rfl, rfl, rfl, rfl⟩

/-- There is one resource record at a place. -/
theorem ResourceAt.unique {rr other : Resource} {next next' : Nat}
    (resource : ResourceAt msg start rr next) (resource' : ResourceAt msg start other next') :
    other = rr := by
  have all (sent : Resource) : RrGrants.Stores {} sent := ⟨rfl, rfl, .inr rfl⟩
  obtain ⟨stored, parsed, same⟩ := resource.parse (all rr)
  obtain ⟨stored', parsed', same'⟩ := resource'.parse (all other)
  rw [parsed] at parsed'
  rw [← same, ← same', (Prod.mk.inj (Option.some.inj parsed')).2]

end Records

/-! ## Sections -/

/-- Things that lie one behind the other, each with the place where it starts. -/
inductive Consecutive {α : Type} (At : Nat → α → Nat → Prop) :
    Nat → List (Nat × α) → Nat → Prop where
  | nil (place : Nat) : Consecutive At place [] place
  | cons {place next finish : Nat} {entry : α} {rest : List (Nat × α)}
      (here : At place entry next) (behind : Consecutive At next rest finish) :
      Consecutive At place ((place, entry) :: rest) finish

end NetDefender.DnsParser
