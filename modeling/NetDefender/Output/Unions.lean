import NetDefender.Dns.Sections
import NetDefender.Output.Events

/-!
# The union of a resource record

The union `parsed` of `dns_rr_t` has an arm for each kind of record.  `parse_dns_rr` writes
one of them to zeroed memory, or none, by the type and the length of the data.  `free_rrs`
and `json_output_dns` choose the arm that they read by the type again, each in its own way.
Every read of the union is recorded.
-/

namespace NetDefender.Output

open CString Logged Fallible
open DnsParser

/-! ## Reads -/

/-- The arms of the union `parsed`. -/
inductive Arm where
  | domain
  | a
  | aaaa
  | mx
  deriving DecidableEq, Repr

/-- The arm that was written. -/
def writtenArm : RrParsed → Option Arm
  | .zero => none
  | .a _ => some .a
  | .aaaa _ => some .aaaa
  | .domain _ => some .domain
  | .mx _ _ => some .mx

/-- Every byte of the union is zero.  The pointers of the allocator are not null. -/
def AllZero : RrParsed → Prop
  | .zero => True
  | .a addr => ∀ byte ∈ addr, byte = 0
  | .aaaa addr => ∀ byte ∈ addr, byte = 0
  | .domain _ => False
  | .mx preference exchange => preference = 0 ∧ exchange = none

/-- A read of the union of a record of a section. -/
structure UnionRead where
  sec : RrSection
  record : DnsRr
  arm : Arm
  deriving DecidableEq, Repr

/-- The arm was written for the record, or nothing but zeros is read. -/
def UnionRead.Disciplined (read : UnionRead) : Prop :=
  writtenArm read.record.parsed = some read.arm ∨ AllZero read.record.parsed

/-- Bytes of an address or of a preference are used as a pointer.  `domain` takes the first
eight bytes of the union, and `exchange` the next eight. -/
def UnionRead.UsesAsPointer (read : UnionRead) : Prop :=
  match read.arm, read.record.parsed with
  | .domain, .a addr => ¬∀ byte ∈ addr, byte = 0
  | .domain, .aaaa addr => ¬∀ byte ∈ addr.take 8, byte = 0
  | .domain, .mx preference _ => preference ≠ 0
  | .mx, .aaaa addr => ¬∀ byte ∈ addr.drop 8, byte = 0
  | _, _ => False

/-- The turn of `free_rrs` for a record. -/
def freeRr (sec : RrSection) (rr : DnsRr) : Recording UnionRead Unit :=
  if rr.type = DNS_TYPE_CNAME ∨ rr.type = DNS_TYPE_NS ∨ rr.type = DNS_TYPE_PTR then
    record ⟨sec, rr, .domain⟩
  else if rr.type = DNS_TYPE_MX then record ⟨sec, rr, .mx⟩
  else pure ()

/-- `free_rrs`. -/
def freeRrs (sec : RrSection) (rrs : List DnsRr) : Recording UnionRead Unit :=
  rrs.forM (freeRr sec)

/-- `free_transaction`. -/
def freeTransaction (tx : DnsTransaction) : Recording UnionRead Unit := do
  freeRrs .answer tx.answers
  freeRrs .authority tx.authority
  freeRrs .additional tx.additional

/-- The turn of `json_output_dns` for an answer. -/
def readAnswer (rr : DnsRr) : Recording UnionRead Unit :=
  if rr.type = DNS_TYPE_A then record ⟨.answer, rr, .a⟩
  else if rr.type = DNS_TYPE_AAAA then record ⟨.answer, rr, .aaaa⟩
  else record ⟨.answer, rr, .domain⟩

/-- The loop of `json_output_dns` over the answers. -/
def readAnswers (tx : DnsTransaction) : Recording UnionRead Unit :=
  if tx.isResponse then (tx.answers.take tx.ancount.toNat).forM readAnswer else pure ()

/-- What is read of the records of a transaction. -/
def consumerReads (tx : DnsTransaction) : List UnionRead :=
  log (readAnswers tx) ++ log (freeTransaction tx)

section Reads

variable {read : UnionRead} {rr : DnsRr} {tx : DnsTransaction}

/-- A disciplined read takes no address and no preference for a pointer. -/
theorem UnionRead.Disciplined.no_pointer (disciplined : read.Disciplined) :
    ¬ read.UsesAsPointer := by
  obtain ⟨sec, rr, arm⟩ := read
  cases kind : rr.parsed with
  | zero => cases arm <;> simp [UnionRead.UsesAsPointer, kind]
  | a addr =>
      cases arm with
      | domain =>
          have zeros : ∀ byte ∈ addr, byte = 0 := by
            simpa [UnionRead.Disciplined, writtenArm, AllZero, kind] using disciplined
          simpa [UnionRead.UsesAsPointer, kind] using zeros
      | a | aaaa | mx => simp [UnionRead.UsesAsPointer, kind]
  | aaaa addr =>
      cases arm with
      | domain =>
          have zeros : ∀ byte ∈ addr, byte = 0 := by
            simpa [UnionRead.Disciplined, writtenArm, AllZero, kind] using disciplined
          have first : ∀ byte ∈ addr.take 8, byte = 0 := fun byte member =>
            zeros byte (List.mem_of_mem_take member)
          simpa [UnionRead.UsesAsPointer, kind] using first
      | mx =>
          have zeros : ∀ byte ∈ addr, byte = 0 := by
            simpa [UnionRead.Disciplined, writtenArm, AllZero, kind] using disciplined
          have second : ∀ byte ∈ addr.drop 8, byte = 0 := fun byte member =>
            zeros byte (List.mem_of_mem_drop member)
          simpa [UnionRead.UsesAsPointer, kind] using second
      | a | aaaa => simp [UnionRead.UsesAsPointer]
  | domain name => cases arm <;> simp [UnionRead.UsesAsPointer, kind]
  | mx preference exchange =>
      cases arm with
      | domain =>
          have zeros : preference = 0 ∧ exchange = none := by
            simpa [UnionRead.Disciplined, writtenArm, AllZero, kind] using disciplined
          simpa [UnionRead.UsesAsPointer, kind] using zeros.1
      | a | aaaa | mx => simp [UnionRead.UsesAsPointer, kind]

theorem mem_freeTransaction (member : read ∈ log (freeTransaction tx)) :
    read ∈ log (freeRr read.sec read.record) := by
  have turn : ∀ sec (rr : DnsRr), read ∈ log (freeRr sec rr) →
      read.sec = sec ∧ read.record = rr := by
    intro sec rr member
    rw [freeRr] at member
    split at member
    next =>
      obtain rfl := List.mem_singleton.mp member
      exact ⟨rfl, rfl⟩
    next =>
      split at member
      next =>
        obtain rfl := List.mem_singleton.mp member
        exact ⟨rfl, rfl⟩
      next => exact absurd member List.not_mem_nil
  have list : ∀ sec rrs, read ∈ log (freeRrs sec rrs) →
      read ∈ log (freeRr read.sec read.record) := by
    intro sec rrs member
    rw [freeRrs, log_forM] at member
    obtain ⟨rr, -, visited⟩ := List.mem_flatMap.mp member
    obtain ⟨rfl, rfl⟩ := turn sec rr visited
    exact visited
  rcases List.mem_append.mp member with answer | member
  · exact list _ _ answer
  rcases List.mem_append.mp member with authority | additional
  · exact list _ _ authority
  · exact list _ _ additional

/-- A read of a transaction is made for the record that it is a read of. -/
theorem mem_readAnswers (member : read ∈ log (readAnswers tx)) :
    read.sec = .answer ∧ read ∈ log (readAnswer read.record) := by
  rw [readAnswers] at member
  split at member
  next =>
    rw [log_forM] at member
    obtain ⟨rr, -, visited⟩ := List.mem_flatMap.mp member
    have whose : read.sec = .answer ∧ read.record = rr := by
      rw [readAnswer] at visited
      split at visited
      next =>
        obtain rfl := List.mem_singleton.mp visited
        exact ⟨rfl, rfl⟩
      next =>
        split at visited
        next =>
          obtain rfl := List.mem_singleton.mp visited
          exact ⟨rfl, rfl⟩
        next =>
          obtain rfl := List.mem_singleton.mp visited
          exact ⟨rfl, rfl⟩
    obtain ⟨home, rfl⟩ := whose
    exact ⟨home, visited⟩
  next => exact absurd member List.not_mem_nil

end Reads

/-! ## What is written -/

/-- The arm for a type. -/
def armOf (type : DnsType) : Option Arm :=
  if type = DNS_TYPE_A then some .a
  else if type = DNS_TYPE_AAAA then some .aaaa
  else if type = DNS_TYPE_CNAME ∨ type = DNS_TYPE_NS ∨ type = DNS_TYPE_PTR then some .domain
  else if type = DNS_TYPE_MX then some .mx
  else none

/-- An arm that was written is the arm for the type. -/
def Suits (type : DnsType) (parsed : RrParsed) : Prop :=
  ∀ arm, writtenArm parsed = some arm → armOf type = some arm

/-- The arm of an MX record holds something. -/
def HoldsMx : RrParsed → Prop
  | .mx preference exchange => ¬(preference = 0 ∧ exchange = none)
  | _ => False

/-- An MX record that leaves something in its arm: a preference that is not zero, or an
exchange that parses and can be allocated. -/
def StoresMx (msg : Message) (granted : RrGrants) (ptr : Nat) : Prop :=
  ∃ name fields, TextAt msg ptr name fields ∧ word msg.memory fields = DNS_TYPE_MX ∧
    2 ≤ (word msg.memory (fields + 8)).toNat ∧
      (word msg.memory (fields + 10) ≠ 0 ∨
        granted.target = true ∧ ∃ exchange next, TextAt msg (fields + 12) exchange next)

section Written

variable {msg : Message} {ptr taken : Nat} {granted : RrGrants} {rr : DnsRr}

theorem parseTarget_eq (start : Nat) (granted : Bool) :
    value (parseTarget msg start granted) =
      match value (parseDnsName msg start) with
      | none => none
      | some (consumed, name) => if consumed > 0 && granted then some name else none := by
  rw [parseTarget, value_bind]
  cases value (parseDnsName msg start) <;> rfl

theorem parseTarget_isSome (start : Nat) (granted : Bool) :
    (value (parseTarget msg start granted)).isSome ↔
      granted = true ∧ ∃ name next, TextAt msg start name next := by
  rw [parseTarget_eq]
  rcases @parseDnsName_cases msg start with ⟨missing, none⟩ | ⟨name, next, found, parsed⟩
  · simp [missing, none]
  · have forward := found.bounds.1
    have positive : next - start > 0 := by omega
    simp only [parsed, positive, decide_true, Bool.true_and]
    cases granted with
    | true => simpa using ⟨name, next, found⟩
    | false => simp

theorem suits_zero (type : DnsType) : Suits type .zero := fun _ written => nomatch written

theorem parseRdata_suits (type : DnsType) (rdlength : Nat) (target : Bool) :
    Suits type (value (parseRdata msg ptr type rdlength target)) := by
  rw [parseRdata]
  split
  next a =>
    rintro arm ⟨⟩
    rw [a.1]
    decide
  next =>
    split
    next aaaa =>
      rintro arm ⟨⟩
      rw [aaaa.1]
      decide
    next =>
      split
      next domain =>
        rw [value_bind]
        cases value (parseTarget msg ptr target) with
        | none => exact suits_zero type
        | some name =>
            rintro arm ⟨⟩
            rcases domain with rfl | rfl | rfl <;> decide
      next =>
        split
        next mx =>
          rintro arm ⟨⟩
          rw [mx.1]
          decide
        next => exact suits_zero type

theorem parseRdata_holdsMx (type : DnsType) (rdlength : Nat) (target : Bool) :
    HoldsMx (value (parseRdata msg ptr type rdlength target)) ↔
      type = DNS_TYPE_MX ∧ 2 ≤ rdlength ∧ (word msg.memory ptr ≠ 0 ∨
        target = true ∧ ∃ exchange next, TextAt msg (ptr + 2) exchange next) := by
  by_cases mx : type = DNS_TYPE_MX ∧ rdlength ≥ 2
  · obtain ⟨rfl, enough⟩ := mx
    have written : value (parseRdata msg ptr DNS_TYPE_MX rdlength target) =
        .mx (word msg.memory ptr) (value (parseTarget msg (ptr + 2) target)) := by
      rw [parseRdata, if_neg fun a => absurd a.1 (by decide),
        if_neg fun aaaa => absurd aaaa.1 (by decide), if_neg (by decide), if_pos ⟨rfl, enough⟩]
      rfl
    rw [written, ← parseTarget_isSome, Option.isSome_iff_ne_none]
    simp only [HoldsMx, true_and, enough]
    exact Classical.not_and_iff_not_or_not
  · constructor
    · intro holds
      exfalso
      rw [parseRdata] at holds
      split at holds
      next => exact holds
      next =>
        split at holds
        next => exact holds
        next =>
          split at holds
          next =>
            rw [value_bind] at holds
            cases found : value (parseTarget msg ptr target) with
            | none =>
                rw [found] at holds
                exact holds
            | some name =>
                rw [found] at holds
                exact holds
          next => exact holds
    · rintro ⟨type, enough, -⟩
      exact absurd ⟨type, enough⟩ mx

/-- What a record that was parsed has in its union: nothing if it has no data, and else what
its data give. -/
theorem parseDnsRr_parsed (parsed : value (parseDnsRr msg ptr granted) = some (taken, rr)) :
    ∃ fields, TextAt msg ptr rr.name fields ∧ rr.type = word msg.memory fields ∧
      (word msg.memory (fields + 8) = 0 ∧ rr.parsed = .zero ∨
        rr.parsed = value (parseRdata msg (fields + 10) rr.type
          (word msg.memory (fields + 8)).toNat granted.target)) := by
  rcases @parseDnsName_cases msg ptr with ⟨missing, -⟩ | ⟨name, fields, at_start, -⟩
  · rw [parseDnsRr, value_bind, missing] at parsed
    exact absurd parsed (Option.some_ne_none _).symm
  · rw [parseDnsRr_named at_start] at parsed
    dsimp only at parsed
    split at parsed
    next => exact absurd parsed (Option.some_ne_none _).symm
    next =>
      split at parsed
      next => exact absurd parsed (Option.some_ne_none _).symm
      next =>
        split at parsed
        next => exact absurd parsed (Option.some_ne_none _).symm
        next =>
          split at parsed
          next empty =>
            obtain ⟨-, rfl⟩ := Prod.mk.inj (Option.some.inj parsed)
            exact ⟨fields, at_start, rfl, .inl ⟨empty, rfl⟩⟩
          next =>
            split at parsed
            next => exact absurd parsed (Option.some_ne_none _).symm
            next =>
              obtain ⟨-, rfl⟩ := Prod.mk.inj (Option.some.inj parsed)
              exact ⟨fields, at_start, rfl, .inr rfl⟩

theorem parseDnsRr_suits (parsed : value (parseDnsRr msg ptr granted) = some (taken, rr)) :
    Suits rr.type rr.parsed := by
  obtain ⟨fields, -, -, ⟨-, zero⟩ | data⟩ := parseDnsRr_parsed parsed
  · rw [zero]
    exact suits_zero rr.type
  · rw [data]
    exact parseRdata_suits _ _ _

theorem parseDnsRr_holdsMx (parsed : value (parseDnsRr msg ptr granted) = some (taken, rr)) :
    HoldsMx rr.parsed ↔ StoresMx msg granted ptr := by
  obtain ⟨fields, named, type, union⟩ := parseDnsRr_parsed parsed
  have here : StoresMx msg granted ptr ↔
      rr.type = DNS_TYPE_MX ∧ 2 ≤ (word msg.memory (fields + 8)).toNat ∧
        (word msg.memory (fields + 10) ≠ 0 ∨
          granted.target = true ∧ ∃ exchange next, TextAt msg (fields + 12) exchange next) := by
    rw [type]
    constructor
    · rintro ⟨name, other, named', mx⟩
      obtain ⟨-, rfl⟩ := named.unique named'
      exact mx
    · exact fun mx => ⟨rr.name, fields, named, mx⟩
  rw [here]
  rcases union with ⟨empty, zero⟩ | data
  · rw [zero, empty]
    constructor
    · exact False.elim
    · rintro ⟨-, enough, -⟩
      exact absurd enough (by decide)
  · rw [data]
    exact parseRdata_holdsMx ..

end Written

/-! ## What is read -/

section Consumers

variable {msg : Message} {ptr taken : Nat} {granted : RrGrants} {rr : DnsRr}
  {read : UnionRead}

theorem armOf_not_address {type : DnsType} (notA : ¬ type = DNS_TYPE_A)
    (notAaaa : ¬ type = DNS_TYPE_AAAA) : armOf type ≠ some .a ∧ armOf type ≠ some .aaaa := by
  rw [armOf, if_neg notA, if_neg notAaaa]
  split
  next => exact ⟨by decide, by decide⟩
  next => split <;> exact ⟨by decide, by decide⟩

theorem Suits.disciplined {sec : RrSection} {arm : Arm} (suits : Suits rr.type rr.parsed)
    (chosen : armOf rr.type = some arm) : UnionRead.Disciplined ⟨sec, rr, arm⟩ := by
  cases written : writtenArm rr.parsed with
  | none =>
      refine .inr ?_
      cases kind : rr.parsed with
      | zero => trivial
      | a | aaaa | domain | mx =>
          rw [kind] at written
          cases written
  | some other =>
      have same := (suits other written).symm.trans chosen
      exact .inl (written.trans same)

/-- `free_rrs` agrees with `parse_dns_rr` on the arm of every type. -/
theorem freeRr_disciplined {sec : RrSection} (suits : Suits rr.type rr.parsed)
    (member : read ∈ log (freeRr sec rr)) : read.Disciplined := by
  rw [freeRr] at member
  split at member
  next names =>
    obtain rfl := List.mem_singleton.mp member
    refine suits.disciplined ?_
    rcases names with type | type | type <;> rw [type] <;> decide
  next =>
    split at member
    next mx =>
      obtain rfl := List.mem_singleton.mp member
      refine suits.disciplined ?_
      rw [mx]
      decide
    next => exact absurd member List.not_mem_nil

/-- `json_output_dns` reads `domain` for every type but two, so that it agrees with
`parse_dns_rr` unless the arm of an MX record holds something. -/
theorem readAnswer_disciplined (suits : Suits rr.type rr.parsed) (empty : ¬ HoldsMx rr.parsed)
    (member : read ∈ log (readAnswer rr)) : read.Disciplined := by
  rw [readAnswer] at member
  split at member
  next a =>
    obtain rfl := List.mem_singleton.mp member
    refine suits.disciplined ?_
    rw [a]
    decide
  next notA =>
    split at member
    next aaaa =>
      obtain rfl := List.mem_singleton.mp member
      refine suits.disciplined ?_
      rw [aaaa]
      decide
    next notAaaa =>
      obtain rfl := List.mem_singleton.mp member
      cases kind : rr.parsed with
      | zero => exact .inr (by rw [kind]; trivial)
      | domain name => exact .inl (by rw [kind]; rfl)
      | mx preference exchange =>
          rw [kind] at empty
          exact .inr (by rw [kind]; exact Classical.not_not.mp empty)
      | a addr =>
          exact absurd (suits .a (by rw [kind]; rfl)) (armOf_not_address notA notAaaa).1
      | aaaa addr =>
          exact absurd (suits .aaaa (by rw [kind]; rfl)) (armOf_not_address notA notAaaa).2

theorem readAnswer_undisciplined (suits : Suits rr.type rr.parsed)
    (holds : HoldsMx rr.parsed) :
    ⟨.answer, rr, .domain⟩ ∈ log (readAnswer rr) ∧
      ¬ UnionRead.Disciplined ⟨.answer, rr, .domain⟩ := by
  cases kind : rr.parsed with
  | mx preference exchange =>
      rw [kind] at holds
      have chosen : armOf rr.type = some .mx := suits .mx (by rw [kind]; rfl)
      have notA : ¬ rr.type = DNS_TYPE_A := fun type => by
        rw [type] at chosen
        exact absurd chosen (by decide)
      have notAaaa : ¬ rr.type = DNS_TYPE_AAAA := fun type => by
        rw [type] at chosen
        exact absurd chosen (by decide)
      constructor
      · rw [readAnswer, if_neg notA, if_neg notAaaa]
        exact List.mem_singleton.mpr rfl
      · rintro (written | zeros)
        · rw [kind] at written
          cases written
        · rw [kind] at zeros
          exact holds zeros
  | zero | a addr | aaaa addr | domain name =>
      rw [kind] at holds
      exact holds.elim

/-- The emitter finds a text, or none, for every answer that it does not misread. -/
theorem rdataText_ok (suits : Suits rr.type rr.parsed) (empty : ¬ HoldsMx rr.parsed) :
    ∃ rdata, rdataText rr = .ok rdata := by
  have written : ∀ arm, writtenArm rr.parsed = some arm → armOf rr.type = some arm := suits
  rw [rdataText]
  split
  next a =>
    rw [a] at written
    cases kind : rr.parsed with
    | zero | a addr => exact ⟨_, rfl⟩
    | aaaa | domain | mx =>
        rw [kind] at written
        exact absurd (written _ rfl) (by decide)
  next notA =>
    split
    next aaaa =>
      rw [aaaa] at written
      cases kind : rr.parsed with
      | zero | aaaa addr => exact ⟨_, rfl⟩
      | a | domain | mx =>
          rw [kind] at written
          exact absurd (written _ rfl) (by decide)
    next notAaaa =>
      obtain ⟨notForA, notForAaaa⟩ := armOf_not_address notA notAaaa
      cases kind : rr.parsed with
      | zero | domain name => exact ⟨_, rfl⟩
      | a addr =>
          rw [kind] at written
          exact absurd (written _ rfl) notForA
      | aaaa addr =>
          rw [kind] at written
          exact absurd (written _ rfl) notForAaaa
      | mx preference exchange =>
          rw [kind] at empty
          have zeros : preference = 0 ∧ exchange = none := Classical.not_not.mp empty
          exact ⟨none, if_pos zeros.1⟩

/-- A transaction is printed if none of its answers is misread. -/
theorem jsonOutputDns_ok {ctx : JsonOutputCtx} {now : Timeval} {tx : DnsTransaction}
    {flow : Option Flows.Flow}
    (each : ∀ rr ∈ tx.answers, Suits rr.type rr.parsed ∧ ¬ HoldsMx rr.parsed) :
    ∃ calls, jsonOutputDns ctx now tx flow = .ok calls := by
  have printed : ∃ answers, (tx.answers.take tx.ancount.toNat).mapM answerCalls = .ok answers := by
    refine exists_mapM_ok fun rr member => ?_
    obtain ⟨suits, empty⟩ := each rr (List.mem_of_mem_take member)
    obtain ⟨rdata, found⟩ := rdataText_ok suits empty
    exact exists_map_ok_iff.mpr ⟨rdata, found⟩
  rw [jsonOutputDns, exists_map_ok_iff]
  split
  next =>
    refine exists_map_ok_iff.mpr ?_
    split
    next => exact ⟨[], rfl⟩
    next => exact exists_map_ok_iff.mpr printed
  next => exact ⟨[], rfl⟩

/-- A response whose only answer is a record. -/
def responseWith (rr : DnsRr) : DnsTransaction where
  txid := 0
  isResponse := true
  opcode := 0
  rcode := 0
  recursionDesired := false
  authoritative := false
  truncated := false
  recursionAvailable := false
  qdcount := 0
  ancount := 1
  nscount := 0
  arcount := 0
  answers := [rr]

/-- Whatever transaction holds a record that `parse_dns_rr` made, its consumers read only the
arm that was written for it or zeros, except that `json_output_dns` reads the domain of an
answer of type MX whose preference is not zero or whose exchange is stored. -/
theorem union_discipline_iff (msg : Message) (ptr taken : Nat) (granted : RrGrants) (rr : DnsRr)
    (sec : RrSection) (parsed : value (parseDnsRr msg ptr granted) = some (taken, rr)) :
    (∀ tx, ∀ read ∈ consumerReads tx, read.sec = sec → read.record = rr →
      read.Disciplined ∧ ¬ read.UsesAsPointer) ↔
        ¬(sec = .answer ∧ StoresMx msg granted ptr) := by
  have suits := parseDnsRr_suits parsed
  have holds := parseDnsRr_holdsMx parsed
  constructor
  · rintro every ⟨rfl, stores⟩
    obtain ⟨member, undisciplined⟩ := readAnswer_undisciplined suits (holds.mpr stores)
    have reads : log (readAnswers (responseWith rr)) = log (readAnswer rr) :=
      List.append_nil _
    have found : ⟨.answer, rr, .domain⟩ ∈ consumerReads (responseWith rr) :=
      List.mem_append_left _ (reads ▸ member)
    exact undisciplined (every _ _ found rfl rfl).1
  · rintro excluded tx read member rfl rfl
    have disciplined : read.Disciplined := by
      rcases List.mem_append.mp member with answer | freed
      · obtain ⟨home, visited⟩ := mem_readAnswers answer
        exact readAnswer_disciplined suits (fun mx => excluded ⟨home, holds.mp mx⟩) visited
      · exact freeRr_disciplined suits (mem_freeTransaction freed)
    exact ⟨disciplined, disciplined.no_pointer⟩

end Consumers

/-- A root name, the type, the class, a TTL of zero, and the data. -/
def answerOf (type : UInt8) (rdata : Bytes) : Message where
  memory := fun p =>
    ([0, 0, type, 0, 1, 0, 0, 0, 0, 0, UInt8.ofNat rdata.length] ++ rdata).getD p 0
  packet := 0
  packetLen := 11 + rdata.length

/-- An address record, which every consumer reads as such. -/
theorem union_discipline_address :
    let rr : DnsRr := ⟨[], 0, 1, 1, 0, 4, some [10, 0, 0, 1], .a [10, 0, 0, 1]⟩
    (∀ tx, ∀ read ∈ consumerReads tx, read.sec = .answer → read.record = rr →
      read.Disciplined ∧ ¬ read.UsesAsPointer) ↔
        ¬(RrSection.answer = .answer ∧ StoresMx (answerOf 1 [10, 0, 0, 1]) {} 0) :=
  union_discipline_iff (answerOf 1 [10, 0, 0, 1]) 0 15 {} _ .answer (by decide +kernel)

/-- A mail exchanger with preference 10, which `json_output_dns` takes for a pointer. -/
theorem preference_read_as_pointer :
    ¬∀ (msg : Message) (ptr taken : Nat) (granted : RrGrants) (rr : DnsRr),
      value (parseDnsRr msg ptr granted) = some (taken, rr) →
        ∀ tx, ∀ read ∈ consumerReads tx, read.record = rr →
          read.Disciplined ∧ ¬ read.UsesAsPointer := by
  intro all
  let rr : DnsRr := ⟨[], 0, 15, 1, 0, 3, some [0, 10, 0], .mx 10 (some [])⟩
  have parsed : value (parseDnsRr (answerOf 15 [0, 10, 0]) 0 {}) = some (14, rr) := by
    decide +kernel
  have member : ⟨.answer, rr, .domain⟩ ∈ consumerReads (responseWith rr) := by decide +kernel
  have used : UnionRead.UsesAsPointer ⟨.answer, rr, .domain⟩ :=
    (by decide : (10 : BitVec 16) ≠ 0)
  exact (all _ 0 14 {} rr parsed _ _ member rfl).2 used

end NetDefender.Output
