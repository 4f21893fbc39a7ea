import NetDefender.Http.Parser
import NetDefender.Proto.Detect

/-!
# Detection rules

How `rule_engine.c` checks a rule against an HTTP or a DNS transaction.  The verdict
starts at true and is only cleared by a condition that fails on a field that is there:
where no field that the rule names is present, the rule fires.
-/

namespace NetDefender.Dns

open CString

/-- `dns_question_t`, as the rules read it. -/
structure DnsQuestion where
  qname : Option Bytes := none
  qtype : BitVec 16 := 0
  deriving DecidableEq, Repr

/-- `dns_transaction_t`, as the rules read it. -/
structure DnsTransaction where
  questions : List DnsQuestion := []
  deriving DecidableEq, Repr

end NetDefender.Dns

namespace NetDefender.Rules

open CString Http Dns

/-! ## Rules -/

/-- `rule_match_type_t`. -/
inductive RuleMatchType where
  | content
  | pcre
  | length
  | entropy
  | frequency
  deriving DecidableEq, Repr

/-- `rule_condition_t`. -/
structure RuleCondition where
  type : RuleMatchType
  pattern : Option Bytes := none
  caseSensitive : Bool := false
  negated : Bool := false
  minLength : Nat := 0
  maxLength : Nat := 0
  minEntropy : Float := 0
  maxEntropy : Float := 0

/-- The fields of `detection_rule_t` for HTTP that are read. -/
structure HttpChecks where
  checkUri : Bool := false
  checkHeaders : Bool := false
  targetHeader : Option Bytes := none
  deriving DecidableEq, Repr

/-- The fields of `detection_rule_t` for DNS that are read. -/
structure DnsChecks where
  checkQuery : Bool := false
  qtype : BitVec 16 := 0
  deriving DecidableEq, Repr

/-- `detection_rule_t`, as far as the checks read it. -/
structure DetectionRule where
  ruleId : Nat := 0
  enabled : Bool := false
  protocol : Proto.AppProto := .unknown
  conditions : List RuleCondition := []
  http : HttpChecks := {}
  dns : DnsChecks := {}

/-- `rule_condition_content`. -/
def ruleConditionContent (pattern : Bytes) (caseSensitive : Bool) : RuleCondition :=
  { type := .content, pattern := some pattern, caseSensitive := caseSensitive }

/-- `rule_condition_length`. -/
def ruleConditionLength (minLength maxLength : Nat) : RuleCondition :=
  { type := .length, minLength := minLength, maxLength := maxLength }

/-- `rule_condition_entropy`. -/
def ruleConditionEntropy (minEntropy maxEntropy : Float) : RuleCondition :=
  { type := .entropy, minEntropy := minEntropy, maxEntropy := maxEntropy }

/-! ## Conditions -/

/-- `string_contains`. -/
def stringContains (haystack : Bytes) (needle : Option Bytes) (caseSensitive : Bool) :
    Bool :=
  match needle with
  | none => false
  | some needle =>
      if caseSensitive then occursIn (text needle) (text haystack)
      else occursInIgnoringCase (text needle) (text haystack)

/-- `calculate_entropy`. -/
def calculateEntropy (str : Bytes) : Float :=
  let bytes := text str
  if bytes.length = 0 then 0
  else
    (List.range 256).foldl (fun entropy byte =>
      let freq := bytes.count (UInt8.ofNat byte)
      if freq > 0 then
        let p := Float.ofNat freq / Float.ofNat bytes.length
        entropy - p * Float.log2 p
      else entropy) 0

/-- `check_condition` on a field that is present. -/
def checkCondition (cond : RuleCondition) (data : Bytes) : Bool :=
  let isMatch :=
    match cond.type with
    | .content => stringContains data cond.pattern cond.caseSensitive
    | .length =>
        let len := (text data).length
        decide (len ≥ cond.minLength) && (cond.maxLength == 0 || decide (len ≤ cond.maxLength))
    | .entropy =>
        let entropy := calculateEntropy data
        decide (entropy ≥ cond.minEntropy) && decide (entropy ≤ cond.maxEntropy)
    | .pcre | .frequency => false
  if cond.negated then !isMatch else isMatch

/-! ## Checks -/

/-- `snprintf` of a label and a value into a buffer of a size. -/
def formatDetail (size : Nat) (label value : Bytes) : Bytes :=
  (text label ++ ascii ": " ++ text value).take (size - 1)

/-- The check of one field: the verdict and the detail buffer are only touched if the
field is present. -/
def checkField (rule : DetectionRule) (size : Nat) (label : Bytes) (field : Option Bytes)
    (state : Bool × Bytes) : Bool × Bytes :=
  match field with
  | none => state
  | some value =>
      let allConditionsMatch := state.1 && rule.conditions.all (checkCondition · value)
      (allConditionsMatch,
        if allConditionsMatch then formatDetail size label value else state.2)

/-- The URI that a rule checks, if the transaction has one. -/
def uriField (rule : DetectionRule) (tx : HttpTransaction) : Option Bytes :=
  if rule.http.checkUri then tx.request.bind (·.uri) else none

/-- The value of the header that a rule checks, if the transaction has it. -/
def headerField (rule : DetectionRule) (tx : HttpTransaction) : Option Bytes :=
  if rule.http.checkHeaders then
    tx.request.bind fun req => rule.http.targetHeader.bind fun name =>
      (httpFindHeader req.headers (text name)).map (·.value)
  else none

/-- `check_http_rule`, with the detail buffer before and after. -/
def checkHttpRule (rule : DetectionRule) (tx : HttpTransaction) (detail : Bytes)
    (size : Nat) : Bool × Bytes :=
  if !rule.enabled then (false, detail)
  else
    let state := checkField rule size (ascii "URI") (uriField rule tx) (true, detail)
    checkField rule size (rule.http.targetHeader.getD []) (headerField rule tx) state

/-- The question that a rule checks, if the message has one with a name. -/
def queryField (rule : DetectionRule) (tx : DnsTransaction) : Option (Bytes × BitVec 16) :=
  if rule.dns.checkQuery then
    tx.questions.head?.bind fun q => q.qname.map fun qname => (qname, q.qtype)
  else none

/-- `check_dns_rule`. -/
def checkDnsRule (rule : DetectionRule) (tx : DnsTransaction) (detail : Bytes)
    (size : Nat) : Bool × Bytes :=
  if !rule.enabled then (false, detail)
  else
    match queryField rule tx with
    | none => (true, detail)
    | some (qname, qtype) =>
        if rule.dns.qtype ≠ 0 ∧ qtype ≠ rule.dns.qtype then (false, detail)
        else checkField rule size (ascii "Query") (some qname) (true, detail)

/-! ## What a verdict is about -/

/-- The fields that an HTTP rule names and that are present.  A rule that checks headers
without naming one names none. -/
def httpFields (rule : DetectionRule) (tx : HttpTransaction) : List Bytes :=
  (uriField rule tx).toList ++ (headerField rule tx).toList

/-- The field that a DNS rule names, if it is present. -/
def dnsFields (rule : DetectionRule) (tx : DnsTransaction) : List Bytes :=
  ((queryField rule tx).map (·.1)).toList

/-- All conditions of a rule hold of a field. -/
def DetectionRule.Holds (rule : DetectionRule) (field : Bytes) : Prop :=
  ∀ cond ∈ rule.conditions, checkCondition cond field = true

variable (rule : DetectionRule) (detail : Bytes) (size : Nat)

theorem checkField_fst (label : Bytes) (field : Option Bytes) (state : Bool × Bytes) :
    (checkField rule size label field state).1 = true ↔
      state.1 = true ∧ ∀ value ∈ field.toList, rule.Holds value := by
  cases field with
  | none => simp [checkField]
  | some value => simp [checkField, DetectionRule.Holds]

/-- An HTTP rule fires exactly when it is enabled and its conditions hold of every field
that it names and that is present, be there any or not. -/
theorem checkHttpRule_iff (tx : HttpTransaction) :
    (checkHttpRule rule tx detail size).1 = true ↔
      rule.enabled = true ∧ ∀ field ∈ httpFields rule tx, rule.Holds field := by
  simp only [checkHttpRule]
  by_cases enabled : rule.enabled
  · simp only [enabled, Bool.not_true, Bool.false_eq_true, if_false, checkField_fst,
      httpFields, List.forall_mem_append, true_and]
  · simp [enabled]

/-- A DNS rule fires exactly when it is enabled and its conditions hold of the query name,
if there is one, and its type is the one asked for. -/
theorem checkDnsRule_iff (tx : DnsTransaction) :
    (checkDnsRule rule tx detail size).1 = true ↔
      rule.enabled = true ∧ (∀ field ∈ dnsFields rule tx, rule.Holds field) ∧
        ∀ query ∈ queryField rule tx, rule.dns.qtype = 0 ∨ query.2 = rule.dns.qtype := by
  simp only [checkDnsRule, dnsFields]
  by_cases enabled : rule.enabled
  · simp only [enabled, Bool.not_true, Bool.false_eq_true, if_false, true_and]
    cases queryField rule tx with
    | none => simp
    | some query =>
        have filter : (∀ asked ∈ some query,
            rule.dns.qtype = 0 ∨ asked.2 = rule.dns.qtype) ↔
            ¬ (rule.dns.qtype ≠ 0 ∧ query.2 ≠ rule.dns.qtype) := by
          simp only [Option.mem_some_iff, forall_eq', not_and_or, not_not]
        rw [filter]
        dsimp only
        by_cases other : rule.dns.qtype ≠ 0 ∧ query.2 ≠ rule.dns.qtype
        · rw [if_pos other]
          exact ⟨fun fired => absurd fired Bool.false_ne_true,
            fun holds => absurd other holds.2⟩
        · rw [if_neg other, checkField_fst]
          exact ⟨fun holds => ⟨holds.2, other⟩, fun holds => ⟨rfl, holds.1⟩⟩
  · simp [enabled]

/-- A verdict over fields that are all fine is one about a field that is there, unless
there is none. -/
theorem fires_on_present_iff {fires : Prop} {fields : List Bytes}
    (sound : fires → rule.enabled = true ∧ ∀ field ∈ fields, rule.Holds field)
    (blind : rule.enabled = true → fields = [] → fires) :
    (fires → rule.enabled = true ∧ ∃ field ∈ fields, rule.Holds field) ↔
      rule.enabled = false ∨ fields ≠ [] := by
  constructor
  · intro present
    by_contra neither
    rw [not_or, Bool.not_eq_false, not_not] at neither
    obtain ⟨enabled, none⟩ := neither
    obtain ⟨-, field, member, -⟩ := present (blind enabled none)
    simp [none] at member
  · rintro allowed fired
    obtain ⟨enabled, holds⟩ := sound fired
    rcases allowed with disabled | some_field
    · simp [enabled] at disabled
    · obtain ⟨field, member⟩ := List.exists_mem_of_ne_nil _ some_field
      exact ⟨enabled, field, member, holds field member⟩

/-- A rule fires only when it is enabled and a field that it names is present and meets
all its conditions, if and only if the rule is disabled or such a field is present. -/
theorem rules_fire_on_present_fields_iff :
    (∀ tx : HttpTransaction,
      ((checkHttpRule rule tx detail size).1 = true →
          rule.enabled = true ∧ ∃ field ∈ httpFields rule tx, rule.Holds field) ↔
        rule.enabled = false ∨ httpFields rule tx ≠ []) ∧
    (∀ tx : DnsTransaction,
      ((checkDnsRule rule tx detail size).1 = true →
          rule.enabled = true ∧ ∃ field ∈ dnsFields rule tx, rule.Holds field) ↔
        rule.enabled = false ∨ dnsFields rule tx ≠ []) := by
  constructor
  · intro tx
    refine fires_on_present_iff rule (checkHttpRule_iff rule detail size tx).mp ?_
    intro enabled none
    rw [checkHttpRule_iff, none]
    exact ⟨enabled, by simp⟩
  · intro tx
    refine fires_on_present_iff rule (fun fired => ?_) ?_
    · have holds := (checkDnsRule_iff rule detail size tx).mp fired
      exact ⟨holds.1, holds.2.1⟩
    · intro enabled none
      rw [checkDnsRule_iff, none]
      have absent : queryField rule tx = Option.none := by
        simpa [dnsFields] using none
      exact ⟨enabled, by simp, by simp [absent]⟩

/-- The built-in rule 1001, "SQL Injection - UNION". -/
def unionRule : DetectionRule where
  ruleId := 1001
  enabled := true
  protocol := .http
  conditions :=
    [ruleConditionContent (ascii "union") false, ruleConditionContent (ascii "select") false]
  http := { checkUri := true }

/-- A request line that has not arrived in full yet fires the rule, with no URI to
look at. -/
theorem union_rule_fires_without_uri :
    ∃ tx, (({} : HttpConn).httpParserParse (ascii "GET /index") 0).2.httpGetCurrentTransaction =
        some tx ∧
      (checkHttpRule unionRule tx [] 256).1 = true ∧
      ¬ ∃ field ∈ httpFields unionRule tx, unionRule.Holds field := by
  refine ⟨⟨0, some {}, none, .requestLine⟩, ?_, ?_, ?_⟩
  · decide +kernel
  · rfl
  · simp [httpFields, uriField, headerField, unionRule]

end NetDefender.Rules
