import NetDefender.Rules.Engine

/-!
# What a list of conditions means

A rule has one list of conditions, and all of them must match.  The checks of HTTP and of
DNS take the list so.  The check of TLS looks at the content conditions only, and fires at
the first one that holds.
-/

namespace NetDefender.Rules

open CString Http Dns

/-- The rule is enabled, and checks the URI, the query name of any type and the server name,
and nothing else. -/
structure EngineRule.ChecksNames (rule : EngineRule) : Prop where
  enabled : rule.enabled = true
  uri : rule.http.checkUri = true
  headers : rule.http.checkHeaders = false
  query : rule.dns.checkQuery = true
  qtype : rule.dns.qtype = 0
  sni : rule.tls.checkSni = true
  ja3 : rule.tls.checkJa3 = false
  cipher : rule.tls.checkCipher = false
  version : rule.tls.checkVersion = false
  cert : rule.tls.checkCert = false

section Names

variable {rule : EngineRule} {name : Bytes} {detail : Bytes} {size : Nat}

theorem checkHttpRule_name (checks : rule.ChecksNames) {tx : HttpTransaction}
    (uri : tx.request.bind (·.uri) = some name) :
    (checkHttpRule rule.toDetectionRule tx detail size).1 = true ↔ rule.Holds name := by
  have fields : httpFields rule.toDetectionRule tx = [name] := by
    rw [httpFields, uriField, headerField, if_pos checks.uri, uri,
      if_neg (by simp [checks.headers])]
    rfl
  rw [checkHttpRule_iff, fields]
  simp [checks.enabled]

theorem checkDnsRule_name (checks : rule.ChecksNames) {tx : DnsTransaction}
    (query : tx.questions.head?.bind (·.qname) = some name) :
    (checkDnsRule rule.toDetectionRule tx detail size).1 = true ↔ rule.Holds name := by
  obtain ⟨question, first, qname⟩ := Option.bind_eq_some_iff.mp query
  have asked : queryField rule.toDetectionRule tx = some (name, question.qtype) := by
    rw [queryField, if_pos checks.query, first, Option.bind_some, qname]
    rfl
  rw [checkDnsRule_iff, dnsFields, asked]
  simp [checks.enabled, checks.qtype]

/-- A content condition on its own. -/
theorem checkCondition_content {cond : RuleCondition} (content : cond.type = .content) :
    checkCondition cond name =
      (stringContains name cond.pattern cond.caseSensitive != cond.negated) := by
  rw [checkCondition, content]
  cases cond.negated <;> simp

/-- The loop over the conditions ends at a content condition that holds. -/
theorem sniMatches_iff :
    sniMatches rule name = true ↔
      ∃ cond ∈ rule.conditions, cond.type = .content ∧ checkCondition cond name = true := by
  rw [sniMatches, List.any_eq_true]
  apply exists_congr
  intro cond
  apply and_congr_right
  intro _
  rw [Bool.and_eq_true, decide_eq_true_eq]
  exact and_congr_right fun content => by rw [checkCondition_content content]

theorem checkTlsRule_name (checks : rule.ChecksNames) {conn : Tls.TlsConn}
    (sni : conn.clientHello.bind (·.sni) = some name) :
    (checkTlsRule rule conn detail size).1 = true ↔
      ∃ cond ∈ rule.conditions, cond.type = .content ∧ checkCondition cond name = true := by
  rw [← sniMatches_iff]
  simp only [checkTlsRule, sni, checks.enabled, checks.sni, checks.ja3, checks.cipher,
    checks.version, checks.cert]
  cases decided : sniMatches rule name with
  | true => simp [decided]
  | false => cases rule.tls.ja3Hash <;> cases conn.clientHello <;> simp [decided]

end Names

/-- No content condition holds beside a condition that fails, and the conditions that all
hold are not of other types only. -/
def Unanimous (conditions : List RuleCondition) (name : Bytes) : Prop :=
  (∀ cond ∈ conditions, cond.type = .content → checkCondition cond name = true →
    ∀ other ∈ conditions, checkCondition other name = true) ∧
  ((∀ cond ∈ conditions, checkCondition cond name = true) →
    ∃ cond ∈ conditions, cond.type = .content)

/-- The three checks give the verdict that every condition holds if and only if the content
conditions decide for all. -/
theorem one_meaning_iff (rule : EngineRule) (checks : rule.ChecksNames) (name : Bytes)
    (tx : HttpTransaction) (uri : tx.request.bind (·.uri) = some name)
    (message : DnsTransaction) (query : message.questions.head?.bind (·.qname) = some name)
    (conn : Tls.TlsConn) (sni : conn.clientHello.bind (·.sni) = some name)
    (detail : Bytes) (size : Nat) :
    (((checkHttpRule rule.toDetectionRule tx detail size).1 = true ↔ rule.Holds name) ∧
      ((checkDnsRule rule.toDetectionRule message detail size).1 = true ↔ rule.Holds name) ∧
      ((checkTlsRule rule conn detail size).1 = true ↔ rule.Holds name)) ↔
    Unanimous rule.conditions name := by
  rw [checkTlsRule_name checks sni]
  constructor
  · rintro ⟨-, -, tls⟩
    constructor
    · exact fun cond member content holds => tls.mp ⟨cond, member, content, holds⟩
    · intro all
      obtain ⟨cond, member, content, -⟩ := tls.mpr all
      exact ⟨cond, member, content⟩
  · rintro ⟨decides, content⟩
    refine ⟨checkHttpRule_name checks uri, checkDnsRule_name checks query, ?_, ?_⟩
    · rintro ⟨cond, member, content, holds⟩
      exact decides cond member content holds
    · intro all
      obtain ⟨cond, member, content⟩ := content all
      exact ⟨cond, member, content, all cond member⟩

/-- A rule for all three names. -/
def nameRule (conditions : List RuleCondition) : EngineRule where
  ruleId := 1
  enabled := true
  conditions := conditions
  http := { checkUri := true }
  dns := { checkQuery := true }
  tls := { checkSni := true }
  name := ascii "name"
  severity := .low
  category := .anomaly

theorem nameRule_checksNames (conditions : List RuleCondition) :
    (nameRule conditions).ChecksNames :=
  ⟨rfl, rfl, rfl, rfl, rfl, rfl, rfl, rfl, rfl, rfl⟩

/-- A ClientHello for a server. -/
def helloTo (name : Bytes) : Tls.TlsClientHello where
  version := 0x0303
  random := []
  sessionId := []
  cipherSuites := []
  compressionMethods := []
  sni := some name

/-- One content condition means the same everywhere. -/
theorem one_meaning_tk :
    let name := ascii "a.tk"
    let rule := nameRule [ruleConditionContent (ascii ".tk") false]
    let request : HttpRequest := { uri := some name }
    (((checkHttpRule rule.toDetectionRule ⟨0, some request, none, .idle⟩ [] 256).1 = true ↔
          rule.Holds name) ∧
        ((checkDnsRule rule.toDetectionRule ⟨[⟨some name, 1⟩]⟩ [] 256).1 = true ↔
          rule.Holds name) ∧
        ((checkTlsRule rule { clientHello := some (helloTo name) } [] 256).1 = true ↔
          rule.Holds name)) ↔
      Unanimous rule.conditions name :=
  one_meaning_iff _ (nameRule_checksNames _) _ _ rfl _ rfl _ rfl [] 256

/-- The server name "union" meets one of the two conditions. -/
theorem one_condition_suffices :
    let name := ascii "union"
    let rule := nameRule
      [ruleConditionContent (ascii "union") false, ruleConditionContent (ascii "select") false]
    let request : HttpRequest := { uri := some name }
    (checkHttpRule rule.toDetectionRule ⟨0, some request, none, .idle⟩ [] 256).1 = false ∧
      (checkDnsRule rule.toDetectionRule ⟨[⟨some name, 1⟩]⟩ [] 256).1 = false ∧
      (checkTlsRule rule { clientHello := some (helloTo name) } [] 256).1 = true ∧
      ¬rule.Holds name := by
  refine ⟨by decide +kernel, by decide +kernel, by decide +kernel, ?_⟩
  rw [← @checkHttpRule_name _ _ [] 256 (nameRule_checksNames _)
    ⟨0, some { uri := some (ascii "union") }, none, .idle⟩ rfl]
  decide +kernel

end NetDefender.Rules
