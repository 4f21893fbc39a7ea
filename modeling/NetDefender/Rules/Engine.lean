import NetDefender.Dns.Parser
import NetDefender.Flow.Model
import NetDefender.Tls.Parser

/-!
# The rule engine

`rule_engine.c`: the engine with its rules and its alerts, the inspection of a
transaction or a TLS connection by all rules of its protocol, and the built-in rules.
Whether an alert or a rule can be allocated is a parameter; their texts are granted.  The
detail buffer of an inspection is on the stack and keeps what a rule has left in it.
Descriptions, the JSON output and the log lines are left out.
-/

namespace NetDefender.Rules

open CString Flows

/-- `alert_severity_t`. -/
inductive AlertSeverity where
  | info
  | low
  | medium
  | high
  | critical
  deriving DecidableEq, Repr

/-- `alert_category_t`. -/
inductive AlertCategory where
  | unknown
  | webAttack
  | malware
  | policyViolation
  | recon
  | dos
  | dataLeak
  | anomaly
  | scan
  | bruteForce
  | exfiltration
  | crypto
  deriving DecidableEq, Repr

/-- The fields of `detection_rule_t` for TLS. -/
structure TlsChecks where
  checkSni : Bool := false
  checkJa3 : Bool := false
  checkCipher : Bool := false
  checkVersion : Bool := false
  checkCert : Bool := false
  ja3Hash : Option Bytes := none
  deriving DecidableEq, Repr

/-- `detection_rule_t`, with what an alert copies from it. -/
structure EngineRule extends DetectionRule where
  name : Bytes
  severity : AlertSeverity
  category : AlertCategory
  tls : TlsChecks := {}

/-- `alert_t`. -/
structure Alert where
  alertId : BitVec 32
  ruleId : Nat
  severity : AlertSeverity
  category : AlertCategory
  protocol : Proto.AppProto
  message : Bytes
  detail : Bytes
  srcIp : BitVec 32
  dstIp : BitVec 32
  srcPort : BitVec 16
  dstPort : BitVec 16
  timestamp : BitVec 64
  deriving DecidableEq, Repr

/-- `rule_stats_t`. -/
structure RuleStats where
  rulesLoaded : BitVec 64 := 0
  rulesEnabled : BitVec 64 := 0
  packetsInspected : BitVec 64 := 0
  alertsGenerated : BitVec 64 := 0
  alertsBySeverity : AlertSeverity → BitVec 64 := fun _ => 0

/-- `MAX_ALERTS_DEFAULT`. -/
def MAX_ALERTS_DEFAULT : BitVec 32 := 1000

/-- `rule_engine_t`; the latest rule and the latest alert come first. -/
structure RuleEngine where
  rules : List EngineRule := []
  alerts : List Alert := []
  alertIdCounter : BitVec 32 := 0
  stats : RuleStats := {}
  maxAlerts : BitVec 32 := MAX_ALERTS_DEFAULT
  alertCount : BitVec 32 := 0

/-- `rule_engine_add_rule`. -/
def RuleEngine.addRule (engine : RuleEngine) (rule : EngineRule) : RuleEngine :=
  { engine with
    rules := rule :: engine.rules
    stats :=
      { engine.stats with
        rulesLoaded := engine.stats.rulesLoaded + 1
        rulesEnabled :=
          if rule.enabled then engine.stats.rulesEnabled + 1 else engine.stats.rulesEnabled } }

/-! ## Alerts -/

/-- The alert that a rule makes of a flow. -/
def newAlert (alertId : BitVec 32) (rule : EngineRule) (flow : Flow) (detail : Bytes)
    (now : BitVec 64) : Alert where
  alertId := alertId
  ruleId := rule.ruleId
  severity := rule.severity
  category := rule.category
  protocol := rule.protocol
  message := rule.name
  detail := text detail
  srcIp := if flow.flags &&& FLOW_IPV4 ≠ 0 then flow.srcAddr.word0 else 0
  dstIp := if flow.flags &&& FLOW_IPV4 ≠ 0 then flow.dstAddr.word0 else 0
  srcPort := flow.srcPort
  dstPort := flow.dstPort
  timestamp := now

/-- The limit on the alerts: the oldest one is removed, unless it is the only one. -/
def RuleEngine.limitAlerts (engine : RuleEngine) : RuleEngine :=
  if engine.alertCount > engine.maxAlerts ∧ 2 ≤ engine.alerts.length then
    { engine with alerts := engine.alerts.dropLast, alertCount := engine.alertCount - 1 }
  else engine

/-- `create_alert`: the engine after it, and the alert that was created. -/
def createAlert (granted : Bool) (now : BitVec 64) (engine : RuleEngine) (rule : EngineRule)
    (flow : Flow) (detail : Bytes) : RuleEngine × List Alert :=
  if granted then
    let alert := newAlert (engine.alertIdCounter + 1) rule flow detail now
    let engine :=
      { engine with
        alertIdCounter := engine.alertIdCounter + 1
        alerts := alert :: engine.alerts
        alertCount := engine.alertCount + 1 }.limitAlerts
    let engine :=
      { engine with
        stats :=
          { engine.stats with
            alertsGenerated := engine.stats.alertsGenerated + 1
            alertsBySeverity := fun severity =>
              if severity = alert.severity then engine.stats.alertsBySeverity severity + 1
              else engine.stats.alertsBySeverity severity } }
    (engine, [alert])
  else (engine, [])

/-- `rule_engine_clear_alerts`. -/
def RuleEngine.clearAlerts (engine : RuleEngine) : RuleEngine :=
  { engine with alerts := [], alertCount := 0 }

/-! ## TLS rules -/

def TLS_JA3_HASH_LEN : Nat := 32

/-- `%02x`. -/
def hexByte (byte : UInt8) : Bytes :=
  let digit (value : Nat) : UInt8 :=
    if value < 10 then UInt8.ofNat (48 + value) else UInt8.ofNat (87 + value)
  [digit (byte.toNat / 16), digit (byte.toNat % 16)]

/-- A loop that prints the first bytes of an array of zeros with a hash at its front. -/
def printHex (count : Nat) (hash : Bytes) : Bytes :=
  (List.range count).flatMap fun index => hexByte (hash.getD index 0)

/-- `ja3_hex`. -/
def ja3Hex (hash : Bytes) : Bytes := printHex TLS_JA3_HASH_LEN hash

/-- The loop of `check_tls_rule` over the conditions on the server name: the first content
condition that holds decides. -/
def sniMatches (rule : EngineRule) (sni : Bytes) : Bool :=
  rule.conditions.any fun cond =>
    cond.type = .content &&
      stringContains sni cond.pattern cond.caseSensitive != cond.negated

/-- `check_tls_rule`, with the detail buffer before and after. -/
def checkTlsRule (rule : EngineRule) (conn : Tls.TlsConn) (detail : Bytes) (size : Nat) :
    Bool × Bytes :=
  let print (line : Bytes) : Bytes := line.take (size - 1)
  let sni := conn.clientHello.bind (·.sni)
  if !rule.enabled then (false, detail)
  else if rule.tls.checkSni && (sni.map (sniMatches rule)).getD false then
    (true, print (ascii "SNI: " ++ text (sni.getD [])))
  else
    let ja3Match :=
      match rule.tls.ja3Hash, conn.clientHello with
      | some hash, some hello =>
          rule.tls.checkJa3 && occursInIgnoringCase (text hash) (ja3Hex hello.ja3.hash)
      | _, _ => false
    if ja3Match then
      let hex := ja3Hex ((conn.clientHello.map (·.ja3.hash)).getD [])
      (true, print (ascii "JA3: " ++ hex ++ ascii ", SNI: " ++ text (sni.getD (ascii "N/A"))))
    else if rule.tls.checkCipher && conn.weakCipher then
      (true, print (ascii "Weak cipher detected"))
    else if rule.tls.checkVersion && conn.versionDowngrade then
      (true, print (ascii "TLS version downgrade detected"))
    else if rule.tls.checkCert && (conn.expiredCert || conn.selfSignedCert) then
      (true,
        print (ascii "Certificate error: " ++
          (if conn.expiredCert then ascii "expired " else []) ++
          if conn.selfSignedCert then ascii "self-signed" else []))
    else (false, detail)

/-! ## Inspection -/

/-- The loop of the inspections over the rules of the engine, with the index of the next
one: every rule of the protocol that fires creates an alert. -/
def inspectRules (check : EngineRule → Bytes → Bool × Bytes) (protocol : Proto.AppProto)
    (granted : Nat → Bool) (now : BitVec 64) (flow : Flow) :
    List EngineRule → Nat → Bytes → RuleEngine → RuleEngine × List Alert
  | [], _, _, engine => (engine, [])
  | rule :: rest, index, detail, engine =>
      if rule.protocol ≠ protocol then
        inspectRules check protocol granted now flow rest (index + 1) detail engine
      else
        let (fires, detail) := check rule detail
        let (engine, raised) :=
          if fires then createAlert (granted index) now engine rule flow detail
          else (engine, [])
        let (engine, more) :=
          inspectRules check protocol granted now flow rest (index + 1) detail engine
        (engine, raised ++ more)

/-- `engine->stats.packets_inspected++`. -/
def RuleEngine.countInspection (engine : RuleEngine) : RuleEngine :=
  { engine with
    stats := { engine.stats with packetsInspected := engine.stats.packetsInspected + 1 } }

/-- `rule_engine_inspect_http`; `stack` is what its detail buffer holds at first. -/
def ruleEngineInspectHttp (granted : Nat → Bool) (now : BitVec 64) (stack : Bytes)
    (engine : RuleEngine) (flow : Flow) (tx : Http.HttpTransaction) : RuleEngine × List Alert :=
  inspectRules (fun rule detail => checkHttpRule rule.toDetectionRule tx detail 256) .http
    granted now flow engine.rules 0 stack engine.countInspection

/-- `rule_engine_inspect_dns`. -/
def ruleEngineInspectDns (granted : Nat → Bool) (now : BitVec 64) (stack : Bytes)
    (engine : RuleEngine) (flow : Flow) (tx : Dns.DnsTransaction) : RuleEngine × List Alert :=
  inspectRules (fun rule detail => checkDnsRule rule.toDetectionRule tx detail 256) .dns
    granted now flow engine.rules 0 stack engine.countInspection

/-- `rule_engine_inspect_tls`. -/
def ruleEngineInspectTls (granted : Nat → Bool) (now : BitVec 64) (stack : Bytes)
    (engine : RuleEngine) (flow : Flow) (conn : Tls.TlsConn) : RuleEngine × List Alert :=
  inspectRules (fun rule detail => checkTlsRule rule conn detail 512) .tls
    granted now flow engine.rules 0 stack engine.countInspection

/-- `rule_engine_create_custom_alert`. -/
def ruleEngineCreateCustomAlert (granted : Bool) (now : BitVec 64) (engine : RuleEngine)
    (rule : EngineRule) (flow : Flow) (detail : Bytes) : RuleEngine × List Alert :=
  createAlert granted now engine rule flow detail

/-! ## Built-in rules -/

/-- A rule of `load_http_rules`: it checks the URI. -/
def uriRule (ruleId : Nat) (name : String) (severity : AlertSeverity)
    (conditions : List RuleCondition) : EngineRule :=
  { ruleId, enabled := true, protocol := .http, conditions, http := { checkUri := true }
    name := ascii name, severity, category := .webAttack }

/-- `load_http_rules`, in the order of loading. -/
def httpRules : List EngineRule :=
  [uriRule 1001 "SQL Injection - UNION" .high
      [ruleConditionContent (ascii "union") false, ruleConditionContent (ascii "select") false],
    uriRule 1002 "SQL Injection - Comment" .high [ruleConditionContent (ascii "--") true],
    uriRule 1003 "XSS - Script Tag" .medium [ruleConditionContent (ascii "<script") false],
    uriRule 1004 "Path Traversal" .high [ruleConditionContent (ascii "../") true],
    uriRule 1005 "Command Injection" .critical
      [ruleConditionContent (ascii ";") true, ruleConditionContent (ascii "bash") false]]

/-- A rule of `load_dns_rules`: it checks the query name. -/
def queryRule (ruleId : Nat) (name : String) (severity : AlertSeverity)
    (category : AlertCategory) (conditions : List RuleCondition) (qtype : BitVec 16 := 0) :
    EngineRule :=
  { ruleId, enabled := true, protocol := .dns, conditions, dns := { checkQuery := true, qtype }
    name := ascii name, severity, category }

/-- `load_dns_rules`. -/
def dnsRules : List EngineRule :=
  [queryRule 2001 "DGA Domain - High Entropy" .medium .malware
      [ruleConditionEntropy 4.0 8.0, ruleConditionLength 20 0],
    queryRule 2002 "Suspicious TLD - .tk" .low .malware
      [ruleConditionContent (ascii ".tk") false],
    queryRule 2003 "DNS Tunneling - Long TXT" .medium .dataLeak [ruleConditionLength 50 0]
      DnsParser.DNS_TYPE_TXT,
    queryRule 2004 "Excessive Subdomains" .low .anomaly [ruleConditionLength 80 0]]

/-- A rule of `load_tls_rules`. -/
def tlsRule (ruleId : Nat) (name : String) (severity : AlertSeverity)
    (category : AlertCategory) (tls : TlsChecks) (conditions : List RuleCondition := []) :
    EngineRule :=
  { ruleId, enabled := true, protocol := .tls, conditions, tls, name := ascii name, severity
    category }

/-- `load_tls_rules`. -/
def tlsRules : List EngineRule :=
  [tlsRule 3001 "TLS Weak Cipher" .medium .crypto { checkCipher := true },
    tlsRule 3002 "TLS Version Downgrade" .high .crypto { checkVersion := true },
    tlsRule 3003 "TLS Certificate Error" .medium .crypto { checkCert := true },
    tlsRule 3004 "Suspicious TLS SNI" .medium .malware { checkSni := true }
      [ruleConditionContent (ascii ".tk") false, ruleConditionContent (ascii ".cc") false],
    tlsRule 3005 "Metasploit JA3" .critical .malware
      { checkJa3 := true, ja3Hash := some (ascii "a0e9f5d64349fb13191bc781f81f42e1") },
    tlsRule 3006 "Cobalt Strike JA3" .critical .malware
      { checkJa3 := true, ja3Hash := some (ascii "72a589da586844d7f0818ce684948eea") },
    tlsRule 3007 "Trickbot JA3" .critical .malware
      { checkJa3 := true, ja3Hash := some (ascii "6734f37431670b3ab4292b8f60f29984") }]

/-- `rule_engine_load_builtin_rules`; a rule that cannot be allocated is left out. -/
def ruleEngineLoadBuiltinRules (granted : Nat → Bool) (engine : RuleEngine) : RuleEngine :=
  ((httpRules ++ dnsRules ++ tlsRules).filter fun rule => granted rule.ruleId).foldl
    RuleEngine.addRule engine

theorem addRules_rules (rules : List EngineRule) (engine : RuleEngine) :
    (rules.foldl RuleEngine.addRule engine).rules = rules.reverse ++ engine.rules := by
  induction rules generalizing engine with
  | nil => rfl
  | cons rule rest inductionHypothesis =>
      rw [List.foldl_cons, inductionHypothesis, List.reverse_cons, List.append_assoc]
      rfl

/-- The identities of the built-in rules are distinct. -/
theorem builtinRules_ids (granted : Nat → Bool) :
    ((ruleEngineLoadBuiltinRules granted {}).rules.map (·.ruleId)).Nodup := by
  have all : ((httpRules ++ dnsRules ++ tlsRules).map (·.ruleId)).Nodup := by decide
  rw [ruleEngineLoadBuiltinRules, addRules_rules, List.append_nil, List.map_reverse,
    List.nodup_reverse]
  exact all.sublist (List.filter_sublist.map _)

/-! ## What an inspection raises -/

section Raises

variable {check : EngineRule → Bytes → Bool × Bytes} {protocol : Proto.AppProto}
variable {granted : Nat → Bool} {now : BitVec 64} {flow : Flow}

@[simp]
theorem limitAlerts_rules (engine : RuleEngine) : engine.limitAlerts.rules = engine.rules := by
  rw [RuleEngine.limitAlerts]
  split <;> rfl

/-- Creating an alert leaves the rules alone. -/
@[simp]
theorem createAlert_rules (allocated : Bool) (engine : RuleEngine) (rule : EngineRule)
    (detail : Bytes) :
    (createAlert allocated now engine rule flow detail).1.rules = engine.rules := by
  rw [createAlert]
  split
  next => exact limitAlerts_rules _
  next => rfl

theorem createAlert_ids (allocated : Bool) (engine : RuleEngine) (rule : EngineRule)
    (detail : Bytes) :
    (createAlert allocated now engine rule flow detail).2.map (·.ruleId) =
      if allocated then [rule.ruleId] else [] := by
  rw [createAlert]
  split <;> rfl

/-- An inspection leaves the rules alone. -/
theorem inspectRules_rules (rules : List EngineRule) (index : Nat) (detail : Bytes)
    (engine : RuleEngine) :
    (inspectRules check protocol granted now flow rules index detail engine).1.rules =
      engine.rules := by
  induction rules generalizing index detail engine with
  | nil => rfl
  | cons rule rest inductionHypothesis =>
      rw [inspectRules]
      split
      next => exact inductionHypothesis _ _ _
      next =>
        dsimp only
        rw [inductionHypothesis]
        split
        next => exact createAlert_rules _ _ _ _
        next => rfl

/-- The rules that raise an alert: those of the protocol that fire and whose alert can be
allocated, each once. -/
theorem inspectRules_ids {verdict : EngineRule → Bool}
    (blind : ∀ rule detail, (check rule detail).1 = verdict rule) (rules : List EngineRule)
    (index : Nat) (detail : Bytes) (engine : RuleEngine) :
    (inspectRules check protocol granted now flow rules index detail engine).2.map
        (·.ruleId) =
      ((rules.zipIdx index).filter fun entry =>
        entry.1.protocol = protocol && verdict entry.1 && granted entry.2).map
          (·.1.ruleId) := by
  induction rules generalizing index detail engine with
  | nil => rfl
  | cons rule rest inductionHypothesis =>
      rw [inspectRules, List.zipIdx_cons]
      by_cases other : rule.protocol ≠ protocol
      · rw [if_pos other, inductionHypothesis, List.filter_cons_of_neg (by simp [other])]
      · rw [if_neg other]
        rw [ne_eq, not_not] at other
        dsimp only
        rw [List.map_append, inductionHypothesis, blind]
        cases fires : verdict rule with
        | false =>
            rw [List.filter_cons_of_neg (by simp [fires])]
            rfl
        | true =>
            rw [if_pos rfl, createAlert_ids]
            cases allocated : granted index with
            | false =>
                rw [List.filter_cons_of_neg (by simp [allocated])]
                rfl
            | true =>
                rw [List.filter_cons_of_pos (by simp [other, fires, allocated])]
                rfl

end Raises

/-- What the detail buffer held before does not matter for a verdict. -/
theorem checkTlsRule_blind (rule : EngineRule) (conn : Tls.TlsConn) (detail : Bytes)
    (size : Nat) : (checkTlsRule rule conn detail size).1 = (checkTlsRule rule conn [] size).1 := by
  simp only [checkTlsRule]
  split_ifs <;> rfl

theorem checkHttpRule_blind (rule : DetectionRule) (tx : Http.HttpTransaction)
    (detail : Bytes) (size : Nat) :
    (checkHttpRule rule tx detail size).1 = (checkHttpRule rule tx [] size).1 := by
  rw [Bool.eq_iff_iff, checkHttpRule_iff, checkHttpRule_iff]

end NetDefender.Rules
