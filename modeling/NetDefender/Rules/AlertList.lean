import NetDefender.Lib.Chain
import NetDefender.Rules.Engine

/-!
# The list of alerts

The alerts of a rule engine in memory: `create_alert` puts an alert at the head of a chain
and, beyond the limit, walks to the last one and frees it; `rule_engine_clear_alerts` frees
them all.  The memory holds what the engine of `Rules.Engine` says, and over any run the
latest alerts up to the limit.  Every allocation is granted.
-/

namespace NetDefender.Rules

open CString Flows Chain

/-! ## The engine in memory -/

/-- `rule_engine_t` with its alerts as cells that are linked by `next`.  A cell is not
handed out twice. -/
structure EngineMemory where
  rules : List EngineRule := []
  links : Links := ⟨none, fun _ => none⟩
  objects : Nat → Option Alert := fun _ => none
  freed : List Nat := []
  fresh : Nat := 0
  alertIdCounter : BitVec 32 := 0
  stats : RuleStats := {}
  maxAlerts : BitVec 32 := MAX_ALERTS_DEFAULT
  alertCount : BitVec 32 := 0

namespace EngineMemory

/-- The limit on the alerts: the last cell is unlinked and freed, unless it is the first. -/
def limitAlerts (mem : EngineMemory) : EngineMemory :=
  if mem.alertCount > mem.maxAlerts then
    match mem.links.head with
    | none => mem
    | some first =>
        match walkToLast mem.links.next mem.fresh none first with
        | (none, _) => mem
        | (some prev, last) =>
            { mem with
              links := mem.links.relink (some prev) none
              freed := last :: mem.freed
              alertCount := mem.alertCount - 1 }
  else mem

/-- `create_alert`. -/
def createAlert (now : BitVec 64) (mem : EngineMemory) (rule : EngineRule) (flow : Flow)
    (detail : Bytes) : EngineMemory × List Alert :=
  let alert := newAlert (mem.alertIdCounter + 1) rule flow detail now
  let mem :=
    { mem with
      alertIdCounter := mem.alertIdCounter + 1
      links := mem.links.push mem.fresh
      objects := Function.update mem.objects mem.fresh (some alert)
      fresh := mem.fresh + 1
      alertCount := mem.alertCount + 1 }.limitAlerts
  let mem :=
    { mem with
      stats :=
        { mem.stats with
          alertsGenerated := mem.stats.alertsGenerated + 1
          alertsBySeverity := fun severity =>
            if severity = alert.severity then mem.stats.alertsBySeverity severity + 1
            else mem.stats.alertsBySeverity severity } }
  (mem, [alert])

/-- The loop that frees the cells from one on. -/
def freeFrom (next : Nat → Option Nat) : Nat → Option Nat → List Nat → List Nat
  | 0, _, freed => freed
  | _ + 1, none, freed => freed
  | turns + 1, some cell, freed => freeFrom next turns (next cell) (cell :: freed)

/-- `rule_engine_clear_alerts`. -/
def clearAlerts (mem : EngineMemory) : EngineMemory :=
  { mem with
    links := { mem.links with head := none }
    freed := freeFrom mem.links.next mem.fresh mem.links.head mem.freed
    alertCount := 0 }

/-- `rule_engine_add_rule`. -/
def addRule (mem : EngineMemory) (rule : EngineRule) : EngineMemory :=
  { mem with
    rules := rule :: mem.rules
    stats :=
      { mem.stats with
        rulesLoaded := mem.stats.rulesLoaded + 1
        rulesEnabled :=
          if rule.enabled then mem.stats.rulesEnabled + 1 else mem.stats.rulesEnabled } }

/-- The loop of the inspections over the rules of the engine. -/
def inspectRules (check : EngineRule → Bytes → Bool × Bytes) (protocol : Proto.AppProto)
    (now : BitVec 64) (flow : Flow) :
    List EngineRule → Bytes → EngineMemory → EngineMemory × List Alert
  | [], _, mem => (mem, [])
  | rule :: rest, detail, mem =>
      if rule.protocol ≠ protocol then inspectRules check protocol now flow rest detail mem
      else
        let (fires, detail) := check rule detail
        let (mem, raised) :=
          if fires then createAlert now mem rule flow detail else (mem, [])
        let (mem, more) := inspectRules check protocol now flow rest detail mem
        (mem, raised ++ more)

/-- `engine->stats.packets_inspected++`. -/
def countInspection (mem : EngineMemory) : EngineMemory :=
  { mem with
    stats := { mem.stats with packetsInspected := mem.stats.packetsInspected + 1 } }

/-- `rule_engine_inspect_http`. -/
def inspectHttp (now : BitVec 64) (stack : Bytes) (mem : EngineMemory) (flow : Flow)
    (tx : Http.HttpTransaction) : EngineMemory × List Alert :=
  inspectRules (fun rule detail => checkHttpRule rule.toDetectionRule tx detail 256) .http
    now flow mem.rules stack mem.countInspection

/-- `rule_engine_inspect_dns`. -/
def inspectDns (now : BitVec 64) (stack : Bytes) (mem : EngineMemory) (flow : Flow)
    (tx : Dns.DnsTransaction) : EngineMemory × List Alert :=
  inspectRules (fun rule detail => checkDnsRule rule.toDetectionRule tx detail 256) .dns
    now flow mem.rules stack mem.countInspection

/-- `rule_engine_inspect_tls`. -/
def inspectTls (now : BitVec 64) (stack : Bytes) (mem : EngineMemory) (flow : Flow)
    (conn : Tls.TlsConn) : EngineMemory × List Alert :=
  inspectRules (fun rule detail => checkTlsRule rule conn detail 512) .tls
    now flow mem.rules stack mem.countInspection

end EngineMemory

/-! ## Runs -/

/-- A call on the engine. -/
inductive EngineOp where
  | addRule (rule : EngineRule)
  | inspectHttp (now : BitVec 64) (stack : Bytes) (flow : Flow) (tx : Http.HttpTransaction)
  | inspectDns (now : BitVec 64) (stack : Bytes) (flow : Flow) (tx : Dns.DnsTransaction)
  | inspectTls (now : BitVec 64) (stack : Bytes) (flow : Flow) (conn : Tls.TlsConn)
  | createCustomAlert (now : BitVec 64) (rule : EngineRule) (flow : Flow) (detail : Bytes)
  | clearAlerts

/-- A call, and the alerts that it creates. -/
def RuleEngine.step (engine : RuleEngine) : EngineOp → RuleEngine × List Alert
  | .addRule rule => (engine.addRule rule, [])
  | .inspectHttp now stack flow tx =>
      ruleEngineInspectHttp (fun _ => true) now stack engine flow tx
  | .inspectDns now stack flow tx =>
      ruleEngineInspectDns (fun _ => true) now stack engine flow tx
  | .inspectTls now stack flow conn =>
      ruleEngineInspectTls (fun _ => true) now stack engine flow conn
  | .createCustomAlert now rule flow detail =>
      ruleEngineCreateCustomAlert true now engine rule flow detail
  | .clearAlerts => (engine.clearAlerts, [])

/-- A call in memory, and the alerts that it creates. -/
def EngineMemory.step (mem : EngineMemory) : EngineOp → EngineMemory × List Alert
  | .addRule rule => (mem.addRule rule, [])
  | .inspectHttp now stack flow tx => mem.inspectHttp now stack flow tx
  | .inspectDns now stack flow tx => mem.inspectDns now stack flow tx
  | .inspectTls now stack flow conn => mem.inspectTls now stack flow conn
  | .createCustomAlert now rule flow detail => mem.createAlert now rule flow detail
  | .clearAlerts => (mem.clearAlerts, [])

/-- The alerts created in a run, the latest first: all of them, and those since the alerts
were last cleared. -/
structure AlertHistory where
  created : List Alert := []
  recent : List Alert := []

/-- Alerts are created, in this order. -/
def AlertHistory.record (history : AlertHistory) (raised : List Alert) : AlertHistory where
  created := raised.reverse ++ history.created
  recent := raised.reverse ++ history.recent

/-- The history after a call. -/
def AlertHistory.after (history : AlertHistory) (op : EngineOp) (raised : List Alert) :
    AlertHistory :=
  match op with
  | .clearAlerts => { history with recent := [] }
  | _ => history.record raised

/-- A run, from what was created before it on. -/
def runEngine {σ : Type} (step : σ → EngineOp → σ × List Alert) :
    List EngineOp → σ → AlertHistory → σ × AlertHistory
  | [], state, history => (state, history)
  | op :: ops, state, history =>
      runEngine step ops (step state op).1 (history.after op (step state op).2)

/-! ## The memory holds the engine -/

/-- The memory holds an engine, with its alerts in these cells. -/
structure EngineMemory.Represents (mem : EngineMemory) (cells : List Nat)
    (engine : RuleEngine) : Prop where
  rules : mem.rules = engine.rules
  alertIdCounter : mem.alertIdCounter = engine.alertIdCounter
  stats : mem.stats = engine.stats
  maxAlerts : mem.maxAlerts = engine.maxAlerts
  alertCount : mem.alertCount = engine.alertCount
  linked : Linked mem.links.next mem.links.head cells
  objects : cells.map mem.objects = engine.alerts.map some
  distinct : (cells ++ mem.freed).Nodup
  allocated : ∀ cell ∈ cells ++ mem.freed, cell < mem.fresh

section Represents

variable {mem : EngineMemory} {cells : List Nat} {engine : RuleEngine}

theorem EngineMemory.Represents.length (represents : mem.Represents cells engine) :
    cells.length = engine.alerts.length := by
  have same := congrArg List.length represents.objects
  rwa [List.length_map, List.length_map] at same

/-- There are no more cells than were handed out. -/
theorem EngineMemory.Represents.length_le (represents : mem.Represents cells engine) :
    cells.length ≤ mem.fresh := by
  have distinct := (List.nodup_append.mp represents.distinct).1
  have inside : cells ⊆ List.range mem.fresh := fun cell member =>
    List.mem_range.mpr (represents.allocated cell (List.mem_append_left _ member))
  have bound := (distinct.subperm inside).length_le
  rwa [List.length_range] at bound

/-- The walk to the end of the list removes the last alert. -/
theorem EngineMemory.Represents.limitAlerts (represents : mem.Represents cells engine) :
    ∃ cells', mem.limitAlerts.Represents cells' engine.limitAlerts := by
  have length := represents.length
  rw [EngineMemory.limitAlerts, RuleEngine.limitAlerts, represents.alertCount,
    represents.maxAlerts]
  by_cases above : engine.alertCount > engine.maxAlerts
  · rw [if_pos above]
    rcases List.eq_nil_or_concat cells with rfl | ⟨front, last, rfl⟩
    · have none : mem.links.head = none := represents.linked.start_eq
      have few : ¬(engine.alertCount > engine.maxAlerts ∧ 2 ≤ engine.alerts.length) := by
        rw [← length]
        simp
      rw [none, if_neg few]
      exact ⟨[], represents⟩
    · rw [List.concat_eq_append] at represents length
      obtain ⟨first, begins⟩ : ∃ first, (front ++ [last]).head? = some first := by
        cases front with
        | nil => exact ⟨last, rfl⟩
        | cons first front => exact ⟨first, rfl⟩
      have head : mem.links.head = some first := represents.linked.start_eq.trans begins
      have enough : front.length ≤ mem.fresh := by
        have bound := represents.length_le
        rw [List.length_append] at bound
        exact (Nat.le_add_right _ _).trans bound
      have walk := @walkToLast_chain mem.links.next mem.links.head front last mem.fresh none
        first represents.linked begins enough
      rw [head]
      dsimp only
      rw [walk, Option.or_none]
      cases before : front.getLast? with
      | none =>
          obtain rfl : front = [] := List.getLast?_eq_none_iff.mp before
          have few : ¬(engine.alertCount > engine.maxAlerts ∧ 2 ≤ engine.alerts.length) := by
            rw [← length]
            simp
          rw [if_neg few]
          exact ⟨[last], represents⟩
      | some prev =>
          have nonempty : front ≠ [] := by
            rintro rfl
            cases before
          have several : engine.alertCount > engine.maxAlerts ∧ 2 ≤ engine.alerts.length := by
            refine ⟨above, ?_⟩
            rw [← length, List.length_append]
            exact Nat.succ_le_succ (List.length_pos_iff.mpr nonempty)
          rw [if_pos several]
          have ends : mem.links.next last = none := represents.linked.next_eq
          have unlinked := Links.relink_linked represents.linked
            (List.nodup_append.mp represents.distinct).1
          rw [ends, before, List.append_nil] at unlinked
          have shifted : front ++ last :: mem.freed = front ++ [last] ++ mem.freed := by simp
          refine ⟨front, ?_⟩
          dsimp only
          constructor
          case rules => exact represents.rules
          case alertIdCounter => exact represents.alertIdCounter
          case stats => exact represents.stats
          case maxAlerts => rfl
          case alertCount => rfl
          case linked => exact unlinked
          case objects =>
            have objects := congrArg List.dropLast represents.objects
            rw [← List.map_dropLast, ← List.map_dropLast, List.dropLast_concat] at objects
            exact objects
          case distinct => exact shifted ▸ represents.distinct
          case allocated => exact shifted ▸ represents.allocated
  · rw [if_neg above, if_neg fun both => above both.1]
    exact ⟨cells, represents⟩

/-- `create_alert` in memory creates the same alert. -/
theorem EngineMemory.Represents.createAlert (represents : mem.Represents cells engine)
    (now : BitVec 64) (rule : EngineRule) (flow : Flow) (detail : Bytes) :
    (mem.createAlert now rule flow detail).2 =
        (Rules.createAlert true now engine rule flow detail).2 ∧
      ∃ cells', (mem.createAlert now rule flow detail).1.Represents cells'
        (Rules.createAlert true now engine rule flow detail).1 := by
  have new : mem.fresh ∉ cells ++ mem.freed := fun member =>
    Nat.lt_irrefl _ (represents.allocated _ member)
  rw [List.mem_append, not_or] at new
  have pushed : EngineMemory.Represents
      { mem with
        alertIdCounter := mem.alertIdCounter + 1
        links := mem.links.push mem.fresh
        objects := Function.update mem.objects mem.fresh
          (some (newAlert (mem.alertIdCounter + 1) rule flow detail now))
        fresh := mem.fresh + 1
        alertCount := mem.alertCount + 1 }
      (mem.fresh :: cells)
      { engine with
        alertIdCounter := engine.alertIdCounter + 1
        alerts := newAlert (engine.alertIdCounter + 1) rule flow detail now :: engine.alerts
        alertCount := engine.alertCount + 1 } := by
    constructor
    case rules => exact represents.rules
    case alertIdCounter => exact congrArg (· + 1) represents.alertIdCounter
    case stats => exact represents.stats
    case maxAlerts => exact represents.maxAlerts
    case alertCount => exact congrArg (· + 1) represents.alertCount
    case linked => exact Links.push_linked represents.linked new.1
    case objects =>
      have others : cells.map (Function.update mem.objects mem.fresh
          (some (newAlert (mem.alertIdCounter + 1) rule flow detail now))) =
          cells.map mem.objects := by
        apply List.map_congr_left
        intro cell member
        exact Function.update_of_ne (ne_of_mem_of_not_mem member new.1) ..
      have first : Function.update mem.objects mem.fresh
          (some (newAlert (mem.alertIdCounter + 1) rule flow detail now)) mem.fresh =
          some (newAlert (mem.alertIdCounter + 1) rule flow detail now) :=
        Function.update_self ..
      rw [List.map_cons, List.map_cons]
      dsimp only
      rw [first, others, represents.objects, represents.alertIdCounter]
    case distinct =>
      exact List.nodup_cons.mpr ⟨by simpa using new, represents.distinct⟩
    case allocated =>
      intro cell member
      rcases List.mem_cons.mp member with rfl | old
      · exact Nat.lt_succ_self _
      · exact Nat.lt_succ_of_lt (represents.allocated cell old)
  obtain ⟨cells', limited⟩ := pushed.limitAlerts
  refine ⟨?_, cells', ?_⟩
  · rw [EngineMemory.createAlert, Rules.createAlert, if_pos rfl, represents.alertIdCounter]
  · rw [EngineMemory.createAlert, Rules.createAlert, if_pos rfl]
    dsimp only
    exact ⟨limited.rules, limited.alertIdCounter, by rw [limited.stats]; rfl,
      limited.maxAlerts, limited.alertCount, limited.linked, limited.objects,
      limited.distinct, limited.allocated⟩

theorem freeFrom_chain {next : Nat → Option Nat} {start : Option Nat} {cells : List Nat}
    (linked : Linked next start cells) (turns : Nat) (enough : cells.length ≤ turns)
    (freed : List Nat) :
    EngineMemory.freeFrom next turns start freed = cells.reverse ++ freed := by
  induction cells generalizing start turns freed with
  | nil =>
      obtain rfl : start = none := linked
      cases turns <;> rfl
  | cons cell rest ih =>
      obtain ⟨rfl, tail⟩ := linked
      obtain ⟨turns, rfl⟩ : ∃ fewer, turns = fewer + 1 :=
        Nat.exists_eq_add_one_of_ne_zero (Nat.ne_of_gt (Nat.lt_of_lt_of_le (by simp) enough))
      rw [EngineMemory.freeFrom, ih tail turns (Nat.le_of_succ_le_succ enough)]
      simp

theorem EngineMemory.Represents.clearAlerts (represents : mem.Represents cells engine) :
    mem.clearAlerts.Represents [] engine.clearAlerts := by
  have freed := freeFrom_chain represents.linked mem.fresh represents.length_le mem.freed
  have perm : (cells.reverse ++ mem.freed).Perm (cells ++ mem.freed) :=
    (List.reverse_perm cells).append_right _
  constructor
  case rules => exact represents.rules
  case alertIdCounter => exact represents.alertIdCounter
  case stats => exact represents.stats
  case maxAlerts => exact represents.maxAlerts
  case alertCount => rfl
  case linked => rfl
  case objects => rfl
  case distinct =>
    rw [EngineMemory.clearAlerts, freed, List.nil_append, perm.nodup_iff]
    exact represents.distinct
  case allocated =>
    intro cell member
    rw [EngineMemory.clearAlerts, freed, List.nil_append, perm.mem_iff] at member
    exact represents.allocated cell member

theorem EngineMemory.Represents.addRule (represents : mem.Represents cells engine)
    (rule : EngineRule) : (mem.addRule rule).Represents cells (engine.addRule rule) where
  rules := congrArg (rule :: ·) represents.rules
  alertIdCounter := represents.alertIdCounter
  stats := by rw [EngineMemory.addRule, represents.stats]; rfl
  maxAlerts := represents.maxAlerts
  alertCount := represents.alertCount
  linked := represents.linked
  objects := represents.objects
  distinct := represents.distinct
  allocated := represents.allocated

theorem EngineMemory.Represents.countInspection (represents : mem.Represents cells engine) :
    mem.countInspection.Represents cells engine.countInspection where
  rules := represents.rules
  alertIdCounter := represents.alertIdCounter
  stats := by rw [EngineMemory.countInspection, represents.stats]; rfl
  maxAlerts := represents.maxAlerts
  alertCount := represents.alertCount
  linked := represents.linked
  objects := represents.objects
  distinct := represents.distinct
  allocated := represents.allocated

/-- An inspection in memory raises the same alerts. -/
theorem EngineMemory.Represents.inspectRules (represents : mem.Represents cells engine)
    (check : EngineRule → Bytes → Bool × Bytes) (protocol : Proto.AppProto) (now : BitVec 64)
    (flow : Flow) (rules : List EngineRule) (index : Nat) (detail : Bytes) :
    let after := EngineMemory.inspectRules check protocol now flow rules detail mem
    let after' := Rules.inspectRules check protocol (fun _ => true) now flow rules index detail
      engine
    after.2 = after'.2 ∧ ∃ cells', after.1.Represents cells' after'.1 := by
  induction rules generalizing index detail mem cells engine with
  | nil => exact ⟨rfl, cells, represents⟩
  | cons rule rest ih =>
      rw [EngineMemory.inspectRules, Rules.inspectRules]
      by_cases other : rule.protocol ≠ protocol
      · rw [if_pos other, if_pos other]
        exact ih represents (index + 1) detail
      · rw [if_neg other, if_neg other]
        dsimp only
        by_cases fires : (check rule detail).1 = true
        · rw [if_pos fires, if_pos fires]
          obtain ⟨raised, cells', created⟩ :=
            represents.createAlert now rule flow (check rule detail).2
          obtain ⟨more, cells'', later⟩ := ih created (index + 1) (check rule detail).2
          exact ⟨by rw [raised, more], cells'', later⟩
        · rw [if_neg fires, if_neg fires]
          obtain ⟨more, cells', later⟩ := ih represents (index + 1) (check rule detail).2
          exact ⟨by rw [more], cells', later⟩

/-- A call in memory creates the same alerts. -/
theorem EngineMemory.Represents.step (represents : mem.Represents cells engine)
    (op : EngineOp) :
    (mem.step op).2 = (engine.step op).2 ∧
      ∃ cells', (mem.step op).1.Represents cells' (engine.step op).1 := by
  have counted := represents.countInspection
  have rules := represents.rules
  cases op with
  | addRule rule => exact ⟨rfl, cells, represents.addRule rule⟩
  | inspectHttp now stack flow tx =>
      rw [EngineMemory.step, EngineMemory.inspectHttp, rules]
      exact counted.inspectRules _ .http now flow engine.rules 0 stack
  | inspectDns now stack flow tx =>
      rw [EngineMemory.step, EngineMemory.inspectDns, rules]
      exact counted.inspectRules _ .dns now flow engine.rules 0 stack
  | inspectTls now stack flow conn =>
      rw [EngineMemory.step, EngineMemory.inspectTls, rules]
      exact counted.inspectRules _ .tls now flow engine.rules 0 stack
  | createCustomAlert now rule flow detail =>
      exact represents.createAlert now rule flow detail
  | clearAlerts => exact ⟨rfl, [], represents.clearAlerts⟩

/-- A run in memory creates the same alerts. -/
theorem EngineMemory.Represents.run (represents : mem.Represents cells engine)
    (ops : List EngineOp) (history : AlertHistory) :
    let after := runEngine EngineMemory.step ops mem history
    let after' := runEngine RuleEngine.step ops engine history
    after.2 = after'.2 ∧ ∃ cells', after.1.Represents cells' after'.1 := by
  induction ops generalizing mem cells engine history with
  | nil => exact ⟨rfl, cells, represents⟩
  | cons op ops ih =>
      obtain ⟨raised, cells', stepped⟩ := represents.step op
      rw [runEngine, runEngine, raised]
      exact ih stepped _

/-- A new engine holds no alerts. -/
theorem EngineMemory.represents_init (maxAlerts : BitVec 32) :
    EngineMemory.Represents { maxAlerts } [] { maxAlerts } where
  rules := rfl
  alertIdCounter := rfl
  stats := rfl
  maxAlerts := rfl
  alertCount := rfl
  linked := rfl
  objects := rfl
  distinct := List.nodup_nil
  allocated := fun _ member => absurd member List.not_mem_nil

end Represents

/-! ## The latest alerts -/

/-- The engine holds the latest alerts up to its limit, and has counted all of them. -/
structure RuleEngine.Keeps (engine : RuleEngine) (history : AlertHistory)
    (limit : BitVec 32) : Prop where
  maxAlerts : engine.maxAlerts = limit
  alerts : engine.alerts = history.recent.take limit.toNat
  alertCount : engine.alertCount.toNat = engine.alerts.length
  recent : history.recent <+: history.created
  alertIdCounter : engine.alertIdCounter.toNat = history.created.length
  ids : ∀ alert ∈ history.created, alert.alertId.toNat ≤ history.created.length
  decreasing : history.created.Pairwise fun newer older => older.alertId < newer.alertId
  alertsGenerated : engine.stats.alertsGenerated.toNat = history.created.length
  alertsBySeverity : ∀ severity, (engine.stats.alertsBySeverity severity).toNat =
    history.created.countP (·.severity = severity)

section Keeps

variable {engine : RuleEngine} {history : AlertHistory} {limit : BitVec 32}

theorem toNat_succ {width : Nat} {count : BitVec width} (small : count.toNat + 1 < 2 ^ width) :
    (count + 1).toNat = count.toNat + 1 := by
  have nonzero : 0 < width := by
    apply Nat.pos_of_ne_zero
    rintro rfl
    omega
  have one : (1 : BitVec width).toNat = 1 := BitVec.toNat_one nonzero
  rw [BitVec.toNat_add, one, Nat.mod_eq_of_lt small]

theorem AlertHistory.record_append (history : AlertHistory) (raised more : List Alert) :
    history.record (raised ++ more) = (history.record raised).record more := by
  simp [AlertHistory.record]

/-- Every alert has one of the five severities. -/
theorem countP_severities (alerts : List Alert) :
    ([.info, .low, .medium, .high, .critical].map fun severity : AlertSeverity =>
      alerts.countP (·.severity = severity)).sum = alerts.length := by
  induction alerts with
  | nil => rfl
  | cons alert rest ih =>
      cases kind : alert.severity <;> simp [List.countP_cons, kind] at ih ⊢ <;> omega

/-- The limit leaves the latest alerts, and their number. -/
theorem RuleEngine.limitAlerts_take (counted : engine.alertCount.toNat = engine.alerts.length)
    (positive : 0 < engine.maxAlerts)
    (atMost : engine.alerts.length ≤ engine.maxAlerts.toNat + 1) :
    engine.limitAlerts.alerts = engine.alerts.take engine.maxAlerts.toNat ∧
      engine.limitAlerts.alertCount.toNat = engine.limitAlerts.alerts.length := by
  have least : 0 < engine.maxAlerts.toNat := positive
  rw [RuleEngine.limitAlerts]
  split
  next above =>
    have more : engine.maxAlerts.toNat < engine.alerts.length := counted ▸ above.1
    have exact' : engine.alerts.length - 1 = engine.maxAlerts.toNat := by omega
    have one : (1 : BitVec 32).toNat = 1 := rfl
    refine ⟨by rw [List.dropLast_eq_take, exact'], ?_⟩
    have least' : (1 : BitVec 32) ≤ engine.alertCount := by
      rw [BitVec.le_def, counted]
      omega
    rw [BitVec.toNat_sub_of_le least', counted, List.length_dropLast, one]
  next within =>
    refine ⟨?_, counted⟩
    have few : engine.alerts.length ≤ engine.maxAlerts.toNat := by
      by_contra more
      exact within ⟨by rw [gt_iff_lt, BitVec.lt_def, counted]; omega, by omega⟩
    exact (List.take_of_length_le few).symm

@[simp]
theorem limitAlerts_maxAlerts (engine : RuleEngine) :
    engine.limitAlerts.maxAlerts = engine.maxAlerts := by
  rw [RuleEngine.limitAlerts]
  split <;> rfl

@[simp]
theorem limitAlerts_alertIdCounter (engine : RuleEngine) :
    engine.limitAlerts.alertIdCounter = engine.alertIdCounter := by
  rw [RuleEngine.limitAlerts]
  split <;> rfl

@[simp]
theorem limitAlerts_stats (engine : RuleEngine) : engine.limitAlerts.stats = engine.stats := by
  rw [RuleEngine.limitAlerts]
  split <;> rfl

/-- `create_alert` keeps the latest alerts. -/
theorem RuleEngine.Keeps.createAlert (keeps : engine.Keeps history limit)
    (positive : 0 < limit) (few : history.created.length + 1 < 2 ^ 32) (now : BitVec 64)
    (rule : EngineRule) (flow : Flow) (detail : Bytes) :
    (Rules.createAlert true now engine rule flow detail).1.Keeps
      (history.record (Rules.createAlert true now engine rule flow detail).2) limit := by
  have least : 0 < limit.toNat := positive
  have atMost : engine.alerts.length ≤ limit.toNat := by
    rw [keeps.alerts]
    exact List.length_take_le _ _
  have known : engine.alerts.length ≤ history.created.length := by
    rw [keeps.alerts]
    exact (List.length_take_le' _ _).trans keeps.recent.length_le
  have counted := keeps.alertCount
  have numbered : (engine.alertIdCounter + 1).toNat = history.created.length + 1 := by
    rw [toNat_succ (keeps.alertIdCounter ▸ few), keeps.alertIdCounter]
  rw [Rules.createAlert, if_pos rfl]
  generalize made : newAlert (engine.alertIdCounter + 1) rule flow detail now = alert
  have alertId : alert.alertId.toNat = history.created.length + 1 := by
    rw [← made]
    exact numbered
  dsimp only
  obtain ⟨latest, length⟩ := @RuleEngine.limitAlerts_take
    { engine with
      alertIdCounter := engine.alertIdCounter + 1
      alerts := alert :: engine.alerts
      alertCount := engine.alertCount + 1 }
    (by
      dsimp only
      rw [toNat_succ (by omega), counted, List.length_cons])
    (by
      dsimp only
      rw [keeps.maxAlerts]
      exact positive)
    (by
      dsimp only
      rw [keeps.maxAlerts, List.length_cons]
      omega)
  dsimp only at latest
  rw [AlertHistory.record, List.reverse_singleton]
  constructor
  case maxAlerts => exact (limitAlerts_maxAlerts _).trans keeps.maxAlerts
  case alerts =>
    obtain ⟨less, more⟩ : ∃ less, limit.toNat = less + 1 :=
      Nat.exists_eq_add_one_of_ne_zero (Nat.ne_of_gt least)
    refine latest.trans ?_
    rw [keeps.maxAlerts, keeps.alerts, more, List.take_succ_cons, List.take_take,
      Nat.min_eq_left (Nat.le_succ _)]
    rfl
  case alertCount => exact length
  case recent => exact List.prefix_append_right_inj [alert] |>.mpr keeps.recent
  case alertIdCounter =>
    dsimp only
    rw [limitAlerts_alertIdCounter]
    exact numbered
  case ids =>
    intro other member
    rcases List.mem_cons.mp member with rfl | old
    · exact Nat.le_of_eq alertId
    · exact Nat.le_succ_of_le (keeps.ids other old)
  case decreasing =>
    refine List.pairwise_cons.mpr ⟨?_, keeps.decreasing⟩
    intro older member
    rw [BitVec.lt_def, alertId]
    exact Nat.lt_succ_of_le (keeps.ids older member)
  case alertsGenerated =>
    dsimp only
    rw [limitAlerts_stats, toNat_succ (by rw [keeps.alertsGenerated]; omega),
      keeps.alertsGenerated]
    rfl
  case alertsBySeverity =>
    intro severity
    have old := keeps.alertsBySeverity severity
    have bound : history.created.countP (·.severity = severity) ≤ history.created.length :=
      List.countP_le_length
    dsimp only
    rw [limitAlerts_stats, List.singleton_append, List.countP_cons]
    by_cases same : severity = alert.severity
    · rw [if_pos same, if_pos (by simp [same]), toNat_succ (by rw [old]; omega), old]
    · rw [if_neg same, if_neg (by simpa using Ne.symm same), old]
      rfl

/-- An inspection keeps the latest alerts. -/
theorem RuleEngine.Keeps.inspectRules (keeps : engine.Keeps history limit)
    (positive : 0 < limit) (check : EngineRule → Bytes → Bool × Bytes)
    (protocol : Proto.AppProto) (now : BitVec 64) (flow : Flow) (rules : List EngineRule)
    (index : Nat) (detail : Bytes) :
    let after := Rules.inspectRules check protocol (fun _ => true) now flow rules index detail
      engine
    history.created.length + after.2.length < 2 ^ 32 →
      after.1.Keeps (history.record after.2) limit := by
  induction rules generalizing index detail engine history with
  | nil => exact fun _ => keeps
  | cons rule rest ih =>
      rw [Rules.inspectRules]
      by_cases other : rule.protocol ≠ protocol
      · rw [if_pos other]
        exact ih keeps (index + 1) detail
      · rw [if_neg other]
        dsimp only
        by_cases fires : (check rule detail).1 = true
        · rw [if_pos fires]
          intro few
          have one : (Rules.createAlert true now engine rule flow (check rule detail).2).2.length
              = 1 := rfl
          rw [List.length_append, one] at few
          rw [AlertHistory.record_append]
          refine ih (keeps.createAlert positive (by omega) now rule flow _) _ _ ?_
          rw [AlertHistory.record, List.length_append, List.length_reverse, one]
          omega
        · rw [if_neg fires]
          exact ih keeps (index + 1) (check rule detail).2

theorem RuleEngine.Keeps.countInspection (keeps : engine.Keeps history limit) :
    engine.countInspection.Keeps history limit :=
  ⟨keeps.maxAlerts, keeps.alerts, keeps.alertCount, keeps.recent, keeps.alertIdCounter,
    keeps.ids, keeps.decreasing, keeps.alertsGenerated, keeps.alertsBySeverity⟩

/-- A call keeps the latest alerts. -/
theorem RuleEngine.Keeps.step (keeps : engine.Keeps history limit) (positive : 0 < limit)
    (op : EngineOp)
    (few : (history.after op (engine.step op).2).created.length < 2 ^ 32) :
    (engine.step op).1.Keeps (history.after op (engine.step op).2) limit := by
  have room {raised : List Alert} (small : (history.record raised).created.length < 2 ^ 32) :
      history.created.length + raised.length < 2 ^ 32 := by
    rwa [AlertHistory.record, List.length_append, List.length_reverse, Nat.add_comm] at small
  have counted := keeps.countInspection
  cases op with
  | addRule rule =>
      exact ⟨keeps.maxAlerts, keeps.alerts, keeps.alertCount, keeps.recent,
        keeps.alertIdCounter, keeps.ids, keeps.decreasing, keeps.alertsGenerated,
        keeps.alertsBySeverity⟩
  | inspectHttp now stack flow tx =>
      exact counted.inspectRules positive _ .http now flow engine.rules 0 stack (room few)
  | inspectDns now stack flow tx =>
      exact counted.inspectRules positive _ .dns now flow engine.rules 0 stack (room few)
  | inspectTls now stack flow conn =>
      exact counted.inspectRules positive _ .tls now flow engine.rules 0 stack (room few)
  | createCustomAlert now rule flow detail =>
      exact keeps.createAlert positive (room few) now rule flow detail
  | clearAlerts =>
      exact ⟨keeps.maxAlerts, List.take_nil.symm, rfl, List.nil_prefix, keeps.alertIdCounter,
        keeps.ids, keeps.decreasing, keeps.alertsGenerated, keeps.alertsBySeverity⟩

theorem AlertHistory.created_length_le_after (history : AlertHistory) (op : EngineOp)
    (raised : List Alert) : history.created.length ≤ (history.after op raised).created.length := by
  cases op with
  | clearAlerts => exact Nat.le_refl _
  | _ => simp [AlertHistory.after, AlertHistory.record]

theorem AlertHistory.created_length_le_run {σ : Type} (step : σ → EngineOp → σ × List Alert)
    (ops : List EngineOp) (state : σ) (history : AlertHistory) :
    history.created.length ≤ (runEngine step ops state history).2.created.length := by
  induction ops generalizing state history with
  | nil => exact Nat.le_refl _
  | cons op ops ih => exact (history.created_length_le_after op _).trans (ih _ _)

/-- A run keeps the latest alerts. -/
theorem RuleEngine.Keeps.run (keeps : engine.Keeps history limit) (positive : 0 < limit)
    (ops : List EngineOp)
    (few : (runEngine RuleEngine.step ops engine history).2.created.length < 2 ^ 32) :
    (runEngine RuleEngine.step ops engine history).1.Keeps
      (runEngine RuleEngine.step ops engine history).2 limit := by
  induction ops generalizing engine history with
  | nil => exact keeps
  | cons op ops ih =>
      have fewer := AlertHistory.created_length_le_run RuleEngine.step ops (engine.step op).1
        (history.after op (engine.step op).2)
      exact ih (keeps.step positive op (Nat.lt_of_le_of_lt fewer few)) few

theorem RuleEngine.keeps_init (limit : BitVec 32) :
    RuleEngine.Keeps { maxAlerts := limit } {} limit where
  maxAlerts := rfl
  alerts := List.take_nil.symm
  alertCount := rfl
  recent := List.nil_prefix
  alertIdCounter := rfl
  ids := fun _ member => absurd member List.not_mem_nil
  decreasing := .nil
  alertsGenerated := rfl
  alertsBySeverity := fun _ => rfl

end Keeps

end NetDefender.Rules
