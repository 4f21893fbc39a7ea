import NetDefender.Bridge.Contexts

/-!
# Alerts on one transaction

Every packet of a flow has the flow's current HTTP transaction, or its TLS connection,
inspected by all rules, and nothing remembers what was reported before.  A transaction gets
one alert of a rule as long as the rule matches it in one inspection only.
-/

namespace NetDefender.Bridge

open NetDefender.Flows NetDefender.Behavior NetDefender.Rules NetDefender.Fallible

/-! ## Inspections -/

/-- Two inspections look at the same HTTP transaction or at the same TLS connection. -/
def Subject.Same : Subject → Subject → Prop
  | .http flow tx, .http flow' tx' => flow = flow' ∧ tx.id = tx'.id
  | .tls flow _, .tls flow' _ => flow = flow'
  | _, _ => False

instance : DecidableRel Subject.Same
  | .http _ _, .http _ _ => inferInstanceAs (Decidable (_ ∧ _))
  | .tls _ _, .tls _ _ => inferInstanceAs (Decidable (_ = _))
  | .http _ _, .dns _ _ | .http _ _, .tls _ _ | .http _ _, .behavior _ => .isFalse id
  | .dns _ _, _ | .behavior _, _ => .isFalse id
  | .tls _ _, .http _ _ | .tls _ _, .dns _ _ | .tls _ _, .behavior _ => .isFalse id

/-- A rule matches the transaction or the connection as it was inspected. -/
def Subject.MatchedBy (rule : EngineRule) : Subject → Prop
  | .http _ tx => rule.protocol = .http ∧ (checkHttpRule rule.toDetectionRule tx [] 256).1 = true
  | .tls _ conn => rule.protocol = .tls ∧ (checkTlsRule rule conn [] 512).1 = true
  | .dns _ _ | .behavior _ => False

/-- How many alerts of a rule were raised on the transaction or connection of a subject. -/
def alertCount (reports : List Report) (subject : Subject) (ruleId : Nat) : Nat :=
  ((reports.filter fun report => report.subject.Same subject).flatMap (·.alerts)).countP
    fun alert => alert.ruleId = ruleId

/-- The rules of a list match no transaction and no connection in two inspections. -/
def MatchedOnce (rules : List EngineRule) (reports : List Report) : Prop :=
  reports.Pairwise fun earlier later => earlier.subject.Same later.subject →
    ∀ rule ∈ rules, ¬(earlier.subject.MatchedBy rule ∧ later.subject.MatchedBy rule)

section Subjects

variable {first second third : Subject}

theorem Subject.Same.symm (same : first.Same second) : second.Same first := by
  cases first <;> cases second <;> try exact same
  case http.http => exact ⟨same.1.symm, same.2.symm⟩
  case tls.tls => exact Eq.symm same

theorem Subject.Same.trans (left : first.Same second) (right : second.Same third) :
    first.Same third := by
  cases first <;> cases second <;> try exact left.elim
  case http.http =>
    cases third <;> try exact right
    exact ⟨left.1.trans right.1, left.2.trans right.2⟩
  case tls.tls =>
    cases third <;> try exact right
    exact Eq.trans left right

end Subjects

/-! ## One inspection -/

/-- An inspection of a transaction or a connection by a list of rules: the alerts are of
rules that match, at most one of each, and of all of them if memory suffices. -/
structure Judged (rules : List EngineRule) (granted : Prop) (report : Report) : Prop where
  sound : ∀ alert ∈ report.alerts, ∃ rule ∈ rules, rule.ruleId = alert.ruleId ∧
    report.subject.MatchedBy rule
  once : (report.alerts.map (·.ruleId)).Nodup
  complete : granted → ∀ rule ∈ rules, report.subject.MatchedBy rule →
    ∃ alert ∈ report.alerts, alert.ruleId = rule.ruleId

/-- The subject is one that the claim about duplicates is about. -/
def Subject.Ruled : Subject → Prop
  | .http _ _ | .tls _ _ => True
  | .dns _ _ | .behavior _ => False

/-- The rules have distinct identities. -/
def Systems.Loaded (systems : Systems) : Prop :=
  ∀ engine ∈ systems.engine, (engine.rules.map (·.ruleId)).Nodup

/-- The rules of an engine stay as they are. -/
def Systems.Keeps (before after : Systems) : Prop :=
  ∀ engine ∈ before.engine, ∃ engine' ∈ after.engine, engine'.rules = engine.rules

/-- What a stage does to the detection systems, and what it reports. -/
structure Inspects (granted : Prop) (before after : Systems) (reports : List Report) :
    Prop where
  loaded : before.Loaded → after.Loaded
  keeps : before.Keeps after
  judged : before.Loaded → ∀ report ∈ reports, report.subject.Ruled →
    ∃ engine ∈ after.engine, Judged engine.rules granted report

namespace Inspects

variable {granted : Prop} {before middle after : Systems} {reports more : List Report}

theorem refl (systems : Systems) : Inspects granted systems systems [] where
  loaded := id
  keeps := fun engine present => ⟨engine, present, rfl⟩
  judged := by
    intro _ report member
    cases member

theorem mono {weaker : Prop} (inspects : Inspects granted before after reports)
    (implies : weaker → granted) : Inspects weaker before after reports where
  loaded := inspects.loaded
  keeps := inspects.keeps
  judged := by
    intro loaded report member ruled
    obtain ⟨engine, present, judged⟩ := inspects.judged loaded report member ruled
    exact ⟨engine, present, judged.sound, judged.once, judged.complete ∘ implies⟩

theorem append (first : Inspects granted before middle reports)
    (second : Inspects granted middle after more) :
    Inspects granted before after (reports ++ more) where
  loaded := second.loaded ∘ first.loaded
  keeps := by
    intro engine present
    obtain ⟨engine', present', same⟩ := first.keeps engine present
    obtain ⟨engine'', present'', same'⟩ := second.keeps engine' present'
    exact ⟨engine'', present'', same'.trans same⟩
  judged := by
    intro loaded report member ruled
    rcases List.mem_append.mp member with early | late
    · obtain ⟨engine, present, judged⟩ := first.judged loaded report early ruled
      obtain ⟨engine', present', same⟩ := second.keeps engine present
      rw [← same] at judged
      exact ⟨engine', present', judged⟩
    · exact second.judged (first.loaded loaded) report late ruled

/-- An inspection by the rules of an engine, which keeps them. -/
theorem of_engine {engine engine' : RuleEngine} {report : Report}
    (present : before.engine = some engine) (stored : after.engine = some engine')
    (same : engine'.rules = engine.rules)
    (judged : before.Loaded → report.subject.Ruled → Judged engine.rules granted report) :
    Inspects granted before after [report] where
  loaded := by
    intro loaded other present'
    rw [stored] at present'
    cases present'
    rw [same]
    exact loaded engine present
  keeps := by
    intro other present'
    rw [present] at present'
    cases present'
    exact ⟨engine', stored, same⟩
  judged := by
    intro loaded other member ruled
    rw [List.mem_singleton] at member
    subst member
    refine ⟨engine', stored, ?_⟩
    rw [same]
    exact judged loaded ruled

end Inspects

section Engine

variable {check : EngineRule → CString.Bytes → Bool × CString.Bytes}
variable {protocol : Proto.AppProto} {now : BitVec 64} {flow : Flow}

/-- The inspection loop raises one alert for each rule that matches. -/
theorem inspectRules_judged {alloc : Nat → Bool} {engine : RuleEngine} {subject : Subject}
    {verdict : EngineRule → Bool} (blind : ∀ rule detail, (check rule detail).1 = verdict rule)
    (matched : ∀ rule, subject.MatchedBy rule ↔ rule.protocol = protocol ∧ verdict rule = true)
    (distinct : (engine.rules.map (·.ruleId)).Nodup) (counted : RuleEngine)
    (detail : CString.Bytes) :
    Judged engine.rules (∀ index, alloc index = true)
      ⟨subject, (inspectRules check protocol alloc now flow engine.rules 0 detail counted).2⟩ := by
  let raised :=
    (inspectRules check protocol alloc now flow engine.rules 0 detail counted).2
  let hits := (engine.rules.zipIdx 0).filter fun entry =>
    entry.1.protocol = protocol && verdict entry.1 && alloc entry.2
  have ids : raised.map (·.ruleId) = hits.map (·.1.ruleId) :=
    inspectRules_ids blind engine.rules 0 detail counted
  constructor
  case sound =>
    intro alert member
    have listed : alert.ruleId ∈ hits.map (·.1.ruleId) :=
      ids ▸ List.mem_map_of_mem member
    obtain ⟨⟨rule, index⟩, hit, same⟩ := List.mem_map.mp listed
    rw [List.mem_filter] at hit
    obtain ⟨entry, fires⟩ := hit
    simp only [Bool.and_eq_true, decide_eq_true_eq] at fires
    exact ⟨rule, List.fst_mem_of_mem_zipIdx entry, same, (matched rule).mpr fires.1⟩
  case once =>
    have part : (hits.map (·.1.ruleId)).Sublist (engine.rules.map (·.ruleId)) := by
      have projected : (hits.map (·.1)).Sublist engine.rules := by
        have kept := (List.filter_sublist (l := engine.rules.zipIdx 0)
          (p := fun entry => entry.1.protocol = protocol && verdict entry.1 &&
            alloc entry.2)).map Prod.fst
        rwa [List.zipIdx_map_fst] at kept
      have named := projected.map fun rule => rule.ruleId
      rwa [List.map_map] at named
    have nodup := distinct.sublist part
    rwa [← ids] at nodup
  case complete =>
    intro allocated rule member matches_
    have numbered : rule ∈ (engine.rules.zipIdx 0).map Prod.fst := by
      rwa [List.zipIdx_map_fst]
    obtain ⟨⟨other, index⟩, entry, same⟩ := List.mem_map.mp numbered
    obtain rfl : other = rule := same
    have fires := (matched other).mp matches_
    have hit : (other, index) ∈ hits :=
      List.mem_filter.mpr ⟨entry, by simp [fires.1, fires.2, allocated index]⟩
    have listed : other.ruleId ∈ raised.map (·.ruleId) :=
      ids ▸ List.mem_map.mpr ⟨(other, index), hit, rfl⟩
    exact List.mem_map.mp listed

end Engine

/-! ## One packet -/

section Stages

variable {env : Env} {arrival : Arrival} {decoded : Decoded} {flow : Flow}
variable {alproto : Proto.AppProto} {ctx : ProtoCtx} {systems after : Systems}
variable {reports : List Report}

/-- Every alert of the packet can be allocated. -/
def Arrival.Granted (arrival : Arrival) : Prop :=
  ∀ index, arrival.alert index = true

theorem start_inspects (granted : Prop) (arrival : Arrival) (systems : Systems) :
    Inspects granted systems (systems.start arrival) [] := by
  rw [Systems.start]
  split
  next => exact Inspects.refl systems
  next absent =>
      split
      next =>
          constructor
          case loaded =>
            intro _ engine stored
            cases stored
            exact builtinRules_ids arrival.rule
          case keeps =>
            intro engine present
            rw [absent] at present
            cases present
          case judged =>
            intro _ report member
            cases member
      next => exact Inspects.refl systems

theorem inspectHttp_inspects
    (run : inspectHttp arrival flow alproto ctx systems = .ok (after, reports)) :
    Inspects arrival.Granted systems after reports := by
  have started := start_inspects arrival.Granted arrival systems
  rcases inspectHttp_cases run with ⟨rfl | rfl, rfl⟩ |
    ⟨engine, tx, _, present, rfl, rfl, rfl⟩
  · exact Inspects.refl after
  · exact started
  · refine started.append (Inspects.of_engine present rfl
      (inspectRules_rules engine.rules 0 arrival.stack _) ?_)
    intro loaded _
    exact inspectRules_judged
      (fun rule detail => checkHttpRule_blind rule.toDetectionRule tx detail 256)
      (fun rule => Iff.rfl) (loaded engine present) _ _

theorem dnsStage_inspects {app : FlowApp} {dns dns' : Option DnsParser.DnsConn}
    (run : dnsStage arrival decoded flow app dns systems = .ok (dns', after, reports)) :
    Inspects arrival.Granted systems after reports := by
  rcases dnsStage_cases run with ⟨rfl, rfl⟩ |
    ⟨engine, tx, _, present, rfl, rfl, rfl⟩
  · exact Inspects.refl after
  · exact Inspects.of_engine present rfl (inspectRules_rules engine.rules 0 arrival.stack _)
      fun _ => False.elim

theorem inspectTls_inspects
    (run : inspectTls arrival flow alproto ctx systems = .ok (after, reports)) :
    Inspects arrival.Granted systems after reports := by
  rcases inspectTls_cases run with ⟨rfl, rfl⟩ |
    ⟨engine, conn, _, present, rfl, rfl, rfl⟩
  · exact Inspects.refl after
  · refine Inspects.of_engine present rfl
      (inspectRules_rules engine.rules 0 arrival.stack _) ?_
    intro loaded _
    exact inspectRules_judged
      (fun rule detail => checkTlsRule_blind rule conn detail 512)
      (fun rule => Iff.rfl) (loaded engine present) _ _

theorem inspectBehavior_inspects
    (run : inspectBehavior arrival decoded flow alproto ctx systems = .ok (after, reports)) :
    Inspects arrival.Granted systems after reports := by
  rcases inspectBehavior_cases run with ⟨rfl, rfl⟩ |
    ⟨engine, detector, packetCount, watch, present, attached, inspected, rfl, rfl⟩
  · exact Inspects.refl after
  · exact Inspects.of_engine present rfl (inspectPacket_rules inspected) fun _ => False.elim

theorem Passes.inspects {lcore final : Lcore}
    (passes : Passes env arrival decoded lcore flow final reports) :
    Inspects arrival.Granted lcore.systems final.systems reports := by
  cases passes with
  | mk tracked httpApp app dns afterHttp afterDns afterTls systems httpReports dnsReports
      tlsReports behaviorReports track http inspectedHttp parsedDns tls inspectedTls
      inspectedBehavior printed =>
      exact (((inspectHttp_inspects inspectedHttp).append (dnsStage_inspects parsedDns)).append
        (inspectTls_inspects inspectedTls)).append (inspectBehavior_inspects inspectedBehavior)

theorem processPacket_inspects {lcore final : Lcore} {ret : Int}
    (processed : lcore.processPacket env arrival = .ok (ret, final, reports)) :
    Inspects arrival.Granted lcore.systems final.systems reports := by
  rcases processPacket_cases processed with ⟨-, -, rfl, rfl⟩ | ⟨table, -, -, rfl, rfl⟩ |
    ⟨decoded, table, flow, -, -, passes⟩
  · exact Inspects.refl lcore.systems
  · exact Inspects.refl lcore.systems
  · exact passes.inspects

end Stages

/-! ## Runs -/

section Runs

variable {env : Env} {lcore final : Lcore} {reports : List Report}

/-- Every alert of the event can be allocated. -/
def Event.Granted : Event → Prop
  | .packet arrival => arrival.Granted
  | .cleanup _ => True

theorem Event.run_inspects {event : Event} (run : event.run env lcore = .ok (final, reports)) :
    Inspects event.Granted lcore.systems final.systems reports := by
  cases event with
  | packet arrival =>
      obtain ⟨ret, processed⟩ := run_packet_iff.mp run
      exact processPacket_inspects processed
  | cleanup now =>
      obtain ⟨_, _, same⟩ := bind_ok run
      cases same
      exact Inspects.refl lcore.systems

theorem runEvents_inspects {events : List Event}
    (run : runEvents env lcore events = .ok (final, reports)) :
    Inspects (∀ event ∈ events, event.Granted) lcore.systems final.systems reports := by
  induction events generalizing lcore reports with
  | nil =>
      cases run
      exact Inspects.refl _
  | cons event events inductionHypothesis =>
      obtain ⟨middle, first, more, step, rest, rfl⟩ := runEvents_cons_iff.mp run
      have now := Event.run_inspects step
      have later := inductionHypothesis rest
      refine (now.mono ?_).append (later.mono ?_)
      · intro granted
        exact granted event (List.mem_cons_self ..)
      · intro granted other member
        exact granted other (List.mem_cons_of_mem event member)

end Runs

/-! ## Counting -/

section Counting

variable {rules : List EngineRule} {granted : Prop} {report : Report} {reports : List Report}
variable {subject : Subject} {ruleId : Nat}

theorem alertCount_cons_same (same : report.subject.Same subject) :
    alertCount (report :: reports) subject ruleId =
      report.alerts.countP (fun alert => alert.ruleId = ruleId) +
        alertCount reports subject ruleId := by
  rw [alertCount, alertCount, List.filter_cons_of_pos (by simpa using same),
    List.flatMap_cons, List.countP_append]

theorem alertCount_cons_other (other : ¬report.subject.Same subject) :
    alertCount (report :: reports) subject ruleId = alertCount reports subject ruleId := by
  rw [alertCount, alertCount, List.filter_cons_of_neg (by simpa using other)]

theorem alertCount_pos_iff :
    0 < alertCount reports subject ruleId ↔
      ∃ report ∈ reports, report.subject.Same subject ∧
        ∃ alert ∈ report.alerts, alert.ruleId = ruleId := by
  simp only [alertCount, List.countP_pos_iff, List.mem_flatMap, List.mem_filter,
    decide_eq_true_eq]
  constructor
  · rintro ⟨alert, ⟨report, ⟨member, same⟩, raised⟩, id⟩
    exact ⟨report, member, same, alert, raised, id⟩
  · rintro ⟨report, member, same, alert, raised, id⟩
    exact ⟨alert, ⟨report, ⟨member, same⟩, raised⟩, id⟩

theorem Subject.Same.ruled {first second : Subject} (same : first.Same second) :
    first.Ruled := by
  cases first <;> cases second <;> first | exact trivial | exact same.elim

/-- One inspection raises at most one alert of a rule. -/
theorem Judged.countP_le_one (judged : Judged rules granted report) (ruleId : Nat) :
    report.alerts.countP (fun alert => alert.ruleId = ruleId) ≤ 1 := by
  have once := List.nodup_iff_count_le_one.mp judged.once ruleId
  rw [List.count, List.countP_map] at once
  refine le_trans (le_of_eq (List.countP_congr ?_)) once
  intro alert _
  simp

/-- If no rule matches a transaction twice, it has at most one alert of each rule. -/
theorem alertCount_le_one (distinct : (rules.map (·.ruleId)).Nodup)
    (judged : ∀ report ∈ reports, report.subject.Ruled → Judged rules granted report)
    (once : MatchedOnce rules reports) (subject : Subject) (ruleId : Nat) :
    alertCount reports subject ruleId ≤ 1 := by
  induction reports with
  | nil => exact Nat.zero_le 1
  | cons report reports inductionHypothesis =>
      rw [MatchedOnce, List.pairwise_cons] at once
      have rest := inductionHypothesis
        (fun other member => judged other (List.mem_cons_of_mem report member)) once.2
      by_cases same : report.subject.Same subject
      · rw [alertCount_cons_same same]
        have here := judged report (List.mem_cons_self ..) same.ruled
        have atMost := here.countP_le_one ruleId
        by_cases raised : 0 < report.alerts.countP fun alert => alert.ruleId = ruleId
        · -- The rule that raised the alert matches no later inspection of the transaction.
          have none : ¬0 < alertCount reports subject ruleId := by
            rw [alertCount_pos_iff]
            rintro ⟨later, member, same', alert', raised', id'⟩
            rw [List.countP_pos_iff] at raised
            obtain ⟨alert, raised, id⟩ := raised
            have there := judged later (List.mem_cons_of_mem report member) same'.ruled
            obtain ⟨rule, loaded, named, matched⟩ := here.sound alert raised
            obtain ⟨rule', loaded', named', matched'⟩ := there.sound alert' raised'
            have equal : rule = rule' := by
              refine List.inj_on_of_nodup_map distinct loaded loaded' ?_
              rw [named, named', id', of_decide_eq_true id]
            subst equal
            exact once.1 later member (same.trans same'.symm) rule loaded ⟨matched, matched'⟩
          omega
        · omega
      · rw [alertCount_cons_other same]
        exact rest

/-- If every matching rule raises its alert, transactions without duplicate alerts are
matched once by each rule. -/
theorem matchedOnce_of_alertCount
    (judged : ∀ report ∈ reports, report.subject.Ruled → Judged rules True report)
    (unique : ∀ subject ruleId, alertCount reports subject ruleId ≤ 1) :
    MatchedOnce rules reports := by
  induction reports with
  | nil => exact List.Pairwise.nil
  | cons report reports inductionHypothesis =>
      refine List.pairwise_cons.mpr ⟨?_, inductionHypothesis ?_ ?_⟩
      · rintro later member same rule loaded ⟨matched, matched'⟩
        have itself := same.trans same.symm
        have here := judged report (List.mem_cons_self ..) same.ruled
        have there := judged later (List.mem_cons_of_mem report member) same.symm.ruled
        have first : 0 < report.alerts.countP fun alert => alert.ruleId = rule.ruleId := by
          obtain ⟨alert, raised, id⟩ := here.complete trivial rule loaded matched
          exact List.countP_pos_iff.mpr ⟨alert, raised, decide_eq_true id⟩
        have second : 0 < alertCount reports report.subject rule.ruleId :=
          alertCount_pos_iff.mpr ⟨later, member, same.symm,
            there.complete trivial rule loaded matched'⟩
        have atMost := unique report.subject rule.ruleId
        rw [alertCount_cons_same itself] at atMost
        omega
      · intro other member
        exact judged other (List.mem_cons_of_mem report member)
      · intro subject ruleId
        have atMost := unique subject ruleId
        by_cases same : report.subject.Same subject
        · rw [alertCount_cons_same same] at atMost
          omega
        · rwa [alertCount_cons_other same] at atMost

end Counting

/-! ## Alerts of a run -/

/-- The rules that an lcore has loaded. -/
def Systems.rules (systems : Systems) : List EngineRule :=
  (systems.engine.map (·.rules)).getD []

/-- A connection to port 80 with a request that rule 1001 matches, and a segment without
data after it. -/
def attack : List Event :=
  [(0x02, []), (0x02, []), (0x10, []),
    (0x18, CString.ascii "GET /unionselect HTTP/1.1\r\n"), (0x10, [])].map
      fun (flags, payload) => .packet (arrivalOf (tcpFrame 80 flags payload))

/-- The inspected subjects of a run, with their alerts of a rule. -/
def countsOf (ruleId : Nat) : Except Fault (Lcore × List Report) → List (Subject × Nat)
  | .ok (_, reports) =>
      reports.map fun report => (report.subject, alertCount reports report.subject ruleId)
  | .error _ => []

theorem mem_countsOf {ruleId count : Nat} {result : Except Fault (Lcore × List Report)}
    (counted : count ∈ (countsOf ruleId result).map (·.2)) :
    ∃ lcore reports subject, result = .ok (lcore, reports) ∧
      alertCount reports subject ruleId = count := by
  cases result with
  | error fault => cases counted
  | ok final =>
      obtain ⟨lcore, reports⟩ := final
      rw [countsOf, List.map_map] at counted
      obtain ⟨report, _, same⟩ := List.mem_map.mp counted
      exact ⟨lcore, reports, report.subject, rfl, same⟩

end NetDefender.Bridge
