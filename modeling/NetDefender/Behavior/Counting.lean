import NetDefender.Behavior.Isolation
import NetDefender.Lib.Windows

/-!
# What the counters count

`failed_attempts` of a brute-force tracker and `high_freq_queries` of an anomaly tracker.
Every packet walks over all transactions of its flow, so that the counters count visits to
transactions.
-/

namespace NetDefender.Behavior

open CString Flows Rules Fallible Windows

/-! ## Visits -/

/-- A transaction, by its flow and the number of transactions of the flow before it. -/
abbrev TransactionId := Nat × Nat

/-- Is the response of a transaction counted by `detect_brute_force_http`? -/
def isFailure (tx : Http.HttpTransaction) : Bool :=
  match tx.response with
  | none => false
  | some response => decide (response.statusCode = 401) || decide (response.statusCode = 403)

/-- The connection that `detect_brute_force` walks over. -/
def PacketCall.httpConn (call : PacketCall) : Option Http.HttpConn :=
  if call.alproto = .http then (call.ctx.http.toOption).join else none

/-- The connection that `detect_dns_anomalies` walks over. -/
def PacketCall.dnsConn (call : PacketCall) : Option DnsParser.DnsConn :=
  if call.alproto = .dns then (call.ctx.udp.toOption).join else none

/-- The key of the brute-force tracker for a flow. -/
def PacketCall.target (call : PacketCall) : BitVec 32 × BitVec 16 :=
  (call.flow.dstAddr.word0, call.flow.dstPort)

/-- The authentication failures of a target that a call visits.  The latest transaction of a
connection comes first. -/
def PacketCall.failures (target : BitVec 32 × BitVec 16) (call : PacketCall) :
    List TransactionId :=
  match call.httpConn with
  | some conn =>
      if call.target = target then
        (conn.transactions.zipIdx.filter fun entry => isFailure entry.1).map fun entry =>
          (call.flow.id, conn.transactions.length - 1 - entry.2)
      else []
  | none => []

/-- The DNS transactions of a source that a call visits. -/
def PacketCall.queries (source : BitVec 32) (call : PacketCall) : List TransactionId :=
  match call.dnsConn with
  | some conn =>
      if call.flow.srcAddr.word0 = source then
        (List.range conn.transactions.length).map fun number => (call.flow.id, number)
      else []
  | none => []

/-! ## One tracker -/

section Track

variable {τ κ : Type} [DecidableEq κ] {key : τ → κ} {wanted : κ} {same : τ → Bool} {fresh : τ}
variable {observe : τ → τ × Option Bytes}
variable {start : τ → Int} {count : τ → BitVec 32} {now : Int} {elapsed : Int → Prop}

/-- A tracker whose counter goes on in its window or starts at this time. -/
theorem track_advances (decides : ∀ tracker, same tracker = decide (key tracker = wanted))
    (fresh_key : key fresh = wanted) (keeps : ∀ tracker, key (observe tracker).1 = key tracker)
    (open' : ¬elapsed now) (fresh_start : start fresh = now) (fresh_count : count fresh = 0)
    {visits : Nat}
    (counts : ∀ tracker,
      (start (observe tracker).1 = start tracker ∧
        count (observe tracker).1 = count tracker + BitVec.ofNat 32 visits ∧
        (0 < visits → ¬elapsed (start tracker))) ∨
      (elapsed (start tracker) ∧ start (observe tracker).1 = now ∧
        count (observe tracker).1 = BitVec.ofNat 32 visits))
    {granted : Bool} {all : Prop} (allocates : all → granted = true) (trackers : List τ) :
    Advances start count now elapsed all visits (Keyed.find key wanted trackers)
      (Keyed.find key wanted (track same fresh granted observe trackers).1) := by
  rw [track_eq decides fresh_key keeps]
  cases found : Keyed.find key wanted trackers with
  | none =>
      cases granted with
      | false =>
          dsimp only [Option.or]
          rw [if_neg Bool.false_ne_true]
          dsimp only
          rw [found]
          constructor
          case kept => exact id
          case allocated => exact fun granted => absurd (allocates granted) Bool.false_ne_true
          case counts => exact fun counter member => absurd member (by simp)
      | true =>
          have stored : Keyed.find key wanted (Keyed.put key (observe fresh).1 trackers) =
              some (observe fresh).1 := by
            rw [← (keeps fresh).trans fresh_key]
            exact Keyed.find_put_self _ _
          dsimp only [Option.or]
          rw [if_pos rfl]
          dsimp only
          rw [stored]
          constructor
          case kept => exact fun _ => rfl
          case allocated => exact fun _ _ => rfl
          case counts =>
            intro counter member
            obtain rfl := Option.some.inj member
            refine Or.inr ⟨fun old member => absurd member (by simp), ?_⟩
            rcases counts fresh with ⟨started, counted, -⟩ | ⟨ended, -⟩
            · refine ⟨started.trans fresh_start, visits, le_rfl, fun _ => rfl, ?_⟩
              rw [counted, fresh_count, zero_add]
            · exact absurd (fresh_start ▸ ended) open'
  | some tracker =>
      have stored : Keyed.find key wanted (Keyed.put key (observe tracker).1 trackers) =
          some (observe tracker).1 := by
        rw [← (keeps tracker).trans (Keyed.key_of_find found)]
        exact Keyed.find_put_self _ _
      dsimp only [Option.or]
      rw [stored]
      constructor
      case kept => exact fun _ => rfl
      case allocated => exact fun _ _ => rfl
      case counts =>
        intro counter member
        obtain rfl := Option.some.inj member
        rcases counts tracker with ⟨started, counted, within⟩ | ⟨ended, started, counted⟩
        · exact Or.inl ⟨tracker, rfl, started, counted, within⟩
        · refine Or.inr ⟨?_, started, visits, le_rfl, fun _ => rfl, counted⟩
          rintro old ⟨⟩
          exact ended

/-- A finding is one of the tracker that is stored. -/
theorem track_finding (decides : ∀ tracker, same tracker = decide (key tracker = wanted))
    (fresh_key : key fresh = wanted) (keeps : ∀ tracker, key (observe tracker).1 = key tracker)
    {granted : Bool} {trackers : List τ}
    (found : (track same fresh granted observe trackers).2.isSome = true) :
    ∃ tracker, Keyed.find key wanted (track same fresh granted observe trackers).1 =
        some (observe tracker).1 ∧
      (observe tracker).2.isSome = true := by
  rw [track_eq decides fresh_key keeps] at found ⊢
  cases taken : (Keyed.find key wanted trackers).or (if granted then some fresh else none) with
  | none =>
      rw [taken] at found
      exact absurd found Bool.false_ne_true
  | some tracker =>
      rw [taken] at found
      refine ⟨tracker, ?_, found⟩
      rw [← (keeps tracker).trans (key_of_taken fresh_key taken)]
      exact Keyed.find_put_self _ _

end Track

/-- What a call may sweep of a table. -/
theorem swept_cells {τ κ : Type} [DecidableEq κ] {key : τ → κ} (sweeps : Prop)
    [Decidable sweeps] (stamp : τ → Int) (maxAge now : Int) {trackers : List τ}
    (distinct : Keyed.Distinct key trackers) :
    ∃ keep : τ → Bool, (∀ tracker, keep tracker = false → maxAge < now - stamp tracker) ∧
      Keyed.Distinct key (if sweeps then ageOut stamp maxAge now trackers else trackers) ∧
      ∀ wanted,
        Keyed.find key wanted (if sweeps then ageOut stamp maxAge now trackers else trackers) =
          (Keyed.find key wanted trackers).filter keep := by
  split
  next =>
    refine ⟨_, ?_, distinct.filter _, distinct.find_filter _⟩
    intro tracker dropped
    simpa using dropped
  next =>
    refine ⟨fun _ => true, fun _ stays => absurd stays Bool.noConfusion, distinct, ?_⟩
    intro wanted
    cases Keyed.find key wanted trackers <;> rfl

/-! ## Authentication failures -/

/-- Is the window of a brute-force tracker over? -/
def BruteOver (now start : Int) : Prop := isWithinWindow now start BRUTE_FORCE_WINDOW = false

theorem not_bruteOver (now : Int) : ¬BruteOver now now := by
  rw [BruteOver, isWithinWindow_self now _ (by decide)]
  exact Bool.noConfusion

theorem BruteForceTracker.restart_target (now : Int) (tracker : BruteForceTracker) :
    (tracker.restart now).target = tracker.target := by
  rw [BruteForceTracker.restart]
  split <;> rfl

/-- What a failure leaves of a tracker, and what it has counted when it raises an alert. -/
theorem BruteForceTracker.observe_spec (now : Int) (statusCode : Nat)
    (tracker : BruteForceTracker) :
    let after := tracker.observe now statusCode
    after.1.target = tracker.target ∧
      after.1.windowStart = (tracker.restart now).windowStart ∧
      after.1.failedAttempts = (tracker.restart now).failedAttempts + 1 ∧
      (after.2.isSome = true → 5 ≤ after.1.failedAttempts.toNat) := by
  have target := tracker.restart_target now
  rw [BruteForceTracker.observe]
  dsimp only
  split
  next reached => exact ⟨target, rfl, rfl, fun _ => reached.1⟩
  next => exact ⟨target, rfl, rfl, fun found => absurd found (by simp)⟩

/-- A failure goes on in the window of the tracker or starts a new one. -/
theorem BruteForceTracker.observe_counts (now : Int) (statusCode : Nat)
    (tracker : BruteForceTracker) :
    ((tracker.observe now statusCode).1.windowStart = tracker.windowStart ∧
      (tracker.observe now statusCode).1.failedAttempts =
        tracker.failedAttempts + BitVec.ofNat 32 1 ∧
      (0 < 1 → ¬BruteOver now tracker.windowStart)) ∨
    (BruteOver now tracker.windowStart ∧
      (tracker.observe now statusCode).1.windowStart = now ∧
      (tracker.observe now statusCode).1.failedAttempts = BitVec.ofNat 32 1) := by
  obtain ⟨-, started, counted, -⟩ := tracker.observe_spec now statusCode
  rw [started, counted, BruteForceTracker.restart]
  split
  next within => exact Or.inl ⟨rfl, rfl, fun _ ended => Bool.noConfusion (ended.symm.trans within)⟩
  next ended => exact Or.inr ⟨Bool.eq_false_iff.mpr ended, rfl, rfl⟩

section Brute

variable {grants : Grants} {clock : Clock} {flow : Flow} {all : Prop}

theorem bruteKey_decides (targetIp : BitVec 32) (targetPort : BitVec 16)
    (tracker : BruteForceTracker) :
    (tracker.targetIp == targetIp && tracker.targetPort == targetPort) =
      decide (tracker.target = (targetIp, targetPort)) := by
  rw [Bool.eq_iff_iff]
  simp [BruteForceTracker.target]

/-- A transaction that is no failure is passed over. -/
theorem detectBruteForceHttp_other {index : Nat} {tx : Http.HttpTransaction} {watch : Watch}
    (other : ¬isFailure tx = true) :
    detectBruteForceHttp grants clock flow index tx watch = watch := by
  rw [detectBruteForceHttp]
  rw [isFailure] at other
  cases response : tx.response with
  | none => rfl
  | some response' =>
      rw [response] at other
      apply if_pos
      simpa using other

/-- A failure is one visit of the tracker of its target. -/
theorem detectBruteForceHttp_failure {index : Nat} {tx : Http.HttpTransaction}
    (failure : isFailure tx = true) (watch : Watch)
    (allocates : all → grants.tracker .bruteForce index = true)
    (distinct : Keyed.Distinct BruteForceTracker.target watch.detector.bruteTrackers) :
    let after := detectBruteForceHttp grants clock flow index tx watch
    let target := (flow.dstAddr.word0, flow.dstPort)
    Keyed.Distinct BruteForceTracker.target after.detector.bruteTrackers ∧
      (∀ other, target ≠ other →
        Keyed.find BruteForceTracker.target other after.detector.bruteTrackers =
          Keyed.find BruteForceTracker.target other watch.detector.bruteTrackers) ∧
      Advances BruteForceTracker.windowStart BruteForceTracker.failedAttempts clock.seconds
        (BruteOver clock.seconds) all 1
        (Keyed.find BruteForceTracker.target target watch.detector.bruteTrackers)
        (Keyed.find BruteForceTracker.target target after.detector.bruteTrackers) ∧
      (alertsOf 9001 after.raised = alertsOf 9001 watch.raised ∨
        ∃ tracker ∈ Keyed.find BruteForceTracker.target target after.detector.bruteTrackers,
          5 ≤ tracker.failedAttempts.toNat) := by
  rw [isFailure] at failure
  rw [detectBruteForceHttp]
  cases response : tx.response with
  | none => simp [response] at failure
  | some response' =>
      rw [response] at failure
      dsimp only
      have counted : ¬(response'.statusCode ≠ 401 ∧ response'.statusCode ≠ 403) := by
        rw [not_and_or, not_not, not_not]
        simpa using failure
      rw [if_neg counted, (Watch.report_spec _ _ _ _ _).1]
      have decides := bruteKey_decides flow.dstAddr.word0 flow.dstPort
      have keeps := fun tracker : BruteForceTracker =>
        (tracker.observe_spec clock.seconds response'.statusCode).1
      have counts := BruteForceTracker.observe_counts clock.seconds response'.statusCode
      let fresh : BruteForceTracker :=
        { targetIp := flow.dstAddr.word0, targetPort := flow.dstPort
          windowStart := clock.seconds, lastAttempt := clock.seconds }
      have fresh_key : fresh.target = (flow.dstAddr.word0, flow.dstPort) := rfl
      have stored := @track_distinct _ _ _ _ _ _ _ _ decides fresh_key keeps _ distinct
        (grants.tracker .bruteForce index)
      have others := fun other different => @track_find_of_ne _ _ _ _ _ _ _ _ decides fresh_key
        keeps other different (grants.tracker .bruteForce index) watch.detector.bruteTrackers
      have advances := track_advances decides fresh_key keeps (not_bruteOver clock.seconds) rfl
        rfl counts allocates watch.detector.bruteTrackers
      have found := @track_finding _ _ _ _ _ _ _ _ decides fresh_key keeps
        (grants.tracker .bruteForce index) watch.detector.bruteTrackers
      refine ⟨stored, others, advances, ?_⟩
      rw [show alertsOf 9001 _ = _ from alertsOf_report .bruteForce index bruteRule _ _]
      generalize track _ _ _ _ watch.detector.bruteTrackers = tracked at *
      obtain ⟨table, finding⟩ := tracked
      cases finding with
      | none =>
          left
          rw [findingAlerts_none, List.append_nil]
          rfl
      | some detail =>
          right
          obtain ⟨tracker, kept, finding⟩ := found rfl
          exact ⟨_, kept,
            (tracker.observe_spec clock.seconds response'.statusCode).2.2.2 finding⟩

/-- The walk over the transactions of a flow visits each of its failures. -/
theorem detectBruteForceHttp_walk (entries : List (Http.HttpTransaction × Nat)) (watch : Watch)
    (allocates : all → ∀ index, grants.tracker .bruteForce index = true)
    (distinct : Keyed.Distinct BruteForceTracker.target watch.detector.bruteTrackers) :
    let after := entries.foldl (fun watch (tx, index) =>
      detectBruteForceHttp grants clock flow index tx watch) watch
    let target := (flow.dstAddr.word0, flow.dstPort)
    let visits := (entries.filter fun entry => isFailure entry.1).length
    let before := Keyed.find BruteForceTracker.target target watch.detector.bruteTrackers
    let cell := Keyed.find BruteForceTracker.target target after.detector.bruteTrackers
    Keyed.Distinct BruteForceTracker.target after.detector.bruteTrackers ∧
      (∀ other, target ≠ other →
        Keyed.find BruteForceTracker.target other after.detector.bruteTrackers =
          Keyed.find BruteForceTracker.target other watch.detector.bruteTrackers) ∧
      Advances BruteForceTracker.windowStart BruteForceTracker.failedAttempts clock.seconds
        (BruteOver clock.seconds) all visits before cell ∧
      (alertsOf 9001 after.raised = alertsOf 9001 watch.raised ∨
        Peaks BruteForceTracker.windowStart BruteForceTracker.failedAttempts clock.seconds
          (BruteOver clock.seconds) all 5 visits before cell) := by
  induction entries generalizing watch with
  | nil => exact ⟨distinct, fun _ _ => rfl, .refl _, Or.inl rfl⟩
  | cons entry entries ih =>
      rw [List.foldl_cons]
      by_cases failure : isFailure entry.1 = true
      · have first : (entry :: entries).filter (fun entry => isFailure entry.1) =
            entry :: entries.filter fun entry => isFailure entry.1 :=
          List.filter_cons_of_pos failure
        obtain ⟨stored, others, advances, alarm⟩ :=
          @detectBruteForceHttp_failure grants clock flow all entry.2 entry.1 failure watch
            (fun granted => allocates granted entry.2) distinct
        obtain ⟨stored', others', advances', alarm'⟩ := ih _ stored
        rw [first, List.length_cons, Nat.add_comm]
        refine ⟨stored', fun other different =>
          (others' other different).trans (others other different),
          advances.trans advances' (not_bruteOver _), ?_⟩
        rcases alarm' with quiet' | ⟨early, late, visited, total, mid, before, reached, after⟩
        · rcases alarm with quiet | reached
          · exact Or.inl (quiet'.trans quiet)
          · exact Or.inr ⟨1, _, Nat.one_pos, rfl, _, advances, reached, advances'⟩
        · exact Or.inr ⟨1 + early, late, by omega, by omega, mid,
            advances.trans before (not_bruteOver _), reached, after⟩
      · have rest : (entry :: entries).filter (fun entry => isFailure entry.1) =
            entries.filter fun entry => isFailure entry.1 := List.filter_cons_of_neg failure
        have passed : detectBruteForceHttp grants clock flow entry.2 entry.1 watch = watch :=
          detectBruteForceHttp_other failure
        rw [rest]
        dsimp only
        rw [passed]
        exact ih watch distinct

/-- Everything that a call asks for can be allocated. -/
def PacketCall.AllGranted (call : PacketCall) : Prop :=
  ∀ kind index, call.grants.tracker kind index = true

/-- A step of the tracker of a target. -/
def bruteStep (target : BitVec 32 × BitVec 16) (inspected : Inspected) :
    Step BruteForceTracker TransactionId where
  visits := inspected.call.failures target
  cell := Keyed.find BruteForceTracker.target target inspected.after.detector.bruteTrackers

/-- A sweep removes brute-force trackers whose window is over. -/
theorem Detector.ageAt_brute (packetCount : BitVec 64) (now : Int) (detector : Detector)
    (distinct : Keyed.Distinct BruteForceTracker.target detector.bruteTrackers) :
    ∃ keep : BruteForceTracker → Bool,
      (∀ tracker, keep tracker = false → BruteOver now tracker.windowStart) ∧
      Keyed.Distinct BruteForceTracker.target
        (detector.ageAt packetCount now).bruteTrackers ∧
      ∀ target, Keyed.find BruteForceTracker.target target
          (detector.ageAt packetCount now).bruteTrackers =
        (Keyed.find BruteForceTracker.target target detector.bruteTrackers).filter keep := by
  obtain ⟨keep, sweeps, stored, cells⟩ := swept_cells (packetCount.toNat % 10000 = 0)
    BruteForceTracker.windowStart 600 now distinct
  have table : (detector.ageAt packetCount now).bruteTrackers =
      if packetCount.toNat % 10000 = 0 then
        ageOut BruteForceTracker.windowStart 600 now detector.bruteTrackers
      else detector.bruteTrackers := by
    rw [Detector.ageAt]
    split <;> rfl
  rw [table]
  refine ⟨keep, fun tracker dropped => ?_, stored, cells⟩
  exact isWithinWindow_eq_false.mpr (sweeps tracker dropped)

/-- The detection walks over the connection of the call. -/
theorem detectBruteForce_walk {call : PacketCall} {watch after : Watch}
    (ran : detectBruteForce call.grants call.clock call.flow call.alproto call.ctx watch =
      .ok after) :
    after = match call.httpConn with
      | none => watch
      | some conn => eachTransaction (detectBruteForceHttp call.grants call.clock call.flow) conn
          watch := by
  rw [detectBruteForce] at ran
  rw [PacketCall.httpConn]
  split at ran
  next http =>
    obtain ⟨conn?, found, rfl⟩ := map_ok ran
    rw [if_pos http, found]
    cases conn? <;> rfl
  next other =>
    cases ran
    rw [if_neg other]

theorem failures_of_ne {call : PacketCall} {target : BitVec 32 × BitVec 16}
    (other : call.target ≠ target) : call.failures target = [] := by
  rw [PacketCall.failures]
  split
  next => exact if_neg other
  next => rfl

theorem length_failures {call : PacketCall} {conn : Http.HttpConn}
    (found : call.httpConn = some conn) :
    (call.failures call.target).length =
      (conn.transactions.zipIdx.filter fun entry => isFailure entry.1).length := by
  rw [PacketCall.failures, found]
  dsimp only
  rw [if_pos rfl, List.length_map]

/-- What a call does to the brute-force trackers. -/
theorem Monitor.inspect_brute {monitor after : Monitor} {call : PacketCall}
    {raised : List Alert} (ran : monitor.inspect call = .ok (after, raised))
    (distinct : Keyed.Distinct BruteForceTracker.target monitor.detector.bruteTrackers)
    (target : BitVec 32 × BitVec 16) :
    let before := Keyed.find BruteForceTracker.target target monitor.detector.bruteTrackers
    let step := bruteStep target ⟨call, raised, after⟩
    Keyed.Distinct BruteForceTracker.target after.detector.bruteTrackers ∧
      Moves BruteForceTracker.windowStart BruteForceTracker.failedAttempts call.AllGranted before
        step ∧
      (call.target = target → alertsOf 9001 raised ≠ [] →
        Reaches BruteForceTracker.windowStart BruteForceTracker.failedAttempts 5 before
          step) := by
  obtain ⟨⟨count, watch⟩, inspected, same⟩ := map_ok ran
  cases same
  obtain ⟨-, afterBrute, brute, anomaly⟩ := inspectPacket_cases inspected
  dsimp only at brute anomaly ⊢
  obtain ⟨keep, sweeps, agedDistinct, aged⟩ := monitor.detector.ageAt_brute
    (monitor.packetCount + 1) call.clock.seconds distinct
  generalize monitor.detector.ageAt (monitor.packetCount + 1) call.clock.seconds = agedDetector
    at *
  have onlyScan := @detectPortScan_only call.grants call.clock call.flow call.tcpFlags
    { detector := agedDetector, engine := monitor.engine }
  have onlyExfil := exfil_only call afterBrute
  have onlyAnomaly := detectTrafficAnomaly_only anomaly
  have table : watch.detector.bruteTrackers = afterBrute.detector.bruteTrackers :=
    (onlyAnomaly.brute (by decide)).trans (onlyExfil.brute (by decide))
  have alerts : alertsOf 9001 watch.raised = alertsOf 9001 afterBrute.raised :=
    (onlyAnomaly.alertsOf_eq (by decide)).trans (onlyExfil.alertsOf_eq (by decide))
  have scanned := onlyScan.brute (by decide)
  have quiet : alertsOf 9001 (detectPortScan call.grants call.clock call.flow call.tcpFlags
      { detector := agedDetector, engine := monitor.engine }).raised = [] :=
    onlyScan.alertsOf_eq (by decide)
  generalize detectPortScan _ _ _ _ _ = afterScan at *
  dsimp only at scanned
  rw [← scanned] at agedDistinct aged
  rw [bruteStep, table, alerts, detectBruteForce_walk brute]
  have untouched {step : Step BruteForceTracker TransactionId} (visits : step.visits = [])
      (cell : step.cell = Keyed.find BruteForceTracker.target target
        afterScan.detector.bruteTrackers) :
      Moves BruteForceTracker.windowStart BruteForceTracker.failedAttempts call.AllGranted
        (Keyed.find BruteForceTracker.target target monitor.detector.bruteTrackers) step := by
    apply Advances.moves _ (fun old _ => sweeps old) (not_bruteOver _)
    rw [visits, cell, aged]
    exact .refl _
  cases found : call.httpConn with
  | none =>
      refine ⟨agedDistinct, untouched ?_ rfl, fun _ alarm => absurd quiet alarm⟩
      dsimp only
      rw [PacketCall.failures, found]
  | some conn =>
      obtain ⟨stored, others, advances, alarm⟩ := @detectBruteForceHttp_walk call.grants
        call.clock call.flow call.AllGranted conn.transactions.zipIdx afterScan
        (fun granted index => granted .bruteForce index) agedDistinct
      refine ⟨stored, ?_, ?_⟩
      · by_cases own : call.target = target
        · subst own
          apply Advances.moves _ (fun old _ => sweeps old) (not_bruteOver _)
          rw [← aged, length_failures found]
          exact advances
        · exact untouched (failures_of_ne own) (others target own)
      · rintro rfl raised
        rcases alarm with silent | peaks
        · exact absurd (silent.trans quiet) raised
        · rw [aged] at peaks
          exact peaks.reaches (length_failures found).symm (fun old _ => sweeps old)
            (not_bruteOver _)

end Brute

/-! ## DNS transactions -/

/-- Is the window of an anomaly tracker over? -/
def AnomalyOver (now start : Int) : Prop := isWithinWindow now start ANOMALY_WINDOW = false

theorem not_anomalyOver (now : Int) : ¬AnomalyOver now now := by
  rw [AnomalyOver, isWithinWindow_self now _ (by decide)]
  exact Bool.noConfusion

/-- The tracker counts some visits. -/
def TrafficAnomalyTracker.Counts (now : Int) (visits : Nat)
    (tracker after : TrafficAnomalyTracker) : Prop :=
  (after.windowStart = tracker.windowStart ∧
    after.highFreqQueries = tracker.highFreqQueries + BitVec.ofNat 32 visits ∧
    (0 < visits → ¬AnomalyOver now tracker.windowStart)) ∨
  (AnomalyOver now tracker.windowStart ∧ after.windowStart = now ∧
    after.highFreqQueries = BitVec.ofNat 32 visits)

theorem TrafficAnomalyTracker.Counts.unchanged {now : Int}
    {tracker after : TrafficAnomalyTracker} (started : after.windowStart = tracker.windowStart)
    (counted : after.highFreqQueries = tracker.highFreqQueries) :
    TrafficAnomalyTracker.Counts now 0 tracker after :=
  Or.inl ⟨started, counted.trans (BitVec.add_zero _).symm,
    fun visited => absurd visited (Nat.lt_irrefl 0)⟩

/-- The walk over a DNS connection counts each of its transactions. -/
theorem TrafficAnomalyTracker.observeDns_spec (now : Int) (conn : DnsParser.DnsConn)
    (tracker : TrafficAnomalyTracker) :
    (tracker.observeDns now conn).1.srcIp = tracker.srcIp ∧
      TrafficAnomalyTracker.Counts now conn.transactions.length tracker
        (tracker.observeDns now conn).1 := by
  rw [TrafficAnomalyTracker.observeDns]
  dsimp only
  by_cases within : isWithinWindow now tracker.windowStart ANOMALY_WINDOW = true
  · rw [if_pos within]
    have open' : ¬AnomalyOver now tracker.windowStart := fun ended =>
      Bool.noConfusion (ended.symm.trans within)
    split <;> exact ⟨rfl, Or.inl ⟨rfl, rfl, fun _ => open'⟩⟩
  · rw [if_neg within]
    have ended : AnomalyOver now tracker.windowStart := Bool.eq_false_iff.mpr within
    split <;> exact ⟨rfl, Or.inr ⟨ended, rfl, zero_add _⟩⟩

theorem TrafficAnomalyTracker.observeTls_spec (conn : Tls.TlsConn)
    (tracker : TrafficAnomalyTracker) :
    (tracker.observeTls conn).1.srcIp = tracker.srcIp ∧
      (tracker.observeTls conn).1.windowStart = tracker.windowStart ∧
      (tracker.observeTls conn).1.highFreqQueries = tracker.highFreqQueries := by
  rw [TrafficAnomalyTracker.observeTls]
  dsimp only
  split <;> split <;> (try split) <;> exact ⟨rfl, rfl, rfl⟩

section Anomaly

variable {call : PacketCall} {source : BitVec 32}

/-- What a walk does to the trackers of anomalies. -/
structure AnomalyWalk (call : PacketCall) (visits : Nat) (before after : Watch) : Prop where
  distinct : Keyed.Distinct TrafficAnomalyTracker.srcIp after.detector.anomalyTrackers
  others : ∀ source, call.flow.srcAddr.word0 ≠ source →
    Keyed.find TrafficAnomalyTracker.srcIp source after.detector.anomalyTrackers =
      Keyed.find TrafficAnomalyTracker.srcIp source before.detector.anomalyTrackers
  own : Advances TrafficAnomalyTracker.windowStart TrafficAnomalyTracker.highFreqQueries
    call.clock.seconds (AnomalyOver call.clock.seconds) call.AllGranted visits
    (Keyed.find TrafficAnomalyTracker.srcIp call.flow.srcAddr.word0
      before.detector.anomalyTrackers)
    (Keyed.find TrafficAnomalyTracker.srcIp call.flow.srcAddr.word0
      after.detector.anomalyTrackers)

theorem AnomalyWalk.refl {watch : Watch}
    (distinct : Keyed.Distinct TrafficAnomalyTracker.srcIp watch.detector.anomalyTrackers) :
    AnomalyWalk call 0 watch watch :=
  ⟨distinct, fun _ _ => rfl, .refl _⟩

theorem AnomalyWalk.trans {visits more : Nat} {first second third : Watch}
    (early : AnomalyWalk call visits first second) (late : AnomalyWalk call more second third) :
    AnomalyWalk call (visits + more) first third :=
  ⟨late.distinct, fun source other => (late.others source other).trans (early.others source other),
    early.own.trans late.own (not_anomalyOver _)⟩

/-- One visit of the tracker of the source. -/
theorem detectAnomaly_walk (index : Nat) (rule : EngineRule)
    {observe : TrafficAnomalyTracker → TrafficAnomalyTracker × Option Bytes} {visits : Nat}
    (spec : ∀ tracker, (observe tracker).1.srcIp = tracker.srcIp ∧
      TrafficAnomalyTracker.Counts call.clock.seconds visits tracker (observe tracker).1)
    {watch : Watch}
    (distinct : Keyed.Distinct TrafficAnomalyTracker.srcIp watch.detector.anomalyTrackers) :
    AnomalyWalk call visits watch
      (detectAnomaly call.grants call.clock call.flow index rule observe watch) := by
  let fresh : TrafficAnomalyTracker :=
    { srcIp := call.flow.srcAddr.word0, windowStart := call.clock.seconds }
  have fresh_key : fresh.srcIp = call.flow.srcAddr.word0 := rfl
  have decides (tracker : TrafficAnomalyTracker) :
      (tracker.srcIp == call.flow.srcAddr.word0) =
        decide (tracker.srcIp = call.flow.srcAddr.word0) := rfl
  have keeps := fun tracker => (spec tracker).1
  rw [detectAnomaly]
  constructor
  case distinct =>
    rw [(Watch.report_spec _ _ _ _ _).1]
    exact track_distinct decides fresh_key keeps distinct _
  case others =>
    intro source other
    rw [(Watch.report_spec _ _ _ _ _).1]
    exact track_find_of_ne decides fresh_key keeps other _ _
  case own =>
    rw [(Watch.report_spec _ _ _ _ _).1]
    exact track_advances decides fresh_key keeps (not_anomalyOver _) rfl rfl
      (fun tracker => (spec tracker).2) (fun granted => granted .trafficAnomaly index) _

/-- The number of DNS transactions that a call visits. -/
def PacketCall.queryCount (call : PacketCall) : Nat :=
  match call.dnsConn with
  | some conn => conn.transactions.length
  | none => 0

theorem length_queries (call : PacketCall) :
    (call.queries call.flow.srcAddr.word0).length = call.queryCount := by
  rw [PacketCall.queries, PacketCall.queryCount]
  split
  next => rw [if_pos rfl, List.length_map, List.length_range]
  next => rfl

theorem queries_of_ne (other : call.flow.srcAddr.word0 ≠ source) : call.queries source = [] := by
  rw [PacketCall.queries]
  split
  next => exact if_neg other
  next => rfl

theorem detectHttpAnomalies_walk (entries : List (Http.HttpTransaction × Nat)) {watch : Watch}
    (distinct : Keyed.Distinct TrafficAnomalyTracker.srcIp watch.detector.anomalyTrackers) :
    AnomalyWalk call 0 watch (entries.foldl (fun watch (_, index) =>
      detectHttpAnomalies call.grants call.clock call.flow index watch) watch) := by
  induction entries generalizing watch with
  | nil => exact .refl distinct
  | cons entry entries ih =>
      have first := @detectAnomaly_walk call entry.2 (detectorRule 0 "" .info .unknown)
        TrafficAnomalyTracker.observeHttp 0 (fun tracker => ⟨rfl, .unchanged rfl rfl⟩) watch
        distinct
      exact first.trans (ih first.distinct)

/-- The detection of anomalies visits each transaction of a DNS connection. -/
theorem detectTrafficAnomaly_walk {watch after : Watch}
    (ran : detectTrafficAnomaly call.grants call.clock call.flow call.alproto call.ctx watch =
      .ok after)
    (distinct : Keyed.Distinct TrafficAnomalyTracker.srcIp watch.detector.anomalyTrackers) :
    AnomalyWalk call call.queryCount watch after := by
  obtain ⟨afterHttp, http, ran⟩ := bind_ok ran
  obtain ⟨afterDns, dns, tls⟩ := bind_ok ran
  have first : AnomalyWalk call 0 watch afterHttp := by
    split at http
    next =>
      obtain ⟨conn?, -, rfl⟩ := map_ok http
      cases conn? with
      | none => exact .refl distinct
      | some conn => exact detectHttpAnomalies_walk _ distinct
    next =>
      cases http
      exact .refl distinct
  have second : AnomalyWalk call call.queryCount afterHttp afterDns := by
    rw [PacketCall.queryCount, PacketCall.dnsConn]
    rw [detectDnsAnomalies] at dns
    split at dns
    next isDns =>
      obtain ⟨conn?, found, rfl⟩ := map_ok dns
      rw [if_pos isDns, found]
      cases conn? with
      | none => exact .refl first.distinct
      | some conn =>
          exact detectAnomaly_walk 0 dnsRule
            (TrafficAnomalyTracker.observeDns_spec call.clock.seconds conn) first.distinct
    next other =>
      cases dns
      rw [if_neg other]
      exact .refl first.distinct
  have third : AnomalyWalk call 0 afterDns after := by
    rw [detectTlsAnomalies] at tls
    split at tls
    next =>
      obtain ⟨conn?, -, rfl⟩ := map_ok tls
      cases conn? with
      | none => exact .refl second.distinct
      | some conn =>
          apply detectAnomaly_walk 0 tlsRule _ second.distinct
          intro tracker
          obtain ⟨srcIp, started, counted⟩ := tracker.observeTls_spec conn
          exact ⟨srcIp, .unchanged started counted⟩
    next =>
      cases tls
      exact .refl second.distinct
  have all := first.trans (second.trans third)
  rwa [Nat.zero_add, Nat.add_zero] at all

/-- A step of the tracker of a source. -/
def anomalyStep (source : BitVec 32) (inspected : Inspected) :
    Step TrafficAnomalyTracker TransactionId where
  visits := inspected.call.queries source
  cell := Keyed.find TrafficAnomalyTracker.srcIp source inspected.after.detector.anomalyTrackers

/-- A sweep removes anomaly trackers whose window is over. -/
theorem Detector.ageAt_anomaly (packetCount : BitVec 64) (now : Int) (detector : Detector)
    (distinct : Keyed.Distinct TrafficAnomalyTracker.srcIp detector.anomalyTrackers) :
    ∃ keep : TrafficAnomalyTracker → Bool,
      (∀ tracker, keep tracker = false → AnomalyOver now tracker.windowStart) ∧
      Keyed.Distinct TrafficAnomalyTracker.srcIp
        (detector.ageAt packetCount now).anomalyTrackers ∧
      ∀ source, Keyed.find TrafficAnomalyTracker.srcIp source
          (detector.ageAt packetCount now).anomalyTrackers =
        (Keyed.find TrafficAnomalyTracker.srcIp source detector.anomalyTrackers).filter keep := by
  obtain ⟨keep, sweeps, stored, cells⟩ := swept_cells (packetCount.toNat % 10000 = 0)
    TrafficAnomalyTracker.windowStart 300 now distinct
  have table : (detector.ageAt packetCount now).anomalyTrackers =
      if packetCount.toNat % 10000 = 0 then
        ageOut TrafficAnomalyTracker.windowStart 300 now detector.anomalyTrackers
      else detector.anomalyTrackers := by
    rw [Detector.ageAt]
    split <;> rfl
  rw [table]
  refine ⟨keep, fun tracker dropped => ?_, stored, cells⟩
  exact isWithinWindow_eq_false.mpr (sweeps tracker dropped)

/-- What a call does to the anomaly trackers. -/
theorem Monitor.inspect_anomaly {monitor after : Monitor} {raised : List Alert}
    (ran : monitor.inspect call = .ok (after, raised))
    (distinct : Keyed.Distinct TrafficAnomalyTracker.srcIp monitor.detector.anomalyTrackers)
    (source : BitVec 32) :
    Keyed.Distinct TrafficAnomalyTracker.srcIp after.detector.anomalyTrackers ∧
      Moves TrafficAnomalyTracker.windowStart TrafficAnomalyTracker.highFreqQueries
        call.AllGranted
        (Keyed.find TrafficAnomalyTracker.srcIp source monitor.detector.anomalyTrackers)
        (anomalyStep source ⟨call, raised, after⟩) := by
  obtain ⟨⟨count, watch⟩, inspected, same⟩ := map_ok ran
  cases same
  obtain ⟨-, afterBrute, brute, anomaly⟩ := inspectPacket_cases inspected
  dsimp only at brute anomaly ⊢
  obtain ⟨keep, sweeps, agedDistinct, aged⟩ := monitor.detector.ageAt_anomaly
    (monitor.packetCount + 1) call.clock.seconds distinct
  generalize monitor.detector.ageAt (monitor.packetCount + 1) call.clock.seconds = agedDetector
    at *
  have onlyScan := @detectPortScan_only call.grants call.clock call.flow call.tcpFlags
    { detector := agedDetector, engine := monitor.engine }
  have onlyBrute := detectBruteForce_only brute
  have onlyExfil := exfil_only call afterBrute
  have table := (onlyExfil.anomaly (by decide)).trans
    ((onlyBrute.anomaly (by decide)).trans (onlyScan.anomaly (by decide)))
  generalize (if call.packetLen > 0 then _ else _ : Watch) = watched at *
  dsimp only at table
  rw [← table] at agedDistinct aged
  have walk := detectTrafficAnomaly_walk anomaly agedDistinct
  refine ⟨walk.distinct, ?_⟩
  apply Advances.moves _ (fun old _ => sweeps old) (not_anomalyOver _)
  rw [anomalyStep, ← aged]
  dsimp only
  by_cases own : call.flow.srcAddr.word0 = source
  · subst own
    rw [length_queries]
    exact walk.own
  · rw [queries_of_ne own, walk.others source own]
    exact .refl _

end Anomaly

/-! ## Runs -/

/-- The authentication failures that a target has sent in the current window of its
tracker. -/
def failuresInWindow (target : BitVec 32 × BitVec 16) (trace : List Inspected) :
    Finset TransactionId :=
  firstVisits BruteForceTracker.windowStart (trace.map (bruteStep target))

/-- The DNS transactions of a source in the current window of its tracker. -/
def queriesInWindow (source : BitVec 32) (trace : List Inspected) : Finset TransactionId :=
  firstVisits TrafficAnomalyTracker.windowStart (trace.map (anomalyStep source))

/-- At every point each event is counted once, and an alert needs five failures. -/
structure CountedOnce (trace : List Inspected) : Prop where
  failures : ∀ earlier inspected later, trace = earlier ++ inspected :: later →
    ∀ tracker ∈ inspected.after.detector.bruteTrackers,
      tracker.failedAttempts.toNat ≤
        (failuresInWindow tracker.target (earlier ++ [inspected])).card
  queries : ∀ earlier inspected later, trace = earlier ++ inspected :: later →
    ∀ tracker ∈ inspected.after.detector.anomalyTrackers,
      tracker.highFreqQueries.toNat ≤
        (queriesInWindow tracker.srcIp (earlier ++ [inspected])).card
  alerts : ∀ earlier inspected later, trace = earlier ++ inspected :: later →
    alertsOf 9001 inspected.raised ≠ [] →
      5 ≤ (failuresInWindow inspected.call.target (earlier ++ [inspected])).card

/-- No failure and no DNS transaction that a call has visited is visited by a later one. -/
structure VisitedOnce (calls : List PacketCall) : Prop where
  failures : ∀ target, (calls.flatMap (PacketCall.failures target)).Nodup
  queries : ∀ source, (calls.flatMap (PacketCall.queries source)).Nodup

/-- The counters have room for all visits, and their trackers can be allocated. -/
structure Roomy (calls : List PacketCall) : Prop where
  granted : ∀ call ∈ calls, call.AllGranted
  failures : ∀ target, (calls.flatMap (PacketCall.failures target)).length < 2 ^ 32
  queries : ∀ source, (calls.flatMap (PacketCall.queries source)).length < 2 ^ 32

section Runs

variable {monitor : Monitor} {calls : List PacketCall} {counter : BitVec 64 → BitVec 64}
variable {trace : List Inspected}

theorem visits_bruteStep (ran : monitor.run counter calls = .ok trace)
    (target : BitVec 32 × BitVec 16) :
    (trace.map (bruteStep target)).flatMap Step.visits =
      calls.flatMap (PacketCall.failures target) := by
  rw [← Monitor.run_calls ran, List.flatMap_map, List.flatMap_map]
  rfl

theorem visits_anomalyStep (ran : monitor.run counter calls = .ok trace)
    (source : BitVec 32) :
    (trace.map (anomalyStep source)).flatMap Step.visits =
      calls.flatMap (PacketCall.queries source) := by
  rw [← Monitor.run_calls ran, List.flatMap_map, List.flatMap_map]
  rfl

theorem run_bruteDistinct (new : monitor.detector = {})
    (ran : monitor.run counter calls = .ok trace) :
    ∀ inspected ∈ trace,
      Keyed.Distinct BruteForceTracker.target inspected.after.detector.bruteTrackers := by
  have keeps := @Monitor.run_keeps fun detector =>
    Keyed.Distinct BruteForceTracker.target detector.bruteTrackers
  apply keeps (fun stepped distinct => (Monitor.inspect_brute stepped distinct (0, 0)).1) ran
  rw [new]
  exact List.nodup_nil

theorem run_anomalyDistinct (new : monitor.detector = {})
    (ran : monitor.run counter calls = .ok trace) :
    ∀ inspected ∈ trace,
      Keyed.Distinct TrafficAnomalyTracker.srcIp inspected.after.detector.anomalyTrackers := by
  have keeps := @Monitor.run_keeps fun detector =>
    Keyed.Distinct TrafficAnomalyTracker.srcIp detector.anomalyTrackers
  apply keeps (fun stepped distinct => (Monitor.inspect_anomaly stepped distinct 0).1) ran
  rw [new]
  exact List.nodup_nil

/-- A call of a run, and the table that it begins with. -/
theorem Monitor.run_cells {τ κ : Type} [DecidableEq κ] {key : τ → κ} {table : Detector → List τ}
    (empty : table {} = []) {step : Inspected → Step τ TransactionId} {wanted : κ}
    (cells : ∀ inspected, (step inspected).cell =
      Keyed.find key wanted (table inspected.after.detector))
    (new : monitor.detector = {}) {earlier later : List Inspected} {inspected : Inspected}
    (ran : monitor.run counter calls = .ok (earlier ++ inspected :: later))
    (distinct : ∀ other ∈ earlier ++ inspected :: later,
      Keyed.Distinct key (table other.after.detector)) :
    ∃ before : Monitor, Keyed.Distinct key (table before.detector) ∧
      Keyed.find key wanted (table before.detector) = lastCell (earlier.map step) ∧
      before.inspect inspected.call = .ok (inspected.after, inspected.raised) := by
  obtain ⟨before, last, stepped⟩ := Monitor.run_step ran
  refine ⟨before, ?_, ?_, stepped⟩
  all_goals rw [last]
  · cases ends : earlier.getLast? with
    | none =>
        rw [Option.map_none, Option.getD_none, new, empty]
        exact List.nodup_nil
    | some other =>
        exact distinct other (List.mem_append_left _ (List.mem_of_getLast? ends))
  · rw [lastCell, List.getLast?_map]
    cases earlier.getLast? with
    | none =>
        rw [Option.map_none, Option.getD_none, new, empty]
        rfl
    | some other => exact (cells other).symm

theorem call_mem_of_run {earlier later : List Inspected} {inspected : Inspected}
    (ran : monitor.run counter calls = .ok (earlier ++ inspected :: later)) :
    inspected.call ∈ calls := by
  rw [← Monitor.run_calls ran]
  simp

/-- The steps of a brute-force tracker in a run. -/
theorem brute_runs (new : monitor.detector = {}) (ran : monitor.run counter calls = .ok trace)
    (target : BitVec 32 × BitVec 16) :
    Windows.Runs BruteForceTracker.windowStart BruteForceTracker.failedAttempts
      (∀ call ∈ calls, call.AllGranted) (trace.map (bruteStep target)) := by
  intro earlier step later split
  obtain ⟨before, rest, rfl, rfl, tail⟩ := List.map_eq_append_iff.mp split
  obtain ⟨inspected, after, rfl, rfl, rfl⟩ := List.map_eq_cons_iff.mp tail
  obtain ⟨monitor', distinct, cell, stepped⟩ := @Monitor.run_cells monitor calls counter _ _ _
    BruteForceTracker.target Detector.bruteTrackers rfl (bruteStep target) target (fun _ => rfl)
    new before after inspected ran (run_bruteDistinct new ran)
  have moves := (Monitor.inspect_brute stepped distinct target).2.1
  rw [cell] at moves
  exact moves.of_imp fun granted => granted _ (call_mem_of_run ran)

/-- The steps of an anomaly tracker in a run. -/
theorem anomaly_runs (new : monitor.detector = {})
    (ran : monitor.run counter calls = .ok trace) (source : BitVec 32) :
    Windows.Runs TrafficAnomalyTracker.windowStart TrafficAnomalyTracker.highFreqQueries
      (∀ call ∈ calls, call.AllGranted) (trace.map (anomalyStep source)) := by
  intro earlier step later split
  obtain ⟨before, rest, rfl, rfl, tail⟩ := List.map_eq_append_iff.mp split
  obtain ⟨inspected, after, rfl, rfl, rfl⟩ := List.map_eq_cons_iff.mp tail
  obtain ⟨monitor', distinct, cell, stepped⟩ := @Monitor.run_cells monitor calls counter _ _ _
    TrafficAnomalyTracker.srcIp Detector.anomalyTrackers rfl (anomalyStep source) source
    (fun _ => rfl) new before after inspected ran (run_anomalyDistinct new ran)
  have moves := (Monitor.inspect_anomaly stepped distinct source).2
  rw [cell] at moves
  exact moves.of_imp fun granted => granted _ (call_mem_of_run ran)

end Runs

/-- If no visit is repeated, every event is counted once; and if every event is counted once,
no visit was repeated, unless a counter runs over or a tracker cannot be allocated. -/
theorem counted_once_iff {monitor : Monitor} (new : monitor.detector = {})
    {calls : List PacketCall} {trace : List Inspected}
    (ran : monitor.run id calls = .ok trace) :
    (VisitedOnce calls → CountedOnce trace) ∧
      (Roomy calls → CountedOnce trace → VisitedOnce calls) := by
  have bruteRuns := brute_runs new ran
  have anomalyRuns := anomaly_runs new ran
  have failures := visits_bruteStep ran
  have queries := visits_anomalyStep ran
  constructor
  case left =>
    intro once
    have failuresOnce := fun target => (failures target).symm ▸ once.failures target
    have queriesOnce := fun source => (queries source).symm ▸ once.queries source
    constructor
    case failures =>
      intro earlier inspected later split tracker member
      have distinct := run_bruteDistinct new ran inspected (by rw [split]; simp)
      exact (bruteRuns _).count_le_at (failuresOnce _) split tracker
        (distinct.find_of_mem member)
    case queries =>
      intro earlier inspected later split tracker member
      have distinct := run_anomalyDistinct new ran inspected (by rw [split]; simp)
      exact (anomalyRuns _).count_le_at (queriesOnce _) split tracker
        (distinct.find_of_mem member)
    case alerts =>
      rintro earlier inspected later split raised
      have distinct := run_bruteDistinct new ran
      have ran' := split ▸ ran
      rw [split] at distinct
      obtain ⟨before, distinct, cell, stepped⟩ := @Monitor.run_cells monitor calls id _ _ _
        BruteForceTracker.target Detector.bruteTrackers rfl (bruteStep inspected.call.target)
        inspected.call.target (fun _ => rfl) new earlier later inspected ran' distinct
      have reaches := (Monitor.inspect_brute stepped distinct inspected.call.target).2.2 rfl raised
      rw [cell] at reaches
      exact (bruteRuns _).reached_at (failuresOnce _) split reaches
  case right =>
    intro roomy counted
    constructor
    case failures =>
      intro target
      rw [← failures target]
      apply (bruteRuns target).once_of_count_le roomy.granted
      · rw [failures target]
        exact roomy.failures target
      · intro earlier inspected later split tracker member
        have own : tracker.target = target := Keyed.key_of_find member
        rw [← own]
        exact counted.failures earlier inspected later split tracker (Keyed.mem_of_find member)
    case queries =>
      intro source
      rw [← queries source]
      apply (anomalyRuns source).once_of_count_le roomy.granted
      · rw [queries source]
        exact roomy.queries source
      · intro earlier inspected later split tracker member
        have own : tracker.srcIp = source := Keyed.key_of_find member
        rw [← own]
        exact counted.queries earlier inspected later split tracker (Keyed.mem_of_find member)

/-- A packet of an HTTP flow with one response, which denies access. -/
def denied : PacketCall where
  clock := ⟨0, 12⟩
  flow := { id := 0, useCnt := 1, proto := IPPROTO_TCP, flags := FLOW_IPV4, dstPort := 80 }
  alproto := .http
  ctx := .session (some (.http
    { transactions := [{ id := 0, response := some { statusCode := 401 } }] }))
  packetLen := 60
  tcpFlags := none

/-- A run of one packet. -/
theorem counted_once_denied :
    ∃ trace, Monitor.run id {} [denied] = .ok trace ∧
      (VisitedOnce [denied] → CountedOnce trace) ∧
      (Roomy [denied] → CountedOnce trace → VisitedOnce [denied]) := by
  obtain ⟨trace, ran⟩ := (Monitor.run_ok_iff id {} [denied]).mpr
    (List.forall_mem_singleton.mpr ⟨fun _ => ⟨_, rfl⟩, nofun, nofun⟩)
  exact ⟨trace, ran, counted_once_iff rfl ran⟩

/-- Five packets make five failures of one. -/
theorem failure_counted_again :
    (Monitor.run id {} (List.replicate 5 denied)).toOption.map (fun trace =>
      (trace.map fun inspected => (alertsOf 9001 inspected.raised).length,
        trace.map fun inspected => inspected.after.detector.bruteTrackers.map
          (BitVec.toNat ∘ BruteForceTracker.failedAttempts),
        (failuresInWindow denied.target trace).card)) =
      some ([0, 0, 0, 0, 1], [[1], [2], [3], [4], [5]], 1) ∧
    ∃ trace, Monitor.run id {} (List.replicate 5 denied) = .ok trace ∧ ¬CountedOnce trace := by
  have counts : (Monitor.run id {} (List.replicate 5 denied)).toOption.map (fun trace =>
      (trace.map fun inspected => (alertsOf 9001 inspected.raised).length,
        trace.map fun inspected => inspected.after.detector.bruteTrackers.map
          (BitVec.toNat ∘ BruteForceTracker.failedAttempts),
        (failuresInWindow denied.target trace).card)) =
      some ([0, 0, 0, 0, 1], [[1], [2], [3], [4], [5]], 1) := by
    decide +kernel
  refine ⟨counts, ?_⟩
  obtain ⟨trace, ran⟩ := (Monitor.run_ok_iff id {} (List.replicate 5 denied)).mpr
    fun call member => List.eq_of_mem_replicate member ▸ ⟨fun _ => ⟨_, rfl⟩, nofun, nofun⟩
  refine ⟨trace, ran, fun counted => ?_⟩
  rw [ran] at counts
  obtain ⟨alerts, rest⟩ := Prod.mk.inj (Option.some.inj counts)
  obtain ⟨-, events⟩ := Prod.mk.inj rest
  rw [show [0, 0, 0, 0, 1] = [0, 0, 0, 0] ++ [1] from rfl] at alerts
  obtain ⟨earlier, last, split, -, final⟩ := List.map_eq_append_iff.mp alerts
  obtain ⟨inspected, rfl, raised⟩ := List.map_eq_singleton_iff.mp final
  have own : inspected.call = denied := List.eq_of_mem_replicate (call_mem_of_run (split ▸ ran))
  have alarm : alertsOf 9001 inspected.raised ≠ [] := by
    intro none
    rw [none] at raised
    cases raised
  have enough := counted.alerts earlier inspected [] split alarm
  rw [own, ← split, events] at enough
  exact absurd enough (by decide)

end NetDefender.Behavior
