import Mathlib.Data.Finset.Card
import NetDefender.Behavior.Isolation
import NetDefender.Lib.Windows

/-!
# Port scans

The windows of a source, as they follow from its TCP packets alone, and the destination
ports that were probed in each.  The tracker of the source counts them up to the threshold,
so that an alert is raised exactly at the packet that reaches it.
-/

namespace NetDefender.Behavior

open CString Flows Rules Fallible Windows

/-! ## Windows -/

/-- A TCP packet of a flow from an IPv4 address. -/
def PacketCall.tcpFrom (source : BitVec 32) (call : PacketCall) : Bool :=
  call.flow.flags &&& FLOW_IPV4 ≠ 0 && call.flow.srcAddr.word0 == source && call.scans

/-- The window after one more packet: a packet more than 60 seconds after the first one
starts a new window. -/
def extendWindow (window : List PacketCall) (call : PacketCall) : List PacketCall :=
  match window.head? with
  | none => [call]
  | some first =>
      if call.clock.seconds - first.clock.seconds > 60 then [call] else window ++ [call]

theorem extendWindow_eq :
    extendWindow = continueWindow (fun call => call.clock.seconds) 60 := by
  funext window call
  rw [extendWindow, continueWindow]
  cases window.head? <;> rfl

/-- The current window of a source after these calls. -/
def scanWindow (source : BitVec 32) (calls : List PacketCall) : List PacketCall :=
  (calls.filter (PacketCall.tcpFrom source)).foldl extendWindow []

/-- The flag of a probe. -/
def PacketCall.syn (call : PacketCall) : Bool :=
  hasFlag (call.tcpFlags.getD 0) RTE_TCP_SYN_FLAG

/-- The destination ports that were probed in a window. -/
def probedPorts (window : List PacketCall) : Finset (BitVec 16) :=
  ((window.filter PacketCall.syn).map (·.flow.dstPort)).toFinset

/-- The packet brings the number of probed ports in the window of its source to ten. -/
def Completes (source : BitVec 32) (earlier : List PacketCall) (call : PacketCall) : Prop :=
  call.tcpFrom source = true ∧
    (probedPorts (scanWindow source (earlier ++ [call]))).card = 10 ∧
      (probedPorts (scanWindow source (earlier ++ [call])).dropLast).card < 10

instance (source : BitVec 32) (earlier : List PacketCall) (call : PacketCall) :
    Decidable (Completes source earlier call) :=
  inferInstanceAs (Decidable (_ ∧ _ ∧ _))

/-- The port-scan alerts that a call raises for an IPv4 source. -/
def scanAlertsFor (source : BitVec 32) (inspected : Inspected) : List Alert :=
  if inspected.call.source.ipv4 ∧ inspected.call.flow.srcAddr.word0 = source then
    (alertsOf 9000 inspected.raised).filter (·.srcIp = source)
  else []

/-! ## The tracker counts the probed ports -/

/-- The tracker has the probed ports, as long as there are fewer than ten of them, and an
alert was raised for it when there were ten. -/
structure PortScanTracker.Counts (tracker : PortScanTracker) (ports : Finset (BitVec 16)) :
    Prop where
  alerted : tracker.alerted = decide (10 ≤ ports.card)
  contacted : ports.card < 10 →
    tracker.portsContacted.Nodup ∧ tracker.portsContacted.toFinset = ports

section Counts

variable {tracker : PortScanTracker} {ports : Finset (BitVec 16)} {port : BitVec 16}

/-- The ports are all there while there are few of them. -/
theorem PortScanTracker.Counts.length_eq (counts : tracker.Counts ports)
    (few : ports.card < 10) : tracker.portsContacted.length = ports.card := by
  obtain ⟨distinct, same⟩ := counts.contacted few
  rw [← same, List.toFinset_card_of_nodup distinct]

theorem PortScanTracker.addPort_known (known : port ∈ tracker.portsContacted) :
    tracker.addPort port = (false, tracker) := by
  rw [PortScanTracker.addPort, if_pos (List.contains_iff_mem.mpr known)]

theorem PortScanTracker.addPort_new (new : port ∉ tracker.portsContacted)
    (room : tracker.portsContacted.length < MAX_TRACKED_PORTS) :
    tracker.addPort port =
      (true, { tracker with portsContacted := tracker.portsContacted ++ [port] }) := by
  rw [PortScanTracker.addPort, if_neg (by simpa using new), if_pos room]

/-- What a probe leaves of the ports and of the alarm, and when it raises one. -/
theorem PortScanTracker.countSyn_spec (tracker : PortScanTracker) (now : Int)
    (port : BitVec 16) (ack : Bool) :
    let added := { tracker with synCount := tracker.synCount + 1 }.addPort port
    let fires :=
      added.1 && decide (10 ≤ added.2.portsContacted.length) && !added.2.alerted
    (tracker.countSyn now port ack).1.portsContacted = added.2.portsContacted ∧
      (tracker.countSyn now port ack).1.alerted = (added.2.alerted || fires) ∧
      (tracker.countSyn now port ack).2.isSome = fires := by
  rw [PortScanTracker.countSyn]
  dsimp only
  generalize PortScanTracker.addPort _ port = added
  obtain ⟨new, tracker⟩ := added
  cases ack <;> cases new <;> cases alerted : tracker.alerted <;>
    by_cases many : 10 ≤ tracker.portsContacted.length <;>
    simp [PORT_SCAN_THRESHOLD, alerted, many]

/-- A probe of a port.  It is found to complete a scan if it is the tenth one. -/
theorem PortScanTracker.Counts.countSyn (counts : tracker.Counts ports) (now : Int)
    (port : BitVec 16) (ack : Bool) :
    (tracker.countSyn now port ack).1.Counts (insert port ports) ∧
      ((tracker.countSyn now port ack).2.isSome = true ↔
        (insert port ports).card = 10 ∧ ports.card < 10) := by
  obtain ⟨contacted, alerted, found⟩ := tracker.countSyn_spec now port ack
  replace counts : PortScanTracker.Counts { tracker with synCount := tracker.synCount + 1 }
      ports := ⟨counts.alerted, counts.contacted⟩
  generalize { tracker with synCount := tracker.synCount + 1 } = counted at *
  rw [found]
  have before := counts.alerted
  by_cases many : 10 ≤ ports.card
  · have more : 10 ≤ (insert port ports).card :=
      many.trans (Finset.card_le_card (Finset.subset_insert port ports))
    obtain ⟨-, -, -, kept⟩ := PortScanTracker.addPort_keeps port counted
    rw [kept, before, decide_eq_true many] at alerted
    rw [kept, before, decide_eq_true many]
    refine ⟨⟨by rw [alerted, decide_eq_true more]; rfl, fun few => by omega⟩, ?_⟩
    simp only [Bool.not_true, Bool.and_false, Bool.false_eq_true, false_iff]
    omega
  · have few : ports.card < 10 := by omega
    obtain ⟨distinct, same⟩ := counts.contacted few
    have length := counts.length_eq few
    rw [decide_eq_false many] at before
    by_cases known : port ∈ counted.portsContacted
    · have inside : port ∈ ports := same ▸ List.mem_toFinset.mpr known
      rw [PortScanTracker.addPort_known known] at contacted alerted ⊢
      rw [Finset.insert_eq_of_mem inside]
      refine ⟨⟨?_, fun _ => contacted ▸ ⟨distinct, same⟩⟩, ?_⟩
      · rw [alerted, before, decide_eq_false many]
        rfl
      · simp only [Bool.false_and, Bool.false_eq_true, false_iff]
        omega
    · have outside : port ∉ ports := fun inside =>
        known (List.mem_toFinset.mp (same.symm ▸ inside))
      have one : (insert port ports).card = ports.card + 1 :=
        Finset.card_insert_of_notMem outside
      have longer : (counted.portsContacted ++ [port]).length = ports.card + 1 := by
        rw [List.length_append, length, List.length_singleton]
      have room : counted.portsContacted.length < MAX_TRACKED_PORTS := by
        rw [length, MAX_TRACKED_PORTS]
        omega
      rw [PortScanTracker.addPort_new known room] at contacted alerted ⊢
      dsimp only at contacted alerted ⊢
      rw [longer, before] at alerted ⊢
      refine ⟨⟨?_, fun fewer => ⟨?_, ?_⟩⟩, ?_⟩
      · rw [alerted, one]
        simp
      · rw [contacted]
        exact distinct.append (List.nodup_singleton port) (by simpa using known)
      · rw [contacted, List.toFinset_append, same, Finset.union_comm]
        rfl
      · simp only [Bool.true_and, Bool.not_false, Bool.and_true, decide_eq_true_eq]
        omega

/-- A packet in a window that the tracker has been restarted for. -/
theorem PortScanTracker.Counts.observe {tracker : PortScanTracker} {ports : Finset (BitVec 16)}
    {now : Int} (counts : (tracker.restart now).Counts ports) (tcpFlags : BitVec 8)
    (port : BitVec 16) :
    let after := if hasFlag tcpFlags RTE_TCP_SYN_FLAG then insert port ports else ports
    (tracker.observe now tcpFlags port).1.Counts after ∧
      ((tracker.observe now tcpFlags port).2.isSome = true ↔
        after.card = 10 ∧ ports.card < 10) := by
  have seen : PortScanTracker.Counts { tracker.restart now with lastSeen := now } ports :=
    ⟨counts.alerted, counts.contacted⟩
  rw [PortScanTracker.observe]
  dsimp only
  by_cases syn : hasFlag tcpFlags RTE_TCP_SYN_FLAG = true
  · rw [if_pos syn, if_pos syn]
    obtain ⟨counted, found⟩ := seen.countSyn now port (hasFlag tcpFlags RTE_TCP_ACK_FLAG)
    refine ⟨?_, found⟩
    split
    next => exact ⟨counted.alerted, counted.contacted⟩
    next => exact counted
  · rw [if_neg syn, if_neg syn]
    refine ⟨seen, ?_⟩
    simp only [Option.isSome_none, Bool.false_eq_true, false_iff]
    omega

end Counts

/-! ## The tracker follows the window -/

/-- The tracker of a source stands for the current window. -/
def Tracks (window : List PacketCall) : Option PortScanTracker → Prop
  | none => window = []
  | some tracker => ∃ first rest, window = first :: rest ∧
      tracker.firstSeen = first.clock.seconds ∧ tracker.Counts (probedPorts window)

theorem probedPorts_append (window : List PacketCall) (call : PacketCall) :
    probedPorts (window ++ [call]) =
      if call.syn then insert call.flow.dstPort (probedPorts window)
      else probedPorts window := by
  rw [probedPorts, List.filter_append, List.map_append, List.toFinset_append]
  by_cases syn : call.syn = true
  · rw [if_pos syn, List.filter_cons_of_pos syn, Finset.union_comm]
    rfl
  · rw [if_neg syn, List.filter_cons_of_neg syn]
    exact Finset.union_empty _

theorem tracks_iff {window : List PacketCall} {cell : Option PortScanTracker} :
    Tracks window cell ↔ Follows PortScanTracker.firstSeen (fun call => call.clock.seconds)
      (fun window tracker => tracker.Counts (probedPorts window)) window cell := by
  cases cell <;> rfl

theorem PortScanTracker.restart_eq_self {tracker : PortScanTracker} {now : Int}
    (within : now - tracker.firstSeen ≤ 60) : tracker.restart now = tracker := by
  have inside : isWithinWindow now tracker.firstSeen PORT_SCAN_WINDOW = true :=
    decide_eq_true within
  rw [PortScanTracker.restart, if_pos inside]

theorem PortScanTracker.restart_eq_new {tracker : PortScanTracker} {now : Int}
    (elapsed : now - tracker.firstSeen > 60) :
    (tracker.restart now).firstSeen = now ∧
      (tracker.restart now).Counts (probedPorts []) := by
  have outside : isWithinWindow now tracker.firstSeen PORT_SCAN_WINDOW = false :=
    isWithinWindow_eq_false.mpr elapsed
  rw [PortScanTracker.restart, outside, if_neg Bool.false_ne_true]
  exact ⟨rfl, rfl, fun _ => ⟨List.nodup_nil, rfl⟩⟩

/-- The window that a packet is put in, and the tracker that is restarted for it. -/
theorem Tracks.restart {window : List PacketCall} {cell : Option PortScanTracker}
    (tracks : Tracks window cell) (call : PacketCall) :
    ∃ before first rest, extendWindow window call = before ++ [call] ∧
      before ++ [call] = first :: rest ∧
      ((cell.getD call.newScan).restart call.clock.seconds).firstSeen = first.clock.seconds ∧
      ((cell.getD call.newScan).restart call.clock.seconds).Counts (probedPorts before) := by
  rw [extendWindow_eq]
  refine (tracks_iff.mp tracks).restart ?_ ?_ ?_ (by decide)
  · exact fun tracker within => PortScanTracker.restart_eq_self within
  · exact fun tracker _ elapsed => PortScanTracker.restart_eq_new elapsed
  · exact ⟨rfl, rfl, fun _ => ⟨List.nodup_nil, rfl⟩⟩

/-- One more packet.  It is found to complete a scan if it brings the probed ports of its
window to ten. -/
theorem Tracks.extend {window : List PacketCall} {cell : Option PortScanTracker}
    (tracks : Tracks window cell) {call : PacketCall} (counted : call.scans = true) :
    Tracks (extendWindow window call) (call.scanCell cell).1 ∧
      ((call.scanCell cell).2.isSome = true ↔
        (probedPorts (extendWindow window call)).card = 10 ∧
          (probedPorts (extendWindow window call).dropLast).card < 10) := by
  obtain ⟨before, first, rest, extended, split, start, counts⟩ := tracks.restart call
  obtain ⟨after, found⟩ := counts.observe (call.tcpFlags.getD 0) call.flow.dstPort
  obtain ⟨-, firstSeen, -⟩ := (cell.getD call.newScan).observe_keeps call.clock.seconds
    (call.tcpFlags.getD 0) call.flow.dstPort
  rw [extended, List.dropLast_concat, PacketCall.scanCell, if_pos counted, probedPorts_append]
  refine ⟨⟨first, rest, split, firstSeen.trans start, ?_⟩, found⟩
  rw [probedPorts_append]
  exact after

/-- The tracker of a source that is alone. -/
def Alone.after (alone : Alone) (calls : List PacketCall) : Alone :=
  calls.foldl (fun alone call => (alone.inspect call).1) alone

theorem Alone.after_tracks {source : BitVec 32} {calls : List PacketCall}
    (ipv4 : ∀ call ∈ calls, call.tcpFrom source = call.scans) {alone : Alone}
    {window : List PacketCall} (tracks : Tracks window alone.scan) :
    Tracks ((calls.filter (PacketCall.tcpFrom source)).foldl extendWindow window)
      (alone.after calls).scan := by
  induction calls generalizing alone window with
  | nil => exact tracks
  | cons call calls ih =>
      rw [List.forall_mem_cons] at ipv4
      by_cases counted : call.scans = true
      · rw [List.filter_cons_of_pos (ipv4.1.trans counted)]
        exact ih ipv4.2 (tracks.extend counted).1
      · rw [List.filter_cons_of_neg (by rw [ipv4.1]; exact counted)]
        apply ih ipv4.2
        have same : (alone.inspect call).1.scan = alone.scan := by
          rw [Alone.inspect, PacketCall.scanCell, if_neg counted]
        rw [same]
        exact tracks

/-! ## Exactness -/

theorem Alone.length_run (alone : Alone) (calls : List PacketCall) :
    (alone.run calls).length = calls.length := by
  induction calls generalizing alone with
  | nil => rfl
  | cons call calls ih => rw [Alone.run, List.length_cons, List.length_cons, ih]

theorem Alone.run_append (alone : Alone) (calls : List PacketCall) (call : PacketCall)
    (later : List PacketCall) :
    alone.run (calls ++ call :: later) =
      alone.run calls ++ ((alone.after calls).inspect call).2 ::
        ((alone.after calls).inspect call).1.run later := by
  induction calls generalizing alone with
  | nil => rfl
  | cons first calls ih =>
      rw [List.cons_append, Alone.run, ih]
      rfl

/-- The calls of a source so far. -/
def ofSource (source : BitVec 32) (calls : List PacketCall) : List PacketCall :=
  calls.filter fun call => call.flow.srcAddr.word0 = source

/-- What is seen of a packet follows from the earlier packets of its source. -/
theorem Shadows.run_observed {source : BitVec 32} {now : Int}
    {counter : BitVec 64 → BitVec 64} {monitor : Monitor} {alone : Alone}
    {calls : List PacketCall} {earlier later : List Inspected} {inspected : Inspected}
    (shadows : Shadows source now monitor.detector.scanTrackers monitor.detector.exfilTrackers
      alone)
    (ran : monitor.run counter calls = .ok (earlier ++ inspected :: later))
    (after : ∀ call ∈ calls, call.flow.srcAddr.word0 = source → now ≤ call.clock.seconds)
    (forward : Forward source calls) (granted : Granted source calls)
    (own : inspected.call.flow.srcAddr.word0 = source) :
    inspected.observed =
      ((alone.after (ofSource source (earlier.map Inspected.call))).inspect
        inspected.call).2 := by
  have seen := shadows.run ran after forward granted
  have calls_eq := Monitor.run_calls ran
  rw [List.map_append, List.map_cons] at calls_eq
  rw [← calls_eq, List.filter_append, List.filter_append,
    List.filter_cons_of_pos (by simpa using own), List.filter_cons_of_pos (by simpa using own),
    Alone.run_append, List.map_append, List.map_cons] at seen
  have same_length : ((earlier.filter fun inspected =>
      decide (inspected.call.flow.srcAddr.word0 = source)).map Inspected.observed).length =
      (alone.run (ofSource source (earlier.map Inspected.call))).length := by
    rw [Alone.length_run, ofSource, List.length_map, List.filter_map, List.length_map]
    rfl
  exact (List.cons.inj (List.append_inj_right seen same_length)).1

/-- The port-scan alerts of a packet, as they follow from the earlier calls. -/
def scanAlertsAfter (source : BitVec 32) (earlier : List PacketCall) (call : PacketCall) :
    List Alert :=
  if call.source.ipv4 ∧ call.flow.srcAddr.word0 = source then
    ((Alone.after {} (ofSource source earlier)).inspect call).2.scanAlerts.filter
      (·.srcIp = source)
  else []

/-- The port-scan alerts of each packet of a run from some calls on. -/
def scanAlertsAlong (source : BitVec 32) : List PacketCall → List PacketCall →
    List (List Alert)
  | _, [] => []
  | earlier, call :: later =>
      scanAlertsAfter source earlier call :: scanAlertsAlong source (earlier ++ [call]) later

/-- The clock never goes back, no IPv6 address begins like the source, and the trackers and
the alerts of its packets can be allocated. -/
structure Watched (source : BitVec 32) (calls : List PacketCall) : Prop where
  clock : calls.Pairwise fun earlier call => earlier.clock.seconds ≤ call.clock.seconds
  ipv4 : ∀ call ∈ calls, call.flow.srcAddr.word0 = source → call.source.ipv4 = true
  trackers : Granted source calls
  alerts : ∀ call ∈ calls, call.flow.srcAddr.word0 = source →
    call.grants.alert .portScan 0 = true

section Exact

variable {source : BitVec 32} {calls : List PacketCall} {monitor : Monitor}
variable {counter : BitVec 64 → BitVec 64} {trace : List Inspected}

theorem Watched.forward (watched : Watched source calls) : Forward source calls := by
  apply watched.clock.imp
  exact fun order _ => order

theorem Watched.shadows (new : monitor.detector = {}) (calls : List PacketCall) :
    ∃ now, Shadows source now monitor.detector.scanTrackers monitor.detector.exfilTrackers {} ∧
      ∀ call ∈ calls, call.flow.srcAddr.word0 = source → now ≤ call.clock.seconds := by
  rw [new]
  exact ⟨-2 ^ 63, shadows_init source _, fun call _ _ => BitVec.le_toInt _⟩

/-- The alerts of a packet follow from the earlier calls, whenever trackers are swept. -/
theorem Watched.scanAlertsFor_eq (watched : Watched source calls)
    (new : monitor.detector = {}) {earlier later : List Inspected} {inspected : Inspected}
    (ran : monitor.run counter calls = .ok (earlier ++ inspected :: later)) :
    scanAlertsFor source inspected =
      scanAlertsAfter source (earlier.map Inspected.call) inspected.call := by
  rw [scanAlertsFor, scanAlertsAfter]
  split
  next own =>
    obtain ⟨now, shadows, before⟩ := @Watched.shadows source monitor new calls
    rw [← shadows.run_observed ran before watched.forward watched.trackers own.2]
    rfl
  next => rfl

theorem tcpFrom_iff {call : PacketCall} :
    call.tcpFrom source = true ↔
      (call.source.ipv4 = true ∧ call.flow.srcAddr.word0 = source) ∧ call.scans = true := by
  simp [PacketCall.tcpFrom, PacketCall.source]

theorem filter_ofSource (earlier : List PacketCall) :
    (ofSource source earlier).filter (PacketCall.tcpFrom source) =
      earlier.filter (PacketCall.tcpFrom source) := by
  rw [ofSource, List.filter_filter]
  apply List.filter_congr
  intro call _
  rw [Bool.and_eq_left_iff_imp]
  exact fun tcp => decide_eq_true (tcpFrom_iff.mp tcp).1.2

theorem scanWindow_append {earlier : List PacketCall} {call : PacketCall}
    (tcp : call.tcpFrom source = true) :
    scanWindow source (earlier ++ [call]) = extendWindow (scanWindow source earlier) call := by
  rw [scanWindow, List.filter_append, List.filter_cons_of_pos tcp, List.foldl_append]
  rfl

/-- One alert for the packet that completes a scan, none for any other. -/
theorem length_scanAlertsAfter {earlier : List PacketCall} {call : PacketCall}
    (ipv4 : ∀ other ∈ earlier, other.flow.srcAddr.word0 = source → other.source.ipv4 = true)
    (granted : call.flow.srcAddr.word0 = source → call.grants.alert .portScan 0 = true) :
    (scanAlertsAfter source earlier call).length =
      if Completes source earlier call then 1 else 0 := by
  have known : ∀ other ∈ ofSource source earlier, other.tcpFrom source = other.scans := by
    intro other member
    obtain ⟨member, own⟩ := List.mem_filter.mp member
    have own := of_decide_eq_true own
    rw [Bool.eq_iff_iff, tcpFrom_iff, and_iff_right ⟨ipv4 other member own, own⟩]
  have tracks := @Alone.after_tracks source _ known {} [] rfl
  rw [filter_ofSource] at tracks
  rw [scanAlertsAfter]
  by_cases own : call.source.ipv4 = true ∧ call.flow.srcAddr.word0 = source
  · have flag : call.flow.flags &&& FLOW_IPV4 ≠ 0 := of_decide_eq_true own.1
    have alerts : ((Alone.after {} (ofSource source earlier)).inspect call).2.scanAlerts =
        (call.scanCell (Alone.after {} (ofSource source earlier)).scan).2.toList.map
          fun detail => newAlert 0 scanRule call.flow detail call.clock.now := by
      rw [Alone.inspect]
      dsimp only
      rw [findingAlerts, if_pos (granted own.2)]
    have all (finding : Option Bytes) : ((finding.toList.map fun detail =>
        newAlert 0 scanRule call.flow detail call.clock.now).filter
          (·.srcIp = source)).length = finding.toList.length := by
      rw [List.filter_eq_self.mpr, List.length_map]
      intro alert member
      obtain ⟨detail, -, rfl⟩ := List.mem_map.mp member
      rw [decide_eq_true_eq, newAlert, if_pos flag]
      exact own.2
    rw [if_pos own, alerts, all]
    by_cases counted : call.scans = true
    · have tcp := tcpFrom_iff.mpr ⟨own, counted⟩
      have found := (tracks.extend counted).2
      rw [← scanWindow, ← scanWindow_append tcp] at found
      cases finding : (call.scanCell (Alone.after {} (ofSource source earlier)).scan).2 with
      | none =>
          rw [finding] at found
          rw [if_neg fun completes => absurd (found.mpr completes.2) (by simp)]
          rfl
      | some detail =>
          rw [finding] at found
          rw [if_pos ⟨tcp, found.mp rfl⟩]
          rfl
    · rw [PacketCall.scanCell, if_neg counted,
        if_neg fun completes => counted (tcpFrom_iff.mp completes.1).2]
      rfl
  · rw [if_neg own, if_neg fun completes => own (tcpFrom_iff.mp completes.1).1]
    rfl

theorem scanWindow_eq (source : BitVec 32) (calls : List PacketCall) :
    scanWindow source calls =
      windowOf (fun call => call.clock.seconds) 60 (PacketCall.tcpFrom source) calls := by
  rw [scanWindow, extendWindow_eq, windowOf]

theorem card_probedPorts_append (window more : List PacketCall) :
    (probedPorts window).card ≤ (probedPorts (window ++ more)).card := by
  apply Finset.card_le_card
  rw [probedPorts, probedPorts, List.filter_append, List.map_append, List.toFinset_append]
  exact Finset.subset_union_left

/-- Two packets that complete scans are in different windows. -/
theorem Completes.later_window {earlier between : List PacketCall} {first second : PacketCall}
    (completes : Completes source earlier first)
    (completes' : Completes source (earlier ++ first :: between) second) :
    (scanWindow source (earlier ++ first :: (between ++ [second]))).length ≤
      (between ++ [second]).length := by
  obtain ⟨-, ten, -⟩ := completes
  obtain ⟨tcp, -, fewer⟩ := completes'
  rw [scanWindow_eq] at ten fewer ⊢
  exact windowOf_apart card_probedPorts_append ten.ge tcp fewer

/-- One alert for the packet that completes a scan, whenever trackers are swept. -/
theorem Watched.length_scanAlertsFor (watched : Watched source calls)
    (new : monitor.detector = {}) {earlier later : List Inspected} {inspected : Inspected}
    (ran : monitor.run counter calls = .ok (earlier ++ inspected :: later)) :
    (scanAlertsFor source inspected).length =
      if Completes source (earlier.map Inspected.call) inspected.call then 1 else 0 := by
  have calls_eq := Monitor.run_calls ran
  rw [List.map_append, List.map_cons] at calls_eq
  rw [watched.scanAlertsFor_eq new ran]
  apply length_scanAlertsAfter
  · intro other member
    apply watched.ipv4
    rw [← calls_eq]
    exact List.mem_append_left _ member
  · apply watched.alerts
    rw [← calls_eq]
    simp

/-- The alerts of each packet of a run follow from the calls, whenever trackers are
swept. -/
theorem Watched.map_scanAlertsFor (watched : Watched source calls)
    (new : monitor.detector = {}) {earlier later : List Inspected}
    (ran : monitor.run counter calls = .ok (earlier ++ later)) :
    later.map (scanAlertsFor source) =
      scanAlertsAlong source (earlier.map Inspected.call) (later.map Inspected.call) := by
  induction later generalizing earlier with
  | nil => rfl
  | cons inspected later ih =>
      have onward : monitor.run counter calls = .ok (earlier ++ [inspected] ++ later) := by
        rw [ran, List.append_assoc]
        rfl
      rw [List.map_cons, List.map_cons, scanAlertsAlong, watched.scanAlertsFor_eq new ran,
        ih onward, List.map_append]
      rfl

end Exact

/-- For every source an alert is raised exactly at the packet that brings the probed ports of
its window to ten, never twice in a window, and whenever trackers are swept. -/
theorem port_scans_exact (source : BitVec 32) {monitor : Monitor}
    (new : monitor.detector = {}) {calls : List PacketCall} (watched : Watched source calls)
    {trace : List Inspected} (ran : monitor.run id calls = .ok trace) :
    (∀ earlier inspected later, trace = earlier ++ inspected :: later →
      (scanAlertsFor source inspected).length =
        if Completes source (earlier.map Inspected.call) inspected.call then 1 else 0) ∧
    (∀ earlier first between second later,
      trace = earlier ++ first :: (between ++ second :: later) →
      scanAlertsFor source first ≠ [] → scanAlertsFor source second ≠ [] →
      (scanWindow source ((earlier ++ first :: (between ++ [second])).map
        Inspected.call)).length ≤ (between ++ [second]).length) ∧
    ∀ counter, ∃ trace', monitor.run counter calls = .ok trace' ∧
      trace'.map (scanAlertsFor source) = trace.map (scanAlertsFor source) := by
  have exact' : ∀ earlier inspected later, trace = earlier ++ inspected :: later →
      (scanAlertsFor source inspected).length =
        if Completes source (earlier.map Inspected.call) inspected.call then 1 else 0 := by
    rintro earlier inspected later rfl
    exact watched.length_scanAlertsFor new ran
  refine ⟨exact', ?_, ?_⟩
  · refine raised_apart (Completes source) (fun calls => (scanWindow source calls).length)
      (fun before inspected after split alert => ?_) Completes.later_window
    by_contra incomplete
    have none := exact' before inspected after split
    rw [if_neg incomplete] at none
    exact alert (List.length_eq_zero_iff.mp none)
  · intro counter
    have readable := (Monitor.run_ok_iff id monitor calls).mp ⟨trace, ran⟩
    obtain ⟨trace', ran'⟩ := (Monitor.run_ok_iff counter monitor calls).mpr readable
    have alerts := @Watched.map_scanAlertsFor source calls monitor id watched new [] trace ran
    have alerts' :=
      @Watched.map_scanAlertsFor source calls monitor counter watched new [] trace' ran'
    refine ⟨trace', ran', ?_⟩
    rw [alerts, alerts', Monitor.run_calls ran, Monitor.run_calls ran']

/-- Ten probes of one source. -/
theorem port_scans_exact_ten :
    let calls := (List.range 10).map fun port =>
      probe FLOW_IPV4 { word0 := 1 } (BitVec.ofNat 16 port)
    ∃ trace, Monitor.run id {} calls = .ok trace ∧
      (∀ earlier inspected later, trace = earlier ++ inspected :: later →
        (scanAlertsFor 1 inspected).length =
          if Completes 1 (earlier.map Inspected.call) inspected.call then 1 else 0) ∧
      (∀ earlier first between second later,
        trace = earlier ++ first :: (between ++ second :: later) →
        scanAlertsFor 1 first ≠ [] → scanAlertsFor 1 second ≠ [] →
        (scanWindow 1 ((earlier ++ first :: (between ++ [second])).map
          Inspected.call)).length ≤ (between ++ [second]).length) ∧
      ∀ counter, ∃ trace', Monitor.run counter {} calls = .ok trace' ∧
        trace'.map (scanAlertsFor 1) = trace.map (scanAlertsFor 1) := by
  dsimp only
  obtain ⟨trace, ran⟩ := (Monitor.run_ok_iff id {} ((List.range 10).map fun port =>
    probe FLOW_IPV4 { word0 := 1 } (BitVec.ofNat 16 port))).mpr
      (List.forall_mem_map.mpr fun _ _ => ⟨nofun, nofun, nofun⟩)
  refine ⟨trace, ran, port_scans_exact 1 rfl ⟨?_, ?_, ?_, ?_⟩ ran⟩
  · exact List.pairwise_map.mpr (List.pairwise_of_forall fun _ _ => le_rfl)
  · have flag : FLOW_IPV4 &&& FLOW_IPV4 ≠ 0 := by decide
    exact List.forall_mem_map.mpr fun _ _ _ => decide_eq_true flag
  · exact List.forall_mem_map.mpr fun _ _ _ => ⟨rfl, rfl⟩
  · exact List.forall_mem_map.mpr fun _ _ _ => rfl

end NetDefender.Behavior
