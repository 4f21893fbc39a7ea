import Mathlib.Algebra.GroupWithZero.Nat
import NetDefender.Behavior.PortScan

/-!
# Transfers to external addresses

The windows of a pair of addresses, as they follow from its packets, and the bytes that were
sent in each.  By day an alert is raised exactly at the packet with which they reach the
threshold, if `IS_EXTERNAL_IP` holds of the destination.  The macro compares the bytes of an
address in the order of the machine with constants in the order of the network: only the
first of its three ranges is the one that is meant.
-/

namespace NetDefender.Behavior

open CString Flows Rules Fallible Windows

/-! ## Addresses -/

/-- A byte of an IPv4 address as it is stored; the first one is lowest in a register. -/
def octet (ip : BitVec 32) (index : Nat) : Nat := (ip.extractLsb' (8 * index) 8).toNat

/-- An address of 10.0.0.0/8, 172.16.0.0/12 or 192.168.0.0/16. -/
def IsPrivate (ip : BitVec 32) : Prop :=
  octet ip 0 = 10 ∨ octet ip 0 = 172 ∧ 16 ≤ octet ip 1 ∧ octet ip 1 ≤ 31 ∨
    octet ip 0 = 192 ∧ octet ip 1 = 168

instance (ip : BitVec 32) : Decidable (IsPrivate ip) := inferInstanceAs (Decidable (_ ∨ _))

/-- An address of 172.16.0.0/12, 192.168.0.0/16 or one of the ranges that are taken for these:
16.172.0.0/16 to 31.172.0.0/16, and 168.192.0.0/16. -/
def Misjudged (ip : BitVec 32) : Prop :=
  octet ip 0 = 172 ∧ 16 ≤ octet ip 1 ∧ octet ip 1 ≤ 31 ∨ octet ip 0 = 192 ∧ octet ip 1 = 168 ∨
    16 ≤ octet ip 0 ∧ octet ip 0 ≤ 31 ∧ octet ip 1 = 172 ∨ octet ip 0 = 168 ∧ octet ip 1 = 192

instance (ip : BitVec 32) : Decidable (Misjudged ip) := inferInstanceAs (Decidable (_ ∨ _))

section Addresses

theorem append_eq_append {w v : Nat} {a c : BitVec w} {b d : BitVec v} :
    a ++ b = c ++ d ↔ a = c ∧ b = d := by
  constructor
  · intro same
    have high := congrArg (BitVec.extractLsb' v w) same
    have low := congrArg (BitVec.extractLsb' 0 v) same
    rw [BitVec.extractLsb'_append_eq_left, BitVec.extractLsb'_append_eq_left] at high
    rw [BitVec.extractLsb'_append_eq_right, BitVec.extractLsb'_append_eq_right] at low
    exact ⟨high, low⟩
  · rintro ⟨rfl, rfl⟩
    rfl

/-- The masks of `IS_EXTERNAL_IP` on the two lowest bytes. -/
theorem masked_iff (rest : BitVec 16) (second first : BitVec 8) :
    (rest ++ second ++ first &&& 0xFF = 10 ↔ first = 10) ∧
      (rest ++ second ++ first &&& 0xFFF0 = 0xAC10 ↔ second = 0xAC ∧ first &&& 0xF0 = 0x10) ∧
      (rest ++ second ++ first &&& 0xFFFF = 0xC0A8 ↔ second = 0xC0 ∧ first = 0xA8) := by
  have none {width : Nat} (bits : BitVec width) : bits &&& 0 = 0 := BitVec.and_zero
  have split (high : BitVec 8) (low : BitVec 8) (high' : BitVec 8) (low' : BitVec 8) :
      rest ++ second ++ first &&& (0 : BitVec 16) ++ high ++ low =
          (0 : BitVec 16) ++ high' ++ low' ↔
        second &&& high = high' ∧ first &&& low = low' := by
    rw [BitVec.and_append, BitVec.and_append, append_eq_append, append_eq_append,
      and_iff_right (none rest)]
  have all (byte : BitVec 8) : byte &&& 0xFF = byte := BitVec.and_allOnes
  refine ⟨?_, ?_, ?_⟩
  · have masked := split 0 0xFF 0 10
    rw [all, and_iff_right (none second)] at masked
    exact masked
  · have masked := split 0xFF 0xF0 0xAC 0x10
    rw [all] at masked
    exact masked
  · have masked := split 0xFF 0xFF 0xC0 0xA8
    rw [all, all] at masked
    exact masked

theorem high_nibble_one (byte : BitVec 8) :
    byte &&& 0xF0 = 0x10 ↔ 16 ≤ byte.toNat ∧ byte.toNat ≤ 31 := by
  revert byte
  decide +kernel

/-- What `IS_EXTERNAL_IP` says of the bytes of an address. -/
theorem isExternalIp_iff (ip : BitVec 32) :
    isExternalIp ip = true ↔ ¬ (octet ip 0 = 10 ∨
      16 ≤ octet ip 0 ∧ octet ip 0 ≤ 31 ∧ octet ip 1 = 172 ∨
      octet ip 0 = 168 ∧ octet ip 1 = 192) := by
  have whole : ip.extractLsb' 16 16 ++ ip.extractLsb' 8 8 ++ ip.extractLsb' 0 8 = ip := by
    rw [@BitVec.extractLsb'_append_extractLsb'_eq_extractLsb' 32 16 8 8 16 ip rfl]
    exact @BitVec.extractLsb'_append_extractLsb' 24 8 ip
  obtain ⟨ten, second, third⟩ :=
    masked_iff (ip.extractLsb' 16 16) (ip.extractLsb' 8 8) (ip.extractLsb' 0 8)
  rw [whole] at ten second third
  have value (byte : BitVec 8) {number : Nat} (small : number < 2 ^ 8) :
      byte = BitVec.ofNat 8 number ↔ byte.toNat = number := by
    rw [BitVec.toNat_eq, BitVec.toNat_ofNat, Nat.mod_eq_of_lt small]
  have first : ip &&& 0xFF = 10 ↔ octet ip 0 = 10 := ten.trans (value _ (by decide))
  have carrier : ip &&& 0xFFF0 = 0xAC10 ↔
      octet ip 1 = 172 ∧ 16 ≤ octet ip 0 ∧ octet ip 0 ≤ 31 :=
    second.trans (and_congr (value _ (by decide)) (high_nibble_one _))
  have lowest : ip &&& 0xFFFF = 0xC0A8 ↔ octet ip 1 = 192 ∧ octet ip 0 = 168 :=
    third.trans (and_congr (value _ (by decide)) (value _ (by decide)))
  simp only [isExternalIp, Bool.and_eq_true, decide_eq_true_eq, ne_eq, first, carrier, lowest]
  omega

/-- The macro errs on the addresses of four ranges. -/
theorem isExternalIp_agrees_iff (ip : BitVec 32) :
    (isExternalIp ip = true ↔ ¬ IsPrivate ip) ↔ ¬ Misjudged ip := by
  rw [isExternalIp_iff, IsPrivate, Misjudged]
  grind

end Addresses

/-! ## Windows -/

/-- A packet with a payload from one address to another. -/
def PacketCall.transfers (src dst : BitVec 32) (call : PacketCall) : Bool :=
  call.flow.srcAddr.word0 == src && call.flow.dstAddr.word0 == dst && decide (call.packetLen > 0)

/-- The window after one more packet: a packet more than 600 seconds after the first one
starts a new window. -/
abbrev extendTransfer : List PacketCall → PacketCall → List PacketCall :=
  continueWindow (fun call => call.clock.seconds) 600

/-- The current window of a pair after these calls. -/
def transferWindow (src dst : BitVec 32) (calls : List PacketCall) : List PacketCall :=
  (calls.filter (PacketCall.transfers src dst)).foldl extendTransfer []

/-- The payload bytes of a window. -/
def sentBytes (window : List PacketCall) : Nat :=
  (window.map fun call => call.packetLen.toNat).sum

/-- 100 MB. -/
def exfilThreshold : Nat := 100 * 1024 * 1024

/-- The packet brings the bytes in the window of its pair to the threshold. -/
def ReachesThreshold (src dst : BitVec 32) (earlier : List PacketCall) (call : PacketCall) :
    Prop :=
  call.transfers src dst = true ∧
    exfilThreshold ≤ sentBytes (transferWindow src dst (earlier ++ [call])) ∧
      sentBytes (transferWindow src dst (earlier ++ [call])).dropLast < exfilThreshold

instance (src dst : BitVec 32) (earlier : List PacketCall) (call : PacketCall) :
    Decidable (ReachesThreshold src dst earlier call) :=
  inferInstanceAs (Decidable (_ ∧ _ ∧ _))

section Windows

theorem transfers_iff {src dst : BitVec 32} {call : PacketCall} :
    call.transfers src dst = true ↔ (call.flow.srcAddr.word0 = src ∧
      call.flow.dstAddr.word0 = dst) ∧ call.packetLen > 0 := by
  simp only [PacketCall.transfers, Bool.and_eq_true, beq_iff_eq, decide_eq_true_eq]

theorem sentBytes_append (window : List PacketCall) (call : PacketCall) :
    sentBytes (window ++ [call]) = sentBytes window + call.packetLen.toNat := by
  rw [sentBytes, List.map_append, List.sum_append]
  rfl

end Windows

/-! ## The tracker sums the bytes -/

/-- By day, the tracker has the bytes of the window as long as they are below the threshold,
and an alert was raised for an external address when they were not. -/
structure DataExfilTracker.Sums (tracker : DataExfilTracker) (bytes : Nat) : Prop where
  offHours : tracker.offHours = false
  alerted : tracker.alerted = (isExternalIp tracker.dstIp && decide (exfilThreshold ≤ bytes))
  sum : bytes < exfilThreshold → tracker.bytesTransferred.toNat = bytes

section Sums

variable {tracker : DataExfilTracker} {clock : Clock}

theorem DataExfilTracker.restart_dstIp : (tracker.restart clock).dstIp = tracker.dstIp := by
  rw [DataExfilTracker.restart]
  split <;> rfl

/-- By day there is a reason at the threshold only. -/
theorem DataExfilTracker.reason_isSome (day : tracker.offHours = false) :
    tracker.reason.isSome = true ↔ isExternalIp tracker.dstIp = true ∧
      exfilThreshold ≤ tracker.bytesTransferred.toNat ∧ tracker.alerted = false := by
  have many : tracker.bytesTransferred ≥ DATA_EXFIL_THRESHOLD ↔
      exfilThreshold ≤ tracker.bytesTransferred.toNat := BitVec.le_def
  rw [DataExfilTracker.reason, if_neg (by rw [day]; exact fun night => Bool.false_ne_true night.1)]
  split
  next holds =>
    refine iff_of_true rfl ⟨holds.2.1, many.mp holds.1, ?_⟩
    simpa using holds.2.2
  next fails =>
    refine iff_of_false Bool.false_ne_true fun holds => fails ⟨many.mpr holds.2.1, holds.1, ?_⟩
    rw [holds.2.2]
    rfl

/-- What a packet adds to a tracker. -/
def DataExfilTracker.count (tracker : DataExfilTracker) (clock : Clock) (length : BitVec 32) :
    DataExfilTracker :=
  { tracker with
    lastTransfer := clock.seconds
    bytesTransferred := tracker.bytesTransferred + length.setWidth 64
    packetCount := tracker.packetCount + 1
    offHours := tracker.offHours || isOffHours clock.hour }

/-- A packet is counted; the alarm is set if there is a reason then. -/
theorem DataExfilTracker.observe_spec (tracker : DataExfilTracker) (clock : Clock)
    (length : BitVec 32) :
    let counted := (tracker.restart clock).count clock length
    (tracker.observe clock length).1 =
        { counted with alerted := counted.reason.isSome || counted.alerted } ∧
      (tracker.observe clock length).2.isSome = counted.reason.isSome := by
  dsimp only
  rw [DataExfilTracker.observe]
  dsimp only
  rw [← DataExfilTracker.count]
  cases ((tracker.restart clock).count clock length).reason with
  | none => exact ⟨rfl, rfl⟩
  | some reason => exact ⟨rfl, rfl⟩

/-- A packet in a window that the tracker has been restarted for. -/
theorem DataExfilTracker.Sums.observe {bytes : Nat} (sums : (tracker.restart clock).Sums bytes)
    (day : isOffHours clock.hour = false) (length : BitVec 32) :
    (tracker.observe clock length).1.Sums (bytes + length.toNat) ∧
      (tracker.observe clock length).1.windowStart = (tracker.restart clock).windowStart ∧
      (tracker.observe clock length).1.dstIp = tracker.dstIp ∧
      ((tracker.observe clock length).2.isSome = true ↔ isExternalIp tracker.dstIp = true ∧
        exfilThreshold ≤ bytes + length.toNat ∧ bytes < exfilThreshold) := by
  obtain ⟨stored, finding⟩ := tracker.observe_spec clock length
  have dstIp : (tracker.restart clock).dstIp = tracker.dstIp := restart_dstIp
  obtain ⟨offHours, alerted, sum⟩ := sums
  rw [dstIp] at alerted
  generalize tracker.restart clock = before at *
  have quiet : (before.count clock length).offHours = false := by
    rw [DataExfilTracker.count, offHours, day]
    rfl
  have total : bytes < exfilThreshold →
      (before.count clock length).bytesTransferred.toNat = bytes + length.toNat := by
    intro few
    have small := length.isLt
    rw [DataExfilTracker.count, BitVec.toNat_add, BitVec.toNat_setWidth, sum few]
    rw [exfilThreshold] at few
    omega
  have found : (before.count clock length).reason.isSome = true ↔
      isExternalIp tracker.dstIp = true ∧ exfilThreshold ≤ bytes + length.toNat ∧
        bytes < exfilThreshold := by
    have address : (before.count clock length).dstIp = tracker.dstIp := dstIp
    have alarm : (before.count clock length).alerted =
        (isExternalIp tracker.dstIp && decide (exfilThreshold ≤ bytes)) := alerted
    rw [reason_isSome quiet, address, alarm]
    cases isExternalIp tracker.dstIp with
    | false => simp
    | true =>
        by_cases few : bytes < exfilThreshold
        · simp [total few, few]
        · simp [few, Nat.not_lt.mp few]
  rw [stored, finding]
  refine ⟨⟨quiet, ?_, fun few => total (by omega)⟩, rfl, dstIp, found⟩
  have alarm : (before.count clock length).alerted =
      (isExternalIp before.dstIp && decide (exfilThreshold ≤ bytes)) := by
    rw [dstIp]
    exact alerted
  have address : (before.count clock length).dstIp = before.dstIp := rfl
  rw [← dstIp] at found
  dsimp only
  rw [alarm, address, Bool.eq_iff_iff, Bool.or_eq_true, found, Bool.and_eq_true, Bool.and_eq_true,
    decide_eq_true_eq, decide_eq_true_eq]
  constructor
  · rintro (⟨external, reached, -⟩ | ⟨external, reached⟩)
    · exact ⟨external, reached⟩
    · exact ⟨external, by omega⟩
  · rintro ⟨external, reached⟩
    by_cases few : bytes < exfilThreshold
    · exact Or.inl ⟨external, reached, few⟩
    · exact Or.inr ⟨external, Nat.not_lt.mp few⟩

end Sums

/-! ## The tracker follows the window -/

/-- The tracker of a pair stands for the current window. -/
def Sends (dst : BitVec 32) : List PacketCall → Option DataExfilTracker → Prop :=
  Follows DataExfilTracker.windowStart (fun call => call.clock.seconds)
    fun window tracker => tracker.dstIp = dst ∧ tracker.Sums (sentBytes window)

section Sends

variable {dst : BitVec 32} {window : List PacketCall} {cell : Option DataExfilTracker}
variable {tracker : DataExfilTracker} {clock : Clock}

/-- A tracker of an empty window by day. -/
theorem DataExfilTracker.sums_nil (offHours : tracker.offHours = false)
    (alerted : tracker.alerted = false) (bytes : tracker.bytesTransferred = 0) :
    tracker.Sums (sentBytes []) := by
  refine ⟨offHours, ?_, fun _ => by rw [bytes]; rfl⟩
  have none : ¬ exfilThreshold ≤ sentBytes [] := by decide
  rw [alerted, decide_eq_false none, Bool.and_false]

theorem DataExfilTracker.restart_eq_self (within : clock.seconds - tracker.windowStart ≤ 600) :
    tracker.restart clock = tracker := by
  have inside : isWithinWindow clock.seconds tracker.windowStart DATA_EXFIL_WINDOW = true :=
    decide_eq_true within
  rw [DataExfilTracker.restart, if_pos inside]

theorem DataExfilTracker.restart_eq_new (day : isOffHours clock.hour = false)
    (elapsed : clock.seconds - tracker.windowStart > 600) :
    (tracker.restart clock).windowStart = clock.seconds ∧
      (tracker.restart clock).Sums (sentBytes []) := by
  have outside : isWithinWindow clock.seconds tracker.windowStart DATA_EXFIL_WINDOW = false :=
    isWithinWindow_eq_false.mpr elapsed
  rw [DataExfilTracker.restart, outside, if_neg Bool.false_ne_true]
  exact ⟨rfl, sums_nil day rfl rfl⟩

/-- The window that a packet is put in, and the tracker that is restarted for it. -/
theorem Sends.restart (sends : Sends dst window cell) {call : PacketCall}
    (day : isOffHours call.clock.hour = false) (own : call.flow.dstAddr.word0 = dst) :
    ∃ before first rest, extendTransfer window call = before ++ [call] ∧
      before ++ [call] = first :: rest ∧
      ((cell.getD call.newExfil).restart call.clock).windowStart = first.clock.seconds ∧
      ((cell.getD call.newExfil).restart call.clock).dstIp = dst ∧
      ((cell.getD call.newExfil).restart call.clock).Sums (sentBytes before) := by
  refine Follows.restart sends ?_ ?_ ?_ (by decide)
  · exact fun tracker within => DataExfilTracker.restart_eq_self within
  · intro tracker standing elapsed
    obtain ⟨started, empty⟩ := DataExfilTracker.restart_eq_new day elapsed
    exact ⟨started, DataExfilTracker.restart_dstIp.trans standing.1, empty⟩
  · exact ⟨rfl, own, DataExfilTracker.sums_nil day rfl rfl⟩

/-- One more packet.  An external address is found to be sent too much with the packet that
brings the bytes of the window to the threshold. -/
theorem Sends.extend (sends : Sends dst window cell) {call : PacketCall}
    (day : isOffHours call.clock.hour = false) (own : call.flow.dstAddr.word0 = dst)
    (sent : call.packetLen > 0) :
    Sends dst (extendTransfer window call) (call.exfilCell cell).1 ∧
      ((call.exfilCell cell).2.isSome = true ↔ isExternalIp dst = true ∧
        exfilThreshold ≤ sentBytes (extendTransfer window call) ∧
          sentBytes (extendTransfer window call).dropLast < exfilThreshold) := by
  obtain ⟨before, first, rest, extended, split, start, address, sums⟩ := sends.restart day own
  obtain ⟨after, windowStart, dstIp, found⟩ := sums.observe day call.packetLen
  rw [DataExfilTracker.restart_dstIp.symm.trans address] at dstIp found
  rw [extended, List.dropLast_concat, PacketCall.exfilCell, if_pos sent, sentBytes_append]
  refine ⟨⟨first, rest, split, windowStart.trans start, dstIp, ?_⟩, found⟩
  rw [sentBytes_append]
  exact after

end Sends

/-- The tracker of a pair after the packets of a source that is alone. -/
theorem Alone.after_sends {src dst : BitVec 32} {calls : List PacketCall}
    (source : ∀ call ∈ calls, call.flow.srcAddr.word0 = src)
    (day : ∀ call ∈ calls, isOffHours call.clock.hour = false) {alone : Alone}
    {window : List PacketCall} (sends : Sends dst window (alone.exfil dst)) :
    Sends dst ((calls.filter (PacketCall.transfers src dst)).foldl extendTransfer window)
      ((alone.after calls).exfil dst) := by
  induction calls generalizing alone window with
  | nil => exact sends
  | cons call calls ih =>
      rw [List.forall_mem_cons] at source day
      have stepped : (alone.inspect call).1.exfil =
          Function.update alone.exfil call.flow.dstAddr.word0
            (call.exfilCell (alone.exfil call.flow.dstAddr.word0)).1 := rfl
      by_cases own : call.transfers src dst = true
      · rw [List.filter_cons_of_pos own]
        rw [transfers_iff] at own
        refine @ih source.2 day.2 (alone.inspect call).1 (extendTransfer window call) ?_
        rw [stepped, own.1.2, Function.update_self]
        exact (sends.extend day.1 own.1.2 own.2).1
      · rw [List.filter_cons_of_neg own]
        refine @ih source.2 day.2 (alone.inspect call).1 window ?_
        rw [stepped]
        by_cases address : call.flow.dstAddr.word0 = dst
        · have nothing : ¬ call.packetLen > 0 := fun sent =>
            own (transfers_iff.mpr ⟨⟨source.1, address⟩, sent⟩)
          rw [address, Function.update_self, PacketCall.exfilCell, if_neg nothing]
          exact sends
        · rw [Function.update_of_ne (Ne.symm address)]
          exact sends

/-! ## Exactness -/

/-- The exfiltration alerts that a call raises for a pair. -/
def exfilAlertsFor (src dst : BitVec 32) (inspected : Inspected) : List Alert :=
  if inspected.call.flow.srcAddr.word0 = src ∧ inspected.call.flow.dstAddr.word0 = dst then
    alertsOf 9002 inspected.raised
  else []

/-- The clock never goes back and never shows an hour from 22:00 to 06:00, and the trackers and
the alerts of the packets can be allocated. -/
structure Daytime (src dst : BitVec 32) (calls : List PacketCall) : Prop where
  clock : calls.Pairwise fun earlier call => earlier.clock.seconds ≤ call.clock.seconds
  day : ∀ call ∈ calls, isOffHours call.clock.hour = false
  trackers : Granted src calls
  alerts : ∀ call ∈ calls, call.flow.srcAddr.word0 = src → call.flow.dstAddr.word0 = dst →
    call.grants.alert .dataExfil 0 = true

section Exact

variable {src dst : BitVec 32} {calls : List PacketCall} {monitor : Monitor}
variable {counter : BitVec 64 → BitVec 64} {trace : List Inspected}

theorem transferWindow_append {earlier : List PacketCall} {call : PacketCall}
    (own : call.transfers src dst = true) :
    transferWindow src dst (earlier ++ [call]) =
      extendTransfer (transferWindow src dst earlier) call := by
  rw [transferWindow, List.filter_append, List.filter_cons_of_pos own, List.foldl_append]
  rfl

theorem filter_transfers (earlier : List PacketCall) :
    (ofSource src earlier).filter (PacketCall.transfers src dst) =
      earlier.filter (PacketCall.transfers src dst) := by
  rw [ofSource, List.filter_filter]
  apply List.filter_congr
  intro call _
  rw [Bool.and_eq_left_iff_imp]
  exact fun own => decide_eq_true (transfers_iff.mp own).1.1

/-- One alert for the packet that brings the bytes of a window to the threshold, if the macro
takes the destination for an external one, and none for any other. -/
theorem Daytime.length_exfilAlertsFor (daytime : Daytime src dst calls)
    (new : monitor.detector = {}) {earlier later : List Inspected} {inspected : Inspected}
    (ran : monitor.run counter calls = .ok (earlier ++ inspected :: later)) :
    (exfilAlertsFor src dst inspected).length =
      if isExternalIp dst = true ∧
        ReachesThreshold src dst (earlier.map Inspected.call) inspected.call then 1 else 0 := by
  have calls_eq := Monitor.run_calls ran
  rw [List.map_append, List.map_cons] at calls_eq
  have forward : Forward src calls := by
    apply daytime.clock.imp
    exact fun order _ => order
  have member : inspected.call ∈ calls := by
    rw [← calls_eq]
    simp
  rw [exfilAlertsFor]
  split
  next own =>
    obtain ⟨now, shadows, before⟩ := @Watched.shadows src monitor new calls
    have seen := shadows.run_observed ran before forward daytime.trackers own.1
    have sends := @Alone.after_sends src dst (ofSource src (earlier.map Inspected.call))
      (fun call member => of_decide_eq_true (List.mem_filter.mp member).2)
      (fun call member => daytime.day call (by
        rw [← calls_eq]
        exact List.mem_append_left _ (List.mem_filter.mp member).1)) {} [] rfl
    rw [filter_transfers, ← transferWindow] at sends
    generalize Alone.after {} (ofSource src (earlier.map Inspected.call)) = alone at *
    have alerts : alertsOf 9002 inspected.raised =
        findingAlerts (inspected.call.grants.alert .dataExfil 0) inspected.call.clock.now
          exfilRule inspected.call.flow
          (inspected.call.exfilCell (alone.exfil inspected.call.flow.dstAddr.word0)).2 :=
      congrArg Observed.exfilAlerts seen
    rw [alerts, findingAlerts, if_pos (daytime.alerts _ member own.1 own.2), List.length_map,
      own.2]
    by_cases sent : inspected.call.packetLen > 0
    · have transfers : inspected.call.transfers src dst = true :=
        transfers_iff.mpr ⟨own, sent⟩
      have found := (sends.extend (daytime.day _ member) own.2 sent).2
      rw [← transferWindow_append transfers] at found
      cases finding : (inspected.call.exfilCell (alone.exfil dst)).2 with
      | none =>
          rw [finding] at found
          rw [if_neg fun both => Bool.false_ne_true (found.mpr ⟨both.1, both.2.2⟩)]
          rfl
      | some detail =>
          rw [finding] at found
          have both := found.mp rfl
          rw [if_pos ⟨both.1, transfers, both.2⟩]
          rfl
    · have transfers : ¬ inspected.call.transfers src dst = true := fun counted =>
        sent (transfers_iff.mp counted).2
      rw [PacketCall.exfilCell, if_neg sent, if_neg fun both => transfers both.2.1]
      rfl
  next other =>
    have transfers : ¬ inspected.call.transfers src dst = true := fun counted =>
      other (transfers_iff.mp counted).1
    rw [if_neg fun both => transfers both.2.1]
    rfl

theorem sentBytes_le_append (window more : List PacketCall) :
    sentBytes window ≤ sentBytes (window ++ more) := by
  rw [sentBytes, sentBytes, List.map_append, List.sum_append]
  exact Nat.le_add_right _ _

/-- Two packets that reach the threshold are in different windows. -/
theorem ReachesThreshold.later_window {earlier between : List PacketCall}
    {first second : PacketCall} (reaches : ReachesThreshold src dst earlier first)
    (reaches' : ReachesThreshold src dst (earlier ++ first :: between) second) :
    (transferWindow src dst (earlier ++ first :: (between ++ [second]))).length ≤
      (between ++ [second]).length := by
  obtain ⟨-, many, -⟩ := reaches
  obtain ⟨own, -, fewer⟩ := reaches'
  exact windowOf_apart sentBytes_le_append many own fewer

end Exact

/-- In a run, a pair has one alert for the packet that brings the bytes of its window to the
threshold if the destination is external, and no other, so at most one in a window. -/
structure ExfilLaw (src dst : BitVec 32) (trace : List Inspected) : Prop where
  alerts : ∀ earlier inspected later, trace = earlier ++ inspected :: later →
    (exfilAlertsFor src dst inspected).length =
      if ¬ IsPrivate dst ∧
        ReachesThreshold src dst (earlier.map Inspected.call) inspected.call then 1 else 0
  once : ∀ earlier first between second later,
    trace = earlier ++ first :: (between ++ second :: later) →
    exfilAlertsFor src dst first ≠ [] → exfilAlertsFor src dst second ≠ [] →
    (transferWindow src dst ((earlier ++ first :: (between ++ [second])).map
      Inspected.call)).length ≤ (between ++ [second]).length

/-- In every run by day the law holds of a pair exactly if the destination is not in one of the
four ranges on which the macro errs, or no packet brings the bytes of a window to the
threshold. -/
theorem exfil_law_iff (src dst : BitVec 32) {monitor : Monitor} (new : monitor.detector = {})
    {calls : List PacketCall} (daytime : Daytime src dst calls)
    {counter : BitVec 64 → BitVec 64} {trace : List Inspected}
    (ran : monitor.run counter calls = .ok trace) :
    ExfilLaw src dst trace ↔ ¬ Misjudged dst ∨
      ∀ earlier inspected later, trace = earlier ++ inspected :: later →
        ¬ ReachesThreshold src dst (earlier.map Inspected.call) inspected.call := by
  have code : ∀ earlier inspected later, trace = earlier ++ inspected :: later →
      (exfilAlertsFor src dst inspected).length =
        if isExternalIp dst = true ∧
          ReachesThreshold src dst (earlier.map Inspected.call) inspected.call then 1 else 0 := by
    rintro earlier inspected later rfl
    exact daytime.length_exfilAlertsFor new ran
  constructor
  · intro law
    by_cases misjudged : Misjudged dst
    · refine Or.inr fun earlier inspected later split reaches => ?_
      refine (isExternalIp_agrees_iff dst).mp ?_ misjudged
      have both := (code earlier inspected later split).symm.trans
        (law.alerts earlier inspected later split)
      simp only [reaches, and_true] at both
      by_cases external : isExternalIp dst = true <;> by_cases inner : IsPrivate dst <;>
        simp [external, inner] at both ⊢
    · exact Or.inl misjudged
  · intro condition
    have alerts : ∀ earlier inspected later, trace = earlier ++ inspected :: later →
        (exfilAlertsFor src dst inspected).length =
          if ¬ IsPrivate dst ∧
            ReachesThreshold src dst (earlier.map Inspected.call) inspected.call then 1
          else 0 := by
      intro earlier inspected later split
      rw [code earlier inspected later split]
      rcases condition with judged | below
      · have agrees := (isExternalIp_agrees_iff dst).mpr judged
        simp only [agrees]
      · have never := below earlier inspected later split
        rw [if_neg fun both => never both.2, if_neg fun both => never both.2]
    refine ⟨alerts, ?_⟩
    refine raised_apart (ReachesThreshold src dst)
      (fun calls => (transferWindow src dst calls).length)
      (fun before inspected after split alert => ?_) ReachesThreshold.later_window
    by_contra below
    have none := alerts before inspected after split
    rw [if_neg fun both => below both.2] at none
    exact alert (List.length_eq_zero_iff.mp none)

/-- A packet by day from 10.0.0.5. -/
def upload (dst length : BitVec 32) : PacketCall where
  clock := ⟨0, 12⟩
  flow :=
    { id := 0, useCnt := 1, proto := IPPROTO_TCP, flags := FLOW_IPV4
      srcAddr := { word0 := 0x0500000A }, dstAddr := { word0 := dst } }
  packetLen := length
  tcpFlags := none

/-- 120 MB to 8.8.8.8. -/
theorem exfil_law_external :
    ∃ trace, Monitor.run id {}
        [upload 0x08080808 62914560, upload 0x08080808 62914560] = .ok trace ∧
      (ExfilLaw 0x0500000A 0x08080808 trace ↔ ¬ Misjudged 0x08080808 ∨
        ∀ earlier inspected later, trace = earlier ++ inspected :: later →
          ¬ ReachesThreshold 0x0500000A 0x08080808 (earlier.map Inspected.call)
            inspected.call) := by
  have readable : (upload 0x08080808 62914560).Readable := ⟨nofun, nofun, nofun⟩
  obtain ⟨trace, ran⟩ := (Monitor.run_ok_iff id {}
      [upload 0x08080808 62914560, upload 0x08080808 62914560]).mpr
    (List.forall_mem_cons.mpr ⟨readable, List.forall_mem_singleton.mpr readable⟩)
  refine ⟨trace, ran, exfil_law_iff 0x0500000A 0x08080808 rfl ⟨?_, ?_, ?_, ?_⟩ ran⟩
  · exact List.pairwise_pair.mpr le_rfl
  · exact List.forall_mem_cons.mpr ⟨rfl, List.forall_mem_singleton.mpr rfl⟩
  · exact List.forall_mem_cons.mpr
      ⟨fun _ => ⟨rfl, rfl⟩, List.forall_mem_singleton.mpr fun _ => ⟨rfl, rfl⟩⟩
  · exact List.forall_mem_cons.mpr
      ⟨fun _ _ => rfl, List.forall_mem_singleton.mpr fun _ _ => rfl⟩

/-- 100 MB to 192.168.1.2 raise an alert. -/
theorem private_transfer_alerts :
    ∃ trace, Monitor.run id {} [upload 0x0201A8C0 104857600] = .ok trace ∧
      Daytime 0x0500000A 0x0201A8C0 [upload 0x0201A8C0 104857600] ∧ IsPrivate 0x0201A8C0 ∧
      trace.map (fun inspected => (exfilAlertsFor 0x0500000A 0x0201A8C0 inspected).length) =
        [1] ∧ ¬ ExfilLaw 0x0500000A 0x0201A8C0 trace := by
  have daytime : Daytime 0x0500000A 0x0201A8C0 [upload 0x0201A8C0 104857600] := by
    refine ⟨List.pairwise_singleton _ _, ?_, ?_, ?_⟩
    · exact List.forall_mem_singleton.mpr rfl
    · exact List.forall_mem_singleton.mpr fun _ => ⟨rfl, rfl⟩
    · exact List.forall_mem_singleton.mpr fun _ _ => rfl
  have inner : IsPrivate 0x0201A8C0 := by decide
  obtain ⟨trace, ran⟩ := (Monitor.run_ok_iff id {} [upload 0x0201A8C0 104857600]).mpr
    (List.forall_mem_singleton.mpr ⟨nofun, nofun, nofun⟩)
  have calls := Monitor.run_calls ran
  obtain ⟨inspected, rfl, call⟩ := List.map_eq_singleton_iff.mp calls
  have raised := @Daytime.length_exfilAlertsFor _ _ _ _ _ daytime rfl [] [] inspected ran
  have reaches : isExternalIp 0x0201A8C0 = true ∧ ReachesThreshold 0x0500000A 0x0201A8C0
      (([] : List Inspected).map Inspected.call) inspected.call := by
    rw [call]
    decide +kernel
  rw [if_pos reaches] at raised
  refine ⟨[inspected], ran, daytime, inner, ?_, fun law => ?_⟩
  · rw [List.map_singleton, raised]
  · have lawful := law.alerts [] inspected [] rfl
    rw [if_neg fun both => both.1 inner, raised] at lawful
    exact absurd lawful (by decide)

end NetDefender.Behavior
