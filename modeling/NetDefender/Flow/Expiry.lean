import NetDefender.Flow.Handles
import NetDefender.Lib.Chain

/-!
# Removing expired flows

`flow_cleanup_expired` as it works in memory: every bucket points to a chain of flows,
and the loop unlinks the expired ones in place.  On a memory that represents a flow
table it does what `flowCleanupExpired` does to the table.  Which flows expire depends
on an age of 32 unsigned bits, so it is not always what the clock says.
-/

namespace NetDefender.Flows

open NetDefender.Stream NetDefender.Chain

/-! ## The walk in memory -/

/-- The globals of the module, the flows by their address, and their `next` pointers. -/
structure FlowMemory where
  config : FlowConfig
  stream : StreamConfig
  heads : List (Option Nat)
  next : Nat → Option Nat
  flows : Nat → Flow
  stats : FlowStats
  reassembly : ReassemblyStats
  nextId : Nat

/-- What the loop of `flow_cleanup_expired` updates besides the chains. -/
structure Cleanup where
  removed : Nat
  stats : FlowStats
  reassembly : ReassemblyStats
  deriving DecidableEq, Repr

/-- `flow_free` and the counters, for a flow that has been unlinked. -/
def Cleanup.dispose (flows : Nat → Flow) (acc : Cleanup) (flow : Nat) : Cleanup where
  removed := acc.removed + 1
  stats :=
    { acc.stats with
      flowsRemoved := acc.stats.flowsRemoved + 1
      flowsTimeout := acc.stats.flowsTimeout + 1
      flowsActive := acc.stats.flowsActive - 1 }
  reassembly := flowFree acc.reassembly (flows flow)

/-- `flow_cleanup_expired` on the memory; the chains are walked for a number of turns
each. -/
def FlowMemory.cleanupExpired (now : BitVec 64) (turns : Nat) (mem : FlowMemory) :
    Nat × FlowMemory :=
  let (heads, next, acc) :=
    sweepAll (fun flow => shouldRemove now (mem.flows flow)) (Cleanup.dispose mem.flows)
      turns mem.heads mem.next ⟨0, mem.stats, mem.reassembly⟩
  (acc.removed,
    { mem with heads, next, stats := acc.stats, reassembly := acc.reassembly })

/-- The memory holds the flow table: every bucket points to the chain of its flows, and
no two flows are in one place. -/
structure FlowMemory.Represents (mem : FlowMemory) (table : FlowTable) : Prop where
  config : mem.config = table.config
  stream : mem.stream = table.stream
  stats : mem.stats = table.stats
  reassembly : mem.reassembly = table.reassembly
  nextId : mem.nextId = table.nextId
  chains : List.Forall₂ (Linked mem.next) mem.heads
    (table.buckets.map (List.map Flow.id))
  objects : ∀ flow ∈ table.flows, mem.flows flow.id = flow
  distinct : (table.flows.map Flow.id).Nodup

section Walk

variable {mem : FlowMemory} {table : FlowTable}

/-- Disposing of one flow after the other adds up to the update of the whole table. -/
theorem Cleanup.dispose_all {flows : Nat → Flow} (acc : Cleanup) {expired : List Flow}
    (objects : ∀ flow ∈ expired, flows flow.id = flow) :
    (expired.map Flow.id).foldl (Cleanup.dispose flows) acc =
      { removed := acc.removed + expired.length
        stats :=
          { acc.stats with
            flowsRemoved := acc.stats.flowsRemoved + BitVec.ofNat 64 expired.length
            flowsTimeout := acc.stats.flowsTimeout + BitVec.ofNat 64 expired.length
            flowsActive := acc.stats.flowsActive - BitVec.ofNat 64 expired.length }
        reassembly := expired.foldl flowFree acc.reassembly } := by
  induction expired generalizing acc with
  | nil => simp
  | cons flow rest ih =>
      have here := objects flow List.mem_cons_self
      rw [List.map_cons, List.foldl_cons,
        ih _ fun later member => objects later (List.mem_cons_of_mem _ member)]
      have one : BitVec.ofNat 64 (rest.length + 1) = 1 + BitVec.ofNat 64 rest.length := by
        rw [Nat.add_comm]
        exact BitVec.ofNat_add ..
      simp only [Cleanup.dispose, here, List.length_cons, List.foldl_cons, one,
        BitVec.add_assoc, BitVec.sub_sub, Nat.add_assoc, Nat.add_comm 1]

/-- The buckets of a table are read off the memory that holds it. -/
theorem FlowMemory.Represents.buckets_eq {other : FlowTable}
    (represents : mem.Represents table) (represents' : mem.Represents other) :
    table.buckets = other.buckets := by
  have read {table : FlowTable} (represents : mem.Represents table) :
      (table.buckets.map (List.map Flow.id)).map (List.map mem.flows) = table.buckets := by
    rw [List.map_map]
    conv_rhs => rw [← List.map_id table.buckets]
    apply List.map_congr_left
    intro bucket member
    rw [Function.comp_apply, List.map_map]
    conv_rhs => rw [id, ← List.map_id bucket]
    apply List.map_congr_left
    intro flow inBucket
    exact represents.objects flow (List.mem_flatten_of_mem member inBucket)
  rw [← read represents, ← read represents',
    List.right_unique_forall₂' Linked.unique represents.chains represents'.chains]

/-- The walk over the chains does to the memory what `flowCleanupExpired` does to the
table. -/
theorem FlowMemory.Represents.cleanupExpired (represents : mem.Represents table)
    (now : BitVec 64) (turns : Nat) (enough : ∀ bucket ∈ table.buckets, bucket.length ≤ turns) :
    (mem.cleanupExpired now turns).1 = (flowCleanupExpired now table).1 ∧
      (mem.cleanupExpired now turns).2.Represents (flowCleanupExpired now table).2 := by
  have flat : (table.buckets.map (List.map Flow.id)).flatten = table.flows.map Flow.id :=
    List.map_flatten.symm
  have told : ∀ flow ∈ table.flows,
      shouldRemove now (mem.flows flow.id) = shouldRemove now flow := fun flow member =>
    congrArg (shouldRemove now) (represents.objects flow member)
  have gone : (table.flows.map Flow.id).filter
      (fun id => shouldRemove now (mem.flows id)) =
        (table.flows.filter (shouldRemove now)).map Flow.id := by
    rw [List.filter_map]
    congr 1
    exact List.filter_congr fun flow member => told flow member
  have swept : SweptAll (fun flow => shouldRemove now (mem.flows flow))
      (Cleanup.dispose mem.flows) mem.next ⟨0, mem.stats, mem.reassembly⟩
      (table.buckets.map (List.map Flow.id)) _ :=
    sweepAll_chains turns _ represents.chains (flat ▸ represents.distinct) (by
      intro cells member
      obtain ⟨bucket, inTable, rfl⟩ := List.mem_map.mp member
      rw [List.length_map]
      exact enough bucket inTable)
  unfold FlowMemory.cleanupExpired
  generalize sweepAll _ _ turns mem.heads mem.next _ = result at swept ⊢
  obtain ⟨heads, next, acc⟩ := result
  have acc_eq : acc = _ := swept.disposed
  rw [flat, gone, Cleanup.dispose_all _ fun flow member =>
    represents.objects flow (List.mem_of_mem_filter member)] at acc_eq
  subst acc_eq
  have sublist : (flowCleanupExpired now table).2.flows.Sublist table.flows := by
    rw [table.cleanup_flows]
    exact List.filter_sublist
  refine ⟨Nat.zero_add _, ?_⟩
  constructor
  case config => exact represents.config
  case stream => exact represents.stream
  case stats => rw [represents.stats]; rfl
  case reassembly => rw [represents.reassembly]; rfl
  case nextId => exact represents.nextId
  case chains =>
    have kept : (table.buckets.map (List.map Flow.id)).map
        (List.filter fun id => !shouldRemove now (mem.flows id)) =
          (flowCleanupExpired now table).2.buckets.map (List.map Flow.id) := by
      simp only [flowCleanupExpired, List.map_map]
      apply List.map_congr_left
      intro bucket member
      simp only [Function.comp_apply, List.filter_map]
      congr 1
      apply List.filter_congr
      intro flow inBucket
      exact congrArg not (told flow (List.mem_flatten_of_mem member inBucket))
    exact kept ▸ swept.linked
  case objects => exact fun flow member => represents.objects flow (sublist.subset member)
  case distinct => exact represents.distinct.sublist (sublist.map _)

end Walk

/-! ## What has expired by the clock -/

/-- The seconds from the last packet of a flow on, in the integers: negative if the
clock has been set back since. -/
def Flow.elapsed (now : BitVec 64) (flow : Flow) : Int :=
  now.toInt - flow.lastTs.toInt

/-- No one holds the flow, and more time has passed than its timeout. -/
def Flow.Overdue (now : BitVec 64) (flow : Flow) : Prop :=
  flow.useCnt = 0 ∧ (flow.timeoutPolicy.toNat : Int) < flow.elapsed now

instance (now : BitVec 64) (flow : Flow) : Decidable (flow.Overdue now) :=
  inferInstanceAs (Decidable (_ ∧ _))

/-- The memory that is left holds the flows that are not overdue, in their order in every
bucket, and the others have been counted. -/
def FlowMemory.RemovesOverdue (now : BitVec 64) (table : FlowTable)
    (result : Nat × FlowMemory) : Prop :=
  let removed := (table.flows.filter fun flow => flow.Overdue now).length
  ∃ after, result.2.Represents after ∧ result.1 = removed ∧
    after.buckets = table.buckets.map (List.filter fun flow => ¬ flow.Overdue now) ∧
    after.stats.flowsRemoved = table.stats.flowsRemoved + BitVec.ofNat 64 removed ∧
    after.stats.flowsTimeout = table.stats.flowsTimeout + BitVec.ofNat 64 removed ∧
    after.stats.flowsActive = table.stats.flowsActive - BitVec.ofNat 64 removed

/-- The age that fits into 32 unsigned bits tells the same as the clock: if the clock has
been set back, the negative difference does not wrap around to more than the timeout,
and if 2^32 seconds have passed, what is left of them is still more than the timeout. -/
def Flow.AgeAgrees (now : BitVec 64) (flow : Flow) : Prop :=
  (flow.elapsed now < 0 →
    flow.elapsed now % 4294967296 ≤ (flow.timeoutPolicy.toNat : Int)) ∧
  (4294967296 ≤ flow.elapsed now →
    (flow.timeoutPolicy.toNat : Int) < flow.elapsed now % 4294967296)

theorem Flow.age_eq_elapsed (now : BitVec 64) (flow : Flow) :
    ((flow.age now).toNat : Int) = flow.elapsed now % 4294967296 := by
  simp only [Flow.age, Flow.elapsed, BitVec.toNat_setWidth, BitVec.toNat_sub,
    BitVec.toInt_eq_toNat_cond]
  omega

theorem Flow.ageAgrees_iff (now : BitVec 64) (flow : Flow) (free : flow.useCnt = 0) :
    flow.AgeAgrees now ↔ (shouldRemove now flow = true ↔ flow.Overdue now) := by
  have age := flow.age_eq_elapsed now
  have bound := flow.timeoutPolicy.isLt
  rw [shouldRemove_iff, Flow.Overdue, Flow.AgeAgrees, BitVec.lt_def]
  simp only [free, true_and]
  omega

/-- Two tests leave the same of a list of lists only if they agree on its members. -/
theorem filter_buckets_inj {keep keep' : Flow → Bool} {buckets : List (List Flow)}
    (same : buckets.map (List.filter keep) = buckets.map (List.filter keep')) :
    ∀ flow ∈ buckets.flatten, keep flow = keep' flow := by
  intro flow member
  obtain ⟨bucket, inTable, inBucket⟩ := List.mem_flatten.mp member
  have filtered : bucket.filter keep = bucket.filter keep' :=
    List.map_inj_left.mp same bucket inTable
  rw [Bool.eq_iff_iff]
  constructor
  · intro kept
    have survives : flow ∈ bucket.filter keep := List.mem_filter.mpr ⟨inBucket, kept⟩
    rw [filtered] at survives
    exact (List.mem_filter.mp survives).2
  · intro kept
    have survives : flow ∈ bucket.filter keep' := List.mem_filter.mpr ⟨inBucket, kept⟩
    rw [← filtered] at survives
    exact (List.mem_filter.mp survives).2

section Clock

variable {now : BitVec 64} {mem : FlowMemory} {table : FlowTable}

/-- If what is left are the flows that are not overdue, every age told the same as the
clock. -/
theorem FlowMemory.Represents.agrees (represents : mem.Represents table) (turns : Nat)
    (enough : ∀ bucket ∈ table.buckets, bucket.length ≤ turns)
    (removes : RemovesOverdue now table (mem.cleanupExpired now turns)) :
    ∀ flow ∈ table.flows, flow.useCnt = 0 → flow.AgeAgrees now := by
  intro flow member free
  obtain ⟨after, holds, -, buckets, -⟩ := removes
  have same := (represents.cleanupExpired now turns enough).2.buckets_eq holds
  rw [buckets] at same
  have agree := filter_buckets_inj same flow member
  rw [flow.ageAgrees_iff now free, ← decide_eq_true_iff (p := flow.Overdue now),
    ← Bool.eq_iff_iff, ← Bool.not_inj_iff, ← decide_not]
  exact agree

theorem shouldRemove_eq_overdue {flow : Flow}
    (agrees : flow.useCnt = 0 → flow.AgeAgrees now) :
    shouldRemove now flow = decide (flow.Overdue now) := by
  rw [Bool.eq_iff_iff, decide_eq_true_iff]
  by_cases free : flow.useCnt = 0
  · exact (flow.ageAgrees_iff now free).mp (agrees free)
  · rw [shouldRemove_iff]
    exact ⟨fun expired => absurd expired.1 free, fun overdue => absurd overdue.1 free⟩

end Clock

/-- `flow_cleanup_expired` removes exactly the flows that no one holds and that are
overdue by the clock, and counts them, if and only if the age of every flow that no one
holds tells the same as the clock. -/
theorem cleanup_removes_overdue_iff (now : BitVec 64) (turns : Nat) (mem : FlowMemory)
    (table : FlowTable) (represents : mem.Represents table)
    (enough : ∀ bucket ∈ table.buckets, bucket.length ≤ turns) :
    FlowMemory.RemovesOverdue now table (mem.cleanupExpired now turns) ↔
      ∀ flow ∈ table.flows, flow.useCnt = 0 → flow.AgeAgrees now := by
  constructor
  · exact represents.agrees turns enough
  · intro agrees
    obtain ⟨count, left⟩ := represents.cleanupExpired now turns enough
    have same : ∀ flow ∈ table.flows, shouldRemove now flow = decide (flow.Overdue now) :=
      fun flow member => shouldRemove_eq_overdue (agrees flow member)
    have removed : table.flows.filter (shouldRemove now) =
        table.flows.filter fun flow => flow.Overdue now := List.filter_congr same
    have kept : (flowCleanupExpired now table).2.buckets =
        table.buckets.map (List.filter fun flow => ¬ flow.Overdue now) := by
      apply List.map_congr_left
      intro bucket member
      apply List.filter_congr
      intro flow inBucket
      rw [same flow (List.mem_flatten_of_mem member inBucket), decide_not]
    refine ⟨_, left, ?_, kept, ?_⟩
    · rw [count, ← removed]
      rfl
    · rw [← removed]
      exact ⟨rfl, rfl, rfl⟩

/-- A flow that was last seen, and released, at second 1000, alone in its table. -/
def releasedFlow : Flow where
  id := 0
  srcAddr := { word0 := 1 }
  dstAddr := { word0 := 2 }
  srcPort := 4000
  dstPort := 53
  proto := 17
  flags := FLOW_IPV4
  startTs := 1000
  lastTs := 1000
  timeoutPolicy := 30
  useCnt := 0

def releasedTable : FlowTable where
  config := { hashSize := 1, maxFlows := 8, timeoutNew := 30, timeoutEst := 3600 }
  stream := .default
  buckets := [[releasedFlow]]
  stats := { flowsCreated := 1, flowsActive := 1 }
  reassembly := {}
  nextId := 1

/-- The table as it lies in memory. -/
def releasedMemory : FlowMemory where
  config := releasedTable.config
  stream := releasedTable.stream
  heads := [some 0]
  next := fun _ => none
  flows := fun _ => releasedFlow
  stats := releasedTable.stats
  reassembly := releasedTable.reassembly
  nextId := 1

/-- The packet that the flow was created for. -/
def releasedPacket : Packet where
  ipVersion := 4
  ipProto := 17
  srcAddr := { word0 := 1 }
  dstAddr := { word0 := 2 }
  srcPort := 4000
  dstPort := 53

theorem releasedTable_reached :
    ((flowInit .default {} 1 8 true).map fun table =>
      runTable (fun _ => 0) table [.get {} 1000 releasedPacket, .release 0]) =
        some (.ok releasedTable) := by
  rfl

theorem releasedMemory_represents : releasedMemory.Represents releasedTable := by
  constructor
  case config => rfl
  case stream => rfl
  case stats => rfl
  case reassembly => rfl
  case nextId => rfl
  case chains => exact .cons ⟨rfl, rfl⟩ .nil
  case objects => simp [FlowTable.flows, releasedTable, releasedMemory]
  case distinct => simp [FlowTable.flows, releasedTable]

/-- Forty seconds later the flow is removed, as it should be. -/
theorem released_flow_expires :
    FlowMemory.RemovesOverdue 1040 releasedTable (releasedMemory.cleanupExpired 1040 1) :=
  (cleanup_removes_overdue_iff 1040 1 releasedMemory releasedTable
    releasedMemory_represents (by simp [releasedTable])).mpr (by
      simp [FlowTable.flows, releasedTable, Flow.AgeAgrees, Flow.elapsed, releasedFlow])

/-- The clock is set back by ten seconds after the flow was released; its age wraps
around and the flow is removed. -/
theorem clock_set_back_removes_flow :
    ((flowInit .default {} 1 8 true).map fun table =>
      runTable (fun _ => 0) table [.get {} 1000 releasedPacket, .release 0]) =
        some (.ok releasedTable) ∧
    releasedMemory.Represents releasedTable ∧
    ¬ FlowMemory.RemovesOverdue 990 releasedTable (releasedMemory.cleanupExpired 990 1) := by
  refine ⟨releasedTable_reached, releasedMemory_represents, fun removes => ?_⟩
  have agrees := releasedMemory_represents.agrees 1 (by simp [releasedTable]) removes
    releasedFlow (by simp [FlowTable.flows, releasedTable]) rfl
  have wrapped := agrees.1 (by decide)
  revert wrapped
  decide

end NetDefender.Flows
