import NetDefender.Flow.Table
import NetDefender.Flow.Updates

/-!
# The accounts of the flow table

Two kinds of counts: the statistics, which have to agree with the flows that are in
the buckets, and `use_cnt`, which has to agree with the handles that the callers of
`flow_get` still hold.  Both are invariants of whole runs, whatever the hash
function and whichever allocations fail.  Uniqueness of the tuples comes with them:
it rests on every flow being stored under the hash of its own tuple, in the bucket
of that hash.
-/

namespace NetDefender.Flows

open NetDefender.Stream

/-! ## Tuples -/

/-- IP version, endpoints and protocol of a flow; version 0 stands for neither
`FLOW_IPV4` nor `FLOW_IPV6`. -/
structure FlowTuple where
  ipVersion : BitVec 8
  srcAddr : FlowAddress
  dstAddr : FlowAddress
  srcPort : BitVec 16
  dstPort : BitVec 16
  proto : BitVec 8
  deriving DecidableEq, Repr

def FlowKey.tuple (key : FlowKey) : FlowTuple where
  ipVersion := if key.ipv4 then 4 else if key.ipv6 then 6 else 0
  srcAddr := key.srcAddr
  dstAddr := key.dstAddr
  srcPort := key.srcPort
  dstPort := key.dstPort
  proto := key.proto

def Flow.tuple (flow : Flow) : FlowTuple := flow.key.tuple

/-- A packet with this tuple. -/
def FlowTuple.packet (tuple : FlowTuple) : Packet where
  ipVersion := tuple.ipVersion
  ipProto := tuple.proto
  srcAddr := tuple.srcAddr
  dstAddr := tuple.dstAddr
  srcPort := tuple.srcPort
  dstPort := tuple.dstPort

/-- The tuple that `flow_get` stores for a packet. -/
def Packet.tuple (pkt : Packet) : FlowTuple :=
  let ends (ipVersion : BitVec 8) (srcAddr dstAddr : FlowAddress) : FlowTuple :=
    ⟨ipVersion, srcAddr, dstAddr, pkt.srcPort, pkt.dstPort, pkt.ipProto⟩
  if pkt.ipVersion = 4 then
    ends 4 { word0 := pkt.srcAddr.word0 } { word0 := pkt.dstAddr.word0 }
  else if pkt.ipVersion = 6 then ends 6 pkt.srcAddr pkt.dstAddr
  else ends 0 {} {}

/-- Two flows are told apart by their tuples, unless they have no IP version. -/
def FlowKey.Apart (left right : FlowKey) : Prop :=
  left.tuple = right.tuple → left.tuple.ipVersion = 0

theorem FlowKey.Apart.symm {left right : FlowKey} (apart : left.Apart right) :
    right.Apart left := by
  intro same
  rw [same]
  exact apart same.symm

/-- What the key of a flow keeps from its creation: at most one version, and the
hash of its own tuple. -/
structure FlowKey.Genuine (rteHashCrc : List (BitVec 32) → BitVec 32)
    (key : FlowKey) : Prop where
  oneVersion : ¬(key.ipv4 ∧ key.ipv6)
  hashed : key.hash = flowHashCalculate rteHashCrc key.tuple.packet

section NewTuple

variable (config : FlowConfig) (alloc : FlowAllocation) (now : BitVec 64) (id : Nat)
variable (hash : BitVec 32) (pkt : Packet)

/-- The version flags of a new flow and the tuple stored in it. -/
theorem newFlow_tuple :
    (newFlow config alloc now id hash pkt).key.ipv4 = decide (pkt.ipVersion = 4) ∧
      (newFlow config alloc now id hash pkt).key.ipv6 = decide (pkt.ipVersion = 6) ∧
      (newFlow config alloc now id hash pkt).key.tuple = pkt.tuple := by
  by_cases four : pkt.ipVersion = 4
  · simp only [newFlow, flowAlloc, Flow.key, FlowKey.tuple, Packet.tuple, if_pos four]
    rw [four]
    exact ⟨rfl, rfl, rfl⟩
  · by_cases six : pkt.ipVersion = 6
    · simp only [newFlow, flowAlloc, Flow.key, FlowKey.tuple, Packet.tuple,
        if_neg four, if_pos six]
      rw [six]
      exact ⟨rfl, rfl, rfl⟩
    · simp only [newFlow, flowAlloc, Flow.key, FlowKey.tuple, Packet.tuple,
        if_neg four, if_neg six, decide_eq_false four, decide_eq_false six]
      exact ⟨rfl, rfl, rfl⟩

variable (rteHashCrc : List (BitVec 32) → BitVec 32)

/-- The hash of a packet is that of its tuple. -/
theorem flowHashCalculate_tuple :
    flowHashCalculate rteHashCrc pkt.tuple.packet =
      flowHashCalculate rteHashCrc pkt := by
  simp only [flowHashCalculate, hashInput, Packet.tuple, FlowTuple.packet]
  by_cases four : pkt.ipVersion = 4
  · simp only [if_pos four]
    rfl
  · by_cases six : pkt.ipVersion = 6
    · simp only [if_neg four, if_pos six]
      rfl
    · simp only [if_neg four, if_neg six]
      rfl

theorem newFlow_genuine :
    (newFlow config alloc now id (flowHashCalculate rteHashCrc pkt)
      pkt).key.Genuine rteHashCrc := by
  obtain ⟨four, six, tuple⟩ := newFlow_tuple config alloc now id
    (flowHashCalculate rteHashCrc pkt) pkt
  constructor
  · rw [four, six]
    simp only [decide_eq_true_eq]
    rintro ⟨isFour, isSix⟩
    rw [isFour] at isSix
    cases isSix
  · rw [newFlow_hash, tuple, flowHashCalculate_tuple]

theorem packet_tuple_version : pkt.tuple.ipVersion ≠ 0 ↔ pkt.IsIp := by
  simp only [Packet.tuple, Packet.IsIp]
  by_cases four : pkt.ipVersion = 4
  · rw [if_pos four]
    exact ⟨fun _ => Or.inl four, fun _ => (by decide : (4 : BitVec 8) ≠ 0)⟩
  · by_cases six : pkt.ipVersion = 6
    · rw [if_neg four, if_pos six]
      exact ⟨fun _ => Or.inr six, fun _ => (by decide : (6 : BitVec 8) ≠ 0)⟩
    · rw [if_neg four, if_neg six]
      constructor
      · intro nonzero
        exact absurd rfl nonzero
      · rintro (isFour | isSix)
        · exact absurd isFour four
        · exact absurd isSix six

variable {pkt} {rteHashCrc}

/-- A flow with the tuple of a packet takes the packet. -/
theorem FlowKey.Genuine.finds {key : FlowKey} (genuine : key.Genuine rteHashCrc)
    (isIp : pkt.IsIp) (same : key.tuple = pkt.tuple) :
    key.hash = flowHashCalculate rteHashCrc pkt ∧ key.Matches pkt := by
  refine ⟨by rw [genuine.hashed, same, flowHashCalculate_tuple], ?_⟩
  obtain ⟨id, srcAddr, dstAddr, srcPort, dstPort, proto, ipv4, ipv6, hash⟩ := key
  have once := genuine.oneVersion
  rcases isIp with version | version
  · simp only [FlowKey.tuple, Packet.tuple, version, if_true, FlowTuple.mk.injEq] at same
    obtain ⟨ip, rfl, rfl, rfl, rfl, rfl⟩ := same
    cases ipv4 <;> cases ipv6 <;>
      simp_all [FlowKey.Matches, FlowKey.Ends, FlowKey.Forward, sameAddress]
  · have other : (6 : BitVec 8) ≠ 4 := by decide
    simp only [FlowKey.tuple, Packet.tuple, version, if_neg other, if_true,
      FlowTuple.mk.injEq] at same
    obtain ⟨ip, rfl, rfl, rfl, rfl, rfl⟩ := same
    cases ipv4 <;> cases ipv6 <;>
      simp_all [FlowKey.Matches, FlowKey.Ends, FlowKey.Forward, sameAddress]

end NewTuple

/-! ## The flows of a table -/

/-- The flows of all buckets. -/
def FlowTable.flows (table : FlowTable) : List Flow := table.buckets.flatten

theorem FlowTable.keys_flatten (table : FlowTable) :
    table.keys.flatten = table.flows.map Flow.key := by
  rw [FlowTable.keys, FlowTable.flows, List.map_flatten]

/-- The flow with the identity changed, every other flow as it is. -/
def changeFlow (id : Nat) (change : Flow → Flow) (flow : Flow) : Flow :=
  if flow.id = id then change flow else flow

theorem FlowTable.modify_flows (table : FlowTable) (id : Nat) (change : Flow → Flow) :
    (table.modify id change).flows = table.flows.map (changeFlow id change) :=
  List.map_flatten.symm

theorem FlowTable.cleanup_flows (table : FlowTable) (now : BitVec 64) :
    (flowCleanupExpired now table).2.flows =
      table.flows.filter fun flow => !shouldRemove now flow :=
  List.filter_flatten.symm

theorem FlowTable.cleanup_keys (table : FlowTable) (now : BitVec 64) :
    (flowCleanupExpired now table).2.keys.flatten.Sublist table.keys.flatten := by
  rw [FlowTable.keys_flatten, FlowTable.keys_flatten, table.cleanup_flows]
  exact List.filter_sublist.map _

theorem changeFlow_other {id : Nat} (change : Flow → Flow) {flows : List Flow}
    (absent : ∀ flow ∈ flows, flow.id ≠ id) :
    flows.map (changeFlow id change) = flows := by
  rw [List.map_congr_left (g := fun flow => flow), List.map_id']
  intro flow member
  exact if_neg (absent flow member)

theorem changeFlow_elsewhere {id : Nat} (change : Flow → Flow)
    {buckets : List (List Flow)} (absent : ∀ flow ∈ buckets.flatten, flow.id ≠ id) :
    buckets.map (List.map (changeFlow id change)) = buckets := by
  rw [List.map_congr_left (g := fun bucket => bucket), List.map_id']
  intro bucket member
  apply changeFlow_other
  intro flow inBucket
  exact absent flow (List.mem_flatten_of_mem member inBucket)

/-- `flow->use_cnt++`. -/
def Flow.retain (flow : Flow) : Flow := { flow with useCnt := flow.useCnt + 1 }

theorem takeFirst_some {test : Flow → Bool} {bucket after : List Flow} {taken : Flow}
    (search : takeFirst test bucket = some (taken, after)) :
    ∃ front flow back, bucket = front ++ flow :: back ∧ taken = flow.retain ∧
      after = front ++ flow.retain :: back := by
  induction bucket generalizing after with
  | nil => cases search
  | cons first rest inductionHypothesis =>
      rw [takeFirst] at search
      split at search
      next =>
        cases search
        exact ⟨[], first, rest, rfl, rfl, rfl⟩
      next =>
        cases tail : takeFirst test rest with
        | none =>
            rw [tail] at search
            cases search
        | some found =>
            rw [tail] at search
            cases search
            obtain ⟨front, flow, back, split, same, rest⟩ := inductionHypothesis tail
            exact ⟨first :: front, flow, back, by rw [split, List.cons_append], same,
              by rw [rest, List.cons_append]⟩

section Buckets

variable {buckets : List (List Flow)} {index : Nat}

/-- Replacing a flow in its bucket changes the flow of that identity in the whole
table. -/
theorem set_changed {front back : List Flow} {flow : Flow} (change : Flow → Flow)
    (found : buckets[index]? = some (front ++ flow :: back))
    (ids : (buckets.flatten.map Flow.id).Nodup) :
    buckets.set index (front ++ change flow :: back) =
      buckets.map (List.map (changeFlow flow.id change)) := by
  obtain ⟨inside, bucketEq⟩ := List.getElem?_eq_some_iff.mp found
  obtain ⟨left, right, split, _, setEq⟩ :=
    @List.exists_of_set _ index (front ++ change flow :: back) buckets inside
  rw [setEq]
  rw [bucketEq] at split
  rw [split] at ids ⊢
  have apart : ∀ other ∈ left.flatten ++ front ++ (back ++ right.flatten),
      other.id ≠ flow.id := by
    have middle : (left ++ (front ++ flow :: back) :: right).flatten.Perm
        (flow :: (left.flatten ++ front ++ (back ++ right.flatten))) := by
      rw [List.flatten_append, List.flatten_cons, List.append_assoc,
        ← List.append_assoc, List.cons_append]
      exact List.perm_middle
    have distinct := (middle.map Flow.id).nodup_iff.mp ids
    rw [List.map_cons, List.nodup_cons] at distinct
    intro other member same
    exact distinct.1 (same ▸ List.mem_map_of_mem member)
  simp only [List.mem_append, or_imp, forall_and] at apart
  rw [List.map_append, List.map_cons, List.map_append, List.map_cons,
    changeFlow_elsewhere change apart.1.1, changeFlow_other change apart.1.2,
    changeFlow_other change apart.2.1, changeFlow_elsewhere change apart.2.2,
    changeFlow, if_pos rfl]

/-- Putting a flow in front of a bucket adds it to the table. -/
theorem set_cons_perm (flow : Flow) {bucket : List Flow}
    (found : buckets[index]? = some bucket) :
    (buckets.set index (flow :: bucket)).flatten.Perm (flow :: buckets.flatten) := by
  obtain ⟨inside, bucketEq⟩ := List.getElem?_eq_some_iff.mp found
  obtain ⟨left, right, split, _, setEq⟩ :=
    @List.exists_of_set _ index (flow :: bucket) buckets inside
  rw [bucketEq] at split
  rw [setEq, split, List.flatten_append, List.flatten_append, List.flatten_cons,
    List.flatten_cons, List.cons_append]
  exact List.perm_middle

end Buckets

/-! ## The invariant -/

/-- The accounts of a table: each flow is genuine and in the bucket of its hash, the
flows are told apart by tuple and by identity, and the statistics count them. -/
structure Tallied (rteHashCrc : List (BitVec 32) → BitVec 32) (table : FlowTable) :
    Prop where
  positive : table.config.hashSize ≠ 0
  size : table.keys.length = table.config.hashSize.toNat
  placed : ∀ (index : Nat) bucket, table.keys[index]? = some bucket →
    ∀ key ∈ bucket, bucketIdx table.config key.hash = index
  genuine : ∀ key ∈ table.keys.flatten, key.Genuine rteHashCrc
  apart : table.keys.flatten.Pairwise FlowKey.Apart
  ids : (table.keys.flatten.map FlowKey.id).Nodup
  fresh : ∀ key ∈ table.keys.flatten, key.id < table.nextId
  active : table.stats.flowsActive.toNat = table.keys.flatten.length
  bounded : table.keys.flatten.length ≤ table.config.maxFlows.toNat
  created : table.stats.flowsCreated =
    table.stats.flowsActive + table.stats.flowsRemoved
  ready : ∀ flow ∈ table.flows, flow.Ready

/-- Every flow of the table has an IP version. -/
def FlowTable.OnIp (table : FlowTable) : Prop :=
  ∀ key ∈ table.keys.flatten, key.tuple.ipVersion ≠ 0

/-- The table after `flow_get` has created a flow. -/
def FlowTable.withNew (table : FlowTable) (alloc : FlowAllocation) (now : BitVec 64)
    (hash : BitVec 32) (pkt : Packet) : FlowTable :=
  { table with
    buckets := table.buckets.set (bucketIdx table.config hash)
      (newFlow table.config alloc now table.nextId hash pkt ::
        table.buckets.getD (bucketIdx table.config hash) [])
    stats :=
      { table.stats with
        flowsCreated := table.stats.flowsCreated + 1
        flowsActive := table.stats.flowsActive + 1 }
    nextId := table.nextId + 1 }

/-- What one call does to the table. -/
inductive TableStep (rteHashCrc : List (BitVec 32) → BitVec 32) (table : FlowTable) :
    TableOp → FlowTable → Prop where
  | found (alloc : FlowAllocation) (now : BitVec 64) (pkt : Packet) (flow : Flow)
      (present : flow ∈ table.flows)
      (returned : (flowGet rteHashCrc alloc now table pkt).1 = some flow.id) :
      TableStep rteHashCrc table (.get alloc now pkt)
        (table.modify flow.id Flow.retain)
  | refused (alloc : FlowAllocation) (now : BitVec 64) (pkt : Packet)
      (returned : (flowGet rteHashCrc alloc now table pkt).1 = none) :
      TableStep rteHashCrc table (.get alloc now pkt) table
  | created (alloc : FlowAllocation) (now : BitVec 64) (pkt : Packet)
      (search : lookup (flowHashCalculate rteHashCrc pkt) pkt
        (table.bucketKeys (flowHashCalculate rteHashCrc pkt)) = none)
      (room : table.stats.flowsActive < table.config.maxFlows.setWidth 64)
      (returned : (flowGet rteHashCrc alloc now table pkt).1 = some table.nextId) :
      TableStep rteHashCrc table (.get alloc now pkt)
        (table.withNew alloc now (flowHashCalculate rteHashCrc pkt) pkt)
  | missing (alloc : UpdateAllocation) (now : BitVec 64) (id : Nat) (pkt : Packet)
      (direction : Direction) :
      TableStep rteHashCrc table (.update alloc now id pkt direction) table
  | updated (alloc : UpdateAllocation) (now : BitVec 64) (pkt : Packet)
      (direction : Direction) (flow next : Flow) (reassembly : ReassemblyStats)
      (present : flow ∈ table.flows) (key : next.key = flow.key)
      (useCnt : next.useCnt = flow.useCnt) (ready : next.Ready) :
      TableStep rteHashCrc table (.update alloc now flow.id pkt direction)
        { table.modify flow.id fun _ => next with reassembly }
  | released (id : Nat) :
      TableStep rteHashCrc table (.release id) (table.modify id flowRelease)
  | cleaned (now : BitVec 64) :
      TableStep rteHashCrc table (.cleanup now) (flowCleanupExpired now table).2

/-- The outcome of `flow_get` in terms of flows. -/
inductive GetOutcome (alloc : FlowAllocation) (now : BitVec 64) (hash : BitVec 32)
    (pkt : Packet) (table : FlowTable) : Option Nat × FlowTable → Prop where
  | found (flow : Flow) (present : flow ∈ table.flows) :
      GetOutcome alloc now hash pkt table
        (some flow.id, table.modify flow.id Flow.retain)
  | refused : GetOutcome alloc now hash pkt table (none, table)
  | created (search : lookup hash pkt (table.bucketKeys hash) = none)
      (room : table.stats.flowsActive < table.config.maxFlows.setWidth 64) :
      GetOutcome alloc now hash pkt table
        (some table.nextId, table.withNew alloc now hash pkt)

namespace Tallied

variable {rteHashCrc : List (BitVec 32) → BitVec 32} {table after : FlowTable}

theorem bucket (tallied : Tallied rteHashCrc table) (hash : BitVec 32) :
    table.buckets[bucketIdx table.config hash]? =
      some (table.buckets.getD (bucketIdx table.config hash) []) := by
  have size := tallied.size
  rw [FlowTable.keys, List.length_map] at size
  have inside : bucketIdx table.config hash < table.buckets.length := by
    rw [size]
    exact bucketIdx_lt tallied.positive hash
  rw [List.getD_eq_getElem?_getD, List.getElem?_eq_getElem inside, Option.getD_some]

theorem flow_ids (tallied : Tallied rteHashCrc table) :
    (table.flows.map Flow.id).Nodup := by
  have ids := tallied.ids
  rw [table.keys_flatten, List.map_map] at ids
  exact ids

theorem same_flow (tallied : Tallied rteHashCrc table) {left right : Flow}
    (inLeft : left ∈ table.flows) (inRight : right ∈ table.flows)
    (same : left.id = right.id) : left = right :=
  List.inj_on_of_nodup_map tallied.flow_ids inLeft inRight same

theorem getOutcome (tallied : Tallied rteHashCrc table) (alloc : FlowAllocation)
    (now : BitVec 64) (pkt : Packet) :
    GetOutcome alloc now (flowHashCalculate rteHashCrc pkt) pkt table
      (flowGet rteHashCrc alloc now table pkt) := by
  generalize hashEq : flowHashCalculate rteHashCrc pkt = hash
  have search := takeFirst_lookup hash pkt
    (table.buckets.getD (bucketIdx table.config hash) [])
  have index : (hash &&& (table.config.hashSize - 1)).toNat =
      bucketIdx table.config hash := rfl
  simp only [flowGet, hashEq, index]
  cases taken : takeFirst (fun flow => flow.flowHash = hash && flowMatch flow pkt)
      (table.buckets.getD (bucketIdx table.config hash) []) with
  | none =>
      rw [taken, ← FlowTable.bucketKeys_eq] at search
      dsimp only
      split
      next => exact .refused
      next room =>
        split
        next =>
          rw [newFlow_id]
          exact .created search (BitVec.not_le.mp room)
        next => exact .refused
  | some found =>
      obtain ⟨front, flow, back, bucketEq, same, after⟩ := takeFirst_some taken
      have home := tallied.bucket hash
      rw [bucketEq] at home
      have present : flow ∈ table.flows := by
        apply List.mem_flatten_of_mem (List.mem_of_getElem? home)
        simp
      dsimp only
      rw [after, set_changed Flow.retain home tallied.flow_ids, same]
      exact .found flow present

/-- A flow of the table is found by its identity. -/
theorem find_eq (tallied : Tallied rteHashCrc table) {flow : Flow}
    (member : flow ∈ table.flows) : table.find flow.id = some flow := by
  cases found : table.find flow.id with
  | none =>
      have missed := List.find?_eq_none.mp found flow member
      simp at missed
  | some other =>
      have present : other ∈ table.flows := List.mem_of_find?_eq_some found
      have same : other.id = flow.id := by
        simpa using List.find?_some found
      rw [tallied.same_flow present member same]

/-- A packet with the tuple of a flow is given that flow. -/
theorem get_found (tallied : Tallied rteHashCrc table) (keyed : Keyed table)
    (alloc : FlowAllocation) (now : BitVec 64) {pkt : Packet} {flow : Flow}
    (member : flow ∈ table.flows) (isIp : pkt.IsIp) (same : pkt.tuple = flow.tuple) :
    flowGet rteHashCrc alloc now table pkt =
      (some flow.id, table.modify flow.id Flow.retain) := by
  have inKeys : flow.key ∈ table.keys.flatten := by
    rw [table.keys_flatten]
    exact List.mem_map_of_mem member
  obtain ⟨bucket, inTable, inBucket⟩ := List.mem_flatten.mp member
  obtain ⟨sameHash, accepted⟩ := (tallied.genuine flow.key inKeys).finds isIp same.symm
  have search := keyed.lookup_held (holds_of_mem inTable inBucket) sameHash accepted
  have returned : (flowGet rteHashCrc alloc now table pkt).1 = some flow.id := by
    have effect := flowGet_effect rteHashCrc alloc now table pkt
    generalize flowGet rteHashCrc alloc now table pkt = result at effect
    cases effect with
    | found key found keys config nextId stats =>
        rw [search] at found
        cases found
        rfl
    | refused missed =>
        rw [search] at missed
        cases missed
    | created alloc now missed keys config nextId stats =>
        rw [search] at missed
        cases missed
  have outcome := tallied.getOutcome alloc now pkt
  generalize flowGet rteHashCrc alloc now table pkt = result at outcome returned
  cases outcome with
  | found other present =>
      have sameId : other.id = flow.id := Option.some_inj.mp returned
      rw [sameId]
  | refused => cases returned
  | created missed room =>
      rw [search] at missed
      cases missed

/-- A call that keeps the keys and the statistics. -/
theorem keep (tallied : Tallied rteHashCrc table) (keys : after.keys = table.keys)
    (config : after.config = table.config) (nextId : after.nextId = table.nextId)
    (stats : after.stats = table.stats) (ready : ∀ flow ∈ after.flows, flow.Ready) :
    Tallied rteHashCrc after := by
  obtain ⟨positive, size, placed, genuine, apart, ids, fresh, active, bounded, created,
    _⟩ := tallied
  constructor
  case ready => exact ready
  all_goals simpa only [keys, config, nextId, stats]

theorem change_keys {id : Nat} {change : Flow → Flow} (reassembly : ReassemblyStats)
    (keeps : ∀ flow ∈ table.flows, flow.id = id → (change flow).key = flow.key) :
    FlowTable.keys { table.modify id change with reassembly } = table.keys :=
  modify_keys fun _ inTable flow inBucket =>
    keeps flow (List.mem_flatten_of_mem inTable inBucket)

theorem change_keyed (keyed : Keyed table) {id : Nat} {change : Flow → Flow}
    (reassembly : ReassemblyStats)
    (keeps : ∀ flow ∈ table.flows, flow.id = id → (change flow).key = flow.key) :
    Keyed { table.modify id change with reassembly } :=
  keyed.thin (.of_keys_eq (change_keys reassembly keeps) rfl rfl)

/-- Changing a flow without touching its key. -/
theorem change (tallied : Tallied rteHashCrc table) {id : Nat} {change : Flow → Flow}
    (reassembly : ReassemblyStats)
    (keeps : ∀ flow ∈ table.flows, flow.id = id → (change flow).key = flow.key)
    (ready : ∀ flow ∈ table.flows, (change flow).Ready) :
    Tallied rteHashCrc { table.modify id change with reassembly } := by
  refine tallied.keep (change_keys reassembly keeps) rfl rfl rfl ?_
  intro flow member
  have changed : flow ∈ table.flows.map (changeFlow id change) := by
    rw [← table.modify_flows]
    exact member
  obtain ⟨original, present, rfl⟩ := List.mem_map.mp changed
  rw [changeFlow]
  split
  next => exact ready original present
  next => exact tallied.ready original present

/-- The new flow is told apart from every flow of the table: a flow with its tuple
would have been found. -/
theorem apart_new (tallied : Tallied rteHashCrc table) (alloc : FlowAllocation)
    (now : BitVec 64) {pkt : Packet}
    (search : lookup (flowHashCalculate rteHashCrc pkt) pkt
      (table.bucketKeys (flowHashCalculate rteHashCrc pkt)) = none) {key : FlowKey}
    (member : key ∈ table.keys.flatten) :
    (newFlow table.config alloc now table.nextId (flowHashCalculate rteHashCrc pkt)
      pkt).key.Apart key := by
  obtain ⟨_, _, tuple⟩ := newFlow_tuple table.config alloc now table.nextId
    (flowHashCalculate rteHashCrc pkt) pkt
  intro same
  rw [tuple] at same ⊢
  by_contra version
  have isIp := (packet_tuple_version pkt).mp version
  obtain ⟨hash, accepted⟩ := (tallied.genuine key member).finds isIp same.symm
  obtain ⟨bucket, inTable, inBucket⟩ := List.mem_flatten.mp member
  obtain ⟨index, found⟩ := List.mem_iff_getElem?.mp inTable
  have home := tallied.placed index bucket found key inBucket
  rw [hash] at home
  have inHome : key ∈ table.bucketKeys (flowHashCalculate rteHashCrc pkt) := by
    rw [FlowTable.bucketKeys, home, List.getD_eq_getElem?_getD, found]
    exact inBucket
  have missed := List.find?_eq_none.mp search key inHome
  exact missed (decide_eq_true ⟨hash, accepted⟩)

theorem withNew_flows (tallied : Tallied rteHashCrc table) (alloc : FlowAllocation)
    (now : BitVec 64) (hash : BitVec 32) (pkt : Packet) :
    (table.withNew alloc now hash pkt).flows.Perm
      (newFlow table.config alloc now table.nextId hash pkt :: table.flows) :=
  set_cons_perm _ (tallied.bucket hash)

theorem withNew_keys (tallied : Tallied rteHashCrc table) (alloc : FlowAllocation)
    (now : BitVec 64) (hash : BitVec 32) (pkt : Packet) :
    (table.withNew alloc now hash pkt).keys.flatten.Perm
      ((newFlow table.config alloc now table.nextId hash pkt).key ::
        table.keys.flatten) := by
  rw [FlowTable.keys_flatten, FlowTable.keys_flatten]
  exact (tallied.withNew_flows alloc now hash pkt).map Flow.key

theorem create (tallied : Tallied rteHashCrc table) (alloc : FlowAllocation)
    (now : BitVec 64) {pkt : Packet}
    (search : lookup (flowHashCalculate rteHashCrc pkt) pkt
      (table.bucketKeys (flowHashCalculate rteHashCrc pkt)) = none)
    (room : table.stats.flowsActive < table.config.maxFlows.setWidth 64) :
    Tallied rteHashCrc
      (table.withNew alloc now (flowHashCalculate rteHashCrc pkt) pkt) := by
  have apart := fun key (member : key ∈ table.keys.flatten) =>
    tallied.apart_new alloc now search member
  generalize hashEq : flowHashCalculate rteHashCrc pkt = hash at apart ⊢
  have flows := tallied.withNew_flows alloc now hash pkt
  have allKeys := tallied.withNew_keys alloc now hash pkt
  generalize newEq : newFlow table.config alloc now table.nextId hash pkt = new
    at apart flows allKeys
  have newId : new.key.id = table.nextId := by
    rw [← newEq, newFlow_key_id]
  have newHash : new.key.hash = hash := by
    rw [← newEq, newFlow_hash]
  have genuine : new.key.Genuine rteHashCrc := by
    rw [← newEq, ← hashEq]
    exact newFlow_genuine ..
  have ready : new.Ready := by
    rw [← newEq]
    exact newFlow_ready table.config alloc now table.nextId hash pkt
  have keys : (table.withNew alloc now hash pkt).keys =
      table.keys.set (bucketIdx table.config hash) (new.key :: table.bucketKeys hash) := by
    rw [FlowTable.withNew, newEq, FlowTable.keys, List.map_set, List.map_cons,
      ← FlowTable.bucketKeys_eq]
    rfl
  have active := tallied.active
  have below : table.stats.flowsActive.toNat < table.config.maxFlows.toNat := by
    bv_omega
  have length := allKeys.length_eq
  rw [List.length_cons] at length
  constructor
  case positive => exact tallied.positive
  case size => rw [keys, List.length_set]; exact tallied.size
  case placed =>
    intro index bucket found key member
    rcases Keyed.created_bucket keys found with ⟨same, rfl⟩ | old
    · rcases List.mem_cons.mp member with rfl | inBucket
      · rw [newHash, same]
        rfl
      · have home : table.keys[bucketIdx table.config hash]? =
            some (table.bucketKeys hash) := by
          rw [FlowTable.keys, List.getElem?_map, tallied.bucket hash,
            FlowTable.bucketKeys_eq]
          rfl
        rw [same]
        exact tallied.placed _ _ home key inBucket
    · exact tallied.placed index bucket old key member
  case genuine =>
    intro key member
    rcases List.mem_cons.mp (allKeys.mem_iff.mp member) with rfl | old
    · exact genuine
    · exact tallied.genuine key old
  case apart =>
    rw [allKeys.pairwise_iff fun separate => separate.symm, List.pairwise_cons]
    exact ⟨apart, tallied.apart⟩
  case ids =>
    rw [(allKeys.map FlowKey.id).nodup_iff, List.map_cons, List.nodup_cons]
    refine ⟨?_, tallied.ids⟩
    intro taken
    obtain ⟨key, member, same⟩ := List.mem_map.mp taken
    have known := tallied.fresh key member
    omega
  case fresh =>
    intro key member
    rcases List.mem_cons.mp (allKeys.mem_iff.mp member) with rfl | old
    · rw [newId]
      exact Nat.lt_succ_self _
    · exact Nat.lt_succ_of_lt (tallied.fresh key old)
  case active =>
    rw [length, ← active, FlowTable.withNew]
    bv_omega
  case bounded =>
    rw [length]
    exact active ▸ below
  case created =>
    simp only [FlowTable.withNew, tallied.created]
    bv_omega
  case ready =>
    intro flow member
    rcases List.mem_cons.mp (flows.mem_iff.mp member) with rfl | old
    · exact ready
    · exact tallied.ready flow old

theorem cleanup (tallied : Tallied rteHashCrc table) (now : BitVec 64) :
    Tallied rteHashCrc (flowCleanupExpired now table).2 := by
  have thinned := cleanup_thinned now table
  have flows := table.cleanup_flows now
  have sublist := table.cleanup_keys now
  have length : (flowCleanupExpired now table).2.keys.flatten.length +
      (table.flows.filter (shouldRemove now)).length = table.keys.flatten.length := by
    rw [FlowTable.keys_flatten, FlowTable.keys_flatten, flows, List.length_map,
      List.length_map, Nat.add_comm]
    exact (List.length_eq_length_filter_add (shouldRemove now)).symm
  have active := tallied.active
  constructor
  case positive => exact tallied.positive
  case size => rw [thinned.size]; exact tallied.size
  case placed =>
    intro index bucket found key member
    obtain ⟨original, foundOriginal, kept⟩ := thinned.buckets index bucket found
    exact tallied.placed index original foundOriginal key (kept.subset member)
  case genuine => exact fun key member => tallied.genuine key (sublist.subset member)
  case apart => exact tallied.apart.sublist sublist
  case ids => exact tallied.ids.sublist (sublist.map _)
  case fresh => exact fun key member => tallied.fresh key (sublist.subset member)
  case active =>
    simp only [flowCleanupExpired, FlowTable.flows] at length ⊢
    have bound := table.stats.flowsActive.isLt
    bv_omega
  case bounded => exact sublist.length_le.trans tallied.bounded
  case created =>
    simp only [flowCleanupExpired, tallied.created]
    bv_omega
  case ready =>
    intro flow member
    rw [flows] at member
    exact tallied.ready flow (List.mem_filter.mp member).1

/-- Every call has a result. -/
theorem run (tallied : Tallied rteHashCrc table) (op : TableOp) :
    ∃ after, op.run rteHashCrc table = .ok after ∧
      TableStep rteHashCrc table op after := by
  cases op with
  | get alloc now pkt =>
      refine ⟨_, rfl, ?_⟩
      have outcome := tallied.getOutcome alloc now pkt
      generalize result : flowGet rteHashCrc alloc now table pkt = got at outcome
      cases outcome with
      | found flow present =>
          exact .found alloc now pkt flow present (by rw [result])
      | refused => exact .refused alloc now pkt (by rw [result])
      | created search room =>
          exact .created alloc now pkt search room (by rw [result])
  | update alloc now id pkt direction =>
      rw [TableOp.run]
      cases found : table.find id with
      | none => exact ⟨table, rfl, .missing alloc now id pkt direction⟩
      | some flow =>
          have present : flow ∈ table.flows := List.mem_of_find?_eq_some found
          have same : flow.id = id := by
            simpa using List.find?_some found
          obtain ⟨⟨next, reassembly⟩, update, ready, useCnt, _⟩ := flowUpdate_ok
            table.config table.stream alloc now table.reassembly pkt direction
            (tallied.ready flow present)
          simp only [update, ← same]
          exact ⟨_, rfl, .updated alloc now pkt direction flow next reassembly present
            (flowUpdate_key update) useCnt ready⟩
  | release id => exact ⟨_, rfl, .released id⟩
  | cleanup now => exact ⟨_, rfl, .cleaned now⟩

theorem step (tallied : Tallied rteHashCrc table) {op : TableOp}
    (step : TableStep rteHashCrc table op after) : Tallied rteHashCrc after := by
  cases step with
  | found alloc now pkt flow present returned =>
      exact tallied.change table.reassembly (fun _ _ _ => rfl)
        fun flow present => tallied.ready flow present
  | refused alloc now pkt returned => exact tallied
  | created alloc now pkt search room returned =>
      exact tallied.create alloc now search room
  | missing alloc now id pkt direction => exact tallied
  | updated alloc now pkt direction flow next reassembly present key useCnt ready =>
      refine tallied.change reassembly ?_ fun _ _ => ready
      intro other member sameId
      rw [key, tallied.same_flow present member sameId.symm]
  | released id =>
      refine tallied.change table.reassembly (fun flow _ _ => flowRelease_key flow) ?_
      intro flow present
      rw [flowRelease]
      split
      next => exact tallied.ready flow present
      next => exact tallied.ready flow present
  | cleaned now => exact tallied.cleanup now

/-- The rule for runs: what every step keeps holds at the end. -/
theorem runTable (guard : TableOp → Prop) (invariant : FlowTable → Prop)
    (keeps : ∀ {table op after}, Tallied rteHashCrc table → guard op →
      TableStep rteHashCrc table op after → invariant table → invariant after)
    (ops : List TableOp) : ∀ {table : FlowTable}, Tallied rteHashCrc table →
      invariant table → (∀ op ∈ ops, guard op) →
      ∃ after, runTable rteHashCrc table ops = .ok after ∧
        Tallied rteHashCrc after ∧ invariant after := by
  intro table tallied holds guarded
  refine Fallible.exists_foldlM_invariant (fun table op held allowed => ?_) ⟨tallied, holds⟩
    guarded
  obtain ⟨tallied, holds⟩ := held
  obtain ⟨next, run, step⟩ := tallied.run op
  exact ⟨next, run, tallied.step step, keeps tallied allowed step holds⟩

end Tallied

section Runs

variable {rteHashCrc : List (BitVec 32) → BitVec 32} {stream : StreamConfig}
variable {reassembly : ReassemblyStats} {hashSize maxFlows : BitVec 32}
variable {allocated : Bool} {table : FlowTable}

theorem flowInit_empty
    (init : flowInit stream reassembly hashSize maxFlows allocated = some table) :
    table.flows = [] ∧ table.stats = {} ∧ table.config.hashSize = hashSize ∧
      table.config.maxFlows = maxFlows := by
  rw [flowInit] at init
  split at init
  next => cases init
  next =>
    split at init
    next =>
      cases init
      exact ⟨List.flatten_replicate_nil, rfl, rfl, rfl⟩
    next => cases init

theorem flowInit_nextId
    (init : flowInit stream reassembly hashSize maxFlows allocated = some table) :
    table.nextId = 0 := by
  rw [flowInit] at init
  split at init
  next => cases init
  next =>
    split at init
    next =>
      cases init
      rfl
    next => cases init

theorem flowInit_tallied
    (init : flowInit stream reassembly hashSize maxFlows allocated = some table) :
    Tallied rteHashCrc table := by
  have keyed := flowInit_keyed init
  obtain ⟨empty, stats, _⟩ := flowInit_empty init
  have keys : table.keys.flatten = [] := by
    rw [table.keys_flatten, empty]
    rfl
  constructor
  case positive => exact keyed.positive
  case size => exact keyed.size
  case placed => exact keyed.placed
  case active => rw [keys, stats]; rfl
  case created => rw [stats]; rfl
  case ready => simp [empty]
  all_goals simp [keys]

theorem TableStep.config {op : TableOp} {after : FlowTable}
    (step : TableStep rteHashCrc table op after) : after.config = table.config := by
  cases step <;> rfl

/-- A call adds the key of a new flow, or no key at all. -/
theorem TableStep.keys {op : TableOp} {after : FlowTable}
    (tallied : Tallied rteHashCrc table)
    (step : TableStep rteHashCrc table op after) :
    after.keys.flatten.Sublist table.keys.flatten ∨
      ∃ alloc now pkt, op = .get alloc now pkt ∧ after.keys.flatten.Perm
        ((newFlow table.config alloc now table.nextId
          (flowHashCalculate rteHashCrc pkt) pkt).key :: table.keys.flatten) := by
  cases step with
  | found alloc now pkt flow present returned =>
      have keys : (table.modify flow.id Flow.retain).keys = table.keys :=
        Tallied.change_keys table.reassembly fun _ _ _ => rfl
      exact Or.inl (by rw [keys])
  | refused alloc now pkt returned => exact Or.inl (List.Sublist.refl _)
  | created alloc now pkt search room returned =>
      exact Or.inr ⟨alloc, now, pkt, rfl, tallied.withNew_keys alloc now _ pkt⟩
  | missing alloc now id pkt direction => exact Or.inl (List.Sublist.refl _)
  | updated alloc now pkt direction flow next reassembly present key useCnt ready =>
      left
      rw [Tallied.change_keys reassembly]
      intro other member sameId
      rw [key, tallied.same_flow present member sameId.symm]
  | released id =>
      have keys : (table.modify id flowRelease).keys = table.keys :=
        Tallied.change_keys table.reassembly fun flow _ _ => flowRelease_key flow
      exact Or.inl (by rw [keys])
  | cleaned now => exact Or.inl (table.cleanup_keys now)

theorem TableStep.onIp {op : TableOp} {after : FlowTable}
    (tallied : Tallied rteHashCrc table) (step : TableStep rteHashCrc table op after)
    (opOnIp : op.OnIp) (onIp : table.OnIp) : after.OnIp := by
  intro key member
  rcases step.keys tallied with sublist | ⟨alloc, now, pkt, rfl, keys⟩
  · exact onIp key (sublist.subset member)
  · rcases List.mem_cons.mp (keys.mem_iff.mp member) with rfl | old
    · rw [(newFlow_tuple ..).2.2]
      exact (packet_tuple_version pkt).mpr opOnIp
    · exact onIp key old

/-- After every run of calls on a new table, the statistics count the flows in the
buckets, every flow is in the bucket of its hash, which is the hash of its tuple,
and no two flows have the same tuple. -/
theorem flow_table_tallied (rteHashCrc : List (BitVec 32) → BitVec 32)
    (stream : StreamConfig) (reassembly : ReassemblyStats)
    (hashSize maxFlows : BitVec 32) (allocated : Bool) (initial : FlowTable)
    (init : flowInit stream reassembly hashSize maxFlows allocated = some initial)
    (ops : List TableOp) :
    ∃ table, runTable rteHashCrc initial ops = .ok table ∧
      table.stats.flowsActive.toNat = table.flows.length ∧
      table.flows.length ≤ maxFlows.toNat ∧
      table.stats.flowsCreated = table.stats.flowsActive + table.stats.flowsRemoved ∧
      (∀ (index : Nat) bucket, table.buckets[index]? = some bucket →
        ∀ flow ∈ bucket, index = (flow.flowHash &&& (hashSize - 1)).toNat ∧
          flow.flowHash = flowHashCalculate rteHashCrc flow.tuple.packet) ∧
      (table.flows.Pairwise fun left right =>
        left.tuple.ipVersion ≠ 0 → left.tuple ≠ right.tuple) ∧
      ((∀ op ∈ ops, op.OnIp) → (table.flows.map Flow.tuple).Nodup) := by
  obtain ⟨empty, _, hashSizeEq, maxFlowsEq⟩ := flowInit_empty init
  have start : Tallied rteHashCrc initial := flowInit_tallied init
  obtain ⟨table, run, tallied, config⟩ := Tallied.runTable (fun _ => True)
    (fun table => table.config = initial.config)
    (fun _ _ step config => step.config.trans config) ops start rfl fun _ _ => trivial
  have count : table.keys.flatten.length = table.flows.length := by
    rw [table.keys_flatten, List.length_map]
  have apart : table.flows.Pairwise fun left right =>
      left.tuple.ipVersion ≠ 0 → left.tuple ≠ right.tuple := by
    have separate := tallied.apart
    rw [table.keys_flatten, List.pairwise_map] at separate
    exact separate.imp fun different version same => version (different same)
  refine ⟨table, run, by rw [tallied.active, count], ?_, tallied.created, ?_, apart, ?_⟩
  · rw [← count, ← maxFlowsEq, ← config]
    exact tallied.bounded
  · intro index bucket found flow member
    have inTable : flow ∈ table.flows :=
      List.mem_flatten_of_mem (List.mem_of_getElem? found) member
    have home := tallied.placed index (bucket.map Flow.key)
      (by rw [FlowTable.keys, List.getElem?_map, found]; rfl) flow.key
      (List.mem_map_of_mem member)
    rw [config, bucketIdx, hashSizeEq] at home
    refine ⟨home.symm, (tallied.genuine flow.key ?_).hashed⟩
    rw [table.keys_flatten]
    exact List.mem_map_of_mem inTable
  · intro allOnIp
    obtain ⟨again, sameRun, _, onIp⟩ := Tallied.runTable TableOp.OnIp FlowTable.OnIp
      (fun tallied opOnIp step onIp => step.onIp tallied opOnIp onIp) ops start
      (by simp [FlowTable.OnIp, initial.keys_flatten, empty]) allOnIp
    rw [run] at sameRun
    cases sameRun
    rw [List.Nodup, List.pairwise_map]
    apply apart.imp_of_mem
    intro left right inLeft _ different
    apply different
    apply onIp left.key
    rw [table.keys_flatten]
    exact List.mem_map_of_mem inLeft

/-- A full table: the second connection is refused, and the table stays as it is
until the first one expires. -/
theorem flow_table_tallied_full :
    let first := (tcpUpdate RTE_TCP_SYN_FLAG 100 .toserver).pkt
    let ops : List TableOp := [.get {} 0 first, .get {} 0 { first with srcPort := 40001 },
      .release 0, .cleanup 31, .get { session := false } 31 first]
    ∃ initial table, flowInit .default {} 4 1 true = some initial ∧
      runTable crc32c initial ops = .ok table ∧
      table.stats.flowsActive.toNat = table.flows.length ∧
      table.flows.length ≤ 1 ∧
      table.stats.flowsCreated = table.stats.flowsActive + table.stats.flowsRemoved ∧
      (table.flows.map Flow.tuple).Nodup := by
  intro first ops
  obtain ⟨table, run, active, bounded, created, _, _, nodup⟩ :=
    flow_table_tallied crc32c .default {} 4 1 true _ rfl ops
  refine ⟨_, table, rfl, run, active, bounded, created, nodup ?_⟩
  simp [ops, TableOp.OnIp, Packet.IsIp, first, tcpUpdate, tcpPacket]

end Runs

end NetDefender.Flows
