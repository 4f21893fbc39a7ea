import NetDefender.Flow.Counts

/-!
# Handles on flows

A successful `flow_get` gives its caller a handle on a flow, and `flow_release`
gives it back.  As long as the callers release only what they hold, and a flow
never has more than 65535 handles at a time, `use_cnt` is the number of handles of
the flow; so `flow_cleanup_expired` frees no flow that is still held, and frees
every flow that is not, once it is old enough.
-/

namespace NetDefender.Flows

open NetDefender.Stream

/-- How many handles on each flow are outstanding. -/
abbrev Handles := Nat → Nat

/-- The handles after a call. -/
def TableOp.handles (rteHashCrc : List (BitVec 32) → BitVec 32) (table : FlowTable)
    (handles : Handles) : TableOp → Handles
  | .get alloc now pkt =>
      match (flowGet rteHashCrc alloc now table pkt).1 with
      | some id => Function.update handles id (handles id + 1)
      | none => handles
  | .release id => Function.update handles id (handles id - 1)
  | .update _ _ _ _ _ | .cleanup _ => handles

/-- The tables that careful callers reach, with the handles that are outstanding
there: a flow is released only by a caller that holds it, and at most 65535 handles
on a flow are outstanding at a time. -/
inductive HeldBy (rteHashCrc : List (BitVec 32) → BitVec 32) (initial : FlowTable) :
    FlowTable → Handles → Prop where
  | start : HeldBy rteHashCrc initial initial fun _ => 0
  | call {table after : FlowTable} {handles : Handles}
      (reached : HeldBy rteHashCrc initial table handles) (op : TableOp)
      (run : op.run rteHashCrc table = .ok after)
      (matched : ∀ id, op = .release id → 0 < handles id)
      (bounded : ∀ id, op.handles rteHashCrc table handles id ≤ 65535) :
      HeldBy rteHashCrc initial after (op.handles rteHashCrc table handles)

/-- The age of a flow as `flow_cleanup_expired` computes it. -/
def Flow.age (now : BitVec 64) (flow : Flow) : BitVec 32 :=
  (now - flow.lastTs).setWidth 32

/-- `use_cnt` counts the handles, and a flow that is held is in the table. -/
structure Balanced (handles : Handles) (table : FlowTable) : Prop where
  counts : ∀ flow ∈ table.flows, flow.useCnt.toNat = handles flow.id
  present : ∀ id, 0 < handles id → ∃ flow ∈ table.flows, flow.id = id

theorem shouldRemove_iff (now : BitVec 64) (flow : Flow) :
    shouldRemove now flow = true ↔
      flow.useCnt = 0 ∧ flow.timeoutPolicy < flow.age now := by
  simp [shouldRemove, Flow.age]

theorem newFlow_useCnt (config : FlowConfig) (alloc : FlowAllocation)
    (now : BitVec 64) (id : Nat) (hash : BitVec 32) (pkt : Packet) :
    (newFlow config alloc now id hash pkt).useCnt = 1 := by
  simp only [newFlow]
  split
  next => rfl
  next => split <;> rfl

namespace Balanced

variable {rteHashCrc : List (BitVec 32) → BitVec 32} {table after : FlowTable}
variable {handles : Handles}

/-- A change of one flow that brings its count to that of its handles. -/
theorem change (balanced : Balanced handles table) {id count : Nat}
    {change : Flow → Flow} (reassembly : ReassemblyStats)
    (known : ∃ flow ∈ table.flows, flow.id = id)
    (changed : ∀ flow ∈ table.flows, flow.id = id →
      (change flow).id = id ∧ (change flow).useCnt.toNat = count) :
    Balanced (Function.update handles id count)
      { table.modify id change with reassembly } := by
  have flows : FlowTable.flows { table.modify id change with reassembly } =
      table.flows.map (changeFlow id change) := table.modify_flows id change
  have ids : ∀ flow ∈ table.flows, (changeFlow id change flow).id = flow.id := by
    intro flow member
    rw [changeFlow]
    split
    next same => rw [(changed flow member same).1, same]
    next => rfl
  constructor
  · intro flow member
    rw [flows] at member
    obtain ⟨original, inTable, rfl⟩ := List.mem_map.mp member
    rw [ids original inTable, changeFlow]
    split
    next same =>
      rw [(changed original inTable same).2, same, Function.update_self]
    next other =>
      rw [balanced.counts original inTable, Function.update_of_ne other]
  · intro other held
    have inTable : ∃ flow ∈ table.flows, flow.id = other := by
      by_cases same : other = id
      · rw [same]
        exact known
      · rw [Function.update_of_ne same] at held
        exact balanced.present other held
    obtain ⟨flow, member, sameId⟩ := inTable
    refine ⟨changeFlow id change flow, ?_, (ids flow member).trans sameId⟩
    rw [flows]
    exact List.mem_map_of_mem member

/-- A flow that does not exist yet is held by nobody. -/
theorem unheld (balanced : Balanced handles table)
    (tallied : Tallied rteHashCrc table) : handles table.nextId = 0 := by
  by_contra held
  obtain ⟨flow, member, same⟩ := balanced.present table.nextId (Nat.pos_of_ne_zero held)
  have known := tallied.fresh flow.key (by
    rw [table.keys_flatten]
    exact List.mem_map_of_mem member)
  exact absurd same (Nat.ne_of_lt known)

theorem create (balanced : Balanced handles table) (tallied : Tallied rteHashCrc table)
    (alloc : FlowAllocation) (now : BitVec 64) (hash : BitVec 32) (pkt : Packet) :
    Balanced (Function.update handles table.nextId (handles table.nextId + 1))
      (table.withNew alloc now hash pkt) := by
  have flows := tallied.withNew_flows alloc now hash pkt
  have newId := newFlow_id table.config alloc now table.nextId hash pkt
  have older : ∀ flow ∈ table.flows, flow.id ≠ table.nextId := by
    intro flow member
    exact Nat.ne_of_lt (tallied.fresh flow.key (by
      rw [table.keys_flatten]
      exact List.mem_map_of_mem member))
  constructor
  · intro flow member
    rcases List.mem_cons.mp (flows.mem_iff.mp member) with rfl | old
    · rw [newId, newFlow_useCnt, Function.update_self, balanced.unheld tallied]
      rfl
    · rw [Function.update_of_ne (older flow old)]
      exact balanced.counts flow old
  · intro id held
    by_cases same : id = table.nextId
    · exact ⟨_, flows.mem_iff.mpr List.mem_cons_self, newId.trans same.symm⟩
    · rw [Function.update_of_ne same] at held
      obtain ⟨flow, member, sameId⟩ := balanced.present id held
      exact ⟨flow, flows.mem_iff.mpr (List.mem_cons_of_mem _ member), sameId⟩

/-- A flow of the table is removed exactly if nobody holds it and it is old. -/
theorem removed_iff (balanced : Balanced handles table) (now : BitVec 64)
    {flow : Flow} (member : flow ∈ table.flows) :
    flow ∉ (flowCleanupExpired now table).2.flows ↔
      handles flow.id = 0 ∧ flow.timeoutPolicy < flow.age now := by
  have count := balanced.counts flow member
  have unused : flow.useCnt = 0 ↔ handles flow.id = 0 := by
    rw [← count]
    exact BitVec.toNat_eq
  rw [table.cleanup_flows, List.mem_filter, and_iff_right member, ← unused,
    ← shouldRemove_iff]
  simp

theorem cleanup (balanced : Balanced handles table) (now : BitVec 64) :
    Balanced handles (flowCleanupExpired now table).2 := by
  constructor
  · intro flow member
    rw [table.cleanup_flows] at member
    exact balanced.counts flow (List.mem_filter.mp member).1
  · intro id held
    obtain ⟨flow, member, rfl⟩ := balanced.present id held
    refine ⟨flow, ?_, rfl⟩
    by_contra gone
    have unheld := ((balanced.removed_iff now member).mp gone).1
    omega

theorem step (balanced : Balanced handles table) (tallied : Tallied rteHashCrc table)
    {op : TableOp} (step : TableStep rteHashCrc table op after)
    (matched : ∀ id, op = .release id → 0 < handles id)
    (bounded : ∀ id, op.handles rteHashCrc table handles id ≤ 65535) :
    Balanced (op.handles rteHashCrc table handles) after := by
  cases step with
  | found alloc now pkt flow present returned =>
      simp only [TableOp.handles, returned] at bounded ⊢
      refine balanced.change table.reassembly ⟨flow, present, rfl⟩ ?_
      intro other member same
      refine ⟨same, ?_⟩
      have count := balanced.counts other member
      have room := bounded flow.id
      rw [Function.update_self] at room
      rw [same] at count
      simp only [Flow.retain]
      bv_omega
  | refused alloc now pkt returned =>
      simp only [TableOp.handles, returned]
      exact balanced
  | created alloc now pkt search room returned =>
      simp only [TableOp.handles, returned]
      exact balanced.create tallied alloc now _ pkt
  | missing alloc now id pkt direction => exact balanced
  | updated alloc now pkt direction flow next reassembly present key useCnt ready =>
      have kept : Balanced (Function.update handles flow.id (handles flow.id))
          { table.modify flow.id fun _ => next with reassembly } :=
        balanced.change reassembly ⟨flow, present, rfl⟩ fun _ _ _ =>
          ⟨congrArg FlowKey.id key, by rw [useCnt, balanced.counts flow present]⟩
      rw [Function.update_eq_self] at kept
      exact kept
  | released id =>
      have held := matched id rfl
      refine balanced.change table.reassembly (balanced.present id held) ?_
      intro flow member same
      have count := balanced.counts flow member
      rw [same] at count
      have positive : flow.useCnt > 0 := by
        bv_omega
      rw [flowRelease, if_pos positive]
      refine ⟨same, ?_⟩
      bv_omega
  | cleaned now => exact balanced.cleanup now

end Balanced

/-- Every reachable table keeps its accounts, and its use counts are those of the
outstanding handles. -/
theorem HeldBy.balanced {rteHashCrc : List (BitVec 32) → BitVec 32}
    {initial table : FlowTable} {handles : Handles}
    (held : HeldBy rteHashCrc initial table handles)
    (start : Tallied rteHashCrc initial) (empty : initial.flows = []) :
    Tallied rteHashCrc table ∧ Balanced handles table := by
  induction held with
  | start => exact ⟨start, by simp [empty], by simp⟩
  | call reached op run matched bounded inductionHypothesis =>
      obtain ⟨tallied, balanced⟩ := inductionHypothesis
      obtain ⟨next, result, step⟩ := tallied.run op
      rw [run] at result
      cases result
      exact ⟨tallied.step step, balanced.step tallied step matched bounded⟩

/-- Wherever careful callers get to, every call has a result, `use_cnt` is the number
of outstanding handles, a flow that is held is in the table, and a sweep removes
exactly the flows that nobody holds and that are old enough. -/
theorem use_cnt_counts_handles (rteHashCrc : List (BitVec 32) → BitVec 32)
    (stream : StreamConfig) (reassembly : ReassemblyStats)
    (hashSize maxFlows : BitVec 32) (allocated : Bool) (initial table : FlowTable)
    (handles : Handles)
    (init : flowInit stream reassembly hashSize maxFlows allocated = some initial)
    (held : HeldBy rteHashCrc initial table handles) :
    (∀ op : TableOp, ∃ after, op.run rteHashCrc table = .ok after) ∧
      (∀ flow ∈ table.flows, flow.useCnt.toNat = handles flow.id) ∧
      (∀ id, 0 < handles id → ∃ flow ∈ table.flows, flow.id = id) ∧
      ∀ now, ∀ flow ∈ table.flows, flow ∉ (flowCleanupExpired now table).2.flows ↔
        handles flow.id = 0 ∧ flow.timeoutPolicy < flow.age now := by
  obtain ⟨tallied, balanced⟩ := held.balanced (flowInit_tallied init)
    (flowInit_empty init).1
  refine ⟨?_, balanced.counts, balanced.present, ?_⟩
  · intro op
    obtain ⟨after, run, _⟩ := tallied.run op
    exact ⟨after, run⟩
  · intro now flow member
    exact balanced.removed_iff now member

/-- Two handles on one flow, of which one is given back. -/
theorem use_cnt_counts_handles_twice :
    ∃ initial table handles, flowInit .default {} 4 8 true = some initial ∧
      HeldBy (fun _ => 5) initial table handles ∧ handles 0 = 1 ∧
      table.flows.length = 1 ∧
      (∀ flow ∈ table.flows, flow.useCnt.toNat = handles flow.id) ∧
      ∀ now, ∀ flow ∈ table.flows, flow ∉ (flowCleanupExpired now table).2.flows ↔
        handles flow.id = 0 ∧ flow.timeoutPolicy < flow.age now := by
  let pkt := (tcpUpdate RTE_TCP_SYN_FLAG 100 .toserver).pkt
  let initial : FlowTable := ⟨⟨4, 8, 30, 3600⟩, .default, [[], [], [], []], {}, {}, 0⟩
  let first := (flowGet (fun _ => 5) {} 0 initial pkt).2
  let second := (flowGet (fun _ => 5) {} 1 first pkt).2
  have firstGot : (flowGet (fun _ => 5) {} 0 initial pkt).1 = some 0 := by decide
  have secondGot : (flowGet (fun _ => 5) {} 1 first pkt).1 = some 0 := by decide
  have untouched : HeldBy (fun _ => 5) initial initial fun _ => 0 := .start
  have once : HeldBy (fun _ => 5) initial first _ :=
    untouched.call (.get {} 0 pkt) rfl (by simp) (by
      intro id
      simp only [TableOp.handles, firstGot, Function.update]
      split <;> simp)
  have twice : HeldBy (fun _ => 5) initial second _ :=
    once.call (.get {} 1 pkt) rfl (by simp) (by
      intro id
      simp only [TableOp.handles, firstGot, secondGot, Function.update]
      split <;> simp)
  have released : HeldBy (fun _ => 5) initial (second.modify 0 flowRelease) _ :=
    twice.call (.release 0) rfl (by
      rintro id ⟨⟩
      decide) (by
      intro id
      simp only [TableOp.handles, firstGot, secondGot, Function.update]
      split <;> simp)
  obtain ⟨_, counts, _, removed⟩ := use_cnt_counts_handles _ .default {} 4 8 true _ _ _
    rfl released
  exact ⟨_, _, _, rfl, released, by decide, by decide, counts, removed⟩

end NetDefender.Flows
