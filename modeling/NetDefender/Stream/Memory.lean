import NetDefender.Lib.Fallible
import NetDefender.Stream.Charges

/-!
# The memory in use

All buffers share `memory_used`.  It is what they hold for as long as no queued segment
changes its length: an insertion that cuts a queued segment, or a merge that lengthens
one, leaves the counter apart for good.
-/

namespace NetDefender.Stream

open NetDefender.Fallible

/-! ## What else a call keeps -/

theorem DrainStep.surplus_eq {sb after : StreamBuffer} (step : DrainStep sb after) :
    surplus after after.segList = surplus sb sb.segList := by
  cases step with
  | @stale seg rest list other behind =>
      rw [list]
      exact surplus_unlink ⟨sb, {}⟩ seg rest
  | @deliver seg rest list next fits =>
      rw [list]
      exact surplus_unlink ⟨sb.append seg.payload seg.payloadLen, {}⟩ seg rest

/-- A drain keeps the surplus of `seg_count` and the policy. -/
theorem Drained.surplus_eq {before after : StreamBuffer} (drained : Drained before after) :
    surplus after after.segList = surplus before before.segList ∧
      after.osPolicy = before.osPolicy := by
  obtain ⟨last, ⟨count, policy⟩, _, same⟩ := drained.invariant
    (motive := fun sb => surplus sb sb.segList = surplus before before.segList ∧
      sb.osPolicy = before.osPolicy) ⟨rfl, rfl⟩ (by
      rintro sb next ⟨count, policy⟩ step
      refine ⟨step.surplus_eq.trans count, ?_⟩
      rw [← policy]
      cases step <;> rfl)
  refine ⟨?_, same.osPolicy.trans policy⟩
  rw [← count, surplus, surplus, same.segCount, same.segList]

theorem InsertEffect.surplus_eq {config : StreamConfig} {alloc : Allocation}
    {sb after : StreamBuffer} {segment : Incoming}
    (effect : InsertEffect config alloc sb segment after) :
    surplus after after.segList = surplus sb sb.segList ∧
      after.osPolicy = sb.osPolicy := by
  cases effect with
  | ignored reason same =>
      refine ⟨?_, same.osPolicy⟩
      rw [surplus, surplus, same.segCount, same.segList]
  | inOrder valid live next fits drained => exact drained.surplus_eq
  | queued middle front back valid live other nonempty room enqueued drained =>
      exact ⟨drained.surplus_eq.1.trans enqueued.count,
        drained.surplus_eq.2.trans enqueued.window.osPolicy⟩

theorem surplus_empty {sb : StreamBuffer} (list : sb.segList = []) (count : sb.segCount = 0) :
    surplus sb sb.segList = 0 := by
  rw [surplus, list, count, List.length_nil]
  exact BitVec.sub_self 0

/-- The queue of a buffer is counted, and a live buffer favors new data. -/
structure Kept (sb : StreamBuffer) : Prop where
  count : surplus sb sb.segList = 0
  favors : sb.data ≠ none → sb.osPolicy.FavorsNew

/-! ## All buffers -/

/-- The stream buffers of the program and the statistics that they share. -/
structure Streams where
  buffers : List StreamBuffer
  stats : ReassemblyStats
  deriving DecidableEq, Repr

/-- The memory of all buffers and of their queues. -/
def Streams.footprint (streams : Streams) : Nat :=
  (streams.buffers.map StreamBuffer.footprint).sum

/-- The program before its first call. -/
def Streams.start : Streams := ⟨[], {}⟩

/-- A call: a new buffer is set up, or the buffer at `index` is used or freed. -/
inductive StreamsOp where
  | init (initialSeq : BitVec 32) (allocated : Bool)
  | call (index : Nat) (op : Op)
  | free (index : Nat)

/-- The buffers after one call. -/
def StreamsOp.run (config : StreamConfig) (policy : OsPolicy) (streams : Streams) :
    StreamsOp → Except Fault Streams
  | .init initialSeq allocated =>
      let (_, st) := streamBufferInit config streams.stats initialSeq policy allocated
      .ok ⟨streams.buffers ++ [st.sb], st.stats⟩
  | .call index op =>
      match streams.buffers[index]? with
      | none => .ok streams
      | some sb =>
          (op.run config ⟨sb, streams.stats⟩).map fun st =>
            ⟨streams.buffers.set index st.sb, st.stats⟩
  | .free index =>
      match streams.buffers[index]? with
      | none => .ok streams
      | some sb =>
          let st := streamBufferFree ⟨sb, streams.stats⟩
          .ok ⟨streams.buffers.set index st.sb, st.stats⟩

/-- The buffers after a list of calls. -/
def runStreams (config : StreamConfig) (policy : OsPolicy) (streams : Streams)
    (ops : List StreamsOp) : Except Fault Streams :=
  ops.foldlM (StreamsOp.run config policy) streams

/-- The call changes the length of a queued segment. -/
def StreamsOp.Resizes (config : StreamConfig) (streams : Streams) : StreamsOp → Prop
  | .call index (.insert seq (some payload) payloadLen alloc) =>
      ∃ sb ∈ streams.buffers[index]?,
        Incoming.Resizes config alloc sb ⟨seq, payload, payloadLen⟩
  | _ => False

/-- No call of a run changes the length of a queued segment. -/
def NeverResizes (config : StreamConfig) (policy : OsPolicy) :
    Streams → List StreamsOp → Prop
  | _, [] => True
  | streams, op :: ops =>
      ¬op.Resizes config streams ∧
        ∀ next, op.run config policy streams = .ok next →
          NeverResizes config policy next ops

theorem footprint_set {buffers : List StreamBuffer} {sb : StreamBuffer} :
    ∀ {index : Nat}, buffers[index]? = some sb → ∀ other : StreamBuffer,
      ((buffers.set index other).map StreamBuffer.footprint).sum + sb.footprint =
        (buffers.map StreamBuffer.footprint).sum + other.footprint := by
  induction buffers with
  | nil =>
      intro index found
      cases found
  | cons first rest inductionHypothesis =>
      intro index found other
      cases index with
      | zero =>
          cases found
          simp only [List.set_cons_zero, List.map_cons, List.sum_cons]
          omega
      | succ index =>
          have later := inductionHypothesis found other
          simp only [List.set_cons_succ, List.map_cons, List.sum_cons]
          omega

/-- `memory_used` is what the buffers hold. -/
structure Accounted (streams : Streams) : Prop where
  balanced : streams.stats.memoryUsed = BitVec.ofNat 64 streams.footprint
  kept : ∀ sb ∈ streams.buffers, Kept sb

/-- A call on one buffer that keeps its excess keeps the accounts of all. -/
theorem Accounted.update {streams : Streams} (accounted : Accounted streams) {index : Nat}
    {sb : StreamBuffer} (found : streams.buffers[index]? = some sb) {after : Reassembly}
    (same : excess after after.sb.segList = excess ⟨sb, streams.stats⟩ sb.segList)
    (kept : Kept after.sb) :
    Accounted ⟨streams.buffers.set index after.sb, after.stats⟩ := by
  constructor
  · have total := congrArg (BitVec.ofNat 64) (footprint_set found after.sb)
    have balanced := accounted.balanced
    rw [Streams.footprint] at balanced
    rw [BitVec.ofNat_add, BitVec.ofNat_add, ← balanced] at total
    rw [Streams.footprint]
    have unfolded : after.stats.memoryUsed - BitVec.ofNat 64 after.sb.footprint =
        streams.stats.memoryUsed - BitVec.ofNat 64 sb.footprint := same
    linear_combination unfolded - total
  · intro other member
    rcases List.mem_or_eq_of_mem_set member with old | rfl
    · exact accounted.kept other old
    · exact kept

theorem Op.run_kept {config : StreamConfig} {st : Reassembly} {op : Op}
    (kept : Kept st.sb) :
    ∃ after, op.run config st = .ok after ∧ Kept after.sb := by
  cases op with
  | insert seq payload payloadLen alloc =>
      rw [Op.run]
      cases payload with
      | none => exact ⟨st, rfl, kept⟩
      | some payload =>
          by_cases setUp : st.sb.data = none
          · have call := streamBufferInsertSegment_eq config alloc st
              ⟨seq, payload, payloadLen⟩
            rw [if_pos (Or.inr setUp)] at call
            dsimp only at call
            rw [call]
            exact ⟨st, rfl, kept⟩
          · obtain ⟨ret, after, call, effect⟩ := streamBufferInsertSegment_effect config
              alloc st ⟨seq, payload, payloadLen⟩ (kept.favors setUp)
            dsimp only at call
            rw [call]
            refine ⟨after, rfl, effect.surplus_eq.1.trans kept.count, ?_⟩
            intro _
            rw [effect.surplus_eq.2]
            exact kept.favors setUp
  | consume consumeLen =>
      refine ⟨_, rfl, ?_⟩
      by_cases setUp : st.sb.data = none
      · rw [streamBufferConsume, if_pos (Or.inr setUp)]
        exact kept
      · rcases streamBufferConsume_effect st consumeLen with ⟨_, same⟩ | drained
        · constructor
          · rw [surplus, same.segCount, same.segList]
            exact kept.count
          · intro _
            rw [same.osPolicy]
            exact kept.favors setUp
        · refine ⟨drained.surplus_eq.1.trans kept.count, ?_⟩
          intro _
          rw [drained.surplus_eq.2]
          exact kept.favors setUp

theorem Op.run_excess {config : StreamConfig} {st after : Reassembly} {op : Op}
    (kept : Kept st.sb)
    (apart : ∀ seq payload payloadLen alloc,
      op = .insert seq (some payload) payloadLen alloc →
      ¬Incoming.Resizes config alloc st.sb ⟨seq, payload, payloadLen⟩)
    (call : op.run config st = .ok after) :
    excess after after.sb.segList = excess st st.sb.segList := by
  cases op with
  | insert seq payload payloadLen alloc =>
      rw [Op.run] at call
      obtain ⟨⟨ret, result⟩, inserted, rfl⟩ := map_ok call
      cases payload with
      | none =>
          rw [streamBufferInsertSegment] at inserted
          cases inserted
          rfl
      | some payload =>
          have same : excess result result.sb.segList = excess st st.sb.segList :=
            @streamBufferInsertSegment_excess config alloc st result
              ⟨seq, payload, payloadLen⟩ ret kept.favors kept.count
              (apart seq payload payloadLen alloc rfl) inserted
          exact same
  | consume consumeLen =>
      cases call
      exact streamBufferConsume_excess st consumeLen

theorem foldl_segmentFree_excess (sb : StreamBuffer) (queue : List TcpSegment) :
    ∀ stats : ReassemblyStats,
      excess ⟨sb, queue.foldl segmentFree stats⟩ [] = excess ⟨sb, stats⟩ queue := by
  induction queue with
  | nil =>
      intro stats
      rfl
  | cons segment rest inductionHypothesis =>
      intro stats
      exact (inductionHypothesis (segmentFree stats segment)).trans
        (excess_segmentFree ⟨sb, stats⟩ segment rest)

theorem streamBufferFree_excess (st : Reassembly) :
    excess (streamBufferFree st) (streamBufferFree st).sb.segList =
      excess st st.sb.segList := by
  rw [← foldl_segmentFree_excess st.sb st.sb.segList st.stats]
  rw [streamBufferFree, excess, excess, StreamBuffer.allocatedSize,
    StreamBuffer.allocatedSize]
  cases live : st.sb.data with
  | none =>
      simp only [Option.isSome_none, Bool.false_eq_true, if_false]
      rfl
  | some memory =>
      simp only [Option.isSome_some, if_true, held_nil, Nat.add_zero, BitVec.ofNat_toNat]
      exact BitVec.sub_zero _

theorem streamBufferInit_excess (config : StreamConfig) (stats : ReassemblyStats)
    (initialSeq : BitVec 32) (policy : OsPolicy) (allocated : Bool) :
    excess (streamBufferInit config stats initialSeq policy allocated).2
        (streamBufferInit config stats initialSeq policy allocated).2.sb.segList =
      stats.memoryUsed := by
  have word : BitVec.ofNat 64 config.maxBufferSize.toNat = config.maxBufferSize.setWidth 64 :=
    BitVec.ofNat_toNat 64 config.maxBufferSize
  cases allocated with
  | false =>
      rw [streamBufferInit, if_neg Bool.false_ne_true]
      exact BitVec.sub_zero _
  | true =>
      rw [streamBufferInit, if_pos rfl]
      simp only [excess, StreamBuffer.allocatedSize, Option.isSome_some, if_true, held_nil,
        Nat.add_zero, word, ReassemblyStats.allocated]
      exact add_sub_cancel_right _ _

theorem streamBufferInit_kept (config : StreamConfig) (stats : ReassemblyStats)
    (initialSeq : BitVec 32) {policy : OsPolicy} (favors : policy.FavorsNew)
    (allocated : Bool) :
    Kept (streamBufferInit config stats initialSeq policy allocated).2.sb := by
  cases allocated with
  | false =>
      rw [streamBufferInit, if_neg Bool.false_ne_true]
      exact ⟨surplus_empty rfl rfl, fun live => absurd rfl live⟩
  | true =>
      rw [streamBufferInit, if_pos rfl]
      exact ⟨surplus_empty rfl rfl, fun _ => favors⟩

theorem Accounted.run {config : StreamConfig} {policy : OsPolicy} {streams : Streams}
    {op : StreamsOp} (favors : policy.FavorsNew) (accounted : Accounted streams)
    (apart : ¬op.Resizes config streams) :
    ∃ next, op.run config policy streams = .ok next ∧ Accounted next := by
  cases op with
  | init initialSeq allocated =>
      have charged := streamBufferInit_excess config streams.stats initialSeq policy allocated
      have kept := streamBufferInit_kept config streams.stats initialSeq favors allocated
      rw [StreamsOp.run]
      generalize streamBufferInit config streams.stats initialSeq policy allocated = result
        at charged kept
      refine ⟨_, rfl, ?_, ?_⟩
      · have balanced := accounted.balanced
        rw [Streams.footprint] at balanced ⊢
        rw [← charged] at balanced
        simp only [List.map_append, List.sum_append, List.map_cons, List.map_nil,
          List.sum_cons, List.sum_nil, Nat.add_zero, BitVec.ofNat_add]
        rw [← balanced]
        exact (sub_add_cancel _ _).symm
      · intro sb member
        rcases List.mem_append.mp member with old | new
        · exact accounted.kept sb old
        · rw [List.mem_singleton.mp new]
          exact kept
  | call index op =>
      cases found : streams.buffers[index]? with
      | none =>
          refine ⟨streams, ?_, accounted⟩
          rw [StreamsOp.run, found]
      | some sb =>
          have kept := accounted.kept sb (List.mem_of_getElem? found)
          obtain ⟨after, call, keptAfter⟩ :=
            @Op.run_kept config ⟨sb, streams.stats⟩ op kept
          have same := Op.run_excess kept (by
            rintro seq payload payloadLen alloc rfl resizes
            exact apart ⟨sb, found, resizes⟩) call
          refine ⟨_, ?_, accounted.update found same keptAfter⟩
          simp only [StreamsOp.run, found, call]
          rfl
  | free index =>
      cases found : streams.buffers[index]? with
      | none =>
          refine ⟨streams, ?_, accounted⟩
          rw [StreamsOp.run, found]
      | some sb =>
          refine ⟨_, ?_, accounted.update found
            (streamBufferFree_excess ⟨sb, streams.stats⟩)
            ⟨surplus_empty rfl rfl, fun live => absurd rfl live⟩⟩
          simp only [StreamsOp.run, found]

theorem Accounted.runStreams {config : StreamConfig} {policy : OsPolicy}
    (favors : policy.FavorsNew) (ops : List StreamsOp) :
    ∀ {streams : Streams}, Accounted streams → NeverResizes config policy streams ops →
      ∃ final, NetDefender.Stream.runStreams config policy streams ops = .ok final ∧
        Accounted final := by
  intro streams accounted apart
  obtain ⟨final, run, result, _⟩ := @exists_foldlM_ok _ _ _ (StreamsOp.run config policy)
    (fun _ streams rest => Accounted streams ∧ NeverResizes config policy streams rest) (by
      rintro _ streams op rest ⟨accounted, apart⟩
      obtain ⟨next, step, nextAccounted⟩ := accounted.run favors apart.1
      exact ⟨next, step, nextAccounted, apart.2 next step⟩) [] ops streams ⟨accounted, apart⟩
  exact ⟨final, run, result⟩

/-- In a run in which no queued segment changes its length, `memory_used` is the size of
the live buffers and of the queued segments, and it is zero again once all are freed. -/
theorem memory_used_accounted (config : StreamConfig) (policy : OsPolicy)
    (favors : policy.FavorsNew) (ops : List StreamsOp)
    (apart : NeverResizes config policy .start ops) :
    ∃ final, runStreams config policy .start ops = .ok final ∧
      final.stats.memoryUsed = BitVec.ofNat 64 final.footprint ∧
      ((∀ sb ∈ final.buffers, sb = .zeroed) → final.stats.memoryUsed = 0) := by
  have start : Accounted .start := ⟨rfl, fun sb member => by cases member⟩
  obtain ⟨final, run, accounted⟩ := start.runStreams favors ops apart
  refine ⟨final, run, accounted.balanced, ?_⟩
  intro freed
  have nothing : final.footprint = 0 := by
    rw [Streams.footprint, List.sum_eq_zero_iff_forall_eq_nat]
    intro size member
    obtain ⟨sb, inBuffers, rfl⟩ := List.mem_map.mp member
    rw [freed sb inBuffers]
    rfl
  rw [accounted.balanced, nothing]
  rfl

theorem NeverResizes.cons {config : StreamConfig} {policy : OsPolicy}
    {streams next : Streams} {op : StreamsOp} {ops : List StreamsOp}
    (step : op.run config policy streams = .ok next) (first : ¬op.Resizes config streams)
    (rest : NeverResizes config policy next ops) :
    NeverResizes config policy streams (op :: ops) := by
  refine ⟨first, ?_⟩
  intro other equation
  rw [step] at equation
  cases equation
  exact rest

/-- Two buffers, one of which could not be allocated.  The queued segment is replaced by
one that covers it, and is delivered; then both buffers are freed. -/
theorem memory_used_accounted_covered :
    let ops : List StreamsOp :=
      [.init 0 true, .init 0 false, .call 0 (.insert 10 (some [1, 2]) 2 .ok),
        .call 0 (.insert 8 (some (List.replicate 5 7)) 5 .ok),
        .call 0 (.insert 0 (some (List.replicate 8 0)) 8 .ok), .free 0, .free 1]
    ∃ final, runStreams .default .linux .start ops = .ok final ∧
      final.stats.memoryUsed = BitVec.ofNat 64 final.footprint ∧
      ((∀ sb ∈ final.buffers, sb = .zeroed) → final.stats.memoryUsed = 0) := by
  dsimp only
  apply memory_used_accounted .default .linux trivial
  apply NeverResizes.cons rfl id
  apply NeverResizes.cons rfl id
  apply NeverResizes.cons rfl
  · rintro ⟨sb, found, _, resizes⟩
    cases found
    exact absurd resizes (by decide)
  apply NeverResizes.cons rfl
  · rintro ⟨sb, found, _, resizes⟩
    cases found
    exact absurd resizes (by decide)
  apply NeverResizes.cons rfl
  · rintro ⟨sb, found, enqueues, _⟩
    cases found
    exact enqueues.other rfl
  apply NeverResizes.cons rfl id
  apply NeverResizes.cons rfl id
  trivial

/-- A segment that cuts the end of a queued one leaves the bytes cut off charged for good;
a merge makes the counter fall below zero. -/
theorem memory_used_drifts :
    (∃ final, runStreams .default .linux .start
        [.init 0 true, .call 0 (.insert 10 (some (List.replicate 10 1)) 10 .ok),
          .call 0 (.insert 15 (some (List.replicate 10 2)) 10 .ok), .free 0] = .ok final ∧
      final.buffers = [.zeroed] ∧ final.footprint = 0 ∧ final.stats.memoryUsed = 5) ∧
    (∃ final, runStreams .default .linux .start
        (.init 0 true ::
          ((List.range 11).map fun index =>
            .call 0 (.insert (BitVec.ofNat 32 (index + 1)) (some [0]) 1 .ok)) ++ [.free 0]) =
          .ok final ∧
      final.buffers = [.zeroed] ∧ final.footprint = 0 ∧ final.stats.memoryUsed = -10) := by
  refine ⟨⟨_, rfl, by decide, by decide, by decide⟩, ⟨_, rfl, ?_⟩⟩
  decide +kernel

end NetDefender.Stream
