import NetDefender.Stream.Counters
import NetDefender.Stream.Coverage

/-!
# The queue is sorted and never stalls

Every segment that gets past the test against `base_seq` stops less than `2 ^ 31`
ahead of it, and so does whatever the trims and merges make of it.  Within that
half of the sequence space the queue is a list of spans sorted by their start,
and a drain leaves nothing at its front that the buffer has room for.
-/

namespace NetDefender.Stream

open Serial Span

/-! ## Segments on their way in -/

/-- What the adjustment to `base_seq` lets through stops near `base_seq`. -/
theorem Incoming.fromBase_near {sb : StreamBuffer} {segment : Incoming}
    (live : ¬segment.BeforeBase sb) :
    ((segment.fromBase sb).toSegment.span sb.baseSeq).hi < 2 ^ 31 := by
  rw [Incoming.fromBase]
  split
  next before =>
    have lengthBound :=
      (segment.skip sb.baseSeq (sb.baseSeq - segment.seq)).payloadLen.isLt
    have start : offset sb.baseSeq
        (segment.skip sb.baseSeq (sb.baseSeq - segment.seq)).seq = 0 := offset_self _
    simp only [TcpSegment.span, Incoming.toSegment]
    omega
  next after =>
    have lengthBound := segment.payloadLen.isLt
    have started := not_lt.mp after
    have notOld : 0 < seqCompare segment.endSeq sb.baseSeq := by
      apply not_le.mp
      intro old
      exact live (Or.inl old)
    rw [seqCompare_nonneg_iff] at started
    rw [seqCompare_pos_iff, Incoming.endSeq, setWidth_eq_ofNat, offset_add_ofNat]
      at notOld
    simp only [TcpSegment.span, Incoming.toSegment]
    omega

/-- Trimming to `next_seq` keeps a segment near `base_seq`. -/
theorem Incoming.pastWindow_near {sb : StreamBuffer} {segment : Incoming}
    (near : (segment.toSegment.span sb.baseSeq).hi < 2 ^ 31)
    (window : offset sb.baseSeq sb.nextSeq ≤ 2 ^ 30) :
    ((segment.pastWindow sb).toSegment.span sb.baseSeq).hi < 2 ^ 31 := by
  simp only [TcpSegment.span, Incoming.toSegment] at near ⊢
  rw [Incoming.pastWindow]
  split
  next =>
    split
    next =>
      have zero : (0 : BitVec 16).toNat = 0 := rfl
      dsimp only
      omega
    next =>
      have lengthBound :=
        (segment.skip sb.nextSeq (sb.nextSeq - segment.seq)).payloadLen.isLt
      have start : offset sb.baseSeq
          (segment.skip sb.nextSeq (sb.nextSeq - segment.seq)).seq =
          offset sb.baseSeq sb.nextSeq := rfl
      omega
  next => exact near

/-! ## The merge pass -/

section Merge

variable {base : BitVec 32} {before after : List TcpSegment}

/-- A queue near `base`, sorted by the start. -/
structure Ordered (base : BitVec 32) (queue : List TcpSegment) : Prop where
  near : ∀ segment ∈ queue, (segment.span base).hi < 2 ^ 31
  sorted : Sorted (queue.map (TcpSegment.span base))

/-- Neighbours are in order. -/
theorem Ordered.lo_le_next {front rest : List TcpSegment} {curr next : TcpSegment}
    (ordered : Ordered base (front ++ curr :: next :: rest)) :
    (curr.span base).lo ≤ (next.span base).lo := by
  have sorted := ordered.sorted
  rw [List.map_append, List.map_cons, List.map_cons] at sorted
  have tail := (List.pairwise_append.mp sorted).2.1
  exact (List.pairwise_cons.mp tail).1 _ List.mem_cons_self

/-- The 16-bit length of a merged segment never exceeds its true length. -/
theorem mergedSegment_hi_le {curr next : TcpSegment}
    (nextNear : (next.span base).hi < 2 ^ 31)
    (order : (curr.span base).lo ≤ (next.span base).lo) :
    ((mergedSegment curr next).span base).hi ≤ (next.span base).hi := by
  have nextOrder := next.lo_le_hi base
  have start : ((mergedSegment curr next).span base).lo = (curr.span base).lo := rfl
  have length := (mergedSegment curr next).toNat_payloadLen base
  have wrapped : (mergedSegment curr next).payloadLen.toNat ≤
      (next.span base).hi - (curr.span base).lo := by
    rw [mergedSegment]
    dsimp only
    rw [BitVec.toNat_setWidth, toNat_sub_eq_offset, offset_rebase base curr.seq,
      TcpSegment.offset_endSeq_of_near nextNear, TcpSegment.offset_seq]
    omega
  omega

theorem Ordered.mergeStep (ordered : Ordered base before)
    (step : MergeStep before after) : Ordered base after := by
  cases step with
  | contained front rest curr next touching inside =>
      have kept : (front ++ curr :: rest).Sublist (front ++ curr :: next :: rest) :=
        ((List.sublist_cons_self next rest).cons_cons curr).append_left front
      constructor
      · intro segment member
        exact ordered.near segment (kept.mem member)
      · exact ordered.sorted.sublist (kept.map _)
  | absorbed front rest curr next touching longer =>
      have sorted := ordered.sorted
      rw [List.map_append, List.map_cons, List.map_cons] at sorted
      have shorter := mergedSegment_hi_le (ordered.near next (by simp))
        ordered.lo_le_next
      have nextNear := ordered.near next (by simp)
      constructor
      · intro segment member
        rw [List.mem_append, List.mem_cons] at member
        rcases member with inFront | rfl | inRest
        · exact ordered.near segment (by simp [inFront])
        · exact lt_of_le_of_lt shorter nextNear
        · exact ordered.near segment (by simp [inRest])
      · have start : ((mergedSegment curr next).span base).lo =
            (curr.span base).lo := rfl
        rw [List.map_append, List.map_cons]
        apply sorted_replace start
        exact sorted.sublist
          (((List.sublist_cons_self _ _).cons_cons _).append_left _)

theorem Ordered.mergeSteps (ordered : Ordered base before)
    (steps : MergeSteps before after) : Ordered base after := by
  induction steps with
  | refl => exact ordered
  | tail _ step inductionHypothesis => exact inductionHypothesis.mergeStep step

end Merge

/-! ## The invariant -/

namespace Ordered

variable {base : BitVec 32} {sb after : StreamBuffer}

theorem tail {segment : TcpSegment} {rest : List TcpSegment}
    (ordered : Ordered base (segment :: rest)) : Ordered base rest where
  near other member := ordered.near other (List.mem_cons_of_mem _ member)
  sorted := (List.pairwise_cons.mp ordered.sorted).2

theorem lo_le {segment : TcpSegment} {rest : List TcpSegment}
    (ordered : Ordered base (segment :: rest)) :
    ∀ other ∈ rest, (segment.span base).lo ≤ (other.span base).lo := by
  intro other member
  exact (List.pairwise_cons.mp ordered.sorted).1 _ (List.mem_map_of_mem member)

theorem lo_le_self {segment : TcpSegment} {rest : List TcpSegment}
    (ordered : Ordered base (segment :: rest)) :
    ∀ other ∈ segment :: rest, (segment.span base).lo ≤ (other.span base).lo := by
  intro other member
  cases member with
  | head => exact le_rfl
  | tail _ member => exact ordered.lo_le other member

theorem enqueue {granted : Nat → Bool} {newSeg : TcpSegment}
    {front back : List TcpSegment} (ordered : Ordered base sb.segList)
    (near : (newSeg.span base).hi < 2 ^ 31)
    (enqueued : Enqueued granted newSeg sb after front back) :
    Ordered base after.segList := by
  have split := filterMap_cutBy_span near ordered.near
  rw [enqueued.split, List.map_append] at split
  have bounded : ∀ segment ∈ front ++ back, (segment.span base).hi < 2 ^ 31 := by
    intro segment member
    have inCut := List.mem_map_of_mem (f := TcpSegment.span base) member
    rw [List.map_append, split] at inCut
    obtain ⟨span, inSpans, result⟩ := List.mem_filterMap.mp inCut
    obtain ⟨curr, inQueue, rfl⟩ := List.mem_map.mp inSpans
    exact lt_of_le_of_lt (cut_bounds result).2 (ordered.near curr inQueue)
  have start : ∀ segment ∈ front ++ back, offset base segment.seq < 2 ^ 31 := by
    intro segment member
    exact lt_of_le_of_lt (segment.lo_le_hi base) (bounded segment member)
  have newStart : offset base newSeg.seq < 2 ^ 31 :=
    lt_of_le_of_lt (newSeg.lo_le_hi base) near
  apply Ordered.mergeSteps _ enqueued.mergeSteps
  constructor
  · intro segment member
    rw [List.mem_append, List.mem_cons, or_left_comm, ← List.mem_append] at member
    rcases member with rfl | member
    · exact near
    · exact bounded segment member
  · rw [List.map_append, List.map_cons]
    apply sorted_insert
    · rw [split]
      exact sorted_cut _ ordered.sorted
    · intro span member
      obtain ⟨curr, inFront, rfl⟩ := List.mem_map.mp member
      have order := enqueued.front_le curr inFront
      rwa [seqCompare_nonneg_of_near newStart
        (start curr (List.mem_append_left _ inFront))] at order
    · intro span member
      rw [List.head?_map, Option.mem_map] at member
      obtain ⟨curr, inBack, rfl⟩ := member
      have order := enqueued.back_gt curr inBack
      rwa [seqCompare_neg_of_near newStart (start curr
        (List.mem_append_right _ (List.mem_of_mem_head? inBack)))] at order

theorem drainStep (ordered : Ordered sb.baseSeq sb.segList)
    (step : DrainStep sb after) : Ordered after.baseSeq after.segList := by
  cases step with
  | stale list other behind =>
      rw [list] at ordered
      exact ordered.tail
  | deliver list next fits =>
      rw [list] at ordered
      exact ordered.tail

end Ordered

/-- The queue between two calls: it is sorted, starts at or after `next_seq`, and
its first segment cannot be delivered. -/
structure Resting (sb : StreamBuffer) : Prop where
  ordered : Ordered sb.baseSeq sb.segList
  ahead : ∀ segment ∈ sb.segList,
    sb.dataLen.toNat ≤ (segment.span sb.baseSeq).lo
  blocked : ∀ segment ∈ sb.segList.head?, segment.seq = sb.nextSeq →
    sb.maxBufferSize.toNat < sb.dataLen.toNat + segment.payloadLen.toNat

section Runs

variable {config : StreamConfig} {removed : Nat} {sb after : StreamBuffer}

theorem Counted.offset_next (counted : Counted config removed sb) :
    offset sb.baseSeq sb.nextSeq = sb.dataLen.toNat := by
  rw [counted.next, offset, add_sub_cancel_left]

/-- The signed distance from `next_seq` of a segment near `base_seq`. -/
theorem toInt_sub_next (atNext : offset sb.baseSeq sb.nextSeq = sb.dataLen.toNat)
    (windowNear : sb.dataLen.toNat < 2 ^ 31) {segment : TcpSegment}
    (near : (segment.span sb.baseSeq).hi < 2 ^ 31) :
    (segment.seq - sb.nextSeq).toInt =
      (segment.span sb.baseSeq).lo - (sb.dataLen.toNat : Int) := by
  have order := segment.lo_le_hi sb.baseSeq
  rw [BitVec.toInt_eq_toNat_cond, toNat_sub_eq_offset,
    offset_rebase sb.baseSeq sb.nextSeq, atNext, TcpSegment.offset_seq]
  split <;> omega

/-- Where the drain halts, the whole queue lies ahead of `next_seq`. -/
theorem Ordered.ahead_of_halted (ordered : Ordered sb.baseSeq sb.segList)
    (atNext : offset sb.baseSeq sb.nextSeq = sb.dataLen.toNat)
    (windowNear : sb.dataLen.toNat < 2 ^ 31) (halted : Halted sb) :
    ∀ segment ∈ sb.segList, sb.dataLen.toNat ≤ (segment.span sb.baseSeq).lo := by
  cases list : sb.segList with
  | nil => simp
  | cons first rest =>
      rw [list] at ordered
      have firstAhead : sb.dataLen.toNat ≤ (first.span sb.baseSeq).lo := by
        have distance := toInt_sub_next atNext windowNear
          (ordered.near first List.mem_cons_self)
        rcases halted first (by simp [list]) with ⟨_, gap⟩ | ⟨next, _⟩
        · omega
        · rw [next, sub_self] at distance
          have zero : (0 : BitVec 32).toInt = 0 := rfl
          omega
      intro segment member
      rcases List.mem_cons.mp member with rfl | inRest
      · exact firstAhead
      · exact firstAhead.trans (ordered.lo_le segment inRest)

theorem Counted.windowNear (counted : Counted config removed sb)
    (capacity : config.maxBufferSize.toNat ≤ 2 ^ 30) :
    sb.dataLen.toNat < 2 ^ 31 := by
  have window := BitVec.le_def.mp counted.window
  rw [counted.capacity] at window
  omega

theorem Resting.of_sameContent (resting : Resting sb)
    (same : SameContent sb after) : Resting after := by
  obtain ⟨ordered, ahead, blocked⟩ := resting
  constructor
  · rw [same.baseSeq, same.segList]
    exact ordered
  · rw [same.baseSeq, same.segList, same.dataLen]
    exact ahead
  · rw [same.segList, same.nextSeq, same.dataLen, same.maxBufferSize]
    exact blocked

theorem Ordered.resting_of_halted (ordered : Ordered sb.baseSeq sb.segList)
    (counted : Counted config removed sb)
    (capacity : config.maxBufferSize.toNat ≤ 2 ^ 30) (halted : Halted sb) :
    Resting sb := by
  refine ⟨ordered, ordered.ahead_of_halted counted.offset_next
    (counted.windowNear capacity) halted, ?_⟩
  intro first member next
  rcases halted first member with ⟨other, _⟩ | ⟨_, full⟩
  · exact absurd next other
  · rw [gt_iff_lt, BitVec.lt_def,
      counted.toNat_dataLen_add (capacity.trans (by decide))] at full
    exact full

/-- A drain brings the queue to rest. -/
theorem Ordered.drain (ordered : Ordered sb.baseSeq sb.segList)
    (counted : Counted config removed sb)
    (capacity : config.maxBufferSize.toNat ≤ 2 ^ 30) (drained : Drained sb after) :
    Resting after := by
  obtain ⟨last, ⟨lastCounted, lastOrdered⟩, halted, same⟩ := drained.invariant
    (motive := fun sb => Counted config removed sb ∧
      Ordered sb.baseSeq sb.segList) ⟨counted, ordered⟩ (by
        intro sb next before step
        exact ⟨before.1.drainStep (capacity.trans (by decide)) step,
          before.2.drainStep step⟩)
  exact (lastOrdered.resting_of_halted lastCounted capacity halted).of_sameContent same

theorem Resting.insertEffect (resting : Resting sb)
    (counted : Counted config removed sb)
    (capacity : config.maxBufferSize.toNat ≤ 2 ^ 30) {alloc : Allocation}
    {segment : Incoming} (effect : InsertEffect config alloc sb segment after) :
    Resting after := by
  have roomy : config.maxBufferSize.toNat ≤ 2 ^ 32 - 65536 :=
    capacity.trans (by decide)
  cases effect with
  | ignored reason same => exact resting.of_sameContent same
  | inOrder valid live next fits drained =>
      have appended : Ordered
          (sb.append (segment.fromBase sb).payload
            (segment.fromBase sb).payloadLen).baseSeq
          (sb.append (segment.fromBase sb).payload
            (segment.fromBase sb).payloadLen).segList := resting.ordered
      exact appended.drain (counted.append roomy fits) capacity drained
  | queued middle front back valid live other nonempty room enqueued drained =>
      have window := BitVec.le_def.mp counted.window
      rw [counted.capacity, ← counted.offset_next] at window
      have near := Incoming.pastWindow_near (Incoming.fromBase_near live)
        (window.trans capacity)
      have ordered := resting.ordered.enqueue near enqueued
      rw [← enqueued.window.baseSeq] at ordered
      exact ordered.drain (counted.enqueue room enqueued) capacity drained

/-- Sliding the window moves `base_seq` by no more than the window holds. -/
theorem Resting.slide (resting : Resting sb) {count : BitVec 32}
    (inWindow : count ≤ sb.dataLen) :
    Ordered (sb.slide count).baseSeq (sb.slide count).segList := by
  have order := BitVec.le_def.mp inWindow
  have moved : ∀ segment ∈ sb.segList,
      (segment.span (sb.baseSeq + count)).lo + count.toNat =
        (segment.span sb.baseSeq).lo := by
    intro segment member
    have ahead := resting.ahead segment member
    have bound := offset_lt sb.baseSeq segment.seq
    have base : offset sb.baseSeq (sb.baseSeq + count) = count.toNat := by
      rw [offset, add_sub_cancel_left]
    rw [← TcpSegment.offset_seq, ← TcpSegment.offset_seq,
      offset_rebase sb.baseSeq (sb.baseSeq + count), base]
    rw [← TcpSegment.offset_seq] at ahead
    omega
  constructor
  · intro segment member
    have near := resting.ordered.near segment member
    have start := moved segment member
    have stop : (segment.span sb.baseSeq).hi =
        (segment.span sb.baseSeq).lo + segment.payloadLen.toNat := rfl
    have slidStop : (segment.span (sb.slide count).baseSeq).hi =
        (segment.span (sb.baseSeq + count)).lo + segment.payloadLen.toNat := rfl
    omega
  · have sorted := resting.ordered.sorted
    rw [Sorted, List.pairwise_map] at sorted ⊢
    apply sorted.imp_of_mem
    intro earlier later inQueue laterInQueue starts
    have start := moved earlier inQueue
    have laterStart := moved later laterInQueue
    have slidBase : (sb.slide count).baseSeq = sb.baseSeq + count := rfl
    rw [slidBase]
    omega

theorem Resting.run {st : Reassembly} (resting : Resting st.sb)
    (counted : Counted config removed st.sb)
    (capacity : config.maxBufferSize.toNat ≤ 2 ^ 30) (op : Op) {next : Reassembly}
    (step : op.run config st = .ok next) : Resting next.sb := by
  cases op with
  | insert seq payload payloadLen alloc =>
      cases payload with
      | none =>
          cases step
          exact resting
      | some payload =>
          obtain ⟨ret, called, equation, effect⟩ :=
            streamBufferInsertSegment_effect config alloc st
              ⟨seq, payload, payloadLen⟩ counted.favors
          rw [Op.run, equation] at step
          cases step
          exact resting.insertEffect counted capacity effect
  | consume consumeLen =>
      cases step
      have inWindow := st.sb.clampConsume_le_dataLen consumeLen
      rcases streamBufferConsume_effect st consumeLen with ⟨_, same⟩ | drained
      · exact resting.of_sameContent same
      · exact (resting.slide inWindow).drain (counted.slide inWindow) capacity drained

theorem Resting.runOps (capacity : config.maxBufferSize.toNat ≤ 2 ^ 30)
    (ops : List Op) : ∀ {st : Reassembly} {removed : Nat},
      Counted config removed st.sb → Resting st.sb →
      ∃ final removed, runOps config st ops = .ok final ∧
        Counted config removed final.sb ∧ Resting final.sb := by
  intro st removed counted resting
  obtain ⟨final, run, total, finalCounted, finalResting⟩ :=
    @Fallible.exists_foldlM_invariant _ _ _ (Op.run config)
      (fun st : Reassembly => ∃ removed, Counted config removed st.sb ∧ Resting st.sb)
      (fun _ => True) (by
        rintro st op ⟨removed, counted, resting⟩ _
        obtain ⟨next, step, nextCounted⟩ := counted.run (capacity.trans (by decide)) op
        exact ⟨next, step, _, nextCounted, resting.run counted capacity op step⟩)
      ops st ⟨removed, counted, resting⟩ fun _ _ => trivial
  exact ⟨final, total, run, finalCounted, finalResting⟩

end Runs

/-- After any calls the queue is sorted, lies ahead of `next_seq`, and holds
nothing that could be delivered. -/
theorem queue_sorted_and_blocked (config : StreamConfig) (stats : ReassemblyStats)
    (initialSeq : BitVec 32) (policy : OsPolicy) (favors : policy.FavorsNew)
    (capacity : config.maxBufferSize.toNat ≤ 2 ^ 30) (ops : List Op) :
    ∃ final, runOps config
        (streamBufferInit config stats initialSeq policy true).2 ops = .ok final ∧
      final.sb.segList.Pairwise (fun earlier later =>
        (earlier.seq - final.sb.nextSeq).toInt ≤
          (later.seq - final.sb.nextSeq).toInt) ∧
      (∀ segment ∈ final.sb.segList, 0 ≤ (segment.seq - final.sb.nextSeq).toInt) ∧
      ∀ segment ∈ final.sb.segList.head?, segment.seq = final.sb.nextSeq →
        final.sb.maxBufferSize.toNat <
          final.sb.dataLen.toNat + segment.payloadLen.toNat := by
  have empty : Resting
      (streamBufferInit config stats initialSeq policy true).2.sb := by
    refine ⟨⟨?_, List.Pairwise.nil⟩, ?_, ?_⟩
    · intro segment member
      cases member
    · intro segment member
      cases member
    · intro segment member
      cases member
  obtain ⟨final, removed, run, counted, resting⟩ := Resting.runOps capacity ops
    (streamBufferInit_counted config stats initialSeq policy favors) empty
  have near := resting.ordered.near
  have distance : ∀ segment ∈ final.sb.segList,
      (segment.seq - final.sb.nextSeq).toInt =
        (segment.span final.sb.baseSeq).lo - (final.sb.dataLen.toNat : Int) := by
    intro segment member
    exact toInt_sub_next counted.offset_next (counted.windowNear capacity)
      (near segment member)
  refine ⟨final, run, ?_, ?_, resting.blocked⟩
  · have sorted := resting.ordered.sorted
    rw [Sorted, List.pairwise_map] at sorted
    apply sorted.imp_of_mem
    intro earlier later inQueue laterInQueue starts
    rw [distance earlier inQueue, distance later laterInQueue]
    omega
  · intro segment member
    have ahead := resting.ahead segment member
    rw [distance segment member]
    omega

/-- Three segments out of order across the wrap of the sequence space, in a
buffer that has room for the first byte only. -/
theorem queue_sorted_and_blocked_wrap :
    let config : StreamConfig := { StreamConfig.default with maxBufferSize := 2 }
    let ops : List Op :=
      [.insert 1 (some [4, 5]) 2 .ok, .insert 0xFFFFFFFF (some [2, 3]) 2 .ok,
        .insert 0xFFFFFFFE (some [1]) 1 .ok]
    ∃ final, runOps config
        (streamBufferInit config {} 0xFFFFFFFE .linux true).2 ops = .ok final ∧
      final.sb.segList.Pairwise (fun earlier later =>
        (earlier.seq - final.sb.nextSeq).toInt ≤
          (later.seq - final.sb.nextSeq).toInt) ∧
      (∀ segment ∈ final.sb.segList, 0 ≤ (segment.seq - final.sb.nextSeq).toInt) ∧
      ∀ segment ∈ final.sb.segList.head?, segment.seq = final.sb.nextSeq →
        final.sb.maxBufferSize.toNat <
          final.sb.dataLen.toNat + segment.payloadLen.toNat :=
  queue_sorted_and_blocked _ {} 0xFFFFFFFE .linux (by decide) (by decide) _

end NetDefender.Stream
