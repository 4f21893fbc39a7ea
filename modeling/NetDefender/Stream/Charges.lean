import NetDefender.Stream.Steps

/-!
# What a call charges and refunds

`memory_used` is charged when a segment is allocated, and refunded by the length the
segment has when it is freed.  Every function on one buffer keeps the distance between
the counter and what the buffer holds, unless it changes the length of a queued segment:
by cutting one that the new segment overlaps in part, or by a merge.
-/

namespace NetDefender.Stream

/-- What `segment_alloc` charges for a segment: the node and its payload. -/
def TcpSegment.footprint (segment : TcpSegment) : Nat :=
  sizeofTcpSegment.toNat + segment.payloadLen.toNat

/-- The footprint of a queue. -/
def held (queue : List TcpSegment) : Nat := (queue.map TcpSegment.footprint).sum

@[simp] theorem held_nil : held [] = 0 := rfl

@[simp] theorem held_cons (segment : TcpSegment) (queue : List TcpSegment) :
    held (segment :: queue) = segment.footprint + held queue := by
  rw [held, held, List.map_cons, List.sum_cons]

/-- The size of a live buffer. -/
def StreamBuffer.allocatedSize (sb : StreamBuffer) : Nat :=
  if sb.data.isSome then sb.size.toNat else 0

/-- The memory of a buffer and of its queue. -/
def StreamBuffer.footprint (sb : StreamBuffer) : Nat := sb.allocatedSize + held sb.segList

/-! ## The queue -/

/-- By how much `memory_used` exceeds the footprint of the buffer with this queue. -/
def excess (st : Reassembly) (queue : List TcpSegment) : BitVec 64 :=
  st.stats.memoryUsed - BitVec.ofNat 64 (st.sb.allocatedSize + held queue)

theorem footprint_word (segment : TcpSegment) :
    BitVec.ofNat 64 segment.footprint =
      sizeofTcpSegment + segment.payloadLen.setWidth 64 := by
  rw [TcpSegment.footprint, BitVec.ofNat_add, BitVec.ofNat_toNat, BitVec.setWidth_eq]
  congr 1
  apply BitVec.eq_of_toNat_eq
  simp

theorem excess_cons (st : Reassembly) (segment : TcpSegment) (queue : List TcpSegment) :
    excess st (segment :: queue) = excess st queue - BitVec.ofNat 64 segment.footprint := by
  rw [excess, excess, held_cons, BitVec.ofNat_add, BitVec.ofNat_add, BitVec.ofNat_add]
  ring

theorem excess_cons_congr {left right : Reassembly} {leftQueue rightQueue : List TcpSegment}
    (equality : excess left leftQueue = excess right rightQueue) (segment : TcpSegment) :
    excess left (segment :: leftQueue) = excess right (segment :: rightQueue) := by
  rw [excess_cons, excess_cons, equality]

/-- A freed segment is refunded by its own length. -/
theorem excess_segmentFree (st : Reassembly) (segment : TcpSegment)
    (queue : List TcpSegment) :
    excess { st with stats := segmentFree st.stats segment } queue =
      excess st (segment :: queue) := by
  rw [excess_cons, footprint_word, excess, excess]
  dsimp only [segmentFree]
  ring

theorem excess_unlink (st : Reassembly) (segment : TcpSegment) (queue : List TcpSegment) :
    excess (st.unlink segment) queue = excess st (segment :: queue) :=
  excess_segmentFree st segment queue

theorem excess_append (st : Reassembly) (payload : List UInt8) (payloadLen : BitVec 16)
    (queue : List TcpSegment) :
    excess { st with sb := st.sb.append payload payloadLen } queue = excess st queue := by
  have live : (st.sb.append payload payloadLen).data.isSome = st.sb.data.isSome := by
    rw [StreamBuffer.append]
    exact Option.isSome_map
  rw [excess, excess, StreamBuffer.allocatedSize, StreamBuffer.allocatedSize, live]
  rfl

/-- The drain frees what it takes off the queue. -/
theorem processLoop_excess (queue : List TcpSegment) :
    ∀ st : Reassembly,
      excess (processLoop st queue).2 (processLoop st queue).2.sb.segList =
        excess st queue := by
  induction queue with
  | nil =>
      intro st
      rfl
  | cons seg rest inductionHypothesis =>
      intro st
      rw [processLoop]
      split
      next =>
        split
        next => rfl
        next => exact (inductionHypothesis (st.unlink seg)).trans (excess_unlink st seg rest)
      next =>
        split
        next => rfl
        next =>
          let appended : Reassembly :=
            { st with sb := st.sb.append seg.payload seg.payloadLen }
          have later := inductionHypothesis (appended.unlink seg)
          rw [excess_unlink, excess_append] at later
          exact later

/-- A partial overlap: the queued segment is cut in place. -/
def Trims (newSeg curr : TcpSegment) : Prop :=
  ¬Covers newSeg curr ∧ (OverlapsStart newSeg curr ∨ OverlapsEnd newSeg curr)

instance (newSeg curr : TcpSegment) : Decidable (Trims newSeg curr) :=
  inferInstanceAs (Decidable (_ ∧ _))

/-- The overlap walk frees what the new segment covers. -/
theorem overlapLoop_excess (newSeg : TcpSegment) (queue : List TcpSegment)
    (whole : ∀ curr ∈ queue, ¬Trims newSeg curr) :
    ∀ st : Reassembly, st.sb.osPolicy.FavorsNew →
      excess (overlapLoop newSeg.endSeq newSeg st queue).2.2
          (overlapLoop newSeg.endSeq newSeg st queue).2.1 = excess st queue := by
  induction queue with
  | nil =>
      intro st _
      rfl
  | cons curr rest inductionHypothesis =>
      intro st favors
      have later := inductionHypothesis fun other member =>
        whole other (List.mem_cons_of_mem _ member)
      have first := whole curr List.mem_cons_self
      rw [overlapLoop]
      dsimp only
      split
      next =>
        have freed := (later (st.unlink curr).countOverlap favors).trans
          (excess_unlink st curr rest)
        cases policy : st.sb.osPolicy with
        | linux | windows | last => exact freed
        | bsd | first =>
            rw [policy] at favors
            exact favors.elim
      next notCovers =>
        have notStart : ¬OverlapsStart newSeg curr := fun start =>
          first ⟨notCovers, Or.inl start⟩
        have notEnd : ¬OverlapsEnd newSeg curr := fun stop =>
          first ⟨notCovers, Or.inr stop⟩
        rw [OverlapsStart] at notStart
        rw [OverlapsEnd] at notEnd
        rw [overlapStart, if_neg notStart, overlapEnd, if_neg notEnd]
        exact excess_cons_congr (later st favors) curr

/-- The merge pass absorbs a segment. -/
def absorbsFrom (granted : Nat → Bool) (merges : Nat) (curr : TcpSegment) :
    List TcpSegment → Bool
  | [] => false
  | next :: rest =>
      if seqCompare curr.endSeq next.seq ≥ 0 then
        if seqCompare next.endSeq curr.endSeq ≤ 0 then
          absorbsFrom granted merges curr rest
        else granted merges || absorbsFrom granted (merges + 1) next rest
      else absorbsFrom granted merges next rest

/-- The merge pass of a queue absorbs a segment. -/
def absorbs (granted : Nat → Bool) : List TcpSegment → Bool
  | [] => false
  | curr :: rest => absorbsFrom granted 0 curr rest

theorem tryMergeFrom_excess (alloc : Allocation) (rest : List TcpSegment) :
    ∀ (merges : Nat) (st : Reassembly) (curr : TcpSegment),
      absorbsFrom alloc.merged merges curr rest = false →
      excess (tryMergeFrom alloc merges st curr rest).2
          (tryMergeFrom alloc merges st curr rest).1 = excess st (curr :: rest) := by
  induction rest with
  | nil =>
      intro merges st curr _
      rfl
  | cons next rest inductionHypothesis =>
      intro merges st curr apart
      rw [absorbsFrom] at apart
      rw [tryMergeFrom]
      split
      next touching =>
        rw [if_pos touching] at apart
        split
        next inside =>
          rw [if_pos inside] at apart
          have freed := inductionHypothesis merges (st.unlink next) curr apart
          rw [freed, excess_cons, excess_unlink, excess_cons, excess_cons, excess_cons]
        next longer =>
          rw [if_neg longer, Bool.or_eq_false_iff] at apart
          rw [if_neg (Bool.eq_false_iff.mp apart.1)]
          exact excess_cons_congr (inductionHypothesis (merges + 1) st next apart.2) curr
      next separate =>
        rw [if_neg separate] at apart
        exact excess_cons_congr (inductionHypothesis merges st next apart) curr

theorem tryMergeSegments_excess (alloc : Allocation) (st : Reassembly)
    (apart : absorbs alloc.merged st.sb.segList = false) :
    excess (tryMergeSegments alloc st) (tryMergeSegments alloc st).sb.segList =
      excess st st.sb.segList := by
  rw [tryMergeSegments]
  split
  next list => rw [list]
  next curr rest list =>
    rw [list] at apart ⊢
    exact tryMergeFrom_excess alloc rest 0 st curr apart

theorem insertSorted_held (newSeg : TcpSegment) (queue : List TcpSegment) :
    ∀ linked, insertSorted newSeg queue = some linked →
      held linked = held (newSeg :: queue) ∧ linked.length = queue.length + 1 := by
  induction queue with
  | nil =>
      intro linked equation
      cases equation
      exact ⟨rfl, rfl⟩
  | cons curr rest inductionHypothesis =>
      intro linked equation
      rw [insertSorted] at equation
      split at equation
      next => cases equation
      next =>
        split at equation
        next =>
          cases equation
          exact ⟨rfl, rfl⟩
        next =>
          obtain ⟨later, laterEq, rfl⟩ := Option.map_eq_some_iff.mp equation
          obtain ⟨laterHeld, laterLength⟩ := inductionHypothesis later laterEq
          rw [held_cons] at laterHeld
          constructor
          · rw [held_cons, held_cons, held_cons, laterHeld]
            omega
          · rw [List.length_cons, List.length_cons, laterLength]

/-! ## An insertion -/

/-- Linking the new segment is followed by a merge pass that absorbs a segment. -/
def Absorbs (granted : Nat → Bool) (newSeg : TcpSegment) (queue : List TcpSegment) : Prop :=
  ∃ linked ∈ insertSorted newSeg (queue.filterMap (cutBy newSeg)),
    10 < linked.length ∧ absorbs granted linked = true

instance (granted : Nat → Bool) (newSeg : TcpSegment) (queue : List TcpSegment) :
    Decidable (Absorbs granted newSeg queue) :=
  inferInstanceAs (Decidable (∃ linked ∈ _, _))

/-- Linking the new segment changes the length of a queued one. -/
def Disturbs (granted : Nat → Bool) (newSeg : TcpSegment) (queue : List TcpSegment) : Prop :=
  (∃ curr ∈ queue, Trims newSeg curr) ∨ Absorbs granted newSeg queue

instance (granted : Nat → Bool) (newSeg : TcpSegment) (queue : List TcpSegment) :
    Decidable (Disturbs granted newSeg queue) :=
  inferInstanceAs (Decidable (_ ∨ _))

theorem insertSegmentQueue_excess {config : StreamConfig} {alloc : Allocation}
    {st after : Reassembly} {newSeg : TcpSegment} {ret : Int}
    (favors : st.sb.osPolicy.FavorsNew) (count : surplus st.sb st.sb.segList = 0)
    (apart : st.sb.segCount < config.maxSegments →
      ¬Disturbs alloc.merged newSeg st.sb.segList)
    (call : insertSegmentQueue config alloc st newSeg = .ok (ret, after)) :
    excess after after.sb.segList = excess st (newSeg :: st.sb.segList) := by
  rw [insertSegmentQueue] at call
  split at call
  next =>
    cases call
    exact excess_segmentFree st newSeg st.sb.segList
  next notFull =>
    have apart := apart (BitVec.not_le.mp notFull)
    have whole : ∀ curr ∈ st.sb.segList, ¬Trims newSeg curr :=
      fun curr member trims => apart (Or.inl ⟨curr, member, trims⟩)
    have freed := overlapLoop_excess newSeg st.sb.segList whole st favors
    obtain ⟨kept, overlaps, _, cutCount⟩ :=
      overlapLoop_favorsNew newSeg st.sb.segList st favors
    rw [overlaps] at freed
    rw [handleQueueOverlaps, overlaps] at call
    dsimp only at call freed
    split at call
    next =>
      cases call
      rw [← excess_cons_congr freed newSeg, ← excess_segmentFree]
      rfl
    next =>
      split at call
      next =>
        cases call
        rw [← excess_cons_congr freed newSeg, ← excess_segmentFree]
        rfl
      next linked sorted =>
        obtain ⟨linkedHeld, linkedLength⟩ := insertSorted_held newSeg _ linked sorted
        let joined : Reassembly :=
          { kept with sb :=
            { kept.sb with segList := linked, segCount := kept.sb.segCount + 1 } }
        have charged : excess joined linked = excess st (newSeg :: st.sb.segList) := by
          rw [← excess_cons_congr freed newSeg, excess, excess, linkedHeld]
          rfl
        cases call
        split
        next many =>
          have long : 10 < linked.length := by
            rw [surplus, count, sub_eq_zero] at cutCount
            rw [cutCount, gt_iff_lt, BitVec.lt_def] at many
            have one : (1 : BitVec 32) = BitVec.ofNat 32 1 := rfl
            rw [one, ← BitVec.ofNat_add, ← linkedLength, BitVec.toNat_ofNat] at many
            exact lt_of_lt_of_le many (Nat.mod_le _ _)
          have noMerge : absorbs alloc.merged linked = false := by
            rw [Bool.eq_false_iff]
            intro merging
            exact apart (Or.inr ⟨linked, sorted, long, merging⟩)
          exact (tryMergeSegments_excess alloc joined noMerge).trans charged
        next => exact charged

/-- The segment is allocated and offered to a queue with room. -/
structure Incoming.Enqueues (config : StreamConfig) (alloc : Allocation)
    (sb : StreamBuffer) (segment : Incoming) : Prop where
  valid : ¬(segment.payloadLen = 0 ∨ sb.data = none)
  live : ¬segment.BeforeBase sb
  other : (segment.fromBase sb).seq ≠ sb.nextSeq
  nonempty : ((segment.fromBase sb).pastWindow sb).payloadLen ≠ 0
  allocated : (alloc.segment && alloc.payload) = true
  room : sb.segCount < config.maxSegments

/-- The insertion changes the length of a queued segment: the new one overlaps a part of
it, or the merge pass absorbs a segment. -/
def Incoming.Resizes (config : StreamConfig) (alloc : Allocation) (sb : StreamBuffer)
    (segment : Incoming) : Prop :=
  segment.Enqueues config alloc sb ∧
    Disturbs alloc.merged
      ((segment.fromBase sb).pastWindow sb).toSegment sb.segList

theorem Reassembly.countOutOfOrder_excess (st : Reassembly) (segment : Incoming)
    (queue : List TcpSegment) :
    excess (st.countOutOfOrder segment) queue = excess st queue := by
  rw [Reassembly.countOutOfOrder, handleBufferOverlap]
  split
  next =>
    split
    next => rfl
    next => rfl
  next => rfl

/-- What `segment_alloc` adds to `memory_used` is the footprint of the new segment. -/
theorem charge_excess (st : Reassembly) (segment : Incoming) (queue : List TcpSegment) :
    excess (st.charge segment) (segment.toSegment :: queue) = excess st queue := by
  rw [excess_cons, footprint_word, excess, excess]
  have used : (st.charge segment).stats.memoryUsed = st.stats.memoryUsed +
      (sizeofTcpSegment + segment.payloadLen.setWidth 64) := rfl
  have size : (st.charge segment).sb = st.sb := rfl
  rw [used, size, Incoming.toSegment]
  ring

theorem insertOutOfOrder_excess {config : StreamConfig} {alloc : Allocation}
    {st after : Reassembly} {segment : Incoming} {ret : Int}
    (favors : st.sb.osPolicy.FavorsNew) (count : surplus st.sb st.sb.segList = 0)
    (apart : (segment.pastWindow st.sb).payloadLen ≠ 0 →
      (alloc.segment && alloc.payload) = true → st.sb.segCount < config.maxSegments →
      ¬Disturbs alloc.merged (segment.pastWindow st.sb).toSegment st.sb.segList)
    (call : insertOutOfOrder config alloc st segment = .ok (ret, after)) :
    excess after after.sb.segList = excess st st.sb.segList := by
  have same := st.countOutOfOrder_sameContent segment
  have kept := st.countOutOfOrder_excess segment
  rw [insertOutOfOrder_eq] at call
  split at call
  next =>
    cases call
    rw [kept, same.segList]
  next nonempty =>
    split at call
    next allocated =>
      generalize offer : (st.countOutOfOrder segment).charge (segment.pastWindow st.sb) =
        offered at call
      have charged : SameContent st.sb offered.sb := by
        rw [← offer]
        exact same
      have balance : excess offered
          ((segment.pastWindow st.sb).toSegment :: st.sb.segList) =
          excess st st.sb.segList := by
        rw [← kept, ← offer]
        exact charge_excess _ _ _
      split at call
      next => cases call
      next inserted queued equation =>
        have linked := insertSegmentQueue_excess (charged.osPolicy ▸ favors)
          (by
            rw [surplus, charged.segCount, charged.segList]
            exact count)
          (by
            rw [charged.segCount, charged.segList]
            exact apart nonempty allocated) equation
        rw [charged.segList, balance] at linked
        split at call
        next =>
          cases call
          exact linked
        next =>
          have drained := processLoop_excess queued.sb.segList queued
          injection call with call
          rw [processSegmentQueue] at call
          rw [call] at drained
          exact drained.trans linked
    next =>
      cases call
      rw [Reassembly.countDropped, same.segList]
      exact kept _

theorem insertInOrder_excess (st : Reassembly) (segment : Incoming) :
    excess (insertInOrder st segment).2 (insertInOrder st segment).2.sb.segList =
      excess st st.sb.segList := by
  rw [insertInOrder]
  dsimp only
  split
  next => rfl
  next =>
    rw [processSegmentQueue]
    refine (processLoop_excess _ _).trans ?_
    exact excess_append st segment.payload segment.payloadLen st.sb.segList

/-- An insertion that resizes nothing keeps the accounts as they are. -/
theorem streamBufferInsertSegment_excess {config : StreamConfig} {alloc : Allocation}
    {st after : Reassembly} {segment : Incoming} {ret : Int}
    (favors : st.sb.data ≠ none → st.sb.osPolicy.FavorsNew)
    (count : surplus st.sb st.sb.segList = 0)
    (apart : ¬segment.Resizes config alloc st.sb)
    (call : streamBufferInsertSegment config alloc st segment.seq (some segment.payload)
      segment.payloadLen = .ok (ret, after)) :
    excess after after.sb.segList = excess st st.sb.segList := by
  rw [streamBufferInsertSegment_eq] at call
  split at call
  next =>
    cases call
    rfl
  next valid =>
    split at call
    next =>
      cases call
      rfl
    next live =>
      split at call
      next =>
        injection call with call
        have kept := insertInOrder_excess st.countInserted (segment.fromBase st.sb)
        rw [call] at kept
        exact kept
      next other =>
        have setUp : st.sb.data ≠ none := fun missing => valid (Or.inr missing)
        have kept : excess after after.sb.segList =
            excess st.countInserted st.countInserted.sb.segList := by
          refine insertOutOfOrder_excess (favors setUp) count ?_ call
          intro nonempty allocated room resizes
          exact apart ⟨⟨valid, live, other, nonempty, allocated, room⟩, resizes⟩
        exact kept

theorem streamBufferConsume_excess (st : Reassembly) (consumeLen : BitVec 32) :
    excess (streamBufferConsume st consumeLen).2
        (streamBufferConsume st consumeLen).2.sb.segList = excess st st.sb.segList := by
  rw [streamBufferConsume]
  split
  next => rfl
  next =>
    dsimp only
    let moved : Reassembly :=
      { st with sb := st.sb.slide (st.sb.clampConsume consumeLen) }
    have kept : excess moved st.sb.segList = excess st st.sb.segList := by
      have live : moved.sb.data.isSome = st.sb.data.isSome := Option.isSome_map
      rw [excess, excess, StreamBuffer.allocatedSize, StreamBuffer.allocatedSize, live]
      rfl
    split
    next => exact (processLoop_excess st.sb.segList moved).trans kept
    next => exact kept

end NetDefender.Stream
