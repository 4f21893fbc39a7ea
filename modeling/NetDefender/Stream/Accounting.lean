import NetDefender.Lib.Fallible
import NetDefender.Stream.Model

/-!
# The statistics are only kept

What the reassembler does to a buffer does not depend on the statistics of the module,
which all buffers share: every function does the same to buffers that are the same.
-/

namespace NetDefender.Stream

open NetDefender.Fallible

variable {config : StreamConfig} {alloc : Allocation} {st other : Reassembly}

theorem unlink_sb (same : st.sb = other.sb) (segment : TcpSegment) :
    (st.unlink segment).sb = (other.unlink segment).sb := by
  rw [Reassembly.unlink, Reassembly.unlink, same]

theorem countOverlap_sb (same : st.sb = other.sb) : st.countOverlap.sb = other.countOverlap.sb := by
  rw [Reassembly.countOverlap, Reassembly.countOverlap, same]

/-! ## The queue -/

theorem tryMergeFrom_sb (alloc : Allocation) (same : st.sb = other.sb) (merges : Nat)
    (curr : TcpSegment) (queue : List TcpSegment) :
    (tryMergeFrom alloc merges st curr queue).1 = (tryMergeFrom alloc merges other curr queue).1 ∧
      (tryMergeFrom alloc merges st curr queue).2.sb =
        (tryMergeFrom alloc merges other curr queue).2.sb := by
  induction queue generalizing merges st other curr with
  | nil => exact ⟨rfl, same⟩
  | cons next rest inductionHypothesis =>
      rw [tryMergeFrom, tryMergeFrom]
      split_ifs
      · exact inductionHypothesis (unlink_sb same next) merges curr
      · exact inductionHypothesis (unlink_sb same next) (merges + 1) (mergedSegment curr next)
      · have later := inductionHypothesis same (merges + 1) next
        exact ⟨congrArg (curr :: ·) later.1, later.2⟩
      · have later := inductionHypothesis same merges next
        exact ⟨congrArg (curr :: ·) later.1, later.2⟩

theorem tryMergeSegments_sb (same : st.sb = other.sb) :
    (tryMergeSegments alloc st).sb = (tryMergeSegments alloc other).sb := by
  rw [tryMergeSegments, tryMergeSegments, ← same]
  cases st.sb.segList with
  | nil => exact same
  | cons curr rest =>
      have merged := tryMergeFrom_sb alloc same 0 curr rest
      dsimp only
      rw [merged.1, merged.2]

theorem overlapStart_sb (same : st.sb = other.sb) (newEnd currEnd : BitVec 32)
    (newSeg curr : TcpSegment) :
    (overlapStart newEnd currEnd newSeg curr st).1 =
        (overlapStart newEnd currEnd newSeg curr other).1 ∧
      (overlapStart newEnd currEnd newSeg curr st).2.1 =
        (overlapStart newEnd currEnd newSeg curr other).2.1 ∧
      (overlapStart newEnd currEnd newSeg curr st).2.2.sb =
        (overlapStart newEnd currEnd newSeg curr other).2.2.sb := by
  rw [overlapStart, overlapStart, ← same]
  split_ifs
  · cases st.sb.osPolicy <;> exact ⟨rfl, rfl, countOverlap_sb same⟩
  · exact ⟨rfl, rfl, same⟩

theorem overlapEnd_sb (same : st.sb = other.sb) (newEnd currEnd : BitVec 32)
    (newSeg curr : TcpSegment) :
    (overlapEnd newEnd currEnd newSeg curr st).1 =
        (overlapEnd newEnd currEnd newSeg curr other).1 ∧
      (overlapEnd newEnd currEnd newSeg curr st).2.1 =
        (overlapEnd newEnd currEnd newSeg curr other).2.1 ∧
      (overlapEnd newEnd currEnd newSeg curr st).2.2.sb =
        (overlapEnd newEnd currEnd newSeg curr other).2.2.sb := by
  rw [overlapEnd, overlapEnd, ← same]
  split_ifs
  · cases st.sb.osPolicy <;> exact ⟨rfl, rfl, countOverlap_sb same⟩
  · exact ⟨rfl, rfl, same⟩

theorem overlapLoop_sb (same : st.sb = other.sb) (newEnd : BitVec 32) (newSeg : TcpSegment)
    (queue : List TcpSegment) :
    (overlapLoop newEnd newSeg st queue).1 = (overlapLoop newEnd newSeg other queue).1 ∧
      (overlapLoop newEnd newSeg st queue).2.1 = (overlapLoop newEnd newSeg other queue).2.1 ∧
      (overlapLoop newEnd newSeg st queue).2.2.sb =
        (overlapLoop newEnd newSeg other queue).2.2.sb := by
  induction queue generalizing newSeg st other with
  | nil => exact ⟨rfl, rfl, same⟩
  | cons curr rest inductionHypothesis =>
      rw [overlapLoop, overlapLoop]
      dsimp only
      split_ifs
      · rw [← same]
        have inner := inductionHypothesis (countOverlap_sb (unlink_sb same curr)) newSeg
        cases st.sb.osPolicy with
        | linux | windows | last => exact inner
        | bsd | first => exact ⟨rfl, rfl, rfl⟩
      · have start := overlapStart_sb same newEnd curr.endSeq newSeg curr
        have stop := overlapEnd_sb start.2.2 newEnd curr.endSeq
          (overlapStart newEnd curr.endSeq newSeg curr st).1
          (overlapStart newEnd curr.endSeq newSeg curr st).2.1
        rw [← start.1, ← start.2.1]
        have inner := inductionHypothesis stop.2.2
          (overlapEnd newEnd curr.endSeq (overlapStart newEnd curr.endSeq newSeg curr st).1
            (overlapStart newEnd curr.endSeq newSeg curr st).2.1
            (overlapStart newEnd curr.endSeq newSeg curr st).2.2).1
        rw [← stop.1, ← stop.2.1]
        exact ⟨inner.1, congrArg (_ :: ·) inner.2.1, inner.2.2⟩

theorem handleQueueOverlaps_sb (same : st.sb = other.sb) (newSeg : TcpSegment) :
    (handleQueueOverlaps st newSeg).1 = (handleQueueOverlaps other newSeg).1 ∧
      (handleQueueOverlaps st newSeg).2.sb = (handleQueueOverlaps other newSeg).2.sb := by
  rw [handleQueueOverlaps, handleQueueOverlaps, ← same]
  have loop := overlapLoop_sb same newSeg.endSeq newSeg st.sb.segList
  dsimp only
  rw [loop.1, loop.2.1, loop.2.2]
  exact ⟨rfl, rfl⟩

/-- Two outcomes with the same value and the same buffer. -/
def SameBuffer (done done' : Int × Reassembly) : Prop :=
  done.1 = done'.1 ∧ done.2.sb = done'.2.sb

theorem insertSegmentQueue_sb (same : st.sb = other.sb) (newSeg : TcpSegment) :
    Alike SameBuffer (insertSegmentQueue config alloc st newSeg)
      (insertSegmentQueue config alloc other newSeg) := by
  rw [insertSegmentQueue, insertSegmentQueue, ← same]
  split
  next => exact .ok ⟨rfl, rfl⟩
  next =>
      obtain ⟨first, second⟩ := handleQueueOverlaps_sb same newSeg
      generalize handleQueueOverlaps st newSeg = left at first second
      generalize handleQueueOverlaps other newSeg = right at first second
      obtain ⟨newSeg?, handled⟩ := left
      obtain ⟨newSeg?', handled'⟩ := right
      dsimp only at first second ⊢
      subst first
      cases newSeg? with
      | none => exact .error _
      | some newSeg =>
          dsimp only
          rw [← second]
          split
          next => exact .ok ⟨rfl, rfl⟩
          next =>
              cases insertSorted newSeg handled.sb.segList with
              | none => exact .ok ⟨rfl, rfl⟩
              | some queue =>
                  dsimp only
                  split
                  next => exact .ok ⟨rfl, tryMergeSegments_sb (by rfl)⟩
                  next => exact .ok ⟨rfl, rfl⟩

theorem processLoop_sb (same : st.sb = other.sb) (queue : List TcpSegment) :
    (processLoop st queue).1 = (processLoop other queue).1 ∧
      (processLoop st queue).2.sb = (processLoop other queue).2.sb := by
  induction queue generalizing st other with
  | nil =>
      rw [processLoop, processLoop, same]
      exact ⟨rfl, rfl⟩
  | cons seg rest inductionHypothesis =>
      rw [processLoop, processLoop, ← same]
      split_ifs
      · exact ⟨rfl, rfl⟩
      · exact inductionHypothesis (unlink_sb same seg)
      · exact ⟨rfl, rfl⟩
      · have later := @inductionHypothesis
          (Reassembly.unlink { st with sb := st.sb.append seg.payload seg.payloadLen } seg)
          (Reassembly.unlink { other with sb := st.sb.append seg.payload seg.payloadLen } seg) rfl
        dsimp only
        rw [later.1, later.2]
        exact ⟨rfl, rfl⟩

/-! ## Insertion -/

theorem handleBufferOverlap_sb (same : st.sb = other.sb) (segment : Incoming) :
    (handleBufferOverlap st segment).1 = (handleBufferOverlap other segment).1 ∧
      (handleBufferOverlap st segment).2.sb = (handleBufferOverlap other segment).2.sb := by
  obtain ⟨sb, stats⟩ := st
  obtain ⟨_, stats'⟩ := other
  cases same
  rw [handleBufferOverlap, handleBufferOverlap]
  dsimp only
  split_ifs <;> exact ⟨rfl, rfl⟩

theorem insertInOrder_sb (same : st.sb = other.sb) (segment : Incoming) :
    SameBuffer (insertInOrder st segment) (insertInOrder other segment) := by
  obtain ⟨sb, stats⟩ := st
  obtain ⟨_, stats'⟩ := other
  cases same
  rw [insertInOrder, insertInOrder]
  dsimp only
  split
  next => exact ⟨rfl, rfl⟩
  next => exact ⟨rfl, (processLoop_sb (by rfl) _).2⟩

theorem insertOutOfOrder_sb (same : st.sb = other.sb) (segment : Incoming) :
    Alike SameBuffer (insertOutOfOrder config alloc st segment)
      (insertOutOfOrder config alloc other segment) := by
  rw [insertOutOfOrder, insertOutOfOrder]
  dsimp only
  have trimmed := @handleBufferOverlap_sb
    { st with stats := { st.stats with segmentsOutOfOrder := st.stats.segmentsOutOfOrder + 1 } }
    { other with
      stats := { other.stats with segmentsOutOfOrder := other.stats.segmentsOutOfOrder + 1 } }
    same segment
  generalize handleBufferOverlap { st with stats := { st.stats with
    segmentsOutOfOrder := st.stats.segmentsOutOfOrder + 1 } } segment = left at trimmed ⊢
  generalize handleBufferOverlap { other with stats := { other.stats with
    segmentsOutOfOrder := other.stats.segmentsOutOfOrder + 1 } } segment = right at trimmed ⊢
  obtain ⟨segment', ⟨sb, stats⟩⟩ := left
  obtain ⟨_, ⟨_, stats'⟩⟩ := right
  obtain ⟨first, second⟩ := trimmed
  cases first
  cases second
  dsimp only
  split
  next => exact .ok ⟨rfl, rfl⟩
  next =>
      rw [segmentAlloc, segmentAlloc]
      cases granted : alloc.segment && alloc.payload with
      | false => exact .ok ⟨rfl, rfl⟩
      | true =>
          simp only [if_true]
          have queued := @insertSegmentQueue_sb config alloc
            ⟨sb, stats.allocated (sizeofTcpSegment + segment'.payloadLen.setWidth 64)⟩
            ⟨sb, stats'.allocated (sizeofTcpSegment + segment'.payloadLen.setWidth 64)⟩ rfl
            ⟨segment'.seq, segment'.payloadLen,
              segment'.payload.take segment'.payloadLen.toNat⟩
          generalize insertSegmentQueue config alloc
            ⟨sb, stats.allocated (sizeofTcpSegment + segment'.payloadLen.setWidth 64)⟩ _ = left
              at queued ⊢
          generalize insertSegmentQueue config alloc
            ⟨sb, stats'.allocated (sizeofTcpSegment + segment'.payloadLen.setWidth 64)⟩ _ = right
              at queued ⊢
          cases queued with
          | error fault => exact .error fault
          | @ok done done' values =>
              obtain ⟨ret, ⟨sb, stats⟩⟩ := done
              obtain ⟨ret', ⟨sb', stats'⟩⟩ := done'
              obtain ⟨rfl, rfl⟩ := values
              dsimp only
              split
              next => exact .ok ⟨rfl, rfl⟩
              next => exact .ok (processLoop_sb (by rfl) _)

/-- Both paths of an insertion. -/
theorem insertPlaced_sb (sb : StreamBuffer) (stats stats' : ReassemblyStats)
    (segment : Incoming) :
    Alike SameBuffer
      (if segment.seq = sb.nextSeq then .ok (insertInOrder ⟨sb, stats⟩ segment)
        else insertOutOfOrder config alloc ⟨sb, stats⟩ segment)
      (if segment.seq = sb.nextSeq then .ok (insertInOrder ⟨sb, stats'⟩ segment)
        else insertOutOfOrder config alloc ⟨sb, stats'⟩ segment) := by
  split
  next => exact .ok (insertInOrder_sb (by rfl) segment)
  next => exact insertOutOfOrder_sb (by rfl) segment

/-- The outcome of an insertion and the buffer after it depend on the buffer before it. -/
theorem streamBufferInsertSegment_sb (same : st.sb = other.sb) (seq : BitVec 32)
    (payload : Option (List UInt8)) (payloadLen : BitVec 16) :
    Alike SameBuffer (streamBufferInsertSegment config alloc st seq payload payloadLen)
      (streamBufferInsertSegment config alloc other seq payload payloadLen) := by
  obtain ⟨sb, stats⟩ := st
  obtain ⟨_, stats'⟩ := other
  cases same
  cases payload with
  | none => exact .ok ⟨rfl, rfl⟩
  | some payload =>
      simp only [streamBufferInsertSegment]
      split
      next => exact .ok ⟨rfl, rfl⟩
      next =>
          split
          next => exact .ok ⟨rfl, rfl⟩
          next =>
              split
              next => exact .ok ⟨rfl, rfl⟩
              next => exact insertPlaced_sb sb _ _ _

end NetDefender.Stream
