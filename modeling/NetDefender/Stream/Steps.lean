import NetDefender.Stream.Queue

/-!
# What one call can do

An inversion principle for `stream_buffer_insert_segment` and
`stream_buffer_consume` under the policies that favor new data: a call leaves the
buffer alone for one of the listed reasons, appends in order and drains, or
enqueues and drains.  Every invariant of the reassembler is proved from these
cases.
-/

namespace NetDefender.Stream

open Serial

/-- `seq + payload_len` of a segment on its way in. -/
def Incoming.endSeq (segment : Incoming) : BitVec 32 :=
  segment.seq + segment.payloadLen.setWidth 32

/-- The segment after the adjustment to `base_seq`. -/
def Incoming.fromBase (sb : StreamBuffer) (segment : Incoming) : Incoming :=
  if seqCompare segment.seq sb.baseSeq < 0 then
    segment.skip sb.baseSeq (sb.baseSeq - segment.seq)
  else segment

/-- The segment after `handle_buffer_overlap`. -/
def Incoming.pastWindow (sb : StreamBuffer) (segment : Incoming) : Incoming :=
  if seqCompare segment.seq sb.nextSeq < 0 then
    if seqCompare segment.endSeq sb.nextSeq ≤ 0 then
      { segment with payloadLen := 0 }
    else segment.skip sb.nextSeq (sb.nextSeq - segment.seq)
  else segment

/-- The queue entry that `segment_alloc` makes of a segment. -/
def Incoming.toSegment (segment : Incoming) : TcpSegment where
  seq := segment.seq
  payloadLen := segment.payloadLen
  payload := segment.payload.take segment.payloadLen.toNat

/-- The segment lies wholly before `base_seq`. -/
def Incoming.BeforeBase (sb : StreamBuffer) (segment : Incoming) : Prop :=
  seqCompare segment.endSeq sb.baseSeq ≤ 0 ∨
    (seqCompare segment.seq sb.baseSeq < 0 ∧
      sb.baseSeq - segment.seq ≥ segment.payloadLen.setWidth 32)

instance (sb : StreamBuffer) (segment : Incoming) :
    Decidable (segment.BeforeBase sb) :=
  inferInstanceAs (Decidable (_ ∨ _))

/-- The buffer has no room to append the segment. -/
def Incoming.Overflows (sb : StreamBuffer) (segment : Incoming) : Prop :=
  sb.dataLen + segment.payloadLen.setWidth 32 > sb.maxBufferSize

instance (sb : StreamBuffer) (segment : Incoming) :
    Decidable (segment.Overflows sb) :=
  inferInstanceAs (Decidable (_ > _))

/-- The reasons for which an insertion leaves the buffer as it is. -/
inductive Ignored (config : StreamConfig) (alloc : Allocation)
    (sb : StreamBuffer) (segment : Incoming) : Prop where
  | invalid (reason : segment.payloadLen = 0 ∨ sb.data = none)
  | consumed (before : segment.BeforeBase sb)
  | full (live : ¬segment.BeforeBase sb)
      (next : (segment.fromBase sb).seq = sb.nextSeq)
      (full : (segment.fromBase sb).Overflows sb)
  | known (live : ¬segment.BeforeBase sb)
      (other : (segment.fromBase sb).seq ≠ sb.nextSeq)
      (empty : ((segment.fromBase sb).pastWindow sb).payloadLen = 0)
  | refused (live : ¬segment.BeforeBase sb)
      (other : (segment.fromBase sb).seq ≠ sb.nextSeq)
      (nonempty : ((segment.fromBase sb).pastWindow sb).payloadLen ≠ 0)
      (reason : alloc.segment = false ∨ alloc.payload = false ∨
      config.maxSegments ≤ sb.segCount)

/-- The buffer after an insertion. -/
inductive InsertEffect (config : StreamConfig) (alloc : Allocation)
    (sb : StreamBuffer) (segment : Incoming) (after : StreamBuffer) : Prop where
  | ignored (reason : Ignored config alloc sb segment)
      (same : SameContent sb after)
  | inOrder (valid : segment.payloadLen ≠ 0) (live : ¬segment.BeforeBase sb)
      (next : (segment.fromBase sb).seq = sb.nextSeq)
      (fits : ¬(segment.fromBase sb).Overflows sb)
      (drained : Drained (sb.append (segment.fromBase sb).payload
        (segment.fromBase sb).payloadLen) after)
  | queued (middle : StreamBuffer) (front back : List TcpSegment)
      (valid : segment.payloadLen ≠ 0) (live : ¬segment.BeforeBase sb)
      (other : (segment.fromBase sb).seq ≠ sb.nextSeq)
      (nonempty : ((segment.fromBase sb).pastWindow sb).payloadLen ≠ 0)
      (room : sb.segCount < config.maxSegments)
      (enqueued : Enqueued alloc.merged
        ((segment.fromBase sb).pastWindow sb).toSegment sb middle front back)
      (drained : Drained middle after)

theorem handleBufferOverlap_spec (st : Reassembly) (segment : Incoming) :
    (handleBufferOverlap st segment).1 = segment.pastWindow st.sb ∧
      SameContent st.sb (handleBufferOverlap st segment).2.sb := by
  rw [handleBufferOverlap, Incoming.pastWindow, Incoming.endSeq]
  split
  next =>
    split
    next => exact ⟨rfl, SameContent.refl _⟩
    next => exact ⟨rfl, ⟨rfl, rfl, rfl, rfl, rfl, rfl, rfl⟩, rfl, rfl⟩
  next => exact ⟨rfl, SameContent.refl _⟩

theorem Enqueued.of_sameContent {granted : Nat → Bool} {newSeg : TcpSegment}
    {before middle after : StreamBuffer} {front back : List TcpSegment}
    (same : SameContent before middle)
    (enqueued : Enqueued granted newSeg middle after front back) :
    Enqueued granted newSeg before after front back := by
  have count : surplus middle middle.segList = surplus before before.segList := by
    rw [surplus, surplus, same.segCount, same.segList]
  obtain ⟨window, split, front_le, back_gt, merged, unmerged, after_count⟩ := enqueued
  refine ⟨same.toSameWindow.trans window, ?_, front_le, back_gt, merged, ?_,
    after_count.trans count⟩
  · rw [← same.segList]
    exact split
  · intro exactCount few
    exact unmerged (count.trans exactCount) few

/-- The counters after `handle_buffer_overlap` on the out-of-order path. -/
def Reassembly.countOutOfOrder (st : Reassembly) (segment : Incoming) : Reassembly :=
  (handleBufferOverlap
    { st with stats :=
      { st.stats with segmentsOutOfOrder := st.stats.segmentsOutOfOrder + 1 } } segment).2

/-- The statistics after `segment_alloc` for a segment on its way in. -/
def Reassembly.charge (st : Reassembly) (segment : Incoming) : Reassembly :=
  { st with
    stats := st.stats.allocated (sizeofTcpSegment + segment.payloadLen.setWidth 64) }

/-- `reassembly_stats.segments_dropped++`. -/
def Reassembly.countDropped (st : Reassembly) : Reassembly :=
  { st with
    stats := { st.stats with segmentsDropped := st.stats.segmentsDropped + 1 } }

theorem Reassembly.countOutOfOrder_sameContent (st : Reassembly) (segment : Incoming) :
    SameContent st.sb (st.countOutOfOrder segment).sb :=
  (handleBufferOverlap_spec
    { st with stats :=
      { st.stats with segmentsOutOfOrder := st.stats.segmentsOutOfOrder + 1 } } segment).2

/-- The three ways of the out-of-order path, with `handle_buffer_overlap` and
`segment_alloc` resolved. -/
theorem insertOutOfOrder_eq (config : StreamConfig) (alloc : Allocation) (st : Reassembly)
    (segment : Incoming) :
    insertOutOfOrder config alloc st segment =
      if (segment.pastWindow st.sb).payloadLen = 0 then .ok (0, st.countOutOfOrder segment)
      else if (alloc.segment && alloc.payload) = true then
        match insertSegmentQueue config alloc
            ((st.countOutOfOrder segment).charge (segment.pastWindow st.sb))
            (segment.pastWindow st.sb).toSegment with
        | .error fault => .error fault
        | .ok (ret, queued) =>
            if ret < 0 then .ok (-1, queued) else .ok (processSegmentQueue queued)
      else .ok (-1, (st.countOutOfOrder segment).countDropped) := by
  have trimmed : (handleBufferOverlap
      { st with stats :=
        { st.stats with segmentsOutOfOrder := st.stats.segmentsOutOfOrder + 1 } }
      segment).1 = segment.pastWindow st.sb := (handleBufferOverlap_spec _ segment).1
  rw [insertOutOfOrder]
  dsimp only
  rw [trimmed, segmentAlloc]
  by_cases granted : (alloc.segment && alloc.payload) = true
  · rw [if_pos granted, if_pos granted]
    rfl
  · rw [if_neg granted, if_neg granted]
    rfl

/-- The out-of-order path either drops the segment or enqueues it and drains. -/
theorem insertOutOfOrder_effect (config : StreamConfig) (alloc : Allocation)
    (st : Reassembly) (segment : Incoming) (favors : st.sb.osPolicy.FavorsNew) :
    ∃ ret st', insertOutOfOrder config alloc st segment = .ok (ret, st') ∧
      (((segment.pastWindow st.sb).payloadLen = 0 ∨ alloc.segment = false ∨
          alloc.payload = false ∨ config.maxSegments ≤ st.sb.segCount) ∧
        SameContent st.sb st'.sb ∨
      ∃ middle front back, (segment.pastWindow st.sb).payloadLen ≠ 0 ∧
        st.sb.segCount < config.maxSegments ∧
        Enqueued alloc.merged (segment.pastWindow st.sb).toSegment st.sb middle
          front back ∧
        Drained middle st'.sb) := by
  have same := st.countOutOfOrder_sameContent segment
  rw [insertOutOfOrder_eq]
  by_cases empty : (segment.pastWindow st.sb).payloadLen = 0
  · rw [if_pos empty]
    exact ⟨_, _, rfl, Or.inl ⟨Or.inl empty, same⟩⟩
  rw [if_neg empty]
  by_cases allocated : (alloc.segment && alloc.payload) = true
  · rw [if_pos allocated]
    generalize offer : (st.countOutOfOrder segment).charge (segment.pastWindow st.sb) = offered
    have charged : SameContent st.sb offered.sb := by
      rw [← offer]
      exact same
    by_cases room : st.sb.segCount < config.maxSegments
    · obtain ⟨queued, front, back, equation, enqueued⟩ :=
        insertSegmentQueue_favorsNew config alloc offered
          (segment.pastWindow st.sb).toSegment (charged.osPolicy ▸ favors) empty
          (charged.segCount ▸ room)
      rw [equation]
      exact ⟨_, _, rfl, Or.inr ⟨queued.sb, front, back, empty, room,
        enqueued.of_sameContent charged, processSegmentQueue_drained queued⟩⟩
    · have full : offered.sb.segCount ≥ config.maxSegments := by
        rw [charged.segCount]
        exact BitVec.not_lt.mp room
      rw [insertSegmentQueue, if_pos full]
      exact ⟨_, _, rfl, Or.inl
        ⟨Or.inr (Or.inr (Or.inr (BitVec.not_lt.mp room))), charged⟩⟩
  · rw [if_neg allocated]
    refine ⟨_, _, rfl, Or.inl ⟨Or.inr ?_, same⟩⟩
    rcases failed : alloc.segment with _ | _
    · exact Or.inl rfl
    · right
      left
      simpa [failed] using allocated

theorem insertInOrder_effect (st : Reassembly) (segment : Incoming) :
    (segment.Overflows st.sb ∧ SameContent st.sb (insertInOrder st segment).2.sb) ∨
      (¬segment.Overflows st.sb ∧
        Drained (st.sb.append segment.payload segment.payloadLen)
          (insertInOrder st segment).2.sb) := by
  rw [insertInOrder]
  dsimp only
  by_cases full : segment.Overflows st.sb
  · left
    have test := full
    rw [Incoming.Overflows] at test
    rw [if_pos test]
    exact ⟨full, SameContent.refl _⟩
  · right
    have test := full
    rw [Incoming.Overflows] at test
    rw [if_neg test]
    exact ⟨full, processSegmentQueue_drained
      (Reassembly.mk (st.sb.append segment.payload segment.payloadLen) _)⟩

/-- `reassembly_stats.segments_inserted++`. -/
def Reassembly.countInserted (st : Reassembly) : Reassembly :=
  { st with
    stats := { st.stats with segmentsInserted := st.stats.segmentsInserted + 1 } }

/-- The four ways that `stream_buffer_insert_segment` can take, with both tests against
`base_seq` as one. -/
theorem streamBufferInsertSegment_eq (config : StreamConfig) (alloc : Allocation)
    (st : Reassembly) (segment : Incoming) :
    streamBufferInsertSegment config alloc st segment.seq (some segment.payload)
        segment.payloadLen =
      if segment.payloadLen = 0 ∨ st.sb.data = none then .ok (-1, st)
      else if segment.BeforeBase st.sb then .ok (0, st.countInserted)
      else if (segment.fromBase st.sb).seq = st.sb.nextSeq then
        .ok (insertInOrder st.countInserted (segment.fromBase st.sb))
      else insertOutOfOrder config alloc st.countInserted (segment.fromBase st.sb) := by
  rw [streamBufferInsertSegment]
  simp only [decide_eq_true_eq]
  by_cases invalid : segment.payloadLen = 0 ∨ st.sb.data = none
  · rw [if_pos invalid, if_pos invalid]
  rw [if_neg invalid, if_neg invalid]
  by_cases old : seqCompare segment.endSeq st.sb.baseSeq ≤ 0
  · have test := old
    rw [Incoming.endSeq] at test
    have before : segment.BeforeBase st.sb := Or.inl old
    rw [if_pos test, if_pos before]
    rfl
  have test := old
  rw [Incoming.endSeq] at test
  rw [if_neg test]
  by_cases skipped : seqCompare segment.seq st.sb.baseSeq < 0 ∧
      st.sb.baseSeq - segment.seq ≥ segment.payloadLen.setWidth 32
  · have before : segment.BeforeBase st.sb := Or.inr skipped
    rw [if_pos skipped, if_pos before]
    rfl
  have live : ¬segment.BeforeBase st.sb := by
    rintro (before | before)
    · exact old before
    · exact skipped before
  rw [if_neg skipped, if_neg live]
  rfl

/-- Inversion of `stream_buffer_insert_segment`: under a policy that favors new
data the call never touches freed memory, and its effect is one of
`InsertEffect`. -/
theorem streamBufferInsertSegment_effect (config : StreamConfig)
    (alloc : Allocation) (st : Reassembly) (segment : Incoming)
    (favors : st.sb.osPolicy.FavorsNew) :
    ∃ ret st', streamBufferInsertSegment config alloc st segment.seq
        (some segment.payload) segment.payloadLen = .ok (ret, st') ∧
      InsertEffect config alloc st.sb segment st'.sb := by
  rw [streamBufferInsertSegment_eq]
  by_cases invalid : segment.payloadLen = 0 ∨ st.sb.data = none
  · rw [if_pos invalid]
    exact ⟨-1, st, rfl, .ignored (.invalid invalid) (SameContent.refl _)⟩
  have valid : segment.payloadLen ≠ 0 := fun empty => invalid (Or.inl empty)
  rw [if_neg invalid]
  by_cases before : segment.BeforeBase st.sb
  · rw [if_pos before]
    exact ⟨0, st.countInserted, rfl,
      .ignored (.consumed before) (SameContent.refl _)⟩
  rw [if_neg before]
  by_cases next : (segment.fromBase st.sb).seq = st.sb.nextSeq
  · rw [if_pos next]
    refine ⟨_, _, rfl, ?_⟩
    rcases insertInOrder_effect st.countInserted (segment.fromBase st.sb) with
      ⟨full, same⟩ | ⟨fits, drained⟩
    · exact .ignored (.full before next full) same
    · exact .inOrder valid before next fits drained
  · rw [if_neg next]
    obtain ⟨ret, st', equation, effect⟩ := insertOutOfOrder_effect config alloc
      st.countInserted (segment.fromBase st.sb) favors
    refine ⟨ret, st', equation, ?_⟩
    rcases effect with ⟨reason, same⟩ | ⟨middle, front, back, nonempty, room,
      enqueued, drained⟩
    · by_cases empty : ((segment.fromBase st.sb).pastWindow st.sb).payloadLen = 0
      · exact .ignored (.known before next empty) same
      · exact .ignored (.refused before next empty (reason.resolve_left empty)) same
    · exact .queued middle front back valid before next nonempty room enqueued drained

theorem Drained.baseSeq {before after : StreamBuffer}
    (drained : Drained before after) : after.baseSeq = before.baseSeq := by
  obtain ⟨last, base, _, same⟩ :=
    drained.invariant (motive := fun sb => sb.baseSeq = before.baseSeq) rfl (by
      intro sb next base step
      rw [← base]
      cases step <;> rfl)
  exact same.baseSeq.trans base

/-- An insertion never moves `base_seq`. -/
theorem InsertEffect.baseSeq {config : StreamConfig} {alloc : Allocation}
    {sb after : StreamBuffer} {segment : Incoming}
    (effect : InsertEffect config alloc sb segment after) :
    after.baseSeq = sb.baseSeq := by
  cases effect with
  | ignored reason same => exact same.baseSeq
  | inOrder valid live next fits drained => exact drained.baseSeq
  | queued middle front back valid live other nonempty room enqueued drained =>
      exact drained.baseSeq.trans enqueued.window.baseSeq

/-- The buffer after `data` has been slid forward by `count` bytes. -/
def StreamBuffer.slide (sb : StreamBuffer) (count : BitVec 32) : StreamBuffer :=
  { sb with
    data := sb.data.map fun memory =>
      memmoveDown memory count.toNat (sb.dataLen - count).toNat
    dataLen := sb.dataLen - count
    baseSeq := sb.baseSeq + count }

theorem StreamBuffer.slide_live {sb : StreamBuffer} (live : sb.data ≠ none)
    (count : BitVec 32) : (sb.slide count).data ≠ none := by
  intro missing
  rw [StreamBuffer.slide, Option.map_eq_none_iff] at missing
  exact live missing

theorem StreamBuffer.slide_next {sb : StreamBuffer}
    (next : sb.nextSeq = sb.baseSeq + sb.dataLen) (count : BitVec 32) :
    (sb.slide count).nextSeq = (sb.slide count).baseSeq + (sb.slide count).dataLen := by
  rw [StreamBuffer.slide]
  dsimp only
  rw [next]
  ring

/-- `consume_len` after it has been clamped to `data_len`. -/
def StreamBuffer.clampConsume (sb : StreamBuffer) (consumeLen : BitVec 32) :
    BitVec 32 :=
  if consumeLen > sb.dataLen then sb.dataLen else consumeLen

theorem StreamBuffer.toNat_clampConsume (sb : StreamBuffer)
    (consumeLen : BitVec 32) :
    (sb.clampConsume consumeLen).toNat = min consumeLen.toNat sb.dataLen.toNat := by
  rw [StreamBuffer.clampConsume]
  split
  next above => exact (min_eq_right (BitVec.lt_def.mp above).le).symm
  next notAbove =>
    exact (min_eq_left (BitVec.le_def.mp (BitVec.not_lt.mp notAbove))).symm

theorem StreamBuffer.clampConsume_le_dataLen (sb : StreamBuffer)
    (consumeLen : BitVec 32) : sb.clampConsume consumeLen ≤ sb.dataLen := by
  rw [BitVec.le_def, sb.toNat_clampConsume]
  exact Nat.min_le_right _ _

/-- Inversion of `stream_buffer_consume`. -/
theorem streamBufferConsume_effect (st : Reassembly) (consumeLen : BitVec 32) :
    ((consumeLen = 0 ∨ st.sb.data = none) ∧
        SameContent st.sb (streamBufferConsume st consumeLen).2.sb) ∨
      Drained (st.sb.slide (st.sb.clampConsume consumeLen))
        (streamBufferConsume st consumeLen).2.sb := by
  rw [streamBufferConsume]
  split
  next invalid => exact Or.inl ⟨invalid, SameContent.refl _⟩
  next =>
    right
    dsimp only
    by_cases empty : st.sb.segList = []
    · rw [if_neg (not_not.mpr empty)]
      refine ⟨st.sb.slide (st.sb.clampConsume consumeLen),
        Relation.ReflTransGen.refl, ?_, SameContent.refl _⟩
      intro seg member
      have none : (st.sb.slide (st.sb.clampConsume consumeLen)).segList.head? =
          none := by
        rw [StreamBuffer.slide, empty]
        rfl
      rw [none] at member
      cases member
    · rw [if_pos empty]
      exact processSegmentQueue_drained
        (Reassembly.mk (st.sb.slide (st.sb.clampConsume consumeLen)) st.stats)

end NetDefender.Stream
