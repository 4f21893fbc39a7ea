import NetDefender.Lib.Span
import NetDefender.Stream.Content

/-!
# Which bytes are delivered

A queue of segments less than `2 ^ 31` ahead of `base_seq` is a list of spans of
offsets, on which the overlap walk, the insertion and the merge pass act as
`Span.cut`, `Span.laminar_insert` and `Span.join`.  From this follows when the
reassembled data is the longest covered prefix of the stream: as long as no
in-order segment stops inside a queued one, no merged run outgrows the 16-bit
length, and no segment stops `2 ^ 31` or more ahead.
-/

namespace NetDefender.Stream

open Serial Span

/-! ## Comparisons within half of the sequence space -/

section Near

variable {base left right : BitVec 32}

theorem seqCompare_neg_of_near (leftNear : offset base left < 2 ^ 31)
    (rightNear : offset base right < 2 ^ 31) :
    seqCompare left right < 0 ↔ offset base left < offset base right := by
  rw [seqCompare_neg_iff, offset_rebase base right left]
  omega

theorem seqCompare_nonpos_of_near (leftNear : offset base left < 2 ^ 31)
    (rightNear : offset base right < 2 ^ 31) :
    seqCompare left right ≤ 0 ↔ offset base left ≤ offset base right := by
  rw [seqCompare_nonpos_iff, offset_rebase base right left]
  omega

theorem seqCompare_pos_of_near (leftNear : offset base left < 2 ^ 31)
    (rightNear : offset base right < 2 ^ 31) :
    0 < seqCompare left right ↔ offset base right < offset base left := by
  rw [← not_le, seqCompare_nonpos_of_near leftNear rightNear, not_le]

theorem seqCompare_nonneg_of_near (leftNear : offset base left < 2 ^ 31)
    (rightNear : offset base right < 2 ^ 31) :
    0 ≤ seqCompare left right ↔ offset base right ≤ offset base left := by
  rw [← not_lt, seqCompare_neg_of_near leftNear rightNear, not_lt]

end Near

/-! ## Segments as spans -/

/-- The offsets from `base` that a segment occupies. -/
def TcpSegment.span (base : BitVec 32) (segment : TcpSegment) : Span where
  lo := offset base segment.seq
  hi := offset base segment.seq + segment.payloadLen.toNat

/-- The offsets from `base_seq` that the queue occupies, entry by entry. -/
def StreamBuffer.spans (sb : StreamBuffer) : List Span :=
  sb.segList.map (TcpSegment.span sb.baseSeq)

section Spans

variable {base : BitVec 32}

theorem TcpSegment.offset_endSeq_of_near {segment : TcpSegment}
    (near : (segment.span base).hi < 2 ^ 31) :
    offset base segment.endSeq = (segment.span base).hi := by
  rw [TcpSegment.span] at near ⊢
  rw [TcpSegment.endSeq_eq]
  apply offset_add_ofNat_of_lt
  dsimp only at near
  omega

theorem TcpSegment.lo_le_hi (segment : TcpSegment) (base : BitVec 32) :
    (segment.span base).lo ≤ (segment.span base).hi :=
  Nat.le_add_right _ _

theorem TcpSegment.offset_seq (segment : TcpSegment) :
    offset base segment.seq = (segment.span base).lo := rfl

theorem TcpSegment.toNat_payloadLen (segment : TcpSegment) (base : BitVec 32) :
    segment.payloadLen.toNat = (segment.span base).hi - (segment.span base).lo :=
  (Nat.add_sub_cancel_left ..).symm

/-- A segment is placed by its start and its length. -/
theorem TcpSegment.span_eq {segment : TcpSegment} {lo hi : Nat}
    (start : offset base segment.seq = lo)
    (length : lo + segment.payloadLen.toNat = hi) :
    segment.span base = ⟨lo, hi⟩ := by
  rw [TcpSegment.span, start, length]

theorem TcpSegment.span_proper {segment : TcpSegment} (nonempty : segment.payloadLen ≠ 0) :
    (segment.span base).Proper := by
  have positive : 0 < segment.payloadLen.toNat := by
    apply Nat.pos_of_ne_zero
    intro zero
    exact nonempty (BitVec.eq_of_toNat_eq zero)
  rw [Proper, TcpSegment.span]
  dsimp only
  omega

/-- On segments near `base` the overlap walk cuts spans. -/
theorem cutBy_span {newSeg curr : TcpSegment}
    (newNear : (newSeg.span base).hi < 2 ^ 31)
    (currNear : (curr.span base).hi < 2 ^ 31) :
    (cutBy newSeg curr).map (TcpSegment.span base) =
      cut (newSeg.span base) (curr.span base) := by
  have newOrder := newSeg.lo_le_hi base
  have currOrder := curr.lo_le_hi base
  have newStart : offset base newSeg.seq < 2 ^ 31 := lt_of_le_of_lt newOrder newNear
  have currStart : offset base curr.seq < 2 ^ 31 := lt_of_le_of_lt currOrder currNear
  have newStop := TcpSegment.offset_endSeq_of_near newNear
  have currStop := TcpSegment.offset_endSeq_of_near currNear
  have newStopNear : offset base newSeg.endSeq < 2 ^ 31 := newStop ▸ newNear
  have currStopNear : offset base curr.endSeq < 2 ^ 31 := currStop ▸ currNear
  have length := curr.toNat_payloadLen base
  have lengthBound := curr.payloadLen.isLt
  simp only [cutBy, cut, Covers, OverlapsStart, OverlapsEnd, gt_iff_lt, ge_iff_le,
    seqCompare_nonpos_of_near newStart currStart,
    seqCompare_nonneg_of_near newStopNear currStopNear,
    seqCompare_neg_of_near newStart currStart,
    seqCompare_pos_of_near newStopNear currStart,
    seqCompare_neg_of_near newStopNear currStopNear,
    seqCompare_pos_of_near newStart currStart,
    seqCompare_neg_of_near newStart currStopNear, newStop, currStop,
    TcpSegment.offset_seq]
  split
  next => rfl
  next =>
    split
    next starts =>
      rw [Option.map_some]
      congr 1
      apply TcpSegment.span_eq newStop
      rw [TcpSegment.trimStart, BitVec.toNat_setWidth, BitVec.toNat_sub,
        toNat_sub_eq_offset, offset_rebase base curr.seq, newStop,
        TcpSegment.offset_seq, BitVec.toNat_setWidth, length]
      omega
    next =>
      split
      next ends =>
        rw [Option.map_some]
        congr 1
        apply TcpSegment.span_eq rfl
        rw [TcpSegment.trimEnd]
        dsimp only
        rw [BitVec.toNat_setWidth, toNat_sub_eq_offset, offset_rebase base curr.seq,
          TcpSegment.offset_seq, TcpSegment.offset_seq]
        omega
      next => rfl

theorem filterMap_cutBy_span {newSeg : TcpSegment} {queue : List TcpSegment}
    (newNear : (newSeg.span base).hi < 2 ^ 31)
    (near : ∀ curr ∈ queue, (curr.span base).hi < 2 ^ 31) :
    (queue.filterMap (cutBy newSeg)).map (TcpSegment.span base) =
      (queue.map (TcpSegment.span base)).filterMap (cut (newSeg.span base)) := by
  rw [List.map_filterMap, List.filterMap_map]
  apply List.filterMap_congr
  intro curr member
  exact cutBy_span newNear (near curr member)

/-- The first test of `try_merge_segments`. -/
theorem touches_iff {curr next : TcpSegment} (currNear : (curr.span base).hi < 2 ^ 31)
    (nextNear : (next.span base).hi < 2 ^ 31) :
    seqCompare curr.endSeq next.seq ≥ 0 ↔
      (next.span base).lo ≤ (curr.span base).hi := by
  have currStop := TcpSegment.offset_endSeq_of_near currNear
  have nextStart : offset base next.seq < 2 ^ 31 :=
    lt_of_le_of_lt (next.lo_le_hi base) nextNear
  have currStopNear : offset base curr.endSeq < 2 ^ 31 := currStop ▸ currNear
  rw [ge_iff_le, seqCompare_nonneg_of_near currStopNear nextStart, currStop,
    TcpSegment.offset_seq]

/-- The second test of `try_merge_segments`. -/
theorem inside_iff {curr next : TcpSegment} (currNear : (curr.span base).hi < 2 ^ 31)
    (nextNear : (next.span base).hi < 2 ^ 31) :
    seqCompare next.endSeq curr.endSeq ≤ 0 ↔
      (next.span base).hi ≤ (curr.span base).hi := by
  have currStop := TcpSegment.offset_endSeq_of_near currNear
  have nextStop := TcpSegment.offset_endSeq_of_near nextNear
  have currStopNear : offset base curr.endSeq < 2 ^ 31 := currStop ▸ currNear
  have nextStopNear : offset base next.endSeq < 2 ^ 31 := nextStop ▸ nextNear
  rw [seqCompare_nonpos_of_near nextStopNear currStopNear, currStop, nextStop]

theorem mergedSegment_span {curr next : TcpSegment}
    (nextNear : (next.span base).hi < 2 ^ 31)
    (sorted : (curr.span base).lo ≤ (next.span base).hi)
    (short : (next.span base).hi - (curr.span base).lo < 2 ^ 16) :
    (mergedSegment curr next).span base =
      ⟨(curr.span base).lo, (next.span base).hi⟩ := by
  apply TcpSegment.span_eq rfl
  rw [mergedSegment]
  dsimp only
  rw [BitVec.toNat_setWidth, toNat_sub_eq_offset, offset_rebase base curr.seq,
    TcpSegment.offset_endSeq_of_near nextNear, TcpSegment.offset_seq]
  have lower : (curr.span base).lo < 2 ^ 31 := lt_of_le_of_lt sorted nextNear
  omega

/-- Every run of covered positions fits the 16-bit length of a segment. -/
def ShortRuns (spans : List Span) : Prop :=
  ∀ lo hi, (∀ position, lo ≤ position → position < hi → Covered spans position) →
    hi - lo < 2 ^ 16

theorem ShortRuns.mono {spans spans' : List Span} (short : ShortRuns spans)
    (covered : ∀ position, Covered spans' position → Covered spans position) :
    ShortRuns spans' := by
  intro lo hi run
  exact short lo hi fun position above below =>
    covered position (run position above below)

/-- A span that ends in front of a gap adds no longer run than itself. -/
theorem ShortRuns.cons_apart {span : Span} {rest : List Span} (short : ShortRuns rest)
    (length : span.hi - span.lo < 2 ^ 16) (apart : ∀ later ∈ rest, span.hi < later.lo) :
    ShortRuns (span :: rest) := by
  intro lo hi run
  have behind : ∀ position, Covered rest position → span.hi < position := by
    rintro position ⟨later, member, covers⟩
    exact lt_of_lt_of_le (apart later member) covers.1
  by_cases start : span.hi ≤ lo
  · apply short lo hi
    intro position above below
    rcases (covered_cons _ _ _).mp (run position above below) with inside | found
    · exact absurd (start.trans above) (not_le.mpr inside.2)
    · exact found
  -- the run starts in front of the gap, so it ends there too
  have stop : hi ≤ span.hi := by
    by_contra beyond
    rcases (covered_cons _ _ _).mp (run span.hi (by omega) (by omega)) with inside | found
    · exact Nat.lt_irrefl _ inside.2
    · exact Nat.lt_irrefl _ (behind _ found)
  by_cases empty : hi ≤ lo
  · omega
  · rcases (covered_cons _ _ _).mp (run lo le_rfl (by omega)) with inside | found
    · have first := inside.1
      omega
    · have after := behind lo found
      omega

/-- A laminar queue near `base` whose runs are short: the merge pass only joins its
spans. -/
structure Joinable (base : BitVec 32) (queue : List TcpSegment) : Prop where
  near : ∀ segment ∈ queue, (segment.span base).hi < 2 ^ 31
  laminar : Laminar (queue.map (TcpSegment.span base))
  short : ShortRuns (queue.map (TcpSegment.span base))

namespace Joinable

variable {curr next : TcpSegment} {rest : List TcpSegment}

theorem tail (joinable : Joinable base (curr :: rest)) : Joinable base rest where
  near segment member := joinable.near segment (List.mem_cons_of_mem _ member)
  laminar := (laminar_cons.mp joinable.laminar).2.2
  short := joinable.short.mono fun _ found => (covered_cons _ _ _).mpr (Or.inr found)

theorem lo_le (joinable : Joinable base (curr :: rest)) :
    ∀ other ∈ rest, (curr.span base).lo ≤ (other.span base).lo := by
  intro other member
  exact joinable.laminar.lo_le _ (List.mem_cons_of_mem _ (List.mem_map_of_mem member))

/-- `next` is dropped. -/
theorem dropped (joinable : Joinable base (curr :: next :: rest)) :
    Joinable base (curr :: rest) where
  near segment member := by
    apply joinable.near
    simp only [List.mem_cons] at member ⊢
    exact member.imp_right Or.inr
  laminar := laminar_dropped joinable.laminar
  short := by
    refine joinable.short.mono fun position found => ?_
    simp only [List.map_cons, covered_cons] at found ⊢
    exact found.imp_right Or.inr

/-- `next` is merged into `curr`. -/
theorem joined (joinable : Joinable base (curr :: next :: rest))
    (touches : (next.span base).lo ≤ (curr.span base).hi)
    (longer : ¬(next.span base).hi ≤ (curr.span base).hi) :
    (mergedSegment curr next).span base = ⟨(curr.span base).lo, (next.span base).hi⟩ ∧
      Joinable base (mergedSegment curr next :: rest) := by
  obtain ⟨near, laminar, short⟩ := joinable
  simp only [List.map_cons] at laminar short
  have nextNear := near next (by simp)
  have run := covered_of_joined laminar touches
  have sorted : (curr.span base).lo ≤ (next.span base).hi := by
    have order := laminar.lo_le (next.span base) (by simp)
    exact order.trans (next.lo_le_hi base)
  have length : (next.span base).hi - (curr.span base).lo < 2 ^ 16 :=
    short _ _ fun position above below => run position ⟨above, below⟩
  have merged := mergedSegment_span nextNear sorted length
  refine ⟨merged, ?_, ?_, ?_⟩
  · intro segment member
    rcases List.mem_cons.mp member with rfl | member
    · rw [merged]
      exact nextNear
    · exact near segment (by simp [member])
  · rw [List.map_cons, merged]
    exact laminar_joined laminar touches longer
  · refine short.mono fun position found => ?_
    rw [List.map_cons, merged, covered_cons] at found
    rcases found with found | found
    · exact run position found
    · simp only [covered_cons]
      exact Or.inr (Or.inr found)

end Joinable

/-- On segments near `base` whose runs are short, the merge pass joins spans. -/
theorem mergeFrom_span {granted : Nat → Bool} (allGranted : ∀ index, granted index)
    (rest : List TcpSegment) : ∀ (merges : Nat) (curr : TcpSegment),
      Joinable base (curr :: rest) →
      (mergeFrom granted merges curr rest).map (TcpSegment.span base) =
        join (curr.span base) (rest.map (TcpSegment.span base)) := by
  induction rest with
  | nil =>
      intro merges curr _
      rfl
  | cons next rest inductionHypothesis =>
      intro merges curr joinable
      have currNear := joinable.near curr (by simp)
      have nextNear := joinable.near next (by simp)
      have touching := touches_iff currNear nextNear
      have inside := inside_iff currNear nextNear
      rw [List.map_cons, mergeFrom, join]
      simp only [touching, inside, allGranted, if_true]
      split
      next touches =>
        split
        next contained => exact inductionHypothesis merges curr joinable.dropped
        next longer =>
          obtain ⟨merged, remains⟩ := joinable.joined touches longer
          rw [← merged]
          exact inductionHypothesis (merges + 1) (mergedSegment curr next) remains
      next =>
        rw [List.map_cons]
        congr 1
        exact inductionHypothesis merges next joinable.tail

theorem mergeQueue_span {granted : Nat → Bool} (allGranted : ∀ index, granted index)
    {queue : List TcpSegment} (joinable : Joinable base queue) :
    Rejoined (queue.map (TcpSegment.span base))
      ((mergeQueue granted queue).map (TcpSegment.span base)) := by
  cases queue with
  | nil => exact Rejoined.refl joinable.laminar
  | cons curr rest =>
      rw [mergeQueue, mergeFrom_span allGranted rest 0 curr joinable]
      exact rejoined_join joinable.laminar

end Spans

/-! ## The invariant -/

/-- The queue during a drain: its spans are laminar, none reaches past `bound` or
across the end of the window, and window and queue together hold the positions
`reached`. -/
structure Holding (bound : Nat) (reached : Nat → Prop) (sb : StreamBuffer) :
    Prop where
  next : sb.nextSeq = sb.baseSeq + sb.dataLen
  room : bound ≤ sb.maxBufferSize.toNat
  count : surplus sb sb.segList = 0
  windowNear : sb.dataLen.toNat < 2 ^ 31
  laminar : Laminar sb.spans
  stops : ∀ span ∈ sb.spans, span.hi ≤ bound ∧ span.hi < 2 ^ 31
  whole : ∀ span ∈ sb.spans,
    sb.dataLen.toNat ≤ span.lo ∨ span.hi ≤ sb.dataLen.toNat
  reach : ∀ position,
    position < sb.dataLen.toNat ∨ Covered sb.spans position ↔ reached position

/-- The queue between two calls: every entry lies beyond a gap. -/
structure Settled (bound : Nat) (reached : Nat → Prop) (sb : StreamBuffer) : Prop
    extends Holding bound reached sb where
  ahead : ∀ span ∈ sb.spans, sb.dataLen.toNat < span.lo

namespace Holding

variable {bound : Nat} {reached : Nat → Prop} {sb after : StreamBuffer}

theorem of_sameContent (holding : Holding bound reached sb)
    (same : SameContent sb after) : Holding bound reached after := by
  have spans : after.spans = sb.spans := by
    rw [StreamBuffer.spans, StreamBuffer.spans, same.segList, same.baseSeq]
  constructor
  · rw [same.nextSeq, same.baseSeq, same.dataLen]
    exact holding.next
  · rw [same.maxBufferSize]
    exact holding.room
  · rw [surplus, same.segCount, same.segList]
    exact holding.count
  · rw [same.dataLen]
    exact holding.windowNear
  · rw [spans]
    exact holding.laminar
  · rw [spans]
    exact holding.stops
  · rw [spans, same.dataLen]
    exact holding.whole
  · rw [spans, same.dataLen]
    exact holding.reach

theorem offset_next (holding : Holding bound reached sb) :
    offset sb.baseSeq sb.nextSeq = sb.dataLen.toNat := by
  rw [holding.next, offset, add_sub_cancel_left]

/-- The drain skips exactly the segments that start inside the window. -/
theorem not_ahead_iff (holding : Holding bound reached sb) {segment : TcpSegment}
    (near : (segment.span sb.baseSeq).lo < 2 ^ 31) :
    (segment.seq - sb.nextSeq).toInt > 0 ↔
      sb.dataLen.toNat < (segment.span sb.baseSeq).lo := by
  have windowNear := holding.windowNear
  rw [toInt_sub_pos_iff, offset_rebase sb.baseSeq sb.nextSeq, holding.offset_next,
    TcpSegment.offset_seq]
  omega

theorem eq_next_iff (holding : Holding bound reached sb) {segment : TcpSegment} :
    segment.seq = sb.nextSeq ↔
      (segment.span sb.baseSeq).lo = sb.dataLen.toNat := by
  rw [← holding.offset_next, ← TcpSegment.offset_seq]
  constructor
  · intro equality
    rw [equality]
  · exact eq_of_offset_eq

theorem toNat_dataLen_add (holding : Holding bound reached sb) {length : BitVec 16} :
    (sb.dataLen + length.setWidth 32).toNat =
      sb.dataLen.toNat + length.toNat := by
  have windowNear := holding.windowNear
  have lengthBound := length.isLt
  rw [BitVec.toNat_add, BitVec.toNat_setWidth]
  omega

theorem surplus_tail {segment : TcpSegment} {rest : List TcpSegment}
    (holding : Holding bound reached sb) (list : sb.segList = segment :: rest) :
    surplus (sb.unlinkHead rest) rest = 0 := by
  have count := holding.count
  rw [list] at count
  rw [← count]
  exact surplus_unlink ⟨sb, {}⟩ segment rest

theorem drainStep (holding : Holding bound reached sb) (step : DrainStep sb after) :
    Holding bound reached after := by
  cases step with
  | @stale seg rest list other behind =>
      have spans : sb.spans =
          seg.span sb.baseSeq :: (sb.unlinkHead rest).spans := by
        rw [StreamBuffer.spans, list]
        rfl
      have member : seg.span sb.baseSeq ∈ sb.spans := by simp [spans]
      have stop := (holding.stops _ member).2
      have whole := holding.whole _ member
      have order := seg.lo_le_hi sb.baseSeq
      rw [holding.not_ahead_iff (lt_of_le_of_lt order stop)] at behind
      rw [Ne, holding.eq_next_iff] at other
      have laminar := holding.laminar
      rw [spans] at laminar
      refine ⟨holding.next, holding.room, holding.surplus_tail list,
        holding.windowNear, (laminar_cons.mp laminar).2.2, ?_, ?_, ?_⟩
      · intro span inRest
        exact holding.stops span (by simp [spans, inRest])
      · intro span inRest
        exact holding.whole span (by simp [spans, inRest])
      · intro position
        rw [← holding.reach, spans, covered_cons]
        have known : (seg.span sb.baseSeq).Has position →
            position < sb.dataLen.toNat := by
          simp only [Has]
          omega
        have window : (sb.unlinkHead rest).dataLen = sb.dataLen := rfl
        rw [window, ← or_assoc, or_iff_left_of_imp known]
  | @deliver seg rest list next fits =>
      have spans : sb.spans = seg.span sb.baseSeq ::
          ((sb.append seg.payload seg.payloadLen).unlinkHead rest).spans := by
        rw [StreamBuffer.spans, list]
        rfl
      have member : seg.span sb.baseSeq ∈ sb.spans := by simp [spans]
      have stop := (holding.stops _ member).2
      rw [holding.eq_next_iff] at next
      have length : ((sb.append seg.payload seg.payloadLen).unlinkHead
          rest).dataLen.toNat = (seg.span sb.baseSeq).hi := by
        rw [StreamBuffer.unlinkHead, StreamBuffer.append]
        dsimp only
        rw [holding.toNat_dataLen_add, ← next]
        rfl
      have laminar := holding.laminar
      rw [spans] at laminar
      obtain ⟨proper, before, tail⟩ := laminar_cons.mp laminar
      refine ⟨?_, holding.room, holding.surplus_tail list, ?_, tail, ?_, ?_, ?_⟩
      · exact StreamBuffer.append_next holding.next seg.payload seg.payloadLen
      · rw [length]
        exact stop
      · intro span inRest
        exact holding.stops span (by simp [spans, inRest])
      · intro span inRest
        rw [length]
        have order := before span inRest
        simp only [Precedes] at order
        omega
      · intro position
        rw [length, ← holding.reach, spans, covered_cons]
        have extended : position < (seg.span sb.baseSeq).hi ↔
            position < sb.dataLen.toNat ∨ (seg.span sb.baseSeq).Has position := by
          simp only [Has, Proper] at proper ⊢
          omega
        rw [extended, or_assoc]

/-- A halted drain has stopped at a gap: within `bound` the buffer never fills. -/
theorem settled_of_halted (holding : Holding bound reached sb)
    (halted : Halted sb) : Settled bound reached sb := by
  refine ⟨holding, ?_⟩
  cases list : sb.segList with
  | nil => simp [StreamBuffer.spans, list]
  | cons seg rest =>
      have spans : sb.spans =
          seg.span sb.baseSeq :: rest.map (TcpSegment.span sb.baseSeq) := by
        rw [StreamBuffer.spans, list]
        rfl
      have member : seg.span sb.baseSeq ∈ sb.spans := by simp [spans]
      obtain ⟨inBound, stop⟩ := holding.stops _ member
      have order := seg.lo_le_hi sb.baseSeq
      have first : sb.dataLen.toNat < (seg.span sb.baseSeq).lo := by
        rcases halted seg (by simp [list]) with ⟨_, gap⟩ | ⟨next, full⟩
        · exact (holding.not_ahead_iff (lt_of_le_of_lt order stop)).mp gap
        · rw [holding.eq_next_iff] at next
          have length := seg.toNat_payloadLen sb.baseSeq
          have room := holding.room
          rw [gt_iff_lt, BitVec.lt_def, holding.toNat_dataLen_add] at full
          omega
      have laminar := holding.laminar
      rw [spans] at laminar ⊢
      intro span inSpans
      exact lt_of_lt_of_le first (laminar.lo_le span inSpans)

theorem drain (holding : Holding bound reached sb) (drained : Drained sb after) :
    Settled bound reached after := by
  obtain ⟨last, lastHolding, halted, same⟩ :=
    drained.invariant holding Holding.drainStep
  have settled := lastHolding.settled_of_halted halted
  refine ⟨settled.toHolding.of_sameContent same, ?_⟩
  have spans : after.spans = last.spans := by
    rw [StreamBuffer.spans, StreamBuffer.spans, same.segList, same.baseSeq]
  rw [spans, same.dataLen]
  exact settled.ahead

end Holding

/-! ## Placing a new segment -/

/-- The part of a slice that lies past the first `length` positions. -/
def past (length : Nat) (slice : Span) : Span := ⟨max length slice.lo, slice.hi⟩

namespace Incoming

variable {segment : Incoming} {sb : StreamBuffer} {slice : Span}

theorem offset_endSeq_of_near {base : BitVec 32}
    (placed : segment.toSegment.span base = slice) (near : slice.hi < 2 ^ 31) :
    offset base segment.endSeq = slice.hi := by
  have stop : offset base segment.toSegment.endSeq =
      (segment.toSegment.span base).hi := by
    apply TcpSegment.offset_endSeq_of_near
    rw [placed]
    exact near
  rw [placed] at stop
  exact stop

/-- A segment that is placed ahead of `base_seq` is not trimmed to it. -/
theorem not_beforeBase (placed : segment.toSegment.span sb.baseSeq = slice)
    (proper : slice.Proper) (near : slice.hi < 2 ^ 31) :
    ¬segment.BeforeBase sb ∧ segment.fromBase sb = segment := by
  have start : offset sb.baseSeq segment.seq = slice.lo := congrArg Span.lo placed
  have stop := offset_endSeq_of_near placed near
  simp only [Proper] at proper
  have notBefore : ¬seqCompare segment.seq sb.baseSeq < 0 := by
    rw [seqCompare_neg_iff, start]
    omega
  constructor
  · rintro (old | old)
    · rw [seqCompare_nonpos_iff, stop] at old
      omega
    · exact notBefore old.1
  · rw [fromBase, if_neg notBefore]

theorem pastWindow_placed
    (atNext : offset sb.baseSeq sb.nextSeq = sb.dataLen.toNat)
    (windowNear : sb.dataLen.toNat < 2 ^ 31)
    (placed : segment.toSegment.span sb.baseSeq = slice) (proper : slice.Proper)
    (near : slice.hi < 2 ^ 31) :
    (segment.pastWindow sb).payloadLen = 0 ∧ slice.hi ≤ sb.dataLen.toNat ∨
      (segment.pastWindow sb).payloadLen ≠ 0 ∧ sb.dataLen.toNat < slice.hi ∧
        (segment.pastWindow sb).toSegment.span sb.baseSeq =
          past sb.dataLen.toNat slice := by
  have start : offset sb.baseSeq segment.seq = slice.lo := congrArg Span.lo placed
  have length : slice.lo + segment.payloadLen.toNat = slice.hi := by
    rw [← placed]
    rfl
  have lengthBound := segment.payloadLen.isLt
  have stop := offset_endSeq_of_near placed near
  have startNear : offset sb.baseSeq segment.seq < 2 ^ 31 := by
    rw [start]
    simp only [Proper] at proper
    omega
  have stopNear : offset sb.baseSeq segment.endSeq < 2 ^ 31 := stop ▸ near
  have nextNear : offset sb.baseSeq sb.nextSeq < 2 ^ 31 := by
    rw [atNext]
    exact windowNear
  simp only [Proper] at proper
  simp only [pastWindow, seqCompare_neg_of_near startNear nextNear,
    seqCompare_nonpos_of_near stopNear nextNear, start, stop, atNext]
  split
  next before =>
    split
    next old => exact Or.inl ⟨rfl, old⟩
    next live =>
      right
      have kept : (segment.skip sb.nextSeq
          (sb.nextSeq - segment.seq)).payloadLen.toNat =
          slice.hi - sb.dataLen.toNat := by
        rw [skip, BitVec.toNat_sub, BitVec.toNat_setWidth, toNat_sub_eq_offset,
          offset_rebase sb.baseSeq segment.seq, atNext, start]
        omega
      refine ⟨?_, not_le.mp live, ?_⟩
      · intro empty
        have zero : (0 : BitVec 16).toNat = 0 := rfl
        rw [empty, zero] at kept
        omega
      · rw [past, max_eq_left before.le]
        apply TcpSegment.span_eq atNext
        rw [toSegment]
        dsimp only
        rw [kept]
        omega
  next after =>
    right
    refine ⟨?_, by omega, ?_⟩
    · intro empty
      have zero : (0 : BitVec 16).toNat = 0 := rfl
      rw [empty, zero] at length
      omega
    · rw [past, max_eq_right (not_lt.mp after), placed]

end Incoming

/-! ## Enqueueing -/

/-- The condition under which the merge pass loses nothing: it is not run, or
every run of covered positions fits the length field of a segment. -/
def MergesFit (sb : StreamBuffer) (new : Span) : Prop :=
  (sb.spans.filterMap (cut new)).length < 10 ∨ ShortRuns (new :: sb.spans)

namespace Settled

variable {bound : Nat} {reached : Nat → Prop} {sb middle after : StreamBuffer}
variable {granted : Nat → Bool} {newSeg : TcpSegment} {front back : List TcpSegment}

/-- What the overlap walk leaves stays near and past the window. -/
theorem cut_bounded (settled : Settled bound reached sb)
    (start : sb.dataLen.toNat ≤ (newSeg.span sb.baseSeq).lo) {kept : Span}
    (member : kept ∈ sb.spans.filterMap (cut (newSeg.span sb.baseSeq))) :
    kept.hi ≤ bound ∧ kept.hi < 2 ^ 31 ∧ sb.dataLen.toNat ≤ kept.lo := by
  obtain ⟨span, inSpans, result⟩ := List.mem_filterMap.mp member
  have bounds := cut_bounds result
  have stops := settled.stops span inSpans
  have ahead := settled.ahead span inSpans
  have order := newSeg.lo_le_hi sb.baseSeq
  omega

/-- The spans of the queue after the insertion and before any merge. -/
theorem inserted_spans (settled : Settled bound reached sb)
    (near : (newSeg.span sb.baseSeq).hi < 2 ^ 31)
    (enqueued : Enqueued granted newSeg sb middle front back) :
    sb.spans.filterMap (cut (newSeg.span sb.baseSeq)) =
      front.map (TcpSegment.span sb.baseSeq) ++
        back.map (TcpSegment.span sb.baseSeq) := by
  rw [← List.map_append, ← enqueued.split, StreamBuffer.spans]
  symm
  apply filterMap_cutBy_span near
  intro curr member
  exact (settled.stops _ (List.mem_map_of_mem member)).2

theorem inserted_laminar (settled : Settled bound reached sb)
    (proper : (newSeg.span sb.baseSeq).Proper)
    (near : (newSeg.span sb.baseSeq).hi < 2 ^ 31)
    (start : sb.dataLen.toNat ≤ (newSeg.span sb.baseSeq).lo)
    (enqueued : Enqueued granted newSeg sb middle front back) :
    Laminar ((front ++ newSeg :: back).map (TcpSegment.span sb.baseSeq)) := by
  have split := settled.inserted_spans near enqueued
  have bounded : ∀ curr ∈ front ++ back,
      offset sb.baseSeq curr.seq < 2 ^ 31 := by
    intro curr member
    have inCut : curr.span sb.baseSeq ∈
        sb.spans.filterMap (cut (newSeg.span sb.baseSeq)) := by
      rw [split, ← List.map_append]
      exact List.mem_map_of_mem member
    exact lt_of_le_of_lt (curr.lo_le_hi sb.baseSeq)
      (settled.cut_bounded start inCut).2.1
  have newStart : offset sb.baseSeq newSeg.seq < 2 ^ 31 :=
    lt_of_le_of_lt (newSeg.lo_le_hi sb.baseSeq) near
  rw [List.map_append, List.map_cons]
  apply laminar_insert proper settled.laminar split
  · intro span member
    obtain ⟨curr, inFront, rfl⟩ := List.mem_map.mp member
    have order := enqueued.front_le curr inFront
    rwa [seqCompare_nonneg_of_near newStart
      (bounded curr (List.mem_append_left _ inFront))] at order
  · intro span member
    rw [List.head?_map, Option.mem_map] at member
    obtain ⟨curr, inBack, rfl⟩ := member
    have order := enqueued.back_gt curr inBack
    rwa [seqCompare_neg_of_near newStart (bounded curr
      (List.mem_append_right _ (List.mem_of_mem_head? inBack)))] at order

theorem inserted_covered (settled : Settled bound reached sb)
    (near : (newSeg.span sb.baseSeq).hi < 2 ^ 31)
    (enqueued : Enqueued granted newSeg sb middle front back) (position : Nat) :
    Covered ((front ++ newSeg :: back).map (TcpSegment.span sb.baseSeq)) position ↔
      (newSeg.span sb.baseSeq).Has position ∨ Covered sb.spans position := by
  rw [← covered_cut, settled.inserted_spans near enqueued, List.map_append,
    List.map_cons, covered_append, covered_append, covered_cons]
  exact or_left_comm

/-- The merge pass, where it is run, only joins spans. -/
theorem enqueued_rejoined (settled : Settled bound reached sb)
    (proper : (newSeg.span sb.baseSeq).Proper)
    (near : (newSeg.span sb.baseSeq).hi < 2 ^ 31)
    (start : sb.dataLen.toNat ≤ (newSeg.span sb.baseSeq).lo)
    (enqueued : Enqueued granted newSeg sb middle front back)
    (allGranted : ∀ index, granted index)
    (fits : MergesFit sb (newSeg.span sb.baseSeq)) :
    Rejoined ((front ++ newSeg :: back).map (TcpSegment.span sb.baseSeq))
      middle.spans := by
  have laminar := settled.inserted_laminar proper near start enqueued
  have split := settled.inserted_spans near enqueued
  rw [StreamBuffer.spans, enqueued.window.baseSeq]
  rcases fits with few | short
  · have length : (front ++ newSeg :: back).length ≤ 10 := by
      have total := congrArg List.length split
      simp only [List.length_append, List.length_map, List.length_cons] at total ⊢
      omega
    rw [enqueued.unmerged settled.count length]
    exact Rejoined.refl laminar
  · rcases enqueued.merged with same | merged
    · rw [same]
      exact Rejoined.refl laminar
    · rw [merged]
      refine mergeQueue_span allGranted ⟨?_, laminar, ?_⟩
      · intro segment member
        rw [List.mem_append, List.mem_cons, or_left_comm, ← List.mem_append] at member
        rcases member with rfl | member
        · exact near
        · refine (settled.cut_bounded start ?_).2.1
          rw [split, ← List.map_append]
          exact List.mem_map_of_mem member
      · refine short.mono fun position found => ?_
        rwa [covered_cons, ← settled.inserted_covered near enqueued]

theorem enqueue (settled : Settled bound reached sb)
    (proper : (newSeg.span sb.baseSeq).Proper)
    (inBound : (newSeg.span sb.baseSeq).hi ≤ bound)
    (near : (newSeg.span sb.baseSeq).hi < 2 ^ 31)
    (start : sb.dataLen.toNat ≤ (newSeg.span sb.baseSeq).lo)
    (enqueued : Enqueued granted newSeg sb middle front back)
    (allGranted : ∀ index, granted index)
    (fits : MergesFit sb (newSeg.span sb.baseSeq)) :
    Holding bound (fun position => (newSeg.span sb.baseSeq).Has position ∨
      reached position) middle := by
  have rejoined :=
    settled.enqueued_rejoined proper near start enqueued allGranted fits
  have window := enqueued.window
  have bounded : ∀ span ∈ (front ++ newSeg :: back).map
      (TcpSegment.span sb.baseSeq),
      span.hi ≤ bound ∧ span.hi < 2 ^ 31 ∧ sb.dataLen.toNat ≤ span.lo := by
    intro span member
    rw [List.map_append, List.map_cons, List.mem_append, List.mem_cons,
      or_left_comm, ← List.mem_append,
      ← settled.inserted_spans near enqueued] at member
    rcases member with rfl | member
    · exact ⟨inBound, near, start⟩
    · exact settled.cut_bounded start member
  constructor
  · rw [window.nextSeq, window.baseSeq, window.dataLen]
    exact settled.next
  · rw [window.maxBufferSize]
    exact settled.room
  · rw [enqueued.count]
    exact settled.count
  · rw [window.dataLen]
    exact settled.windowNear
  · exact rejoined.laminar
  · intro span member
    obtain ⟨source, inSource, equality⟩ := rejoined.stops span member
    have bounds := bounded source inSource
    rw [equality]
    exact ⟨bounds.1, bounds.2.1⟩
  · intro span member
    obtain ⟨source, inSource, equality⟩ := rejoined.starts span member
    rw [window.dataLen, equality]
    exact Or.inl (bounded source inSource).2.2
  · intro position
    rw [window.dataLen, rejoined.covered, settled.inserted_covered near enqueued,
      ← settled.reach]
    exact or_left_comm

/-- Appending a segment that stops inside no queued one. -/
theorem append (settled : Settled bound reached sb) {payload : List UInt8}
    {payloadLen : BitVec 16} {slice : Span} (proper : slice.Proper)
    (near : slice.hi < 2 ^ 31) (next : slice.lo = sb.dataLen.toNat)
    (length : slice.lo + payloadLen.toNat = slice.hi)
    (stops : ∀ queued ∈ sb.spans, ¬(queued.lo < slice.hi ∧ slice.hi < queued.hi)) :
    Holding bound (fun position => slice.Has position ∨ reached position)
      (sb.append payload payloadLen) := by
  have dataLen : (sb.append payload payloadLen).dataLen.toNat = slice.hi := by
    rw [← length, next]
    exact settled.toNat_dataLen_add
  constructor
  · exact StreamBuffer.append_next settled.next payload payloadLen
  · exact settled.room
  · exact settled.count
  · rw [dataLen]
    exact near
  · exact settled.laminar
  · exact settled.stops
  · intro span member
    rw [dataLen]
    have apart := stops span member
    omega
  · intro position
    rw [dataLen, ← settled.reach]
    have extended : position < slice.hi ↔
        slice.Has position ∨ position < sb.dataLen.toNat := by
      simp only [Has, Proper] at proper ⊢
      omega
    have spans : (sb.append payload payloadLen).spans = sb.spans := rfl
    rw [extended, spans, or_assoc]

end Settled

/-! ## Runs -/

/-- A slice of a stream that one TCP segment can carry. -/
structure IsSlice (stream : List UInt8) (slice : Span) : Prop where
  proper : slice.lo < slice.hi
  inside : slice.hi ≤ stream.length
  short : slice.hi - slice.lo ≤ 65535

instance (stream : List UInt8) (slice : Span) : Decidable (IsSlice stream slice) :=
  decidable_of_iff (slice.lo < slice.hi ∧ slice.hi ≤ stream.length ∧
      slice.hi - slice.lo ≤ 65535)
    ⟨fun ⟨proper, inside, short⟩ => ⟨proper, inside, short⟩,
      fun ⟨proper, inside, short⟩ => ⟨proper, inside, short⟩⟩

/-- The segment that carries a slice of the stream. -/
def sliceSegment (initialSeq : BitVec 32) (stream : List UInt8) (slice : Span) :
    Incoming where
  seq := initialSeq + BitVec.ofNat 32 slice.lo
  payload := (stream.drop slice.lo).take (slice.hi - slice.lo)
  payloadLen := BitVec.ofNat 16 (slice.hi - slice.lo)

/-- The insertion of a slice of the stream, with every allocation granted. -/
def insertSlice (initialSeq : BitVec 32) (stream : List UInt8) (slice : Span) :
    Op :=
  let segment := sliceSegment initialSeq stream slice
  .insert segment.seq (some segment.payload) segment.payloadLen .ok

/-- A property of the state before each insertion of a run. -/
def BeforeEach (config : StreamConfig) (initialSeq : BitVec 32)
    (stream : List UInt8) (property : StreamBuffer → Span → Prop) :
    Reassembly → List Span → Prop
  | _, [] => True
  | st, slice :: slices =>
      property st.sb slice ∧
        ∀ st', (insertSlice initialSeq stream slice).run config st = .ok st' →
          BeforeEach config initialSeq stream property st' slices

/-- The queue has room for another entry. -/
def HasRoom (config : StreamConfig) (sb : StreamBuffer) (_ : Span) : Prop :=
  sb.segCount < config.maxSegments

instance (config : StreamConfig) (sb : StreamBuffer) (slice : Span) :
    Decidable (HasRoom config sb slice) :=
  inferInstanceAs (Decidable (sb.segCount < config.maxSegments))

/-- The condition on one insertion: the segment stops less than `2 ^ 31` ahead of
`base_seq`; if it continues the window, it stops inside no queued segment; if it
is queued, the merge pass loses nothing. -/
structure Lossless (sb : StreamBuffer) (slice : Span) : Prop where
  near : slice.hi < 2 ^ 31
  stops : slice.lo = sb.dataLen.toNat →
    ∀ queued ∈ sb.spans, ¬(queued.lo < slice.hi ∧ slice.hi < queued.hi)
  merges : slice.lo ≠ sb.dataLen.toNat → sb.dataLen.toNat < slice.hi →
    MergesFit sb (past sb.dataLen.toNat slice)

/-- The byte at each sequence number of a stream that starts at `initialSeq`. -/
def byteAt (initialSeq : BitVec 32) (stream : List UInt8) (seq : BitVec 32) :
    UInt8 :=
  stream.getD (offset initialSeq seq) 0

section Slices

variable {config : StreamConfig} {initialSeq : BitVec 32} {stream : List UInt8}
variable {slice : Span} {reached : Nat → Prop}

theorem toNat_sliceLength (initialSeq : BitVec 32)
    (isSlice : IsSlice stream slice) :
    (sliceSegment initialSeq stream slice).payloadLen.toNat =
      slice.hi - slice.lo := by
  have short := isSlice.short
  rw [sliceSegment, BitVec.toNat_ofNat]
  omega

theorem sliceSegment_placed (isSlice : IsSlice stream slice)
    (near : slice.hi < 2 ^ 31) :
    (sliceSegment initialSeq stream slice).toSegment.span initialSeq = slice := by
  have proper := isSlice.proper
  apply TcpSegment.span_eq
  · rw [Incoming.toSegment, sliceSegment]
    dsimp only
    exact offset_self_add (by omega)
  · rw [Incoming.toSegment]
    dsimp only
    rw [toNat_sliceLength initialSeq isSlice]
    omega

theorem sliceSegment_agrees (isSlice : IsSlice stream slice)
    (near : slice.hi < 2 ^ 31) :
    (sliceSegment initialSeq stream slice).Agrees (byteAt initialSeq stream) := by
  intro index small
  rw [toNat_sliceLength initialSeq isSlice] at small
  have inside := isSlice.inside
  have position : offset initialSeq (initialSeq + BitVec.ofNat 32 slice.lo +
      BitVec.ofNat 32 index) = slice.lo + index := by
    rw [add_assoc, ← BitVec.ofNat_add, offset_self_add (by omega)]
  rw [sliceSegment]
  dsimp only
  rw [byteAt, position, List.getElem?_take_of_lt small, List.getElem?_drop,
    List.getD_eq_getElem?_getD, List.getElem?_eq_getElem (by omega),
    Option.getD_some]

/-- A slice below the end of the window reaches nothing new. -/
theorem Settled.reached_old {bound : Nat} {sb : StreamBuffer}
    (settled : Settled bound reached sb) (old : slice.hi ≤ sb.dataLen.toNat) :
    (fun position => slice.Has position ∨ reached position) = reached := by
  funext position
  have known : slice.Has position → reached position := by
    intro inSlice
    rw [← settled.reach]
    exact Or.inl (lt_of_lt_of_le inSlice.2 old)
  exact propext (or_iff_right_of_imp known)

/-- What a slice has below the end of the window is reached already. -/
theorem Settled.reached_past {bound : Nat} {sb : StreamBuffer}
    (settled : Settled bound reached sb) :
    (fun position => (past sb.dataLen.toNat slice).Has position ∨ reached position) =
      fun position => slice.Has position ∨ reached position := by
  funext position
  rw [← settled.reach]
  have trim : (past sb.dataLen.toNat slice).Has position ∨
      position < sb.dataLen.toNat ↔
      slice.Has position ∨ position < sb.dataLen.toNat := by
    simp only [Has, past, sup_le_iff]
    omega
  rw [← or_assoc, trim, or_assoc]

section Insertion

variable {sb after : StreamBuffer}

theorem sliceSegment_span (base : sb.baseSeq = initialSeq)
    (isSlice : IsSlice stream slice) (near : slice.hi < 2 ^ 31) :
    (sliceSegment initialSeq stream slice).toSegment.span sb.baseSeq = slice := by
  rw [base]
  exact sliceSegment_placed isSlice near

/-- A slice starts at `next_seq` exactly when it continues the window. -/
theorem Settled.sliceSegment_next (settled : Settled stream.length reached sb)
    (base : sb.baseSeq = initialSeq) (isSlice : IsSlice stream slice)
    (near : slice.hi < 2 ^ 31) :
    (sliceSegment initialSeq stream slice).seq = sb.nextSeq ↔
      slice.lo = sb.dataLen.toNat := by
  have start : offset sb.baseSeq (sliceSegment initialSeq stream slice).seq =
      slice.lo := congrArg Span.lo (sliceSegment_span base isSlice near)
  rw [← settled.offset_next, ← start]
  exact ⟨fun equality => by rw [equality], eq_of_offset_eq⟩

/-- The only slice that an insertion ignores is one that the window has. -/
theorem Settled.hi_le_of_ignored (settled : Settled stream.length reached sb)
    (base : sb.baseSeq = initialSeq) (isSlice : IsSlice stream slice)
    (live : sb.data ≠ none) (room : HasRoom config sb slice)
    (near : slice.hi < 2 ^ 31)
    (reason : Ignored config .ok sb (sliceSegment initialSeq stream slice)) :
    slice.hi ≤ sb.dataLen.toNat := by
  have proper : slice.lo < slice.hi := isSlice.proper
  have placed := sliceSegment_span base isSlice near
  have length := toNat_sliceLength initialSeq isSlice
  obtain ⟨notBefore, untrimmed⟩ := Incoming.not_beforeBase placed proper near
  cases reason with
  | invalid reason =>
      exfalso
      rcases reason with empty | missing
      · have zero : (0 : BitVec 16).toNat = 0 := rfl
        rw [empty, zero] at length
        omega
      · exact live missing
  | consumed before => exact absurd before notBefore
  | full live atNext full =>
      exfalso
      rw [untrimmed, settled.sliceSegment_next base isSlice near] at atNext
      rw [untrimmed, Incoming.Overflows, gt_iff_lt, BitVec.lt_def,
        settled.toNat_dataLen_add, length] at full
      have fits := settled.room
      have inside := isSlice.inside
      omega
  | known live other empty =>
      rw [untrimmed] at empty
      rcases Incoming.pastWindow_placed settled.offset_next settled.windowNear
        placed proper near
        with ⟨_, old⟩ | ⟨nonempty, _⟩
      · exact old
      · exact absurd empty nonempty
  | refused live other nonempty reason =>
      exfalso
      rcases reason with failed | failed | full
      · cases failed
      · cases failed
      · exact BitVec.not_le.mpr room full

/-- A slice that is put into the queue, of which the part past the window is kept. -/
theorem Settled.queueSlice {granted : Nat → Bool} {middle : StreamBuffer}
    {front back : List TcpSegment}
    (settled : Settled stream.length reached sb) (isSlice : IsSlice stream slice)
    (near : slice.hi < 2 ^ 31) (beyond : sb.dataLen.toNat < slice.hi)
    (fits : MergesFit sb (past sb.dataLen.toNat slice)) {newSeg : TcpSegment}
    (trimmed : newSeg.span sb.baseSeq = past sb.dataLen.toNat slice)
    (enqueued : Enqueued granted newSeg sb middle front back)
    (allGranted : ∀ index, granted index) (drained : Drained middle after) :
    Settled stream.length (fun position => slice.Has position ∨ reached position)
      after := by
  have newProper : (past sb.dataLen.toNat slice).Proper := max_lt beyond isSlice.proper
  have start : sb.dataLen.toNat ≤ (past sb.dataLen.toNat slice).lo := le_max_left _ _
  have inBound : (past sb.dataLen.toNat slice).hi ≤ stream.length := isSlice.inside
  have stopNear : (past sb.dataLen.toNat slice).hi < 2 ^ 31 := near
  rw [← settled.reached_past]
  rw [← trimmed] at newProper start fits inBound stopNear ⊢
  exact (settled.enqueue newProper inBound stopNear start enqueued allGranted
    fits).drain drained

/-- One insertion adds the slice to what window and queue hold. -/
theorem Settled.insertEffect (settled : Settled stream.length reached sb)
    (base : sb.baseSeq = initialSeq) (isSlice : IsSlice stream slice)
    (live : sb.data ≠ none) (room : HasRoom config sb slice)
    (lossless : Lossless sb slice)
    (effect : InsertEffect config .ok sb (sliceSegment initialSeq stream slice)
      after) :
    Settled stream.length (fun position => slice.Has position ∨ reached position)
      after := by
  have near := lossless.near
  have placed := sliceSegment_span base isSlice near
  have next := settled.sliceSegment_next base isSlice near
  have length := toNat_sliceLength initialSeq isSlice
  have order := isSlice.proper
  obtain ⟨notBefore, untrimmed⟩ := Incoming.not_beforeBase placed order near
  cases effect with
  | ignored reason same =>
      rw [settled.reached_old
        (settled.hi_le_of_ignored base isSlice live room near reason)]
      refine ⟨settled.toHolding.of_sameContent same, ?_⟩
      rw [StreamBuffer.spans, same.segList, same.baseSeq, same.dataLen]
      exact settled.ahead
  | inOrder valid live atNext fits drained =>
      rw [untrimmed] at atNext drained
      rw [next] at atNext
      exact (settled.append order near atNext (by omega)
        (lossless.stops atNext)).drain drained
  | queued middle front back valid live other nonempty room enqueued drained =>
      rw [untrimmed] at other nonempty enqueued
      rw [Ne, next] at other
      rcases Incoming.pastWindow_placed settled.offset_next settled.windowNear
        placed order near
        with ⟨empty, _⟩ | ⟨_, beyond, trimmed⟩
      · exact absurd empty nonempty
      · exact settled.queueSlice isSlice near beyond (lossless.merges other beyond)
          trimmed enqueued (fun _ => rfl) drained

end Insertion

/-- A whole run: the slices are added one after the other. -/
theorem Settled.runOps {slices : List Span} {st : Reassembly}
    (settled : Settled stream.length (Covered []) st.sb)
    (consistent : Consistent (byteAt initialSeq stream) st.sb)
    (base : st.sb.baseSeq = initialSeq) (isSlice : ∀ slice ∈ slices, IsSlice stream slice)
    (room : BeforeEach config initialSeq stream (HasRoom config) st slices)
    (lossless : BeforeEach config initialSeq stream Lossless st slices) :
    ∃ final, runOps config st (slices.map (insertSlice initialSeq stream)) = .ok final ∧
      Settled stream.length (Covered slices) final.sb ∧
      Consistent (byteAt initialSeq stream) final.sb ∧ final.sb.baseSeq = initialSeq := by
  rw [NetDefender.Stream.runOps, List.foldlM_map]
  obtain ⟨final, run, settled, consistent, base, _⟩ := @Fallible.exists_foldlM_ok _ _ _
    (fun st slice => (insertSlice initialSeq stream slice).run config st)
    (fun past st rest => Settled stream.length (Covered past) st.sb ∧
      Consistent (byteAt initialSeq stream) st.sb ∧ st.sb.baseSeq = initialSeq ∧
      (∀ slice ∈ rest, IsSlice stream slice) ∧
      BeforeEach config initialSeq stream (HasRoom config) st rest ∧
      BeforeEach config initialSeq stream Lossless st rest) (by
      rintro past st slice rest ⟨settled, consistent, base, isSlice, room, lossless⟩
      have valid := isSlice slice List.mem_cons_self
      obtain ⟨ret, next, equation, effect⟩ := streamBufferInsertSegment_effect config
        .ok st (sliceSegment initialSeq stream slice) consistent.favors
      have step : (insertSlice initialSeq stream slice).run config st = .ok next := by
        rw [insertSlice, Op.run, equation]
        rfl
      have added : Covered (past ++ [slice]) = fun position =>
          slice.Has position ∨ Covered past position := by
        funext position
        simp [or_comm]
      refine ⟨next, step, ?_, ?_, effect.baseSeq.trans base, ?_, room.2 next step,
        lossless.2 next step⟩
      · rw [added]
        exact settled.insertEffect base valid consistent.live room.1 lossless.1 effect
      · exact consistent.insertEffect (sliceSegment_agrees valid lossless.1.near) effect
      · exact fun other member => isSlice other (List.mem_cons_of_mem _ member)) [] slices st
    ⟨settled, consistent, base, isSlice, room, lossless⟩
  exact ⟨final, run, settled, consistent, base⟩

theorem streamBufferInit_settled (stats : ReassemblyStats) (policy : OsPolicy)
    (fits : stream.length ≤ config.maxBufferSize.toNat) :
    Settled stream.length (Covered [])
      (streamBufferInit config stats initialSeq policy true).2.sb := by
  have spans : (streamBufferInit config stats initialSeq policy true).2.sb.spans =
      [] := rfl
  have empty : (streamBufferInit config stats initialSeq policy
      true).2.sb.dataLen.toNat = 0 := rfl
  have count : (0 : BitVec 32) - BitVec.ofNat 32 0 = 0 := by decide
  refine ⟨⟨(add_zero initialSeq).symm, fits, count, ?_, ?_, ?_, ?_, ?_⟩, ?_⟩
  · rw [empty]
    decide
  · rw [spans]
    exact laminar_nil
  · simp [spans]
  · simp [spans]
  · simp [spans, empty]
  · simp [spans]

theorem getData_eq_take {sb : StreamBuffer} (base : sb.baseSeq = initialSeq)
    (consistent : Consistent (byteAt initialSeq stream) sb)
    (inside : sb.dataLen.toNat ≤ stream.length) :
    sb.getData = stream.take sb.dataLen.toNat := by
  have carries := consistent.data
  apply List.ext_getElem?
  intro index
  rw [StreamBuffer.getData]
  by_cases small : index < sb.dataLen.toNat
  · have bound := sb.dataLen.isLt
    have position : offset initialSeq (initialSeq + BitVec.ofNat 32 index) = index :=
      offset_self_add (by omega)
    rw [List.getElem?_take_of_lt small, List.getElem?_take_of_lt small,
      carries index small, base, byteAt, position, List.getD_eq_getElem?_getD,
      List.getElem?_eq_getElem (by omega), Option.getD_some]
  · rw [List.getElem?_take_eq_none (not_lt.mp small),
      List.getElem?_take_eq_none (not_lt.mp small)]

end Slices

/-- A stream is reassembled as far as its slices reach without a gap, whatever
their order and overlaps, if every insertion of the run is lossless. -/
theorem reassembly_delivers_covered_prefix (config : StreamConfig)
    (stats : ReassemblyStats) (initialSeq : BitVec 32) (stream : List UInt8)
    (slices : List Span) (fits : stream.length ≤ config.maxBufferSize.toNat)
    (isSlice : ∀ slice ∈ slices, IsSlice stream slice)
    (room : BeforeEach config initialSeq stream (HasRoom config)
      (streamBufferInit config stats initialSeq .linux true).2 slices)
    (lossless : BeforeEach config initialSeq stream Lossless
      (streamBufferInit config stats initialSeq .linux true).2 slices) :
    ∃ final, runOps config (streamBufferInit config stats initialSeq .linux true).2
        (slices.map (insertSlice initialSeq stream)) = .ok final ∧
      final.sb.getData = stream.take (coveredPrefix slices stream.length) := by
  obtain ⟨final, run, settled, consistent, base⟩ :=
    (streamBufferInit_settled stats .linux fits).runOps
      (streamBufferInit_consistent config stats initialSeq .linux trivial) rfl
      isSlice room lossless
  have reach : ∀ position, position < final.sb.dataLen.toNat ∨
      Covered final.sb.spans position ↔ Covered slices position := by
    exact settled.reach
  have covered : ∀ position < final.sb.dataLen.toNat, Covered slices position := by
    intro position small
    exact (reach position).mp (Or.inl small)
  have inside : final.sb.dataLen.toNat ≤ stream.length := by
    by_contra beyond
    obtain ⟨slice, member, inSlice⟩ := covered stream.length (not_le.mp beyond)
    exact absurd inSlice.2 (not_lt.mpr (isSlice slice member).inside)
  have stops : ¬Covered slices final.sb.dataLen.toNat := by
    rw [← reach]
    rintro (small | ⟨span, member, inSpan⟩)
    · exact lt_irrefl _ small
    · exact absurd inSpan.1 (not_le.mpr (settled.ahead span member))
  refine ⟨final, run, ?_⟩
  rw [coveredPrefix_eq inside covered fun _ => stops]
  exact getData_eq_take base consistent inside

theorem BeforeEach.cons {config : StreamConfig} {initialSeq : BitVec 32}
    {stream : List UInt8} {property : StreamBuffer → Span → Prop}
    {st next : Reassembly} {slice : Span} {slices : List Span}
    (step : (insertSlice initialSeq stream slice).run config st = .ok next)
    (first : property st.sb slice)
    (rest : BeforeEach config initialSeq stream property next slices) :
    BeforeEach config initialSeq stream property st (slice :: slices) := by
  refine ⟨first, ?_⟩
  intro st' other
  rw [step] at other
  cases other
  exact rest

/-- Overlapping slices in reverse order, across the wrap of the sequence
space. -/
theorem reassembly_delivers_covered_prefix_reversed :
    let stream : List UInt8 := [0, 1, 2, 3, 4, 5, 6, 7, 8, 9]
    let slices : List Span := [⟨6, 10⟩, ⟨3, 8⟩, ⟨0, 3⟩]
    ∃ final, runOps .default
        (streamBufferInit .default {} 0xFFFFFFFE .linux true).2
        (slices.map (insertSlice 0xFFFFFFFE stream)) = .ok final ∧
      final.sb.getData = stream.take (coveredPrefix slices stream.length) := by
  refine reassembly_delivers_covered_prefix .default {} 0xFFFFFFFE
    [0, 1, 2, 3, 4, 5, 6, 7, 8, 9] [⟨6, 10⟩, ⟨3, 8⟩, ⟨0, 3⟩] ?_ ?_ ?_ ?_
  · decide
  · decide
  · apply BeforeEach.cons rfl
    · decide
    · apply BeforeEach.cons rfl
      · decide
      · apply BeforeEach.cons rfl
        · decide
        · trivial
  · have few : ∀ (sb : StreamBuffer) (slice : Span), slice.hi < 2 ^ 31 →
        (slice.lo = sb.dataLen.toNat → ∀ queued ∈ sb.spans,
          ¬(queued.lo < slice.hi ∧ slice.hi < queued.hi)) →
        (sb.spans.filterMap (cut (past sb.dataLen.toNat slice))).length < 10 →
        Lossless sb slice := by
      intro sb slice near stops short
      exact ⟨near, stops, fun _ _ => Or.inl short⟩
    apply BeforeEach.cons rfl
    · apply few <;> decide
    · apply BeforeEach.cons rfl
      · apply few <;> decide
      · apply BeforeEach.cons rfl
        · apply few <;> decide
        · trivial

/-- An in-order segment that stops inside a queued one: the queued segment is
dropped as already processed, and four accepted bytes are lost. -/
theorem reassembly_loses_straddled_bytes :
    let stream : List UInt8 := [0, 1, 2, 3, 4, 5, 6, 7, 8, 9]
    let slices : List Span := [⟨5, 10⟩, ⟨0, 6⟩]
    let start := (streamBufferInit .default {} 1000 .linux true).2
    stream.length ≤ StreamConfig.default.maxBufferSize.toNat ∧
      (∀ slice ∈ slices, IsSlice stream slice) ∧
      BeforeEach .default 1000 stream (HasRoom .default) start slices ∧
      coveredPrefix slices stream.length = 10 ∧
      ∃ final, runOps .default start (slices.map (insertSlice 1000 stream)) =
          .ok final ∧
        final.sb.getData = [0, 1, 2, 3, 4, 5] ∧
        final.sb.getData ≠ stream.take (coveredPrefix slices stream.length) := by
  refine ⟨by decide, by decide, ?_, by decide, _, rfl, by decide, by decide⟩
  apply BeforeEach.cons rfl
  · decide
  · apply BeforeEach.cons rfl
    · decide
    · trivial

end NetDefender.Stream
