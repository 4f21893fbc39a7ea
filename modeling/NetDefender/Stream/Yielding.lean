import NetDefender.Lib.Yielding
import NetDefender.Stream.Order

/-!
# The overlap walk that favors old data

Under these policies the walk leaves the queue as it is and cuts the new segment down.
It frees the new segment when that covers a queued one, and tests against the end that
the segment came with.  Where the queue leaves the matter undisputed it is the walk of
`Yielded`, and what it keeps is queued as it would be under the other policies.
-/

namespace NetDefender.Stream

open Serial Span

/-- What an entry leaves of the new segment when old data is favored: its end is cut in
case 2, its start in case 3. -/
def trimmedBy (newEnd : BitVec 32) (newSeg curr : TcpSegment) : TcpSegment :=
  if seqCompare newSeg.seq curr.seq < 0 ∧ seqCompare newEnd curr.seq > 0 ∧
      seqCompare newEnd curr.endSeq < 0 then
    newSeg.trimEnd curr.seq
  else if seqCompare newSeg.seq curr.seq > 0 ∧ seqCompare newSeg.seq curr.endSeq < 0 ∧
      seqCompare newEnd curr.endSeq ≥ 0 then
    newSeg.trimStart curr.endSeq (curr.endSeq - newSeg.seq)
  else newSeg

/-- What the queue leaves of the new segment, `none` once it has been freed. -/
def keptOf (newEnd : BitVec 32) (newSeg : TcpSegment) : List TcpSegment → Option TcpSegment
  | [] => some newSeg
  | curr :: rest =>
      if seqCompare newSeg.seq curr.seq ≤ 0 ∧ seqCompare newEnd curr.endSeq ≥ 0 then none
      else keptOf newEnd (trimmedBy newEnd newSeg curr) rest

/-- One step of the overlap walk that does not free the new segment. -/
theorem overlapLoop_cons_favorsOld (newEnd : BitVec 32) (newSeg curr : TcpSegment)
    (rest : List TcpSegment) (st : Reassembly) (keeps : ¬st.sb.osPolicy.FavorsNew)
    (uncovered : ¬(seqCompare newSeg.seq curr.seq ≤ 0 ∧ seqCompare newEnd curr.endSeq ≥ 0)) :
    ∃ st', SameContent st.sb st'.sb ∧
      overlapLoop newEnd newSeg st (curr :: rest) =
        let (kept, queue, final) :=
          overlapLoop newEnd (trimmedBy newEnd newSeg curr) st' rest
        (kept, curr :: queue, final) := by
  have policy : st.sb.osPolicy = .bsd ∨ st.sb.osPolicy = .first := by
    cases found : st.sb.osPolicy <;> simp_all [OsPolicy.FavorsNew]
  have counted : SameContent st.sb st.countOverlap.sb :=
    ⟨st.countOverlap_sameWindow, rfl, rfl⟩
  by_cases start : seqCompare newSeg.seq curr.seq < 0 ∧ seqCompare newEnd curr.seq > 0 ∧
      seqCompare newEnd curr.endSeq < 0
  · refine ⟨st.countOverlap, counted, ?_⟩
    -- a segment that stops before the end of `curr` fails the test of case 3
    have notEnd : ¬seqCompare newEnd curr.endSeq ≥ 0 := not_le.mpr start.2.2
    rcases policy with policy | policy <;>
      simp only [overlapLoop, overlapStart, if_pos start, policy, overlapEnd, notEnd,
        and_false, if_false, trimmedBy]
  · by_cases stop : seqCompare newSeg.seq curr.seq > 0 ∧
        seqCompare newSeg.seq curr.endSeq < 0 ∧ seqCompare newEnd curr.endSeq ≥ 0
    · refine ⟨st.countOverlap, counted, ?_⟩
      rcases policy with policy | policy <;>
        simp only [overlapLoop, if_neg uncovered, overlapStart, if_neg start, overlapEnd,
          if_pos stop, policy, trimmedBy]
    · refine ⟨st, SameContent.refl _, ?_⟩
      simp only [overlapLoop, if_neg uncovered, overlapStart, if_neg start, overlapEnd,
        if_neg stop, trimmedBy]

/-- Under a policy that favors old data the overlap walk keeps the queue. -/
theorem overlapLoop_favorsOld (newEnd : BitVec 32) (queue : List TcpSegment) :
    ∀ (newSeg : TcpSegment) (st : Reassembly), ¬st.sb.osPolicy.FavorsNew →
      ∃ st', overlapLoop newEnd newSeg st queue = (keptOf newEnd newSeg queue, queue, st') ∧
        SameContent st.sb st'.sb := by
  induction queue with
  | nil =>
      intro newSeg st _
      exact ⟨st, rfl, SameContent.refl _⟩
  | cons curr rest inductionHypothesis =>
      intro newSeg st keeps
      by_cases covers : seqCompare newSeg.seq curr.seq ≤ 0 ∧ seqCompare newEnd curr.endSeq ≥ 0
      · have policy : st.sb.osPolicy = .bsd ∨ st.sb.osPolicy = .first := by
          cases found : st.sb.osPolicy <;> simp_all [OsPolicy.FavorsNew]
        refine ⟨{ st with stats := segmentFree st.stats newSeg }, ?_, SameContent.refl _⟩
        rcases policy with policy | policy <;>
          simp only [overlapLoop, if_pos covers, policy, keptOf]
      · obtain ⟨first, firstSame, step⟩ :=
          overlapLoop_cons_favorsOld newEnd newSeg curr rest st keeps covers
        obtain ⟨final, equation, finalSame⟩ := inductionHypothesis
          (trimmedBy newEnd newSeg curr) first (firstSame.osPolicy ▸ keeps)
        refine ⟨final, ?_, firstSame.trans finalSame⟩
        rw [step, equation, keptOf, if_neg covers]

theorem handleQueueOverlaps_favorsOld (st : Reassembly) (newSeg : TcpSegment)
    (keeps : ¬st.sb.osPolicy.FavorsNew) :
    ∃ st', handleQueueOverlaps st newSeg =
        (keptOf newSeg.endSeq newSeg st.sb.segList, st') ∧ SameContent st.sb st'.sb := by
  obtain ⟨final, equation, same⟩ :=
    overlapLoop_favorsOld newSeg.endSeq st.sb.segList newSeg st keeps
  refine ⟨{ final with sb := { final.sb with segList := st.sb.segList } }, ?_,
    same.toSameWindow.trans ⟨rfl, rfl, rfl, rfl, rfl, rfl, rfl⟩, rfl, same.segCount⟩
  rw [handleQueueOverlaps, equation]

/-! ## The walk as one on spans -/

section Walk

variable {B : BitVec 32 → UInt8} {base : BitVec 32} {newSeg kept curr : TcpSegment}
variable {front rest : List TcpSegment}

/-- Cutting the end of a segment that is near `base`. -/
theorem trimEnd_span {stop : BitVec 32} {place : Nat} (placed : offset base stop = place)
    (ahead : (kept.span base).lo ≤ place) (inside : place - (kept.span base).lo < 2 ^ 16)
    (near : place < 2 ^ 31) :
    (kept.trimEnd stop).span base = ⟨(kept.span base).lo, place⟩ := by
  apply TcpSegment.span_eq rfl
  rw [TcpSegment.trimEnd]
  dsimp only
  rw [BitVec.toNat_setWidth, toNat_sub_eq_offset, offset_rebase base kept.seq, placed,
    TcpSegment.offset_seq]
  omega

/-- Cutting the start of a segment that is near `base`. -/
theorem trimStart_span {start : BitVec 32} {place : Nat} (placed : offset base start = place)
    (ahead : (kept.span base).lo ≤ place) (inside : place ≤ (kept.span base).hi)
    (near : (kept.span base).hi < 2 ^ 31) :
    (kept.trimStart start (start - kept.seq)).span base = ⟨place, (kept.span base).hi⟩ := by
  have length := kept.toNat_payloadLen base
  have bound := kept.payloadLen.isLt
  apply TcpSegment.span_eq placed
  rw [TcpSegment.trimStart]
  dsimp only
  rw [BitVec.toNat_setWidth, BitVec.toNat_sub, toNat_sub_eq_offset, BitVec.toNat_setWidth,
    offset_rebase base kept.seq, placed, TcpSegment.offset_seq]
  omega

/-- One entry: the new segment is not freed, and what is kept of it agrees with the byte
map that it agreed with. -/
theorem yielded_step (near : (newSeg.span base).hi < 2 ^ 31)
    (currNear : (curr.span base).hi < 2 ^ 31)
    (laminar : Laminar ((front ++ curr :: rest).map (TcpSegment.span base)))
    (undisputed : Undisputed (newSeg.span base)
      ((front ++ curr :: rest).map (TcpSegment.span base)))
    (yielded : Yielded (newSeg.span base) (front.map (TcpSegment.span base))
      (kept.span base)) (agrees : kept.Agrees B) :
    ¬(seqCompare kept.seq curr.seq ≤ 0 ∧ seqCompare newSeg.endSeq curr.endSeq ≥ 0) ∧
      Yielded (newSeg.span base) ((front ++ [curr]).map (TcpSegment.span base))
        ((trimmedBy newSeg.endSeq kept curr).span base) ∧
      (trimmedBy newSeg.endSeq kept curr).Agrees B := by
  have newStop := TcpSegment.offset_endSeq_of_near near
  have currStop := TcpSegment.offset_endSeq_of_near currNear
  have newLength := newSeg.toNat_payloadLen base
  have newBound := newSeg.payloadLen.isLt
  have keptOrder := yielded.order
  have keptStart := yielded.start_le
  have keptStop := yielded.stop_le
  have currOrder := curr.lo_le_hi base
  have newStopNear : offset base newSeg.endSeq < 2 ^ 31 := newStop ▸ near
  have currStopNear : offset base curr.endSeq < 2 ^ 31 := currStop ▸ currNear
  have currStartNear : offset base curr.seq < 2 ^ 31 := lt_of_le_of_lt currOrder currNear
  have keptStartNear : offset base kept.seq < 2 ^ 31 :=
    lt_of_le_of_lt (keptOrder.trans keptStop) near
  simp only [List.map_append, List.map_cons, List.map_nil] at laminar undisputed ⊢
  have uncovered := yielded.not_covers laminar undisputed
  rw [seqCompare_nonpos_of_near keptStartNear currStartNear, ge_iff_le,
    seqCompare_nonneg_of_near newStopNear currStopNear, newStop, currStop,
    TcpSegment.offset_seq, TcpSegment.offset_seq]
  refine ⟨uncovered, ?_⟩
  rw [trimmedBy]
  simp only [gt_iff_lt, ge_iff_le, seqCompare_neg_of_near keptStartNear currStartNear,
    seqCompare_pos_of_near newStopNear currStartNear,
    seqCompare_neg_of_near newStopNear currStopNear,
    seqCompare_pos_of_near keptStartNear currStartNear,
    seqCompare_neg_of_near keptStartNear currStopNear,
    seqCompare_nonneg_of_near newStopNear currStopNear, newStop, currStop,
    TcpSegment.offset_seq]
  split
  next leaves =>
    obtain ⟨ahead, inside, beyond⟩ := leaves
    obtain ⟨cut, room⟩ := yielded.cutStop undisputed ahead inside beyond
    constructor
    · rw [trimEnd_span curr.offset_seq ahead.le (by omega) (by omega)]
      exact cut
    · apply TcpSegment.trimEnd_agrees agrees
      rw [kept.toNat_payloadLen base, offset_rebase base kept.seq, TcpSegment.offset_seq,
        TcpSegment.offset_seq]
      omega
  next notLeaves =>
    split
    next enters =>
      obtain ⟨before, reaches, inside⟩ := enters
      obtain ⟨cut, room⟩ := yielded.cutStart laminar before reaches inside
      constructor
      · rw [trimStart_span currStop reaches.le room (lt_of_le_of_lt keptStop near)]
        exact cut
      · apply TcpSegment.trimStart_agrees agrees
        rw [kept.toNat_payloadLen base, offset_rebase base kept.seq, currStop,
          TcpSegment.offset_seq]
        omega
    next notEnters =>
      exact ⟨yielded.pass laminar undisputed notLeaves notEnters, agrees⟩

theorem keptOf_yielded (near : (newSeg.span base).hi < 2 ^ 31) (rest : List TcpSegment) :
    ∀ (front : List TcpSegment) (kept : TcpSegment),
      (∀ curr ∈ front ++ rest, (curr.span base).hi < 2 ^ 31) →
      Laminar ((front ++ rest).map (TcpSegment.span base)) →
      Undisputed (newSeg.span base) ((front ++ rest).map (TcpSegment.span base)) →
      Yielded (newSeg.span base) (front.map (TcpSegment.span base)) (kept.span base) →
      kept.Agrees B →
      ∃ final, keptOf newSeg.endSeq kept rest = some final ∧
        Yielded (newSeg.span base) ((front ++ rest).map (TcpSegment.span base))
          (final.span base) ∧ final.Agrees B := by
  induction rest with
  | nil =>
      intro front kept _ _ _ yielded agrees
      rw [List.append_nil]
      exact ⟨kept, rfl, yielded, agrees⟩
  | cons curr rest inductionHypothesis =>
      intro front kept bounded laminar undisputed yielded agrees
      obtain ⟨uncovered, passed, trimmed⟩ := yielded_step near (bounded curr (by simp))
        laminar undisputed yielded agrees
      rw [keptOf, if_neg uncovered]
      rw [List.append_cons] at bounded laminar undisputed ⊢
      exact inductionHypothesis (front ++ [curr]) _ bounded laminar undisputed passed trimmed

/-- The other policies would not cut the queue by what is kept. -/
theorem cutBy_of_yielded {queue : List TcpSegment} {new : Span}
    (yielded : Yielded new (queue.map (TcpSegment.span base)) (kept.span base))
    (near : new.hi < 2 ^ 31) (bounded : ∀ curr ∈ queue, (curr.span base).hi < 2 ^ 31)
    (laminar : Laminar (queue.map (TcpSegment.span base))) :
    ∀ curr ∈ queue, cutBy kept curr = some curr := by
  intro curr member
  have inSpans : curr.span base ∈ queue.map (TcpSegment.span base) :=
    List.mem_map_of_mem member
  have apart := yielded.apart_or_inside inSpans
  have proper := laminar.proper _ inSpans
  have uncovered := yielded.not_covers_entry proper inSpans
  have order := yielded.order
  have keptNear : (kept.span base).hi < 2 ^ 31 := lt_of_le_of_lt yielded.stop_le near
  have currNear := bounded curr member
  have keptStop := TcpSegment.offset_endSeq_of_near keptNear
  have currStop := TcpSegment.offset_endSeq_of_near currNear
  have keptStopNear : offset base kept.endSeq < 2 ^ 31 := keptStop ▸ keptNear
  have currStopNear : offset base curr.endSeq < 2 ^ 31 := currStop ▸ currNear
  have keptStartNear : offset base kept.seq < 2 ^ 31 := lt_of_le_of_lt order keptNear
  have currStartNear : offset base curr.seq < 2 ^ 31 :=
    lt_of_le_of_lt (curr.lo_le_hi base) currNear
  have notCovers : ¬Covers kept curr := by
    rw [Covers, seqCompare_nonpos_of_near keptStartNear currStartNear, ge_iff_le,
      seqCompare_nonneg_of_near keptStopNear currStopNear, keptStop, currStop]
    exact uncovered
  simp only [Proper] at proper
  have notStart : ¬OverlapsStart kept curr := by
    rw [OverlapsStart, seqCompare_neg_of_near keptStartNear currStartNear, gt_iff_lt,
      seqCompare_pos_of_near keptStopNear currStartNear,
      seqCompare_neg_of_near keptStopNear currStopNear, keptStop, currStop,
      TcpSegment.offset_seq, TcpSegment.offset_seq]
    omega
  have notEnd : ¬OverlapsEnd kept curr := by
    rw [OverlapsEnd, gt_iff_lt, seqCompare_pos_of_near keptStartNear currStartNear,
      seqCompare_neg_of_near keptStartNear currStopNear, ge_iff_le,
      seqCompare_nonneg_of_near keptStopNear currStopNear, keptStop, currStop,
      TcpSegment.offset_seq, TcpSegment.offset_seq]
    omega
  rw [cutBy, if_neg notCovers, if_neg notStart, if_neg notEnd]

end Walk

/-! ## What is kept is queued -/

theorem insertSegmentQueue_favorsOld (config : StreamConfig) (alloc : Allocation)
    {st : Reassembly} {newSeg kept : TcpSegment} (keeps : ¬st.sb.osPolicy.FavorsNew)
    (room : st.sb.segCount < config.maxSegments)
    (walk : keptOf newSeg.endSeq newSeg st.sb.segList = some kept)
    (whole : ∀ curr ∈ st.sb.segList, cutBy kept curr = some curr) :
    ∃ st', insertSegmentQueue config alloc st newSeg = .ok (0, st') ∧
      ((kept.payloadLen = 0 ∧ SameContent st.sb st'.sb) ∨
        ∃ front back, kept.payloadLen ≠ 0 ∧
          Enqueued alloc.merged kept st.sb st'.sb front back) := by
  obtain ⟨cut, handled, same⟩ := handleQueueOverlaps_favorsOld st newSeg keeps
  rw [walk] at handled
  by_cases empty : kept.payloadLen = 0
  · have notFull : ¬st.sb.segCount ≥ config.maxSegments := BitVec.not_le.mpr room
    refine ⟨{ cut with stats := segmentFree cut.stats kept }, ?_, Or.inl ⟨empty, same⟩⟩
    rw [insertSegmentQueue, if_neg notFull, handled]
    simp only [if_pos empty]
  · have cutList : cut.sb.segList = st.sb.segList.filterMap (cutBy kept) := by
      rw [same.segList, List.filterMap_congr whole, List.filterMap_some]
    have cutCount : surplus cut.sb cut.sb.segList = surplus st.sb st.sb.segList := by
      rw [surplus, surplus, same.segCount, same.segList]
    obtain ⟨st', front, back, call, enqueued⟩ := insertSegmentQueue_linked config alloc
      handled cutList same.toSameWindow cutCount empty room
    exact ⟨st', call, Or.inr ⟨front, back, empty, enqueued⟩⟩

theorem Halted.of_sameContent {before after : StreamBuffer} (halted : Halted before)
    (same : SameContent before after) : Halted after := by
  rw [Halted, same.segList, same.nextSeq, same.dataLen, same.maxBufferSize]
  exact halted

/-- The out-of-order path under a policy that favors old data: what is kept of the segment
past the window is queued, or it is empty and nothing changes. -/
theorem insertOutOfOrder_favorsOld (config : StreamConfig) {st : Reassembly}
    {segment : Incoming} {kept : TcpSegment} (keeps : ¬st.sb.osPolicy.FavorsNew)
    (halted : Halted st.sb) (nonempty : (segment.pastWindow st.sb).payloadLen ≠ 0)
    (room : st.sb.segCount < config.maxSegments)
    (walk : keptOf (segment.pastWindow st.sb).toSegment.endSeq
      (segment.pastWindow st.sb).toSegment st.sb.segList = some kept)
    (whole : ∀ curr ∈ st.sb.segList, cutBy kept curr = some curr) :
    ∃ ret st', insertOutOfOrder config .ok st segment = .ok (ret, st') ∧
      ((kept.payloadLen = 0 ∧ SameContent st.sb st'.sb) ∨
        ∃ middle front back, kept.payloadLen ≠ 0 ∧
          Enqueued Allocation.ok.merged kept st.sb middle front back ∧
          Drained middle st'.sb) := by
  have granted : (Allocation.ok.segment && Allocation.ok.payload) = true := rfl
  rw [insertOutOfOrder_eq, if_neg nonempty, if_pos granted]
  generalize offer : (st.countOutOfOrder segment).charge (segment.pastWindow st.sb) = offered
  have same : SameContent st.sb offered.sb := by
    rw [← offer]
    exact st.countOutOfOrder_sameContent segment
  obtain ⟨queued, equation, result⟩ := @insertSegmentQueue_favorsOld config .ok offered
    (segment.pastWindow st.sb).toSegment kept (same.osPolicy ▸ keeps)
    (same.segCount ▸ room) (same.segList ▸ walk) (same.segList ▸ whole)
  rw [equation]
  refine ⟨(processSegmentQueue queued).1, (processSegmentQueue queued).2, rfl, ?_⟩
  have drained := processSegmentQueue_drained queued
  rcases result with ⟨empty, content⟩ | ⟨front, back, some, enqueued⟩
  · have unchanged : SameContent st.sb queued.sb := same.trans content
    exact Or.inl ⟨empty,
      unchanged.trans (drained.of_halted (halted.of_sameContent unchanged))⟩
  · exact Or.inr ⟨queued.sb, front, back, some, enqueued.of_sameContent same, drained⟩

end NetDefender.Stream
