import NetDefender.Stream.Order

/-!
# The merge pass and the bytes of the queue

What a queue represents is a partial map from sequence numbers to bytes.  A merge is
computed in 32 bits, but its length is stored in 16: as long as no run of the queue is
longer than a segment can be, every order of merges keeps the map, and otherwise the
pass with all its allocations granted loses a byte.
-/

namespace NetDefender.Stream

open Serial Span

variable {B : BitVec 32 → UInt8} {base : BitVec 32}

/-! ## What a queue represents -/

/-- The queue has `byte` at sequence number `seq`. -/
def Represents (queue : List TcpSegment) (seq : BitVec 32) (byte : UInt8) : Prop :=
  ∃ segment ∈ queue, ∃ index < segment.payloadLen.toNat,
    segment.seq + BitVec.ofNat 32 index = seq ∧ segment.payload[index]? = some byte

/-- A sorted queue near `base` whose overlapping segments agree on the shared bytes. -/
structure Mergeable (base : BitVec 32) (queue : List TcpSegment) : Prop where
  ordered : Ordered base queue
  filled : ∀ segment ∈ queue, segment.payloadLen.toNat ≤ segment.payload.length
  agree : ∀ seq byte other, Represents queue seq byte → Represents queue seq other →
    byte = other

/-- Segments that agree on the shared bytes all agree with one byte map. -/
theorem Mergeable.agrees {queue : List TcpSegment} (mergeable : Mergeable base queue) :
    ∃ B : BitVec 32 → UInt8, ∀ segment ∈ queue, segment.Agrees B := by
  have unique : ∀ seq, ∃ byte, ∀ other, Represents queue seq other → other = byte := by
    intro seq
    by_cases held : ∃ byte, Represents queue seq byte
    · obtain ⟨byte, held⟩ := held
      exact ⟨byte, fun other represented => mergeable.agree seq other byte represented held⟩
    · exact ⟨0, fun other represented => absurd ⟨other, represented⟩ held⟩
  choose B value using unique
  refine ⟨B, ?_⟩
  intro segment member index inside
  have bound := mergeable.filled segment member
  have byte : segment.payload[index]? = some segment.payload[index] :=
    List.getElem?_eq_getElem (lt_of_lt_of_le inside bound)
  rw [byte, value _ _ ⟨segment, member, index, inside, rfl, byte⟩]

/-- With a byte map, what a queue near `base` represents is a matter of the positions
that it covers. -/
theorem represents_iff {queue : List TcpSegment}
    (near : ∀ segment ∈ queue, (segment.span base).hi < 2 ^ 31)
    (agrees : ∀ segment ∈ queue, segment.Agrees B) (seq : BitVec 32) (byte : UInt8) :
    Represents queue seq byte ↔
      Covered (queue.map (TcpSegment.span base)) (offset base seq) ∧ B seq = byte := by
  constructor
  · rintro ⟨segment, member, index, inside, rfl, found⟩
    have stop : (segment.span base).hi =
        offset base segment.seq + segment.payloadLen.toNat := rfl
    have segmentNear := near segment member
    refine ⟨⟨segment.span base, List.mem_map_of_mem member, ?_⟩, ?_⟩
    · rw [offset_add_ofNat_of_lt (by omega)]
      exact ⟨Nat.le_add_right _ _, Nat.add_lt_add_left inside _⟩
    · rw [agrees segment member index inside] at found
      injection found
  · rintro ⟨⟨span, member, above, below⟩, value⟩
    obtain ⟨segment, inQueue, rfl⟩ := List.mem_map.mp member
    have stop : (segment.span base).hi =
        offset base segment.seq + segment.payloadLen.toNat := rfl
    have start : (segment.span base).lo = offset base segment.seq := rfl
    have segmentNear := near segment inQueue
    have inside : offset base seq - offset base segment.seq < segment.payloadLen.toNat := by
      omega
    have place : segment.seq +
        BitVec.ofNat 32 (offset base seq - offset base segment.seq) = seq := by
      apply @eq_of_offset_eq base
      rw [offset_add_ofNat_of_lt (by omega)]
      omega
    refine ⟨segment, inQueue, _, inside, place, ?_⟩
    rw [agrees segment inQueue _ inside, place, value]

/-- Segments that agree with one byte map agree on the shared bytes. -/
theorem mergeable_of_agrees {queue : List TcpSegment} (ordered : Ordered base queue)
    (agrees : ∀ segment ∈ queue, segment.Agrees B) : Mergeable base queue where
  ordered := ordered
  filled segment member := (agrees segment member).le_length
  agree seq byte other left right := by
    rw [represents_iff ordered.near agrees] at left right
    exact left.2.symm.trans right.2

/-! ## Merges that fit -/

section Steps

variable {before after : List TcpSegment}

/-- A merge never covers a new position. -/
theorem MergeStep.covered_of_after (step : MergeStep before after)
    (ordered : Ordered base before) {position : Nat}
    (found : Covered (after.map (TcpSegment.span base)) position) :
    Covered (before.map (TcpSegment.span base)) position := by
  cases step with
  | contained front rest curr next touching inside =>
      simp only [List.map_append, List.map_cons, covered_append, covered_cons] at found ⊢
      tauto
  | absorbed front rest curr next touching longer =>
      have nextNear := ordered.near next (by simp)
      rw [touches_iff (ordered.near curr (by simp)) nextNear] at touching
      have order := ordered.lo_le_next
      have start : ((mergedSegment curr next).span base).lo = (curr.span base).lo := rfl
      have stop := mergedSegment_hi_le nextNear order
      simp only [List.map_append, List.map_cons, covered_append, covered_cons] at found ⊢
      rcases found with inFront | merged | inRest
      · exact Or.inl inFront
      · have split : (curr.span base).Has position ∨ (next.span base).Has position := by
          simp only [Has] at merged ⊢
          omega
        tauto
      · tauto

theorem MergeSteps.covered_of_after (steps : MergeSteps before after)
    (ordered : Ordered base before) {position : Nat}
    (found : Covered (after.map (TcpSegment.span base)) position) :
    Covered (before.map (TcpSegment.span base)) position := by
  induction steps with
  | refl => exact found
  | tail earlier step inductionHypothesis =>
      exact inductionHypothesis
        (step.covered_of_after (ordered.mergeSteps earlier) found)

/-- A merge that fits covers what the two segments cover. -/
theorem mergedSegment_has_iff {curr next : TcpSegment}
    (nextNear : (next.span base).hi < 2 ^ 31)
    (touching : (next.span base).lo ≤ (curr.span base).hi)
    (longer : (curr.span base).hi < (next.span base).hi)
    (order : (curr.span base).lo ≤ (next.span base).lo)
    (fits : (next.span base).hi - (curr.span base).lo < 2 ^ 16) (position : Nat) :
    ((mergedSegment curr next).span base).Has position ↔
      (curr.span base).Has position ∨ (next.span base).Has position := by
  rw [mergedSegment_span nextNear (order.trans (next.lo_le_hi base)) fits]
  simp only [Has]
  omega

/-- Dropping a segment that lies inside the one before it keeps every position. -/
theorem covered_dropped {front rest : List TcpSegment} {curr next : TcpSegment}
    (order : (curr.span base).lo ≤ (next.span base).lo)
    (inside : (next.span base).hi ≤ (curr.span base).hi) {position : Nat}
    (found : Covered ((front ++ curr :: next :: rest).map (TcpSegment.span base)) position) :
    Covered ((front ++ curr :: rest).map (TcpSegment.span base)) position := by
  have nested : (next.span base).Has position → (curr.span base).Has position := by
    simp only [Has]
    omega
  simp only [List.map_append, List.map_cons, covered_append, covered_cons] at found ⊢
  tauto

/-- A merge that fits keeps every position. -/
theorem covered_absorbed {front rest : List TcpSegment} {curr next : TcpSegment}
    (nextNear : (next.span base).hi < 2 ^ 31)
    (touching : (next.span base).lo ≤ (curr.span base).hi)
    (longer : (curr.span base).hi < (next.span base).hi)
    (order : (curr.span base).lo ≤ (next.span base).lo)
    (fits : (next.span base).hi - (curr.span base).lo < 2 ^ 16) {position : Nat}
    (found : Covered ((front ++ curr :: next :: rest).map (TcpSegment.span base)) position) :
    Covered ((front ++ mergedSegment curr next :: rest).map (TcpSegment.span base))
      position := by
  have merged := mergedSegment_has_iff nextNear touching longer order fits position
  simp only [List.map_append, List.map_cons, covered_append, covered_cons] at found ⊢
  tauto

/-- As long as runs are short, a merge keeps every position. -/
theorem MergeStep.covered_of_before (step : MergeStep before after)
    (ordered : Ordered base before)
    (short : ShortRuns (before.map (TcpSegment.span base))) {position : Nat}
    (found : Covered (before.map (TcpSegment.span base)) position) :
    Covered (after.map (TcpSegment.span base)) position := by
  cases step with
  | contained front rest curr next touching inside =>
      rw [inside_iff (ordered.near curr (by simp)) (ordered.near next (by simp))] at inside
      exact covered_dropped ordered.lo_le_next inside found
  | absorbed front rest curr next touching longer =>
      have nextNear := ordered.near next (by simp)
      rw [touches_iff (ordered.near curr (by simp)) nextNear] at touching
      rw [gt_iff_lt, ← not_le, inside_iff (ordered.near curr (by simp)) nextNear] at longer
      -- the two segments together are a run of the queue
      have length : (next.span base).hi - (curr.span base).lo < 2 ^ 16 := by
        apply short
        intro inside above below
        have split : (curr.span base).Has inside ∨ (next.span base).Has inside := by
          simp only [Has]
          omega
        simp only [List.map_append, List.map_cons, covered_append, covered_cons]
        tauto
      exact covered_absorbed nextNear touching (not_le.mp longer) ordered.lo_le_next length
        found

theorem MergeSteps.covered_iff (steps : MergeSteps before after)
    (ordered : Ordered base before)
    (short : ShortRuns (before.map (TcpSegment.span base))) (position : Nat) :
    Covered (after.map (TcpSegment.span base)) position ↔
      Covered (before.map (TcpSegment.span base)) position := by
  refine ⟨steps.covered_of_after ordered, ?_⟩
  intro found
  induction steps with
  | refl => exact found
  | tail earlier step inductionHypothesis =>
      apply step.covered_of_before (ordered.mergeSteps earlier) _ inductionHypothesis
      exact short.mono fun other => MergeSteps.covered_of_after earlier ordered

end Steps

/-! ## A merge that does not fit -/

theorem shortRuns_nil : ShortRuns [] := by
  intro lo hi run
  by_contra long
  exact covered_nil lo (run lo le_rfl (by omega))

theorem shortRuns_cons {queue : List TcpSegment} (curr : TcpSegment)
    (short : ShortRuns (queue.map (TcpSegment.span base)))
    (apart : ∀ later ∈ queue, (curr.span base).hi < (later.span base).lo) :
    ShortRuns ((curr :: queue).map (TcpSegment.span base)) := by
  refine short.cons_apart ?_ ?_
  · rw [← curr.toNat_payloadLen base]
    exact curr.payloadLen.isLt
  · intro span member
    obtain ⟨later, inQueue, rfl⟩ := List.mem_map.mp member
    exact apart later inQueue

/-- The merge of two segments that span more than 16 bits ends before the second one
starts, and loses a position of the first. -/
theorem mergedSegment_loses {curr next : TcpSegment}
    (nextNear : (next.span base).hi < 2 ^ 31)
    (touching : (next.span base).lo ≤ (curr.span base).hi)
    (order : (curr.span base).lo ≤ (next.span base).lo)
    (long : 2 ^ 16 ≤ (next.span base).hi - (curr.span base).lo) :
    (curr.span base).Has ((mergedSegment curr next).span base).hi ∧
      ((mergedSegment curr next).span base).hi < (next.span base).lo := by
  have nextOrder := next.lo_le_hi base
  have currLength := curr.toNat_payloadLen base
  have nextLength := next.toNat_payloadLen base
  have currBound := curr.payloadLen.isLt
  have nextBound := next.payloadLen.isLt
  have start : ((mergedSegment curr next).span base).lo = (curr.span base).lo := rfl
  have stop : ((mergedSegment curr next).span base).hi =
      (curr.span base).lo + (mergedSegment curr next).payloadLen.toNat := rfl
  have wrapped : (mergedSegment curr next).payloadLen.toNat =
      (next.span base).hi - (curr.span base).lo - 2 ^ 16 := by
    rw [mergedSegment]
    dsimp only
    rw [BitVec.toNat_setWidth, toNat_sub_eq_offset, offset_rebase base curr.seq,
      TcpSegment.offset_endSeq_of_near nextNear, TcpSegment.offset_seq]
    omega
  simp only [Has]
  omega

/-- After a merge that does not fit no pass gets the lost position back. -/
theorem mergeFrom_absorbed_loses (granted : Nat → Bool) (merges : Nat)
    {curr next : TcpSegment} {rest : List TcpSegment}
    (ordered : Ordered base (curr :: next :: rest))
    (mergedOrdered : Ordered base (mergedSegment curr next :: rest))
    (touching : (next.span base).lo ≤ (curr.span base).hi)
    (long : 2 ^ 16 ≤ (next.span base).hi - (curr.span base).lo) :
    ∃ position, Covered ((curr :: next :: rest).map (TcpSegment.span base)) position ∧
      ¬Covered ((mergeFrom granted merges (mergedSegment curr next) rest).map
        (TcpSegment.span base)) position := by
  obtain ⟨inCurr, before⟩ := mergedSegment_loses (ordered.near next (by simp)) touching
    (ordered.lo_le next (by simp)) long
  refine ⟨_, (covered_cons _ _ _).mpr (Or.inl inCurr), ?_⟩
  intro found
  have earlier := (mergeFrom_steps granted rest merges
    (mergedSegment curr next)).covered_of_after mergedOrdered found
  rcases (covered_cons _ _ _).mp earlier with merged | ⟨span, member, covers⟩
  · exact Nat.lt_irrefl _ merged.2
  · obtain ⟨later, inRest, rfl⟩ := List.mem_map.mp member
    have after := ordered.tail.lo_le later inRest
    exact absurd (lt_of_lt_of_le before after) (not_lt.mpr covers.1)

/-- A position that is lost behind a segment that stops before it is lost. -/
theorem not_covered_cons {curr : TcpSegment} {rest after : List TcpSegment} {position : Nat}
    (apart : ∀ later ∈ rest, (curr.span base).hi < (later.span base).lo)
    (found : Covered (rest.map (TcpSegment.span base)) position)
    (lost : ¬Covered (after.map (TcpSegment.span base)) position) :
    ¬Covered ((curr :: after).map (TcpSegment.span base)) position := by
  intro kept
  rcases (covered_cons _ _ _).mp kept with inCurr | inAfter
  · obtain ⟨span, member, covers⟩ := found
    obtain ⟨later, inRest, rfl⟩ := List.mem_map.mp member
    have behind := apart later inRest
    simp only [Has] at inCurr covers
    omega
  · exact lost inAfter

/-- If the queue has a run that is longer than a segment can be, the pass with all
allocations granted loses a position. -/
theorem mergeFrom_loses {granted : Nat → Bool} (allGranted : ∀ index, granted index)
    (rest : List TcpSegment) : ∀ (merges : Nat) (curr : TcpSegment),
      Ordered base (curr :: rest) →
      ¬ShortRuns ((curr :: rest).map (TcpSegment.span base)) →
      ∃ position, Covered ((curr :: rest).map (TcpSegment.span base)) position ∧
        ¬Covered ((mergeFrom granted merges curr rest).map (TcpSegment.span base))
          position := by
  induction rest with
  | nil =>
      intro merges curr _ long
      have alone : ShortRuns (([] : List TcpSegment).map (TcpSegment.span base)) := shortRuns_nil
      exact absurd (shortRuns_cons curr alone (by simp)) long
  | cons next rest inductionHypothesis =>
      intro merges curr ordered long
      have nextNear := ordered.near next (by simp)
      have order : (curr.span base).lo ≤ (next.span base).lo := ordered.lo_le _ (by simp)
      have touching := touches_iff (ordered.near curr (by simp)) nextNear
      have inside := inside_iff (ordered.near curr (by simp)) nextNear
      rw [mergeFrom]
      split
      next touches =>
        split
        next contained =>
          have step : MergeStep (curr :: next :: rest) (curr :: rest) :=
            .contained [] rest curr next touches contained
          obtain ⟨position, found, lost⟩ := inductionHypothesis merges curr
            (ordered.mergeStep step) fun short => long (short.mono fun position found =>
              @covered_dropped base [] _ _ _ order (inside.mp contained) _ found)
          exact ⟨position, step.covered_of_after ordered found, lost⟩
        next longer =>
          rw [if_pos (allGranted merges)]
          have step : MergeStep (curr :: next :: rest) (mergedSegment curr next :: rest) :=
            .absorbed [] rest curr next touches (not_le.mp longer)
          have touch := touching.mp touches
          rw [inside] at longer
          by_cases fits : (next.span base).hi - (curr.span base).lo < 2 ^ 16
          · obtain ⟨position, found, lost⟩ := inductionHypothesis (merges + 1)
              (mergedSegment curr next) (ordered.mergeStep step)
              fun short => long (short.mono fun position found =>
                @covered_absorbed base [] _ _ _ nextNear touch (not_le.mp longer) order fits
                  _ found)
            exact ⟨position, step.covered_of_after ordered found, lost⟩
          · exact mergeFrom_absorbed_loses granted (merges + 1) ordered
              (ordered.mergeStep step) touch (not_lt.mp fits)
      next apart =>
        rw [touching] at apart
        -- the position right behind `curr` is in no segment, so the run is behind it
        have behind : ∀ later ∈ next :: rest, (curr.span base).hi < (later.span base).lo := by
          intro later member
          have after := ordered.tail.lo_le_self later member
          omega
        obtain ⟨position, found, lost⟩ := inductionHypothesis merges next ordered.tail
          fun short => long (shortRuns_cons curr short behind)
        exact ⟨position, (covered_cons _ _ _).mpr (Or.inr found),
          not_covered_cons behind found lost⟩

theorem mergeQueue_loses {granted : Nat → Bool} (allGranted : ∀ index, granted index)
    {queue : List TcpSegment} (ordered : Ordered base queue)
    (long : ¬ShortRuns (queue.map (TcpSegment.span base))) :
    ∃ position, Covered (queue.map (TcpSegment.span base)) position ∧
      ¬Covered ((mergeQueue granted queue).map (TcpSegment.span base)) position := by
  cases queue with
  | nil => exact absurd shortRuns_nil long
  | cons curr rest => exact mergeFrom_loses allGranted rest 0 curr ordered long

/-! ## The call -/

/-- The queue represents the same bytes, it is sorted, and `seg_count` has dropped by the
number of segments removed. -/
structure Remerged (base : BitVec 32) (before after : StreamBuffer) : Prop where
  content : ∀ seq byte,
    Represents after.segList seq byte ↔ Represents before.segList seq byte
  ordered : Ordered base after.segList
  fewer : after.segList.length ≤ before.segList.length
  count : after.segCount = before.segCount -
    BitVec.ofNat 32 (before.segList.length - after.segList.length)

/-- The merge pass keeps the bytes of a queue, whatever allocations fail, exactly if no
run of consecutive sequence numbers in it is longer than 65535. -/
theorem tryMergeSegments_keeps_content_iff (base : BitVec 32) (st : Reassembly)
    (mergeable : Mergeable base st.sb.segList) :
    (∀ alloc, Remerged base st.sb (tryMergeSegments alloc st).sb) ↔
      ShortRuns (st.sb.segList.map (TcpSegment.span base)) := by
  obtain ⟨B, agrees⟩ := mergeable.agrees
  have near := mergeable.ordered.near
  constructor
  · intro remerged
    by_contra long
    obtain ⟨position, found, lost⟩ :=
      @mergeQueue_loses base Allocation.ok.merged (fun _ => rfl) _ mergeable.ordered long
    have kept := remerged .ok
    obtain ⟨merged, _, _⟩ := tryMergeSegments_spec .ok st
    have small : position < 2 ^ 32 := by
      obtain ⟨span, member, covers⟩ := found
      obtain ⟨segment, inQueue, rfl⟩ := List.mem_map.mp member
      have bound := near segment inQueue
      have below := covers.2
      omega
    have place : offset base (base + BitVec.ofNat 32 position) = position :=
      offset_self_add (by omega)
    have before : Represents st.sb.segList (base + BitVec.ofNat 32 position)
        (B (base + BitVec.ofNat 32 position)) := by
      rw [represents_iff near agrees, place]
      exact ⟨found, rfl⟩
    have steps := mergeQueue_steps Allocation.ok.merged st.sb.segList
    rw [← kept.content, merged, represents_iff (mergeable.ordered.mergeSteps steps).near
      (steps.agrees agrees), place] at before
    exact lost before.1
  · intro short alloc
    obtain ⟨merged, _, count⟩ := tryMergeSegments_spec alloc st
    have steps := mergeQueue_steps alloc.merged st.sb.segList
    rw [← merged] at steps
    have ordered := mergeable.ordered.mergeSteps steps
    have fewer := steps.length_le
    refine ⟨?_, ordered, fewer, ?_⟩
    · intro seq byte
      rw [represents_iff ordered.near (steps.agrees agrees), represents_iff near agrees,
        steps.covered_iff mergeable.ordered short]
    · have removed : BitVec.ofNat 32 st.sb.segList.length =
          BitVec.ofNat 32 (st.sb.segList.length -
            (tryMergeSegments alloc st).sb.segList.length) +
          BitVec.ofNat 32 (tryMergeSegments alloc st).sb.segList.length := by
        rw [← BitVec.ofNat_add, Nat.sub_add_cancel fewer]
      rw [surplus, surplus, removed] at count
      linear_combination count

/-- Two segments that overlap by one byte and a third one inside them. -/
theorem tryMergeSegments_keeps_overlapping :
    let queue : List TcpSegment := [⟨5, 3, [5, 6, 7]⟩, ⟨6, 1, [6]⟩, ⟨7, 2, [7, 8]⟩]
    (∀ alloc, Remerged 5 ⟨none, 0, 0, 0, 0, queue, 3, .linux, 0, 0, 0, 0⟩
        (tryMergeSegments alloc
          ⟨⟨none, 0, 0, 0, 0, queue, 3, .linux, 0, 0, 0, 0⟩, {}⟩).sb) ↔
      ShortRuns (queue.map (TcpSegment.span 5)) := by
  intro queue
  refine tryMergeSegments_keeps_content_iff 5
    ⟨⟨none, 0, 0, 0, 0, queue, 3, .linux, 0, 0, 0, 0⟩, {}⟩
    (@mergeable_of_agrees (fun seq => UInt8.ofNat seq.toNat) 5 queue ⟨by decide, ?_⟩ ?_)
  · rw [Sorted]
    decide
  · simp only [TcpSegment.Agrees, Carries]
    decide

/-- Two adjacent segments of 40000 bytes: their length of 80000 is stored as 14464. -/
theorem tryMergeSegments_loses_bytes :
    let queue : List TcpSegment :=
      [⟨0, 40000, List.replicate 40000 0⟩, ⟨40000, 40000, List.replicate 40000 0⟩]
    let after := (tryMergeSegments .ok
      ⟨⟨none, 0, 0, 0, 0, queue, 2, .linux, 0, 0, 0, 0⟩, {}⟩).sb
    Mergeable 0 queue ∧ Represents queue 14464 0 ∧ ¬Represents after.segList 14464 0 := by
  intro queue after
  have bytes : ∀ index < 40000, (List.replicate 40000 (0 : UInt8))[index]? = some 0 := by
    intro index inside
    rw [List.getElem?_replicate, if_pos inside]
  refine ⟨@mergeable_of_agrees (fun _ => 0) 0 queue ⟨by decide, ?_⟩ ?_, ?_, ?_⟩
  · rw [Sorted]
    decide
  · intro segment member
    rcases List.mem_cons.mp member with rfl | member
    · exact bytes
    · rw [List.mem_singleton.mp member]
      exact bytes
  · exact ⟨_, List.mem_cons_self, 14464, by decide, by decide, bytes 14464 (by decide)⟩
  · have merged : after.segList = [mergedSegment
        ⟨0, 40000, List.replicate 40000 0⟩ ⟨40000, 40000, List.replicate 40000 0⟩] := rfl
    rw [merged]
    rintro ⟨segment, member, index, inside, place, _⟩
    rw [List.mem_singleton.mp member] at inside place
    have short : (mergedSegment ⟨0, 40000, List.replicate 40000 0⟩
        ⟨40000, 40000, List.replicate 40000 0⟩).payloadLen.toNat = 14464 := rfl
    have reached := congrArg BitVec.toNat place
    rw [short] at inside
    rw [mergedSegment] at reached
    simp at reached
    omega

end NetDefender.Stream
