import NetDefender.Stream.Steps

/-!
# Bytes keep their positions

Let `B` give the byte at every sequence number.  If each inserted payload agrees
with `B`, then so do the reassembled data and every queued segment, after any
calls, for the policies that favor new data.  Nothing is assumed about the order
or the distance of the segments: each trim is justified by the two comparisons
that guard it.
-/

namespace NetDefender.Stream

open Serial

variable {B : BitVec 32 → UInt8}

/-- A queued segment agrees with the byte map. -/
def TcpSegment.Agrees (B : BitVec 32 → UInt8) (segment : TcpSegment) : Prop :=
  Carries B segment.seq segment.payload segment.payloadLen.toNat

/-- A segment on its way in agrees with the byte map. -/
def Incoming.Agrees (B : BitVec 32 → UInt8) (segment : Incoming) : Prop :=
  Carries B segment.seq segment.payload segment.payloadLen.toNat

/-- The invariant: window and queue agree with the byte map. -/
structure Consistent (B : BitVec 32 → UInt8) (sb : StreamBuffer) : Prop where
  favors : sb.osPolicy.FavorsNew
  live : sb.data ≠ none
  next : sb.nextSeq = sb.baseSeq + sb.dataLen
  data : Carries B sb.baseSeq sb.memory sb.dataLen.toNat
  queue : ∀ segment ∈ sb.segList, segment.Agrees B

/-! ## Trims -/

/-- If `stop` lies after `start` and before `start + length`, it lies inside. -/
theorem offset_lt_of_between {start stop : BitVec 32} {length : Nat}
    (after : 0 ≤ seqCompare stop start)
    (before : seqCompare stop (start + BitVec.ofNat 32 length) < 0)
    (bound : length < 2 ^ 31) : offset start stop < length := by
  rw [seqCompare_nonneg_iff] at after
  rw [seqCompare_neg_iff, offset_rebase start, offset_add_ofNat, offset_self]
    at before
  omega

/-- If `start` lies before `stop`, and `start + length` after it, then `stop`
lies inside. -/
theorem offset_lt_of_straddles {start stop : BitVec 32} {length : Nat}
    (before : seqCompare start stop < 0)
    (after : 0 < seqCompare (start + BitVec.ofNat 32 length) stop)
    (bound : length < 2 ^ 31) : offset start stop < length := by
  rw [seqCompare_neg_iff, offset_swap] at before
  rw [seqCompare_pos_iff, offset_rebase start, offset_add_ofNat, offset_self]
    at after
  omega

theorem TcpSegment.trimStart_agrees {segment : TcpSegment} {start : BitVec 32}
    (agrees : segment.Agrees B)
    (inside : offset segment.seq start ≤ segment.payloadLen.toNat) :
    (segment.trimStart start (start - segment.seq)).Agrees B := by
  have lengthBound := segment.payloadLen.isLt
  have remaining :
      (segment.payloadLen.setWidth 32 - (start - segment.seq)).toNat =
        segment.payloadLen.toNat - offset segment.seq start := by
    rw [BitVec.toNat_sub, toNat_sub_eq_offset, BitVec.toNat_setWidth]
    omega
  have tail := agrees.drop inside
  rw [add_offset] at tail
  rw [TcpSegment.Agrees, TcpSegment.trimStart]
  dsimp only
  rw [BitVec.toNat_setWidth, remaining, toNat_sub_eq_offset, memmoveDown]
  exact ((tail.take le_rfl).append_right).mono (Nat.mod_le _ _)

theorem TcpSegment.trimEnd_agrees {segment : TcpSegment} {stop : BitVec 32}
    (agrees : segment.Agrees B)
    (inside : offset segment.seq stop ≤ segment.payloadLen.toNat) :
    (segment.trimEnd stop).Agrees B := by
  rw [TcpSegment.Agrees, TcpSegment.trimEnd]
  dsimp only
  rw [BitVec.toNat_setWidth, toNat_sub_eq_offset]
  exact agrees.mono ((Nat.mod_le _ _).trans inside)

theorem cutBy_agrees {newSeg curr kept : TcpSegment} (agrees : curr.Agrees B)
    (cut : cutBy newSeg curr = some kept) : kept.Agrees B := by
  have lengthBound := curr.payloadLen.isLt
  rw [cutBy] at cut
  split at cut
  next => cases cut
  next =>
    split at cut
    next starts =>
      cases cut
      apply TcpSegment.trimStart_agrees agrees
      apply le_of_lt
      apply offset_lt_of_between starts.2.1.le
      · rw [← TcpSegment.endSeq_eq]
        exact starts.2.2
      · omega
    next =>
      split at cut
      next ends =>
        cases cut
        apply TcpSegment.trimEnd_agrees agrees
        apply le_of_lt
        apply offset_lt_of_between ends.1.le
        · rw [← TcpSegment.endSeq_eq]
          exact ends.2.1
        · omega
      next =>
        cases cut
        exact agrees

theorem mergedSegment_agrees {curr next : TcpSegment} (agrees : curr.Agrees B)
    (nextAgrees : next.Agrees B) (touching : seqCompare curr.endSeq next.seq ≥ 0)
    (longer : seqCompare next.endSeq curr.endSeq > 0) :
    (mergedSegment curr next).Agrees B := by
  have currBound := curr.payloadLen.isLt
  have nextBound := next.payloadLen.isLt
  have overlap : offset next.seq curr.endSeq < next.payloadLen.toNat := by
    rw [ge_iff_le, seqCompare_nonneg_iff] at touching
    rw [gt_iff_lt, seqCompare_pos_iff, offset_rebase next.seq,
      next.offset_endSeq] at longer
    omega
  have start : next.seq + BitVec.ofNat 32 (offset next.seq curr.endSeq) =
      curr.seq + BitVec.ofNat 32 curr.payloadLen.toNat := by
    rw [add_offset, curr.endSeq_eq]
  have tail := nextAgrees.drop overlap.le
  rw [start] at tail
  have whole := Carries.append agrees (tail.take le_rfl)
  have length : (next.endSeq - curr.seq).toNat =
      curr.payloadLen.toNat +
        (next.payloadLen.toNat - offset next.seq curr.endSeq) := by
    have gap := offset_rebase curr.seq next.seq curr.endSeq
    have nextLt := offset_lt curr.seq next.seq
    rw [curr.offset_endSeq] at gap
    rw [toNat_sub_eq_offset, next.endSeq_eq, offset_add_ofNat]
    omega
  rw [TcpSegment.Agrees, mergedSegment]
  dsimp only
  rw [BitVec.toNat_setWidth, length, toNat_sub_eq_offset]
  exact whole.mono (Nat.mod_le _ _)

/-! ## The queue -/

theorem MergeStep.agrees {before after : List TcpSegment}
    (step : MergeStep before after)
    (queue : ∀ segment ∈ before, segment.Agrees B) :
    ∀ segment ∈ after, segment.Agrees B := by
  intro segment member
  cases step with
  | contained front rest curr next touching inside =>
      apply queue
      simp only [List.mem_append, List.mem_cons] at member ⊢
      tauto
  | absorbed front rest curr next touching longer =>
      simp only [List.mem_append, List.mem_cons] at member
      rcases member with member | rfl | member
      · exact queue segment (by simp [member])
      · exact mergedSegment_agrees (queue curr (by simp)) (queue next (by simp))
          touching longer
      · exact queue segment (by simp [member])

theorem MergeSteps.agrees {before after : List TcpSegment}
    (steps : MergeSteps before after)
    (queue : ∀ segment ∈ before, segment.Agrees B) :
    ∀ segment ∈ after, segment.Agrees B := by
  induction steps with
  | refl => exact queue
  | tail _ step inductionHypothesis => exact step.agrees inductionHypothesis

/-! ## The window -/

/-- Appending to a window that agrees with the byte map. -/
theorem StreamBuffer.append_carries (sb : StreamBuffer) {payload : List UInt8}
    {payloadLen : BitVec 16} (live : sb.data ≠ none)
    (next : sb.nextSeq = sb.baseSeq + sb.dataLen)
    (data : Carries B sb.baseSeq sb.memory sb.dataLen.toNat)
    (carries : Carries B sb.nextSeq payload payloadLen.toNat) :
    Carries B sb.baseSeq (sb.append payload payloadLen).memory
      (sb.append payload payloadLen).dataLen.toNat := by
  obtain ⟨memory, present⟩ := Option.ne_none_iff_exists'.mp live
  rw [StreamBuffer.memory, present, Option.getD_some] at data
  have stop : sb.nextSeq = sb.baseSeq + BitVec.ofNat 32 sb.dataLen.toNat := by
    rw [BitVec.ofNat_toNat, BitVec.setWidth_eq]
    exact next
  rw [stop] at carries
  have whole := data.append (carries.take le_rfl)
  rw [StreamBuffer.memory, StreamBuffer.append]
  dsimp only
  rw [present, Option.map_some, Option.getD_some]
  -- past 2 ^ 32 the counter wraps, and what it still counts is a prefix
  apply whole.mono
  rw [BitVec.toNat_add, BitVec.toNat_setWidth]
  have lengthBound := payloadLen.isLt
  omega

namespace Consistent

variable {sb after : StreamBuffer}

theorem of_sameWindow (consistent : Consistent B sb) (same : SameWindow sb after)
    (queue : ∀ segment ∈ after.segList, segment.Agrees B) :
    Consistent B after where
  favors := by
    rw [same.osPolicy]
    exact consistent.favors
  live := by
    rw [same.data]
    exact consistent.live
  next := by
    rw [same.nextSeq, same.baseSeq, same.dataLen]
    exact consistent.next
  data := by
    rw [StreamBuffer.memory, same.data, same.baseSeq, same.dataLen]
    exact consistent.data
  queue := queue

theorem of_sameContent (consistent : Consistent B sb)
    (same : SameContent sb after) : Consistent B after := by
  apply consistent.of_sameWindow same.toSameWindow
  rw [same.segList]
  exact consistent.queue

theorem enqueue {granted : Nat → Bool} {newSeg : TcpSegment}
    {front back : List TcpSegment} (consistent : Consistent B sb)
    (agrees : newSeg.Agrees B)
    (enqueued : Enqueued granted newSeg sb after front back) : Consistent B after := by
  have cut : ∀ segment ∈ front ++ back, segment.Agrees B := by
    intro segment member
    rw [← enqueued.split, List.mem_filterMap] at member
    obtain ⟨curr, inQueue, kept⟩ := member
    exact cutBy_agrees (consistent.queue curr inQueue) kept
  apply consistent.of_sameWindow enqueued.window
  apply enqueued.mergeSteps.agrees
  intro segment member
  simp only [List.mem_append, List.mem_cons] at member cut
  rcases member with member | rfl | member
  · exact cut segment (Or.inl member)
  · exact agrees
  · exact cut segment (Or.inr member)

theorem append {payload : List UInt8} {payloadLen : BitVec 16}
    (consistent : Consistent B sb)
    (carries : Carries B sb.nextSeq payload payloadLen.toNat) :
    Consistent B (sb.append payload payloadLen) where
  favors := consistent.favors
  live := StreamBuffer.append_live consistent.live payload payloadLen
  next := StreamBuffer.append_next consistent.next payload payloadLen
  data := sb.append_carries consistent.live consistent.next consistent.data carries
  queue := consistent.queue

theorem slide {count : BitVec 32} (consistent : Consistent B sb)
    (bound : count ≤ sb.dataLen) : Consistent B (sb.slide count) where
  favors := consistent.favors
  live := StreamBuffer.slide_live consistent.live count
  next := StreamBuffer.slide_next consistent.next count
  data := by
    obtain ⟨memory, present⟩ := Option.ne_none_iff_exists'.mp consistent.live
    have held := consistent.data
    rw [StreamBuffer.memory, present, Option.getD_some] at held
    have tail := held.drop (BitVec.le_def.mp bound)
    rw [BitVec.ofNat_toNat, BitVec.setWidth_eq] at tail
    rw [StreamBuffer.memory, StreamBuffer.slide]
    dsimp only
    rw [present, Option.map_some, Option.getD_some, memmoveDown,
      BitVec.toNat_sub_of_le bound]
    exact (tail.take le_rfl).append_right
  queue := consistent.queue

theorem drainStep (consistent : Consistent B sb) (step : DrainStep sb after) :
    Consistent B after := by
  cases step with
  | @stale seg rest list other behind =>
      apply consistent.of_sameWindow (sb.unlinkHead_sameWindow rest)
      intro segment member
      apply consistent.queue segment
      rw [list]
      exact List.mem_cons_of_mem _ member
  | @deliver seg rest list next fits =>
      have agrees : seg.Agrees B := by
        apply consistent.queue
        rw [list]
        exact List.mem_cons_self
      rw [TcpSegment.Agrees, next] at agrees
      apply (consistent.append agrees).of_sameWindow
        (StreamBuffer.unlinkHead_sameWindow _ rest)
      intro segment member
      apply consistent.queue segment
      rw [list]
      exact List.mem_cons_of_mem _ member

theorem drain (consistent : Consistent B sb) (drained : Drained sb after) :
    Consistent B after := by
  obtain ⟨last, lastConsistent, _, same⟩ :=
    drained.invariant consistent Consistent.drainStep
  exact lastConsistent.of_sameContent same

end Consistent

/-! ## Segments on their way in -/

theorem Incoming.skip_agrees {segment : Incoming} {start : BitVec 32}
    (agrees : segment.Agrees B)
    (inside : offset segment.seq start < segment.payloadLen.toNat) :
    (segment.skip start (start - segment.seq)).Agrees B := by
  have lengthBound := segment.payloadLen.isLt
  have tail := agrees.drop inside.le
  rw [add_offset] at tail
  rw [Incoming.Agrees, Incoming.skip]
  dsimp only
  rw [toNat_sub_eq_offset]
  apply tail.mono
  rw [BitVec.toNat_sub, BitVec.toNat_setWidth, toNat_sub_eq_offset]
  omega

theorem Incoming.fromBase_agrees {sb : StreamBuffer} {segment : Incoming}
    (agrees : segment.Agrees B) (live : ¬segment.BeforeBase sb) :
    (segment.fromBase sb).Agrees B := by
  rw [Incoming.fromBase]
  split
  next before =>
    apply Incoming.skip_agrees agrees
    by_contra outside
    apply live
    refine Or.inr ⟨before, ?_⟩
    rw [ge_iff_le, BitVec.le_def, BitVec.toNat_setWidth, toNat_sub_eq_offset]
    have lengthBound := segment.payloadLen.isLt
    omega
  next => exact agrees

theorem Incoming.pastWindow_agrees {sb : StreamBuffer} {segment : Incoming}
    (agrees : segment.Agrees B) : (segment.pastWindow sb).Agrees B := by
  rw [Incoming.pastWindow]
  split
  next before =>
    split
    next =>
      intro index small
      cases small
    next after =>
      apply Incoming.skip_agrees agrees
      have lengthBound := segment.payloadLen.isLt
      apply offset_lt_of_straddles before _ (by omega)
      rw [← setWidth_eq_ofNat]
      exact not_le.mp after
  next => exact agrees

theorem Incoming.toSegment_agrees {segment : Incoming}
    (agrees : segment.Agrees B) : segment.toSegment.Agrees B :=
  agrees.take le_rfl

/-! ## Runs -/

/-- The payload of an insertion agrees with the byte map. -/
def Op.Agrees (B : BitVec 32 → UInt8) : Op → Prop
  | .insert seq (some payload) payloadLen _ =>
      ∀ index < payloadLen.toNat,
        payload[index]? = some (B (seq + BitVec.ofNat 32 index))
  | .insert _ none _ _ => True
  | .consume _ => True

theorem Consistent.insertEffect {config : StreamConfig} {alloc : Allocation}
    {sb after : StreamBuffer} {segment : Incoming} (consistent : Consistent B sb)
    (agrees : segment.Agrees B)
    (effect : InsertEffect config alloc sb segment after) :
    Consistent B after := by
  cases effect with
  | ignored reason same => exact consistent.of_sameContent same
  | inOrder valid live next fits drained =>
      have trimmed := Incoming.fromBase_agrees agrees live
      rw [Incoming.Agrees, next] at trimmed
      exact (consistent.append trimmed).drain drained
  | queued middle front back valid live other nonempty room enqueued drained =>
      have trimmed : ((segment.fromBase sb).pastWindow sb).Agrees B :=
        Incoming.pastWindow_agrees (Incoming.fromBase_agrees agrees live)
      exact (consistent.enqueue (Incoming.toSegment_agrees trimmed)
        enqueued).drain drained

theorem Consistent.run {st : Reassembly} (consistent : Consistent B st.sb)
    (config : StreamConfig) (op : Op) (agrees : op.Agrees B) :
    ∃ st', op.run config st = .ok st' ∧ Consistent B st'.sb := by
  cases op with
  | insert seq payload payloadLen alloc =>
      cases payload with
      | none => exact ⟨st, rfl, consistent⟩
      | some payload =>
          obtain ⟨ret, st', equation, effect⟩ :=
            streamBufferInsertSegment_effect config alloc st
              ⟨seq, payload, payloadLen⟩ consistent.favors
          have carried : Incoming.Agrees B ⟨seq, payload, payloadLen⟩ := agrees
          refine ⟨st', ?_, consistent.insertEffect carried effect⟩
          rw [Op.run, equation]
          rfl
  | consume consumeLen =>
      refine ⟨_, rfl, ?_⟩
      rcases streamBufferConsume_effect st consumeLen with ⟨_, same⟩ | drained
      · exact consistent.of_sameContent same
      · exact (consistent.slide
          (st.sb.clampConsume_le_dataLen consumeLen)).drain drained

theorem Consistent.runOps {config : StreamConfig} (ops : List Op) :
    ∀ {st : Reassembly}, Consistent B st.sb → (∀ op ∈ ops, op.Agrees B) →
      ∃ final, runOps config st ops = .ok final ∧ Consistent B final.sb := by
  intro st consistent agrees
  refine Fallible.exists_foldlM_invariant (fun st op consistent agrees => ?_) consistent agrees
  exact consistent.run config op agrees

theorem streamBufferInit_consistent (config : StreamConfig)
    (stats : ReassemblyStats) (initialSeq : BitVec 32) (policy : OsPolicy)
    (favors : policy.FavorsNew) :
    Consistent B (streamBufferInit config stats initialSeq policy true).2.sb where
  favors := favors
  live := by
    intro missing
    cases missing
  next := (add_zero initialSeq).symm
  data := by
    intro index small
    cases small
  queue := by
    intro segment member
    cases member

/-- Reassembly never delivers a byte at a wrong position. -/
theorem reassembly_keeps_positions (config : StreamConfig)
    (stats : ReassemblyStats) (initialSeq : BitVec 32) (policy : OsPolicy)
    (favors : policy.FavorsNew) (B : BitVec 32 → UInt8) (ops : List Op)
    (agrees : ∀ op ∈ ops, op.Agrees B) :
    ∃ final, runOps config
        (streamBufferInit config stats initialSeq policy true).2 ops = .ok final ∧
      (∀ i < final.sb.dataLen.toNat, final.sb.memory[i]? =
        some (B (final.sb.baseSeq + BitVec.ofNat 32 i))) ∧
      ∀ seg ∈ final.sb.segList, ∀ j < seg.payloadLen.toNat, seg.payload[j]? =
        some (B (seg.seq + BitVec.ofNat 32 j)) := by
  obtain ⟨final, run, consistent⟩ := Consistent.runOps ops
    (streamBufferInit_consistent config stats initialSeq policy favors) agrees
  exact ⟨final, run, consistent.data, consistent.queue⟩

/-- Two overlapping segments across the wrap of the sequence space, the later
one first, then a partial consume. -/
theorem reassembly_keeps_positions_wrap :
    let B : BitVec 32 → UInt8 := fun seq => UInt8.ofNat (seq.toNat % 251)
    let ops : List Op :=
      [.insert 1 (some [1, 2, 3]) 3 .ok,
        .insert 0xFFFFFFFE (some [121, 122, 0, 1, 2]) 5 .ok, .consume 3]
    (∀ op ∈ ops, op.Agrees B) ∧
      ∃ final, runOps .default
          (streamBufferInit .default {} 0xFFFFFFFE .linux true).2 ops = .ok final ∧
        (∀ i < final.sb.dataLen.toNat, final.sb.memory[i]? =
          some (B (final.sb.baseSeq + BitVec.ofNat 32 i))) ∧
        ∀ seg ∈ final.sb.segList, ∀ j < seg.payloadLen.toNat, seg.payload[j]? =
          some (B (seg.seq + BitVec.ofNat 32 j)) := by
  intro B ops
  have agrees : ∀ op ∈ ops, op.Agrees B := by
    intro op member
    simp only [ops, List.mem_cons, List.not_mem_nil, or_false] at member
    rcases member with rfl | rfl | rfl
    · rw [Op.Agrees]
      decide
    · rw [Op.Agrees]
      decide
    · trivial
  exact ⟨agrees, reassembly_keeps_positions .default {} 0xFFFFFFFE .linux
    (by decide) B ops agrees⟩

end NetDefender.Stream
