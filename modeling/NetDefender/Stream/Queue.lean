import Mathlib.Logic.Relation
import Mathlib.Tactic.LinearCombination
import NetDefender.Lib.Fallible
import NetDefender.Lib.Serial
import NetDefender.Stream.Model

/-!
# What the queue operations do

One specification for each loop of the reassembler.  Under a policy that favors
new data the overlap walk rewrites every queued segment on its own (`cutBy`), so
that its result is a `filterMap`; the merge pass is a rewriting of neighbours;
the drain is an iteration of two steps, for which an invariant rule is given.
Later modules reason from these statements and do not unfold the loops again.
-/

namespace NetDefender.Stream

open Serial

/-! ## Comparison of sequence numbers -/

theorem and_signBit (word : BitVec 32) :
    word &&& 0x80000000#32 ≠ 0#32 ↔ 2 ^ 31 ≤ word.toNat := by
  have signBit : 0x80000000#32 = BitVec.twoPow 32 31 := by decide
  have top : word.getLsbD 31 = word.msb := by
    simp [BitVec.msb_eq_getLsbD_last]
  rw [signBit, BitVec.and_twoPow, top, BitVec.msb_eq_decide]
  split <;> simp_all

/-- `seq_compare` is the sign of the 32-bit distance, with the antipode counted
as negative. -/
theorem seqCompare_eq_offset (left right : BitVec 32) :
    seqCompare left right =
      if offset right left = 0 then 0
      else if 2 ^ 31 ≤ offset right left then -1
      else 1 := by
  simp only [seqCompare, and_signBit, toNat_sub_eq_offset,
    offset_eq_zero_iff right left]

theorem seqCompare_eq_zero_iff (left right : BitVec 32) :
    seqCompare left right = 0 ↔ left = right := by
  rw [seqCompare_eq_offset, ← offset_eq_zero_iff right left]
  split
  · simp_all
  · split <;> simp_all

theorem seqCompare_neg_iff (left right : BitVec 32) :
    seqCompare left right < 0 ↔ 2 ^ 31 ≤ offset right left := by
  rw [seqCompare_eq_offset]
  split
  · omega
  · split <;> omega

theorem seqCompare_nonpos_iff (left right : BitVec 32) :
    seqCompare left right ≤ 0 ↔
      offset right left = 0 ∨ 2 ^ 31 ≤ offset right left := by
  rw [seqCompare_eq_offset]
  split
  · omega
  · split <;> omega

theorem seqCompare_pos_iff (left right : BitVec 32) :
    0 < seqCompare left right ↔
      0 < offset right left ∧ offset right left < 2 ^ 31 := by
  rw [seqCompare_eq_offset]
  split
  · omega
  · split <;> omega

theorem seqCompare_nonneg_iff (left right : BitVec 32) :
    0 ≤ seqCompare left right ↔ offset right left < 2 ^ 31 := by
  rw [seqCompare_eq_offset]
  split
  · omega
  · split <;> omega

/-- The gap test of `process_segment_queue` in terms of offsets. -/
theorem toInt_sub_pos_iff (left right : BitVec 32) :
    (left - right).toInt > 0 ↔
      0 < offset right left ∧ offset right left < 2 ^ 31 := by
  rw [BitVec.toInt_eq_toNat_cond, toNat_sub_eq_offset]
  have bound := offset_lt right left
  split <;> omega

theorem setWidth_eq_ofNat (length : BitVec 16) :
    length.setWidth 32 = BitVec.ofNat 32 length.toNat := by
  apply BitVec.eq_of_toNat_eq
  simp

theorem TcpSegment.endSeq_eq (segment : TcpSegment) :
    segment.endSeq = segment.seq + BitVec.ofNat 32 segment.payloadLen.toNat := by
  rw [TcpSegment.endSeq, setWidth_eq_ofNat]

theorem TcpSegment.offset_endSeq (segment : TcpSegment) :
    offset segment.seq segment.endSeq = segment.payloadLen.toNat := by
  have bound := segment.payloadLen.isLt
  rw [segment.endSeq_eq, offset_add_ofNat, offset_self]
  omega

/-! ## The window -/

/-- Two buffers that differ at most in their queue and in counters. -/
structure SameWindow (before after : StreamBuffer) : Prop where
  data : after.data = before.data
  dataLen : after.dataLen = before.dataLen
  baseSeq : after.baseSeq = before.baseSeq
  nextSeq : after.nextSeq = before.nextSeq
  osPolicy : after.osPolicy = before.osPolicy
  maxBufferSize : after.maxBufferSize = before.maxBufferSize
  totalReassembled : after.totalReassembled = before.totalReassembled

namespace SameWindow

variable {first second third : StreamBuffer}

theorem refl (sb : StreamBuffer) : SameWindow sb sb :=
  ⟨rfl, rfl, rfl, rfl, rfl, rfl, rfl⟩

theorem trans (left : SameWindow first second) (right : SameWindow second third) :
    SameWindow first third where
  data := right.data.trans left.data
  dataLen := right.dataLen.trans left.dataLen
  baseSeq := right.baseSeq.trans left.baseSeq
  nextSeq := right.nextSeq.trans left.nextSeq
  osPolicy := right.osPolicy.trans left.osPolicy
  maxBufferSize := right.maxBufferSize.trans left.maxBufferSize
  totalReassembled := right.totalReassembled.trans left.totalReassembled

end SameWindow

/-- Two buffers that differ at most in the overlap and gap counters. -/
structure SameContent (before after : StreamBuffer) : Prop
    extends SameWindow before after where
  segList : after.segList = before.segList
  segCount : after.segCount = before.segCount

namespace SameContent

variable {first second third : StreamBuffer}

theorem refl (sb : StreamBuffer) : SameContent sb sb :=
  ⟨SameWindow.refl sb, rfl, rfl⟩

theorem trans (left : SameContent first second)
    (right : SameContent second third) : SameContent first third :=
  ⟨left.toSameWindow.trans right.toSameWindow, right.segList.trans left.segList,
    right.segCount.trans left.segCount⟩

end SameContent

theorem Reassembly.unlink_sameWindow (st : Reassembly) (segment : TcpSegment) :
    SameWindow st.sb (st.unlink segment).sb :=
  ⟨rfl, rfl, rfl, rfl, rfl, rfl, rfl⟩

theorem Reassembly.countOverlap_sameWindow (st : Reassembly) :
    SameWindow st.sb st.countOverlap.sb :=
  ⟨rfl, rfl, rfl, rfl, rfl, rfl, rfl⟩

theorem StreamBuffer.append_live {sb : StreamBuffer} (live : sb.data ≠ none)
    (payload : List UInt8) (payloadLen : BitVec 16) :
    (sb.append payload payloadLen).data ≠ none := by
  intro missing
  rw [StreamBuffer.append, Option.map_eq_none_iff] at missing
  exact live missing

theorem StreamBuffer.append_next {sb : StreamBuffer}
    (next : sb.nextSeq = sb.baseSeq + sb.dataLen) (payload : List UInt8)
    (payloadLen : BitVec 16) : (sb.append payload payloadLen).nextSeq =
      (sb.append payload payloadLen).baseSeq + (sb.append payload payloadLen).dataLen := by
  rw [StreamBuffer.append]
  dsimp only
  rw [next, add_assoc]

/-- By how much `seg_count` exceeds the number of queued segments; every queue
operation keeps this difference. -/
def surplus (sb : StreamBuffer) (queue : List TcpSegment) : BitVec 32 :=
  sb.segCount - BitVec.ofNat 32 queue.length

theorem surplus_unlink (st : Reassembly) (segment : TcpSegment)
    (queue : List TcpSegment) :
    surplus (st.unlink segment).sb queue = surplus st.sb (segment :: queue) := by
  simp only [surplus, Reassembly.unlink, List.length_cons, BitVec.ofNat_add]
  have one : (1#32) = 1 := rfl
  rw [one]
  ring

theorem surplus_cons_congr {left right : StreamBuffer}
    {leftQueue rightQueue : List TcpSegment}
    (equality : surplus left leftQueue = surplus right rightQueue)
    (first second : TcpSegment) :
    surplus left (first :: leftQueue) = surplus right (second :: rightQueue) := by
  simp only [surplus, List.length_cons, BitVec.ofNat_add] at equality ⊢
  rw [← sub_sub, ← sub_sub, equality]

/-! ## The overlap walk -/

/-- Case 1 of the overlap handler: the new segment covers `curr`. -/
def Covers (newSeg curr : TcpSegment) : Prop :=
  seqCompare newSeg.seq curr.seq ≤ 0 ∧ seqCompare newSeg.endSeq curr.endSeq ≥ 0

instance (newSeg curr : TcpSegment) : Decidable (Covers newSeg curr) :=
  inferInstanceAs (Decidable (_ ∧ _))

/-- Case 2: the new segment overlaps the start of `curr`. -/
def OverlapsStart (newSeg curr : TcpSegment) : Prop :=
  seqCompare newSeg.seq curr.seq < 0 ∧ seqCompare newSeg.endSeq curr.seq > 0 ∧
    seqCompare newSeg.endSeq curr.endSeq < 0

instance (newSeg curr : TcpSegment) : Decidable (OverlapsStart newSeg curr) :=
  inferInstanceAs (Decidable (_ ∧ _))

/-- Case 3: the new segment overlaps the end of `curr`. -/
def OverlapsEnd (newSeg curr : TcpSegment) : Prop :=
  seqCompare newSeg.seq curr.seq > 0 ∧ seqCompare newSeg.seq curr.endSeq < 0 ∧
    seqCompare newSeg.endSeq curr.endSeq ≥ 0

instance (newSeg curr : TcpSegment) : Decidable (OverlapsEnd newSeg curr) :=
  inferInstanceAs (Decidable (_ ∧ _))

/-- What the overlap walk leaves of the queued segment `curr` when new data is
favored. -/
def cutBy (newSeg curr : TcpSegment) : Option TcpSegment :=
  if Covers newSeg curr then none
  else if OverlapsStart newSeg curr then
    some (curr.trimStart newSeg.endSeq (newSeg.endSeq - curr.seq))
  else if OverlapsEnd newSeg curr then some (curr.trimEnd newSeg.seq)
  else some curr

/-- Once the start of `curr` has been moved to the end of the new segment, the
test of case 3 fails. -/
theorem not_overlapsEnd_of_trimmed (newSeg : TcpSegment) :
    ¬seqCompare newSeg.seq newSeg.endSeq > 0 := by
  rw [gt_iff_lt, seqCompare_pos_iff, TcpSegment.endSeq_eq, offset_swap,
    offset_add_ofNat, offset_self]
  have bound := newSeg.payloadLen.isLt
  omega

/-- One step of the overlap walk under a policy that favors new data. -/
theorem overlapLoop_cons (newSeg curr : TcpSegment) (rest : List TcpSegment)
    (st : Reassembly) (favors : st.sb.osPolicy.FavorsNew) :
    ∃ st', SameWindow st.sb st'.sb ∧
      surplus st'.sb (cutBy newSeg curr).toList = surplus st.sb [curr] ∧
      overlapLoop newSeg.endSeq newSeg st (curr :: rest) =
        let (kept, queue, final) := overlapLoop newSeg.endSeq newSeg st' rest
        (kept, (cutBy newSeg curr).toList ++ queue, final) := by
  have policy : st.sb.osPolicy = .linux ∨ st.sb.osPolicy = .windows ∨
      st.sb.osPolicy = .last := by
    cases found : st.sb.osPolicy <;> simp_all [OsPolicy.FavorsNew]
  have trimmed := not_overlapsEnd_of_trimmed newSeg
  by_cases covers : Covers newSeg curr
  · refine ⟨(st.unlink curr).countOverlap, (st.unlink_sameWindow curr).trans
      (Reassembly.countOverlap_sameWindow _), ?_, ?_⟩
    · rw [cutBy, if_pos covers]
      exact surplus_unlink st curr []
    have test := covers
    rw [Covers] at test
    rcases policy with policy | policy | policy <;>
      simp only [overlapLoop, if_pos test, policy, cutBy, if_pos covers,
        Option.toList, List.nil_append]
  · have test := covers
    rw [Covers] at test
    by_cases starts : OverlapsStart newSeg curr
    · refine ⟨st.countOverlap, st.countOverlap_sameWindow, ?_, ?_⟩
      · rw [cutBy, if_neg covers, if_pos starts]
        rfl
      have startTest := starts
      rw [OverlapsStart] at startTest
      rcases policy with policy | policy | policy <;>
        simp only [overlapLoop, if_neg test, overlapStart, if_pos startTest,
          policy, overlapEnd, TcpSegment.trimStart, trimmed, false_and, if_false,
          cutBy, if_neg covers, if_pos starts, Option.toList, List.cons_append,
          List.nil_append]
    · have startTest := starts
      rw [OverlapsStart] at startTest
      by_cases ends : OverlapsEnd newSeg curr
      · refine ⟨st.countOverlap, st.countOverlap_sameWindow, ?_, ?_⟩
        · rw [cutBy, if_neg covers, if_neg starts, if_pos ends]
          rfl
        have endTest := ends
        rw [OverlapsEnd] at endTest
        rcases policy with policy | policy | policy <;>
          simp only [overlapLoop, if_neg test, overlapStart, if_neg startTest,
            overlapEnd, if_pos endTest, policy, cutBy, if_neg covers,
            if_neg starts, if_pos ends, Option.toList, List.cons_append,
            List.nil_append]
      · refine ⟨st, SameWindow.refl _, ?_, ?_⟩
        · rw [cutBy, if_neg covers, if_neg starts, if_neg ends]
          rfl
        have endTest := ends
        rw [OverlapsEnd] at endTest
        simp only [overlapLoop, if_neg test, overlapStart, if_neg startTest,
          overlapEnd, if_neg endTest, cutBy, if_neg covers, if_neg starts,
          if_neg ends, Option.toList, List.cons_append, List.nil_append]

/-- Under a policy that favors new data the overlap walk keeps the new segment
as it is and rewrites each queued segment by `cutBy`. -/
theorem overlapLoop_favorsNew (newSeg : TcpSegment) (queue : List TcpSegment) :
    ∀ st : Reassembly, st.sb.osPolicy.FavorsNew →
      ∃ st', overlapLoop newSeg.endSeq newSeg st queue =
          (some newSeg, queue.filterMap (cutBy newSeg), st') ∧
        SameWindow st.sb st'.sb ∧
        surplus st'.sb (queue.filterMap (cutBy newSeg)) = surplus st.sb queue := by
  induction queue with
  | nil =>
      intro st _
      exact ⟨st, rfl, SameWindow.refl _, rfl⟩
  | cons curr rest inductionHypothesis =>
      intro st favors
      obtain ⟨first, firstSame, firstSurplus, step⟩ :=
        overlapLoop_cons newSeg curr rest st favors
      obtain ⟨final, equation, finalSame, finalSurplus⟩ :=
        inductionHypothesis first (firstSame.osPolicy ▸ favors)
      refine ⟨final, ?_, firstSame.trans finalSame, ?_⟩
      · rw [step, equation]
        cases cut : cutBy newSeg curr <;> simp [cut]
      · simp only [surplus, sub_eq_sub_iff_add_eq_add] at firstSurplus finalSurplus ⊢
        cases cut : cutBy newSeg curr with
        | none =>
            simp only [cut, Option.toList, List.length_nil, List.length_cons,
              BitVec.ofNat_add] at firstSurplus
            simp only [List.filterMap_cons, cut, List.length_cons,
              BitVec.ofNat_add]
            linear_combination firstSurplus + finalSurplus
        | some kept =>
            simp only [cut, Option.toList, List.length_nil, List.length_cons,
              BitVec.ofNat_add] at firstSurplus
            simp only [List.filterMap_cons, cut, List.length_cons,
              BitVec.ofNat_add]
            linear_combination firstSurplus + finalSurplus

theorem handleQueueOverlaps_favorsNew (st : Reassembly) (newSeg : TcpSegment)
    (favors : st.sb.osPolicy.FavorsNew) :
    ∃ st', handleQueueOverlaps st newSeg = (some newSeg, st') ∧
      st'.sb.segList = st.sb.segList.filterMap (cutBy newSeg) ∧
      SameWindow st.sb st'.sb ∧
      surplus st'.sb st'.sb.segList = surplus st.sb st.sb.segList := by
  obtain ⟨final, equation, same, count⟩ :=
    overlapLoop_favorsNew newSeg st.sb.segList st favors
  refine ⟨{ final with sb := { final.sb with
      segList := st.sb.segList.filterMap (cutBy newSeg) } }, ?_, rfl, ?_, count⟩
  · rw [handleQueueOverlaps, equation]
  · exact same.trans ⟨rfl, rfl, rfl, rfl, rfl, rfl, rfl⟩

/-! ## The merge pass -/

/-- One merge of neighbours in the queue: a contained neighbour is removed, or a
longer one is absorbed. -/
inductive MergeStep : List TcpSegment → List TcpSegment → Prop where
  | contained (front rest : List TcpSegment) (curr next : TcpSegment)
      (touching : seqCompare curr.endSeq next.seq ≥ 0)
      (inside : seqCompare next.endSeq curr.endSeq ≤ 0) :
      MergeStep (front ++ curr :: next :: rest) (front ++ curr :: rest)
  | absorbed (front rest : List TcpSegment) (curr next : TcpSegment)
      (touching : seqCompare curr.endSeq next.seq ≥ 0)
      (longer : seqCompare next.endSeq curr.endSeq > 0) :
      MergeStep (front ++ curr :: next :: rest)
        (front ++ mergedSegment curr next :: rest)

theorem MergeStep.cons {before after : List TcpSegment} (segment : TcpSegment)
    (step : MergeStep before after) :
    MergeStep (segment :: before) (segment :: after) := by
  cases step with
  | contained front rest curr next touching inside =>
      exact .contained (segment :: front) rest curr next touching inside
  | absorbed front rest curr next touching longer =>
      exact .absorbed (segment :: front) rest curr next touching longer

/-- A merge pass: merges of neighbours, one after the other. -/
def MergeSteps : List TcpSegment → List TcpSegment → Prop :=
  Relation.ReflTransGen MergeStep

theorem MergeSteps.cons {before after : List TcpSegment} (segment : TcpSegment)
    (steps : MergeSteps before after) :
    MergeSteps (segment :: before) (segment :: after) := by
  induction steps with
  | refl => exact Relation.ReflTransGen.refl
  | tail _ step inductionHypothesis =>
      exact inductionHypothesis.tail (step.cons segment)

/-- The queue that the merge pass leaves when the cursor is on `curr`; `granted`
gives the outcomes of the allocations, of which `merges` have been asked for. -/
def mergeFrom (granted : Nat → Bool) (merges : Nat) (curr : TcpSegment) :
    List TcpSegment → List TcpSegment
  | [] => [curr]
  | next :: rest =>
      if seqCompare curr.endSeq next.seq ≥ 0 then
        if seqCompare next.endSeq curr.endSeq ≤ 0 then
          mergeFrom granted merges curr rest
        else if granted merges then
          mergeFrom granted (merges + 1) (mergedSegment curr next) rest
        else curr :: mergeFrom granted (merges + 1) next rest
      else curr :: mergeFrom granted merges next rest

/-- The queue that the merge pass leaves. -/
def mergeQueue (granted : Nat → Bool) : List TcpSegment → List TcpSegment
  | [] => []
  | curr :: rest => mergeFrom granted 0 curr rest

theorem mergeFrom_steps (granted : Nat → Bool) (rest : List TcpSegment) :
    ∀ (merges : Nat) (curr : TcpSegment),
      MergeSteps (curr :: rest) (mergeFrom granted merges curr rest) := by
  induction rest with
  | nil =>
      intro merges curr
      exact Relation.ReflTransGen.refl
  | cons next rest inductionHypothesis =>
      intro merges curr
      rw [mergeFrom]
      split
      next touching =>
        split
        next inside =>
          exact Relation.ReflTransGen.head
            (.contained [] rest curr next touching inside)
            (inductionHypothesis merges curr)
        next longer =>
          split
          next =>
            exact Relation.ReflTransGen.head
              (.absorbed [] rest curr next touching (not_le.mp longer))
              (inductionHypothesis (merges + 1) (mergedSegment curr next))
          next => exact (inductionHypothesis (merges + 1) next).cons curr
      next => exact (inductionHypothesis merges next).cons curr

theorem mergeQueue_steps (granted : Nat → Bool) (queue : List TcpSegment) :
    MergeSteps queue (mergeQueue granted queue) := by
  cases queue with
  | nil => exact Relation.ReflTransGen.refl
  | cons curr rest => exact mergeFrom_steps granted rest 0 curr

theorem tryMergeFrom_spec (alloc : Allocation) (rest : List TcpSegment) :
    ∀ (merges : Nat) (st : Reassembly) (curr : TcpSegment),
      (tryMergeFrom alloc merges st curr rest).1 =
        mergeFrom alloc.merged merges curr rest ∧
      SameWindow st.sb (tryMergeFrom alloc merges st curr rest).2.sb ∧
      surplus (tryMergeFrom alloc merges st curr rest).2.sb
          (mergeFrom alloc.merged merges curr rest) =
        surplus st.sb (curr :: rest) := by
  induction rest with
  | nil =>
      intro merges st curr
      exact ⟨rfl, SameWindow.refl _, rfl⟩
  | cons next rest inductionHypothesis =>
      intro merges st curr
      -- moving the cursor on keeps `curr` and goes on with `next`
      have advance : ∀ count,
          curr :: (tryMergeFrom alloc count st next rest).1 =
            curr :: mergeFrom alloc.merged count next rest ∧
          SameWindow st.sb (tryMergeFrom alloc count st next rest).2.sb ∧
          surplus (tryMergeFrom alloc count st next rest).2.sb
              (curr :: mergeFrom alloc.merged count next rest) =
            surplus st.sb (curr :: next :: rest) := by
        intro count
        obtain ⟨queue, same, count⟩ := inductionHypothesis count st next
        exact ⟨congrArg (curr :: ·) queue, same, surplus_cons_congr count curr curr⟩
      have unlinked : ∀ segment : TcpSegment,
          surplus (st.unlink next).sb (segment :: rest) =
            surplus st.sb (curr :: next :: rest) := by
        intro segment
        rw [surplus_unlink]
        rfl
      rw [tryMergeFrom, mergeFrom]
      split
      next touching =>
        split
        next inside =>
          obtain ⟨queue, same, count⟩ :=
            inductionHypothesis merges (st.unlink next) curr
          exact ⟨queue, (st.unlink_sameWindow next).trans same,
            count.trans (unlinked curr)⟩
        next longer =>
          split
          next =>
            obtain ⟨queue, same, count⟩ := inductionHypothesis (merges + 1)
              (st.unlink next) (mergedSegment curr next)
            exact ⟨queue, (st.unlink_sameWindow next).trans same,
              count.trans (unlinked _)⟩
          next => exact advance (merges + 1)
      next => exact advance merges

theorem tryMergeSegments_spec (alloc : Allocation) (st : Reassembly) :
    (tryMergeSegments alloc st).sb.segList =
        mergeQueue alloc.merged st.sb.segList ∧
      SameWindow st.sb (tryMergeSegments alloc st).sb ∧
      surplus (tryMergeSegments alloc st).sb
          (tryMergeSegments alloc st).sb.segList =
        surplus st.sb st.sb.segList := by
  rw [tryMergeSegments]
  split
  next list =>
    rw [list]
    exact ⟨rfl, SameWindow.refl _, rfl⟩
  next curr rest list =>
    obtain ⟨queue, same, count⟩ := tryMergeFrom_spec alloc rest 0 st curr
    rw [list]
    refine ⟨queue, same.trans ⟨rfl, rfl, rfl, rfl, rfl, rfl, rfl⟩, ?_⟩
    dsimp only
    rw [queue]
    exact count

/-! ## Insertion into the queue -/

/-- The place where `insert_segment_queue` links the new segment. -/
structure InsertedAt (newSeg : TcpSegment)
    (before after front back : List TcpSegment) : Prop where
  before_eq : before = front ++ back
  after_eq : after = front ++ newSeg :: back
  front_le : ∀ curr ∈ front, 0 ≤ seqCompare newSeg.seq curr.seq
  back_gt : ∀ curr ∈ back.head?, seqCompare newSeg.seq curr.seq < 0

theorem insertSorted_spec (newSeg : TcpSegment) (queue : List TcpSegment)
    (distinct : ∀ curr ∈ queue, curr.seq = newSeg.seq →
      curr.payloadLen ≠ newSeg.payloadLen) :
    ∃ after front back, insertSorted newSeg queue = some after ∧
      InsertedAt newSeg queue after front back := by
  induction queue with
  | nil => exact ⟨[newSeg], [], [], rfl, rfl, rfl, by simp, by simp⟩
  | cons curr rest inductionHypothesis =>
      obtain ⟨after, front, back, equation, inserted⟩ := inductionHypothesis
        fun other member => distinct other (List.mem_cons_of_mem _ member)
      have notDuplicate : ¬(seqCompare newSeg.seq curr.seq = 0 ∧
          newSeg.payloadLen = curr.payloadLen) := by
        rintro ⟨sameSeq, sameLen⟩
        exact distinct curr List.mem_cons_self
          ((seqCompare_eq_zero_iff _ _).mp sameSeq).symm sameLen.symm
      by_cases earlier : seqCompare newSeg.seq curr.seq < 0
      · refine ⟨newSeg :: curr :: rest, [], curr :: rest, ?_, rfl, rfl, ?_, ?_⟩
        · rw [insertSorted, if_neg notDuplicate, if_pos earlier]
        · intro other member
          cases member
        · intro other member
          cases member
          exact earlier
      · refine ⟨curr :: after, curr :: front, back, ?_, ?_, ?_, ?_, inserted.back_gt⟩
        · rw [insertSorted, if_neg notDuplicate, if_neg earlier, equation]
          rfl
        · rw [inserted.before_eq]
          rfl
        · rw [inserted.after_eq]
          rfl
        · intro other member
          cases member with
          | head => exact not_lt.mp earlier
          | tail _ member => exact inserted.front_le other member

/-- A segment that survives the overlap walk is never a duplicate of the new
one, so the duplicate test of `insert_segment_queue` does not fire. -/
theorem cutBy_ne_duplicate {newSeg curr kept : TcpSegment}
    (nonempty : newSeg.payloadLen ≠ 0) (cut : cutBy newSeg curr = some kept)
    (sameSeq : kept.seq = newSeg.seq) : kept.payloadLen ≠ newSeg.payloadLen := by
  intro sameLen
  rw [cutBy] at cut
  split at cut
  next => cases cut
  next notCovers =>
    split at cut
    next =>
      cases cut
      have equality : newSeg.endSeq = newSeg.seq := sameSeq
      rw [TcpSegment.endSeq_eq, ← offset_eq_zero_iff, offset_add_ofNat,
        offset_self] at equality
      have bound := newSeg.payloadLen.isLt
      have zero : newSeg.payloadLen.toNat = 0 := by omega
      exact nonempty (BitVec.eq_of_toNat_eq zero)
    next =>
      split at cut
      next ends =>
        cases cut
        have equality : curr.seq = newSeg.seq := sameSeq
        have ahead := ends.1
        rw [gt_iff_lt, seqCompare_pos_iff, equality, offset_self] at ahead
        exact (Nat.lt_irrefl 0) ahead.1
      next =>
        cases cut
        apply notCovers
        have sameEnd : curr.endSeq = newSeg.endSeq := by
          rw [TcpSegment.endSeq, TcpSegment.endSeq, sameSeq, sameLen]
        rw [Covers, ← sameSeq, ← sameEnd, seqCompare_nonpos_iff, ge_iff_le,
          seqCompare_nonneg_iff, offset_self, offset_self]
        exact ⟨Or.inl rfl, by decide⟩

/-- The effect of `insert_segment_queue` on a queue with room. -/
structure Enqueued (granted : Nat → Bool) (newSeg : TcpSegment)
    (before after : StreamBuffer) (front back : List TcpSegment) : Prop where
  window : SameWindow before after
  split : before.segList.filterMap (cutBy newSeg) = front ++ back
  front_le : ∀ curr ∈ front, 0 ≤ seqCompare newSeg.seq curr.seq
  back_gt : ∀ curr ∈ back.head?, seqCompare newSeg.seq curr.seq < 0
  merged : after.segList = front ++ newSeg :: back ∨
    after.segList = mergeQueue granted (front ++ newSeg :: back)
  unmerged : surplus before before.segList = 0 →
    (front ++ newSeg :: back).length ≤ 10 →
    after.segList = front ++ newSeg :: back
  count : surplus after after.segList = surplus before before.segList

theorem Enqueued.mergeSteps {granted : Nat → Bool} {newSeg : TcpSegment}
    {before after : StreamBuffer} {front back : List TcpSegment}
    (enqueued : Enqueued granted newSeg before after front back) :
    MergeSteps (front ++ newSeg :: back) after.segList := by
  rcases enqueued.merged with same | merged
  · rw [same]
    exact Relation.ReflTransGen.refl
  · rw [merged]
    exact mergeQueue_steps granted _

/-- What happens to the segment that the overlap walk keeps of the new one. -/
theorem insertSegmentQueue_linked (config : StreamConfig) (alloc : Allocation)
    {st cut : Reassembly} {newSeg kept : TcpSegment}
    (handled : handleQueueOverlaps st newSeg = (some kept, cut))
    (cutList : cut.sb.segList = st.sb.segList.filterMap (cutBy kept))
    (cutSame : SameWindow st.sb cut.sb)
    (cutCount : surplus cut.sb cut.sb.segList = surplus st.sb st.sb.segList)
    (nonempty : kept.payloadLen ≠ 0) (room : st.sb.segCount < config.maxSegments) :
    ∃ st' front back, insertSegmentQueue config alloc st newSeg = .ok (0, st') ∧
      Enqueued alloc.merged kept st.sb st'.sb front back := by
  obtain ⟨after, front, back, sorted, inserted⟩ :=
    insertSorted_spec kept cut.sb.segList (by
      intro other member sameSeq
      rw [cutList, List.mem_filterMap] at member
      obtain ⟨curr, _, cutEq⟩ := member
      exact cutBy_ne_duplicate nonempty cutEq sameSeq)
  let linked : Reassembly :=
    { cut with sb :=
      { cut.sb with segList := after, segCount := cut.sb.segCount + 1 } }
  have linkedCount : surplus linked.sb linked.sb.segList =
      surplus st.sb st.sb.segList := by
    rw [← cutCount]
    simp only [surplus, linked, inserted.before_eq, inserted.after_eq,
      List.length_append, List.length_cons, BitVec.ofNat_add]
    have one : (1#32) = 1 := rfl
    rw [one]
    ring
  have linkedSame : SameWindow st.sb linked.sb :=
    cutSame.trans ⟨rfl, rfl, rfl, rfl, rfl, rfl, rfl⟩
  have splitting : st.sb.segList.filterMap (cutBy kept) = front ++ back := by
    rw [← cutList, inserted.before_eq]
  have result : insertSegmentQueue config alloc st newSeg = .ok (0,
      if linked.sb.segCount > 10 then tryMergeSegments alloc linked
      else linked) := by
    have notFull : ¬st.sb.segCount ≥ config.maxSegments := BitVec.not_le.mpr room
    rw [insertSegmentQueue, if_neg notFull, handled]
    simp only [if_neg nonempty, sorted]
    rfl
  by_cases many : linked.sb.segCount > 10
  · obtain ⟨merged, mergedSame, mergedCount⟩ := tryMergeSegments_spec alloc linked
    refine ⟨tryMergeSegments alloc linked, front, back, ?_,
      linkedSame.trans mergedSame, splitting, inserted.front_le,
      inserted.back_gt, ?_, ?_, mergedCount.trans linkedCount⟩
    · rw [result, if_pos many]
    · rw [← inserted.after_eq]
      exact Or.inr merged
    · intro exactCount few
      rw [← linkedCount, surplus, sub_eq_zero] at exactCount
      have length : linked.sb.segList.length ≤ 10 := by
        rw [← inserted.after_eq] at few
        exact few
      rw [exactCount, gt_iff_lt, BitVec.lt_def, BitVec.toNat_ofNat] at many
      have wrapped := Nat.mod_le linked.sb.segList.length (2 ^ 32)
      have ten : (10 : BitVec 32).toNat = 10 := by decide
      omega
  · refine ⟨linked, front, back, ?_, linkedSame, splitting, inserted.front_le,
      inserted.back_gt, ?_, ?_, linkedCount⟩
    · rw [result, if_neg many]
    · exact Or.inl inserted.after_eq
    · intro _ _
      exact inserted.after_eq

theorem insertSegmentQueue_favorsNew (config : StreamConfig) (alloc : Allocation)
    (st : Reassembly) (newSeg : TcpSegment) (favors : st.sb.osPolicy.FavorsNew)
    (nonempty : newSeg.payloadLen ≠ 0) (room : st.sb.segCount < config.maxSegments) :
    ∃ st' front back, insertSegmentQueue config alloc st newSeg = .ok (0, st') ∧
      Enqueued alloc.merged newSeg st.sb st'.sb front back := by
  obtain ⟨cut, overlaps, cutList, cutSame, cutCount⟩ :=
    handleQueueOverlaps_favorsNew st newSeg favors
  exact insertSegmentQueue_linked config alloc overlaps cutList cutSame cutCount
    nonempty room

/-! ## The drain -/

/-- Take the first segment off the queue. -/
def StreamBuffer.unlinkHead (sb : StreamBuffer) (rest : List TcpSegment) :
    StreamBuffer :=
  { sb with segList := rest, segCount := sb.segCount - 1 }

theorem StreamBuffer.unlinkHead_sameWindow (sb : StreamBuffer)
    (rest : List TcpSegment) : SameWindow sb (sb.unlinkHead rest) :=
  ⟨rfl, rfl, rfl, rfl, rfl, rfl, rfl⟩

/-- One turn of the loop of `process_segment_queue`. -/
inductive DrainStep : StreamBuffer → StreamBuffer → Prop where
  | stale {sb : StreamBuffer} {seg : TcpSegment} {rest : List TcpSegment}
      (list : sb.segList = seg :: rest) (other : seg.seq ≠ sb.nextSeq)
      (behind : ¬(seg.seq - sb.nextSeq).toInt > 0) :
      DrainStep sb (sb.unlinkHead rest)
  | deliver {sb : StreamBuffer} {seg : TcpSegment} {rest : List TcpSegment}
      (list : sb.segList = seg :: rest) (next : seg.seq = sb.nextSeq)
      (fits : ¬sb.dataLen + seg.payloadLen.setWidth 32 > sb.maxBufferSize) :
      DrainStep sb ((sb.append seg.payload seg.payloadLen).unlinkHead rest)

/-- The drain has come to its end: the queue is empty, its first segment lies
beyond a gap, or the buffer has no room for it. -/
def Halted (sb : StreamBuffer) : Prop :=
  ∀ seg ∈ sb.segList.head?,
    (seg.seq ≠ sb.nextSeq ∧ (seg.seq - sb.nextSeq).toInt > 0) ∨
    (seg.seq = sb.nextSeq ∧
      sb.dataLen + seg.payloadLen.setWidth 32 > sb.maxBufferSize)

/-- The result of a drain, up to the gap counter. -/
def Drained (before after : StreamBuffer) : Prop :=
  ∃ last, Relation.ReflTransGen DrainStep before last ∧ Halted last ∧
    SameContent last after

/-- The invariant rule for a drain: what each turn of the loop keeps holds where
the loop halts. -/
theorem Drained.invariant {motive : StreamBuffer → Prop}
    {before after : StreamBuffer} (drained : Drained before after)
    (initial : motive before)
    (step : ∀ {sb next : StreamBuffer}, motive sb → DrainStep sb next → motive next) :
    ∃ last, motive last ∧ Halted last ∧ SameContent last after := by
  obtain ⟨last, steps, halted, same⟩ := drained
  refine ⟨last, ?_, halted, same⟩
  clear halted same
  induction steps with
  | refl => exact initial
  | tail _ turn inductionHypothesis => exact step inductionHypothesis turn

theorem Halted.not_drainStep {sb next : StreamBuffer} (halted : Halted sb) :
    ¬DrainStep sb next := by
  intro step
  cases step with
  | @stale seg rest list other behind =>
      rcases halted seg (by simp [list]) with ⟨_, ahead⟩ | ⟨same, _⟩
      · exact behind ahead
      · exact other same
  | @deliver seg rest list same fits =>
      rcases halted seg (by simp [list]) with ⟨other, _⟩ | ⟨_, full⟩
      · exact other same
      · exact fits full

/-- A drain that has nothing to do does nothing. -/
theorem Drained.of_halted {before after : StreamBuffer} (drained : Drained before after)
    (halted : Halted before) : SameContent before after := by
  obtain ⟨last, steps, _, same⟩ := drained
  rcases Relation.ReflTransGen.cases_head steps with rfl | ⟨_, step, _⟩
  · exact same
  · exact absurd step halted.not_drainStep

theorem processLoop_drained (queue : List TcpSegment) :
    ∀ st : Reassembly,
      Drained { st.sb with segList := queue } (processLoop st queue).2.sb := by
  induction queue with
  | nil =>
      intro st
      refine ⟨_, Relation.ReflTransGen.refl, ?_, SameContent.refl _⟩
      intro seg member
      cases member
  | cons seg rest inductionHypothesis =>
      intro st
      rw [processLoop]
      split
      next other =>
        split
        next ahead =>
          refine ⟨_, Relation.ReflTransGen.refl, ?_,
            ⟨rfl, rfl, rfl, rfl, rfl, rfl, rfl⟩, rfl, rfl⟩
          intro first member
          cases member
          exact Or.inl ⟨other, ahead⟩
        next behind =>
          obtain ⟨last, steps, halted, same⟩ :=
            inductionHypothesis (st.unlink seg)
          exact ⟨last, Relation.ReflTransGen.head
            (DrainStep.stale rfl other behind) steps, halted, same⟩
      next same =>
        have next : seg.seq = st.sb.nextSeq := not_not.mp same
        split
        next full =>
          refine ⟨_, Relation.ReflTransGen.refl, ?_,
            ⟨rfl, rfl, rfl, rfl, rfl, rfl, rfl⟩, rfl, rfl⟩
          intro first member
          cases member
          exact Or.inr ⟨next, full⟩
        next fits =>
          obtain ⟨last, steps, halted, same⟩ := inductionHypothesis
            (Reassembly.unlink { st with
              sb := st.sb.append seg.payload seg.payloadLen } seg)
          exact ⟨last, Relation.ReflTransGen.head
            (DrainStep.deliver rfl next fits) steps, halted, same⟩

theorem processSegmentQueue_drained (st : Reassembly) :
    Drained st.sb (processSegmentQueue st).2.sb :=
  processLoop_drained st.sb.segList st

end NetDefender.Stream
