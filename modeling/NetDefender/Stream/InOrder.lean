import NetDefender.Stream.Steps

/-!
# A stream without gaps

A buffer that has received its segments in order, and of which nothing has been
consumed: it holds all bytes so far, its queue is empty, and the next segment is
appended unless the buffer is full.
-/

namespace NetDefender.Stream

open Serial

/-- The buffer holds exactly these bytes, and nothing is queued. -/
structure Gathered (bytes : List UInt8) (sb : StreamBuffer) : Prop where
  favors : sb.osPolicy.FavorsNew
  live : sb.data ≠ none
  data : sb.getData = bytes
  length : sb.dataLen.toNat = bytes.length
  next : sb.nextSeq = sb.baseSeq + sb.dataLen
  queue : sb.segList = []
  bounded : bytes.length ≤ sb.maxBufferSize.toNat

namespace Gathered

variable {bytes : List UInt8} {sb after : StreamBuffer}

theorem nextSeq_eq (gathered : Gathered bytes sb) :
    sb.nextSeq = sb.baseSeq + BitVec.ofNat 32 bytes.length := by
  rw [gathered.next, ← gathered.length, BitVec.ofNat_toNat, BitVec.setWidth_eq]

theorem of_sameContent (gathered : Gathered bytes sb) (same : SameContent sb after) :
    Gathered bytes after where
  favors := by
    rw [same.osPolicy]
    exact gathered.favors
  live := by
    rw [same.data]
    exact gathered.live
  data := by
    rw [StreamBuffer.getData, StreamBuffer.memory, same.data, same.dataLen]
    exact gathered.data
  length := by
    rw [same.dataLen]
    exact gathered.length
  next := by
    rw [same.nextSeq, same.baseSeq, same.dataLen]
    exact gathered.next
  queue := by
    rw [same.segList]
    exact gathered.queue
  bounded := by
    rw [same.maxBufferSize]
    exact gathered.bounded

theorem halted (gathered : Gathered bytes sb) : Halted sb := by
  intro segment first
  rw [gathered.queue] at first
  cases first

section Append

variable {payload : List UInt8} {payloadLen : BitVec 16}

theorem append (gathered : Gathered bytes sb)
    (length : payloadLen.toNat = payload.length)
    (room : bytes.length + payload.length ≤ sb.maxBufferSize.toNat) :
    Gathered (bytes ++ payload) (sb.append payload payloadLen) := by
  have capacity := sb.maxBufferSize.isLt
  have gatheredLength := gathered.length
  have dataLen : (sb.append payload payloadLen).dataLen.toNat =
      (bytes ++ payload).length := by
    rw [StreamBuffer.append, List.length_append]
    bv_omega
  constructor
  · exact gathered.favors
  · exact StreamBuffer.append_live gathered.live _ _
  · obtain ⟨memory, present⟩ := Option.ne_none_iff_exists'.mp gathered.live
    have held := gathered.data
    rw [StreamBuffer.getData, StreamBuffer.memory, present, Option.getD_some] at held
    rw [StreamBuffer.getData, dataLen, StreamBuffer.memory, StreamBuffer.append]
    dsimp only
    rw [present, Option.map_some, Option.getD_some, held, length, List.take_length,
      List.take_length]
  · exact dataLen
  · rw [StreamBuffer.append]
    dsimp only
    rw [gathered.next]
    exact BitVec.add_assoc _ _ _
  · exact gathered.queue
  · rw [List.length_append]
    exact room

/-- The next segment of the stream lies past the base, and it overflows the buffer if
there is no room for it. -/
theorem nextSegment {seq : BitVec 32} (gathered : Gathered bytes sb)
    (near : sb.maxBufferSize.toNat + 2 ^ 16 ≤ 2 ^ 31) (inOrder : seq = sb.nextSeq)
    (length : payloadLen.toNat = payload.length) (nonempty : payload ≠ []) :
    ¬(Incoming.mk seq payload payloadLen).BeforeBase sb ∧
      (Incoming.mk seq payload payloadLen).fromBase sb = ⟨seq, payload, payloadLen⟩ ∧
      ((Incoming.mk seq payload payloadLen).Overflows sb ↔
        sb.maxBufferSize.toNat < bytes.length + payload.length) := by
  have gatheredLength := gathered.length
  have bounded := gathered.bounded
  have small := payloadLen.isLt
  have positive : 0 < payload.length := List.length_pos_iff.mpr nonempty
  have start : offset sb.baseSeq seq = bytes.length := by
    rw [inOrder, gathered.next, ← toNat_sub_eq_offset]
    bv_omega
  have stop : offset sb.baseSeq (seq + payloadLen.setWidth 32) =
      bytes.length + payload.length := by
    rw [inOrder, gathered.next, ← toNat_sub_eq_offset]
    bv_omega
  have atBase : ¬seqCompare seq sb.baseSeq < 0 := by
    rw [seqCompare_neg_iff, start]
    omega
  refine ⟨?_, ?_, ?_⟩
  · rintro (before | ⟨before, _⟩)
    · rw [Incoming.endSeq, seqCompare_nonpos_iff, stop] at before
      omega
    · exact atBase before
  · rw [Incoming.fromBase, if_neg atBase]
  · rw [Incoming.Overflows]
    bv_omega

/-- The next segment of the stream is refused if the buffer is full, and appended
otherwise. -/
theorem insertEffect {config : StreamConfig} {alloc : Allocation} {seq : BitVec 32}
    (gathered : Gathered bytes sb) (near : sb.maxBufferSize.toNat + 2 ^ 16 ≤ 2 ^ 31)
    (inOrder : seq = sb.nextSeq) (length : payloadLen.toNat = payload.length)
    (nonempty : payload ≠ [])
    (effect : InsertEffect config alloc sb ⟨seq, payload, payloadLen⟩ after) :
    after.maxBufferSize = sb.maxBufferSize ∧ after.baseSeq = sb.baseSeq ∧
      if sb.maxBufferSize.toNat < bytes.length + payload.length then Gathered bytes after
      else Gathered (bytes ++ payload) after := by
  obtain ⟨live, whole, overflows⟩ := gathered.nextSegment near inOrder length nonempty
  cases effect with
  | ignored reason same =>
      refine ⟨same.maxBufferSize, same.baseSeq, ?_⟩
      cases reason with
      | invalid reason =>
          rcases reason with empty | missing
          · dsimp only at empty
            have zero : (0 : BitVec 16).toNat = 0 := rfl
            rw [empty, zero] at length
            exact absurd (List.eq_nil_of_length_eq_zero length.symm) nonempty
          · exact absurd missing gathered.live
      | consumed before => exact absurd before live
      | full _ next full =>
          rw [whole] at full
          rw [if_pos (overflows.mp full)]
          exact gathered.of_sameContent same
      | known _ other empty =>
          rw [whole] at other
          exact absurd inOrder other
      | refused _ other nonempty reason =>
          rw [whole] at other
          exact absurd inOrder other
  | inOrder valid _ next fits drained =>
      rw [whole] at fits drained
      have appended := gathered.append length (not_lt.mp (overflows.not.mp fits))
      have same := drained.of_halted appended.halted
      refine ⟨same.maxBufferSize, same.baseSeq, ?_⟩
      rw [if_neg (overflows.not.mp fits)]
      exact appended.of_sameContent same
  | queued middle front back valid _ other nonempty room enqueued drained =>
      rw [whole] at other
      exact absurd inOrder other

end Append

end Gathered

end NetDefender.Stream
