import NetDefender.Stream.Steps

/-!
# The counters agree

`next_seq`, `data_len`, `seg_count` and `total_reassembled` are updated in seven
places.  Under the policies that favor new data each of them keeps the counters
in step with the window and the queue, whatever is inserted and consumed, as long
as `max_buffer_size` leaves room for one more segment below `2 ^ 32`.
-/

namespace NetDefender.Stream

/-! ## What consume removes -/

/-- The number of bytes a call removes from the front of the buffer. -/
def Op.removed (sb : StreamBuffer) : Op → Nat
  | .insert .. => 0
  | .consume consumeLen => min consumeLen.toNat sb.dataLen.toNat

/-- The number of bytes that all calls of a run remove. -/
def totalRemoved (config : StreamConfig) : Reassembly → List Op → Nat
  | _, [] => 0
  | st, op :: ops =>
      op.removed st.sb +
        match op.run config st with
        | .ok next => totalRemoved config next ops
        | .error _ => 0

theorem totalRemoved_cons {config : StreamConfig} {st next : Reassembly} {op : Op}
    (step : op.run config st = .ok next) (ops : List Op) :
    totalRemoved config st (op :: ops) =
      op.removed st.sb + totalRemoved config next ops := by
  rw [totalRemoved, step]

/-! ## The length of the queue -/

theorem MergeSteps.length_le {before after : List TcpSegment}
    (steps : MergeSteps before after) : after.length ≤ before.length := by
  induction steps with
  | refl => exact le_rfl
  | tail _ step inductionHypothesis =>
      apply le_trans _ inductionHypothesis
      cases step <;> simp

theorem Enqueued.length_le {granted : Nat → Bool} {newSeg : TcpSegment}
    {before after : StreamBuffer} {front back : List TcpSegment}
    (enqueued : Enqueued granted newSeg before after front back) :
    after.segList.length ≤ before.segList.length + 1 := by
  have cut := List.length_filterMap_le (cutBy newSeg) before.segList
  have merged := enqueued.mergeSteps.length_le
  rw [enqueued.split] at cut
  simp only [List.length_append, List.length_cons] at cut merged
  omega

/-! ## The invariant -/

/-- The counters of a buffer from which `removed` bytes have been consumed. -/
structure Counted (config : StreamConfig) (removed : Nat) (sb : StreamBuffer) :
    Prop where
  favors : sb.osPolicy.FavorsNew
  live : sb.data ≠ none
  capacity : sb.maxBufferSize = config.maxBufferSize
  next : sb.nextSeq = sb.baseSeq + sb.dataLen
  window : sb.dataLen ≤ sb.maxBufferSize
  count : sb.segCount.toNat = sb.segList.length
  bounded : sb.segCount ≤ config.maxSegments
  total : sb.totalReassembled = sb.dataLen.toNat + removed

namespace Counted

variable {config : StreamConfig} {removed : Nat} {sb after : StreamBuffer}

theorem of_sameWindow (counted : Counted config removed sb)
    (same : SameWindow sb after)
    (count : after.segCount.toNat = after.segList.length)
    (bounded : after.segCount ≤ config.maxSegments) :
    Counted config removed after where
  favors := by
    rw [same.osPolicy]
    exact counted.favors
  live := by
    rw [same.data]
    exact counted.live
  capacity := by
    rw [same.maxBufferSize]
    exact counted.capacity
  next := by
    rw [same.nextSeq, same.baseSeq, same.dataLen]
    exact counted.next
  window := by
    rw [same.dataLen, same.maxBufferSize]
    exact counted.window
  count := count
  bounded := bounded
  total := by
    rw [same.totalReassembled, same.dataLen]
    exact counted.total

theorem of_sameContent (counted : Counted config removed sb)
    (same : SameContent sb after) : Counted config removed after := by
  apply counted.of_sameWindow same.toSameWindow
  · rw [same.segCount, same.segList]
    exact counted.count
  · rw [same.segCount]
    exact counted.bounded

/-- Below the bound on `max_buffer_size` the room test does not wrap. -/
theorem toNat_dataLen_add (counted : Counted config removed sb)
    (capacity : config.maxBufferSize.toNat ≤ 2 ^ 32 - 65536)
    (payloadLen : BitVec 16) :
    (sb.dataLen + payloadLen.setWidth 32).toNat =
      sb.dataLen.toNat + payloadLen.toNat := by
  have window := BitVec.le_def.mp counted.window
  have lengthBound := payloadLen.isLt
  rw [counted.capacity] at window
  rw [BitVec.toNat_add, BitVec.toNat_setWidth]
  omega

theorem append (counted : Counted config removed sb)
    (capacity : config.maxBufferSize.toNat ≤ 2 ^ 32 - 65536)
    {payload : List UInt8} {payloadLen : BitVec 16}
    (fits : ¬sb.dataLen + payloadLen.setWidth 32 > sb.maxBufferSize) :
    Counted config removed (sb.append payload payloadLen) where
  favors := counted.favors
  live := StreamBuffer.append_live counted.live payload payloadLen
  capacity := counted.capacity
  next := StreamBuffer.append_next counted.next payload payloadLen
  window := BitVec.not_lt.mp fits
  count := counted.count
  bounded := counted.bounded
  total := by
    rw [StreamBuffer.append]
    dsimp only
    rw [counted.toNat_dataLen_add capacity, counted.total]
    omega

theorem unlinkHead (counted : Counted config removed sb) {seg : TcpSegment}
    {rest : List TcpSegment} (list : sb.segList = seg :: rest) :
    Counted config removed (sb.unlinkHead rest) := by
  have count := counted.count
  have bounded := BitVec.le_def.mp counted.bounded
  rw [list, List.length_cons] at count
  have fewer : (sb.segCount - 1).toNat = rest.length := by
    have one : (1 : BitVec 32).toNat = 1 := rfl
    rw [BitVec.toNat_sub_of_le (BitVec.le_def.mpr (by omega)), one]
    omega
  apply counted.of_sameWindow (sb.unlinkHead_sameWindow rest) fewer
  rw [BitVec.le_def, StreamBuffer.unlinkHead, fewer]
  omega

theorem drainStep (counted : Counted config removed sb)
    (capacity : config.maxBufferSize.toNat ≤ 2 ^ 32 - 65536)
    (step : DrainStep sb after) : Counted config removed after := by
  cases step with
  | stale list other behind => exact counted.unlinkHead list
  | deliver list next fits => exact (counted.append capacity fits).unlinkHead list

theorem drain (counted : Counted config removed sb)
    (capacity : config.maxBufferSize.toNat ≤ 2 ^ 32 - 65536)
    (drained : Drained sb after) : Counted config removed after := by
  obtain ⟨last, lastCounted, _, same⟩ := drained.invariant counted
    fun before step => before.drainStep capacity step
  exact lastCounted.of_sameContent same

theorem enqueue (counted : Counted config removed sb)
    (room : sb.segCount < config.maxSegments) {granted : Nat → Bool}
    {newSeg : TcpSegment} {front back : List TcpSegment}
    (enqueued : Enqueued granted newSeg sb after front back) :
    Counted config removed after := by
  have longer := enqueued.length_le
  have limit := config.maxSegments.isLt
  have exactCount := enqueued.count
  rw [BitVec.lt_def, counted.count] at room
  have before : sb.segCount = BitVec.ofNat 32 sb.segList.length := by
    rw [← counted.count, BitVec.ofNat_toNat, BitVec.setWidth_eq]
  rw [surplus, surplus, before, sub_self, sub_eq_zero] at exactCount
  have count : after.segCount.toNat = after.segList.length := by
    rw [exactCount, BitVec.toNat_ofNat, Nat.mod_eq_of_lt (by omega)]
  apply counted.of_sameWindow enqueued.window count
  rw [BitVec.le_def, count]
  omega

theorem slide (counted : Counted config removed sb) {count : BitVec 32}
    (inWindow : count ≤ sb.dataLen) :
    Counted config (removed + count.toNat) (sb.slide count) where
  favors := counted.favors
  live := StreamBuffer.slide_live counted.live count
  capacity := counted.capacity
  next := StreamBuffer.slide_next counted.next count
  window := by
    have window := BitVec.le_def.mp counted.window
    rw [BitVec.le_def, StreamBuffer.slide]
    dsimp only
    rw [BitVec.toNat_sub_of_le inWindow]
    omega
  count := counted.count
  bounded := counted.bounded
  total := by
    have order := BitVec.le_def.mp inWindow
    rw [StreamBuffer.slide]
    dsimp only
    rw [BitVec.toNat_sub_of_le inWindow, counted.total]
    omega

/-! ## Calls and runs -/

theorem insertEffect (counted : Counted config removed sb)
    (capacity : config.maxBufferSize.toNat ≤ 2 ^ 32 - 65536) {alloc : Allocation}
    {segment : Incoming} (effect : InsertEffect config alloc sb segment after) :
    Counted config removed after := by
  cases effect with
  | ignored reason same => exact counted.of_sameContent same
  | inOrder valid live next fits drained =>
      exact (counted.append capacity fits).drain capacity drained
  | queued middle front back valid live other nonempty room enqueued drained =>
      exact (counted.enqueue room enqueued).drain capacity drained

theorem consume {st : Reassembly} (counted : Counted config removed st.sb)
    (capacity : config.maxBufferSize.toNat ≤ 2 ^ 32 - 65536)
    (consumeLen : BitVec 32) :
    Counted config (removed + min consumeLen.toNat st.sb.dataLen.toNat)
      (streamBufferConsume st consumeLen).2.sb := by
  rcases streamBufferConsume_effect st consumeLen with ⟨invalid, same⟩ | drained
  · rcases invalid with zero | missing
    · have nothing : min consumeLen.toNat st.sb.dataLen.toNat = 0 := by
        rw [zero]
        exact Nat.zero_min _
      rw [nothing]
      exact counted.of_sameContent same
    · exact absurd missing counted.live
  · have slid := counted.slide (st.sb.clampConsume_le_dataLen consumeLen)
    rw [st.sb.toNat_clampConsume] at slid
    exact slid.drain capacity drained

theorem run {st : Reassembly} (counted : Counted config removed st.sb)
    (capacity : config.maxBufferSize.toNat ≤ 2 ^ 32 - 65536) (op : Op) :
    ∃ next, op.run config st = .ok next ∧
      Counted config (removed + op.removed st.sb) next.sb := by
  cases op with
  | insert seq payload payloadLen alloc =>
      cases payload with
      | none => exact ⟨st, rfl, counted⟩
      | some payload =>
          obtain ⟨ret, next, equation, effect⟩ :=
            streamBufferInsertSegment_effect config alloc st
              ⟨seq, payload, payloadLen⟩ counted.favors
          refine ⟨next, ?_, counted.insertEffect capacity effect⟩
          rw [Op.run, equation]
          rfl
  | consume consumeLen => exact ⟨_, rfl, counted.consume capacity consumeLen⟩

theorem runOps (capacity : config.maxBufferSize.toNat ≤ 2 ^ 32 - 65536)
    (ops : List Op) : ∀ {st : Reassembly} {removed : Nat},
      Counted config removed st.sb →
      ∃ final, runOps config st ops = .ok final ∧
        Counted config (removed + totalRemoved config st ops) final.sb := by
  induction ops with
  | nil =>
      intro st removed counted
      exact ⟨st, rfl, counted⟩
  | cons op ops inductionHypothesis =>
      intro st removed counted
      obtain ⟨next, step, nextCounted⟩ := counted.run capacity op
      obtain ⟨final, rest, finalCounted⟩ := inductionHypothesis nextCounted
      refine ⟨final, ?_, ?_⟩
      · rw [NetDefender.Stream.runOps, List.foldlM_cons, step]
        exact rest
      · rw [totalRemoved_cons step, ← Nat.add_assoc]
        exact finalCounted

end Counted

theorem streamBufferInit_counted (config : StreamConfig) (stats : ReassemblyStats)
    (initialSeq : BitVec 32) (policy : OsPolicy) (favors : policy.FavorsNew) :
    Counted config 0
      (streamBufferInit config stats initialSeq policy true).2.sb where
  favors := favors
  live := by
    intro missing
    cases missing
  capacity := rfl
  next := (add_zero initialSeq).symm
  window := BitVec.le_def.mpr (Nat.zero_le _)
  count := rfl
  bounded := BitVec.le_def.mpr (Nat.zero_le _)
  total := rfl

/-- After any calls the counters agree with the window and the queue. -/
theorem counters_agree (config : StreamConfig) (stats : ReassemblyStats)
    (initialSeq : BitVec 32) (policy : OsPolicy) (favors : policy.FavorsNew)
    (capacity : config.maxBufferSize.toNat ≤ 2 ^ 32 - 65536) (ops : List Op) :
    let start := (streamBufferInit config stats initialSeq policy true).2
    ∃ final, runOps config start ops = .ok final ∧
      final.sb.nextSeq = final.sb.baseSeq + final.sb.dataLen ∧
      final.sb.maxBufferSize = config.maxBufferSize ∧
      final.sb.dataLen ≤ final.sb.maxBufferSize ∧
      final.sb.segCount.toNat = final.sb.segList.length ∧
      final.sb.segCount ≤ config.maxSegments ∧
      final.sb.totalReassembled =
        final.sb.dataLen.toNat + totalRemoved config start ops := by
  obtain ⟨final, run, counted⟩ := Counted.runOps capacity ops
    (streamBufferInit_counted config stats initialSeq policy favors)
  rw [Nat.zero_add] at counted
  exact ⟨final, run, counted.next, counted.capacity, counted.window, counted.count,
    counted.bounded, counted.total⟩

/-- An out-of-order segment, the one that fills the gap, and a consume of more
than there is. -/
theorem counters_agree_reordered :
    let ops : List Op :=
      [.insert 12 (some [3, 4]) 2 .ok, .insert 10 (some [1, 2]) 2 .ok, .consume 3,
        .consume 9]
    let start := (streamBufferInit .default {} 10 .linux true).2
    ∃ final, runOps .default start ops = .ok final ∧
      final.sb.nextSeq = final.sb.baseSeq + final.sb.dataLen ∧
      final.sb.maxBufferSize = StreamConfig.default.maxBufferSize ∧
      final.sb.dataLen ≤ final.sb.maxBufferSize ∧
      final.sb.segCount.toNat = final.sb.segList.length ∧
      final.sb.segCount ≤ StreamConfig.default.maxSegments ∧
      final.sb.totalReassembled =
        final.sb.dataLen.toNat + totalRemoved .default start ops :=
  counters_agree .default {} 10 .linux (by decide) (by decide) _

end NetDefender.Stream
