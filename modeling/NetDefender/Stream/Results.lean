import NetDefender.Stream.Steps

/-!
# What an insertion returns

Either `-1`, and then the buffer is as it was, or a number of bytes.  That number is
the one the call added to the stream on every path but one: the in-order path returns
the length of its own segment and leaves out what the queue went on to deliver.  Both
facts hold under every policy and from every state of the buffer.
-/

namespace NetDefender.Stream

/-- The stream grew by `count` bytes; `data_len` and `next_seq` count in 32 bits. -/
structure Advanced (before after : StreamBuffer) (count : Nat) : Prop where
  dataLen : after.dataLen = before.dataLen + BitVec.ofNat 32 count
  nextSeq : after.nextSeq = before.nextSeq + BitVec.ofNat 32 count
  total : after.totalReassembled = before.totalReassembled + count

namespace Advanced

variable {first second third : StreamBuffer} {count later : Nat}

theorem of_sameWindow (same : SameWindow first second) : Advanced first second 0 where
  dataLen := by rw [same.dataLen, BitVec.add_zero]
  nextSeq := by rw [same.nextSeq, BitVec.add_zero]
  total := same.totalReassembled

theorem trans (left : Advanced first second count) (right : Advanced second third later) :
    Advanced first third (count + later) where
  dataLen := by rw [right.dataLen, left.dataLen, BitVec.ofNat_add, BitVec.add_assoc]
  nextSeq := by rw [right.nextSeq, left.nextSeq, BitVec.ofNat_add, BitVec.add_assoc]
  total := by rw [right.total, left.total, Nat.add_assoc]

theorem append (sb : StreamBuffer) (payload : List UInt8) (payloadLen : BitVec 16) :
    Advanced sb (sb.append payload payloadLen) payloadLen.toNat where
  dataLen := by
    rw [← setWidth_eq_ofNat]
    rfl
  nextSeq := by
    rw [← setWidth_eq_ofNat]
    rfl
  total := rfl

/-- The 64-bit total tells how far the stream has advanced. -/
theorem unique (left : Advanced first second count) (right : Advanced first second later) :
    count = later := by
  have equal := left.total.symm.trans right.total
  omega

end Advanced

/-! ## The drain -/

/-- The drain moves this segment into the buffer. -/
def TcpSegment.Ready (sb : StreamBuffer) (seg : TcpSegment) : Prop :=
  seg.seq = sb.nextSeq ∧ ¬sb.dataLen + seg.payloadLen.setWidth 32 > sb.maxBufferSize

instance (sb : StreamBuffer) (seg : TcpSegment) : Decidable (seg.Ready sb) :=
  inferInstanceAs (Decidable (_ ∧ _))

/-- The drain goes past this segment without a byte delivered: it lies behind
`next_seq`, or it is empty and due. -/
def TcpSegment.Passed (sb : StreamBuffer) (seg : TcpSegment) : Prop :=
  (seg.seq ≠ sb.nextSeq ∧ ¬(seg.seq - sb.nextSeq).toInt > 0) ∨
    (seg.Ready sb ∧ seg.payloadLen = 0)

/-- The queue continues the stream: its first segment that the drain does not go past
starts at `next_seq` and fits. -/
def Continues (sb : StreamBuffer) (queue : List TcpSegment) : Prop :=
  ∃ front seg back, queue = front ++ seg :: back ∧ (∀ passed ∈ front, passed.Passed sb) ∧
    seg.Ready sb ∧ seg.payloadLen ≠ 0

theorem not_continues_nil (sb : StreamBuffer) : ¬Continues sb [] := by
  rintro ⟨front, seg, back, split, _⟩
  have length := congrArg List.length split
  simp at length

theorem continues_cons_of_passed {sb : StreamBuffer} {seg : TcpSegment}
    {rest : List TcpSegment} (passed : seg.Passed sb) :
    Continues sb (seg :: rest) ↔ Continues sb rest := by
  constructor
  · rintro ⟨front, next, back, split, before, ready, nonempty⟩
    cases front with
    | nil =>
        cases split
        rcases passed with ⟨other, _⟩ | ⟨_, empty⟩
        · exact absurd ready.1 other
        · exact absurd empty nonempty
    | cons head front =>
        cases split
        exact ⟨front, next, back, rfl,
          fun entry member => before entry (List.mem_cons_of_mem _ member), ready, nonempty⟩
  · rintro ⟨front, next, back, rfl, before, ready, nonempty⟩
    refine ⟨seg :: front, next, back, rfl, ?_, ready, nonempty⟩
    intro entry member
    cases member with
    | head => exact passed
    | tail _ member => exact before entry member

/-- Only a segment that is due can be delivered or gone past, so one that blocks the
drain ends it. -/
theorem not_continues_cons {sb : StreamBuffer} {seg : TcpSegment} {rest : List TcpSegment}
    (notPassed : ¬seg.Passed sb) (notReady : ¬seg.Ready sb) :
    ¬Continues sb (seg :: rest) := by
  rintro ⟨front, next, back, split, before, ready, _⟩
  cases front with
  | nil =>
      cases split
      exact notReady ready
  | cons head front =>
      cases split
      exact notPassed (before seg List.mem_cons_self)

theorem continues_congr {left right : StreamBuffer} (dataLen : left.dataLen = right.dataLen)
    (nextSeq : left.nextSeq = right.nextSeq)
    (capacity : left.maxBufferSize = right.maxBufferSize) (queue : List TcpSegment) :
    Continues left queue ↔ Continues right queue := by
  simp only [Continues, TcpSegment.Passed, TcpSegment.Ready, dataLen, nextSeq, capacity]

/-- The drain reports the bytes it delivered, and it delivers some exactly if the queue
continues the stream. -/
theorem processLoop_advanced (queue : List TcpSegment) :
    ∀ st : Reassembly, ∃ count : Nat, (processLoop st queue).1 = count ∧
      Advanced st.sb (processLoop st queue).2.sb count ∧
      (count ≠ 0 ↔ Continues st.sb queue) := by
  induction queue with
  | nil =>
      intro st
      refine ⟨0, rfl, .of_sameWindow ⟨rfl, rfl, rfl, rfl, rfl, rfl, rfl⟩, ?_⟩
      exact iff_of_false (fun nonzero => nonzero rfl) (not_continues_nil st.sb)
  | cons seg rest inductionHypothesis =>
      intro st
      rw [processLoop]
      split
      next other =>
        have notReady : ¬seg.Ready st.sb := fun ready => other ready.1
        split
        next ahead =>
          refine ⟨0, rfl, .of_sameWindow ⟨rfl, rfl, rfl, rfl, rfl, rfl, rfl⟩, ?_⟩
          apply iff_of_false (fun nonzero => nonzero rfl)
          apply not_continues_cons _ notReady
          rintro (⟨_, behind⟩ | ⟨ready, _⟩)
          · exact behind ahead
          · exact notReady ready
        next behind =>
          obtain ⟨count, result, advanced, iff⟩ := inductionHypothesis (st.unlink seg)
          refine ⟨count, result,
            ⟨advanced.dataLen, advanced.nextSeq, advanced.total⟩, ?_⟩
          rw [continues_cons_of_passed (Or.inl ⟨other, behind⟩), iff]
          exact continues_congr rfl rfl rfl rest
      next same =>
        have next : seg.seq = st.sb.nextSeq := not_not.mp same
        split
        next full =>
          refine ⟨0, rfl, .of_sameWindow ⟨rfl, rfl, rfl, rfl, rfl, rfl, rfl⟩, ?_⟩
          apply iff_of_false (fun nonzero => nonzero rfl)
          apply not_continues_cons
          · rintro (⟨other, _⟩ | ⟨ready, _⟩)
            · exact other next
            · exact ready.2 full
          · exact fun ready => ready.2 full
        next fits =>
          obtain ⟨count, result, advanced, iff⟩ := inductionHypothesis
            (Reassembly.unlink { st with
              sb := st.sb.append seg.payload seg.payloadLen } seg)
          have delivered : Advanced st.sb _ (seg.payloadLen.toNat + count) :=
            (Advanced.append st.sb seg.payload seg.payloadLen).trans
              ⟨advanced.dataLen, advanced.nextSeq, advanced.total⟩
          refine ⟨seg.payloadLen.toNat + count, ?_, delivered, ?_⟩
          · rw [Nat.cast_add, ← result]
          by_cases empty : seg.payloadLen = 0
          · rw [continues_cons_of_passed (Or.inr ⟨⟨next, fits⟩, empty⟩)]
            have unchanged : ∀ counter : BitVec 32,
                counter + seg.payloadLen.setWidth 32 = counter := by
              intro counter
              rw [empty]
              exact BitVec.add_zero counter
            have zero : seg.payloadLen.toNat = 0 := by
              rw [empty]
              rfl
            rw [zero, Nat.zero_add, iff]
            have dataLen : (st.sb.append seg.payload seg.payloadLen).dataLen =
                st.sb.dataLen := unchanged st.sb.dataLen
            have nextSeq : (st.sb.append seg.payload seg.payloadLen).nextSeq =
                st.sb.nextSeq := unchanged st.sb.nextSeq
            exact continues_congr dataLen nextSeq rfl rest
          · have nonzero : seg.payloadLen.toNat ≠ 0 :=
              fun zero => empty (BitVec.eq_of_toNat_eq zero)
            refine iff_of_true (by omega)
              ⟨[], seg, rest, rfl, ?_, ⟨next, fits⟩, empty⟩
            intro entry member
            cases member

/-! ## The out-of-order path -/

theorem overlapStart_sameWindow (newEnd currEnd : BitVec 32) (newSeg curr : TcpSegment)
    (st : Reassembly) :
    SameWindow st.sb (overlapStart newEnd currEnd newSeg curr st).2.2.sb := by
  rw [overlapStart]
  split
  next =>
    cases st.sb.osPolicy <;> exact st.countOverlap_sameWindow
  next => exact SameWindow.refl _

theorem overlapEnd_sameWindow (newEnd currEnd : BitVec 32) (newSeg curr : TcpSegment)
    (st : Reassembly) :
    SameWindow st.sb (overlapEnd newEnd currEnd newSeg curr st).2.2.sb := by
  rw [overlapEnd]
  split
  next =>
    cases st.sb.osPolicy <;> exact st.countOverlap_sameWindow
  next => exact SameWindow.refl _

/-- No policy lets the overlap walk touch the window. -/
theorem overlapLoop_sameWindow (newEnd : BitVec 32) (queue : List TcpSegment) :
    ∀ (newSeg : TcpSegment) (st : Reassembly),
      SameWindow st.sb (overlapLoop newEnd newSeg st queue).2.2.sb := by
  induction queue with
  | nil =>
      intro newSeg st
      exact SameWindow.refl _
  | cons curr rest inductionHypothesis =>
      intro newSeg st
      rw [overlapLoop]
      dsimp only
      split
      next =>
        have removed : SameWindow st.sb (st.unlink curr).countOverlap.sb :=
          (st.unlink_sameWindow curr).trans (Reassembly.countOverlap_sameWindow _)
        cases st.sb.osPolicy with
        | linux | windows | last => exact removed.trans (inductionHypothesis newSeg _)
        | bsd | first => exact SameWindow.refl _
      next =>
        exact ((overlapStart_sameWindow newEnd curr.endSeq newSeg curr st).trans
          (overlapEnd_sameWindow newEnd curr.endSeq _ _ _)).trans (inductionHypothesis _ _)

theorem handleQueueOverlaps_sameWindow (st : Reassembly) (newSeg : TcpSegment) :
    SameWindow st.sb (handleQueueOverlaps st newSeg).2.sb :=
  (overlapLoop_sameWindow newSeg.endSeq st.sb.segList newSeg st).trans
    ⟨rfl, rfl, rfl, rfl, rfl, rfl, rfl⟩

/-- The queue is full and nothing has changed, or the window is as it was. -/
theorem insertSegmentQueue_result {config : StreamConfig} {alloc : Allocation}
    {st after : Reassembly} {newSeg : TcpSegment} {ret : Int}
    (call : insertSegmentQueue config alloc st newSeg = .ok (ret, after)) :
    (ret = -1 ∧ SameContent st.sb after.sb) ∨ (ret = 0 ∧ SameWindow st.sb after.sb) := by
  have handled := handleQueueOverlaps_sameWindow st newSeg
  rw [insertSegmentQueue] at call
  split at call
  next =>
    cases call
    exact Or.inl ⟨rfl, SameContent.refl _⟩
  next =>
    generalize handleQueueOverlaps st newSeg = overlaps at call handled
    obtain ⟨kept, trimmed⟩ := overlaps
    cases kept with
    | none => cases call
    | some newSeg =>
        dsimp only at call handled
        right
        split at call
        next =>
          cases call
          exact ⟨rfl, handled⟩
        next =>
          split at call
          next =>
            cases call
            exact ⟨rfl, handled⟩
          next queue _ =>
            let linked : Reassembly :=
              { trimmed with sb :=
                { trimmed.sb with
                  segList := queue, segCount := trimmed.sb.segCount + 1 } }
            have sameWindow : SameWindow st.sb linked.sb :=
              handled.trans ⟨rfl, rfl, rfl, rfl, rfl, rfl, rfl⟩
            cases call
            refine ⟨rfl, ?_⟩
            split
            next => exact sameWindow.trans (tryMergeSegments_spec alloc linked).2.1
            next => exact sameWindow

theorem insertOutOfOrder_result {config : StreamConfig} {alloc : Allocation}
    {st after : Reassembly} {segment : Incoming} {ret : Int}
    (call : insertOutOfOrder config alloc st segment = .ok (ret, after)) :
    (ret = -1 ∧ SameContent st.sb after.sb) ∨
      ∃ count : Nat, ret = count ∧ Advanced st.sb after.sb count := by
  have same := st.countOutOfOrder_sameContent segment
  rw [insertOutOfOrder_eq] at call
  split at call
  next =>
    cases call
    exact Or.inr ⟨0, rfl, .of_sameWindow same.toSameWindow⟩
  next =>
    split at call
    next =>
      split at call
      next => cases call
      next inserted queued equation =>
        rcases insertSegmentQueue_result equation with ⟨rfl, content⟩ | ⟨rfl, window⟩
        · rw [if_pos (by decide)] at call
          cases call
          exact Or.inl ⟨rfl, same.trans content⟩
        · rw [if_neg (by decide)] at call
          obtain ⟨count, result, advanced, _⟩ :=
            processLoop_advanced queued.sb.segList queued
          have drained : processSegmentQueue queued = (ret, after) := by
            injection call
          rw [processSegmentQueue] at drained
          rw [drained] at result advanced
          have moved : Advanced st.sb after.sb (0 + count) :=
            (Advanced.of_sameWindow (same.toSameWindow.trans window)).trans advanced
          rw [Nat.zero_add] at moved
          exact Or.inr ⟨count, result, moved⟩
    next =>
      cases call
      exact Or.inl ⟨rfl, same⟩

/-! ## The call -/

theorem insertInOrder_result (st : Reassembly) (segment : Incoming) :
    (segment.Overflows st.sb ∧ (insertInOrder st segment).1 = -1 ∧
        SameContent st.sb (insertInOrder st segment).2.sb) ∨
      (¬segment.Overflows st.sb ∧
        (insertInOrder st segment).1 = segment.payloadLen.toNat ∧
        ∃ count, Advanced st.sb (insertInOrder st segment).2.sb
            (segment.payloadLen.toNat + count) ∧
          (count ≠ 0 ↔ Continues (st.sb.append segment.payload segment.payloadLen)
            st.sb.segList)) := by
  rw [insertInOrder]
  dsimp only
  by_cases full : segment.Overflows st.sb
  · left
    have test := full
    rw [Incoming.Overflows] at test
    rw [if_pos test]
    exact ⟨full, rfl, SameContent.refl _⟩
  · right
    have test := full
    rw [Incoming.Overflows] at test
    rw [if_neg test]
    obtain ⟨count, _, advanced, iff⟩ := processLoop_advanced st.sb.segList
      (Reassembly.mk (st.sb.append segment.payload segment.payloadLen) _)
    exact ⟨full, rfl, count,
      (Advanced.append st.sb segment.payload segment.payloadLen).trans advanced, iff⟩

/-- The segment is appended in order, and the queue then continues the stream. -/
structure Incoming.Releases (sb : StreamBuffer) (segment : Incoming) : Prop where
  valid : ¬(segment.payloadLen = 0 ∨ sb.data = none)
  live : ¬segment.BeforeBase sb
  next : (segment.fromBase sb).seq = sb.nextSeq
  fits : ¬(segment.fromBase sb).Overflows sb
  continues : Continues (sb.append (segment.fromBase sb).payload
    (segment.fromBase sb).payloadLen) sb.segList

/-- The ways in which an insertion comes back. -/
inductive InsertResult (sb : StreamBuffer) (segment : Incoming) (ret : Int)
    (after : StreamBuffer) : Prop where
  | failed (result : ret = -1) (same : SameContent sb after)
      (apart : ¬segment.Releases sb)
  | counted (count : Nat) (result : ret = count) (advanced : Advanced sb after count)
      (apart : ¬segment.Releases sb)
  | undercounted (count released : Nat) (result : ret = count)
      (advanced : Advanced sb after (count + released)) (some : released ≠ 0)
      (releases : segment.Releases sb)

theorem streamBufferInsertSegment_result {config : StreamConfig} {alloc : Allocation}
    {st after : Reassembly} {segment : Incoming} {ret : Int}
    (call : streamBufferInsertSegment config alloc st segment.seq (some segment.payload)
      segment.payloadLen = .ok (ret, after)) :
    InsertResult st.sb segment ret after.sb := by
  rw [streamBufferInsertSegment_eq] at call
  by_cases invalid : segment.payloadLen = 0 ∨ st.sb.data = none
  · rw [if_pos invalid] at call
    cases call
    exact .failed rfl (SameContent.refl _) fun releases => releases.valid invalid
  rw [if_neg invalid] at call
  by_cases before : segment.BeforeBase st.sb
  · rw [if_pos before] at call
    cases call
    exact .counted 0 rfl (.of_sameWindow (SameWindow.refl _))
      fun releases => releases.live before
  rw [if_neg before] at call
  by_cases next : (segment.fromBase st.sb).seq = st.sb.nextSeq
  · rw [if_pos next] at call
    injection call with call
    have result := insertInOrder_result st.countInserted (segment.fromBase st.sb)
    rw [call] at result
    rcases result with ⟨full, failed, same⟩ | ⟨fits, length, count, advanced, iff⟩
    · exact .failed failed same fun releases => releases.fits full
    · by_cases none : count = 0
      · subst none
        refine .counted _ length advanced fun releases => ?_
        exact iff.mpr releases.continues rfl
      · exact .undercounted _ count length advanced none
          ⟨invalid, before, next, fits, iff.mp none⟩
  · rw [if_neg next] at call
    have apart : ¬segment.Releases st.sb := fun releases => next releases.next
    rcases insertOutOfOrder_result call with ⟨failed, same⟩ | ⟨count, result, advanced⟩
    · exact .failed failed same apart
    · exact .counted count result advanced apart

/-- A call that reports an error has changed neither the stream nor the queue. -/
theorem failed_insert_keeps_content (config : StreamConfig) (alloc : Allocation)
    (st after : Reassembly) (seq : BitVec 32) (payload : Option (List UInt8))
    (payloadLen : BitVec 16)
    (call : streamBufferInsertSegment config alloc st seq payload payloadLen =
      .ok (-1, after)) : SameContent st.sb after.sb := by
  cases payload with
  | none =>
      rw [streamBufferInsertSegment] at call
      cases call
      exact SameContent.refl _
  | some payload =>
      have result : InsertResult st.sb ⟨seq, payload, payloadLen⟩ (-1) after.sb :=
        streamBufferInsertSegment_result call
      cases result with
      | failed _ same _ => exact same
      | counted count equal _ _ => omega
      | undercounted count released equal _ _ _ => omega

/-- The segment is trimmed to `base_seq` and then to `next_seq`, its node is allocated,
and only then the queue turns out to be full. -/
theorem full_queue_keeps_content :
    let sb : StreamBuffer :=
      ⟨some [1, 2], 64, 2, 10, 12, [⟨20, 1, [9]⟩], 1, .linux, 64, 2, 0, 0⟩
    ∃ after, streamBufferInsertSegment ⟨64, 1, .linux⟩ .ok ⟨sb, {}⟩ 8
        (some (List.replicate 10 7)) 10 = .ok (-1, after) ∧
      SameContent sb after.sb := by
  dsimp only
  refine ⟨_, rfl, ?_⟩
  apply failed_insert_keeps_content ⟨64, 1, .linux⟩ .ok
    ⟨⟨some [1, 2], 64, 2, 10, 12, [⟨20, 1, [9]⟩], 1, .linux, 64, 2, 0, 0⟩, {}⟩ _ 8
    (some (List.replicate 10 7)) 10
  rfl

/-- The result of a successful call is the growth of the stream exactly for the segments
that do not release queued bytes by being appended in order. -/
theorem insert_result_counts_iff (config : StreamConfig) (alloc : Allocation)
    (st : Reassembly) (segment : Incoming) :
    (∀ ret after, streamBufferInsertSegment config alloc st segment.seq
        (some segment.payload) segment.payloadLen = .ok (ret, after) → 0 ≤ ret →
        Advanced st.sb after.sb ret.toNat) ↔
      ¬segment.Releases st.sb := by
  constructor
  · intro law releases
    have call := streamBufferInsertSegment_eq config alloc st segment
    rw [if_neg releases.valid, if_neg releases.live, if_pos releases.next] at call
    generalize insertInOrder _ _ = outcome at call
    obtain ⟨ret, after⟩ := outcome
    have result := streamBufferInsertSegment_result call
    cases result with
    | failed _ _ apart => exact apart releases
    | counted _ _ _ apart => exact apart releases
    | undercounted count released equal advanced some _ =>
        have claimed := law ret after call (by omega)
        have same := claimed.unique advanced
        omega
  · intro apart ret after call nonneg
    have result := streamBufferInsertSegment_result call
    cases result with
    | failed equal _ _ => omega
    | counted count equal advanced _ =>
        rw [equal, Int.toNat_natCast]
        exact advanced
    | undercounted count released equal advanced some releases =>
        exact absurd releases apart

/-- Bytes 5 to 7 wait in the queue; the segment with bytes 0 to 4 releases them, and the
call returns 5 although the stream has grown by 8 bytes. -/
theorem insert_result_misses_released :
    let start := (streamBufferInit .default {} 100 .linux true).2
    ∃ st after, runOps .default start [.insert 105 (some [5, 6, 7]) 3 .ok] = .ok st ∧
      streamBufferInsertSegment .default .ok st 100 (some [0, 1, 2, 3, 4]) 5 =
        .ok (5, after) ∧
      after.sb.dataLen = st.sb.dataLen + 8 ∧ after.sb.nextSeq = st.sb.nextSeq + 8 ∧
      ¬Advanced st.sb after.sb 5 := by
  refine ⟨_, _, rfl, rfl, by decide, by decide, ?_⟩
  intro advanced
  exact absurd advanced.dataLen (by decide)

end NetDefender.Stream
