import NetDefender.Stream.Policy
import NetDefender.Stream.Visible

/-!
# Old data is favored

Conflicting segments under the policies that favor old data.  The byte delivered at a
position should be the one of the earliest segment that covers it, and everything up to the
first position that no segment covers should be delivered.  The overlap walk frees a new
segment that covers a queued one, and its caller goes on to read it; the in-order path does
not look at the queue at all.  In a run whose insertions are not contested in such a way the
law holds.
-/

namespace NetDefender.Stream

open Serial Span

/-! ## The law -/

/-- The byte of the earliest segment that covers a position. -/
def earliest (initialSeq : BitVec 32) (inserted : List Incoming) (position : Nat) :
    Option UInt8 :=
  inserted.findSome? fun segment => segment.carried initialSeq position

/-- The first queued segment is not one that waits for room in the buffer. -/
def StreamBuffer.Unblocked (sb : StreamBuffer) : Prop :=
  ∀ segment ∈ sb.segList.head?, segment.seq ≠ sb.nextSeq

instance (sb : StreamBuffer) : Decidable sb.Unblocked :=
  inferInstanceAs (Decidable (∀ _ ∈ _, _))

/-- No insertion of a run, and no drain in it, fails for lack of room. -/
def NoFailure (config : StreamConfig) : Reassembly → List Incoming → Prop
  | _, [] => True
  | st, segment :: segments =>
      segment.HasRoom config st.sb ∧
        ∀ next, segment.insertion.run config st = .ok next →
          next.sb.Unblocked ∧ NoFailure config next segments

/-- The condition on one insertion: a segment that continues the window stops before every
queued one, one that is queued is undisputed, and if something of it is kept and the merge
pass is run, no run of covered positions outgrows the length of a segment. -/
structure Incoming.Uncontested (sb : StreamBuffer) (segment : Incoming) : Prop where
  appended : ¬segment.BeforeBase sb → (segment.fromBase sb).seq = sb.nextSeq →
    ∀ span ∈ sb.spans, ((segment.fromBase sb).toSegment.span sb.baseSeq).hi ≤ span.lo
  queued : ¬segment.BeforeBase sb → (segment.fromBase sb).seq ≠ sb.nextSeq →
    ((segment.fromBase sb).pastWindow sb).payloadLen ≠ 0 →
    Undisputed (((segment.fromBase sb).pastWindow sb).toSegment.span sb.baseSeq) sb.spans
  merges : ¬segment.BeforeBase sb → (segment.fromBase sb).seq ≠ sb.nextSeq →
    ((segment.fromBase sb).pastWindow sb).payloadLen ≠ 0 →
    (∀ old ∈ sb.spans,
      old.lo < (((segment.fromBase sb).pastWindow sb).toSegment.span sb.baseSeq).lo →
      old.hi ≠ (((segment.fromBase sb).pastWindow sb).toSegment.span sb.baseSeq).hi) →
    sb.segList.length < 10 ∨
      ShortRuns (((segment.fromBase sb).pastWindow sb).toSegment.span sb.baseSeq :: sb.spans)

theorem NoFailure.cons {config : StreamConfig} {st next : Reassembly} {segment : Incoming}
    {segments : List Incoming} (step : segment.insertion.run config st = .ok next)
    (room : segment.HasRoom config st.sb) (unblocked : next.sb.Unblocked)
    (rest : NoFailure config next segments) : NoFailure config st (segment :: segments) := by
  refine ⟨room, ?_⟩
  intro other equation
  rw [step] at equation
  cases equation
  exact ⟨unblocked, rest⟩

/-! ## The byte map of the earliest segments -/

section Earliest

variable {initialSeq seq : BitVec 32} {past : List Incoming} {segment : Incoming}
variable {position : Nat}

theorem earliest_record : earliest initialSeq (past ++ [segment]) position =
    (earliest initialSeq past position).or (segment.carried initialSeq position) := by
  rw [earliest, List.findSome?_append, List.findSome?_singleton, earliest]

/-- A position of the stream that some segment covers. -/
def Arrived (initialSeq : BitVec 32) (past : List Incoming) (position : Nat) : Prop :=
  position < 2 ^ 31 ∧ earliest initialSeq past position ≠ none

/-- The positions of the stream that a segment covers. -/
def Incoming.Brings (base : BitVec 32) (segment : Incoming) (position : Nat) : Prop :=
  position < 2 ^ 31 ∧
    offset segment.seq (base + BitVec.ofNat 32 position) < segment.payloadLen.toNat

theorem Incoming.carried_eq_none_iff
    (filled : segment.payloadLen.toNat ≤ segment.payload.length) :
    segment.carried initialSeq position = none ↔
      ¬offset segment.seq (initialSeq + BitVec.ofNat 32 position) <
        segment.payloadLen.toNat := by
  rw [Incoming.carried]
  split
  next inside =>
    rw [List.getElem?_eq_none_iff]
    constructor
    · intro short
      omega
    · intro outside
      exact absurd inside outside
  next outside => exact ⟨fun _ => outside, fun _ => rfl⟩

theorem arrived_record (filled : segment.payloadLen.toNat ≤ segment.payload.length) :
    Arrived initialSeq (past ++ [segment]) position ↔
      segment.Brings initialSeq position ∨ Arrived initialSeq past position := by
  have nothing := @Incoming.carried_eq_none_iff initialSeq segment position filled
  rw [Arrived, earliest_record, Ne, Option.or_eq_none_iff, nothing, Incoming.Brings,
    Arrived]
  tauto

/-- The earliest byte at each sequence number. -/
def earliestByte (initialSeq : BitVec 32) (past : List Incoming) (seq : BitVec 32) : UInt8 :=
  (earliest initialSeq past (offset initialSeq seq)).getD 0

/-- What has arrived keeps its byte. -/
theorem earliestByte_arrived (known : Arrived initialSeq past (offset initialSeq seq)) :
    earliestByte initialSeq (past ++ [segment]) seq = earliestByte initialSeq past seq := by
  obtain ⟨byte, found⟩ := Option.ne_none_iff_exists'.mp known.2
  rw [earliestByte, earliest_record, earliestByte, found]
  rfl

/-- Elsewhere a segment lays its bytes down. -/
theorem earliestByte_fresh (near : offset initialSeq seq < 2 ^ 31)
    (fresh : ¬Arrived initialSeq past (offset initialSeq seq)) :
    earliestByte initialSeq (past ++ [segment]) seq =
      segment.overlay (earliestByte initialSeq past) seq := by
  have nothing : earliest initialSeq past (offset initialSeq seq) = none := by
    by_contra found
    exact fresh ⟨near, found⟩
  rw [earliestByte, earliest_record, nothing, Option.none_or, Incoming.carried, add_offset,
    Incoming.overlay]
  split
  next inside =>
    rw [List.getD_eq_getElem?_getD]
  next =>
    rw [earliestByte, nothing]

end Earliest

/-! ## What a segment brings -/

namespace Incoming

variable {sb : StreamBuffer} {segment : Incoming} {position : Nat}

/-- What is left of a segment past `base_seq` covers what the segment brings. -/
theorem fromBase_brings (live : ¬segment.BeforeBase sb) :
    ((segment.fromBase sb).toSegment.span sb.baseSeq).Has position ↔
      segment.Brings sb.baseSeq position := by
  have near := fromBase_near live
  have lengthBound := segment.payloadLen.isLt
  have place : position < 2 ^ 31 →
      offset sb.baseSeq (sb.baseSeq + BitVec.ofNat 32 position) = position :=
    fun small => offset_self_add (by omega)
  constructor
  · intro inside
    have small : position < 2 ^ 31 := lt_trans inside.2 near
    refine ⟨small, ?_⟩
    rw [offset_rebase sb.baseSeq segment.seq, place small]
    rw [fromBase] at inside
    split at inside
    next before =>
      have started := offset_base_lt live before
      rw [span_skip_base live before, Has] at inside
      rw [offset_swap] at inside started
      have bound := offset_lt sb.baseSeq segment.seq
      rw [seqCompare_neg_iff] at before
      dsimp only at inside
      omega
    next =>
      rw [Has, TcpSegment.span, toSegment] at inside
      dsimp only at inside
      omega
  · rintro ⟨small, inside⟩
    have covered := @fromBase_covers sb segment (sb.baseSeq + BitVec.ofNat 32 position) live
    rw [place small] at covered
    exact covered small inside

/-- A segment wholly before `base_seq` brings nothing. -/
theorem not_brings_of_beforeBase {low : BitVec 32}
    (baseNear : offset low sb.baseSeq < 2 ^ 31)
    (segmentNear : offset low segment.seq + segment.payloadLen.toNat < 2 ^ 31)
    (before : segment.BeforeBase sb) : ¬segment.Brings sb.baseSeq position := by
  rintro ⟨small, inside⟩
  apply beforeBase_outside baseNear segmentNear before _ inside
  rw [offset_self_add (by omega)]
  exact small

end Incoming

/-! ## Room that never runs out -/

/-- The buffer with the largest capacity, in which no drain meets a full buffer. -/
def StreamBuffer.unbounded (sb : StreamBuffer) : StreamBuffer :=
  { sb with maxBufferSize := 0xFFFFFFFF }

section Unbounded

variable {sb after : StreamBuffer}

theorem SameWindow.unbounded (same : SameWindow sb after) :
    SameWindow sb.unbounded after.unbounded :=
  ⟨same.data, same.dataLen, same.baseSeq, same.nextSeq, same.osPolicy, rfl,
    same.totalReassembled⟩

theorem SameContent.unbounded (same : SameContent sb after) :
    SameContent sb.unbounded after.unbounded :=
  ⟨same.toSameWindow.unbounded, same.segList, same.segCount⟩

theorem DrainStep.unbounded (step : DrainStep sb after) :
    DrainStep sb.unbounded after.unbounded := by
  cases step with
  | stale list other behind => exact .stale list other behind
  | @deliver seg rest list next fits =>
      refine .deliver list next ?_
      intro full
      have bound := (sb.dataLen + seg.payloadLen.setWidth 32).isLt
      have capacity : sb.unbounded.maxBufferSize.toNat = 2 ^ 32 - 1 := rfl
      rw [gt_iff_lt, BitVec.lt_def, capacity] at full
      exact absurd full (not_lt.mpr (Nat.le_sub_one_of_lt bound))

theorem Halted.unbounded (halted : Halted sb) (unblocked : sb.Unblocked) :
    Halted sb.unbounded := by
  intro segment first
  rcases halted segment first with gap | ⟨next, _⟩
  · exact Or.inl gap
  · exact absurd next (unblocked segment first)

theorem Enqueued.unbounded {granted : Nat → Bool} {newSeg : TcpSegment}
    {front back : List TcpSegment} (enqueued : Enqueued granted newSeg sb after front back) :
    Enqueued granted newSeg sb.unbounded after.unbounded front back :=
  { enqueued with window := enqueued.window.unbounded }

end Unbounded

/-! ## The invariant -/

/-- The state during a drain: the window has the bytes of the map, and so have the
segments that are shown past it. -/
structure Aging (B : BitVec 32 → UInt8) (reached : Nat → Prop) (sb : StreamBuffer) :
    Prop where
  keeps : ¬sb.osPolicy.FavorsNew
  live : sb.data ≠ none
  holding : Holding (2 ^ 31) reached sb.unbounded
  data : Carries B sb.baseSeq sb.memory sb.dataLen.toNat
  shown : ∀ seq, sb.dataLen.toNat ≤ offset sb.baseSeq seq → Shows B sb.segList seq

/-- The state between two calls: every entry lies beyond a gap. -/
structure Aged (B : BitVec 32 → UInt8) (reached : Nat → Prop) (sb : StreamBuffer) : Prop
    extends Aging B reached sb where
  ahead : ∀ span ∈ sb.spans, sb.dataLen.toNat < span.lo

namespace Aging

variable {B : BitVec 32 → UInt8} {reached : Nat → Prop} {sb after : StreamBuffer}

theorem of_sameContent (aging : Aging B reached sb) (same : SameContent sb after) :
    Aging B reached after where
  keeps := by
    rw [same.osPolicy]
    exact aging.keeps
  live := by
    rw [same.data]
    exact aging.live
  holding := aging.holding.of_sameContent same.unbounded
  data := by
    rw [StreamBuffer.memory, same.data, same.baseSeq, same.dataLen]
    exact aging.data
  shown := by
    rw [same.segList, same.dataLen, same.baseSeq]
    exact aging.shown

theorem near (aging : Aging B reached sb) :
    ∀ segment ∈ sb.segList, (segment.span sb.baseSeq).hi < 2 ^ 31 :=
  fun _ member => (aging.holding.stops _ (List.mem_map_of_mem member)).2

theorem reach (aging : Aging B reached sb) (position : Nat) :
    position < sb.dataLen.toNat ∨ Covered sb.spans position ↔ reached position :=
  aging.holding.reach position

theorem whole (aging : Aging B reached sb) :
    ∀ span ∈ sb.spans, sb.dataLen.toNat ≤ span.lo ∨ span.hi ≤ sb.dataLen.toNat :=
  aging.holding.whole

theorem eq_next_iff (aging : Aging B reached sb) {segment : TcpSegment} :
    segment.seq = sb.nextSeq ↔ (segment.span sb.baseSeq).lo = sb.dataLen.toNat :=
  aging.holding.eq_next_iff

/-- Only the bytes at the reached positions matter. -/
theorem congr (aging : Aging B reached sb) {other : BitVec 32 → UInt8}
    {reached' : Nat → Prop} (same : ∀ position, reached' position ↔ reached position)
    (agree : ∀ seq, reached (offset sb.baseSeq seq) → other seq = B seq) :
    Aging other reached' sb where
  keeps := aging.keeps
  live := aging.live
  holding := by
    rw [show reached' = reached from funext fun position => propext (same position)]
    exact aging.holding
  data := by
    apply carries_congr_window aging.data
    intro seq inside
    exact agree seq ((aging.reach _).mp (Or.inl inside))
  shown := by
    intro seq beyond
    apply (aging.shown seq beyond).congr aging.near
    intro found
    exact agree seq ((aging.reach _).mp (Or.inr found))

/-- The drain drops what the window has and appends what it still lacks. -/
theorem drainStep (aging : Aging B reached sb) (step : DrainStep sb after) :
    Aging B reached after := by
  have holding := aging.holding.drainStep step.unbounded
  cases step with
  | @stale seg rest list other behind =>
      have member : seg ∈ sb.segList := by simp [list]
      have near := aging.near seg member
      have order := seg.lo_le_hi sb.baseSeq
      have whole := aging.whole (seg.span sb.baseSeq) (List.mem_map_of_mem member)
      have start : ¬sb.dataLen.toNat < (seg.span sb.baseSeq).lo := fun ahead =>
        behind ((aging.holding.not_ahead_iff (lt_of_le_of_lt order near)).mpr ahead)
      have notNext : (seg.span sb.baseSeq).lo ≠ sb.dataLen.toNat := fun atNext =>
        other (aging.eq_next_iff.mpr atNext)
      refine ⟨aging.keeps, aging.live, holding, aging.data, ?_⟩
      intro seq beyond
      have past : sb.dataLen.toNat ≤ offset sb.baseSeq seq := beyond
      have shown := aging.shown seq past
      have notSeg : ¬seg.reaches seq = true := by
        rw [reaches_iff near, Has]
        omega
      rw [list] at shown
      exact (shows_cons_of_not_reaches notSeg).mp shown
  | @deliver seg rest list next fits =>
      have member : seg ∈ sb.segList := by simp [list]
      have near := aging.near seg member
      have start : (seg.span sb.baseSeq).lo = sb.dataLen.toNat :=
        aging.eq_next_iff.mp next
      have length : (sb.append seg.payload seg.payloadLen).dataLen.toNat =
          (seg.span sb.baseSeq).hi := by
        rw [StreamBuffer.append]
        dsimp only
        have sum := @Holding.toNat_dataLen_add _ _ _ aging.holding seg.payloadLen
        rw [TcpSegment.span]
        dsimp only
        rw [TcpSegment.offset_seq, start]
        exact sum
      have agrees : seg.Agrees B := by
        apply @agrees_of_shows _ _ rest
        intro seq inside
        rw [reaches_iff near] at inside
        rw [← list]
        exact aging.shown seq (start ▸ inside.1)
      rw [TcpSegment.Agrees, next] at agrees
      refine ⟨aging.keeps, StreamBuffer.append_live aging.live _ _, holding, ?_, ?_⟩
      · exact sb.append_carries aging.live aging.holding.next aging.data agrees
      · intro seq beyond
        have past : (seg.span sb.baseSeq).hi ≤ offset sb.baseSeq seq := length ▸ beyond
        have notSeg : ¬seg.reaches seq = true := by
          rw [reaches_iff near, Has]
          omega
        have order := seg.lo_le_hi sb.baseSeq
        have shown := aging.shown seq (by omega)
        rw [list] at shown
        exact (shows_cons_of_not_reaches notSeg).mp shown

/-- A drain that is not stopped by a full buffer stops at a gap. -/
theorem drain (aging : Aging B reached sb) (drained : Drained sb after)
    (unblocked : after.Unblocked) : Aged B reached after := by
  obtain ⟨last, lastAging, halted, same⟩ := drained.invariant aging Aging.drainStep
  rw [StreamBuffer.Unblocked, same.segList, same.nextSeq] at unblocked
  have settled := lastAging.holding.settled_of_halted (halted.unbounded unblocked)
  refine ⟨lastAging.of_sameContent same, ?_⟩
  rw [StreamBuffer.spans, same.segList, same.baseSeq, same.dataLen]
  exact settled.ahead

end Aging

namespace Aged

variable {B : BitVec 32 → UInt8} {reached : Nat → Prop} {sb after : StreamBuffer}

theorem settled (aged : Aged B reached sb) : Settled (2 ^ 31) reached sb.unbounded :=
  ⟨aged.holding, aged.ahead⟩

theorem of_sameContent (aged : Aged B reached sb) (same : SameContent sb after) :
    Aged B reached after := by
  refine ⟨aged.toAging.of_sameContent same, ?_⟩
  rw [StreamBuffer.spans, same.segList, same.baseSeq, same.dataLen]
  exact aged.ahead

/-- Nothing in the queue can be delivered. -/
theorem halted (aged : Aged B reached sb) : Halted sb := by
  intro segment first
  have member := List.mem_of_mem_head? first
  have ahead := aged.ahead _ (List.mem_map_of_mem member)
  left
  constructor
  · intro next
    exact absurd (aged.eq_next_iff.mp next) ahead.ne'
  · exact (aged.holding.not_ahead_iff (lt_of_le_of_lt (segment.lo_le_hi _)
      (aged.near segment member))).mpr ahead

/-- Between two calls every byte of the queue is past the window. -/
theorem shown_all (aged : Aged B reached sb) (seq : BitVec 32) : Shows B sb.segList seq := by
  by_cases beyond : sb.dataLen.toNat ≤ offset sb.baseSeq seq
  · exact aged.shown seq beyond
  · apply shows_of_not_covered aged.near
    rintro ⟨span, member, inside⟩
    have ahead := aged.ahead span member
    have start := inside.1
    omega

end Aged

/-! ## One insertion -/

/-- The byte map `after` is `before` with the segment laid under it: the bytes at the
reached positions stay. -/
structure Underlaid (sb : StreamBuffer) (segment : Incoming) (reached : Nat → Prop)
    (before after : BitVec 32 → UInt8) : Prop where
  known : ∀ seq, reached (offset sb.baseSeq seq) → after seq = before seq
  fresh : ∀ seq, offset sb.baseSeq seq < 2 ^ 31 → ¬reached (offset sb.baseSeq seq) →
    after seq = segment.overlay before seq

namespace Aged

variable {B B' : BitVec 32 → UInt8} {reached : Nat → Prop} {sb middle : StreamBuffer}
variable {segment : Incoming}

/-- The window after a segment that continues it and stops before every queued one. -/
theorem appendInOrder (aged : Aged B reached sb)
    (underlaid : Underlaid sb segment reached B B')
    (filled : segment.payloadLen.toNat ≤ segment.payload.length)
    (valid : segment.payloadLen ≠ 0) (live : ¬segment.BeforeBase sb)
    (next : (segment.fromBase sb).seq = sb.nextSeq)
    (apart : ∀ span ∈ sb.spans,
      ((segment.fromBase sb).toSegment.span sb.baseSeq).hi ≤ span.lo) :
    Aging B' (fun position => segment.Brings sb.baseSeq position ∨ reached position)
      (sb.append (segment.fromBase sb).payload (segment.fromBase sb).payloadLen) := by
  have near := Incoming.fromBase_near live
  have proper := Incoming.fromBase_proper valid live
  have start : ((segment.fromBase sb).toSegment.span sb.baseSeq).lo = sb.dataLen.toNat := by
    rw [TcpSegment.span, Incoming.toSegment]
    dsimp only
    rw [next]
    exact aged.holding.offset_next
  have stop : ((segment.fromBase sb).toSegment.span sb.baseSeq).hi =
      ((segment.fromBase sb).toSegment.span sb.baseSeq).lo +
        (segment.fromBase sb).payloadLen.toNat := rfl
  -- nothing of the segment has been reached
  have unreached : ∀ position,
      ((segment.fromBase sb).toSegment.span sb.baseSeq).Has position → ¬reached position := by
    intro position inside known
    rcases (aged.reach position).mpr known with old | ⟨span, member, found⟩
    · have first := inside.1
      omega
    · exact absurd (inside.2.trans_le (apart span member)) (not_lt.mpr found.1)
  have agrees : (segment.fromBase sb).Agrees B' := by
    have laid := Incoming.fromBase_agrees (@Incoming.overlay_agrees segment B filled) live
    apply Carries.congr laid
    intro index small
    have place : offset sb.baseSeq ((segment.fromBase sb).seq + BitVec.ofNat 32 index) =
        ((segment.fromBase sb).toSegment.span sb.baseSeq).lo + index := by
      apply offset_add_ofNat_of_lt
      have first : offset sb.baseSeq (segment.fromBase sb).seq =
        ((segment.fromBase sb).toSegment.span sb.baseSeq).lo := rfl
      omega
    apply underlaid.fresh
    · rw [place]
      omega
    · rw [place]
      apply unreached
      simp only [Has]
      omega
  rw [Incoming.Agrees, next] at agrees
  have appended := @Settled.append _ _ _ aged.settled (segment.fromBase sb).payload
    (segment.fromBase sb).payloadLen _ proper near start stop.symm (by
      intro queued member inside
      exact absurd (apart queued member) (not_le.mpr inside.1))
  refine ⟨aged.keeps, StreamBuffer.append_live aged.live _ _, ?_, ?_, ?_⟩
  · have same : (fun position => segment.Brings sb.baseSeq position ∨ reached position) =
        fun position => ((segment.fromBase sb).toSegment.span sb.baseSeq).Has position ∨
          reached position := by
      funext position
      rw [Incoming.fromBase_brings live]
    rw [same]
    exact appended
  · apply sb.append_carries aged.live aged.holding.next _ agrees
    apply carries_congr_window aged.data
    intro seq inside
    exact underlaid.known seq ((aged.reach _).mp (Or.inl inside))
  · intro seq _
    apply (aged.shown_all seq).congr aged.near
    intro found
    exact underlaid.known seq ((aged.reach _).mp (Or.inr found))

/-- What an insertion keeps is shown where nothing was reached, and hides nothing. -/
theorem shown_inserted (aged : Aged B reached sb) {newSpan : Span} {kept : TcpSegment}
    {granted : Nat → Bool} {front back : List TcpSegment}
    (known : ∀ seq, reached (offset sb.baseSeq seq) → B' seq = B seq)
    (bytes : ∀ seq, kept.reaches seq = true → ¬reached (offset sb.baseSeq seq) →
      kept.payload[offset kept.seq seq]? = some (B' seq))
    (start : sb.dataLen.toNat ≤ (kept.span sb.baseSeq).lo)
    (near : (kept.span sb.baseSeq).hi < 2 ^ 31) (proper : (kept.span sb.baseSeq).Proper)
    (yielded : Yielded newSpan sb.spans (kept.span sb.baseSeq))
    (split : sb.segList = front ++ back)
    (enqueued : Enqueued granted kept sb middle front back) (seq : BitVec 32) :
    Shows B' (front ++ kept :: back) seq := by
  have laminar : Laminar ((front ++ kept :: back).map (TcpSegment.span sb.baseSeq)) :=
    aged.settled.inserted_laminar proper near start enqueued.unbounded
  rw [List.map_append, List.map_cons] at laminar
  have behind := (laminar_cons.mp
    ⟨fun span member => laminar.proper span (by simp [member]),
      (List.pairwise_append.mp laminar.ordered).2.1⟩).2.1
  apply shows_insert
  · rw [← split]
    apply (aged.shown_all seq).congr aged.near
    intro found
    exact known seq ((aged.reach _).mp (Or.inr found))
  · intro inKept free
    by_cases old : reached (offset sb.baseSeq seq)
    · exfalso
      rw [reaches_iff near] at inKept
      rcases (aged.reach _).mpr old with before | ⟨span, member, inside⟩
      · have first := inKept.1
        omega
      · obtain ⟨curr, inQueue, rfl⟩ := List.mem_map.mp member
        have currNear := aged.near curr inQueue
        -- `curr` is behind `kept` in the queue, so `kept` is not inside it
        have inBack : curr ∈ back := by
          rw [split] at inQueue
          refine (List.mem_append.mp inQueue).resolve_left fun inFront => ?_
          have missed := List.find?_eq_none.mp free curr inFront
          rw [reaches_iff currNear] at missed
          exact missed inside
        have order := behind _ (List.mem_map_of_mem inBack)
        have apart := yielded.apart_or_inside member
        simp only [Has, Precedes] at inKept inside order
        omega
    · exact bytes seq inKept old

/-- What is kept of a new segment reaches, together with the queue, as far as all of it. -/
theorem reach_kept (aged : Aged B reached sb) {newSpan keptSpan : Span}
    (yielded : Yielded newSpan sb.spans keptSpan) :
    (fun position => newSpan.Has position ∨ reached position) =
      fun position => keptSpan.Has position ∨ reached position := by
  funext position
  have cover := yielded.covered position
  have queued : Covered sb.spans position → reached position :=
    fun found => (aged.reach position).mp (Or.inr found)
  rw [eq_iff_iff]
  tauto

/-- If the merge pass fits the new segment, it fits what is kept of it. -/
theorem mergesFit_kept (aged : Aged B reached sb) {newSpan : Span} {kept : TcpSegment}
    {granted : Nat → Bool} {front back : List TcpSegment}
    (near : (kept.span sb.baseSeq).hi < 2 ^ 31)
    (yielded : Yielded newSpan sb.spans (kept.span sb.baseSeq))
    (split : sb.segList = front ++ back)
    (fits : sb.segList.length < 10 ∨ ShortRuns (newSpan :: sb.spans))
    (enqueued : Enqueued granted kept sb middle front back) :
    MergesFit sb.unbounded (kept.span sb.baseSeq) := by
  rcases fits with few | short
  · have cuts := aged.settled.inserted_spans near enqueued.unbounded
    rw [← List.map_append, ← split] at cuts
    left
    rw [← List.length_map (TcpSegment.span sb.baseSeq)] at few
    exact (congrArg List.length cuts).trans_lt few
  · right
    refine short.mono fun position found => ?_
    rw [covered_cons] at found ⊢
    exact (yielded.covered position).mp found

/-- The queue after what is kept of a new segment has been put into it. -/
theorem enqueue (aged : Aged B reached sb) {newSpan : Span} {kept : TcpSegment}
    {granted : Nat → Bool} (allGranted : ∀ index, granted index)
    {front back : List TcpSegment}
    (known : ∀ seq, reached (offset sb.baseSeq seq) → B' seq = B seq)
    (bytes : ∀ seq, kept.reaches seq = true → ¬reached (offset sb.baseSeq seq) →
      kept.payload[offset kept.seq seq]? = some (B' seq))
    (start : sb.dataLen.toNat ≤ newSpan.lo) (near : newSpan.hi < 2 ^ 31)
    (yielded : Yielded newSpan sb.spans (kept.span sb.baseSeq))
    (nonempty : kept.payloadLen ≠ 0)
    (whole : ∀ curr ∈ sb.segList, cutBy kept curr = some curr)
    (fits : sb.segList.length < 10 ∨ ShortRuns (newSpan :: sb.spans))
    (enqueued : Enqueued granted kept sb middle front back) :
    Aging B' (fun position => newSpan.Has position ∨ reached position) middle := by
  have split : sb.segList = front ++ back := by
    rw [← enqueued.split, List.filterMap_congr whole, List.filterMap_some]
  have keptNear : (kept.span sb.baseSeq).hi < 2 ^ 31 :=
    lt_of_le_of_lt yielded.stop_le near
  have keptStart : sb.dataLen.toNat ≤ (kept.span sb.baseSeq).lo :=
    start.trans yielded.start_le
  have proper : (kept.span sb.baseSeq).Proper := TcpSegment.span_proper nonempty
  have window := enqueued.window
  refine ⟨?_, ?_, ?_, ?_, ?_⟩
  · rw [window.osPolicy]
    exact aged.keeps
  · rw [window.data]
    exact aged.live
  · rw [aged.reach_kept yielded]
    exact aged.settled.enqueue proper keptNear.le keptNear keptStart enqueued.unbounded
      allGranted (aged.mergesFit_kept keptNear yielded split fits enqueued)
  · rw [StreamBuffer.memory, window.data, window.baseSeq, window.dataLen]
    apply carries_congr_window aged.data
    intro seq inside
    exact known seq ((aged.reach _).mp (Or.inl inside))
  · intro seq _
    have laminar : Laminar ((front ++ kept :: back).map (TcpSegment.span sb.baseSeq)) :=
      aged.settled.inserted_laminar proper keptNear keptStart enqueued.unbounded
    refine shows_enqueued allGranted enqueued aged.holding.count ?_ laminar ?_ ?_ seq
    · intro curr member
      rw [List.mem_append, List.mem_cons, or_left_comm, ← List.mem_append, ← split] at member
      rcases member with rfl | member
      · exact keptNear
      · exact aged.near curr member
    · rcases fits with few | short
      · left
        rw [split, List.length_append] at few
        rw [List.length_append, List.length_cons]
        omega
      · right
        refine short.mono fun position found => ?_
        rw [covered_cons]
        exact (yielded.covered position).mp
          ((aged.settled.inserted_covered keptNear enqueued.unbounded position).mp found)
    · exact aged.shown_inserted known bytes keptStart keptNear proper yielded split enqueued

theorem congr (aged : Aged B reached sb) {reached' : Nat → Prop}
    (same : ∀ position, reached' position ↔ reached position)
    (known : ∀ seq, reached (offset sb.baseSeq seq) → B' seq = B seq) :
    Aged B' reached' sb :=
  ⟨aged.toAging.congr same known, aged.ahead⟩

/-- What lies past the window of what a segment brings, if the rest has been reached. -/
theorem brings_past (aged : Aged B reached sb) (live : ¬segment.BeforeBase sb)
    (position : Nat) :
    (past sb.dataLen.toNat ((segment.fromBase sb).toSegment.span sb.baseSeq)).Has position ∨
        reached position ↔
      segment.Brings sb.baseSeq position ∨ reached position := by
  rw [← Incoming.fromBase_brings live]
  exact iff_of_eq (congrFun aged.settled.reached_past position)

/-- The overlap walk on an undisputed segment does not free it, and what it keeps has the
bytes of the segment and cuts no entry. -/
theorem walk (aged : Aged B reached sb)
    (filled : segment.payloadLen.toNat ≤ segment.payload.length)
    (live : ¬segment.BeforeBase sb) {newSeg : TcpSegment}
    (entry : ((segment.fromBase sb).pastWindow sb).toSegment = newSeg)
    (near : (newSeg.span sb.baseSeq).hi < 2 ^ 31)
    (undisputed : Undisputed (newSeg.span sb.baseSeq) sb.spans) :
    ∃ kept, keptOf newSeg.endSeq newSeg sb.segList = some kept ∧
      Yielded (newSeg.span sb.baseSeq) sb.spans (kept.span sb.baseSeq) ∧
      kept.Agrees (segment.overlay B) ∧ ∀ curr ∈ sb.segList, cutBy kept curr = some curr := by
  have agrees : newSeg.Agrees (segment.overlay B) := by
    rw [← entry]
    exact Incoming.toSegment_agrees (Incoming.pastWindow_agrees
      (Incoming.fromBase_agrees (Incoming.overlay_agrees filled) live))
  obtain ⟨kept, walk, yielded, keptAgrees⟩ := keptOf_yielded near sb.segList [] newSeg
    aged.near aged.holding.laminar undisputed (Yielded.refl (newSeg.lo_le_hi _)) agrees
  exact ⟨kept, walk, yielded, keptAgrees,
    cutBy_of_yielded yielded near aged.near aged.holding.laminar⟩

/-- Where nothing of a segment is kept, all of it has been reached. -/
theorem reached_of_empty (aged : Aged B reached sb) {newSpan : Span} {kept : TcpSegment}
    (yielded : Yielded newSpan sb.spans (kept.span sb.baseSeq)) (empty : kept.payloadLen = 0)
    (position : Nat) : newSpan.Has position ∨ reached position ↔ reached position := by
  apply or_iff_right_of_imp
  intro inside
  rcases (yielded.covered position).mpr (Or.inl inside) with inKept | found
  · have zero : (0 : BitVec 16).toNat = 0 := rfl
    rw [Has, TcpSegment.span, empty, zero] at inKept
    dsimp only at inKept
    omega
  · exact (aged.reach position).mp (Or.inr found)

/-- The out-of-order path: what has been reached keeps its bytes. -/
theorem insertOutOfOrder (config : StreamConfig) {st : Reassembly}
    (aged : Aged B reached st.sb) (underlaid : Underlaid st.sb segment reached B B')
    (filled : segment.payloadLen.toNat ≤ segment.payload.length)
    (valid : segment.payloadLen ≠ 0) (live : ¬segment.BeforeBase st.sb)
    (other : (segment.fromBase st.sb).seq ≠ st.sb.nextSeq)
    (room : segment.HasRoom config st.sb) (uncontested : segment.Uncontested st.sb) :
    ∃ ret next, NetDefender.Stream.insertOutOfOrder config .ok st
        (segment.fromBase st.sb) = .ok (ret, next) ∧
      next.sb.baseSeq = st.sb.baseSeq ∧
      (next.sb.Unblocked → Aged B'
        (fun position => segment.Brings st.sb.baseSeq position ∨ reached position) next.sb) := by
  have fromNear := Incoming.fromBase_near live
  have fromProper := Incoming.fromBase_proper valid live
  rcases @Incoming.pastWindow_placed (segment.fromBase st.sb) st.sb _
    aged.holding.offset_next aged.holding.windowNear rfl fromProper fromNear
    with ⟨empty, old⟩ | ⟨nonempty, beyond, placed⟩
  · have same := st.countOutOfOrder_sameContent (segment.fromBase st.sb)
    rw [insertOutOfOrder_eq, if_pos empty]
    refine ⟨_, _, rfl, same.baseSeq, fun _ => ?_⟩
    apply (aged.congr _ underlaid.known).of_sameContent same
    intro position
    rw [← Incoming.fromBase_brings live]
    apply or_iff_right_of_imp
    intro inside
    exact (aged.reach position).mp (Or.inl (inside.2.trans_le old))
  · have near : (((segment.fromBase st.sb).pastWindow st.sb).toSegment.span
        st.sb.baseSeq).hi < 2 ^ 31 := by
      rw [placed]
      exact fromNear
    obtain ⟨kept, walk, yielded, keptAgrees, whole⟩ := aged.walk filled live rfl near
      (uncontested.queued live other nonempty)
    obtain ⟨ret, next, equation, result⟩ := insertOutOfOrder_favorsOld config aged.keeps
      aged.halted nonempty (room.queue live other nonempty) walk whole
    have fits := uncontested.merges live other nonempty
    rw [placed] at yielded near fits
    rcases result with ⟨empty, same⟩ | ⟨middle, front, back, some, enqueued, drained⟩
    · refine ⟨ret, next, equation, same.baseSeq, fun _ => ?_⟩
      apply (aged.congr _ underlaid.known).of_sameContent same
      intro position
      rw [← aged.brings_past live]
      exact aged.reached_of_empty yielded empty position
    · refine ⟨ret, next, equation, drained.baseSeq.trans enqueued.window.baseSeq, ?_⟩
      intro unblocked
      have keptNear : (kept.span st.sb.baseSeq).hi < 2 ^ 31 :=
        lt_of_le_of_lt yielded.stop_le near
      have bytes : ∀ seq, kept.reaches seq = true → ¬reached (offset st.sb.baseSeq seq) →
          kept.payload[offset kept.seq seq]? = Option.some (B' seq) := by
        intro seq inKept fresh
        rw [keptAgrees.byte inKept]
        rw [reaches_iff keptNear] at inKept
        rw [underlaid.fresh seq (lt_trans inKept.2 keptNear) fresh]
      have lasting := fits fun old member start =>
        yielded.stop_ne (max_lt beyond fromProper) (TcpSegment.span_proper some) member start
      have aging := aged.enqueue (fun _ => rfl) underlaid.known bytes (le_max_left _ _) near
        yielded some whole lasting enqueued
      have sameReach : (fun position => segment.Brings st.sb.baseSeq position ∨
          reached position) = fun position =>
          (past st.sb.dataLen.toNat ((segment.fromBase st.sb).toSegment.span
            st.sb.baseSeq)).Has position ∨ reached position :=
        funext fun position => propext (aged.brings_past live position).symm
      rw [sameReach]
      exact aging.drain drained unblocked

/-- One insertion adds what it brings to what has been reached. -/
theorem insert (config : StreamConfig) {st : Reassembly} {low : BitVec 32}
    (aged : Aged B reached st.sb) (underlaid : Underlaid st.sb segment reached B B')
    (filled : segment.payloadLen.toNat ≤ segment.payload.length)
    (baseNear : offset low st.sb.baseSeq < 2 ^ 31)
    (segmentNear : offset low segment.seq + segment.payloadLen.toNat < 2 ^ 31)
    (room : segment.HasRoom config st.sb) (uncontested : segment.Uncontested st.sb) :
    ∃ next, segment.insertion.run config st = .ok next ∧
      next.sb.baseSeq = st.sb.baseSeq ∧
      (next.sb.Unblocked → Aged B'
        (fun position => segment.Brings st.sb.baseSeq position ∨ reached position) next.sb) := by
  have counted : Aged B reached st.countInserted.sb := aged
  have nothing : (∀ position, ¬segment.Brings st.sb.baseSeq position) → Aged B'
      (fun position => segment.Brings st.sb.baseSeq position ∨ reached position) st.sb :=
    fun none => aged.congr (fun position => or_iff_right (none position)) underlaid.known
  rw [Incoming.insertion, Op.run, streamBufferInsertSegment_eq]
  by_cases invalid : segment.payloadLen = 0 ∨ st.sb.data = none
  · rw [if_pos invalid]
    refine ⟨st, rfl, rfl, fun _ => nothing ?_⟩
    rintro position ⟨_, inside⟩
    have zero : (0 : BitVec 16).toNat = 0 := rfl
    rw [invalid.resolve_right aged.live, zero] at inside
    exact Nat.not_lt_zero _ inside
  have valid : segment.payloadLen ≠ 0 := fun empty => invalid (Or.inl empty)
  rw [if_neg invalid]
  by_cases before : segment.BeforeBase st.sb
  · rw [if_pos before]
    exact ⟨st.countInserted, rfl, rfl, fun _ => nothing fun _ =>
      Incoming.not_brings_of_beforeBase baseNear segmentNear before⟩
  rw [if_neg before]
  by_cases next : (segment.fromBase st.sb).seq = st.sb.nextSeq
  · rw [if_pos next]
    rcases insertInOrder_effect st.countInserted (segment.fromBase st.sb) with
      ⟨full, _⟩ | ⟨_, drained⟩
    · exact absurd full (room.window before next)
    · refine ⟨_, rfl, drained.baseSeq, fun unblocked => ?_⟩
      have appended := counted.appendInOrder underlaid filled valid before next
        (uncontested.appended before next)
      exact appended.drain drained unblocked
  · rw [if_neg next]
    obtain ⟨ret, after, equation, base, result⟩ := counted.insertOutOfOrder config underlaid
      filled valid before next room uncontested
    have call : NetDefender.Stream.insertOutOfOrder config .ok st.countInserted
        (segment.fromBase st.sb) = .ok (ret, after) := equation
    rw [call]
    exact ⟨after, rfl, base, result⟩

end Aged

/-! ## Runs -/

section Runs

variable {config : StreamConfig} {initialSeq low : BitVec 32} {segment : Incoming}
variable {past : List Incoming} {st : Reassembly}

theorem Aged.run (aged : Aged (earliestByte initialSeq past) (Arrived initialSeq past) st.sb)
    (base : st.sb.baseSeq = initialSeq)
    (filled : segment.payloadLen.toNat ≤ segment.payload.length)
    (baseNear : offset low initialSeq < 2 ^ 31)
    (segmentNear : offset low segment.seq + segment.payloadLen.toNat < 2 ^ 31)
    (room : segment.HasRoom config st.sb) (uncontested : segment.Uncontested st.sb) :
    ∃ next, segment.insertion.run config st = .ok next ∧ next.sb.baseSeq = initialSeq ∧
      (next.sb.Unblocked → Aged (earliestByte initialSeq (past ++ [segment]))
        (Arrived initialSeq (past ++ [segment])) next.sb) := by
  subst base
  have underlaid : Underlaid st.sb segment (Arrived st.sb.baseSeq past)
      (earliestByte st.sb.baseSeq past) (earliestByte st.sb.baseSeq (past ++ [segment])) :=
    ⟨fun _ known => earliestByte_arrived known, fun _ near fresh =>
      earliestByte_fresh near fresh⟩
  obtain ⟨next, step, base, result⟩ := aged.insert config underlaid filled baseNear
    segmentNear room uncontested
  refine ⟨next, step, base, fun unblocked => ?_⟩
  have sameReach : Arrived st.sb.baseSeq (past ++ [segment]) = fun position =>
      segment.Brings st.sb.baseSeq position ∨ Arrived st.sb.baseSeq past position :=
    funext fun position => propext (arrived_record filled)
  rw [sameReach]
  exact result unblocked

theorem Aged.runOps {segments : List Incoming}
    (aged : Aged (earliestByte initialSeq []) (Arrived initialSeq []) st.sb)
    (base : st.sb.baseSeq = initialSeq) (baseNear : offset low initialSeq < 2 ^ 31)
    (near : ∀ segment ∈ segments,
      offset low segment.seq + segment.payloadLen.toNat < 2 ^ 31)
    (filled : ∀ segment ∈ segments, segment.payloadLen.toNat ≤ segment.payload.length)
    (room : NoFailure config st segments)
    (uncontested : EachInsertion config (fun sb segment => segment.Uncontested sb) st
      segments) :
    ∃ final, runOps config st (segments.map Incoming.insertion) = .ok final ∧
      final.sb.baseSeq = initialSeq ∧
      Aged (earliestByte initialSeq segments) (Arrived initialSeq segments) final.sb := by
  rw [NetDefender.Stream.runOps, List.foldlM_map]
  obtain ⟨final, run, result, finalBase, _⟩ := @Fallible.exists_foldlM_ok _ _ _
    (fun st segment => segment.insertion.run config st)
    (fun past st rest => Aged (earliestByte initialSeq past) (Arrived initialSeq past) st.sb ∧
      st.sb.baseSeq = initialSeq ∧
      (∀ segment ∈ rest, offset low segment.seq + segment.payloadLen.toNat < 2 ^ 31 ∧
        segment.payloadLen.toNat ≤ segment.payload.length) ∧
      NoFailure config st rest ∧
      EachInsertion config (fun sb segment => segment.Uncontested sb) st rest) (by
      rintro past st segment rest ⟨aged, base, sound, room, uncontested⟩
      obtain ⟨segmentNear, filled⟩ := sound segment List.mem_cons_self
      obtain ⟨next, step, nextBase, result⟩ := aged.run base filled baseNear segmentNear
        room.1 uncontested.1
      obtain ⟨unblocked, nextRoom⟩ := room.2 next step
      exact ⟨next, step, result unblocked, nextBase,
        fun other member => sound other (List.mem_cons_of_mem _ member), nextRoom,
        uncontested.2 next step⟩) [] segments st
    ⟨aged, base, fun segment member => ⟨near segment member, filled segment member⟩, room,
      uncontested⟩
  exact ⟨final, run, finalBase, result⟩

end Runs

theorem streamBufferInit_aged (config : StreamConfig) (stats : ReassemblyStats)
    (initialSeq : BitVec 32) (policy : OsPolicy) (keeps : ¬policy.FavorsNew) :
    Aged (earliestByte initialSeq []) (Arrived initialSeq [])
      (streamBufferInit config stats initialSeq policy true).2.sb := by
  let start := (streamBufferInit config stats initialSeq policy true).2.sb
  have spans : start.unbounded.spans = [] := rfl
  have empty : start.unbounded.dataLen.toNat = 0 := rfl
  have nothing : ∀ position, ¬Arrived initialSeq [] position := fun _ found => found.2 rfl
  have count : (0 : BitVec 32) - BitVec.ofNat 32 0 = 0 := by decide
  have capacity : 2 ^ 31 ≤ (0xFFFFFFFF : BitVec 32).toNat := by decide
  have holding : Holding (2 ^ 31) (Arrived initialSeq []) start.unbounded := by
    refine ⟨(add_zero initialSeq).symm, capacity, count, ?_, ?_, ?_, ?_, ?_⟩
    · rw [empty]
      decide
    · rw [spans]
      exact laminar_nil
    · simp [spans]
    · simp [spans]
    · simp [spans, empty, nothing]
  refine ⟨⟨keeps, (fun missing => by cases missing), holding, ?_, ?_⟩, ?_⟩
  · intro index small
    cases small
  · intro seq _ segment found
    cases found
  · intro span member
    cases member

/-- Under a policy that favors old data, if no insertion of the run is contested, nothing is
used after it was freed, every delivered byte is the one of the earliest segment that covers
its position, and the first position that is not delivered is covered by no segment. -/
theorem reassembly_favors_earliest (config : StreamConfig) (stats : ReassemblyStats)
    (initialSeq low : BitVec 32) (policy : OsPolicy) (keeps : ¬policy.FavorsNew)
    (segments : List Incoming) (baseNear : offset low initialSeq < 2 ^ 31)
    (near : ∀ segment ∈ segments,
      offset low segment.seq + segment.payloadLen.toNat < 2 ^ 31)
    (filled : ∀ segment ∈ segments,
      segment.payloadLen.toNat ≤ segment.payload.length)
    (room : NoFailure config (streamBufferInit config stats initialSeq policy true).2 segments)
    (uncontested : EachInsertion config (fun sb segment => segment.Uncontested sb)
      (streamBufferInit config stats initialSeq policy true).2 segments) :
    ∃ final, runOps config (streamBufferInit config stats initialSeq policy true).2
        (segments.map Incoming.insertion) = .ok final ∧
      (∀ position < final.sb.dataLen.toNat, ∃ byte,
        earliest initialSeq segments position = some byte ∧
          final.sb.memory[position]? = some byte) ∧
      earliest initialSeq segments final.sb.dataLen.toNat = none := by
  obtain ⟨final, run, base, aged⟩ :=
    (streamBufferInit_aged config stats initialSeq policy keeps).runOps rfl baseNear near filled
      room uncontested
  refine ⟨final, run, ?_, ?_⟩
  · intro position inside
    have bound := final.sb.dataLen.isLt
    have place : offset initialSeq (initialSeq + BitVec.ofNat 32 position) = position :=
      offset_self_add (by omega)
    have arrived := (aged.reach position).mp (Or.inl inside)
    obtain ⟨byte, found⟩ := Option.ne_none_iff_exists'.mp arrived.2
    refine ⟨byte, found, ?_⟩
    have delivered := aged.data position inside
    rw [base, earliestByte, place, found] at delivered
    exact delivered
  · -- the position after the window is reached by nothing
    by_contra found
    rcases (aged.reach _).mpr ⟨aged.holding.windowNear, found⟩ with inside | ⟨span, member, has⟩
    · exact Nat.lt_irrefl _ inside
    · exact absurd has.1 (not_le.mpr (aged.ahead span member))

/-- Segments that overlap the end and the start of a queued one with other bytes, then the
one that fills the gap, across the wrap of the sequence space. -/
theorem reassembly_favors_earliest_overlaps :
    let segments : List Incoming :=
      [⟨0, [1, 1, 1, 1], 4⟩, ⟨2, [2, 2, 2, 2], 4⟩, ⟨0xFFFFFFFE, [3, 3, 3, 3], 4⟩,
        ⟨0xFFFFFFFC, [4, 4], 2⟩]
    ∃ final, runOps .default (streamBufferInit .default {} 0xFFFFFFFC .bsd true).2
        (segments.map Incoming.insertion) = .ok final ∧
      (∀ position < final.sb.dataLen.toNat, ∃ byte,
        earliest 0xFFFFFFFC segments position = some byte ∧
          final.sb.memory[position]? = some byte) ∧
      earliest 0xFFFFFFFC segments final.sb.dataLen.toNat = none := by
  have calm : ∀ {sb : StreamBuffer} {segment : Incoming}, sb.segList.length < 10 →
      (∀ span ∈ sb.spans, (segment.fromBase sb).seq = sb.nextSeq →
        ((segment.fromBase sb).toSegment.span sb.baseSeq).hi ≤ span.lo) →
      Undisputed (((segment.fromBase sb).pastWindow sb).toSegment.span sb.baseSeq) sb.spans →
      segment.Uncontested sb := by
    intro sb segment few apart undisputed
    exact ⟨fun _ next span member => apart span member next, fun _ _ _ => undisputed,
      fun _ _ _ _ => Or.inl few⟩
  refine reassembly_favors_earliest .default {} 0xFFFFFFFC 0xFFFFFFFC .bsd (by decide)
    [⟨0, [1, 1, 1, 1], 4⟩, ⟨2, [2, 2, 2, 2], 4⟩, ⟨0xFFFFFFFE, [3, 3, 3, 3], 4⟩,
      ⟨0xFFFFFFFC, [4, 4], 2⟩] (by decide) (by decide) (by decide) ?_ ?_
  · apply NoFailure.cons rfl (by decide) (by decide)
    apply NoFailure.cons rfl (by decide) (by decide)
    apply NoFailure.cons rfl (by decide) (by decide)
    apply NoFailure.cons rfl (by decide) (by decide)
    trivial
  · apply EachInsertion.cons rfl
    · apply calm <;> decide
    · apply EachInsertion.cons rfl
      · apply calm <;> decide
      · apply EachInsertion.cons rfl
        · apply calm <;> decide
        · apply EachInsertion.cons rfl
          · apply calm <;> decide
          · trivial

/-- A retransmission of a queued segment is read after it was freed, and an in-order segment
that reaches into a queued one replaces the older bytes and loses the rest. -/
theorem reassembly_frees_retransmission :
    let start := (streamBufferInit .default {} 0 .bsd true).2
    let retransmitted : List Incoming := [⟨10, [1, 1], 2⟩, ⟨10, [1, 1], 2⟩]
    let straddling : List Incoming := [⟨2, [1, 1, 1], 3⟩, ⟨0, [2, 2, 2], 3⟩]
    (∀ segment ∈ retransmitted ++ straddling,
      offset 0 segment.seq + segment.payloadLen.toNat < 2 ^ 31 ∧
        segment.payloadLen.toNat ≤ segment.payload.length) ∧
    (NoFailure .default start retransmitted ∧
      runOps .default start (retransmitted.map Incoming.insertion) =
        .error .useAfterFree) ∧
    NoFailure .default start straddling ∧
      ∃ final, runOps .default start (straddling.map Incoming.insertion) = .ok final ∧
        final.sb.dataLen = 3 ∧ final.sb.memory[2]? = some 2 ∧
        earliest 0 straddling 2 = some 1 ∧ earliest 0 straddling 3 = some 1 := by
  refine ⟨by decide, ⟨?_, rfl⟩, ?_, _, rfl, by decide, by decide, by decide, by decide⟩
  · apply NoFailure.cons rfl (by decide) (by decide)
    refine ⟨by decide, ?_⟩
    intro next step
    cases step
  · apply NoFailure.cons rfl (by decide) (by decide)
    apply NoFailure.cons rfl (by decide) (by decide)
    trivial

end NetDefender.Stream
