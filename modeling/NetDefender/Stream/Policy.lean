import NetDefender.Stream.Order

/-!
# New data is favored

Conflicting segments under the policies that favor new data.  The byte delivered
at a position should be the one of the latest segment that covers the position
and arrived before the position was appended.  The overlap walk knows no case for
a new segment that starts at or after the start of a queued one and stops before
its end: it is queued behind the old one, whose bytes are delivered.  In a run
without such an insertion the law holds.
-/

namespace NetDefender.Stream

open Serial Span

/-! ## The law -/

/-- The insertion of a segment, with every allocation granted. -/
def Incoming.insertion (segment : Incoming) : Op :=
  .insert segment.seq (some segment.payload) segment.payloadLen .ok

/-- The insertions of a run, each with the number of positions that were
appended before it. -/
def history (config : StreamConfig) :
    Reassembly → List Incoming → List (Nat × Incoming)
  | _, [] => []
  | st, segment :: segments =>
      (st.sb.dataLen.toNat, segment) ::
        match segment.insertion.run config st with
        | .ok next => history config next segments
        | .error _ => []

/-- The byte that a segment carries for a position of the stream. -/
def Incoming.carried (initialSeq : BitVec 32) (segment : Incoming)
    (position : Nat) : Option UInt8 :=
  let index := offset segment.seq (initialSeq + BitVec.ofNat 32 position)
  if index < segment.payloadLen.toNat then segment.payload[index]? else none

/-- The byte of the latest segment that covers a position and was inserted before
the position was appended. -/
def latest (initialSeq : BitVec 32) (inserted : List (Nat × Incoming))
    (position : Nat) : Option UInt8 :=
  (inserted.filterMap fun (appended, segment) =>
    if appended ≤ position then segment.carried initialSeq position
    else none).getLast?

/-- A property of the state before each insertion of a run. -/
def EachInsertion (config : StreamConfig)
    (property : StreamBuffer → Incoming → Prop) : Reassembly → List Incoming → Prop
  | _, [] => True
  | st, segment :: segments =>
      property st.sb segment ∧
        ∀ next, segment.insertion.run config st = .ok next →
          EachInsertion config property next segments

/-- The buffer has room for a segment that is appended, and the queue for one
that is queued. -/
structure Incoming.HasRoom (config : StreamConfig) (sb : StreamBuffer)
    (segment : Incoming) : Prop where
  window : ¬segment.BeforeBase sb → (segment.fromBase sb).seq = sb.nextSeq →
    ¬(segment.fromBase sb).Overflows sb
  queue : ¬segment.BeforeBase sb → (segment.fromBase sb).seq ≠ sb.nextSeq →
    ((segment.fromBase sb).pastWindow sb).payloadLen ≠ 0 →
    sb.segCount < config.maxSegments

instance (config : StreamConfig) (sb : StreamBuffer) (segment : Incoming) :
    Decidable (segment.HasRoom config sb) :=
  decidable_of_iff
    ((¬segment.BeforeBase sb → (segment.fromBase sb).seq = sb.nextSeq →
        ¬(segment.fromBase sb).Overflows sb) ∧
      (¬segment.BeforeBase sb → (segment.fromBase sb).seq ≠ sb.nextSeq →
        ((segment.fromBase sb).pastWindow sb).payloadLen ≠ 0 →
        sb.segCount < config.maxSegments))
    ⟨fun ⟨window, queue⟩ => ⟨window, queue⟩, fun ⟨window, queue⟩ => ⟨window, queue⟩⟩

/-- What is queued of the segment starts at or after the start of a queued one
and stops before its end. -/
structure Incoming.Shadowed (sb : StreamBuffer) (segment : Incoming) : Prop where
  live : ¬segment.BeforeBase sb
  other : (segment.fromBase sb).seq ≠ sb.nextSeq
  nonempty : ((segment.fromBase sb).pastWindow sb).payloadLen ≠ 0
  inside : ∃ curr ∈ sb.segList,
    0 ≤ seqCompare ((segment.fromBase sb).pastWindow sb).seq curr.seq ∧
      seqCompare ((segment.fromBase sb).pastWindow sb).endSeq curr.endSeq < 0

instance (sb : StreamBuffer) (segment : Incoming) :
    Decidable (segment.Shadowed sb) :=
  decidable_of_iff
    (¬segment.BeforeBase sb ∧ (segment.fromBase sb).seq ≠ sb.nextSeq ∧
      ((segment.fromBase sb).pastWindow sb).payloadLen ≠ 0 ∧
      ∃ curr ∈ sb.segList,
        0 ≤ seqCompare ((segment.fromBase sb).pastWindow sb).seq curr.seq ∧
          seqCompare ((segment.fromBase sb).pastWindow sb).endSeq curr.endSeq < 0)
    ⟨fun ⟨live, other, nonempty, inside⟩ => ⟨live, other, nonempty, inside⟩,
      fun ⟨live, other, nonempty, inside⟩ => ⟨live, other, nonempty, inside⟩⟩

/-! ## The byte map of the latest segments -/

section Latest

variable {initialSeq seq : BitVec 32} {fallback : UInt8} {appended : Nat}
variable {past : List (Nat × Incoming)} {segment : Incoming}
variable {B : BitVec 32 → UInt8}

theorem latest_record (position : Nat) :
    latest initialSeq (past ++ [(appended, segment)]) position =
      if appended ≤ position then
        (segment.carried initialSeq position).or (latest initialSeq past position)
      else latest initialSeq past position := by
  rw [latest, latest, List.filterMap_append, List.getLast?_append]
  split
  next early =>
    rw [List.filterMap_cons, List.filterMap_nil]
    simp only [if_pos early]
    cases segment.carried initialSeq position <;> rfl
  next late =>
    rw [List.filterMap_cons, List.filterMap_nil]
    simp only [if_neg late]
    rfl

/-- The latest byte at each sequence number; positions that no segment covers
hold `fallback`. -/
def latestByte (initialSeq : BitVec 32) (fallback : UInt8)
    (past : List (Nat × Incoming)) (seq : BitVec 32) : UInt8 :=
  (latest initialSeq past (offset initialSeq seq)).getD fallback

/-- A byte map with the bytes of a segment laid over it. -/
def Incoming.overlay (segment : Incoming) (B : BitVec 32 → UInt8)
    (seq : BitVec 32) : UInt8 :=
  if offset segment.seq seq < segment.payloadLen.toNat then
    segment.payload.getD (offset segment.seq seq) 0
  else B seq

theorem Incoming.overlay_agrees
    (filled : segment.payloadLen.toNat ≤ segment.payload.length) :
    segment.Agrees (segment.overlay B) := by
  intro index small
  have bound := segment.payloadLen.isLt
  have position : offset segment.seq (segment.seq + BitVec.ofNat 32 index) = index :=
    offset_self_add (by omega)
  rw [Incoming.overlay, position, if_pos small, List.getD_eq_getElem?_getD,
    List.getElem?_eq_getElem (by omega), Option.getD_some]

theorem Incoming.overlay_outside
    (outside : ¬offset segment.seq seq < segment.payloadLen.toNat) :
    segment.overlay B seq = B seq := by
  rw [Incoming.overlay, if_neg outside]

/-- What was appended before an insertion keeps its byte. -/
theorem latestByte_appended (old : offset initialSeq seq < appended) :
    latestByte initialSeq fallback (past ++ [(appended, segment)]) seq =
      latestByte initialSeq fallback past seq := by
  rw [latestByte, latest_record, if_neg (not_le.mpr old), latestByte]

/-- Past the window an insertion lays its bytes over the others. -/
theorem latestByte_ahead
    (filled : segment.payloadLen.toNat ≤ segment.payload.length)
    (ahead : appended ≤ offset initialSeq seq) :
    latestByte initialSeq fallback (past ++ [(appended, segment)]) seq =
      segment.overlay (latestByte initialSeq fallback past) seq := by
  rw [latestByte, latest_record, if_pos ahead, Incoming.carried, add_offset,
    Incoming.overlay]
  split
  next inside =>
    rw [List.getElem?_eq_getElem (by omega), List.getD_eq_getElem?_getD,
      List.getElem?_eq_getElem (by omega)]
    rfl
  next => rfl

end Latest

/-! ## Where a segment lies -/

namespace Incoming

variable {sb : StreamBuffer} {segment : Incoming} {seq : BitVec 32}

/-- The start of a segment that is trimmed to `base_seq` lies within its length
before `base_seq`. -/
theorem offset_base_lt (live : ¬segment.BeforeBase sb)
    (before : seqCompare segment.seq sb.baseSeq < 0) :
    offset segment.seq sb.baseSeq < segment.payloadLen.toNat := by
  by_contra outside
  apply live
  refine Or.inr ⟨before, ?_⟩
  have lengthBound := segment.payloadLen.isLt
  rw [ge_iff_le, BitVec.le_def, BitVec.toNat_setWidth, toNat_sub_eq_offset]
  omega

/-- The span of a segment that is trimmed to `base_seq`. -/
theorem span_skip_base (live : ¬segment.BeforeBase sb)
    (before : seqCompare segment.seq sb.baseSeq < 0) :
    (segment.skip sb.baseSeq (sb.baseSeq - segment.seq)).toSegment.span sb.baseSeq =
      ⟨0, segment.payloadLen.toNat - offset segment.seq sb.baseSeq⟩ := by
  have inside := offset_base_lt live before
  have lengthBound := segment.payloadLen.isLt
  apply TcpSegment.span_eq (offset_self _)
  rw [toSegment, skip]
  dsimp only
  rw [BitVec.toNat_sub, BitVec.toNat_setWidth, toNat_sub_eq_offset]
  omega

theorem fromBase_proper (valid : segment.payloadLen ≠ 0)
    (live : ¬segment.BeforeBase sb) :
    ((segment.fromBase sb).toSegment.span sb.baseSeq).Proper := by
  rw [fromBase]
  split
  next before =>
    have inside := offset_base_lt live before
    rw [span_skip_base live before, Proper]
    dsimp only
    omega
  next => exact TcpSegment.span_proper valid

/-- What a segment covers past `base_seq`, its trimmed form covers. -/
theorem fromBase_covers (live : ¬segment.BeforeBase sb)
    (near : offset sb.baseSeq seq < 2 ^ 31)
    (inside : offset segment.seq seq < segment.payloadLen.toNat) :
    ((segment.fromBase sb).toSegment.span sb.baseSeq).Has
      (offset sb.baseSeq seq) := by
  have lengthBound := segment.payloadLen.isLt
  rw [offset_rebase sb.baseSeq segment.seq] at inside
  rw [fromBase]
  split
  next before =>
    rw [span_skip_base live before, Has]
    rw [seqCompare_neg_iff] at before
    rw [offset_swap]
    have bound := offset_lt sb.baseSeq segment.seq
    dsimp only
    omega
  next after =>
    have started := not_lt.mp after
    rw [seqCompare_nonneg_iff] at started
    rw [Has, TcpSegment.span, toSegment]
    dsimp only
    omega

/-- A segment wholly before `base_seq` covers nothing past it, if both lie in one
half of the sequence space. -/
theorem beforeBase_outside {low : BitVec 32} (baseNear : offset low sb.baseSeq < 2 ^ 31)
    (segmentNear : offset low segment.seq + segment.payloadLen.toNat < 2 ^ 31)
    (before : segment.BeforeBase sb) (near : offset sb.baseSeq seq < 2 ^ 31) :
    ¬offset segment.seq seq < segment.payloadLen.toNat := by
  have position : offset low seq = offset low sb.baseSeq + offset sb.baseSeq seq := by
    rw [← offset_add_ofNat_of_lt (by omega), add_offset]
  have stop : offset low segment.endSeq =
      offset low segment.seq + segment.payloadLen.toNat := by
    rw [endSeq, setWidth_eq_ofNat, offset_add_ofNat_of_lt (by omega)]
  rw [offset_rebase low segment.seq, position]
  rcases before with old | ⟨started, skipped⟩
  · rw [seqCompare_nonpos_of_near (by omega) baseNear, stop] at old
    omega
  · rw [seqCompare_neg_of_near (by omega) baseNear] at started
    rw [ge_iff_le, BitVec.le_def, BitVec.toNat_setWidth, toNat_sub_eq_offset,
      offset_rebase low segment.seq] at skipped
    omega

end Incoming

/-! ## Changing the byte map -/

section Congr

variable {B other : BitVec 32 → UInt8} {base : BitVec 32}

/-- Only the bytes inside the window matter to it. -/
theorem carries_congr_window {memory : List UInt8} {length : BitVec 32}
    (carries : Carries B base memory length.toNat)
    (agree : ∀ seq, offset base seq < length.toNat → other seq = B seq) :
    Carries other base memory length.toNat := by
  apply carries.congr
  intro index small
  have bound := length.isLt
  apply agree
  rw [offset_self_add (by omega)]
  exact small

/-- Only the bytes inside a segment matter to it. -/
theorem TcpSegment.Agrees.congr_near {segment : TcpSegment}
    (agrees : segment.Agrees B) (near : (segment.span base).hi < 2 ^ 31)
    (agree : ∀ seq, (segment.span base).Has (offset base seq) →
      other seq = B seq) : segment.Agrees other := by
  apply Carries.congr agrees
  intro index small
  apply agree
  rw [TcpSegment.span] at near ⊢
  dsimp only at near
  rw [offset_add_ofNat_of_lt (by omega), Has]
  dsimp only
  omega

end Congr

/-! ## The invariant -/

/-- The state during a drain: the window and every segment that can still be
delivered agree with the byte map. -/
structure Favored (B : BitVec 32 → UInt8) (sb : StreamBuffer) : Prop where
  favors : sb.osPolicy.FavorsNew
  live : sb.data ≠ none
  next : sb.nextSeq = sb.baseSeq + sb.dataLen
  windowNear : sb.dataLen.toNat < 2 ^ 31
  ordered : Ordered sb.baseSeq sb.segList
  data : Carries B sb.baseSeq sb.memory sb.dataLen.toNat
  queue : ∀ segment ∈ sb.segList,
    sb.dataLen.toNat ≤ (segment.span sb.baseSeq).lo → segment.Agrees B

/-- The state between two calls. -/
structure FavoredAhead (B : BitVec 32 → UInt8) (sb : StreamBuffer) : Prop
    extends Favored B sb where
  ahead : ∀ segment ∈ sb.segList, sb.dataLen.toNat ≤ (segment.span sb.baseSeq).lo

namespace Favored

variable {B : BitVec 32 → UInt8} {sb after : StreamBuffer}

theorem offset_next (favored : Favored B sb) :
    offset sb.baseSeq sb.nextSeq = sb.dataLen.toNat := by
  rw [favored.next, offset, add_sub_cancel_left]

theorem of_sameContent (favored : Favored B sb) (same : SameContent sb after) :
    Favored B after where
  favors := by
    rw [same.osPolicy]
    exact favored.favors
  live := by
    rw [same.data]
    exact favored.live
  next := by
    rw [same.nextSeq, same.baseSeq, same.dataLen]
    exact favored.next
  windowNear := by
    rw [same.dataLen]
    exact favored.windowNear
  ordered := by
    rw [same.baseSeq, same.segList]
    exact favored.ordered
  data := by
    rw [StreamBuffer.memory, same.data, same.baseSeq, same.dataLen]
    exact favored.data
  queue := by
    rw [same.segList, same.dataLen, same.baseSeq]
    exact favored.queue

/-- Another byte map that agrees with the first near `base_seq`. -/
theorem congr (favored : Favored B sb) {other : BitVec 32 → UInt8}
    (agree : ∀ seq, offset sb.baseSeq seq < 2 ^ 31 → other seq = B seq) :
    Favored other sb where
  favors := favored.favors
  live := favored.live
  next := favored.next
  windowNear := favored.windowNear
  ordered := favored.ordered
  data := by
    apply carries_congr_window favored.data
    intro seq inside
    exact agree seq (lt_trans inside favored.windowNear)
  queue := by
    intro segment member ahead
    apply (favored.queue segment member ahead).congr_near
      (favored.ordered.near segment member)
    intro seq inside
    exact agree seq (lt_trans inside.2 (favored.ordered.near segment member))

/-- Appending a segment, with a byte map that may differ past the window. -/
theorem append (favored : Favored B sb) {other : BitVec 32 → UInt8}
    {payload : List UInt8} {payloadLen : BitVec 16}
    (near : sb.dataLen.toNat + payloadLen.toNat < 2 ^ 31)
    (window : ∀ seq, offset sb.baseSeq seq < sb.dataLen.toNat → other seq = B seq)
    (carries : Carries other sb.nextSeq payload payloadLen.toNat)
    (queue : ∀ segment ∈ sb.segList, sb.dataLen.toNat + payloadLen.toNat ≤
      (segment.span sb.baseSeq).lo → segment.Agrees other) :
    Favored other (sb.append payload payloadLen) := by
  have length : (sb.append payload payloadLen).dataLen.toNat =
      sb.dataLen.toNat + payloadLen.toNat := by
    rw [StreamBuffer.append, BitVec.toNat_add, BitVec.toNat_setWidth]
    omega
  constructor
  · exact favored.favors
  · exact StreamBuffer.append_live favored.live payload payloadLen
  · exact StreamBuffer.append_next favored.next payload payloadLen
  · rw [length]
    exact near
  · exact favored.ordered
  · apply sb.append_carries favored.live favored.next _ carries
    exact carries_congr_window favored.data window
  · rw [length]
    exact queue

theorem unlinkHead (favored : Favored B sb) {seg : TcpSegment}
    {rest : List TcpSegment} (list : sb.segList = seg :: rest) :
    Favored B (sb.unlinkHead rest) where
  favors := favored.favors
  live := favored.live
  next := favored.next
  windowNear := favored.windowNear
  ordered := by
    have ordered := favored.ordered
    rw [list] at ordered
    exact ordered.tail
  data := favored.data
  queue := by
    intro segment member
    apply favored.queue
    rw [list]
    exact List.mem_cons_of_mem _ member

theorem drainStep (favored : Favored B sb) (step : DrainStep sb after) :
    Favored B after := by
  cases step with
  | stale list other behind => exact favored.unlinkHead list
  | @deliver seg rest list next fits =>
      have member : seg ∈ sb.segList := by
        rw [list]
        exact List.mem_cons_self
      have start : (seg.span sb.baseSeq).lo = sb.dataLen.toNat := by
        rw [← TcpSegment.offset_seq, next, favored.offset_next]
      have near := favored.ordered.near seg member
      have agrees := favored.queue seg member start.ge
      rw [TcpSegment.Agrees, next] at agrees
      have stop : (seg.span sb.baseSeq).hi =
          (seg.span sb.baseSeq).lo + seg.payloadLen.toNat := rfl
      have appended : Favored B (sb.append seg.payload seg.payloadLen) := by
        apply favored.append (by omega) (fun _ _ => rfl) agrees
        intro segment inQueue ahead
        exact favored.queue segment inQueue (by omega)
      exact appended.unlinkHead list

theorem drain (favored : Favored B sb) (drained : Drained sb after) :
    FavoredAhead B after := by
  obtain ⟨last, lastFavored, halted, same⟩ :=
    drained.invariant favored Favored.drainStep
  refine ⟨lastFavored.of_sameContent same, ?_⟩
  rw [same.segList, same.dataLen, same.baseSeq]
  exact lastFavored.ordered.ahead_of_halted lastFavored.offset_next
    lastFavored.windowNear halted

end Favored

/-! ## One insertion -/

/-- The byte map `after` is `before` with the segment laid over it past the
window. -/
structure Overlaid (sb : StreamBuffer) (segment : Incoming)
    (before after : BitVec 32 → UInt8) : Prop where
  appended : ∀ seq, offset sb.baseSeq seq < sb.dataLen.toNat →
    after seq = before seq
  ahead : ∀ seq, sb.dataLen.toNat ≤ offset sb.baseSeq seq →
    after seq = segment.overlay before seq

namespace Overlaid

variable {sb : StreamBuffer} {segment : Incoming}
variable {before after : BitVec 32 → UInt8} {seq : BitVec 32}

theorem outside (overlaid : Overlaid sb segment before after)
    (outside : sb.dataLen.toNat ≤ offset sb.baseSeq seq →
      ¬offset segment.seq seq < segment.payloadLen.toNat) :
    after seq = before seq := by
  by_cases old : offset sb.baseSeq seq < sb.dataLen.toNat
  · exact overlaid.appended seq old
  · rw [overlaid.ahead seq (not_lt.mp old),
      Incoming.overlay_outside (outside (not_lt.mp old))]

/-- Outside of what is left of the segment past the window nothing changes. -/
theorem unplaced (overlaid : Overlaid sb segment before after)
    (live : ¬segment.BeforeBase sb) (near : offset sb.baseSeq seq < 2 ^ 31)
    (notPlaced : ¬(past sb.dataLen.toNat
      ((segment.fromBase sb).toSegment.span sb.baseSeq)).Has
        (offset sb.baseSeq seq)) :
    after seq = before seq := by
  apply overlaid.outside
  intro beyond inside
  have covered := Incoming.fromBase_covers live near inside
  apply notPlaced
  simp only [Has, past, sup_le_iff] at covered ⊢
  exact ⟨⟨beyond, covered.1⟩, covered.2⟩

/-- What is left of the segment past the window agrees with the new map. -/
theorem agrees (overlaid : Overlaid sb segment before after) {kept : Incoming}
    (kept_agrees : kept.Agrees (segment.overlay before))
    (near : (kept.toSegment.span sb.baseSeq).hi < 2 ^ 31)
    (start : sb.dataLen.toNat ≤ (kept.toSegment.span sb.baseSeq).lo) :
    kept.Agrees after := by
  apply Carries.congr kept_agrees
  intro index small
  apply overlaid.ahead
  simp only [TcpSegment.span, Incoming.toSegment] at near start
  rw [offset_add_ofNat_of_lt (by omega)]
  omega

end Overlaid

/-- An insertion that is ignored for no lack of room covers nothing past the
window. -/
theorem Ignored.outside {config : StreamConfig} {sb : StreamBuffer}
    {segment : Incoming} {B : BitVec 32 → UInt8} {low seq : BitVec 32}
    (ignored : Ignored config .ok sb segment) (favored : Favored B sb)
    (baseNear : offset low sb.baseSeq < 2 ^ 31)
    (segmentNear : offset low segment.seq + segment.payloadLen.toNat < 2 ^ 31)
    (room : segment.HasRoom config sb) (near : offset sb.baseSeq seq < 2 ^ 31)
    (beyond : sb.dataLen.toNat ≤ offset sb.baseSeq seq) :
    ¬offset segment.seq seq < segment.payloadLen.toNat := by
  cases ignored with
  | invalid reason =>
      rcases reason with empty | missing
      · rw [empty]
        exact Nat.not_lt_zero _
      · exact absurd missing favored.live
  | consumed before =>
      exact Incoming.beforeBase_outside baseNear segmentNear before near
  | full live next full => exact absurd full (room.window live next)
  | known live other empty =>
      intro inside
      have covered := Incoming.fromBase_covers live near inside
      have valid : segment.payloadLen ≠ 0 := by
        intro zero
        rw [zero] at inside
        exact Nat.not_lt_zero _ inside
      rcases Incoming.pastWindow_placed favored.offset_next favored.windowNear rfl
        (Incoming.fromBase_proper valid live) (Incoming.fromBase_near live)
        with ⟨_, old⟩ | ⟨nonempty, _⟩
      · exact absurd (lt_of_lt_of_le covered.2 old) (not_lt.mpr beyond)
      · exact nonempty empty
  | refused live other nonempty reason =>
      rcases reason with failed | failed | full
      · cases failed
      · cases failed
      · exact absurd (room.queue live other nonempty) (BitVec.not_lt.mpr full)

namespace FavoredAhead

variable {config : StreamConfig} {sb middle after : StreamBuffer}
variable {segment : Incoming} {B B' : BitVec 32 → UInt8} {low : BitVec 32}

theorem of_sameContent (favored : FavoredAhead B sb) (same : SameContent sb after) :
    FavoredAhead B after := by
  refine ⟨favored.toFavored.of_sameContent same, ?_⟩
  rw [same.segList, same.dataLen, same.baseSeq]
  exact favored.ahead

/-- What is queued of a segment lies past the window. -/
theorem queued_placed (favored : FavoredAhead B sb) (valid : segment.payloadLen ≠ 0)
    (live : ¬segment.BeforeBase sb)
    (nonempty : ((segment.fromBase sb).pastWindow sb).payloadLen ≠ 0) :
    ((segment.fromBase sb).pastWindow sb).toSegment.span sb.baseSeq =
      past sb.dataLen.toNat ((segment.fromBase sb).toSegment.span sb.baseSeq) := by
  rcases Incoming.pastWindow_placed favored.offset_next favored.windowNear rfl
    (Incoming.fromBase_proper valid live) (Incoming.fromBase_near live)
    with ⟨empty, _⟩ | ⟨_, _, placed⟩
  · exact absurd empty nonempty
  · exact placed

/-- In terms of spans, a segment that is not shadowed. -/
theorem not_inside_of_not_shadowed (favored : FavoredAhead B sb)
    (live : ¬segment.BeforeBase sb)
    (other : (segment.fromBase sb).seq ≠ sb.nextSeq)
    (nonempty : ((segment.fromBase sb).pastWindow sb).payloadLen ≠ 0)
    (near : (((segment.fromBase sb).pastWindow sb).toSegment.span
      sb.baseSeq).hi < 2 ^ 31)
    (separate : ¬segment.Shadowed sb) {curr : TcpSegment}
    (member : curr ∈ sb.segList) :
    ¬((curr.span sb.baseSeq).lo ≤
        (((segment.fromBase sb).pastWindow sb).toSegment.span sb.baseSeq).lo ∧
      (((segment.fromBase sb).pastWindow sb).toSegment.span sb.baseSeq).hi <
        (curr.span sb.baseSeq).hi) := by
  rintro ⟨starts, stops⟩
  have currNear := favored.ordered.near curr member
  have stop := TcpSegment.offset_endSeq_of_near near
  have currStop := TcpSegment.offset_endSeq_of_near currNear
  refine separate ⟨live, other, nonempty, curr, member, ?_, ?_⟩
  · exact (seqCompare_nonneg_of_near
      (lt_of_le_of_lt (TcpSegment.lo_le_hi _ _) near)
      (lt_of_le_of_lt (TcpSegment.lo_le_hi _ _) currNear)).mpr starts
  · rw [← stop, ← currStop] at stops
    exact (seqCompare_neg_of_near (stop ▸ near) (currStop ▸ currNear)).mpr stops

/-- What the overlap walk leaves of the queue agrees with the new map. -/
theorem cut_agrees (favored : FavoredAhead B sb)
    (overlaid : Overlaid sb segment B B') (live : ¬segment.BeforeBase sb)
    {newSeg kept : TcpSegment} (near : (newSeg.span sb.baseSeq).hi < 2 ^ 31)
    (placed : newSeg.span sb.baseSeq =
      past sb.dataLen.toNat ((segment.fromBase sb).toSegment.span sb.baseSeq))
    (separate : ∀ curr ∈ sb.segList,
      ¬((curr.span sb.baseSeq).lo ≤ (newSeg.span sb.baseSeq).lo ∧
        (newSeg.span sb.baseSeq).hi < (curr.span sb.baseSeq).hi))
    (member : kept ∈ sb.segList.filterMap (cutBy newSeg)) : kept.Agrees B' := by
  obtain ⟨curr, inQueue, result⟩ := List.mem_filterMap.mp member
  have currNear := favored.ordered.near curr inQueue
  have cutSpan := cutBy_span near currNear
  rw [result, Option.map_some] at cutSpan
  have keptNear : (kept.span sb.baseSeq).hi < 2 ^ 31 :=
    lt_of_le_of_lt (cut_bounds cutSpan.symm).2 currNear
  have disjoint := cut_disjoint cutSpan.symm (separate curr inQueue)
  have agrees := cutBy_agrees
    (favored.queue curr inQueue (favored.ahead curr inQueue)) result
  apply agrees.congr_near keptNear
  intro seq inside
  apply overlaid.unplaced live (lt_trans inside.2 keptNear)
  rw [← placed]
  simp only [Has] at inside ⊢
  omega

/-- The queue after an insertion that is not shadowed agrees with the new map. -/
theorem enqueue (favored : FavoredAhead B sb)
    (overlaid : Overlaid sb segment B B')
    (filled : segment.payloadLen.toNat ≤ segment.payload.length)
    (valid : segment.payloadLen ≠ 0) (live : ¬segment.BeforeBase sb)
    (other : (segment.fromBase sb).seq ≠ sb.nextSeq)
    (nonempty : ((segment.fromBase sb).pastWindow sb).payloadLen ≠ 0)
    (separate : ¬segment.Shadowed sb) {granted : Nat → Bool}
    {front back : List TcpSegment}
    (enqueued : Enqueued granted ((segment.fromBase sb).pastWindow sb).toSegment
      sb middle front back) : Favored B' middle := by
  have placed := favored.queued_placed valid live nonempty
  have near : (((segment.fromBase sb).pastWindow sb).toSegment.span
      sb.baseSeq).hi < 2 ^ 31 := by
    rw [placed]
    exact Incoming.fromBase_near live
  have start : sb.dataLen.toNat ≤ (((segment.fromBase sb).pastWindow
      sb).toSegment.span sb.baseSeq).lo := by
    rw [placed]
    exact le_max_left _ _
  have newAgrees : ((segment.fromBase sb).pastWindow sb).toSegment.Agrees B' := by
    apply Incoming.toSegment_agrees
    apply overlaid.agrees _ near start
    exact Incoming.pastWindow_agrees
      (Incoming.fromBase_agrees (Incoming.overlay_agrees filled) live)
  have window := enqueued.window
  constructor
  · rw [window.osPolicy]
    exact favored.favors
  · rw [window.data]
    exact favored.live
  · rw [window.nextSeq, window.baseSeq, window.dataLen]
    exact favored.next
  · rw [window.dataLen]
    exact favored.windowNear
  · rw [window.baseSeq]
    exact favored.ordered.enqueue near enqueued
  · rw [StreamBuffer.memory, window.data, window.baseSeq, window.dataLen]
    exact carries_congr_window favored.data overlaid.appended
  · intro queued member _
    apply enqueued.mergeSteps.agrees _ queued member
    intro curr inQueue
    rw [List.mem_append, List.mem_cons, or_left_comm, ← List.mem_append,
      ← enqueued.split] at inQueue
    rcases inQueue with rfl | inQueue
    · exact newAgrees
    · exact favored.cut_agrees overlaid live near placed
        (fun _ => favored.not_inside_of_not_shadowed live other nonempty near separate)
        inQueue

/-- The window after a segment that continues it agrees with the new map. -/
theorem appendInOrder (favored : FavoredAhead B sb)
    (overlaid : Overlaid sb segment B B')
    (filled : segment.payloadLen.toNat ≤ segment.payload.length)
    (live : ¬segment.BeforeBase sb)
    (next : (segment.fromBase sb).seq = sb.nextSeq) :
    Favored B' (sb.append (segment.fromBase sb).payload
      (segment.fromBase sb).payloadLen) := by
  have near := Incoming.fromBase_near live
  have start : ((segment.fromBase sb).toSegment.span sb.baseSeq).lo =
      sb.dataLen.toNat := by
    rw [← favored.offset_next, ← next]
    rfl
  have stop : ((segment.fromBase sb).toSegment.span sb.baseSeq).hi =
      ((segment.fromBase sb).toSegment.span sb.baseSeq).lo +
        (segment.fromBase sb).payloadLen.toNat := rfl
  have agrees : (segment.fromBase sb).Agrees B' :=
    overlaid.agrees
      (Incoming.fromBase_agrees (Incoming.overlay_agrees filled) live) near start.ge
  rw [Incoming.Agrees, next] at agrees
  apply favored.append (by omega) overlaid.appended agrees
  intro queued member ahead
  have queuedNear := favored.ordered.near queued member
  apply (favored.queue queued member (favored.ahead queued member)).congr_near
    queuedNear
  intro seq inside
  apply overlaid.unplaced live (lt_trans inside.2 queuedNear)
  simp only [Has, past] at inside ⊢
  omega

theorem insertEffect (favored : FavoredAhead B sb)
    (overlaid : Overlaid sb segment B B')
    (filled : segment.payloadLen.toNat ≤ segment.payload.length)
    (baseNear : offset low sb.baseSeq < 2 ^ 31)
    (segmentNear : offset low segment.seq + segment.payloadLen.toNat < 2 ^ 31)
    (room : segment.HasRoom config sb) (separate : ¬segment.Shadowed sb)
    (effect : InsertEffect config .ok sb segment after) : FavoredAhead B' after := by
  cases effect with
  | ignored reason same =>
      have unchanged : Favored B' sb := by
        apply favored.congr
        intro seq near
        apply overlaid.outside
        exact reason.outside favored.toFavored baseNear segmentNear room near
      exact of_sameContent ⟨unchanged, favored.ahead⟩ same
  | inOrder valid live next fits drained =>
      exact (favored.appendInOrder overlaid filled live next).drain drained
  | queued middle front back valid live other nonempty queueRoom enqueued drained =>
      exact (favored.enqueue overlaid filled valid live other nonempty separate
        enqueued).drain drained

end FavoredAhead

/-! ## Runs -/

section Runs

variable {config : StreamConfig} {initialSeq low : BitVec 32} {fallback : UInt8}
variable {segment : Incoming} {past : List (Nat × Incoming)} {st next : Reassembly}

theorem history_cons (step : segment.insertion.run config st = .ok next)
    (segments : List Incoming) :
    history config st (segment :: segments) =
      (st.sb.dataLen.toNat, segment) :: history config next segments := by
  rw [history, step]

theorem FavoredAhead.run
    (favored : FavoredAhead (latestByte initialSeq fallback past) st.sb)
    (base : st.sb.baseSeq = initialSeq)
    (filled : segment.payloadLen.toNat ≤ segment.payload.length)
    (baseNear : offset low initialSeq < 2 ^ 31)
    (segmentNear : offset low segment.seq + segment.payloadLen.toNat < 2 ^ 31)
    (room : segment.HasRoom config st.sb) (separate : ¬segment.Shadowed st.sb) :
    ∃ next, segment.insertion.run config st = .ok next ∧
      next.sb.baseSeq = initialSeq ∧
      FavoredAhead (latestByte initialSeq fallback
        (past ++ [(st.sb.dataLen.toNat, segment)])) next.sb := by
  obtain ⟨ret, next, equation, effect⟩ := streamBufferInsertSegment_effect config
    .ok st segment favored.favors
  have overlaid : Overlaid st.sb segment (latestByte initialSeq fallback past)
      (latestByte initialSeq fallback
        (past ++ [(st.sb.dataLen.toNat, segment)])) := by
    constructor
    · intro seq old
      rw [base] at old
      exact latestByte_appended old
    · intro seq ahead
      rw [base] at ahead
      exact latestByte_ahead filled ahead
  refine ⟨next, ?_, effect.baseSeq.trans base, ?_⟩
  · rw [Incoming.insertion, Op.run, equation]
    rfl
  · rw [← base] at baseNear
    exact favored.insertEffect overlaid filled baseNear segmentNear room separate effect

theorem FavoredAhead.runOps (segments : List Incoming) :
    ∀ {st : Reassembly} {past : List (Nat × Incoming)},
      FavoredAhead (latestByte initialSeq fallback past) st.sb →
      st.sb.baseSeq = initialSeq → offset low initialSeq < 2 ^ 31 →
      (∀ segment ∈ segments,
        offset low segment.seq + segment.payloadLen.toNat < 2 ^ 31) →
      (∀ segment ∈ segments,
        segment.payloadLen.toNat ≤ segment.payload.length) →
      EachInsertion config (fun sb segment => segment.HasRoom config sb) st
        segments →
      EachInsertion config (fun sb segment => ¬segment.Shadowed sb) st segments →
      ∃ final, runOps config st (segments.map Incoming.insertion) = .ok final ∧
        final.sb.baseSeq = initialSeq ∧
        FavoredAhead (latestByte initialSeq fallback
          (past ++ history config st segments)) final.sb := by
  induction segments with
  | nil =>
      intro st past favored base _ _ _ _ _
      refine ⟨st, rfl, base, ?_⟩
      rw [history, List.append_nil]
      exact favored
  | cons segment segments inductionHypothesis =>
      intro st past favored base baseNear near filled room separate
      obtain ⟨next, step, nextBase, nextFavored⟩ := favored.run base
        (filled segment List.mem_cons_self) baseNear
        (near segment List.mem_cons_self) room.1 separate.1
      obtain ⟨final, rest, finalBase, finalFavored⟩ := inductionHypothesis
        nextFavored nextBase baseNear
        (fun other member => near other (List.mem_cons_of_mem _ member))
        (fun other member => filled other (List.mem_cons_of_mem _ member))
        (room.2 next step) (separate.2 next step)
      refine ⟨final, ?_, finalBase, ?_⟩
      · rw [List.map_cons, NetDefender.Stream.runOps, List.foldlM_cons, step]
        exact rest
      · rw [history_cons step]
        rw [List.append_assoc, List.singleton_append] at finalFavored
        exact finalFavored

end Runs

theorem streamBufferInit_favored (config : StreamConfig) (stats : ReassemblyStats)
    (initialSeq : BitVec 32) (policy : OsPolicy) (favors : policy.FavorsNew)
    (B : BitVec 32 → UInt8) :
    FavoredAhead B (streamBufferInit config stats initialSeq policy true).2.sb := by
  have consistent : Consistent B
      (streamBufferInit config stats initialSeq policy true).2.sb :=
    streamBufferInit_consistent config stats initialSeq policy favors
  refine ⟨⟨consistent.favors, consistent.live, consistent.next, ?_, ⟨?_, ?_⟩,
    consistent.data, fun segment member _ => consistent.queue segment member⟩, ?_⟩
  · exact Nat.two_pow_pos 31
  · intro segment member
    cases member
  · exact List.Pairwise.nil
  · intro segment member
    cases member

/-- Every delivered byte is the one of the latest segment that covers its
position and was inserted before the position was appended, if no insertion of
the run is shadowed by a queued segment. -/
theorem reassembly_favors_latest (config : StreamConfig) (stats : ReassemblyStats)
    (initialSeq low : BitVec 32) (policy : OsPolicy) (favors : policy.FavorsNew)
    (segments : List Incoming) (baseNear : offset low initialSeq < 2 ^ 31)
    (near : ∀ segment ∈ segments,
      offset low segment.seq + segment.payloadLen.toNat < 2 ^ 31)
    (filled : ∀ segment ∈ segments,
      segment.payloadLen.toNat ≤ segment.payload.length)
    (room : EachInsertion config (fun sb segment => segment.HasRoom config sb)
      (streamBufferInit config stats initialSeq policy true).2 segments)
    (separate : EachInsertion config (fun sb segment => ¬segment.Shadowed sb)
      (streamBufferInit config stats initialSeq policy true).2 segments) :
    let start := (streamBufferInit config stats initialSeq policy true).2
    ∃ final, runOps config start (segments.map Incoming.insertion) = .ok final ∧
      ∀ position < final.sb.dataLen.toNat, final.sb.memory[position]? =
        latest initialSeq (history config start segments) position := by
  intro start
  have delivered : ∀ fallback, ∃ final,
      runOps config start (segments.map Incoming.insertion) = .ok final ∧
        ∀ position < final.sb.dataLen.toNat, final.sb.memory[position]? =
          some ((latest initialSeq (history config start segments)
            position).getD fallback) := by
    intro fallback
    obtain ⟨final, run, base, favored⟩ := FavoredAhead.runOps segments
      (streamBufferInit_favored config stats initialSeq policy favors
        (latestByte initialSeq fallback [])) rfl baseNear near filled room separate
    refine ⟨final, run, ?_⟩
    intro position inside
    have bound := final.sb.dataLen.isLt
    have place : offset initialSeq (initialSeq + BitVec.ofNat 32 position) = position :=
      offset_self_add (by omega)
    have byte := favored.data position inside
    rw [base, latestByte, place, List.nil_append] at byte
    exact byte
  -- a byte that did not depend on the history would not differ with `fallback`
  obtain ⟨final, run, zeros⟩ := delivered 0
  obtain ⟨other, otherRun, ones⟩ := delivered 1
  rw [run] at otherRun
  cases otherRun
  refine ⟨final, run, ?_⟩
  intro position inside
  have zero := zeros position inside
  have one := ones position inside
  cases found : latest initialSeq (history config start segments) position with
  | none =>
      rw [found] at zero one
      rw [zero] at one
      cases one
  | some byte =>
      rw [zero, found]
      rfl

theorem EachInsertion.cons {config : StreamConfig}
    {property : StreamBuffer → Incoming → Prop} {st next : Reassembly}
    {segment : Incoming} {segments : List Incoming}
    (step : segment.insertion.run config st = .ok next)
    (first : property st.sb segment)
    (rest : EachInsertion config property next segments) :
    EachInsertion config property st (segment :: segments) := by
  refine ⟨first, ?_⟩
  intro other equation
  rw [step] at equation
  cases equation
  exact rest

/-- A retransmission with other bytes that covers the start of the queued
segment, then the segment that fills the gap. -/
theorem reassembly_favors_latest_conflict :
    let segments : List Incoming :=
      [⟨2, [1, 1, 1], 3⟩, ⟨1, [2, 2], 2⟩, ⟨0xFFFFFFFF, [3, 3], 2⟩]
    let start := (streamBufferInit .default {} 0xFFFFFFFF .linux true).2
    ∃ final, runOps .default start (segments.map Incoming.insertion) = .ok final ∧
      ∀ position < final.sb.dataLen.toNat, final.sb.memory[position]? =
        latest 0xFFFFFFFF (history .default start segments) position := by
  refine reassembly_favors_latest .default {} 0xFFFFFFFF 0xFFFFFFFF .linux
    (by decide) [⟨2, [1, 1, 1], 3⟩, ⟨1, [2, 2], 2⟩, ⟨0xFFFFFFFF, [3, 3], 2⟩]
    (by decide) (by decide) (by decide) ?_ ?_
  · apply EachInsertion.cons rfl
    · decide
    · apply EachInsertion.cons rfl
      · decide
      · apply EachInsertion.cons rfl
        · decide
        · trivial
  · apply EachInsertion.cons rfl
    · decide
    · apply EachInsertion.cons rfl
      · decide
      · apply EachInsertion.cons rfl
        · decide
        · trivial

/-- A new segment inside a queued one: the old bytes are delivered. -/
theorem reassembly_favors_old_inside :
    let segments : List Incoming :=
      [⟨10, List.replicate 10 0xAA, 10⟩, ⟨13, [0xBB, 0xBB], 2⟩,
        ⟨0, List.replicate 10 0, 10⟩]
    let start := (streamBufferInit .default {} 0 .linux true).2
    (∀ segment ∈ segments,
        offset 0 segment.seq + segment.payloadLen.toNat < 2 ^ 31) ∧
      (∀ segment ∈ segments, segment.payloadLen.toNat ≤ segment.payload.length) ∧
      EachInsertion .default (fun sb segment => segment.HasRoom .default sb) start
        segments ∧
      ∃ final, runOps .default start (segments.map Incoming.insertion) = .ok final ∧
        13 < final.sb.dataLen.toNat ∧ final.sb.memory[13]? = some 0xAA ∧
        latest 0 (history .default start segments) 13 = some 0xBB := by
  refine ⟨by decide, by decide, ?_, _, rfl, by decide, by decide, by decide⟩
  apply EachInsertion.cons rfl
  · decide
  · apply EachInsertion.cons rfl
    · decide
    · apply EachInsertion.cons rfl
      · decide
      · trivial

end NetDefender.Stream
