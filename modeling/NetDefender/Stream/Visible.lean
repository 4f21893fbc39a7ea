import NetDefender.Stream.Yielding

/-!
# The bytes that will be delivered

Of the queued segments that cover a sequence number the first one in the queue is the
one that will be delivered there: the others are dropped as already processed.  A queue
shows a byte map when that segment always carries the byte of the map.  The drain and the
merge pass keep what a queue shows.
-/

namespace NetDefender.Stream

open Serial Span

variable {B : BitVec 32 → UInt8} {base : BitVec 32} {seq : BitVec 32}

/-- The segment covers a sequence number. -/
def TcpSegment.reaches (seq : BitVec 32) (segment : TcpSegment) : Bool :=
  decide (offset segment.seq seq < segment.payloadLen.toNat)

/-- The first queued segment that covers `seq`, if there is one, carries the byte of the
map. -/
def Shows (B : BitVec 32 → UInt8) (queue : List TcpSegment) (seq : BitVec 32) : Prop :=
  ∀ segment, queue.find? (TcpSegment.reaches seq) = some segment →
    segment.payload[offset segment.seq seq]? = some (B seq)

theorem reaches_iff {segment : TcpSegment} (near : (segment.span base).hi < 2 ^ 31) :
    segment.reaches seq = true ↔ (segment.span base).Has (offset base seq) := by
  have bound := offset_lt base seq
  rw [TcpSegment.span] at near ⊢
  rw [TcpSegment.reaches, decide_eq_true_iff, offset_rebase base segment.seq, Has]
  dsimp only at near ⊢
  omega

theorem covered_of_find? {queue : List TcpSegment} {segment : TcpSegment}
    (near : ∀ curr ∈ queue, (curr.span base).hi < 2 ^ 31)
    (found : queue.find? (TcpSegment.reaches seq) = some segment) :
    Covered (queue.map (TcpSegment.span base)) (offset base seq) := by
  have member := List.mem_of_find?_eq_some found
  exact ⟨segment.span base, List.mem_map_of_mem member,
    (reaches_iff (near segment member)).mp (List.find?_some found)⟩

theorem shows_cons_of_reaches {segment : TcpSegment} {rest : List TcpSegment}
    (inside : segment.reaches seq = true) :
    Shows B (segment :: rest) seq ↔
      segment.payload[offset segment.seq seq]? = some (B seq) := by
  rw [Shows, List.find?_cons_of_pos inside]
  constructor
  · intro shown
    exact shown segment rfl
  · intro byte other same
    cases same
    exact byte

theorem shows_cons_of_not_reaches {segment : TcpSegment} {rest : List TcpSegment}
    (outside : ¬segment.reaches seq = true) :
    Shows B (segment :: rest) seq ↔ Shows B rest seq := by
  rw [Shows, List.find?_cons_of_neg outside, Shows]

/-- Nothing is shown where nothing is queued. -/
theorem shows_of_not_covered {queue : List TcpSegment}
    (near : ∀ curr ∈ queue, (curr.span base).hi < 2 ^ 31)
    (free : ¬Covered (queue.map (TcpSegment.span base)) (offset base seq)) :
    Shows B queue seq := by
  intro segment found
  exact absurd (covered_of_find? near found) free

/-- A segment that agrees with the map carries its bytes. -/
theorem TcpSegment.Agrees.byte {segment : TcpSegment} (agrees : segment.Agrees B)
    (inside : segment.reaches seq = true) :
    segment.payload[offset segment.seq seq]? = some (B seq) := by
  rw [TcpSegment.reaches, decide_eq_true_iff] at inside
  rw [agrees _ inside, add_offset]

/-- In front of a queue a segment that agrees with the map is shown. -/
theorem TcpSegment.Agrees.shows_cons {segment : TcpSegment} {rest : List TcpSegment}
    (agrees : segment.Agrees B)
    (behind : ¬segment.reaches seq = true → Shows B rest seq) :
    Shows B (segment :: rest) seq := by
  by_cases inside : segment.reaches seq = true
  · exact (shows_cons_of_reaches inside).mpr (agrees.byte inside)
  · exact (shows_cons_of_not_reaches inside).mpr (behind inside)

/-- The first segment of a queue is shown everywhere. -/
theorem agrees_of_shows {segment : TcpSegment} {rest : List TcpSegment}
    (shown : ∀ seq, segment.reaches seq = true → Shows B (segment :: rest) seq) :
    segment.Agrees B := by
  intro index small
  have bound := segment.payloadLen.isLt
  have place : offset segment.seq (segment.seq + BitVec.ofNat 32 index) = index :=
    offset_self_add (by omega)
  have inside : segment.reaches (segment.seq + BitVec.ofNat 32 index) = true := by
    rw [TcpSegment.reaches, place]
    exact decide_eq_true small
  have byte := (shows_cons_of_reaches inside).mp (shown _ inside)
  rwa [place] at byte

/-- Another byte map that has the same bytes where something is queued. -/
theorem Shows.congr {queue : List TcpSegment} {other : BitVec 32 → UInt8}
    (shown : Shows B queue seq) (near : ∀ curr ∈ queue, (curr.span base).hi < 2 ^ 31)
    (same : Covered (queue.map (TcpSegment.span base)) (offset base seq) →
      other seq = B seq) : Shows other queue seq := by
  intro segment found
  rw [same (covered_of_find? near found)]
  exact shown segment found

/-- A segment that is put where it hides no byte of the queue. -/
theorem shows_insert {front back : List TcpSegment} {newSeg : TcpSegment}
    (shown : Shows B (front ++ back) seq)
    (byte : newSeg.reaches seq = true → front.find? (TcpSegment.reaches seq) = none →
      newSeg.payload[offset newSeg.seq seq]? = some (B seq)) :
    Shows B (front ++ newSeg :: back) seq := by
  intro segment found
  rw [List.find?_append] at found
  cases first : front.find? (TcpSegment.reaches seq) with
  | some shield =>
      rw [first, Option.some_or] at found
      apply shown
      rw [List.find?_append, first, Option.some_or]
      exact found
  | none =>
      rw [first, Option.none_or] at found
      by_cases inside : newSeg.reaches seq = true
      · rw [List.find?_cons_of_pos inside] at found
        cases found
        exact byte inside first
      · rw [List.find?_cons_of_neg inside] at found
        apply shown
        rw [List.find?_append, first, Option.none_or]
        exact found

/-! ## The merge pass -/

section Merge

variable {curr next : TcpSegment} {rest : List TcpSegment}

/-- Behind a segment that stops before it, the rest of a queue is shown. -/
theorem shows_tail (joinable : Joinable base (curr :: next :: rest))
    (apart : (curr.span base).hi < (next.span base).lo)
    (shown : ∀ seq, Shows B (curr :: next :: rest) seq) (seq : BitVec 32) :
    Shows B (next :: rest) seq := by
  by_cases inCurr : curr.reaches seq = true
  · apply @shows_of_not_covered B base seq _ joinable.tail.near
    rintro ⟨span, member, covers⟩
    have behind := joinable.tail.laminar.lo_le span member
    rw [reaches_iff (joinable.near curr (by simp))] at inCurr
    simp only [Has] at inCurr covers
    omega
  · exact (shows_cons_of_not_reaches inCurr).mp (shown seq)

/-- A segment inside the first one is not shown. -/
theorem shows_dropped (joinable : Joinable base (curr :: next :: rest))
    (inside : (next.span base).hi ≤ (curr.span base).hi)
    (shown : ∀ seq, Shows B (curr :: next :: rest) seq) (seq : BitVec 32) :
    Shows B (curr :: rest) seq := by
  have order := joinable.lo_le next (by simp)
  have agrees : curr.Agrees B := agrees_of_shows fun seq _ => shown seq
  apply agrees.shows_cons
  intro outside
  have notNext : ¬next.reaches seq = true := by
    rw [reaches_iff (joinable.near next (by simp))]
    rw [reaches_iff (joinable.near curr (by simp))] at outside
    simp only [Has] at outside ⊢
    omega
  have shownHere := shown seq
  rwa [shows_cons_of_not_reaches outside, shows_cons_of_not_reaches notNext] at shownHere

/-- Two segments that are merged are adjacent, so both are shown. -/
theorem shows_joined (joinable : Joinable base (curr :: next :: rest))
    (touches : seqCompare curr.endSeq next.seq ≥ 0)
    (longer : seqCompare next.endSeq curr.endSeq > 0)
    (merged : (mergedSegment curr next).span base =
      ⟨(curr.span base).lo, (next.span base).hi⟩)
    (shown : ∀ seq, Shows B (curr :: next :: rest) seq) (seq : BitVec 32) :
    Shows B (mergedSegment curr next :: rest) seq := by
  have currNear := joinable.near curr (by simp)
  have nextNear := joinable.near next (by simp)
  have order := joinable.lo_le next (by simp)
  have touching := (touches_iff currNear nextNear).mp touches
  have notInside : ¬(next.span base).hi ≤ (curr.span base).hi := by
    rw [← inside_iff currNear nextNear]
    exact not_le.mpr longer
  have adjacent := (laminar_cons.mp joinable.laminar).2.1 _ List.mem_cons_self
  have mergedNear : ((mergedSegment curr next).span base).hi < 2 ^ 31 := by
    rw [merged]
    exact nextNear
  have agrees : curr.Agrees B := agrees_of_shows fun seq _ => shown seq
  have nextAgrees : next.Agrees B := by
    apply @agrees_of_shows _ _ rest
    intro seq inNext
    have notCurr : ¬curr.reaches seq = true := by
      rw [reaches_iff currNear]
      rw [reaches_iff nextNear] at inNext
      simp only [Has, Precedes] at inNext adjacent ⊢
      omega
    exact (shows_cons_of_not_reaches notCurr).mp (shown seq)
  apply (mergedSegment_agrees agrees nextAgrees touches longer).shows_cons
  intro outside
  have apart : ¬curr.reaches seq = true ∧ ¬next.reaches seq = true := by
    rw [reaches_iff currNear, reaches_iff nextNear]
    rw [reaches_iff mergedNear, merged] at outside
    simp only [Has] at outside ⊢
    omega
  have shownHere := shown seq
  rwa [shows_cons_of_not_reaches apart.1, shows_cons_of_not_reaches apart.2] at shownHere

end Merge

/-- Where it only joins spans the merge pass keeps what is shown. -/
theorem shows_mergeFrom {granted : Nat → Bool} (allGranted : ∀ index, granted index)
    (rest : List TcpSegment) : ∀ (merges : Nat) (curr : TcpSegment),
      Joinable base (curr :: rest) → (∀ seq, Shows B (curr :: rest) seq) →
      ∀ seq, Shows B (mergeFrom granted merges curr rest) seq := by
  induction rest with
  | nil =>
      intro merges curr _ shown
      exact shown
  | cons next rest inductionHypothesis =>
      intro merges curr joinable shown
      have touching := touches_iff (joinable.near curr (by simp)) (joinable.near next (by simp))
      have inside := inside_iff (joinable.near curr (by simp)) (joinable.near next (by simp))
      rw [mergeFrom]
      split
      next touches =>
        split
        next contained =>
          exact inductionHypothesis merges curr joinable.dropped
            (shows_dropped joinable (inside.mp contained) shown)
        next longer =>
          obtain ⟨merged, remains⟩ := joinable.joined (touching.mp touches)
            fun within => longer (inside.mpr within)
          rw [if_pos (allGranted merges)]
          exact inductionHypothesis (merges + 1) (mergedSegment curr next) remains
            (shows_joined joinable touches (not_le.mp longer) merged shown)
      next apart =>
        rw [touching] at apart
        have agrees : curr.Agrees B := agrees_of_shows fun seq _ => shown seq
        intro seq
        apply agrees.shows_cons
        intro _
        exact inductionHypothesis merges next joinable.tail
          (shows_tail joinable (not_le.mp apart) shown) seq

/-- After an insertion the merge pass, where it is run, keeps what is shown. -/
theorem shows_enqueued {granted : Nat → Bool} (allGranted : ∀ index, granted index)
    {sb after : StreamBuffer} {newSeg : TcpSegment} {front back : List TcpSegment}
    (enqueued : Enqueued granted newSeg sb after front back)
    (count : surplus sb sb.segList = 0)
    (near : ∀ curr ∈ front ++ newSeg :: back, (curr.span base).hi < 2 ^ 31)
    (laminar : Laminar ((front ++ newSeg :: back).map (TcpSegment.span base)))
    (fits : (front ++ newSeg :: back).length ≤ 10 ∨
      ShortRuns ((front ++ newSeg :: back).map (TcpSegment.span base)))
    (shown : ∀ seq, Shows B (front ++ newSeg :: back) seq) (seq : BitVec 32) :
    Shows B after.segList seq := by
  rcases fits with few | short
  · rw [enqueued.unmerged count few]
    exact shown seq
  · rcases enqueued.merged with same | merged
    · rw [same]
      exact shown seq
    · rw [merged]
      cases queue : front ++ newSeg :: back with
      | nil => cases front <;> cases queue
      | cons curr rest =>
          rw [queue] at near laminar short shown
          rw [mergeQueue]
          exact shows_mergeFrom allGranted rest 0 curr ⟨near, laminar, short⟩ shown seq

end NetDefender.Stream
