import Mathlib.Data.BitVec

/-!
# TCP stream reassembly

The stream buffer of `stream_reassemble.c`: a window of contiguous bytes
`data[0 .. data_len)` that starts at `base_seq`, and a queue of segments that
arrived ahead of `next_seq`.  Every function below takes the buffer together
with the module's global statistics, which `segment_alloc` and `segment_free`
keep up to date.

Memory is modelled by byte lists.  A segment owns its payload memory, of which
the first `payload_len` bytes are meant; the two differ once a merge has cut
the 16-bit length.  Each call is given the outcomes of the allocations it may
perform.  Log lines are left out.
-/

namespace NetDefender.Stream

/-- `os_policy_t`. -/
inductive OsPolicy where
  | bsd
  | linux
  | windows
  | first
  | last
  deriving DecidableEq, Repr

namespace OsPolicy

/-- The policies that the overlap handler groups as "favor new data". -/
def FavorsNew : OsPolicy → Prop
  | .linux | .windows | .last => True
  | .bsd | .first => False

instance (policy : OsPolicy) : Decidable policy.FavorsNew :=
  match policy with
  | .linux | .windows | .last => .isTrue trivial
  | .bsd | .first => .isFalse id

end OsPolicy

/-- `tcp_segment_t`. -/
structure TcpSegment where
  seq : BitVec 32
  payloadLen : BitVec 16
  payload : List UInt8
  deriving DecidableEq, Repr

/-- `seg->seq + seg->payload_len`. -/
def TcpSegment.endSeq (segment : TcpSegment) : BitVec 32 :=
  segment.seq + segment.payloadLen.setWidth 32

/-- The bytes a segment stands for. -/
def TcpSegment.bytes (segment : TcpSegment) : List UInt8 :=
  segment.payload.take segment.payloadLen.toNat

/-- `stream_buffer_t`; `data` is `none` while the pointer is `NULL`. -/
structure StreamBuffer where
  data : Option (List UInt8)
  size : BitVec 32
  dataLen : BitVec 32
  baseSeq : BitVec 32
  nextSeq : BitVec 32
  segList : List TcpSegment
  segCount : BitVec 32
  osPolicy : OsPolicy
  maxBufferSize : BitVec 32
  totalReassembled : Nat
  overlapCount : Nat
  gapCount : Nat
  deriving DecidableEq, Repr

/-- The memory behind `data`, empty for a buffer that was never set up. -/
def StreamBuffer.memory (sb : StreamBuffer) : List UInt8 := sb.data.getD []

/-- `stream_buffer_get_data`: the first `data_len` bytes of the buffer. -/
def StreamBuffer.getData (sb : StreamBuffer) : List UInt8 :=
  sb.memory.take sb.dataLen.toNat

/-- A buffer after `memset(sb, 0, sizeof(stream_buffer_t))`. -/
def StreamBuffer.zeroed : StreamBuffer where
  data := none
  size := 0
  dataLen := 0
  baseSeq := 0
  nextSeq := 0
  segList := []
  segCount := 0
  osPolicy := .bsd
  maxBufferSize := 0
  totalReassembled := 0
  overlapCount := 0
  gapCount := 0

/-- `stream_config_t`. -/
structure StreamConfig where
  maxBufferSize : BitVec 32
  maxSegments : BitVec 32
  defaultPolicy : OsPolicy
  deriving DecidableEq, Repr

/-- The initial `global_config`. -/
def StreamConfig.default : StreamConfig where
  maxBufferSize := 262144
  maxSegments := 100
  defaultPolicy := .linux

/-- The module's `reassembly_stats`. -/
structure ReassemblyStats where
  segmentsInserted : Nat := 0
  segmentsInOrder : Nat := 0
  segmentsOutOfOrder : Nat := 0
  segmentsOverlap : Nat := 0
  segmentsDropped : Nat := 0
  bytesReassembled : Nat := 0
  memoryUsed : BitVec 64 := 0
  memoryPeak : BitVec 64 := 0
  deriving DecidableEq, Repr

/-- A stream buffer and the global statistics. -/
structure Reassembly where
  sb : StreamBuffer
  stats : ReassemblyStats
  deriving DecidableEq, Repr

/-- Outcomes of the allocations one call may ask for: the two of
`segment_alloc`, and the merged payloads of `try_merge_segments` in order. -/
structure Allocation where
  segment : Bool
  payload : Bool
  merged : Nat → Bool

/-- Every allocation of the call succeeds. -/
def Allocation.ok : Allocation := ⟨true, true, fun _ => true⟩

/-- Undefined behaviour that a call can run into. -/
inductive Fault where
  | useAfterFree
  deriving DecidableEq, Repr

/-! ## Sequence numbers -/

/-- `seq_compare`. -/
def seqCompare (seq1 seq2 : BitVec 32) : Int :=
  if seq1 = seq2 then 0
  else if (seq1 - seq2) &&& 0x80000000#32 ≠ 0#32 then -1
  else 1

/-! ## Allocation -/

/-- `sizeof(tcp_segment_t)` on a 64-bit target. -/
def sizeofTcpSegment : BitVec 64 := 24

/-- Account for an allocation of `bytes`. -/
def ReassemblyStats.allocated (stats : ReassemblyStats) (bytes : BitVec 64) :
    ReassemblyStats :=
  let memoryUsed := stats.memoryUsed + bytes
  { stats with
    memoryUsed
    memoryPeak := if memoryUsed > stats.memoryPeak then memoryUsed
      else stats.memoryPeak }

/-- `stream_buffer_init`; `allocated` says whether `rte_malloc` succeeds. -/
def streamBufferInit (config : StreamConfig) (stats : ReassemblyStats)
    (initialSeq : BitVec 32) (policy : OsPolicy) (allocated : Bool) :
    Int × Reassembly :=
  let zeroed := { StreamBuffer.zeroed with size := config.maxBufferSize }
  if allocated then
    (0, { sb :=
            { zeroed with
              data := some []
              baseSeq := initialSeq
              nextSeq := initialSeq
              osPolicy := policy
              maxBufferSize := config.maxBufferSize
              segList := []
              segCount := 0 }
          stats := stats.allocated (config.maxBufferSize.setWidth 64) })
  else (-1, { sb := zeroed, stats })

/-- `segment_alloc`. -/
def segmentAlloc (alloc : Allocation) (stats : ReassemblyStats)
    (seq : BitVec 32) (payload : List UInt8) (payloadLen : BitVec 16) :
    Option (TcpSegment × ReassemblyStats) :=
  if alloc.segment && alloc.payload then
    some ({ seq, payloadLen, payload := payload.take payloadLen.toNat },
      stats.allocated (sizeofTcpSegment + payloadLen.setWidth 64))
  else none

/-- `segment_free`. -/
def segmentFree (stats : ReassemblyStats) (segment : TcpSegment) :
    ReassemblyStats :=
  { stats with
    memoryUsed :=
      stats.memoryUsed - segment.payloadLen.setWidth 64 - sizeofTcpSegment }

/-- Release a segment that was just unlinked from the queue, and
`sb->seg_count--`. -/
def Reassembly.unlink (st : Reassembly) (segment : TcpSegment) : Reassembly :=
  { sb := { st.sb with segCount := st.sb.segCount - 1 }
    stats := segmentFree st.stats segment }

/-- `sb->overlap_count++`. -/
def Reassembly.countOverlap (st : Reassembly) : Reassembly :=
  { st with sb := { st.sb with overlapCount := st.sb.overlapCount + 1 } }

/-- `stream_buffer_free`. -/
def streamBufferFree (st : Reassembly) : Reassembly :=
  let stats := st.sb.segList.foldl segmentFree st.stats
  { sb := StreamBuffer.zeroed
    stats :=
      if st.sb.data.isSome then
        { stats with memoryUsed := stats.memoryUsed - st.sb.size.setWidth 64 }
      else stats }

/-! ## The out-of-order queue -/

/-- The segment that replaces `curr` when `try_merge_segments` absorbs `next`:
`merged_len` is computed in 32 bits and stored in the 16-bit `payload_len`. -/
def mergedSegment (curr next : TcpSegment) : TcpSegment :=
  let mergedLen := next.endSeq - curr.seq
  let overlap := curr.endSeq - next.seq
  { seq := curr.seq
    payloadLen := mergedLen.setWidth 16
    payload := curr.payload.take curr.payloadLen.toNat ++
      (next.payload.drop overlap.toNat).take
        (next.payloadLen.toNat - overlap.toNat) }

/-- The loop of `try_merge_segments` with the cursor on `curr`; `merges` counts
the payloads asked for so far. -/
def tryMergeFrom (alloc : Allocation) (merges : Nat) (st : Reassembly)
    (curr : TcpSegment) : List TcpSegment → List TcpSegment × Reassembly
  | [] => ([curr], st)
  | next :: rest =>
      if seqCompare curr.endSeq next.seq ≥ 0 then
        if seqCompare next.endSeq curr.endSeq ≤ 0 then
          -- `next` is completely contained, remove it
          tryMergeFrom alloc merges (st.unlink next) curr rest
        else if alloc.merged merges then
          tryMergeFrom alloc (merges + 1) (st.unlink next)
            (mergedSegment curr next) rest
        else
          let (queue, st) := tryMergeFrom alloc (merges + 1) st next rest
          (curr :: queue, st)
      else
        let (queue, st) := tryMergeFrom alloc merges st next rest
        (curr :: queue, st)

/-- `try_merge_segments`. -/
def tryMergeSegments (alloc : Allocation) (st : Reassembly) : Reassembly :=
  match st.sb.segList with
  | [] => st
  | curr :: rest =>
      let (queue, st) := tryMergeFrom alloc 0 st curr rest
      { st with sb := { st.sb with segList := queue } }

/-- `memmove(payload, payload + offset, count)` on one block of memory. -/
def memmoveDown (memory : List UInt8) (offset count : Nat) : List UInt8 :=
  (memory.drop offset).take count ++ memory.drop count

/-- Trim the first `overlapLen` bytes off a segment, as both partial-overlap
branches do: the start moves to `start`. -/
def TcpSegment.trimStart (segment : TcpSegment) (start overlapLen : BitVec 32) :
    TcpSegment :=
  let remaining := segment.payloadLen.setWidth 32 - overlapLen
  { seq := start
    payloadLen := remaining.setWidth 16
    payload := memmoveDown segment.payload overlapLen.toNat remaining.toNat }

/-- Trim a segment's end so that it stops at `stop`. -/
def TcpSegment.trimEnd (segment : TcpSegment) (stop : BitVec 32) : TcpSegment :=
  { segment with payloadLen := (stop - segment.seq).setWidth 16 }

/-- Case 2 of `handle_queue_overlaps`: `new_seg` overlaps the start of `curr`. -/
def overlapStart (newEnd currEnd : BitVec 32) (newSeg curr : TcpSegment)
    (st : Reassembly) : TcpSegment × TcpSegment × Reassembly :=
  if seqCompare newSeg.seq curr.seq < 0 ∧ seqCompare newEnd curr.seq > 0 ∧
      seqCompare newEnd currEnd < 0 then
    match st.sb.osPolicy with
    | .linux | .windows | .last =>
        (newSeg, curr.trimStart newEnd (newEnd - curr.seq), st.countOverlap)
    | .bsd | .first => (newSeg.trimEnd curr.seq, curr, st.countOverlap)
  else (newSeg, curr, st)

/-- Case 3 of `handle_queue_overlaps`: `new_seg` overlaps the end of `curr`. -/
def overlapEnd (newEnd currEnd : BitVec 32) (newSeg curr : TcpSegment)
    (st : Reassembly) : TcpSegment × TcpSegment × Reassembly :=
  if seqCompare newSeg.seq curr.seq > 0 ∧ seqCompare newSeg.seq currEnd < 0 ∧
      seqCompare newEnd currEnd ≥ 0 then
    match st.sb.osPolicy with
    | .linux | .windows | .last =>
        (newSeg, curr.trimEnd newSeg.seq, st.countOverlap)
    | .bsd | .first =>
        (newSeg.trimStart currEnd (currEnd - newSeg.seq), curr, st.countOverlap)
  else (newSeg, curr, st)

/-- The loop of `handle_queue_overlaps`.  The result holds the new segment, or
`none` once it has been freed, and the entries of the queue that remain. -/
def overlapLoop (newEnd : BitVec 32) (newSeg : TcpSegment) (st : Reassembly) :
    List TcpSegment → Option TcpSegment × List TcpSegment × Reassembly
  | [] => (some newSeg, [], st)
  | curr :: rest =>
      let currEnd := curr.endSeq
      if seqCompare newSeg.seq curr.seq ≤ 0 ∧ seqCompare newEnd currEnd ≥ 0 then
        match st.sb.osPolicy with
        | .linux | .windows | .last =>
            overlapLoop newEnd newSeg (st.unlink curr).countOverlap rest
        | .bsd | .first =>
            (none, curr :: rest, { st with stats := segmentFree st.stats newSeg })
      else
        let (newSeg, curr, st) := overlapStart newEnd currEnd newSeg curr st
        let (newSeg, curr, st) := overlapEnd newEnd currEnd newSeg curr st
        let (newSeg, queue, st) := overlapLoop newEnd newSeg st rest
        (newSeg, curr :: queue, st)

/-- `handle_queue_overlaps`. -/
def handleQueueOverlaps (st : Reassembly) (newSeg : TcpSegment) :
    Option TcpSegment × Reassembly :=
  let (newSeg, queue, st) := overlapLoop newSeg.endSeq newSeg st st.sb.segList
  (newSeg, { st with sb := { st.sb with segList := queue } })

/-- The walk to the insertion point; `none` reports an exact duplicate. -/
def insertSorted (newSeg : TcpSegment) :
    List TcpSegment → Option (List TcpSegment)
  | [] => some [newSeg]
  | curr :: rest =>
      if seqCompare newSeg.seq curr.seq = 0 ∧
          newSeg.payloadLen = curr.payloadLen then none
      else if seqCompare newSeg.seq curr.seq < 0 then
        some (newSeg :: curr :: rest)
      else (insertSorted newSeg rest).map (curr :: ·)

/-- `insert_segment_queue`. -/
def insertSegmentQueue (config : StreamConfig) (alloc : Allocation)
    (st : Reassembly) (newSeg : TcpSegment) : Except Fault (Int × Reassembly) :=
  if st.sb.segCount ≥ config.maxSegments then
    let stats := segmentFree st.stats newSeg
    .ok (-1, { st with
      stats := { stats with segmentsDropped := stats.segmentsDropped + 1 } })
  else
    match handleQueueOverlaps st newSeg with
    -- the test of `new_seg->payload_len` reads the freed segment
    | (none, _) => .error .useAfterFree
    | (some newSeg, st) =>
        if newSeg.payloadLen = 0 then
          .ok (0, { st with stats := segmentFree st.stats newSeg })
        else
          match insertSorted newSeg st.sb.segList with
          | none => .ok (0, { st with stats := segmentFree st.stats newSeg })
          | some queue =>
              let st : Reassembly :=
                { st with sb :=
                  { st.sb with segList := queue, segCount := st.sb.segCount + 1 } }
              .ok (0, if st.sb.segCount > 10 then tryMergeSegments alloc st else st)

/-- Copy a payload to `data + data_len` and advance the counters that go with
it, as the in-order path and the queue drain both do.  What lies past the copied
bytes is not tracked. -/
def StreamBuffer.append (sb : StreamBuffer) (payload : List UInt8)
    (payloadLen : BitVec 16) : StreamBuffer :=
  { sb with
    data := sb.data.map fun memory =>
      memory.take sb.dataLen.toNat ++ payload.take payloadLen.toNat
    dataLen := sb.dataLen + payloadLen.setWidth 32
    nextSeq := sb.nextSeq + payloadLen.setWidth 32
    totalReassembled := sb.totalReassembled + payloadLen.toNat }

/-- The loop of `process_segment_queue` on the queue that is left. -/
def processLoop (st : Reassembly) : List TcpSegment → Int × Reassembly
  | [] => (0, { st with sb := { st.sb with segList := [] } })
  | seg :: rest =>
      if seg.seq ≠ st.sb.nextSeq then
        if (seg.seq - st.sb.nextSeq).toInt > 0 then
          (0, { st with sb :=
            { st.sb with segList := seg :: rest, gapCount := st.sb.gapCount + 1 } })
        else
          -- overlapping or already processed
          processLoop (st.unlink seg) rest
      else if st.sb.dataLen + seg.payloadLen.setWidth 32 > st.sb.maxBufferSize then
        (0, { sb := { st.sb with segList := seg :: rest }
              stats :=
                { st.stats with
                  segmentsDropped := st.stats.segmentsDropped + 1 } })
      else
        let st : Reassembly :=
          { st with sb := st.sb.append seg.payload seg.payloadLen }
        let (bytes, st) := processLoop (st.unlink seg) rest
        (seg.payloadLen.toNat + bytes, st)

/-- `process_segment_queue`: the number of bytes moved into the buffer. -/
def processSegmentQueue (st : Reassembly) : Int × Reassembly :=
  processLoop st st.sb.segList

/-! ## Inserting and consuming -/

/-- A segment as it is trimmed on its way in: `seq`, `payload`, `payload_len`. -/
structure Incoming where
  seq : BitVec 32
  payload : List UInt8
  payloadLen : BitVec 16
  deriving DecidableEq, Repr

/-- Advance the payload by `count` bytes up to sequence number `start`. -/
def Incoming.skip (segment : Incoming) (start count : BitVec 32) : Incoming where
  seq := start
  payload := segment.payload.drop count.toNat
  payloadLen := segment.payloadLen - count.setWidth 16

/-- `handle_buffer_overlap`; a zero `payload_len` in the result means that the
segment was already reassembled. -/
def handleBufferOverlap (st : Reassembly) (segment : Incoming) :
    Incoming × Reassembly :=
  if seqCompare segment.seq st.sb.nextSeq < 0 then
    if seqCompare (segment.seq + segment.payloadLen.setWidth 32) st.sb.nextSeq ≤ 0
    then ({ segment with payloadLen := 0 }, st)
    else
      let st := st.countOverlap
      (segment.skip st.sb.nextSeq (st.sb.nextSeq - segment.seq),
        { st with
          stats :=
            { st.stats with segmentsOverlap := st.stats.segmentsOverlap + 1 } })
  else (segment, st)

/-- The in-order path of `stream_buffer_insert_segment`. -/
def insertInOrder (st : Reassembly) (segment : Incoming) : Int × Reassembly :=
  let stats := { st.stats with segmentsInOrder := st.stats.segmentsInOrder + 1 }
  if st.sb.dataLen + segment.payloadLen.setWidth 32 > st.sb.maxBufferSize then
    (-1, { st with
      stats := { stats with segmentsDropped := stats.segmentsDropped + 1 } })
  else
    let sb := st.sb.append segment.payload segment.payloadLen
    let stats :=
      { stats with
        bytesReassembled := stats.bytesReassembled + segment.payloadLen.toNat }
    (segment.payloadLen.toNat, (processSegmentQueue { sb, stats }).2)

/-- The out-of-order path of `stream_buffer_insert_segment`. -/
def insertOutOfOrder (config : StreamConfig) (alloc : Allocation)
    (st : Reassembly) (segment : Incoming) : Except Fault (Int × Reassembly) :=
  let stats :=
    { st.stats with segmentsOutOfOrder := st.stats.segmentsOutOfOrder + 1 }
  let (segment, st) := handleBufferOverlap { st with stats } segment
  if segment.payloadLen = 0 then .ok (0, st)
  else
    match segmentAlloc alloc st.stats segment.seq segment.payload
        segment.payloadLen with
    | none =>
        .ok (-1, { st with
          stats :=
            { st.stats with segmentsDropped := st.stats.segmentsDropped + 1 } })
    | some (newSeg, stats) =>
        match insertSegmentQueue config alloc { st with stats } newSeg with
        | .error fault => .error fault
        | .ok (ret, st) =>
            if ret < 0 then .ok (-1, st) else .ok (processSegmentQueue st)

/-- `stream_buffer_insert_segment`; `payload` is `none` for a `NULL` pointer. -/
def streamBufferInsertSegment (config : StreamConfig) (alloc : Allocation)
    (st : Reassembly) (seq : BitVec 32) (payload : Option (List UInt8))
    (payloadLen : BitVec 16) : Except Fault (Int × Reassembly) :=
  match payload with
  | none => .ok (-1, st)
  | some payload =>
      if payloadLen = 0 ∨ st.sb.data = none then .ok (-1, st)
      else
        let st : Reassembly :=
          { st with
            stats :=
              { st.stats with segmentsInserted := st.stats.segmentsInserted + 1 } }
        if seqCompare (seq + payloadLen.setWidth 32) st.sb.baseSeq ≤ 0 then
          .ok (0, st)
        else
          let before := decide (seqCompare seq st.sb.baseSeq < 0)
          let skip := st.sb.baseSeq - seq
          if before ∧ skip ≥ payloadLen.setWidth 32 then .ok (0, st)
          else
            let segment : Incoming := { seq, payload, payloadLen }
            let segment :=
              if before then segment.skip st.sb.baseSeq skip else segment
            if segment.seq = st.sb.nextSeq then .ok (insertInOrder st segment)
            else insertOutOfOrder config alloc st segment

/-- `stream_buffer_consume`. -/
def streamBufferConsume (st : Reassembly) (consumeLen : BitVec 32) :
    Int × Reassembly :=
  if consumeLen = 0 ∨ st.sb.data = none then (-1, st)
  else
    let consumeLen :=
      if consumeLen > st.sb.dataLen then st.sb.dataLen else consumeLen
    let remaining := st.sb.dataLen - consumeLen
    let sb :=
      { st.sb with
        data := st.sb.data.map fun memory =>
          memmoveDown memory consumeLen.toNat remaining.toNat
        dataLen := remaining
        baseSeq := st.sb.baseSeq + consumeLen }
    let st : Reassembly := { st with sb }
    (0, if st.sb.segList ≠ [] then (processSegmentQueue st).2 else st)

/-! ## Runs -/

/-- One call on a stream buffer. -/
inductive Op where
  | insert (seq : BitVec 32) (payload : Option (List UInt8))
      (payloadLen : BitVec 16) (alloc : Allocation)
  | consume (consumeLen : BitVec 32)

/-- The state after one call. -/
def Op.run (config : StreamConfig) (st : Reassembly) :
    Op → Except Fault Reassembly
  | .insert seq payload payloadLen alloc =>
      (streamBufferInsertSegment config alloc st seq payload payloadLen).map
        Prod.snd
  | .consume consumeLen => .ok (streamBufferConsume st consumeLen).2

/-- The state after a list of calls. -/
def runOps (config : StreamConfig) (st : Reassembly) (ops : List Op) :
    Except Fault Reassembly :=
  ops.foldlM (Op.run config) st

end NetDefender.Stream
