import Mathlib.Data.BitVec
import Mathlib.Data.List.Basic
import Mathlib.Logic.Function.Basic
import NetDefender.Lib.Fallible

/-!
# Receiving

The two jobs of `netif.c` that take packets from the queues of the network interfaces:
`lcore_job_recv_fwd`, which processes them, and `recv_on_isol_lcore`, which puts them into a
ring for another lcore.

A queue of an interface is the list of the packets that wait in it.  How many of them
`rte_eth_rx_burst` hands out is an input.  Rings are those of DPDK, of which only what
`rte_ring_enqueue_bulk` and `rte_ring_free_count` are documented to do is used.
-/

namespace NetDefender.Netif

def NETIF_MAX_PKT_BURST : Nat := 32

/-- The counters of `struct netif_lcore_stats` that are used. -/
structure NetifLcoreStats where
  pktburst : BitVec 64 := 0
  zpktburst : BitVec 64 := 0
  fpktburst : BitVec 64 := 0
  z2hpktburst : BitVec 64 := 0
  h2fpktburst : BitVec 64 := 0
  ipackets : BitVec 64 := 0
  ibytes : BitVec 64 := 0
  dropped : BitVec 64 := 0
  errors : BitVec 64 := 0
  deriving DecidableEq, Repr

/-- `lcore_stats_burst`. -/
def lcoreStatsBurst (stats : NetifLcoreStats) (len : Nat) : NetifLcoreStats :=
  let stats := { stats with pktburst := stats.pktburst + 1 }
  if len = 0 then
    { stats with zpktburst := stats.zpktburst + 1, z2hpktburst := stats.z2hpktburst + 1 }
  else if len ≤ NETIF_MAX_PKT_BURST / 2 then
    { stats with z2hpktburst := stats.z2hpktburst + 1 }
  else if len < NETIF_MAX_PKT_BURST then
    { stats with h2fpktburst := stats.h2fpktburst + 1 }
  else { stats with h2fpktburst := stats.h2fpktburst + 1, fpktburst := stats.fpktburst + 1 }

/-- A queue of an interface. -/
structure RxQueue where
  pid : Nat
  qid : Nat
  deriving DecidableEq, Repr

/-- The packets that wait, and how many of them the next calls of `rte_eth_rx_burst` hand out
at most. -/
structure Nic (Mbuf : Type) where
  waiting : RxQueue → List Mbuf
  grants : List Nat := []

/-- The operations of `rte_ring` on rings with a single producer: as many packets are put in
as are given, or none if there is not enough space. -/
structure RteRing (Mbuf Ring : Type) where
  contents : Ring → List Mbuf
  freeCount : Ring → Nat
  enqueueBulk : Ring → List Mbuf → Nat × Ring
  enough : ∀ ring mbufs, mbufs.length ≤ freeCount ring →
    (enqueueBulk ring mbufs).1 = mbufs.length ∧
      contents (enqueueBulk ring mbufs).2 = contents ring ++ mbufs ∧
      freeCount (enqueueBulk ring mbufs).2 + mbufs.length = freeCount ring
  full : ∀ ring mbufs, freeCount ring < mbufs.length → enqueueBulk ring mbufs = (0, ring)

/-- `struct rx_partner`, with its ring. -/
structure IsolRxq (Ring : Type) where
  queue : RxQueue
  rb : Ring

/-- What the jobs do with packets. -/
inductive Deed (Mbuf : Type) where
  /-- A call of `rte_eth_rx_burst`. -/
  | burst (queue : RxQueue) (mbufs : List Mbuf)
  /-- A call of `process_packet`. -/
  | processed (queue : RxQueue) (mbuf : Mbuf) (ret : Int)
  /-- Packets are put into the ring at a place of `isol_rxq_tab`. -/
  | enqueued (index : Nat) (queue : RxQueue) (mbufs : List Mbuf)
  /-- Packets are freed because a ring has no space. -/
  | dropped (queue : RxQueue) (mbufs : List Mbuf)
  /-- A call of `flow_cleanup_expired`. -/
  | cleanup (now : BitVec 64)
  deriving DecidableEq, Repr

/-- The packet pipeline, with everything that it reads and writes as its world: the length of
a packet, `process_packet` and `flow_cleanup_expired`. -/
structure Pipeline (Mbuf Lcore World Fault : Type) where
  pktLen : Mbuf → BitVec 32
  processPacket : Lcore → World → Mbuf → Except Fault (Int × World)
  flowCleanupExpired : Lcore → World → BitVec 64 → Except Fault World

/-- What the lcores work on: `lcore_stats`, `isol_rxq_tab`, and `last_cleanup_ts` of the lcores
on which it is initialized.  What has been done is recorded with the lcore that did it. -/
structure Plane (Mbuf Ring Lcore World : Type) where
  nic : Nic Mbuf
  stats : Lcore → NetifLcoreStats := fun _ => {}
  isolRxqTab : Lcore → List (IsolRxq Ring) := fun _ => []
  lastCleanup : Lcore → Option (BitVec 64) := fun _ => none
  world : World
  deeds : List (Lcore × Deed Mbuf) := []

section Jobs

variable {Mbuf Ring Lcore World Fault : Type} [DecidableEq Lcore]

/-! ## Bursts -/

/-- `rte_eth_rx_burst`. -/
def rteEthRxBurst (nic : Nic Mbuf) (queue : RxQueue) (nbPkts : Nat) : List Mbuf × Nic Mbuf :=
  let taken := min nbPkts (nic.grants.headD nbPkts)
  ((nic.waiting queue).take taken,
    { waiting := Function.update nic.waiting queue ((nic.waiting queue).drop taken)
      grants := nic.grants.tail })

/-- The packets and the bytes of a burst are counted. -/
def countBurst (pktLen : Mbuf → BitVec 32) (mbufs : List Mbuf) (stats : NetifLcoreStats) :
    NetifLcoreStats :=
  { stats with
    ipackets := stats.ipackets + BitVec.ofNat 64 mbufs.length
    ibytes := mbufs.foldl (fun bytes mbuf => bytes + (pktLen mbuf).setWidth 64) stats.ibytes }

namespace Plane

/-- A change of the counters of an lcore. -/
def count (plane : Plane Mbuf Ring Lcore World) (cid : Lcore)
    (change : NetifLcoreStats → NetifLcoreStats) : Plane Mbuf Ring Lcore World :=
  { plane with stats := Function.update plane.stats cid (change (plane.stats cid)) }

def record (plane : Plane Mbuf Ring Lcore World) (cid : Lcore) (deed : Deed Mbuf) :
    Plane Mbuf Ring Lcore World :=
  { plane with deeds := plane.deeds ++ [(cid, deed)] }

/-- A ring of an lcore is written. -/
def setRing (plane : Plane Mbuf Ring Lcore World) (cid : Lcore) (index : Nat)
    (isolRxq : IsolRxq Ring) : Plane Mbuf Ring Lcore World :=
  { plane with
    isolRxqTab := Function.update plane.isolRxqTab cid
      ((plane.isolRxqTab cid).set index isolRxq) }

/-- A burst from a queue, and what is left. -/
def burst (plane : Plane Mbuf Ring Lcore World) (cid : Lcore) (queue : RxQueue) :
    List Mbuf × Plane Mbuf Ring Lcore World :=
  let (mbufs, nic) := rteEthRxBurst plane.nic queue NETIF_MAX_PKT_BURST
  (mbufs, { plane with nic }.record cid (.burst queue mbufs))

end Plane

/-! ## Forwarding -/

section Forwarding

variable (pipeline : Pipeline Mbuf Lcore World Fault) (cid : Lcore)

/-- `netif_rx_burst`, and the counting of what it has received. -/
def netifRxBurst (queue : RxQueue) (plane : Plane Mbuf Ring Lcore World) :
    List Mbuf × Plane Mbuf Ring Lcore World :=
  let (mbufs, plane) := plane.burst cid queue
  if mbufs.length > 0 then (mbufs, plane.count cid (countBurst pipeline.pktLen mbufs))
  else (mbufs, plane)

/-- A turn of the loop over the packets of a burst. -/
def forward (queue : RxQueue) (plane : Plane Mbuf Ring Lcore World) (mbuf : Mbuf) :
    Except Fault (Plane Mbuf Ring Lcore World) := do
  let (ret, world) ← pipeline.processPacket cid plane.world mbuf
  let plane := { plane with world }.record cid (.processed queue mbuf ret)
  if ret ≠ 0 then
    return plane.count cid fun stats => { stats with errors := stats.errors + 1 }
  else return plane

/-- A turn of the loop over the queues of a port. -/
def recvQueue (plane : Plane Mbuf Ring Lcore World) (queue : RxQueue) :
    Except Fault (Plane Mbuf Ring Lcore World) :=
  let (mbufs, plane) := netifRxBurst pipeline cid queue plane
  mbufs.foldlM (forward pipeline cid queue) plane

/-- `last_cleanup_ts` at the first call on an lcore. -/
def startCleanup (now : BitVec 64) (plane : Plane Mbuf Ring Lcore World) :
    Plane Mbuf Ring Lcore World :=
  match plane.lastCleanup cid with
  | none => { plane with lastCleanup := Function.update plane.lastCleanup cid (some now) }
  | some _ => plane

/-- The periodic cleanup; `time_t` is signed. -/
def periodicCleanup (now : BitVec 64) (plane : Plane Mbuf Ring Lcore World) :
    Except Fault (Plane Mbuf Ring Lcore World) :=
  match plane.lastCleanup cid with
  | none => .ok plane
  | some last =>
      if (10#64).sle (now - last) then do
        let world ← pipeline.flowCleanupExpired cid plane.world now
        let plane := { plane with world }.record cid (.cleanup now)
        return { plane with lastCleanup := Function.update plane.lastCleanup cid (some now) }
      else .ok plane

/-- `lcore_job_recv_fwd` on the queues of the lcore; the clock is read at the start and at
the end. -/
def lcoreJobRecvFwd (queues : List RxQueue) (start now : BitVec 64)
    (plane : Plane Mbuf Ring Lcore World) : Except Fault (Plane Mbuf Ring Lcore World) := do
  let plane ← queues.foldlM (recvQueue pipeline cid) (startCleanup cid start plane)
  periodicCleanup pipeline cid now plane

end Forwarding

/-! ## Isolated reception -/

section Isolated

variable (pktLen : Mbuf → BitVec 32) (rings : RteRing Mbuf Ring) (cid : Lcore)

/-- A burst of an isolated queue, which is counted. -/
def isolRxBurst (queue : RxQueue) (plane : Plane Mbuf Ring Lcore World) :
    List Mbuf × Plane Mbuf Ring Lcore World :=
  let (mbufs, plane) := plane.burst cid queue
  let plane := plane.count cid fun stats => lcoreStatsBurst stats mbufs.length
  if mbufs.length = 0 then (mbufs, plane)
  else (mbufs, plane.count cid (countBurst pktLen mbufs))

/-- A burst is put into the ring at a place of the table, and what does not fit is freed.
The result says whether the queue is read again. -/
def isolEnqueue (index : Nat) (isolRxq : IsolRxq Ring) (mbufs : List Mbuf)
    (plane : Plane Mbuf Ring Lcore World) : Plane Mbuf Ring Lcore World × Bool :=
  let (res, rb) := rings.enqueueBulk isolRxq.rb mbufs
  let plane := plane.setRing cid index { isolRxq with rb }
  let plane := plane.record cid (.enqueued index isolRxq.queue (mbufs.take res))
  let plane :=
    if res < mbufs.length then
      (plane.count cid fun stats =>
        { stats with dropped := stats.dropped + BitVec.ofNat 64 (mbufs.length - res) }).record cid
        (.dropped isolRxq.queue (mbufs.drop res))
    else plane
  (plane, mbufs.length ≥ NETIF_MAX_PKT_BURST ∧ rings.freeCount rb ≥ NETIF_MAX_PKT_BURST)

/-- The space in the ring at a place of the table. -/
def spaceAt (index : Nat) (plane : Plane Mbuf Ring Lcore World) : Nat :=
  (plane.isolRxqTab cid)[index]?.elim 0 fun isolRxq => rings.freeCount isolRxq.rb

omit [DecidableEq Lcore] in
theorem burst_length_le (queue : RxQueue) (plane : Plane Mbuf Ring Lcore World) :
    (plane.burst cid queue).1.length ≤ NETIF_MAX_PKT_BURST := by
  simp only [Plane.burst, rteEthRxBurst, List.length_take]
  omega

theorem isolRxBurst_fst (queue : RxQueue) (plane : Plane Mbuf Ring Lcore World) :
    (isolRxBurst pktLen cid queue plane).1 = (plane.burst cid queue).1 := by
  rw [isolRxBurst]
  dsimp only
  split <;> rfl

theorem isolRxBurst_isolRxqTab (queue : RxQueue) (plane : Plane Mbuf Ring Lcore World) :
    (isolRxBurst pktLen cid queue plane).2.isolRxqTab = plane.isolRxqTab := by
  rw [isolRxBurst]
  dsimp only
  split <;> rfl

theorem isolEnqueue_isolRxqTab (index : Nat) (isolRxq : IsolRxq Ring) (mbufs : List Mbuf)
    (plane : Plane Mbuf Ring Lcore World) :
    (isolEnqueue rings cid index isolRxq mbufs plane).1.isolRxqTab =
      Function.update plane.isolRxqTab cid ((plane.isolRxqTab cid).set index
        { isolRxq with rb := (rings.enqueueBulk isolRxq.rb mbufs).2 }) := by
  rw [isolEnqueue]
  dsimp only
  split <;> rfl

/-- A queue is only read again if the ring had space for the burst. -/
theorem space_of_again {index : Nat} {isolRxq : IsolRxq Ring} {mbufs : List Mbuf}
    {plane : Plane Mbuf Ring Lcore World} (short : mbufs.length ≤ NETIF_MAX_PKT_BURST)
    (again : (isolEnqueue rings cid index isolRxq mbufs plane).2 = true) :
    mbufs.length = NETIF_MAX_PKT_BURST ∧
      rings.freeCount (rings.enqueueBulk isolRxq.rb mbufs).2 + NETIF_MAX_PKT_BURST =
        rings.freeCount isolRxq.rb := by
  have tests : mbufs.length ≥ NETIF_MAX_PKT_BURST ∧
      rings.freeCount (rings.enqueueBulk isolRxq.rb mbufs).2 ≥ NETIF_MAX_PKT_BURST :=
    of_decide_eq_true again
  have length : mbufs.length = NETIF_MAX_PKT_BURST := le_antisymm short tests.1
  refine ⟨length, ?_⟩
  by_cases space : mbufs.length ≤ rings.freeCount isolRxq.rb
  · rw [← length]
    exact (rings.enough isolRxq.rb mbufs space).2.2
  · -- the ring would be as it was, and have space all the same
    have same := rings.full isolRxq.rb mbufs (not_le.mp space)
    rw [same] at tests
    exact absurd (length ▸ tests.2) space

theorem spaceAt_enqueue_lt {index : Nat} {isolRxq : IsolRxq Ring} {mbufs : List Mbuf}
    {plane : Plane Mbuf Ring Lcore World} (found : (plane.isolRxqTab cid)[index]? = some isolRxq)
    (short : mbufs.length ≤ NETIF_MAX_PKT_BURST)
    (again : (isolEnqueue rings cid index isolRxq mbufs plane).2 = true) :
    spaceAt rings cid index (isolEnqueue rings cid index isolRxq mbufs plane).1 <
      spaceAt rings cid index plane := by
  obtain ⟨inside, -⟩ := List.getElem?_eq_some_iff.mp found
  have space := (space_of_again rings cid short again).2
  simp only [spaceAt, isolEnqueue_isolRxqTab, Function.update_self, found,
    List.getElem?_set_self inside, Option.elim_some]
  rw [← space]
  exact Nat.lt_add_of_pos_right (by decide)

/-- The turns of `recv_on_isol_lcore` at one queue, with the jumps to `again`. -/
def recvIsolQueue (index : Nat) (plane : Plane Mbuf Ring Lcore World) :
    Plane Mbuf Ring Lcore World :=
  match _found : (plane.isolRxqTab cid)[index]? with
  | none => plane
  | some isolRxq =>
      let burst := isolRxBurst pktLen cid isolRxq.queue plane
      if burst.1.length = 0 then burst.2
      else
        let enqueued := isolEnqueue rings cid index isolRxq burst.1 burst.2
        if _again : enqueued.2 = true then recvIsolQueue index enqueued.1 else enqueued.1
termination_by spaceAt rings cid index plane
decreasing_by
  have table := isolRxBurst_isolRxqTab pktLen cid isolRxq.queue plane
  have short : burst.1.length ≤ NETIF_MAX_PKT_BURST := by
    rw [isolRxBurst_fst]
    exact burst_length_le cid isolRxq.queue plane
  have kept : spaceAt rings cid index burst.2 = spaceAt rings cid index plane := by
    rw [spaceAt, spaceAt, table]
  rw [← kept]
  exact spaceAt_enqueue_lt rings cid (table ▸ _found) short _again

/-- `recv_on_isol_lcore`. -/
def recvOnIsolLcore (plane : Plane Mbuf Ring Lcore World) : Plane Mbuf Ring Lcore World :=
  (List.range (plane.isolRxqTab cid).length).foldl
    (fun plane index => recvIsolQueue pktLen rings cid index plane) plane

end Isolated

end Jobs

end NetDefender.Netif
