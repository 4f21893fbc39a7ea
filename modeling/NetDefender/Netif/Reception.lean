import Mathlib.Data.List.Chain
import NetDefender.Netif.Custody

/-!
# Reception

Runs of the lcores in any order: no packet is lost or duplicated, queues are read in order, the
counters agree with what was done, and what is put into a ring for another lcore is never
processed.
-/

namespace NetDefender.Netif

open Ledger Fallible

section Runs

variable {Mbuf Ring Lcore World Fault : Type} [DecidableEq Lcore]

/-- The packets that arrive at a queue. -/
def Happening.arriving (queue : RxQueue) : Happening Mbuf Lcore → List Mbuf
  | .arrival source mbuf => if source = queue then [mbuf] else []
  | .turn _ _ => []

/-- Lcores that have not done anything yet. -/
structure Working.Fresh (working : Working Mbuf Ring Lcore World) : Prop where
  record : working.deeds = []
  between : ∀ cid, working.position cid = .between

/-- The times at which flows are cleaned up. -/
def Deed.cleanups : Deed Mbuf → List (BitVec 64)
  | .cleanup now => [now]
  | _ => []

/-- At least ten seconds lie between two times; `time_t` is signed. -/
def TenSeconds (earlier later : BitVec 64) : Prop := (10#64).sle (later - earlier) = true

/-- What a record says about the state that was reached, from a fresh state. -/
structure Accounted (pipeline : Pipeline Mbuf Lcore World Fault) (rings : RteRing Mbuf Ring)
    (duties : Duties Lcore) (start : Working Mbuf Ring Lcore World)
    (past : List (Happening Mbuf Lcore)) (working : Working Mbuf Ring Lcore World) : Prop where
  sound : working.Sound duties
  queues : ∀ queue, start.nic.waiting queue ++ past.flatMap (Happening.arriving queue) =
    items (Deed.taken (only queue)) working.deeds ++ working.nic.waiting queue
  custody : ∀ cid of, (own cid working.deeds).flatMap (Deed.taken of) =
    (own cid working.deeds).flatMap (Deed.finished of) ++
      (working.position cid).held (working.isolRxqTab cid) of
  suits : ∀ cid, ∀ deed ∈ own cid working.deeds, deed.Suits (duties.role cid)
  assigned : ∀ cid source mbufs, .burst source mbufs ∈ own cid working.deeds →
    if duties.role cid = .fwdWorker then source ∈ duties.queues cid
    else source ∈ (start.isolRxqTab cid).map IsolRxq.queue
  placed : ∀ cid index source mbufs, .enqueued index source mbufs ∈ own cid working.deeds →
    ((start.isolRxqTab cid).map IsolRxq.queue)[index]? = some source
  stats : ∀ cid, working.stats cid =
    (own cid working.deeds).foldl (Deed.count pipeline.pktLen (duties.role cid))
      (start.stats cid)
  partners : ∀ cid, (working.isolRxqTab cid).map IsolRxq.queue =
    (start.isolRxqTab cid).map IsolRxq.queue
  rings : ∀ (cid : Lcore) (index : Nat) (ring : Stored Mbuf),
    (stored rings (start.isolRxqTab cid))[index]? = some ring →
      (stored rings (working.isolRxqTab cid))[index]? = some
        { ring with
          contents := ring.contents ++
            (own cid working.deeds).flatMap (Deed.enqueuedAt index)
          space := ring.space -
            ((own cid working.deeds).flatMap (Deed.enqueuedAt index)).length } ∧
      ((own cid working.deeds).flatMap (Deed.enqueuedAt index)).length ≤ ring.space
  world : Worked pipeline start.world working.deeds working.world
  apart : ∀ cid, ((own cid working.deeds).flatMap Deed.cleanups).IsChain TenSeconds
  latest : ∀ cid, ∀ last ∈ ((own cid working.deeds).flatMap Deed.cleanups).getLast?,
    working.lastCleanup cid = some last

variable {pipeline : Pipeline Mbuf Lcore World Fault} {rings : RteRing Mbuf Ring}
  {duties : Duties Lcore} {start working after : Working Mbuf Ring Lcore World}
  {past happenings : List (Happening Mbuf Lcore)}

omit [DecidableEq Lcore] in
/-- Records of one after the other. -/
theorem Worked.append {first middle final : World} {front back : List (Lcore × Deed Mbuf)}
    (before : Worked pipeline first front middle) (behind : Worked pipeline middle back final) :
    Worked pipeline first (front ++ back) final := by
  induction behind with
  | nil => rwa [List.append_nil]
  | snoc _ last ih =>
      rw [← List.append_assoc]
      exact .snoc ih last

/-- A fresh state. -/
theorem accounted_fresh (fresh : start.Fresh) :
    Accounted pipeline rings duties start [] start where
  sound cid := by rw [fresh.between]; trivial
  queues queue := by simp [fresh.record]
  custody cid of := by
    rw [fresh.record, fresh.between]
    rfl
  suits := by simp [fresh.record]
  assigned := by simp [fresh.record]
  placed := by simp [fresh.record]
  stats cid := by simp [fresh.record]
  partners _ := rfl
  rings cid index ring here := by
    rw [fresh.record]
    exact stored_of_same (fun _ => rfl) index ring here
  world := by
    rw [fresh.record]
    exact .nil
  apart cid := by simp [fresh.record]
  latest cid := by simp [fresh.record]

/-- A packet arrives. -/
theorem Accounted.arrival (accounted : Accounted pipeline rings duties start past working)
    (source : RxQueue) (mbuf : Mbuf) :
    Accounted pipeline rings duties start (past ++ [.arrival source mbuf])
      { working with nic := working.nic.arrive source mbuf } where
  sound := accounted.sound
  queues queue := by
    rw [List.flatMap_append, ← List.append_assoc, accounted.queues, List.append_assoc]
    congr 1
    simp only [Nic.arrive, Happening.arriving, List.flatMap_cons, List.flatMap_nil,
      List.append_nil]
    by_cases same : source = queue
    · subst same
      rw [if_pos rfl, Function.update_self]
    · rw [if_neg same, Function.update_of_ne (Ne.symm same), List.append_nil]
  custody := accounted.custody
  suits := accounted.suits
  assigned := accounted.assigned
  placed := accounted.placed
  stats := accounted.stats
  partners := accounted.partners
  rings := accounted.rings
  world := accounted.world
  apart := accounted.apart
  latest := accounted.latest

theorem cleanups_eq_nil {deeds : List (Deed Mbuf)}
    (never : ∀ stamp, Deed.cleanup stamp ∉ deeds) : deeds.flatMap Deed.cleanups = [] := by
  apply List.flatMap_eq_nil_iff.mpr
  intro deed member
  cases deed with
  | cleanup stamp => exact absurd member (never stamp)
  | _ => rfl

/-- An lcore has taken a turn. -/
theorem Accounted.turn {cid : Lcore} {now : BitVec 64} {deeds : List (Deed Mbuf)}
    (accounted : Accounted pipeline rings duties start past working)
    (turned : Turned pipeline rings duties cid working deeds after) :
    Accounted pipeline rings duties start (past ++ [.turn cid now]) after := by
  have self : own cid after.deeds = own cid working.deeds ++ deeds := by
    rw [turned.record, own_append, own_map_self]
  have apart {other : Lcore} (different : other ≠ cid) :
      own other after.deeds = own other working.deeds := by
    rw [turned.record, own_append, own_map_of_ne (Ne.symm different), List.append_nil]
  -- what holds of an lcore holds of the others as before
  constructor
  · intro other
    by_cases same : other = cid
    · exact same ▸ turned.possible
    · obtain ⟨position, table, -⟩ := turned.others other same
      rw [position, table]
      exact accounted.sound other
  · intro queue
    rw [List.flatMap_append, turned.record, items_append, items_map, List.append_assoc,
      ← turned.queues, ← accounted.queues]
    simp [Happening.arriving]
  · intro other of
    by_cases same : other = cid
    · subst same
      rw [self, List.flatMap_append, List.flatMap_append, accounted.custody, List.append_assoc,
        turned.custody, List.append_assoc]
    · obtain ⟨position, table, -⟩ := turned.others other same
      rw [apart same, position, table]
      exact accounted.custody other of
  · intro other deed member
    by_cases same : other = cid
    · subst same
      rw [self, List.mem_append] at member
      exact member.elim (accounted.suits other deed) (turned.suits deed)
    · rw [apart same] at member
      exact accounted.suits other deed member
  · intro other source mbufs member
    by_cases same : other = cid
    · subst same
      rw [self, List.mem_append] at member
      rcases member with early | late
      · exact accounted.assigned other source mbufs early
      · exact accounted.partners other ▸ turned.assigned source mbufs late
    · rw [apart same] at member
      exact accounted.assigned other source mbufs member
  · intro other index source mbufs member
    by_cases same : other = cid
    · subst same
      rw [self, List.mem_append] at member
      rcases member with early | late
      · exact accounted.placed other index source mbufs early
      · exact accounted.partners other ▸ turned.placed index source mbufs late
    · rw [apart same] at member
      exact accounted.placed other index source mbufs member
  · intro other
    rw [turned.stats]
    by_cases same : other = cid
    · subst same
      rw [Function.update_self, self, List.foldl_append, accounted.stats]
    · rw [Function.update_of_ne same, apart same]
      exact accounted.stats other
  · intro other
    by_cases same : other = cid
    · subst same
      exact turned.partners.trans (accounted.partners other)
    · rw [(turned.others other same).2.1]
      exact accounted.partners other
  · intro other index ring here
    by_cases same : other = cid
    · subst same
      obtain ⟨early, fits⟩ := accounted.rings other index ring here
      obtain ⟨late, fitsToo⟩ := turned.rings index _ early
      dsimp only at fitsToo
      rw [self, List.flatMap_append, List.length_append, ← List.append_assoc, Nat.sub_add_eq]
      exact ⟨late, by omega⟩
    · rw [(turned.others other same).2.1, apart same]
      exact accounted.rings other index ring here
  · rw [turned.record]
    exact accounted.world.append turned.world
  · intro other
    by_cases same : other = cid
    · subst same
      rw [self, List.flatMap_append]
      by_cases cleans : ∃ stamp, .cleanup stamp ∈ deeds
      · obtain ⟨stamp, member⟩ := cleans
        obtain ⟨rfl, -, last, before, late⟩ := turned.cleaned stamp member
        refine List.isChain_append.mpr
          ⟨accounted.apart other, List.isChain_singleton stamp, ?_⟩
        intro earlier lastly later first
        cases first
        cases (accounted.latest other earlier lastly).symm.trans before
        exact late
      · rw [cleanups_eq_nil (not_exists.mp cleans), List.append_nil]
        exact accounted.apart other
    · rw [apart same]
      exact accounted.apart other
  · intro other last lastly
    by_cases same : other = cid
    · subst same
      rw [self, List.flatMap_append] at lastly
      by_cases cleans : ∃ stamp, .cleanup stamp ∈ deeds
      · obtain ⟨stamp, member⟩ := cleans
        obtain ⟨rfl, stamped, -⟩ := turned.cleaned stamp member
        rw [List.flatMap_singleton, Deed.cleanups, List.getLast?_concat] at lastly
        cases lastly
        exact stamped
      · rw [cleanups_eq_nil (not_exists.mp cleans), List.append_nil] at lastly
        exact turned.kept last (accounted.latest other last lastly) (not_exists.mp cleans)
    · rw [apart same] at lastly
      rw [(turned.others other same).2.2]
      exact accounted.latest other last lastly

/-- Every run is accounted for. -/
theorem run_accounted (fresh : start.Fresh)
    (ran : runHappenings pipeline rings duties start happenings = .ok after) :
    Accounted pipeline rings duties start happenings after := by
  refine foldlM_ok (Accounted pipeline rings duties start) ?_ (accounted_fresh fresh) ran
  intro past state happening next accounted stepped
  cases happening with
  | arrival source mbuf =>
      cases stepped
      exact accounted.arrival source mbuf
  | turn cid now =>
      obtain ⟨deeds, turned⟩ := takeTurn_turned accounted.sound stepped
      exact accounted.turn turned

/-! ## Conservation -/

/-- The packets of a queue that an lcore has processed, put into a ring and freed, and those in
its hands. -/
def Working.custody (working : Working Mbuf Ring Lcore World) (cid : Lcore) (queue : RxQueue) :
    Multiset Mbuf :=
  (own cid working.deeds).flatMap (Deed.processing (only queue)) +
    (own cid working.deeds).flatMap (Deed.enqueuing (only queue)) +
    (own cid working.deeds).flatMap (Deed.dropping (only queue)) +
    (working.position cid).held (working.isolRxqTab cid) (only queue)

omit [DecidableEq Lcore] in
/-- The packets that an lcore is done with are processed, put into a ring or freed. -/
theorem finished_perm (of : RxQueue → Bool) (deeds : List (Deed Mbuf)) :
    (deeds.flatMap (Deed.finished of)).Perm (deeds.flatMap (Deed.processing of) ++
      deeds.flatMap (Deed.enqueuing of) ++ deeds.flatMap (Deed.dropping of)) := by
  have outer := List.flatMap_append_perm deeds
    (fun deed => deed.processing of ++ deed.enqueuing of) (Deed.dropping of)
  have inner := List.flatMap_append_perm deeds (Deed.processing of) (Deed.enqueuing of)
  exact (outer.symm).trans (inner.symm.append_right _)

theorem Accounted.custody_eq (accounted : Accounted pipeline rings duties start past working)
    (cid : Lcore) (queue : RxQueue) :
    ((own cid working.deeds).flatMap (Deed.taken (only queue)) : Multiset Mbuf) =
      working.custody cid queue := by
  rw [accounted.custody, Working.custody, Multiset.coe_add, Multiset.coe_add, Multiset.coe_add,
    Multiset.coe_eq_coe]
  exact (finished_perm (only queue) _).append_right _

/-- In every run each packet that has arrived is in one place: it waits in its queue, or one
lcore holds it, has processed it, has put it into a ring or has freed it.  And each lcore is
done with packets in the order in which they arrived. -/
theorem packets_conserved [Fintype Lcore] (fresh : start.Fresh)
    (ran : runHappenings pipeline rings duties start happenings = .ok after) (queue : RxQueue) :
    (start.nic.waiting queue ++ happenings.flatMap (Happening.arriving queue) : Multiset Mbuf) =
        after.nic.waiting queue + ∑ cid, after.custody cid queue ∧
      ∀ cid, ((own cid after.deeds).flatMap (Deed.finished (only queue))).Sublist
        (start.nic.waiting queue ++ happenings.flatMap (Happening.arriving queue)) := by
  have accounted := run_accounted fresh ran
  have arrived := accounted.queues queue
  constructor
  · rw [arrived, ← Multiset.coe_add, coe_items, add_comm]
    exact congrArg _ (Finset.sum_congr rfl fun cid _ => accounted.custody_eq cid queue)
  · intro cid
    have first : ((own cid after.deeds).flatMap (Deed.finished (only queue))).Sublist
        ((own cid after.deeds).flatMap (Deed.taken (only queue))) := by
      rw [accounted.custody]
      exact List.sublist_append_left _ _
    rw [arrived]
    exact (first.trans own_sublist).trans (List.sublist_append_left _ _)

/-! ## Counters -/

/-- All queues. -/
def every (_ : RxQueue) : Bool := true

/-- The sizes of the bursts that are read. -/
def Deed.burstSizes : Deed Mbuf → List Nat
  | .burst _ mbufs => [mbufs.length]
  | _ => []

/-- Packets that `process_packet` fails on. -/
def Deed.failures : Deed Mbuf → List Mbuf
  | .processed _ mbuf ret => if ret ≠ 0 then [mbuf] else []
  | _ => []

/-- The counters that deeds amount to; only isolated reception counts its bursts. -/
def tally (pktLen : Mbuf → BitVec 32) (role : LcoreRole) (deeds : List (Deed Mbuf)) :
    NetifLcoreStats :=
  let taken := deeds.flatMap (Deed.taken every)
  let sizes := if role = .isolrxWorker then deeds.flatMap Deed.burstSizes else []
  { pktburst := BitVec.ofNat 64 sizes.length
    zpktburst := BitVec.ofNat 64 (sizes.countP fun size => size = 0)
    fpktburst := BitVec.ofNat 64 (sizes.countP fun size => NETIF_MAX_PKT_BURST ≤ size)
    z2hpktburst := BitVec.ofNat 64 (sizes.countP fun size => size ≤ NETIF_MAX_PKT_BURST / 2)
    h2fpktburst := BitVec.ofNat 64 (sizes.countP fun size => NETIF_MAX_PKT_BURST / 2 < size)
    ipackets := BitVec.ofNat 64 taken.length
    ibytes := BitVec.ofNat 64 (taken.map fun mbuf => (pktLen mbuf).toNat).sum
    dropped := BitVec.ofNat 64 (deeds.flatMap (Deed.dropping every)).length
    errors := BitVec.ofNat 64 (deeds.flatMap Deed.failures).length }

/-- Counters are added up. -/
def NetifLcoreStats.plus (left right : NetifLcoreStats) : NetifLcoreStats where
  pktburst := left.pktburst + right.pktburst
  zpktburst := left.zpktburst + right.zpktburst
  fpktburst := left.fpktburst + right.fpktburst
  z2hpktburst := left.z2hpktburst + right.z2hpktburst
  h2fpktburst := left.h2fpktburst + right.h2fpktburst
  ipackets := left.ipackets + right.ipackets
  ibytes := left.ibytes + right.ibytes
  dropped := left.dropped + right.dropped
  errors := left.errors + right.errors

theorem NetifLcoreStats.plus_assoc (first second third : NetifLcoreStats) :
    (first.plus second).plus third = first.plus (second.plus third) := by
  simp [NetifLcoreStats.plus, BitVec.add_assoc]

@[simp]
theorem NetifLcoreStats.zero_plus (stats : NetifLcoreStats) :
    NetifLcoreStats.plus {} stats = stats := by
  simp [NetifLcoreStats.plus]

theorem foldl_bytes (pktLen : Mbuf → BitVec 32) (mbufs : List Mbuf) (bytes : BitVec 64) :
    mbufs.foldl (fun bytes mbuf => bytes + (pktLen mbuf).setWidth 64) bytes =
      bytes + BitVec.ofNat 64 (mbufs.map fun mbuf => (pktLen mbuf).toNat).sum := by
  induction mbufs generalizing bytes with
  | nil => simp
  | cons mbuf mbufs ih =>
      rw [List.foldl_cons, ih, List.map_cons, List.sum_cons, BitVec.ofNat_add,
        BitVec.ofNat_toNat, BitVec.add_assoc]

theorem tally_cons (pktLen : Mbuf → BitVec 32) (role : LcoreRole) (deed : Deed Mbuf)
    (deeds : List (Deed Mbuf)) :
    tally pktLen role (deed :: deeds) =
      (tally pktLen role [deed]).plus (tally pktLen role deeds) := by
  by_cases isolates : role = .isolrxWorker
  · simp [tally, NetifLcoreStats.plus, isolates, BitVec.ofNat_add]
  · simp [tally, NetifLcoreStats.plus, isolates, BitVec.ofNat_add]

/-- A burst is counted by its size. -/
theorem lcoreStatsBurst_eq (stats : NetifLcoreStats) (len : Nat) :
    lcoreStatsBurst stats len = stats.plus
      { pktburst := 1
        zpktburst := BitVec.ofNat 64 ([len].countP fun size => size = 0)
        fpktburst := BitVec.ofNat 64 ([len].countP fun size => NETIF_MAX_PKT_BURST ≤ size)
        z2hpktburst := BitVec.ofNat 64 ([len].countP fun size => size ≤ NETIF_MAX_PKT_BURST / 2)
        h2fpktburst :=
          BitVec.ofNat 64 ([len].countP fun size => NETIF_MAX_PKT_BURST / 2 < size) } := by
  have half : NETIF_MAX_PKT_BURST / 2 = 16 := rfl
  have whole : NETIF_MAX_PKT_BURST = 32 := rfl
  rw [lcoreStatsBurst, half, whole]
  simp only [List.countP_singleton, decide_eq_true_eq]
  split
  next none => simp [NetifLcoreStats.plus, none]
  next some =>
    split
    next few =>
      have short : ¬32 ≤ len := by omega
      have low : ¬16 < len := by omega
      simp [NetifLcoreStats.plus, short, low]
    next many =>
      split
      next short => simp [NetifLcoreStats.plus, not_le.mp many, not_le.mpr short]
      next full => simp [NetifLcoreStats.plus, not_le.mp many, not_lt.mp full]

/-- One deed is counted. -/
theorem count_eq (pktLen : Mbuf → BitVec 32) (role : LcoreRole) (stats : NetifLcoreStats)
    (deed : Deed Mbuf) :
    deed.count pktLen role stats = stats.plus (tally pktLen role [deed]) := by
  cases deed with
  | burst queue mbufs =>
      by_cases isolates : role = .isolrxWorker
      · simp [Deed.count, isolates, lcoreStatsBurst_eq, countBurst, foldl_bytes, tally,
          NetifLcoreStats.plus, Deed.taken, every, Deed.burstSizes, Deed.dropping,
          Deed.failures]
      · simp [Deed.count, isolates, countBurst, foldl_bytes, tally, NetifLcoreStats.plus,
          Deed.taken, every, Deed.dropping, Deed.failures]
  | processed queue mbuf ret =>
      by_cases failed : ret ≠ 0
      · simp [Deed.count, failed, tally, NetifLcoreStats.plus, Deed.taken, Deed.burstSizes,
          Deed.dropping, Deed.failures]
      · simp [Deed.count, failed, tally, NetifLcoreStats.plus, Deed.taken, Deed.burstSizes,
          Deed.dropping, Deed.failures]
  | dropped queue mbufs =>
      simp [Deed.count, tally, NetifLcoreStats.plus, Deed.taken, Deed.burstSizes,
        Deed.dropping, Deed.failures, every]
  | _ =>
      simp [Deed.count, tally, NetifLcoreStats.plus, Deed.taken, Deed.burstSizes,
        Deed.dropping, Deed.failures]

theorem foldl_count (pktLen : Mbuf → BitVec 32) (role : LcoreRole) (deeds : List (Deed Mbuf))
    (stats : NetifLcoreStats) :
    deeds.foldl (Deed.count pktLen role) stats = stats.plus (tally pktLen role deeds) := by
  induction deeds generalizing stats with
  | nil =>
      by_cases isolates : role = .isolrxWorker
      · simp [tally, NetifLcoreStats.plus, isolates]
      · simp [tally, NetifLcoreStats.plus, isolates]
  | cons deed deeds ih =>
      rw [List.foldl_cons, ih, count_eq, NetifLcoreStats.plus_assoc, ← tally_cons]

/-- Of the packets that an lcore has counted, each is processed, in a ring, counted as dropped
or still held; and the counters of bursts, errors and drops are those of its deeds. -/
theorem statistics_agree (fresh : start.Fresh)
    (ran : runHappenings pipeline rings duties start happenings = .ok after) {cid : Lcore}
    (zero : start.stats cid = {}) :
    after.stats cid = tally pipeline.pktLen (duties.role cid) (own cid after.deeds) ∧
      (after.stats cid).ipackets =
        BitVec.ofNat 64 (((own cid after.deeds).flatMap (Deed.processing every)).length +
          ((own cid after.deeds).flatMap (Deed.enqueuing every)).length +
          ((after.position cid).held (after.isolRxqTab cid) every).length) +
        (after.stats cid).dropped := by
  have accounted := run_accounted fresh ran
  have counted := accounted.stats cid
  rw [foldl_count, zero, NetifLcoreStats.zero_plus] at counted
  refine ⟨counted, ?_⟩
  have lengths := (finished_perm every (own cid after.deeds)).length_eq
  simp only [List.length_append] at lengths
  rw [counted, tally, accounted.custody, List.length_append, lengths, ← BitVec.ofNat_add]
  exact congrArg (BitVec.ofNat 64) (by omega)

/-! ## Isolated reception -/

theorem processing_eq_nil {deeds : List (Deed Mbuf)}
    (suits : ∀ deed ∈ deeds, deed.Suits .isolrxWorker) (of : RxQueue → Bool) :
    deeds.flatMap (Deed.processing of) = [] := by
  apply List.flatMap_eq_nil_iff.mpr
  intro deed member
  have suitable := suits deed member
  cases deed with
  | processed queue mbuf ret => cases suitable
  | _ => rfl

/-- The packets of a queue with one partner are put into its ring. -/
theorem enqueuing_eq {deeds : List (Deed Mbuf)} {queues : List RxQueue} {index : Nat}
    {queue : RxQueue} (distinct : queues.Nodup) (here : queues[index]? = some queue)
    (placed : ∀ place source mbufs, .enqueued place source mbufs ∈ deeds →
      queues[place]? = some source) :
    deeds.flatMap (Deed.enqueuing (only queue)) = deeds.flatMap (Deed.enqueuedAt index) := by
  apply List.flatMap_congr
  intro deed member
  cases deed with
  | enqueued place source mbufs =>
      have there := placed place source mbufs member
      rw [Deed.enqueuing, Deed.enqueuedAt, only]
      by_cases same : place = index
      · cases Option.some.inj ((same ▸ there).symm.trans here)
        simp [same]
      · have different : source ≠ queue := by
          rintro rfl
          obtain ⟨inside, -⟩ := List.getElem?_eq_some_iff.mp there
          exact same ((List.getElem?_inj inside distinct).mp (there.trans here.symm))
        simp [same, different]
  | _ => rfl

theorem held_length_le {queues : List RxQueue} {role : LcoreRole} {table : List (IsolRxq Ring)}
    {position : Position Mbuf} (possible : position.Possible queues role table)
    (isolates : role = .isolrxWorker) (of : RxQueue → Bool) :
    (position.held table of).length ≤ NETIF_MAX_PKT_BURST := by
  cases position with
  | recvHold queue mbufs rest =>
      rw [isolates] at possible
      cases possible.1
  | isolHold index mbufs =>
      have short := possible.2.2
      rw [Position.held]
      split
      next => split <;> simp [short]
      next => simp
  | _ => simp [Position.held]

/-- Packets that are received in isolation are never processed.  A ring only grows, and once as
many packets have been taken from its queue as it has space for, all later ones are freed, but
for the burst at hand. -/
theorem isolated_never_processed (fresh : start.Fresh)
    (ran : runHappenings pipeline rings duties start happenings = .ok after) {cid : Lcore}
    (isolates : duties.role cid = .isolrxWorker)
    (distinct : ((start.isolRxqTab cid).map IsolRxq.queue).Nodup) :
    (own cid after.deeds).flatMap (Deed.processing every) = [] ∧
      ∀ (index : Nat) (ring : Stored Mbuf),
        (stored rings (start.isolRxqTab cid))[index]? = some ring →
        ∃ kept, (stored rings (after.isolRxqTab cid))[index]? = some
            { ring with
              contents := ring.contents ++ kept, space := ring.space - kept.length } ∧
          kept.length ≤ ring.space ∧
          ((own cid after.deeds).flatMap (Deed.taken (only ring.queue))).length ≤
            ring.space + NETIF_MAX_PKT_BURST +
              ((own cid after.deeds).flatMap (Deed.dropping (only ring.queue))).length := by
  have accounted := run_accounted fresh ran
  have suits (deed : Deed Mbuf) (member : deed ∈ own cid after.deeds) :
      deed.Suits .isolrxWorker := isolates ▸ accounted.suits cid deed member
  refine ⟨processing_eq_nil suits every, fun index ring here => ?_⟩
  obtain ⟨there, fits⟩ := accounted.rings cid index ring here
  refine ⟨_, there, fits, ?_⟩
  have queue : ((start.isolRxqTab cid).map IsolRxq.queue)[index]? = some ring.queue := by
    have names : (stored rings (start.isolRxqTab cid)).map Stored.queue = _ :=
      map_queue_stored (start.isolRxqTab cid)
    rw [← names, List.getElem?_map, here, Option.map_some]
  have lengths := (finished_perm (only ring.queue) (own cid after.deeds)).length_eq
  have hands := held_length_le (accounted.sound cid) isolates (only ring.queue)
  rw [processing_eq_nil suits, enqueuing_eq distinct queue (accounted.placed cid),
    List.nil_append, List.length_append] at lengths
  rw [accounted.custody, List.length_append, lengths]
  omega

end Runs

/-! ## A worker and an isolated lcore -/

/-- Rings that are lists with the space that is left. -/
def listRing (Mbuf : Type) : RteRing Mbuf (List Mbuf × Nat) where
  contents := Prod.fst
  freeCount := Prod.snd
  enqueueBulk ring mbufs :=
    if mbufs.length ≤ ring.2 then
      (mbufs.length, (ring.1 ++ mbufs, ring.2 - mbufs.length))
    else (0, ring)
  enough ring mbufs space := by
    rw [if_pos space]
    exact ⟨rfl, rfl, Nat.sub_add_cancel space⟩
  full ring mbufs space := if_neg (not_le.mpr space)

/-- Packets are their lengths; those shorter than a header cannot be decoded. -/
def counting (Lcore : Type) : Pipeline Nat Lcore Nat Empty where
  pktLen := BitVec.ofNat 32
  processPacket _ world mbuf := .ok (if mbuf < 14 then -1 else 0, world + 1)
  flowCleanupExpired _ world _ := .ok world

/-- One lcore reads queue 0, the other one receives queue 1. -/
def twoDuties : Duties Bool where
  role cid := if cid then .isolrxWorker else .fwdWorker
  queues cid := if cid then [] else [⟨0, 0⟩]

/-- The ring has space for two packets. -/
def twoLcores : Working Nat (List Nat × Nat) Bool Nat where
  nic := { waiting := fun _ => [] }
  isolRxqTab cid := if cid then [⟨⟨0, 1⟩, ([], 2)⟩] else []
  world := 0

theorem twoLcores_fresh : twoLcores.Fresh := ⟨rfl, fun _ => rfl⟩

/-- Packets arrive while both lcores are at work. -/
def twoAtWork : List (Happening Nat Bool) :=
  [.arrival ⟨0, 0⟩ 60, .arrival ⟨0, 1⟩ 70, .turn true 0, .turn true 0, .turn false 0,
    .turn false 0, .arrival ⟨0, 1⟩ 80, .arrival ⟨0, 1⟩ 90, .turn true 0, .turn true 0,
    .turn false 0, .turn true 0, .arrival ⟨0, 0⟩ 10, .turn true 0, .turn true 0]

theorem twoAtWork_runs : ∃ after,
    runHappenings (counting Bool) (listRing Nat) twoDuties twoLcores twoAtWork = .ok after := by
  cases runHappenings (counting Bool) (listRing Nat) twoDuties twoLcores twoAtWork with
  | error fault => exact fault.elim
  | ok after => exact ⟨after, rfl⟩

theorem twoAtWork_conserved : ∃ after,
    runHappenings (counting Bool) (listRing Nat) twoDuties twoLcores twoAtWork = .ok after ∧
      (([60, 10] : List Nat) : Multiset Nat) =
        after.nic.waiting ⟨0, 0⟩ + ∑ cid, after.custody cid ⟨0, 0⟩ := by
  obtain ⟨after, ran⟩ := twoAtWork_runs
  exact ⟨after, ran, (packets_conserved twoLcores_fresh ran ⟨0, 0⟩).1⟩

theorem twoAtWork_counted : ∃ after,
    runHappenings (counting Bool) (listRing Nat) twoDuties twoLcores twoAtWork = .ok after ∧
      after.stats true = tally (counting Bool).pktLen .isolrxWorker (own true after.deeds) := by
  obtain ⟨after, ran⟩ := twoAtWork_runs
  exact ⟨after, ran, (statistics_agree twoLcores_fresh ran rfl).1⟩

theorem twoAtWork_isolated : ∃ after,
    runHappenings (counting Bool) (listRing Nat) twoDuties twoLcores twoAtWork = .ok after ∧
      (own true after.deeds).flatMap (Deed.processing every) = [] := by
  obtain ⟨after, ran⟩ := twoAtWork_runs
  have distinct : ((twoLcores.isolRxqTab true).map IsolRxq.queue).Nodup :=
    List.nodup_singleton _
  exact ⟨after, ran, (isolated_never_processed twoLcores_fresh ran rfl distinct).1⟩

end NetDefender.Netif
