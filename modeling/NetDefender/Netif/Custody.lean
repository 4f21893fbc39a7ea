import NetDefender.Lib.Ledger
import NetDefender.Netif.Interleaving

/-!
# Custody

Where the packets are.  A turn of an lcore is described by what it records: the packets that it
takes from a queue, and those that it is done with.  Everything else that changes, the counters
of the lcore, its rings and the world of the pipeline, follows from the record.
-/

namespace NetDefender.Netif

open Ledger Fallible

/-! ## What a deed is about -/

section Deeds

variable {Mbuf Ring Lcore World Fault : Type}

/-- One queue. -/
def only (queue : RxQueue) (source : RxQueue) : Bool := source = queue

/-- The packets that a deed takes from some queues. -/
def Deed.taken (of : RxQueue → Bool) : Deed Mbuf → List Mbuf
  | .burst source mbufs => if of source then mbufs else []
  | _ => []

/-- The packets that are processed. -/
def Deed.processing (of : RxQueue → Bool) : Deed Mbuf → List Mbuf
  | .processed source mbuf _ => if of source then [mbuf] else []
  | _ => []

/-- The packets that are freed because a ring has no space. -/
def Deed.dropping (of : RxQueue → Bool) : Deed Mbuf → List Mbuf
  | .dropped source mbufs => if of source then mbufs else []
  | _ => []

/-- The packets that are put into a ring of the table. -/
def Deed.enqueuing (of : RxQueue → Bool) : Deed Mbuf → List Mbuf
  | .enqueued _ source mbufs => if of source then mbufs else []
  | _ => []

/-- The packets that an lcore is done with. -/
def Deed.finished (of : RxQueue → Bool) (deed : Deed Mbuf) : List Mbuf :=
  deed.processing of ++ deed.enqueuing of ++ deed.dropping of

/-- The packets that are put into the ring at a place of the table. -/
def Deed.enqueuedAt (index : Nat) : Deed Mbuf → List Mbuf
  | .enqueued place _ mbufs => if place = index then mbufs else []
  | _ => []

/-- The job that a deed belongs to. -/
def Deed.Suits (role : LcoreRole) : Deed Mbuf → Prop
  | .burst _ _ => role = .fwdWorker ∨ role = .isolrxWorker
  | .processed _ _ _ => role = .fwdWorker
  | .cleanup _ => role = .fwdWorker
  | .enqueued _ _ _ => role = .isolrxWorker
  | .dropped _ _ => role = .isolrxWorker

/-- The counters after a deed. -/
def Deed.count (pktLen : Mbuf → BitVec 32) (role : LcoreRole) (stats : NetifLcoreStats) :
    Deed Mbuf → NetifLcoreStats
  | .burst _ mbufs =>
      countBurst pktLen mbufs
        (if role = .isolrxWorker then lcoreStatsBurst stats mbufs.length else stats)
  | .processed _ _ ret => if ret ≠ 0 then { stats with errors := stats.errors + 1 } else stats
  | .dropped _ mbufs =>
      { stats with dropped := stats.dropped + BitVec.ofNat 64 mbufs.length }
  | _ => stats

/-- The queue of a partner, what its ring holds, and the space in it. -/
structure Stored (Mbuf : Type) where
  queue : RxQueue
  contents : List Mbuf
  space : Nat

/-- The rings of an lcore. -/
def stored (rings : RteRing Mbuf Ring) (table : List (IsolRxq Ring)) : List (Stored Mbuf) :=
  table.map fun isolRxq =>
    ⟨isolRxq.queue, rings.contents isolRxq.rb, rings.freeCount isolRxq.rb⟩

/-- A deed takes the world of the pipeline to another. -/
inductive Deed.Works (pipeline : Pipeline Mbuf Lcore World Fault) (cid : Lcore) :
    World → Deed Mbuf → World → Prop where
  | burst (world : World) (queue : RxQueue) (mbufs : List Mbuf) :
      Deed.Works pipeline cid world (.burst queue mbufs) world
  | enqueued (world : World) (index : Nat) (queue : RxQueue) (mbufs : List Mbuf) :
      Deed.Works pipeline cid world (.enqueued index queue mbufs) world
  | dropped (world : World) (queue : RxQueue) (mbufs : List Mbuf) :
      Deed.Works pipeline cid world (.dropped queue mbufs) world
  | processed {world after : World} {mbuf : Mbuf} {ret : Int} (queue : RxQueue)
      (done : pipeline.processPacket cid world mbuf = .ok (ret, after)) :
      Deed.Works pipeline cid world (.processed queue mbuf ret) after
  | cleanup {world after : World} {now : BitVec 64}
      (done : pipeline.flowCleanupExpired cid world now = .ok after) :
      Deed.Works pipeline cid world (.cleanup now) after

/-- The deeds of a record, one after the other. -/
inductive Worked (pipeline : Pipeline Mbuf Lcore World Fault) (start : World) :
    List (Lcore × Deed Mbuf) → World → Prop where
  | nil : Worked pipeline start [] start
  | snoc {record : List (Lcore × Deed Mbuf)} {middle final : World} {cid : Lcore}
      {deed : Deed Mbuf} (before : Worked pipeline start record middle)
      (last : deed.Works pipeline cid middle final) :
      Worked pipeline start (record ++ [(cid, deed)]) final

end Deeds

/-! ## What an lcore holds -/

section Positions

variable {Mbuf Ring : Type}

/-- The packets that an lcore has taken and is not done with. -/
def Position.held (table : List (IsolRxq Ring)) (of : RxQueue → Bool) : Position Mbuf → List Mbuf
  | .recvHold source mbufs _ => if of source then mbufs else []
  | .isolHold index mbufs =>
      match table[index]? with
      | some isolRxq => if of isolRxq.queue then mbufs else []
      | none => []
  | _ => []

/-- The positions that an lcore comes to: those of its own job, with at most a burst in hand
and the place of a queue in the table. -/
def Position.Possible (queues : List RxQueue) (role : LcoreRole) (table : List (IsolRxq Ring)) :
    Position Mbuf → Prop
  | .between => True
  | .recvPoll rest => role = .fwdWorker ∧ rest ⊆ queues
  | .recvHold queue _ rest => role = .fwdWorker ∧ queue ∈ queues ∧ rest ⊆ queues
  | .isolPoll _ => role = .isolrxWorker
  | .isolHold index mbufs =>
      role = .isolrxWorker ∧ index < table.length ∧ mbufs.length ≤ NETIF_MAX_PKT_BURST

end Positions

/-! ## A turn -/

section Turn

variable {Mbuf Ring Lcore World Fault : Type} [DecidableEq Lcore]

/-- What an lcore has done in a turn, and what has become of the state. -/
structure Turned (pipeline : Pipeline Mbuf Lcore World Fault) (rings : RteRing Mbuf Ring)
    (duties : Duties Lcore) (cid : Lcore) (working : Working Mbuf Ring Lcore World)
    (deeds : List (Deed Mbuf)) (after : Working Mbuf Ring Lcore World) : Prop where
  record : after.deeds = working.deeds ++ deeds.map (Prod.mk cid)
  queues : ∀ queue, working.nic.waiting queue =
    deeds.flatMap (Deed.taken (only queue)) ++ after.nic.waiting queue
  custody : ∀ of,
    (working.position cid).held (working.isolRxqTab cid) of ++ deeds.flatMap (Deed.taken of) =
      deeds.flatMap (Deed.finished of) ++ (after.position cid).held (after.isolRxqTab cid) of
  possible : (after.position cid).Possible (duties.queues cid) (duties.role cid)
    (after.isolRxqTab cid)
  suits : ∀ deed ∈ deeds, deed.Suits (duties.role cid)
  assigned : ∀ source mbufs, .burst source mbufs ∈ deeds →
    if duties.role cid = .fwdWorker then source ∈ duties.queues cid
    else source ∈ (working.isolRxqTab cid).map IsolRxq.queue
  placed : ∀ index source mbufs, .enqueued index source mbufs ∈ deeds →
    ((working.isolRxqTab cid).map IsolRxq.queue)[index]? = some source
  stats : after.stats = Function.update working.stats cid
    (deeds.foldl (Deed.count pipeline.pktLen (duties.role cid)) (working.stats cid))
  partners : (after.isolRxqTab cid).map IsolRxq.queue =
    (working.isolRxqTab cid).map IsolRxq.queue
  rings : ∀ (index : Nat) (ring : Stored Mbuf),
    (stored rings (working.isolRxqTab cid))[index]? = some ring →
      (stored rings (after.isolRxqTab cid))[index]? = some
        { ring with
          contents := ring.contents ++ deeds.flatMap (Deed.enqueuedAt index)
          space := ring.space - (deeds.flatMap (Deed.enqueuedAt index)).length } ∧
      (deeds.flatMap (Deed.enqueuedAt index)).length ≤ ring.space
  world : Worked pipeline working.world (deeds.map (Prod.mk cid)) after.world
  cleaned : ∀ stamp, .cleanup stamp ∈ deeds → deeds = [.cleanup stamp] ∧
    after.lastCleanup cid = some stamp ∧
    ∃ last, working.lastCleanup cid = some last ∧ (10#64).sle (stamp - last) = true
  kept : ∀ last, working.lastCleanup cid = some last → (∀ stamp, .cleanup stamp ∉ deeds) →
    after.lastCleanup cid = some last
  others : ∀ other, other ≠ cid → after.position other = working.position other ∧
    after.isolRxqTab other = working.isolRxqTab other ∧
    after.lastCleanup other = working.lastCleanup other

variable {pipeline : Pipeline Mbuf Lcore World Fault} {rings : RteRing Mbuf Ring}
  {duties : Duties Lcore} {cid : Lcore} {working after : Working Mbuf Ring Lcore World}
  {plane : Plane Mbuf Ring Lcore World} {now : BitVec 64}

/-! ### Bursts -/

/-- A burst is taken from the front of its queue. -/
theorem rteEthRxBurst_waiting (nic : Nic Mbuf) (source queue : RxQueue) (nbPkts : Nat) :
    nic.waiting queue =
      Deed.taken (only queue) (.burst source (rteEthRxBurst nic source nbPkts).1) ++
        (rteEthRxBurst nic source nbPkts).2.waiting queue := by
  rw [rteEthRxBurst, Deed.taken, only]
  dsimp only
  by_cases same : source = queue
  · subst same
    rw [decide_eq_true rfl, if_pos rfl, Function.update_self, List.take_append_drop]
  · rw [decide_eq_false same, if_neg Bool.false_ne_true,
      Function.update_of_ne (Ne.symm same), List.nil_append]

@[simp]
theorem countBurst_nil (pktLen : Mbuf → BitVec 32) (stats : NetifLcoreStats) :
    countBurst pktLen [] stats = stats := by
  simp [countBurst]

/-- What a burst leaves as it is, and what it changes. -/
structure Bursts (pktLen : Mbuf → BitVec 32) (role : LcoreRole) (cid : Lcore)
    (queue : RxQueue) (plane : Plane Mbuf Ring Lcore World)
    (result : List Mbuf × Plane Mbuf Ring Lcore World) : Prop where
  fst : result.1 = (plane.burst cid queue).1
  nic : result.2.nic = (rteEthRxBurst plane.nic queue NETIF_MAX_PKT_BURST).2
  record : result.2.deeds = plane.deeds ++ [(cid, .burst queue result.1)]
  stats : result.2.stats = Function.update plane.stats cid
    ((Deed.burst queue result.1).count pktLen role (plane.stats cid))
  table : result.2.isolRxqTab = plane.isolRxqTab
  world : result.2.world = plane.world
  clock : result.2.lastCleanup = plane.lastCleanup

theorem netifRxBurst_spec (forwards : duties.role cid = .fwdWorker) (queue : RxQueue)
    (plane : Plane Mbuf Ring Lcore World) :
    Bursts pipeline.pktLen (duties.role cid) cid queue plane
      (netifRxBurst pipeline cid queue plane) := by
  have role : duties.role cid ≠ .isolrxWorker := by simp [forwards]
  rw [netifRxBurst]
  dsimp only
  split
  next some => exact ⟨rfl, rfl, rfl, by rw [Deed.count, if_neg role]; rfl, rfl, rfl, rfl⟩
  next none =>
    have empty := List.eq_nil_of_length_eq_zero (Nat.eq_zero_of_not_pos none)
    refine ⟨rfl, rfl, rfl, ?_, rfl, rfl, rfl⟩
    rw [Deed.count, if_neg role, empty, countBurst_nil]
    exact (Function.update_eq_self cid plane.stats).symm

theorem isolRxBurst_spec (isolates : duties.role cid = .isolrxWorker) (queue : RxQueue)
    (plane : Plane Mbuf Ring Lcore World) :
    Bursts pipeline.pktLen (duties.role cid) cid queue plane
      (isolRxBurst pipeline.pktLen cid queue plane) := by
  rw [isolRxBurst]
  dsimp only
  split
  next empty =>
    have nothing := List.eq_nil_of_length_eq_zero empty
    refine ⟨rfl, rfl, rfl, ?_, rfl, rfl, rfl⟩
    rw [Deed.count, if_pos isolates, nothing, countBurst_nil]
    rfl
  next =>
    refine ⟨rfl, rfl, rfl, ?_, rfl, rfl, rfl⟩
    rw [Deed.count, if_pos isolates]
    simp only [Plane.count, Function.update_self, Function.update_idem]
    rfl

/-! ### Rings -/

section Rings

variable {before : List (IsolRxq Ring)} {deeds : List (Deed Mbuf)}

theorem map_queue_stored (table : List (IsolRxq Ring)) :
    (stored rings table).map Stored.queue = table.map IsolRxq.queue := by
  simp [stored]

/-- Rings into which nothing is put. -/
theorem stored_of_same (nothing : ∀ index, deeds.flatMap (Deed.enqueuedAt index) = [])
    (index : Nat) (ring : Stored Mbuf) (here : (stored rings before)[index]? = some ring) :
    (stored rings before)[index]? = some
        { ring with
          contents := ring.contents ++ deeds.flatMap (Deed.enqueuedAt index)
          space := ring.space - (deeds.flatMap (Deed.enqueuedAt index)).length } ∧
      (deeds.flatMap (Deed.enqueuedAt index)).length ≤ ring.space := by
  rw [nothing, List.append_nil]
  exact ⟨here, Nat.zero_le _⟩

/-- Packets are put into one ring of the table. -/
theorem stored_set {index : Nat} {isolRxq : IsolRxq Ring} {rb : Ring} {mbufs : List Mbuf}
    (found : before[index]? = some isolRxq)
    (contents : rings.contents rb = rings.contents isolRxq.rb ++ mbufs)
    (space : rings.freeCount rb + mbufs.length = rings.freeCount isolRxq.rb)
    (added : ∀ place, deeds.flatMap (Deed.enqueuedAt place) = if index = place then mbufs else [])
    (place : Nat) (ring : Stored Mbuf) (here : (stored rings before)[place]? = some ring) :
    (stored rings (before.set index { isolRxq with rb }))[place]? = some
        { ring with
          contents := ring.contents ++ deeds.flatMap (Deed.enqueuedAt place)
          space := ring.space - (deeds.flatMap (Deed.enqueuedAt place)).length } ∧
      (deeds.flatMap (Deed.enqueuedAt place)).length ≤ ring.space := by
  rw [added]
  by_cases same : index = place
  · subst same
    obtain ⟨inside, -⟩ := List.getElem?_eq_some_iff.mp found
    rw [stored, List.getElem?_map, found] at here
    cases here
    rw [if_pos rfl, stored, List.getElem?_map, List.getElem?_set_self inside]
    exact ⟨by simp [contents, ← space], Nat.le_of_add_left_le space.le⟩
  · rw [if_neg same, stored, List.getElem?_map, List.getElem?_set_ne same,
      ← List.getElem?_map, List.append_nil]
    exact ⟨here, Nat.zero_le _⟩

theorem map_queue_set {index : Nat} {isolRxq : IsolRxq Ring} {rb : Ring}
    (found : before[index]? = some isolRxq) :
    (before.set index { isolRxq with rb }).map IsolRxq.queue = before.map IsolRxq.queue := by
  obtain ⟨inside, rfl⟩ := List.getElem?_eq_some_iff.mp found
  rw [List.map_set, ← List.getElem_map IsolRxq.queue, List.set_getElem_self]
  rwa [List.length_map]

end Rings

/-! ### One turn -/

section Moves

variable {position : Position Mbuf}

@[simp]
theorem move_position_self : (working.move cid plane position).position cid = position :=
  Function.update_self ..

@[simp]
theorem move_toPlane : (working.move cid plane position).toPlane = plane := rfl

theorem move_position_of_ne {other : Lcore} (different : other ≠ cid) :
    (working.move cid plane position).position other = working.position other :=
  Function.update_of_ne different ..

omit [DecidableEq Lcore] in
theorem Worked.single {start final : World} {deed : Deed Mbuf}
    (works : deed.Works pipeline cid start final) :
    Worked pipeline start [(cid, deed)] final := .snoc .nil works

/-- Turns that only move the lcore. -/
theorem turned_quiet (nic : plane.nic = working.nic) (record : plane.deeds = working.deeds)
    (stats : plane.stats = working.stats) (table : plane.isolRxqTab = working.isolRxqTab)
    (world : plane.world = working.world)
    (kept : ∀ last, working.lastCleanup cid = some last → plane.lastCleanup cid = some last)
    (apart : ∀ other, other ≠ cid → plane.lastCleanup other = working.lastCleanup other)
    (held : ∀ of, (working.position cid).held (working.isolRxqTab cid) of =
      position.held (working.isolRxqTab cid) of)
    (possible : position.Possible (duties.queues cid) (duties.role cid)
      (working.isolRxqTab cid)) :
    Turned pipeline rings duties cid working [] (working.move cid plane position) where
  record := by simp [record]
  queues := by simp [nic]
  custody := by simp [table, held]
  possible := by simpa [table] using possible
  suits := by simp
  assigned := by simp
  placed := by simp
  stats := by simp [stats]
  partners := by simp [table]
  rings := by
    rw [move_toPlane, table]
    exact stored_of_same fun _ => rfl
  world := by
    rw [move_toPlane, world]
    exact .nil
  cleaned := by simp
  kept last before _ := kept last before
  others other different :=
    ⟨move_position_of_ne different, congrFun table other, apart other different⟩

/-- A burst that the lcore takes in hand. -/
theorem turned_burst {source : RxQueue} {mbufs : List Mbuf}
    (bursts : Bursts pipeline.pktLen (duties.role cid) cid source working.toPlane (mbufs, plane))
    (suits : Deed.Suits (duties.role cid) (.burst source mbufs))
    (assigned : if duties.role cid = .fwdWorker then source ∈ duties.queues cid
      else source ∈ (working.isolRxqTab cid).map IsolRxq.queue)
    (empty : ∀ of, (working.position cid).held (working.isolRxqTab cid) of = [])
    (held : ∀ of, position.held (working.isolRxqTab cid) of =
      Deed.taken of (.burst source mbufs))
    (possible : position.Possible (duties.queues cid) (duties.role cid)
      (working.isolRxqTab cid)) :
    Turned pipeline rings duties cid working [.burst source mbufs]
      (working.move cid plane position) where
  record := bursts.record
  queues queue := by
    have taken := rteEthRxBurst_waiting working.nic source queue NETIF_MAX_PKT_BURST
    rw [← bursts.nic] at taken
    have same : mbufs = (rteEthRxBurst working.nic source NETIF_MAX_PKT_BURST).1 := bursts.fst
    simpa [same] using taken
  custody queue := by
    have table : plane.isolRxqTab = working.isolRxqTab := bursts.table
    simp [empty, table, held, Deed.finished, Deed.processing, Deed.enqueuing, Deed.dropping]
  possible := by
    have table : plane.isolRxqTab = working.isolRxqTab := bursts.table
    simpa [table] using possible
  suits := by
    intro deed member
    exact List.mem_singleton.mp member ▸ suits
  assigned := by
    intro other others member
    cases List.mem_singleton.mp member
    exact assigned
  placed := by simp
  stats := bursts.stats
  partners := congrArg (List.map IsolRxq.queue) (congrFun bursts.table cid)
  rings := by
    rw [move_toPlane, show plane.isolRxqTab = working.isolRxqTab from bursts.table]
    exact stored_of_same fun _ => rfl
  world := by
    have world : plane.world = working.world := bursts.world
    rw [move_toPlane, world]
    exact .single (.burst _ _ _)
  cleaned := by simp
  kept last before _ := (congrFun bursts.clock cid).trans before
  others other different :=
    ⟨move_position_of_ne different, congrFun bursts.table other, congrFun bursts.clock other⟩

/-- A packet of a burst is processed. -/
theorem turned_forward {queue : RxQueue} {mbuf : Mbuf} {mbufs : List Mbuf} {rest : List RxQueue}
    (here : working.position cid = .recvHold queue (mbuf :: mbufs) rest)
    (possible : (working.position cid).Possible (duties.queues cid) (duties.role cid)
      (working.isolRxqTab cid))
    (done : forward pipeline cid queue working.toPlane mbuf = .ok plane) :
    ∃ ret, Turned pipeline rings duties cid working [.processed queue mbuf ret]
      (working.move cid plane (.recvHold queue mbufs rest)) := by
  obtain ⟨⟨ret, world⟩, processed, done⟩ := bind_ok done
  have works : Deed.Works pipeline cid working.world (.processed queue mbuf ret) world :=
    .processed queue processed
  rw [here] at possible
  -- the two ways differ in the counters only
  suffices all : plane.nic = working.nic ∧
      plane.deeds = working.deeds ++ [(cid, .processed queue mbuf ret)] ∧
      plane.isolRxqTab = working.isolRxqTab ∧ plane.world = world ∧
      plane.lastCleanup = working.lastCleanup ∧
      plane.stats = Function.update working.stats cid
        ((Deed.processed queue mbuf ret).count pipeline.pktLen (duties.role cid)
          (working.stats cid)) by
    obtain ⟨nic, record, table, rfl, clock, stats⟩ := all
    exact ⟨ret, {
      record := record
      queues := by simp [nic, Deed.taken]
      custody := fun of => by
        simp only [here, Position.held, Deed.finished, Deed.processing, Deed.enqueuing,
          Deed.dropping, move_position_self, Deed.taken, List.flatMap_cons, List.flatMap_nil,
          List.append_nil]
        cases of queue with
        | true => rfl
        | false => rfl
      possible := by simpa [table, Position.Possible] using possible
      suits := by
        intro deed member
        rw [List.mem_singleton.mp member]
        exact possible.1
      assigned := by simp
      placed := by simp
      stats := stats
      partners := by simp [table]
      rings := by
        rw [move_toPlane, table]
        exact stored_of_same fun _ => rfl
      world := .single works
      cleaned := by simp
      kept := fun last before _ => (congrFun clock cid).trans before
      others := fun other different =>
        ⟨move_position_of_ne different, congrFun table other, congrFun clock other⟩ }⟩
  dsimp only at done
  split at done
  next failed =>
    cases done
    exact ⟨rfl, rfl, rfl, rfl, rfl, by rw [Deed.count, if_pos failed]; rfl⟩
  next succeeded =>
    cases done
    exact ⟨rfl, rfl, rfl, rfl, rfl, by
      rw [Deed.count, if_neg succeeded]
      exact (Function.update_eq_self cid working.stats).symm⟩

/-- The end of a round over the queues. -/
theorem turned_cleanup (here : working.position cid = .recvPoll [])
    (forwards : duties.role cid = .fwdWorker)
    (done : periodicCleanup pipeline cid now working.toPlane = .ok plane) :
    ∃ deeds, Turned pipeline rings duties cid working deeds
      (working.move cid plane .between) := by
  have nothing (of : RxQueue → Bool) :
      (working.position cid).held (working.isolRxqTab cid) of = [] := by
    rw [here]
    rfl
  rw [periodicCleanup] at done
  split at done
  next =>
    cases done
    exact ⟨[], turned_quiet rfl rfl rfl rfl rfl (fun _ => id) (fun _ _ => rfl) nothing trivial⟩
  next last started =>
    split at done
    next late =>
      obtain ⟨world, cleaned, done⟩ := bind_ok done
      cases done
      exact ⟨[.cleanup now], {
        record := rfl
        queues := fun _ => rfl
        custody := fun of => by
          rw [nothing, move_position_self]
          rfl
        possible := by simp [Position.Possible]
        suits := fun deed member => by
          rw [List.mem_singleton.mp member]
          exact forwards
        assigned := by simp
        placed := by simp
        stats := (Function.update_eq_self cid working.stats).symm
        partners := rfl
        rings := stored_of_same fun _ => rfl
        world := .single (.cleanup cleaned)
        cleaned := fun stamp member => by
          cases List.mem_singleton.mp member
          exact ⟨rfl, Function.update_self .., last, started, late⟩
        kept := fun _ _ never => absurd (List.mem_singleton_self _) (never now)
        others := fun other different =>
          ⟨move_position_of_ne different, rfl, Function.update_of_ne different ..⟩ }⟩
    next early =>
      cases done
      exact ⟨[], turned_quiet rfl rfl rfl rfl rfl (fun _ => id) (fun _ _ => rfl) nothing trivial⟩

theorem setRing_isolRxqTab_self {index : Nat} {isolRxq : IsolRxq Ring} :
    (plane.setRing cid index isolRxq).isolRxqTab cid =
      (plane.isolRxqTab cid).set index isolRxq :=
  Function.update_self ..

section Enqueue

variable {index : Nat} {isolRxq : IsolRxq Ring} {mbufs : List Mbuf}

theorem isolEnqueue_enough (space : mbufs.length ≤ rings.freeCount isolRxq.rb) :
    (isolEnqueue rings cid index isolRxq mbufs plane).1 =
      (plane.setRing cid index
        { isolRxq with rb := (rings.enqueueBulk isolRxq.rb mbufs).2 }).record cid
        (.enqueued index isolRxq.queue mbufs) := by
  have res := (rings.enough isolRxq.rb mbufs space).1
  simp [isolEnqueue, res]

theorem isolEnqueue_full (space : rings.freeCount isolRxq.rb < mbufs.length) :
    (isolEnqueue rings cid index isolRxq mbufs plane).1 =
      (((plane.setRing cid index isolRxq).record cid (.enqueued index isolRxq.queue [])).count
        cid fun stats =>
          { stats with dropped := stats.dropped + BitVec.ofNat 64 mbufs.length }).record cid
        (.dropped isolRxq.queue mbufs) := by
  have full := rings.full isolRxq.rb mbufs space
  have some : 0 < mbufs.length := Nat.lt_of_le_of_lt (Nat.zero_le _) space
  simp [isolEnqueue, full, some]

end Enqueue

/-- A burst is put into a ring. -/
theorem turned_enqueue {index : Nat} {mbufs : List Mbuf} {isolRxq : IsolRxq Ring}
    (here : working.position cid = .isolHold index mbufs)
    (possible : (working.position cid).Possible (duties.queues cid) (duties.role cid)
      (working.isolRxqTab cid))
    (found : (working.isolRxqTab cid)[index]? = some isolRxq) (next : Nat) :
    ∃ deeds, Turned pipeline rings duties cid working deeds
      (working.move cid (isolEnqueue rings cid index isolRxq mbufs working.toPlane).1
        (.isolPoll next)) := by
  have holds (of : RxQueue → Bool) : (working.position cid).held (working.isolRxqTab cid) of =
      if of isolRxq.queue then mbufs else [] := by
    rw [here, Position.held, found]
  rw [here] at possible
  by_cases space : mbufs.length ≤ rings.freeCount isolRxq.rb
  · obtain ⟨-, contents, less⟩ := rings.enough isolRxq.rb mbufs space
    have added (place : Nat) :
        [Deed.enqueued index isolRxq.queue mbufs].flatMap (Deed.enqueuedAt place) =
          if index = place then mbufs else [] := by
      simp [Deed.enqueuedAt]
    rw [isolEnqueue_enough space]
    exact ⟨[.enqueued index isolRxq.queue mbufs], {
      record := rfl
      queues := fun _ => rfl
      custody := fun of => by
        rw [holds, move_position_self]
        simp [Deed.taken, Deed.finished, Deed.processing, Deed.enqueuing, Deed.dropping,
          Position.held]
      possible := by simpa [Position.Possible] using possible.1
      suits := by simp [Deed.Suits, possible.1]
      assigned := by simp
      placed := fun place source others member => by
        cases List.mem_singleton.mp member
        rw [List.getElem?_map, found, Option.map_some]
      stats := (Function.update_eq_self cid working.stats).symm
      partners := (congrArg _ setRing_isolRxqTab_self).trans (map_queue_set found)
      rings := fun place ring here => by
        have after := stored_set found contents less added place ring here
        rwa [← setRing_isolRxqTab_self] at after
      world := .single (.enqueued _ _ _ _)
      cleaned := by simp
      kept := fun _ before _ => before
      others := fun other different =>
        ⟨move_position_of_ne different, Function.update_of_ne different .., rfl⟩ }⟩
  · have added (place : Nat) :
        [Deed.enqueued index isolRxq.queue [], .dropped isolRxq.queue mbufs].flatMap
          (Deed.enqueuedAt place) = if index = place then [] else [] := by
      simp [Deed.enqueuedAt]
    rw [isolEnqueue_full (not_le.mp space)]
    exact ⟨[.enqueued index isolRxq.queue [], .dropped isolRxq.queue mbufs], {
      record := List.append_assoc ..
      queues := fun _ => rfl
      custody := fun of => by
        rw [holds, move_position_self]
        simp [Deed.taken, Deed.finished, Deed.processing, Deed.enqueuing, Deed.dropping,
          Position.held]
      possible := by simpa [Position.Possible] using possible.1
      suits := by simp [Deed.Suits, possible.1]
      assigned := by simp
      placed := fun place source others member => by
        rcases List.mem_pair.mp member with same | same
        · cases same
          rw [List.getElem?_map, found, Option.map_some]
        · cases same
      stats := rfl
      partners := (congrArg _ setRing_isolRxqTab_self).trans (map_queue_set found)
      rings := fun place ring here => by
        have after := stored_set found (List.append_nil _).symm rfl added place ring here
        rwa [← setRing_isolRxqTab_self] at after
      world := .snoc (.single (.enqueued _ _ _ _)) (.dropped _ _ _)
      cleaned := by simp
      kept := fun _ before _ => before
      others := fun other different =>
        ⟨move_position_of_ne different, Function.update_of_ne different .., rfl⟩ }⟩

end Moves

/-- Every lcore is at a position of its job. -/
def Working.Sound (duties : Duties Lcore) (working : Working Mbuf Ring Lcore World) : Prop :=
  ∀ cid, (working.position cid).Possible (duties.queues cid) (duties.role cid)
    (working.isolRxqTab cid)

theorem move_same : working.move cid working.toPlane (working.position cid) = working := by
  rw [Working.move, Function.update_eq_self]

theorem startCleanup_spec (cid : Lcore) (now : BitVec 64) (plane : Plane Mbuf Ring Lcore World) :
    (startCleanup cid now plane).nic = plane.nic ∧
      (startCleanup cid now plane).deeds = plane.deeds ∧
      (startCleanup cid now plane).stats = plane.stats ∧
      (startCleanup cid now plane).isolRxqTab = plane.isolRxqTab ∧
      (startCleanup cid now plane).world = plane.world ∧
      (∀ last, plane.lastCleanup cid = some last →
        (startCleanup cid now plane).lastCleanup cid = some last) ∧
      ∀ other, other ≠ cid →
        (startCleanup cid now plane).lastCleanup other = plane.lastCleanup other := by
  rw [startCleanup]
  split
  next fresh =>
    refine ⟨rfl, rfl, rfl, rfl, rfl, ?_, fun other different => ?_⟩
    · intro last before
      rw [fresh] at before
      cases before
    · exact Function.update_of_ne different ..
  next => exact ⟨rfl, rfl, rfl, rfl, rfl, fun _ => id, fun _ _ => rfl⟩

/-- The start of a job. -/
theorem begin_turned (here : working.position cid = .between) :
    Turned pipeline rings duties cid working [] (begin duties working cid now) := by
  have nothing (of : RxQueue → Bool) :
      (working.position cid).held (working.isolRxqTab cid) of = [] := by
    rw [here]
    rfl
  rw [begin]
  split
  next forwards =>
    obtain ⟨nic, record, stats, table, world, kept, apart⟩ :=
      startCleanup_spec cid now working.toPlane
    exact turned_quiet nic record stats table world kept apart nothing
      ⟨forwards, List.Subset.refl _⟩
  next isolates =>
    exact turned_quiet rfl rfl rfl rfl rfl (fun _ => id) (fun _ _ => rfl) nothing isolates
  next =>
    have same : Turned pipeline rings duties cid working []
        (working.move cid working.toPlane (working.position cid)) :=
      turned_quiet rfl rfl rfl rfl rfl (fun _ => id) (fun _ _ => rfl) (fun _ => rfl)
        (by rw [here]; trivial)
    rwa [move_same] at same

/-- What an lcore does in a turn. -/
theorem takeTurn_turned (sound : working.Sound duties)
    (done : takeTurn pipeline rings duties working cid now = .ok after) :
    ∃ deeds, Turned pipeline rings duties cid working deeds after := by
  have possible := sound cid
  rw [takeTurn] at done
  split at done
  next here =>
    cases done
    exact ⟨[], begin_turned here⟩
  next here =>
    obtain ⟨plane, cleaned, moved⟩ := bind_ok done
    cases moved
    rw [here] at possible
    exact turned_cleanup here possible.1 cleaned
  next queue rest here =>
    cases done
    rw [here] at possible
    obtain ⟨inQueues, others⟩ := List.cons_subset.mp possible.2
    exact ⟨_, turned_burst (netifRxBurst_spec possible.1 queue working.toPlane)
      (Or.inl possible.1) (by rwa [if_pos possible.1]) (fun _ => by rw [here]; rfl)
      (fun _ => rfl) ⟨possible.1, inQueues, others⟩⟩
  next queue rest here =>
    cases done
    rw [here] at possible
    have empty (of : RxQueue → Bool) :
        (working.position cid).held (working.isolRxqTab cid) of = [] := by
      rw [here, Position.held, ite_self]
    exact ⟨[], turned_quiet rfl rfl rfl rfl rfl (fun _ => id) (fun _ _ => rfl) empty
      ⟨possible.1, possible.2.2⟩⟩
  next queue mbuf mbufs rest here =>
    obtain ⟨plane, forwarded, moved⟩ := bind_ok done
    cases moved
    obtain ⟨ret, turned⟩ := turned_forward here possible forwarded
    exact ⟨_, turned⟩
  next index here =>
    have nothing (of : RxQueue → Bool) :
        (working.position cid).held (working.isolRxqTab cid) of = [] := by
      rw [here]
      rfl
    rw [here] at possible
    split at done
    next =>
      cases done
      exact ⟨[], turned_quiet rfl rfl rfl rfl rfl (fun _ => id) (fun _ _ => rfl) nothing trivial⟩
    next isolRxq found =>
      have bursts : Bursts pipeline.pktLen _ cid _ _ _ :=
        isolRxBurst_spec possible isolRxq.queue working.toPlane
      have member : if duties.role cid = .fwdWorker then isolRxq.queue ∈ duties.queues cid
          else isolRxq.queue ∈ (working.isolRxqTab cid).map IsolRxq.queue := by
        rw [if_neg (by rw [show duties.role cid = _ from possible]; decide)]
        exact List.mem_map_of_mem (List.mem_of_getElem? found)
      have inside := (List.getElem?_eq_some_iff.mp found).1
      generalize isolRxBurst pipeline.pktLen cid isolRxq.queue working.toPlane = result
        at done bursts
      obtain ⟨mbufs, plane⟩ := result
      dsimp only at done
      split at done
      next empty =>
        cases done
        refine ⟨_, turned_burst bursts (Or.inr possible) member nothing (fun of => ?_)
          possible⟩
        rw [Deed.taken, List.eq_nil_of_length_eq_zero empty, ite_self]
        rfl
      next =>
        cases done
        refine ⟨_, turned_burst bursts (Or.inr possible) member nothing (fun of => ?_)
          ⟨possible, inside, ?_⟩⟩
        · rw [Position.held, found]
          rfl
        · rw [show mbufs = _ from bursts.fst]
          exact burst_length_le cid isolRxq.queue working.toPlane
  next index mbufs here =>
    rw [here] at possible
    split at done
    next missing => exact absurd possible.2.1 (not_lt.mpr (List.getElem?_eq_none_iff.mp missing))
    next isolRxq found =>
      cases done
      exact turned_enqueue here (here ▸ possible) found _

end Turn

end NetDefender.Netif
