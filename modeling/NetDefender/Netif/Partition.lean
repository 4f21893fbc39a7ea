import Mathlib.Data.List.Flatten
import Mathlib.Data.List.Perm.Subperm
import NetDefender.Netif.Lcores

/-!
# Queues that are shared out

If `check_lcore_conf` finds nothing wrong, the rx queues of each port, and its tx queues, are
numbered from 0 on and each is given to one lcore.
-/

namespace NetDefender.Netif

open Fallible

/-! ## Initial runs -/

/-- The entries with ports come before those without, and there are at most `lcores` of
them. -/
structure InitialRun (lcores : Nat) (conf : List NetifLcoreConf) : Prop where
  first : conf.Pairwise fun entry later => entry.nports = 0 → later.nports = 0
  few : (conf.countP fun entry => 0 < entry.nports) ≤ lcores

/-- All ports of all lcores. -/
def allPorts (conf : List NetifLcoreConf) : List NetifPortConf :=
  conf.flatMap NetifLcoreConf.pqs

/-- The ids of the queues of a port over all lcores. -/
def queueIds (queues : NetifPortConf → List NetifQueueConf) (pid : Nat)
    (conf : List NetifLcoreConf) : List Nat :=
  ((allPorts conf).filter fun port => port.id = pid).flatMap fun port =>
    (queues port).map NetifQueueConf.id

/-- After an entry without ports there are no ports. -/
theorem allPorts_of_idle {entry : NetifLcoreConf} {rest : List NetifLcoreConf}
    (first : (entry :: rest).Pairwise fun entry later => entry.nports = 0 → later.nports = 0)
    (idle : ¬entry.nports > 0) : allPorts (entry :: rest) = [] := by
  have none := Nat.eq_zero_of_not_pos idle
  rw [allPorts, List.flatMap_eq_nil_iff]
  intro other member
  rcases List.mem_cons.mp member with rfl | later
  · exact List.length_eq_zero_iff.mp none
  · exact List.length_eq_zero_iff.mp (List.rel_of_pairwise_cons first later none)

theorem allPorts_cons (entry : NetifLcoreConf) (rest : List NetifLcoreConf) :
    allPorts (entry :: rest) = entry.pqs ++ allPorts rest := List.flatMap_cons

/-! ## Counting -/

theorem portQueuesGet_eq {count : NetifPortConf → Nat} {pid total : Nat}
    {conf : List NetifLcoreConf}
    (first : conf.Pairwise fun entry later => entry.nports = 0 → later.nports = 0)
    (counted : portQueuesGet count pid conf = .ok total) :
    total = ((allPorts conf).map fun port => if port.id = pid then count port else 0).sum := by
  induction conf generalizing total with
  | nil => cases counted
  | cons entry rest ih =>
      rw [portQueuesGet] at counted
      split at counted
      next =>
        obtain ⟨later, remaining, rfl⟩ := map_ok counted
        rw [ih first.of_cons remaining, allPorts_cons, List.map_append, List.sum_append]
      next idle =>
        cases counted
        rw [allPorts_of_idle first idle]
        rfl

theorem length_queueIds (queues : NetifPortConf → List NetifQueueConf) (pid : Nat)
    (conf : List NetifLcoreConf) :
    (queueIds queues pid conf).length = ((allPorts conf).map fun port =>
      if port.id = pid then (queues port).length else 0).sum := by
  rw [queueIds]
  generalize allPorts conf = ports
  induction ports with
  | nil => rfl
  | cons port rest ih =>
      rw [List.filter_cons, List.map_cons, List.sum_cons, ← ih]
      by_cases same : port.id = pid
      · simp [same]
      · simp [same]

/-! ## Marks -/

/-- The port and the id of each queue. -/
def assigned (queues : NetifPortConf → List NetifQueueConf) (ports : List NetifPortConf) :
    List (Nat × Nat) :=
  ports.flatMap fun port => (queues port).map fun queue => (port.id, queue.id)

/-- Exactly the queues of a list are marked, and each is there once. -/
structure Records (marks : Marks) (pairs : List (Nat × Nat)) : Prop where
  nodup : pairs.Nodup
  marked : ∀ pid qid, marks pid qid = LCONFCHK_MARK ↔ (pid, qid) ∈ pairs

theorem records_empty : Records (fun _ _ => 0) [] :=
  ⟨List.nodup_nil, fun _ _ => iff_of_false (by decide) List.not_mem_nil⟩

theorem Records.markQueue {repeated : LconfChk} {pid : Nat} {marks after : Marks}
    {queue : NetifQueueConf} {pairs : List (Nat × Nat)} (records : Records marks pairs)
    (passed : markQueue repeated pid marks queue = .ok after) :
    Records after (pairs ++ [(pid, queue.id)]) := by
  rw [Netif.markQueue] at passed
  split at passed
  next => cases passed
  next =>
    split at passed
    next => cases passed
    next unmarked =>
      cases passed
      refine ⟨?_, fun port qid => ?_⟩
      · have fresh := mt (records.marked pid queue.id).mpr unmarked
        exact List.nodup_append.mpr ⟨records.nodup, List.nodup_singleton _, by
          rintro pair member _ (_ | ⟨_, ⟨⟩⟩) rfl
          exact fresh member⟩
      · rw [List.mem_append, List.mem_singleton, Prod.mk.injEq, ← records.marked]
        by_cases here : port = pid ∧ qid = queue.id
        · rw [if_pos here]
          exact iff_of_true rfl (.inr here)
        · rw [if_neg here, or_iff_left here]

theorem Records.markQueues {repeated : LconfChk} {pid : Nat} {marks after : Marks}
    {queues : List NetifQueueConf} {pairs : List (Nat × Nat)} (records : Records marks pairs)
    (passed : queues.foldlM (Netif.markQueue repeated pid) marks = .ok after) :
    Records after (pairs ++ queues.map fun queue => (pid, queue.id)) := by
  refine foldlM_ok
    (fun past marks => Records marks (pairs ++ past.map fun queue => (pid, queue.id)))
    (fun past marks queue next held stepped => ?_) (by simpa using records) passed
  rw [List.map_append, ← List.append_assoc]
  exact held.markQueue stepped

/-- Both tables of marks record the queues of the same ports. -/
structure Mark.Records (mark : Mark) (ports : List NetifPortConf) : Prop where
  rxqs : Netif.Records mark.rxqs (assigned NetifPortConf.rxqs ports)
  txqs : Netif.Records mark.txqs (assigned NetifPortConf.txqs ports)

theorem assigned_concat (queues : NetifPortConf → List NetifQueueConf)
    (ports : List NetifPortConf) (port : NetifPortConf) :
    assigned queues (ports ++ [port]) =
      assigned queues ports ++ (queues port).map fun queue => (port.id, queue.id) := by
  simp [assigned]

theorem Mark.Records.markPort {mark after : Mark} {ports : List NetifPortConf}
    {port : NetifPortConf} (records : mark.Records ports)
    (passed : markPort mark port = .ok after) : after.Records (ports ++ [port]) := by
  obtain ⟨rxqs, first, passed⟩ := bind_ok passed
  obtain ⟨txqs, second, passed⟩ := bind_ok passed
  cases passed
  exact ⟨by rw [assigned_concat]; exact records.rxqs.markQueues first,
    by rw [assigned_concat]; exact records.txqs.markQueues second⟩

theorem Mark.Records.markEntry {nports : Nat} {mark after : Mark}
    {ports : List NetifPortConf} {entry : NetifLcoreConf} (records : mark.Records ports)
    (passed : markEntry nports mark entry = .ok after) :
    after.Records (ports ++ entry.pqs) := by
  rw [Netif.markEntry] at passed
  split at passed
  next => cases passed
  next =>
    refine foldlM_ok (fun past mark => mark.Records (ports ++ past))
      (fun past mark port next held stepped => ?_) (by simpa using records) passed
    rw [← List.append_assoc]
    exact held.markPort stepped

theorem Mark.Records.markEntries {lcores nports i j : Nat} {mark after : Mark}
    {ports : List NetifPortConf} {conf : List NetifLcoreConf} (records : mark.Records ports)
    (run : InitialRun (lcores - i) conf)
    (passed : markEntries lcores nports i mark conf = .ok (j, after)) :
    after.Records (ports ++ allPorts conf) := by
  induction conf generalizing i mark ports with
  | nil => cases passed
  | cons entry rest ih =>
      rw [Netif.markEntries] at passed
      split at passed
      next used =>
        obtain ⟨middle, first, passed⟩ := bind_ok passed
        have few := run.few
        rw [List.countP_cons_of_pos (by simpa using used)] at few
        rw [allPorts_cons, ← List.append_assoc]
        have held := records.markEntry first
        split at passed
        next last =>
          cases passed
          -- there is no place for another entry with ports
          have none : (rest.countP fun entry => 0 < entry.nports) = 0 := by omega
          have empty : allPorts rest = [] := by
            rw [allPorts, List.flatMap_eq_nil_iff]
            intro other member
            have idle := List.countP_eq_zero.mp none other member
            rw [decide_eq_true_eq] at idle
            exact List.length_eq_zero_iff.mp (Nat.eq_zero_of_not_pos idle)
          rw [empty, List.append_nil]
          exact held
        next => exact ih held ⟨run.first.of_cons, by omega⟩ passed
      next idle =>
        cases passed
        rw [allPorts_of_idle run.first idle, List.append_nil]
        exact records

/-! ## Numbered from 0 on -/

/-- A list in which every number below its length occurs has no place for another one. -/
theorem perm_range_of_mem {ids : List Nat} (all : ∀ id < ids.length, id ∈ ids) :
    ids.Perm (List.range ids.length) := by
  have inside : List.range ids.length ⊆ ids := fun id member => all id (List.mem_range.mp member)
  have sub := List.subperm_of_subset List.nodup_range inside
  exact (sub.perm_of_length_le (by rw [List.length_range])).symm

theorem mem_queueIds {queues : NetifPortConf → List NetifQueueConf} {pid qid : Nat}
    {conf : List NetifLcoreConf} :
    qid ∈ queueIds queues pid conf ↔ (pid, qid) ∈ assigned queues (allPorts conf) := by
  simp only [queueIds, assigned, List.mem_flatMap, List.mem_filter, List.mem_map,
    decide_eq_true_eq, Prod.mk.injEq]
  constructor
  · rintro ⟨port, ⟨member, rfl⟩, queue, inside, rfl⟩
    exact ⟨port, member, queue, inside, rfl, rfl⟩
  · rintro ⟨port, member, queue, inside, rfl, rfl⟩
    exact ⟨port, ⟨member, rfl⟩, queue, inside, rfl⟩

/-- The queues of one port are some of the queues of all ports. -/
theorem queueIds_sublist (queues : NetifPortConf → List NetifQueueConf) (pid : Nat)
    (conf : List NetifLcoreConf) :
    ((queueIds queues pid conf).map fun qid => (pid, qid)).Sublist
      (assigned queues (allPorts conf)) := by
  have own : ((queueIds queues pid conf).map fun qid => (pid, qid)) =
      assigned queues ((allPorts conf).filter fun port => port.id = pid) := by
    rw [queueIds, assigned, List.map_flatMap]
    refine List.flatMap_congr fun port member => ?_
    have same := of_decide_eq_true (List.mem_filter.mp member).2
    rw [List.map_map, same]
    rfl
  rw [own]
  exact List.filter_sublist.flatMap _

theorem nodup_queueIds {queues : NetifPortConf → List NetifQueueConf} {pid : Nat}
    {conf : List NetifLcoreConf} {marks : Marks}
    (records : Records marks (assigned queues (allPorts conf))) :
    (queueIds queues pid conf).Nodup :=
  .of_map _ (records.nodup.sublist (queueIds_sublist queues pid conf))

/-- Distinct numbers below a bound are not more than the bound. -/
theorem length_le_of_nodup {ids : List Nat} {bound : Nat} (nodup : ids.Nodup)
    (below : ∀ id ∈ ids, id < bound) : ids.length ≤ bound := by
  have inside : ids ⊆ List.range bound := fun id member => List.mem_range.mpr (below id member)
  have short := (List.subperm_of_subset nodup inside).length_le
  rwa [List.length_range] at short

/-- The marks below the number of the queues show that the queues are numbered from 0. -/
theorem queues_numbered {queues : NetifPortConf → List NetifQueueConf} {pid : Nat}
    {conf : List NetifLcoreConf} {marks : Marks}
    (records : Records marks (assigned queues (allPorts conf)))
    (below : ∀ qid ∈ queueIds queues pid conf, qid < NETIF_MAX_QUEUES)
    (passed : (List.range ((queueIds queues pid conf).length % 2 ^ 8)).forM
      (checkMark marks pid) = .ok ()) :
    (queueIds queues pid conf).Perm (List.range (queueIds queues pid conf).length) := by
  have nodup : (queueIds queues pid conf).Nodup := nodup_queueIds records
  have few := length_le_of_nodup nodup below
  rw [Nat.mod_eq_of_lt (Nat.lt_of_le_of_lt few (by decide))] at passed
  refine perm_range_of_mem fun qid low => ?_
  have tested := forM_ok_iff.mp passed qid (List.mem_range.mpr low)
  rw [checkMark] at tested
  split at tested
  next => cases tested
  next =>
    split at tested
    next => cases tested
    next marked =>
      exact mem_queueIds.mpr ((records.marked pid qid).mp (not_not.mp marked).symm)

/-- Both kinds of queues of a port pass the second pass. -/
theorem checkQueues_ok {mark : Mark} {conf : List NetifLcoreConf} {pid : Nat}
    (first : conf.Pairwise fun entry later => entry.nports = 0 → later.nports = 0)
    (passed : checkQueues mark conf pid = .ok ()) :
    (List.range ((queueIds NetifPortConf.rxqs pid conf).length % 2 ^ 8)).forM
        (checkMark mark.rxqs pid) = .ok () ∧
      (List.range ((queueIds NetifPortConf.txqs pid conf).length % 2 ^ 8)).forM
        (checkMark mark.txqs pid) = .ok () := by
  obtain ⟨nrxq, rxCounted, passed⟩ := bind_ok passed
  obtain ⟨⟨⟩, rxPassed, passed⟩ := bind_ok passed
  obtain ⟨ntxq, txCounted, txPassed⟩ := bind_ok passed
  have rxEq := portQueuesGet_eq first rxCounted
  have txEq := portQueuesGet_eq first txCounted
  rw [length_queueIds, length_queueIds]
  exact ⟨rxEq ▸ rxPassed, txEq ▸ txPassed⟩

/-! ## The ports of each lcore -/

/-- The distinct ids of a list of ports below the device count. -/
structure Collects (known ids : List Nat) : Prop where
  nodup : known.Nodup
  mem : ∀ pid, pid ∈ known ↔ pid ∈ ids

theorem Collects.addPort {known ids : List Nat} {pid devices : Nat}
    (collects : Collects known ids) (below : ∀ id ∈ ids ++ [pid], id < devices)
    (small : devices < 2 ^ 8) : Collects (addPort known pid) (ids ++ [pid]) := by
  rw [Netif.addPort]
  have short : known.length ≤ devices := length_le_of_nodup collects.nodup fun id member =>
    below id (List.mem_append_left _ ((collects.mem id).mp member))
  split
  next seen =>
    refine ⟨collects.nodup, fun id => ?_⟩
    rw [List.mem_append, List.mem_singleton, collects.mem]
    refine ⟨.inl, fun member => member.elim (fun old => old) fun new => ?_⟩
    exact (collects.mem id).mp (new ▸ seen)
  next unseen =>
    have bounded := below pid (List.mem_append_right _ (List.mem_singleton_self _))
    have new : (known ++ [pid]).Nodup :=
      List.nodup_append.mpr ⟨collects.nodup, List.nodup_singleton _, by
        rintro id member _ (_ | ⟨_, ⟨⟩⟩) rfl
        exact unseen member⟩
    have longer := length_le_of_nodup new fun id member => by
      rcases List.mem_append.mp member with old | here
      · exact below id (List.mem_append_left _ ((collects.mem id).mp old))
      · exact List.mem_singleton.mp here ▸ bounded
    rw [List.length_append, List.length_singleton] at longer
    rw [if_neg (by omega)]
    refine ⟨new, fun id => ?_⟩
    rw [List.mem_append, List.mem_append, collects.mem]

theorem Collects.addPorts {known ids pids : List Nat} {devices : Nat}
    (collects : Collects known ids) (below : ∀ id ∈ ids ++ pids, id < devices)
    (small : devices < 2 ^ 8) : Collects (pids.foldl Netif.addPort known) (ids ++ pids) := by
  induction pids generalizing known ids with
  | nil => rwa [List.append_nil]
  | cons pid rest ih =>
      have grouped : ids ++ pid :: rest = ids ++ [pid] ++ rest := by simp
      rw [grouped] at below ⊢
      exact ih (collects.addPort (fun id member =>
        below id (List.mem_append_left _ member)) small) below

theorem Collects.configuredPorts {lcores devices : Nat} {known ids result : List Nat}
    {conf : List NetifLcoreConf} (collects : Collects known ids)
    (run : InitialRun lcores conf)
    (below : ∀ id ∈ ids ++ (allPorts conf).map NetifPortConf.id, id < devices)
    (small : devices < 2 ^ 8) (passed : configuredPorts lcores known conf = .ok result) :
    Collects result (ids ++ (allPorts conf).map NetifPortConf.id) := by
  induction conf generalizing lcores known ids with
  | nil => cases passed
  | cons entry rest ih =>
      rw [Netif.configuredPorts] at passed
      rw [allPorts_cons, List.map_append, ← List.append_assoc] at below
      split at passed
      next used =>
        have few := run.few
        rw [List.countP_cons_of_pos (by simpa using used.1)] at few
        rw [allPorts_cons, List.map_append, ← List.append_assoc]
        refine ih (collects.addPorts (fun id member =>
          below id (List.mem_append_left _ member)) small)
          ⟨run.first.of_cons, by omega⟩ below passed
      next stopped =>
        cases passed
        have idle : ¬entry.nports > 0 := by
          intro used
          have few := run.few
          rw [List.countP_cons_of_pos (by simpa using used)] at few
          exact stopped ⟨used, by omega⟩
        rw [allPorts_of_idle run.first idle, List.map_nil, List.append_nil]
        exact collects

theorem checkPorts_ok {lcores nportsConf i : Nat} {conf : List NetifLcoreConf}
    (run : InitialRun (lcores - i) conf)
    (passed : checkPorts lcores nportsConf i conf = .ok ()) :
    ∀ entry ∈ conf, 0 < entry.nports →
      entry.nports = nportsConf ∧ ∀ port ∈ entry.pqs, 1 ≤ port.ntxq := by
  induction conf generalizing i with
  | nil => cases passed
  | cons entry rest ih =>
      intro other member usedOther
      rw [checkPorts] at passed
      split at passed
      next used =>
        have few := run.few
        rw [List.countP_cons_of_pos (by simpa using used)] at few
        split at passed
        next => cases passed
        next ports =>
          split at passed
          next => cases passed
          next queues =>
            rcases List.mem_cons.mp member with rfl | later
            · refine ⟨not_not.mp ports, fun port inside => Nat.le_of_not_lt fun short => ?_⟩
              exact queues (List.any_eq_true.mpr ⟨port, inside, decide_eq_true short⟩)
            · split at passed
              next last =>
                have none : (rest.countP fun entry => 0 < entry.nports) = 0 := by omega
                have idle := List.countP_eq_zero.mp none other later
                rw [decide_eq_true_eq] at idle
                exact absurd usedOther idle
              next => exact ih ⟨run.first.of_cons, by omega⟩ passed other later usedOther
      next idle =>
        have none := Nat.eq_zero_of_not_pos idle
        rcases List.mem_cons.mp member with rfl | later
        · exact absurd usedOther idle
        · have nothing := List.rel_of_pairwise_cons run.first later none
          omega

/-! ## The whole check -/

/-- What a successful check says of the queues of one kind. -/
theorem queues_shared {queues : NetifPortConf → List NetifQueueConf}
    {conf : List NetifLcoreConf} {marks : Marks} {devices : Nat}
    (records : Records marks (assigned queues (allPorts conf)))
    (ports : ∀ port ∈ allPorts conf, port.id < devices)
    (below : ∀ port ∈ allPorts conf, ∀ queue ∈ queues port, queue.id < NETIF_MAX_QUEUES)
    (passed : ∀ pid < devices,
      (List.range ((queueIds queues pid conf).length % 2 ^ 8)).forM (checkMark marks pid) =
        .ok ()) (pid : Nat) :
    (queueIds queues pid conf).Perm (List.range (queueIds queues pid conf).length) := by
  by_cases known : pid < devices
  · refine queues_numbered records (fun qid member => ?_) (passed pid known)
    obtain ⟨port, inside, member⟩ := List.mem_flatMap.mp member
    obtain ⟨queue, own, rfl⟩ := List.mem_map.mp member
    exact below port (List.mem_filter.mp inside).1 queue own
  · have none : queueIds queues pid conf = [] := by
      rw [queueIds, List.flatMap_eq_nil_iff]
      intro port member
      obtain ⟨inside, same⟩ := List.mem_filter.mp member
      exact absurd (of_decide_eq_true same ▸ ports port inside) known
    rw [none]
    exact .refl _

/-- If the check succeeds, the rx queues of each port are the numbers from 0 on, each given
to one lcore, and so are its tx queues; and each lcore that has ports has all of them, each
with a tx queue. -/
theorem check_lcore_conf_partitions {devices lcores : Nat} {conf : List NetifLcoreConf}
    (run : InitialRun lcores conf) (small : devices ≤ NETIF_MAX_RTE_PORTS)
    (inRange : ∀ port ∈ allPorts conf, port.id < devices ∧
      ∀ queue ∈ port.rxqs ++ port.txqs, queue.id < NETIF_MAX_QUEUES)
    (passed : checkLcoreConf devices lcores conf = .ok ()) :
    (∀ pid, (queueIds NetifPortConf.rxqs pid conf).Perm
      (List.range (queueIds NetifPortConf.rxqs pid conf).length)) ∧
    (∀ pid, (queueIds NetifPortConf.txqs pid conf).Perm
      (List.range (queueIds NetifPortConf.txqs pid conf).length)) ∧
    ∀ entry ∈ conf, 0 < entry.nports →
      entry.nports = ((allPorts conf).map NetifPortConf.id).toFinset.card ∧
        ∀ port ∈ entry.pqs, 1 ≤ port.ntxq := by
  obtain ⟨nportsConf, configured, passed⟩ := bind_ok passed
  obtain ⟨⟨i, mark⟩, marked, passed⟩ := bind_ok passed
  have whole : devices % 2 ^ 8 = devices :=
    Nat.mod_eq_of_lt (Nat.lt_of_le_of_lt small (by decide))
  simp only [whole] at marked passed
  split at passed
  next => cases passed
  next =>
    obtain ⟨⟨⟩, numbered, listed⟩ := bind_ok passed
    have empty : ({} : Mark).Records [] := ⟨records_empty, records_empty⟩
    have records := empty.markEntries (i := 0) run marked
    rw [List.nil_append] at records
    have second (pid : Nat) (known : pid < devices) :=
      checkQueues_ok run.first (forM_ok_iff.mp numbered pid (List.mem_range.mpr known))
    refine ⟨?_, ?_, fun entry member used => ?_⟩
    · exact queues_shared records.rxqs (fun port member => (inRange port member).1)
        (fun port member queue inside =>
          (inRange port member).2 queue (List.mem_append_left _ inside))
        fun pid known => (second pid known).1
    · exact queues_shared records.txqs (fun port member => (inRange port member).1)
        (fun port member queue inside =>
          (inRange port member).2 queue (List.mem_append_right _ inside))
        fun pid known => (second pid known).2
    · obtain ⟨known, collected, rfl⟩ := map_ok configured
      have start : Collects [] [] := ⟨List.nodup_nil, fun _ => Iff.rfl⟩
      have below : ∀ id ∈ [] ++ (allPorts conf).map NetifPortConf.id, id < devices := by
        intro id inside
        obtain ⟨port, own, rfl⟩ := List.mem_map.mp inside
        exact (inRange port own).1
      have collects := start.configuredPorts run below
        (Nat.lt_of_le_of_lt small (by decide)) collected
      rw [List.nil_append] at collects
      have same : ((allPorts conf).map NetifPortConf.id).toFinset = known.toFinset := by
        ext pid
        rw [List.mem_toFinset, List.mem_toFinset, collects.mem]
      rw [same, List.toFinset_card_of_nodup collects.nodup]
      exact checkPorts_ok (i := 0) run listed entry member used

/-- Two lcores that share the queues of port 0. -/
def sharedPort : List NetifLcoreConf :=
  [{ id := 1, type := .fwdWorker, pqs := [⟨0, [⟨0, none⟩, ⟨2, none⟩], [⟨1, none⟩]⟩] },
    { id := 2, type := .fwdWorker, pqs := [⟨0, [⟨1, none⟩], [⟨0, none⟩]⟩] }, {}]

theorem shared_port_partitions :
    InitialRun 4 sharedPort ∧ checkLcoreConf 1 4 sharedPort = .ok () ∧
      (queueIds NetifPortConf.rxqs 0 sharedPort).Perm (List.range 3) := by
  have run : InitialRun 4 sharedPort := ⟨by decide, by decide⟩
  have passed : checkLcoreConf 1 4 sharedPort = .ok () := by decide +kernel
  have shared := check_lcore_conf_partitions run (by decide) (by decide) passed
  exact ⟨run, passed, shared.1 0⟩

end NetDefender.Netif
