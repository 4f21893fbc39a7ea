import NetDefender.Netif.Selection

/-!
# The tables of lcores

`lcore_index_init` and `lcore_role_init` read `lcore_conf` up to the first entry without
ports.  A worker without ports therefore hides every worker with a greater cpu.
-/

namespace NetDefender.Netif

open CString

section Indexing

variable {eal : Eal} {registry : Registry}

/-- The entries that are read: those before the first one without ports. -/
def usedEntries (conf : List NetifLcoreConf) : List NetifLcoreConf :=
  conf.takeWhile fun entry => 0 < entry.nports

theorem usedEntries_cons_of_pos {entry : NetifLcoreConf} {rest : List NetifLcoreConf}
    (used : entry.nports > 0) : usedEntries (entry :: rest) = entry :: usedEntries rest :=
  List.takeWhile_cons_of_pos (decide_eq_true used)

theorem usedEntries_cons_of_neg {entry : NetifLcoreConf} {rest : List NetifLcoreConf}
    (idle : ¬entry.nports > 0) : usedEntries (entry :: rest) = [] :=
  List.takeWhile_cons_of_neg (by simpa using idle)

/-- An entry is read if it and all before it have ports. -/
theorem usedEntries_getElem? {conf : List NetifLcoreConf} {k : Nat} {entry : NetifLcoreConf}
    (used : ∀ j ≤ k, ∀ other, conf[j]? = some other → 0 < other.nports)
    (here : conf[k]? = some entry) : (usedEntries conf)[k]? = some entry := by
  induction k generalizing conf with
  | zero =>
      cases conf with
      | nil => cases here
      | cons first rest =>
          rw [usedEntries_cons_of_pos (used 0 (Nat.le_refl 0) first rfl)]
          exact here
  | succ k ih =>
      cases conf with
      | nil => cases here
      | cons first rest =>
          rw [usedEntries_cons_of_pos (used 0 (Nat.zero_le _) first rfl)]
          exact ih (fun j low other there => used (j + 1) (Nat.succ_le_succ low) other there) here

/-- The entries that are read stand before each entry without ports. -/
theorem length_usedEntries_le {conf : List NetifLcoreConf} {j : Nat} {idle : NetifLcoreConf}
    (here : conf[j]? = some idle) (none : idle.nports = 0) :
    (usedEntries conf).length ≤ j := by
  refine Nat.le_of_not_lt fun beyond => ?_
  have front : (usedEntries conf)[j]? = some idle := by
    obtain ⟨tail, split⟩ : usedEntries conf <+: conf := List.takeWhile_prefix _
    rw [← here, ← List.getElem?_append_left beyond, split]
  have used := List.mem_takeWhile_imp (List.mem_of_getElem? front)
  rw [decide_eq_true_eq, none] at used
  exact Nat.lt_irrefl 0 used

/-! ## The index -/

theorem indexLcores_of_not_mem {conf : List NetifLcoreConf} {i cid : Nat}
    {lcore2index after : Nat → Nat}
    (done : indexLcores eal i lcore2index conf = some (.ok, after))
    (unread : cid ∉ (usedEntries conf).map NetifLcoreConf.id) :
    after cid = lcore2index cid := by
  induction conf generalizing i lcore2index with
  | nil => cases done
  | cons entry rest ih =>
      rw [indexLcores] at done
      split at done
      next used =>
        rw [usedEntries_cons_of_pos used, List.map_cons, List.mem_cons, not_or] at unread
        split at done
        next => cases done
        next =>
          split at done
          next => rw [ih done unread.2, Function.update_of_ne unread.1]
          next => cases done
      next =>
        cases done
        rfl

theorem indexLcores_of_getElem? {conf : List NetifLcoreConf} {i k : Nat}
    {lcore2index after : Nat → Nat} {entry : NetifLcoreConf}
    (done : indexLcores eal i lcore2index conf = some (.ok, after))
    (distinct : ((usedEntries conf).map NetifLcoreConf.id).Nodup)
    (here : (usedEntries conf)[k]? = some entry) : after entry.id = (i + k) % 2 ^ 8 := by
  induction conf generalizing i k lcore2index with
  | nil => cases done
  | cons first rest ih =>
      rw [indexLcores] at done
      split at done
      next used =>
        rw [usedEntries_cons_of_pos used] at here distinct
        obtain ⟨fresh, distinct⟩ := List.nodup_cons.mp distinct
        split at done
        next => cases done
        next =>
          split at done
          next =>
            cases k with
            | zero =>
                cases here
                rw [indexLcores_of_not_mem done fresh, Function.update_self, Nat.add_zero]
            | succ k =>
                rw [ih done distinct here]
                congr 1
                omega
          next => cases done
      next idle =>
        rw [usedEntries_cons_of_neg idle] at here
        cases here

/-! ## The roles -/

theorem assignRole_eq {roles after : Nat → LcoreRole} {cid : Nat} {role : LcoreRole}
    (done : assignRole eal roles cid role = some after) :
    roles cid = .idle ∧ after = Function.update roles cid role := by
  rw [assignRole] at done
  split at done
  next idle =>
    cases done
    exact ⟨idle.2, rfl⟩
  next => cases done

theorem workerRoles_of_not_mem {conf : List NetifLcoreConf} {roles after : Nat → LcoreRole}
    {cid : Nat} (done : workerRoles eal roles conf = some after)
    (unread : cid ∉ (usedEntries conf).map NetifLcoreConf.id) : after cid = roles cid := by
  induction conf generalizing roles with
  | nil => cases done
  | cons entry rest ih =>
      rw [workerRoles] at done
      split at done
      next used =>
        rw [usedEntries_cons_of_pos used, List.map_cons, List.mem_cons, not_or] at unread
        obtain ⟨middle, assigned, done⟩ := Option.bind_eq_some_iff.mp done
        rw [ih done unread.2, (assignRole_eq assigned).2, Function.update_of_ne unread.1]
      next =>
        cases done
        rfl

theorem workerRoles_of_mem {conf : List NetifLcoreConf} {roles after : Nat → LcoreRole}
    {entry : NetifLcoreConf} (done : workerRoles eal roles conf = some after)
    (distinct : ((usedEntries conf).map NetifLcoreConf.id).Nodup)
    (read : entry ∈ usedEntries conf) : after entry.id = entry.type := by
  induction conf generalizing roles with
  | nil => cases done
  | cons first rest ih =>
      rw [workerRoles] at done
      split at done
      next used =>
        rw [usedEntries_cons_of_pos used] at read distinct
        obtain ⟨fresh, distinct⟩ := List.nodup_cons.mp distinct
        obtain ⟨middle, assigned, rest⟩ := Option.bind_eq_some_iff.mp done
        rcases List.mem_cons.mp read with rfl | later
        · rw [workerRoles_of_not_mem rest fresh, (assignRole_eq assigned).2,
            Function.update_self]
        · exact ih rest distinct later
      next idle =>
        rw [usedEntries_cons_of_neg idle] at read
        cases read

/-- Lcores with isolated reception were idle before, and the others keep their role. -/
theorem isolRoles_spec {tab : IsolTab} {cids : List Nat} {roles after : Nat → LcoreRole}
    (distinct : cids.Nodup) (done : cids.foldlM (isolRole eal tab) roles = some after)
    (cid : Nat) :
    if cid ∈ cids ∧ tab cid ≠ [] then roles cid = .idle ∧ after cid = .isolrxWorker
    else after cid = roles cid := by
  induction cids generalizing roles with
  | nil =>
      cases done
      simp
  | cons first rest ih =>
      obtain ⟨fresh, distinct⟩ := List.nodup_cons.mp distinct
      rw [List.foldlM_cons, Option.bind_eq_bind] at done
      obtain ⟨middle, turned, done⟩ := Option.bind_eq_some_iff.mp done
      have later := ih distinct done
      rw [isolRole] at turned
      by_cases same : cid = first
      · subst same
        rw [if_neg fun both => fresh both.1] at later
        split at turned
        next isolated =>
          obtain ⟨idle, rfl⟩ := assignRole_eq turned
          rw [if_pos ⟨List.mem_cons_self, isolated⟩, later, Function.update_self]
          exact ⟨idle, rfl⟩
        next none =>
          cases turned
          rw [if_neg fun both => none both.2]
          exact later
      · have kept : middle cid = roles cid := by
          split at turned
          next => rw [(assignRole_eq turned).2, Function.update_of_ne same]
          next =>
            cases turned
            rfl
        rw [kept] at later
        simpa only [List.mem_cons, same, false_or] using later

/-! ## The three functions together -/

/-- An order of workers in which the tables hold them: the first entries of `lcore_conf`
are theirs, the others are empty, and each worker with ports has its position and its role. -/
structure PlacedIn (registry : Registry) (order : List WorkerConfStream)
    (conf : List NetifLcoreConf) (lcore2index : Nat → Nat) (roles : Nat → LcoreRole) : Prop where
  increasing : order.Pairwise fun worker later => worker.cpuId < later.cpuId
  held : List.Forall₂ (EntryOf registry) order (conf.take order.length)
  others : ∀ entry ∈ conf.drop order.length, entry = {}
  read : ∀ position worker, order[position]? = some worker → worker.portList ≠ [] →
    lcore2index worker.cpuId = position ∧ roles worker.cpuId = worker.role

/-- The tables hold each worker that is no master once, in the order of the cpus. -/
def Placed (registry : Registry) (workers : List WorkerConfStream)
    (conf : List NetifLcoreConf) (lcore2index : Nat → Nat) (roles : Nat → LcoreRole) : Prop :=
  ∃ order : List WorkerConfStream, order.Perm (nonMasters workers) ∧
    PlacedIn registry order conf lcore2index roles

/-- No worker without ports comes before one with ports, and no worker with ports and
without a role is on a cpu that receives for another. -/
structure NoGap (eal : Eal) (registry : Registry) (workers : List WorkerConfStream) : Prop where
  ports : ∀ worker ∈ nonMasters workers, worker.portList ≠ [] →
    ∀ bare ∈ nonMasters workers, bare.portList = [] → worker.cpuId < bare.cpuId
  roles : ∀ worker ∈ nonMasters workers, worker.portList ≠ [] → worker.role = .idle →
    ∀ other ∈ nonMasters workers, ¬other.Isolates eal registry worker.cpuId

/-- The position of a worker is that of its entry. -/
theorem entryOf_getElem? {order : List WorkerConfStream} {entries : List NetifLcoreConf}
    {tail : List NetifLcoreConf} (holds : List.Forall₂ (EntryOf registry) order entries)
    {position : Nat} {worker : WorkerConfStream} (here : order[position]? = some worker) :
    ∃ entry, (entries ++ tail)[position]? = some entry ∧ EntryOf registry worker entry := by
  induction holds generalizing position with
  | nil => cases here
  | cons first rest ih =>
      cases position with
      | zero =>
          cases here
          exact ⟨_, rfl, first⟩
      | succ position => exact ih here

theorem nports_pos_of_ports {worker : WorkerConfStream} {entry : NetifLcoreConf}
    (holds : EntryOf registry worker entry) :
    0 < entry.nports ↔ worker.portList ≠ [] := by
  rw [holds.nports, List.length_pos_iff]

/-- The ids of the entries are the cpus. -/
theorem map_id_of_holds {order : List WorkerConfStream} {entries : List NetifLcoreConf}
    (holds : List.Forall₂ (EntryOf registry) order entries) :
    entries.map NetifLcoreConf.id = order.map WorkerConfStream.cpuId := by
  induction holds with
  | nil => rfl
  | cons first rest ih => rw [List.map_cons, List.map_cons, first.id, ih]

/-- The entries that are read are entries of workers. -/
theorem usedEntries_prefix {order : List WorkerConfStream} {entries : List NetifLcoreConf}
    {empty : List NetifLcoreConf} (bare : ∀ entry ∈ empty, entry = {})
    (holds : List.Forall₂ (EntryOf registry) order entries) :
    usedEntries (entries ++ empty) <+: entries := by
  induction holds with
  | nil =>
      cases empty with
      | nil => exact List.nil_prefix
      | cons entry rest =>
          rw [List.nil_append, usedEntries_cons_of_neg]
          rw [bare entry List.mem_cons_self]
          exact Nat.lt_irrefl 0
  | @cons worker entry order entries first rest ih =>
      by_cases used : entry.nports > 0
      · rw [List.cons_append, usedEntries_cons_of_pos used]
        exact List.prefix_cons_inj entry |>.mpr ih
      · rw [List.cons_append, usedEntries_cons_of_neg used]
        exact List.nil_prefix

/-- Workers that are sorted by their cpus stand in the order of their cpus. -/
theorem lt_of_cpuId_lt {order : List WorkerConfStream}
    (increasing : order.Pairwise fun worker later => worker.cpuId < later.cpuId)
    {j k : Nat} {first second : WorkerConfStream} (at_j : order[j]? = some first)
    (at_k : order[k]? = some second) : j < k ↔ first.cpuId < second.cpuId := by
  obtain ⟨inside_j, rfl⟩ := List.getElem?_eq_some_iff.mp at_j
  obtain ⟨inside_k, rfl⟩ := List.getElem?_eq_some_iff.mp at_k
  refine ⟨fun less => List.pairwise_iff_getElem.mp increasing j k inside_j inside_k less,
    fun less => Nat.lt_of_not_le fun notLess => ?_⟩
  rcases Nat.lt_or_eq_of_le notLess with after | rfl
  · exact Nat.lt_asymm less
      (List.pairwise_iff_getElem.mp increasing k j inside_k inside_j after)
  · exact Nat.lt_irrefl _ less

/-- What is known after `config_lcores`: the sorted workers and the table. -/
structure Configured (eal : Eal) (registry : Registry) (workers order : List WorkerConfStream)
    (entries conf : List NetifLcoreConf) (tab : IsolTab) : Prop where
  bound : eal.maxLcore < 2 ^ 8
  sorts : Sorts eal registry (nonMasters workers) order entries
  table : conf =
    entries ++ List.replicate (eal.maxLcore - entries.length) ({} : NetifLcoreConf)
  fits : entries.length ≤ eal.maxLcore
  isolated : ∀ cid, tab cid ≠ [] ↔
    ∃ worker ∈ nonMasters workers, worker.Isolates eal registry cid

variable {workers order : List WorkerConfStream} {entries conf : List NetifLcoreConf}
  {tab : IsolTab}

theorem Configured.length_eq (configured : Configured eal registry workers order entries conf tab) :
    order.length = entries.length := configured.sorts.holds.length_eq

theorem Configured.usedEntries_prefix
    (configured : Configured eal registry workers order entries conf tab) :
    usedEntries conf <+: entries := by
  rw [configured.table]
  exact Netif.usedEntries_prefix (fun entry member => List.eq_of_mem_replicate member)
    configured.sorts.holds

theorem Configured.distinct
    (configured : Configured eal registry workers order entries conf tab) :
    ((usedEntries conf).map NetifLcoreConf.id).Nodup := by
  have increasing := List.pairwise_map.mpr configured.sorts.increasing
  have nodup : (order.map WorkerConfStream.cpuId).Nodup := increasing.imp Nat.ne_of_lt
  rw [← map_id_of_holds configured.sorts.holds] at nodup
  exact nodup.sublist (configured.usedEntries_prefix.sublist.map _)

theorem Configured.mem_order
    (configured : Configured eal registry workers order entries conf tab)
    {worker : WorkerConfStream} : worker ∈ order ↔ worker ∈ nonMasters workers :=
  configured.sorts.perm.mem_iff

theorem Configured.entryOf
    (configured : Configured eal registry workers order entries conf tab) {position : Nat}
    {worker : WorkerConfStream} (here : order[position]? = some worker) :
    ∃ entry, conf[position]? = some entry ∧ EntryOf registry worker entry := by
  rw [configured.table]
  exact entryOf_getElem? configured.sorts.holds here

/-- Without a gap the entry of every worker with ports is read. -/
theorem Configured.getElem?_usedEntries
    (configured : Configured eal registry workers order entries conf tab)
    (noGap : NoGap eal registry workers) {position : Nat} {worker : WorkerConfStream}
    (here : order[position]? = some worker) (ports : worker.portList ≠ []) :
    ∃ entry, (usedEntries conf)[position]? = some entry ∧ EntryOf registry worker entry := by
  obtain ⟨entry, there, holds⟩ := configured.entryOf here
  refine ⟨entry, usedEntries_getElem? (fun j low other at_j => ?_) there, holds⟩
  obtain ⟨inside, -⟩ := List.getElem?_eq_some_iff.mp here
  have at_j' := List.getElem?_eq_getElem (Nat.lt_of_le_of_lt low inside)
  obtain ⟨other', same, otherHolds⟩ := configured.entryOf at_j'
  cases Option.some.inj (at_j.symm.trans same)
  refine (nports_pos_of_ports otherHolds).mpr fun bare => ?_
  -- a worker without ports has the greater cpu, but the smaller position
  have greater := noGap.ports worker
    (configured.mem_order.mp (List.mem_of_getElem? here)) ports _
    (configured.mem_order.mp (List.getElem_mem _)) bare
  have later := (lt_of_cpuId_lt configured.sorts.increasing here at_j').mpr greater
  omega

/-- An entry behind a gap is not read. -/
theorem Configured.not_mem_usedEntries
    (configured : Configured eal registry workers order entries conf tab) {j k : Nat}
    {bare worker : WorkerConfStream} (at_j : order[j]? = some bare) (none : bare.portList = [])
    (at_k : order[k]? = some worker) (before : j < k) :
    worker.cpuId ∉ (usedEntries conf).map NetifLcoreConf.id := by
  intro member
  obtain ⟨p, inside, same⟩ := List.getElem_of_mem member
  rw [List.length_map] at inside
  obtain ⟨idle, there, holds⟩ := configured.entryOf at_j
  have short := length_usedEntries_le there
    (Nat.eq_zero_of_not_pos fun used => (nports_pos_of_ports holds).mp used none)
  -- the entry at `p` is that of the worker at `p`
  have ids : (usedEntries conf).map NetifLcoreConf.id <+: order.map WorkerConfStream.cpuId := by
    rw [← map_id_of_holds configured.sorts.holds]
    exact configured.usedEntries_prefix.map _
  obtain ⟨tail, split⟩ := ids
  have at_p : (order.map WorkerConfStream.cpuId)[p]? = some worker.cpuId := by
    rw [← split, List.getElem?_append_left (by rwa [List.length_map]), ← same]
    exact List.getElem?_eq_getElem _
  rw [List.getElem?_map] at at_p
  obtain ⟨twin, at_p, sameCpu⟩ := Option.map_eq_some_iff.mp at_p
  have less := (lt_of_cpuId_lt configured.sorts.increasing at_p at_k).mp (by omega)
  omega

/-- The roles after the second and the third loop of `lcore_role_init`. -/
theorem lcoreRoleInit_loops {roles : Nat → LcoreRole}
    (assigned : lcoreRoleInit eal conf tab = some roles) :
    ∃ before middle, workerRoles eal before conf = some middle ∧ ∀ cid,
      if cid ∈ List.range eal.maxLcore ∧ tab cid ≠ [] then
        middle cid = .idle ∧ roles cid = .isolrxWorker
      else roles cid = middle cid := by
  obtain ⟨before, -, assigned⟩ := Option.bind_eq_some_iff.mp assigned
  obtain ⟨middle, worked, isolated⟩ := Option.bind_eq_some_iff.mp assigned
  exact ⟨before, middle, worked, isolRoles_spec List.nodup_range isolated⟩

/-- Without a gap each worker with ports is found by its cpu, and has its role. -/
theorem Configured.read_of_noGap
    (configured : Configured eal registry workers order entries conf tab)
    (noGap : NoGap eal registry workers) {lcore2index : Nat → Nat} {roles : Nat → LcoreRole}
    (indexed : lcoreIndexInit eal conf = some (.ok, lcore2index))
    (assigned : lcoreRoleInit eal conf tab = some roles) {position : Nat}
    {worker : WorkerConfStream} (here : order[position]? = some worker)
    (ports : worker.portList ≠ []) :
    lcore2index worker.cpuId = position ∧ roles worker.cpuId = worker.role := by
  obtain ⟨entry, read, holds⟩ := configured.getElem?_usedEntries noGap here ports
  constructor
  · have index := indexLcores_of_getElem? indexed configured.distinct read
    obtain ⟨inside, -⟩ := List.getElem?_eq_some_iff.mp here
    have few := configured.fits
    have bound := configured.bound
    rw [configured.length_eq] at inside
    rw [← holds.id, index, Nat.zero_add]
    exact Nat.mod_eq_of_lt (by omega)
  · obtain ⟨before, middle, worked, isolated⟩ := lcoreRoleInit_loops assigned
    have role := workerRoles_of_mem worked configured.distinct (List.mem_of_getElem? read)
    rw [holds.id, holds.type] at role
    have last := isolated worker.cpuId
    split at last
    next both =>
      have member := configured.mem_order.mp (List.mem_of_getElem? here)
      obtain ⟨other, otherMember, isolates⟩ := (configured.isolated _).mp both.2
      exact absurd isolates
        (noGap.roles worker member ports (role.symm.trans last.1) other otherMember)
    next => exact last.trans role

/-- If each worker with ports is found and has its role, there is no gap. -/
theorem Configured.noGap_of_read
    (configured : Configured eal registry workers order entries conf tab)
    {lcore2index : Nat → Nat} {roles : Nat → LcoreRole}
    (indexed : lcoreIndexInit eal conf = some (.ok, lcore2index))
    (assigned : lcoreRoleInit eal conf tab = some roles)
    (read : ∀ position worker, order[position]? = some worker → worker.portList ≠ [] →
      lcore2index worker.cpuId = position ∧ roles worker.cpuId = worker.role) :
    NoGap eal registry workers := by
  refine ⟨fun worker member ports bare bareMember none => ?_,
    fun worker member ports idle other otherMember isolates => ?_⟩
  · obtain ⟨k, at_k⟩ := List.getElem?_of_mem (configured.mem_order.mpr member)
    obtain ⟨j, at_j⟩ := List.getElem?_of_mem (configured.mem_order.mpr bareMember)
    refine (lt_of_cpuId_lt configured.sorts.increasing at_k at_j).mp
      (Nat.lt_of_not_le fun notBefore => ?_)
    rcases Nat.lt_or_eq_of_le notBefore with before | rfl
    · have unread := configured.not_mem_usedEntries at_j none at_k before
      have index := indexLcores_of_not_mem indexed unread
      obtain ⟨inside, -⟩ := List.getElem?_eq_some_iff.mp at_k
      have few := configured.fits
      rw [(read k worker at_k ports).1, Nat.mod_eq_of_lt configured.bound] at index
      rw [configured.length_eq] at inside
      omega
    · cases Option.some.inj (at_j.symm.trans at_k)
      exact ports none
  · obtain ⟨k, at_k⟩ := List.getElem?_of_mem (configured.mem_order.mpr member)
    obtain ⟨before, middle, -, isolated⟩ := lcoreRoleInit_loops assigned
    have small := configured.sorts.small worker member
    have last := isolated worker.cpuId
    rw [if_pos ⟨List.mem_range.mpr small,
      (configured.isolated _).mpr ⟨other, otherMember, isolates⟩⟩,
      (read k worker at_k ports).2, idle] at last
    exact LcoreRole.noConfusion last.2

/-- The tables hold all workers, and give each one with ports its position and its role,
exactly if there is no gap. -/
theorem lcore_tables_iff (bound : eal.maxLcore < 2 ^ 8)
    (distinct : (workers.map WorkerConfStream.cpuId).Nodup)
    (done : configLcores eal registry workers = some (conf, tab))
    {lcore2index : Nat → Nat} {roles : Nat → LcoreRole}
    (indexed : lcoreIndexInit eal conf = some (.ok, lcore2index))
    (assigned : lcoreRoleInit eal conf tab = some roles) :
    Placed registry workers conf lcore2index roles ↔ NoGap eal registry workers := by
  obtain ⟨order, entries, sorts, table, fits, isolated⟩ := configLcores_spec bound distinct done
  have configured : Configured eal registry workers order entries conf tab :=
    ⟨bound, sorts, table, fits, isolated⟩
  constructor
  · rintro ⟨order', perm, placed⟩
    have same : order' = order :=
      List.Perm.eq_of_pairwise (fun _ _ _ _ less greater => absurd less (Nat.lt_asymm greater))
        placed.increasing sorts.increasing (perm.trans sorts.perm.symm)
    exact configured.noGap_of_read indexed assigned (same ▸ placed.read)
  · intro noGap
    refine ⟨order, sorts.perm, sorts.increasing, ?_, ?_, fun position worker here ports =>
      configured.read_of_noGap noGap indexed assigned here ports⟩
    · rw [table, configured.length_eq, List.take_left]
      exact sorts.holds
    · rw [table, configured.length_eq, List.drop_left]
      exact fun entry member => List.eq_of_mem_replicate member

end Indexing

/-! ## Two configurations -/

/-- A port of which a worker has one rx queue and one tx queue, both with the same id. -/
def oneQueue (qid : Nat) : QueueConfStream where
  portName := ascii "dpdk0"
  rxQueues := fun ii => if ii.val = 0 then qid else NETIF_MAX_QUEUES
  txQueues := fun ii => if ii.val = 0 then qid else NETIF_MAX_QUEUES
  isolRxqLcoreIds := fun _ => NETIF_LCORE_ID_INVALID

/-- A system with four lcores. -/
def fourLcores : Eal where
  maxLcore := 128
  enabled := fun cid => cid < 4
  mainLcore := 0
  isolates := fun _ => true

/-- The registry with the port dpdk0. -/
def onePort : Registry := (netifPortRegister {} (some (.named 0 (ascii "dpdk0")))).2

/-- Two workers that share the port, the later one first. -/
def twoWorkers : List WorkerConfStream :=
  [⟨3, ascii "slave", [oneQueue 1]⟩, ⟨0, ascii "master", []⟩, ⟨1, ascii "slave", [oneQueue 0]⟩]

theorem twoWorkers_noGap : NoGap fourLcores onePort twoWorkers := by
  have busy : ∀ worker ∈ nonMasters twoWorkers,
      worker.portList ≠ [] ∧ worker.role = .fwdWorker := by
    intro worker member
    obtain ⟨member, slave⟩ := List.mem_filter.mp member
    simp only [twoWorkers, List.mem_cons, List.not_mem_nil, or_false] at member
    rcases member with rfl | rfl | rfl
    · exact ⟨List.cons_ne_nil _ _, by decide +kernel⟩
    · exact absurd slave (by decide +kernel)
    · exact ⟨List.cons_ne_nil _ _, by decide +kernel⟩
  refine ⟨fun _ _ _ bare member none => absurd none (busy bare member).1,
    fun worker member _ idle => ?_⟩
  rw [(busy worker member).2] at idle
  exact LcoreRole.noConfusion idle

theorem twoWorkers_placed : ∃ conf tab lcore2index roles,
    configLcores fourLcores onePort twoWorkers = some (conf, tab) ∧
      lcoreIndexInit fourLcores conf = some (.ok, lcore2index) ∧
      lcoreRoleInit fourLcores conf tab = some roles ∧
      Placed onePort twoWorkers conf lcore2index roles := by
  have runs : ((configLcores fourLcores onePort twoWorkers).map fun result =>
      ((lcoreIndexInit fourLcores result.1).map Prod.fst,
        (lcoreRoleInit fourLcores result.1 result.2).isSome)) = some (some .ok, true) := by
    decide +kernel
  obtain ⟨⟨conf, tab⟩, configured, done⟩ := Option.map_eq_some_iff.mp runs
  obtain ⟨indexes, hasRoles⟩ := Prod.mk.injEq .. ▸ done
  obtain ⟨⟨_, lcore2index⟩, indexed, rfl⟩ := Option.map_eq_some_iff.mp indexes
  obtain ⟨roles, assigned⟩ := Option.isSome_iff_exists.mp hasRoles
  exact ⟨conf, tab, lcore2index, roles, configured, indexed, assigned,
    (lcore_tables_iff (by decide) (by decide) configured indexed assigned).mpr
      twoWorkers_noGap⟩

/-- A worker without ports between two with ports. -/
def gap : List WorkerConfStream :=
  [⟨0, ascii "master", []⟩, ⟨1, ascii "slave", [oneQueue 0]⟩, ⟨2, ascii "slave", []⟩,
    ⟨3, ascii "slave", [oneQueue 1]⟩]

/-- The check passes over a gap, and the worker on cpu 3 has no index. -/
theorem lcore_tables_gap :
    ¬∀ (eal : Eal) (registry : Registry) (workers : List WorkerConfStream)
        (devices lcores : Nat) (conf : List NetifLcoreConf) (tab : IsolTab)
        (lcore2index : Nat → Nat) (roles : Nat → LcoreRole),
      eal.maxLcore < 2 ^ 8 → (workers.map WorkerConfStream.cpuId).Nodup →
      configLcores eal registry workers = some (conf, tab) →
      checkLcoreConf devices lcores conf = .ok () →
      lcoreIndexInit eal conf = some (.ok, lcore2index) →
      lcoreRoleInit eal conf tab = some roles →
      Placed registry workers conf lcore2index roles := by
  intro all
  have runs : ((configLcores fourLcores onePort gap).map fun result =>
      (checkLcoreConf 1 4 result.1,
        (lcoreIndexInit fourLcores result.1).map fun indexed => (indexed.1, indexed.2 3),
        (lcoreRoleInit fourLcores result.1 result.2).isSome)) =
      some (.ok (), some (.ok, 128), true) := by
    decide +kernel
  obtain ⟨⟨conf, tab⟩, configured, done⟩ := Option.map_eq_some_iff.mp runs
  simp only [Prod.mk.injEq] at done
  obtain ⟨checked, indexes, hasRoles⟩ := done
  obtain ⟨⟨code, lcore2index⟩, indexed, same⟩ := Option.map_eq_some_iff.mp indexes
  simp only [Prod.mk.injEq] at same
  obtain ⟨rfl, unread⟩ := same
  obtain ⟨roles, assigned⟩ := Option.isSome_iff_exists.mp hasRoles
  obtain ⟨order, perm, placed⟩ := all fourLcores onePort gap 1 4 conf tab lcore2index roles
    (by decide) (by decide) configured checked indexed assigned
  have last : (⟨3, ascii "slave", [oneQueue 1]⟩ : WorkerConfStream) ∈ nonMasters gap :=
    List.mem_filter.mpr ⟨by simp [gap], by decide +kernel⟩
  obtain ⟨position, here⟩ := List.getElem?_of_mem (perm.mem_iff.mpr last)
  obtain ⟨inside, -⟩ := List.getElem?_eq_some_iff.mp here
  have length : (nonMasters gap).length = 3 := by decide +kernel
  have found := (placed.read position _ here (List.cons_ne_nil _ _)).1
  rw [perm.length_eq, length] at inside
  rw [unread] at found
  omega

end NetDefender.Netif
