import NetDefender.Netif.Indexing
import NetDefender.Netif.Partition
import NetDefender.Netif.Reception

/-!
# Startup

`netif_lcore_init` of `netif.c`, which makes the tables by which the lcores work, and what the
workers of a configuration that passes its check receive.
-/

namespace NetDefender.Netif

open Fallible Ledger

/-- The tables that `netif_lcore_init` leaves. -/
structure LcoreTables where
  lcoreConf : List NetifLcoreConf
  isolRxqTab : IsolTab
  lcore2index : Nat → Nat
  roles : Nat → LcoreRole

section Startup

variable (eal : Eal) (registry : Registry)

/-- `netif_lcore_init` up to the registration of the jobs; `devices` is what
`ndf_rte_eth_dev_count` returns, and `lcores` is the number of enabled lcores.  The program
exits if a step fails. -/
def netifLcoreInit (devices lcores : Nat) (workers : List WorkerConfStream) :
    Option LcoreTables := do
  let (lcoreConf, isolRxqTab) ← configLcores eal registry workers
  if checkLcoreConf devices lcores lcoreConf = .ok () then
    let (code, lcore2index) ← lcoreIndexInit eal lcoreConf
    if code = .ok then
      let roles ← lcoreRoleInit eal lcoreConf isolRxqTab
      return { lcoreConf, isolRxqTab, lcore2index, roles }
    else none
  else none

/-- The queues that `lcore_job_recv_fwd` comes to: those of the ports that exist. -/
def NetifLcoreConf.rxQueues (entry : NetifLcoreConf) : List RxQueue :=
  entry.pqs.flatMap fun port =>
    match netifPortGet registry port.id with
    | some (some _) => port.rxqs.map fun queue => ⟨port.id, queue.id⟩
    | _ => []

/-- What the lcores do by their tables. -/
def LcoreTables.duties (tables : LcoreTables) : Duties (Fin eal.maxLcore) where
  role cid := tables.roles cid
  queues cid :=
    match tables.lcoreConf[tables.lcore2index cid]? with
    | some entry => entry.rxQueues registry
    | none => []

/-- The queue of a partner. -/
def RxPartner.queue (partner : RxPartner) : RxQueue := ⟨partner.pid, partner.qid⟩

/-- The lcores before their loops, with the rings that have been created. -/
def LcoreTables.start {Mbuf Ring World : Type} (tables : LcoreTables) (ring : RxPartner → Ring)
    (nic : Nic Mbuf) (world : World) : Working Mbuf Ring (Fin eal.maxLcore) World where
  nic := nic
  isolRxqTab cid := (tables.isolRxqTab cid).map fun partner => ⟨partner.queue, ring partner⟩
  world := world

end Startup

/-! ## Indices -/

section Tables

variable {eal : Eal} {registry : Registry} {devices lcores : Nat}
  {workers : List WorkerConfStream} {tables : LcoreTables}

/-- What the steps of `netif_lcore_init` have returned. -/
theorem netifLcoreInit_steps
    (done : netifLcoreInit eal registry devices lcores workers = some tables) :
    checkLcoreConf devices lcores tables.lcoreConf = .ok () ∧
      lcoreIndexInit eal tables.lcoreConf = some (.ok, tables.lcore2index) ∧
      lcoreRoleInit eal tables.lcoreConf tables.isolRxqTab = some tables.roles := by
  obtain ⟨⟨conf, tab⟩, configured, done⟩ := Option.bind_eq_some_iff.mp done
  dsimp only at done
  split at done
  next checked =>
    obtain ⟨⟨code, lcore2index⟩, indexed, done⟩ := Option.bind_eq_some_iff.mp done
    dsimp only at done
    split at done
    next succeeded =>
      obtain ⟨roles, assigned, same⟩ := Option.bind_eq_some_iff.mp done
      cases same
      exact ⟨checked, succeeded ▸ indexed, assigned⟩
    next => cases done
  next => cases done

/-- The index of an lcore that is read is the position of an entry of its own. -/
theorem indexLcores_of_mem {conf : List NetifLcoreConf} {i cid : Nat}
    {lcore2index after : Nat → Nat}
    (done : indexLcores eal i lcore2index conf = some (.ok, after))
    (read : cid ∈ (usedEntries conf).map NetifLcoreConf.id) :
    ∃ (k : Nat) (entry : NetifLcoreConf),
      (usedEntries conf)[k]? = some entry ∧ entry.id = cid ∧ after cid = (i + k) % 2 ^ 8 := by
  induction conf generalizing i lcore2index with
  | nil => cases done
  | cons first rest ih =>
      rw [indexLcores] at done
      split at done
      next used =>
        rw [usedEntries_cons_of_pos used] at read ⊢
        split at done
        next => cases done
        next =>
          split at done
          next =>
            by_cases later : cid ∈ (usedEntries rest).map NetifLcoreConf.id
            · obtain ⟨k, entry, there, same, index⟩ := ih done later
              exact ⟨k + 1, entry, there, same, by rw [index, Nat.add_right_comm, Nat.add_assoc]⟩
            · have same : first.id = cid := by
                rw [List.map_cons, List.mem_cons] at read
                exact (read.resolve_right later).symm
              refine ⟨0, first, rfl, same, ?_⟩
              rw [indexLcores_of_not_mem done later, ← same, Function.update_self, Nat.add_zero]
          next => cases done
      next idle =>
        rw [usedEntries_cons_of_neg idle] at read
        cases read

/-- The table has a place for each lcore. -/
theorem selectWorkers_length_le {cpuLeft : Nat} {rest : List WorkerConfStream}
    {table : List NetifLcoreConf} {tab : IsolTab} {result : List NetifLcoreConf × IsolTab}
    (few : table.length ≤ eal.maxLcore)
    (done : selectWorkers eal registry cpuLeft rest table tab = some result) :
    result.1.length ≤ eal.maxLcore := by
  induction cpuLeft generalizing rest table tab with
  | zero =>
      cases done
      exact few
  | succ cpuLeft ih =>
      obtain ⟨position, -, done⟩ := Option.bind_eq_some_iff.mp done
      obtain ⟨worker, -, done⟩ := Option.bind_eq_some_iff.mp done
      obtain ⟨⟨entry, next⟩, -, done⟩ := Option.bind_eq_some_iff.mp done
      dsimp only at done
      split at done
      next space => exact ih (by rw [List.length_append]; exact space) done
      next => cases done

theorem length_lcoreConf
    (done : netifLcoreInit eal registry devices lcores workers = some tables) :
    tables.lcoreConf.length = eal.maxLcore := by
  obtain ⟨⟨conf, tab⟩, configured, done⟩ := Option.bind_eq_some_iff.mp done
  have same : tables.lcoreConf = conf := by
    dsimp only at done
    split at done
    next =>
      obtain ⟨⟨code, lcore2index⟩, -, done⟩ := Option.bind_eq_some_iff.mp done
      dsimp only at done
      split at done
      next =>
        obtain ⟨roles, -, last⟩ := Option.bind_eq_some_iff.mp done
        cases last
        rfl
      next => cases done
    next => cases done
  rw [configLcores] at configured
  obtain ⟨⟨table, tab'⟩, selected, filled⟩ := Option.bind_eq_some_iff.mp configured
  cases filled
  have few := selectWorkers_length_le (Nat.zero_le _) selected
  rw [same, List.length_append, List.length_replicate]
  exact Nat.add_sub_cancel' few

/-- A forwarding worker has an entry that is read. -/
theorem mem_usedEntries_of_fwdWorker {conf : List NetifLcoreConf} {tab : IsolTab}
    {roles : Nat → LcoreRole} (assigned : lcoreRoleInit eal conf tab = some roles) {cid : Nat}
    (forwards : roles cid = .fwdWorker) : cid ∈ (usedEntries conf).map NetifLcoreConf.id := by
  obtain ⟨before, main, assigned⟩ := Option.bind_eq_some_iff.mp assigned
  obtain ⟨middle, worked, isolated⟩ := Option.bind_eq_some_iff.mp assigned
  by_contra unread
  have kept := workerRoles_of_not_mem worked unread
  have last := isolRoles_spec List.nodup_range isolated cid
  split at last
  next => exact LcoreRole.noConfusion (last.2.symm.trans forwards)
  next =>
    -- before the workers the lcores are master, idle or disabled
    rw [forwards, kept, (assignRole_eq main).2] at last
    by_cases same : cid = eal.mainLcore
    · rw [same, Function.update_self] at last
      cases last
    · rw [Function.update_of_ne same] at last
      split at last <;> cases last

/-! ## Queues -/

/-- The queues of the lcores are distinct if the check has passed. -/
theorem nodup_assigned_rxqs {conf : List NetifLcoreConf} (run : InitialRun lcores conf)
    (passed : checkLcoreConf devices lcores conf = .ok ()) :
    (assigned NetifPortConf.rxqs (allPorts conf)).Nodup := by
  obtain ⟨nportsConf, -, passed⟩ := bind_ok passed
  obtain ⟨⟨i, mark⟩, marked, -⟩ := bind_ok passed
  have empty : ({} : Mark).Records [] := ⟨records_empty, records_empty⟩
  have records := empty.markEntries (i := 0) run marked
  rw [List.nil_append] at records
  exact records.rxqs.nodup

theorem mem_assigned_of_rxQueues {entry : NetifLcoreConf} {queue : RxQueue}
    (served : queue ∈ entry.rxQueues registry) :
    (queue.pid, queue.qid) ∈ assigned NetifPortConf.rxqs entry.pqs := by
  obtain ⟨port, member, inside⟩ := List.mem_flatMap.mp served
  refine List.mem_flatMap.mpr ⟨port, member, ?_⟩
  split at inside
  next =>
    obtain ⟨rxq, found, rfl⟩ := List.mem_map.mp inside
    exact List.mem_map.mpr ⟨rxq, found, rfl⟩
  next => cases inside

/-- Two entries have no queue in common. -/
theorem entry_unique {conf : List NetifLcoreConf}
    (distinct : (assigned NetifPortConf.rxqs (allPorts conf)).Nodup) {j k : Nat}
    {first second : NetifLcoreConf} (at_j : conf[j]? = some first)
    (at_k : conf[k]? = some second) {queue : RxQueue} (one : queue ∈ first.rxQueues registry)
    (other : queue ∈ second.rxQueues registry) : j = k := by
  have split : assigned NetifPortConf.rxqs (allPorts conf) =
      conf.flatMap fun entry => assigned NetifPortConf.rxqs entry.pqs := by
    rw [assigned, allPorts, List.flatMap_assoc]
    rfl
  rw [split, List.nodup_flatMap] at distinct
  have apart := List.pairwise_iff_getElem.mp distinct.2
  obtain ⟨inside_j, rfl⟩ := List.getElem?_eq_some_iff.mp at_j
  obtain ⟨inside_k, rfl⟩ := List.getElem?_eq_some_iff.mp at_k
  rcases Nat.lt_trichotomy j k with before | same | behind
  · exact absurd (mem_assigned_of_rxQueues other)
      (apart j k inside_j inside_k before (mem_assigned_of_rxQueues one))
  · exact same
  · exact absurd (mem_assigned_of_rxQueues one)
      (apart k j inside_k inside_j behind (mem_assigned_of_rxQueues other))

/-- A queue has one forwarding worker. -/
theorem worker_unique (bound : eal.maxLcore < 2 ^ 8)
    (done : netifLcoreInit eal registry devices lcores workers = some tables)
    (run : InitialRun lcores tables.lcoreConf) {cid other : Fin eal.maxLcore} {queue : RxQueue}
    (forwards : tables.roles cid = .fwdWorker)
    (served : queue ∈ (tables.duties eal registry).queues cid)
    (forwardsToo : tables.roles other = .fwdWorker)
    (servedToo : queue ∈ (tables.duties eal registry).queues other) : other = cid := by
  obtain ⟨checked, indexed, assigned⟩ := netifLcoreInit_steps done
  -- the queues of a worker are those of its entry
  have entryOf {one : Fin eal.maxLcore} (forwards : tables.roles one = .fwdWorker)
      (served : queue ∈ (tables.duties eal registry).queues one) :
      ∃ (k : Nat) (entry : NetifLcoreConf),
        tables.lcoreConf[k]? = some entry ∧ entry.id = one ∧ queue ∈ entry.rxQueues registry := by
    obtain ⟨k, entry, there, same, index⟩ :=
      indexLcores_of_mem indexed (mem_usedEntries_of_fwdWorker assigned forwards)
    obtain ⟨tail, split⟩ : usedEntries tables.lcoreConf <+: tables.lcoreConf :=
      List.takeWhile_prefix _
    obtain ⟨inside, -⟩ := List.getElem?_eq_some_iff.mp there
    have whole : tables.lcoreConf[k]? = some entry := by
      rw [← split, List.getElem?_append_left inside, there]
    have small : k < 2 ^ 8 := by
      obtain ⟨below, -⟩ := List.getElem?_eq_some_iff.mp whole
      rw [length_lcoreConf done] at below
      exact Nat.lt_trans below bound
    rw [Nat.zero_add, Nat.mod_eq_of_lt small] at index
    simp only [LcoreTables.duties, index, whole] at served
    exact ⟨k, entry, whole, same, served⟩
  obtain ⟨k, entry, at_k, own, inside⟩ := entryOf forwards served
  obtain ⟨j, twin, at_j, ownToo, insideToo⟩ := entryOf forwardsToo servedToo
  cases entry_unique (nodup_assigned_rxqs run checked) at_j at_k insideToo inside
  cases Option.some.inj (at_j.symm.trans at_k)
  exact Fin.ext (ownToo.symm.trans own)

/-! ## Runs -/

variable {Mbuf Ring World Fault : Type}
  {pipeline : Pipeline Mbuf (Fin eal.maxLcore) World Fault} {rings : RteRing Mbuf Ring}
  {ring : RxPartner → Ring} {nic : Nic Mbuf} {world : World}
  {happenings : List (Happening Mbuf (Fin eal.maxLcore))}
  {after : Working Mbuf Ring (Fin eal.maxLcore) World}

theorem start_fresh : (tables.start eal ring nic world :
    Working Mbuf Ring (Fin eal.maxLcore) World).Fresh := ⟨rfl, fun _ => rfl⟩

end Tables

/-! ## Two workers -/

/-- The lcore of the first worker. -/
def workerOne : Fin fourLcores.maxLcore := ⟨1, by decide⟩

/-- What there is to know of the tables of two workers. -/
theorem twoWorkers_tables : ∃ tables,
    netifLcoreInit fourLcores onePort 1 4 twoWorkers = some tables ∧
      InitialRun 4 tables.lcoreConf ∧ tables.roles 1 = .fwdWorker ∧
      ⟨0, 0⟩ ∈ (tables.duties fourLcores onePort).queues workerOne ∧
      ∀ cid < 128, tables.isolRxqTab cid = [] := by
  have facts : ((netifLcoreInit fourLcores onePort 1 4 twoWorkers).map fun tables =>
      (decide (tables.lcoreConf.Pairwise fun entry later => entry.nports = 0 → later.nports = 0),
        decide ((tables.lcoreConf.countP fun entry => 0 < entry.nports) ≤ 4),
        decide (tables.roles 1 = .fwdWorker),
        decide (⟨0, 0⟩ ∈ (tables.duties fourLcores onePort).queues workerOne),
        (List.range 128).all fun cid => (tables.isolRxqTab cid).isEmpty)) =
      some (true, true, true, true, true) := by
    decide +kernel
  obtain ⟨tables, done, facts⟩ := Option.map_eq_some_iff.mp facts
  simp only [Prod.mk.injEq, decide_eq_true_eq, List.all_eq_true, List.mem_range,
    List.isEmpty_iff] at facts
  exact ⟨tables, done, ⟨facts.1, facts.2.1⟩, facts.2.2.1, facts.2.2.2.1, facts.2.2.2.2⟩

end NetDefender.Netif
