import NetDefender.Netif.Indexing
import NetDefender.Netif.Partition

/-!
# Steering packets to workers

`__netif_update_rss_reta` fills the redirection table of a port with the queues that
`get_configured_rss_queues` gathers from the entries of the forwarding workers.  It counts their
rx queues, but reads the ids from the tx queues.
-/

namespace NetDefender.Netif

open Fallible

/-- The size of `reta_conf` in table entries. -/
def RTE_ETH_RSS_RETA_SIZE_512 : Nat := 512

/-- How the table is not updated; `outside` stands for an access outside an array. -/
inductive RetaFault where
  | notsupp
  | inval
  | dpdkapifail
  | outside
  | divisionByZero
  deriving DecidableEq, Repr

/-! ## Gathering the queues -/

/-- The id in a place of the array `txqs`, which is zero behind the tx queues. -/
def NetifPortConf.txqIdAt (port : NetifPortConf) (k : Nat) : Nat :=
  (port.txqs.map NetifQueueConf.id).getD k 0

/-- The element of `pqs` at which the search for a port ends: the one behind the last port is
zero. -/
def searchPort (pid : Nat) (entry : NetifLcoreConf) : Except RetaFault NetifPortConf :=
  match entry.pqs.find? fun port => port.id = pid with
  | some port => .ok port
  | none =>
      if NETIF_MAX_RTE_PORTS ≤ entry.nports then .error .outside
      else if 0 ≠ pid then .error .inval
      else .ok ⟨0, [], []⟩

/-- A queue is put into `qids`, which has `*n_queues` places.  The test behind it that could
return `ENDF_NOMEM` comes after a write outside the array. -/
def gatherQueue (qids : List Nat) (qid : Nat) : Except RetaFault (List Nat) :=
  if qids.length < NETIF_MAX_QUEUES then .ok (qids ++ [qid]) else .error .outside

/-- The loop of `get_configured_rss_queues`. -/
def gatherRssQueues (pid : Nat) :
    List Nat → List NetifLcoreConf → Except RetaFault (List Nat)
  | _, [] => .error .outside
  | qids, entry :: rest =>
      if entry.nports > 0 then
        if entry.type ≠ .fwdWorker then gatherRssQueues pid qids rest
        else do
          let port ← searchPort pid entry
          let qids ← ((List.range port.nrxq).map port.txqIdAt).foldlM gatherQueue qids
          gatherRssQueues pid qids rest
      else .ok qids

/-- `get_configured_rss_queues`. -/
def getConfiguredRssQueues (pid : Nat) (conf : List NetifLcoreConf) :
    Except RetaFault (List Nat) := gatherRssQueues pid [] conf

/-! ## Filling the table -/

/-- A turn of the loop of `__netif_update_rss_reta`. -/
def retaEntry (rssq : List Nat) (i : Nat) : Except RetaFault Nat :=
  if RTE_ETH_RSS_RETA_SIZE_512 ≤ i then .error .outside
  else if rssq.length = 0 then .error .divisionByZero
  else .ok (rssq.getD (i % rssq.length) 0)

/-- `__netif_update_rss_reta` for a port of any type; `updated` says whether
`rte_eth_dev_rss_reta_update` succeeds.  The result is the table. -/
def netifUpdateRssReta (general updated : Bool) (pid retaSize : Nat)
    (conf : List NetifLcoreConf) : Except RetaFault (List Nat) := do
  if !general then .error .notsupp
  else
    let rssq ← getConfiguredRssQueues pid conf
    let reta ← (List.range retaSize).mapM (retaEntry rssq)
    if updated then .ok reta else .error .dpdkapifail

/-! ## Queues of workers -/

/-- The rx queues of a port that are given to forwarding workers. -/
def workerRxQueues (pid : Nat) (conf : List NetifLcoreConf) : List Nat :=
  queueIds NetifPortConf.rxqs pid (conf.filter fun entry => entry.type = .fwdWorker)

/-- The tx queues that stand beside the rx queues of a port, in the entries of the forwarding
workers that are in use: a tx queue for each rx queue, zero where there are fewer. -/
def besideRxQueues (pid : Nat) (conf : List NetifLcoreConf) : List Nat :=
  ((usedEntries conf).filter fun entry => entry.type = .fwdWorker).flatMap fun entry =>
    (entry.pqs.find? fun port => port.id = pid).elim [] fun port =>
      (List.range port.nrxq).map port.txqIdAt

/-- Whenever the table of a general port is filled, there is a queue to fill it with, each of
its queues is an rx queue of a forwarding worker, and if it is large enough, it holds all of
them. -/
structure RetaSteers (pid retaSize : Nat) (conf : List NetifLcoreConf) : Prop where
  divides : ∀ updated,
    netifUpdateRssReta true updated pid retaSize conf ≠ .error .divisionByZero
  some : ∀ queues updated table, getConfiguredRssQueues pid conf = .ok queues →
    netifUpdateRssReta true updated pid retaSize conf = .ok table → 1 ≤ queues.length
  polled : ∀ updated table, netifUpdateRssReta true updated pid retaSize conf = .ok table →
    ∀ qid ∈ table, qid ∈ workerRxQueues pid conf
  whole : ∀ queues updated table, getConfiguredRssQueues pid conf = .ok queues →
    netifUpdateRssReta true updated pid retaSize conf = .ok table → queues.length ≤ retaSize →
    ∀ qid ∈ workerRxQueues pid conf, qid ∈ table

/-! ## What is gathered -/

variable {pid retaSize : Nat} {conf : List NetifLcoreConf} {queues qids : List Nat}

theorem gatherQueues_ok {ids : List Nat} (gathered : ids.foldlM gatherQueue qids = .ok queues) :
    queues = qids ++ ids := by
  apply foldlM_ok (fun past state => state = qids ++ past) _ (List.append_nil qids).symm gathered
  intro past state entry next held stepped
  rw [gatherQueue] at stepped
  split at stepped
  next =>
    cases stepped
    rw [held, List.append_assoc]
  next => cases stepped

/-- A search that ends behind the last port finds no rx queues there. -/
theorem searchPort_ok {entry : NetifLcoreConf} {port : NetifPortConf}
    (found : searchPort pid entry = .ok port) :
    (List.range port.nrxq).map port.txqIdAt =
      (entry.pqs.find? fun port => port.id = pid).elim [] fun port =>
        (List.range port.nrxq).map port.txqIdAt := by
  rw [searchPort] at found
  split at found
  next first same =>
    cases found
    rw [same]
    rfl
  next none =>
    rw [none]
    split at found
    next => cases found
    next =>
      split at found
      next => cases found
      next =>
        cases found
        rfl

theorem gatherRssQueues_ok (gathered : gatherRssQueues pid qids conf = .ok queues) :
    queues = qids ++ besideRxQueues pid conf := by
  induction conf generalizing qids with
  | nil => cases gathered
  | cons entry rest ih =>
      rw [gatherRssQueues] at gathered
      split at gathered
      next used =>
        rw [besideRxQueues, usedEntries_cons_of_pos used]
        split at gathered
        next other =>
          rw [List.filter_cons_of_neg (by simpa using other)]
          exact ih gathered
        next worker =>
          obtain ⟨port, found, gathered⟩ := bind_ok gathered
          obtain ⟨more, pushed, gathered⟩ := bind_ok gathered
          rw [List.filter_cons_of_pos (by simpa using worker), List.flatMap_cons,
            ← searchPort_ok found, ← List.append_assoc, ← gatherQueues_ok pushed]
          exact ih gathered
      next idle =>
        cases gathered
        rw [besideRxQueues, usedEntries_cons_of_neg idle]
        simp

/-! ## What the table holds -/

/-- The entries of the table go round the queues. -/
theorem retaEntries_ok (fits : retaSize ≤ RTE_ETH_RSS_RETA_SIZE_512) (some : queues ≠ []) :
    (List.range retaSize).mapM (retaEntry queues) =
      .ok ((List.range retaSize).map fun i => queues.getD (i % queues.length) 0) := by
  apply mapM_ok
  intro i member
  have inside : ¬RTE_ETH_RSS_RETA_SIZE_512 ≤ i :=
    Nat.not_le.mpr ((List.mem_range.mp member).trans_le fits)
  rw [retaEntry, if_neg inside, if_neg (by simpa using some)]

/-- A table without queues is divided by zero, unless it is empty. -/
theorem retaEntries_nil (positive : 0 < retaSize) :
    (List.range retaSize).mapM (retaEntry []) = .error .divisionByZero := by
  obtain ⟨size, rfl⟩ := Nat.exists_eq_add_one_of_ne_zero (Nat.ne_of_gt positive)
  rw [List.range_succ_eq_map, List.mapM_cons]
  rfl

/-- The table holds as many queues as it has entries. -/
theorem mem_retaEntries (some : queues ≠ []) (qid : Nat) :
    qid ∈ ((List.range retaSize).map fun i => queues.getD (i % queues.length) 0) ↔
      qid ∈ queues.take retaSize := by
  have positive : 0 < queues.length := List.length_pos_iff.mpr some
  rw [List.mem_map, List.mem_take_iff_getElem]
  constructor
  · rintro ⟨i, member, rfl⟩
    have inside := Nat.mod_lt i positive
    have below := (Nat.mod_le i queues.length).trans_lt (List.mem_range.mp member)
    exact ⟨i % queues.length, Nat.lt_min.mpr ⟨below, inside⟩, by simp [inside]⟩
  · rintro ⟨i, inside, rfl⟩
    obtain ⟨below, inside⟩ := Nat.lt_min.mp inside
    exact ⟨i, List.mem_range.mpr below, by simp [Nat.mod_eq_of_lt inside, inside]⟩

theorem netifUpdateRssReta_eq {updated : Bool}
    (gathered : getConfiguredRssQueues pid conf = .ok queues) :
    netifUpdateRssReta true updated pid retaSize conf =
      (List.range retaSize).mapM (retaEntry queues) >>= fun reta =>
        if updated then .ok reta else .error .dpdkapifail := by
  rw [netifUpdateRssReta, gathered]
  rfl

/-- The table that is filled with some queues. -/
theorem netifUpdateRssReta_ok_iff {updated : Bool} {table : List Nat}
    (gathered : getConfiguredRssQueues pid conf = .ok queues)
    (fits : retaSize ≤ RTE_ETH_RSS_RETA_SIZE_512) (some : queues ≠ []) :
    netifUpdateRssReta true updated pid retaSize conf = .ok table ↔
      updated = true ∧
        table = (List.range retaSize).map fun i => queues.getD (i % queues.length) 0 := by
  rw [netifUpdateRssReta_eq gathered, retaEntries_ok fits some, ok_bind]
  cases updated <;> simp [eq_comm]

/-- The table of a general port steers all packets to queues that are polled if and only if
there are tx queues beside the rx queues of the forwarding workers, those that come into the
table have the ids of rx queues, and they have the ids of all rx queues if all come into the
table. -/
theorem rss_reta_iff (gathered : getConfiguredRssQueues pid conf = .ok queues)
    (fits : retaSize ≤ RTE_ETH_RSS_RETA_SIZE_512) :
    RetaSteers pid retaSize conf ↔
      besideRxQueues pid conf ≠ [] ∧
        (∀ qid ∈ (besideRxQueues pid conf).take retaSize, qid ∈ workerRxQueues pid conf) ∧
        ((besideRxQueues pid conf).length ≤ retaSize →
          ∀ qid ∈ workerRxQueues pid conf, qid ∈ besideRxQueues pid conf) := by
  have same : queues = besideRxQueues pid conf := gatherRssQueues_ok gathered
  rw [← same]
  constructor
  · intro steers
    have some : queues ≠ [] := by
      rintro rfl
      rcases Nat.eq_zero_or_pos retaSize with rfl | positive
      · have filled : netifUpdateRssReta true true pid 0 conf = .ok [] := by
          rw [netifUpdateRssReta_eq gathered]
          rfl
        exact absurd (steers.some [] true [] gathered filled) (by decide)
      · apply steers.divides true
        rw [netifUpdateRssReta_eq gathered, retaEntries_nil positive]
        rfl
    have filled : netifUpdateRssReta true true pid retaSize conf =
        .ok ((List.range retaSize).map fun i => queues.getD (i % queues.length) 0) :=
      (netifUpdateRssReta_ok_iff gathered fits some).mpr ⟨rfl, rfl⟩
    refine ⟨some, fun qid member => ?_, fun large qid member => ?_⟩
    · exact steers.polled true _ filled qid ((mem_retaEntries some qid).mpr member)
    · have inside := steers.whole queues true _ gathered filled large qid member
      exact List.mem_of_mem_take ((mem_retaEntries some qid).mp inside)
  · rintro ⟨some, polled, whole⟩
    have shape {updated : Bool} {table : List Nat} :
        netifUpdateRssReta true updated pid retaSize conf = .ok table ↔
          updated = true ∧
            table = (List.range retaSize).map fun i => queues.getD (i % queues.length) 0 :=
      netifUpdateRssReta_ok_iff gathered fits some
    constructor
    case divides =>
      intro updated failed
      rw [netifUpdateRssReta_eq gathered, retaEntries_ok fits some, ok_bind] at failed
      cases updated <;> cases failed
    case some =>
      intro others updated table gathered' _
      obtain rfl := Except.ok.inj (gathered.symm.trans gathered')
      exact List.length_pos_iff.mpr some
    case polled =>
      intro updated table filled qid member
      obtain ⟨-, rfl⟩ := shape.mp filled
      exact polled qid ((mem_retaEntries some qid).mp member)
    case whole =>
      intro others updated table gathered' filled large qid member
      obtain rfl := Except.ok.inj (gathered.symm.trans gathered')
      obtain ⟨-, rfl⟩ := shape.mp filled
      rw [mem_retaEntries some, List.take_of_length_le large]
      exact whole large qid member

/-- In the default configuration the rx and tx queues of each worker have the same ids. -/
def sameIds : List NetifLcoreConf :=
  [{ id := 1, type := .fwdWorker, pqs := [⟨0, [⟨0, none⟩], [⟨0, none⟩]⟩] },
    { id := 2, type := .fwdWorker, pqs := [⟨0, [⟨1, none⟩], [⟨1, none⟩]⟩] }, {}]

theorem sameIds_steers : RetaSteers 0 128 sameIds := by
  have gathered : getConfiguredRssQueues 0 sameIds = .ok [0, 1] := by decide +kernel
  exact (rss_reta_iff gathered (by decide)).mpr (by decide +kernel)

/-- A forwarding worker with rx queue 0 and tx queue 1, and a KNI worker with tx queue 0. -/
def otherIds : List NetifLcoreConf :=
  [{ id := 1, type := .fwdWorker, pqs := [⟨0, [⟨0, none⟩], [⟨1, none⟩]⟩] },
    { id := 2, type := .kniWorker, pqs := [⟨0, [], [⟨0, none⟩]⟩] }, {}]

/-- A forwarding worker that only sends. -/
def onlySends : List NetifLcoreConf :=
  [{ id := 1, type := .fwdWorker, pqs := [⟨0, [], [⟨0, none⟩]⟩] }, {}]

/-- Both configurations pass the check.  In the first one all packets are steered to a queue that
nobody polls, in the second one the update divides by zero. -/
theorem steered_to_tx_queue :
    checkLcoreConf 1 3 otherIds = .ok () ∧
      netifUpdateRssReta true true 0 128 otherIds = .ok (List.replicate 128 1) ∧
      workerRxQueues 0 otherIds = [0] ∧ ¬RetaSteers 0 128 otherIds ∧
      checkLcoreConf 1 2 onlySends = .ok () ∧
      netifUpdateRssReta true true 0 128 onlySends = .error .divisionByZero := by
  have filled : netifUpdateRssReta true true 0 128 otherIds = .ok (List.replicate 128 1) := by
    decide +kernel
  have polled : workerRxQueues 0 otherIds = [0] := by decide +kernel
  refine ⟨by decide +kernel, filled, polled, fun steers => ?_, by decide +kernel,
    by decide +kernel⟩
  have queue := steers.polled true _ filled 1 (by decide +kernel)
  rw [polled] at queue
  exact absurd queue (by decide)

end NetDefender.Netif
