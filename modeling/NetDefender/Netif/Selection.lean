import Mathlib.Data.List.Forall2
import Mathlib.Data.List.Perm.Basic
import NetDefender.Netif.Workers

/-!
# The table of lcores

`config_lcores` as a sort: its table holds the workers that are not the master, each once and
in the order of their cpus, and the lcores with isolated reception are those that one of them
asks for.
-/

namespace NetDefender.Netif

open CString

/-! ## Entries -/

section Entries

variable {eal : Eal} {registry : Registry}

/-- The port and the queues of an entry. -/
def NetifPortConf.ids (port : NetifPortConf) : Nat × List Nat × List Nat :=
  (port.id, port.rxqs.map NetifQueueConf.id, port.txqs.map NetifQueueConf.id)

/-- The port and the queues that the configuration names. -/
def QueueConfStream.ids (registry : Registry) (queue : QueueConfStream) :
    Nat × List Nat × List Nat :=
  ((netifPortGetByName registry (some queue.portName)).elim NETIF_PORT_ID_INVALID NetifPort.id,
    (usedQueues queue.rxQueues).map queue.rxQueues,
    (usedQueues queue.txQueues).map queue.txQueues)

/-- An entry of `lcore_conf` holds a worker. -/
structure EntryOf (registry : Registry) (worker : WorkerConfStream) (entry : NetifLcoreConf) :
    Prop where
  id : entry.id = worker.cpuId
  type : entry.type = worker.role
  ports : entry.pqs.map NetifPortConf.ids =
    worker.portList.reverse.map (QueueConfStream.ids registry)

theorem EntryOf.nports {worker : WorkerConfStream} {entry : NetifLcoreConf}
    (holds : EntryOf registry worker entry) : entry.nports = worker.portList.length := by
  have lengths := congrArg List.length holds.ports
  rwa [List.length_map, List.length_map, List.length_reverse] at lengths

/-- An rx queue is received on another lcore. -/
structure IsolatesAt (eal : Eal) (registry : Registry) (queue : QueueConfStream) (cid : Nat)
    (ii : Fin NETIF_MAX_QUEUES) : Prop where
  asked : queue.isolRxqLcoreIds ii ≠ NETIF_LCORE_ID_INVALID
  here : queue.isolRxqLcoreIds ii % 2 ^ 8 = cid
  added : ∃ port, netifPortGetByName registry (some queue.portName) = some port ∧
    eal.isolates ⟨cid, port.id, queue.rxQueues ii⟩ = true

/-- A worker has an rx queue that is received on another lcore. -/
def WorkerConfStream.Isolates (eal : Eal) (registry : Registry) (worker : WorkerConfStream)
    (cid : Nat) : Prop :=
  ∃ queue ∈ worker.portList, ∃ ii ∈ usedQueues queue.rxQueues,
    IsolatesAt eal registry queue cid ii

/-- The lcores with isolated reception are those of before and those of a set. -/
def Gains (tab after : IsolTab) (new : Nat → Prop) : Prop :=
  ∀ cid, after cid ≠ [] ↔ tab cid ≠ [] ∨ new cid

theorem Gains.none {tab : IsolTab} {new : Nat → Prop} (nothing : ∀ cid, ¬new cid) :
    Gains tab tab new := fun cid => (or_iff_left (nothing cid)).symm

theorem Gains.trans {tab middle after : IsolTab} {first second : Nat → Prop}
    (left : Gains tab middle first) (right : Gains middle after second) :
    Gains tab after fun cid => first cid ∨ second cid := fun cid => by
  rw [right cid, left cid, or_assoc]

theorem Gains.congr {tab after : IsolTab} {new new' : Nat → Prop} (gains : Gains tab after new)
    (same : ∀ cid, new cid ↔ new' cid) : Gains tab after new' := fun cid => by
  rw [gains cid, same cid]

theorem isolRxqAdd_spec {tab after : IsolTab} {partner : RxPartner} {added : Option RxPartner}
    (done : isolRxqAdd eal tab partner = some (added, after)) :
    Gains tab after fun cid => partner.cid = cid ∧ eal.isolates partner = true := by
  rw [isolRxqAdd] at done
  split at done
  next =>
    split at done
    next made =>
      cases done
      intro cid
      by_cases same : cid = partner.cid
      · subst same
        rw [Function.update_self]
        exact iff_of_true (List.cons_ne_nil _ _) (.inr ⟨rfl, made⟩)
      · rw [Function.update_of_ne same, or_iff_left fun new => same new.1.symm]
    next notMade =>
      cases done
      exact .none fun cid new => notMade new.2
  next => cases done

theorem configIsolation_spec {queue : QueueConfStream} {ii : Fin NETIF_MAX_QUEUES}
    {tab after : IsolTab} {isolRxq : Option RxPartner}
    (done : configIsolation eal queue (netifPortGetByName registry (some queue.portName)) ii
      tab = some (isolRxq, after)) :
    Gains tab after fun cid => IsolatesAt eal registry queue cid ii := by
  rw [configIsolation] at done
  split at done
  next asked =>
    obtain ⟨port, known, added⟩ := Option.bind_eq_some_iff.mp done
    refine (isolRxqAdd_spec added).congr fun cid => ?_
    constructor
    · rintro ⟨rfl, made⟩
      exact ⟨asked, rfl, port, known, made⟩
    · rintro ⟨-, rfl, port', known', made⟩
      cases Option.some.inj (known.symm.trans known')
      exact ⟨rfl, made⟩
  next notAsked =>
    cases done
    exact .none fun cid new => new.asked (not_not.mp notAsked)

theorem configRxqs_spec {queue : QueueConfStream} {indices : List (Fin NETIF_MAX_QUEUES)}
    {tab after : IsolTab} {rxqs : List NetifQueueConf}
    (done : configRxqs eal queue (netifPortGetByName registry (some queue.portName)) indices
      tab = some (rxqs, after)) :
    rxqs.map NetifQueueConf.id = indices.map queue.rxQueues ∧
      Gains tab after fun cid => ∃ ii ∈ indices, IsolatesAt eal registry queue cid ii := by
  induction indices generalizing tab rxqs with
  | nil =>
      cases done
      exact ⟨rfl, .none fun cid => by simp⟩
  | cons ii rest ih =>
      rw [configRxqs, Option.bind_eq_bind, Option.bind_eq_some_iff] at done
      obtain ⟨⟨isolRxq, middle⟩, first, done⟩ := done
      obtain ⟨⟨others, last⟩, later, done⟩ := Option.bind_eq_some_iff.mp done
      cases done
      obtain ⟨ids, gains⟩ := ih later
      refine ⟨by simp [ids], ((configIsolation_spec first).trans gains).congr fun cid => ?_⟩
      simp

theorem configPorts_spec {queues : List QueueConfStream} {tab after : IsolTab}
    {ports : List NetifPortConf}
    (done : configPorts eal registry queues tab = some (ports, after)) :
    ports.map NetifPortConf.ids = queues.map (QueueConfStream.ids registry) ∧
      Gains tab after fun cid => ∃ queue ∈ queues, ∃ ii ∈ usedQueues queue.rxQueues,
        IsolatesAt eal registry queue cid ii := by
  induction queues generalizing tab ports with
  | nil =>
      cases done
      exact ⟨rfl, .none fun cid => by simp⟩
  | cons queue rest ih =>
      rw [configPorts, Option.bind_eq_bind, Option.bind_eq_some_iff] at done
      obtain ⟨⟨port, middle⟩, first, done⟩ := done
      obtain ⟨⟨others, last⟩, later, done⟩ := Option.bind_eq_some_iff.mp done
      cases done
      obtain ⟨ids, gains⟩ := ih later
      simp only [configPort, Option.bind_eq_bind, Option.bind_eq_some_iff] at first
      obtain ⟨⟨rxqs, middle'⟩, received, first⟩ := first
      cases first
      obtain ⟨rxIds, here⟩ := configRxqs_spec received
      refine ⟨?_, (here.trans gains).congr fun cid => by simp⟩
      rw [List.map_cons, List.map_cons, ids]
      simp [NetifPortConf.ids, QueueConfStream.ids, rxIds, List.map_map, Function.comp_def]

theorem configEntry_spec {worker : WorkerConfStream} {tab after : IsolTab}
    {entry : NetifLcoreConf} (small : worker.cpuId < 2 ^ 8)
    (done : configEntry eal registry worker tab = some (entry, after)) :
    EntryOf registry worker entry ∧ Gains tab after (worker.Isolates eal registry) := by
  rw [configEntry] at done
  split at done
  next =>
    rw [Option.bind_eq_bind, Option.bind_eq_some_iff] at done
    obtain ⟨⟨pqs, middle⟩, configured, done⟩ := done
    cases done
    obtain ⟨ids, gains⟩ := configPorts_spec configured
    refine ⟨⟨Nat.mod_eq_of_lt small, rfl, ids⟩, gains.congr fun cid => ?_⟩
    simp [WorkerConfStream.Isolates]
  next => cases done

end Entries

/-! ## Masters -/

def nonMasters (workers : List WorkerConfStream) : List WorkerConfStream :=
  workers.filter fun worker => !worker.isMaster

def masters (workers : List WorkerConfStream) : List WorkerConfStream :=
  workers.filter WorkerConfStream.isMaster

theorem moveMasters_eq (rest passed moved : List WorkerConfStream) (cpuLeft : Nat) :
    moveMasters rest.length passed (rest ++ moved) cpuLeft =
      (passed ++ nonMasters rest ++ moved ++ masters rest,
        cpuLeft - (masters rest).length) := by
  induction rest generalizing passed moved cpuLeft with
  | nil => simp [moveMasters, nonMasters, masters]
  | cons worker rest ih =>
      rw [List.length_cons, List.cons_append, moveMasters]
      cases master : worker.isMaster with
      | true =>
          rw [if_pos rfl, List.append_assoc, ih]
          simp [nonMasters, masters, master, Nat.sub_sub, Nat.add_comm]
      | false =>
          rw [if_neg Bool.false_ne_true, ih]
          simp [nonMasters, masters, master]

theorem length_nonMasters (workers : List WorkerConfStream) :
    workers.length - (masters workers).length = (nonMasters workers).length := by
  have split := List.length_eq_length_filter_add (l := workers) WorkerConfStream.isMaster
  rw [nonMasters, masters]
  omega

/-! ## The least cpu -/

theorem workerMin_spec {cpuIdMin tk position : Nat} {best : Option Nat}
    {workers : List WorkerConfStream}
    (found : workerMin cpuIdMin best tk workers = some position) :
    (best = some position ∧ ∀ worker ∈ workers, cpuIdMin ≤ worker.cpuId) ∨
    ∃ i worker, position = tk + i ∧ workers[i]? = some worker ∧ worker.cpuId < cpuIdMin ∧
      ∀ other ∈ workers, worker.cpuId ≤ other.cpuId := by
  induction workers generalizing cpuIdMin best tk with
  | nil => exact .inl ⟨found, by simp⟩
  | cons worker rest ih =>
      rw [workerMin] at found
      split at found
      next less =>
        rcases ih found with ⟨first, least⟩ | ⟨i, lower, rfl, at_i, less', least⟩
        · cases first
          refine .inr ⟨0, worker, rfl, rfl, less, ?_⟩
          exact List.forall_mem_cons.mpr ⟨Nat.le_refl _, least⟩
        · refine .inr ⟨i + 1, lower, by omega, at_i, by omega, ?_⟩
          exact List.forall_mem_cons.mpr ⟨Nat.le_of_lt less', least⟩
      next notLess =>
        rcases ih found with ⟨first, least⟩ | ⟨i, lower, rfl, at_i, less', least⟩
        · exact .inl ⟨first, List.forall_mem_cons.mpr ⟨Nat.le_of_not_lt notLess, least⟩⟩
        · refine .inr ⟨i + 1, lower, by omega, at_i, less', ?_⟩
          exact List.forall_mem_cons.mpr ⟨by omega, least⟩

/-! ## The sort -/

section Sorting

variable {eal : Eal} {registry : Registry}

/-- Entries that hold the workers of a list, in the order of their cpus. -/
structure Sorts (eal : Eal) (registry : Registry) (workers order : List WorkerConfStream)
    (entries : List NetifLcoreConf) : Prop where
  perm : order.Perm workers
  increasing : order.Pairwise fun worker later => worker.cpuId < later.cpuId
  holds : List.Forall₂ (EntryOf registry) order entries
  small : ∀ worker ∈ workers, worker.cpuId < eal.maxLcore

/-- The least worker is put before the others. -/
theorem Sorts.cons {worker : WorkerConfStream} {entry : NetifLcoreConf}
    {workers rest order : List WorkerConfStream} {entries : List NetifLcoreConf}
    (sorts : Sorts eal registry rest order entries) (split : (worker :: rest).Perm workers)
    (distinct : (workers.map WorkerConfStream.cpuId).Nodup)
    (least : ∀ other ∈ workers, worker.cpuId ≤ other.cpuId)
    (holds : EntryOf registry worker entry) (small : worker.cpuId < eal.maxLcore) :
    Sorts eal registry workers (worker :: order) (entry :: entries) := by
  refine ⟨(sorts.perm.cons worker).trans split, List.pairwise_cons.mpr ⟨fun other later => ?_,
    sorts.increasing⟩, .cons holds sorts.holds, fun other member => ?_⟩
  · have member := sorts.perm.mem_iff.mp later
    have apart := ((split.map WorkerConfStream.cpuId).nodup_iff.mpr distinct)
    rw [List.map_cons, List.nodup_cons] at apart
    refine Nat.lt_of_le_of_ne (least other (split.mem_iff.mp (List.mem_cons_of_mem _ member)))
      fun same => apart.1 (same ▸ List.mem_map_of_mem member)
  · rcases List.mem_cons.mp (split.mem_iff.mpr member) with rfl | later
    · exact small
    · exact sorts.small other later

theorem selectWorkers_spec (bound : eal.maxLcore < 2 ^ 8)
    {workers tail : List WorkerConfStream} {table table' : List NetifLcoreConf}
    {tab after : IsolTab} (distinct : (workers.map WorkerConfStream.cpuId).Nodup)
    (selected : selectWorkers eal registry workers.length (workers ++ tail) table tab =
      some (table', after)) :
    ∃ order entries, Sorts eal registry workers order entries ∧ table' = table ++ entries ∧
      (table.length ≤ eal.maxLcore → table'.length ≤ eal.maxLcore) ∧
      Gains tab after fun cid => ∃ worker ∈ workers, worker.Isolates eal registry cid := by
  induction left : workers.length generalizing workers tail table tab with
  | zero =>
      cases List.length_eq_zero_iff.mp left
      cases selected
      exact ⟨[], [], ⟨.nil, .nil, .nil, by simp⟩, by simp, id, .none fun cid => by simp⟩
  | succ cpuLeft ih =>
      rw [left, selectWorkers, ← left, List.take_left, Option.bind_eq_bind,
        Option.bind_eq_some_iff] at selected
      obtain ⟨position, found, selected⟩ := selected
      obtain ⟨worker, there, selected⟩ := Option.bind_eq_some_iff.mp selected
      obtain ⟨⟨entry, middle⟩, filled, selected⟩ := Option.bind_eq_some_iff.mp selected
      rcases workerMin_spec found with ⟨impossible, -⟩ | ⟨i, least, rfl, at_i, small, minimal⟩
      · cases impossible
      · rw [Nat.zero_add] at there selected
        obtain ⟨inside, here⟩ := List.getElem?_eq_some_iff.mp at_i
        rw [List.getElem?_append_left inside, at_i] at there
        cases there
        have perm : (worker :: workers.eraseIdx i).Perm workers := by
          rw [← here]
          exact List.getElem_cons_eraseIdx_perm inside
        have distinct' : ((workers.eraseIdx i).map WorkerConfStream.cpuId).Nodup :=
          distinct.sublist ((List.eraseIdx_sublist workers i).map _)
        have shorter : (workers.eraseIdx i).length = cpuLeft := by
          rw [List.length_eraseIdx_of_lt inside, left, Nat.add_sub_cancel]
        dsimp only at selected
        split at selected
        next room =>
          rw [List.eraseIdx_append_of_lt_length inside, List.append_assoc, ← shorter]
            at selected
          obtain ⟨holds, gains⟩ := configEntry_spec (by omega) filled
          obtain ⟨order, entries, sorts, rfl, fits, later⟩ := ih distinct' selected shorter
          refine ⟨worker :: order, entry :: entries, sorts.cons perm distinct minimal holds small,
            by simp, fun _ => fits (by simpa using Nat.succ_le_of_lt room),
            (gains.trans later).congr fun cid => ?_⟩
          simp only [← perm.mem_iff, List.mem_cons, exists_eq_or_imp]
        next => cases selected

/-- The table of `config_lcores` holds the workers other than masters, sorted by their cpus,
and then empty entries. -/
theorem configLcores_spec (bound : eal.maxLcore < 2 ^ 8) {workers : List WorkerConfStream}
    {conf : List NetifLcoreConf} {tab : IsolTab}
    (distinct : (workers.map WorkerConfStream.cpuId).Nodup)
    (configured : configLcores eal registry workers = some (conf, tab)) :
    ∃ order entries, Sorts eal registry (nonMasters workers) order entries ∧
      conf = entries ++ List.replicate (eal.maxLcore - entries.length) ({} : NetifLcoreConf) ∧
      entries.length ≤ eal.maxLcore ∧
      ∀ cid, tab cid ≠ [] ↔
        ∃ worker ∈ nonMasters workers, worker.Isolates eal registry cid := by
  rw [configLcores] at configured
  have moved := moveMasters_eq workers [] [] workers.length
  rw [List.append_nil, List.nil_append, List.append_nil, length_nonMasters] at moved
  rw [moved] at configured
  obtain ⟨⟨table, after⟩, selected, done⟩ := Option.bind_eq_some_iff.mp configured
  cases done
  have distinct' : ((nonMasters workers).map WorkerConfStream.cpuId).Nodup :=
    distinct.sublist (List.filter_sublist.map _)
  obtain ⟨order, entries, sorts, same, fits, gains⟩ :=
    selectWorkers_spec bound distinct' selected
  rw [List.nil_append] at same
  subst same
  refine ⟨order, table, sorts, rfl, fits (Nat.zero_le _), fun cid => ?_⟩
  rw [gains cid]
  simp

end Sorting

end NetDefender.Netif
