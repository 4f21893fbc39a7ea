import NetDefender.Netif.Lcores
import NetDefender.Netif.Ports

/-!
# Workers

`config_lcores` of `netif.c`, which fills `lcore_conf` from the workers of the configuration
file, and `lcore_index_init` and `lcore_role_init`, which read it.

Parameters stand for what the environment abstraction layer of DPDK decides: `RTE_MAX_LCORE`,
which lcores are enabled, the main lcore, and for which partners of isolated reception there
is memory and a ring.  An assertion that fails, a null pointer that is read and an access
outside an array are `none`.
-/

namespace NetDefender.Netif

open CString

def NETIF_LCORE_ID_INVALID : Nat := 0xFF

/-- `struct queue_conf_stream`; an id of `NETIF_MAX_QUEUES` is unused space. -/
structure QueueConfStream where
  portName : Bytes
  rxQueues : Fin NETIF_MAX_QUEUES → Nat
  txQueues : Fin NETIF_MAX_QUEUES → Nat
  isolRxqLcoreIds : Fin NETIF_MAX_QUEUES → Nat

/-- `struct worker_conf_stream`. -/
structure WorkerConfStream where
  cpuId : Nat
  type : Bytes
  portList : List QueueConfStream

def WorkerConfStream.isMaster (worker : WorkerConfStream) : Bool :=
  text worker.type = ascii "master"

/-- The role that `config_lcores` gives to a worker. -/
def WorkerConfStream.role (worker : WorkerConfStream) : LcoreRole :=
  if text worker.type = ascii "slave" then .fwdWorker
  else if text worker.type = ascii "kni" then .kniWorker
  else .idle

/-- What is known of the system that the program runs on. -/
structure Eal where
  maxLcore : Nat
  enabled : Nat → Bool
  mainLcore : Nat
  /-- There is memory and a ring for a partner. -/
  isolates : RxPartner → Bool

/-- `isol_rxq_tab`. -/
abbrev IsolTab := Nat → List RxPartner

section Config

variable (eal : Eal) (registry : Registry)

/-! ## Filling an entry -/

/-- `isol_rxq_add`: the partner, if it could be added, and the table. -/
def isolRxqAdd (tab : IsolTab) (partner : RxPartner) : Option (Option RxPartner × IsolTab) :=
  if partner.cid < eal.maxLcore then
    if eal.isolates partner then
      some (some partner,
        Function.update tab partner.cid (partner :: tab partner.cid))
    else some (none, tab)
  else none

/-- The indices that a loop over an array of queue ids comes to. -/
def usedQueues (ids : Fin NETIF_MAX_QUEUES → Nat) : List (Fin NETIF_MAX_QUEUES) :=
  (List.finRange NETIF_MAX_QUEUES).takeWhile fun ii => ids ii ≠ NETIF_MAX_QUEUES

/-- The partner of an rx queue, if it is received on another lcore. -/
def configIsolation (queue : QueueConfStream) (port : Option NetifPort)
    (ii : Fin NETIF_MAX_QUEUES) (tab : IsolTab) : Option (Option RxPartner × IsolTab) :=
  if queue.isolRxqLcoreIds ii ≠ NETIF_LCORE_ID_INVALID then
    port.bind fun port =>
      isolRxqAdd eal tab ⟨queue.isolRxqLcoreIds ii % 2 ^ 8, port.id, queue.rxQueues ii⟩
  else some (none, tab)

/-- The loop over the rx queues of a port. -/
def configRxqs (queue : QueueConfStream) (port : Option NetifPort) :
    List (Fin NETIF_MAX_QUEUES) → IsolTab → Option (List NetifQueueConf × IsolTab)
  | [], tab => some ([], tab)
  | ii :: rest, tab => do
      let (isolRxq, tab) ← configIsolation eal queue port ii tab
      let (rxqs, tab) ← configRxqs queue port rest tab
      return (⟨queue.rxQueues ii, isolRxq⟩ :: rxqs, tab)

def configPort (queue : QueueConfStream) (tab : IsolTab) : Option (NetifPortConf × IsolTab) := do
  let port := netifPortGetByName registry (some queue.portName)
  let (rxqs, tab) ← configRxqs eal queue port (usedQueues queue.rxQueues) tab
  let pid := port.elim NETIF_PORT_ID_INVALID NetifPort.id
  let txqs := (usedQueues queue.txQueues).map fun ii => ⟨queue.txQueues ii, none⟩
  return (⟨pid, rxqs, txqs⟩, tab)

/-- The loop over the ports of a worker. -/
def configPorts : List QueueConfStream → IsolTab → Option (List NetifPortConf × IsolTab)
  | [], tab => some ([], tab)
  | queue :: rest, tab => do
      let (port, tab) ← configPort eal registry queue tab
      let (ports, tab) ← configPorts rest tab
      return (port :: ports, tab)

/-- The entry of a worker; its list of ports is read from the end. -/
def configEntry (worker : WorkerConfStream) (tab : IsolTab) :
    Option (NetifLcoreConf × IsolTab) := do
  if worker.portList.length ≤ NETIF_MAX_RTE_PORTS then
    let (pqs, tab) ← configPorts eal registry worker.portList.reverse tab
    return (⟨worker.cpuId % 2 ^ 8, worker.role, pqs⟩, tab)
  else none

/-! ## Selecting workers -/

/-- The first loop of `config_lcores`, which has passed some nodes of the list and counts down
`cpu_cnt`: the list, and `cpu_left`. -/
def moveMasters : Nat → List WorkerConfStream → List WorkerConfStream → Nat →
    List WorkerConfStream × Nat
  | 0, passed, rest, cpuLeft => (passed ++ rest, cpuLeft)
  | _ + 1, passed, [], cpuLeft => (passed, cpuLeft)
  | cpuCnt + 1, passed, worker :: rest, cpuLeft =>
      if worker.isMaster then moveMasters cpuCnt passed (rest ++ [worker]) (cpuLeft - 1)
      else moveMasters cpuCnt (passed ++ [worker]) rest cpuLeft

/-- The search for the least `cpu_id` from position `tk` on: the position of `worker_min`. -/
def workerMin : Nat → Option Nat → Nat → List WorkerConfStream → Option Nat
  | _, best, _, [] => best
  | cpuIdMin, best, tk, worker :: rest =>
      if cpuIdMin > worker.cpuId then workerMin worker.cpuId (some tk) (tk + 1) rest
      else workerMin cpuIdMin best (tk + 1) rest

/-- The second loop of `config_lcores`: `cpu_left` workers at the head of the list are still
to be selected. -/
def selectWorkers : Nat → List WorkerConfStream → List NetifLcoreConf → IsolTab →
    Option (List NetifLcoreConf × IsolTab)
  | 0, _, table, tab => some (table, tab)
  | cpuLeft + 1, workers, table, tab => do
      let position ← workerMin eal.maxLcore none 0 (workers.take (cpuLeft + 1))
      let worker ← workers[position]?
      let (entry, tab) ← configEntry eal registry worker tab
      if table.length < eal.maxLcore then
        selectWorkers cpuLeft (workers.eraseIdx position ++ [worker]) (table ++ [entry]) tab
      else none

/-- `config_lcores`: the tables `lcore_conf` and `isol_rxq_tab`. -/
def configLcores (workers : List WorkerConfStream) :
    Option (List NetifLcoreConf × IsolTab) := do
  let (workers, cpuLeft) := moveMasters workers.length [] workers workers.length
  let (table, tab) ← selectWorkers eal registry cpuLeft workers [] fun _ => []
  return (table ++ List.replicate (eal.maxLcore - table.length) {}, tab)

end Config

/-! ## Reading the table -/

section Tables

variable (eal : Eal)

/-- The loop of `lcore_index_init`, at index `i`. -/
def indexLcores : Nat → (Nat → Nat) → List NetifLcoreConf → Option (Endf × (Nat → Nat))
  | _, _, [] => none
  | i, lcore2index, entry :: rest =>
      if entry.nports > 0 then
        if !eal.enabled entry.id then some (.noneAlCore, lcore2index)
        else if entry.id ≤ eal.maxLcore then
          indexLcores (i + 1) (Function.update lcore2index entry.id (i % 2 ^ 8)) rest
        else none
      else some (.ok, lcore2index)

/-- `lcore_index_init`. -/
def lcoreIndexInit (conf : List NetifLcoreConf) : Option (Endf × (Nat → Nat)) :=
  indexLcores eal 0 (fun _ => eal.maxLcore % 2 ^ 8) conf

/-- An assertion that a lcore is idle, and its new role. -/
def assignRole (roles : Nat → LcoreRole) (cid : Nat) (role : LcoreRole) :
    Option (Nat → LcoreRole) :=
  if cid < eal.maxLcore ∧ roles cid = .idle then some (Function.update roles cid role)
  else none

/-- The second loop of `lcore_role_init`. -/
def workerRoles : (Nat → LcoreRole) → List NetifLcoreConf → Option (Nat → LcoreRole)
  | _, [] => none
  | roles, entry :: rest =>
      if entry.nports > 0 then do
        let roles ← assignRole eal roles entry.id entry.type
        workerRoles roles rest
      else some roles

/-- A turn of the third loop of `lcore_role_init`. -/
def isolRole (tab : IsolTab) (roles : Nat → LcoreRole) (cid : Nat) :
    Option (Nat → LcoreRole) :=
  if tab cid ≠ [] then assignRole eal roles cid .isolrxWorker else some roles

/-- `lcore_role_init`, from the roles that `global_data_init` sets. -/
def lcoreRoleInit (conf : List NetifLcoreConf) (tab : IsolTab) : Option (Nat → LcoreRole) := do
  let roles := fun cid => if cid < eal.maxLcore ∧ !eal.enabled cid then .max else .idle
  let roles ← assignRole eal roles eal.mainLcore .master
  let roles ← workerRoles eal roles conf
  (List.range eal.maxLcore).foldlM (isolRole eal tab) roles

end Tables

end NetDefender.Netif
