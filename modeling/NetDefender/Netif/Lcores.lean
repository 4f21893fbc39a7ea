import Mathlib.Algebra.GroupWithZero.Nat
import Mathlib.Data.Finset.Card
import NetDefender.Lib.Fallible

/-!
# The check of the worker configuration

`check_lcore_conf` of `netif.c`, which marks the queues of all lcores in one pass, counts
them again in a second and compares the ports of each lcore in a third.

The table `lcore_conf` is the list of its entries.  The arrays of an entry are lists: an entry
has `nports` ports, and a port `nrxq` and `ntxq` queues.
-/

namespace NetDefender.Netif

open Fallible

def NETIF_MAX_QUEUES : Nat := 16

def NETIF_MAX_RTE_PORTS : Nat := 64

/-- `ndf_lcore_role_t`. -/
inductive LcoreRole where
  | idle
  | master
  | fwdWorker
  | isolrxWorker
  | kniWorker
  | max
  deriving DecidableEq, Repr

/-- `struct rx_partner`, but for its ring. -/
structure RxPartner where
  cid : Nat
  pid : Nat
  qid : Nat
  deriving DecidableEq, Repr

/-- `struct netif_queue_conf`. -/
structure NetifQueueConf where
  id : Nat
  isolRxq : Option RxPartner := none
  deriving DecidableEq, Repr

/-- `struct netif_port_conf`. -/
structure NetifPortConf where
  id : Nat
  rxqs : List NetifQueueConf
  txqs : List NetifQueueConf
  deriving DecidableEq, Repr

def NetifPortConf.nrxq (port : NetifPortConf) : Nat := port.rxqs.length

def NetifPortConf.ntxq (port : NetifPortConf) : Nat := port.txqs.length

/-- `struct netif_lcore_conf`. -/
structure NetifLcoreConf where
  id : Nat := 0
  type : LcoreRole := .idle
  pqs : List NetifPortConf := []
  deriving DecidableEq, Repr

def NetifLcoreConf.nports (entry : NetifLcoreConf) : Nat := entry.pqs.length

/-- The codes other than `LCONFCHK_OK`; `outside` stands for an access outside an array. -/
inductive LconfChk where
  | repeatedRxQueueId
  | repeatedTxQueueId
  | discontinuousQueueId
  | portNotEnough
  | incorrectTxQueueNum
  | noSlaveLcores
  | outside
  deriving DecidableEq, Repr

/-! ## Counting -/

/-- The loop of `port_rx_queues_get` and `port_tx_queues_get`. -/
def portQueuesGet (count : NetifPortConf → Nat) (pid : Nat) :
    List NetifLcoreConf → Except LconfChk Nat
  | [] => .error .outside
  | entry :: rest =>
      if entry.nports > 0 then
        (portQueuesGet count pid rest).map fun later =>
          (entry.pqs.map fun port => if port.id = pid then count port else 0).sum + later
      else .ok 0

/-- `port_rx_queues_get`. -/
def portRxQueuesGet : Nat → List NetifLcoreConf → Except LconfChk Nat :=
  portQueuesGet NetifPortConf.nrxq

/-- `port_tx_queues_get`. -/
def portTxQueuesGet : Nat → List NetifLcoreConf → Except LconfChk Nat :=
  portQueuesGet NetifPortConf.ntxq

/-- A turn of the inner loop of `get_configured_port_nb`: `known` is `ports_array` up to the
`uint8_t` index `ports_nb`. -/
def addPort (known : List Nat) (pid : Nat) : List Nat :=
  if pid ∈ known then known
  else if known.length + 1 = 2 ^ 8 then []
  else known ++ [pid]

/-- The loop of `get_configured_port_nb`, which has come to an index below or at `lcores`. -/
def configuredPorts : Nat → List Nat → List NetifLcoreConf → Except LconfChk (List Nat)
  | _, _, [] => .error .outside
  | lcores, known, entry :: rest =>
      if entry.nports > 0 ∧ 0 < lcores then
        configuredPorts (lcores - 1) ((entry.pqs.map NetifPortConf.id).foldl addPort known) rest
      else .ok known

/-- `get_configured_port_nb`. -/
def getConfiguredPortNb (lcores : Nat) (conf : List NetifLcoreConf) : Except LconfChk Nat :=
  (configuredPorts lcores [] conf).map List.length

/-! ## Marks -/

def LCONFCHK_MARK : Nat := 255

/-- The ids of the queues in `mark.pqs`, by port and queue. -/
abbrev Marks := Nat → Nat → Nat

/-- `mark`. -/
structure Mark where
  rxqs : Marks := fun _ _ => 0
  txqs : Marks := fun _ _ => 0

/-- A turn of the innermost loops of the first pass. -/
def markQueue (repeated : LconfChk) (pid : Nat) (marks : Marks) (queue : NetifQueueConf) :
    Except LconfChk Marks :=
  if NETIF_MAX_RTE_PORTS ≤ pid ∨ NETIF_MAX_QUEUES ≤ queue.id then .error .outside
  else if marks pid queue.id = LCONFCHK_MARK then .error repeated
  else
    .ok fun port qid =>
      if port = pid ∧ qid = queue.id then LCONFCHK_MARK else marks port qid

def markPort (mark : Mark) (port : NetifPortConf) : Except LconfChk Mark := do
  let rxqs ← port.rxqs.foldlM (markQueue .repeatedRxQueueId port.id) mark.rxqs
  let txqs ← port.txqs.foldlM (markQueue .repeatedTxQueueId port.id) mark.txqs
  return { rxqs, txqs }

def markEntry (nports : Nat) (mark : Mark) (entry : NetifLcoreConf) : Except LconfChk Mark :=
  if entry.nports > nports then .error .portNotEnough
  else entry.pqs.foldlM markPort mark

/-- The first pass from index `i` on; the index at its end, and the marks. -/
def markEntries (lcores nports : Nat) :
    Nat → Mark → List NetifLcoreConf → Except LconfChk (Nat × Mark)
  | _, _, [] => .error .outside
  | i, mark, entry :: rest =>
      if entry.nports > 0 then do
        let mark ← markEntry nports mark entry
        if i + 1 ≥ lcores then .ok (i + 1, mark)
        else markEntries lcores nports (i + 1) mark rest
      else .ok (i, mark)

/-- The test of one queue id in the second pass. -/
def checkMark (marks : Marks) (pid qid : Nat) : Except LconfChk Unit :=
  if NETIF_MAX_RTE_PORTS ≤ pid ∨ NETIF_MAX_QUEUES ≤ qid then .error .outside
  else if LCONFCHK_MARK ≠ marks pid qid then .error .discontinuousQueueId
  else .ok ()

/-- The second pass at one port; `nqueues` is a `uint8_t`. -/
def checkQueues (mark : Mark) (conf : List NetifLcoreConf) (pid : Nat) :
    Except LconfChk Unit := do
  let nrxq ← portRxQueuesGet pid conf
  (List.range (nrxq % 2 ^ 8)).forM (checkMark mark.rxqs pid)
  let ntxq ← portTxQueuesGet pid conf
  (List.range (ntxq % 2 ^ 8)).forM (checkMark mark.txqs pid)

/-- The third pass from index `i` on. -/
def checkPorts (lcores nportsConf : Nat) : Nat → List NetifLcoreConf → Except LconfChk Unit
  | _, [] => .error .outside
  | i, entry :: rest =>
      if entry.nports > 0 then
        if entry.nports ≠ nportsConf then .error .incorrectTxQueueNum
        else if entry.pqs.any fun port => port.ntxq < 1 then .error .incorrectTxQueueNum
        else if i + 1 ≥ lcores then .ok ()
        else checkPorts lcores nportsConf (i + 1) rest
      else .ok ()

/-- `check_lcore_conf`; `devices` is what `ndf_rte_eth_dev_count` returns. -/
def checkLcoreConf (devices lcores : Nat) (conf : List NetifLcoreConf) :
    Except LconfChk Unit := do
  let nportsConf ← getConfiguredPortNb lcores conf
  let nports := devices % 2 ^ 8
  let (i, mark) ← markEntries lcores nports 0 {} conf
  if i = 0 then .error .noSlaveLcores
  else
    (List.range nports).forM (checkQueues mark conf)
    checkPorts lcores nportsConf 0 conf

end NetDefender.Netif
