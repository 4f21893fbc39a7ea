import NetDefender.Config.Keywords
import NetDefender.Netif.Sizes
import NetDefender.Netif.Workers

/-!
# The handlers of the keywords

What the callbacks of `netif.c` and `timer.c` make of the tokens of a line, and the loading of
the configuration by `cfgfile.c`.

The lists of devices, workers and ports are lists with the node that was added last in front; a
handler that takes the head of an empty list for a node fails, and so does one that reads or
writes behind an array, or whose assertion fails.  A call of `rte_malloc` may fail, and leaves in
the memory what was there.
-/

namespace NetDefender.Config

open CString Netif

/-! ## Values -/

/-- `strtol` in base 10. -/
def strtol (str : Bytes) : Int :=
  let trimmed := str.dropWhile isspace
  let negative := trimmed.head? = some 45
  let unsigned := if negative ∨ trimmed.head? = some 43 then trimmed.tail else trimmed
  let value : Int := decimal (unsigned.takeWhile isdigit)
  if negative then max (-value) (-2 ^ 63) else min value (2 ^ 63 - 1)

/-- `atoi`, which is `strtol` cast to `int`. -/
def atoiInt (str : Bytes) : Int := (strtol str).bmod (2 ^ 32)

/-- `strncpy` into an array. -/
def strncpy (size : Nat) (src : Bytes) : Bytes := (text src ++ List.replicate size 0).take size

/-- The blank between two tokens of a quoted value. -/
def quotedGap (tmp str : Bytes) : Bytes :=
  if str.head? ≠ some dquote ∧ tmp.head? ≠ some dquote then [32] else []

/-- The loop of `set_value` over the tokens behind another one; the last token is left out. -/
def quotedValue (alloc tmp : Bytes) : List Bytes → Bytes
  | [] => alloc
  | [last] => alloc ++ quotedGap tmp last
  | str :: next :: rest => quotedValue (alloc ++ quotedGap tmp str ++ str) str (next :: rest)

/-- `set_value`: the result may be `NULL`. -/
def setValue : List Bytes → Option (Option Bytes)
  | _ :: str :: rest =>
      if str.head? = some dquote then
        match rest with
        | [] => some none
        | [_] => some (some [])
        | str :: next :: rest => some (some (quotedValue str str (next :: rest)))
      else some (some str)
  | _ => none

/-- `set_value`, and the assertion that the result is not `NULL`. -/
def assertValue (tokens : List Bytes) : Option Bytes := (setValue tokens).join

/-- A number between two bounds is rounded, and another one gives way to a default. -/
def checked (low high default : Int) (round : Int → Int) (number : Int) : Int :=
  if number < low ∨ number > high then default else round number

/-! ## The configuration -/

def NETIF_PKTPOOL_NB_MBUF_DEF : Int := 65535

def NETIF_PKTPOOL_NB_MBUF_MIN : Int := 1023

def NETIF_PKTPOOL_NB_MBUF_MAX : Int := 134217727

def NETIF_PKTPOOL_MBUF_CACHE_DEF : Int := 256

def NETIF_PKTPOOL_MBUF_CACHE_MIN : Int := 32

def NETIF_PKTPOOL_MBUF_CACHE_MAX : Int := 8192

def NETIF_NB_RX_DESC_DEF : Int := 256

def NETIF_NB_TX_DESC_DEF : Int := 512

/-- `NETIF_NB_RX_DESC_MIN` and `NETIF_NB_TX_DESC_MIN`. -/
def NETIF_NB_DESC_MIN : Int := 16

/-- `NETIF_NB_RX_DESC_MAX` and `NETIF_NB_TX_DESC_MAX`. -/
def NETIF_NB_DESC_MAX : Int := 8192

def NETIF_ISOL_RXQ_RING_SZ_DEF : Int := 1048576

def NETIF_MAX_ETH_MTU : Int := 9000

def NETIF_DEFAULT_ETH_MTU : Int := 1500

def TIMER_SCHED_INTERVAL_DEF : Int := 10

def TIMER_SCHED_INTERVAL_MIN : Int := 1

def TIMER_SCHED_INTERVAL_MAX : Int := 10000000

/-- The length of the arrays for names. -/
def nameSize : Nat := 32

/-- `struct port_conf_stream`, as `device_handler` fills it in. -/
structure PortConfStream where
  portId : Int := -1
  name : Bytes
  kniName : Bytes := List.replicate nameSize 0
  rxQueueNb : Int := -1
  rxDescNb : Int := NETIF_NB_RX_DESC_DEF
  rss : Bytes := strncpy nameSize (ascii "tcp")
  mtu : Int := NETIF_DEFAULT_ETH_MTU
  txQueueNb : Int := -1
  txDescNb : Int := NETIF_NB_TX_DESC_DEF
  txMbufFastFree : Bool := true
  promiscMode : Bool := false
  allmulticast : Bool := false

/-- `struct queue_conf_stream` with the size of its rings. -/
structure QueueConf extends QueueConfStream where
  isolRxqRingSz : Int

/-- `struct worker_conf_stream` with its name. -/
structure WorkerConf where
  cpuId : Int
  name : Bytes
  type : Bytes
  portList : List QueueConf

/-- What `rte_malloc` finds in the memory of a worker. -/
structure Stale where
  cpuId : Int
  type : Bytes

/-- What the configuration sets, and how many allocations there have been. -/
structure Conf where
  pktpoolNbMbuf : Int := NETIF_PKTPOOL_NB_MBUF_DEF
  pktpoolMbufCache : Int := NETIF_PKTPOOL_MBUF_CACHE_DEF
  portList : List PortConfStream := []
  workerList : List WorkerConf := []
  schedInterval : Int := 0
  allocated : Nat := 0

namespace Conf

/-- The device in front of `port_list` is changed. -/
def withDevice (conf : Conf) (change : PortConfStream → PortConfStream) : Option Conf :=
  match conf.portList with
  | [] => none
  | device :: others => some { conf with portList := change device :: others }

/-- The worker in front of `worker_list` is changed. -/
def withWorker (conf : Conf) (change : WorkerConf → WorkerConf) : Option Conf :=
  match conf.workerList with
  | [] => none
  | worker :: others => some { conf with workerList := change worker :: others }

/-- The port in front of the list of the worker in front of `worker_list` is changed. -/
def withPort (conf : Conf) (change : QueueConf → QueueConf) : Option Conf :=
  match conf.workerList with
  | { cpuId, name, type, portList := port :: ports } :: others =>
      some { conf with
        workerList := { cpuId, name, type, portList := change port :: ports } :: others }
  | _ => none

end Conf

/-! ## Handlers -/

section Handlers

-- What the allocations find, and `NDF_MAX_LCORE`.
variable (alloc : Nat → Option Stale) (maxLcore : Nat)

/-- An allocation. -/
def Conf.allocate (conf : Conf) : Option Stale × Conf :=
  (alloc conf.allocated, { conf with allocated := conf.allocated + 1 })

/-- `netif_defs_handler`. -/
def netifDefsHandler (conf : Conf) : Option Conf := some { conf with portList := [] }

/-- `pktpool_size_handler`. -/
def pktpoolSizeHandler (tokens : List Bytes) (conf : Conf) : Option Conf := do
  let str ← assertValue tokens
  return { conf with
    pktpoolNbMbuf :=
      checked NETIF_PKTPOOL_NB_MBUF_MIN NETIF_PKTPOOL_NB_MBUF_MAX NETIF_PKTPOOL_NB_MBUF_DEF
        (fun size => (isPower2 size 1).2 - 1) (atoiInt str) }

/-- `pktpool_cache_handler`. -/
def pktpoolCacheHandler (tokens : List Bytes) (conf : Conf) : Option Conf := do
  let str ← assertValue tokens
  return { conf with
    pktpoolMbufCache :=
      checked NETIF_PKTPOOL_MBUF_CACHE_MIN NETIF_PKTPOOL_MBUF_CACHE_MAX
        NETIF_PKTPOOL_MBUF_CACHE_DEF (fun size => (isPower2 size 0).2) (atoiInt str) }

/-- `device_handler`. -/
def deviceHandler (tokens : List Bytes) (conf : Conf) : Option Conf :=
  match conf.allocate alloc with
  | (none, conf) => some conf
  | (some _, conf) => do
      let str ← tokens[1]?
      return { conf with portList := { name := strncpy nameSize str } :: conf.portList }

/-- `rx_queue_number_handler`. -/
def rxQueueNumberHandler (tokens : List Bytes) (conf : Conf) : Option Conf := do
  let str ← assertValue tokens
  conf.withDevice fun device => { device with
    rxQueueNb := checked 0 NETIF_MAX_QUEUES NETIF_MAX_QUEUES id (atoiInt str) }

/-- `rx_desc_nb_handler`. -/
def rxDescNbHandler (tokens : List Bytes) (conf : Conf) : Option Conf := do
  let str ← assertValue tokens
  conf.withDevice fun device => { device with
    rxDescNb := checked NETIF_NB_DESC_MIN NETIF_NB_DESC_MAX NETIF_NB_RX_DESC_DEF
      (fun number => (isPower2 number 0).2) (atoiInt str) }

/-- The names that `rss_handler` knows. -/
def rssNames : List Bytes :=
  [ascii "all", ascii "ip", ascii "tcp", ascii "udp", ascii "sctp", ascii "ether", ascii "port",
    ascii "tunnel"]

/-- A known name, or several names with a bar between them. -/
def isRss (str : Bytes) : Bool :=
  str ∈ rssNames ∨ occursIn (ascii "|") str ∧ str.head? ≠ some 124

/-- `rss_handler`. -/
def rssHandler (tokens : List Bytes) (conf : Conf) : Option Conf := do
  let str ← assertValue tokens
  conf.withDevice fun device => { device with
    rss := strncpy nameSize (if isRss str then str else ascii "tcp") }

/-- `tx_queue_number_handler`. -/
def txQueueNumberHandler (tokens : List Bytes) (conf : Conf) : Option Conf := do
  let str ← assertValue tokens
  conf.withDevice fun device => { device with
    txQueueNb := checked 0 NETIF_MAX_QUEUES NETIF_MAX_QUEUES id (atoiInt str) }

/-- `tx_desc_nb_handler`. -/
def txDescNbHandler (tokens : List Bytes) (conf : Conf) : Option Conf := do
  let str ← assertValue tokens
  conf.withDevice fun device => { device with
    txDescNb := checked NETIF_NB_DESC_MIN NETIF_NB_DESC_MAX NETIF_NB_TX_DESC_DEF
      (fun number => (isPower2 number 0).2) (atoiInt str) }

/-- `tx_mbuf_fast_free_handler`; what is neither off nor on is on. -/
def txMbufFastFreeHandler (tokens : List Bytes) (conf : Conf) : Option Conf := do
  let str ← assertValue tokens
  conf.withDevice fun device => { device with
    txMbufFastFree := !sameIgnoringCase str (ascii "off") }

/-- `promisc_mode_handler`. -/
def promiscModeHandler (conf : Conf) : Option Conf :=
  conf.withDevice fun device => { device with promiscMode := true }

/-- `allmulticast_handler`. -/
def allmulticastHandler (conf : Conf) : Option Conf :=
  conf.withDevice fun device => { device with allmulticast := true }

/-- `custom_mtu_handler`. -/
def customMtuHandler (tokens : List Bytes) (conf : Conf) : Option Conf := do
  let str ← assertValue tokens
  conf.withDevice fun device => { device with
    mtu := checked 1 NETIF_MAX_ETH_MTU NETIF_DEFAULT_ETH_MTU id (atoiInt str) }

/-- `kni_name_handler`. -/
def kniNameHandler (tokens : List Bytes) (conf : Conf) : Option Conf := do
  let str ← assertValue tokens
  conf.withDevice fun device => { device with kniName := strncpy nameSize str }

/-- `worker_defs_handler`. -/
def workerDefsHandler (conf : Conf) : Option Conf := some { conf with workerList := [] }

/-- `worker_handler`. -/
def workerHandler (tokens : List Bytes) (conf : Conf) : Option Conf :=
  match conf.allocate alloc with
  | (none, conf) => some conf
  | (some { cpuId, type }, conf) => do
      let str ← tokens[1]?
      return { conf with
        workerList := { cpuId, type, name := strncpy nameSize str, portList := [] } ::
          conf.workerList }

/-- `worker_type_handler`. -/
def workerTypeHandler (tokens : List Bytes) (conf : Conf) : Option Conf := do
  let str ← assertValue tokens
  conf.withWorker fun worker => { worker with
    type := strncpy nameSize
      (if str ∈ [ascii "master", ascii "slave", ascii "kni"] then str else ascii "slave") }

/-- `cpu_id_handler`. -/
def cpuIdHandler (tokens : List Bytes) (conf : Conf) : Option Conf := do
  let str ← assertValue tokens
  conf.withWorker fun worker => { worker with
    cpuId := if str.all isdigit then atoiInt str else 0 }

/-- A port without queues. -/
def emptyPort (str : Bytes) : QueueConf where
  portName := strncpy nameSize str
  rxQueues := fun _ => NETIF_MAX_QUEUES
  txQueues := fun _ => NETIF_MAX_QUEUES
  isolRxqLcoreIds := fun _ => NETIF_LCORE_ID_INVALID
  isolRxqRingSz := NETIF_ISOL_RXQ_RING_SZ_DEF

/-- `worker_port_handler`. -/
def workerPortHandler (tokens : List Bytes) (conf : Conf) : Option Conf :=
  match conf.allocate alloc with
  | (none, conf) => some conf
  | (some _, conf) => do
      let str ← tokens[1]?
      conf.withWorker fun worker => { worker with portList := emptyPort str :: worker.portList }

/-- A queue id; an invalid one becomes 0. -/
def queueId (str : Bytes) : Nat :=
  if atoiInt str < 0 ∨ atoiInt str ≥ NETIF_MAX_QUEUES then 0 else (atoiInt str).toNat

/-- The loops of `rx_queue_ids_handler` and `tx_queue_ids_handler`. -/
def queueIds (tokens : List Bytes) : Option (Fin NETIF_MAX_QUEUES → Nat) :=
  let ids := tokens.tail.map queueId
  if ids.length ≤ NETIF_MAX_QUEUES then some fun ii => ids[ii.val]?.getD NETIF_MAX_QUEUES
  else none

/-- `rx_queue_ids_handler`. -/
def rxQueueIdsHandler (tokens : List Bytes) (conf : Conf) : Option Conf := do
  let ids ← queueIds tokens
  conf.withPort fun port => { port with rxQueues := ids }

/-- `tx_queue_ids_handler`. -/
def txQueueIdsHandler (tokens : List Bytes) (conf : Conf) : Option Conf := do
  let ids ← queueIds tokens
  conf.withPort fun port => { port with txQueues := ids }

/-- The lcore that receives a queue in isolation. -/
def isolRxCpuId (str : Bytes) : Nat :=
  if atoiInt str ≤ 0 ∨ atoiInt str ≥ maxLcore then NETIF_LCORE_ID_INVALID
  else (atoiInt str).toNat

/-- `isol_rx_cpu_ids_handler`, which leaves the other ids as they are. -/
def isolRxCpuIdsHandler (tokens : List Bytes) (conf : Conf) : Option Conf := do
  let _ ← setValue tokens
  let ids := tokens.tail.map (isolRxCpuId maxLcore)
  if ids.length ≤ NETIF_MAX_QUEUES then
    conf.withPort fun port => { port with
      isolRxqLcoreIds := fun ii => ids[ii.val]?.getD (port.isolRxqLcoreIds ii) }
  else none

/-- `isol_rxq_ring_sz_handler`. -/
def isolRxqRingSzHandler (tokens : List Bytes) (conf : Conf) : Option Conf := do
  let str ← assertValue tokens
  conf.withPort fun port => { port with
    isolRxqRingSz := if str.all isdigit then atoiInt str else NETIF_ISOL_RXQ_RING_SZ_DEF }

/-- `timer_sched_interval_handler`. -/
def timerSchedIntervalHandler (tokens : List Bytes) (conf : Conf) : Option Conf := do
  match ← setValue tokens with
  | none => return conf
  | some str =>
      return { conf with
        schedInterval := checked TIMER_SCHED_INTERVAL_MIN TIMER_SCHED_INTERVAL_MAX
          TIMER_SCHED_INTERVAL_DEF id (atoiInt str) }

/-- The callback of a keyword is called. -/
def Handler.run (conf : Conf) (tokens : List Bytes) : Handler → Option Conf
  | .netifDefs => netifDefsHandler conf
  | .pktpoolSize => pktpoolSizeHandler tokens conf
  | .pktpoolCache => pktpoolCacheHandler tokens conf
  | .device => deviceHandler alloc tokens conf
  | .rxQueueNumber => rxQueueNumberHandler tokens conf
  | .rxDescNb => rxDescNbHandler tokens conf
  | .rss => rssHandler tokens conf
  | .txQueueNumber => txQueueNumberHandler tokens conf
  | .txDescNb => txDescNbHandler tokens conf
  | .txMbufFastFree => txMbufFastFreeHandler tokens conf
  | .promiscMode => promiscModeHandler conf
  | .allmulticast => allmulticastHandler conf
  | .customMtu => customMtuHandler tokens conf
  | .kniName => kniNameHandler tokens conf
  | .workerDefs => workerDefsHandler conf
  | .worker => workerHandler alloc tokens conf
  | .workerType => workerTypeHandler tokens conf
  | .cpuId => cpuIdHandler tokens conf
  | .workerPort => workerPortHandler alloc tokens conf
  | .rxQueueIds => rxQueueIdsHandler tokens conf
  | .txQueueIds => txQueueIdsHandler tokens conf
  | .isolRxCpuIds => isolRxCpuIdsHandler maxLcore tokens conf
  | .isolRxqRingSz => isolRxqRingSzHandler tokens conf
  | .timerSchedInterval => timerSchedIntervalHandler tokens conf

/-- The handler of the keyword at a place is called. -/
def Call.run (nodes : List KeywordNode) (conf : Conf) (call : Call) : Option Conf :=
  (handlerAt nodes call.keyword).bind fun handler => handler.run alloc maxLcore conf call.tokens

/-! ## Loading -/

/-- `netif_keyword_value_init` and `ndf_timer_keyword_value_init`. -/
def keywordValueInit (state : NetdefenderState) (conf : Conf) : Conf :=
  let conf :=
    if state = .init then
      { conf with
        pktpoolNbMbuf := NETIF_PKTPOOL_NB_MBUF_DEF
        pktpoolMbufCache := NETIF_PKTPOOL_MBUF_CACHE_DEF }
    else conf
  { conf with schedInterval := TIMER_SCHED_INTERVAL_DEF }

variable {Dir : Type}

/-- `init_data`, with a bound for the nesting of included files. -/
def initData (files : Files Dir) (depth : Nat) (dir : Dir) (confFile : Bytes)
    (state : NetdefenderState) (conf : Conf) : Option Conf := do
  let installed ← installKeywords state 0
  let called ← readConfFile files depth dir ⟨[], treeKeywords installed.keywords⟩ confFile
  called.foldlM (Call.run alloc maxLcore installed.keywords) conf

/-- `load_conf_file`. -/
def loadConfFile (files : Files Dir) (depth : Nat) (dir : Dir) (confFile : Bytes)
    (state : NetdefenderState) (conf : Conf) : Option Conf :=
  initData alloc maxLcore files depth dir confFile state (keywordValueInit state conf)

end Handlers

end NetDefender.Config
