import NetDefender.Config.Ranges
import NetDefender.Config.Sections

/-!
# The file of a configuration

A configuration as the sections of a file, in the words of `netdefender.conf`, and the settings
that these stand for: a handler and the tokens behind its keyword.
-/

namespace NetDefender.Config

open CString Netif Output

/-! ## Keywords -/

/-- The keyword of a handler. -/
def Handler.str : Handler → Bytes
  | .netifDefs => ascii "netif_defs"
  | .pktpoolSize => ascii "pktpool_size"
  | .pktpoolCache => ascii "pktpool_cache"
  | .device => ascii "device"
  | .rxQueueNumber | .txQueueNumber => ascii "queue_number"
  | .rxDescNb | .txDescNb => ascii "descriptor_number"
  | .rss => ascii "rss"
  | .txMbufFastFree => ascii "mbuf_fast_free"
  | .promiscMode => ascii "promisc_mode"
  | .allmulticast => ascii "allmulticast"
  | .customMtu => ascii "mtu"
  | .kniName => ascii "kni_name"
  | .workerDefs => ascii "worker_defs"
  | .worker => ascii "worker"
  | .workerType => ascii "type"
  | .cpuId => ascii "cpu_id"
  | .workerPort => ascii "port"
  | .rxQueueIds => ascii "rx_queue_ids"
  | .txQueueIds => ascii "tx_queue_ids"
  | .isolRxCpuIds => ascii "isol_rx_cpu_ids"
  | .isolRxqRingSz => ascii "isol_rxq_ring_sz"
  | .timerSchedInterval => ascii "schedule_interval"

def openBrace : Bytes := ascii "\x7b"

/-- A handler and the tokens behind its keyword. -/
structure Setting where
  handler : Handler
  args : List Bytes

def Setting.tokens (setting : Setting) : List Bytes := setting.handler.str :: setting.args

/-- The call of the handler, in the initialization stage. -/
def Setting.call (setting : Setting) : Call := ⟨setting.handler.place, setting.tokens⟩

/-- A line with a keyword. -/
def Setting.line (setting : Setting) : Entry := .line setting.tokens

/-- The setting of a keyword whose line opens a section. -/
def Handler.opening (handler : Handler) (args : List Bytes) : Setting :=
  ⟨handler, args ++ [openBrace]⟩

/-- A section of a keyword. -/
def Handler.block (handler : Handler) (args : List Bytes) (body : List Entry) : Entry :=
  .block (handler.opening args).tokens body

/-! ## Values -/

/-- A number in decimal digits. -/
def number (value : Int) : List Bytes := [printUnsigned value.toNat]

/-- The setting of a flag that is off by default. -/
def flag (handler : Handler) (value : Bool) : List Setting :=
  if value then [⟨handler, []⟩] else []

/-- The number of queues, if it has been set. -/
def queueNumber (handler : Handler) (value : Int) : List Setting :=
  if value = -1 then [] else [⟨handler, number value⟩]

/-- The ids of the queues that are used. -/
def usedIds (ids : Fin NETIF_MAX_QUEUES → Nat) : List Nat :=
  (List.ofFn ids).filter (· < NETIF_MAX_QUEUES)

/-- The id of an lcore that receives in isolation; an invalid one is written as 0. -/
def isolId (id : Nat) : Bytes := printUnsigned (if id = NETIF_LCORE_ID_INVALID then 0 else id)

/-! ## Settings -/

section Settings

variable (device : PortConfStream) (port : QueueConf) (worker : WorkerConf) (conf : Conf)

/-- The settings below `rx`. -/
def PortConfStream.rxSettings : List Setting :=
  queueNumber .rxQueueNumber device.rxQueueNb ++
    [⟨.rxDescNb, number device.rxDescNb⟩, ⟨.rss, [text device.rss]⟩]

/-- The settings below `tx`. -/
def PortConfStream.txSettings : List Setting :=
  queueNumber .txQueueNumber device.txQueueNb ++
    [⟨.txDescNb, number device.txDescNb⟩,
      ⟨.txMbufFastFree, [if device.txMbufFastFree then ascii "on" else ascii "off"]⟩]

/-- The settings behind `rx` and `tx`. -/
def PortConfStream.otherSettings : List Setting :=
  flag .promiscMode device.promiscMode ++ flag .allmulticast device.allmulticast ++
    [⟨.customMtu, number device.mtu⟩] ++
    if text device.kniName = [] then [] else [⟨.kniName, [text device.kniName]⟩]

def PortConfStream.opening : Setting := Handler.device.opening [text device.name]

def PortConfStream.settings : List Setting :=
  device.opening :: (device.rxSettings ++ (device.txSettings ++ device.otherSettings))

/-- `device`, with its sections `rx` and `tx`. -/
def PortConfStream.entry : Entry :=
  .block device.opening.tokens
    (.block [ascii "rx", openBrace] (device.rxSettings.map Setting.line) ::
      .block [ascii "tx", openBrace] (device.txSettings.map Setting.line) ::
      device.otherSettings.map Setting.line)

def QueueConf.opening : Setting := Handler.workerPort.opening [text port.portName]

/-- The settings below `port`. -/
def QueueConf.portSettings : List Setting :=
  [⟨.rxQueueIds, (usedIds port.rxQueues).map printUnsigned⟩,
    ⟨.txQueueIds, (usedIds port.txQueues).map printUnsigned⟩,
    ⟨.isolRxCpuIds, (List.ofFn port.isolRxqLcoreIds).map isolId⟩,
    ⟨.isolRxqRingSz, number port.isolRxqRingSz⟩]

def QueueConf.settings : List Setting := port.opening :: port.portSettings

/-- `port`. -/
def QueueConf.entry : Entry := .block port.opening.tokens (port.portSettings.map Setting.line)

def WorkerConf.opening : Setting := Handler.worker.opening [text worker.name]

/-- The settings below `worker` in front of its ports. -/
def WorkerConf.workerSettings : List Setting :=
  [⟨.workerType, [text worker.type]⟩, ⟨.cpuId, number worker.cpuId⟩]

def WorkerConf.settings : List Setting :=
  worker.opening ::
    (worker.workerSettings ++ worker.portList.reverse.flatMap QueueConf.settings)

/-- `worker`; the port that was added last is in front of the list. -/
def WorkerConf.entry : Entry :=
  .block worker.opening.tokens
    (worker.workerSettings.map Setting.line ++ worker.portList.reverse.map QueueConf.entry)

/-- The settings below `netif_defs` in front of the devices. -/
def Conf.poolSettings : List Setting :=
  [⟨.pktpoolSize, number conf.pktpoolNbMbuf⟩, ⟨.pktpoolCache, number conf.pktpoolMbufCache⟩]

/-- The setting below `timer_defs`. -/
def Conf.timerSettings : List Setting := [⟨.timerSchedInterval, number conf.schedInterval⟩]

def Conf.settings : List Setting :=
  (Handler.netifDefs.opening [] ::
      (conf.poolSettings ++ conf.portList.reverse.flatMap PortConfStream.settings)) ++
    ((Handler.workerDefs.opening [] :: conf.workerList.reverse.flatMap WorkerConf.settings) ++
      conf.timerSettings)

/-- The file. -/
def Conf.entries : List Entry :=
  [.block (Handler.netifDefs.opening []).tokens
      (conf.poolSettings.map Setting.line ++ conf.portList.reverse.map PortConfStream.entry),
    .block (Handler.workerDefs.opening []).tokens (conf.workerList.reverse.map WorkerConf.entry),
    .block [ascii "timer_defs", openBrace] (conf.timerSettings.map Setting.line)]

end Settings

/-! ## Levels -/

/-- The level at a place of the tree of all keywords. -/
def keywordLevel (place : List Nat) : Level :=
  ⟨place, treeKeywords ((levelAt (configKeywords .init) place).getD [])⟩

theorem keywordLevel_eq {level : Level} (stands : Stands (configKeywords .init) level) :
    keywordLevel level.path = level := by
  obtain ⟨path, keywords⟩ := level
  obtain ⟨inner, here, same⟩ := Option.map_eq_some_iff.mp stands
  rw [keywordLevel, here, Option.getD_some, same]

theorem stands_keywordLevel {place : List Nat}
    (inside : (levelAt (configKeywords .init) place).isSome) :
    Stands (configKeywords .init) (keywordLevel place) := by
  obtain ⟨inner, here⟩ := Option.isSome_iff_exists.mp inside
  rw [Stands, keywordLevel, here]
  rfl

/-- What a keyword is: whether it has a handler, whether it has a sub level, and its index. -/
def Level.kind? (level : Level) (str : Bytes) : Option (Bool × Bool × Nat) :=
  (level.find str).map fun (keyword, index) => (keyword.handler, keyword.sub.isSome, index)

section Levels

variable {place : List Nat} {str : Bytes} {body : List Entry} {called : List Call} {index : Nat}
  {handled : Bool}

theorem calls?_line (args : List Bytes) (other : str ≠ CFG_FILE_EOB)
    (kind : (keywordLevel place).kind? str = some (true, false, index)) :
    (Entry.line (str :: args)).calls? (keywordLevel place) =
      some [⟨place ++ [index], str :: args⟩] := by
  obtain ⟨⟨⟨_, handler, sub⟩, _⟩, found, same⟩ := Option.map_eq_some_iff.mp kind
  simp only [Prod.mk.injEq] at same
  obtain ⟨rfl, none, rfl⟩ := same
  cases sub with
  | none =>
      rw [Entry.calls?, if_neg other, found]
      rfl
  | some sub => cases none

/-- A keyword with a sub level. -/
theorem calls?_block (args : List Bytes) (other : str ≠ CFG_FILE_EOB)
    (kind : (keywordLevel place).kind? str = some (handled, true, index))
    (inside : (levelAt (configKeywords .init) place).isSome)
    (within : sectionCalls (keywordLevel (place ++ [index])) body = some called) :
    (Entry.block (str :: args) body).calls? (keywordLevel place) =
      some ((if handled then [⟨place ++ [index], str :: args⟩] else []) ++ called) := by
  obtain ⟨⟨⟨_, handler, sub⟩, _⟩, found, same⟩ := Option.map_eq_some_iff.mp kind
  simp only [Prod.mk.injEq] at same
  obtain ⟨rfl, some, rfl⟩ := same
  cases sub with
  | none => cases some
  | some sub =>
      have inner := keywordLevel_eq
        (stands_sub (stands_keywordLevel inside) (find_place found).1 rfl)
      rw [Entry.calls?, if_neg other, found]
      dsimp only [keywordLevel] at inner within ⊢
      rw [← inner, within]
      rfl

end Levels

/-! ## Meaning -/

/-- Whether there are keywords below the one of the handler. -/
def Handler.isSection : Handler → Bool
  | .netifDefs | .device | .workerDefs | .worker | .workerPort => true
  | _ => false

theorem kind?_str (handler : Handler) :
    (keywordLevel handler.place.dropLast).kind? handler.str =
      some (true, handler.isSection, handler.place.getLastD 0) := by
  cases handler <;> decide +kernel

theorem str_noBrace (handler : Handler) : handler.str ≠ CFG_FILE_EOB := by
  cases handler <;> decide +kernel

theorem place_parts (handler : Handler) :
    handler.place.dropLast ++ [handler.place.getLastD 0] = handler.place := by
  cases handler <;> rfl

theorem levelAt_dropLast (handler : Handler) :
    (levelAt (configKeywords .init) handler.place.dropLast).isSome := by
  cases handler <;> rfl

/-- The keyword of the handler is one of a line at a place. -/
def Handler.Below (place : List Nat) (handler : Handler) : Prop :=
  handler.place.dropLast = place ∧ handler.isSection = false

/-- The settings are lines of the level at a place. -/
def Below (place : List Nat) (settings : List Setting) : Prop :=
  ∀ setting ∈ settings, setting.handler.Below place

theorem Below.calls {place : List Nat} {settings : List Setting} (below : Below place settings) :
    sectionCalls (keywordLevel place) (settings.map Setting.line) =
      some (settings.map Setting.call) := by
  rw [← List.flatMap_pure_eq_map Setting.call]
  refine sectionCalls_map fun setting member => ?_
  obtain ⟨rfl, leaf⟩ := below setting member
  have kind := kind?_str setting.handler
  rw [leaf] at kind
  have line := calls?_line setting.args (str_noBrace setting.handler) kind
  rw [place_parts] at line
  exact line

theorem calls?_opening (handler : Handler) (args : List Bytes) {body : List Entry}
    {called : List Call} (opens : handler.isSection = true)
    (within : sectionCalls (keywordLevel handler.place) body = some called) :
    (Entry.block (handler.opening args).tokens body).calls? (keywordLevel handler.place.dropLast) =
      some ((handler.opening args).call :: called) := by
  have kind := kind?_str handler
  rw [opens] at kind
  rw [← place_parts handler] at within
  have block := calls?_block (args ++ [openBrace]) (str_noBrace handler) kind
    (levelAt_dropLast handler) within
  rw [place_parts] at block
  exact block

section Meaning

variable (device : PortConfStream) (port : QueueConf) (worker : WorkerConf) (conf : Conf)

theorem Below.append {place : List Nat} {first second : List Setting} (front : Below place first)
    (behind : Below place second) : Below place (first ++ second) :=
  List.forall_mem_append.mpr ⟨front, behind⟩

theorem below_cons {place : List Nat} {handler : Handler} {args : List Bytes}
    {settings : List Setting} (front : handler.Below place) (behind : Below place settings) :
    Below place (⟨handler, args⟩ :: settings) := List.forall_mem_cons.mpr ⟨front, behind⟩

theorem below_nil (place : List Nat) : Below place [] := by simp [Below]

theorem below_queueNumber {place : List Nat} {handler : Handler} (value : Int)
    (stands : handler.Below place) : Below place (queueNumber handler value) := by
  rw [queueNumber]
  split
  next => exact below_nil place
  next => exact below_cons stands (below_nil place)

theorem below_flag {place : List Nat} {handler : Handler} (value : Bool)
    (stands : handler.Below place) : Below place (flag handler value) := by
  rw [flag]
  split
  next => exact below_cons stands (below_nil place)
  next => exact below_nil place

theorem below_rxSettings : Below [0, 2, 0] device.rxSettings := by
  apply (below_queueNumber _ ⟨rfl, rfl⟩).append
  exact below_cons ⟨rfl, rfl⟩ (below_cons ⟨rfl, rfl⟩ (below_nil _))

theorem below_txSettings : Below [0, 2, 1] device.txSettings := by
  apply (below_queueNumber _ ⟨rfl, rfl⟩).append
  exact below_cons ⟨rfl, rfl⟩ (below_cons ⟨rfl, rfl⟩ (below_nil _))

theorem below_otherSettings : Below [0, 2] device.otherSettings := by
  have promisc : Below [0, 2] (flag .promiscMode device.promiscMode) := below_flag _ ⟨rfl, rfl⟩
  have multicast : Below [0, 2] (flag .allmulticast device.allmulticast) :=
    below_flag _ ⟨rfl, rfl⟩
  have mtu : Below [0, 2] [⟨.customMtu, number device.mtu⟩] := below_cons ⟨rfl, rfl⟩ (below_nil _)
  apply ((promisc.append multicast).append mtu).append
  split
  next => exact below_nil _
  next => exact below_cons ⟨rfl, rfl⟩ (below_nil _)

theorem calls?_device :
    device.entry.calls? (keywordLevel [0]) = some (device.settings.map Setting.call) := by
  have rxKind : (keywordLevel [0, 2]).kind? (ascii "rx") = some (false, true, 0) := by
    decide +kernel
  have txKind : (keywordLevel [0, 2]).kind? (ascii "tx") = some (false, true, 1) := by
    decide +kernel
  have rx := calls?_block [openBrace] (by decide +kernel) rxKind rfl
    (below_rxSettings device).calls
  have tx := calls?_block [openBrace] (by decide +kernel) txKind rfl
    (below_txSettings device).calls
  rw [PortConfStream.settings, List.map_cons, List.map_append, List.map_append]
  exact calls?_opening .device [text device.name] rfl
    (sectionCalls_cons rx (sectionCalls_cons tx (below_otherSettings device).calls))

theorem calls?_port :
    port.entry.calls? (keywordLevel [1, 0]) = some (port.settings.map Setting.call) := by
  have inside : Below [1, 0, 2] port.portSettings := by
    iterate 4 apply below_cons ⟨rfl, rfl⟩
    exact below_nil _
  exact calls?_opening .workerPort [text port.portName] rfl inside.calls

theorem calls?_worker :
    worker.entry.calls? (keywordLevel [1]) = some (worker.settings.map Setting.call) := by
  have inside : Below [1, 0] worker.workerSettings :=
    below_cons ⟨rfl, rfl⟩ (below_cons ⟨rfl, rfl⟩ (below_nil _))
  have ports : sectionCalls (keywordLevel [1, 0]) (worker.portList.reverse.map QueueConf.entry) =
      _ := sectionCalls_map fun port _ => calls?_port port
  rw [WorkerConf.settings, List.map_cons, List.map_append, List.map_flatMap]
  exact calls?_opening .worker [text worker.name] rfl (sectionCalls_append inside.calls ports)

/-- The file stands for the calls of its settings. -/
theorem sectionCalls_entries :
    sectionCalls (keywordLevel []) conf.entries = some (conf.settings.map Setting.call) := by
  have pool : Below [0] conf.poolSettings :=
    below_cons ⟨rfl, rfl⟩ (below_cons ⟨rfl, rfl⟩ (below_nil _))
  have timer : Below [2] conf.timerSettings := below_cons ⟨rfl, rfl⟩ (below_nil _)
  have devices : sectionCalls (keywordLevel [0])
      (conf.portList.reverse.map PortConfStream.entry) = _ :=
    sectionCalls_map fun device _ => calls?_device device
  have workers : sectionCalls (keywordLevel [1]) (conf.workerList.reverse.map WorkerConf.entry) =
      _ := sectionCalls_map fun worker _ => calls?_worker worker
  have netifDefs := calls?_opening .netifDefs [] rfl
    (sectionCalls_append pool.calls devices)
  have workerDefs := calls?_opening .workerDefs [] rfl workers
  have timerKind : (keywordLevel []).kind? (ascii "timer_defs") = some (false, true, 2) := by
    decide +kernel
  have timerDefs := calls?_block [openBrace] (by decide +kernel) timerKind rfl timer.calls
  have whole := sectionCalls_cons netifDefs (sectionCalls_cons workerDefs
    (sectionCalls_cons timerDefs sectionCalls_nil))
  rw [Conf.settings, List.map_append, List.map_append, List.map_cons, List.map_cons,
    List.map_append, List.map_flatMap, List.map_flatMap, ← List.append_nil
      (conf.timerSettings.map Setting.call)]
  exact whole

end Meaning

end NetDefender.Config
