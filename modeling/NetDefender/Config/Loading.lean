import NetDefender.Config.Guarding
import NetDefender.Config.Handlers

/-!
# Loading the configuration

Which files can be loaded, whatever is in them.  A handler below `device`, `worker` or `port`
takes the head of a list for the node that it writes; the nesting of the blocks is what keeps it
from doing so when the list is empty.
-/

namespace NetDefender.Config

open CString Netif

/-! ## Tokens -/

/-- There is a value behind the keyword; a lone quotation mark is none. -/
def HasValue (tokens : List Bytes) : Prop :=
  2 ≤ tokens.length ∧ ((tokens[1]?.bind List.head?) = some dquote → 3 ≤ tokens.length)

/-- The tokens are enough for the handler, and not too many. -/
def Handler.Fits (tokens : List Bytes) : Handler → Prop
  | .netifDefs | .workerDefs | .promiscMode | .allmulticast => True
  | .device | .worker | .workerPort | .timerSchedInterval => 2 ≤ tokens.length
  | .rxQueueIds | .txQueueIds => tokens.tail.length ≤ NETIF_MAX_QUEUES
  | .isolRxCpuIds => 2 ≤ tokens.length ∧ tokens.tail.length ≤ NETIF_MAX_QUEUES
  | _ => HasValue tokens

/-- The tokens of a call fit its handler. -/
def Call.Fits (nodes : List KeywordNode) (call : Call) : Prop :=
  ∀ handler, handlerAt nodes call.keyword = some handler → handler.Fits call.tokens

variable {tokens : List Bytes}

theorem setValue_cons (keyword str : Bytes) (rest : List Bytes) :
    setValue (keyword :: str :: rest) =
      if str.head? = some dquote then
        match rest with
        | [] => some none
        | [_] => some (some [])
        | str :: next :: rest => some (some (quotedValue str str (next :: rest)))
      else some (some str) := rfl

theorem setValue_isSome : (setValue tokens).isSome ↔ 2 ≤ tokens.length := by
  match tokens with
  | [] => simp [setValue]
  | [_] => simp [setValue]
  | _ :: str :: rest =>
      rw [setValue_cons]
      split
      next => cases rest with
        | nil => simp
        | cons first rest => cases rest <;> simp
      next => simp

theorem assertValue_isSome : (assertValue tokens).isSome ↔ HasValue tokens := by
  match tokens with
  | [] => simp [assertValue, setValue, HasValue]
  | [_] => simp [assertValue, setValue, HasValue]
  | _ :: str :: rest =>
      rw [assertValue, setValue_cons, HasValue]
      split
      next quoted => cases rest with
        | nil => simp [quoted]
        | cons first rest => cases rest <;> simp
      next plain => simp [plain]

theorem getElem?_one_isSome : (tokens[1]?).isSome ↔ 2 ≤ tokens.length := by
  simp [Nat.succ_le_iff]

/-! ## Nodes in front -/

/-- Below a keyword that adds a node, there is a node in front of its list. -/
structure Ready (state : NetdefenderState) (path : List Nat) (conf : Conf) : Prop where
  device : state = .init → Handler.device.place <+: path → conf.portList ≠ []
  worker : state = .init → Handler.worker.place <+: path → conf.workerList ≠ []
  port : state = .init → Handler.workerPort.place <+: path →
    ∃ worker others, conf.workerList = worker :: others ∧ worker.portList ≠ []

variable {state : NetdefenderState} {path : List Nat} {index : Nat} {conf conf' : Conf}

theorem Ready.up (ready : Ready state (path ++ [index]) conf) : Ready state path conf where
  device init inside := ready.device init (inside.trans (List.prefix_append _ _))
  worker init inside := ready.worker init (inside.trans (List.prefix_append _ _))
  port init inside := ready.port init (inside.trans (List.prefix_append _ _))

/-- Only the three keywords that add nodes ask for more. -/
theorem Ready.down (ready : Ready state path conf)
    (others : path ++ [index] ≠ Handler.device.place ∧ path ++ [index] ≠ Handler.worker.place ∧
      path ++ [index] ≠ Handler.workerPort.place) : Ready state (path ++ [index]) conf where
  device init inside := ready.device init
    ((List.prefix_concat_iff.mp inside).resolve_left (Ne.symm others.1))
  worker init inside := ready.worker init
    ((List.prefix_concat_iff.mp inside).resolve_left (Ne.symm others.2.1))
  port init inside := ready.port init
    ((List.prefix_concat_iff.mp inside).resolve_left (Ne.symm others.2.2))

/-- Outside of the initialization stage most keywords have no handler. -/
theorem handlerAt_init {handler : Handler}
    (found : handlerAt (configKeywords state) path = some handler) :
    state = .init ∨ handler ∈ [.netifDefs, .workerDefs, .timerSchedInterval] := by
  have all : ∀ entry ∈ treePlaces [] 0 (configKeywords state),
      state = .init ∨ entry.2 ∈ [.netifDefs, .workerDefs, .timerSchedInterval] := by
    cases state <;> decide +kernel
  exact all _ (mem_treePlaces found [])

section Success

/-! ### Changes of a node -/

theorem withDevice_ready (ready : Ready state path conf) (init : state = .init)
    (inside : Handler.device.place <+: path) (change : PortConfStream → PortConfStream) :
    ∃ conf', conf.withDevice change = some conf' ∧ Ready state path conf' := by
  obtain ⟨device, others, same⟩ := List.exists_cons_of_ne_nil (ready.device init inside)
  refine ⟨_, by rw [Conf.withDevice, same], ?_⟩
  exact ⟨fun _ _ => List.cons_ne_nil _ _, ready.worker, ready.port⟩

theorem withWorker_ready (ready : Ready state path conf) (init : state = .init)
    (inside : Handler.worker.place <+: path) {change : WorkerConf → WorkerConf}
    (keeps : ∀ worker : WorkerConf, worker.portList ≠ [] → (change worker).portList ≠ []) :
    ∃ conf', conf.withWorker change = some conf' ∧ Ready state path conf' := by
  obtain ⟨worker, others, same⟩ := List.exists_cons_of_ne_nil (ready.worker init inside)
  refine ⟨_, by rw [Conf.withWorker, same], ?_⟩
  refine ⟨ready.device, fun _ _ => List.cons_ne_nil _ _, fun init inside => ?_⟩
  obtain ⟨first, more, listed, ports⟩ := ready.port init inside
  cases listed.symm.trans same
  exact ⟨_, _, rfl, keeps worker ports⟩

theorem withPort_ready (ready : Ready state path conf) (init : state = .init)
    (inside : Handler.workerPort.place <+: path) (change : QueueConf → QueueConf) :
    ∃ conf', conf.withPort change = some conf' ∧ Ready state path conf' := by
  obtain ⟨⟨cpuId, name, type, portList⟩, others, same, ports⟩ := ready.port init inside
  obtain ⟨port, more, rfl⟩ := List.exists_cons_of_ne_nil ports
  refine ⟨_, by rw [Conf.withPort, same], ?_⟩
  exact ⟨ready.device, fun _ _ => List.cons_ne_nil _ _,
    fun _ _ => ⟨_, _, rfl, List.cons_ne_nil _ _⟩⟩

/-- The lists stay. -/
theorem Ready.congr (ready : Ready state path conf) (devices : conf'.portList = conf.portList)
    (workers : conf'.workerList = conf.workerList) : Ready state path conf' where
  device := devices ▸ ready.device
  worker := workers ▸ ready.worker
  port := workers ▸ ready.port

/-! ### Handlers -/

variable {alloc : Nat → Option Stale} {maxLcore : Nat} {handler : Handler}

/-- A handler that writes a value into the device in front. -/
theorem device_value {change : Bytes → PortConfStream → PortConfStream}
    (ready : Ready state path conf) (init : state = .init)
    (inside : Handler.device.place <+: path) (fits : HasValue tokens)
    (runs : handler.run alloc maxLcore conf tokens =
      (assertValue tokens).bind fun str => conf.withDevice (change str)) :
    ∃ conf', handler.run alloc maxLcore conf tokens = some conf' ∧ Ready state path conf' := by
  obtain ⟨str, value⟩ := Option.isSome_iff_exists.mp (assertValue_isSome.mpr fits)
  rw [runs, value]
  exact withDevice_ready ready init inside (change str)

/-- A handler that writes a value into the worker in front. -/
theorem worker_value {change : Bytes → WorkerConf → WorkerConf}
    (ready : Ready state path conf) (init : state = .init)
    (inside : Handler.worker.place <+: path) (fits : HasValue tokens)
    (runs : handler.run alloc maxLcore conf tokens =
      (assertValue tokens).bind fun str => conf.withWorker (change str))
    (keeps : ∀ str (worker : WorkerConf), (change str worker).portList = worker.portList) :
    ∃ conf', handler.run alloc maxLcore conf tokens = some conf' ∧ Ready state path conf' := by
  obtain ⟨str, value⟩ := Option.isSome_iff_exists.mp (assertValue_isSome.mpr fits)
  rw [runs, value]
  exact withWorker_ready ready init inside fun worker => keeps str worker ▸ id

/-- A handler that writes a number of its own. -/
theorem scalar_value {set : Bytes → Conf} (ready : Ready state path conf)
    (fits : HasValue tokens)
    (runs : handler.run alloc maxLcore conf tokens =
      (assertValue tokens).bind fun str => some (set str))
    (keeps : ∀ str, (set str).portList = conf.portList ∧
      (set str).workerList = conf.workerList) :
    ∃ conf', handler.run alloc maxLcore conf tokens = some conf' ∧ Ready state path conf' := by
  obtain ⟨str, value⟩ := Option.isSome_iff_exists.mp (assertValue_isSome.mpr fits)
  rw [runs, value]
  exact ⟨set str, rfl, ready.congr (keeps str).1 (keeps str).2⟩

/-- A handler that writes something into the port in front. -/
theorem port_value {α : Type} {value : Option α} {change : α → QueueConf → QueueConf}
    (ready : Ready state path conf) (init : state = .init)
    (inside : Handler.workerPort.place <+: path) (read : value.isSome)
    (runs : handler.run alloc maxLcore conf tokens =
      value.bind fun value => conf.withPort (change value)) :
    ∃ conf', handler.run alloc maxLcore conf tokens = some conf' ∧ Ready state path conf' := by
  obtain ⟨value, rfl⟩ := Option.isSome_iff_exists.mp read
  rw [runs]
  exact withPort_ready ready init inside (change value)

theorem queueIds_isSome : (queueIds tokens).isSome ↔ tokens.tail.length ≤ NETIF_MAX_QUEUES := by
  rw [queueIds, List.length_map]
  split <;> simp_all

/-- The place of a handler tells the level from which it is called. -/
theorem prefix_of_place {outer place : List Nat} (same : path ++ [index] = place)
    (inside : outer <+: place.dropLast) : outer <+: path := by
  rwa [← same, List.dropLast_concat] at inside

/-- **Handlers succeed.** With memory for every node, a handler whose tokens fit succeeds at the
level of its keyword. -/
theorem run_ready (memory : ∀ n, (alloc n).isSome) (ready : Ready state path conf)
    (found : handlerAt (configKeywords state) (path ++ [index]) = some handler)
    (fits : handler.Fits tokens) :
    ∃ conf', handler.run alloc maxLcore conf tokens = some conf' ∧
      Ready state (path ++ [index]) conf' := by
  have place := handlerAt_configKeywords found
  have stage := handlerAt_init found
  have stays (done : ∃ conf', handler.run alloc maxLcore conf tokens = some conf' ∧
      Ready state path conf')
      (others : handler.place ≠ Handler.device.place ∧ handler.place ≠ Handler.worker.place ∧
        handler.place ≠ Handler.workerPort.place) :
      ∃ conf', handler.run alloc maxLcore conf tokens = some conf' ∧
        Ready state (path ++ [index]) conf' := by
    obtain ⟨conf', ran, known⟩ := done
    exact ⟨conf', ran, known.down (place ▸ others)⟩
  have init (notAlways : handler ∉ [.netifDefs, .workerDefs, .timerSchedInterval]) :
      state = .init := stage.resolve_right notAlways
  cases handler with
  | netifDefs =>
      refine ⟨_, rfl, ⟨fun _ inside => ?_, fun _ inside => ?_, fun _ inside => ?_⟩⟩ <;>
        exact absurd (place ▸ inside) (by decide)
  | workerDefs =>
      refine ⟨_, rfl, ⟨fun _ inside => ?_, fun _ inside => ?_, fun _ inside => ?_⟩⟩ <;>
        exact absurd (place ▸ inside) (by decide)
  | pktpoolSize | pktpoolCache =>
      exact stays (scalar_value ready fits rfl fun _ => ⟨rfl, rfl⟩) (by decide)
  | rxQueueNumber | rxDescNb | rss | txQueueNumber | txDescNb | txMbufFastFree | customMtu
    | kniName =>
      have inside : Handler.device.place <+: path := prefix_of_place place (by decide)
      exact stays (device_value ready (init (by decide)) inside fits rfl) (by decide)
  | promiscMode | allmulticast =>
      have inside : Handler.device.place <+: path := prefix_of_place place (by decide)
      exact stays (withDevice_ready ready (init (by decide)) inside _) (by decide)
  | workerType | cpuId =>
      have inside : Handler.worker.place <+: path := prefix_of_place place (by decide)
      exact stays (worker_value ready (init (by decide)) inside fits rfl fun _ _ => rfl)
        (by decide)
  | rxQueueIds | txQueueIds =>
      have inside : Handler.workerPort.place <+: path := prefix_of_place place (by decide)
      have ids : (queueIds tokens).isSome := queueIds_isSome.mpr fits
      exact stays (port_value ready (init (by decide)) inside ids rfl) (by decide)
  | isolRxCpuIds =>
      have inside : Handler.workerPort.place <+: path := prefix_of_place place (by decide)
      obtain ⟨value, read⟩ := Option.isSome_iff_exists.mp (setValue_isSome.mpr fits.1)
      have few : (tokens.tail.map (isolRxCpuId maxLcore)).length ≤ NETIF_MAX_QUEUES := by
        rw [List.length_map]
        exact fits.2
      refine stays ?_ (by decide)
      rw [Handler.run, isolRxCpuIdsHandler, read, Option.bind_eq_bind, Option.bind_some]
      dsimp only
      rw [if_pos few]
      exact withPort_ready ready (init (by decide)) inside _
  | isolRxqRingSz =>
      have inside : Handler.workerPort.place <+: path := prefix_of_place place (by decide)
      have value := assertValue_isSome.mpr fits
      exact stays (port_value ready (init (by decide)) inside value rfl) (by decide)
  | device =>
      obtain ⟨str, name⟩ := Option.isSome_iff_exists.mp (getElem?_one_isSome.mpr fits)
      obtain ⟨stale, found⟩ := Option.isSome_iff_exists.mp (memory conf.allocated)
      refine ⟨_, by rw [Handler.run, deviceHandler, Conf.allocate, found, name]; rfl, ?_⟩
      refine ⟨fun _ _ => List.cons_ne_nil _ _, fun _ inside => ?_, fun _ inside => ?_⟩ <;>
        exact absurd (place ▸ inside) (by decide)
  | worker =>
      obtain ⟨str, name⟩ := Option.isSome_iff_exists.mp (getElem?_one_isSome.mpr fits)
      obtain ⟨stale, found⟩ := Option.isSome_iff_exists.mp (memory conf.allocated)
      refine ⟨_, by rw [Handler.run, workerHandler, Conf.allocate, found, name]; rfl, ?_⟩
      refine ⟨fun _ inside => ?_, fun _ _ => List.cons_ne_nil _ _, fun _ inside => ?_⟩ <;>
        exact absurd (place ▸ inside) (by decide)
  | workerPort =>
      have inside : Handler.worker.place <+: path := prefix_of_place place (by decide)
      obtain ⟨str, name⟩ := Option.isSome_iff_exists.mp (getElem?_one_isSome.mpr fits)
      obtain ⟨stale, found⟩ := Option.isSome_iff_exists.mp (memory conf.allocated)
      obtain ⟨worker, others, same⟩ :=
        List.exists_cons_of_ne_nil (ready.worker (init (by decide)) inside)
      have ran : Handler.run alloc maxLcore conf tokens .workerPort = some { conf with
          allocated := conf.allocated + 1
          workerList :=
            { worker with portList := emptyPort str :: worker.portList } :: others } := by
        rw [Handler.run, workerPortHandler, Conf.allocate, found, name]
        simp only [Option.bind_eq_bind, Option.bind_some, Conf.withWorker, same]
      refine ⟨_, ran, ?_⟩
      exact ⟨fun _ inside => absurd (place ▸ inside) (by decide),
        fun _ _ => List.cons_ne_nil _ _, fun _ _ => ⟨_, _, rfl, List.cons_ne_nil _ _⟩⟩
  | timerSchedInterval =>
      obtain ⟨value, read⟩ := Option.isSome_iff_exists.mp (setValue_isSome.mpr fits)
      refine stays ?_ (by decide)
      rw [Handler.run, timerSchedIntervalHandler, read]
      cases value with
      | none => exact ⟨conf, rfl, ready⟩
      | some str => exact ⟨_, rfl, ready.congr rfl rfl⟩

/-- A handler that succeeds has been given what it needs. -/
theorem fits_of_run (memory : ∀ n, (alloc n).isSome)
    (ran : handler.run alloc maxLcore conf tokens = some conf') : handler.Fits tokens := by
  obtain ⟨stale, found⟩ := Option.isSome_iff_exists.mp (memory conf.allocated)
  have value {α : Type} {next : Bytes → Option α} {result : α}
      (done : (assertValue tokens).bind next = some result) : HasValue tokens := by
    obtain ⟨str, read, -⟩ := Option.bind_eq_some_iff.mp done
    exact assertValue_isSome.mp (read ▸ rfl)
  have name {α : Type} {next : Bytes → Option α} {result : α}
      (done : tokens[1]?.bind next = some result) : 2 ≤ tokens.length := by
    obtain ⟨str, read, -⟩ := Option.bind_eq_some_iff.mp done
    exact getElem?_one_isSome.mp (read ▸ rfl)
  have ids {α : Type} {next : (Fin NETIF_MAX_QUEUES → Nat) → Option α} {result : α}
      (done : (queueIds tokens).bind next = some result) :
      tokens.tail.length ≤ NETIF_MAX_QUEUES := by
    obtain ⟨ids, read, -⟩ := Option.bind_eq_some_iff.mp done
    exact queueIds_isSome.mp (read ▸ rfl)
  cases handler with
  | netifDefs | workerDefs | promiscMode | allmulticast => trivial
  | device =>
      rw [Handler.run, deviceHandler, Conf.allocate, found] at ran
      exact name ran
  | worker =>
      rw [Handler.run, workerHandler, Conf.allocate, found] at ran
      exact name ran
  | workerPort =>
      rw [Handler.run, workerPortHandler, Conf.allocate, found] at ran
      exact name ran
  | rxQueueIds | txQueueIds => exact ids ran
  | isolRxCpuIds =>
      obtain ⟨value, read, done⟩ := Option.bind_eq_some_iff.mp ran
      refine ⟨setValue_isSome.mp (read ▸ rfl), ?_⟩
      dsimp only at done
      split at done
      next few => simpa using few
      next => cases done
  | timerSchedInterval =>
      obtain ⟨value, read, done⟩ := Option.bind_eq_some_iff.mp ran
      exact setValue_isSome.mp (read ▸ rfl)
  | _ => exact value ran

end Success

/-! ## Loading -/

section Loading

variable {alloc : Nat → Option Stale} {maxLcore : Nat}

theorem handlerAt_place (handler : Handler) :
    handlerAt (configKeywords .init) handler.place = some handler := by
  cases handler <;> rfl

/-- The handlers of the tree keep to the rule. -/
theorem guarded_ready (memory : ∀ n, (alloc n).isSome) :
    Guarded (Call.run alloc maxLcore (configKeywords state)) (Call.Fits (configKeywords state))
      (Ready state) (configKeywords state) where
  up := Ready.up
  call found ready fits := by
    obtain ⟨conf', ran, known⟩ := run_ready memory ready found (fits _ found)
    refine ⟨conf', ?_, known⟩
    rw [Call.run, found]
    exact ran
  quiet {path index inner node conf} here found held ready := by
    have none : handlerAt (configKeywords state) (path ++ [index]) = none := by
      rw [handlerAt_append, here, Option.bind_some, found, Option.bind_some, held]
    have other (init : state = .init) (handler : Handler) :
        path ++ [index] ≠ handler.place := by
      rintro same
      rw [init, same, handlerAt_place] at none
      cases none
    exact ⟨fun init => (ready.down ⟨other init _, other init _, other init _⟩).device init,
      fun init => (ready.down ⟨other init _, other init _, other init _⟩).worker init,
      fun init => (ready.down ⟨other init _, other init _, other init _⟩).port init⟩

theorem exists_of_foldlM {α σ : Type} {step : σ → α → Option σ} {items : List α} {first last : σ}
    (done : items.foldlM step first = some last) :
    ∀ item ∈ items, ∃ before after, step before item = some after := by
  induction items generalizing first with
  | nil => simp
  | cons item items ih =>
      obtain ⟨middle, ran, rest⟩ := Option.bind_eq_some_iff.mp done
      intro other member
      cases member with
      | head => exact ⟨first, middle, ran⟩
      | tail _ later => exact ih rest other later

theorem stands_root (state : NetdefenderState) :
    Stands (configKeywords state) ⟨[], treeKeywords (configKeywords state)⟩ := rfl

variable {Dir : Type} {files : Files Dir} {depth : Nat} {dir : Dir} {confFile : Bytes}
  {called : List Call}

theorem initData_eq (conf : Conf)
    (read : readConfFile files depth dir ⟨[], treeKeywords (configKeywords state)⟩ confFile =
      some called) :
    initData alloc maxLcore files depth dir confFile state conf =
      called.foldlM (Call.run alloc maxLcore (configKeywords state)) conf := by
  rw [initData, installKeywords_eq, Option.bind_eq_bind, Option.bind_some]
  dsimp only
  rw [read]
  rfl

/-- One file, which cannot be included in another. -/
def oneFile (stream : Bytes) : Files Unit where
  glob _ name := [name]
  fopen _ _ := some stream
  getcwd _ := true
  dirname _ _ := some ()

/-- Memory that is cleared. -/
def clearMemory (_ : Nat) : Option Stale := some ⟨0, []⟩

end Loading

end NetDefender.Config
