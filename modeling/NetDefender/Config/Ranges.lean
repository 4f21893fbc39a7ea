import NetDefender.Config.Loading

/-!
# Values in range

What a configuration can be, whatever files it has been loaded from, and what is left of it when
a file is loaded again while the program is running.
-/

namespace NetDefender.Config

open CString Netif

/-! ## Powers of two -/

/-- A power of two between two others. -/
def IsPower (low high : Nat) (number : Int) : Prop :=
  ∃ exponent : Nat, low ≤ exponent ∧ exponent ≤ high ∧ number = 2 ^ exponent

/-- `is_power2` rounds down. -/
theorem isPower2_rounds {num offset : Int} (large : 2 ≤ num) (sum : 2 ≤ num + offset)
    (inside : num + offset < 2 ^ 31) :
    ∃ exponent : Nat, (isPower2 num offset).2 = 2 ^ exponent ∧ 2 ^ exponent ≤ num + offset ∧
      num + offset < 2 ^ (exponent + 1) := by
  obtain ⟨n, same⟩ := Int.eq_ofNat_of_zero_le (Int.le_trans (by decide) sum)
  rw [same] at sum inside ⊢
  have two : 2 ≤ n := by exact_mod_cast sum
  have nonzero : n ≠ 0 := Nat.ne_of_gt (Nat.lt_of_lt_of_le Nat.two_pos two)
  have below := Nat.pow_log_le_self 2 nonzero
  have above := Nat.lt_pow_succ_log_self Nat.one_lt_two n
  have positive : 1 ≤ Nat.log 2 n := Nat.log_pos Nat.one_lt_two two
  have short : Nat.log 2 n < 31 := by
    apply Nat.log_lt_of_lt_pow nonzero
    exact_mod_cast inside
  refine ⟨Nat.log 2 n, ?_, by exact_mod_cast below, by exact_mod_cast above⟩
  rw [isPower2_eq large same below above positive short]

theorem exponent_between {low high exponent : Nat} {number : Int}
    (below : 2 ^ exponent ≤ number) (above : number < 2 ^ (exponent + 1))
    (least : 2 ^ low ≤ number) (greatest : number < 2 ^ (high + 1)) :
    low ≤ exponent ∧ exponent ≤ high := by
  have lower : (2 : Int) ^ low < 2 ^ (exponent + 1) := least.trans_lt above
  have upper : (2 : Int) ^ exponent < 2 ^ (high + 1) := below.trans_lt greatest
  have one : (1 : Int) < 2 := by decide
  exact ⟨Nat.le_of_lt_succ ((pow_lt_pow_iff_right₀ one).mp lower),
    Nat.le_of_lt_succ ((pow_lt_pow_iff_right₀ one).mp upper)⟩

/-- A checked number that is rounded to a power of two. -/
theorem isPower_checked {low high : Nat} {least greatest default offset : Int} (number : Int)
    (two : 2 ≤ least) (some : 0 ≤ offset) (lower : 2 ^ low ≤ least + offset)
    (upper : greatest + offset < 2 ^ (high + 1)) (short : greatest + offset < 2 ^ 31)
    (byDefault : IsPower low high (default + offset)) :
    IsPower low high
      (checked least greatest default (fun number => (isPower2 number offset).2 - offset) number +
        offset) := by
  rw [checked]
  split
  next => exact byDefault
  next inside =>
    rw [not_or, not_lt, not_lt] at inside
    have bounds : 2 ≤ number ∧ 2 ≤ number + offset ∧ number + offset < 2 ^ 31 := by omega
    obtain ⟨exponent, rounded, below, above⟩ :=
      isPower2_rounds bounds.1 bounds.2.1 bounds.2.2
    have least : 2 ^ low ≤ number + offset := by omega
    have greatest : number + offset < 2 ^ (high + 1) := by omega
    obtain ⟨notBelow, notAbove⟩ := exponent_between below above least greatest
    exact ⟨exponent, notBelow, notAbove, by rw [rounded, Int.sub_add_cancel]⟩

theorem isPower_checked_zero {low high : Nat} {least greatest default : Int} (number : Int)
    (two : 2 ≤ least) (lower : 2 ^ low ≤ least) (upper : greatest < 2 ^ (high + 1))
    (short : greatest < 2 ^ 31) (byDefault : IsPower low high default) :
    IsPower low high
      (checked least greatest default (fun number => (isPower2 number 0).2) number) := by
  rw [← Int.add_zero least] at lower
  rw [← Int.add_zero greatest] at upper short
  rw [← Int.add_zero default] at byDefault
  simpa using isPower_checked number two le_rfl lower upper short byDefault

theorem checked_between {low high default : Int} (number : Int)
    (byDefault : low ≤ default ∧ default ≤ high) :
    low ≤ checked low high default id number ∧ checked low high default id number ≤ high := by
  rw [checked]
  split
  next => exact byDefault
  next inside =>
    rw [not_or, not_lt, not_lt] at inside
    exact inside

/-! ## Ranges -/

structure PortConfStream.InRange (device : PortConfStream) : Prop where
  rxQueueNb : -1 ≤ device.rxQueueNb ∧ device.rxQueueNb ≤ NETIF_MAX_QUEUES
  txQueueNb : -1 ≤ device.txQueueNb ∧ device.txQueueNb ≤ NETIF_MAX_QUEUES
  rxDescNb : IsPower 4 13 device.rxDescNb
  txDescNb : IsPower 4 13 device.txDescNb
  mtu : 1 ≤ device.mtu ∧ device.mtu ≤ NETIF_MAX_ETH_MTU

/-- The ids of the queues that are used, and unused space behind them. -/
def Filled (ids : Fin NETIF_MAX_QUEUES → Nat) : Prop :=
  ∃ count, ∀ ii, ids ii ≤ NETIF_MAX_QUEUES ∧ (ids ii < NETIF_MAX_QUEUES ↔ ii.val < count)

structure QueueConf.InRange (maxLcore : Nat) (port : QueueConf) : Prop where
  rxQueues : Filled port.rxQueues
  txQueues : Filled port.txQueues
  isolRxqLcoreIds : ∀ ii, port.isolRxqLcoreIds ii = NETIF_LCORE_ID_INVALID ∨
    0 < port.isolRxqLcoreIds ii ∧ port.isolRxqLcoreIds ii < maxLcore

/-- All values that the handlers check. -/
structure Conf.InRange (maxLcore : Nat) (conf : Conf) : Prop where
  pktpoolNbMbuf : IsPower 10 27 (conf.pktpoolNbMbuf + 1)
  pktpoolMbufCache : IsPower 5 13 conf.pktpoolMbufCache
  schedInterval :
    TIMER_SCHED_INTERVAL_MIN ≤ conf.schedInterval ∧ conf.schedInterval ≤ TIMER_SCHED_INTERVAL_MAX
  devices : ∀ device ∈ conf.portList, device.InRange
  ports : ∀ worker ∈ conf.workerList, ∀ port ∈ worker.portList, port.InRange maxLcore

variable {maxLcore : Nat} {conf conf' : Conf} {tokens : List Bytes}

theorem withDevice_inRange {change : PortConfStream → PortConfStream}
    (inRange : conf.InRange maxLcore) (done : conf.withDevice change = some conf')
    (keeps : ∀ device : PortConfStream, device.InRange → (change device).InRange) :
    conf'.InRange maxLcore := by
  rw [Conf.withDevice] at done
  split at done
  next => cases done
  next device others same =>
    cases done
    have devices := inRange.devices
    rw [same] at devices
    obtain ⟨first, more⟩ := List.forall_mem_cons.mp devices
    exact { inRange with devices := List.forall_mem_cons.mpr ⟨keeps device first, more⟩ }

theorem withWorker_inRange {change : WorkerConf → WorkerConf}
    (inRange : conf.InRange maxLcore) (done : conf.withWorker change = some conf')
    (keeps : ∀ worker : WorkerConf, (∀ port ∈ worker.portList, port.InRange maxLcore) →
      ∀ port ∈ (change worker).portList, port.InRange maxLcore) :
    conf'.InRange maxLcore := by
  rw [Conf.withWorker] at done
  split at done
  next => cases done
  next worker others same =>
    cases done
    have ports := inRange.ports
    rw [same] at ports
    obtain ⟨first, more⟩ := List.forall_mem_cons.mp ports
    exact { inRange with ports := List.forall_mem_cons.mpr ⟨keeps worker first, more⟩ }

theorem withPort_inRange {change : QueueConf → QueueConf}
    (inRange : conf.InRange maxLcore) (done : conf.withPort change = some conf')
    (keeps : ∀ port : QueueConf, port.InRange maxLcore → (change port).InRange maxLcore) :
    conf'.InRange maxLcore := by
  rw [Conf.withPort] at done
  split at done
  next cpuId name type port ports others same =>
    cases done
    have inside := inRange.ports
    rw [same] at inside
    obtain ⟨first, more⟩ := List.forall_mem_cons.mp inside
    obtain ⟨front, behind⟩ := List.forall_mem_cons.mp first
    have changed : ∀ p ∈ change port :: ports, p.InRange maxLcore :=
      List.forall_mem_cons.mpr ⟨keeps port front, behind⟩
    exact { inRange with ports := List.forall_mem_cons.mpr ⟨changed, more⟩ }
  next => cases done

theorem queueId_lt (str : Bytes) : queueId str < NETIF_MAX_QUEUES := by
  rw [queueId]
  split
  next => decide
  next inside =>
    rw [not_or, not_lt, not_le] at inside
    omega

theorem queueIds_filled {ids : Fin NETIF_MAX_QUEUES → Nat} (read : queueIds tokens = some ids) :
    Filled ids := by
  rw [queueIds] at read
  split at read
  next few =>
    cases read
    refine ⟨(tokens.tail.map queueId).length, fun ii => ?_⟩
    dsimp only
    by_cases used : ii.val < (tokens.tail.map queueId).length
    · obtain ⟨str, -, same⟩ := List.mem_map.mp (List.getElem_mem used)
      rw [List.getElem?_eq_getElem used, Option.getD_some, ← same]
      exact ⟨(queueId_lt str).le, iff_of_true (queueId_lt str) used⟩
    · rw [List.getElem?_eq_none_iff.mpr (not_lt.mp used), Option.getD_none]
      exact ⟨le_rfl, iff_of_false (lt_irrefl _) used⟩
  next => cases read

theorem isolRxCpuId_inRange (str : Bytes) :
    isolRxCpuId maxLcore str = NETIF_LCORE_ID_INVALID ∨
      0 < isolRxCpuId maxLcore str ∧ isolRxCpuId maxLcore str < maxLcore := by
  rw [isolRxCpuId]
  split
  next => exact Or.inl rfl
  next inside =>
    rw [not_or, not_le, not_le] at inside
    exact Or.inr (by omega)

/-- An optional id is one of the ids of a list, or another one. -/
theorem getD_inRange {ids : List Nat} {old : Nat} {P : Nat → Prop} (all : ∀ id ∈ ids, P id)
    (other : P old) (index : Nat) : P (ids[index]?.getD old) := by
  cases found : ids[index]? with
  | none => exact other
  | some id => exact all id (List.mem_of_getElem? found)

theorem emptyPort_inRange (str : Bytes) : (emptyPort str).InRange maxLcore where
  rxQueues := ⟨0, fun _ => ⟨le_rfl, iff_of_false (lt_irrefl _) (Nat.not_lt_zero _)⟩⟩
  txQueues := ⟨0, fun _ => ⟨le_rfl, iff_of_false (lt_irrefl _) (Nat.not_lt_zero _)⟩⟩
  isolRxqLcoreIds _ := Or.inl rfl

theorem device_inRange (name : Bytes) : PortConfStream.InRange { name } := by
  have unset : (-1 : Int) ≤ -1 ∧ (-1 : Int) ≤ NETIF_MAX_QUEUES := by decide
  have mtu : 1 ≤ NETIF_DEFAULT_ETH_MTU ∧ NETIF_DEFAULT_ETH_MTU ≤ NETIF_MAX_ETH_MTU := by decide
  exact ⟨unset, unset, ⟨8, by decide, by decide, rfl⟩, ⟨9, by decide, by decide, rfl⟩, mtu⟩

/-- The number of queues of a device. -/
theorem checked_queues (number : Int) :
    -1 ≤ checked 0 NETIF_MAX_QUEUES NETIF_MAX_QUEUES id number ∧
      checked 0 NETIF_MAX_QUEUES NETIF_MAX_QUEUES id number ≤ NETIF_MAX_QUEUES := by
  have inside := checked_between number
    (show 0 ≤ (NETIF_MAX_QUEUES : Int) ∧ (NETIF_MAX_QUEUES : Int) ≤ NETIF_MAX_QUEUES by decide)
  exact ⟨le_trans (by decide) inside.1, inside.2⟩

/-- The number of descriptors of a queue. -/
theorem isPower_desc {default : Int} (number : Int) (byDefault : IsPower 4 13 default) :
    IsPower 4 13 (checked NETIF_NB_DESC_MIN NETIF_NB_DESC_MAX default
      (fun number => (isPower2 number 0).2) number) :=
  isPower_checked_zero number (by decide) (by decide) (by decide) (by decide) byDefault

section Run

variable {alloc : Nat → Option Stale} {handler : Handler}

/-- **One handler.** Every value that a handler leaves is in range. -/
theorem run_inRange (inRange : conf.InRange maxLcore)
    (ran : handler.run alloc maxLcore conf tokens = some conf') : conf'.InRange maxLcore := by
  cases handler with
  | netifDefs =>
      cases ran
      exact { inRange with devices := by simp }
  | workerDefs =>
      cases ran
      exact { inRange with ports := by simp }
  | pktpoolSize =>
      obtain ⟨str, -, done⟩ := Option.bind_eq_some_iff.mp ran
      cases done
      exact { inRange with
        pktpoolNbMbuf := isPower_checked _ (by decide) (by decide) (by decide) (by decide)
          (by decide) ⟨16, by decide, by decide, by decide⟩ }
  | pktpoolCache =>
      obtain ⟨str, -, done⟩ := Option.bind_eq_some_iff.mp ran
      cases done
      exact { inRange with
        pktpoolMbufCache := isPower_checked_zero _ (by decide) (by decide) (by decide)
          (by decide) ⟨8, by decide, by decide, by decide⟩ }
  | device =>
      rw [Handler.run, deviceHandler, Conf.allocate] at ran
      cases found : alloc conf.allocated with
      | none =>
          rw [found] at ran
          cases ran
          exact { inRange with }
      | some stale =>
          rw [found] at ran
          obtain ⟨str, -, done⟩ := Option.bind_eq_some_iff.mp ran
          cases done
          exact { inRange with
            devices := List.forall_mem_cons.mpr ⟨device_inRange _, inRange.devices⟩ }
  | rxQueueNumber =>
      obtain ⟨str, -, done⟩ := Option.bind_eq_some_iff.mp ran
      exact withDevice_inRange inRange done fun device before =>
        { before with rxQueueNb := checked_queues _ }
  | txQueueNumber =>
      obtain ⟨str, -, done⟩ := Option.bind_eq_some_iff.mp ran
      exact withDevice_inRange inRange done fun device before =>
        { before with txQueueNb := checked_queues _ }
  | rxDescNb =>
      obtain ⟨str, -, done⟩ := Option.bind_eq_some_iff.mp ran
      exact withDevice_inRange inRange done fun device before =>
        { before with rxDescNb := isPower_desc _ ⟨8, by decide, by decide, rfl⟩ }
  | txDescNb =>
      obtain ⟨str, -, done⟩ := Option.bind_eq_some_iff.mp ran
      exact withDevice_inRange inRange done fun device before =>
        { before with txDescNb := isPower_desc _ ⟨9, by decide, by decide, rfl⟩ }
  | customMtu =>
      obtain ⟨str, -, done⟩ := Option.bind_eq_some_iff.mp ran
      exact withDevice_inRange inRange done fun device before =>
        { before with mtu := checked_between _ (by decide) }
  | rss | txMbufFastFree | kniName =>
      obtain ⟨str, -, done⟩ := Option.bind_eq_some_iff.mp ran
      exact withDevice_inRange inRange done fun device before => { before with }
  | promiscMode | allmulticast =>
      exact withDevice_inRange inRange ran fun device before => { before with }
  | worker =>
      rw [Handler.run, workerHandler, Conf.allocate] at ran
      cases found : alloc conf.allocated with
      | none =>
          rw [found] at ran
          cases ran
          exact { inRange with }
      | some stale =>
          rw [found] at ran
          obtain ⟨str, -, done⟩ := Option.bind_eq_some_iff.mp ran
          cases done
          exact { inRange with ports := List.forall_mem_cons.mpr ⟨by simp, inRange.ports⟩ }
  | workerType | cpuId =>
      obtain ⟨str, -, done⟩ := Option.bind_eq_some_iff.mp ran
      exact withWorker_inRange inRange done fun worker ports => ports
  | workerPort =>
      rw [Handler.run, workerPortHandler, Conf.allocate] at ran
      cases found : alloc conf.allocated with
      | none =>
          rw [found] at ran
          cases ran
          exact { inRange with }
      | some stale =>
          rw [found] at ran
          obtain ⟨str, -, done⟩ := Option.bind_eq_some_iff.mp ran
          have others : ({ conf with allocated := conf.allocated + 1 } : Conf).InRange maxLcore :=
            { inRange with }
          exact withWorker_inRange others done fun worker ports =>
            List.forall_mem_cons.mpr ⟨emptyPort_inRange str, ports⟩
  | rxQueueIds =>
      obtain ⟨ids, read, done⟩ := Option.bind_eq_some_iff.mp ran
      exact withPort_inRange inRange done fun port before =>
        { before with rxQueues := queueIds_filled read }
  | txQueueIds =>
      obtain ⟨ids, read, done⟩ := Option.bind_eq_some_iff.mp ran
      exact withPort_inRange inRange done fun port before =>
        { before with txQueues := queueIds_filled read }
  | isolRxCpuIds =>
      obtain ⟨value, -, done⟩ := Option.bind_eq_some_iff.mp ran
      dsimp only at done
      split at done
      next few =>
        refine withPort_inRange inRange done fun port before => ⟨before.rxQueues, before.txQueues, ?_⟩
        intro ii
        have all : ∀ id ∈ tokens.tail.map (isolRxCpuId maxLcore),
            id = NETIF_LCORE_ID_INVALID ∨ 0 < id ∧ id < maxLcore :=
          List.forall_mem_map.mpr fun str _ => isolRxCpuId_inRange str
        exact getD_inRange all (before.isolRxqLcoreIds ii) ii.val
      next => cases done
  | isolRxqRingSz =>
      obtain ⟨str, -, done⟩ := Option.bind_eq_some_iff.mp ran
      exact withPort_inRange inRange done fun port before => { before with }
  | timerSchedInterval =>
      obtain ⟨value, -, done⟩ := Option.bind_eq_some_iff.mp ran
      cases value with
      | none =>
          cases done
          exact inRange
      | some str =>
          cases done
          exact { inRange with schedInterval := checked_between _ (by decide) }

end Run

end NetDefender.Config
