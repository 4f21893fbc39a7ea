import NetDefender.Netif.Ports

/-!
# Runs of the registry

A history is the registry together with the list of the ports that were registered.  Both
hash tables stay in step with that list, so what decides whether ports are unique is which
ports the two searches of `netif_port_register` can see, and which id the counters give.
-/

namespace NetDefender.Netif

open CString Keyed

inductive Call where
  | alloc (id : Nat) (namefmt : Bytes) (memory : Bool)
  | register (port : Option NetifPort)
  deriving DecidableEq, Repr

/-- The ids of a call are below `NETIF_MAX_PORTS`, or it asks for no id. -/
def Call.InRange : Call → Prop
  | .alloc id _ _ => id < NETIF_MAX_PORTS ∨ id = NETIF_PORT_ID_INVALID
  | .register port => ∀ wanted ∈ port, wanted.id < NETIF_MAX_PORTS

/-- The registry, and the ports for which `netif_port_register` returned `ENDF_OK`. -/
structure History where
  registry : Registry := {}
  registered : List NetifPort := []

def History.ids (past : History) : List Nat := past.registered.map NetifPort.id

def History.step (past : History) : Call → Option History
  | .alloc id namefmt memory =>
      (netifAlloc past.registry id namefmt memory).map fun result =>
        { past with registry := result.2 }
  | .register port =>
      match netifPortRegister past.registry port with
      | (.ok, registry) => some ⟨registry, past.registered ++ port.toList⟩
      | (_, registry) => some ⟨registry, past.registered⟩

/-! ## The tables and the list -/

/-- Both tables hold the registered ports, each with its own hash. -/
structure InStep (past : History) : Prop where
  byId : Buckets.Holds (fun port : NetifPort => portTabHashkey port.id)
    past.registry.portTab past.registered
  byName : Buckets.Holds (fun port : NetifPort => portNtabHashkey port.name IFNAMSIZ)
    past.registry.portNtab past.registered

theorem inStep_empty : InStep {} := ⟨Buckets.holds_empty, Buckets.holds_empty⟩

/-- The hash of a pointer's string is the one its port was filed under. -/
theorem portNtabHashkey_text (name : Bytes) (short : (text name).length < IFNAMSIZ) :
    portNtabHashkey name (text name).length = portNtabHashkey (text name) IFNAMSIZ := by
  have whole : (text name).take IFNAMSIZ = text name :=
    List.take_of_length_le (Nat.le_of_lt short)
  have front : name.take (text name).length = text name :=
    (List.prefix_iff_eq_take.mp (List.takeWhile_prefix _)).symm
  rw [portNtabHashkey, portNtabHashkey, front, whole]

theorem netifPortGet_eq {past : History} (inStep : InStep past) (id : Nat) :
    netifPortGet past.registry id =
      if id ≤ NETIF_MAX_PORTS then some (find NetifPort.id id past.registered)
      else none := by
  rw [netifPortGet]
  congr 2
  exact inStep.byId.find? fun port same => by rw [of_decide_eq_true same]

theorem netifPortGetByName_eq {past : History} (inStep : InStep past) (name : Bytes) :
    netifPortGetByName past.registry (some name) =
      if text name = [] then none else find NetifPort.name (text name) past.registered := by
  rw [netifPortGetByName]
  simp only [List.length_eq_zero_iff]
  congr 1
  by_cases short : (text name).length < IFNAMSIZ
  · rw [portNtabHashkey_text name short]
    exact inStep.byName.find? fun port same => by rw [of_decide_eq_true same]
  · -- no port has so long a name, and both searches fail
    have other (port : NetifPort) : port.name ≠ text name :=
      fun same => short (same ▸ port.fits)
    rw [find, List.find?_eq_none.mpr (by simp [other]), List.find?_eq_none.mpr (by simp [other])]

/-! ## Unique ports -/

/-- No two registered ports have the same id or name, and each is found by both. -/
structure Unique (past : History) : Prop where
  ids : Distinct NetifPort.id past.registered
  names : Distinct NetifPort.name past.registered
  byId : ∀ id ≤ NETIF_MAX_PORTS,
    netifPortGet past.registry id = some (find NetifPort.id id past.registered)
  byName : ∀ name, netifPortGetByName past.registry (some name) =
    find NetifPort.name (text name) past.registered

theorem text_of_not_mem {name : Bytes} (terminated : 0 ∉ name) : text name = name :=
  List.takeWhile_eq_self_iff.mpr fun _ member =>
    decide_eq_true fun zero => terminated (zero ▸ member)

/-- A lookup by name misses only the ports without a name. -/
theorem unique_iff {past : History} (inStep : InStep past) :
    Unique past ↔ Distinct NetifPort.id past.registered ∧
      Distinct NetifPort.name past.registered ∧
      ∀ port ∈ past.registered, port.name ≠ [] := by
  constructor
  · intro unique
    refine ⟨unique.ids, unique.names, fun port member empty => ?_⟩
    have found := unique.names.find_of_mem member
    have missed := unique.byName port.name
    rw [netifPortGetByName_eq inStep, text_of_not_mem port.terminated, if_pos empty,
      found] at missed
    exact Option.some_ne_none _ missed.symm
  · rintro ⟨ids, names, named⟩
    refine ⟨ids, names, fun id below => ?_, fun name => ?_⟩
    · rw [netifPortGet_eq inStep, if_pos below]
    · rw [netifPortGetByName_eq inStep]
      split
      next empty =>
        rw [empty]
        refine (List.find?_eq_none.mpr fun port member => ?_).symm
        exact fun same => named port member (of_decide_eq_true same)
      next => rfl

/-! ## Choosing an id -/

theorem freeIdFrom_spec {past : History} (inStep : InStep past) {pid : Nat} {free : Option Nat}
    (scanned : freeIdFrom past.registry pid = some free) :
    match free with
    | some fresh => 0 < fresh ∧ fresh ≤ pid ∧ fresh ∉ past.ids
    | none => ∀ taken, 0 < taken → taken ≤ pid → taken ∈ past.ids := by
  induction pid with
  | zero =>
      cases scanned
      intro taken positive low
      omega
  | succ pid ih =>
      rw [freeIdFrom, netifPortGet_eq inStep] at scanned
      by_cases low : pid + 1 ≤ NETIF_MAX_PORTS
      · rw [if_pos low] at scanned
        cases found : find NetifPort.id (pid + 1) past.registered with
        | none =>
            rw [found] at scanned
            cases scanned
            refine ⟨Nat.succ_pos pid, Nat.le_refl _, fun member => ?_⟩
            obtain ⟨port, member, same⟩ := List.mem_map.mp member
            exact List.find?_eq_none.mp found port member (decide_eq_true same)
        | some port =>
            rw [found] at scanned
            have lower := ih scanned
            have here : pid + 1 ∈ past.ids :=
              List.mem_map.mpr ⟨port, mem_of_find found, key_of_find found⟩
            cases free with
            | some fresh => exact ⟨lower.1, Nat.le_succ_of_le lower.2.1, lower.2.2⟩
            | none =>
                intro taken positive bound
                rcases Nat.le_succ_iff.mp bound with below | rfl
                · exact lower taken positive below
                · exact here
      · rw [if_neg low] at scanned
        cases scanned

/-- The counters lead to an id that no registered port has: the next id of `port_id_end`
is free, or the scan below it is made and finds a gap. -/
def History.CountersFresh (past : History) : Prop :=
  past.registry.portIdEnd ∉ past.ids ∨
    (past.registry.gNports < past.registry.portIdEnd ∧
      ∃ gap, 0 < gap ∧ gap < past.registry.portIdEnd ∧ gap ∉ past.ids)

theorem netifPortIdAlloc_fresh {past : History} (inStep : InStep past) {pid : Nat}
    {registry : Registry} (chosen : netifPortIdAlloc past.registry = some (pid, registry)) :
    pid ∉ past.ids ↔ past.CountersFresh := by
  rw [netifPortIdAlloc, Option.bind_eq_bind, Option.bind_eq_some_iff] at chosen
  obtain ⟨free, scanned, chosen⟩ := chosen
  rw [reuseId] at scanned
  rw [History.CountersFresh]
  by_cases behind : past.registry.portIdEnd > past.registry.gNports
  · rw [if_pos behind] at scanned
    have spec := freeIdFrom_spec inStep scanned
    cases free with
    | some fresh =>
        cases chosen
        exact iff_of_true spec.2.2
          (.inr ⟨behind, pid, spec.1, by have := spec.1; have := spec.2.1; omega, spec.2.2⟩)
    | none =>
        cases chosen
        refine ⟨.inl, ?_⟩
        rintro (fresh | ⟨_, gap, positive, below, fresh⟩)
        · exact fresh
        · exact absurd (spec gap positive (Nat.le_sub_one_of_lt below)) fresh
  · rw [if_neg behind] at scanned
    cases scanned
    cases chosen
    exact ⟨.inl, fun fresh => fresh.resolve_right fun later => behind later.1⟩

/-- Choosing an id leaves the tables as they are. -/
theorem netifPortIdAlloc_tables {registry after : Registry} {pid : Nat}
    (chosen : netifPortIdAlloc registry = some (pid, after)) :
    after.portTab = registry.portTab ∧ after.portNtab = registry.portNtab := by
  rw [netifPortIdAlloc, Option.bind_eq_bind, Option.bind_eq_some_iff] at chosen
  obtain ⟨free, -, chosen⟩ := chosen
  cases free <;> cases chosen <;> exact ⟨rfl, rfl⟩

theorem netifAlloc_tables {registry after : Registry} {id : Nat} {namefmt : Bytes}
    {memory : Bool} {port : Option NetifPort}
    (allocated : netifAlloc registry id namefmt memory = some (port, after)) :
    after.portTab = registry.portTab ∧ after.portNtab = registry.portNtab := by
  cases memory with
  | false => cases allocated; exact ⟨rfl, rfl⟩
  | true =>
      simp only [netifAlloc, if_true, Option.bind_eq_bind, Option.bind_eq_some_iff] at allocated
      obtain ⟨⟨pid, chosen⟩, choice, line, -, result⟩ := allocated
      cases result
      rw [chooseId] at choice
      split at choice
      · rw [Option.bind_eq_bind, Option.bind_eq_some_iff] at choice
        obtain ⟨found, -, choice⟩ := choice
        cases found with
        | none => cases choice; exact ⟨rfl, rfl⟩
        | some port => exact netifPortIdAlloc_tables choice
      · exact netifPortIdAlloc_tables choice

/-! ## The duplicate check -/

/-- One of the two searches of `netif_port_register` sees a port with the id or the name:
the chain of the id's hash is searched in both tables. -/
def History.Detects (past : History) (port : NetifPort) : Prop :=
  ∃ cur ∈ past.registered, cur.id = port.id ∨ cur.name = port.name ∧
    (portTabHashkey cur.id = portTabHashkey port.id ∨
      portNtabHashkey port.name IFNAMSIZ = portTabHashkey port.id)

theorem netifPortRegister_cases {past : History} (inStep : InStep past) (port : NetifPort) :
    (past.Detects port ∧
      netifPortRegister past.registry (some port) = (.exist, past.registry)) ∨
    (¬past.Detects port ∧
      netifPortRegister past.registry (some port) = (.ok, { past.registry with
        portTab := Buckets.push past.registry.portTab (portTabHashkey port.id) port
        portNtab := Buckets.push past.registry.portNtab
          (portNtabHashkey port.name IFNAMSIZ) port
        gNports := (past.registry.gNports + 1) % 2 ^ 16 })) := by
  have seenById : (past.registry.portTab (portTabHashkey port.id)).any
      (fun cur => cur.id = port.id ∨ cur.name = port.name) = true ↔
      ∃ cur ∈ past.registered, portTabHashkey cur.id = portTabHashkey port.id ∧
        (cur.id = port.id ∨ cur.name = port.name) := by
    simp only [List.any_eq_true, inStep.byId.mem, decide_eq_true_eq, and_assoc]
  have seenByName : (past.registry.portNtab (portTabHashkey port.id)).any
      (fun cur => cur.id = port.id ∨ cur.name = port.name) = true ↔
      ∃ cur ∈ past.registered,
        portNtabHashkey cur.name IFNAMSIZ = portTabHashkey port.id ∧
        (cur.id = port.id ∨ cur.name = port.name) := by
    simp only [List.any_eq_true, inStep.byName.mem, decide_eq_true_eq, and_assoc]
  simp only [netifPortRegister]
  by_cases first : (past.registry.portTab (portTabHashkey port.id)).any
      (fun cur => cur.id = port.id ∨ cur.name = port.name) = true
  · rw [if_pos first]
    obtain ⟨cur, member, bucket, same⟩ := seenById.mp first
    exact .inl ⟨⟨cur, member, same.imp_right fun name => ⟨name, .inl bucket⟩⟩, rfl⟩
  · rw [if_neg first]
    by_cases second : (past.registry.portNtab (portTabHashkey port.id)).any
        (fun cur => cur.id = port.id ∨ cur.name = port.name) = true
    · rw [if_pos second]
      obtain ⟨cur, member, bucket, same⟩ := seenByName.mp second
      exact .inl ⟨⟨cur, member, same.imp_right fun name => ⟨name, .inr (name ▸ bucket)⟩⟩, rfl⟩
    · rw [if_neg second]
      refine .inr ⟨?_, rfl⟩
      rintro ⟨cur, member, id | ⟨name, bucket | bucket⟩⟩
      · exact first (seenById.mpr ⟨cur, member, congrArg portTabHashkey id, .inl id⟩)
      · exact first (seenById.mpr ⟨cur, member, bucket, .inr name⟩)
      · exact second (seenByName.mpr ⟨cur, member, name ▸ bucket, .inr name⟩)

/-! ## One call -/

/-- `netif_alloc` is asked for no id, or for one that is taken. -/
def History.Unasked (past : History) (id : Nat) : Prop :=
  id = NETIF_PORT_ID_INVALID ∨ id ∈ past.ids

/-- If a call leaves the choice to `netif_port_id_alloc`, the id that it chooses is not the
id of a registered port. -/
def ChosenFresh (past : History) : Call → Prop
  | .alloc id _ memory =>
      memory = true → past.Unasked id →
        ∀ pid registry, netifPortIdAlloc past.registry = some (pid, registry) →
          pid ∉ past.ids
  | .register _ => True

/-- The condition on a call: the counters have a fresh id where one is chosen, and a port
that is registered has a name, which the two searches see if it is taken. -/
def Meets (past : History) : Call → Prop
  | .alloc id _ memory => memory = true → past.Unasked id → past.CountersFresh
  | .register none => True
  | .register (some port) =>
      port.id ∈ past.ids ∨
        (port.name ≠ [] ∧ ∀ cur ∈ past.registered, cur.name = port.name →
          portTabHashkey cur.id = portTabHashkey port.id ∨
            portNtabHashkey port.name IFNAMSIZ = portTabHashkey port.id)

theorem netifPortIdAlloc_of_unasked {past : History} (inStep : InStep past) {id : Nat}
    (unasked : past.Unasked id) {choice : Nat × Registry}
    (chosen : chooseId past.registry id = some choice) :
    netifPortIdAlloc past.registry = some choice := by
  rw [chooseId] at chosen
  split at chosen
  next asked =>
    rw [netifPortGet_eq inStep] at chosen
    split at chosen
    next low =>
      obtain ⟨port, member, same⟩ := List.mem_map.mp (unasked.resolve_left asked)
      cases found : find NetifPort.id id past.registered with
      | none => exact absurd (decide_eq_true same) (List.find?_eq_none.mp found port member)
      | some taken =>
          rw [found] at chosen
          exact chosen
    next => cases chosen
  next => exact chosen

/-- Allocating leaves the registered ports alone. -/
theorem step_alloc {past next : History} {id : Nat} {namefmt : Bytes} {memory : Bool}
    (stepped : past.step (.alloc id namefmt memory) = some next) :
    next.registered = past.registered ∧ next.registry.portTab = past.registry.portTab ∧
      next.registry.portNtab = past.registry.portNtab := by
  obtain ⟨⟨port, after⟩, allocated, rfl⟩ := Option.map_eq_some_iff.mp stepped
  exact ⟨rfl, netifAlloc_tables allocated⟩

theorem step_alloc_fresh {past next : History} (inStep : InStep past) {id : Nat}
    {namefmt : Bytes} {memory : Bool}
    (stepped : past.step (.alloc id namefmt memory) = some next) :
    ChosenFresh past (.alloc id namefmt memory) ↔ Meets past (.alloc id namefmt memory) := by
  obtain ⟨⟨port, after⟩, allocated, -⟩ := Option.map_eq_some_iff.mp stepped
  refine forall_congr' fun hasMemory => forall_congr' fun unasked => ?_
  rw [hasMemory] at allocated
  simp only [netifAlloc, if_true, Option.bind_eq_bind, Option.bind_eq_some_iff] at allocated
  obtain ⟨⟨pid, registry⟩, choice, -⟩ := allocated
  have chosen := netifPortIdAlloc_of_unasked inStep unasked choice
  constructor
  · intro fresh
    exact (netifPortIdAlloc_fresh inStep chosen).mp (fresh pid registry chosen)
  · intro fresh other otherRegistry chosen
    exact (netifPortIdAlloc_fresh inStep chosen).mpr fresh

theorem InStep.step {past next : History} (inStep : InStep past) {call : Call}
    (stepped : past.step call = some next) : InStep next := by
  cases call with
  | alloc id namefmt memory =>
      obtain ⟨registered, portTab, portNtab⟩ := step_alloc stepped
      exact ⟨by rw [portTab, registered]; exact inStep.byId,
        by rw [portNtab, registered]; exact inStep.byName⟩
  | register port =>
      cases port with
      | none => cases stepped; exact inStep
      | some port =>
          rw [History.step] at stepped
          rcases netifPortRegister_cases inStep port with ⟨-, result⟩ | ⟨-, result⟩
          · rw [result] at stepped
            cases stepped
            exact inStep
          · rw [result] at stepped
            cases stepped
            exact ⟨inStep.byId.push port, inStep.byName.push port⟩

/-- A port that is turned away for its name is turned away rightly. -/
theorem meets_of_detects {past : History} (inStep : InStep past) (unique : Unique past)
    {port : NetifPort} (detects : past.Detects port) : Meets past (.register (some port)) := by
  obtain ⟨cur, member, id | ⟨name, bucket⟩⟩ := detects
  · exact .inl (List.mem_map.mpr ⟨cur, member, id⟩)
  · refine .inr ⟨?_, fun other otherMember same => ?_⟩
    · exact name ▸ ((unique_iff inStep).mp unique).2.2 cur member
    · have one : other = cur :=
        List.inj_on_of_nodup_map unique.names otherMember member (same.trans name.symm)
      exact one ▸ bucket

theorem distinct_concat {κ : Type} {key : NetifPort → κ} {ports : List NetifPort}
    {port : NetifPort} :
    Distinct key (ports ++ [port]) ↔
      Distinct key ports ∧ ∀ cur ∈ ports, key cur ≠ key port := by
  rw [Distinct, Distinct, List.map_append, List.nodup_append]
  simp only [List.map_cons, List.map_nil, List.nodup_singleton, List.mem_singleton,
    List.mem_map, true_and]
  constructor
  · rintro ⟨distinct, apart⟩
    exact ⟨distinct, fun cur member => apart _ ⟨cur, member, rfl⟩ _ rfl⟩
  · rintro ⟨distinct, apart⟩
    refine ⟨distinct, ?_⟩
    rintro _ ⟨cur, member, rfl⟩ _ rfl
    exact apart cur member

/-- A call keeps the ports unique, and chooses a fresh id, exactly if it meets the
condition. -/
theorem step_iff {past next : History} (inStep : InStep past) (unique : Unique past)
    {call : Call} (stepped : past.step call = some next) :
    ChosenFresh past call ∧ Unique next ↔ Meets past call := by
  have kept := inStep.step stepped
  cases call with
  | alloc id namefmt memory =>
      obtain ⟨registered, -, -⟩ := step_alloc stepped
      have still : Unique next := by
        rw [unique_iff kept, registered]
        exact (unique_iff inStep).mp unique
      rw [and_iff_left still, step_alloc_fresh inStep stepped]
  | register port =>
      rw [ChosenFresh, true_and]
      cases port with
      | none =>
          cases stepped
          exact iff_of_true unique trivial
      | some port =>
          rw [History.step] at stepped
          rcases netifPortRegister_cases inStep port with ⟨seen, result⟩ | ⟨unseen, result⟩
          · rw [result] at stepped
            cases stepped
            exact iff_of_true unique (meets_of_detects inStep unique seen)
          · rw [result] at stepped
            cases stepped
            have freshId : ∀ cur ∈ past.registered, cur.id ≠ port.id :=
              fun cur member same => unseen ⟨cur, member, .inl same⟩
            obtain ⟨ids, names, named⟩ := (unique_iff inStep).mp unique
            rw [unique_iff kept]
            simp only [Option.toList_some, distinct_concat, List.forall_mem_append,
              List.forall_mem_singleton]
            constructor
            · rintro ⟨-, ⟨-, freshName⟩, -, hasName⟩
              exact .inr ⟨hasName, fun cur member same => absurd same (freshName cur member)⟩
            · rintro (taken | ⟨hasName, visible⟩)
              · obtain ⟨cur, member, same⟩ := List.mem_map.mp taken
                exact absurd same (freshId cur member)
              · refine ⟨⟨ids, freshId⟩, ⟨names, fun cur member same => ?_⟩, named, hasName⟩
                exact unseen ⟨cur, member, .inr ⟨same, visible cur member same⟩⟩

/-! ## Runs -/

/-- Ports are unique in every state of a run, and each id that is chosen is fresh. -/
def Lawful : History → List Call → Prop
  | past, [] => Unique past
  | past, call :: calls =>
      Unique past ∧ ∀ next, past.step call = some next →
        ChosenFresh past call ∧ Lawful next calls

/-- Every call of a run meets the condition. -/
def AllMeet : History → List Call → Prop
  | _, [] => True
  | past, call :: calls =>
      ∀ next, past.step call = some next → Meets past call ∧ AllMeet next calls

theorem Lawful.unique {past : History} {calls : List Call} (lawful : Lawful past calls) :
    Unique past := by
  cases calls with
  | nil => exact lawful
  | cons call calls => exact lawful.1

/-- The history after a run. -/
def History.run (past : History) (calls : List Call) : Option History :=
  calls.foldlM History.step past

theorem Lawful.unique_run {past final : History} {calls : List Call}
    (lawful : Lawful past calls) (ran : past.run calls = some final) : Unique final := by
  induction calls generalizing past with
  | nil =>
      cases ran
      exact lawful
  | cons call calls ih =>
      rw [History.run, List.foldlM_cons, Option.bind_eq_bind, Option.bind_eq_some_iff] at ran
      obtain ⟨next, stepped, ran⟩ := ran
      exact ih (lawful.2 next stepped).2 ran

theorem lawful_iff {past : History} (inStep : InStep past) (unique : Unique past)
    (calls : List Call) : Lawful past calls ↔ AllMeet past calls := by
  induction calls generalizing past with
  | nil => exact iff_of_true unique trivial
  | cons call calls ih =>
      rw [Lawful, AllMeet, and_iff_right unique]
      refine forall_congr' fun next => forall_congr' fun stepped => ?_
      have once := step_iff inStep unique stepped
      constructor
      · rintro ⟨fresh, lawful⟩
        exact ⟨once.mp ⟨fresh, lawful.unique⟩,
          (ih (inStep.step stepped) lawful.unique).mp lawful⟩
      · rintro ⟨meets, allMeet⟩
        obtain ⟨fresh, nextUnique⟩ := once.mpr meets
        exact ⟨fresh, (ih (inStep.step stepped) nextUnique).mpr allMeet⟩

theorem unique_empty : Unique {} :=
  (unique_iff inStep_empty).mpr ⟨List.nodup_nil, List.nodup_nil, by simp⟩

/-- The registry of ports is unique and finds its ports all along a run exactly if each call
of the run meets the condition. -/
theorem registry_unique_iff (calls : List Call) : Lawful {} calls ↔ AllMeet {} calls :=
  lawful_iff inStep_empty unique_empty calls

/-- Two ports with one name. -/
def namesakes : List Call :=
  [.alloc 0 (ascii "dpdk0") true, .register (some (.named 0 (ascii "dpdk0"))),
    .alloc 1 (ascii "dpdk0") true, .register (some (.named 1 (ascii "dpdk0")))]

/-- The chain that is searched for the name of the second port is the one of its id, so both
ports are registered. -/
theorem registry_not_unique :
    ¬∀ calls : List Call, (∀ call ∈ calls, call.InRange) → Lawful {} calls := by
  intro all
  have inRange : ∀ call ∈ namesakes, call.InRange := by
    intro call member
    simp only [namesakes, List.mem_cons, List.not_mem_nil, or_false] at member
    rcases member with rfl | rfl | rfl | rfl
    · exact .inl (by decide)
    · rintro wanted ⟨⟩
      decide
    · exact .inl (by decide)
    · rintro wanted ⟨⟩
      decide
  have names : ((History.run {} namesakes).map fun final =>
      final.registered.map NetifPort.name) = some [ascii "dpdk0", ascii "dpdk0"] := by
    decide +kernel
  obtain ⟨final, ran, same⟩ := Option.map_eq_some_iff.mp names
  have distinct := ((all namesakes inRange).unique_run ran).names
  rw [Distinct, same] at distinct
  exact absurd distinct (by decide +kernel)

end NetDefender.Netif
