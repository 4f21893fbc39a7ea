import NetDefender.Lib.CString
import NetDefender.Lib.RingFamilies
import NetDefender.Netif.Lcores

/-!
# The jobs of the lcores

`scheduler.c`: every role of an lcore has a list of jobs for each type of job.  The lists are those
of `list.h`, in memory; against them stands the registry as lists.  Whoever registers a job looks
for it only on the list where it is to be put.
-/

namespace NetDefender.Sched

open CString Netif Rings

/-- `ndf_lcore_job_t`. -/
inductive LcoreJobType where
  | init
  | loop
  | slow
  deriving DecidableEq, Repr

/-- The codes of `scheduler.c`: `ENDF_OK`, `ENDF_INVAL`, `ENDF_EXIST`, `ENDF_NOTEXIST`,
`ENDF_IDLE`. -/
inductive Ret where
  | ok
  | inval
  | exist
  | notexist
  | idle
  deriving DecidableEq, Repr

/-- The functions of the jobs of the program, and others. -/
inductive Callback where
  | tryReload
  | lcoreJobRecvFwd
  | lcoreJobTimerManage
  | recvOnIsolLcore
  | other (id : Nat)
  deriving DecidableEq, Repr

/-- `struct ndf_lcore_job` without its node.  What `func` is called with is part of the job. -/
structure NdfLcoreJob where
  name : Bytes := []
  func : Option Callback := none
  type : LcoreJobType := .init
  skipLoops : BitVec 32 := 0
  deriving DecidableEq, Repr

/-- A `struct list_head`: that of `ndf_lcore_jobs`, or that of a job.  There is none for
`LCORE_ROLE_MAX` in the array, and none is used. -/
inductive ListHead (Job : Type) where
  | ndfLcoreJobs (role : LcoreRole) (type : LcoreJobType)
  | list (job : Job)
  deriving DecidableEq, Repr

/-- The jobs and the memory that holds their lists. -/
structure LcoreJobs (Job : Type) where
  jobs : Job → NdfLcoreJob
  memory : Memory (ListHead Job)

variable {Job : Type} [DecidableEq Job]

namespace LcoreJobs

/-- `ndf_scheduler_init`. -/
def ndfSchedulerInit (w : LcoreJobs Job) : Ret × LcoreJobs Job :=
  (.ok, { w with
    memory :=
      { next := fun
          | .ndfLcoreJobs role type => .to (.ndfLcoreJobs role type)
          | .list job => w.memory.next (.list job)
        prev := fun
          | .ndfLcoreJobs role type => .to (.ndfLcoreJobs role type)
          | .list job => w.memory.prev (.list job) } })

/-- `ndf_lcore_job_init`; the array of the name has 32 bytes. -/
def ndfLcoreJobInit (w : LcoreJobs Job) (job : Option Job) (name : Bytes) (type : LcoreJobType)
    (func : Option Callback) (skipLoops : BitVec 32) : LcoreJobs Job :=
  match job with
  | none => w
  | some job =>
      { w with jobs := Function.update w.jobs job ⟨(text name).take 30, func, type, skipLoops⟩ }

/-- The search of a job on a list. -/
def listed (fuel : Nat) (w : LcoreJobs Job) (job : Job) (role : LcoreRole) (type : LcoreJobType) :
    Option Bool :=
  match w.memory.next (.ndfLcoreJobs role type) with
  | .to first => w.memory.search (.ndfLcoreJobs role type) (.list job) fuel first
  | _ => none

/-- `list_add_tail`. -/
def listAddTail (w : LcoreJobs Job) (job : Job) (role : LcoreRole) (type : LcoreJobType) :
    Option (LcoreJobs Job) :=
  match w.memory.prev (.ndfLcoreJobs role type) with
  | .to prev =>
      some { w with memory := w.memory.insert (.list job) prev (.ndfLcoreJobs role type) }
  | _ => none

/-- `list_del_init`. -/
def listDelInit (w : LcoreJobs Job) (job : Job) : Option (LcoreJobs Job) :=
  match w.memory.prev (.list job), w.memory.next (.list job) with
  | .to prev, .to next => some { w with memory := w.memory.isolate (.list job) prev next }
  | _, _ => none

/-- `ndf_lcore_job_register`; the fuel bounds the nodes of the list that is searched. -/
def ndfLcoreJobRegister (fuel : Nat) (w : LcoreJobs Job) (lcoreJob : Option Job)
    (role : LcoreRole) : Option (Ret × LcoreJobs Job) :=
  match lcoreJob with
  | none => some (.inval, w)
  | some job =>
      let { type, skipLoops, .. } := w.jobs job
      if role = .max then some (.inval, w)
      else if type = .slow ∧ skipLoops = 0 then some (.inval, w)
      else do
        if ← w.listed fuel job role type then return (.exist, w)
        let w ← w.listAddTail job role type
        return (.ok, w)

/-- `ndf_lcore_job_unregister`. -/
def ndfLcoreJobUnregister (fuel : Nat) (w : LcoreJobs Job) (lcoreJob : Option Job)
    (role : LcoreRole) : Option (Ret × LcoreJobs Job) :=
  match lcoreJob with
  | none => some (.inval, w)
  | some job =>
      if role = .max then some (.inval, w)
      else do
        if ← w.listed fuel job role (w.jobs job).type then
          let w ← w.listDelInit job
          return (.ok, w)
        return (.notexist, w)

end LcoreJobs

/-! ## The registry -/

/-- The jobs of each role and type, in the order of their registration. -/
structure Registry (Job : Type) where
  jobs : Job → NdfLcoreJob
  lists : LcoreRole × LcoreJobType → List Job

namespace Registry

/-- No job is registered. -/
def empty (jobs : Job → NdfLcoreJob) : Registry Job := ⟨jobs, fun _ => []⟩

/-- Where a job is put for a role. -/
def place (reg : Registry Job) (job : Job) (role : LcoreRole) : LcoreRole × LcoreJobType :=
  (role, (reg.jobs job).type)

def setList (reg : Registry Job) (place : LcoreRole × LcoreJobType) (list : List Job) :
    Registry Job :=
  { reg with lists := Function.update reg.lists place list }

/-- The job may be registered for the role. -/
def Valid (reg : Registry Job) (job : Job) (role : LcoreRole) : Prop :=
  role ≠ .max ∧ ((reg.jobs job).type = .slow → (reg.jobs job).skipLoops ≠ 0)

instance (reg : Registry Job) (job : Job) (role : LcoreRole) : Decidable (reg.Valid job role) :=
  inferInstanceAs (Decidable (_ ∧ _))

/-- A job is put behind the others of its place. -/
def register (reg : Registry Job) (job : Option Job) (role : LcoreRole) : Ret × Registry Job :=
  match job with
  | none => (.inval, reg)
  | some job =>
      let place := reg.place job role
      if ¬reg.Valid job role then (.inval, reg)
      else if job ∈ reg.lists place then (.exist, reg)
      else (.ok, reg.setList place (reg.lists place ++ [job]))

/-- A job is taken off. -/
def unregister (reg : Registry Job) (job : Option Job) (role : LcoreRole) : Ret × Registry Job :=
  match job with
  | none => (.inval, reg)
  | some job =>
      let place := reg.place job role
      if role = .max then (.inval, reg)
      else if job ∈ reg.lists place then
        (.ok, reg.setList place ((reg.lists place).erase job))
      else (.notexist, reg)

/-- The job is on no list but one. -/
def Apart (reg : Registry Job) (job : Job) (place : LcoreRole × LcoreJobType) : Prop :=
  ∀ other, job ∈ reg.lists other → other = place

end Registry

/-! ## Refinement -/

/-- The head of the list of a place. -/
def headOf (Job : Type) (place : LcoreRole × LcoreJobType) : ListHead Job :=
  .ndfLcoreJobs place.1 place.2

/-- The nodes of the jobs of a place. -/
def Registry.nodes (reg : Registry Job) (place : LcoreRole × LcoreJobType) :
    List (ListHead Job) := (reg.lists place).map .list

/-- The memory holds the lists of the registry. -/
structure Shows (w : LcoreJobs Job) (reg : Registry Job) : Prop where
  jobs : w.jobs = reg.jobs
  family : Family w.memory (headOf Job) reg.nodes

section Refinement

variable {w : LcoreJobs Job} {reg : Registry Job} {job : Job} {role : LcoreRole}
  {place : LcoreRole × LcoreJobType} {fuel : Nat}

omit [DecidableEq Job] in
theorem shows_init (w : LcoreJobs Job) : Shows w.ndfSchedulerInit.2 (.empty w.jobs) where
  jobs := rfl
  family := by
    refine ⟨fun place => ring_nil.mpr ⟨rfl, rfl⟩, fun place => List.nodup_singleton _, ?_⟩
    intro ⟨role, type⟩ ⟨role', type'⟩ node here there
    cases List.mem_singleton.mp here
    cases List.mem_singleton.mp there
    rfl

omit [DecidableEq Job] in
theorem headOf_not_mem : headOf Job place ∉ reg.nodes place := by
  simp [headOf, Registry.nodes]

omit [DecidableEq Job] in
theorem mem_nodes : ListHead.list job ∈ reg.nodes place ↔ job ∈ reg.lists place := by
  simp [Registry.nodes]

/-- The search tells whether the job is registered. -/
theorem Shows.listed (shows : Shows w reg)
    (enough : (reg.lists (reg.place job role)).length < fuel) :
    w.listed fuel job role (reg.jobs job).type =
      some (decide (job ∈ reg.lists (reg.place job role))) := by
  have ring := shows.family.rings (reg.place job role)
  have length : (reg.nodes (reg.place job role)).length < fuel := by
    rwa [Registry.nodes, List.length_map]
  have found := ring.search (x := .list job) headOf_not_mem length
  rw [LcoreJobs.listed,
    show w.memory.next (.ndfLcoreJobs role (reg.jobs job).type) = _ from ring.next_head]
  refine found.trans ?_
  rw [Option.some.injEq, decide_eq_decide]
  exact mem_nodes

omit [DecidableEq Job] in
theorem nodes_setList (list : List Job) :
    (reg.setList place list).nodes = Function.update reg.nodes place (list.map .list) := by
  funext other
  rw [Registry.nodes, Registry.setList]
  dsimp only
  by_cases here : other = place
  · subst here
    rw [Function.update_self, Function.update_self]
  · rw [Function.update_of_ne here, Function.update_of_ne here]
    rfl

/-- A job that is on no list is put on one. -/
theorem Shows.listAddTail (shows : Shows w reg) (free : ∀ other, job ∉ reg.lists other)
    (place : LcoreRole × LcoreJobType) :
    ∃ w', w.listAddTail job place.1 place.2 = some w' ∧
      Shows w' (reg.setList place (reg.lists place ++ [job])) := by
  have before := (shows.family.rings place).prev_head
  have outside : ∀ other, .list job ∉ headOf Job other :: reg.nodes other := by
    intro other inside
    cases List.mem_cons.mp inside with
    | inl same => cases same
    | inr member => exact free other (mem_nodes.mp member)
  refine ⟨_, by rw [LcoreJobs.listAddTail, show w.memory.prev (.ndfLcoreJobs place.1 place.2) = _
    from before], ?_⟩
  refine ⟨shows.jobs, ?_⟩
  rw [nodes_setList, List.map_append]
  exact shows.family.insert outside place

/-- A job is taken off its list. -/
theorem Shows.listDelInit (shows : Shows w reg) (member : job ∈ reg.lists place) :
    ∃ w', w.listDelInit job = some w' ∧
      Shows w' (reg.setList place ((reg.lists place).erase job)) := by
  obtain ⟨prev, next, before, behind, family⟩ := shows.family.isolate (mem_nodes.mpr member)
  refine ⟨_, by rw [LcoreJobs.listDelInit, before, behind], ?_⟩
  refine ⟨shows.jobs, ?_⟩
  have injective : Function.Injective (ListHead.list : Job → ListHead Job) := fun _ _ same =>
    ListHead.list.inj same
  rw [nodes_setList, List.map_erase injective]
  exact family

/-- The job is registered in memory as it is in the registry. -/
theorem Shows.register (shows : Shows w reg)
    (enough : (reg.lists (reg.place job role)).length < fuel)
    (apart : reg.Apart job (reg.place job role)) :
    ∃ w', w.ndfLcoreJobRegister fuel (some job) role = some ((reg.register (some job) role).1, w') ∧
      Shows w' (reg.register (some job) role).2 := by
  rw [LcoreJobs.ndfLcoreJobRegister, Registry.register, shows.jobs]
  dsimp only
  by_cases valid : reg.Valid job role
  · have slow : ¬((reg.jobs job).type = .slow ∧ (reg.jobs job).skipLoops = 0) :=
      fun ⟨slow, zero⟩ => valid.2 slow zero
    rw [if_neg valid.1, if_neg slow, if_neg (not_not.mpr valid), shows.listed enough]
    rw [Option.bind_eq_bind, Option.bind_some]
    by_cases member : job ∈ reg.lists (reg.place job role)
    · rw [if_pos member]
      exact ⟨w, if_pos (decide_eq_true member), shows⟩
    · rw [if_neg member]
      have free : ∀ other, job ∉ reg.lists other := fun other inside =>
        member (apart other inside ▸ inside)
      obtain ⟨w', added, after⟩ := shows.listAddTail free (reg.place job role)
      refine ⟨w', ?_, after⟩
      rw [if_neg fun found => member (of_decide_eq_true found),
        show w.listAddTail job role (reg.jobs job).type = _ from added]
      rfl
  · rw [if_pos valid]
    refine ⟨w, ?_, shows⟩
    by_cases max : role = .max
    · rw [if_pos max]
    · have slow : (reg.jobs job).type = .slow ∧ (reg.jobs job).skipLoops = 0 := by
        rw [Registry.Valid, not_and, Classical.not_imp, not_not] at valid
        exact valid max
      rw [if_neg max, if_pos slow]

/-- A job that is on another list breaks that list: no registry is left. -/
theorem Shows.register_breaks (shows : Shows w reg)
    (enough : (reg.lists (reg.place job role)).length < fuel) (valid : reg.Valid job role)
    (new : job ∉ reg.lists (reg.place job role)) (elsewhere : job ∈ reg.lists place) :
    ∃ w', w.ndfLcoreJobRegister fuel (some job) role = some (.ok, w') ∧
      ∀ reg' : Registry Job, ¬Shows w' reg' := by
  have slow : ¬((reg.jobs job).type = .slow ∧ (reg.jobs job).skipLoops = 0) :=
    fun ⟨slow, zero⟩ => valid.2 slow zero
  have last := (shows.family.rings (reg.place job role)).prev_head
  have other : reg.place job role ≠ place := by
    rintro rfl
    exact new elsewhere
  refine ⟨{ w with
    memory := w.memory.insert (.list job)
      ((reg.nodes (reg.place job role)).getLast?.getD (headOf Job (reg.place job role)))
      (headOf Job (reg.place job role)) }, ?_, ?_⟩
  · rw [LcoreJobs.ndfLcoreJobRegister, shows.jobs]
    dsimp only
    rw [if_neg valid.1, if_neg slow, shows.listed enough, Option.bind_eq_bind, Option.bind_some,
      if_neg fun found => new (of_decide_eq_true found), LcoreJobs.listAddTail,
      show w.memory.prev (.ndfLcoreJobs role (reg.jobs job).type) = _ from last, ← shows.jobs]
    rfl
  · intro reg' after
    have ring := after.family.rings place
    have begins := ring.next_head
    have breaks := shows.family.insert_breaks (mem_nodes.mpr elsewhere) other
      ((reg'.nodes place).length + 1) begins
    have walks := ring.walk headOf_not_mem (Nat.lt_succ_self _)
    rw [breaks] at walks
    cases walks

/-- The job is taken off in memory as it is in the registry. -/
theorem Shows.unregister (shows : Shows w reg)
    (enough : (reg.lists (reg.place job role)).length < fuel) :
    ∃ w', w.ndfLcoreJobUnregister fuel (some job) role =
        some ((reg.unregister (some job) role).1, w') ∧
      Shows w' (reg.unregister (some job) role).2 := by
  rw [LcoreJobs.ndfLcoreJobUnregister, Registry.unregister, shows.jobs]
  by_cases max : role = .max
  · rw [if_pos max, if_pos max]
    exact ⟨w, rfl, shows⟩
  · rw [if_neg max, if_neg max, shows.listed enough]
    rw [Option.bind_eq_bind, Option.bind_some]
    by_cases member : job ∈ reg.lists (reg.place job role)
    · rw [if_pos member]
      obtain ⟨w', removed, after⟩ := shows.listDelInit member
      refine ⟨w', ?_, after⟩
      rw [if_pos (decide_eq_true member), removed]
      rfl
    · rw [if_neg member]
      exact ⟨w, if_neg fun found => member (of_decide_eq_true found), shows⟩

end Refinement

/-! ## Runs -/

/-- What is called while no lcore runs its jobs. -/
inductive Op (Job : Type) where
  | jobInit (job : Option Job) (name : Bytes) (type : LcoreJobType) (func : Option Callback)
      (skipLoops : BitVec 32)
  | register (job : Option Job) (role : LcoreRole)
  | unregister (job : Option Job) (role : LcoreRole)

/-- A call on the jobs in memory. -/
def Op.run (fuel : Nat) (w : LcoreJobs Job) : Op Job → Option (Ret × LcoreJobs Job)
  | .jobInit job name type func skipLoops =>
      some (.ok, w.ndfLcoreJobInit job name type func skipLoops)
  | .register job role => w.ndfLcoreJobRegister fuel job role
  | .unregister job role => w.ndfLcoreJobUnregister fuel job role

/-- A call on the registry. -/
def Op.apply (reg : Registry Job) : Op Job → Ret × Registry Job
  | .jobInit none _ _ _ _ => (.ok, reg)
  | .jobInit (some job) name type func skipLoops =>
      (.ok, { reg with
        jobs := Function.update reg.jobs job ⟨(text name).take 30, func, type, skipLoops⟩ })
  | .register job role => reg.register job role
  | .unregister job role => reg.unregister job role

/-- A job is not registered at a second place, nor initialized while it is registered. -/
def Op.Orderly (reg : Registry Job) : Op Job → Prop
  | .jobInit (some job) _ _ _ _ => ∀ place, job ∉ reg.lists place
  | .register (some job) role => reg.Apart job (reg.place job role)
  | _ => True

/-- The calls of a run, with what they return. -/
def runOps (fuel : Nat) : List (Op Job) → LcoreJobs Job → Option (List Ret × LcoreJobs Job)
  | [], w => some ([], w)
  | op :: ops, w => do
      let (ret, w) ← op.run fuel w
      let (rets, w) ← runOps fuel ops w
      return (ret :: rets, w)

def applyOps : List (Op Job) → Registry Job → List Ret × Registry Job
  | [], reg => ([], reg)
  | op :: ops, reg =>
      let (ret, reg) := op.apply reg
      let (rets, reg) := applyOps ops reg
      (ret :: rets, reg)

/-- Every call of the run is orderly. -/
def Orderly : List (Op Job) → Registry Job → Prop
  | [], _ => True
  | op :: ops, reg => op.Orderly reg ∧ Orderly ops (op.apply reg).2

section Runs

variable {w : LcoreJobs Job} {reg : Registry Job} {op : Op Job} {ops : List (Op Job)}
  {fuel : Nat}

/-- A bound for the lists of the registry. -/
def Registry.Within (bound : Nat) (reg : Registry Job) : Prop :=
  ∀ place, (reg.lists place).length ≤ bound

omit [DecidableEq Job] in
theorem within_setList {bound : Nat} {place : LcoreRole × LcoreJobType} {list : List Job}
    (within : reg.Within bound) (short : list.length ≤ bound) :
    (reg.setList place list).Within bound := by
  intro other
  rw [Registry.setList]
  dsimp only
  by_cases here : other = place
  · subst here
    rwa [Function.update_self]
  · rw [Function.update_of_ne here]
    exact within other

theorem Op.apply_within {bound : Nat} (within : reg.Within bound) :
    (op.apply reg).2.Within (bound + 1) := by
  have wider : reg.Within (bound + 1) := fun place => Nat.le_succ_of_le (within place)
  cases op with
  | jobInit job name type func skipLoops => cases job <;> exact wider
  | register job role =>
      cases job with
      | none => exact wider
      | some job =>
          rw [Op.apply, Registry.register]
          split
          next => exact wider
          next =>
            split
            next => exact wider
            next =>
              apply within_setList wider
              rw [List.length_append]
              exact Nat.succ_le_succ (within _)
  | unregister job role =>
      cases job with
      | none => exact wider
      | some job =>
          rw [Op.apply, Registry.unregister]
          split
          next => exact wider
          next =>
            split
            next => exact within_setList wider ((List.length_erase_le).trans (wider _))
            next => exact wider

/-- **One call.** An orderly call does in memory what it does to the registry. -/
theorem Shows.run {bound : Nat} (shows : Shows w reg) (within : reg.Within bound)
    (enough : bound < fuel) (orderly : op.Orderly reg) :
    ∃ w', op.run fuel w = some ((op.apply reg).1, w') ∧ Shows w' (op.apply reg).2 := by
  cases op with
  | jobInit job name type func skipLoops =>
      cases job with
      | none => exact ⟨w, rfl, shows⟩
      | some job =>
          refine ⟨_, rfl, ?_, shows.family⟩
          rw [LcoreJobs.ndfLcoreJobInit, shows.jobs]
          rfl
  | register job role =>
      cases job with
      | none => exact ⟨w, rfl, shows⟩
      | some job => exact shows.register ((within _).trans_lt enough) orderly
  | unregister job role =>
      cases job with
      | none => exact ⟨w, rfl, shows⟩
      | some job => exact shows.unregister ((within _).trans_lt enough)

/-- **Every run.** Orderly calls do in memory what they do to the registry. -/
theorem Shows.runOps {bound : Nat} (shows : Shows w reg) (within : reg.Within bound)
    (enough : bound + ops.length < fuel) (orderly : Orderly ops reg) :
    ∃ w', runOps fuel ops w = some ((applyOps ops reg).1, w') ∧
      Shows w' (applyOps ops reg).2 := by
  induction ops generalizing w reg bound with
  | nil => exact ⟨w, rfl, shows⟩
  | cons op ops ih =>
      rw [List.length_cons, Nat.add_comm ops.length, ← Nat.add_assoc] at enough
      have short : bound < fuel := Nat.lt_of_le_of_lt (Nat.le_add_right _ _)
        (Nat.lt_of_le_of_lt (Nat.le_add_right _ _) enough)
      obtain ⟨middle, ran, between⟩ := shows.run within short orderly.1
      obtain ⟨w', rest, after⟩ := ih between (Op.apply_within within) enough orderly.2
      refine ⟨w', ?_, after⟩
      rw [Sched.runOps, ran, Option.bind_eq_bind, Option.bind_some]
      dsimp only
      rw [rest]
      rfl

theorem applyOps_within {bound : Nat} (within : reg.Within bound) :
    (applyOps ops reg).2.Within (bound + ops.length) := by
  induction ops generalizing reg bound with
  | nil => exact within
  | cons op ops ih =>
      rw [List.length_cons, Nat.add_comm ops.length, ← Nat.add_assoc]
      exact ih (Op.apply_within within)

/-- After every orderly run from the initialization, the memory holds the lists of the registry
and every call has returned what it should; and then a new job can be registered with the lists
left in order if and only if it is on none of them. -/
theorem registry_refined (w : LcoreJobs Job) (ops : List (Op Job)) (enough : ops.length < fuel)
    (orderly : Orderly ops (.empty w.jobs)) :
    ∃ w', runOps fuel ops w.ndfSchedulerInit.2 =
        some ((applyOps ops (.empty w.jobs)).1, w') ∧
      Shows w' (applyOps ops (.empty w.jobs)).2 ∧
      ∀ job role, (applyOps ops (.empty w.jobs)).2.Valid job role →
        job ∉ (applyOps ops (.empty w.jobs)).2.lists
          ((applyOps ops (.empty w.jobs)).2.place job role) →
        ((∃ w'' reg'', w'.ndfLcoreJobRegister fuel (some job) role = some (.ok, w'') ∧
            Shows w'' reg'') ↔
          ∀ place, job ∉ (applyOps ops (.empty w.jobs)).2.lists place) := by
  have none : (Registry.empty w.jobs).Within 0 := fun _ => le_rfl
  obtain ⟨w', ran, shows⟩ := (shows_init w).runOps none (by rwa [Nat.zero_add]) orderly
  have within : (applyOps ops (.empty w.jobs)).2.Within (0 + ops.length) := applyOps_within none
  rw [Nat.zero_add] at within
  refine ⟨w', ran, shows, fun job role valid new => ?_⟩
  generalize (applyOps ops (.empty w.jobs)).2 = reg at shows within valid new
  have short := (within (reg.place job role)).trans_lt enough
  constructor
  · rintro ⟨w'', reg'', registered, after⟩ place member
    obtain ⟨broken, result, none⟩ := shows.register_breaks short valid new member
    rw [registered, Option.some.injEq, Prod.mk.injEq] at result
    exact none reg'' (result.2 ▸ after)
  · intro free
    have apart : reg.Apart job (reg.place job role) := fun other member =>
      absurd member (free other)
    obtain ⟨w'', registered, after⟩ := shows.register short apart
    have ok : (reg.register (some job) role).1 = .ok := by
      rw [Registry.register, if_neg (not_not.mpr valid), if_neg new]
    exact ⟨w'', _, ok ▸ registered, after⟩

end Runs

end NetDefender.Sched
