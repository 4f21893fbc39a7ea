import Mathlib.Data.Nat.ModEq
import NetDefender.Sched.Registry

/-!
# The turns of an lcore

`ndf_job_loop` of `scheduler.c`, which calls the jobs of the role of an lcore turn by turn, and the
jobs that the program registers.  The jobs leave the registry as it is while lcores run; a call
is told by its job.  `none` is a fault, or a list that does not lead back to its head.
-/

namespace NetDefender.Sched

open CString Netif Rings

variable {Job : Type} [DecidableEq Job]

/-! ## The loop -/

/-- The job of a node; the head of another list is none. -/
def ListHead.job? : ListHead Job → Option Job
  | .list job => some job
  | .ndfLcoreJobs .. => none

namespace LcoreJobs

/-- The jobs that `list_for_each_entry` finds. -/
def jobList (fuel : Nat) (w : LcoreJobs Job) (role : LcoreRole) (type : LcoreJobType) :
    Option (List Job) :=
  match w.memory.next (.ndfLcoreJobs role type) with
  | .to first => do
      let nodes ← w.memory.walk (.ndfLcoreJobs role type) fuel first
      nodes.mapM ListHead.job?
  | _ => none

/-- `do_lcore_job`: a job without a function is not called. -/
def doLcoreJob (w : LcoreJobs Job) (job : Job) : List Job :=
  if (w.jobs job).func.isSome then [job] else []

/-- A slow job, at a tick; the remainder by 0 is a fault. -/
def doSlowJob (w : LcoreJobs Job) (tick : BitVec 32) (job : Job) : Option (List Job) :=
  let { skipLoops, .. } := w.jobs job
  if skipLoops = 0 then none
  else if tick % skipLoops = 0 then some (w.doLcoreJob job)
  else some []

/-- One turn of the loop, from the value of `this_poll_tick` in front of it. -/
def turn (fuel : Nat) (w : LcoreJobs Job) (role : LcoreRole) (tick : BitVec 32) :
    Option (List Job) := do
  let tick := tick + 1
  let loops ← w.jobList fuel role .loop
  let slows ← w.jobList fuel role .slow
  let due ← slows.mapM (w.doSlowJob tick)
  return loops.flatMap w.doLcoreJob ++ due.flatten

/-- A number of turns. -/
def turns (fuel : Nat) (w : LcoreJobs Job) (role : LcoreRole) :
    Nat → BitVec 32 → Option (List (List Job))
  | 0, _ => some []
  | count + 1, tick => do
      let first ← w.turn fuel role tick
      let more ← w.turns fuel role count (tick + 1)
      return first :: more

end LcoreJobs

/-- What `ndf_job_loop` does: it returns, or calls the jobs of the initialization and goes on
turn by turn. -/
inductive LoopState (Job : Type) where
  | returned (ret : Ret)
  | looping (first : List Job) (turns : List (List Job))
  deriving DecidableEq, Repr

/-- `ndf_job_loop`, with `NDF_MAX_LCORE` and a number of turns. -/
def LcoreJobs.ndfJobLoop (fuel maxLcore : Nat) (w : LcoreJobs Job) (lcoreRole : Nat → LcoreRole)
    (cid : Nat) (tick : BitVec 32) (count : Nat) : Option (LoopState Job) :=
  let role := lcoreRole cid
  if cid ≥ maxLcore then some (.returned .ok)
  else if role = .max then some (.returned .inval)
  else if role = .idle then some (.returned .idle)
  else do
    let inits ← w.jobList fuel role .init
    let turns ← w.turns fuel role count tick
    return .looping (inits.flatMap w.doLcoreJob) turns

/-! ## What the registry says -/

namespace Registry

/-- A job that is called if its turn comes. -/
def called (reg : Registry Job) (jobs : List Job) : List Job :=
  jobs.filter fun job => (reg.jobs job).func.isSome

/-- The slow job is due at a tick. -/
def due (reg : Registry Job) (tick : Nat) (job : Job) : Bool :=
  (reg.jobs job).skipLoops.toNat ∣ tick % 2 ^ 32

/-- The jobs of a turn: those of each turn, then the slow ones that are due. -/
def turn (reg : Registry Job) (role : LcoreRole) (tick : Nat) : List Job :=
  reg.called (reg.lists (role, .loop)) ++
    (reg.called (reg.lists (role, .slow))).filter (reg.due tick)

/-- The jobs of a list are of its type, and a slow one skips some turns. -/
structure Typed (reg : Registry Job) : Prop where
  type : ∀ place, ∀ job ∈ reg.lists place, (reg.jobs job).type = place.2
  slow : ∀ role, ∀ job ∈ reg.lists (role, .slow), (reg.jobs job).skipLoops ≠ 0

end Registry

section Turns

variable {w : LcoreJobs Job} {reg : Registry Job} {role : LcoreRole} {fuel : Nat}
  {op : Op Job} {ops : List (Op Job)}

omit [DecidableEq Job] in
theorem typed_empty (jobs : Job → NdfLcoreJob) : (Registry.empty jobs).Typed :=
  ⟨fun _ _ none => (List.not_mem_nil none).elim, fun _ _ none => (List.not_mem_nil none).elim⟩

omit [DecidableEq Job] in
/-- A list that holds no job that should not be there. -/
theorem Registry.Typed.setList (typed : reg.Typed) {place : LcoreRole × LcoreJobType}
    {list : List Job} (fits : ∀ job ∈ list, (reg.jobs job).type = place.2 ∧
      (place.2 = .slow → (reg.jobs job).skipLoops ≠ 0)) : (reg.setList place list).Typed := by
  constructor
  · intro other job member
    rw [Registry.setList] at member
    dsimp only at member
    by_cases here : other = place
    · subst here
      rw [Function.update_self] at member
      exact (fits job member).1
    · rw [Function.update_of_ne here] at member
      exact typed.type other job member
  · intro role job member
    rw [Registry.setList] at member
    dsimp only at member
    by_cases here : (role, .slow) = place
    · subst here
      rw [Function.update_self] at member
      exact (fits job member).2 rfl
    · rw [Function.update_of_ne here] at member
      exact typed.slow role job member

omit [DecidableEq Job] in
theorem Registry.Typed.fits (typed : reg.Typed) {place : LcoreRole × LcoreJobType} {job : Job}
    (member : job ∈ reg.lists place) : (reg.jobs job).type = place.2 ∧
      (place.2 = .slow → (reg.jobs job).skipLoops ≠ 0) := by
  obtain ⟨role, type⟩ := place
  refine ⟨typed.type _ job member, ?_⟩
  rintro rfl
  exact typed.slow role job member

theorem Op.apply_typed (typed : reg.Typed) (orderly : op.Orderly reg) :
    (op.apply reg).2.Typed := by
  cases op with
  | jobInit job name type func skipLoops =>
      cases job with
      | none => exact typed
      | some job =>
          have keeps : ∀ place, ∀ other ∈ reg.lists place, other ≠ job := by
            rintro place _ member rfl
            exact orderly place member
          constructor
          · intro place other member
            rw [Op.apply]
            dsimp only
            rw [Function.update_of_ne (keeps place other member)]
            exact typed.type place other member
          · intro role other member
            rw [Op.apply]
            dsimp only
            rw [Function.update_of_ne (keeps _ other member)]
            exact typed.slow role other member
  | register job role =>
      cases job with
      | none => exact typed
      | some job =>
          rw [Op.apply, Registry.register]
          split
          next => exact typed
          next valid =>
            split
            next => exact typed
            next =>
              apply typed.setList
              refine List.forall_mem_append.mpr ⟨fun other => typed.fits, ?_⟩
              exact List.forall_mem_singleton.mpr ⟨rfl, (not_not.mp valid).2⟩
  | unregister job role =>
      cases job with
      | none => exact typed
      | some job =>
          rw [Op.apply, Registry.unregister]
          split
          next => exact typed
          next =>
            split
            next => exact typed.setList fun other member => typed.fits (List.mem_of_mem_erase member)
            next => exact typed

theorem applyOps_typed (typed : reg.Typed) (orderly : Orderly ops reg) :
    (applyOps ops reg).2.Typed := by
  induction ops generalizing reg with
  | nil => exact typed
  | cons op ops ih => exact ih (Op.apply_typed typed orderly.1) orderly.2

/-! ## A turn -/

omit [DecidableEq Job] in
theorem mapM_list (jobs : List Job) : (jobs.map .list).mapM ListHead.job? = some jobs := by
  induction jobs with
  | nil => rfl
  | cons job jobs ih =>
      rw [List.map_cons, List.mapM_cons, ih]
      rfl

theorem Shows.jobList {type : LcoreJobType} (shows : Shows w reg)
    (enough : (reg.lists (role, type)).length < fuel) :
    w.jobList fuel role type = some (reg.lists (role, type)) := by
  have ring := shows.family.rings (role, type)
  have length : (reg.nodes (role, type)).length < fuel := by
    rwa [Registry.nodes, List.length_map]
  have walk := ring.walk headOf_not_mem length
  rw [LcoreJobs.jobList, show w.memory.next (.ndfLcoreJobs role type) = _ from ring.next_head]
  dsimp only
  rw [show w.memory.walk (.ndfLcoreJobs role type) fuel _ = _ from walk, Option.bind_eq_bind,
    Option.bind_some]
  exact mapM_list _

omit [DecidableEq Job] in
theorem Shows.doLcoreJob (shows : Shows w reg) (jobs : List Job) :
    jobs.flatMap w.doLcoreJob = reg.called jobs := by
  induction jobs with
  | nil => rfl
  | cons job jobs ih =>
      rw [List.flatMap_cons, ih, LcoreJobs.doLcoreJob, shows.jobs, Registry.called,
        Registry.called, List.filter_cons]
      split <;> rfl

omit [DecidableEq Job] in
theorem due_iff (tick : BitVec 32) (job : Job) :
    (tick + 1) % (reg.jobs job).skipLoops = 0 ↔ reg.due (tick.toNat + 1) job = true := by
  rw [Registry.due, decide_eq_true_iff, ← BitVec.toNat_inj, BitVec.toNat_umod, BitVec.toNat_add,
    Nat.dvd_iff_mod_eq_zero]
  rfl

omit [DecidableEq Job] in
/-- A slow job is called if it is due. -/
theorem Shows.doSlowJob_eq (shows : Shows w reg) (tick : BitVec 32) {job : Job}
    (skips : (reg.jobs job).skipLoops ≠ 0) :
    w.doSlowJob (tick + 1) job =
      some ((reg.called [job]).filter (reg.due (tick.toNat + 1))) := by
  have alone := shows.doLcoreJob [job]
  rw [List.flatMap_singleton] at alone
  rw [LcoreJobs.doSlowJob, shows.jobs]
  dsimp only
  rw [if_neg skips, alone]
  by_cases due : reg.due (tick.toNat + 1) job = true
  · have all : (reg.called [job]).filter (reg.due (tick.toNat + 1)) = reg.called [job] := by
      rw [List.filter_eq_self]
      intro other member
      cases List.mem_singleton.mp (List.mem_of_mem_filter member)
      exact due
    rw [if_pos ((due_iff tick job).mpr due), all]
  · have none : (reg.called [job]).filter (reg.due (tick.toNat + 1)) = [] := by
      rw [List.filter_eq_nil_iff]
      intro other member
      cases List.mem_singleton.mp (List.mem_of_mem_filter member)
      exact due
    rw [if_neg (mt (due_iff tick job).mp due), none]

omit [DecidableEq Job] in
/-- The slow jobs of a turn. -/
theorem Shows.doSlowJob (shows : Shows w reg) (tick : BitVec 32) {jobs : List Job}
    (skips : ∀ job ∈ jobs, (reg.jobs job).skipLoops ≠ 0) :
    (jobs.mapM (w.doSlowJob (tick + 1))).map List.flatten =
      some ((reg.called jobs).filter (reg.due (tick.toNat + 1))) := by
  induction jobs with
  | nil => rfl
  | cons job jobs ih =>
      obtain ⟨first, others⟩ := List.forall_mem_cons.mp skips
      obtain ⟨due, ran, flat⟩ := Option.map_eq_some_iff.mp (ih others)
      have split : reg.called (job :: jobs) = reg.called [job] ++ reg.called jobs :=
        List.filter_append [job] jobs
      rw [List.mapM_cons, shows.doSlowJob_eq tick first, ran, split, List.filter_append, ← flat]
      rfl

theorem Shows.turn {bound : Nat} (shows : Shows w reg) (typed : reg.Typed)
    (within : reg.Within bound) (enough : bound < fuel) (role : LcoreRole) (tick : BitVec 32) :
    w.turn fuel role tick = some (reg.turn role (tick.toNat + 1)) := by
  obtain ⟨due, slow, flat⟩ := Option.map_eq_some_iff.mp (shows.doSlowJob tick (typed.slow role))
  rw [LcoreJobs.turn, shows.jobList ((within _).trans_lt enough),
    shows.jobList ((within _).trans_lt enough)]
  dsimp only [Option.bind_eq_bind, Option.bind_some]
  rw [slow, Option.bind_some, shows.doLcoreJob, flat]
  rfl

omit [DecidableEq Job] in
/-- A turn is told by the tick modulo its range. -/
theorem turn_mod (role : LcoreRole) (tick : Nat) :
    reg.turn role (tick % 2 ^ 32) = reg.turn role tick := by
  have same : reg.due (tick % 2 ^ 32) = reg.due tick := by
    funext job
    rw [Registry.due, Registry.due, Nat.mod_mod]
  rw [Registry.turn, Registry.turn, same]

/-- **Every number of turns.** -/
theorem Shows.turns {bound : Nat} (shows : Shows w reg) (typed : reg.Typed)
    (within : reg.Within bound) (enough : bound < fuel) (role : LcoreRole) (count : Nat)
    (tick : BitVec 32) :
    w.turns fuel role count tick =
      some ((List.range count).map fun k => reg.turn role (tick.toNat + k + 1)) := by
  induction count generalizing tick with
  | zero => rfl
  | succ count ih =>
      have later : ∀ k, reg.turn role ((tick + 1).toNat + k + 1) =
          reg.turn role (tick.toNat + (k + 1) + 1) := by
        intro k
        rw [← turn_mod, BitVec.toNat_add, Nat.add_assoc, Nat.mod_add_mod, turn_mod]
        congr 1
        change tick.toNat + 1 + (k + 1) = tick.toNat + (k + 1) + 1
        rw [Nat.add_right_comm]
      rw [LcoreJobs.turns, shows.turn typed within enough, ih, List.range_succ_eq_map,
        List.map_cons, List.map_map]
      simp only [later]
      rfl

/-! ## What is called -/

omit [DecidableEq Job] in
theorem mem_called {jobs : List Job} {job : Job} :
    job ∈ reg.called jobs ↔ job ∈ jobs ∧ (reg.jobs job).func.isSome := List.mem_filter

omit [DecidableEq Job] in
theorem mem_turn {tick : Nat} {job : Job} :
    job ∈ reg.turn role tick ↔ job ∈ reg.called (reg.lists (role, .loop)) ∨
      job ∈ reg.called (reg.lists (role, .slow)) ∧ reg.due tick job = true := by
  rw [Registry.turn, List.mem_append, List.mem_filter]

omit [DecidableEq Job] in
/-- Among as many ticks in a row as a slow job skips, it is due at one, also where the ticks
start again from 0. -/
theorem due_within (job : Job) (skips : (reg.jobs job).skipLoops ≠ 0) (start : Nat) :
    ∃ wait < (reg.jobs job).skipLoops.toNat, reg.due (start + wait) job = true := by
  simp only [Registry.due, decide_eq_true_iff]
  have positive : 0 < (reg.jobs job).skipLoops.toNat :=
    Nat.pos_of_ne_zero fun zero => skips (BitVec.eq_of_toNat_eq zero)
  generalize (reg.jobs job).skipLoops.toNat = skip at positive
  by_cases wraps : 2 ^ 32 ≤ start % 2 ^ 32 + (skip - 1)
  · have short : start % 2 ^ 32 < 2 ^ 32 := Nat.mod_lt _ (Nat.two_pow_pos 32)
    refine ⟨2 ^ 32 - start % 2 ^ 32, by omega, ?_⟩
    rw [← Nat.mod_add_mod, Nat.add_sub_cancel' short.le, Nat.mod_self]
    exact Nat.dvd_zero skip
  · have rest : (skip - start % 2 ^ 32 % skip) % skip < skip := Nat.mod_lt _ positive
    refine ⟨(skip - start % 2 ^ 32 % skip) % skip, rest, ?_⟩
    rw [← Nat.mod_add_mod, Nat.mod_eq_of_lt (by omega), Nat.dvd_iff_mod_eq_zero,
      Nat.add_mod_mod, ← Nat.mod_add_mod,
      Nat.add_sub_cancel' (Nat.mod_lt _ positive).le, Nat.mod_self]

omit [DecidableEq Job] in
/-- No job is called twice in a turn. -/
theorem Shows.turn_nodup (shows : Shows w reg) (typed : reg.Typed) (role : LcoreRole)
    (tick : Nat) : (reg.turn role tick).Nodup := by
  have distinct : ∀ place, (reg.lists place).Nodup := fun place =>
    List.Nodup.of_map _ (List.nodup_cons.mp (shows.family.nodup place)).2
  rw [Registry.turn, List.nodup_append]
  refine ⟨(distinct _).filter _, ((distinct _).filter _).filter _, ?_⟩
  rintro job here _ there rfl
  have loop := typed.type _ job (mem_called.mp here).1
  have slow := typed.type _ job (mem_called.mp (List.mem_of_mem_filter there)).1
  rw [loop] at slow
  cases slow

omit [DecidableEq Job] in
/-- A job is on no two lists. -/
theorem Shows.apart (shows : Shows w reg) {job : Job} {here there : LcoreRole × LcoreJobType}
    (first : job ∈ reg.lists here) (second : job ∈ reg.lists there) : here = there :=
  shows.family.apart here there _ (List.mem_cons_of_mem _ (mem_nodes.mpr first))
    (List.mem_cons_of_mem _ (mem_nodes.mpr second))

omit [DecidableEq Job] in
/-- A job is called on the lcores of one role only. -/
theorem Shows.turn_role (shows : Shows w reg) {role' : LcoreRole} {tick tick' : Nat} {job : Job}
    (here : job ∈ reg.turn role tick) (there : job ∈ reg.turn role' tick') : role' = role := by
  have placed : ∀ {r : LcoreRole} {t : Nat}, job ∈ reg.turn r t →
      ∃ type, job ∈ reg.lists (r, type) := by
    intro r t member
    cases mem_turn.mp member with
    | inl loop => exact ⟨_, (mem_called.mp loop).1⟩
    | inr slow => exact ⟨_, (mem_called.mp slow.1).1⟩
  obtain ⟨type, first⟩ := placed here
  obtain ⟨type', second⟩ := placed there
  exact congrArg Prod.fst (shows.apart second first)

/-- **The loop.** An lcore that has a role calls the jobs of its role, turn by turn. -/
theorem Shows.ndfJobLoop {bound maxLcore cid : Nat} {lcoreRole : Nat → LcoreRole}
    (shows : Shows w reg) (typed : reg.Typed) (within : reg.Within bound) (enough : bound < fuel)
    (inside : cid < maxLcore) (notMax : lcoreRole cid ≠ .max) (notIdle : lcoreRole cid ≠ .idle)
    (tick : BitVec 32) (count : Nat) :
    w.ndfJobLoop fuel maxLcore lcoreRole cid tick count =
      some (.looping (reg.called (reg.lists (lcoreRole cid, .init)))
        ((List.range count).map fun k => reg.turn (lcoreRole cid) (tick.toNat + k + 1))) := by
  rw [LcoreJobs.ndfJobLoop, if_neg (Nat.not_le_of_lt inside), if_neg notMax, if_neg notIdle,
    shows.jobList ((within _).trans_lt enough), shows.turns typed within enough]
  rw [Option.bind_eq_bind, Option.bind_some, Option.bind_eq_bind, Option.bind_some,
    shows.doLcoreJob]
  rfl

/-- After every orderly run from the initialization, an lcore calls the jobs of its role that the
registry says and no others, for every number of turns and every tick to start from: in each turn
those of the loop, and of the slow ones those that are due; no job twice in a turn, none on lcores
of two roles, and each slow one within as many turns as it skips. -/
theorem lcore_turns (w : LcoreJobs Job) (ops : List (Op Job)) (enough : ops.length < fuel)
    (orderly : Orderly ops (.empty w.jobs)) :
    ∃ w' rets reg, runOps fuel ops w.ndfSchedulerInit.2 = some (rets, w') ∧
      applyOps ops (.empty w.jobs) = (rets, reg) ∧
      (∀ maxLcore lcoreRole cid tick count, cid < maxLcore → lcoreRole cid ≠ .max →
        lcoreRole cid ≠ .idle →
        w'.ndfJobLoop fuel maxLcore lcoreRole cid tick count =
          some (.looping (reg.called (reg.lists (lcoreRole cid, .init)))
            ((List.range count).map fun k => reg.turn (lcoreRole cid) (tick.toNat + k + 1)))) ∧
      ∀ role tick, (reg.turn role tick).Nodup ∧
        (∀ job ∈ reg.turn role tick, ∀ role' tick', job ∈ reg.turn role' tick' → role' = role) ∧
        ∀ job ∈ reg.called (reg.lists (role, .slow)),
          ∃ wait < (reg.jobs job).skipLoops.toNat, job ∈ reg.turn role (tick + wait) := by
  have none : (Registry.empty w.jobs).Within 0 := fun _ => le_rfl
  obtain ⟨w', ran, shows⟩ := (shows_init w).runOps none (by rwa [Nat.zero_add]) orderly
  have within : (applyOps ops (.empty w.jobs)).2.Within (0 + ops.length) := applyOps_within none
  have typed := applyOps_typed (typed_empty w.jobs) orderly
  rw [Nat.zero_add] at within
  refine ⟨w', _, (applyOps ops (.empty w.jobs)).2, ran, rfl, ?_, ?_⟩
  · intro maxLcore lcoreRole cid tick count inside notMax notIdle
    exact shows.ndfJobLoop typed within enough inside notMax notIdle tick count
  · intro role tick
    refine ⟨shows.turn_nodup typed role tick, ?_, ?_⟩
    · intro job here role' tick' there
      exact shows.turn_role here there
    · intro job member
      obtain ⟨wait, short, due⟩ :=
        due_within job (typed.slow role job (mem_called.mp member).1) tick
      exact ⟨wait, short, mem_turn.mpr (Or.inr ⟨member, due⟩)⟩

/-! ## Registrations -/

/-- Jobs that are registered one after the other. -/
def registrations (jobs : List (Job × LcoreRole)) : List (Op Job) :=
  jobs.map fun job => .register (some job.1) job.2

/-- The jobs of a place, in the order of their registration. -/
def Registry.placed (reg : Registry Job) (jobs : List (Job × LcoreRole))
    (place : LcoreRole × LcoreJobType) : List Job :=
  (jobs.filter fun job => reg.place job.1 job.2 = place).map Prod.fst

/-- Registrations of different jobs that are on no list are orderly, and put each of them behind
those of its place. -/
theorem applyOps_registrations {jobs : List (Job × LcoreRole)}
    (distinct : (jobs.map Prod.fst).Nodup) (valid : ∀ job ∈ jobs, reg.Valid job.1 job.2)
    (new : ∀ job ∈ jobs, ∀ place, job.1 ∉ reg.lists place) :
    Orderly (registrations jobs) reg ∧
      applyOps (registrations jobs) reg = (List.replicate jobs.length .ok,
        ⟨reg.jobs, fun place => reg.lists place ++ reg.placed jobs place⟩) := by
  induction jobs generalizing reg with
  | nil =>
      refine ⟨trivial, ?_⟩
      simp only [Registry.placed, List.filter_nil, List.map_nil, List.append_nil]
      rfl
  | cons job jobs ih =>
      obtain ⟨job, role⟩ := job
      obtain ⟨first, others⟩ := List.nodup_cons.mp distinct
      obtain ⟨valid, valids⟩ := List.forall_mem_cons.mp valid
      obtain ⟨free, frees⟩ := List.forall_mem_cons.mp new
      have put : (Op.register (some job) role).apply reg =
          (.ok, reg.setList (reg.place job role) (reg.lists (reg.place job role) ++ [job])) := by
        rw [Op.apply, Registry.register, if_neg (not_not.mpr valid), if_neg (free _)]
      have still : ∀ other ∈ jobs, ∀ place, other.1 ∉
          (reg.setList (reg.place job role) (reg.lists (reg.place job role) ++ [job])).lists
            place := by
        intro other member place
        rw [Registry.setList]
        dsimp only
        by_cases here : place = reg.place job role
        · subst here
          rw [Function.update_self, List.mem_append, List.mem_singleton, not_or]
          refine ⟨frees other member _, ?_⟩
          intro same
          have inside : other.1 ∈ jobs.map Prod.fst := List.mem_map_of_mem member
          exact first (same ▸ inside)
        · rw [Function.update_of_ne here]
          exact frees other member place
      obtain ⟨orderly, applied⟩ := @ih
        (reg.setList (reg.place job role) (reg.lists (reg.place job role) ++ [job]))
        others valids still
      refine ⟨⟨fun place inside => absurd inside (free place), ?_⟩, ?_⟩
      · rw [put]
        exact orderly
      · rw [registrations, List.map_cons, applyOps, put]
        dsimp only
        rw [show jobs.map (fun job => Op.register (some job.1) job.2) = registrations jobs from rfl,
          applied]
        refine Prod.ext rfl ?_
        rw [Registry.mk.injEq]
        refine ⟨rfl, ?_⟩
        funext place
        rw [Registry.setList, Registry.placed, Registry.placed, List.filter_cons]
        dsimp only
        by_cases here : place = reg.place job role
        · subst here
          rw [Function.update_self, if_pos (decide_eq_true rfl), List.map_cons, List.append_assoc]
          rfl
        · rw [Function.update_of_ne here,
            if_neg (decide_eq_true_iff.not.mpr (Ne.symm here))]
          rfl

end Turns

/-! ## The jobs of the program -/

/-- The job of `cfgfile.c` and the array of `netif.c`. -/
inductive ProgramJob where
  | reloadJob
  | netifJobs (i : Fin 5)
  deriving DecidableEq, Repr

/-- `reload_job`. -/
def reloadJob : NdfLcoreJob :=
  { name := ascii "cfgfile_reload", type := .loop, func := some .tryReload }

/-- `netif_jobs`; the last element is not given. -/
def netifJobs : Fin 5 → NdfLcoreJob × LcoreRole
  | 0 =>
      ({ name := ascii "recv_fwd", type := .loop, func := some .lcoreJobRecvFwd }, .fwdWorker)
  | 1 =>
      ({ name := ascii "timer_manage", type := .loop, func := some .lcoreJobTimerManage },
        .fwdWorker)
  | 2 =>
      ({ name := ascii "isol_pkt_rcv", type := .loop, func := some .recvOnIsolLcore },
        .isolrxWorker)
  | 3 =>
      ({ name := ascii "timer_manage", type := .loop, func := some .lcoreJobTimerManage }, .master)
  | 4 => ({}, .idle)

def programJobs : ProgramJob → NdfLcoreJob
  | .reloadJob => reloadJob
  | .netifJobs i => (netifJobs i).1

/-- The registration of `cfgfile_init`, then those of `netif_lcore_init`. -/
def programRegistrations : List (ProgramJob × LcoreRole) :=
  (.reloadJob, .master) ::
    ((List.finRange 5).filter fun i => (netifJobs i).1.func.isSome).map fun i =>
      (.netifJobs i, (netifJobs i).2)

/-- What an lcore of a role calls in a turn. -/
def programTurn : LcoreRole → List ProgramJob
  | .master => [.reloadJob, .netifJobs 3]
  | .fwdWorker => [.netifJobs 0, .netifJobs 1]
  | .isolrxWorker => [.netifJobs 2]
  | .idle | .kniWorker | .max => []

/-- The jobs of the program on their lists. -/
def programRegistry : Registry ProgramJob :=
  ⟨programJobs, (Registry.empty programJobs).placed programRegistrations⟩

theorem programRegistry_init (role : LcoreRole) :
    programRegistry.called (programRegistry.lists (role, .init)) = [] := by
  cases role <;> decide

theorem programRegistry_turn (role : LcoreRole) (tick : Nat) :
    programRegistry.turn role tick = programTurn role := by
  have loop : programRegistry.called (programRegistry.lists (role, .loop)) = programTurn role := by
    cases role <;> decide
  have slow : programRegistry.called (programRegistry.lists (role, .slow)) = [] := by
    cases role <;> decide
  rw [Registry.turn, loop, slow, List.filter_nil, List.append_nil]

theorem programRegistrations_orderly :
    Orderly (registrations programRegistrations) (.empty programJobs) ∧
      applyOps (registrations programRegistrations) (.empty programJobs) =
        (List.replicate 5 .ok, programRegistry) :=
  have distinct : (programRegistrations.map Prod.fst).Nodup := by decide
  have valid : ∀ job ∈ programRegistrations, (Registry.empty programJobs).Valid job.1 job.2 := by
    decide
  applyOps_registrations distinct valid fun _ _ _ => List.not_mem_nil

/-- Every lcore of the program that has a role calls the jobs of its role in every turn: nothing
else is called, and an lcore of `recv_on_isol_lcore` does not manage timers. -/
theorem program_turns (w : LcoreJobs ProgramJob) (jobs : w.jobs = programJobs) {fuel : Nat}
    (enough : 5 < fuel) :
    ∃ w', runOps fuel (registrations programRegistrations) w.ndfSchedulerInit.2 =
        some (List.replicate 5 .ok, w') ∧
      ∀ maxLcore lcoreRole cid tick count, cid < maxLcore → lcoreRole cid ≠ .max →
        lcoreRole cid ≠ .idle →
        w'.ndfJobLoop fuel maxLcore lcoreRole cid tick count =
          some (.looping [] (List.replicate count (programTurn (lcoreRole cid)))) := by
  obtain ⟨orderly, applied⟩ := programRegistrations_orderly
  rw [← jobs] at orderly applied
  have none : (Registry.empty w.jobs).Within 0 := fun _ => le_rfl
  have short : 0 + (registrations programRegistrations).length < fuel := enough
  obtain ⟨w', ran, shows⟩ := (shows_init w).runOps none short orderly
  have within : (applyOps (registrations programRegistrations) (.empty w.jobs)).2.Within
      (0 + (registrations programRegistrations).length) := applyOps_within none
  have typed := applyOps_typed (typed_empty w.jobs) orderly
  rw [applied] at ran shows within typed
  refine ⟨w', ran, ?_⟩
  intro maxLcore lcoreRole cid tick count inside notMax notIdle
  rw [shows.ndfJobLoop typed within short inside notMax notIdle, programRegistry_init]
  simp only [programRegistry_turn]
  rw [List.map_const', List.length_range]

end NetDefender.Sched
