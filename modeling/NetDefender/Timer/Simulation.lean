import NetDefender.Timer.Nodes

/-!
# Lists in memory

As long as no timer is put on a list while it is on one, the memory holds the lists of the
slots, and the two machines take the same steps.
-/

namespace NetDefender.Timers

open Rings hiding Linked

variable {w w' : TimerScheduler} {s s' : Scheduler} {id other level slot left : Nat}

/-! ## What the memory holds -/

/-- The record of a timer without its node. -/
def NdfTimer.data (timer : NdfTimer) : TimerData where
  handler := timer.handler
  priv := timer.priv
  isPeriod := timer.isPeriod
  delay := timer.delay
  left := timer.left

/-- The nodes of the list of a slot, its head first. -/
def Scheduler.nodes (s : Scheduler) (level slot : Nat) : List ListHead :=
  .hashs level slot :: (s.hashs level slot).map .list

/-- The memory holds the lists of the slots, and a timer that is on none of them is not
pending. -/
structure Shows (w : TimerScheduler) (s : Scheduler) : Prop where
  cursors : w.cursors = s.cursors
  ticks : w.ticks = s.ticks
  log : w.log = s.log
  timers : ∀ id, w.timers id = (s.timers id).data
  linked : s.Linked
  rings : ∀ level slot,
    Ring w.memory (.hashs level slot) ((s.hashs level slot).map .list)
  idle : ∀ id, (s.timers id).list = none →
    w.memory.prev (.list id) = .null ∨ w.memory.prev (.list id) = .poison2

theorem Shows.data (shows : Shows w s) (id : Nat) :
    (w.timers id).handler = (s.timers id).handler ∧ (w.timers id).priv = (s.timers id).priv ∧
      (w.timers id).isPeriod = (s.timers id).isPeriod ∧
      (w.timers id).delay = (s.timers id).delay ∧ (w.timers id).left = (s.timers id).left := by
  rw [shows.timers]
  exact ⟨rfl, rfl, rfl, rfl, rfl⟩

/-- The cursors, the ticks and the log have nothing to do with the lists. -/
theorem Shows.of_eq (shows : Shows w s) (memory : w'.memory = w.memory)
    (timers : w'.timers = w.timers) (hashs : s'.hashs = s.hashs) (timers' : s'.timers = s.timers)
    (cursors : w'.cursors = s'.cursors) (ticks : w'.ticks = s'.ticks) (log : w'.log = s'.log) :
    Shows w' s' where
  cursors := cursors
  ticks := ticks
  log := log
  timers := by
    rw [timers, timers']
    exact shows.timers
  linked := by
    constructor
    · rw [hashs, timers']
      exact shows.linked.mem
    · rw [hashs]
      exact shows.linked.nodup
  rings := by
    rw [memory, hashs]
    exact shows.rings
  idle := by
    rw [memory, timers']
    exact shows.idle

theorem hashs_not_mem (ids : List Nat) : ListHead.hashs level slot ∉ ids.map .list := by
  simp

theorem Scheduler.Linked.list_mem_nodes (linked : s.Linked) :
    .list id ∈ s.nodes level slot ↔ (s.timers id).list = some (level, slot) := by
  simp [Scheduler.nodes, linked.mem]

theorem Scheduler.Linked.nodup_nodes (linked : s.Linked) (level slot : Nat) :
    (s.nodes level slot).Nodup :=
  List.nodup_cons.mpr ⟨hashs_not_mem _, (linked.nodup level slot).map fun _ _ => ListHead.list.inj⟩

/-- A node is on the list of one slot. -/
theorem Scheduler.Linked.nodes_unique (linked : s.Linked) {node : ListHead} {level' slot' : Nat}
    (here : node ∈ s.nodes level slot) (there : node ∈ s.nodes level' slot') :
    level' = level ∧ slot' = slot := by
  cases node with
  | hashs =>
      simp only [Scheduler.nodes, List.mem_cons, ListHead.hashs.injEq, hashs_not_mem,
        or_false] at here there
      exact ⟨there.1.symm.trans here.1, there.2.symm.trans here.2⟩
  | list id =>
      rw [linked.list_mem_nodes] at here there
      obtain ⟨rfl, rfl⟩ := Prod.mk.inj (Option.some.inj (here.symm.trans there))
      exact ⟨rfl, rfl⟩

theorem shows_init : Shows timerInitNodes timerInitScheduler where
  cursors := rfl
  ticks := rfl
  log := rfl
  timers _ := rfl
  linked := ⟨fun _ _ _ => by simp [timerInitScheduler], fun _ _ => List.nodup_nil⟩
  rings _ _ := ring_nil.mpr ⟨rfl, rfl⟩
  idle _ _ := Or.inl rfl

/-! ## List operations -/

/-- A timer is pending exactly when it is on a list. -/
theorem Shows.timerPending (shows : Shows w s) (id : Nat) :
    w.timerPending id = s.timerPending id := by
  rw [TimerScheduler.timerPending, Scheduler.timerPending]
  cases node : (s.timers id).list with
  | none =>
      rcases shows.idle id node with null | poison
      · simp [null]
      · simp [poison]
  | some place =>
      have member := (shows.linked.mem place.1 place.2 id).mpr node
      obtain ⟨prev, -, before, -, other, -⟩ := (shows.rings place.1 place.2).erase
        (shows.linked.nodup_nodes _ _) (List.mem_map_of_mem member)
      simp [before, other]

theorem Shows.listEmpty (shows : Shows w s) (level slot : Nat) :
    w.listEmpty level slot = true ↔ s.hashs level slot = [] := by
  rw [TimerScheduler.listEmpty, decide_eq_true_iff,
    (shows.rings level slot).next_head_eq_iff (hashs_not_mem _), List.map_eq_nil_iff]

theorem Shows.first (shows : Shows w s) {rest : List Nat} (head : s.hashs level slot = id :: rest) :
    w.memory.next (.hashs level slot) = .to (.list id) := by
  rw [(shows.rings level slot).next_head, head]
  rfl

/-- A timer that is on no list is put on one. -/
theorem Shows.listAddTail (shows : Shows w s) (idle : (s.timers id).list = none)
    (level slot : Nat) :
    ∃ w', w.listAddTail id level slot = some w' ∧ Shows w' (s.listAddTail id level slot) := by
  have ring := shows.rings level slot
  have free (level slot : Nat) : .list id ∉ s.nodes level slot := by
    rw [shows.linked.list_mem_nodes, idle]
    exact Option.some_ne_none _ ∘ Eq.symm
  refine ⟨_, by rw [TimerScheduler.listAddTail, ring.prev_head], ?_⟩
  constructor
  case cursors => exact shows.cursors
  case ticks => exact shows.ticks
  case log => exact shows.log
  case timers =>
    intro other
    rw [Scheduler.listAddTail_timers]
    split
    next same =>
      rw [same]
      exact shows.timers id
    next => exact shows.timers other
  case linked => exact shows.linked.listAddTail id level slot idle
  case rings =>
    intro level' slot'
    rw [Scheduler.listAddTail_hashs]
    split
    next here =>
      obtain ⟨rfl, rfl⟩ := here
      rw [List.map_append]
      exact ring.insert (hashs_not_mem _) (free level' slot')
    next elsewhere =>
      have apart {node : ListHead} (member : node ∈ s.nodes level slot) :
          node ∉ s.nodes level' slot' := fun there =>
        elsewhere (shows.linked.nodes_unique member there)
      exact (shows.rings level' slot').insert_apart (free level' slot')
        (apart (getLast?_getD_mem _ _)) (apart List.mem_cons_self)
  case idle =>
    intro other none'
    rw [Scheduler.listAddTail_timers] at none'
    split at none'
    next => cases none'
    next different => simpa [different] using shows.idle other none'

/-- A timer is taken off its list. -/
theorem Shows.listDel (shows : Shows w s) (pending : (s.timers id).list = some (level, slot)) :
    ∃ w', w.listDel id = some w' ∧ Shows w' (s.listDel id) := by
  have member : id ∈ s.hashs level slot := (shows.linked.mem level slot id).mpr pending
  obtain ⟨prev, next, before, behind, -, memPrev, memNext, ring⟩ := (shows.rings level slot).erase
    (shows.linked.nodup_nodes level slot) (List.mem_map_of_mem member)
  refine ⟨_, by rw [TimerScheduler.listDel, before, behind], ?_⟩
  constructor
  case cursors => exact shows.cursors.trans (s.listDel_cursors id).symm
  case ticks => exact shows.ticks.trans (s.listDel_ticks id).symm
  case log => exact shows.log.trans (s.listDel_log id).symm
  case timers =>
    intro other
    rw [Scheduler.listDel_timers]
    split
    next same =>
      rw [same]
      exact shows.timers id
    next => exact shows.timers other
  case linked => exact shows.linked.listDel id
  case rings =>
    intro level' slot'
    rw [s.listDel_of_some id level slot pending, Scheduler.setTimer_hashs, Scheduler.setSlot_hashs]
    split
    next here =>
      obtain ⟨rfl, rfl⟩ := here
      rw [List.map_erase fun _ _ => ListHead.list.inj]
      exact ring
    next elsewhere =>
      have apart {node : ListHead} (here : node ∈ s.nodes level slot) :
          node ∉ s.nodes level' slot' := fun there =>
        elsewhere (shows.linked.nodes_unique here there)
      exact (shows.rings level' slot').remove_apart
        (apart (shows.linked.list_mem_nodes.mpr pending)) (apart memPrev) (apart memNext)
  case idle =>
    intro other none'
    rw [Scheduler.listDel_timers] at none'
    dsimp only
    rw [Memory.remove_prev]
    split
    next => exact Or.inr rfl
    next different =>
      rw [if_neg fun same => different (congrArg _ same)] at none'
      have outside : .list other ≠ next := by
        rintro rfl
        have inside := shows.linked.list_mem_nodes.mp memNext
        exact Option.some_ne_none _ (inside.symm.trans none')
      rw [if_neg outside]
      exact shows.idle other none'

theorem Shows.unlink (shows : Shows w s) (id : Nat) :
    ∃ w', w.unlink id = some w' ∧ Shows w' (s.unlink id) := by
  rw [TimerScheduler.unlink, Scheduler.unlink, shows.timerPending]
  cases node : (s.timers id).list with
  | none =>
      have idle : s.timerPending id = false := by simp [Scheduler.timerPending, node]
      rw [idle]
      exact ⟨w, rfl, shows⟩
  | some place =>
      have pending : s.timerPending id = true := by simp [Scheduler.timerPending, node]
      rw [pending]
      exact shows.listDel node

@[simp]
theorem unlink_list (s : Scheduler) (id : Nat) : ((s.unlink id).timers id).list = none := by
  simp [Scheduler.unlink_eq_listDel]

/-! ## Scheduling -/

/-- The record of a timer changes, and its node does not. -/
theorem Shows.setTimer (shows : Shows w s) {timer : NdfTimer}
    (same : timer.list = (s.timers id).list) :
    Shows (w.setTimer id timer.data) (s.setTimer id timer) where
  cursors := shows.cursors
  ticks := shows.ticks
  log := shows.log
  timers other := by
    rw [TimerScheduler.setTimer, Scheduler.setTimer_timers]
    dsimp only
    rw [Function.update_apply]
    split
    next => rfl
    next => exact shows.timers other
  linked := shows.linked.setTimer id same
  rings := shows.rings
  idle other none' := by
    rw [Scheduler.setTimer_timers] at none'
    split at none'
    next at_id =>
      rw [at_id]
      exact shows.idle id (same.symm.trans none')
    next => exact shows.idle other none'

theorem Shows.setLeft (shows : Shows w s) (id left : Nat) :
    Shows (w.setLeft id left) (s.setLeft id left) := by
  have record : { w.timers id with left := left } = { s.timers id with left := left }.data := by
    rw [shows.timers]
    rfl
  rw [TimerScheduler.setLeft, record]
  exact shows.setTimer rfl

theorem Shows.lowerTicks (shows : Shows w s) (level : Nat) :
    w.lowerTicks level = s.lowerTicks level := by
  rw [TimerScheduler.lowerTicks, Scheduler.lowerTicks, shows.cursors]

/-- A call in memory returns what it returns on lists. -/
def Answers (answer : Option (Ret × TimerScheduler)) (expected : Ret × Scheduler) : Prop :=
  ∃ w', answer = some (expected.1, w') ∧ Shows w' expected.2

theorem Shows.adopt (shows : Shows w s) (idle : (s.timers id).list = none) (levels : Nat) :
    Answers (w.adopt id levels) (s.adopt id levels) := by
  induction levels with
  | zero => exact ⟨w, rfl, shows⟩
  | succ level ih =>
      obtain ⟨-, -, -, delay, remains⟩ := shows.data id
      rw [TimerScheduler.adopt, Scheduler.adopt, delay, remains, shows.cursors]
      dsimp only
      by_cases off : (s.timers id).delay / getLevelTicks level > 0
      · obtain ⟨w', added, shows'⟩ := shows.listAddTail idle level
          ((s.cursors level + (s.timers id).delay / getLevelTicks level) % LEVEL_SIZE)
        rw [if_pos off, if_pos off, added, Option.map_some, shows'.lowerTicks]
        exact ⟨_, rfl, shows'.setLeft id _⟩
      · rw [if_neg off, if_neg off]
        exact ih

theorem Shows.timerSched (shows : Shows w s) (idle : (s.timers id).list = none)
    (delay : Timeval) (handler : Option Nat) (arg : Nat) (period : Bool) :
    Answers (w.timerSched id delay handler arg period)
      (s.timerSched id delay handler arg period) := by
  rw [TimerScheduler.timerSched, Scheduler.timerSched, shows.timers]
  dsimp only [NdfTimer.data]
  let timer := { s.timers id with
    handler, priv := arg, isPeriod := period, delay := ndfTimevalToTicks delay }
  let ticks := if ndfTimevalToTicks delay = 0 then 1 else ndfTimevalToTicks delay
  by_cases missing : handler = none
  · rw [if_pos missing, if_pos missing]
    exact ⟨w, rfl, shows⟩
  · rw [if_neg missing, if_neg missing]
    by_cases exceeds : ndfTimevalToTicks delay ≥ TIMER_MAX_TICKS
    · rw [if_pos exceeds, if_pos exceeds]
      have refused : Shows (w.setTimer id timer.data) (s.setTimer id timer) := shows.setTimer rfl
      exact ⟨_, rfl, refused⟩
    · rw [if_neg exceeds, if_neg exceeds]
      have armed : Shows (w.setTimer id { timer with delay := ticks, left := ticks }.data)
          (s.setTimer id { timer with delay := ticks, left := ticks }) := shows.setTimer rfl
      exact armed.adopt (by simpa [timer] using idle) LEVEL_DEPTH

/-- A call that does not schedule a pending timer. -/
theorem Shows.ask (shows : Shows w s) {request : Request} (fresh : request.fresh s = true) :
    Answers (w.ask request) (request.run s) := by
  have free {id : Nat} (notPending : (!s.timerPending id) = true) :
      (s.timers id).list = none := by
    simpa [Scheduler.timerPending] using notPending
  cases request with
  | sched id delay handler arg =>
      rw [TimerScheduler.ask, Request.run, TimerScheduler.ndfTimerSched, Scheduler.ndfTimerSched]
      split
      next => exact ⟨w, rfl, shows⟩
      next => exact shows.timerSched (free fresh) delay _ arg false
  | schedPeriod id intv handler arg =>
      rw [TimerScheduler.ask, Request.run, TimerScheduler.ndfTimerSchedPeriod,
        Scheduler.ndfTimerSchedPeriod]
      split
      next => exact ⟨w, rfl, shows⟩
      next => exact shows.timerSched (free fresh) intv _ arg true
  | cancel id =>
      obtain ⟨w', unlinked, shows'⟩ := shows.unlink id
      rw [TimerScheduler.ask, TimerScheduler.ndfTimerCancel, unlinked]
      exact ⟨w', rfl, shows'⟩
  | reset id =>
      obtain ⟨w', unlinked, shows'⟩ := shows.unlink id
      rw [TimerScheduler.ask, TimerScheduler.ndfTimerReset, unlinked, Option.bind_some,
        shows'.timers]
      exact shows'.timerSched (unlink_list s id) ..
  | update id delay =>
      obtain ⟨w', unlinked, shows'⟩ := shows.unlink id
      rw [TimerScheduler.ask, TimerScheduler.ndfTimerUpdate, unlinked, Option.bind_some,
        shows'.timers]
      exact shows'.timerSched (unlink_list s id) ..

theorem Shows.fresh (shows : Shows w s) (request : Request) :
    w.fresh request = request.fresh s := by
  cases request with
  | sched id | schedPeriod id => rw [TimerScheduler.fresh, Request.fresh, shows.timerPending]
  | cancel | reset | update => rfl

/-! ## The tick -/

/-- Only the node and the remainder change when a timer looks for a slot. -/
theorem adopt_handler (s : Scheduler) (id levels other : Nat) :
    ((s.adopt id levels).2.timers other).handler = (s.timers other).handler := by
  induction levels with
  | zero => rfl
  | succ level ih =>
      rw [Scheduler.adopt]
      dsimp only
      split
      next =>
        rw [Scheduler.setLeft, Scheduler.setTimer_timers, Scheduler.listAddTail_timers,
          Scheduler.listAddTail_timers, if_pos rfl]
        split
        next same => rw [same]
        next => rfl
      next => exact ih

/-- A timer keeps having a handler. -/
theorem timerSched_handler {s : Scheduler} (handled : (s.timers other).handler ≠ none) (id : Nat)
    (delay : Timeval) (handler : Option Nat) (arg : Nat) (period : Bool) :
    ((s.timerSched id delay handler arg period).2.timers other).handler ≠ none := by
  rw [Scheduler.timerSched]
  split
  next => exact handled
  next given =>
    dsimp only
    split
    next =>
      rw [Scheduler.setTimer_timers]
      split
      next => exact given
      next => exact handled
    next =>
      rw [adopt_handler, Scheduler.setTimer_timers]
      split
      next => exact given
      next => exact handled

theorem adopt_ne_aborted (s : Scheduler) (id levels : Nat) : (s.adopt id levels).1 ≠ .aborted := by
  induction levels with
  | zero => exact Ret.noConfusion
  | succ level ih =>
      rw [Scheduler.adopt]
      dsimp only
      split
      next => exact Ret.noConfusion
      next => exact ih

/-- The assertion of `__ndf_timer_sched` fails only for a missing handler. -/
theorem timerSched_ne_aborted {s : Scheduler} {handler : Option Nat} (given : handler ≠ none)
    (id : Nat) (delay : Timeval) (arg : Nat) (period : Bool) :
    (s.timerSched id delay handler arg period).1 ≠ .aborted := by
  rw [Scheduler.timerSched, if_neg given]
  dsimp only
  split
  next => exact Ret.noConfusion
  next => exact adopt_ne_aborted _ _ _

theorem unlink_handler (s : Scheduler) (id other : Nat) :
    ((s.unlink id).timers other).handler = (s.timers other).handler := by
  rw [Scheduler.unlink_eq_listDel, Scheduler.listDel_timers]
  split
  next same => rw [same]
  next => rfl

theorem run_handler {s : Scheduler} (handled : (s.timers other).handler ≠ none)
    (request : Request) : (((request.run s).2).timers other).handler ≠ none := by
  have unlinked (id : Nat) : ((s.unlink id).timers other).handler ≠ none := by
    rw [unlink_handler]
    exact handled
  cases request with
  | sched id delay handler arg =>
      rw [Request.run, Scheduler.ndfTimerSched]
      split
      next => exact handled
      next => exact timerSched_handler handled _ _ _ _ _
  | schedPeriod id intv handler arg =>
      rw [Request.run, Scheduler.ndfTimerSchedPeriod]
      split
      next => exact handled
      next => exact timerSched_handler handled _ _ _ _ _
  | cancel id => exact unlinked id
  | reset id => exact timerSched_handler (unlinked id) _ _ _ _ _
  | update id delay => exact timerSched_handler (unlinked id) _ _ _ _ _

/-- The handler that begins is that of the timer. -/
theorem expire_handler {s s' : Scheduler} (expired : s.expire id = some s') :
    (s'.timers id).handler ≠ none := by
  obtain ⟨handler, handled, rfl⟩ := Option.map_eq_some_iff.mp expired
  dsimp only
  rw [unlink_handler, handled]
  exact Option.some_ne_none _

theorem Shows.expire (shows : Shows w s) (id : Nat) :
    Option.Rel Shows (w.expire id) (s.expire id) := by
  obtain ⟨handler, priv, -⟩ := shows.data id
  obtain ⟨w', unlinked, shows'⟩ := shows.unlink id
  rw [TimerScheduler.expire, Scheduler.expire, handler, priv, shows.log, shows.ticks]
  cases (s.timers id).handler with
  | none => exact .none
  | some called =>
      rw [Option.bind_some, unlinked]
      exact .some (shows'.of_eq rfl rfl rfl rfl shows'.cursors shows'.ticks rfl)

/-- A handler returns, and its timer is not both periodic and pending. -/
theorem Shows.resume (shows : Shows w s) (handled : (s.timers id).handler ≠ none) {err : Int}
    (clear : err = NDTIMER_OK → (s.timers id).isPeriod = true → s.timerPending id = false) :
    ∃ w' s', w.resume id err = some w' ∧ s.resume id err = some s' ∧ Shows w' s' := by
  obtain ⟨handler, priv, period, delay, -⟩ := shows.data id
  rw [TimerScheduler.resume, Scheduler.resume, handler, priv, period, delay]
  by_cases ends : err ≠ NDTIMER_OK ∨ (!(s.timers id).isPeriod) = true
  · rw [if_pos ends, if_pos ends]
    exact ⟨w, s, rfl, rfl, shows⟩
  · obtain ⟨ok, periodic⟩ : err = NDTIMER_OK ∧ (s.timers id).isPeriod = true := by
      simpa using ends
    have free := clear ok periodic
    obtain ⟨w', answered, shows'⟩ := shows.timerSched
      (by simpa [Scheduler.timerPending] using free) (ndfTicksToTimeval (s.timers id).delay)
      (s.timers id).handler (s.timers id).priv (s.timers id).isPeriod
    have returns := timerSched_ne_aborted (s := s) handled id
      (ndfTicksToTimeval (s.timers id).delay) (s.timers id).priv (s.timers id).isPeriod
    rw [if_neg ends, if_neg ends, free, if_neg Bool.false_ne_true, answered, Option.bind_some]
    generalize s.timerSched id (ndfTicksToTimeval (s.timers id).delay) (s.timers id).handler
      (s.timers id).priv (s.timers id).isPeriod = result at *
    obtain ⟨ret, after⟩ := result
    cases ret with
    | aborted => exact absurd rfl returns
    | ok | inval => exact ⟨w', after, rfl, rfl, shows'⟩

theorem Shows.drop (shows : Shows w s) (idle : (s.timers id).list = none) (levels : Nat) :
    ∃ w', w.drop id levels = some w' ∧ Shows w' (s.drop id levels) := by
  induction levels with
  | zero => exact ⟨w, rfl, shows⟩
  | succ lower ih =>
      obtain ⟨-, -, -, -, remains⟩ := shows.data id
      rw [TimerScheduler.drop, Scheduler.drop, remains, shows.cursors]
      dsimp only
      by_cases off : (s.timers id).left / getLevelTicks lower > 0
      · obtain ⟨w', added, shows'⟩ := shows.listAddTail idle lower
          ((s.cursors lower + (s.timers id).left / getLevelTicks lower) % LEVEL_SIZE)
        rw [if_pos off, if_pos off, added]
        exact ⟨_, rfl, shows'.setLeft id _⟩
      · rw [if_neg off, if_neg off]
        exact ih

theorem Shows.bump (shows : Shows w s) (level : Nat) :
    Shows (w.bump level).1 (s.bump level).1 ∧ (w.bump level).2 = (s.bump level).2 := by
  rw [TimerScheduler.bump, Scheduler.bump, shows.cursors]
  split
  next => exact ⟨shows.of_eq rfl rfl rfl rfl rfl shows.ticks shows.log, rfl⟩
  next => exact ⟨shows.of_eq rfl rfl rfl rfl rfl shows.ticks shows.log, rfl⟩

/-! ## The machines -/

/-- The machines stand at the same place, and the timer whose handler runs has a handler. -/
structure Mirrors (n : NodeMachine) (m : Machine) : Prop where
  phase : n.phase = m.phase
  shows : Shows n.sched m.sched
  handled : ∀ id, m.phase.handled = some id → (m.sched.timers id).handler ≠ none

variable {n n' : NodeMachine} {m m' : Machine}

/-- A handler that returns `NDTIMER_OK` has not left its timer both periodic and pending. -/
def NodeMachine.clear (n : NodeMachine) : Action → Bool
  | .ret err =>
      match n.phase with
      | .handling _ _ id =>
          !(err = NDTIMER_OK && (n.sched.timers id).isPeriod && n.sched.timerPending id)
      | _ => true
  | _ => true

theorem Mirrors.outside (phase : n.phase = m.phase) (shows : Shows n.sched m.sched)
    (unhandled : m.phase.handled = none) : Mirrors n m where
  phase := phase
  shows := shows
  handled id same := absurd (same.symm.trans unhandled) (Option.some_ne_none id)

theorem mirrors_init : Mirrors NodeMachine.init Machine.init := .outside rfl shows_init rfl

theorem Mirrors.tick (mirrors : Mirrors n m) :
    Option.Rel Mirrors (n.step .tick) (m.step .tick) := by
  obtain ⟨w, phase⟩ := n
  obtain ⟨s, phase'⟩ := m
  obtain ⟨rfl, shows, handled⟩ := mirrors
  dsimp only at shows handled
  cases phase with
  | serving | handling => exact .none
  | idle =>
      have begun : Shows { w with ticks := w.ticks + 1 } { s with ticks := s.ticks + 1 } :=
        shows.of_eq rfl rfl rfl rfl shows.cursors (congrArg (· + 1) shows.ticks) shows.log
      obtain ⟨bumped, carry⟩ := begun.bump 0
      exact .some (.outside (congrArg (Phase.serving 0) carry) bumped rfl)

theorem Mirrors.next (mirrors : Mirrors n m) :
    Option.Rel Mirrors (n.step .next) (m.step .next) := by
  obtain ⟨w, phase⟩ := n
  obtain ⟨s, phase'⟩ := m
  obtain ⟨rfl, shows, handled⟩ := mirrors
  dsimp only at shows handled
  cases phase with
  | idle | handling => exact .none
  | serving level carry =>
      rw [NodeMachine.step, Machine.step]
      dsimp only
      have empty := shows.listEmpty level (s.cursors level)
      rw [shows.cursors]
      by_cases emptied : s.hashs level (s.cursors level) = []
      · rw [if_neg (by simp [empty.mpr emptied]), if_neg (not_not.mpr emptied)]
        by_cases goesOn : carry = true ∧ level + 1 < LEVEL_DEPTH
        · rw [if_pos goesOn, if_pos goesOn]
          obtain ⟨bumped, carries⟩ := shows.bump (level + 1)
          exact .some (.outside (congrArg (Phase.serving (level + 1)) carries) bumped rfl)
        · rw [if_neg goesOn, if_neg goesOn]
          exact .some (.outside rfl shows rfl)
      · rw [if_pos (by simpa using mt empty.mp emptied), if_pos emptied]
        exact .none

theorem Mirrors.serve (mirrors : Mirrors n m) :
    Option.Rel Mirrors (n.step .serve) (m.step .serve) := by
  obtain ⟨w, phase⟩ := n
  obtain ⟨s, phase'⟩ := m
  obtain ⟨rfl, shows, handled⟩ := mirrors
  dsimp only at shows handled
  cases phase with
  | idle | handling => exact .none
  | serving level carry =>
      rw [NodeMachine.step, Machine.step]
      dsimp only
      rw [shows.cursors]
      cases slot : s.hashs level (s.cursors level) with
      | nil =>
          rw [(shows.rings level (s.cursors level)).next_head, slot]
          exact .none
      | cons id rest =>
          obtain ⟨-, -, -, -, remains⟩ := shows.data id
          rw [shows.first slot]
          dsimp only
          rw [remains]
          by_cases spent : (s.timers id).left = 0
          · rw [if_pos spent, if_pos spent]
            have called := @expire_handler id s
            have expired := shows.expire id
            generalize w.expire id = before, s.expire id = after at expired called
            cases expired with
            | none => exact .none
            | some shows' =>
                refine .some ⟨rfl, shows', fun other same => ?_⟩
                obtain rfl := Option.some.inj same
                exact called rfl
          · rw [if_neg spent, if_neg spent]
            have pending := (shows.linked.mem level (s.cursors level) id).mp
              (slot ▸ List.mem_cons_self)
            obtain ⟨w', deleted, shows'⟩ := shows.listDel pending
            have idle : ((s.listDel id).timers id).list = none := by simp
            obtain ⟨w'', dropped, shows''⟩ := shows'.drop idle (level + 1)
            rw [deleted, Option.bind_some, dropped]
            exact .some (.outside rfl shows'' rfl)

theorem Mirrors.ask (mirrors : Mirrors n m) (request : Request) :
    Option.Rel Mirrors (n.step (.ask request)) (m.step (.ask request)) := by
  obtain ⟨w, phase⟩ := n
  obtain ⟨s, phase'⟩ := m
  obtain ⟨rfl, shows, handled⟩ := mirrors
  dsimp only at shows handled
  cases phase with
  | serving => exact .none
  | idle | handling =>
      rw [NodeMachine.step, Machine.step]
      dsimp only
      rw [shows.fresh]
      by_cases fresh : request.fresh s = true
      · rw [if_pos fresh, if_pos fresh]
        obtain ⟨w', answered, shows'⟩ := shows.ask fresh
        have handled' := fun id called => run_handler (handled id called) request
        rw [answered, Option.bind_some]
        generalize request.run s = result at shows' handled'
        obtain ⟨ret, after⟩ := result
        cases ret with
        | aborted => exact .none
        | ok | inval => exact .some ⟨rfl, shows', handled'⟩
      · rw [if_neg fresh, if_neg fresh]
        exact .none

/-- The handler of a timer returns in both machines. -/
theorem Mirrors.returns (mirrors : Mirrors n m) {carry : Bool} {err : Int}
    (handling : n.phase = .handling level carry id) (clear : n.clear (.ret err) = true) :
    ∃ n' m', n.step (.ret err) = some n' ∧ m.step (.ret err) = some m' ∧ Mirrors n' m' := by
  obtain ⟨w, phase⟩ := n
  obtain ⟨s, phase'⟩ := m
  obtain ⟨rfl, shows, handled⟩ := mirrors
  dsimp only at shows handled handling
  subst handling
  obtain ⟨-, -, period, -⟩ := shows.data id
  have apart : err = NDTIMER_OK → (s.timers id).isPeriod = true → s.timerPending id = false := by
    rw [NodeMachine.clear] at clear
    dsimp only at clear
    rw [period, shows.timerPending] at clear
    intro ok periodic
    simpa [ok, periodic] using clear
  obtain ⟨w', s', resumed, resumed', shows'⟩ := shows.resume (handled id rfl) apart
  refine ⟨⟨w', .serving level carry⟩, ⟨s', .serving level carry⟩, ?_, ?_,
    .outside rfl shows' rfl⟩
  · rw [NodeMachine.step]
    dsimp only
    rw [resumed]
    rfl
  · rw [Machine.step]
    dsimp only
    rw [resumed']
    rfl

theorem Mirrors.ret (mirrors : Mirrors n m) {err : Int} (clear : n.clear (.ret err) = true) :
    Option.Rel Mirrors (n.step (.ret err)) (m.step (.ret err)) := by
  cases handling : n.phase with
  | idle | serving =>
      rw [NodeMachine.step, Machine.step, handling, ← mirrors.phase, handling]
      exact .none
  | handling level carry id =>
      obtain ⟨n', m', stepped, stepped', mirrors'⟩ := mirrors.returns handling clear
      rw [stepped, stepped']
      exact .some mirrors'

/-- The machine in memory takes the steps of the machine on lists. -/
theorem Mirrors.step (mirrors : Mirrors n m) {action : Action} (clear : n.clear action = true) :
    Option.Rel Mirrors (n.step action) (m.step action) := by
  cases action with
  | tick => exact mirrors.tick
  | serve => exact mirrors.serve
  | next => exact mirrors.next
  | ask request => exact mirrors.ask request
  | ret err => exact mirrors.ret clear

/-- A rule holds of every step of a run. -/
def NodeMachine.obeys (rule : NodeMachine → Action → Bool) (n : NodeMachine) : List Action → Bool
  | [] => true
  | action :: actions => rule n action && (n.step action).all fun n => n.obeys rule actions

theorem NodeMachine.obeys_cons {rule : NodeMachine → Action → Bool} {n n' : NodeMachine}
    {action : Action} {actions : List Action} (obeys : n.obeys rule (action :: actions) = true)
    (stepped : n.step action = some n') :
    rule n action = true ∧ n'.obeys rule actions = true := by
  rw [NodeMachine.obeys, Bool.and_eq_true, stepped] at obeys
  exact obeys

/-- A run of the machine in memory is a run of the machine on lists. -/
theorem Mirrors.run (mirrors : Mirrors n m) {actions : List Action}
    (clear : n.obeys NodeMachine.clear actions = true) (ran : n.run actions = some n') :
    ∃ m', m.run actions = some m' ∧ Mirrors n' m' := by
  induction actions generalizing n m with
  | nil =>
      obtain rfl := Option.some.inj ran
      exact ⟨m, rfl, mirrors⟩
  | cons action actions ih =>
      obtain ⟨next, stepped, ran⟩ := Option.bind_eq_some_iff.mp ran
      obtain ⟨now, later⟩ := NodeMachine.obeys_cons clear stepped
      have steps := mirrors.step now
      rw [stepped] at steps
      generalize after : m.step action = result at steps
      cases steps with
      | some mirrors' =>
          obtain ⟨m', ran', mirrors''⟩ := ih mirrors' later ran
          refine ⟨m', ?_, mirrors''⟩
          rw [Machine.run, after, Option.bind_some, ran']

/-- Where the machine on lists takes a step, the machine in memory does. -/
theorem Mirrors.follows (mirrors : Mirrors n m) {action : Action} (clear : n.clear action = true)
    (stepped : m.step action = some m') : ∃ n', n.step action = some n' ∧ Mirrors n' m' := by
  have steps := mirrors.step clear
  rw [stepped] at steps
  generalize after : n.step action = result at steps
  cases steps with
  | some mirrors' => exact ⟨_, rfl, mirrors'⟩

end NetDefender.Timers
