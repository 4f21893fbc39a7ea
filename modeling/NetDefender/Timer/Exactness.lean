import NetDefender.Timer.Links
import Mathlib.Tactic.Linarith

/-!
# Timers fire on time

What a timer is for: a clock with a deadline, which runs the handler in the tick of the
deadline.  The wheels are proved to simulate one such clock for each timer, over every
run; the handlers are assumed to leave the scheduler alone.
-/

namespace NetDefender.Timers

/-! ## The clock of a timer -/

/-- The delay in ticks; a delay of 0 counts as one tick. -/
def delayTicks (delay : Timeval) : Nat := max 1 (ndfTimevalToTicks delay)

/-- A one-shot timer: the time, the delay of its latest scheduling, the deadline while it
is pending, and the ticks in which its handler ran. -/
structure Clock where
  now : Nat := 0
  delay : Option Nat := none
  due : Option Nat := none
  runs : List Nat := []
  deriving DecidableEq, Repr

namespace Clock

/-- The clock is set to a new delay. -/
def set (clock : Clock) (delay : Nat) : Clock :=
  { clock with delay := some delay, due := some (clock.now + delay) }

/-- One tick. -/
def tick (clock : Clock) : Clock :=
  if clock.due = some (clock.now + 1) then
    { clock with now := clock.now + 1, due := none, runs := clock.runs ++ [clock.now + 1] }
  else { clock with now := clock.now + 1 }

/-- What an operation means for the timer `id`. -/
def step (id : Nat) (clock : Clock) : TimerOp → Clock
  | .tick => clock.tick
  | .sched target delay _ _ =>
      if target = id then clock.set (delayTicks delay) else clock
  | .cancel target => if target = id then { clock with due := none } else clock
  | .reset target =>
      if target = id then { clock with due := clock.delay.map (clock.now + ·) } else clock
  | .update target delay =>
      if target = id then clock.set (delayTicks delay) else clock

end Clock

/-- The clock of a timer after a run. -/
def clockOf (id : Nat) (ops : List TimerOp) : Clock := ops.foldl (Clock.step id) {}

/-- The ticks in which the handler of a timer ran. -/
def runsOf (id : Nat) (log : List (Nat × Call)) : List Nat :=
  (log.filter fun entry => entry.2.timer = id).map (·.1)

/-! ## Deadlines and slots -/

/-- Where a timer of a given deadline is: on no list, in the slot of the deadline of the
lower wheel, or in the slot of a later revolution of the upper wheel. -/
inductive Placed (lower upper : Nat) : Option Nat → NdfTimer → Prop where
  | idle {timer : NdfTimer} (node : timer.list = none) : Placed lower upper none timer
  | low {timer : NdfTimer} (due : Nat) (node : timer.list = some (0, due % LEVEL_SIZE))
      (left : timer.left = 0) (after : lower ≤ due) (before : due < lower + LEVEL_SIZE) :
      Placed lower upper (some due) timer
  | high {timer : NdfTimer} (due turn : Nat)
      (node : timer.list = some (1, turn % LEVEL_SIZE))
      (deadline : due = turn * LEVEL_SIZE + timer.left)
      (left : timer.left < 2 * LEVEL_SIZE) (after : upper ≤ turn)
      (before : turn < upper + LEVEL_SIZE) : Placed lower upper (some due) timer

/-- The wheels hold every timer in the slot of its deadline. -/
structure Wheels (lower upper : Nat) (due : Nat → Option Nat) (s : Scheduler) : Prop where
  linked : s.Linked
  placed : ∀ id, Placed lower upper (due id) (s.timers id)
  oneShot : ∀ id, (s.timers id).isPeriod = false
  handled : ∀ id, (s.timers id).list ≠ none → (s.timers id).handler ≠ none

variable {lower upper : Nat} {due : Nat → Option Nat} {s : Scheduler} {id : Nat}

/-- Two numbers in one revolution that share a slot are the same. -/
theorem eq_of_mod_eq {base index : Nat} (after : base ≤ index)
    (before : index < base + LEVEL_SIZE)
    (same : index % LEVEL_SIZE = base % LEVEL_SIZE) : index = base := by
  rw [LEVEL_SIZE_eq] at *
  omega

namespace Placed

variable {deadline : Option Nat} {timer : NdfTimer}

/-- A timer in the slot of the present tick is due. -/
theorem due_of_low (placed : Placed lower upper deadline timer)
    (here : timer.list = some (0, lower % LEVEL_SIZE)) :
    deadline = some lower ∧ timer.left = 0 := by
  cases placed with
  | idle node => simp [here] at node
  | low time node left after before =>
      have same : time % LEVEL_SIZE = lower % LEVEL_SIZE := by
        simpa [here, eq_comm] using node
      exact ⟨by rw [eq_of_mod_eq after before same], left⟩
  | high time turn node => simp [here] at node

/-- A timer in the slot of the present revolution is due after its remainder. -/
theorem due_of_high (placed : Placed lower upper deadline timer)
    (here : timer.list = some (1, upper % LEVEL_SIZE)) :
    deadline = some (upper * LEVEL_SIZE + timer.left) ∧ timer.left < 2 * LEVEL_SIZE := by
  cases placed with
  | idle node => simp [here] at node
  | low time node => simp [here] at node
  | high time turn node time_eq left after before =>
      have same : turn % LEVEL_SIZE = upper % LEVEL_SIZE := by
        simpa [here, eq_comm] using node
      exact ⟨by rw [time_eq, eq_of_mod_eq after before same], left⟩

/-- A timer on no list has no deadline. -/
theorem due_of_idle (placed : Placed lower upper deadline timer)
    (idle : timer.list = none) : deadline = none := by
  cases placed with
  | idle => rfl
  | low time node => simp [idle] at node
  | high time turn node => simp [idle] at node

/-- A timer that is not in the slot of the present tick is due after it. -/
theorem advance_low (placed : Placed lower upper deadline timer)
    (elsewhere : timer.list ≠ some (0, lower % LEVEL_SIZE)) :
    Placed (lower + 1) upper deadline timer := by
  cases placed with
  | idle node => exact .idle node
  | low time node left after before =>
      have passed : time ≠ lower := by
        rintro rfl
        exact elsewhere node
      exact .low time node left (by omega) (by omega)
  | high time turn node time_eq left after before =>
      exact .high time turn node time_eq left after before

/-- A timer that is not in the slot of the present revolution waits for a later one. -/
theorem advance_high (placed : Placed lower upper deadline timer)
    (elsewhere : timer.list ≠ some (1, upper % LEVEL_SIZE)) :
    Placed lower (upper + 1) deadline timer := by
  cases placed with
  | idle node => exact .idle node
  | low time node left after before => exact .low time node left after before
  | high time turn node time_eq left after before =>
      have passed : turn ≠ upper := by
        rintro rfl
        exact elsewhere node
      exact .high time turn node time_eq left (by omega) (by omega)

end Placed

/-- Only the lists and the timers matter. -/
theorem Wheels.of_eq {s' : Scheduler} (wheels : Wheels lower upper due s)
    (hashs : s'.hashs = s.hashs) (timers : s'.timers = s.timers) :
    Wheels lower upper due s' where
  linked := ⟨hashs ▸ timers ▸ wheels.linked.mem, hashs ▸ wheels.linked.nodup⟩
  placed := timers ▸ wheels.placed
  oneShot := timers ▸ wheels.oneShot
  handled := timers ▸ wheels.handled

/-- A property of every timer and its deadline, after a step that is about one timer. -/
theorem forall_update {property : Option Nat → NdfTimer → Prop} {s' : Scheduler}
    {deadline : Option Nat} (every : ∀ id, property (due id) (s.timers id))
    (others : ∀ other, other ≠ id → s'.timers other = s.timers other)
    (one : property deadline (s'.timers id)) (other : Nat) :
    property (Function.update due id deadline other) (s'.timers other) := by
  by_cases same : other = id
  · subst same
    rwa [Function.update_self]
  · rw [Function.update_of_ne same, others other same]
    exact every other

/-- A step that is about one timer: it takes a new deadline, the others keep theirs. -/
theorem Wheels.update {s' : Scheduler} (wheels : Wheels lower upper due s)
    {deadline : Option Nat} (linked : s'.Linked)
    (others : ∀ other, other ≠ id → s'.timers other = s.timers other)
    (placed : Placed lower upper deadline (s'.timers id))
    (oneShot : (s'.timers id).isPeriod = false)
    (handled : (s'.timers id).list ≠ none → (s'.timers id).handler ≠ none) :
    Wheels lower upper (Function.update due id deadline) s' where
  linked := linked
  placed := forall_update wheels.placed others placed
  oneShot := @forall_update due s id (fun _ timer => timer.isPeriod = false) s' deadline
    wheels.oneShot others oneShot
  handled := @forall_update due s id
    (fun _ timer => timer.list ≠ none → timer.handler ≠ none) s' deadline
    wheels.handled others handled

/-- A timer that is put in a slot takes a new deadline. -/
theorem Wheels.put (wheels : Wheels lower upper due s) {level slot left : Nat}
    {deadline : Option Nat} (idle : (s.timers id).list = none)
    (handled : (s.timers id).handler ≠ none)
    (placed : Placed lower upper deadline
      { s.timers id with list := some (level, slot), left := left }) :
    Wheels lower upper (Function.update due id deadline) (s.put id level slot left) := by
  apply wheels.update (wheels.linked.put id level slot left idle)
  · intro other different
    simp [different]
  · simpa using placed
  · simpa using wheels.oneShot id
  · simpa using handled

/-- A timer that is taken off its list has no deadline any more. -/
theorem Wheels.listDel (wheels : Wheels lower upper due s) (id : Nat) :
    Wheels lower upper (Function.update due id none) (s.listDel id) := by
  apply wheels.update (wheels.linked.listDel id)
  · intro other different
    simp [different]
  · simpa using Placed.idle rfl
  · simpa using wheels.oneShot id
  · simp

/-! ## One turn of a slot -/

/-- Handlers that do not touch the scheduler. -/
def Inert (handlers : Handlers) : Prop := ∀ call s, (handlers call s).1 = s

/-- What a turn leaves alone. -/
structure Kept (s s' : Scheduler) : Prop where
  cursors : s'.cursors = s.cursors
  ticks : s'.ticks = s.ticks
  delay : ∀ id, (s'.timers id).delay = (s.timers id).delay
  handler : ∀ id, (s'.timers id).handler = (s.timers id).handler

theorem Kept.refl : Kept s s := ⟨rfl, rfl, fun _ => rfl, fun _ => rfl⟩

theorem Kept.trans {s' s'' : Scheduler} (first : Kept s s') (second : Kept s' s'') :
    Kept s s'' where
  cursors := second.cursors.trans first.cursors
  ticks := second.ticks.trans first.ticks
  delay id := (second.delay id).trans (first.delay id)
  handler id := (second.handler id).trans (first.handler id)

theorem Kept.listDel (id : Nat) : Kept s (s.listDel id) where
  cursors := by simp
  ticks := by simp
  delay other := by by_cases same : other = id <;> simp [same]
  handler other := by by_cases same : other = id <;> simp [same]

theorem Kept.put {level slot left : Nat} : Kept s (s.put id level slot left) where
  cursors := by simp
  ticks := by simp
  delay other := by by_cases same : other = id <;> simp [same]
  handler other := by by_cases same : other = id <;> simp [same]

/-- Each timer is left alone, or its deadline `time` is met and its handler runs. -/
def Fired (time : Nat) (due due' : Nat → Option Nat) (log log' : List (Nat × Call)) :
    Prop :=
  ∀ id, (due' id = due id ∧ runsOf id log' = runsOf id log) ∨
    (due id = some time ∧ due' id = none ∧ runsOf id log' = runsOf id log ++ [time])

theorem Fired.refl {time : Nat} {log : List (Nat × Call)} : Fired time due due log log :=
  fun _ => .inl ⟨rfl, rfl⟩

theorem Fired.trans {time : Nat} {due' due'' : Nat → Option Nat}
    {log log' log'' : List (Nat × Call)} (first : Fired time due due' log log')
    (second : Fired time due' due'' log' log'') : Fired time due due'' log log'' := by
  intro id
  rcases first id with ⟨kept, silent⟩ | ⟨reached, expired, ran⟩
  · rcases second id with ⟨kept', silent'⟩ | ⟨reached, expired, ran⟩
    · exact .inl ⟨kept'.trans kept, silent'.trans silent⟩
    · exact .inr ⟨kept ▸ reached, expired, silent ▸ ran⟩
  · rcases second id with ⟨kept', silent'⟩ | ⟨again, -, -⟩
    · exact .inr ⟨reached, kept'.trans expired, silent'.trans ran⟩
    · simp [expired] at again

theorem runsOf_append (log : List (Nat × Call)) (time : Nat) (call : Call) (other : Nat) :
    runsOf other (log ++ [(time, call)]) =
      if call.timer = other then runsOf other log ++ [time] else runsOf other log := by
  by_cases same : call.timer = other <;> simp [runsOf, same]

variable {handlers : Handlers}

/-- A pending timer without a remainder runs its handler and is idle. -/
theorem serve_expire (inert : Inert handlers) (wheels : Wheels lower upper due s)
    (pending : (s.timers id).list ≠ none) (spent : (s.timers id).left = 0)
    (level : Nat) :
    ∃ call : Call, call.timer = id ∧
      s.serve handlers level id =
        { s.listDel id with log := s.log ++ [(s.ticks, call)] } := by
  obtain ⟨handler, some_handler⟩ :=
    Option.ne_none_iff_exists'.mp (wheels.handled id pending)
  refine ⟨⟨id, handler, (s.timers id).priv⟩, rfl, ?_⟩
  have quiet := wheels.oneShot id
  have still : ∀ call s, (handlers call s).1 = s := inert
  simp [Scheduler.serve, spent, Scheduler.timerExpire, some_handler,
    Scheduler.unlink_eq_listDel, still, quiet]

/-- The wheels after some turns of the tick `time`. -/
def Turned (time lower upper : Nat) (due : Nat → Option Nat) (s s' : Scheduler) : Prop :=
  ∃ due', Wheels lower upper due' s' ∧ Kept s s' ∧ Fired time due due' s.log s'.log

/-- The turn of a timer whose deadline is the present tick. -/
theorem turned_expire (inert : Inert handlers) (wheels : Wheels lower upper due s)
    (pending : (s.timers id).list ≠ none) (spent : (s.timers id).left = 0)
    (reached : due id = some s.ticks) (level : Nat) :
    Turned s.ticks lower upper due s (s.serve handlers level id) ∧
      (s.serve handlers level id).hashs = (s.listDel id).hashs := by
  obtain ⟨call, about, served⟩ := serve_expire inert wheels pending spent level
  rw [served]
  have kept := Kept.listDel (s := s) id
  refine ⟨⟨Function.update due id none, (wheels.listDel id).of_eq rfl rfl,
    ⟨kept.cursors, kept.ticks, kept.delay, kept.handler⟩, ?_⟩, rfl⟩
  intro other
  by_cases same : other = id
  · subst same
    exact .inr ⟨reached, by simp, by simp [runsOf_append, about]⟩
  · have notAbout : call.timer ≠ other := about ▸ Ne.symm same
    exact .inl ⟨by simp [same], by simp [runsOf_append, notAbout]⟩

/-- A turn of the lower wheel: its timers are all due. -/
theorem turned_low (inert : Inert handlers) (wheels : Wheels s.ticks upper due s)
    {rest : List Nat} (head : s.hashs 0 (s.ticks % LEVEL_SIZE) = id :: rest) :
    Turned s.ticks s.ticks upper due s (s.serve handlers 0 id) ∧
      (s.serve handlers 0 id).hashs 0 (s.ticks % LEVEL_SIZE) = rest := by
  have node : (s.timers id).list = some (0, s.ticks % LEVEL_SIZE) := by
    rw [← wheels.linked.mem, head]
    exact List.mem_cons_self
  obtain ⟨reached, spent⟩ := (wheels.placed id).due_of_low node
  obtain ⟨turned, hashs⟩ :=
    turned_expire inert wheels (by simp [node]) spent reached 0
  exact ⟨turned, hashs ▸ wheels.linked.listDel_head id 0 _ head⟩

/-- A turn that puts a timer elsewhere, with the same deadline. -/
theorem turned_put (wheels : Wheels lower upper due s) {time level slot left : Nat}
    (pending : (s.timers id).list ≠ none)
    (placed : Placed lower upper (due id)
      { s.timers id with list := some (level, slot), left := left }) :
    Turned time lower upper due s ((s.listDel id).put id level slot left) := by
  have removed := wheels.listDel id
  refine ⟨Function.update (Function.update due id none) id (due id),
    removed.put (by simp) (by simpa using wheels.handled id pending) (by simpa using placed),
    (Kept.listDel id).trans Kept.put, ?_⟩
  simpa using Fired.refl

/-- A turn of the upper wheel, at the start of a revolution: a timer is due, stays for
one more revolution, or drops to the lower wheel. -/
theorem turned_high (inert : Inert handlers)
    (wheels : Wheels (s.ticks + 1) upper due s) (start : s.ticks = upper * LEVEL_SIZE)
    (cursor0 : s.cursors 0 = 0) (cursor1 : s.cursors 1 = upper % LEVEL_SIZE)
    {rest : List Nat} (head : s.hashs 1 (upper % LEVEL_SIZE) = id :: rest) :
    Turned s.ticks (s.ticks + 1) upper due s (s.serve handlers 1 id) ∧
      (s.serve handlers 1 id).hashs 1 (upper % LEVEL_SIZE) = rest := by
  have node : (s.timers id).list = some (1, upper % LEVEL_SIZE) := by
    rw [← wheels.linked.mem, head]
    exact List.mem_cons_self
  have removed := wheels.linked.listDel_head id 1 _ head
  obtain ⟨deadline, bound⟩ := (wheels.placed id).due_of_high node
  by_cases spent : (s.timers id).left = 0
  · have reached : due id = some s.ticks := by rw [deadline, spent, start, Nat.add_zero]
    obtain ⟨turned, hashs⟩ :=
      turned_expire inert wheels (by simp [node]) spent reached 1
    exact ⟨turned, hashs ▸ removed⟩
  · have serves : s.serve handlers 1 id = (s.listDel id).drop id 2 := by
      simp [Scheduler.serve, spent]
    rw [serves]
    by_cases long : LEVEL_SIZE ≤ (s.timers id).left
    · rw [Scheduler.drop_upper id (by simpa using long)]
      have once : (s.timers id).left / LEVEL_SIZE = 1 := by
        rw [LEVEL_SIZE_eq] at *
        omega
      have slot : (s.cursors 1 + 1) % LEVEL_SIZE = (upper + 1) % LEVEL_SIZE := by
        rw [cursor1, Nat.mod_add_mod]
      have moved : upper % LEVEL_SIZE ≠ (upper + 1) % LEVEL_SIZE := by
        rw [LEVEL_SIZE_eq]
        omega
      have later : (upper + 1) * LEVEL_SIZE + (s.timers id).left % LEVEL_SIZE =
          upper * LEVEL_SIZE + (s.timers id).left := by
        rw [LEVEL_SIZE_eq] at *
        omega
      simp only [Scheduler.listDel_timers, Scheduler.listDel_cursors, if_true, once, slot]
      refine ⟨turned_put wheels (by simp [node]) ?_, by simp [moved, removed]⟩
      rw [deadline]
      refine Placed.high _ (upper + 1) rfl later.symm ?_ (Nat.le_succ upper) ?_
      · exact (Nat.mod_lt _ (by decide)).trans (by decide)
      · exact Nat.add_lt_add_left (by decide) upper
    · rw [Scheduler.drop_lower id (by simpa using long) (by simp; omega)]
      have slot : (s.cursors 0 + (s.timers id).left) % LEVEL_SIZE =
          (upper * LEVEL_SIZE + (s.timers id).left) % LEVEL_SIZE := by
        rw [cursor0, Nat.zero_add, Nat.mul_add_mod']
      simp only [Scheduler.listDel_timers, Scheduler.listDel_cursors, if_true, slot]
      refine ⟨turned_put wheels (by simp [node]) ?_, by simp [removed]⟩
      rw [deadline]
      refine Placed.low _ rfl rfl ?_ ?_
      · omega
      · omega

/-! ## The loop over a slot -/

theorem Turned.refl {time : Nat} (wheels : Wheels lower upper due s) :
    Turned time lower upper due s s := ⟨due, wheels, Kept.refl, Fired.refl⟩

/-- If every turn serves the first timer of the slot and adds none, the loop empties the
slot. -/
theorem drain_turned {time level slot : Nat} (s₀ : Scheduler)
    (turn : ∀ due s id rest, Wheels lower upper due s → Kept s₀ s →
      s.hashs level slot = id :: rest →
        Turned time lower upper due s (s.serve handlers level id) ∧
          (s.serve handlers level id).hashs level slot = rest) (ids : List Nat) :
    ∀ due s, Wheels lower upper due s → Kept s₀ s → s.hashs level slot = ids →
      Turned time lower upper due s (s.drain handlers level slot ids.length) ∧
        (s.drain handlers level slot ids.length).hashs level slot = [] := by
  induction ids with
  | nil =>
      intro due s wheels _ empty
      exact ⟨Turned.refl wheels, empty⟩
  | cons id rest ih =>
      intro due s wheels kept head
      obtain ⟨turned, tail⟩ := turn due s id rest wheels kept head
      have unfolds : s.drain handlers level slot (id :: rest).length =
          (s.serve handlers level id).drain handlers level slot rest.length := by
        simp [Scheduler.drain, head]
      rw [unfolds]
      obtain ⟨due', wheels', kept', fired⟩ := turned
      obtain ⟨⟨due'', wheels'', kept'', fired'⟩, empty⟩ :=
        ih due' _ wheels' (kept.trans kept') tail
      exact ⟨⟨due'', wheels'', kept'.trans kept'', fired.trans fired'⟩, empty⟩

/-! ## The whole tick -/

/-- Once a slot is empty, its wheel has left it behind. -/
theorem Wheels.advance {lower' upper' level slot : Nat}
    (wheels : Wheels lower upper due s) (empty : s.hashs level slot = [])
    (move : ∀ deadline timer, Placed lower upper deadline timer →
      timer.list ≠ some (level, slot) → Placed lower' upper' deadline timer) :
    Wheels lower' upper' due s where
  linked := wheels.linked
  oneShot := wheels.oneShot
  handled := wheels.handled
  placed id := by
    apply move _ _ (wheels.placed id)
    intro here
    have member := (wheels.linked.mem _ _ id).mpr here
    simp [empty] at member

theorem Wheels.advance_low (wheels : Wheels lower upper due s)
    (empty : s.hashs 0 (lower % LEVEL_SIZE) = []) : Wheels (lower + 1) upper due s :=
  wheels.advance empty fun _ _ => Placed.advance_low

theorem Wheels.advance_high (wheels : Wheels lower upper due s)
    (empty : s.hashs 1 (upper % LEVEL_SIZE) = []) : Wheels lower (upper + 1) due s :=
  wheels.advance empty fun _ _ => Placed.advance_high

/-- A cursor counts modulo the size of a wheel, and carries at the start of a
revolution. -/
theorem bump_eq {level count : Nat} (cursor : s.cursors level = count % LEVEL_SIZE) :
    s.bump level =
      ({ s with cursors := Function.update s.cursors level ((count + 1) % LEVEL_SIZE) },
        decide ((count + 1) % LEVEL_SIZE = 0)) := by
  by_cases inside : s.cursors level + 1 < LEVEL_SIZE
  · have next : (count + 1) % LEVEL_SIZE = s.cursors level + 1 := by
      rw [LEVEL_SIZE_eq] at *
      omega
    simp [Scheduler.bump, inside, next]
  · have next : (count + 1) % LEVEL_SIZE = 0 := by
      rw [LEVEL_SIZE_eq] at *
      omega
    simp [Scheduler.bump, inside, next]

/-- The cursors stand at the present tick. -/
structure OnTime (s : Scheduler) : Prop where
  cursor0 : s.cursors 0 = s.ticks % LEVEL_SIZE
  cursor1 : s.cursors 1 = s.ticks / LEVEL_SIZE % LEVEL_SIZE

/-- What a whole tick does. -/
structure Ticked (due : Nat → Option Nat) (s s' : Scheduler) (due' : Nat → Option Nat) :
    Prop where
  wheels : Wheels (s'.ticks + 1) (s'.ticks / LEVEL_SIZE + 1) due' s'
  onTime : OnTime s'
  ticks : s'.ticks = s.ticks + 1
  fired : Fired s'.ticks due due' s.log s'.log
  delay : ∀ id, (s'.timers id).delay = (s.timers id).delay
  handler : ∀ id, (s'.timers id).handler = (s.timers id).handler

/-- The state in which the slot of the lower wheel is served. -/
def Scheduler.moved (s : Scheduler) : Scheduler :=
  { s with
    ticks := s.ticks + 1
    cursors := Function.update s.cursors 0 ((s.ticks + 1) % LEVEL_SIZE) }

/-- The state after the lower wheel of a tick. -/
def Scheduler.afterLower (handlers : Handlers) (s : Scheduler) : Scheduler :=
  s.moved.drain handlers 0 ((s.ticks + 1) % LEVEL_SIZE)
    (s.moved.hashs 0 ((s.ticks + 1) % LEVEL_SIZE)).length

/-- The loop over the levels serves the slot under the next count of a cursor, and goes
on at the start of a revolution. -/
theorem turnLevels_succ {level count : Nat} (levels : Nat)
    (cursor : s.cursors level = count % LEVEL_SIZE) :
    s.turnLevels handlers (levels + 1) level =
      let slot := (count + 1) % LEVEL_SIZE
      let moved := { s with cursors := Function.update s.cursors level slot }
      let served := moved.drain handlers level slot (s.hashs level slot).length
      if slot = 0 then served.turnLevels handlers levels (level + 1) else served := by
  simp [Scheduler.turnLevels, bump_eq cursor]

theorem tick_eq (onTime : OnTime s) :
    s.rteTimerTickCb handlers =
      if (s.ticks + 1) % LEVEL_SIZE = 0 then
        (s.afterLower handlers).turnLevels handlers 1 1
      else s.afterLower handlers :=
  turnLevels_succ 1 onTime.cursor0

theorem afterLower_turned (inert : Inert handlers)
    (wheels : Wheels (s.ticks + 1) upper due s) :
    Turned (s.ticks + 1) (s.ticks + 1) upper due s.moved (s.afterLower handlers) ∧
      (s.afterLower handlers).hashs 0 ((s.ticks + 1) % LEVEL_SIZE) = [] := by
  refine drain_turned s.moved ?_ _ due s.moved (wheels.of_eq rfl rfl) Kept.refl rfl
  intro due s' id rest wheels kept head
  have ticks : s'.ticks = s.ticks + 1 := kept.ticks
  have turned := turned_low inert (ticks ▸ wheels) (ticks ▸ head)
  rwa [ticks] at turned

theorem upper_turned (inert : Inert handlers)
    (wheels : Wheels (s.ticks + 1) upper due s) (start : s.ticks = upper * LEVEL_SIZE)
    (cursor0 : s.cursors 0 = 0) (cursor1 : s.cursors 1 = upper % LEVEL_SIZE) :
    let served := s.drain handlers 1 (upper % LEVEL_SIZE)
      (s.hashs 1 (upper % LEVEL_SIZE)).length
    Turned s.ticks (s.ticks + 1) upper due s served ∧
      served.hashs 1 (upper % LEVEL_SIZE) = [] := by
  refine drain_turned s ?_ _ due s wheels Kept.refl rfl
  intro due s' id rest wheels' kept head
  have turned := turned_high inert (kept.ticks.symm ▸ wheels') (kept.ticks ▸ start)
    (kept.cursors ▸ cursor0) (kept.cursors ▸ cursor1) head
  rwa [kept.ticks] at turned

/-- After its lower wheel, a tick inside a revolution is over. -/
theorem ticked_inside (inert : Inert handlers) (onTime : OnTime s)
    (wheels : Wheels (s.ticks + 1) (s.ticks / LEVEL_SIZE + 1) due s)
    (inside : (s.ticks + 1) % LEVEL_SIZE ≠ 0) :
    ∃ due', Ticked due s (s.rteTimerTickCb handlers) due' := by
  rw [tick_eq onTime, if_neg inside]
  obtain ⟨⟨due', wheels', kept, fired⟩, empty⟩ := afterLower_turned inert wheels
  have ticks : (s.afterLower handlers).ticks = s.ticks + 1 := kept.ticks
  have sameTurn : (s.ticks + 1) / LEVEL_SIZE = s.ticks / LEVEL_SIZE := by
    rw [LEVEL_SIZE_eq] at *
    omega
  refine ⟨due', ?_, ⟨?_, ?_⟩, ticks, ticks ▸ fired, kept.delay, kept.handler⟩
  · rw [ticks, sameTurn]
    exact wheels'.advance_low empty
  · rw [ticks, kept.cursors]
    simp [Scheduler.moved]
  · rw [ticks, kept.cursors, sameTurn]
    simpa [Scheduler.moved] using onTime.cursor1

/-- At the start of a revolution the upper wheel follows. -/
theorem ticked_carry (inert : Inert handlers) (onTime : OnTime s)
    (wheels : Wheels (s.ticks + 1) (s.ticks / LEVEL_SIZE + 1) due s)
    (carry : (s.ticks + 1) % LEVEL_SIZE = 0) :
    ∃ due', Ticked due s (s.rteTimerTickCb handlers) due' := by
  rw [tick_eq onTime, if_pos carry]
  obtain ⟨⟨due₁, wheels₁, kept₁, fired₁⟩, empty₁⟩ := afterLower_turned inert wheels
  generalize s.afterLower handlers = s₁ at *
  have ticks₁ : s₁.ticks = s.ticks + 1 := kept₁.ticks
  have nextTurn : (s.ticks + 1) / LEVEL_SIZE = s.ticks / LEVEL_SIZE + 1 := by
    rw [LEVEL_SIZE_eq] at *
    omega
  have start : s₁.ticks = (s.ticks / LEVEL_SIZE + 1) * LEVEL_SIZE := by
    rw [LEVEL_SIZE_eq] at *
    omega
  have cursor0 : s₁.cursors 0 = 0 := by simp [kept₁.cursors, Scheduler.moved, carry]
  have cursor1 : s₁.cursors 1 = s.ticks / LEVEL_SIZE % LEVEL_SIZE := by
    simpa [kept₁.cursors, Scheduler.moved] using onTime.cursor1
  generalize upper_eq : s.ticks / LEVEL_SIZE + 1 = upper at *
  have last : s₁.turnLevels handlers 1 1 =
      ({ s₁ with cursors := Function.update s₁.cursors 1 (upper % LEVEL_SIZE) } :
        Scheduler).drain handlers 1 (upper % LEVEL_SIZE)
        (s₁.hashs 1 (upper % LEVEL_SIZE)).length := by
    rw [turnLevels_succ 0 cursor1, ← upper_eq]
    simp [Scheduler.turnLevels]
  obtain ⟨⟨due₂, wheels₂, kept₂, fired₂⟩, empty₂⟩ := upper_turned
    (s := { s₁ with cursors := Function.update s₁.cursors 1 (upper % LEVEL_SIZE) })
    inert ((ticks₁ ▸ wheels₁.advance_low empty₁).of_eq rfl rfl) start
    (by simp [cursor0]) (by simp)
  rw [last]
  have ticks₂ := kept₂.ticks.trans ticks₁
  refine ⟨due₂, ?_, ⟨?_, ?_⟩, ticks₂, ?_, ?_, ?_⟩
  · rw [ticks₂, nextTurn]
    exact ticks₁ ▸ wheels₂.advance_high empty₂
  · rw [ticks₂, carry, kept₂.cursors]
    simp [cursor0]
  · rw [ticks₂, nextTurn, kept₂.cursors]
    simp
  · rw [ticks₂]
    exact fired₁.trans (ticks₁ ▸ fired₂)
  · exact fun id => (kept₂.delay id).trans (kept₁.delay id)
  · exact fun id => (kept₂.handler id).trans (kept₁.handler id)

theorem tick_ticked (inert : Inert handlers) (onTime : OnTime s)
    (wheels : Wheels (s.ticks + 1) (s.ticks / LEVEL_SIZE + 1) due s) :
    ∃ due', Ticked due s (s.rteTimerTickCb handlers) due' := by
  by_cases carry : (s.ticks + 1) % LEVEL_SIZE = 0
  · exact ticked_carry inert onTime wheels carry
  · exact ticked_inside inert onTime wheels carry

/-- Every deadline lies ahead. -/
theorem Wheels.ahead (wheels : Wheels (s.ticks + 1) (s.ticks / LEVEL_SIZE + 1) due s)
    {time : Nat} (pending : due id = some time) : s.ticks < time := by
  cases pending ▸ wheels.placed id with
  | low _ node left after before => exact after
  | high _ turn node time_eq left after before =>
      rw [LEVEL_SIZE_eq] at *
      omega

/-! ## Scheduling -/

/-- The record of an idle timer may change. -/
theorem Wheels.setTimer (wheels : Wheels lower upper due s) {timer : NdfTimer}
    (idle : (s.timers id).list = none) (node : timer.list = none)
    (oneShot : timer.isPeriod = false) :
    Wheels lower upper due (s.setTimer id timer) := by
  have none_due := (wheels.placed id).due_of_idle idle
  rw [← Function.update_eq_self id due, none_due]
  apply wheels.update (wheels.linked.setTimer id (node.trans idle.symm))
  · intro other different
    simp [different]
  · simpa using Placed.idle node
  · simpa using oneShot
  · simp [node]

/-- A timer with a delay is put in the slot of its deadline. -/
theorem wheels_adopt (id : Nat) (onTime : OnTime s)
    (wheels : Wheels (s.ticks + 1) (s.ticks / LEVEL_SIZE + 1) due s)
    (idle : (s.timers id).list = none) (handled : (s.timers id).handler ≠ none)
    (positive : 0 < (s.timers id).delay) (bounded : (s.timers id).delay < TIMER_MAX_TICKS)
    (whole : (s.timers id).left = (s.timers id).delay) :
    ∃ level slot left, s.adopt id LEVEL_DEPTH = (.ok, s.put id level slot left) ∧
      Wheels (s.ticks + 1) (s.ticks / LEVEL_SIZE + 1)
        (Function.update due id (some (s.ticks + (s.timers id).delay)))
        (s.put id level slot left) := by
  by_cases long : LEVEL_SIZE ≤ (s.timers id).delay
  · refine ⟨1, _, _, Scheduler.adopt_upper id long, wheels.put idle handled ?_⟩
    have slot : (s.cursors 1 + (s.timers id).delay / LEVEL_SIZE) % LEVEL_SIZE =
        (s.ticks / LEVEL_SIZE + (s.timers id).delay / LEVEL_SIZE) % LEVEL_SIZE := by
      rw [onTime.cursor1, Nat.mod_add_mod]
    have turns : 1 ≤ (s.timers id).delay / LEVEL_SIZE ∧
        (s.timers id).delay / LEVEL_SIZE < LEVEL_SIZE := by
      rw [TIMER_MAX_TICKS] at bounded
      rw [LEVEL_SIZE_eq] at *
      omega
    rw [slot, whole, onTime.cursor0]
    refine .high _ (s.ticks / LEVEL_SIZE + (s.timers id).delay / LEVEL_SIZE) rfl ?_ ?_ ?_ ?_
    · show s.ticks + (s.timers id).delay = _ +
        ((s.timers id).delay % LEVEL_SIZE + s.ticks % LEVEL_SIZE)
      rw [LEVEL_SIZE_eq]
      omega
    · show (s.timers id).delay % LEVEL_SIZE + s.ticks % LEVEL_SIZE < 2 * LEVEL_SIZE
      rw [LEVEL_SIZE_eq]
      omega
    · exact Nat.add_le_add_left turns.1 _
    · omega
  · have short : (s.timers id).delay < LEVEL_SIZE := Nat.lt_of_not_le long
    refine ⟨0, _, _, Scheduler.adopt_lower id short positive, wheels.put idle handled ?_⟩
    have slot : (s.cursors 0 + (s.timers id).delay) % LEVEL_SIZE =
        (s.ticks + (s.timers id).delay) % LEVEL_SIZE := by
      rw [onTime.cursor0, Nat.mod_add_mod]
    rw [slot]
    exact .low _ rfl rfl (by omega) (by omega)

/-- The delay survives the way through a `timeval`. -/
theorem ndfTimevalToTicks_ndfTicksToTimeval {ticks : Nat} (bounded : ticks < TIMER_MAX_TICKS) :
    ndfTimevalToTicks (ndfTicksToTimeval ticks) = ticks := by
  have usec : (((ticks % 1000 * 1000000 / 1000 : Nat) : Int) * (1000 : Nat)).tdiv 1000000 =
      (ticks % 1000 : Nat) := by
    rw [Int.tdiv_eq_ediv_of_nonneg (by positivity)]
    omega
  have total : (((ndfTicksToTimeval ticks).tvSec * NDF_TIMER_HZ +
      ((ndfTicksToTimeval ticks).tvUsec * NDF_TIMER_HZ).tdiv 1000000) % 2 ^ 64).toNat =
      ticks := by
    rw [TIMER_MAX_TICKS] at bounded
    simp only [ndfTicksToTimeval, NDF_TIMER_HZ]
    rw [usec]
    omega
  simp only [ndfTimevalToTicks, total]
  exact if_neg (Nat.not_le.mpr bounded)

/-! ## The simulation -/

/-- The wheels do what the clocks of the timers say. -/
structure Simulates (clocks : Nat → Clock) (s : Scheduler) : Prop where
  wheels : Wheels (s.ticks + 1) (s.ticks / LEVEL_SIZE + 1) (fun id => (clocks id).due) s
  onTime : OnTime s
  now : ∀ id, (clocks id).now = s.ticks
  runs : ∀ id, (clocks id).runs = runsOf id s.log
  delay : ∀ id, (clocks id).delay = (s.timers id).handler.map fun _ => (s.timers id).delay
  range : ∀ id, (s.timers id).handler ≠ none →
    0 < (s.timers id).delay ∧ (s.timers id).delay < TIMER_MAX_TICKS

variable {clocks : Nat → Clock}

theorem simulates_init : Simulates (fun _ => {}) timerInitScheduler where
  wheels :=
    { linked := ⟨fun _ _ _ => by simp [timerInitScheduler], fun _ _ => List.nodup_nil⟩
      placed := fun _ => .idle rfl
      oneShot := fun _ => rfl
      handled := fun _ pending => absurd rfl pending }
  onTime := ⟨rfl, rfl⟩
  now _ := rfl
  runs _ := rfl
  delay _ := rfl
  range _ handled := absurd rfl handled

theorem simulates_tick (inert : Inert handlers) (simulates : Simulates clocks s) :
    Simulates (fun id => (clocks id).tick) (s.rteTimerTickCb handlers) := by
  obtain ⟨due', ticked⟩ := tick_ticked inert simulates.onTime simulates.wheels
  have each : ∀ id, (clocks id).tick.due = due' id ∧
      (clocks id).tick.runs = runsOf id (s.rteTimerTickCb handlers).log := by
    intro id
    have reached : (clocks id).now + 1 = (s.rteTimerTickCb handlers).ticks := by
      rw [simulates.now id, ticked.ticks]
    rcases ticked.fired id with ⟨kept, silent⟩ | ⟨met, expired, ran⟩
    · have notDue : (clocks id).due ≠ some ((clocks id).now + 1) := by
        intro due
        have passed := ticked.wheels.ahead (kept.trans due)
        omega
      simp [Clock.tick, notDue, kept, silent, simulates.runs id]
    · simp [Clock.tick, reached, met, expired, ran, simulates.runs id]
  have now : ∀ id, (clocks id).tick.now = (s.rteTimerTickCb handlers).ticks := by
    intro id
    rw [ticked.ticks, ← simulates.now id]
    simp only [Clock.tick]
    split <;> rfl
  have delay : ∀ id, (clocks id).tick.delay = (clocks id).delay := by
    intro id
    simp only [Clock.tick]
    split <;> rfl
  refine ⟨?_, ticked.onTime, now, fun id => (each id).2, ?_, ?_⟩
  · rw [show (fun id => (clocks id).tick.due) = due' from funext fun id => (each id).1]
    exact ticked.wheels
  · intro id
    rw [delay, simulates.delay id, ticked.handler, ticked.delay]
  · intro id handled
    rw [ticked.delay]
    exact simulates.range id (ticked.handler id ▸ handled)

theorem simulates_listDel (simulates : Simulates clocks s) (id : Nat) :
    Simulates (fun other => (clocks other).step other (.cancel id)) (s.listDel id) := by
  have deadlines : (fun other => ((clocks other).step other (.cancel id)).due) =
      Function.update (fun other => (clocks other).due) id none := by
    funext other
    by_cases same : other = id
    · simp [Clock.step, same]
    · simp [Clock.step, same, Ne.symm same]
  have kept := Kept.listDel (s := s) id
  have others : ∀ other,
      ((clocks other).step other (.cancel id)).now = (clocks other).now ∧
      ((clocks other).step other (.cancel id)).runs = (clocks other).runs ∧
      ((clocks other).step other (.cancel id)).delay = (clocks other).delay := by
    intro other
    by_cases same : id = other <;> simp [Clock.step, same]
  refine ⟨?_, ⟨?_, ?_⟩, ?_, ?_, ?_, ?_⟩
  · rw [deadlines, kept.ticks]
    exact simulates.wheels.listDel id
  · rw [kept.cursors, kept.ticks, simulates.onTime.cursor0]
  · rw [kept.cursors, kept.ticks, simulates.onTime.cursor1]
  · intro other
    rw [(others other).1, simulates.now, kept.ticks]
  · intro other
    rw [(others other).2.1, simulates.runs, Scheduler.listDel_log]
  · intro other
    rw [(others other).2.2, simulates.delay, kept.delay, kept.handler]
  · intro other handled
    rw [kept.delay]
    exact simulates.range other (kept.handler other ▸ handled)

/-- The state in which `__ndf_timer_sched` looks for a slot. -/
def Scheduler.armed (s : Scheduler) (id : Nat) (delay : Timeval) (handler : Option Nat)
    (arg : Nat) : Scheduler :=
  s.setTimer id { s.timers id with
    handler := handler, priv := arg, isPeriod := false,
    delay := delayTicks delay, left := delayTicks delay }

theorem timerSched_ok {delay : Timeval} {handler : Option Nat} {arg : Nat}
    {s' : Scheduler} (ok : s.timerSched id delay handler arg false = (.ok, s')) :
    handler ≠ none ∧ ndfTimevalToTicks delay < TIMER_MAX_TICKS ∧
      (s.armed id delay handler arg).adopt id LEVEL_DEPTH = (.ok, s') := by
  simp only [Scheduler.timerSched] at ok
  split at ok
  · simp at ok
  · next handled =>
      split at ok
      · simp at ok
      · next bounded =>
          refine ⟨handled, Nat.lt_of_not_le bounded, ?_⟩
          rw [← ok, Scheduler.armed, delayTicks]
          split
          · next zero => simp [zero]
          · next positive => simp [Nat.max_eq_right (Nat.pos_of_ne_zero positive)]

/-- A successful scheduling of an idle timer sets its clock. -/
theorem simulates_set (simulates : Simulates clocks s) {delay : Timeval}
    {handler : Option Nat} {arg : Nat} {s' : Scheduler}
    (idle : (s.timers id).list = none)
    (ok : s.timerSched id delay handler arg false = (.ok, s')) :
    Simulates (fun other =>
      if id = other then (clocks other).set (delayTicks delay) else clocks other) s' := by
  obtain ⟨handled, bounded, adopted⟩ := timerSched_ok ok
  have positive : 0 < delayTicks delay := Nat.lt_of_lt_of_le Nat.one_pos (Nat.le_max_left ..)
  have below : delayTicks delay < TIMER_MAX_TICKS := Nat.max_lt.mpr ⟨by decide, bounded⟩
  have armed : Wheels (s.ticks + 1) (s.ticks / LEVEL_SIZE + 1)
      (fun other => (clocks other).due) (s.armed id delay handler arg) :=
    simulates.wheels.setTimer idle idle rfl
  have onTime : OnTime (s.armed id delay handler arg) :=
    ⟨simulates.onTime.cursor0, simulates.onTime.cursor1⟩
  obtain ⟨level, slot, left, put, wheels⟩ :=
    wheels_adopt id onTime armed
      (by simpa [Scheduler.armed] using idle) (by simpa [Scheduler.armed] using handled)
      (by simpa [Scheduler.armed] using positive)
      (by simpa [Scheduler.armed] using below) (by simp [Scheduler.armed])
  obtain rfl : (s.armed id delay handler arg).put id level slot left = s' := by
    simpa using put.symm.trans adopted
  have deadlines : (fun other => (if id = other then
        (clocks other).set (delayTicks delay) else clocks other).due) =
      Function.update (fun other => (clocks other).due) id
        (some (s.ticks + delayTicks delay)) := by
    funext other
    by_cases same : other = id
    · simp [Clock.set, same, simulates.now]
    · simp [same, Ne.symm same]
  refine ⟨?_, ⟨onTime.cursor0, onTime.cursor1⟩, ?_, ?_, ?_, ?_⟩
  · rw [deadlines]
    simpa [Scheduler.armed] using wheels
  · intro other
    by_cases same : id = other <;> simp [Clock.set, same, simulates.now, Scheduler.armed]
  · intro other
    by_cases same : id = other <;> simp [Clock.set, same, simulates.runs, Scheduler.armed]
  · intro other
    by_cases same : other = id
    · obtain ⟨call, rfl⟩ := Option.ne_none_iff_exists'.mp handled
      simp [Clock.set, same, Scheduler.armed]
    · simp [same, Ne.symm same, simulates.delay, Scheduler.armed]
  · intro other
    by_cases same : other = id
    · intro _
      simpa [same, Scheduler.armed] using And.intro positive below
    · simpa [same, Scheduler.armed] using simulates.range other

theorem succeeded_eq_some {result : Ret × Scheduler} {s' : Scheduler}
    (done : succeeded result = some s') : result = (.ok, s') := by
  obtain ⟨ret, state⟩ := result
  cases ret with
  | ok => simpa [succeeded] using done
  | inval => simp [succeeded] at done
  | aborted => simp [succeeded] at done

/-- A timer that is taken off its list and scheduled again has its clock set. -/
theorem simulates_again (simulates : Simulates clocks s) {delay : Timeval} {arg : Nat}
    {s' : Scheduler}
    (ok : (s.listDel id).timerSched id delay (s.timers id).handler arg false = (.ok, s')) :
    Simulates (fun other =>
      if id = other then (clocks other).set (delayTicks delay) else clocks other) s' := by
  have set := simulates_set (simulates_listDel simulates id) (by simp) ok
  have same : ∀ other, (if id = other then
      ((clocks other).step other (.cancel id)).set (delayTicks delay)
        else (clocks other).step other (.cancel id)) =
      if id = other then (clocks other).set (delayTicks delay) else clocks other := by
    intro other
    by_cases at_id : id = other <;> simp [Clock.step, Clock.set, at_id]
  rwa [funext same] at set

/-- Every operation is simulated by the step of the clocks. -/
theorem simulates_step (inert : Inert handlers) (simulates : Simulates clocks s)
    {op : TimerOp} {s' : Scheduler} (done : step handlers s op = some s') :
    Simulates (fun other => (clocks other).step other op) s' := by
  cases op with
  | tick =>
      obtain rfl : s.rteTimerTickCb handlers = s' := by simpa [step] using done
      exact simulates_tick inert simulates
  | sched id delay handler arg =>
      simp only [step] at done
      split at done
      · simp at done
      · next idle =>
          have ok := succeeded_eq_some done
          simp only [Scheduler.ndfTimerSched] at ok
          split at ok
          · simp at ok
          · exact simulates_set simulates (by simpa [Scheduler.timerPending] using idle) ok
  | cancel id =>
      obtain rfl : s.listDel id = s' := by
        simpa [step, Scheduler.ndfTimerCancel, succeeded,
          Scheduler.unlink_eq_listDel] using done
      exact simulates_listDel simulates id
  | reset id =>
      have ok := succeeded_eq_some done
      have oneShot := simulates.wheels.oneShot id
      simp only [Scheduler.ndfTimerReset, Scheduler.unlink_eq_listDel,
        Scheduler.listDel_timers, if_true, oneShot] at ok
      have handled := (timerSched_ok ok).1
      obtain ⟨positive, bounded⟩ := simulates.range id handled
      have ticks : delayTicks (ndfTicksToTimeval (s.timers id).delay) =
          (s.timers id).delay := by
        rw [delayTicks, ndfTimevalToTicks_ndfTicksToTimeval bounded]
        exact Nat.max_eq_right positive
      have again := simulates_again simulates ok
      have same : ∀ other, (clocks other).step other (.reset id) =
          if id = other then (clocks other).set (s.timers id).delay else clocks other := by
        intro other
        by_cases at_id : id = other
        · subst at_id
          obtain ⟨handler, some_handler⟩ := Option.ne_none_iff_exists'.mp handled
          have delay : (clocks id).delay = some (s.timers id).delay := by
            simp [simulates.delay id, some_handler]
          simp [Clock.step, Clock.set, delay]
        · simp [Clock.step, at_id]
      rw [funext same]
      rwa [ticks] at again
  | update id delay =>
      have ok := succeeded_eq_some done
      have oneShot := simulates.wheels.oneShot id
      simp only [Scheduler.ndfTimerUpdate, Scheduler.unlink_eq_listDel,
        Scheduler.listDel_timers, if_true, oneShot] at ok
      exact simulates_again simulates ok

/-- The wheels simulate the clocks over every run. -/
theorem simulates_run (inert : Inert handlers) (ops : List TimerOp)
    (simulates : Simulates clocks s) {s' : Scheduler}
    (done : run handlers s ops = some s') :
    Simulates (fun id => ops.foldl (Clock.step id) (clocks id)) s' := by
  induction ops generalizing clocks s with
  | nil =>
      obtain rfl : s = s' := by simpa [run] using done
      exact simulates
  | cons op ops ih =>
      obtain ⟨middle, first, rest⟩ := Option.bind_eq_some_iff.mp done
      exact ih (simulates_step inert simulates first) rest

/-! ## Exactness -/

/-- The operation schedules the timer `id`, after the operations `before`, with a delay
of `ticks`. -/
def TimerOp.Schedules (op : TimerOp) (before : List TimerOp) (id ticks : Nat) : Prop :=
  match op with
  | .sched target delay _ _ => target = id ∧ delayTicks delay = ticks
  | .update target delay => target = id ∧ delayTicks delay = ticks
  | .reset target => target = id ∧ (clockOf id before).delay = some ticks
  | _ => False

/-- The number of ticks in a run. -/
def ticksIn (ops : List TimerOp) : Nat := ops.countP (· = .tick)

theorem ticksIn_cons (op : TimerOp) (ops : List TimerOp) :
    ticksIn (op :: ops) = ticksIn ops + if op = .tick then 1 else 0 := by
  by_cases isTick : op = .tick <;> simp [ticksIn, isTick]

namespace Clock

variable (clock : Clock) (ops : List TimerOp)

theorem step_now (op : TimerOp) :
    (clock.step id op).now = clock.now + if op = .tick then 1 else 0 := by
  cases op with
  | tick =>
      simp only [step, tick]
      split <;> rfl
  | sched | cancel | reset | update =>
      simp only [step]
      split <;> rfl

theorem step_other {op : TimerOp} (notTick : op ≠ .tick) (other : op.target ≠ some id) :
    clock.step id op = clock := by
  cases op with
  | tick => exact absurd rfl notTick
  | sched | cancel | reset | update =>
      exact if_neg fun same => other (congrArg some same)

theorem run_now : (ops.foldl (step id) clock).now = clock.now + ticksIn ops := by
  induction ops generalizing clock with
  | nil => rfl
  | cons op ops ih =>
      rw [List.foldl_cons, ih, step_now, ticksIn_cons]
      omega

theorem step_runs_le (op : TimerOp) (past : ∀ time ∈ clock.runs, time ≤ clock.now) :
    ∀ time ∈ (clock.step id op).runs, time ≤ (clock.step id op).now := by
  cases op with
  | tick =>
      simp only [step, tick]
      split
      · intro time ran
        rcases List.mem_append.mp ran with earlier | last
        · exact (past time earlier).trans (Nat.le_succ _)
        · exact Nat.le_of_eq (List.mem_singleton.mp last)
      · exact fun time ran => (past time ran).trans (Nat.le_succ _)
  | sched | cancel | reset | update =>
      simp only [step]
      split <;> exact past

/-- The handler has run in past ticks only. -/
theorem run_runs_le (past : ∀ time ∈ clock.runs, time ≤ clock.now) :
    ∀ time ∈ (ops.foldl (step id) clock).runs,
      time ≤ (ops.foldl (step id) clock).now := by
  induction ops generalizing clock with
  | nil => exact past
  | cons op ops ih => exact ih _ (step_runs_le clock op past)

/-- A clock without a deadline stays silent until it is set again. -/
theorem run_idle (idle : clock.due = none)
    (unset : ∀ op ∈ ops, op.target = some id → op = .cancel id) :
    (ops.foldl (step id) clock).runs = clock.runs := by
  induction ops generalizing clock with
  | nil => rfl
  | cons op ops ih =>
      have quiet : (clock.step id op).due = none ∧ (clock.step id op).runs = clock.runs := by
        by_cases isTick : op = .tick
        · simp [isTick, step, tick, idle]
        · by_cases target : op.target = some id
          · simp [unset op List.mem_cons_self target, step]
          · simp [step_other clock isTick target, idle]
      rw [List.foldl_cons, ih _ quiet.1 fun later member =>
        unset later (List.mem_cons_of_mem op member), quiet.2]

/-- A clock with a deadline runs the handler in the tick of the deadline. -/
theorem run_pending {time : Nat} (pending : clock.due = some time)
    (ahead : clock.now < time) (alone : ∀ op ∈ ops, op.target ≠ some id) :
    (ops.foldl (step id) clock).runs =
      clock.runs ++ if time ≤ clock.now + ticksIn ops then [time] else [] := by
  induction ops generalizing clock with
  | nil => simp [ticksIn, Nat.not_le.mpr ahead]
  | cons op ops ih =>
      have rest : ∀ later ∈ ops, later.target ≠ some id := fun later member =>
        alone later (List.mem_cons_of_mem op member)
      by_cases isTick : op = .tick
      · subst isTick
        rw [List.foldl_cons, ticksIn_cons, if_pos rfl]
        by_cases now : time = clock.now + 1
        · have fires : clock.step id .tick =
              { clock with
                now := clock.now + 1, due := none, runs := clock.runs ++ [time] } := by
            simp [step, tick, pending, now]
          rw [fires, run_idle _ ops rfl fun later member same =>
            absurd same (rest later member), if_pos (by omega)]
        · have waits : clock.step id .tick = { clock with now := clock.now + 1 } := by
            simp [step, tick, pending, now]
          rw [waits, ih { clock with now := clock.now + 1 } pending (by simp; omega) rest]
          simp only [Nat.add_assoc, Nat.add_comm 1]
      · rw [List.foldl_cons, step_other clock isTick (alone op List.mem_cons_self),
          ih clock pending ahead rest, ticksIn_cons, if_neg isTick, Nat.add_zero]

theorem run_delay_pos (positive : ∀ ticks, clock.delay = some ticks → 0 < ticks) :
    ∀ ticks, (ops.foldl (step id) clock).delay = some ticks → 0 < ticks := by
  induction ops generalizing clock with
  | nil => exact positive
  | cons op ops ih =>
      refine ih _ ?_
      cases op with
      | tick =>
          simp only [step, tick]
          split <;> exact positive
      | cancel | reset =>
          simp only [step]
          split <;> exact positive
      | sched target delay | update target delay =>
          simp only [step]
          split
          · intro ticks is
            obtain rfl : delayTicks delay = ticks := by simpa [set] using is
            exact Nat.lt_of_lt_of_le Nat.one_pos (Nat.le_max_left ..)
          · exact positive

end Clock

/-- An operation that schedules a timer sets its clock to the delay. -/
theorem step_of_schedules {op : TimerOp} {before : List TimerOp} {ticks : Nat}
    (schedules : op.Schedules before id ticks) :
    0 < ticks ∧ (clockOf id before).step id op =
      { clockOf id before with
        delay := some ticks, due := some ((clockOf id before).now + ticks) } := by
  have positive : ∀ delay : Timeval, 0 < delayTicks delay := fun delay =>
    Nat.lt_of_lt_of_le Nat.one_pos (Nat.le_max_left ..)
  cases op with
  | tick | cancel => exact schedules.elim
  | sched target delay | update target delay =>
      obtain ⟨rfl, rfl⟩ := schedules
      exact ⟨positive delay, by simp [Clock.step, Clock.set]⟩
  | reset target =>
      obtain ⟨rfl, delay⟩ := schedules
      refine ⟨Clock.run_delay_pos {} before (by simp) ticks delay, ?_⟩
      simp [Clock.step, delay]

/-- In every run from the initial scheduler, a timer that was scheduled after tick `m`
with a delay of `d` ticks, and that no later operation is about, runs its handler in
tick `m + d` and in no other tick after `m`; a timer that was cancelled does not run it
until it is scheduled again. -/
theorem timer_fires_exactly (inert : Inert handlers) (before after : List TimerOp)
    (op : TimerOp) (done : run handlers timerInitScheduler (before ++ op :: after) = some s) :
    (∀ ticks, op.Schedules before id ticks → (∀ later ∈ after, later.target ≠ some id) →
      (runsOf id s.log).filter (ticksIn before < ·) =
        if ticksIn before + ticks ≤ s.ticks then [ticksIn before + ticks] else []) ∧
    (op = .cancel id →
      (∀ later ∈ after, later.target = some id → later = .cancel id) →
      (runsOf id s.log).filter (ticksIn before < ·) = []) := by
  have simulates := simulates_run inert _ simulates_init done
  have now : (clockOf id before).now = ticksIn before := by
    simpa [clockOf] using @Clock.run_now id {} before
  have past : (clockOf id before).runs.filter (ticksIn before < ·) = [] := by
    rw [List.filter_eq_nil_iff]
    intro time ran
    have old := Clock.run_runs_le {} before (by simp) time ran
    rw [← clockOf, now] at old
    simpa using old
  have final : runsOf id s.log =
      (after.foldl (Clock.step id) ((clockOf id before).step id op)).runs := by
    rw [← simulates.runs id, List.foldl_append, List.foldl_cons]
    rfl
  have time : s.ticks =
      ((clockOf id before).step id op).now + ticksIn after := by
    rw [← simulates.now id, List.foldl_append, List.foldl_cons, Clock.run_now]
    rfl
  refine ⟨fun ticks schedules alone => ?_, fun cancels unset => ?_⟩
  · obtain ⟨positive, set⟩ := step_of_schedules schedules
    rw [final, time, set, Clock.run_pending _ after rfl (by simpa using positive) alone,
      List.filter_append, past, List.nil_append, now]
    split
    · simpa using positive
    · rfl
  · subst cancels
    rw [final, Clock.run_idle _ after (by simp [Clock.step]) unset]
    simpa [Clock.step] using past

/-- A timer of two ticks, and three ticks. -/
theorem timer_fires_exactly_two_ticks :
    ∃ s, run (fun _ s => (s, NDTIMER_OK)) timerInitScheduler
        ([] ++ .sched 7 ⟨0, 2000⟩ 1 0 :: [.tick, .tick, .tick]) = some s ∧
      (runsOf 7 s.log).filter (ticksIn [] < ·) =
        if ticksIn [] + 2 ≤ s.ticks then [ticksIn [] + 2] else [] := by
  have succeeds : (run (fun _ s => (s, NDTIMER_OK)) timerInitScheduler
      ([] ++ .sched 7 ⟨0, 2000⟩ 1 0 :: [.tick, .tick, .tick])).isSome := by
    decide +kernel
  obtain ⟨s, done⟩ := Option.isSome_iff_exists.mp succeeds
  exact ⟨s, done, (timer_fires_exactly (fun _ _ => rfl) [] _ _ done).1 2
    ⟨rfl, by decide⟩ (by decide)⟩

end NetDefender.Timers
