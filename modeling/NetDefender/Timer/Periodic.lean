import NetDefender.Timer.Reentry

/-!
# Periodic timers

A periodic timer is scheduled again in the tick in which it runs.  A timer with a period of a
revolution or more never runs in the lower wheel in the first tick of a revolution, so that
its next deadline is exactly one period later.
-/

namespace NetDefender.Timers

variable {m m' : Machine} {due : Nat → Option Nat} {id start period : Nat}
variable {runs : List Nat}

/-- Whenever the handler of a timer returns, it returns `NDTIMER_OK`. -/
def Machine.Renews (id : Nat) : Machine → List Action → Prop
  | _, [] => True
  | m, action :: actions =>
      (m.phase.handled = some id → ∀ err, action = .ret err → err = NDTIMER_OK) ∧
        ∀ m', m.step action = some m' → m'.Renews id actions

theorem Machine.renews_of_ok {actions : List Action}
    (ok : ∀ err, .ret err ∈ actions → err = NDTIMER_OK) : m.Renews id actions := by
  induction actions generalizing m with
  | nil => trivial
  | cons action actions ih =>
      refine ⟨fun _ err same => ok err (same ▸ List.mem_cons_self), fun m' _ => ih ?_⟩
      exact fun err member => ok err (List.mem_cons_of_mem _ member)

/-- The ticks of the first periods. -/
def periodTicks (start period count : Nat) : List Nat :=
  (List.range count).map fun index => start + (index + 1) * period

theorem periodTicks_succ (count : Nat) :
    periodTicks start period (count + 1) =
      periodTicks start period count ++ [start + (count + 1) * period] := by
  rw [periodTicks, List.range_succ, List.map_append]
  rfl

/-- A periodic timer that has run in its first periods.  It is ahead, or its handler runs and
it can be scheduled again. -/
structure Recurs (id start period : Nat) (runs : List Nat) (count : Nat) (m : Machine) :
    Prop where
  isPeriod : (m.sched.timers id).isPeriod = true
  delay : (m.sched.timers id).delay = period
  handler : (m.sched.timers id).handler ≠ none
  log : runsOf id m.sched.log = runs ++ periodTicks start period count
  state : ∃ due, m.Good due ∧
    ((m.phase.handled ≠ some id ∧ start + count * period ≤ m.sched.ticks ∧
        due id = some (start + (count + 1) * period)) ∨
      (m.phase.handled = some id ∧ m.sched.ticks = start + count * period ∧ due id = none ∧
        (LEVEL_SIZE ≤ period → m.phase.place ≠ some (0, true))))

theorem Recurs.step {count : Nat} {action : Action} (recurs : Recurs id start period runs count m)
    (positive : 0 < period) (bounded : period < TIMER_MAX_TICKS)
    (other : action.target ≠ some id)
    (renews : m.phase.handled = some id → ∀ err, action = .ret err → err = NDTIMER_OK)
    (ran : m.step action = some m') : ∃ count', Recurs id start period runs count' m' := by
  obtain ⟨isPeriod, delay, handler, log, due, good, state⟩ := recurs
  obtain ⟨due', good', ticks, outcome⟩ := good.step ran
  have now : m.sched.ticks ≤ m'.sched.ticks := by
    rw [ticks]
    exact Nat.le_add_right _ _
  cases outcome id other fun _ _ => ⟨handler, delay ▸ positive, delay ▸ bounded⟩ with
  | steady deadline log' lasting enters leaves =>
      refine ⟨count, lasting.isPeriod.trans isPeriod, lasting.delay.trans delay, ?_,
        log'.trans log, due', good', ?_⟩
      · rw [lasting.handler]
        exact handler
      · rcases state with ⟨outside, past, pending⟩ | ⟨inside, present, idle, aligned⟩
        · exact Or.inl ⟨fun entered => outside (enters entered), past.trans now,
            deadline.trans pending⟩
        · rcases leaves inside with same | ⟨err, returns, finished⟩
          · refine Or.inr ⟨same ▸ inside, ?_, deadline.trans idle, same ▸ aligned⟩
            have noTick : action ≠ .tick := by
              rintro rfl
              rw [(Machine.handled_of_moves (Or.inl rfl) ran).1] at inside
              cases inside
            rw [ticks, if_neg noTick, Nat.add_zero, present]
          · rcases finished with fails | oneShot
            · exact absurd (renews inside err returns) fails
            · exact absurd (isPeriod.symm.trans oneShot) (by decide)
  | fired served handling reached spent log' lasting aligned =>
      have present : m.sched.ticks = start + (count + 1) * period := by
        rcases state with ⟨-, -, pending⟩ | ⟨inside, -⟩
        · exact Option.some.inj (reached.symm.trans pending)
        · rw [served] at inside
          cases inside
      have noTick : action ≠ .tick := by
        rintro rfl
        have outside := (Machine.handled_of_moves (Or.inl rfl) ran).2
        rw [handling] at outside
        cases outside
      refine ⟨count + 1, lasting.isPeriod.trans isPeriod, lasting.delay.trans delay, ?_, ?_,
        due', good', Or.inr ⟨?_, ?_, spent, fun long => ?_⟩⟩
      · rw [lasting.handler]
        exact handler
      · rw [log', log, periodTicks_succ, List.append_assoc, present]
      · rw [handling]
        rfl
      · rw [ticks, if_neg noTick, Nat.add_zero, present]
      · rw [← delay] at long
        have place := aligned long
        rw [served] at place
        rw [handling]
        exact place
  | resumed handling serving returns _ log' deadline lasting =>
      have inside : m.phase.handled = some id := by
        rw [handling]
        rfl
      obtain ⟨present, aligned⟩ : m.sched.ticks = start + count * period ∧
          (LEVEL_SIZE ≤ period → m.phase.place ≠ some (0, true)) := by
        rcases state with ⟨outside, -⟩ | ⟨-, present, -, aligned⟩
        · exact absurd inside outside
        · exact ⟨present, aligned⟩
      have onTime : m.phase.early period = 0 := if_neg fun both => aligned both.2 both.1
      refine ⟨count, lasting.isPeriod.trans isPeriod, lasting.delay.trans delay, ?_,
        log'.trans log, due', good', Or.inl ⟨?_, ?_, ?_⟩⟩
      · rw [lasting.handler]
        exact handler
      · rw [serving]
        exact (Option.some_ne_none _).symm
      · exact present ▸ now
      · rw [deadline, delay, onTime, present, Nat.sub_zero, Nat.add_mul, Nat.one_mul,
          Nat.add_assoc]

/-- What holds in every step of a run, as long as the handler returns `NDTIMER_OK`. -/
theorem Recurs.run {count : Nat} {actions : List Action}
    (recurs : Recurs id start period runs count m) (positive : 0 < period)
    (bounded : period < TIMER_MAX_TICKS) (alone : ∀ action ∈ actions, action.target ≠ some id)
    (renews : m.Renews id actions) (ran : m.run actions = some m') :
    ∃ count', Recurs id start period runs count' m' := by
  induction actions generalizing m count with
  | nil =>
      obtain rfl := Option.some.inj ran
      exact ⟨count, recurs⟩
  | cons action actions ih =>
      obtain ⟨next, stepped, ran⟩ := Option.bind_eq_some_iff.mp ran
      obtain ⟨returns, renews⟩ := renews
      obtain ⟨other, alone⟩ := List.forall_mem_cons.mp alone
      obtain ⟨count', recurs'⟩ := recurs.step positive bounded other returns stepped
      exact ih recurs' alone (renews next stepped) ran

/-- Between ticks, all the periods that have passed have had their run. -/
theorem Recurs.log_eq {count : Nat} (recurs : Recurs id start period runs count m)
    (idle : m.phase = .idle) :
    runsOf id m.sched.log =
      runs ++ periodTicks start period ((m.sched.ticks - start) / period) := by
  obtain ⟨-, -, -, log, due, good, ⟨-, past, pending⟩ | ⟨inside, -⟩⟩ := recurs
  · have ahead := good.ahead idle pending
    have passed : (m.sched.ticks - start) / period = count := by
      apply Nat.div_eq_of_lt_le
      · exact Nat.le_sub_of_add_le' past
      · exact Nat.sub_lt_left_of_lt_add (Nat.le_of_add_right_le past) ahead
    rw [log, passed]
  · rw [idle] at inside
    cases inside

/-- A call of `ndf_timer_sched_period` that succeeds. -/
theorem Machine.Good.schedPeriod (good : m.Good due) {intv : Timeval} {handler arg : Nat}
    (accepted : (m.sched.ndfTimerSchedPeriod id intv handler arg).1 = .ok)
    (ran : m.step (.ask (.schedPeriod id intv handler arg)) = some m') :
    Armed m id intv true m' := by
  obtain ⟨fresh, -, rfl, -⟩ := good.ask ran
  rw [Request.run]
  rw [Scheduler.ndfTimerSchedPeriod] at accepted ⊢
  split at accepted
  next => cases accepted
  next near =>
    rw [if_neg near]
    exact good.armed (by simpa [Request.fresh] using fresh) accepted

/-- In every run, a periodic timer that is scheduled between two ticks runs exactly in the
ticks that are a multiple of its period later, as long as its handler returns `NDTIMER_OK` and
nobody calls the scheduler about it. -/
theorem periodic_exact {before after : List Action} (reached : Machine.init.run before = some m)
    (idle : m.phase = .idle) {intv : Timeval} {handler arg : Nat}
    (accepted : (m.sched.ndfTimerSchedPeriod id intv handler arg).1 = .ok) {first : Machine}
    (ran : m.step (.ask (.schedPeriod id intv handler arg)) = some first)
    (alone : ∀ action ∈ after, action.target ≠ some id) (renews : first.Renews id after)
    (ran' : first.run after = some m') (idle' : m'.phase = .idle) :
    runsOf id m'.sched.log = runsOf id m.sched.log ++
      periodTicks m.sched.ticks (delayTicks intv)
        ((m'.sched.ticks - m.sched.ticks) / delayTicks intv) := by
  obtain ⟨due, good⟩ := Machine.init_good.run reached
  have armed := good.schedPeriod accepted ran
  obtain ⟨due', good', pending⟩ := armed.good
  have recurs : Recurs id m.sched.ticks (delayTicks intv) (runsOf id m.sched.log) 0 first := by
    refine ⟨armed.isPeriod, armed.delay, armed.handler, ?_, due', good', Or.inl ⟨?_, ?_, ?_⟩⟩
    · rw [armed.log]
      exact (List.append_nil _).symm
    · rw [armed.phase, idle]
      exact (Option.some_ne_none _).symm
    · rw [armed.ticks, Nat.zero_mul, Nat.add_zero]
    · rw [pending, idle, Phase.early_idle, Nat.sub_zero, Nat.zero_add, Nat.one_mul]
  obtain ⟨count, recurs'⟩ :=
    recurs.run (delayTicks_pos intv) armed.bounded alone renews ran'
  exact recurs'.log_eq idle'

/-- A period of two ticks, and five ticks. -/
theorem periodic_exact_two_ticks :
    ∃ first m', Machine.init.step (.ask (.schedPeriod 1 ⟨0, 2000⟩ 1 0)) = some first ∧
      first.run [.tick, .next, .tick, .serve, .ret 0, .next, .tick, .next, .tick, .serve, .ret 0,
        .next, .tick, .next] = some m' ∧
      runsOf 1 m'.sched.log = [2, 4] := by
  let first := (Machine.init.step (.ask (.schedPeriod 1 ⟨0, 2000⟩ 1 0))).get (by decide +kernel)
  let m' := (first.run [.tick, .next, .tick, .serve, .ret 0, .next, .tick, .next, .tick, .serve,
    .ret 0, .next, .tick, .next]).get (by decide +kernel)
  have ran : Machine.init.step (.ask (.schedPeriod 1 ⟨0, 2000⟩ 1 0)) = some first :=
    (Option.some_get _).symm
  have ran' : first.run [.tick, .next, .tick, .serve, .ret 0, .next, .tick, .next, .tick, .serve,
      .ret 0, .next, .tick, .next] = some m' := (Option.some_get _).symm
  have renews : first.Renews 1 [.tick, .next, .tick, .serve, .ret 0, .next, .tick, .next, .tick,
      .serve, .ret 0, .next, .tick, .next] := Machine.renews_of_ok (by simp [NDTIMER_OK])
  have idle : m'.phase = .idle := by decide +kernel
  have ticks : m'.sched.ticks = 5 := by decide +kernel
  refine ⟨first, m', ran, ran', ?_⟩
  rw [@periodic_exact Machine.init m' 1 [] _ rfl rfl ⟨0, 2000⟩ 1 0 (by decide +kernel) first ran
    (by decide) renews ran' idle, ticks]
  decide +kernel

end NetDefender.Timers
