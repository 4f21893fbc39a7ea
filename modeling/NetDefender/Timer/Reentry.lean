import NetDefender.Timer.Refinement

/-!
# Timers scheduled by a handler

A one-shot timer runs in the tick of its deadline and in no other tick.  Where the slot of
the lower wheel is served at the end of a revolution, the deadline of a timer with a delay of
a revolution or more is one revolution too early.
-/

namespace NetDefender.Timers

variable {m m' : Machine} {due : Nat → Option Nat} {id time : Nat}

/-- As long as nobody calls the scheduler about a timer, its handler runs in one tick and in no
other tick. -/
def Machine.RunsOnce (m : Machine) (id time : Nat) : Prop :=
  ∀ after m', (∀ action ∈ after, action.target ≠ some id) → m.run after = some m' →
    m'.phase = .idle →
    runsOf id m'.sched.log = runsOf id m.sched.log ++ if time ≤ m'.sched.ticks then [time] else []

/-- A timer that is not pending and is not going to be scheduled again. -/
structure Sleeps (id : Nat) (runs : List Nat) (m : Machine) : Prop where
  oneShot : m.phase.handled = some id → (m.sched.timers id).isPeriod = false
  log : runsOf id m.sched.log = runs
  idle : ∃ due, m.Good due ∧ due id = none

/-- A one-shot timer that is ahead, or has run. -/
inductive Awaits (id time : Nat) (runs : List Nat) (m : Machine) : Prop where
  | ahead (due : Nat → Option Nat) (good : m.Good due) (pending : due id = some time)
      (oneShot : (m.sched.timers id).isPeriod = false) (log : runsOf id m.sched.log = runs)
  | ran (past : time ≤ m.sched.ticks) (sleeps : Sleeps id (runs ++ [time]) m)

theorem Sleeps.step {runs : List Nat} {action : Action} (sleeps : Sleeps id runs m)
    (other : action.target ≠ some id) (ran : m.step action = some m') : Sleeps id runs m' := by
  obtain ⟨oneShot, log, due, good, idle⟩ := sleeps
  obtain ⟨due', good', ticks, outcome⟩ := good.step ran
  have range (handled : m.phase.handled = some id)
      (period : (m.sched.timers id).isPeriod = true) : False :=
    nomatch period.symm.trans (oneShot handled)
  cases outcome id other fun handled period => (range handled period).elim with
  | steady deadline log' lasting enters leaves =>
      refine ⟨fun handled => ?_, log'.trans log, due', good', deadline.trans idle⟩
      rw [lasting.isPeriod]
      exact oneShot (enters handled)
  | fired served handling reached spent log lasting aligned =>
      rw [idle] at reached
      cases reached
  | resumed handling serving returns period log deadline lasting =>
      refine (range ?_ period).elim
      rw [handling]
      rfl

theorem Awaits.step {runs : List Nat} {action : Action} (awaits : Awaits id time runs m)
    (other : action.target ≠ some id) (ran : m.step action = some m') :
    Awaits id time runs m' := by
  cases awaits with
  | ran past sleeps =>
      obtain ⟨due, good, -⟩ := sleeps.idle
      obtain ⟨-, -, ticks, -⟩ := good.step ran
      exact .ran (past.trans (Nat.le.intro ticks.symm)) (sleeps.step other ran)
  | ahead due good pending oneShot log =>
      obtain ⟨due', good', ticks, outcome⟩ := good.step ran
      cases outcome id other (by simp [oneShot]) with
      | steady deadline log' lasting enters leaves =>
          exact .ahead due' good' (deadline.trans pending) (lasting.isPeriod.trans oneShot)
            (log'.trans log)
      | fired served handling reached spent log' lasting aligned =>
          obtain rfl := Option.some.inj (pending.symm.trans reached)
          refine .ran (Nat.le.intro ticks.symm) ⟨fun _ => ?_, ?_, due', good', spent⟩
          · exact lasting.isPeriod.trans oneShot
          · rw [log', log]
      | resumed handling serving returns period log deadline lasting =>
          exact absurd period (by simp [oneShot])

theorem Sleeps.run {runs : List Nat} {actions : List Action} (sleeps : Sleeps id runs m)
    (alone : ∀ action ∈ actions, action.target ≠ some id) (ran : m.run actions = some m') :
    Sleeps id runs m' := by
  apply Machine.run_keeps ran sleeps
  intro before action next member sleeps stepped
  exact sleeps.step (alone action member) stepped

/-- A one-shot timer with a deadline runs in the tick of its deadline. -/
theorem Machine.Good.runsOnce (good : m.Good due) (pending : due id = some time)
    (oneShot : (m.sched.timers id).isPeriod = false) : m.RunsOnce id time := by
  intro after m' alone ran ended
  have awaits : Awaits id time (runsOf id m.sched.log) m' := by
    apply Machine.run_keeps ran (.ahead due good pending oneShot rfl)
    intro before action next member awaits stepped
    exact awaits.step (alone action member) stepped
  cases awaits with
  | ahead due' good' pending' oneShot' log =>
      rw [if_neg (Nat.not_le.mpr (good'.ahead ended pending')), List.append_nil, log]
  | ran past sleeps => rw [if_pos past, sleeps.log]

/-- Every tick comes, and nobody has to call the scheduler. -/
theorem Machine.Good.reaches_alone (good : m.Good due) (id : Nat) (later : m.sched.ticks ≤ time) :
    ∃ actions m', (∀ action ∈ actions, action.target ≠ some id) ∧ m.run actions = some m' ∧
      m'.phase = .idle ∧ m'.sched.ticks = time := by
  obtain ⟨m', ⟨actions, alone, ran⟩, ended, reached⟩ := good.reaches later
  refine ⟨actions, m', fun action member same => ?_, ran, ended, reached⟩
  exact nomatch (alone action member).symm.trans same

/-- A timer that sleeps has no deadline. -/
theorem Sleeps.not_runsOnce {runs : List Nat} (sleeps : Sleeps id runs m) (time : Nat) :
    ¬m.RunsOnce id time := by
  intro once
  obtain ⟨due, good, -⟩ := sleeps.idle
  obtain ⟨actions, m', alone, ran, ended, reached⟩ :=
    good.reaches_alone id (le_max_left m.sched.ticks time)
  have log := once actions m' alone ran ended
  rw [(sleeps.run alone ran).log, sleeps.log, if_pos (reached ▸ le_max_right _ _)] at log
  simp at log

/-- A timer has one deadline. -/
theorem Machine.RunsOnce.unique (good : m.Good due) {other : Nat} (once : m.RunsOnce id time)
    (once' : m.RunsOnce id other) : time = other := by
  obtain ⟨actions, m', alone, ran, ended, reached⟩ :=
    good.reaches_alone id (le_max_left m.sched.ticks (max time other))
  have runs := once actions m' alone ran ended
  rw [once' actions m' alone ran ended, reached] at runs
  rw [if_pos (by simp), if_pos (by simp)] at runs
  exact (List.singleton_inj.mp (List.append_cancel_left runs)).symm

/-- What a timer is after a call that has scheduled it. -/
structure Armed (m : Machine) (id : Nat) (tv : Timeval) (period : Bool) (m' : Machine) :
    Prop where
  good : ∃ due, m'.Good due ∧
    due id = some (m.sched.ticks + delayTicks tv - m.phase.early (delayTicks tv))
  phase : m'.phase = m.phase
  ticks : m'.sched.ticks = m.sched.ticks
  log : m'.sched.log = m.sched.log
  delay : (m'.sched.timers id).delay = delayTicks tv
  bounded : delayTicks tv < TIMER_MAX_TICKS
  isPeriod : (m'.sched.timers id).isPeriod = period
  handler : (m'.sched.timers id).handler ≠ none

theorem Machine.Good.armed (good : m.Good due) (idle : m.sched.timerPending id = false)
    {delay : Timeval} {handler : Option Nat} {arg : Nat} {period : Bool}
    (accepted : (m.sched.timerSched id delay handler arg period).1 = .ok) :
    Armed m id delay period ⟨(m.sched.timerSched id delay handler arg period).2, m.phase⟩ := by
  obtain ⟨s, phase⟩ := m
  obtain ⟨lower, upper, stands, held⟩ := good
  have free : (s.timers id).list = none := by
    simpa [Scheduler.timerPending] using idle
  obtain ⟨aside, ⟨-, bounded, held', delay', isPeriod, handler'⟩ | ⟨-, fails, -⟩⟩ :=
    held_timerSched stands held free delay handler arg period
  · have handled : handler ≠ none := by
      rintro rfl
      cases accepted
    exact {
      good := ⟨_, ⟨_, _, stands.of_eq aside.cursors aside.ticks rfl, held'⟩,
        Function.update_self _ _ _⟩
      phase := rfl
      ticks := aside.ticks
      log := aside.log
      delay := delay'
      bounded := Nat.max_lt.mpr ⟨by decide, bounded⟩
      isPeriod := isPeriod
      handler := handler'.trans_ne handled }
  · exact absurd accepted fails

/-- A call of `ndf_timer_sched` that succeeds. -/
theorem Machine.Good.sched (good : m.Good due) {delay : Timeval} {handler arg : Nat}
    (accepted : (m.sched.ndfTimerSched id delay handler arg).1 = .ok)
    (ran : m.step (.ask (.sched id delay handler arg)) = some m') :
    Armed m id delay false m' := by
  obtain ⟨fresh, -, rfl, -⟩ := good.ask ran
  rw [Request.run]
  rw [Scheduler.ndfTimerSched] at accepted ⊢
  split at accepted
  next => cases accepted
  next near =>
    rw [if_neg near]
    apply good.armed (by simpa [Request.fresh] using fresh) accepted

/-- A one-shot timer that is scheduled in the handler of another timer, or of its own. -/
theorem Armed.runsOnce {delay : Timeval} (armed : Armed m id delay false m') :
    m'.RunsOnce id (m.sched.ticks + delayTicks delay - m.phase.early (delayTicks delay)) := by
  obtain ⟨due, good, pending⟩ := armed.good
  exact good.runsOnce pending armed.isPeriod

/-- The upper cursor is behind in the handlers of the lower wheel, in the first tick of a
revolution. -/
theorem Machine.Good.early_eq (good : m.Good due) {level : Nat} {carry : Bool} {caller : Nat}
    (handling : m.phase = .handling level carry caller) (delay : Nat) :
    m.phase.early delay =
      if level = 0 ∧ m.sched.ticks % LEVEL_SIZE = 0 ∧ LEVEL_SIZE ≤ delay then LEVEL_SIZE
      else 0 := by
  obtain ⟨lower, upper, stands, -⟩ := good
  rw [handling] at stands ⊢
  rw [Phase.early, Phase.place]
  cases stands with
  | low earlier place =>
      obtain ⟨rfl, rfl⟩ := Prod.mk.inj (Option.some.inj place)
      simp
  | high turn place =>
      obtain ⟨rfl, rfl⟩ := Prod.mk.inj (Option.some.inj place)
      simp

/-- Ticks that find the slot of the lower wheel empty, before the end of its revolution. -/
theorem run_quiet (s : Scheduler) (count : Nat) (inside : s.cursors 0 + count < LEVEL_SIZE)
    (empty : ∀ step, 0 < step → step ≤ count → s.hashs 0 (s.cursors 0 + step) = []) :
    (⟨s, .idle⟩ : Machine).run (List.replicate count [.tick, .next]).flatten =
      some ⟨{ s with
        ticks := s.ticks + count
        cursors := Function.update s.cursors 0 (s.cursors 0 + count) }, .idle⟩ := by
  induction count with
  | zero =>
      rw [Nat.add_zero, Nat.add_zero, Function.update_eq_self]
      rfl
  | succ count ih =>
      have before := ih (Nat.lt_of_succ_lt inside)
        fun step positive within => empty step positive (Nat.le_succ_of_le within)
      rw [List.replicate_succ', List.flatten_append, Machine.run_append, before, Option.bind_some]
      have vacant := empty (count + 1) (Nat.succ_pos _) le_rfl
      rw [← Nat.add_assoc] at inside vacant
      simp [Machine.run, Machine.step, Scheduler.bump, inside, vacant]
      exact ⟨rfl, rfl⟩

/-- In every run, a timer that a handler schedules runs once, in the tick of its delay, unless
the handler runs in the lower wheel in a tick in which this wheel wraps and the delay is a
revolution or more. -/
theorem sched_in_handler_iff {before : List Action} (reached : Machine.init.run before = some m)
    {level : Nat} {carry : Bool} {caller : Nat}
    (handling : m.phase = .handling level carry caller) {delay : Timeval} {handler arg : Nat}
    (accepted : (m.sched.ndfTimerSched id delay handler arg).1 = .ok)
    (ran : m.step (.ask (.sched id delay handler arg)) = some m') :
    m'.RunsOnce id (m.sched.ticks + delayTicks delay) ↔
      ¬(level = 0 ∧ m.sched.ticks % LEVEL_SIZE = 0 ∧ LEVEL_SIZE ≤ delayTicks delay) := by
  obtain ⟨due, good⟩ := Machine.init_good.run reached
  have armed := good.sched accepted ran
  have once := armed.runsOnce
  rw [good.early_eq handling] at once
  obtain ⟨due', good', -⟩ := armed.good
  constructor
  · rintro onTime ⟨low, wraps, long⟩
    rw [if_pos ⟨low, wraps, long⟩] at once
    have same := onTime.unique good' once
    rw [LEVEL_SIZE_eq] at *
    omega
  · intro inside
    rwa [if_neg inside] at once

/-- In tick 1, the handler of timer 1 schedules timer 2 for the next tick. -/
theorem sched_in_handler_next_tick :
    ∃ m m', Machine.init.run [.ask (.sched 1 ⟨0, 1000⟩ 1 0), .tick, .serve] = some m ∧
      m.step (.ask (.sched 2 ⟨0, 1000⟩ 2 0)) = some m' ∧
      m'.RunsOnce 2 (m.sched.ticks + delayTicks ⟨0, 1000⟩) := by
  let m := (Machine.init.run [.ask (.sched 1 ⟨0, 1000⟩ 1 0), .tick, .serve]).get
    (by decide +kernel)
  let m' := (m.step (.ask (.sched 2 ⟨0, 1000⟩ 2 0))).get (by decide +kernel)
  have reached : Machine.init.run [.ask (.sched 1 ⟨0, 1000⟩ 1 0), .tick, .serve] = some m :=
    (Option.some_get _).symm
  have ran : m.step (.ask (.sched 2 ⟨0, 1000⟩ 2 0)) = some m' := (Option.some_get _).symm
  have handling : m.phase = .handling 0 false 1 := by decide +kernel
  refine ⟨m, m', reached, ran, ?_⟩
  exact (sched_in_handler_iff reached handling (by decide +kernel) ran).mpr (by decide +kernel)

/-- Timer 1 runs at the end of the first revolution, and its handler schedules timer 2 one
revolution ahead: timer 2 runs in the same tick. -/
theorem sched_at_wrap_runs_at_once :
    ∃ m m', Machine.init.run ([.tick, .next, .ask (.sched 1 ⟨524, 287000⟩ 1 0)] ++
          (List.replicate (LEVEL_SIZE - 2) [.tick, .next]).flatten ++ [.tick, .serve]) = some m ∧
      m.phase = .handling 0 true 1 ∧ m.sched.ticks = LEVEL_SIZE ∧
      (m.sched.ndfTimerSched 2 ⟨524, 288000⟩ 2 0).1 = .ok ∧
      delayTicks ⟨524, 288000⟩ = LEVEL_SIZE ∧
      m.step (.ask (.sched 2 ⟨524, 288000⟩ 2 0)) = some m' ∧
      (m'.run [.ret 0, .next, .serve, .ret 0, .next]).map
        (fun m => (m.phase, m.sched.ticks, runsOf 2 m.sched.log)) =
          some (.idle, LEVEL_SIZE, [LEVEL_SIZE]) ∧
      ¬m'.RunsOnce 2 (LEVEL_SIZE + LEVEL_SIZE) := by
  let first : Scheduler :=
    { timerInitScheduler with ticks := 1, cursors := Function.update (fun _ => 0) 0 1 }
  let waiting : Scheduler := (first.setTimer 1
    ((first.timers 1).armed ⟨524, 287000⟩ (some 1) 0 false)).put 1 0 0 0
  have start : Machine.init.run [.tick, .next, .ask (.sched 1 ⟨524, 287000⟩ 1 0)] =
      some ⟨waiting, .idle⟩ := rfl
  have empty : ∀ step, 0 < step → step ≤ LEVEL_SIZE - 2 →
      waiting.hashs 0 (waiting.cursors 0 + step) = [] := by
    intro step positive _
    have cursor : waiting.cursors 0 = 1 := rfl
    rw [cursor, Scheduler.put_hashs, if_neg (by omega)]
    rfl
  have quiet := run_quiet waiting (LEVEL_SIZE - 2) (by decide +kernel) empty
  let last : Scheduler := { waiting with
    ticks := waiting.ticks + (LEVEL_SIZE - 2)
    cursors := Function.update waiting.cursors 0 (waiting.cursors 0 + (LEVEL_SIZE - 2)) }
  let m := ((Machine.mk last .idle).run [.tick, .serve]).get (by decide +kernel)
  let m' := (m.step (.ask (.sched 2 ⟨524, 288000⟩ 2 0))).get (by decide +kernel)
  have finished : (m'.run [.ret 0, .next, .serve, .ret 0, .next]).map
      (fun m => (m.phase, m.sched.ticks, runsOf 2 m.sched.log)) =
        some (.idle, LEVEL_SIZE, [LEVEL_SIZE]) := by decide +kernel
  refine ⟨m, m', ?_, by decide +kernel, by decide +kernel, by decide +kernel, by decide +kernel,
    (Option.some_get _).symm, finished, fun once => ?_⟩
  · rw [Machine.run_append, Machine.run_append, start, Option.bind_some, quiet, Option.bind_some]
    exact (Option.some_get _).symm
  · obtain ⟨ended, ran, facts⟩ := Option.map_eq_some_iff.mp finished
    obtain ⟨idle, ticks, runs⟩ : ended.phase = .idle ∧ ended.sched.ticks = LEVEL_SIZE ∧
        runsOf 2 ended.sched.log = [LEVEL_SIZE] := by
      simpa using facts
    have none := once _ ended (by decide) ran idle
    have before : runsOf 2 m'.sched.log = [] := by decide +kernel
    rw [runs, before, ticks, if_neg (by decide)] at none
    cases none

end NetDefender.Timers
