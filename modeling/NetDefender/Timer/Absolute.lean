import NetDefender.Timer.Reentry

/-!
# Absolute times

`ndf_time_now` counts the ticks in 32 bits, so that the clock starts again after `2 ^ 32` ticks.
`ndf_timer_sched_abs` compares a time with it and schedules the difference.
-/

namespace NetDefender.Timers

/-! ## `struct timeval` -/

/-- `timercmp(left, right, >)`. -/
def timerAfter (left right : Timeval) : Bool :=
  if left.tvSec = right.tvSec then left.tvUsec > right.tvUsec else left.tvSec > right.tvSec

/-- `timeradd`. -/
def timeradd (left right : Timeval) : Timeval :=
  let tvSec := left.tvSec + right.tvSec
  let tvUsec := left.tvUsec + right.tvUsec
  if tvUsec ≥ 1000000 then ⟨tvSec + 1, tvUsec - 1000000⟩ else ⟨tvSec, tvUsec⟩

/-- `timersub`. -/
def timersub (left right : Timeval) : Timeval :=
  let tvSec := left.tvSec - right.tvSec
  let tvUsec := left.tvUsec - right.tvUsec
  if tvUsec < 0 then ⟨tvSec - 1, tvUsec + 1000000⟩ else ⟨tvSec, tvUsec⟩

section Timeval

variable {ticks other : Nat}

theorem ndfTicksToTimeval_eq (ticks : Nat) :
    ndfTicksToTimeval ticks = ⟨(ticks / 1000 : Nat), (ticks % 1000 * 1000 : Nat)⟩ := by
  have millis : ticks % 1000 * 1000000 / 1000 = ticks % 1000 * 1000 := by omega
  rw [ndfTicksToTimeval, NDF_TIMER_HZ, millis]

theorem timerAfter_ticks :
    timerAfter (ndfTicksToTimeval ticks) (ndfTicksToTimeval other) = decide (other < ticks) := by
  simp only [ndfTicksToTimeval_eq, timerAfter]
  split
  next same =>
    rw [decide_eq_decide]
    omega
  next different =>
    rw [decide_eq_decide]
    omega

theorem timeradd_ticks :
    timeradd (ndfTicksToTimeval ticks) (ndfTicksToTimeval other) =
      ndfTicksToTimeval (ticks + other) := by
  simp only [ndfTicksToTimeval_eq, timeradd]
  split
  next carries =>
    rw [Timeval.mk.injEq]
    omega
  next fits =>
    rw [Timeval.mk.injEq]
    omega

theorem timersub_ticks (earlier : other ≤ ticks) :
    timersub (ndfTicksToTimeval ticks) (ndfTicksToTimeval other) =
      ndfTicksToTimeval (ticks - other) := by
  simp only [ndfTicksToTimeval_eq, timersub]
  split
  next borrows =>
    rw [Timeval.mk.injEq]
    omega
  next fits =>
    rw [Timeval.mk.injEq]
    omega

end Timeval

/-! ## The clock -/

/-- `__time_now`; the sum is taken in 32 bits. -/
def Scheduler.timeNow (s : Scheduler) : Timeval :=
  ndfTicksToTimeval (s.lowerTicks LEVEL_DEPTH % 2 ^ 32)

/-- `ndf_timer_sched_abs`.  A time that is not ahead calls the handler. -/
def Scheduler.ndfTimerSchedAbs (handlers : Handlers) (s : Scheduler) (id : Nat)
    (expire : Timeval) (handler arg : Nat) : Ret × Scheduler :=
  let now := s.timeNow
  if !timerAfter expire now then
    let call : Call := ⟨id, handler, arg⟩
    (.ok, (handlers call { s with log := s.log ++ [(s.ticks, call)] }).1)
  else
    let delta := timersub expire now
    if delta.tvSec ≥ TIMER_MAX_SECS then (.inval, s)
    else s.timerSched id delta (some handler) arg false

variable {m m' : Machine} {due : Nat → Option Nat} {id delta : Nat} {handlers : Handlers}

/-- A round of both wheels is 64 rounds of the clock. -/
theorem clock_mod (ticks : Nat) :
    (ticks % LEVEL_SIZE + ticks / LEVEL_SIZE % LEVEL_SIZE * LEVEL_SIZE) % 2 ^ 32 =
      ticks % 2 ^ 32 := by
  have rounds : (2 : Nat) ^ 32 ∣ LEVEL_SIZE * LEVEL_SIZE := ⟨64, rfl⟩
  rw [Nat.mul_comm (ticks / LEVEL_SIZE % LEVEL_SIZE), ← Nat.mod_mul, Nat.mod_mod_of_dvd _ rounds]

/-- Between ticks, the clock shows the ticks modulo `2 ^ 32`. -/
theorem Machine.Good.timeNow_eq (good : m.Good due) (idle : m.phase = .idle) :
    m.sched.timeNow = ndfTicksToTimeval (m.sched.ticks % 2 ^ 32) := by
  obtain ⟨lower, upper, stands, -⟩ := good
  rw [idle] at stands
  cases stands with
  | low earlier place => cases place
  | high turn place => cases place
  | idle cursor0 cursor1 =>
      have sum : m.sched.lowerTicks LEVEL_DEPTH =
          m.sched.cursors 0 + m.sched.cursors 1 * LEVEL_SIZE := by
        have levels : List.range LEVEL_DEPTH = [0, 1] := rfl
        rw [Scheduler.lowerTicks, levels, List.map_cons, List.map_cons, List.map_nil,
          List.sum_cons, List.sum_cons, List.sum_nil, getLevelTicks, getLevelTicks, Nat.pow_zero,
          Nat.pow_one, Nat.mul_one, Nat.add_zero]
      rw [Scheduler.timeNow, sum, cursor0, cursor1, clock_mod]

/-! ## Scheduling at a time -/

section Absolute

variable {expire handler arg : Nat}

/-- The time is not ahead of the clock. -/
theorem schedAbs_now (good : m.Good due) (idle : m.phase = .idle)
    (past : expire ≤ m.sched.ticks % 2 ^ 32) :
    m.sched.ndfTimerSchedAbs handlers id (ndfTicksToTimeval expire) handler arg =
      (.ok, (handlers ⟨id, handler, arg⟩
        { m.sched with log := m.sched.log ++ [(m.sched.ticks, ⟨id, handler, arg⟩)] }).1) := by
  rw [Scheduler.ndfTimerSchedAbs]
  dsimp only
  rw [good.timeNow_eq idle, timerAfter_ticks, decide_eq_false (Nat.not_lt.mpr past)]
  rfl

/-- The time is too far ahead. -/
theorem schedAbs_far (good : m.Good due) (idle : m.phase = .idle)
    (far : m.sched.ticks % 2 ^ 32 + TIMER_MAX_SECS * 1000 ≤ expire) :
    m.sched.ndfTimerSchedAbs handlers id (ndfTicksToTimeval expire) handler arg =
      (.inval, m.sched) := by
  have range : TIMER_MAX_SECS = 4294967 := rfl
  have ahead : m.sched.ticks % 2 ^ 32 < expire := by omega
  have seconds : ((expire - m.sched.ticks % 2 ^ 32) / 1000 : Nat) ≥ (TIMER_MAX_SECS : Int) := by
    rw [range] at far ⊢
    omega
  rw [Scheduler.ndfTimerSchedAbs]
  dsimp only
  rw [good.timeNow_eq idle, timerAfter_ticks, decide_eq_true ahead, timersub_ticks ahead.le,
    if_neg (by simp), if_pos]
  rw [ndfTicksToTimeval_eq]
  exact seconds

/-- The time is ahead. -/
theorem schedAbs_ahead (good : m.Good due) (idle : m.phase = .idle)
    (ahead : m.sched.ticks % 2 ^ 32 < expire)
    (near : expire < m.sched.ticks % 2 ^ 32 + TIMER_MAX_SECS * 1000) :
    m.sched.ndfTimerSchedAbs handlers id (ndfTicksToTimeval expire) handler arg =
      m.sched.timerSched id (ndfTicksToTimeval (expire - m.sched.ticks % 2 ^ 32)) (some handler)
        arg false := by
  have range : TIMER_MAX_SECS = 4294967 := rfl
  rw [Scheduler.ndfTimerSchedAbs]
  dsimp only
  rw [good.timeNow_eq idle, timerAfter_ticks, decide_eq_true ahead, timersub_ticks ahead.le]
  rw [if_neg (by simp), if_neg]
  rw [ndfTicksToTimeval_eq]
  dsimp only
  omega

/-- A time that is ahead sets a deadline. -/
theorem schedAbs_runsOnce (good : m.Good due) (idle : m.phase = .idle)
    (free : m.sched.timerPending id = false) (ahead : m.sched.ticks % 2 ^ 32 < expire)
    (near : expire < m.sched.ticks % 2 ^ 32 + TIMER_MAX_SECS * 1000) :
    (⟨(m.sched.ndfTimerSchedAbs handlers id (ndfTicksToTimeval expire) handler arg).2,
      .idle⟩ : Machine).RunsOnce id (m.sched.ticks + (expire - m.sched.ticks % 2 ^ 32)) := by
  rw [schedAbs_ahead good idle ahead near]
  generalize count : expire - m.sched.ticks % 2 ^ 32 = ticks
  have bounded : ticks < TIMER_MAX_TICKS := by
    have range : TIMER_MAX_SECS * 1000 < TIMER_MAX_TICKS := by decide
    omega
  have positive : 0 < ticks := by omega
  have back := ndfTimevalToTicks_ndfTicksToTimeval bounded
  have accepted : (m.sched.timerSched id (ndfTicksToTimeval ticks) (some handler) arg false).1 =
      .ok := by
    obtain ⟨lower, upper, stands, held⟩ := good
    have node : (m.sched.timers id).list = none := by
      simpa [Scheduler.timerPending] using free
    obtain ⟨-, ⟨ok, -⟩ | ⟨why, -⟩⟩ := held_timerSched stands held node (ndfTicksToTimeval ticks)
      (some handler) arg false
    · exact ok
    · rw [back] at why
      exact absurd (why.resolve_left (Option.some_ne_none _)) (Nat.not_le.mpr bounded)
  have once := (good.armed free accepted).runsOnce
  have early : m.phase.early (delayTicks (ndfTicksToTimeval ticks)) = 0 := by
    rw [idle]
    exact Phase.early_idle _
  rw [early, Nat.sub_zero, delayTicks, back, Nat.max_eq_right positive, idle] at once
  exact once

/-- A time that is ahead runs no handler. -/
theorem schedAbs_log (good : m.Good due) (idle : m.phase = .idle)
    (free : m.sched.timerPending id = false) (ahead : m.sched.ticks % 2 ^ 32 < expire) :
    (m.sched.ndfTimerSchedAbs handlers id (ndfTicksToTimeval expire) handler arg).2.log =
      m.sched.log := by
  by_cases near : expire < m.sched.ticks % 2 ^ 32 + TIMER_MAX_SECS * 1000
  · rw [schedAbs_ahead good idle ahead near]
    obtain ⟨lower, upper, stands, held⟩ := good
    have node : (m.sched.timers id).list = none := by
      simpa [Scheduler.timerPending] using free
    exact (held_timerSched stands held node _ (some handler) arg false).1.log
  · rw [schedAbs_far good idle (Nat.not_lt.mp near)]

/-- A timer that is not pending sleeps between ticks. -/
theorem Machine.Good.sleeps (good : m.Good due) (idle : m.phase = .idle)
    (free : m.sched.timerPending id = false) : Sleeps id (runsOf id m.sched.log) m where
  oneShot handled := by
    rw [idle] at handled
    cases handled
  log := rfl
  idle := by
    obtain ⟨lower, upper, stands, held⟩ := good
    have node : (m.sched.timers id).list = none := by
      simpa [Scheduler.timerPending] using free
    exact ⟨due, ⟨lower, upper, stands, held⟩, (held.seated id).placed.due_of_idle node⟩

/-- In every run, the clock does not go back from one tick to a later one if and only if it
does not in 32 bits.  A timer with an absolute time, read from the clock at an earlier tick,
runs in its tick, or at once if it is late, if and only if the clock has not started again
since, or has come past that time again. -/
theorem sched_abs_iff {before later : List Action} (reached : Machine.init.run before = some m)
    (idle : m.phase = .idle) (ran : m.run later = some m') (idle' : m'.phase = .idle)
    (positive : 0 < delta) (bounded : delta < 2 ^ 31)
    (grows : ∀ call s, ∃ more, (handlers call s).1.log = s.log ++ more)
    (free : m'.sched.timerPending id = false) :
    let expire := timeradd m.sched.timeNow (ndfTicksToTimeval delta)
    let result := m'.sched.ndfTimerSchedAbs handlers id expire handler arg
    (timerAfter m.sched.timeNow m'.sched.timeNow = false ↔
      m.sched.ticks % 2 ^ 32 ≤ m'.sched.ticks % 2 ^ 32) ∧
    ((if m'.sched.ticks < m.sched.ticks + delta then
        (⟨result.2, .idle⟩ : Machine).RunsOnce id (m.sched.ticks + delta)
      else
        ∃ more, result.2.log = m'.sched.log ++ (m'.sched.ticks, ⟨id, handler, arg⟩) :: more) ↔
      (m.sched.ticks / 2 ^ 32 = m'.sched.ticks / 2 ^ 32 ∨
        m.sched.ticks % 2 ^ 32 + delta ≤ m'.sched.ticks % 2 ^ 32)) := by
  dsimp only
  obtain ⟨due, good⟩ := Machine.init_good.run reached
  obtain ⟨due', good'⟩ := good.run ran
  have passed := good.run_ticks ran
  have range : TIMER_MAX_SECS = 4294967 := rfl
  rw [good.timeNow_eq idle, good'.timeNow_eq idle', timeradd_ticks]
  refine ⟨?_, ?_⟩
  · rw [timerAfter_ticks, decide_eq_false_iff_not, Nat.not_lt]
  by_cases late : m.sched.ticks % 2 ^ 32 + delta ≤ m'.sched.ticks % 2 ^ 32
  · have finished : ¬m'.sched.ticks < m.sched.ticks + delta := by omega
    rw [if_neg finished, schedAbs_now good' idle' late]
    refine iff_of_true ?_ (Or.inr late)
    obtain ⟨more, log⟩ := grows ⟨id, handler, arg⟩
      { m'.sched with log := m'.sched.log ++ [(m'.sched.ticks, ⟨id, handler, arg⟩)] }
    exact ⟨more, log.trans (List.append_assoc _ _ _)⟩
  · have ahead := Nat.not_le.mp late
    by_cases same : m.sched.ticks / 2 ^ 32 = m'.sched.ticks / 2 ^ 32
    · have early : m'.sched.ticks < m.sched.ticks + delta := by omega
      have near : m.sched.ticks % 2 ^ 32 + delta <
          m'.sched.ticks % 2 ^ 32 + TIMER_MAX_SECS * 1000 := by
        rw [range]
        omega
      have deadline : m'.sched.ticks + (m.sched.ticks % 2 ^ 32 + delta - m'.sched.ticks % 2 ^ 32) =
          m.sched.ticks + delta := by omega
      have once := @schedAbs_runsOnce _ _ id handlers _ handler arg good' idle' free ahead near
      rw [deadline] at once
      rw [if_pos early]
      exact iff_of_true once (Or.inl same)
    · refine iff_of_false ?_ (not_or.mpr ⟨same, late⟩)
      split
      next early =>
        -- the clock has started again: the time seems to be almost a whole round ahead
        have far : m'.sched.ticks % 2 ^ 32 + TIMER_MAX_SECS * 1000 ≤
            m.sched.ticks % 2 ^ 32 + delta := by
          rw [range]
          omega
        rw [schedAbs_far good' idle' far, ← idle']
        exact (good'.sleeps idle' free).not_runsOnce _
      next =>
        rintro ⟨more, log⟩
        rw [schedAbs_log good' idle' free ahead] at log
        simp at log

/-- Two ticks ahead, and one tick later. -/
theorem sched_abs_one_tick_later :
    ∃ m', Machine.init.run [.tick, .next] = some m' ∧
      timerAfter Machine.init.sched.timeNow m'.sched.timeNow = false ∧
      (⟨(m'.sched.ndfTimerSchedAbs (fun _ s => (s, NDTIMER_OK)) 1
        (timeradd Machine.init.sched.timeNow (ndfTicksToTimeval 2)) 1 0).2, .idle⟩ :
          Machine).RunsOnce 1 2 := by
  let m' := (Machine.init.run [.tick, .next]).get (by decide +kernel)
  have ran : Machine.init.run [.tick, .next] = some m' := (Option.some_get _).symm
  have idle : m'.phase = .idle := by decide +kernel
  have ticks : m'.sched.ticks = 1 := by decide +kernel
  have free : m'.sched.timerPending 1 = false := by decide +kernel
  obtain ⟨clock, scheduled⟩ := @sched_abs_iff Machine.init m' 1 2 (fun _ s => (s, NDTIMER_OK)) 1 0
    [] _ rfl rfl ran idle (by decide) (by decide) (fun _ s => ⟨[], (List.append_nil _).symm⟩) free
  have start : Machine.init.sched.ticks = 0 := rfl
  refine ⟨m', ran, clock.mpr (by rw [ticks, start]; decide), ?_⟩
  have once := scheduled.mpr (Or.inl (by rw [ticks, start]; decide))
  rw [if_pos (by rw [ticks, start]; decide)] at once
  exact once

/-- The clock goes back to 0 in tick `2 ^ 32`, and a timer with a time that is then one tick
ahead is refused. -/
theorem time_now_starts_again :
    ∃ before later m m', Machine.init.run before = some m ∧ m.phase = .idle ∧
      m.sched.ticks = 2 ^ 32 - 1 ∧ m.run later = some m' ∧ m'.phase = .idle ∧
      m'.sched.ticks = 2 ^ 32 ∧ m'.sched.timerPending 1 = false ∧
      m.sched.timeNow = ⟨4294967, 295000⟩ ∧ m'.sched.timeNow = ⟨0, 0⟩ ∧
      m'.sched.ndfTimerSchedAbs (fun _ s => (s, NDTIMER_OK)) 1
        (timeradd m.sched.timeNow (ndfTicksToTimeval 2)) 1 0 = (.inval, m'.sched) ∧
      ¬m'.RunsOnce 1 (2 ^ 32 - 1 + 2) := by
  obtain ⟨before, m, alone, ran, idle, ticks⟩ :=
    Machine.init_good.reaches_alone 1 (Nat.zero_le (2 ^ 32 - 1))
  obtain ⟨due, good⟩ := Machine.init_good.run ran
  obtain ⟨later, m', alone', ran', idle', ticks'⟩ :=
    good.reaches_alone 1 (show m.sched.ticks ≤ 2 ^ 32 by rw [ticks]; decide)
  have sleeps := ((Machine.init_good.sleeps rfl rfl).run alone ran).run alone' ran'
  obtain ⟨due', good', noDue⟩ := sleeps.idle
  have free : m'.sched.timerPending 1 = false := by
    obtain ⟨lower, upper, -, held⟩ := good'
    simp [Scheduler.timerPending, held.idle_of_none noDue]
  have now := good.timeNow_eq idle
  have now' := good'.timeNow_eq idle'
  rw [ticks] at now
  rw [ticks'] at now'
  refine ⟨before, later, m, m', ran, idle, ticks, ran', idle', ticks', free, now, now', ?_,
    sleeps.not_runsOnce _⟩
  rw [now, timeradd_ticks]
  apply schedAbs_far good' idle'
  rw [ticks']
  decide

end Absolute

end NetDefender.Timers
