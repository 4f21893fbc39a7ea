import NetDefender.Timer.Links

/-!
# Updates that are refused

`ndf_timer_update` takes the timer off its list and `__ndf_timer_sched` overwrites its fields,
and only then is the delay found to be too long.  So the update is refused, and the timer does
not run any more.
-/

namespace NetDefender.Timers

/-- `this_lcore_sched` has a scheduler to return: the main lcore has none of its own. -/
def thisLcoreSched (main global : Bool) : Bool := global || !main

/-- `ndf_timer_update_nolock` with the checks of its arguments, on the scheduler that
`this_lcore_sched` returns.  `ndf_timer_update` has the same code between lock and unlock. -/
def Scheduler.ndfTimerUpdateNolock (s : Scheduler) (main global : Bool) (timer : Option Nat)
    (delay : Option Timeval) : Ret × Scheduler :=
  match thisLcoreSched main global, timer, delay with
  | true, some id, some delay => s.ndfTimerUpdate id delay
  | _, _, _ => (.inval, s)

/-- The same timers are pending, and what they are scheduled with is the same. -/
structure StaysInForce (s s' : Scheduler) : Prop where
  pending : ∀ id, s'.timerPending id = s.timerPending id
  handler : ∀ id, (s'.timers id).handler = (s.timers id).handler
  priv : ∀ id, (s'.timers id).priv = (s.timers id).priv
  delay : ∀ id, (s'.timers id).delay = (s.timers id).delay
  left : ∀ id, (s'.timers id).left = (s.timers id).left
  isPeriod : ∀ id, (s'.timers id).isPeriod = (s.timers id).isPeriod

/-- The update gets as far as the test of the delay, which is too long. -/
structure RefusedLate (s : Scheduler) (id : Nat) (delay : Timeval) : Prop where
  handled : (s.timers id).handler ≠ none
  tooLong : TIMER_MAX_TICKS ≤ ndfTimevalToTicks delay

variable {s : Scheduler} {id : Nat} {delay : Timeval}

theorem StaysInForce.refl (s : Scheduler) : StaysInForce s s :=
  ⟨fun _ => rfl, fun _ => rfl, fun _ => rfl, fun _ => rfl, fun _ => rfl, fun _ => rfl⟩

/-- A delay in ticks is cut off at the first one that is too long. -/
theorem ndfTimevalToTicks_of_le (tooLong : TIMER_MAX_TICKS ≤ ndfTimevalToTicks delay) :
    ndfTimevalToTicks delay = TIMER_MAX_TICKS := by
  simp only [ndfTimevalToTicks] at tooLong ⊢
  split
  next => rfl
  next inside =>
    rw [if_neg inside] at tooLong
    exact absurd tooLong inside

/-- A delay of at least one tick finds a wheel. -/
theorem adopt_ok (positive : 0 < (s.timers id).delay) : (s.adopt id LEVEL_DEPTH).1 = .ok := by
  rcases Nat.lt_or_ge (s.timers id).delay LEVEL_SIZE with short | long
  · rw [Scheduler.adopt_lower id short positive]
  · rw [Scheduler.adopt_upper id long]

/-- An update fails for its delay only, and it fails late. -/
theorem ndfTimerUpdate_inval_iff :
    (s.ndfTimerUpdate id delay).1 = .inval ↔ RefusedLate s id delay := by
  have record : ((s.unlink id).timers id).handler = (s.timers id).handler := by
    simp [Scheduler.unlink_eq_listDel]
  simp only [Scheduler.ndfTimerUpdate, Scheduler.timerSched, record]
  split
  next none => exact ⟨nofun, fun refused => absurd none refused.handled⟩
  next handled =>
    split
    next tooLong => exact ⟨fun _ => ⟨handled, tooLong⟩, fun _ => rfl⟩
    next inside =>
      refine ⟨fun fails => ?_, fun refused => absurd refused.tooLong inside⟩
      rw [adopt_ok] at fails
      · cases fails
      · rw [Scheduler.setTimer_timers, if_pos rfl]
        dsimp only
        split
        next => exact Nat.one_pos
        next some => exact Nat.pos_of_ne_zero some

/-- What a refused update leaves: the timer is on no list, and its delay is lost. -/
theorem ndfTimerUpdate_of_refusedLate (refused : RefusedLate s id delay) :
    (s.ndfTimerUpdate id delay).2 =
      (s.listDel id).setTimer id
        { s.timers id with list := none, delay := TIMER_MAX_TICKS } := by
  have record : ((s.listDel id).timers id).handler ≠ none := by simpa using refused.handled
  simp only [Scheduler.ndfTimerUpdate, Scheduler.timerSched, Scheduler.unlink_eq_listDel]
  rw [if_neg record, if_pos refused.tooLong, ndfTimevalToTicks_of_le refused.tooLong]
  simp

theorem staysInForce_of_refusedLate_iff (refused : RefusedLate s id delay) :
    StaysInForce s (s.ndfTimerUpdate id delay).2 ↔
      s.timerPending id = false ∧ (s.timers id).delay = TIMER_MAX_TICKS := by
  rw [ndfTimerUpdate_of_refusedLate refused]
  constructor
  · intro stays
    have pending := stays.pending id
    have delay := stays.delay id
    simp only [Scheduler.timerPending, Scheduler.setTimer_timers, if_pos] at pending delay
    exact ⟨pending.symm, delay.symm⟩
  · rintro ⟨idle, spent⟩
    have node : (s.timers id).list = none := by simpa [Scheduler.timerPending] using idle
    have same : (s.listDel id).setTimer id
        { s.timers id with list := none, delay := TIMER_MAX_TICKS } = s := by
      rw [← node, ← spent, s.listDel_of_none id node, Scheduler.setTimer, Function.update_eq_self]
    rw [same]
    exact .refl s

/-- A failed update leaves the earlier scheduling in force, unless it fails for a delay that is
too long and the timer is pending or has another delay. -/
theorem failed_update_keeps_iff (s : Scheduler) (main global : Bool) (timer : Option Nat)
    (delay : Option Timeval) :
    ((s.ndfTimerUpdateNolock main global timer delay).1 = .inval →
        StaysInForce s (s.ndfTimerUpdateNolock main global timer delay).2) ↔
      ¬∃ id tv, thisLcoreSched main global = true ∧ timer = some id ∧ delay = some tv ∧
        RefusedLate s id tv ∧
          (s.timerPending id = true ∨ (s.timers id).delay ≠ TIMER_MAX_TICKS) := by
  unfold Scheduler.ndfTimerUpdateNolock
  split
  next id tv found =>
    rw [ndfTimerUpdate_inval_iff]
    constructor
    · rintro keeps ⟨id', tv', -, same, same', refused, loses⟩
      obtain rfl := Option.some.inj same
      obtain rfl := Option.some.inj same'
      obtain ⟨idle, spent⟩ := (staysInForce_of_refusedLate_iff refused).mp (keeps refused)
      exact loses.elim (fun pending => nomatch idle.symm.trans pending) fun other => other spent
    · intro keeps refused
      rw [staysInForce_of_refusedLate_iff refused]
      by_contra loses
      refine keeps ⟨id, tv, found, rfl, rfl, refused, ?_⟩
      rwa [← Bool.not_eq_true, Classical.not_and_iff_not_or_not, not_not] at loses
  next missing =>
    refine iff_of_true (fun _ => .refl s) ?_
    rintro ⟨id, tv, found, rfl, rfl, -⟩
    exact missing id tv found rfl rfl

/-- A timer that is to run in a second is given a delay of 2^32 - 1 ticks: the update is refused
and the timer is not pending any more. -/
theorem refused_update_cancels :
    let s := (timerInitScheduler.ndfTimerSched 1 ⟨1, 0⟩ 1 0).2
    let result := s.ndfTimerUpdateNolock false false (some 1) (some ⟨4294967, 295000⟩)
    s.timerPending 1 = true ∧ result.1 = .inval ∧ result.2.timerPending 1 = false ∧
      (result.2.timers 1).delay = TIMER_MAX_TICKS ∧ ¬StaysInForce s result.2 := by
  intro s result
  have pending : s.timerPending 1 = true := by decide +kernel
  have lost : result.2.timerPending 1 = false := by decide +kernel
  refine ⟨pending, by decide +kernel, lost, by decide +kernel, fun stays => ?_⟩
  have kept := stays.pending 1
  rw [pending, lost] at kept
  cases kept

end NetDefender.Timers
