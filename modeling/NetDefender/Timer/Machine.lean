import NetDefender.Timer.Exactness

/-!
# Ticks with handlers that call back

`rte_timer_tick_cb` as a machine that stops wherever the scheduler can be called: between
ticks and in a handler.  Every timer that is on a list has a deadline, which does not change
as long as nobody calls the scheduler about it.
-/

namespace NetDefender.Timers

/-! ## The machine -/

/-- A call of the scheduler.  The functions with the lock and those without have the same
code. -/
inductive Request where
  | sched (id : Nat) (delay : Timeval) (handler arg : Nat)
  | schedPeriod (id : Nat) (intv : Timeval) (handler arg : Nat)
  | cancel (id : Nat)
  | reset (id : Nat)
  | update (id : Nat) (delay : Timeval)
  deriving DecidableEq, Repr

/-- The timer that a call is about. -/
def Request.target : Request → Nat
  | .sched id _ _ _ => id
  | .schedPeriod id _ _ _ => id
  | .cancel id => id
  | .reset id => id
  | .update id _ => id

/-- The call does not schedule a timer that is pending. -/
def Request.fresh (s : Scheduler) : Request → Bool
  | .sched id _ _ _ => !s.timerPending id
  | .schedPeriod id _ _ _ => !s.timerPending id
  | _ => true

def Request.run (s : Scheduler) : Request → Ret × Scheduler
  | .sched id delay handler arg => s.ndfTimerSched id delay handler arg
  | .schedPeriod id intv handler arg => s.ndfTimerSchedPeriod id intv handler arg
  | .cancel id => s.ndfTimerCancel id
  | .reset id => s.ndfTimerReset id
  | .update id delay => s.ndfTimerUpdate id delay

/-- Where the scheduler is: between ticks, in the loop over the slot under the cursor of a
level, or in the handler of a timer of that slot. -/
inductive Phase where
  | idle
  | serving (level : Nat) (carry : Bool)
  | handling (level : Nat) (carry : Bool) (id : Nat)
  deriving DecidableEq, Repr

structure Machine where
  sched : Scheduler
  phase : Phase

/-- What happens next: a tick begins, the loop serves the first timer of the slot, the slot is
empty, somebody calls the scheduler, or the handler returns. -/
inductive Action where
  | tick
  | serve
  | next
  | ask (request : Request)
  | ret (err : Int)
  deriving DecidableEq, Repr

/-- The timer that an action calls the scheduler about. -/
def Action.target : Action → Option Nat
  | .ask request => some request.target
  | _ => none

/-- The handler of a timer begins: the first half of `timer_expire`. -/
def Scheduler.expire (s : Scheduler) (id : Nat) : Option Scheduler :=
  (s.timers id).handler.map fun handler =>
    let call : Call := ⟨id, handler, (s.timers id).priv⟩
    { s.unlink id with log := s.log ++ [(s.ticks, call)] }

/-- The handler of a timer has returned: the second half of `timer_expire`.  A periodic timer
that is pending is no step. -/
def Scheduler.resume (s : Scheduler) (id : Nat) (err : Int) : Option Scheduler :=
  let timer := s.timers id
  if err ≠ NDTIMER_OK ∨ !timer.isPeriod then some s
  else if s.timerPending id then none
  else
    some (s.timerSched id (ndfTicksToTimeval timer.delay) timer.handler timer.priv
      timer.isPeriod).2

namespace Machine

/-- One step.  An assertion that fails, and a call that schedules a pending timer, are no
steps. -/
def step (m : Machine) : Action → Option Machine
  | .tick =>
      match m.phase with
      | .idle =>
          let (s, carry) := { m.sched with ticks := m.sched.ticks + 1 }.bump 0
          some ⟨s, .serving 0 carry⟩
      | _ => none
  | .serve =>
      match m.phase with
      | .serving level carry =>
          match m.sched.hashs level (m.sched.cursors level) with
          | [] => none
          | id :: _ =>
              if (m.sched.timers id).left = 0 then
                (m.sched.expire id).map fun s => ⟨s, .handling level carry id⟩
              else some ⟨(m.sched.listDel id).drop id (level + 1), .serving level carry⟩
      | _ => none
  | .next =>
      match m.phase with
      | .serving level carry =>
          if m.sched.hashs level (m.sched.cursors level) ≠ [] then none
          else if carry ∧ level + 1 < LEVEL_DEPTH then
            let (s, carry) := m.sched.bump (level + 1)
            some ⟨s, .serving (level + 1) carry⟩
          else some ⟨m.sched, .idle⟩
      | _ => none
  | .ask request =>
      match m.phase with
      | .serving _ _ => none
      | phase =>
          if request.fresh m.sched then
            match request.run m.sched with
            | (.aborted, _) => none
            | (_, s) => some ⟨s, phase⟩
          else none
  | .ret err =>
      match m.phase with
      | .handling level carry id =>
          (m.sched.resume id err).map fun s => ⟨s, .serving level carry⟩
      | _ => none

/-- A run of actions. -/
def run (m : Machine) : List Action → Option Machine
  | [] => some m
  | action :: actions => (m.step action).bind fun m => m.run actions

/-- A new scheduler. -/
def init : Machine := ⟨timerInitScheduler, .idle⟩

theorem run_append (m : Machine) (actions more : List Action) :
    m.run (actions ++ more) = (m.run actions).bind fun m => m.run more := by
  induction actions generalizing m with
  | nil => rfl
  | cons action actions ih =>
      rw [List.cons_append, run, run, Option.bind_assoc]
      exact congrArg _ (funext fun m => ih m)

end Machine

/-! ## Timers with deadlines -/

/-- A timer and its deadline.  A timer with a delay of a revolution or more is never in the
lower wheel when a revolution begins. -/
structure Seated (lower upper : Nat) (deadline : Option Nat) (timer : NdfTimer) : Prop where
  placed : Placed lower upper deadline timer
  handled : timer.list ≠ none → timer.handler ≠ none
  aligned : ∀ slot time, timer.list = some (0, slot) → deadline = some time →
    LEVEL_SIZE ≤ timer.delay → time % LEVEL_SIZE ≠ 0

/-- A timer on no list. -/
theorem Seated.idle {lower upper : Nat} {timer : NdfTimer} (idle : timer.list = none) :
    Seated lower upper none timer where
  placed := .idle idle
  handled := fun pending => absurd idle pending
  aligned := fun _ _ here => absurd (idle.symm.trans here) nofun

/-- The wheels hold every timer in the slot of its deadline. -/
structure Held (lower upper : Nat) (due : Nat → Option Nat) (s : Scheduler) : Prop where
  linked : s.Linked
  seated : ∀ id, Seated lower upper (due id) (s.timers id)

section Held

variable {lower upper : Nat} {due : Nat → Option Nat} {s : Scheduler} {id : Nat}

/-- Only the lists and the timers matter. -/
theorem Held.of_eq {s' : Scheduler} (held : Held lower upper due s)
    (hashs : s'.hashs = s.hashs) (timers : s'.timers = s.timers) : Held lower upper due s' where
  linked := ⟨hashs ▸ timers ▸ held.linked.mem, hashs ▸ held.linked.nodup⟩
  seated := timers ▸ held.seated

/-- A step that is about one timer: it takes a new deadline, the others keep theirs. -/
theorem Held.update {s' : Scheduler} (held : Held lower upper due s)
    {deadline : Option Nat} (linked : s'.Linked)
    (others : ∀ other, other ≠ id → s'.timers other = s.timers other)
    (seated : Seated lower upper deadline (s'.timers id)) :
    Held lower upper (Function.update due id deadline) s' where
  linked := linked
  seated := forall_update held.seated others seated

/-- A timer that is put in a slot takes a new deadline. -/
theorem Held.put (held : Held lower upper due s) {level slot left : Nat}
    {deadline : Option Nat} (idle : (s.timers id).list = none)
    (seated : Seated lower upper deadline
      { s.timers id with list := some (level, slot), left := left }) :
    Held lower upper (Function.update due id deadline) (s.put id level slot left) := by
  apply held.update (held.linked.put id level slot left idle)
  · intro other different
    simp [different]
  · simpa using seated

/-- A timer that is taken off its list has no deadline any more. -/
theorem Held.listDel (held : Held lower upper due s) (id : Nat) :
    Held lower upper (Function.update due id none) (s.listDel id) := by
  apply held.update (held.linked.listDel id)
  · intro other different
    simp [different]
  · simpa using Seated.idle rfl

/-- The record of a timer that is on no list may change. -/
theorem Held.setTimer (held : Held lower upper due s) {timer : NdfTimer}
    (idle : (s.timers id).list = none) (node : timer.list = none) :
    Held lower upper due (s.setTimer id timer) := by
  have noDue := (held.seated id).placed.due_of_idle idle
  rw [← Function.update_eq_self id due, noDue]
  apply held.update (held.linked.setTimer id (node.trans idle.symm))
  · intro other different
    simp [different]
  · simpa using Seated.idle node

/-- A pending timer has a deadline. -/
theorem Held.idle_of_none (held : Held lower upper due s) (noDue : due id = none) :
    (s.timers id).list = none := by
  cases noDue ▸ (held.seated id).placed with
  | idle node => exact node

/-- Once a slot is empty, its wheel has left it behind. -/
theorem Held.advance {lower' upper' level slot : Nat} (held : Held lower upper due s)
    (empty : s.hashs level slot = [])
    (move : ∀ deadline timer, Placed lower upper deadline timer →
      timer.list ≠ some (level, slot) → Placed lower' upper' deadline timer) :
    Held lower' upper' due s where
  linked := held.linked
  seated id := by
    obtain ⟨placed, handled, aligned⟩ := held.seated id
    refine ⟨move _ _ placed fun here => ?_, handled, aligned⟩
    have member := (held.linked.mem _ _ id).mpr here
    simp [empty] at member

end Held

/-! ## Where the cursors stand -/

/-- The level whose slot is being emptied, and whether the next level follows. -/
def Phase.place : Phase → Option (Nat × Bool)
  | .idle => none
  | .serving level carry => some (level, carry)
  | .handling level carry _ => some (level, carry)

/-- The timer whose handler runs. -/
def Phase.handled : Phase → Option Nat
  | .handling _ _ id => some id
  | _ => none

/-- Where the cursors stand in a phase, and from which tick and from which revolution on the
wheels hold timers. -/
inductive Stands (s : Scheduler) : Phase → Nat → Nat → Prop where
  | idle (cursor0 : s.cursors 0 = s.ticks % LEVEL_SIZE)
      (cursor1 : s.cursors 1 = s.ticks / LEVEL_SIZE % LEVEL_SIZE) :
      Stands s .idle (s.ticks + 1) (s.ticks / LEVEL_SIZE + 1)
  | low {phase : Phase} (earlier : Nat)
      (place : phase.place = some (0, decide (s.ticks % LEVEL_SIZE = 0)))
      (ticks : s.ticks = earlier + 1) (cursor0 : s.cursors 0 = s.ticks % LEVEL_SIZE)
      (cursor1 : s.cursors 1 = earlier / LEVEL_SIZE % LEVEL_SIZE) :
      Stands s phase s.ticks (earlier / LEVEL_SIZE + 1)
  | high {phase : Phase} (turn : Nat) {carry : Bool} (place : phase.place = some (1, carry))
      (ticks : s.ticks = turn * LEVEL_SIZE) (cursor0 : s.cursors 0 = 0)
      (cursor1 : s.cursors 1 = turn % LEVEL_SIZE) :
      Stands s phase (s.ticks + 1) turn

/-- How many ticks too early a timer runs that is scheduled in a phase: while the lower wheel
is at the end of its revolution, the upper cursor is still at the revolution before. -/
def Phase.early (phase : Phase) (delay : Nat) : Nat :=
  if phase.place = some (0, true) ∧ LEVEL_SIZE ≤ delay then LEVEL_SIZE else 0

/-- Between ticks no timer is early. -/
theorem Phase.early_idle (delay : Nat) : Phase.idle.early delay = 0 :=
  if_neg fun both => Option.some_ne_none _ both.1.symm

section Stands

variable {lower upper : Nat} {due : Nat → Option Nat} {s s' : Scheduler} {phase phase' : Phase}
variable {id : Nat}

theorem Stands.of_eq (stands : Stands s phase lower upper) (cursors : s'.cursors = s.cursors)
    (ticks : s'.ticks = s.ticks) (place : phase'.place = phase.place) :
    Stands s' phase' lower upper := by
  cases stands with
  | idle cursor0 cursor1 =>
      obtain rfl : phase' = .idle := by
        cases phase' with
        | idle => rfl
        | serving | handling => exact absurd place nofun
      rw [← ticks]
      rw [← ticks, ← cursors] at cursor0 cursor1
      exact .idle cursor0 cursor1
  | low earlier place' ticks' cursor0 cursor1 =>
      rw [← ticks]
      rw [← ticks] at place' ticks' cursor0
      rw [← cursors] at cursor0 cursor1
      exact .low earlier (place.trans place') ticks' cursor0 cursor1
  | high _ place' ticks' cursor0 cursor1 =>
      rw [← ticks]
      rw [← ticks] at ticks'
      rw [← cursors] at cursor0 cursor1
      exact .high upper (place.trans place') ticks' cursor0 cursor1

theorem Stands.cursor0 (stands : Stands s phase lower upper) :
    s.cursors 0 = s.ticks % LEVEL_SIZE := by
  cases stands with
  | idle cursor0 cursor1 => exact cursor0
  | low earlier place ticks cursor0 cursor1 => exact cursor0
  | high _ place ticks cursor0 cursor1 => rw [cursor0, ticks, Nat.mul_mod_left]

theorem Stands.lower_bounds (stands : Stands s phase lower upper) :
    s.ticks ≤ lower ∧ lower ≤ s.ticks + 1 := by
  cases stands with
  | idle => exact ⟨Nat.le_succ _, le_rfl⟩
  | low => exact ⟨le_rfl, Nat.le_succ _⟩
  | high => exact ⟨Nat.le_succ _, le_rfl⟩

/-- The revolution of the upper cursor. -/
theorem Stands.turn (stands : Stands s phase lower upper) :
    ∃ turn, s.cursors 1 = turn % LEVEL_SIZE ∧ turn ≤ upper ∧ upper ≤ turn + 1 ∧
      turn * LEVEL_SIZE + s.cursors 0 +
        (if phase.place = some (0, true) then LEVEL_SIZE else 0) = s.ticks := by
  cases stands with
  | idle cursor0 cursor1 =>
      refine ⟨_, cursor1, Nat.le_succ _, le_rfl, ?_⟩
      rw [cursor0, if_neg nofun, Nat.add_zero]
      exact Nat.div_add_mod' _ _
  | low earlier place ticks cursor0 cursor1 =>
      refine ⟨_, cursor1, Nat.le_succ _, le_rfl, ?_⟩
      rw [place, cursor0]
      by_cases wraps : s.ticks % LEVEL_SIZE = 0
      · rw [if_pos (by simp [wraps])]
        rw [LEVEL_SIZE_eq] at *
        omega
      · rw [if_neg (by simp [wraps])]
        rw [LEVEL_SIZE_eq] at *
        omega
  | high _ place ticks cursor0 cursor1 =>
      refine ⟨upper, cursor1, le_rfl, Nat.le_succ _, ?_⟩
      rw [cursor0, place, if_neg (by simp), ticks]
      exact Nat.add_zero _

/-- A timer with a delay is put in a slot, which is not the one that is being emptied. -/
theorem held_adopt (stands : Stands s phase lower upper) (held : Held lower upper due s)
    (idle : (s.timers id).list = none) (handled : (s.timers id).handler ≠ none)
    (positive : 0 < (s.timers id).delay) (bounded : (s.timers id).delay < TIMER_MAX_TICKS)
    (whole : (s.timers id).left = (s.timers id).delay) :
    ∃ level slot left, s.adopt id LEVEL_DEPTH = (.ok, s.put id level slot left) ∧
      Held lower upper (Function.update due id (some (s.ticks + (s.timers id).delay -
        phase.early (s.timers id).delay))) (s.put id level slot left) ∧
      ∀ served carry, phase.place = some (served, carry) →
        ¬(served = level ∧ s.cursors served = slot) := by
  obtain ⟨after, before⟩ := stands.lower_bounds
  obtain ⟨turn, cursor1, passed, next, now⟩ := stands.turn
  by_cases long : LEVEL_SIZE ≤ (s.timers id).delay
  · have turns : 1 ≤ (s.timers id).delay / LEVEL_SIZE ∧
        (s.timers id).delay / LEVEL_SIZE < LEVEL_SIZE - 1 := by
      rw [TIMER_MAX_TICKS] at bounded
      rw [LEVEL_SIZE_eq] at *
      omega
    have slot : (s.cursors 1 + (s.timers id).delay / LEVEL_SIZE) % LEVEL_SIZE =
        (turn + (s.timers id).delay / LEVEL_SIZE) % LEVEL_SIZE := by
      rw [cursor1, Nat.mod_add_mod]
    refine ⟨1, _, _, Scheduler.adopt_upper id long, held.put idle ?_, ?_⟩
    · refine ⟨?_, fun _ => handled, fun _ _ here => absurd here (by simp)⟩
      rw [slot, whole]
      refine .high _ (turn + (s.timers id).delay / LEVEL_SIZE) rfl ?_ ?_ ?_ ?_
      · show _ = (turn + _) * LEVEL_SIZE + ((s.timers id).delay % LEVEL_SIZE + s.cursors 0)
        rw [Phase.early]
        rw [LEVEL_SIZE_eq] at *
        split at now
        next wraps =>
          rw [if_pos ⟨wraps, long⟩]
          omega
        next other =>
          rw [if_neg fun both => other both.1]
          omega
      · show (s.timers id).delay % LEVEL_SIZE + s.cursors 0 < 2 * LEVEL_SIZE
        rw [stands.cursor0, LEVEL_SIZE_eq]
        omega
      · omega
      · omega
    · rintro served carry - ⟨rfl, same⟩
      rw [slot, cursor1] at same
      rw [LEVEL_SIZE_eq] at *
      omega
  · have short : (s.timers id).delay < LEVEL_SIZE := Nat.lt_of_not_le long
    have slot : (s.cursors 0 + (s.timers id).delay) % LEVEL_SIZE =
        (s.ticks + (s.timers id).delay) % LEVEL_SIZE := by
      rw [stands.cursor0, Nat.mod_add_mod]
    refine ⟨0, _, _, Scheduler.adopt_lower id short positive, held.put idle ?_, ?_⟩
    · refine ⟨?_, fun _ => handled, fun _ _ _ _ far => absurd far long⟩
      rw [slot, Phase.early, if_neg fun both => long both.2, Nat.sub_zero]
      exact .low _ rfl rfl (by omega) (by omega)
    · rintro served carry - ⟨rfl, same⟩
      rw [slot, stands.cursor0] at same
      rw [LEVEL_SIZE_eq] at *
      omega

end Stands

/-! ## Calls of the scheduler -/

/-- What a call about one timer leaves alone.  It adds nothing to the slot that is being
emptied. -/
structure Aside (phase : Phase) (id : Nat) (s s' : Scheduler) : Prop where
  cursors : s'.cursors = s.cursors
  ticks : s'.ticks = s.ticks
  log : s'.log = s.log
  others : ∀ other, other ≠ id → s'.timers other = s.timers other
  slot : ∀ level carry, phase.place = some (level, carry) →
    (s'.hashs level (s.cursors level)).Sublist (s.hashs level (s.cursors level))

section Requests

variable {lower upper : Nat} {due : Nat → Option Nat} {s s' : Scheduler} {phase : Phase}
variable {id : Nat}

theorem Aside.refl : Aside phase id s s :=
  ⟨rfl, rfl, rfl, fun _ _ => rfl, fun _ _ _ => List.Sublist.refl _⟩

theorem Aside.trans {s'' : Scheduler} (first : Aside phase id s s')
    (second : Aside phase id s' s'') : Aside phase id s s'' where
  cursors := second.cursors.trans first.cursors
  ticks := second.ticks.trans first.ticks
  log := second.log.trans first.log
  others other different := (second.others other different).trans (first.others other different)
  slot level carry place :=
    (first.cursors ▸ second.slot level carry place).trans (first.slot level carry place)

theorem Aside.setTimer (timer : NdfTimer) : Aside phase id s (s.setTimer id timer) where
  cursors := rfl
  ticks := rfl
  log := rfl
  others other different := by simp [different]
  slot _ _ _ := List.Sublist.refl _

theorem Aside.listDel : Aside phase id s (s.listDel id) where
  cursors := s.listDel_cursors id
  ticks := s.listDel_ticks id
  log := s.listDel_log id
  others other different := by simp [different]
  slot level carry _ := by
    cases node : (s.timers id).list with
    | none => rw [s.listDel_of_none id node]
    | some place =>
        rw [s.listDel_of_some id place.1 place.2 node, Scheduler.setTimer_hashs,
          Scheduler.setSlot_hashs]
        split
        next same =>
          rw [same.1, ← same.2, ← same.1]
          exact List.erase_sublist
        next => exact List.Sublist.refl _

/-- A timer is put in another slot than the one that is being emptied. -/
theorem Aside.put {level slot left : Nat}
    (elsewhere : ∀ served carry, phase.place = some (served, carry) →
      ¬(served = level ∧ s.cursors served = slot)) :
    Aside phase id s (s.put id level slot left) where
  cursors := rfl
  ticks := rfl
  log := rfl
  others other different := by simp [different]
  slot served carry place := by
    rw [Scheduler.put_hashs, if_neg (elsewhere served carry place)]

/-- The record of a timer that is scheduled. -/
def NdfTimer.armed (timer : NdfTimer) (delay : Timeval) (handler : Option Nat) (arg : Nat)
    (period : Bool) : NdfTimer :=
  { timer with
    handler, priv := arg, isPeriod := period, delay := delayTicks delay
    left := delayTicks delay }

/-- `__ndf_timer_sched` looks for a slot, or fails and leaves the lists alone. -/
theorem timerSched_cases (s : Scheduler) (id : Nat) (delay : Timeval) (handler : Option Nat)
    (arg : Nat) (period : Bool) :
    (handler ≠ none ∧ ndfTimevalToTicks delay < TIMER_MAX_TICKS ∧
      s.timerSched id delay handler arg period =
        (s.setTimer id ((s.timers id).armed delay handler arg period)).adopt id LEVEL_DEPTH) ∨
    ((handler = none ∨ TIMER_MAX_TICKS ≤ ndfTimevalToTicks delay) ∧
      (s.timerSched id delay handler arg period).1 ≠ .ok ∧
      ((s.timerSched id delay handler arg period).2 = s ∨
        ∃ timer, timer.list = (s.timers id).list ∧
          (s.timerSched id delay handler arg period).2 = s.setTimer id timer)) := by
  rw [Scheduler.timerSched]
  split
  next none => exact Or.inr ⟨Or.inl none, Ret.noConfusion, Or.inl rfl⟩
  next handled =>
    dsimp only
    split
    next far =>
      refine Or.inr ⟨Or.inr far, Ret.noConfusion, Or.inr ⟨{ s.timers id with
        handler, priv := arg, isPeriod := period, delay := ndfTimevalToTicks delay }, ?_⟩⟩
      exact ⟨rfl, rfl⟩
    next bounded =>
      refine Or.inl ⟨handled, Nat.lt_of_not_le bounded, ?_⟩
      rw [NdfTimer.armed, delayTicks]
      split
      next zero => simp [zero]
      next positive => simp [Nat.max_eq_right (Nat.pos_of_ne_zero positive)]

theorem delayTicks_pos (delay : Timeval) : 0 < delayTicks delay :=
  Nat.lt_of_lt_of_le Nat.one_pos (Nat.le_max_left _ _)

/-- Scheduling a timer that is on no list. -/
theorem held_timerSched (stands : Stands s phase lower upper) (held : Held lower upper due s)
    (idle : (s.timers id).list = none) (delay : Timeval) (handler : Option Nat) (arg : Nat)
    (period : Bool) :
    let result := s.timerSched id delay handler arg period
    Aside phase id s result.2 ∧
      ((result.1 = .ok ∧ ndfTimevalToTicks delay < TIMER_MAX_TICKS ∧
          Held lower upper (Function.update due id
            (some (s.ticks + delayTicks delay - phase.early (delayTicks delay)))) result.2 ∧
          (result.2.timers id).delay = delayTicks delay ∧
          (result.2.timers id).isPeriod = period ∧ (result.2.timers id).handler = handler) ∨
        ((handler = none ∨ TIMER_MAX_TICKS ≤ ndfTimevalToTicks delay) ∧ result.1 ≠ .ok ∧
          Held lower upper due result.2)) := by
  dsimp only
  rcases timerSched_cases s id delay handler arg period with
    ⟨handled, bounded, adopts⟩ | ⟨why, fails, same | ⟨timer, node, same⟩⟩
  · rw [adopts]
    have armed : Held lower upper due
        (s.setTimer id ((s.timers id).armed delay handler arg period)) := held.setTimer idle idle
    have record : (s.setTimer id ((s.timers id).armed delay handler arg period)).timers id =
        (s.timers id).armed delay handler arg period := by simp
    have standing : Stands (s.setTimer id ((s.timers id).armed delay handler arg period)) phase
        lower upper := stands.of_eq rfl rfl rfl
    have range : delayTicks delay < TIMER_MAX_TICKS := Nat.max_lt.mpr ⟨by decide, bounded⟩
    obtain ⟨level, slot, left, adopted, held', elsewhere⟩ := held_adopt standing armed
      (by rw [record]; exact idle) (by rw [record]; exact handled)
      (by rw [record]; exact delayTicks_pos delay) (by rw [record]; exact range)
      (by rw [record]; rfl)
    rw [adopted]
    rw [record] at held'
    refine ⟨(Aside.setTimer _).trans (Aside.put elsewhere), Or.inl ⟨rfl, bounded, held', ?_⟩⟩
    simp [NdfTimer.armed]
  · rw [same]
    exact ⟨.refl, Or.inr ⟨why, fails, held⟩⟩
  · rw [same]
    exact ⟨.setTimer timer, Or.inr ⟨why, fails, held.setTimer idle (node.trans idle)⟩⟩

theorem exists_held_timerSched (stands : Stands s phase lower upper)
    (held : Held lower upper due s) (idle : (s.timers id).list = none) (delay : Timeval)
    (handler : Option Nat) (arg : Nat) (period : Bool) :
    let result := s.timerSched id delay handler arg period
    Aside phase id s result.2 ∧
      ∃ deadline, Held lower upper (Function.update due id deadline) result.2 := by
  obtain ⟨aside, ⟨-, -, held', -⟩ | ⟨-, -, held'⟩⟩ :=
    held_timerSched stands held idle delay handler arg period
  · exact ⟨aside, _, held'⟩
  · refine ⟨aside, due id, ?_⟩
    rw [Function.update_eq_self]
    exact held'

/-- A timer that is taken off its list and scheduled again. -/
theorem exists_held_again (stands : Stands s phase lower upper) (held : Held lower upper due s)
    (id : Nat) (delay : Timeval) (handler : Option Nat) (arg : Nat) (period : Bool) :
    let result := (s.listDel id).timerSched id delay handler arg period
    Aside phase id s result.2 ∧
      ∃ deadline, Held lower upper (Function.update due id deadline) result.2 := by
  have standing : Stands (s.listDel id) phase lower upper :=
    stands.of_eq (s.listDel_cursors id) (s.listDel_ticks id) rfl
  have idle : ((s.listDel id).timers id).list = none := by simp
  obtain ⟨aside, deadline, held'⟩ := exists_held_timerSched standing (held.listDel id)
    idle delay handler arg period
  rw [Function.update_idem] at held'
  exact ⟨Aside.listDel.trans aside, deadline, held'⟩

/-- A call of the scheduler is about one timer. -/
theorem held_request (stands : Stands s phase lower upper) (held : Held lower upper due s)
    {request : Request} (fresh : request.fresh s = true) :
    Aside phase request.target s (request.run s).2 ∧
      ∃ deadline, Held lower upper (Function.update due request.target deadline)
        (request.run s).2 := by
  have refused (id : Nat) : Aside phase id s s ∧
      ∃ deadline, Held lower upper (Function.update due id deadline) s := by
    refine ⟨.refl, due id, ?_⟩
    rw [Function.update_eq_self]
    exact held
  have idle {id : Nat} (fresh : (!s.timerPending id) = true) : (s.timers id).list = none := by
    simpa [Scheduler.timerPending] using fresh
  cases request with
  | sched id delay handler arg =>
      rw [Request.run, Scheduler.ndfTimerSched]
      split
      next => exact refused id
      next => exact exists_held_timerSched stands held (idle fresh) delay handler arg false
  | schedPeriod id intv handler arg =>
      rw [Request.run, Scheduler.ndfTimerSchedPeriod]
      split
      next => exact refused id
      next => exact exists_held_timerSched stands held (idle fresh) intv handler arg true
  | cancel id =>
      rw [Request.run, Scheduler.ndfTimerCancel, Scheduler.unlink_eq_listDel]
      exact ⟨.listDel, none, held.listDel id⟩
  | reset id =>
      rw [Request.run, Scheduler.ndfTimerReset, Scheduler.unlink_eq_listDel]
      exact exists_held_again stands held id _ _ _ _
  | update id delay =>
      rw [Request.run, Scheduler.ndfTimerUpdate, Scheduler.unlink_eq_listDel]
      exact exists_held_again stands held id _ _ _ _

end Requests

/-! ## Serving a slot -/

section Serve

variable {lower upper : Nat} {due : Nat → Option Nat} {s s' : Scheduler} {phase : Phase}
variable {id : Nat}

/-- The first timer of the slot that is being emptied is due now, or waits in the upper
wheel. -/
theorem due_of_head (stands : Stands s phase lower upper) (held : Held lower upper due s)
    {level : Nat} {carry : Bool} (place : phase.place = some (level, carry)) {rest : List Nat}
    (head : s.hashs level (s.cursors level) = id :: rest) :
    ((s.timers id).left = 0 ∧ due id = some s.ticks ∧
      (LEVEL_SIZE ≤ (s.timers id).delay → phase.place ≠ some (0, true))) ∨
    ((s.timers id).left ≠ 0 ∧ level = 1 ∧ s.cursors 0 = 0 ∧ s.cursors 1 = upper % LEVEL_SIZE ∧
      s.ticks = upper * LEVEL_SIZE ∧ lower = s.ticks + 1 ∧
      due id = some (s.ticks + (s.timers id).left) ∧ (s.timers id).left < 2 * LEVEL_SIZE) := by
  have node : (s.timers id).list = some (level, s.cursors level) := by
    rw [← held.linked.mem, head]
    exact List.mem_cons_self
  obtain ⟨placed, -, aligned⟩ := held.seated id
  cases stands with
  | idle => cases place
  | low earlier place' ticks cursor0 cursor1 =>
      obtain ⟨rfl, rfl⟩ := Prod.mk.inj (Option.some.inj (place'.symm.trans place))
      rw [cursor0] at node
      obtain ⟨reached, spent⟩ := placed.due_of_low node
      refine Or.inl ⟨spent, reached, fun long wraps => ?_⟩
      rw [place'] at wraps
      have zero := of_decide_eq_true (Prod.mk.inj (Option.some.inj wraps)).2
      exact aligned _ _ node reached long zero
  | high _ place' ticks cursor0 cursor1 =>
      obtain ⟨rfl, rfl⟩ := Prod.mk.inj (Option.some.inj (place'.symm.trans place))
      rw [cursor1] at node
      obtain ⟨reached, bound⟩ := placed.due_of_high node
      rw [← ticks] at reached
      by_cases spent : (s.timers id).left = 0
      · rw [spent, Nat.add_zero] at reached
        exact Or.inl ⟨spent, reached, fun _ wraps => by rw [place'] at wraps; cases wraps⟩
      · exact Or.inr ⟨spent, rfl, cursor0, cursor1, ticks, rfl, reached, bound⟩

/-- A timer with a remainder stays for one more revolution or drops to the lower wheel, with
the same deadline. -/
theorem held_drop (held : Held (s.ticks + 1) upper due s) (cursor0 : s.cursors 0 = 0)
    (cursor1 : s.cursors 1 = upper % LEVEL_SIZE) (ticks : s.ticks = upper * LEVEL_SIZE)
    {rest : List Nat} (head : s.hashs 1 (upper % LEVEL_SIZE) = id :: rest)
    (waits : (s.timers id).left ≠ 0) (reached : due id = some (s.ticks + (s.timers id).left))
    (bound : (s.timers id).left < 2 * LEVEL_SIZE) :
    ∃ level slot left, (s.listDel id).drop id 2 = (s.listDel id).put id level slot left ∧
      ¬(1 = level ∧ upper % LEVEL_SIZE = slot) ∧
      Held (s.ticks + 1) upper due ((s.listDel id).put id level slot left) := by
  have pending : (s.timers id).list ≠ none := by
    rw [(held.linked.mem _ _ id).mp (head ▸ List.mem_cons_self)]
    exact nofun
  have handled := (held.seated id).handled pending
  have removed := held.listDel id
  have restored : Function.update (Function.update due id none) id (due id) = due := by
    rw [Function.update_idem, Function.update_eq_self]
  by_cases long : LEVEL_SIZE ≤ (s.timers id).left
  · have once : (s.timers id).left / LEVEL_SIZE = 1 := by
      rw [LEVEL_SIZE_eq] at *
      omega
    refine ⟨_, _, _, Scheduler.drop_upper id (by simpa using long), ?_, ?_⟩
    · rintro ⟨-, same⟩
      rw [Scheduler.listDel_cursors, cursor1, Scheduler.listDel_timers, if_pos rfl, once] at same
      rw [LEVEL_SIZE_eq] at *
      omega
    · rw [← restored]
      apply removed.put (by simp)
      rw [Scheduler.listDel_cursors, cursor1, Scheduler.listDel_timers, if_pos rfl, once, reached]
      refine ⟨?_, fun _ => handled, fun _ _ here => absurd here (by simp)⟩
      refine .high _ (upper + 1) ?_ ?_ ?_ (Nat.le_succ upper) ?_
      · rw [Nat.mod_add_mod]
      · dsimp only
        rw [LEVEL_SIZE_eq] at *
        omega
      · exact (Nat.mod_lt _ (by decide)).trans (by decide)
      · exact Nat.add_lt_add_left (by decide) upper
  · have short : (s.timers id).left < LEVEL_SIZE := Nat.lt_of_not_le long
    refine ⟨_, _, _, Scheduler.drop_lower id (by simpa using short)
      (by simpa using Nat.pos_of_ne_zero waits), fun same => absurd same.1 (by decide), ?_⟩
    rw [← restored]
    apply removed.put (by simp)
    rw [Scheduler.listDel_cursors, cursor0, Scheduler.listDel_timers, if_pos rfl, reached]
    refine ⟨?_, fun _ => handled, ?_⟩
    · refine .low _ ?_ rfl (by omega) (by omega)
      dsimp only
      rw [ticks, Nat.zero_add, Nat.mul_add_mod']
    · rintro slot time - deadline -
      obtain rfl := Option.some.inj deadline
      rw [ticks, Nat.mul_add_mod', Nat.mod_eq_of_lt short]
      exact waits

end Serve

/-! ## A step -/

/-- The cursors and the timers of a machine agree with deadlines. -/
def Machine.Good (m : Machine) (due : Nat → Option Nat) : Prop :=
  ∃ lower upper, Stands m.sched m.phase lower upper ∧ Held lower upper due m.sched

theorem Machine.init_good : Machine.init.Good fun _ => none := by
  refine ⟨1, 1, .idle rfl rfl, ⟨fun level slot id => ?_, fun _ _ => List.nodup_nil⟩,
    fun _ => .idle rfl⟩
  simp [Machine.init, timerInitScheduler]

/-- Between ticks every deadline lies ahead. -/
theorem Machine.Good.ahead {m : Machine} {due : Nat → Option Nat} (good : m.Good due)
    (idle : m.phase = .idle) {id time : Nat} (pending : due id = some time) :
    m.sched.ticks < time := by
  obtain ⟨lower, upper, stands, held⟩ := good
  rw [idle] at stands
  cases stands with
  | idle cursor0 cursor1 =>
      cases pending ▸ (held.seated id).placed with
      | low _ node left after before => exact after
      | high _ turn node time_eq left after before =>
          rw [LEVEL_SIZE_eq] at *
          omega
  | low earlier place => cases place
  | high turn place => cases place

/-- The fields of a timer that change only when it is scheduled. -/
structure Lasting (id : Nat) (s s' : Scheduler) : Prop where
  delay : (s'.timers id).delay = (s.timers id).delay
  isPeriod : (s'.timers id).isPeriod = (s.timers id).isPeriod
  handler : (s'.timers id).handler = (s.timers id).handler

theorem Lasting.of_eq {id : Nat} {s s' : Scheduler} (same : s'.timers id = s.timers id) :
    Lasting id s s' := ⟨congrArg _ same, congrArg _ same, congrArg _ same⟩

/-- What a step is for a timer that it does not call the scheduler about: nothing, the begin of
its handler in the tick of its deadline, or that it is scheduled again after its handler. -/
inductive Outcome (m m' : Machine) (action : Action) (due due' : Nat → Option Nat) (id : Nat) :
    Prop where
  | steady (deadline : due' id = due id) (log : runsOf id m'.sched.log = runsOf id m.sched.log)
      (lasting : Lasting id m.sched m'.sched)
      (enters : m'.phase.handled = some id → m.phase.handled = some id)
      (leaves : m.phase.handled = some id → m'.phase = m.phase ∨
        ∃ err, action = .ret err ∧ (err ≠ NDTIMER_OK ∨ (m.sched.timers id).isPeriod = false))
  | fired {level : Nat} {carry : Bool} (served : m.phase = .serving level carry)
      (handling : m'.phase = .handling level carry id) (reached : due id = some m.sched.ticks)
      (spent : due' id = none)
      (log : runsOf id m'.sched.log = runsOf id m.sched.log ++ [m.sched.ticks])
      (lasting : Lasting id m.sched m'.sched)
      (aligned : LEVEL_SIZE ≤ (m.sched.timers id).delay → m.phase.place ≠ some (0, true))
  | resumed {level : Nat} {carry : Bool} (handling : m.phase = .handling level carry id)
      (serving : m'.phase = .serving level carry) (returns : action = .ret NDTIMER_OK)
      (period : (m.sched.timers id).isPeriod = true)
      (log : runsOf id m'.sched.log = runsOf id m.sched.log)
      (deadline : due' id = some (m.sched.ticks + (m.sched.timers id).delay -
        m.phase.early (m.sched.timers id).delay))
      (lasting : Lasting id m.sched m'.sched)

/-- What a step leaves alone that only moves the cursors. -/
structure Moved (s s' : Scheduler) : Prop where
  hashs : s'.hashs = s.hashs
  timers : s'.timers = s.timers
  log : s'.log = s.log

section Step

variable {m m' : Machine} {due : Nat → Option Nat}

/-- A tick begins. -/
theorem Machine.Good.tick (good : m.Good due) (ran : m.step .tick = some m') :
    m'.Good due ∧ Moved m.sched m'.sched ∧ m'.sched.ticks = m.sched.ticks + 1 := by
  obtain ⟨s, phase⟩ := m
  obtain ⟨lower, upper, stands, held⟩ := good
  dsimp only at stands held
  cases phase with
  | serving | handling => cases ran
  | idle =>
      cases stands with
      | low earlier place => cases place
      | high turn place => cases place
      | idle cursor0 cursor1 =>
          have bumped := @bump_eq { s with ticks := s.ticks + 1 } 0 s.ticks cursor0
          rw [Machine.step] at ran
          dsimp only at ran
          rw [bumped] at ran
          obtain rfl := Option.some.inj ran
          refine ⟨⟨s.ticks + 1, s.ticks / LEVEL_SIZE + 1, ?_, held.of_eq rfl rfl⟩,
            ⟨rfl, rfl, rfl⟩, rfl⟩
          refine .low s.ticks rfl rfl ?_ ?_
          · simp
          · simpa using cursor1

/-- The slot is empty. -/
theorem Machine.Good.next (good : m.Good due) (ran : m.step .next = some m') :
    m'.Good due ∧ Moved m.sched m'.sched ∧ m'.sched.ticks = m.sched.ticks := by
  obtain ⟨s, phase⟩ := m
  obtain ⟨lower, upper, stands, held⟩ := good
  dsimp only at stands held
  cases phase with
  | idle | handling => cases ran
  | serving level carry =>
      rw [Machine.step] at ran
      dsimp only at ran
      split at ran
      next => cases ran
      next empty =>
        rw [not_not] at empty
        cases stands with
        | low earlier place ticks cursor0 cursor1 =>
            obtain ⟨rfl, rfl⟩ := Prod.mk.inj (Option.some.inj place)
            rw [cursor0] at empty
            have left := held.advance empty fun _ _ => Placed.advance_low
            by_cases wraps : s.ticks % LEVEL_SIZE = 0
            · rw [if_pos ⟨decide_eq_true wraps, by decide⟩, bump_eq cursor1] at ran
              obtain rfl := Option.some.inj ran
              refine ⟨⟨s.ticks + 1, earlier / LEVEL_SIZE + 1, ?_, left.of_eq rfl rfl⟩,
                ⟨rfl, rfl, rfl⟩, rfl⟩
              refine .high (earlier / LEVEL_SIZE + 1) rfl ?_ ?_ ?_
              · dsimp only
                rw [LEVEL_SIZE_eq] at *
                omega
              · simpa using cursor0.trans wraps
              · simp
            · rw [if_neg fun both => wraps (of_decide_eq_true both.1)] at ran
              obtain rfl := Option.some.inj ran
              have same : earlier / LEVEL_SIZE = s.ticks / LEVEL_SIZE := by
                rw [LEVEL_SIZE_eq] at *
                omega
              rw [same] at left cursor1
              exact ⟨⟨_, _, .idle cursor0 cursor1, left⟩, ⟨rfl, rfl, rfl⟩, rfl⟩
        | high _ place ticks cursor0 cursor1 =>
            obtain ⟨rfl, rfl⟩ := Prod.mk.inj (Option.some.inj place)
            rw [cursor1] at empty
            have left := held.advance empty fun _ _ => Placed.advance_high
            rw [if_neg fun both => absurd both.2 (by decide)] at ran
            obtain rfl := Option.some.inj ran
            have turn : upper = s.ticks / LEVEL_SIZE := by
              rw [LEVEL_SIZE_eq] at *
              omega
            rw [turn] at left cursor1
            refine ⟨⟨_, _, .idle ?_ cursor1, left⟩, ⟨rfl, rfl, rfl⟩, rfl⟩
            rw [cursor0, ticks, Nat.mul_mod_left]

/-- The first timer of the slot runs its handler, or waits elsewhere. -/
theorem Machine.Good.serve (good : m.Good due) (ran : m.step .serve = some m') :
    ∃ level carry id rest, m.phase = .serving level carry ∧
      m.sched.hashs level (m.sched.cursors level) = id :: rest ∧
      m'.sched.cursors = m.sched.cursors ∧ m'.sched.ticks = m.sched.ticks ∧
      m'.sched.hashs level (m.sched.cursors level) = rest ∧
      (∀ other, Lasting other m.sched m'.sched) ∧
      ((m'.phase = .handling level carry id ∧ m'.Good (Function.update due id none) ∧
          due id = some m.sched.ticks ∧
          (∃ call : Call, call.timer = id ∧ m'.sched.log = m.sched.log ++ [(m.sched.ticks, call)]) ∧
          (LEVEL_SIZE ≤ (m.sched.timers id).delay → m.phase.place ≠ some (0, true))) ∨
        (m'.phase = m.phase ∧ m'.Good due ∧ m'.sched.log = m.sched.log)) := by
  obtain ⟨s, phase⟩ := m
  obtain ⟨lower, upper, stands, held⟩ := good
  dsimp only at stands held
  cases phase with
  | idle | handling => cases ran
  | serving level carry =>
      rw [Machine.step] at ran
      dsimp only at ran
      split at ran
      next => cases ran
      next id rest head =>
        refine ⟨level, carry, id, rest, rfl, head, ?_⟩
        have tail := held.linked.listDel_head id level _ head
        rcases due_of_head stands held rfl head with
          ⟨spent, reached, aligned⟩ | ⟨waits, rfl, cursor0, cursor1, ticks, rfl, reached, bound⟩
        · rw [if_pos spent] at ran
          obtain ⟨s', expires, rfl⟩ := Option.map_eq_some_iff.mp ran
          obtain ⟨handler, -, rfl⟩ := Option.map_eq_some_iff.mp expires
          dsimp only
          rw [Scheduler.unlink_eq_listDel]
          have standing : Stands
              { s.listDel id with
                log := s.log ++ [(s.ticks, ⟨id, handler, (s.timers id).priv⟩)] }
              (.handling level carry id) lower upper :=
            stands.of_eq (s.listDel_cursors id) (s.listDel_ticks id) rfl
          refine ⟨s.listDel_cursors id, s.listDel_ticks id, tail, ?_, Or.inl ⟨rfl,
            ⟨lower, upper, standing, (held.listDel id).of_eq rfl rfl⟩, reached,
            ⟨_, rfl, rfl⟩, aligned⟩⟩
          intro other
          by_cases same : other = id
          · constructor <;> simp [same]
          · constructor <;> simp [same]
        · rw [if_neg waits] at ran
          obtain rfl := Option.some.inj ran
          rw [cursor1] at head tail
          obtain ⟨level', slot, left, dropped, elsewhere, held'⟩ :=
            held_drop held cursor0 cursor1 ticks head waits reached bound
          dsimp only
          rw [dropped]
          have standing : Stands ((s.listDel id).put id level' slot left) (.serving 1 carry)
              (s.ticks + 1) upper := stands.of_eq (by simp) (by simp) rfl
          refine ⟨by simp, by simp, ?_, ?_, Or.inr ⟨rfl, ⟨_, _, standing, held'⟩, by simp⟩⟩
          · rw [cursor1, Scheduler.put_hashs, if_neg elsewhere, tail]
          · intro other
            by_cases same : other = id
            · constructor <;> simp [same]
            · constructor <;> simp [same]

/-- A call of the scheduler, between ticks or in a handler. -/
theorem Machine.Good.ask (good : m.Good due) {request : Request}
    (ran : m.step (.ask request) = some m') :
    request.fresh m.sched = true ∧ (∀ level carry, m.phase ≠ .serving level carry) ∧
      m' = ⟨(request.run m.sched).2, m.phase⟩ ∧
      Aside m.phase request.target m.sched m'.sched ∧
      ∃ deadline, m'.Good (Function.update due request.target deadline) := by
  obtain ⟨s, phase⟩ := m
  obtain ⟨lower, upper, stands, held⟩ := good
  dsimp only at stands held
  have done (phase' : Phase) (same : phase' = phase)
      (asked : (if request.fresh s = true then
        match request.run s with
        | (.aborted, _) => none
        | (_, s) => some (⟨s, phase'⟩ : Machine)
        else none) = some m') :
      request.fresh s = true ∧ m' = ⟨(request.run s).2, phase⟩ ∧
        Aside phase request.target s m'.sched ∧
        ∃ deadline, m'.Good (Function.update due request.target deadline) := by
    subst same
    split at asked
    next fresh =>
      obtain ⟨aside, deadline, held'⟩ := held_request stands held fresh
      have result : m' = ⟨(request.run s).2, phase'⟩ := by
        split at asked
        next => cases asked
        next same =>
          rw [same]
          exact (Option.some.inj asked).symm
      rw [result]
      exact ⟨fresh, rfl, aside, deadline, _, _, stands.of_eq aside.cursors aside.ticks rfl, held'⟩
    next => cases asked
  rw [Machine.step] at ran
  cases phase with
  | serving => cases ran
  | idle =>
      obtain ⟨fresh, rest⟩ := done _ rfl ran
      exact ⟨fresh, fun _ _ => nofun, rest⟩
  | handling =>
      obtain ⟨fresh, rest⟩ := done _ rfl ran
      exact ⟨fresh, fun _ _ => nofun, rest⟩

/-- A handler returns: a periodic timer is scheduled again. -/
theorem Machine.Good.ret (good : m.Good due) {err : Int} (ran : m.step (.ret err) = some m') :
    ∃ level carry id, m.phase = .handling level carry id ∧ m'.phase = .serving level carry ∧
      Aside m.phase id m.sched m'.sched ∧
      (((err ≠ NDTIMER_OK ∨ (m.sched.timers id).isPeriod = false) ∧ m'.sched = m.sched ∧
          m'.Good due) ∨
        (err = NDTIMER_OK ∧ (m.sched.timers id).isPeriod = true ∧
          ∃ deadline, m'.Good (Function.update due id deadline) ∧
            ((m.sched.timers id).handler ≠ none → 0 < (m.sched.timers id).delay →
              (m.sched.timers id).delay < TIMER_MAX_TICKS →
              deadline = some (m.sched.ticks + (m.sched.timers id).delay -
                m.phase.early (m.sched.timers id).delay) ∧ Lasting id m.sched m'.sched))) := by
  obtain ⟨s, phase⟩ := m
  obtain ⟨lower, upper, stands, held⟩ := good
  dsimp only at stands held
  cases phase with
  | idle | serving => cases ran
  | handling level carry id =>
      rw [Machine.step] at ran
      obtain ⟨s', resumes, rfl⟩ := Option.map_eq_some_iff.mp ran
      refine ⟨level, carry, id, rfl, rfl, ?_⟩
      rw [Scheduler.resume] at resumes
      dsimp only at resumes ⊢
      split at resumes
      next finished =>
        obtain rfl := Option.some.inj resumes
        refine ⟨.refl, Or.inl ⟨?_, rfl, _, _, stands.of_eq rfl rfl rfl, held⟩⟩
        simpa using finished
      next again =>
        split at resumes
        next => cases resumes
        next free =>
          have idle : (s.timers id).list = none := by
            simpa [Scheduler.timerPending] using free
          obtain ⟨ok, period⟩ : err = NDTIMER_OK ∧ (s.timers id).isPeriod = true := by
            simpa using again
          obtain rfl := Option.some.inj resumes
          obtain ⟨aside, done⟩ := held_timerSched stands held idle
            (ndfTicksToTimeval (s.timers id).delay) (s.timers id).handler (s.timers id).priv
            (s.timers id).isPeriod
          generalize s.timerSched id (ndfTicksToTimeval (s.timers id).delay) (s.timers id).handler
            (s.timers id).priv (s.timers id).isPeriod = result at *
          refine ⟨aside, Or.inr ⟨ok, period, ?_⟩⟩
          have standing : Stands result.2 (.serving level carry) lower upper :=
            stands.of_eq aside.cursors aside.ticks rfl
          rcases done with ⟨-, -, held', delay, isPeriod, handler⟩ | ⟨why, -, held'⟩
          · refine ⟨_, ⟨_, _, standing, held'⟩, fun _ positive bounded => ?_⟩
            have ticks : delayTicks (ndfTicksToTimeval (s.timers id).delay) =
                (s.timers id).delay := by
              rw [delayTicks, ndfTimevalToTicks_ndfTicksToTimeval bounded]
              exact Nat.max_eq_right positive
            rw [ticks] at delay ⊢
            exact ⟨rfl, delay, isPeriod, handler⟩
          · refine ⟨due id, ⟨_, _, standing, ?_⟩, fun handled _ bounded => ?_⟩
            · rw [Function.update_eq_self]
              exact held'
            · rw [ndfTimevalToTicks_ndfTicksToTimeval bounded] at why
              exact absurd (why.resolve_left handled) (Nat.not_le.mpr bounded)

/-- A tick begins between ticks, and a slot is left in its loop. -/
theorem Machine.handled_of_moves {action : Action} (moves : action = .tick ∨ action = .next)
    (ran : m.step action = some m') : m.phase.handled = none ∧ m'.phase.handled = none := by
  obtain ⟨s, phase⟩ := m
  rcases moves with rfl | rfl
  · cases phase with
    | idle =>
        obtain rfl := Option.some.inj ran
        exact ⟨rfl, rfl⟩
    | serving | handling => cases ran
  · cases phase with
    | idle | handling => cases ran
    | serving level carry =>
        rw [Machine.step] at ran
        dsimp only at ran
        split at ran
        next => cases ran
        next =>
          split at ran
          next =>
            obtain rfl := Option.some.inj ran
            exact ⟨rfl, rfl⟩
          next =>
            obtain rfl := Option.some.inj ran
            exact ⟨rfl, rfl⟩

/-- A step keeps the deadlines of the timers that it is not about. -/
theorem Machine.Good.step (good : m.Good due) {action : Action}
    (ran : m.step action = some m') :
    ∃ due', m'.Good due' ∧
      m'.sched.ticks = m.sched.ticks + (if action = .tick then 1 else 0) ∧
      ∀ id, action.target ≠ some id →
        (m.phase.handled = some id → (m.sched.timers id).isPeriod = true →
          (m.sched.timers id).handler ≠ none ∧ 0 < (m.sched.timers id).delay ∧
            (m.sched.timers id).delay < TIMER_MAX_TICKS) →
        Outcome m m' action due due' id := by
  cases action with
  | tick =>
      obtain ⟨good', moved, ticks⟩ := good.tick ran
      obtain ⟨outside, outside'⟩ := Machine.handled_of_moves (Or.inl rfl) ran
      refine ⟨due, good', ticks, fun id _ _ => ?_⟩
      exact .steady rfl (by rw [moved.log]) (.of_eq (by rw [moved.timers])) (by simp [outside'])
        (by simp [outside])
  | next =>
      obtain ⟨good', moved, ticks⟩ := good.next ran
      obtain ⟨outside, outside'⟩ := Machine.handled_of_moves (Or.inr rfl) ran
      refine ⟨due, good', ticks, fun id _ _ => ?_⟩
      exact .steady rfl (by rw [moved.log]) (.of_eq (by rw [moved.timers])) (by simp [outside'])
        (by simp [outside])
  | serve =>
      obtain ⟨level, carry, head, rest, phase, -, -, ticks, -, lasting, done⟩ := good.serve ran
      have outside : m.phase.handled = none := by
        rw [phase]
        rfl
      rcases done with ⟨handling, good', reached, ⟨call, about, log⟩, aligned⟩ |
        ⟨same, good', log⟩
      · refine ⟨_, good', ticks, fun id _ _ => ?_⟩
        by_cases own : id = head
        · subst own
          refine .fired phase handling reached (Function.update_self _ _ _) ?_ (lasting id) aligned
          rw [log, runsOf_append, if_pos about]
        · refine .steady (Function.update_of_ne own _ _) ?_ (lasting id) ?_ (by simp [outside])
          · rw [log, runsOf_append, if_neg fun other => own (other.symm.trans about)]
          · intro entered
            rw [handling] at entered
            exact absurd (Option.some.inj entered).symm own
      · refine ⟨due, good', ticks, fun id _ _ => ?_⟩
        exact .steady rfl (by rw [log]) (lasting id) (by simp [same]) (by simp [outside])
  | ask request =>
      obtain ⟨-, -, same, aside, deadline, good'⟩ := good.ask ran
      have phase : m'.phase = m.phase := by rw [same]
      refine ⟨_, good', aside.ticks, fun id other _ => ?_⟩
      have different : id ≠ request.target := fun same => other (congrArg some same.symm)
      exact .steady (Function.update_of_ne different _ _) (by rw [aside.log])
        (.of_eq (aside.others id different)) (by simp [phase]) (fun _ => Or.inl phase)
  | ret err =>
      obtain ⟨level, carry, head, phase, phase', aside, done⟩ := good.ret ran
      have outside : m'.phase.handled = none := by
        rw [phase']
        rfl
      have only {id : Nat} (handled : m.phase.handled = some id) : head = id := by
        rw [phase] at handled
        exact Option.some.inj handled
      rcases done with ⟨finished, same, good'⟩ | ⟨rfl, period, deadline, good', resumed⟩
      · refine ⟨due, good', aside.ticks, fun id _ _ => ?_⟩
        refine .steady rfl (by rw [same]) (.of_eq (by rw [same])) (by simp [outside]) ?_
        intro handled
        rw [← only handled]
        exact Or.inr ⟨err, rfl, finished⟩
      · refine ⟨_, good', aside.ticks, fun id _ range => ?_⟩
        by_cases own : id = head
        · subst own
          have inside : m.phase.handled = some id := by
            rw [phase]
            rfl
          obtain ⟨handled, positive, bounded⟩ := range inside period
          obtain ⟨rfl, lasting⟩ := resumed handled positive bounded
          exact .resumed phase phase' rfl period (by rw [aside.log]) (Function.update_self _ _ _)
            lasting
        · exact .steady (Function.update_of_ne own _ _) (by rw [aside.log])
            (.of_eq (aside.others id own)) (by simp [outside])
            (fun handled => absurd (only handled).symm own)

end Step

end NetDefender.Timers
