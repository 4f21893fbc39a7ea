import NetDefender.Timer.Refinement
import NetDefender.Timer.Simulation

/-!
# The loop over a slot

Between the turns of the loop over a slot, and while a handler calls the scheduler, the slot
that is being emptied only loses timers, and every turn takes one off.  A periodic timer that
is pending when its handler has returned is put on its list twice, and its slot may never become
empty.
-/

namespace NetDefender.Timers

open Rings hiding Linked

variable {m m' : Machine} {due : Nat → Option Nat} {level : Nat} {carry : Bool}

/-- The timers of the slot under the cursor of a level. -/
def Scheduler.served (s : Scheduler) (level : Nat) : List Nat := s.hashs level (s.cursors level)

/-- The loop over a slot has gone on, and it has taken a number of turns. -/
structure Empties (level turns : Nat) (s s' : Scheduler) : Prop where
  shrinks : Shrinks level s s'
  fewer : (s'.served level).length + turns ≤ (s.served level).length

theorem Shrinks.empties {s s' : Scheduler} (shrinks : Shrinks level s s') :
    Empties level 0 s s' where
  shrinks := shrinks
  fewer := by
    rw [Scheduler.served, shrinks.cursors]
    exact shrinks.slot.length_le

theorem Empties.trans {s s' s'' : Scheduler} {turns turns' : Nat}
    (first : Empties level turns s s') (second : Empties level turns' s' s'') :
    Empties level (turns + turns') s s'' where
  shrinks := first.shrinks.trans second.shrinks
  fewer := by
    have left := first.fewer
    have right := second.fewer
    omega

/-- A turn takes the first timer off the slot. -/
theorem Machine.Good.serve_empties (good : m.Good due)
    (place : m.phase.place = some (level, carry)) (ran : m.step .serve = some m') :
    m'.phase.place = some (level, carry) ∧ Empties level 1 m.sched m'.sched ∧
      m'.sched.served level = (m.sched.served level).tail := by
  obtain ⟨_, _, id, rest, phase, slot, cursors, ticks, emptied, -, done⟩ := good.serve ran
  rw [phase] at place
  obtain ⟨rfl, rfl⟩ := Prod.mk.inj (Option.some.inj place.symm)
  have tail : m'.sched.served level = (m.sched.served level).tail := by
    rw [Scheduler.served, cursors, emptied, Scheduler.served, slot, List.tail_cons]
  refine ⟨?_, ⟨⟨cursors, ticks, ?_⟩, ?_⟩, tail⟩
  · rcases done with ⟨handling, -⟩ | ⟨same, -⟩
    · rw [handling]
      rfl
    · rw [same, phase]
      rfl
  · rw [emptied, slot]
    exact List.sublist_cons_self id rest
  · rw [tail, Scheduler.served, slot, List.tail_cons, List.length_cons]

/-- What an action does to the slot that is being emptied. -/
theorem Machine.Good.step_empties (good : m.Good due)
    (place : m.phase.place = some (level, carry)) {action : Action} (stays : action ≠ .next)
    (ran : m.step action = some m') :
    m'.phase.place = some (level, carry) ∧
      Empties level (if action = .serve then 1 else 0) m.sched m'.sched := by
  cases action with
  | next => exact absurd rfl stays
  | tick =>
      obtain ⟨s, phase⟩ := m
      cases phase with
      | idle => cases place
      | serving | handling => cases ran
  | serve =>
      obtain ⟨place', empties, -⟩ := good.serve_empties place ran
      exact ⟨place', empties⟩
  | ask request =>
      obtain ⟨-, -, same, aside, -⟩ := good.ask ran
      rw [if_neg nofun]
      exact ⟨by rw [same]; exact place, (aside.shrinks place).empties⟩
  | ret err =>
      obtain ⟨_, _, id, phase, phase', aside, -⟩ := good.ret ran
      rw [if_neg nofun]
      refine ⟨?_, (aside.shrinks place).empties⟩
      rw [phase] at place
      rw [phase']
      exact place

/-- As long as the loop does not leave the slot, each of its turns has taken a timer off. -/
theorem Machine.Good.run_empties {actions : List Action} (good : m.Good due)
    (place : m.phase.place = some (level, carry)) (stays : .next ∉ actions)
    (ran : m.run actions = some m') :
    m'.phase.place = some (level, carry) ∧
      Empties level (actions.count .serve) m.sched m'.sched := by
  induction actions generalizing m due with
  | nil =>
      obtain rfl := Option.some.inj ran
      exact ⟨place, Shrinks.refl.empties⟩
  | cons action actions ih =>
      obtain ⟨next, stepped, ran⟩ := Option.bind_eq_some_iff.mp ran
      obtain ⟨ahead, behind⟩ := not_or.mp (List.mem_cons.not.mp stays)
      obtain ⟨place', first⟩ := good.step_empties place (Ne.symm ahead) stepped
      obtain ⟨due', good', -⟩ := good.step stepped
      obtain ⟨place'', rest⟩ := ih good' place' behind ran
      refine ⟨place'', ?_⟩
      have turns : (action :: actions).count .serve =
          (if action = .serve then 1 else 0) + actions.count .serve := by
        rw [List.count_cons, Nat.add_comm]
        simp
      rw [turns]
      exact first.trans rest

/-- A slot that is not empty is served. -/
theorem Machine.Good.serves (good : m.Good due) (serving : m.phase = .serving level carry)
    (filled : m.sched.served level ≠ []) : ∃ m', m.step .serve = some m' := by
  obtain ⟨s, phase⟩ := m
  obtain rfl : phase = .serving level carry := serving
  obtain ⟨id, rest, slot⟩ := List.exists_cons_of_ne_nil filled
  rw [Scheduler.served] at slot
  have handled := good.handled_of_mem (slot ▸ List.mem_cons_self)
  obtain ⟨handler, handled⟩ := Option.ne_none_iff_exists'.mp handled
  rw [Machine.step]
  dsimp only
  rw [slot]
  dsimp only
  split
  next =>
    rw [Scheduler.expire, handled]
    exact ⟨_, rfl⟩
  next => exact ⟨_, rfl⟩

/-- A slot that is empty is left. -/
theorem Machine.leaves {m : Machine} (serving : m.phase = .serving level carry)
    (empty : m.sched.served level = []) : ∃ m', m.step .next = some m' := by
  obtain ⟨s, phase⟩ := m
  obtain rfl : phase = .serving level carry := serving
  rw [Scheduler.served] at empty
  rw [Machine.step]
  dsimp only
  rw [if_neg (not_not.mpr empty)]
  split
  next => exact ⟨_, rfl⟩
  next => exact ⟨_, rfl⟩

/-! ## The loop in memory -/

/-- The list of the slot under the cursor of a level. -/
def NodeMachine.Slot (n : NodeMachine) (level : Nat) (ids : List Nat) : Prop :=
  Ring n.sched.memory (.hashs level (n.sched.cursors level)) (ids.map .list)

/-- The loop over a slot with these timers does not stand still: a slot that is not empty loses
its first timer, an empty one is left, and a handler may return. -/
structure NodeMachine.Drains (n : NodeMachine) (level : Nat) (carry : Bool) (ids : List Nat) :
    Prop where
  place : n.phase.place = some (level, carry)
  slot : n.Slot level ids
  serves : n.phase = .serving level carry → ids ≠ [] →
    ∃ n', n.step .serve = some n' ∧ n'.Slot level ids.tail
  leaves : n.phase = .serving level carry → ids = [] → ∃ n', n.step .next = some n'
  returns : ∀ id err, n.phase = .handling level carry id → n.clear (.ret err) = true →
    ∃ n', n.step (.ret err) = some n'

variable {n n' : NodeMachine}

theorem Mirrors.slot (mirrors : Mirrors n m) (level : Nat) :
    n.Slot level (m.sched.served level) := by
  rw [NodeMachine.Slot, mirrors.shows.cursors]
  exact mirrors.shows.rings level (m.sched.cursors level)

theorem Mirrors.drains (mirrors : Mirrors n m) (good : m.Good due)
    (place : m.phase.place = some (level, carry)) :
    n.Drains level carry (m.sched.served level) where
  place := by
    rw [mirrors.phase]
    exact place
  slot := mirrors.slot level
  serves serving filled := by
    obtain ⟨m', served⟩ := good.serves (mirrors.phase ▸ serving) filled
    obtain ⟨n', stepped, mirrors'⟩ := mirrors.follows rfl served
    obtain ⟨-, -, tail⟩ := good.serve_empties place served
    exact ⟨n', stepped, tail ▸ mirrors'.slot level⟩
  leaves serving empty := by
    obtain ⟨m', left⟩ := Machine.leaves (mirrors.phase ▸ serving) empty
    obtain ⟨n', stepped, -⟩ := mirrors.follows rfl left
    exact ⟨n', stepped⟩
  returns id err handling clear := by
    obtain ⟨n', -, stepped, -⟩ := mirrors.returns handling clear
    exact ⟨n', stepped⟩

/-- As long as no handler that returns `NDTIMER_OK` leaves its timer both periodic and pending,
the loop over a slot takes at most as many turns as the slot has timers, and nothing is added to
the slot. -/
theorem slot_loop_ends {before : List Action} (ran : NodeMachine.init.run before = some n)
    (clear : NodeMachine.init.obeys NodeMachine.clear before = true)
    (place : n.phase.place = some (level, carry)) :
    ∃ ids, n.Drains level carry ids ∧
      ∀ actions n', .next ∉ actions → n.obeys NodeMachine.clear actions = true →
        n.run actions = some n' →
        ∃ ids', n'.Drains level carry ids' ∧ n'.sched.cursors = n.sched.cursors ∧
          ids'.Sublist ids ∧ ids'.length + actions.count .serve ≤ ids.length := by
  obtain ⟨m, ran', mirrors⟩ := mirrors_init.run clear ran
  obtain ⟨due, good⟩ := Machine.init_good.run ran'
  rw [mirrors.phase] at place
  refine ⟨_, mirrors.drains good place, ?_⟩
  intro actions n' stays obeys goesOn
  obtain ⟨m', goesOn', mirrors'⟩ := mirrors.run obeys goesOn
  obtain ⟨due', good'⟩ := good.run goesOn'
  obtain ⟨place', shrinks, fewer⟩ := good.run_empties place stays goesOn'
  refine ⟨_, mirrors'.drains good' place', ?_, ?_, fewer⟩
  · rw [mirrors'.shows.cursors, shrinks.cursors, mirrors.shows.cursors]
  · rw [Scheduler.served, shrinks.cursors]
    exact shrinks.slot

/-- A timer whose handler runs in the next tick and schedules another one, a whole revolution
ahead. -/
def called : List Action :=
  [.ask (.sched 1 ⟨0, 1000⟩ 7 0), .tick, .serve, .ask (.sched 2 ⟨524, 288000⟩ 8 0)]

theorem called_runs : (NodeMachine.init.run called).isSome = true := by decide +kernel

theorem slot_loop_ends_in_handler :
    ∃ n, NodeMachine.init.run called = some n ∧ ∃ ids, n.Drains 0 false ids ∧
      ∀ actions n', .next ∉ actions → n.obeys NodeMachine.clear actions = true →
        n.run actions = some n' →
        ∃ ids', n'.Drains 0 false ids' ∧ n'.sched.cursors = n.sched.cursors ∧
          ids'.Sublist ids ∧ ids'.length + actions.count .serve ≤ ids.length := by
  have ran := (Option.some_get called_runs).symm
  exact ⟨_, ran, slot_loop_ends ran (by decide +kernel) (by decide +kernel)⟩

/-! ## A list that never becomes empty -/

/-- The handler of a periodic timer makes no call about its own timer. -/
def NodeMachine.solitary (n : NodeMachine) : Action → Bool
  | .ask request =>
      match n.phase with
      | .handling _ _ id => !((n.sched.timers id).isPeriod && request.target = id)
      | _ => true
  | _ => true

/-- A one-shot timer whose handler makes it a periodic timer, until its next tick. -/
def restarted : List Action :=
  [.ask (.sched 1 ⟨0, 1000⟩ 7 0), .tick, .serve, .ask (.schedPeriod 1 ⟨0, 1000⟩ 7 0),
    .ret NDTIMER_OK, .next, .tick]

/-- Turns of the loop in which the handler only returns. -/
def quiet : Nat → List Action
  | 0 => []
  | turns + 1 => .serve :: .ret NDTIMER_OK :: quiet turns

/-- The first node of the slot is that of a timer that is due and is put on another list in every
turn, so that the head of the slot is never written. -/
structure Spins (n : NodeMachine) : Prop where
  phase : n.phase = .serving 0 false
  cursors : n.sched.cursors 0 = 2
  ticks : n.sched.ticks = 2
  first : n.sched.memory.next (.hashs 0 2) = .to (.list 1)
  timer : n.sched.timers 1 = ⟨some 7, 0, true, 1, 0⟩
  unlinked : ∃ memory, n.sched.unlink 1 = some { n.sched with memory } ∧
    memory.prev (.hashs 0 3) = .to (.hashs 0 3) ∧ memory.next (.hashs 0 2) = .to (.list 1)

/-- The handler of timer 1 returns and the timer is put at the end of an empty slot. -/
theorem timerSched_one_tick {w : TimerScheduler} (cursors : w.cursors 0 = 2)
    (last : w.memory.prev (.hashs 0 3) = .to (.hashs 0 3)) :
    w.timerSched 1 (ndfTicksToTimeval 1) (some 7) 0 true =
      some (.ok, { w with
        memory := w.memory.insert (.list 1) (.hashs 0 3) (.hashs 0 3)
        timers := Function.update w.timers 1 ⟨some 7, 0, true, 1, 0⟩ }) := by
  have ticks : ndfTimevalToTicks (ndfTicksToTimeval 1) = 1 := by decide
  have range : ¬1 ≥ TIMER_MAX_TICKS := by decide
  have slot : (2 + 1) % LEVEL_SIZE = 3 := by decide
  have upper : 1 / LEVEL_SIZE = 0 := by decide
  rw [TimerScheduler.timerSched, if_neg (Option.some_ne_none 7), ticks]
  dsimp only
  rw [if_neg range, if_neg Nat.one_ne_zero]
  simp [LEVEL_DEPTH, TimerScheduler.adopt, TimerScheduler.setTimer, upper, cursors, slot,
    TimerScheduler.listAddTail, last, TimerScheduler.setLeft, TimerScheduler.lowerTicks]

theorem Spins.turn (spins : Spins n) :
    ∃ n', n.run [.serve, .ret NDTIMER_OK] = some n' ∧ Spins n' := by
  obtain ⟨w, phase⟩ := n
  obtain ⟨rfl, cursors, ticks, first, timer, memory, unlinked, last, kept⟩ := spins
  dsimp only at cursors ticks first timer unlinked
  let called : TimerScheduler := { w with
    memory := memory, log := w.log ++ [(w.ticks, ⟨1, 7, 0⟩)] }
  let again : TimerScheduler := { called with
    memory := memory.insert (.list 1) (.hashs 0 3) (.hashs 0 3)
    timers := Function.update w.timers 1 ⟨some 7, 0, true, 1, 0⟩ }
  have served : (⟨w, .serving 0 false⟩ : NodeMachine).step .serve =
      some ⟨called, .handling 0 false 1⟩ := by
    rw [NodeMachine.step]
    dsimp only
    rw [cursors, first]
    dsimp only
    rw [timer, if_pos rfl, TimerScheduler.expire, timer, unlinked]
    rfl
  have returned : (⟨called, .handling 0 false 1⟩ : NodeMachine).step (.ret NDTIMER_OK) =
      some ⟨again, .serving 0 false⟩ := by
    have record : called.timers 1 = ⟨some 7, 0, true, 1, 0⟩ := timer
    have scheduled := @timerSched_one_tick called cursors last
    rw [NodeMachine.step]
    dsimp only
    rw [TimerScheduler.resume, record, if_neg (by decide), scheduled]
    rfl
  refine ⟨⟨again, .serving 0 false⟩, ?_, rfl, cursors, ticks, ?_, ?_, ?_⟩
  · rw [NodeMachine.run, served, Option.bind_some, NodeMachine.run, returned]
    rfl
  · simp [again, kept]
  · simp [again]
  -- the timer is on the list of slot 3, and is taken off it
  · refine ⟨again.memory.remove (.list 1) (.hashs 0 3) (.hashs 0 3), ?_, ?_, ?_⟩
    · simp [TimerScheduler.unlink, TimerScheduler.timerPending, TimerScheduler.listDel, again]
    · simp
    · simp [again, kept]

theorem Spins.quiet (spins : Spins n) (turns : Nat) :
    ∃ n', n.run (quiet turns) = some n' ∧ Spins n' := by
  induction turns generalizing n with
  | zero => exact ⟨n, rfl, spins⟩
  | succ turns ih =>
      obtain ⟨next, ran, spins'⟩ := spins.turn
      obtain ⟨n', ran', spins''⟩ := ih spins'
      have split : Timers.quiet (turns + 1) = [.serve, .ret NDTIMER_OK] ++ Timers.quiet turns := rfl
      refine ⟨n', ?_, spins''⟩
      rw [split, NodeMachine.run_append, ran, Option.bind_some, ran']

/-- A run without a call of the scheduler. -/
theorem obeys_quiet (n : NodeMachine) (turns : Nat) :
    n.obeys NodeMachine.solitary (quiet turns) = true := by
  have unasked (n : NodeMachine) {action : Action} {actions : List Action}
      (silent : n.solitary action = true)
      (later : ∀ n : NodeMachine, n.obeys NodeMachine.solitary actions = true) :
      n.obeys NodeMachine.solitary (action :: actions) = true := by
    rw [NodeMachine.obeys, silent, Bool.true_and, Option.all_eq_true]
    exact fun next _ => later next
  induction turns generalizing n with
  | zero => rfl
  | succ turns ih => exact unasked n rfl fun next => unasked next rfl ih

theorem quiet_turns (turns : Nat) :
    .next ∉ quiet turns ∧ (quiet turns).count .serve = turns := by
  induction turns with
  | zero => exact ⟨List.not_mem_nil, rfl⟩
  | succ turns ih => simpa [quiet] using ih

theorem restarted_runs : (NodeMachine.init.run restarted).isSome = true := by decide +kernel

theorem restarted_spins : Spins ((NodeMachine.init.run restarted).get restarted_runs) where
  phase := by decide +kernel
  cursors := by decide +kernel
  ticks := by decide +kernel
  first := by decide +kernel
  timer := by decide +kernel
  unlinked := ⟨_, rfl, by decide +kernel, by decide +kernel⟩

/-- A one-shot timer whose handler schedules it as a periodic timer keeps the loop over the slot
of its next tick going for ever. -/
theorem period_in_handler_spins :
    ∃ n, NodeMachine.init.run restarted = some n ∧
      NodeMachine.init.obeys NodeMachine.solitary restarted = true ∧
      ∀ turns, .next ∉ quiet turns ∧ (quiet turns).count .serve = turns ∧
        n.obeys NodeMachine.solitary (quiet turns) = true ∧
        ∃ n', n.run (quiet turns) = some n' ∧ n'.phase = .serving 0 false ∧
          n'.sched.ticks = n.sched.ticks ∧
          n'.sched.listEmpty 0 (n'.sched.cursors 0) = false := by
  refine ⟨_, (Option.some_get restarted_runs).symm, by decide +kernel, fun turns => ?_⟩
  obtain ⟨n', ran, spins⟩ := restarted_spins.quiet turns
  obtain ⟨stays, count⟩ := quiet_turns turns
  refine ⟨stays, count, obeys_quiet _ turns, n', ran, spins.phase, ?_, ?_⟩
  · rw [spins.ticks, restarted_spins.ticks]
  · rw [TimerScheduler.listEmpty, spins.cursors, spins.first]
    rfl

end NetDefender.Timers
