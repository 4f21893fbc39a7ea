import NetDefender.Timer.Machine

/-!
# Whole ticks

The machine takes every tick of `rte_timer_tick_cb` whose handlers call the scheduler, and
the length of a slot is enough fuel for the loop over it: no turn adds a timer to the slot
that is being emptied.
-/

namespace NetDefender.Timers

variable {s s' : Scheduler} {due : Nat → Option Nat} {handlers : Handlers}
variable {level id : Nat} {carry : Bool} {phase : Phase}
variable {requests : Call → Scheduler → List Request}

/-! ## Runs -/

/-- What every step keeps, a run keeps. -/
theorem Machine.run_keeps {motive : Machine → Prop} {actions : List Action} {m m' : Machine}
    (ran : m.run actions = some m') (start : motive m)
    (keeps : ∀ before action after, action ∈ actions → motive before →
      before.step action = some after → motive after) : motive m' := by
  induction actions generalizing m with
  | nil =>
      obtain rfl := Option.some.inj ran
      exact start
  | cons action actions ih =>
      obtain ⟨next, stepped, ran⟩ := Option.bind_eq_some_iff.mp ran
      refine ih ran (keeps m action next List.mem_cons_self start stepped) ?_
      intro before action after member
      exact keeps before action after (List.mem_cons_of_mem _ member)

theorem Machine.Good.run {m m' : Machine} {actions : List Action} (good : m.Good due)
    (ran : m.run actions = some m') : ∃ due', m'.Good due' := by
  apply Machine.run_keeps ran ⟨due, good⟩
  rintro before action after - ⟨due, good⟩ stepped
  obtain ⟨due', good', -⟩ := good.step stepped
  exact ⟨due', good'⟩

theorem Machine.Good.run_ticks {m m' : Machine} {actions : List Action} (good : m.Good due)
    (ran : m.run actions = some m') : m.sched.ticks ≤ m'.sched.ticks := by
  have kept : (∃ due, m'.Good due) ∧ m.sched.ticks ≤ m'.sched.ticks := by
    refine @Machine.run_keeps (fun next => (∃ due, next.Good due) ∧
      m.sched.ticks ≤ next.sched.ticks) actions m m' ran ⟨⟨due, good⟩, le_rfl⟩ ?_
    rintro before action after - ⟨⟨due, good⟩, passed⟩ stepped
    obtain ⟨due', good', ticks, -⟩ := good.step stepped
    exact ⟨⟨due', good'⟩, passed.trans (Nat.le.intro ticks.symm)⟩
  exact kept.2

/-- The loop over a slot has gone on: it is in the same tick and the slot has not grown. -/
structure Shrinks (level : Nat) (s s' : Scheduler) : Prop where
  cursors : s'.cursors = s.cursors
  ticks : s'.ticks = s.ticks
  slot : (s'.hashs level (s.cursors level)).Sublist (s.hashs level (s.cursors level))

theorem Shrinks.refl : Shrinks level s s := ⟨rfl, rfl, List.Sublist.refl _⟩

theorem Shrinks.trans {s'' : Scheduler} (first : Shrinks level s s')
    (second : Shrinks level s' s'') : Shrinks level s s'' where
  cursors := second.cursors.trans first.cursors
  ticks := second.ticks.trans first.ticks
  slot := (first.cursors ▸ second.slot).trans first.slot

theorem Aside.shrinks (aside : Aside phase id s s') (place : phase.place = some (level, carry)) :
    Shrinks level s s' :=
  ⟨aside.cursors, aside.ticks, aside.slot level carry place⟩

/-! ## Handlers -/

/-- The state after calls of the scheduler. -/
def Scheduler.asked (s : Scheduler) : List Request → Option Scheduler
  | [] => some s
  | request :: requests =>
      if request.fresh s ∧ (request.run s).1 ≠ .aborted then (request.run s).2.asked requests
      else none

/-- Handlers that only call the scheduler.  The handler of a periodic timer does not schedule
its own timer. -/
structure Calling (requests : Call → Scheduler → List Request) (handlers : Handlers) : Prop where
  asks : ∀ call s, s.asked (requests call s) = some (handlers call s).1
  alone : ∀ call s, s.timerPending call.timer = false → (handlers call s).2 = NDTIMER_OK →
    ((handlers call s).1.timers call.timer).isPeriod = true →
    (handlers call s).1.timerPending call.timer = false

theorem calling_inert (err : Int) : Calling (fun _ _ => []) fun _ s => (s, err) where
  asks := fun _ _ => rfl
  alone := fun _ _ idle _ _ => idle

/-- The calls of the scheduler are those of the handlers. -/
def Called (requests : Call → Scheduler → List Request) (actions : List Action) : Prop :=
  ∀ request, .ask request ∈ actions → ∃ call s, request ∈ requests call s

theorem Called.cons {action : Action} {actions : List Action}
    (called : Called requests actions) (silent : action.target = none) :
    Called requests (action :: actions) := by
  intro request member
  rcases List.mem_cons.mp member with same | member
  · rw [← same] at silent
    exact absurd silent (Option.some_ne_none _)
  · exact called request member

theorem Called.append {actions more : List Action} (called : Called requests actions)
    (called' : Called requests more) : Called requests (actions ++ more) := by
  intro request member
  rcases List.mem_append.mp member with member | member
  · exact called request member
  · exact called' request member

theorem Called.nil : Called requests [] :=
  fun _ member => absurd member List.not_mem_nil

/-- A handler makes its calls. -/
theorem Machine.Good.asks {script : List Request}
    (good : (⟨s, .handling level carry id⟩ : Machine).Good due)
    (asked : s.asked script = some s') :
    (⟨s, .handling level carry id⟩ : Machine).run (script.map .ask) =
        some ⟨s', .handling level carry id⟩ ∧
      Shrinks level s s' ∧ ∃ due', (⟨s', .handling level carry id⟩ : Machine).Good due' := by
  induction script generalizing s due with
  | nil =>
      obtain rfl := Option.some.inj asked
      exact ⟨rfl, .refl, due, good⟩
  | cons request script ih =>
      rw [Scheduler.asked] at asked
      split at asked
      next allowed =>
        have ran : (⟨s, .handling level carry id⟩ : Machine).step (.ask request) =
            some ⟨(request.run s).2, .handling level carry id⟩ := by
          rw [Machine.step]
          dsimp only
          rw [if_pos allowed.1]
          split
          next aborted => exact absurd (congrArg Prod.fst aborted) allowed.2
          next ret after same => rw [same]
        obtain ⟨-, -, -, aside, deadline, good'⟩ := good.ask ran
        obtain ⟨rest, shrinks, due', good''⟩ := ih good' asked
        rw [List.map_cons, Machine.run, ran, Option.bind_some]
        exact ⟨rest, (aside.shrinks rfl).trans shrinks, due', good''⟩
      next => cases asked

/-- A timer on a list has a handler. -/
theorem Machine.Good.handled_of_mem {m : Machine} (good : m.Good due) {slot : Nat}
    (member : id ∈ m.sched.hashs level slot) : (m.sched.timers id).handler ≠ none := by
  obtain ⟨lower, upper, -, held⟩ := good
  apply (held.seated id).handled
  rw [(held.linked.mem level slot id).mp member]
  exact Option.some_ne_none _

/-- The handler of a timer begins, makes its calls and returns. -/
theorem Machine.Good.expire (calling : Calling requests handlers)
    (good : (⟨s, .serving level carry⟩ : Machine).Good due) {rest : List Nat}
    (head : s.hashs level (s.cursors level) = id :: rest) (spent : (s.timers id).left = 0) :
    ∃ actions due', Called requests actions ∧
      (⟨s, .serving level carry⟩ : Machine).run (.serve :: actions) =
        some ⟨s.timerExpire handlers id, .serving level carry⟩ ∧
      (⟨s.timerExpire handlers id, .serving level carry⟩ : Machine).Good due' ∧
      (s.timerExpire handlers id).cursors = s.cursors ∧
      (s.timerExpire handlers id).ticks = s.ticks ∧
      ((s.timerExpire handlers id).hashs level (s.cursors level)).Sublist rest := by
  have handled := good.handled_of_mem (head ▸ List.mem_cons_self)
  obtain ⟨handler, handled⟩ := Option.ne_none_iff_exists'.mp handled
  -- the machine in the handler
  let call : Call := ⟨id, handler, (s.timers id).priv⟩
  let begun : Scheduler := { s.unlink id with log := s.log ++ [(s.ticks, call)] }
  have served : (⟨s, .serving level carry⟩ : Machine).step .serve =
      some ⟨begun, .handling level carry id⟩ := by
    rw [Machine.step]
    dsimp only
    rw [head]
    dsimp only
    rw [if_pos spent, Scheduler.expire, handled]
    rfl
  obtain ⟨_, _, head', rest', phase, slot, cursors, ticks, emptied, -, done⟩ := good.serve served
  obtain ⟨rfl, rfl⟩ := Phase.serving.inj phase
  obtain ⟨rfl, rfl⟩ := List.cons.inj (slot.symm.trans head)
  obtain ⟨-, good', -⟩ | ⟨same, -⟩ := done
  rotate_left
  · cases same
  have asked := calling.asks call begun
  obtain ⟨ran, shrinks, due', good''⟩ := good'.asks asked
  generalize ended : handlers call begun = answer at asked ran shrinks good''
  obtain ⟨after, err⟩ := answer
  have expires : s.timerExpire handlers head' =
      if err ≠ NDTIMER_OK ∨ !(after.timers head').isPeriod then after
      else (after.timerSched head' (ndfTicksToTimeval (after.timers head').delay)
        (after.timers head').handler (after.timers head').priv
        (after.timers head').isPeriod).2 := by
    have start : { s.unlink head' with
        log := (s.unlink head').log ++ [((s.unlink head').ticks, call)] } = begun := by
      simp [begun, Scheduler.unlink_eq_listDel]
    rw [Scheduler.timerExpire, handled]
    dsimp only
    rw [start, ended]
  have resumes : after.resume head' err = some (s.timerExpire handlers head') := by
    rw [expires, Scheduler.resume]
    split
    next => rfl
    next again =>
      obtain ⟨ok, period⟩ : err = NDTIMER_OK ∧ (after.timers head').isPeriod = true := by
        simpa using again
      have idle : begun.timerPending head' = false := by
        simp [begun, Scheduler.unlink_eq_listDel, Scheduler.timerPending]
      have alone := calling.alone call begun idle
      rw [ended] at alone
      have free : after.timerPending head' = false := alone ok period
      rw [if_neg (by simp [free])]
  have returned : (⟨after, .handling level carry head'⟩ : Machine).step (.ret err) =
      some ⟨s.timerExpire handlers head', .serving level carry⟩ := by
    rw [Machine.step]
    dsimp only
    rw [resumes]
    rfl
  obtain ⟨_, _, _, phase, -, aside, -⟩ := good''.ret returned
  obtain ⟨rfl, rfl, rfl⟩ := Phase.handling.inj phase
  obtain ⟨final, good''', -⟩ := good''.step returned
  have whole := shrinks.trans (aside.shrinks rfl)
  refine ⟨(requests call begun).map .ask ++ [.ret err], final, ?_, ?_, good''',
    whole.cursors.trans cursors, whole.ticks.trans ticks, ?_⟩
  · apply Called.append
    · intro request member
      obtain ⟨_, member, same⟩ := List.mem_map.mp member
      exact ⟨call, begun, Action.ask.inj same ▸ member⟩
    · exact Called.nil.cons rfl
  · rw [Machine.run, served, Option.bind_some, Machine.run_append, ran, Option.bind_some,
      Machine.run, returned]
    rfl
  · have smaller := whole.slot
    rw [cursors, emptied] at smaller
    exact smaller

/-- One turn of the loop over a slot. -/
theorem Machine.Good.turn (calling : Calling requests handlers)
    (good : (⟨s, .serving level carry⟩ : Machine).Good due) {rest : List Nat}
    (head : s.hashs level (s.cursors level) = id :: rest) :
    ∃ actions due', Called requests actions ∧
      (⟨s, .serving level carry⟩ : Machine).run (.serve :: actions) =
        some ⟨s.serve handlers level id, .serving level carry⟩ ∧
      (⟨s.serve handlers level id, .serving level carry⟩ : Machine).Good due' ∧
      (s.serve handlers level id).cursors = s.cursors ∧
      (s.serve handlers level id).ticks = s.ticks ∧
      ((s.serve handlers level id).hashs level (s.cursors level)).Sublist rest := by
  rw [Scheduler.serve]
  split
  next spent => exact good.expire calling head spent
  next waits =>
    have served : (⟨s, .serving level carry⟩ : Machine).step .serve =
        some ⟨(s.listDel id).drop id (level + 1), .serving level carry⟩ := by
      rw [Machine.step]
      dsimp only
      rw [head]
      dsimp only
      rw [if_neg waits]
    obtain ⟨_, _, head', rest', phase, slot, cursors, ticks, emptied, -⟩ := good.serve served
    obtain ⟨rfl, rfl⟩ := Phase.serving.inj phase
    obtain ⟨rfl, rfl⟩ := List.cons.inj (slot.symm.trans head)
    obtain ⟨due', good', -⟩ := good.step served
    refine ⟨[], due', .nil, ?_, good', cursors, ticks, ?_⟩
    · rw [Machine.run, served]
      rfl
    · rw [emptied]

/-- The loop over a slot empties it. -/
theorem Machine.Good.drain (calling : Calling requests handlers) (fuel : Nat)
    (good : (⟨s, .serving level carry⟩ : Machine).Good due)
    (enough : (s.hashs level (s.cursors level)).length ≤ fuel) :
    let served := s.drain handlers level (s.cursors level) fuel
    (∃ actions due', Called requests actions ∧
      (⟨s, .serving level carry⟩ : Machine).run actions =
        some ⟨served, .serving level carry⟩ ∧
      (⟨served, .serving level carry⟩ : Machine).Good due') ∧
    served.cursors = s.cursors ∧ served.ticks = s.ticks ∧
      served.hashs level (s.cursors level) = [] := by
  induction fuel generalizing s due with
  | zero =>
      have empty := List.length_eq_zero_iff.mp (Nat.le_zero.mp enough)
      exact ⟨⟨[], due, .nil, rfl, good⟩, rfl, rfl, empty⟩
  | succ fuel ih =>
      rw [Scheduler.drain]
      split
      next empty => exact ⟨⟨[], due, .nil, rfl, good⟩, rfl, rfl, empty⟩
      next id rest head =>
        obtain ⟨actions, due', called, ran, good', cursors, ticks, smaller⟩ :=
          good.turn calling head
        have fewer : ((s.serve handlers level id).hashs level
            ((s.serve handlers level id).cursors level)).length ≤ fuel := by
          rw [head, List.length_cons] at enough
          rw [cursors]
          exact smaller.length_le.trans (Nat.le_of_succ_le_succ enough)
        obtain ⟨⟨more, due'', called', ran', good''⟩, cursors', ticks', empty⟩ := ih good' fewer
        rw [cursors] at ran' good'' cursors' ticks' empty
        have turned : Called requests (.serve :: actions) := called.cons rfl
        refine ⟨⟨(.serve :: actions) ++ more, due'', turned.append called', ?_, good''⟩, cursors',
          ticks'.trans ticks, empty⟩
        rw [Machine.run_append, ran, Option.bind_some, ran']

/-- The loop over the levels, from the slot of a level on. -/
theorem Machine.Good.finish (calling : Calling requests handlers) (levels : Nat)
    (last : level + levels + 1 = LEVEL_DEPTH)
    (good : (⟨s, .serving level carry⟩ : Machine).Good due) :
    let served := s.drain handlers level (s.cursors level)
      (s.hashs level (s.cursors level)).length
    let final := if carry then served.turnLevels handlers levels (level + 1) else served
    ∃ actions due', Called requests actions ∧
      (⟨s, .serving level carry⟩ : Machine).run actions = some ⟨final, .idle⟩ ∧
      (⟨final, .idle⟩ : Machine).Good due' ∧ final.ticks = s.ticks := by
  dsimp only
  induction levels generalizing s due level carry with
  | zero =>
      obtain ⟨⟨actions, due', called, ran, good'⟩, cursors, ticks, empty⟩ :=
        good.drain calling _ le_rfl
      generalize s.drain handlers level (s.cursors level) _ = served at *
      have finished : (⟨served, .serving level carry⟩ : Machine).step .next =
          some ⟨served, .idle⟩ := by
        rw [Machine.step]
        dsimp only
        rw [cursors, if_neg (not_not.mpr empty), if_neg (by omega)]
      obtain ⟨due'', good'', -⟩ := good'.step finished
      have final : (if carry then served.turnLevels handlers 0 (level + 1) else served) =
          served := by
        rw [Scheduler.turnLevels, ite_self]
      rw [final]
      refine ⟨actions ++ [.next], due'', called.append (Called.nil.cons rfl), ?_, good'',
        ticks⟩
      rw [Machine.run_append, ran, Option.bind_some, Machine.run, finished]
      rfl
  | succ levels ih =>
      obtain ⟨⟨actions, due', called, ran, good'⟩, cursors, ticks, empty⟩ :=
        good.drain calling _ le_rfl
      generalize s.drain handlers level (s.cursors level) _ = served at *
      cases carry with
      | false =>
          have finished : (⟨served, .serving level false⟩ : Machine).step .next =
              some ⟨served, .idle⟩ := by
            rw [Machine.step]
            dsimp only
            rw [cursors, if_neg (not_not.mpr empty), if_neg (fun both => Bool.false_ne_true both.1)]
          obtain ⟨due'', good'', -⟩ := good'.step finished
          rw [if_neg Bool.false_ne_true]
          refine ⟨actions ++ [.next], due'', called.append (Called.nil.cons rfl), ?_,
            good'', ticks⟩
          rw [Machine.run_append, ran, Option.bind_some, Machine.run, finished]
          rfl
      | true =>
          have finished : (⟨served, .serving level true⟩ : Machine).step .next =
              some ⟨(served.bump (level + 1)).1,
                .serving (level + 1) (served.bump (level + 1)).2⟩ := by
            rw [Machine.step]
            dsimp only
            rw [cursors, if_neg (not_not.mpr empty), if_pos ⟨rfl, by omega⟩]
          obtain ⟨due'', good'', ticks', -⟩ := good'.step finished
          obtain ⟨more, final, called', ran', good''', ticks''⟩ := ih (by omega) good''
          rw [if_pos rfl, Scheduler.turnLevels]
          refine ⟨actions ++ .next :: more, final, called.append (called'.cons rfl), ?_,
            good''', ?_⟩
          · rw [Machine.run_append, ran, Option.bind_some, Machine.run, finished, Option.bind_some]
            exact ran'
          · exact (ticks''.trans ticks').trans ticks

/-- A whole tick is a run of the machine. -/
theorem tick_refines (calling : Calling requests handlers)
    (good : (⟨s, .idle⟩ : Machine).Good due) :
    ∃ actions due', Called requests actions ∧
      (⟨s, .idle⟩ : Machine).run (.tick :: actions) =
        some ⟨s.rteTimerTickCb handlers, .idle⟩ ∧
      (⟨s.rteTimerTickCb handlers, .idle⟩ : Machine).Good due' ∧
      (s.rteTimerTickCb handlers).ticks = s.ticks + 1 := by
  let moved := { s with ticks := s.ticks + 1 }.bump 0
  have began : (⟨s, .idle⟩ : Machine).step .tick = some ⟨moved.1, .serving 0 moved.2⟩ := rfl
  obtain ⟨due', good', ticks, -⟩ := good.step began
  obtain ⟨actions, due'', called, ran, good'', ticks'⟩ := good'.finish calling 1 rfl
  have whole : s.rteTimerTickCb handlers =
      if moved.2 then (moved.1.drain handlers 0 (moved.1.cursors 0)
        (moved.1.hashs 0 (moved.1.cursors 0)).length).turnLevels handlers 1 1
      else moved.1.drain handlers 0 (moved.1.cursors 0)
        (moved.1.hashs 0 (moved.1.cursors 0)).length := rfl
  rw [whole]
  refine ⟨actions, due'', called, ?_, good'', ticks'.trans ticks⟩
  rw [Machine.run, began, Option.bind_some]
  exact ran

/-! ## The machine goes on -/

/-- A machine gets to another one without a call of the scheduler. -/
def Machine.Leads (m m' : Machine) : Prop :=
  ∃ actions, (∀ action ∈ actions, action.target = none) ∧ m.run actions = some m'

theorem Machine.Leads.trans {m m' m'' : Machine} (first : m.Leads m') (second : m'.Leads m'') :
    m.Leads m'' := by
  obtain ⟨actions, alone, ran⟩ := first
  obtain ⟨more, alone', ran'⟩ := second
  refine ⟨actions ++ more, ?_, ?_⟩
  · intro action member
    exact (List.mem_append.mp member).elim (alone action) (alone' action)
  · rw [Machine.run_append, ran, Option.bind_some, ran']

theorem Machine.Leads.of_called {m m' : Machine} {actions : List Action}
    (called : Called (fun _ _ => []) actions) (ran : m.run actions = some m') : m.Leads m' := by
  refine ⟨actions, fun action member => ?_, ran⟩
  cases action with
  | tick | serve | next | ret => rfl
  | ask request =>
      obtain ⟨_, _, impossible⟩ := called request member
      exact absurd impossible List.not_mem_nil

/-- The loop over a slot comes to its end. -/
theorem Machine.Good.finishes (good : (⟨s, .serving level carry⟩ : Machine).Good due) :
    ∃ m' due', (⟨s, .serving level carry⟩ : Machine).Leads m' ∧ m'.Good due' ∧
      m'.phase = .idle ∧ m'.sched.ticks = s.ticks := by
  obtain ⟨levels, last⟩ : ∃ levels, level + levels + 1 = LEVEL_DEPTH := by
    obtain ⟨_, _, stands, -⟩ := good
    cases stands with
    | low _ place =>
        obtain ⟨rfl, -⟩ := Prod.mk.inj (Option.some.inj place)
        exact ⟨1, rfl⟩
    | high _ place =>
        obtain ⟨rfl, -⟩ := Prod.mk.inj (Option.some.inj place)
        exact ⟨0, rfl⟩
  obtain ⟨actions, due', called, ran, good', ticks⟩ := good.finish (calling_inert 0) levels last
  exact ⟨_, due', .of_called called ran, good', rfl, ticks⟩

/-- A tick comes to its end. -/
theorem Machine.Good.ends {m : Machine} (good : m.Good due) :
    ∃ m' due', m.Leads m' ∧ m'.Good due' ∧ m'.phase = .idle ∧
      m'.sched.ticks = m.sched.ticks := by
  obtain ⟨s, phase⟩ := m
  cases phase with
  | idle => exact ⟨_, due, ⟨[], nofun, rfl⟩, good, rfl, rfl⟩
  | serving level carry => exact good.finishes
  | handling level carry id =>
      have returned : (⟨s, .handling level carry id⟩ : Machine).step (.ret 1) =
          some ⟨s, .serving level carry⟩ := by
        rw [Machine.step]
        dsimp only
        rw [Scheduler.resume, if_pos (Or.inl (by decide))]
        rfl
      obtain ⟨due', good', -⟩ := good.step returned
      obtain ⟨m', due'', leads, rest⟩ := good'.finishes
      refine ⟨m', due'', .trans ⟨[.ret 1], ?_, ?_⟩ leads, rest⟩
      · intro action member
        obtain rfl := List.mem_singleton.mp member
        rfl
      · rw [Machine.run, returned]
        rfl

/-- Any later tick comes. -/
theorem Machine.Good.reaches {m : Machine} (good : m.Good due) {time : Nat}
    (later : m.sched.ticks ≤ time) :
    ∃ m', m.Leads m' ∧ m'.phase = .idle ∧ m'.sched.ticks = time := by
  induction time, later using Nat.le_induction with
  | base =>
      obtain ⟨m', -, leads, -, idle, ticks⟩ := good.ends
      exact ⟨m', leads, idle, ticks⟩
  | succ time _ ih =>
      obtain ⟨m', leads, idle, rfl⟩ := ih
      obtain ⟨actions, alone, ran⟩ := leads
      obtain ⟨due', good'⟩ := good.run ran
      obtain ⟨s, phase⟩ := m'
      obtain rfl : phase = .idle := idle
      obtain ⟨actions', -, called, ran', -, ticks⟩ := tick_refines (calling_inert 0) good'
      have ticked : Called (fun _ _ => []) (.tick :: actions') := called.cons rfl
      exact ⟨_, .trans ⟨actions, alone, ran⟩ (.of_called ticked ran'), rfl, ticks⟩

end NetDefender.Timers
