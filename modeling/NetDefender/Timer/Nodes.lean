import NetDefender.Lib.Rings
import NetDefender.Timer.Machine

/-!
# The lists of the wheels in memory

The scheduler of `timer.c` once more, with the lists of `list.h`: every slot and every timer
has a `struct list_head`, and a timer may be put on a list while it is on one.  A pointer that
is followed where there is no node is no step.
-/

namespace NetDefender.Timers

open Rings

/-! ## The state -/

/-- A `struct list_head`: that of a slot, or that of a timer. -/
inductive ListHead where
  | hashs (level slot : Nat)
  | list (id : Nat)
  deriving DecidableEq, Repr

/-- `struct ndf_timer` without its node. -/
structure TimerData where
  handler : Option Nat := none
  priv : Nat := 0
  isPeriod : Bool := false
  delay : Nat := 0
  left : Nat := 0
  deriving DecidableEq, Repr

/-- `struct timer_scheduler`, the timers and the memory that holds their lists. -/
structure TimerScheduler where
  cursors : Nat → Nat
  memory : Memory ListHead
  timers : Nat → TimerData
  ticks : Nat
  log : List (Nat × Call)

/-- `timer_init_scheduler`, with the timers zeroed. -/
def timerInitNodes : TimerScheduler where
  cursors := fun _ => 0
  memory :=
    { next := fun | .hashs level slot => .to (.hashs level slot) | .list _ => .null
      prev := fun | .hashs level slot => .to (.hashs level slot) | .list _ => .null }
  timers := fun _ => {}
  ticks := 0
  log := []

namespace TimerScheduler

/-- The state with another record for a timer. -/
def setTimer (w : TimerScheduler) (id : Nat) (timer : TimerData) : TimerScheduler :=
  { w with timers := Function.update w.timers id timer }

/-- The remainder of a timer. -/
def setLeft (w : TimerScheduler) (id left : Nat) : TimerScheduler :=
  w.setTimer id { w.timers id with left := left }

/-! ## List operations -/

/-- `timer_pending`. -/
def timerPending (w : TimerScheduler) (id : Nat) : Bool :=
  let prev := w.memory.prev (.list id)
  prev ≠ .poison2 && prev ≠ .null && prev ≠ .to (.list id)

/-- `list_empty`, of the list of a slot. -/
def listEmpty (w : TimerScheduler) (level slot : Nat) : Bool :=
  w.memory.next (.hashs level slot) = .to (.hashs level slot)

/-- `list_add_tail`. -/
def listAddTail (w : TimerScheduler) (id level slot : Nat) : Option TimerScheduler :=
  match w.memory.prev (.hashs level slot) with
  | .to prev => some { w with memory := w.memory.insert (.list id) prev (.hashs level slot) }
  | _ => none

/-- `list_del`. -/
def listDel (w : TimerScheduler) (id : Nat) : Option TimerScheduler :=
  match w.memory.prev (.list id), w.memory.next (.list id) with
  | .to prev, .to next => some { w with memory := w.memory.remove (.list id) prev next }
  | _, _ => none

/-- A pending timer is taken off its list. -/
def unlink (w : TimerScheduler) (id : Nat) : Option TimerScheduler :=
  if w.timerPending id then w.listDel id else some w

/-- What the cursors below a level stand for. -/
def lowerTicks (w : TimerScheduler) (level : Nat) : Nat :=
  ((List.range level).map fun lower => w.cursors lower * getLevelTicks lower).sum

/-! ## Scheduling -/

/-- The loop of `__ndf_timer_sched`, from the level below `levels` down. -/
def adopt (w : TimerScheduler) (id : Nat) : Nat → Option (Ret × TimerScheduler)
  | 0 => some (.inval, w)
  | level + 1 =>
      let timer := w.timers id
      let off := timer.delay / getLevelTicks level
      if off > 0 then
        let hash := (w.cursors level + off) % LEVEL_SIZE
        (w.listAddTail id level hash).map fun w =>
          (.ok, w.setLeft id (timer.left % getLevelTicks level + w.lowerTicks level))
      else adopt w id level

/-- `__ndf_timer_sched`.  A timer that is pending is put on a list all the same. -/
def timerSched (w : TimerScheduler) (id : Nat) (delay : Timeval) (handler : Option Nat)
    (arg : Nat) (period : Bool) : Option (Ret × TimerScheduler) :=
  if handler = none then some (.aborted, w)
  else
    let ticks := ndfTimevalToTicks delay
    let timer := { w.timers id with handler, priv := arg, isPeriod := period, delay := ticks }
    if ticks ≥ TIMER_MAX_TICKS then some (.inval, w.setTimer id timer)
    else
      -- a delay of 0 is triggered at the next tick
      let ticks := if ticks = 0 then 1 else ticks
      (w.setTimer id { timer with delay := ticks, left := ticks }).adopt id LEVEL_DEPTH

/-- `ndf_timer_sched`. -/
def ndfTimerSched (w : TimerScheduler) (id : Nat) (delay : Timeval) (handler arg : Nat) :
    Option (Ret × TimerScheduler) :=
  if delay.tvSec ≥ TIMER_MAX_SECS then some (.inval, w)
  else w.timerSched id delay (some handler) arg false

/-- `ndf_timer_sched_period`. -/
def ndfTimerSchedPeriod (w : TimerScheduler) (id : Nat) (intv : Timeval) (handler arg : Nat) :
    Option (Ret × TimerScheduler) :=
  if intv.tvSec ≥ TIMER_MAX_SECS then some (.inval, w)
  else w.timerSched id intv (some handler) arg true

/-- `ndf_timer_cancel`. -/
def ndfTimerCancel (w : TimerScheduler) (id : Nat) : Option (Ret × TimerScheduler) :=
  (w.unlink id).map fun w => (.ok, w)

/-- `ndf_timer_reset`. -/
def ndfTimerReset (w : TimerScheduler) (id : Nat) : Option (Ret × TimerScheduler) :=
  (w.unlink id).bind fun w =>
    let timer := w.timers id
    w.timerSched id (ndfTicksToTimeval timer.delay) timer.handler timer.priv timer.isPeriod

/-- `ndf_timer_update`. -/
def ndfTimerUpdate (w : TimerScheduler) (id : Nat) (delay : Timeval) :
    Option (Ret × TimerScheduler) :=
  (w.unlink id).bind fun w =>
    let timer := w.timers id
    w.timerSched id delay timer.handler timer.priv timer.isPeriod

/-- A call of the scheduler. -/
def ask (w : TimerScheduler) : Request → Option (Ret × TimerScheduler)
  | .sched id delay handler arg => w.ndfTimerSched id delay handler arg
  | .schedPeriod id intv handler arg => w.ndfTimerSchedPeriod id intv handler arg
  | .cancel id => w.ndfTimerCancel id
  | .reset id => w.ndfTimerReset id
  | .update id delay => w.ndfTimerUpdate id delay

/-- The call does not schedule a timer that is pending. -/
def fresh (w : TimerScheduler) : Request → Bool
  | .sched id _ _ _ => !w.timerPending id
  | .schedPeriod id _ _ _ => !w.timerPending id
  | _ => true

/-! ## The tick -/

/-- The handler of a timer begins: the first half of `timer_expire`. -/
def expire (w : TimerScheduler) (id : Nat) : Option TimerScheduler :=
  (w.timers id).handler.bind fun handler =>
    let call : Call := ⟨id, handler, (w.timers id).priv⟩
    (w.unlink id).map fun after => { after with log := w.log ++ [(w.ticks, call)] }

/-- The handler of a timer has returned: the second half of `timer_expire`. -/
def resume (w : TimerScheduler) (id : Nat) (err : Int) : Option TimerScheduler :=
  let timer := w.timers id
  if err ≠ NDTIMER_OK ∨ !timer.isPeriod then some w
  else
    (w.timerSched id (ndfTicksToTimeval timer.delay) timer.handler timer.priv
      timer.isPeriod).bind fun
        | (.aborted, _) => none
        | (_, w) => some w

/-- The loop that drops a timer to a lower wheel, from the level below `levels` down. -/
def drop (w : TimerScheduler) (id : Nat) : Nat → Option TimerScheduler
  | 0 => some w
  | lower + 1 =>
      let left := (w.timers id).left
      let off := left / getLevelTicks lower
      if off > 0 then
        let hash := (w.cursors lower + off) % LEVEL_SIZE
        (w.listAddTail id lower hash).map fun w => w.setLeft id (left % getLevelTicks lower)
      else drop w id lower

/-- A cursor moves on by one slot; at the end it carries. -/
def bump (w : TimerScheduler) (level : Nat) : TimerScheduler × Bool :=
  let cursor := w.cursors level + 1
  if cursor < LEVEL_SIZE then
    ({ w with cursors := Function.update w.cursors level cursor }, false)
  else ({ w with cursors := Function.update w.cursors level 0 }, true)

end TimerScheduler

/-! ## The machine -/

/-- Where `rte_timer_tick_cb` is, with the lists in memory. -/
structure NodeMachine where
  sched : TimerScheduler
  phase : Phase

namespace NodeMachine

/-- One step.  `list_first_entry` takes what the head of the slot points to for a timer. -/
def step (n : NodeMachine) : Action → Option NodeMachine
  | .tick =>
      match n.phase with
      | .idle =>
          let (w, carry) := { n.sched with ticks := n.sched.ticks + 1 }.bump 0
          some ⟨w, .serving 0 carry⟩
      | _ => none
  | .serve =>
      match n.phase with
      | .serving level carry =>
          match n.sched.memory.next (.hashs level (n.sched.cursors level)) with
          | .to (.list id) =>
              if (n.sched.timers id).left = 0 then
                (n.sched.expire id).map fun w => ⟨w, .handling level carry id⟩
              else
                ((n.sched.listDel id).bind fun w => w.drop id (level + 1)).map fun w =>
                  ⟨w, .serving level carry⟩
          | _ => none
      | _ => none
  | .next =>
      match n.phase with
      | .serving level carry =>
          if !n.sched.listEmpty level (n.sched.cursors level) then none
          else if carry ∧ level + 1 < LEVEL_DEPTH then
            let (w, carry) := n.sched.bump (level + 1)
            some ⟨w, .serving (level + 1) carry⟩
          else some ⟨n.sched, .idle⟩
      | _ => none
  | .ask request =>
      match n.phase with
      | .serving _ _ => none
      | phase =>
          if n.sched.fresh request then
            (n.sched.ask request).bind fun
              | (.aborted, _) => none
              | (_, w) => some ⟨w, phase⟩
          else none
  | .ret err =>
      match n.phase with
      | .handling level carry id =>
          (n.sched.resume id err).map fun w => ⟨w, .serving level carry⟩
      | _ => none

/-- A run of actions. -/
def run (n : NodeMachine) : List Action → Option NodeMachine
  | [] => some n
  | action :: actions => (n.step action).bind fun n => n.run actions

/-- A new scheduler. -/
def init : NodeMachine := ⟨timerInitNodes, .idle⟩

theorem run_append (n : NodeMachine) (actions more : List Action) :
    n.run (actions ++ more) = (n.run actions).bind fun n => n.run more := by
  induction actions generalizing n with
  | nil => rfl
  | cons action actions ih =>
      rw [List.cons_append, run, run, Option.bind_assoc]
      exact congrArg _ (funext fun n => ih n)

end NodeMachine

end NetDefender.Timers
