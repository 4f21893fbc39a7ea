import Mathlib.Algebra.Group.Int.Defs
import Mathlib.Algebra.GroupWithZero.Nat
import Mathlib.Data.List.Nodup
import Mathlib.Logic.Function.Basic

/-!
# The timing wheels

The scheduler of `timer.c`: two wheels of `LEVEL_SIZE` slots, a cursor on each, and a
list of timers in every slot.  Timers are named by numbers, and their records are part
of the state.  A list node is modelled by the slot whose list holds it, so that
`timer_pending` asks whether there is one; putting a node that is pending on a second
list is outside the model.  A handler is a function on the state that is passed along.
The spinlock, the log lines and the choice between the global and the per-lcore
scheduler are left out; no cursor and no remainder overflows with wheels of this size.
-/

namespace NetDefender.Timers

/-! ## Time -/

/-- Ticks in a second. -/
def NDF_TIMER_HZ : Nat := 1000

/-- Slots of a wheel. -/
def LEVEL_SIZE : Nat := 2 <<< 18

/-- The number of wheels. -/
def LEVEL_DEPTH : Nat := 2

/-- The first number of ticks that is too large for a delay. -/
def TIMER_MAX_TICKS : Nat := 0xffffffff

/-- The first number of seconds that is too large for a delay. -/
def TIMER_MAX_SECS : Nat := TIMER_MAX_TICKS / NDF_TIMER_HZ

/-- `struct timeval`. -/
structure Timeval where
  tvSec : Int
  tvUsec : Int
  deriving DecidableEq, Repr

/-- `ndf_timeval_to_ticks`; the sum is converted to an unsigned 64-bit number. -/
def ndfTimevalToTicks (tv : Timeval) : Nat :=
  let ticks := ((tv.tvSec * NDF_TIMER_HZ +
    (tv.tvUsec * NDF_TIMER_HZ).tdiv 1000000) % 2 ^ 64).toNat
  if ticks ≥ TIMER_MAX_TICKS then TIMER_MAX_TICKS else ticks

/-- `ndf_ticks_to_timeval`. -/
def ndfTicksToTimeval (ticks : Nat) : Timeval :=
  ⟨(ticks / NDF_TIMER_HZ : Nat), (ticks % NDF_TIMER_HZ * 1000000 / NDF_TIMER_HZ : Nat)⟩

/-- `get_level_ticks`. -/
def getLevelTicks (level : Nat) : Nat := LEVEL_SIZE ^ level

/-! ## The state -/

/-- `struct ndf_timer`. -/
structure NdfTimer where
  /-- The level and the slot whose list holds the node. -/
  list : Option (Nat × Nat) := none
  handler : Option Nat := none
  priv : Nat := 0
  isPeriod : Bool := false
  delay : Nat := 0
  left : Nat := 0
  deriving DecidableEq, Repr

/-- One run of a timer's handler. -/
structure Call where
  timer : Nat
  handler : Nat
  priv : Nat
  deriving DecidableEq, Repr

/-- `struct timer_scheduler` and the timers.  `ticks` counts the calls of
`rte_timer_tick_cb` and `log` records the handlers they ran, with the tick. -/
structure Scheduler where
  cursors : Nat → Nat
  hashs : Nat → Nat → List Nat
  timers : Nat → NdfTimer
  ticks : Nat
  log : List (Nat × Call)

/-- The handlers: what a call does to the state, and its return value. -/
abbrev Handlers := Call → Scheduler → Scheduler × Int

/-- `NDTIMER_OK`. -/
def NDTIMER_OK : Int := 0

/-- Return values; `aborted` is a failed assertion. -/
inductive Ret where
  | ok
  | inval
  | aborted
  deriving DecidableEq, Repr

/-- `timer_init_scheduler`, with the timers zeroed. -/
def timerInitScheduler : Scheduler where
  cursors := fun _ => 0
  hashs := fun _ _ => []
  timers := fun _ => {}
  ticks := 0
  log := []

/-! ## List operations -/

namespace Scheduler

/-- The state with another record for a timer. -/
def setTimer (s : Scheduler) (id : Nat) (timer : NdfTimer) : Scheduler :=
  { s with timers := Function.update s.timers id timer }

/-- The state with another list in a slot. -/
def setSlot (s : Scheduler) (level slot : Nat) (ids : List Nat) : Scheduler :=
  { s with
    hashs := Function.update s.hashs level (Function.update (s.hashs level) slot ids) }

/-- `timer_pending`. -/
def timerPending (s : Scheduler) (id : Nat) : Bool := (s.timers id).list.isSome

/-- `list_add_tail`. -/
def listAddTail (s : Scheduler) (id level slot : Nat) : Scheduler :=
  (s.setSlot level slot (s.hashs level slot ++ [id])).setTimer id
    { s.timers id with list := some (level, slot) }

/-- `list_del`. -/
def listDel (s : Scheduler) (id : Nat) : Scheduler :=
  match (s.timers id).list with
  | some (level, slot) =>
      (s.setSlot level slot ((s.hashs level slot).erase id)).setTimer id
        { s.timers id with list := none }
  | none => s

/-- A pending timer is taken off its list. -/
def unlink (s : Scheduler) (id : Nat) : Scheduler :=
  if s.timerPending id then s.listDel id else s

/-- The remainder of a timer. -/
def setLeft (s : Scheduler) (id left : Nat) : Scheduler :=
  s.setTimer id { s.timers id with left := left }

/-- What the cursors below a level stand for. -/
def lowerTicks (s : Scheduler) (level : Nat) : Nat :=
  ((List.range level).map fun lower => s.cursors lower * getLevelTicks lower).sum

/-! ## Scheduling -/

/-- The loop of `__ndf_timer_sched`, from the level below `levels` down. -/
def adopt (s : Scheduler) (id : Nat) : Nat → Ret × Scheduler
  | 0 => (.inval, s)
  | level + 1 =>
      let timer := s.timers id
      let off := timer.delay / getLevelTicks level
      if off > 0 then
        let hash := (s.cursors level + off) % LEVEL_SIZE
        (.ok, (s.listAddTail id level hash).setLeft id
          (timer.left % getLevelTicks level + s.lowerTicks level))
      else adopt s id level

/-- `__ndf_timer_sched`. -/
def timerSched (s : Scheduler) (id : Nat) (delay : Timeval) (handler : Option Nat)
    (arg : Nat) (period : Bool) : Ret × Scheduler :=
  if handler = none then (.aborted, s)
  else
    let ticks := ndfTimevalToTicks delay
    let timer := { s.timers id with handler, priv := arg, isPeriod := period, delay := ticks }
    if ticks ≥ TIMER_MAX_TICKS then (.inval, s.setTimer id timer)
    else
      -- a delay of 0 is triggered at the next tick
      let ticks := if ticks = 0 then 1 else ticks
      (s.setTimer id { timer with delay := ticks, left := ticks }).adopt id LEVEL_DEPTH

/-- `ndf_timer_sched`. -/
def ndfTimerSched (s : Scheduler) (id : Nat) (delay : Timeval) (handler arg : Nat) :
    Ret × Scheduler :=
  if delay.tvSec ≥ TIMER_MAX_SECS then (.inval, s)
  else s.timerSched id delay (some handler) arg false

/-- `ndf_timer_sched_period`. -/
def ndfTimerSchedPeriod (s : Scheduler) (id : Nat) (intv : Timeval) (handler arg : Nat) :
    Ret × Scheduler :=
  if intv.tvSec ≥ TIMER_MAX_SECS then (.inval, s)
  else s.timerSched id intv (some handler) arg true

/-- `ndf_timer_cancel`. -/
def ndfTimerCancel (s : Scheduler) (id : Nat) : Ret × Scheduler := (.ok, s.unlink id)

/-- `ndf_timer_reset`. -/
def ndfTimerReset (s : Scheduler) (id : Nat) : Ret × Scheduler :=
  let s := s.unlink id
  let timer := s.timers id
  s.timerSched id (ndfTicksToTimeval timer.delay) timer.handler timer.priv timer.isPeriod

/-- `ndf_timer_update`. -/
def ndfTimerUpdate (s : Scheduler) (id : Nat) (delay : Timeval) : Ret × Scheduler :=
  let s := s.unlink id
  let timer := s.timers id
  s.timerSched id delay timer.handler timer.priv timer.isPeriod

/-! ## The tick -/

/-- `timer_expire`; a timer without a handler fails the assertion. -/
def timerExpire (handlers : Handlers) (s : Scheduler) (id : Nat) : Scheduler :=
  match (s.timers id).handler with
  | none => s
  | some handler =>
      let call : Call := ⟨id, handler, (s.timers id).priv⟩
      let s := s.unlink id
      let (s, err) := handlers call { s with log := s.log ++ [(s.ticks, call)] }
      let timer := s.timers id
      if err ≠ NDTIMER_OK ∨ !timer.isPeriod then s
      else
        (s.timerSched id (ndfTicksToTimeval timer.delay) timer.handler timer.priv
          timer.isPeriod).2

/-- The loop that drops a timer to a lower wheel, from the level below `levels` down. -/
def drop (s : Scheduler) (id : Nat) : Nat → Scheduler
  | 0 => s
  | lower + 1 =>
      let left := (s.timers id).left
      let off := left / getLevelTicks lower
      if off > 0 then
        let hash := (s.cursors lower + off) % LEVEL_SIZE
        (s.listAddTail id lower hash).setLeft id (left % getLevelTicks lower)
      else drop s id lower

/-- One turn of the loop over the slot under a cursor, for its first timer. -/
def serve (handlers : Handlers) (level : Nat) (s : Scheduler) (id : Nat) : Scheduler :=
  if (s.timers id).left = 0 then s.timerExpire handlers id
  else (s.listDel id).drop id (level + 1)

/-- The loop over the slot under a cursor.  The fuel bounds its turns. -/
def drain (handlers : Handlers) (level slot : Nat) : Nat → Scheduler → Scheduler
  | 0, s => s
  | fuel + 1, s =>
      match s.hashs level slot with
      | [] => s
      | id :: _ => drain handlers level slot fuel (serve handlers level s id)

/-- A cursor moves on by one slot; at the end it carries. -/
def bump (s : Scheduler) (level : Nat) : Scheduler × Bool :=
  let cursor := s.cursors level + 1
  if cursor < LEVEL_SIZE then
    ({ s with cursors := Function.update s.cursors level cursor }, false)
  else ({ s with cursors := Function.update s.cursors level 0 }, true)

/-- The loop of `rte_timer_tick_cb` over the levels from `level` on.  The length of the
slot is enough fuel as long as no turn adds to it. -/
def turnLevels (handlers : Handlers) : Nat → Nat → Scheduler → Scheduler
  | 0, _, s => s
  | levels + 1, level, s =>
      let (s, carry) := s.bump level
      let slot := s.cursors level
      let s := drain handlers level slot (s.hashs level slot).length s
      if carry then turnLevels handlers levels (level + 1) s else s

/-- `rte_timer_tick_cb`. -/
def rteTimerTickCb (handlers : Handlers) (s : Scheduler) : Scheduler :=
  turnLevels handlers LEVEL_DEPTH 0 { s with ticks := s.ticks + 1 }

end Scheduler

/-! ## Runs -/

/-- What happens to a scheduler: a tick, or a call between ticks. -/
inductive TimerOp where
  | tick
  | sched (id : Nat) (delay : Timeval) (handler arg : Nat)
  | cancel (id : Nat)
  | reset (id : Nat)
  | update (id : Nat) (delay : Timeval)
  deriving DecidableEq, Repr

/-- The timer that an operation is about. -/
def TimerOp.target : TimerOp → Option Nat
  | .tick => none
  | .sched id _ _ _ => some id
  | .cancel id => some id
  | .reset id => some id
  | .update id _ => some id

/-- The state after a call that succeeded. -/
def succeeded : Ret × Scheduler → Option Scheduler
  | (.ok, s) => some s
  | _ => none

/-- One operation; a call that fails, or that schedules a pending timer, is no step. -/
def step (handlers : Handlers) (s : Scheduler) : TimerOp → Option Scheduler
  | .tick => some (s.rteTimerTickCb handlers)
  | .sched id delay handler arg =>
      if s.timerPending id then none
      else succeeded (s.ndfTimerSched id delay handler arg)
  | .cancel id => succeeded (s.ndfTimerCancel id)
  | .reset id => succeeded (s.ndfTimerReset id)
  | .update id delay => succeeded (s.ndfTimerUpdate id delay)

/-- A run of operations that all succeed. -/
def run (handlers : Handlers) (s : Scheduler) : List TimerOp → Option Scheduler
  | [] => some s
  | op :: ops => (step handlers s op).bind fun s => run handlers s ops

end NetDefender.Timers
