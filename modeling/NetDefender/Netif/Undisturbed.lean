import NetDefender.Netif.Reception

/-!
# Undisturbed lcores

The turns of an lcore, one after the other and without anything in between, are what the job
of the lcore does as a whole.  For isolated reception this includes that the jumps to `again`
come to an end.
-/

namespace NetDefender.Netif

open Fallible

section Undisturbed

variable {Mbuf Ring Lcore World Fault : Type} [DecidableEq Lcore]
  (pipeline : Pipeline Mbuf Lcore World Fault) (rings : RteRing Mbuf Ring)
  (duties : Duties Lcore)

/-- Some turns of an lcore, all at one time, lead to a result. -/
def Leads (cid : Lcore) (now : BitVec 64) (working : Working Mbuf Ring Lcore World)
    (result : Except Fault (Working Mbuf Ring Lcore World)) : Prop :=
  ∃ count, runHappenings pipeline rings duties working
    (List.replicate count (.turn cid now)) = result

variable {pipeline rings duties} {cid : Lcore} {now : BitVec 64}
  {working : Working Mbuf Ring Lcore World} {plane : Plane Mbuf Ring Lcore World}

theorem Leads.refl : Leads pipeline rings duties cid now working (.ok working) := ⟨0, rfl⟩

theorem Leads.step : Leads pipeline rings duties cid now working
    (takeTurn pipeline rings duties working cid now) :=
  ⟨1, by
    rw [runHappenings, List.replicate_one, List.foldlM_cons]
    exact bind_pure _⟩

/-- Turns after turns, of which the later ones may depend on what the earlier ones lead to. -/
theorem Leads.bind {first : Except Fault (Working Mbuf Ring Lcore World)}
    {next : Working Mbuf Ring Lcore World → Except Fault (Working Mbuf Ring Lcore World)}
    (leads : Leads pipeline rings duties cid now working first)
    (later : ∀ middle, first = .ok middle →
      Leads pipeline rings duties cid now middle (next middle)) :
    Leads pipeline rings duties cid now working (first >>= next) := by
  obtain ⟨count, ran⟩ := leads
  cases result : first with
  | error fault => exact ⟨count, ran.trans result⟩
  | ok middle =>
      obtain ⟨more, rest⟩ := later middle result
      refine ⟨count + more, ?_⟩
      rw [runHappenings] at ran rest ⊢
      rw [List.replicate_add, List.foldlM_append, ran, result]
      exact rest

/-- Turns behind turns. -/
theorem Leads.trans {middle : Working Mbuf Ring Lcore World}
    {result : Except Fault (Working Mbuf Ring Lcore World)}
    (first : Leads pipeline rings duties cid now working (.ok middle))
    (later : Leads pipeline rings duties cid now middle result) :
    Leads pipeline rings duties cid now working result := by
  have both : Leads pipeline rings duties cid now working
      (Except.ok middle >>= fun _ => result) := by
    refine first.bind fun next same => ?_
    cases same
    exact later
  exact both

/-- A turn, and turns behind it. -/
theorem Leads.cons {next : Working Mbuf Ring Lcore World}
    {result : Except Fault (Working Mbuf Ring Lcore World)}
    (first : takeTurn pipeline rings duties working cid now = .ok next)
    (later : Leads pipeline rings duties cid now next result) :
    Leads pipeline rings duties cid now working result :=
  (first ▸ Leads.step).trans later

@[simp]
theorem move_move (plane' : Plane Mbuf Ring Lcore World) (position position' : Position Mbuf) :
    (working.move cid plane position).move cid plane' position' =
      working.move cid plane' position' := by
  simp [Working.move]

/-- Turns that lead to planes, and turns behind them. -/
theorem Leads.planes {first : Except Fault (Plane Mbuf Ring Lcore World)}
    {next : Plane Mbuf Ring Lcore World → Except Fault (Plane Mbuf Ring Lcore World)}
    {position position' : Position Mbuf} {start : Working Mbuf Ring Lcore World}
    (leads : Leads pipeline rings duties cid now start
      (first.map fun plane => working.move cid plane position))
    (later : ∀ plane, Leads pipeline rings duties cid now (working.move cid plane position)
      ((next plane).map fun plane => working.move cid plane position')) :
    Leads pipeline rings duties cid now start
      ((first >>= next).map fun plane => working.move cid plane position') := by
  have both : Leads pipeline rings duties cid now start
      ((first.map fun plane => working.move cid plane position) >>= fun middle =>
        (next middle.toPlane).map fun plane => working.move cid plane position') := by
    refine leads.bind fun middle same => ?_
    obtain ⟨plane, -, rfl⟩ := map_ok same
    exact later plane
  cases first with
  | error fault => exact both
  | ok plane => exact both

/-! ## Forwarding -/

/-- The packets of a burst. -/
theorem leads_hold (queue : RxQueue) (mbufs : List Mbuf) (rest : List RxQueue) :
    Leads pipeline rings duties cid now (working.move cid plane (.recvHold queue mbufs rest))
      ((mbufs.foldlM (forward pipeline cid queue) plane).map fun plane =>
        working.move cid plane (.recvPoll rest)) := by
  induction mbufs generalizing plane with
  | nil =>
      refine .cons ?_ .refl
      rw [takeTurn, move_position_self]
      exact congrArg _ (move_move ..)
  | cons mbuf mbufs ih =>
      rw [List.foldlM_cons]
      refine Leads.planes ?_ fun plane => ih
      have turn : Leads pipeline rings duties cid now
        (working.move cid plane (.recvHold queue (mbuf :: mbufs) rest)) _ := .step
      rw [takeTurn, move_position_self] at turn
      cases done : forward pipeline cid queue plane mbuf with
      | error fault =>
          simp only [move_toPlane, done] at turn
          exact turn
      | ok next =>
          simp only [move_toPlane, done, ok_bind, move_move] at turn
          exact turn

/-- The queues that an lcore forwards. -/
theorem leads_queues (queues : List RxQueue) :
    Leads pipeline rings duties cid now (working.move cid plane (.recvPoll queues))
      ((queues.foldlM (recvQueue pipeline cid) plane).map fun plane =>
        working.move cid plane (.recvPoll [])) := by
  induction queues generalizing plane with
  | nil => exact .refl
  | cons queue rest ih =>
      rw [List.foldlM_cons]
      refine Leads.planes (.cons ?_ (leads_hold queue _ rest)) fun plane => ih
      rw [takeTurn, move_position_self]
      exact congrArg _ (move_move ..)

/-- The end of a round. -/
theorem leads_cleanup :
    Leads pipeline rings duties cid now (working.move cid plane (.recvPoll []))
      ((periodicCleanup pipeline cid now plane).map fun plane =>
        working.move cid plane .between) := by
  have turn : Leads pipeline rings duties cid now
    (working.move cid plane (.recvPoll [])) _ := .step
  rw [takeTurn, move_position_self] at turn
  cases done : periodicCleanup pipeline cid now plane with
  | error fault =>
      simp only [move_toPlane, done] at turn
      exact turn
  | ok next =>
      simp only [move_toPlane, done, ok_bind, move_move] at turn
      exact turn

theorem move_between (here : working.position cid = .between) :
    working.move cid plane .between = { working with toPlane := plane } := by
  rw [Working.move, ← here, Function.update_eq_self]

/-- The turns of a forwarding lcore behind its first one that nothing disturbs are
`lcore_job_recv_fwd`. -/
theorem leads_lcoreJobRecvFwd (start : BitVec 64) (forwards : duties.role cid = .fwdWorker)
    (here : working.position cid = .between) :
    Leads pipeline rings duties cid now (begin duties working cid start)
      ((lcoreJobRecvFwd pipeline cid (duties.queues cid) start now working.toPlane).map
        fun plane => { working with toPlane := plane }) := by
  have round : Leads pipeline rings duties cid now
      (working.move cid (startCleanup cid start working.toPlane) (.recvPoll (duties.queues cid)))
      ((lcoreJobRecvFwd pipeline cid (duties.queues cid) start now working.toPlane).map
        fun plane => working.move cid plane .between) :=
    Leads.planes (leads_queues (duties.queues cid)) fun plane => leads_cleanup
  simp only [move_between here] at round
  rwa [begin, forwards]

/-! ## Isolated reception -/

theorem length_isolEnqueue (index : Nat) (isolRxq : IsolRxq Ring) (mbufs : List Mbuf) :
    ((isolEnqueue rings cid index isolRxq mbufs plane).1.isolRxqTab cid).length =
      (plane.isolRxqTab cid).length := by
  rw [isolEnqueue_isolRxqTab, Function.update_self, List.length_set]

section Turns

variable {index : Nat} {isolRxq : IsolRxq Ring}
  (found : (plane.isolRxqTab cid)[index]? = some isolRxq)

include found

theorem takeTurn_isolPoll :
    takeTurn pipeline rings duties (working.move cid plane (.isolPoll index)) cid now =
      .ok (working.move cid (isolRxBurst pipeline.pktLen cid isolRxq.queue plane).2
        (if (isolRxBurst pipeline.pktLen cid isolRxq.queue plane).1.length = 0 then
          .isolPoll (index + 1)
        else .isolHold index (isolRxBurst pipeline.pktLen cid isolRxq.queue plane).1)) := by
  have table : ((working.move cid plane (.isolPoll index)).isolRxqTab cid)[index]? =
      some isolRxq := found
  rw [takeTurn, move_position_self]
  dsimp only
  rw [table]
  dsimp only
  rw [move_toPlane]
  split
  next empty => rw [move_move]
  next some => rw [move_move]

theorem takeTurn_isolHold (mbufs : List Mbuf) :
    takeTurn pipeline rings duties (working.move cid plane (.isolHold index mbufs)) cid now =
      .ok (working.move cid (isolEnqueue rings cid index isolRxq mbufs plane).1
        (.isolPoll (if (isolEnqueue rings cid index isolRxq mbufs plane).2 then index
          else index + 1))) := by
  have table : ((working.move cid plane (.isolHold index mbufs)).isolRxqTab cid)[index]? =
      some isolRxq := found
  rw [takeTurn, move_position_self]
  dsimp only
  rw [table]
  exact congrArg _ (move_move ..)

end Turns

/-- A queue that is received in isolation, with the jumps to `again`. -/
theorem leads_recvIsolQueue (index : Nat) (inside : index < (plane.isolRxqTab cid).length) :
    Leads pipeline rings duties cid now (working.move cid plane (.isolPoll index))
      (.ok (working.move cid (recvIsolQueue pipeline.pktLen rings cid index plane)
        (.isolPoll (index + 1)))) := by
  fun_induction recvIsolQueue pipeline.pktLen rings cid index plane with
  | case1 plane missing => exact absurd inside (not_lt.mpr (List.getElem?_eq_none_iff.mp missing))
  | case2 plane isolRxq found burst empty =>
      have turn : takeTurn pipeline rings duties (working.move cid plane (.isolPoll index)) cid
          now = _ := takeTurn_isolPoll found
      rw [if_pos empty] at turn
      exact .cons turn .refl
  | case3 plane isolRxq found burst some enqueued again ih =>
      have turn : takeTurn pipeline rings duties (working.move cid plane (.isolPoll index)) cid
          now = _ := takeTurn_isolPoll found
      rw [if_neg some] at turn
      have kept := isolRxBurst_isolRxqTab pipeline.pktLen cid isolRxq.queue plane
      have second : takeTurn pipeline rings duties (working.move cid burst.2
          (.isolHold index burst.1)) cid now = _ := takeTurn_isolHold (kept ▸ found) burst.1
      rw [if_pos again] at second
      refine .cons turn (.cons second (ih ?_))
      rwa [length_isolEnqueue, kept]
  | case4 plane isolRxq found burst some enqueued last =>
      have turn : takeTurn pipeline rings duties (working.move cid plane (.isolPoll index)) cid
          now = _ := takeTurn_isolPoll found
      rw [if_neg some] at turn
      have kept := isolRxBurst_isolRxqTab pipeline.pktLen cid isolRxq.queue plane
      have second : takeTurn pipeline rings duties (working.move cid burst.2
          (.isolHold index burst.1)) cid now = _ := takeTurn_isolHold (kept ▸ found) burst.1
      rw [if_neg last] at second
      exact .cons turn (.cons second .refl)

/-- Isolated reception leaves the places of the table. -/
theorem length_recvIsolQueue (index : Nat) :
    ((recvIsolQueue pipeline.pktLen rings cid index plane).isolRxqTab cid).length =
      (plane.isolRxqTab cid).length := by
  fun_induction recvIsolQueue pipeline.pktLen rings cid index plane with
  | case1 => rfl
  | case2 plane isolRxq found burst empty => rw [isolRxBurst_isolRxqTab]
  | case3 plane isolRxq found burst some enqueued again ih =>
      rw [ih, length_isolEnqueue, isolRxBurst_isolRxqTab]
  | case4 plane isolRxq found burst some enqueued last =>
      rw [length_isolEnqueue, isolRxBurst_isolRxqTab]

/-- The queues from one on. -/
theorem leads_isolQueues (index count : Nat)
    (all : index + count = (plane.isolRxqTab cid).length) :
    Leads pipeline rings duties cid now (working.move cid plane (.isolPoll index))
      (.ok (working.move cid ((List.range' index count).foldl
        (fun plane index => recvIsolQueue pipeline.pktLen rings cid index plane) plane)
        .between)) := by
  induction count generalizing index plane with
  | zero =>
      have missing : ((working.move cid plane (.isolPoll index)).isolRxqTab cid)[index]? = none :=
        List.getElem?_eq_none_iff.mpr all.ge
      refine .cons ?_ .refl
      rw [takeTurn, move_position_self]
      dsimp only
      rw [missing]
      exact congrArg _ (move_move ..)
  | succ count ih =>
      rw [List.range'_succ, List.foldl_cons]
      refine (leads_recvIsolQueue index (by omega)).trans (ih (index + 1) ?_)
      rw [length_recvIsolQueue]
      omega

/-- The turns of an lcore with isolated reception that nothing disturbs are
`recv_on_isol_lcore`; they come to an end whatever the rings hold. -/
theorem leads_recvOnIsolLcore (start : BitVec 64) (isolates : duties.role cid = .isolrxWorker)
    (here : working.position cid = .between) :
    Leads pipeline rings duties cid now (begin duties working cid start)
      (.ok { working with
        toPlane := recvOnIsolLcore pipeline.pktLen rings cid working.toPlane }) := by
  have round : Leads pipeline rings duties cid now
      (working.move cid working.toPlane (.isolPoll 0)) _ :=
    leads_isolQueues 0 (working.isolRxqTab cid).length (Nat.zero_add _)
  rw [move_between here, ← List.range_eq_range'] at round
  rwa [begin, isolates]

/-- The job of an lcore by its role; the clock is read at its start and at its end. -/
def lcoreJob (pipeline : Pipeline Mbuf Lcore World Fault) (rings : RteRing Mbuf Ring)
    (duties : Duties Lcore) (cid : Lcore) (start now : BitVec 64)
    (plane : Plane Mbuf Ring Lcore World) : Except Fault (Plane Mbuf Ring Lcore World) :=
  match duties.role cid with
  | .fwdWorker => lcoreJobRecvFwd pipeline cid (duties.queues cid) start now plane
  | .isolrxWorker => .ok (recvOnIsolLcore pipeline.pktLen rings cid plane)
  | _ => .ok plane

/-- From every state in which an lcore is about to start its job, its turns alone come to the
end of the job, and lead to what the job of the source does as a whole, its faults included. -/
theorem turns_are_job (start : BitVec 64) (here : working.position cid = .between) :
    ∃ count, runHappenings pipeline rings duties working
        (.turn cid start :: List.replicate count (.turn cid now)) =
      (lcoreJob pipeline rings duties cid start now working.toPlane).map
        fun plane => { working with toPlane := plane } := by
  have first : takeTurn pipeline rings duties working cid start =
      .ok (begin duties working cid start) := by
    rw [takeTurn, here]
  have rest : Leads pipeline rings duties cid now (begin duties working cid start)
      ((lcoreJob pipeline rings duties cid start now working.toPlane).map
        fun plane => { working with toPlane := plane }) := by
    rw [lcoreJob]
    split
    next forwards => exact leads_lcoreJobRecvFwd start forwards here
    next isolates => exact leads_recvOnIsolLcore start isolates here
    next other =>
      rw [begin]
      split
      next forwards => exact absurd forwards ‹_›
      next isolates => exact absurd isolates ‹_›
      next => exact Leads.refl
  obtain ⟨count, ran⟩ := rest
  refine ⟨count, ?_⟩
  rw [runHappenings, List.foldlM_cons, Happening.run, first]
  exact ran

end Undisturbed

theorem turns_are_job_twoLcores : ∃ count,
    runHappenings (counting Bool) (listRing Nat) twoDuties twoLcores
        (.turn true 0 :: List.replicate count (.turn true 0)) =
      (lcoreJob (counting Bool) (listRing Nat) twoDuties true 0 0 twoLcores.toPlane).map
        fun plane => { twoLcores with toPlane := plane } :=
  turns_are_job 0 rfl

end NetDefender.Netif
