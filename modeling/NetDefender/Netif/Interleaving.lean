import NetDefender.Netif.Lcores
import NetDefender.Netif.Receiving

/-!
# Interleaving

All lcores at work on the queues of the interfaces, in any order: packets arrive, and an lcore
takes a turn at its job.  A turn is one burst, one packet that is processed, one burst that is
put into a ring, or the periodic cleanup, so that arrivals and the turns of other lcores come
between any two of them.
-/

namespace NetDefender.Netif

open Fallible

/-- What the lcores have been configured to do. -/
structure Duties (Lcore : Type) where
  role : Lcore → LcoreRole
  queues : Lcore → List RxQueue

/-- Where an lcore stands in its job: before it, before the queues that follow, at the packets
of a burst, before a queue of `isol_rxq_tab`, and with a burst from it. -/
inductive Position (Mbuf : Type) where
  | between
  | recvPoll (rest : List RxQueue)
  | recvHold (queue : RxQueue) (mbufs : List Mbuf) (rest : List RxQueue)
  | isolPoll (index : Nat)
  | isolHold (index : Nat) (mbufs : List Mbuf)
  deriving DecidableEq, Repr

/-- The lcores at work. -/
structure Working (Mbuf Ring Lcore World : Type) extends Plane Mbuf Ring Lcore World where
  position : Lcore → Position Mbuf := fun _ => .between

inductive Happening (Mbuf Lcore : Type) where
  | arrival (queue : RxQueue) (mbuf : Mbuf)
  | turn (cid : Lcore) (now : BitVec 64)
  deriving DecidableEq, Repr

section Machine

variable {Mbuf Ring Lcore World Fault : Type} [DecidableEq Lcore]

/-- The lcore has come to a position. -/
def Working.move (working : Working Mbuf Ring Lcore World) (cid : Lcore)
    (plane : Plane Mbuf Ring Lcore World) (position : Position Mbuf) :
    Working Mbuf Ring Lcore World :=
  { toPlane := plane, position := Function.update working.position cid position }

/-- The packet waits behind the others of its queue. -/
def Nic.arrive (nic : Nic Mbuf) (queue : RxQueue) (mbuf : Mbuf) : Nic Mbuf :=
  { nic with waiting := Function.update nic.waiting queue (nic.waiting queue ++ [mbuf]) }

variable (pipeline : Pipeline Mbuf Lcore World Fault) (rings : RteRing Mbuf Ring)
  (duties : Duties Lcore)

/-- The start of a job. -/
def begin (working : Working Mbuf Ring Lcore World) (cid : Lcore) (now : BitVec 64) :
    Working Mbuf Ring Lcore World :=
  match duties.role cid with
  | .fwdWorker =>
      working.move cid (startCleanup cid now working.toPlane) (.recvPoll (duties.queues cid))
  | .isolrxWorker => working.move cid working.toPlane (.isolPoll 0)
  | _ => working

/-- A turn of an lcore. -/
def takeTurn (working : Working Mbuf Ring Lcore World) (cid : Lcore) (now : BitVec 64) :
    Except Fault (Working Mbuf Ring Lcore World) :=
  match working.position cid with
  | .between => .ok (begin duties working cid now)
  | .recvPoll [] => do
      let plane ← periodicCleanup pipeline cid now working.toPlane
      return working.move cid plane .between
  | .recvPoll (queue :: rest) =>
      let (mbufs, plane) := netifRxBurst pipeline cid queue working.toPlane
      .ok (working.move cid plane (.recvHold queue mbufs rest))
  | .recvHold _ [] rest => .ok (working.move cid working.toPlane (.recvPoll rest))
  | .recvHold queue (mbuf :: mbufs) rest => do
      let plane ← forward pipeline cid queue working.toPlane mbuf
      return working.move cid plane (.recvHold queue mbufs rest)
  | .isolPoll index =>
      match (working.isolRxqTab cid)[index]? with
      | none => .ok (working.move cid working.toPlane .between)
      | some isolRxq =>
          let (mbufs, plane) := isolRxBurst pipeline.pktLen cid isolRxq.queue working.toPlane
          if mbufs.length = 0 then .ok (working.move cid plane (.isolPoll (index + 1)))
          else .ok (working.move cid plane (.isolHold index mbufs))
  | .isolHold index mbufs =>
      match (working.isolRxqTab cid)[index]? with
      | none => .ok (working.move cid working.toPlane .between)
      | some isolRxq =>
          let (plane, again) := isolEnqueue rings cid index isolRxq mbufs working.toPlane
          .ok (working.move cid plane (.isolPoll (if again then index else index + 1)))

/-- What happens to the lcores at work. -/
def Happening.run (working : Working Mbuf Ring Lcore World) :
    Happening Mbuf Lcore → Except Fault (Working Mbuf Ring Lcore World)
  | .arrival queue mbuf => .ok { working with nic := working.nic.arrive queue mbuf }
  | .turn cid now => takeTurn pipeline rings duties working cid now

/-- The state after a run. -/
def runHappenings (working : Working Mbuf Ring Lcore World)
    (happenings : List (Happening Mbuf Lcore)) :
    Except Fault (Working Mbuf Ring Lcore World) :=
  happenings.foldlM (Happening.run pipeline rings duties) working

end Machine

end NetDefender.Netif
