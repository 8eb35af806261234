import Iec61850.Control.ControlObject

/-! A control object among its clients, its worker threads and the event thread. The requests are
handled one after the other, the threads go on in between. -/

namespace Iec61850.Control

open Machine

/-- `starting` tells that the event thread has taken a time activated operation and is about to
start it. `closed` are the connections that are gone. -/
structure Server where
  object : ControlObject
  starting : Bool
  workers : List Worker
  closed : List Connection

inductive Event
  | readSBO (connection : Connection) (currentTime : UInt64) (result : CheckResult)
  | writeSBOw (w : ControlWrite) (currentTime : UInt64) (result : CheckResult)
  | writeOper (w : ControlWrite) (currentTime : UInt64) (result : CheckResult) (invokeId : UInt32)
  | writeCancel (w : ControlWrite)
  | processControlActions (currentTime : UInt64)
  | startActivated (result : CheckResult)
  | work (index : Nat) (ok : Bool) (currentTime : UInt64)
  | connectionClosed (connection : Connection)
  | unselect (connection : Connection)
  | configure (sboClass : Option Int32) (sboTimeout : Option UInt32)

namespace Server

def create (object : ControlObject) : Server := ⟨object, false, [], []⟩

def handled (s : Server) (r : Handled) : Server × List Observation :=
  ({ s with
    object := r.object
    workers := if r.startsThread then s.workers ++ [.start] else s.workers }, r.observations)

/-- `Control_processControlActions` up to the call of the check handler. -/
def processControlActions (s : Server) (currentTime : UInt64) : Server :=
  if !s.starting && s.object.timeActivatedOperate && s.object.operateTime ≤ currentTime then
    { s with object := { s.object with timeActivatedOperate := false }, starting := true }
  else s

/-- The rest of `Control_processControlActions`. -/
def startActivated (s : Server) (result : CheckResult) : Exec (Server × List Observation) :=
  if s.starting then
    let observations := asked result s.object.clientConnection
    if checkOk result then
      .ok ({ s with starting := false, workers := s.workers ++ [.start] }, observations)
    else do
      let sent ← s.object.sendLastApplError 10
      return ({ s with starting := false, object := s.object.abortControlOperation },
        observations ++ sent ++ [.finished s.object.isSboClassOperateOnce])
  else .ok (s, [])

def work (s : Server) (index : Nat) (ok : Bool) (currentTime : UInt64) :
    Exec (Server × List Observation) :=
  match s.workers[index]? with
  | none => .ok (s, [])
  | some worker => do
    let (object, next, observations) ← worker.step s.object s.closed ok currentTime
    return ({ s with
      object := object
      workers := s.workers.take index ++ next.toList ++ s.workers.drop (index + 1) },
      observations)

def step (s : Server) : Event → Exec (Server × List Observation)
  | .readSBO connection currentTime result =>
    let (object, _, observations) := s.object.readSBO connection currentTime result
    .ok ({ s with object := object }, observations)
  | .writeSBOw w currentTime result => do
    return s.handled (← s.object.writeSBOw w currentTime result)
  | .writeOper w currentTime result invokeId => do
    return s.handled (← s.object.writeOper w currentTime result invokeId)
  | .writeCancel w => .ok (s.handled (s.object.writeCancel w))
  | .processControlActions currentTime => .ok (s.processControlActions currentTime, [])
  | .startActivated result => s.startActivated result
  | .work index ok currentTime => s.work index ok currentTime
  | .connectionClosed connection =>
    .ok ({ s with closed := connection :: s.closed }, [.connectionClosed connection])
  | .unselect connection => .ok ({ s with object := s.object.unselect connection }, [])
  | .configure sboClass sboTimeout =>
    .ok ({ s with object := { s.object with sboClass := sboClass, sboTimeout := sboTimeout } }, [])

/-- Requests come from connections that are there. A connection is cleared up behind its end, when
its tasks are finished. -/
def Permits (s : Server) : Event → Prop
  | .readSBO connection _ _ => connection ∉ s.closed
  | .writeSBOw w _ _ => w.connection ∉ s.closed
  | .writeOper w _ _ _ => w.connection ∉ s.closed
  | .writeCancel w => w.connection ∉ s.closed
  | .unselect connection =>
    connection ∈ s.closed ∧ ∀ worker ∈ s.workers, worker.task ≠ some connection
  | _ => True

/-- The operations that wait for their time, are about to be started, or have a thread. -/
def operations (s : Server) : Nat :=
  (if s.object.timeActivatedOperate then 1 else 0) + (if s.starting then 1 else 0) +
    (s.workers.filter Worker.isActive).length

end Server

end Iec61850.Control
