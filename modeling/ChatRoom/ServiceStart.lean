import ChatRoom.LogicService
import ChatRoom.TcpConnection

/-! `LogicService::Start`, next to the thread that it makes. `Start` enqueues a
context with a closure, and waits at the closure until the service comes to the
context in `Run` and signals. The two threads take their steps in any order, and
other threads enqueue to the service meanwhile. -/
namespace ChatRoom
open Lib

/-- The threads that use the closure. -/
inductive Party where
  | starter | service
  deriving DecidableEq

/-- `SyncClosure`, with the thread that holds its mutex. That `Start` waits at its
condition variable is seen from `StartPhase`. -/
structure SyncClosure where
  mMutex : Option Party
  deriving DecidableEq

/-- What the service is given: the context of `Start`, or one from another thread. -/
inductive Queued where
  | start
  | other (ctx : OperContext)
  deriving DecidableEq

/-- `GetType`. -/
def Queued.type : Queued → OperType
  | .start => .start
  | .other (.accept _) => .accept
  | .other (.recv _ _ _ _) => .recv
  | .other (.send _ _) => .send
  | .other (.drop _) => .drop

/-- Where `Start` is. -/
inductive StartPhase where
  /-- At the `if`. -/
  | entry
  /-- In front of `mThread->Start`. -/
  | creating
  /-- In front of `new OperContext` and the closure. -/
  | making
  /-- In front of `Enqueue`. -/
  | enqueuing
  /-- In front of `Wait`. -/
  | enqueued
  /-- In `pthread_cond_wait`, waiting for the signal. -/
  | asleep
  /-- In `pthread_cond_wait`, locking the mutex again. -/
  | woken
  /-- Behind `Wait`. -/
  | clearing
  /-- In front of `DecRef` and the end of the closure. -/
  | leaving
  | returned (err : Int)
  deriving DecidableEq

/-- Where the service is in `ProcessStart`. -/
inductive SignalPhase where
  /-- Not in it, or in front of it. -/
  | idle
  /-- `Signal`, in front of each of its calls. -/
  | locking
  | broadcasting
  | unlocking
  /-- Behind `Signal`. -/
  | clearing
  deriving DecidableEq

structure ServiceStart where
  service : LogicService Queued
  /-- The thread of the service is there. -/
  created : Bool
  starter : StartPhase
  signal : SignalPhase
  /-- On the stack of `Start`. -/
  sync : Option SyncClosure
  /-- The context points to the closure. -/
  mSyncClosure : Bool
  /-- The service has signalled. -/
  signalled : Bool
  deriving DecidableEq

/-- `Thread::Start`, of what `pthread_create` returns. -/
def Thread.start (err : Int) : Except Fault Int := if err = 0 then .ok err else .error .assertion

/-- `CRClient::Init`, of what `Start` of its net service and `StartConnectRemote`
return. -/
def CRClient.init (started connected : Int) : Int := if started ≠ 0 then started else connected

namespace ServiceStart

def new : ServiceStart where
  service := ⟨false, [], .init⟩
  created := false
  starter := .entry
  signal := .idle
  sync := none
  mSyncClosure := false
  signalled := false

/-- What happens next. -/
inductive Step where
  /-- `Start` goes on; its `pthread_create` returns this. -/
  | start (err : Int)
  /-- `pthread_cond_wait` returns without a signal. -/
  | wake
  /-- The service goes on; a virtual `Process` that it is in returns this. -/
  | service (processed : Bool)
  /-- Another thread calls `Enqueue`. -/
  | enqueue (ctx : OperContext)
  deriving DecidableEq

variable (state : ServiceStart)

def startStep (err : Int) : Except Fault ServiceStart :=
  match state.starter with
  | .entry =>
    if state.service.mRunning then .ok { state with starter := .returned 0 }
    else .ok { state with service.mRunning := true, starter := .creating }
  | .creating => do
    let err ← Thread.start err
    if err ≠ 0 then return { state with starter := .returned err }
    else return { state with created := true, starter := .making }
  -- the closure is made with its mutex locked
  | .making => .ok { state with sync := some ⟨some .starter⟩, mSyncClosure := true, starter := .enqueuing }
  -- what `Enqueue` returns is not looked at
  | .enqueuing => .ok { state with service := (state.service.enqueue .start).1, starter := .enqueued }
  | .enqueued => .ok { state with sync := some ⟨none⟩, starter := .asleep }
  | .asleep => .ok state
  | .woken =>
    if state.sync = some ⟨none⟩ then .ok { state with sync := some ⟨some .starter⟩, starter := .clearing }
    else .ok state
  | .clearing => .ok { state with mSyncClosure := false, starter := .leaving }
  | .leaving => .ok { state with sync := none, starter := .returned 0 }
  | .returned _ => .ok state

/-- `ProcessStart`, and the end of `Process`. -/
def signalStep : Except Fault ServiceStart :=
  match state.signal with
  | .idle =>
    if state.mSyncClosure then .ok { state with service.mRunning := true, signal := .locking }
    else .error .assertion
  | .locking =>
    match state.sync with
    | none => .error .danglingPointer
    | some ⟨none⟩ => .ok { state with sync := some ⟨some .service⟩, signal := .broadcasting }
    | some ⟨some _⟩ => .ok state
  | .broadcasting =>
    if state.sync = none then .error .danglingPointer
    else .ok { state with
      starter := if state.starter = .asleep then .woken else state.starter
      signal := .unlocking
      signalled := true }
  | .unlocking =>
    if state.sync = none then .error .danglingPointer
    else .ok { state with sync := some ⟨none⟩, signal := .clearing }
  | .clearing => do
    let (service, _) ← state.service.runStep Queued.type true
    return { state with service, mSyncClosure := false, signal := .idle }

/-- The thread in `Run`, whose `Init` returns `init`. -/
def serviceStep (init : Int) (processed : Bool) : Except Fault ServiceStart :=
  if !state.created then .ok state
  else
    match state.service.phase with
    | .init => .ok { state with service := state.service.initStep init }
    | .processing .start _ => state.signalStep
    | _ => do
      let (service, _) ← state.service.runStep Queued.type processed
      return { state with service }

def take (init : Int) : Step → Except Fault ServiceStart
  | .start err => state.startStep err
  | .wake => .ok { state with starter := if state.starter = .asleep then .woken else state.starter }
  | .service processed => state.serviceStep init processed
  | .enqueue ctx => .ok { state with service := (state.service.enqueue (.other ctx)).1 }

def step (init : Int) (state : ServiceStart) (event : Step) : Except Fault (ServiceStart × Unit) := do
  let next ← state.take init event
  return (next, ())

end ServiceStart
end ChatRoom
