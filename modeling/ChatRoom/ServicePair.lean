import ChatRoom.LogicService
import Mathlib.Logic.Function.Basic

/-! The two services of a process, and the contexts that go between them: the
`NetService`, and the `Worker` of a server or the `CRClient` of a client. A context
is an object with a reference count, and the message in it changes hands with it. -/
namespace ChatRoom
open Lib

/-- What the second service is. -/
inductive Role where
  | worker | client
  deriving DecidableEq

/-- One of the two services; `peer` is the `mServer` of the net service. -/
inductive Side where
  | net | peer
  deriving DecidableEq

def Side.other : Side → Side
  | .net => .peer
  | .peer => .net

/-- An `OperContext` in memory. -/
structure SharedContext where
  mRef : Nat
  mType : OperType
  /-- `mUnion.mMsg`: a message, or `NULL`. -/
  mMsg : Option Nat
  deriving DecidableEq

/-- Where contexts are made. -/
inductive Site where
  /-- A complete message in `ReadData`. -/
  | readData
  /-- A local command in `HandleInput`. -/
  | handleInput
  /-- `SendMessage` of the worker, of its keeper and of the client, and `SendLogon`. -/
  | sendMessage
  /-- A failed connection in `ReadData` or `WriteData`. -/
  | report
  /-- A new client of the accepter. -/
  | accept
  deriving DecidableEq

namespace Site

def type : Site → OperType
  | readData => .recv
  | handleInput => .recv
  | sendMessage => .send
  | report => .drop
  | accept => .accept

/-- The context carries a message. -/
def carries : Site → Bool
  | readData => true
  | handleInput => true
  | sendMessage => true
  | report => false
  | accept => false

/-- The service that the context is enqueued to: a worker sends to itself first. -/
def target (role : Role) : Site → Side
  | sendMessage => match role with
    | .worker => .peer
    | .client => .net
  | _ => .net

/-- Only a client has a window, and only a server listens. -/
def present (role : Role) : Site → Bool
  | handleInput => role = .client
  | accept => role = .worker
  | _ => true

end Site

structure ServicePair where
  net : LogicService Nat
  peer : LogicService Nat
  /-- The contexts in memory, by address. -/
  contexts : Nat → Option SharedContext
  /-- The contexts that the thread which made them still refers to. -/
  held : List Nat
  /-- The address of the next context. -/
  fresh : Nat

namespace ServicePair

/-- Both services wait for work. -/
def new : ServicePair where
  net := { mRunning := true, mQueue := [], phase := .test }
  peer := { mRunning := true, mQueue := [], phase := .test }
  contexts := fun _ => none
  held := []
  fresh := 0

/-- What becomes of contexts and messages. -/
inductive Fate where
  /-- `~OperContext`, which asserts that there is no message. -/
  | destroyed (id : Nat) (mMsg : Option Nat)
  /-- The message is deleted, or handed to a connection. -/
  | disposed (msg : Nat)
  deriving DecidableEq

/-- What one of the threads does next. -/
inductive Event where
  /-- A context is made, and handed over. -/
  | create (site : Site)
  /-- The thread that made it calls `DecRef`. -/
  | letGo (id : Nat)
  | stop (side : Side)
  /-- The next step of `Run`. -/
  | run (side : Side)
  deriving DecidableEq

variable (pair : ServicePair)

def service : Side → LogicService Nat
  | .net => pair.net
  | .peer => pair.peer

def put (side : Side) (service : LogicService Nat) : ServicePair :=
  match side with
  | .net => { pair with net := service }
  | .peer => { pair with peer := service }

def store (id : Nat) (ctx : Option SharedContext) : ServicePair :=
  { pair with contexts := Function.update pair.contexts id ctx }

/-- What a pointer to a context points to. -/
def look (id : Nat) : Except Fault SharedContext :=
  match pair.contexts id with
  | none => .error .danglingPointer
  | some ctx => .ok ctx

/-- `SetMessage(NULL)`. -/
def clear (id : Nat) : Except Fault ServicePair := do
  let ctx ← pair.look id
  return pair.store id (some { ctx with mMsg := none })

def incRef (id : Nat) : Except Fault ServicePair := do
  let ctx ← pair.look id
  return pair.store id (some { ctx with mRef := ctx.mRef + 1 })

/-- `DecRef`: the last reference destroys the context. -/
def decRef (id : Nat) : Except Fault (ServicePair × List Fate) := do
  let ctx ← pair.look id
  if ctx.mRef ≤ 1 then return (pair.store id none, [.destroyed id ctx.mMsg])
  else return (pair.store id (some { ctx with mRef := ctx.mRef - 1 }), [])

/-- `Enqueue`, and whether the context was taken. -/
def enqueue (side : Side) (id : Nat) : Except Fault (ServicePair × Bool) :=
  if (pair.service side).mRunning then do
    let pair ← pair.incRef id
    return (pair.put side ((pair.service side).enqueue id).1, true)
  else .ok (pair, false)

/-- The message is taken out of the context, which has to have one, and deleted
or handed to a connection. -/
def dispose (id : Nat) : Except Fault (ServicePair × List Fate) := do
  let ctx ← pair.look id
  match ctx.mMsg with
  | none => throw .assertion
  | some msg =>
    let pair ← pair.clear id
    return (pair, [.disposed msg])

/-- The net service passes on what is for its server, and a peer what is to be sent. -/
def forwards : Side → OperType → Bool
  | .net, .recv => true
  | .net, .drop => true
  | .peer, .send => true
  | _, _ => false

/-- `SendMsg` of the net service and `RecvMessage` of its server end the way of a
message. -/
def consumes : Side → OperType → Bool
  | .net, .send => true
  | .peer, .recv => true
  | _, _ => false

/-- `Process`: a context that the service does not know fails an assertion. -/
def process (side : Side) (id : Nat) : Except Fault (ServicePair × List Fate) := do
  let ctx ← pair.look id
  if forwards side ctx.mType then
    -- nobody looks at what `Enqueue` returns
    let (pair, _) ← pair.enqueue side.other id
    return (pair, [])
  else if consumes side ctx.mType then pair.dispose id
  else if ctx.mType = .accept ∧ side = .net ∨ ctx.mType = .drop ∧ side = .peer then return (pair, [])
  else throw .assertion

/-- The rest of a step of `Run`: what it does to the context it has seen. -/
def react (side : Side) : LogicService.Seen Nat → Except Fault (ServicePair × List Fate)
  | .processed id => pair.process side id
  | .discarded id => do
    let pair ← pair.clear id
    return (pair, [])
  | .released id => pair.decRef id
  | _ => .ok (pair, [])

/-- No start or stop comes as a context once the services run. -/
def type (id : Nat) : OperType :=
  match pair.contexts id with
  | none => .recv
  | some ctx => ctx.mType

/-- A context is made with one reference, and enqueued. Only `ReadData` looks
whether it was taken: if not, it resets the message. -/
def create (role : Role) (site : Site) : Except Fault (ServicePair × List Fate) := do
  let id := pair.fresh
  let ctx := { mRef := 1, mType := site.type, mMsg := if site.carries then some id else none }
  let pair := { pair.store id (some ctx) with fresh := id + 1, held := id :: pair.held }
  let (pair, pushed) ← pair.enqueue (site.target role) id
  if site = .readData ∧ pushed = false then
    let pair ← pair.clear id
    return (pair, [])
  else return (pair, [])

def step (role : Role) (pair : ServicePair) : Event → Except Fault (ServicePair × List Fate)
  | .create site => if site.present role then pair.create role site else .ok (pair, [])
  | .letGo id => if id ∈ pair.held then { pair with held := pair.held.erase id }.decRef id else .ok (pair, [])
  | .stop side => .ok (pair.put side (pair.service side).stop, [])
  | .run side => do
    let (service, seen) ← (pair.service side).runStep pair.type true
    (pair.put side service).react side seen

end ServicePair
end ChatRoom
