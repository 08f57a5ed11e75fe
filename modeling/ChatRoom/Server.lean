import ChatRoom.PagedWorker

/-! The server: `NetService` with its connections, and `Worker` with the
`RoomKeeper`. Each is a logic service, that takes contexts off its own queue one
after the other while other threads append to it. The driver calls `ReadData`
and `WriteData` at any time between. -/
namespace ChatRoom
open Lib

structure NetService where
  mConns : Std.ExtTreeMap UInt64 TcpConnection
  mMaxID : UInt64
  mQueue : List OperContext

namespace NetService

def new : NetService where
  mConns := ∅
  mMaxID := 0
  mQueue := []

variable (net : NetService)

/-- The connection behind the pointer that is registered for an id. -/
def connection (connId : UInt64) : Except Fault TcpConnection :=
  match net.mConns[connId]? with
  | none => .error .danglingPointer
  | some conn => .ok conn

/-- The connection is changed by a call, which has enqueued some contexts. -/
def changed (connId : UInt64) (conn : TcpConnection) (enqueued : List OperContext) : NetService :=
  { net with mConns := net.mConns.insert connId conn, mQueue := net.mQueue ++ enqueued }

/-- The driver calls `ReadData`. -/
def readData (connId : UInt64) (arrivals : List Arrival) : Except Fault NetService := do
  let conn ← net.connection connId
  let result ← conn.readData true arrivals
  return net.changed connId result.conn result.enqueued

/-- The driver or `SendMsg` calls `WriteData`. -/
def writeData (connId : UInt64) (answer : Sendable) : Except Fault NetService := do
  let conn ← net.connection connId
  let result ← conn.writeData true answer
  return net.changed connId result.conn result.enqueued

/-- `AcceptConnection`. -/
def acceptConnection (socket : TcpSocket) : Except Fault NetService :=
  let connID := net.mMaxID
  if net.mConns.contains connID then .error .assertion
  else .ok { net with
    mMaxID := net.mMaxID + 1
    mConns := net.mConns.insert connID (.new socket connID) }

/-- `SendMsg`: a message for a connection that is gone is deleted. -/
def sendMsg (connId : UInt64) (msg : Msg) (answer : Sendable) : Except Fault NetService :=
  match net.mConns[connId]? with
  | none => .ok net
  | some conn => (net.changed connId (conn.enqueue msg) []).writeData connId answer

def dropConnection (connId : UInt64) : NetService := { net with mConns := net.mConns.erase connId }

/-- `Process`: the new state, and what the worker is given. -/
def process (answer : Sendable) : OperContext → Except Fault (NetService × List OperContext)
  | .accept clientSocket => do
    let net ← net.acceptConnection clientSocket
    return (net, [])
  | .recv msg connId ip port => .ok (net, [.recv msg connId ip port])
  | .send connId msg => do
    let net ← net.sendMsg connId msg answer
    return (net, [])
  | .drop connId => .ok (net.dropConnection connId, [.drop connId])

variable {net}

theorem connection_ok {connId : UInt64} {conn : TcpConnection} :
    net.connection connId = .ok conn ↔ net.mConns[connId]? = some conn := by
  unfold connection
  cases net.mConns[connId]? with
  | none => simp
  | some found => simp

theorem changed_lookup (net : NetService) (connId probe : UInt64) (next : TcpConnection)
    (enqueued : List OperContext) : (net.changed connId next enqueued).mConns[probe]? =
      if connId = probe then some next else net.mConns[probe]? := by
  simp only [changed, Std.ExtTreeMap.getElem?_insert, Std.LawfulEqCmp.compare_eq_iff_eq]

theorem erased_lookup (net : NetService) (connId probe : UInt64) :
    (net.dropConnection connId).mConns[probe]? = if connId = probe then none else net.mConns[probe]? := by
  simp only [dropConnection, Std.ExtTreeMap.getElem?_erase, Std.LawfulEqCmp.compare_eq_iff_eq]

end NetService

structure Server where
  net : NetService
  keeper : RoomKeeper
  workerQueue : List OperContext

namespace Server

def new : Server where
  net := .new
  keeper := .new
  workerQueue := []

/-- What one of the threads does next. -/
inductive Event where
  /-- The accepter has a new client. -/
  | accept (ip : StdString) (port : UInt16) (fd : Nat)
  | read (connId : UInt64) (arrivals : List Arrival)
  | write (connId : UInt64) (answer : Sendable)
  /-- The net service processes a context; the answer is for a `send` that it makes. -/
  | net (answer : Sendable)
  /-- The worker processes a context. -/
  | worker

/-- The next context of the net service. -/
def netStep (server : Server) (answer : Sendable) : Except Fault Server :=
  match server.net.mQueue with
  | [] => .ok server
  | ctx :: mQueue => do
    let (net, toWorker) ← { server.net with mQueue }.process answer ctx
    return { server with net, workerQueue := server.workerQueue ++ toWorker }

/-- The next context of the worker. -/
def workerStep (host : Host) (server : Server) : Except Fault Server :=
  match server.workerQueue with
  | [] => .ok server
  | ctx :: workerQueue => do
    let result ← Worker.process host server.keeper ctx
    return {
      net := { server.net with mQueue := server.net.mQueue ++ result.net }
      keeper := result.keeper
      workerQueue := workerQueue ++ result.own }

def take (host : Host) (server : Server) : Event → Except Fault Server
  | .accept ip port fd =>
    .ok { server with net.mQueue := server.net.mQueue ++ [.accept (.accepted ip port fd)] }
  | .read connId arrivals => do
    let net ← server.net.readData connId arrivals
    return { server with net }
  | .write connId answer => do
    let net ← server.net.writeData connId answer
    return { server with net }
  | .net answer => server.netStep answer
  | .worker => server.workerStep host

/-- A step; nothing is observed of it but the state. -/
def step (host : Host) (server : Server) (event : Event) : Except Fault (Server × Unit) := do
  let next ← server.take host event
  return (next, ())

end Server
end ChatRoom
