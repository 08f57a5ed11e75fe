import ChatRoom.Server
import ChatRoom.Driver

/-! The net service with its driver and its accepters, over the descriptors that
the process has open. The driver's thread calls `ReadData` and `WriteData`, the
service's thread takes contexts off the queue, and `StartConnectRemote` runs on the
thread of its caller. A connection is registered in two calls that no lock
joins, so other threads may come between. -/
namespace ChatRoom
open Lib

/-- `Accepter`, as `StartListen` leaves it. -/
structure Accepter where
  mListenSocket : TcpSocket
  mIP : StdString
  mPort : UInt16

/-- Who makes a connection. -/
inductive Starter where
  | acceptConnection | startConnectRemote
  deriving DecidableEq

/-- A call that has put its connection into `mConns` and is about to register it:
which of the two events comes next. -/
structure Starting where
  starter : Starter
  /-- `GetFd`, before `RegistRWEvent` is called. -/
  fd : Int
  reads : Bool
  deriving DecidableEq

structure NetIo where
  net : NetService
  driver : Driver
  accepters : Std.ExtTreeMap Nat Accepter
  /-- How many accepters have been made. -/
  accepterCount : Nat
  starting : Std.ExtTreeMap UInt64 Starting
  openFds : Std.ExtTreeSet Int

namespace NetIo

def new : NetIo where
  net := .new
  driver := .new
  accepters := ∅
  accepterCount := 0
  starting := ∅
  openFds := ∅

/-- What `accept` gives the accepter, if it succeeds: a client, and whether
`TcpSocket::Create` finds its descriptor to be a socket. -/
structure Client where
  ip : StdString
  port : UInt16
  fd : Nat
  isSocket : Bool
  deriving DecidableEq

/-- How `Create` and then `Connect` or `Listen` end. -/
inductive Opened where
  | noSocket
  | failed (fd : Nat)
  | done (fd : Nat)
  deriving DecidableEq

/-- What one of the threads does next. -/
inductive Step where
  /-- The driver calls `ReadData` of an accepter. -/
  | accept (accepter : Nat) (client : Option Client)
  | read (connId : UInt64) (arrivals : List Arrival)
  | write (connId : UInt64) (answer : Sendable)
  /-- Another service enqueues a message. -/
  | send (connId : UInt64) (msg : Msg)
  /-- The net service takes its next context, up to `RegistRWEvent` for a new client. -/
  | net (answer : Sendable)
  /-- `StartConnectRemote`, up to `RegistRWEvent`. -/
  | connect (ip : StdString) (port : UInt16) (opened : Opened)
  /-- The next event of a connection that is being made. -/
  | regist (connId : UInt64)
  | startListen (ip : StdString) (port : UInt16) (opened : Opened)
  | stopListen (accepter : Nat)
  deriving DecidableEq

variable (io : NetIo)

/-- A call of the model for one connection or the net service. -/
def faulting {α : Type} : Except Fault α → Except Stop α
  | .error fault => .error (.fault fault)
  | .ok result => .ok result

/-- `Accepter::ReadData`: the client's socket is enqueued. A descriptor that is
no socket stays open. -/
def accept (number : Nat) (client : Option Client) : Except Stop NetIo :=
  match io.accepters[number]? with
  | none => .error (.fault .danglingPointer)
  | some _ =>
    match client with
    | none => .ok io
    | some client =>
      let io := { io with openFds := io.openFds.insert client.fd }
      if client.isSocket then
        .ok { io with net.mQueue := io.net.mQueue ++ [.accept (.accepted client.ip client.port client.fd)] }
      else .ok io

/-- A call has changed a connection. If it came to `Close`, the events went
first and then the descriptor. -/
def called (connId : UInt64) (conn next : TcpConnection) (enqueued : List OperContext) : Except Stop NetIo := do
  let io := { io with net := io.net.changed connId next enqueued }
  if !conn.mClosed && next.mClosed then
    let driver ← RWConnection.unRegistRWEvent io.driver conn.mSocket.mSocket
    return { io with driver, openFds := io.openFds.erase conn.mSocket.mSocket }
  else return io

/-- `ReadData`, called by the driver. -/
def read (connId : UInt64) (arrivals : List Arrival) : Except Stop NetIo := do
  let conn ← faulting (io.net.connection connId)
  let result ← faulting (conn.readData true arrivals)
  io.called connId conn result.conn result.enqueued

/-- `WriteData`, called by the driver. -/
def write (connId : UInt64) (answer : Sendable) : Except Stop NetIo := do
  let conn ← faulting (io.net.connection connId)
  let result ← faulting (conn.writeData true answer)
  io.called connId conn result.conn result.enqueued

/-- `SendMsg`. -/
def sendMsg (connId : UInt64) (msg : Msg) (answer : Sendable) : Except Stop NetIo :=
  match io.net.mConns[connId]? with
  | none => .ok io
  | some conn => do
    let result ← faulting ((conn.enqueue msg).writeData true answer)
    io.called connId conn result.conn result.enqueued

/-- The body that `AcceptConnection` and `StartConnectRemote` share, up to
`RegistRWEvent`. -/
def start (starter : Starter) (socket : TcpSocket) : Except Stop NetIo := do
  let connID := io.net.mMaxID
  let net ← faulting (io.net.acceptConnection socket)
  return { io with net, starting := io.starting.insert connID ⟨starter, socket.mSocket, false⟩ }

/-- `DropConnection`: the socket of the connection is deleted, and closed if it
is still open. -/
def dropConnection (connId : UInt64) : NetIo :=
  let net := io.net.dropConnection connId
  match io.net.mConns[connId]? with
  | none => { io with net }
  | some conn =>
    if conn.mSocket.mSocket ≠ -1 then { io with net, openFds := io.openFds.erase conn.mSocket.mSocket }
    else { io with net }

/-- `Process`. While the service's thread registers a client it takes nothing. -/
def process (answer : Sendable) : Except Stop NetIo :=
  if io.starting.any fun _ call => call.starter == .acceptConnection then .error (.fault .blocked)
  else
    match io.net.mQueue with
    | [] => .ok io
    | ctx :: mQueue =>
      let io := { io with net.mQueue := mQueue }
      match ctx with
      | .accept clientSocket => io.start .acceptConnection clientSocket
      | .recv _ _ _ _ => .ok io
      | .send connId msg => io.sendMsg connId msg answer
      | .drop connId => .ok (io.dropConnection connId)

/-- A socket that does not connect is deleted again. -/
def connect (ip : StdString) (port : UInt16) : Opened → Except Stop NetIo
  | .noSocket => .ok io
  | .failed _ => .ok io
  | .done fd => { io with openFds := io.openFds.insert fd }.start .startConnectRemote (.accepted ip port fd)

/-- The next call of `RegistRWEvent`. -/
def regist (connId : UInt64) : Except Stop NetIo :=
  match io.starting[connId]?, io.net.mConns[connId]? with
  | some call, some _ =>
    if call.reads then do
      let driver ← RWConnection.registWriteEvent (.connection connId) io.driver call.fd
      return { io with driver, starting := io.starting.erase connId }
    else do
      let driver ← RWConnection.registReadEvent (.connection connId) io.driver call.fd
      return { io with driver, starting := io.starting.insert connId { call with reads := true } }
  | none, _ => .error (.fault .blocked)
  | some _, none => .error (.fault .danglingPointer)

/-- A new accepter, and `StartListen`. A socket that cannot listen stays open. -/
def startListen (ip : StdString) (port : UInt16) : Opened → Except Stop NetIo
  | .noSocket => .ok { io with accepterCount := io.accepterCount + 1 }
  | .failed fd => .ok { io with accepterCount := io.accepterCount + 1, openFds := io.openFds.insert fd }
  | .done fd => do
    let number := io.accepterCount
    let driver ← RWConnection.registReadEvent (.accepter number) io.driver fd
    return { io with
      driver
      accepters := io.accepters.insert number ⟨.accepted ip port fd, ip, port⟩
      accepterCount := number + 1
      openFds := io.openFds.insert fd }

/-- `StopListen`, and the end of the accepter. -/
def stopListen (number : Nat) : Except Stop NetIo :=
  match io.accepters[number]? with
  | none => .error (.fault .danglingPointer)
  | some accepter => do
    let driver ← RWConnection.unRegistReadEvent io.driver accepter.mListenSocket.mSocket
    return { io with
      driver
      accepters := io.accepters.erase number
      openFds := io.openFds.erase accepter.mListenSocket.mSocket }

def take : Step → Except Stop NetIo
  | .accept accepter client => io.accept accepter client
  | .read connId arrivals => io.read connId arrivals
  | .write connId answer => io.write connId answer
  | .send connId msg => .ok { io with net.mQueue := io.net.mQueue ++ [.send connId msg] }
  | .net answer => io.process answer
  | .connect ip port opened => io.connect ip port opened
  | .regist connId => io.regist connId
  | .startListen ip port opened => io.startListen ip port opened
  | .stopListen accepter => io.stopListen accepter

/-- A step; nothing is observed of it but the state. -/
def step (event : Step) : Except Stop (NetIo × Unit) := do
  let next ← io.take event
  return (next, ())

end NetIo
end ChatRoom
