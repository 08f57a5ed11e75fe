import ChatRoom.TcpSocket
import ChatRoom.Lib.Runs

/-! `TcpConnection`: messages cut out of the stream that a peer sends, and the
queue of messages to send to it. Each call holds the connection's lock from
beginning to end, so calls are steps. What a call hands to the service above it
is part of its result. -/
namespace ChatRoom
open Lib

/-- What `LogicService` queues hold. -/
inductive OperContext where
  | accept (clientSocket : TcpSocket)
  | recv (msg : Msg) (connId : UInt64) (ip : StdString) (port : UInt16)
  | send (connId : UInt64) (msg : Msg)
  | drop (connId : UInt64)
  deriving DecidableEq

structure TcpConnection where
  mToRecv : Int
  mRecved : Int
  mCurrentRecvMsg : Option Msg
  mToSend : Int
  mSent : Int
  /-- The message at the front of the queue, while it is being sent. -/
  mCurrentSendMsg : Option Msg
  mToSendMsg : List Msg
  mSocket : TcpSocket
  mConnID : UInt64
  mClosed : Bool
  deriving DecidableEq

/-- What `ReadData` returns: the error, the kernel's answers that are left, and
what was enqueued to the logic service. -/
structure ReadResult where
  err : Int
  conn : TcpConnection
  rest : List Arrival
  enqueued : List OperContext
  deriving DecidableEq

/-- What `WriteData` returns: the error, the bytes that the kernel took, and
what was enqueued to the logic service. -/
structure WriteResult where
  err : Int
  conn : TcpConnection
  taken : List UInt8
  enqueued : List OperContext
  deriving DecidableEq

namespace TcpConnection

/-- `TcpConnection::TcpConnection`. -/
def new (sock : TcpSocket) (connID : UInt64) : TcpConnection where
  mToRecv := 0
  mRecved := 0
  mCurrentRecvMsg := none
  mToSend := 0
  mSent := 0
  mCurrentSendMsg := none
  mToSendMsg := []
  mSocket := sock
  mConnID := connID
  mClosed := false

variable (conn : TcpConnection)

def resetRecv : TcpConnection :=
  { conn with
    mToRecv := 0
    mRecved := 0
    mCurrentRecvMsg := none
    mSocket := { conn.mSocket with mPreRecv := false } }

def resetSend : TcpConnection := { conn with mToSend := 0, mSent := 0, mCurrentSendMsg := none }

/-- `Close`: messages that are not sent are deleted. -/
def close : TcpConnection :=
  if conn.mClosed then conn
  else { conn with mClosed := true, mSocket := conn.mSocket.close, mToSendMsg := [] }

def enqueue (msg : Msg) : TcpConnection := { conn with mToSendMsg := conn.mToSendMsg ++ [msg] }

/-- What `Enqueue` of a logic service takes: everything while it is running. -/
def handOver (running : Bool) (ctx : OperContext) : List OperContext := if running then [ctx] else []

/-! ### Reading -/

/-- A message for the length just read; the length itself is put in front. The message
is handed on only when every place of its block behind the length has been received, so
what `malloc` has left there is taken to be zeros. -/
def startMsg (dataLen : Int) : Except Fault TcpConnection := do
  if conn.mCurrentRecvMsg.isSome then throw .assertion
  let msg ← Msg.ofLen (fun _ => 0) dataLen
  let msg ← msg.setLenTo dataLen
  let mToRecv ← checkInt (dataLen + HEAD_LENGTH)
  return { conn with mCurrentRecvMsg := some msg, mRecved := 4, mToRecv }

/-- One `Recv` of what the current message still lacks. -/
def recvMore (arrivals : List Arrival) : Except Fault (Int × TcpConnection × List Arrival) :=
  match conn.mCurrentRecvMsg with
  | none => .error .danglingPointer
  | some msg => do
    let (err, mSocket, recved, rest) ←
      conn.mSocket.recv (toSizeT (conn.mToRecv - conn.mRecved)) arrivals
    if err ≠ 0 then return (err, { conn with mSocket }.close, rest)
    let mData ← poke msg.mData conn.mRecved recved
    return (0, { conn with
      mSocket
      mCurrentRecvMsg := some { msg with mData }
      mRecved := conn.mRecved + recved.length }, rest)

/-- The first half of `ReadData`, up to the end of its `do`. -/
def tryRead (arrivals : List Arrival) : Except Fault (Int × TcpConnection × List Arrival) :=
  if conn.mSocket.noOK then .ok (EINVAL, conn, arrivals)
  else if conn.mSocket.mPreRecv then conn.recvMore arrivals
  else do
    let (err, dataLen, mSocket, rest) ← conn.mSocket.preRecv arrivals
    let conn := { conn with mSocket }
    if err ≠ 0 ∨ dataLen < 0 ∨ dataLen < 4 then return (err, conn.close, rest)
    let conn ← conn.startMsg dataLen
    conn.recvMore rest

/-- The current message is complete. -/
def Full : Prop := conn.mRecved = conn.mToRecv ∧ 4 < conn.mRecved

instance : Decidable conn.Full := inferInstanceAs (Decidable (_ ∧ _))

/-- `ReadData`: a message that is complete is handed to the logic service; after
an error the service is told to drop the connection. -/
def readData (running : Bool) (arrivals : List Arrival) : Except Fault ReadResult := do
  let (err, conn, rest) ← conn.tryRead arrivals
  let (err, conn, full) ←
    if conn.Full then
      match conn.mCurrentRecvMsg with
      | none => throw .danglingPointer
      | some msg =>
        let full := handOver running (.recv msg conn.mConnID conn.mSocket.mIP conn.mSocket.mPort)
        pure (if full = [] then EINVAL else err, conn.resetRecv, full)
    else pure (err, conn, [])
  if err ≠ 0 then
    return { err, conn := conn.resetRecv, rest, enqueued := full ++ handOver running (.drop conn.mConnID) }
  else return { err, conn, rest, enqueued := full }

/-! ### Writing -/

/-- `InitNextSend`: the first message of the queue, which stays there while it
is being sent. -/
def initNextSend : Option TcpConnection :=
  match conn.mToSendMsg with
  | [] => none
  | msg :: _ => some { conn with mCurrentSendMsg := some msg, mToSend := msg.getTotalLen, mSent := 0 }

/-- The counters after a `Send`; a message that is sent is taken off the queue. -/
def advance (sent : Int) : Except Fault TcpConnection := do
  let mSent ← checkInt (conn.mSent + sent)
  let mToSend ← checkInt (conn.mToSend - sent)
  let conn := { conn with mSent, mToSend }
  if mToSend = 0 then return { conn with mToSendMsg := conn.mToSendMsg.tail }.resetSend
  else return conn

/-- One `Send` of what is left of the current message. -/
def sendMore (msg : Msg) (running : Bool) (answer : Sendable) : Except Fault WriteResult := do
  let (err, sent, mSocket, taken) ← conn.mSocket.send msg.mData conn.mSent conn.mToSend answer
  let conn := { conn with mSocket }
  if err ≠ 0 then
    return { err, conn := conn.resetSend.close, taken, enqueued := handOver running (.drop conn.mConnID) }
  else
    let conn ← conn.advance sent
    return { err, conn, taken, enqueued := [] }

/-- `WriteData`. -/
def writeData (running : Bool) (answer : Sendable) : Except Fault WriteResult :=
  if conn.mClosed || conn.mSocket.noOK then
    .ok { err := EINVAL, conn, taken := [], enqueued := [] }
  else
    match conn.mCurrentSendMsg with
    | some msg => conn.sendMore msg running answer
    | none =>
      match conn.initNextSend with
      | none => .ok { err := 0, conn, taken := [], enqueued := [] }
      | some conn =>
        match conn.mCurrentSendMsg with
        | none => .error .assertion
        | some msg => conn.sendMore msg running answer

/-! ### Closing -/

@[simp] theorem close_closed : conn.close.mClosed = true := by
  unfold close
  split <;> simp_all

@[simp] theorem close_id : conn.close.mConnID = conn.mConnID := by
  unfold close
  split <;> rfl

@[simp] theorem close_ip : conn.close.mSocket.mIP = conn.mSocket.mIP := by
  unfold close
  split <;> simp

@[simp] theorem close_port : conn.close.mSocket.mPort = conn.mSocket.mPort := by
  unfold close
  split <;> simp

@[simp] theorem close_pre_recv : conn.close.mSocket.mPreRecv = conn.mSocket.mPreRecv := by
  unfold close
  split <;> simp

@[simp] theorem close_recved : conn.close.mRecved = conn.mRecved := by
  unfold close
  split <;> rfl

@[simp] theorem close_to_recv : conn.close.mToRecv = conn.mToRecv := by
  unfold close
  split <;> rfl

@[simp] theorem close_current_recv : conn.close.mCurrentRecvMsg = conn.mCurrentRecvMsg := by
  unfold close
  split <;> rfl

variable {conn} in
theorem close_no_ok (ended : conn.mSocket.noOK = true) : conn.close.mSocket.noOK = true := by
  unfold close
  split
  · exact ended
  · exact TcpSocket.close_no_ok ended

end TcpConnection

/-! ### Calls in any order -/

/-- A connection, and what waits for it in the kernel. -/
structure Link where
  conn : TcpConnection
  arrivals : List Arrival
  deriving DecidableEq

/-- The threads of the driver call `ReadData` and `WriteData`, the thread of the
logic service calls `Enqueue` and `WriteData`. -/
inductive Call where
  | read
  | write (answer : Sendable)
  | enqueue (msg : Msg)
  deriving DecidableEq

/-- What a call hands to the logic service, and what it hands to the kernel. -/
structure CallResult where
  enqueued : List OperContext
  taken : List UInt8
  deriving DecidableEq

namespace Link

def step (running : Bool) (link : Link) : Call → Except Fault (Link × CallResult)
  | .read => do
    let result ← link.conn.readData running link.arrivals
    return ({ conn := result.conn, arrivals := result.rest }, { enqueued := result.enqueued, taken := [] })
  | .write answer => do
    let result ← link.conn.writeData running answer
    return ({ link with conn := result.conn }, { enqueued := result.enqueued, taken := result.taken })
  | .enqueue msg => .ok ({ link with conn := link.conn.enqueue msg }, { enqueued := [], taken := [] })

/-- All that the logic service was given. -/
def enqueuedBy (results : List CallResult) : List OperContext := results.flatMap CallResult.enqueued

/-- All that the kernel has taken. -/
def takenBy (results : List CallResult) : List UInt8 := results.flatMap CallResult.taken

end Link
end ChatRoom
