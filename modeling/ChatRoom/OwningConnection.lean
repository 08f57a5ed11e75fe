import ChatRoom.ConnectionClosing

/-! A connection with its outgoing messages as the code has them: by pointer. The
message that is being sent is held twice, at the front of the queue and by
`mCurrentSendMsg`. Messages are handed over by `Enqueue`, and deleted by
`WriteData` when they are sent, by `Close` and by the destructor. -/
namespace ChatRoom
open Lib

/-- The messages that a connection was given, in order, and the ones that were
deleted. A pointer is a place in that order. -/
structure MsgHeap where
  made : List Msg
  deleted : List Nat
  deriving DecidableEq

namespace MsgHeap

def new : MsgHeap := ⟨[], []⟩

variable (heap : MsgHeap) (msg : Nat)

/-- `*msg`. -/
def deref : Except Fault Msg :=
  if msg ∈ heap.deleted then .error .danglingPointer
  else
    match heap.made[msg]? with
    | none => .error .danglingPointer
    | some found => .ok found

/-- `delete msg`: a second time is noted as well. -/
def delete : MsgHeap := { heap with deleted := heap.deleted ++ [msg] }

end MsgHeap

/-- What `Send` answers, whatever the bytes are. -/
def TcpSocket.sendCount (socket : TcpSocket) (len : Int) (answer : Sendable) : Int × Int × TcpSocket :=
  if socket.noOK then (EINVAL, 0, socket)
  else
    match answer with
    | .fail errno => if errno.Again then (0, -1, socket) else (errno.value, -1, { socket with mError := errno.value })
    | .accepts count _ => (0, (min count (toSizeT len) : Nat), socket)

structure OwningConnection where
  /-- All the rest; its own fields for the two below stay empty. -/
  base : TcpConnection
  mCurrentSendMsg : Option Nat
  mToSendMsg : List Nat
  heap : MsgHeap
  /-- The destructor has not run. -/
  alive : Bool
  deriving DecidableEq

namespace OwningConnection

def new (sock : TcpSocket) (connID : UInt64) : OwningConnection where
  base := .new sock connID
  mCurrentSendMsg := none
  mToSendMsg := []
  heap := .new
  alive := true

variable (owner : OwningConnection)

def enqueue (msg : Msg) : OwningConnection :=
  { owner with
    mToSendMsg := owner.mToSendMsg ++ [owner.heap.made.length]
    heap.made := owner.heap.made ++ [msg] }

/-- The loop of `FreeNotSendMsg`. -/
def freeAll (heap : MsgHeap) : List Nat → MsgHeap
  | [] => heap
  | msg :: mToSendMsg => freeAll (heap.delete msg) mToSendMsg

def freeNotSendMsg : OwningConnection :=
  { owner with heap := freeAll owner.heap owner.mToSendMsg, mToSendMsg := [] }

/-- `Close`: the message that is being sent is deleted with the others, and
`mCurrentSendMsg` stays. -/
def close : OwningConnection :=
  if owner.base.mClosed then owner else { owner with base := owner.base.close }.freeNotSendMsg

def resetSend : OwningConnection := { owner with base := owner.base.resetSend, mCurrentSendMsg := none }

/-- `ReadData`; a failure comes to `Close`. -/
def readData (running : Bool) (arrivals : List Arrival) : Except Fault OwningConnection := do
  let result ← owner.base.readData running arrivals
  let next := { owner with base := result.conn }
  return if !owner.base.mClosed && result.conn.mClosed then next.freeNotSendMsg else next

def initNextSend : Except Fault (Option OwningConnection) :=
  match owner.mToSendMsg with
  | [] => .ok none
  | msg :: _ => do
    let found ← owner.heap.deref msg
    return some { owner with
      mCurrentSendMsg := some msg
      base := { owner.base with mToSend := found.getTotalLen, mSent := 0 } }

/-- The counters after a `Send`; a message that is sent goes from the queue, and
is deleted. -/
def advance (msg : Nat) (sent : Int) : Except Fault OwningConnection := do
  let mSent ← checkInt (owner.base.mSent + sent)
  let mToSend ← checkInt (owner.base.mToSend - sent)
  let owner := { owner with base := { owner.base with mSent, mToSend } }
  if mToSend = 0 then
    match owner.mToSendMsg with
    | [] => .error .outOfBounds
    | _ :: mToSendMsg => return { owner with mToSendMsg, heap := owner.heap.delete msg }.resetSend
  else return owner

def sendMore (msg : Nat) (answer : Sendable) : Except Fault OwningConnection := do
  let _ ← owner.heap.deref msg
  let (err, sent, mSocket) := owner.base.mSocket.sendCount owner.base.mToSend answer
  let owner := { owner with base := { owner.base with mSocket } }
  if err ≠ 0 then return owner.resetSend.close else owner.advance msg sent

def writeData (answer : Sendable) : Except Fault OwningConnection :=
  if owner.base.mClosed || owner.base.mSocket.noOK then .ok owner
  else
    match owner.mCurrentSendMsg with
    | some msg => owner.sendMore msg answer
    | none => do
      match ← owner.initNextSend with
      | none => return owner
      | some owner =>
        match owner.mCurrentSendMsg with
        | none => .error .assertion
        | some msg => owner.sendMore msg answer

/-- `~TcpConnection`. -/
def destroy : OwningConnection :=
  { owner with base := { owner.base with mSocket := owner.base.mSocket.close }, alive := false }.freeNotSendMsg

/-- What is done to a connection. -/
inductive Use where
  | enqueue (msg : Msg)
  | write (answer : Sendable)
  | read (arrivals : List Arrival)
  | close
  | destroy
  deriving DecidableEq

def take (running : Bool) : Use → Except Fault OwningConnection
  | .enqueue msg => .ok (owner.enqueue msg)
  | .write answer => owner.writeData answer
  | .read arrivals => owner.readData running arrivals
  | .close => .ok owner.close
  | .destroy => .ok owner.destroy

/-- Nothing can be done to a connection that is destroyed. -/
def step (running : Bool) (owner : OwningConnection) (use : Use) : Except Fault (OwningConnection × Unit) :=
  if owner.alive then do
    let next ← owner.take running use
    return (next, ())
  else .error .danglingPointer

end OwningConnection
end ChatRoom
