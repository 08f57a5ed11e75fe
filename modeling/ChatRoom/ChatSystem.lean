import ChatRoom.ClientInput
import ChatRoom.RoomAccess
import Mathlib.Logic.Function.Basic

/-! The program as a whole: the server, and everybody who is connected to it. What is
on its way between them is kept in order, one queue in each direction; a client's posts
to itself wait in a third. Who types, which message is taken next and which connection
is lost is nobody's choice here, so a run is any interleaving. A message is the values
that it carries, and the queues idealise what is between two connections: nothing in them
is cut or lost. That connections bring over what is put into them is in `EndToEnd`, and
`SystemServer` says when the server can write what it sends. -/
namespace ChatRoom
open Lib Wire

/-- One connection: a client at its end, and the messages on their way. -/
structure Station where
  ip : StdString
  port : UInt16
  client : CRClient
  /-- The process has ended. -/
  exited : Bool
  /-- Local messages, in the queue of the client's `NetService`. -/
  posted : List (List Field)
  up : List (List Field)
  down : List (List Field)

structure ChatSystem where
  keeper : RoomKeeper
  /-- `mMaxID` of the server's `NetService`, as a count. -/
  mMaxID : Nat
  station : UInt64 → Option Station

/-- Whose turn it was, and what could be seen: messages put on their way to the server,
a message the server has taken, what it has sent, a message of the server that the client
has taken, and what the client's window shows. -/
structure Report where
  connId : UInt64
  said : List (List Field) := []
  served : List (List Field) := []
  sent : List Sent := []
  heard : List (List Field) := []
  shown : List Effect := []

namespace ChatSystem

inductive Act where
  /-- A client starts, and asks to log on. -/
  | connects (name ip : StdString) (port : UInt16)
  /-- A line is typed. -/
  | types (connId : UInt64) (line : CString)
  /-- The client takes a message that it has posted to itself. -/
  | minds (connId : UInt64)
  /-- The client takes a message of the server. -/
  | hears (connId : UInt64)
  /-- What is at the other end is not this client, and asks what it likes. -/
  | asks (connId : UInt64) (request : Worker.Request)
  /-- The server takes a message of this connection. -/
  | serves (connId : UInt64)
  /-- The server learns that the connection is gone. -/
  | drops (connId : UInt64)

def new : ChatSystem where
  keeper := .new
  mMaxID := 0
  station := fun _ => none

variable (system : ChatSystem)

def find (connId : UInt64) : Except Fault Station :=
  match system.station connId with
  | none => .error .blocked
  | some station => .ok station

def setStation (connId : UInt64) (station : Option Station) : ChatSystem :=
  { system with station := Function.update system.station connId station }

/-- What the server sends is on its way, to those who are there. -/
def deliver (sent : List Sent) : ChatSystem :=
  { system with station := fun connId =>
      (system.station connId).map fun station => { station with down := station.down ++ sentTo connId sent } }

/-- A message that is used is not `NULL`. -/
def present : Option (List Field) → Except Fault (List Field)
  | none => .error .danglingPointer
  | some message => .ok message

def postsOf (effects : List InputEffect) : List (Option (List Field)) :=
  effects.filterMap fun
    | .post message => some message
    | .send _ => none
    | .display _ => none

def sendsOf (effects : List InputEffect) : List (Option (List Field)) :=
  effects.filterMap fun
    | .send message => some message
    | .post _ => none
    | .display _ => none

def displaysOf (effects : List InputEffect) : List Effect :=
  effects.filterMap fun
    | .display info => some (.display info.bytes)
    | .send _ => none
    | .post _ => none

/-- The messages that a handler of the client sends. -/
def saidIn (effects : List Effect) : List (List Field) :=
  effects.filterMap fun
    | .send message => some message
    | .display _ => none
    | .userList _ => none
    | .receive _ _ _ => none
    | .exit _ => none

def isExit : Effect → Bool
  | .exit _ => true
  | .send _ => false
  | .display _ => false
  | .userList _ => false
  | .receive _ _ _ => false

/-- `RecvMessage` of the client. Values that are not there would be read behind the
message. -/
def takes (station : Station) (message : List Field) : Except Fault (Station × List Effect) :=
  if station.exited then .error .blocked
  else
    match station.client.recvMessage.run Reader.takeValue message with
    | .error _ => .error .outOfBounds
    | .ok ((client, effects), _) => .ok
      ({ station with client, exited := effects.any isExit, up := station.up ++ saidIn effects }, effects)

/-- `RecvMessage` of the server. -/
def serve (connId : UInt64) (station : Station) (message : List Field) : Except Fault (RoomKeeper × List Sent) :=
  match (Worker.recvMessage station.ip station.port connId).run Reader.takeValue message with
  | .error _ => .error .outOfBounds
  | .ok (act, _) => act system.keeper

def step : Act → Except Fault (ChatSystem × Report)
  | .connects name ip port =>
    let connId := UInt64.ofNat system.mMaxID
    let client := CRClient.new name
    let station : Station := ⟨ip, port, client, false, [], [client.logonFields], []⟩
    .ok ({ system.setStation connId (some station) with mMaxID := system.mMaxID + 1 },
      { connId, said := [client.logonFields] })
  | .types connId line => do
    let station ← system.find connId
    -- the window takes no more input
    if station.exited ∨ station.client.mCdkRunning = false then throw .blocked
    let (client, effects) ← station.client.handleInput line
    let posted ← (postsOf effects).mapM present
    let said ← (sendsOf effects).mapM present
    return (system.setStation connId (some { station with
      client, posted := station.posted ++ posted, up := station.up ++ said }),
      { connId, said, shown := displaysOf effects })
  | .minds connId => do
    let station ← system.find connId
    match station.posted with
    | [] => throw .blocked
    | message :: posted =>
      let (station, effects) ← takes { station with posted } message
      return (system.setStation connId (some station), { connId, said := saidIn effects, shown := effects })
  | .hears connId => do
    let station ← system.find connId
    match station.down with
    | [] => throw .blocked
    | message :: down =>
      let (station, effects) ← takes { station with down } message
      return (system.setStation connId (some station),
        { connId, said := saidIn effects, heard := [message], shown := effects })
  | .asks connId request => do
    let station ← system.find connId
    return (system.setStation connId (some { station with up := station.up ++ [request.fields] }),
      { connId, said := [request.fields] })
  | .serves connId => do
    let station ← system.find connId
    match station.up with
    | [] => throw .blocked
    | message :: up =>
      let (keeper, sent) ← system.serve connId station message
      return ({ system.setStation connId (some { station with up }) with keeper }.deliver sent,
        { connId, served := [message], sent })
  | .drops connId => do
    let _ ← system.find connId
    let (keeper, sent) ← Worker.drop system.keeper connId
    return ({ system.setStation connId none with keeper }.deliver sent, { connId, sent })

end ChatSystem
end ChatRoom
