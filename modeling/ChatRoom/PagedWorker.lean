import ChatRoom.TcpConnection
import ChatRoom.Worker

/-! `Worker` and `RoomKeeper` with the messages they make. Each is a `Msg` of one
page, written where the source writes it, whether or not anybody is sent it; rooms and
users are sent copies, and the one who asked is sent the message itself. A handler here
ends where a message overruns its page, and the same handler over values does not. -/
namespace ChatRoom
open Lib Wire

namespace PagedKeeper

/-- What an operation of `RoomKeeper` returns, what it enqueues to the worker, and the
state it leaves. -/
structure Outcome where
  err : Int32
  errstr : StdString
  keeper : RoomKeeper
  own : List OperContext

def succeeded (keeper : RoomKeeper) (own : List OperContext) : Outcome := ⟨0, .ascii "", keeper, own⟩

def failed (keeper : RoomKeeper) (err : Err) (errstr : StdString) : Outcome := ⟨err.code, errstr, keeper, []⟩

variable (host : Host) (keeper : RoomKeeper)

/-! ### Messages -/

/-- A copy of a message, as it is enqueued for a connection. -/
def sendCopy (msg : Msg) (connId : UInt64) : Except Fault OperContext := do
  let copy ← msg.dup host
  return .send connId copy

def publishRoomInfo (room : Room) : Except Fault (List OperContext) := do
  let fields ← keeper.getRoomInfoMsg room.mID
  let msg ← Msg.build host fields
  room.getAllUsers.mapM (sendCopy host msg)

def publishRoomMessage (roomId : UInt32) (userId : UInt64) (input : StdString) :
    Except Fault (List OperContext) := do
  let user ← keeper.getUserById userId
  let room ← keeper.getRoomById roomId
  let msg ← Msg.build host (RoomKeeper.chatFields user.mName input)
  room.getAllUsers.mapM fun member => do
    let temp ← keeper.getUserById member
    sendCopy host msg temp.mID

def publishRoomList (connId : UInt64) : Except Fault (List OperContext) := do
  let msg ← Msg.build host (RoomKeeper.listFields (valuesOf keeper.mIdRoom))
  if connId ≠ 0 then
    let ctx ← sendCopy host msg connId
    return [ctx]
  else (valuesOf keeper.mIdUser).mapM fun user => sendCopy host msg user.mID

/-! ### Operations -/

def joinRoom (roomName : StdString) (userId : UInt64) (passwd : StdString) : Except Fault Outcome :=
  match keeper.mRoomNames[roomName]? with
  | none => .ok (failed keeper .roomNotExist (.ascii "room not exists!"))
  | some roomId => do
    let room ← keeper.getRoomById roomId
    if ¬ room.isPasswdOkay passwd then
      return failed keeper .roomPasswdNotMatch (.ascii "room passwd not match, try again!")
    else if room.isUserIn userId then
      return failed keeper .userAlreadyInThisRoom (.ascii "user already in this room")
    else
      let room := room.add userId
      let keeper ← (keeper.setRoom roomId room).setUserRoomId userId roomId
      let own ← publishRoomInfo host keeper room
      return succeeded keeper own

def leaveRoom (roomName : StdString) (userId : UInt64) : Except Fault Outcome :=
  match keeper.mRoomNames[roomName]? with
  | none => .ok (failed keeper .roomNotExist (.ascii "room not exists!"))
  | some roomId => do
    let room ← keeper.getRoomById roomId
    let room := room.handleUserLeave userId
    let keeper := keeper.setRoom roomId room
    let own ← publishRoomInfo host keeper room
    return succeeded keeper own

def handleLogon (name ip : StdString) (port : UInt16) (userId : UInt64) : Except Fault Outcome :=
  if keeper.mIdUser.contains userId then
    .ok (failed keeper .userNameAlredyLogoned (.ascii "user has logoned before!"))
  else if keeper.mUserNames.contains name then
    .ok (failed keeper .userSameNameExist (.ascii "user with sanme name exists on server!"))
  else do
    let keeper := { keeper with
      mIdUser := keeper.mIdUser.insertIfNew userId (.new name ip port userId)
      mUserNames := keeper.mUserNames.insertIfNew name userId }
    let outcome ← joinRoom host keeper HALL_NAME userId (.ascii "")
    if outcome.err ≠ 0 then throw .assertion
    return outcome

def handleJoinRoom (roomName passwd : StdString) (userId : UInt64) : Except Fault Outcome :=
  match keeper.mIdUser[userId]? with
  | none => .ok (failed keeper .userNotExist (.ascii "join room ,but user not exist!"))
  | some user => do
    let oldRoom ← keeper.getRoomById user.mRoomId
    let joined ← joinRoom host keeper roomName userId passwd
    if joined.err ≠ 0 then return joined
    let left ← leaveRoom host joined.keeper oldRoom.mName userId
    if left.err ≠ 0 then throw .assertion
    return { left with own := joined.own ++ left.own }

def handleDrop (userId : UInt64) : Except Fault Outcome :=
  match keeper.mIdUser[userId]? with
  | none => .ok (succeeded keeper [])
  | some user => do
    let room ← keeper.getRoomById user.mRoomId
    let room := room.handleUserLeave userId
    let keeper := { keeper.setRoom user.mRoomId room with
      mUserNames := keeper.mUserNames.erase user.mName
      mIdUser := keeper.mIdUser.erase userId }
    let own ← publishRoomInfo host keeper room
    return succeeded keeper own

end PagedKeeper

/-- What a handler does once it has read its values, with its messages. -/
abbrev PagedServe := RoomKeeper → Except Fault (RoomKeeper × List OperContext)

namespace PagedWorker
open PagedKeeper (publishRoomMessage publishRoomList)

variable (host : Host)

/-! ### Handlers -/

def serveLogon (name ip : StdString) (port : UInt16) (connId : UInt64) : PagedServe := fun keeper => do
  let outcome ← PagedKeeper.handleLogon host keeper name ip port connId
  let user ← Worker.returnedUser outcome.keeper outcome.err connId
  let reply ← Msg.build host (Worker.logonRes outcome.err outcome.errstr user)
  let list ← publishRoomList host outcome.keeper connId
  return (outcome.keeper, outcome.own ++ .send connId reply :: list)

def serveChat (roomId : UInt32) (input : StdString) (userId : UInt64) : PagedServe := fun keeper => do
  let own ← publishRoomMessage host keeper roomId userId input
  return (keeper, own)

/-- Creating a room sends nothing by itself. -/
def serveCreateRoom (roomName passwd : StdString) (connId : UInt64) : PagedServe := fun keeper => do
  let outcome := keeper.createRoom roomName passwd
  let reply ← Msg.build host (Worker.createRoomRes outcome.err outcome.errstr roomName)
  let list ← publishRoomList host outcome.keeper 0
  return (outcome.keeper, .send connId reply :: list)

def serveJoinRoom (roomName passwd : StdString) (connId : UInt64) : PagedServe := fun keeper => do
  let outcome ← PagedKeeper.handleJoinRoom host keeper roomName passwd connId
  let reply ← Msg.build host (Worker.joinRoomRes outcome.err outcome.errstr roomName)
  return (outcome.keeper, outcome.own ++ [.send connId reply])

def sendWhisperFailed (connId : UInt64) (toName reason : StdString) : Except Fault (List OperContext) := do
  let reply ← Msg.build host [MsgType.s2cWhisperMsgFailed.field, .str toName, .str reason]
  return [.send connId reply]

def serveWhisper (toName words : StdString) (connId : UInt64) : PagedServe := fun keeper => do
  let fromUser ← keeper.getUserById connId
  match keeper.getUserByName toName with
  | none =>
    let own ← sendWhisperFailed host connId toName (.ascii "user not exists!")
    return (keeper, own)
  | some toUser =>
    let reply ← Msg.build host (Worker.whisperMsg fromUser.mName words)
    return (keeper, [.send toUser.mID reply])

def handleLogon (ip : StdString) (port : UInt16) (connId : UInt64) : FieldReader PagedServe := do
  let name ← readStr
  return serveLogon host name ip port connId

def publishChatMessage (userId : UInt64) : FieldReader PagedServe := do
  let roomId ← readU32
  let input ← readStr
  return serveChat host roomId input userId

def handleCreateRoom (connId : UInt64) : FieldReader PagedServe := do
  let roomName ← readStr
  let passwd ← readStr
  return serveCreateRoom host roomName passwd connId

def handleJoinRoom (connId : UInt64) : FieldReader PagedServe := do
  let roomName ← readStr
  let passwd ← readStr
  return serveJoinRoom host roomName passwd connId

def handleWhisperMsg (connId : UInt64) : FieldReader PagedServe := do
  let toName ← readStr
  let words ← readStr
  return serveWhisper host toName words connId

def recvMessage (ip : StdString) (port : UInt16) (connId : UInt64) : FieldReader PagedServe := do
  let msgType ← readInt
  match MsgType.ofCode msgType with
  | some .c2sLogon => handleLogon host ip port connId
  | some .c2sPublishChatMsg => publishChatMessage host connId
  | some .c2sCreateRoom => handleCreateRoom host connId
  | some .c2sJoinRoom => handleJoinRoom host connId
  | some .c2sWhisperMsg => handleWhisperMsg host connId
  | _ => return fun keeper => .ok (keeper, [])

/-- What the worker does with a request, with its messages. -/
def serve (ip : StdString) (port : UInt16) (connId : UInt64) : Worker.Request → PagedServe
  | .logon name => serveLogon host name ip port connId
  | .chat roomId input => serveChat host roomId input connId
  | .createRoom roomName passwd => serveCreateRoom host roomName passwd connId
  | .joinRoom roomName passwd => serveJoinRoom host roomName passwd connId
  | .whisper toName words => serveWhisper host toName words connId
  | .other _ _ => fun keeper => .ok (keeper, [])

end PagedWorker

namespace Worker

/-- What a context leaves: the rooms, what the worker enqueues to itself, and
what it enqueues to the net service. -/
structure Processed where
  keeper : RoomKeeper
  own : List OperContext
  net : List OperContext

/-- `Process`. -/
def process (host : Host) (keeper : RoomKeeper) : OperContext → Except Fault Processed
  | .recv msg connId ip port => do
    let (act, _) ← (PagedWorker.recvMessage host ip port connId).run Msg.read msg
    let (keeper, own) ← act keeper
    return { keeper, own, net := [] }
  | .send connId msg => .ok { keeper, own := [], net := [.send connId msg] }
  | .drop connId => do
    let outcome ← PagedKeeper.handleDrop host keeper connId
    return { keeper := outcome.keeper, own := outcome.own, net := [] }
  | .accept _ => .error .assertion

/-- The context in which an event reaches the worker. -/
def Event.context : Event → OperContext
  | .recv delivery _ _ => .recv delivery.frame.msg delivery.connId delivery.ip delivery.port
  | .drop connId => .drop connId

/-- `Process` on an event, and what it enqueues to the worker. -/
def take (host : Host) (keeper : RoomKeeper) (event : Event) : Except Fault (RoomKeeper × List OperContext) := do
  let result ← process host keeper event.context
  return (result.keeper, result.own)

end Worker
end ChatRoom
