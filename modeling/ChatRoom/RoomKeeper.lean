import ChatRoom.Records
import ChatRoom.Lib.Memory
import ChatRoom.Lib.Runs

/-! `RoomKeeper`: who is logged on, which rooms there are, and who is in which.
The objects that the maps of the source point to are the values of the maps
here, so changing one through a pointer is writing it back to its map. A lookup
followed by an `assert` is a lookup that can fail. A message is the values that are
written to it; `PagedKeeper` has the same operations with the messages themselves, and
`PagedRefinement` says when the two agree. -/
namespace ChatRoom
open Lib Wire

/-- What `SendMessage` enqueues: the receiving connection and the values that
were written to the message. -/
structure Sent where
  connId : UInt64
  fields : List Field
  deriving DecidableEq

/-- What a connection is sent, of everything that is sent. -/
def sentTo (connId : UInt64) (sent : List Sent) : List (List Field) :=
  (sent.filter fun message => message.connId == connId).map Sent.fields

theorem sent_to_append (connId : UInt64) (first second : List Sent) :
    sentTo connId (first ++ second) = sentTo connId first ++ sentTo connId second := by
  simp [sentTo]

/-- The same message to each member of a room. -/
theorem sent_to_each (room : Room) (fields : List Field) (connId : UInt64) :
    sentTo connId (room.getAllUsers.map fun member => ⟨member, fields⟩) =
      if connId ∈ room.mUsers then [fields] else [] := by
  have once : (room.getAllUsers.filter fun member => member == connId) =
      List.replicate (if connId ∈ room.mUsers then 1 else 0) connId := by
    rw [List.filter_beq, room.all_users_nodup.count]
    simp only [Room.mem_all_users]
  have fields_of : sentTo connId (room.getAllUsers.map fun member => ⟨member, fields⟩) =
      (room.getAllUsers.filter fun member => member == connId).map fun _ => fields := by
    simp only [sentTo, List.filter_map, List.map_map]
    rfl
  rw [fields_of, once]
  split <;> rfl

structure RoomKeeper where
  /-- The id of the next room. -/
  mRoomId : UInt32
  mIdRoom : Std.ExtTreeMap UInt32 Room
  mRoomNames : Std.ExtTreeMap StdString UInt32
  mIdUser : Std.ExtTreeMap UInt64 User
  mUserNames : Std.ExtTreeMap StdString UInt64
  deriving DecidableEq

/-- What an operation returns and sends, and the state it leaves. -/
structure Outcome where
  err : Int32
  errstr : StdString
  keeper : RoomKeeper
  sent : List Sent
  deriving DecidableEq

namespace RoomKeeper

def succeeded (keeper : RoomKeeper) (sent : List Sent) : Outcome := ⟨0, .ascii "", keeper, sent⟩

def failed (keeper : RoomKeeper) (err : Err) (errstr : StdString) : Outcome :=
  ⟨err.code, errstr, keeper, []⟩

/-! ### Lookups -/

/-- `GetUserById`, and the same lookup with an `assert` elsewhere. -/
def getUserById (keeper : RoomKeeper) (userId : UInt64) : Except Fault User :=
  match keeper.mIdUser[userId]? with
  | none => .error .assertion
  | some user => .ok user

/-- `GetRoomById`, and the same lookup with an `assert` elsewhere. -/
def getRoomById (keeper : RoomKeeper) (roomId : UInt32) : Except Fault Room :=
  match keeper.mIdRoom[roomId]? with
  | none => .error .assertion
  | some room => .ok room

def getUserByName (keeper : RoomKeeper) (name : StdString) : Option User :=
  match keeper.mUserNames[name]? with
  | none => none
  | some userId => keeper.mIdUser[userId]?

/-- The object behind a `Room *` is changed. -/
def setRoom (keeper : RoomKeeper) (roomId : UInt32) (room : Room) : RoomKeeper :=
  { keeper with mIdRoom := keeper.mIdRoom.insert roomId room }

def setUserRoomId (keeper : RoomKeeper) (userId : UInt64) (roomId : UInt32) : Except Fault RoomKeeper := do
  let user ← keeper.getUserById userId
  return { keeper with mIdUser := keeper.mIdUser.insert userId (user.setRoomId roomId) }

/-! ### Messages -/

/-- The values of a `s2c_room_info` message. -/
def infoFields (room : Room) (users : List User) : List Field :=
  MsgType.s2cRoomInfo.field :: room.encode ++
    [.u32 (UInt32.ofNat room.mUsers.size)] ++ users.flatMap User.encode

def getRoomInfoMsg (keeper : RoomKeeper) (roomId : UInt32) : Except Fault (List Field) := do
  let room ← keeper.getRoomById roomId
  let users ← room.getAllUsers.mapM keeper.getUserById
  return infoFields room users

/-- `PublishRoomInfo`, in values: what each member of the room is told. -/
def publishRoomInfo (keeper : RoomKeeper) (room : Room) : Except Fault (List Sent) := do
  let msg ← keeper.getRoomInfoMsg room.mID
  return room.getAllUsers.map fun userId => ⟨userId, msg⟩

/-- The values of a `s2c_room_chat_msg` message. -/
def chatFields (name input : StdString) : List Field :=
  [MsgType.s2cRoomChatMsg.field, .str name, .str input]

/-- `PublishRoomMessage`, in values. -/
def publishRoomMessage (keeper : RoomKeeper) (roomId : UInt32) (userId : UInt64) (input : StdString) :
    Except Fault (List Sent) := do
  let user ← keeper.getUserById userId
  let room ← keeper.getRoomById roomId
  room.getAllUsers.mapM fun member => do
    let temp ← keeper.getUserById member
    return ⟨temp.mID, chatFields user.mName input⟩

/-- The values of a `s2c_room_list` message. -/
def listFields (rooms : List Room) : List Field :=
  MsgType.s2cRoomList.field :: .u32 (UInt32.ofNat rooms.length) :: rooms.flatMap Room.encode

/-- `PublishRoomList`, in values: connection 0 stands for everybody. -/
def publishRoomList (keeper : RoomKeeper) (connId : UInt64) : List Sent :=
  let msg := listFields (valuesOf keeper.mIdRoom)
  if connId ≠ 0 then [⟨connId, msg⟩]
  else (valuesOf keeper.mIdUser).map fun user => ⟨user.mID, msg⟩

/-! ### Operations -/

def joinRoom (keeper : RoomKeeper) (roomName : StdString) (userId : UInt64) (passwd : StdString) :
    Except Fault Outcome :=
  match keeper.mRoomNames[roomName]? with
  | none => .ok (keeper.failed .roomNotExist (.ascii "room not exists!"))
  | some roomId => do
    let room ← keeper.getRoomById roomId
    if ¬ room.isPasswdOkay passwd then
      return keeper.failed .roomPasswdNotMatch (.ascii "room passwd not match, try again!")
    else if room.isUserIn userId then
      return keeper.failed .userAlreadyInThisRoom (.ascii "user already in this room")
    else
      let room := room.add userId
      let keeper ← (keeper.setRoom roomId room).setUserRoomId userId roomId
      let sent ← keeper.publishRoomInfo room
      return keeper.succeeded sent

def leaveRoom (keeper : RoomKeeper) (roomName : StdString) (userId : UInt64) : Except Fault Outcome :=
  match keeper.mRoomNames[roomName]? with
  | none => .ok (keeper.failed .roomNotExist (.ascii "room not exists!"))
  | some roomId => do
    let room ← keeper.getRoomById roomId
    let room := room.handleUserLeave userId
    let keeper := keeper.setRoom roomId room
    let sent ← keeper.publishRoomInfo room
    return keeper.succeeded sent

/-- `HandleLogon`: a new user starts in the hall. -/
def handleLogon (keeper : RoomKeeper) (name ip : StdString) (port : UInt16) (userId : UInt64) :
    Except Fault Outcome :=
  if keeper.mIdUser.contains userId then
    .ok (keeper.failed .userNameAlredyLogoned (.ascii "user has logoned before!"))
  else if keeper.mUserNames.contains name then
    .ok (keeper.failed .userSameNameExist (.ascii "user with sanme name exists on server!"))
  else do
    let keeper := { keeper with
      mIdUser := keeper.mIdUser.insertIfNew userId (.new name ip port userId)
      mUserNames := keeper.mUserNames.insertIfNew name userId }
    let outcome ← keeper.joinRoom HALL_NAME userId (.ascii "")
    if outcome.err ≠ 0 then throw .assertion
    return outcome

def createRoom (keeper : RoomKeeper) (name passwd : StdString) : Outcome :=
  if keeper.mRoomNames.contains name then
    keeper.failed .roomWithSameNameAlreadyExists (.ascii "room with same name already exists")
  else
    { keeper with
      mRoomNames := keeper.mRoomNames.insertIfNew name keeper.mRoomId
      mIdRoom := keeper.mIdRoom.insertIfNew keeper.mRoomId (.new keeper.mRoomId name passwd)
      mRoomId := keeper.mRoomId + 1 : RoomKeeper }.succeeded []

/-- `HandleJoinRoom`: the new room is entered before the old one is left. -/
def handleJoinRoom (keeper : RoomKeeper) (roomName passwd : StdString) (userId : UInt64) :
    Except Fault Outcome :=
  match keeper.mIdUser[userId]? with
  | none => .ok (keeper.failed .userNotExist (.ascii "join room ,but user not exist!"))
  | some user => do
    let oldRoom ← keeper.getRoomById user.mRoomId
    let joined ← keeper.joinRoom roomName userId passwd
    if joined.err ≠ 0 then return joined
    let left ← joined.keeper.leaveRoom oldRoom.mName userId
    if left.err ≠ 0 then throw .assertion
    return { left with sent := joined.sent ++ left.sent }

def handleDrop (keeper : RoomKeeper) (userId : UInt64) : Except Fault Outcome :=
  match keeper.mIdUser[userId]? with
  | none => .ok (keeper.succeeded [])
  | some user => do
    let room ← keeper.getRoomById user.mRoomId
    let room := room.handleUserLeave userId
    let keeper := { keeper.setRoom user.mRoomId room with
      mUserNames := keeper.mUserNames.erase user.mName
      mIdUser := keeper.mIdUser.erase userId }
    let sent ← keeper.publishRoomInfo room
    return keeper.succeeded sent

/-- `RoomKeeper::RoomKeeper`: only the hall. -/
def new : RoomKeeper := ({
  mRoomId := 0
  mIdRoom := ∅
  mRoomNames := ∅
  mIdUser := ∅
  mUserNames := ∅ : RoomKeeper }.createRoom HALL_NAME (.ascii "")).keeper

/-! ### Runs -/

/-- The four operations that change the rooms, as they are called. -/
inductive Request where
  | logon (name ip : StdString) (port : UInt16) (userId : UInt64)
  | create (name passwd : StdString)
  | join (roomName passwd : StdString) (userId : UInt64)
  | drop (userId : UInt64)
  deriving DecidableEq

def perform (keeper : RoomKeeper) : Request → Except Fault Outcome
  | .logon name ip port userId => keeper.handleLogon name ip port userId
  | .create name passwd => .ok (keeper.createRoom name passwd)
  | .join roomName passwd userId => keeper.handleJoinRoom roomName passwd userId
  | .drop userId => keeper.handleDrop userId

def Request.creates : Request → Bool
  | .create _ _ => true
  | _ => false

/-- How many rooms a history has added to the hall. -/
def roomsCreated (history : List (Request × Outcome)) : Nat :=
  history.countP fun entry => entry.1.creates && entry.2.err == 0

def step (keeper : RoomKeeper) (request : Request) : Except Fault (RoomKeeper × Outcome) := do
  let outcome ← keeper.perform request
  return (outcome.keeper, outcome)

end RoomKeeper
end ChatRoom
