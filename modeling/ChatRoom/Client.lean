import ChatRoom.Records
import ChatRoom.MsgReading

/-! `CRClient`: what a client keeps of the server's state, and what it does with
each message it receives. What its window shows is part of a handler's result. -/
namespace ChatRoom
open Lib Wire

/-- The bytes of an ASCII text in the source. -/
def text (literal : String) : List UInt8 := literal.toList.map fun char => UInt8.ofNat char.toNat

/-- A number, as a stream prints it. -/
def digits (number : Nat) : List UInt8 := text (toString number)

/-- `i2s`: its argument is an `int`. -/
def i2s (number : Nat) : List UInt8 := text (toString (toInt32 number))

/-- What a handler does besides changing the client. -/
inductive Effect where
  /-- `DisplaySystemMessage`. -/
  | display (info : List UInt8)
  /-- `UpdateUserListWithStringVec`. -/
  | userList (lines : List (List UInt8))
  /-- `ReceiveMessage`. -/
  | receive (fromName words : StdString) (isSelf : Bool)
  /-- `SendMessage`. -/
  | send (fields : List Field)
  /-- The process ends. -/
  | exit (err : Int32)
  deriving DecidableEq

structure CRClient where
  mUserName : StdString
  mUser : User
  mRooms : Std.ExtTreeMap UInt32 Room
  mCurrentRoom : Room
  mOnlines : Std.ExtTreeMap UInt64 User
  /-- The window still takes input. -/
  mCdkRunning : Bool
  deriving DecidableEq

namespace CRClient

/-- `CRClient::CRClient`. -/
def new (user : StdString) : CRClient where
  mUserName := user
  mUser := .empty
  mRooms := ∅
  mCurrentRoom := .empty
  mOnlines := ∅
  mCdkRunning := true

/-- What a handler returns. -/
abbrev Handled := CRClient × List Effect

variable (client : CRClient)

/-! ### Logon and rooms -/

def handleLogonRes : FieldReader Handled := do
  let err ← readInt
  let _errstr ← readStr
  if err = 0 then
    let mUser ← User.decode
    return ({ client with mUser }, [])
  else
    return (client, [.exit err])

/-- One pass of the loop in `ParseRoomInfo`; the first record of an id is kept. -/
def decodeOnline (onlines : Std.ExtTreeMap UInt64 User) : FieldReader (Std.ExtTreeMap UInt64 User) := do
  let user ← User.decode
  return onlines.insertIfNew user.mID user

def parseRoomInfo : FieldReader CRClient := do
  let mCurrentRoom ← client.mCurrentRoom.decode
  let count ← readU32
  let mOnlines ← Reader.times count.toNat decodeOnline ∅
  return { client with mCurrentRoom, mUser := client.mUser.setRoomId mCurrentRoom.mID, mOnlines }

/-- `UpdateWindowUserList`. -/
def updateWindowUserList : Effect :=
  .userList (text "<L></B/U/31>NAME  ID   IP   PORT<!31>" :: (valuesOf client.mOnlines).map fun user =>
    text "<L></B/31>" ++ user.mName.bytes ++ text "  " ++ i2s user.mID.toNat ++ text "  " ++
      user.mIP.bytes ++ text "  " ++ i2s user.mPort.toNat ++ text "  ")

/-- One pass of the loop in `HandleUpdateRoomList`: each room is a new object. -/
def decodeRoom (rooms : Std.ExtTreeMap UInt32 Room) : FieldReader (Std.ExtTreeMap UInt32 Room) := do
  let room ← Room.empty.decode
  return rooms.insertIfNew room.mID room

def handleUpdateRoomList : FieldReader Handled := do
  let count ← readU32
  let mRooms ← Reader.times count.toNat decodeRoom ∅
  return ({ client with mRooms }, [])

/-- `Room::DebugString`. -/
def debugString (room : Room) : List UInt8 :=
  text " room name: " ++ room.mName.bytes ++ text " room id: " ++ digits room.mID.toNat ++
    text " user count: " ++ digits room.mUsers.size

def showRoomList : Handled :=
  (client, .display (text "Total room count: " ++ digits client.mRooms.size) ::
    (valuesOf client.mRooms).map fun room => .display (debugString room))

/-- `HandleLeaveRoom`: out of the hall the program ends, out of a room the user
goes back to the hall. -/
def handleLeaveRoom : Handled :=
  if client.mCurrentRoom.mName = HALL_NAME then ({ client with mCdkRunning := false }, [])
  else (client, [.send [MsgType.c2sJoinRoom.field, .str HALL_NAME, .str (.ascii "")]])

/-! ### Messages for the window -/

def receiveChatMessage : FieldReader Handled := do
  let fromName ← readStr
  let words ← readStr
  return (client, [.receive fromName words (fromName == client.mUserName)])

def handleCreateRoomRes : FieldReader Handled := do
  let err ← readInt
  let errstr ← readStr
  let roomName ← readStr
  return (client, [.display (
    if err = 0 then text "create room " ++ roomName.bytes ++ text " succeed!"
    else text "create room " ++ roomName.bytes ++ text " failed! reason: " ++ errstr.bytes)])

def handleJoinRoomRes : FieldReader Handled := do
  let err ← readInt
  let errstr ← readStr
  let roomName ← readStr
  return (client, [.display (
    if err ≠ 0 then text "join room " ++ roomName.bytes ++ text " failed: " ++ errstr.bytes
    else text "join room " ++ roomName.bytes ++ text " success!")])

def handleWhisperMessage : FieldReader Handled := do
  let fromName ← readStr
  let words ← readStr
  return (client, [.display (text "recv whisper fr " ++ fromName.bytes ++ text ": " ++ words.bytes)])

def handleWhisperFailed : FieldReader Handled := do
  let toName ← readStr
  let reason ← readStr
  return (client,
    [.display (text "send whisper to " ++ toName.bytes ++ text " failed, reason: " ++ reason.bytes)])

def handleLocalWhisperMsg : FieldReader Handled := do
  let toName ← readStr
  let words ← readStr
  return (client,
    [.display (text "send whisper to " ++ toName.bytes ++ text ": " ++ words.bytes),
      .send [MsgType.c2sWhisperMsg.field, .str toName, .str words]])

/-! ### Dispatch -/

/-- `RecvMessage`. The local types are not told apart from what a server sent;
`ReceiveLocalWarnMessage` is empty. -/
def recvMessage : FieldReader Handled := do
  let msgType ← readInt
  match MsgType.ofCode msgType with
  | some .s2cLogonRes => client.handleLogonRes
  | some .s2cRoomInfo => do
    let client ← client.parseRoomInfo
    return (client, [client.updateWindowUserList])
  | some .s2cRoomChatMsg => client.receiveChatMessage
  | some .localWarnMsg => return (client, [])
  | some .s2cCreateRoomRes => client.handleCreateRoomRes
  | some .s2cRoomList => client.handleUpdateRoomList
  | some .s2cJoinRoomRes => client.handleJoinRoomRes
  | some .localListRoom => return client.showRoomList
  | some .localLeaveRoom => return client.handleLeaveRoom
  | some .s2cWhisperMsg => client.handleWhisperMessage
  | some .s2cWhisperMsgFailed => client.handleWhisperFailed
  | some .localWhisperMsg => client.handleLocalWhisperMsg
  | _ => return (client, [])

/-! ### What a client sends -/

/-- `SendLogon`. -/
def logonFields : List Field := [MsgType.c2sLogon.field, .str client.mUserName]

/-- The chat branch of `HandleInput`. -/
def chatFields (input : StdString) : List Field :=
  [MsgType.c2sPublishChatMsg.field, .u32 client.mCurrentRoom.mID, .str input]

/-- The message that `ParseCreateRoom` of the input parser makes. -/
def createRoomFields (name passwd : StdString) : List Field :=
  [MsgType.c2sCreateRoom.field, .str name, .str passwd]

/-- The message that `ParseJoinRoom` makes. -/
def joinRoomFields (roomName passwd : StdString) : List Field :=
  [MsgType.c2sJoinRoom.field, .str roomName, .str passwd]

/-- The local message that `ParseWhisper` makes. -/
def localWhisperFields (target words : StdString) : List Field :=
  [MsgType.localWhisperMsg.field, .str target, .str words]

end CRClient
end ChatRoom
