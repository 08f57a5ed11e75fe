import ChatRoom.Wire
import ChatRoom.Lib.StdContainers

/-! The records that clients and server exchange, `User` and `Room`, with their
`Encode` and `Decode`, and the numbers that name message types and errors. -/
namespace ChatRoom
open Lib Wire

/-- `MsgType`: the first value of every message. -/
inductive MsgType where
  | c2sLogon | s2cLogonRes | s2cRoomInfo | c2sPublishChatMsg | s2cRoomChatMsg | c2sCreateRoom
  | s2cCreateRoomRes | s2cRoomList | c2sJoinRoom | s2cJoinRoomRes | c2sWhisperMsg | s2cWhisperMsg
  | s2cWhisperMsgFailed | localMsgBegin | localWarnMsg | localListRoom | localLeaveRoom
  | localWhisperMsg | localMsgEnd
  deriving DecidableEq

namespace MsgType

def code : MsgType → Int32
  | c2sLogon => 1
  | s2cLogonRes => 2
  | s2cRoomInfo => 3
  | c2sPublishChatMsg => 4
  | s2cRoomChatMsg => 5
  | c2sCreateRoom => 6
  | s2cCreateRoomRes => 7
  | s2cRoomList => 8
  | c2sJoinRoom => 9
  | s2cJoinRoomRes => 10
  | c2sWhisperMsg => 11
  | s2cWhisperMsg => 12
  | s2cWhisperMsgFailed => 13
  | localMsgBegin => 14
  | localWarnMsg => 15
  | localListRoom => 16
  | localLeaveRoom => 17
  | localWhisperMsg => 18
  | localMsgEnd => 19

/-- What a `switch` on a received `int` selects. -/
def ofCode (code : Int32) : Option MsgType :=
  match code.toInt with
  | 1 => some c2sLogon
  | 2 => some s2cLogonRes
  | 3 => some s2cRoomInfo
  | 4 => some c2sPublishChatMsg
  | 5 => some s2cRoomChatMsg
  | 6 => some c2sCreateRoom
  | 7 => some s2cCreateRoomRes
  | 8 => some s2cRoomList
  | 9 => some c2sJoinRoom
  | 10 => some s2cJoinRoomRes
  | 11 => some c2sWhisperMsg
  | 12 => some s2cWhisperMsg
  | 13 => some s2cWhisperMsgFailed
  | 14 => some localMsgBegin
  | 15 => some localWarnMsg
  | 16 => some localListRoom
  | 17 => some localLeaveRoom
  | 18 => some localWhisperMsg
  | 19 => some localMsgEnd
  | _ => none

theorem of_code_code (type : MsgType) : ofCode type.code = some type := by
  cases type <;> rfl

theorem code_injective {type other : MsgType} (same : type.code = other.code) : type = other :=
  Option.some.inj ((of_code_code type).symm.trans (same ▸ of_code_code other))

theorem of_code_some {number : Int32} {type : MsgType} (selected : ofCode number = some type) :
    number = type.code := by
  unfold ofCode at selected
  split at selected <;> cases selected
  all_goals
    rename_i same
    apply Int32.toInt_inj.mp
    rw [same]
    rfl

/-- The field that starts a message. The enumerators are promoted to `int`. -/
def field (type : MsgType) : Field := .int type.code

end MsgType

/-- `Err`. Zero is no error. -/
inductive Err where
  | userNameAlredyLogoned | userSameNameExist | roomNotExist | roomPasswdNotMatch
  | userAlreadyInThisRoom | roomWithSameNameAlreadyExists | userNotExist
  deriving DecidableEq

def Err.code : Err → Int32
  | userNameAlredyLogoned => 1
  | userSameNameExist => 2
  | roomNotExist => 3
  | roomPasswdNotMatch => 4
  | userAlreadyInThisRoom => 5
  | roomWithSameNameAlreadyExists => 6
  | userNotExist => 7

@[simp] theorem Err.code_ne_zero (err : Err) : err.code ≠ 0 := by
  cases err <;> decide

/-! ### Users -/

def INVALID_ROOM_ID : UInt32 := 0xffffffff

def HALL_NAME : StdString := .ascii "HALL"

structure User where
  mName : StdString
  mIP : StdString
  mPort : UInt16
  /-- The id of the user's connection. -/
  mID : UInt64
  mRoomId : UInt32
  deriving DecidableEq

namespace User

/-- `User::User(name, ip, port, connId)`. -/
def new (name ip : StdString) (port : UInt16) (connId : UInt64) : User where
  mName := name
  mIP := ip
  mPort := port
  mID := connId
  mRoomId := INVALID_ROOM_ID

/-- `User::User()`. -/
def empty : User where
  mName := .ascii ""
  mIP := .ascii ""
  mPort := 0
  mID := 0
  mRoomId := INVALID_ROOM_ID

def setRoomId (user : User) (roomId : UInt32) : User := { user with mRoomId := roomId }

/-- `User::Encode`. -/
def encode (user : User) : List Field :=
  [.str user.mName, .str user.mIP, .u16 user.mPort, .u64 user.mID, .u32 user.mRoomId]

/-- `User::Decode`: every field is overwritten. -/
def decode : FieldReader User := do
  let mName ← readStr
  let mIP ← readStr
  let mPort ← readU16
  let mID ← readU64
  let mRoomId ← readU32
  return { mName, mIP, mPort, mID, mRoomId }

/-- `Decode` goes through on what `Encode` wrote, and on nothing else. -/
theorem decode_ok : decode.run Reader.takeValue fields = .ok (user, rest) ↔
    fields = user.encode ++ rest := by
  simp only [decode, Reader.bind_eq, Reader.pure_eq, Reader.run_bind_ok, read_str_ok, read_u16_ok,
    read_u32_ok, read_u64_ok, Reader.run_done, Except.ok.injEq, Prod.mk.injEq, encode]
  constructor
  · rintro ⟨name, _, rfl, ip, _, rfl, port, _, rfl, id, _, rfl, roomId, _, rfl, rfl, rfl⟩
    rfl
  · rintro rfl
    exact ⟨_, _, rfl, _, _, rfl, _, _, rfl, _, _, rfl, _, _, rfl, rfl, rfl⟩

end User

/-! ### Rooms -/

structure Room where
  mID : UInt32
  mName : StdString
  mPassWord : StdString
  mUsers : Std.ExtTreeSet UInt64
  deriving DecidableEq

namespace Room

/-- `Room::Room(id, name, passwd)`. -/
def new (id : UInt32) (name passwd : StdString) : Room where
  mID := id
  mName := name
  mPassWord := passwd
  mUsers := ∅

/-- `Room::Room()`. -/
def empty : Room := new INVALID_ROOM_ID (.ascii "") (.ascii "")

def isPasswdOkay (room : Room) (passwd : StdString) : Bool := room.mPassWord == passwd

def isUserIn (room : Room) (userId : UInt64) : Bool := room.mUsers.contains userId

def add (room : Room) (userId : UInt64) : Room :=
  if room.isUserIn userId then room else { room with mUsers := room.mUsers.insert userId }

def handleUserLeave (room : Room) (userId : UInt64) : Room :=
  if room.isUserIn userId then { room with mUsers := room.mUsers.erase userId } else room

def getAllUsers (room : Room) : List UInt64 := room.mUsers.toList

/-- `Room::Encode`: the count is the size cut to 32 bits; every member is
written. -/
def encode (room : Room) : List Field :=
  [.u32 room.mID, .str room.mName, .u32 (UInt32.ofNat room.mUsers.size)] ++
    room.getAllUsers.map Field.u64

@[simp] theorem add_id : (add room userId).mID = room.mID := by unfold add; split <;> rfl
@[simp] theorem add_name (userId : UInt64) : (add room userId).mName = room.mName := by unfold add; split <;> rfl
@[simp] theorem add_passwd : (add room userId).mPassWord = room.mPassWord := by
  unfold add; split <;> rfl

@[simp] theorem leave_id : (handleUserLeave room userId).mID = room.mID := by
  unfold handleUserLeave; split <;> rfl
@[simp] theorem leave_name (userId : UInt64) : (handleUserLeave room userId).mName = room.mName := by
  unfold handleUserLeave; split <;> rfl
@[simp] theorem leave_passwd : (handleUserLeave room userId).mPassWord = room.mPassWord := by
  unfold handleUserLeave; split <;> rfl

@[simp] theorem is_user_in {room : Room} : room.isUserIn userId = true ↔ userId ∈ room.mUsers :=
  Std.ExtTreeSet.contains_iff_mem

@[simp] theorem is_passwd_okay {room : Room} : room.isPasswdOkay passwd = true ↔ room.mPassWord = passwd :=
  beq_iff_eq

@[simp] theorem mem_add {room : Room} {userId other : UInt64} :
    other ∈ (room.add userId).mUsers ↔ other = userId ∨ other ∈ room.mUsers := by
  unfold add
  split
  · rename_i inside
    rw [is_user_in] at inside
    exact ⟨.inr, fun member => member.elim (fun same => same ▸ inside) id⟩
  · rw [Std.ExtTreeSet.mem_insert, Std.LawfulEqCmp.compare_eq_iff_eq, eq_comm (a := userId)]

@[simp] theorem mem_leave {room : Room} {userId other : UInt64} :
    other ∈ (room.handleUserLeave userId).mUsers ↔ other ≠ userId ∧ other ∈ room.mUsers := by
  unfold handleUserLeave
  split
  · rw [Std.ExtTreeSet.mem_erase, Ne, Std.LawfulEqCmp.compare_eq_iff_eq, eq_comm (a := userId)]
  · rename_i outside
    rw [is_user_in] at outside
    exact ⟨fun member => ⟨fun same => outside (same ▸ member), member⟩, And.right⟩

@[simp] theorem mem_all_users {room : Room} : userId ∈ room.getAllUsers ↔ userId ∈ room.mUsers := by
  simp [getAllUsers]

theorem all_users_length (room : Room) : room.getAllUsers.length = room.mUsers.size :=
  Std.ExtTreeSet.length_toList

theorem all_users_nodup (room : Room) : room.getAllUsers.Nodup :=
  Std.ExtTreeSet.distinct_toList.imp fun different same => different (by simp [same])

/-- One pass of the loop in `Room::Decode`. -/
def decodeUser (users : Std.ExtTreeSet UInt64) : FieldReader (Std.ExtTreeSet UInt64) := do
  let userId ← readU64
  return users.insert userId

/-- `Room::Decode`: the members read are added to those the room had. -/
def decode (room : Room) : FieldReader Room := do
  let mID ← readU32
  let mName ← readStr
  let count ← readU32
  let mUsers ← Reader.times count.toNat decodeUser room.mUsers
  return { room with mID, mName, mUsers }

private theorem decode_user_ok : (decodeUser users).run Reader.takeValue fields = .ok (more, rest) ↔
    ∃ userId, fields = Field.u64 userId :: rest ∧ more = users.insert userId := by
  simp only [decodeUser, Reader.bind_eq, Reader.pure_eq, Reader.run_bind_ok, read_u64_ok,
    Reader.run_done, Except.ok.injEq, Prod.mk.injEq]
  constructor
  · rintro ⟨userId, _, rfl, rfl, rfl⟩
    exact ⟨userId, rfl, rfl⟩
  · rintro ⟨userId, rfl, rfl⟩
    exact ⟨userId, rest, rfl, rfl, rfl⟩

private theorem members_ok {count : Nat} (users : Std.ExtTreeSet UInt64) :
    (Reader.times count decodeUser users).run Reader.takeValue fields = .ok (more, rest) ↔
      ∃ read : List UInt64, read.length = count ∧ fields = read.map Field.u64 ++ rest ∧
        more = read.foldl (·.insert ·) users := by
  rw [Reader.run_times_ok (fun userId => [Field.u64 userId]) (·.insert ·) fun _ _ _ _ => decode_user_ok]
  simp only [List.map_eq_flatMap]

/-- What the bytes of a room say: the passwords of rooms are not sent. -/
structure Entry where
  id : UInt32
  name : StdString
  users : List UInt64
  short : users.length < 2 ^ 32

def Entry.fields (entry : Entry) : List Field :=
  [.u32 entry.id, .str entry.name, .u32 (UInt32.ofNat entry.users.length)] ++ entry.users.map Field.u64

/-- What decoding an entry makes of a room. -/
def update (room : Room) (entry : Entry) : Room :=
  { room with
    mID := entry.id
    mName := entry.name
    mUsers := entry.users.foldl (·.insert ·) room.mUsers }

/-- `Decode` goes through on an entry, and on nothing else. -/
theorem decode_ok : (decode room).run Reader.takeValue fields = .ok (result, rest) ↔
    ∃ entry : Entry, fields = entry.fields ++ rest ∧ result = room.update entry := by
  simp only [decode, Reader.bind_eq, Reader.pure_eq, Reader.run_bind_ok, read_str_ok, read_u32_ok,
    Reader.run_done, Except.ok.injEq, Prod.mk.injEq]
  constructor
  · rintro ⟨id, _, rfl, name, _, rfl, count, _, rfl, users, _, looped, rfl, rfl⟩
    obtain ⟨read, size, rfl, rfl⟩ := (members_ok room.mUsers).mp looped
    have short : read.length < 2 ^ 32 := size ▸ count.toNat_lt
    refine ⟨⟨id, name, read, short⟩, ?_, rfl⟩
    simp only [Entry.fields, size, UInt32.ofNat_toNat, List.cons_append, List.nil_append]
  · rintro ⟨entry, rfl, rfl⟩
    have count : (UInt32.ofNat entry.users.length).toNat = entry.users.length := by
      rw [UInt32.toNat_ofNat', Nat.mod_eq_of_lt entry.short]
    exact ⟨entry.id, _, rfl, entry.name, _, rfl, _, entry.users.map Field.u64 ++ rest, rfl, _, rest,
      (members_ok room.mUsers).mpr ⟨entry.users, count.symm, rfl, rfl⟩, rfl, rfl⟩

/-- What `Encode` writes, while the count fits its 32 bits. -/
def entry (room : Room) (short : room.mUsers.size < 2 ^ 32) : Entry where
  id := room.mID
  name := room.mName
  users := room.getAllUsers
  short := by simpa [getAllUsers] using short

theorem encode_entry (room : Room) (short : room.mUsers.size < 2 ^ 32) :
    room.encode = (room.entry short).fields := by
  simp [encode, entry, Entry.fields, getAllUsers]

/-- A new object that is decoded from a room is that room without its password. -/
theorem update_entry (room : Room) (short : room.mUsers.size < 2 ^ 32) :
    empty.update (room.entry short) = { room with mPassWord := .ascii "" } := by
  have users : (room.entry short).users.foldl (·.insert ·) empty.mUsers = room.mUsers :=
    foldl_insert_to_list room.mUsers
  rw [update, users]
  rfl

end Room
end ChatRoom
