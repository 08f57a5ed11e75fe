import ChatRoom.RoomKeeper
import ChatRoom.MsgReading

/-! `Worker`: the server's side of the protocol. A handler reads the values of
its request, calls `RoomKeeper`, and sends its replies. The reading is kept
apart from the rest, so that it can be run on any source of values. What is sent is the
values that are written to a message: what comes of the messages themselves, each on a
page of its own, is in `PagedWorker`, and `PagedRefinement` says when the two agree. -/
namespace ChatRoom
open Lib Wire

/-- What a handler does once it has read its values: the state behind it, and the values
that it sends. -/
abbrev Serve := RoomKeeper → Except Fault (RoomKeeper × List Sent)

namespace Worker

/-! ### Replies -/

def logonRes (err : Int32) (errstr : StdString) (user : List Field) : List Field :=
  MsgType.s2cLogonRes.field :: .int err :: .str errstr :: user

def createRoomRes (err : Int32) (errstr roomName : StdString) : List Field :=
  [MsgType.s2cCreateRoomRes.field, .int err, .str errstr, .str roomName]

def joinRoomRes (err : Int32) (errstr roomName : StdString) : List Field :=
  [MsgType.s2cJoinRoomRes.field, .int err, .str errstr, .str roomName]

def whisperMsg (fromName words : StdString) : List Field :=
  [MsgType.s2cWhisperMsg.field, .str fromName, .str words]

/-- `SendWhisperFailed`. -/
def sendWhisperFailed (connId : UInt64) (toName reason : StdString) : List Sent :=
  [⟨connId, [MsgType.s2cWhisperMsgFailed.field, .str toName, .str reason]⟩]

/-! ### Handlers -/

/-- The user that `HandleLogon` of the keeper returned a pointer to, if it did. -/
def returnedUser (keeper : RoomKeeper) (err : Int32) (connId : UInt64) : Except Fault (List Field) :=
  if err = 0 then
    match keeper.mIdUser[connId]? with
    | none => .error .danglingPointer
    | some user => .ok user.encode
  else .ok []

def serveLogon (name ip : StdString) (port : UInt16) (connId : UInt64) : Serve := fun keeper => do
  let outcome ← keeper.handleLogon name ip port connId
  let user ← returnedUser outcome.keeper outcome.err connId
  let reply := logonRes outcome.err outcome.errstr user
  return (outcome.keeper, outcome.sent ++ ⟨connId, reply⟩ :: outcome.keeper.publishRoomList connId)

def serveChat (roomId : UInt32) (input : StdString) (userId : UInt64) : Serve := fun keeper => do
  let sent ← keeper.publishRoomMessage roomId userId input
  return (keeper, sent)

def serveCreateRoom (roomName passwd : StdString) (connId : UInt64) : Serve := fun keeper =>
  let outcome := keeper.createRoom roomName passwd
  let reply := createRoomRes outcome.err outcome.errstr roomName
  .ok (outcome.keeper, outcome.sent ++ ⟨connId, reply⟩ :: outcome.keeper.publishRoomList 0)

def serveJoinRoom (roomName passwd : StdString) (connId : UInt64) : Serve := fun keeper => do
  let outcome ← keeper.handleJoinRoom roomName passwd connId
  let reply := joinRoomRes outcome.err outcome.errstr roomName
  return (outcome.keeper, outcome.sent ++ [⟨connId, reply⟩])

def serveWhisper (toName words : StdString) (connId : UInt64) : Serve := fun keeper => do
  let fromUser ← keeper.getUserById connId
  match keeper.getUserByName toName with
  | none => return (keeper, sendWhisperFailed connId toName (.ascii "user not exists!"))
  | some toUser => return (keeper, [⟨toUser.mID, whisperMsg fromUser.mName words⟩])

def handleLogon (ip : StdString) (port : UInt16) (connId : UInt64) : FieldReader Serve := do
  let name ← readStr
  return serveLogon name ip port connId

def publishChatMessage (userId : UInt64) : FieldReader Serve := do
  let roomId ← readU32
  let input ← readStr
  return serveChat roomId input userId

def handleCreateRoom (connId : UInt64) : FieldReader Serve := do
  let roomName ← readStr
  let passwd ← readStr
  return serveCreateRoom roomName passwd connId

def handleJoinRoom (connId : UInt64) : FieldReader Serve := do
  let roomName ← readStr
  let passwd ← readStr
  return serveJoinRoom roomName passwd connId

def handleWhisperMsg (connId : UInt64) : FieldReader Serve := do
  let toName ← readStr
  let words ← readStr
  return serveWhisper toName words connId

/-- `RecvMessage`: other types, the ones for clients included, are ignored. -/
def recvMessage (ip : StdString) (port : UInt16) (connId : UInt64) : FieldReader Serve := do
  let msgType ← readInt
  match MsgType.ofCode msgType with
  | some .c2sLogon => handleLogon ip port connId
  | some .c2sPublishChatMsg => publishChatMessage connId
  | some .c2sCreateRoom => handleCreateRoom connId
  | some .c2sJoinRoom => handleJoinRoom connId
  | some .c2sWhisperMsg => handleWhisperMsg connId
  | _ => return fun keeper => .ok (keeper, [])

/-! ### What clients ask for -/

/-- A request that a client can put into a message. -/
inductive Request where
  | logon (name : StdString)
  | chat (roomId : UInt32) (input : StdString)
  | createRoom (roomName passwd : StdString)
  | joinRoom (roomName passwd : StdString)
  | whisper (toName words : StdString)
  | other (code : Int32) (unknown : MsgType.ofCode code ∉ [some .c2sLogon, some .c2sPublishChatMsg,
      some .c2sCreateRoom, some .c2sJoinRoom, some .c2sWhisperMsg])

/-- The values of a request, as `MsgType` documents them. -/
def Request.fields : Request → List Field
  | .logon name => [MsgType.c2sLogon.field, .str name]
  | .chat roomId input => [MsgType.c2sPublishChatMsg.field, .u32 roomId, .str input]
  | .createRoom roomName passwd => [MsgType.c2sCreateRoom.field, .str roomName, .str passwd]
  | .joinRoom roomName passwd => [MsgType.c2sJoinRoom.field, .str roomName, .str passwd]
  | .whisper toName words => [MsgType.c2sWhisperMsg.field, .str toName, .str words]
  | .other code _ => [.int code]

theorem Request.at_least (request : Request) : 4 ≤ (encode request.fields).length := by
  cases request <;> exact at_least_type _ _

/-- What the server does with a request. -/
def serve (ip : StdString) (port : UInt16) (connId : UInt64) : Request → Serve
  | .logon name => serveLogon name ip port connId
  | .chat roomId input => serveChat roomId input connId
  | .createRoom roomName passwd => serveCreateRoom roomName passwd connId
  | .joinRoom roomName passwd => serveJoinRoom roomName passwd connId
  | .whisper toName words => serveWhisper toName words connId
  | .other _ _ => fun keeper => .ok (keeper, [])

/-- A received message: a frame, and who sent it. -/
structure Delivery where
  ip : StdString
  port : UInt16
  connId : UInt64
  frame : Frame

/-- `RecvMessage` on the `Msg` of an `OP_RECV`. -/
def receive (keeper : RoomKeeper) (delivery : Delivery) : Except Fault (RoomKeeper × List Sent) := do
  let (act, _) ← (recvMessage delivery.ip delivery.port delivery.connId).run Msg.read delivery.frame.msg
  act keeper

/-- `HandleDrop`. -/
def drop (keeper : RoomKeeper) (connId : UInt64) : Except Fault (RoomKeeper × List Sent) := do
  let outcome ← keeper.handleDrop connId
  return (outcome.keeper, outcome.sent)

/-- What the worker takes off its queue: a correctly encoded request in a
received message, or the news that a connection is gone. -/
inductive Event where
  | recv (delivery : Delivery) (request : Request)
      (encoded : encode request.fields <+: delivery.frame.payload)
  | drop (connId : UInt64)

/-- `Process`, in values. -/
def step (keeper : RoomKeeper) : Event → Except Fault (RoomKeeper × List Sent)
  | .recv delivery _ _ => receive keeper delivery
  | .drop connId => drop keeper connId

/-! ### Reading requests -/

private theorem handle_logon_ok {act : Serve} {fields rest : List Field} :
    (handleLogon ip port connId).run Reader.takeValue fields = .ok (act, rest) ↔
      ∃ name, fields = Field.str name :: rest ∧ act = serveLogon name ip port connId := by
  simp only [handleLogon, Reader.bind_eq, Reader.pure_eq, Reader.run_bind_ok, read_str_ok,
    Reader.run_done, Except.ok.injEq, Prod.mk.injEq]
  constructor
  · rintro ⟨name, _, rfl, rfl, rfl⟩
    exact ⟨name, rfl, rfl⟩
  · rintro ⟨name, rfl, rfl⟩
    exact ⟨name, rest, rfl, rfl, rfl⟩

private theorem publish_chat_message_ok {act : Serve} {fields rest : List Field} :
    (publishChatMessage userId).run Reader.takeValue fields = .ok (act, rest) ↔
      ∃ roomId input, fields = [Field.u32 roomId, Field.str input] ++ rest ∧
        act = serveChat roomId input userId := by
  simp only [publishChatMessage, Reader.bind_eq, Reader.pure_eq, Reader.run_bind_ok, read_str_ok,
    read_u32_ok, Reader.run_done, Except.ok.injEq, Prod.mk.injEq]
  constructor
  · rintro ⟨roomId, _, rfl, input, _, rfl, rfl, rfl⟩
    exact ⟨roomId, input, rfl, rfl⟩
  · rintro ⟨roomId, input, rfl, rfl⟩
    exact ⟨roomId, _, rfl, input, rest, rfl, rfl, rfl⟩

/-- `RecvMessage` goes through exactly on the values of a request, and then does
what the request asks for. -/
theorem recv_message_ok (ip : StdString) (port : UInt16) (connId : UInt64) {act : Serve}
    {fields rest : List Field} :
    (recvMessage ip port connId).run Reader.takeValue fields = .ok (act, rest) ↔
      ∃ request : Request, fields = request.fields ++ rest ∧ act = serve ip port connId request := by
  simp only [recvMessage, Reader.bind_eq, Reader.run_bind_ok, read_int_ok]
  constructor
  · rintro ⟨msgType, _, rfl, ran⟩
    split at ran
    · rename_i selected
      obtain ⟨name, rfl, rfl⟩ := handle_logon_ok.mp ran
      exact ⟨.logon name, by rw [MsgType.of_code_some selected]; rfl, rfl⟩
    · rename_i selected
      obtain ⟨roomId, input, rfl, rfl⟩ := publish_chat_message_ok.mp ran
      exact ⟨.chat roomId input, by rw [MsgType.of_code_some selected]; rfl, rfl⟩
    · rename_i selected
      obtain ⟨roomName, passwd, rfl, rfl⟩ := (two_strings_ok _).mp ran
      exact ⟨.createRoom roomName passwd, by rw [MsgType.of_code_some selected]; rfl, rfl⟩
    · rename_i selected
      obtain ⟨roomName, passwd, rfl, rfl⟩ := (two_strings_ok _).mp ran
      exact ⟨.joinRoom roomName passwd, by rw [MsgType.of_code_some selected]; rfl, rfl⟩
    · rename_i selected
      obtain ⟨toName, words, rfl, rfl⟩ := (two_strings_ok _).mp ran
      exact ⟨.whisper toName words, by rw [MsgType.of_code_some selected]; rfl, rfl⟩
    · simp only [Reader.pure_eq, Reader.run_done, Except.ok.injEq, Prod.mk.injEq] at ran
      obtain ⟨rfl, rfl⟩ := ran
      exact ⟨.other msgType (by simp_all), rfl, rfl⟩
  · rintro ⟨request, rfl, rfl⟩
    cases request with
    | logon name =>
      exact ⟨MsgType.c2sLogon.code, _, rfl, handle_logon_ok.mpr ⟨name, rfl, rfl⟩⟩
    | chat roomId input =>
      exact ⟨MsgType.c2sPublishChatMsg.code, _, rfl, publish_chat_message_ok.mpr ⟨roomId, input, rfl, rfl⟩⟩
    | createRoom roomName passwd =>
      exact ⟨MsgType.c2sCreateRoom.code, _, rfl, (two_strings_ok _).mpr ⟨roomName, passwd, rfl, rfl⟩⟩
    | joinRoom roomName passwd =>
      exact ⟨MsgType.c2sJoinRoom.code, _, rfl, (two_strings_ok _).mpr ⟨roomName, passwd, rfl, rfl⟩⟩
    | whisper toName words =>
      exact ⟨MsgType.c2sWhisperMsg.code, _, rfl, (two_strings_ok _).mpr ⟨toName, words, rfl, rfl⟩⟩
    | other code unknown =>
      refine ⟨code, rest, rfl, ?_⟩
      split
      case h_6 => rfl
      all_goals
        rename_i selected
        exact absurd unknown (by simp [selected])

/-- A message that starts with a request is answered as that request. -/
theorem receive_request (keeper : RoomKeeper) (delivery : Delivery) (request : Request)
    (encoded : encode request.fields <+: delivery.frame.payload) :
    receive keeper delivery = serve delivery.ip delivery.port delivery.connId request keeper := by
  obtain ⟨rest, payload⟩ := encoded
  have unread := MsgReading.unread_frame delivery.frame
  rw [← payload] at unread
  obtain ⟨next, ran, _⟩ := MsgReading.run_read_of_values unread
    ((recv_message_ok delivery.ip delivery.port delivery.connId).mpr ⟨request, (List.append_nil _).symm, rfl⟩)
  simp only [receive, ran, ok_then]

end Worker
end ChatRoom
