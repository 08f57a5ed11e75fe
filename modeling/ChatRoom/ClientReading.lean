import ChatRoom.Client

/-! The messages that a client reads to their end, as a grammar, and what it
does with each. Whatever a client does with a message it does because the
message starts with one of these. -/
namespace ChatRoom.ClientReading
open Lib Wire CRClient

/-- The values behind each message type that a client knows. -/
inductive Message where
  | logonOk (errstr : StdString) (user : User)
  | logonFailed (err : Int32) (failed : err ≠ 0) (errstr : StdString)
  | roomInfo (room : Room.Entry) (users : List User) (short : users.length < 2 ^ 32)
  | roomChat (fromName words : StdString)
  | createRoomRes (err : Int32) (errstr roomName : StdString)
  | roomList (rooms : List Room.Entry) (short : rooms.length < 2 ^ 32)
  | joinRoomRes (err : Int32) (errstr roomName : StdString)
  | whisper (fromName words : StdString)
  | whisperFailed (toName reason : StdString)
  | localWhisper (toName words : StdString)
  | bare (code : Int32) (silent : MsgType.ofCode code ∉ [some .s2cLogonRes, some .s2cRoomInfo,
      some .s2cRoomChatMsg, some .s2cCreateRoomRes, some .s2cRoomList, some .s2cJoinRoomRes,
      some .s2cWhisperMsg, some .s2cWhisperMsgFailed, some .localWhisperMsg])

def Message.fields : Message → List Field
  | .logonOk errstr user => [MsgType.s2cLogonRes.field, .int 0, .str errstr] ++ user.encode
  | .logonFailed err _ errstr => [MsgType.s2cLogonRes.field, .int err, .str errstr]
  | .roomInfo room users _ => MsgType.s2cRoomInfo.field ::
      room.fields ++ [.u32 (UInt32.ofNat users.length)] ++ users.flatMap User.encode
  | .roomChat fromName words => [MsgType.s2cRoomChatMsg.field, .str fromName, .str words]
  | .createRoomRes err errstr roomName =>
      [MsgType.s2cCreateRoomRes.field, .int err, .str errstr, .str roomName]
  | .roomList rooms _ => MsgType.s2cRoomList.field :: .u32 (UInt32.ofNat rooms.length) ::
      rooms.flatMap Room.Entry.fields
  | .joinRoomRes err errstr roomName =>
      [MsgType.s2cJoinRoomRes.field, .int err, .str errstr, .str roomName]
  | .whisper fromName words => [MsgType.s2cWhisperMsg.field, .str fromName, .str words]
  | .whisperFailed toName reason => [MsgType.s2cWhisperMsgFailed.field, .str toName, .str reason]
  | .localWhisper toName words => [MsgType.localWhisperMsg.field, .str toName, .str words]
  | .bare code _ => [.int code]

/-- The users of a room, by id; of two records with one id the first counts. -/
def onlinesOf (users : List User) : Std.ExtTreeMap UInt64 User := insertEach User.mID id ∅ users

/-- The rooms of a list, by id. -/
def roomsOf (rooms : List Room.Entry) : Std.ExtTreeMap UInt32 Room :=
  insertEach Room.Entry.id Room.empty.update ∅ rooms

/-- The client after a `s2c_room_info`. -/
def showing (client : CRClient) (room : Room.Entry) (users : List User) : CRClient :=
  { client with
    mCurrentRoom := client.mCurrentRoom.update room
    mUser := client.mUser.setRoomId room.id
    mOnlines := onlinesOf users }

/-- What a client does with a message. -/
def answer (client : CRClient) : Message → Handled
  | .logonOk _ user => ({ client with mUser := user }, [])
  | .logonFailed err _ _ => (client, [.exit err])
  | .roomInfo room users _ => (showing client room users, [(showing client room users).updateWindowUserList])
  | .roomChat fromName words => (client, [.receive fromName words (fromName == client.mUserName)])
  | .createRoomRes err errstr roomName => (client, [.display (
      if err = 0 then text "create room " ++ roomName.bytes ++ text " succeed!"
      else text "create room " ++ roomName.bytes ++ text " failed! reason: " ++ errstr.bytes)])
  | .roomList rooms _ => ({ client with mRooms := roomsOf rooms }, [])
  | .joinRoomRes err errstr roomName => (client, [.display (
      if err ≠ 0 then text "join room " ++ roomName.bytes ++ text " failed: " ++ errstr.bytes
      else text "join room " ++ roomName.bytes ++ text " success!")])
  | .whisper fromName words =>
      (client, [.display (text "recv whisper fr " ++ fromName.bytes ++ text ": " ++ words.bytes)])
  | .whisperFailed toName reason => (client,
      [.display (text "send whisper to " ++ toName.bytes ++ text " failed, reason: " ++ reason.bytes)])
  | .localWhisper toName words => (client,
      [.display (text "send whisper to " ++ toName.bytes ++ text ": " ++ words.bytes),
        .send [MsgType.c2sWhisperMsg.field, .str toName, .str words]])
  | .bare code _ =>
    match MsgType.ofCode code with
    | some .localListRoom => client.showRoomList
    | some .localLeaveRoom => client.handleLeaveRoom
    | _ => (client, [])

/-! ### The handlers that loop -/

variable {client : CRClient} {fields rest : List Field}

private theorem count_of_length {items : List α} (short : items.length < 2 ^ 32) :
    (UInt32.ofNat items.length).toNat = items.length := by
  rw [UInt32.toNat_ofNat', Nat.mod_eq_of_lt short]

private theorem decode_online_ok {before after : Std.ExtTreeMap UInt64 User} :
    (decodeOnline before).run Reader.takeValue fields = .ok (after, rest) ↔
      ∃ user : User, fields = user.encode ++ rest ∧ after = before.insertIfNew user.mID user := by
  simp only [decodeOnline, Reader.bind_eq, Reader.pure_eq, Reader.run_bind_ok, User.decode_ok,
    Reader.run_done, Except.ok.injEq, Prod.mk.injEq]
  constructor
  · rintro ⟨user, _, rfl, rfl, rfl⟩
    exact ⟨user, rfl, rfl⟩
  · rintro ⟨user, rfl, rfl⟩
    exact ⟨user, rest, rfl, rfl, rfl⟩

private theorem onlines_ok {before after : Std.ExtTreeMap UInt64 User} {count : Nat} :
    (Reader.times count decodeOnline before).run Reader.takeValue fields = .ok (after, rest) ↔
      ∃ users : List User, users.length = count ∧ fields = users.flatMap User.encode ++ rest ∧
        after = insertEach User.mID id before users :=
  Reader.run_times_ok User.encode _ fun _ _ _ _ => decode_online_ok

private theorem decode_room_ok {before after : Std.ExtTreeMap UInt32 Room} :
    (decodeRoom before).run Reader.takeValue fields = .ok (after, rest) ↔
      ∃ entry : Room.Entry, fields = entry.fields ++ rest ∧
        after = before.insertIfNew entry.id (Room.empty.update entry) := by
  simp only [decodeRoom, Reader.bind_eq, Reader.pure_eq, Reader.run_bind_ok, Room.decode_ok,
    Reader.run_done, Except.ok.injEq, Prod.mk.injEq]
  constructor
  · rintro ⟨_, _, ⟨entry, rfl, rfl⟩, rfl, rfl⟩
    exact ⟨entry, rfl, rfl⟩
  · rintro ⟨entry, rfl, rfl⟩
    exact ⟨_, rest, ⟨entry, rfl, rfl⟩, rfl, rfl⟩

private theorem rooms_ok {before after : Std.ExtTreeMap UInt32 Room} {count : Nat} :
    (Reader.times count decodeRoom before).run Reader.takeValue fields = .ok (after, rest) ↔
      ∃ rooms : List Room.Entry, rooms.length = count ∧ fields = rooms.flatMap Room.Entry.fields ++ rest ∧
        after = insertEach Room.Entry.id Room.empty.update before rooms :=
  Reader.run_times_ok Room.Entry.fields _ fun _ _ _ _ => decode_room_ok

theorem parse_room_info_ok {result : CRClient} :
    client.parseRoomInfo.run Reader.takeValue fields = .ok (result, rest) ↔
      ∃ (room : Room.Entry) (users : List User), users.length < 2 ^ 32 ∧
        fields = room.fields ++ [Field.u32 (UInt32.ofNat users.length)] ++ users.flatMap User.encode ++ rest ∧
        result = showing client room users := by
  simp only [parseRoomInfo, Reader.bind_eq, Reader.pure_eq, Reader.run_bind_ok, Room.decode_ok, read_u32_ok,
    Reader.run_done, Except.ok.injEq, Prod.mk.injEq, onlines_ok]
  constructor
  · rintro ⟨_, _, ⟨room, rfl, rfl⟩, count, _, rfl, _, _, ⟨users, size, rfl, rfl⟩, rfl, rfl⟩
    refine ⟨room, users, size ▸ count.toNat_lt, ?_, rfl⟩
    rw [size, UInt32.ofNat_toNat]
    simp only [List.append_assoc, List.cons_append, List.nil_append]
  · rintro ⟨room, users, short, rfl, rfl⟩
    exact ⟨_, _, ⟨room, by simp only [List.append_assoc]; rfl, rfl⟩, _, _, rfl, _, rest,
      ⟨users, (count_of_length short).symm, rfl, rfl⟩, rfl, rfl⟩

theorem update_room_list_ok {handled : Handled} :
    client.handleUpdateRoomList.run Reader.takeValue fields = .ok (handled, rest) ↔
      ∃ rooms : List Room.Entry, rooms.length < 2 ^ 32 ∧
        fields = Field.u32 (UInt32.ofNat rooms.length) :: rooms.flatMap Room.Entry.fields ++ rest ∧
        handled = ({ client with mRooms := roomsOf rooms }, []) := by
  simp only [handleUpdateRoomList, Reader.bind_eq, Reader.pure_eq, Reader.run_bind_ok, read_u32_ok,
    Reader.run_done, Except.ok.injEq, Prod.mk.injEq, rooms_ok]
  constructor
  · rintro ⟨count, _, rfl, _, _, ⟨rooms, size, rfl, rfl⟩, rfl, rfl⟩
    refine ⟨rooms, size ▸ count.toNat_lt, ?_, rfl⟩
    rw [size, UInt32.ofNat_toNat]
    rfl
  · rintro ⟨rooms, short, rfl, rfl⟩
    exact ⟨_, _, rfl, _, rest, ⟨rooms, (count_of_length short).symm, rfl, rfl⟩, rfl, rfl⟩

theorem logon_res_ok {handled : Handled} :
    client.handleLogonRes.run Reader.takeValue fields = .ok (handled, rest) ↔
      (∃ errstr user, fields = [Field.int 0, Field.str errstr] ++ User.encode user ++ rest ∧
        handled = ({ client with mUser := user }, [])) ∨
      ∃ err errstr, err ≠ 0 ∧ fields = [Field.int err, Field.str errstr] ++ rest ∧
        handled = (client, [.exit err]) := by
  simp only [handleLogonRes, Reader.bind_eq, Reader.pure_eq, Reader.run_bind_ok, read_int_ok, read_str_ok]
  constructor
  · rintro ⟨err, _, rfl, errstr, _, rfl, ran⟩
    split at ran
    · rename_i zero
      simp only [Reader.run_bind_ok, User.decode_ok, Reader.run_done, Except.ok.injEq, Prod.mk.injEq] at ran
      obtain ⟨user, _, rfl, rfl, rfl⟩ := ran
      exact .inl ⟨errstr, user, by rw [zero]; rfl, rfl⟩
    · rename_i nonzero
      simp only [Reader.run_done, Except.ok.injEq, Prod.mk.injEq] at ran
      obtain ⟨rfl, rfl⟩ := ran
      exact .inr ⟨err, errstr, nonzero, rfl, rfl⟩
  · rintro (⟨errstr, user, rfl, rfl⟩ | ⟨err, errstr, nonzero, rfl, rfl⟩)
    · refine ⟨0, _, rfl, errstr, _, rfl, ?_⟩
      rw [if_pos rfl, Reader.run_bind_ok]
      exact ⟨user, rest, User.decode_ok.mpr rfl, rfl⟩
    · refine ⟨err, _, rfl, errstr, rest, rfl, ?_⟩
      rw [if_neg nonzero]
      rfl

/-! ### All messages -/

private theorem room_info_ok {handled : Handled} :
    (do let client ← client.parseRoomInfo; return (client, [client.updateWindowUserList]) :
        FieldReader Handled).run Reader.takeValue fields = .ok (handled, rest) ↔
      ∃ (room : Room.Entry) (users : List User), users.length < 2 ^ 32 ∧
        fields = room.fields ++ [Field.u32 (UInt32.ofNat users.length)] ++ users.flatMap User.encode ++ rest ∧
        handled = (showing client room users, [(showing client room users).updateWindowUserList]) := by
  simp only [Reader.bind_eq, Reader.pure_eq, Reader.run_bind_ok, parse_room_info_ok, Reader.run_done,
    Except.ok.injEq, Prod.mk.injEq]
  constructor
  · rintro ⟨_, _, ⟨room, users, short, rfl, rfl⟩, rfl, rfl⟩
    exact ⟨room, users, short, rfl, rfl⟩
  · rintro ⟨room, users, short, rfl, rfl⟩
    exact ⟨_, rest, ⟨room, users, short, rfl, rfl⟩, rfl, rfl⟩

private theorem bare_ok {handled other : Handled} (code : Int32)
    (silent : MsgType.ofCode code ∉ [some .s2cLogonRes, some .s2cRoomInfo, some .s2cRoomChatMsg,
      some .s2cCreateRoomRes, some .s2cRoomList, some .s2cJoinRoomRes, some .s2cWhisperMsg,
      some .s2cWhisperMsgFailed, some .localWhisperMsg])
    (same : answer client (.bare code silent) = other)
    (ran : (return other : FieldReader Handled).run Reader.takeValue fields = .ok (handled, rest)) :
    ∃ message : Message, Field.int code :: fields = message.fields ++ rest ∧ handled = answer client message := by
  simp only [Reader.pure_eq, Reader.run_done, Except.ok.injEq, Prod.mk.injEq] at ran
  obtain ⟨rfl, rfl⟩ := ran
  exact ⟨.bare code silent, rfl, same.symm⟩

/-- `RecvMessage` goes through exactly on the values of a message. -/
theorem recv_message_ok {handled : Handled} :
    client.recvMessage.run Reader.takeValue fields = .ok (handled, rest) ↔
      ∃ message : Message, fields = message.fields ++ rest ∧ handled = answer client message := by
  simp only [recvMessage, Reader.bind_eq, Reader.run_bind_ok, read_int_ok]
  constructor
  · rintro ⟨msgType, behind, rfl, ran⟩
    split at ran
    all_goals rename_i selected
    · rw [MsgType.of_code_some selected]
      rcases logon_res_ok.mp ran with ⟨errstr, user, rfl, rfl⟩ | ⟨err, errstr, failed, rfl, rfl⟩
      · exact ⟨.logonOk errstr user, rfl, rfl⟩
      · exact ⟨.logonFailed err failed errstr, rfl, rfl⟩
    · rw [MsgType.of_code_some selected]
      obtain ⟨room, users, short, rfl, rfl⟩ := room_info_ok.mp ran
      exact ⟨.roomInfo room users short, by simp [Message.fields, MsgType.field], rfl⟩
    · rw [MsgType.of_code_some selected]
      obtain ⟨fromName, words, rfl, rfl⟩ := (two_strings_ok _).mp ran
      exact ⟨.roomChat fromName words, rfl, rfl⟩
    · exact bare_ok msgType (by simp [selected]) (by simp [answer, selected]) ran
    · rw [MsgType.of_code_some selected]
      obtain ⟨err, errstr, roomName, rfl, rfl⟩ := (error_two_strings_ok _).mp ran
      exact ⟨.createRoomRes err errstr roomName, rfl, rfl⟩
    · rw [MsgType.of_code_some selected]
      obtain ⟨rooms, short, rfl, rfl⟩ := update_room_list_ok.mp ran
      exact ⟨.roomList rooms short, by simp [Message.fields, MsgType.field], rfl⟩
    · rw [MsgType.of_code_some selected]
      obtain ⟨err, errstr, roomName, rfl, rfl⟩ := (error_two_strings_ok _).mp ran
      exact ⟨.joinRoomRes err errstr roomName, rfl, rfl⟩
    · exact bare_ok msgType (by simp [selected]) (by simp [answer, selected]) ran
    · exact bare_ok msgType (by simp [selected]) (by simp [answer, selected]) ran
    · rw [MsgType.of_code_some selected]
      obtain ⟨fromName, words, rfl, rfl⟩ := (two_strings_ok _).mp ran
      exact ⟨.whisper fromName words, rfl, rfl⟩
    · rw [MsgType.of_code_some selected]
      obtain ⟨toName, reason, rfl, rfl⟩ := (two_strings_ok _).mp ran
      exact ⟨.whisperFailed toName reason, rfl, rfl⟩
    · rw [MsgType.of_code_some selected]
      obtain ⟨toName, words, rfl, rfl⟩ := (two_strings_ok _).mp ran
      exact ⟨.localWhisper toName words, rfl, rfl⟩
    · refine bare_ok msgType (by simp_all) ?_ ran
      simp only [answer]
  · rintro ⟨message, rfl, rfl⟩
    cases message with
    | logonOk errstr user =>
      exact ⟨MsgType.s2cLogonRes.code, _, rfl, logon_res_ok.mpr (.inl ⟨errstr, user, rfl, rfl⟩)⟩
    | logonFailed err failed errstr =>
      exact ⟨MsgType.s2cLogonRes.code, _, rfl, logon_res_ok.mpr (.inr ⟨err, errstr, failed, rfl, rfl⟩)⟩
    | roomInfo room users short =>
      exact ⟨MsgType.s2cRoomInfo.code, _, by simp [Message.fields, MsgType.field]; rfl,
        room_info_ok.mpr ⟨room, users, short, by simp, rfl⟩⟩
    | roomChat fromName words =>
      exact ⟨MsgType.s2cRoomChatMsg.code, _, rfl, (two_strings_ok _).mpr ⟨fromName, words, rfl, rfl⟩⟩
    | createRoomRes err errstr roomName =>
      exact ⟨MsgType.s2cCreateRoomRes.code, _, rfl,
        (error_two_strings_ok _).mpr ⟨err, errstr, roomName, rfl, rfl⟩⟩
    | roomList rooms short =>
      exact ⟨MsgType.s2cRoomList.code, _, rfl, update_room_list_ok.mpr ⟨rooms, short, rfl, rfl⟩⟩
    | joinRoomRes err errstr roomName =>
      exact ⟨MsgType.s2cJoinRoomRes.code, _, rfl,
        (error_two_strings_ok _).mpr ⟨err, errstr, roomName, rfl, rfl⟩⟩
    | whisper fromName words =>
      exact ⟨MsgType.s2cWhisperMsg.code, _, rfl, (two_strings_ok _).mpr ⟨fromName, words, rfl, rfl⟩⟩
    | whisperFailed toName reason =>
      exact ⟨MsgType.s2cWhisperMsgFailed.code, _, rfl, (two_strings_ok _).mpr ⟨toName, reason, rfl, rfl⟩⟩
    | localWhisper toName words =>
      exact ⟨MsgType.localWhisperMsg.code, _, rfl, (two_strings_ok _).mpr ⟨toName, words, rfl, rfl⟩⟩
    | bare code silent =>
      refine ⟨code, rest, rfl, ?_⟩
      split
      case h_4 selected => simp [answer, selected]
      case h_8 selected => simp [answer, selected]
      case h_9 selected => simp [answer, selected]
      case h_13 =>
        simp only [answer]
        rfl
      all_goals
        rename_i selected
        exact absurd silent (by simp [selected])

end ChatRoom.ClientReading
