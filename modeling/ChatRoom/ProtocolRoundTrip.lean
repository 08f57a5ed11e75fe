import ChatRoom.Worker
import ChatRoom.ClientView
import ChatRoom.MsgWriting
import Mathlib.Algebra.BigOperators.Group.List.Basic

/-! From one side's `<<` to the other side's `>>`. A message that fits the page
it is written to is sent with its length in front, itself or as a copy, and
arrives as a frame; the handler for its type reads back just the values that
were written, to the last byte. -/
namespace ChatRoom.ProtocolRoundTrip
open Lib Wire RoomKeeper RoomKeeperInvariant ClientReading ClientView
open Msg (build)
open MsgBuffer (Holds)
open MsgSequence (fits_writes unread_start)
open MsgWriting (Fits set_len_frames dup_frames)

variable {host : Host} {msg : Msg} {fields : List Field} {payload : List UInt8} {roomId : UInt32} {room : Room}

/-! ### There and back -/

/-- A handler gets this result from a message with these values: it reads them
one by one and no more, and off the message that arrives, built with or without
a copy, it reads every byte of the payload. -/
structure ReadBack (host : Host) (fields : List Field) (handler : FieldReader α) (result : α) : Prop where
  values : handler.run Reader.takeValue fields = .ok (result, [])
  sent : ∃ msg copy, ∃ frame : Frame, ∃ next, build host fields = .ok msg ∧ msg.dup host = .ok copy ∧
    msg.wireBytes = frame.wire ∧ copy.wireBytes = frame.wire ∧ frame.payload = encode fields ∧
    handler.run Msg.read frame.msg = .ok (result, next) ∧ next.mReadOffset = (encode fields).length

/-- The same for a message that stays in its process and is read where it was
written. -/
structure ReadHere (host : Host) (fields : List Field) (handler : FieldReader α) (result : α) : Prop where
  values : handler.run Reader.takeValue fields = .ok (result, [])
  posted : ∃ msg next, build host fields = .ok msg ∧ handler.run Msg.read msg = .ok (result, next) ∧
    next.mReadOffset = (encode fields).length

/-- Building a message that fits. -/
theorem build_ok (fits : Fits host fields) (typed : 4 ≤ (encode fields).length) :
    ∃ msg, ∃ frame : Frame, build host fields = .ok msg ∧ Holds msg (encode fields) ∧
      msg.mData.length = host.page ∧ msg.mReadOffset = 0 ∧ frame.payload = encode fields ∧
      msg.wireBytes = frame.wire := by
  have range := host.range
  have head : HEAD_LENGTH = 8 := rfl
  unfold Fits at fits
  have size : (Msg.new host).mData.length = host.page := by simp [Msg.new]
  obtain ⟨written, wrote, holds, sameSize, sameRead⟩ : ∃ next, (Msg.new host).writes host fields = .ok next ∧
      Holds next (encode fields) ∧ next.mData.length = (Msg.new host).mData.length ∧ next.mReadOffset = 0 :=
    fits_writes .page (by omega)
  obtain ⟨msg, frame, done, held, finalSize, finalRead, payload, sent⟩ := set_len_frames holds typed (by omega)
  refine ⟨msg, frame, ?_, held, finalSize.trans (sameSize.trans size), finalRead.trans sameRead, payload, sent⟩
  rw [build, wrote]
  exact done

theorem read_back {handler : FieldReader α} {result : α} (fits : Fits host fields)
    (typed : 4 ≤ (encode fields).length) (values : handler.run Reader.takeValue fields = .ok (result, [])) :
    ReadBack host fields handler result := by
  obtain ⟨msg, frame, built, holds, _, _, payload, sent⟩ := build_ok fits typed
  obtain ⟨copy, copied, sentToo⟩ := dup_frames host (payload ▸ holds) sent
  have unread := MsgReading.unread_frame frame
  rw [payload, ← List.append_nil (encode fields)] at unread
  obtain ⟨next, ran, still⟩ := MsgReading.run_read_of_values unread values
  refine ⟨values, msg, copy, frame, next, built, copied, sent, sentToo, payload, ran, ?_⟩
  have offset := MsgReading.unread_offset still
  rw [MsgReading.run_keeps_block ran] at offset
  have size : frame.msg.mData.length = HEAD_LENGTH + (encode fields).length := by
    simp only [Frame.msg, Frame.wire, List.length_append, be_bytes_length, frame.headLength, payload, HEAD_LENGTH]
  rw [offset, size, List.length_nil]
  omega

theorem read_here {handler : FieldReader α} {result : α} (fits : Fits host fields)
    (typed : 4 ≤ (encode fields).length) (values : handler.run Reader.takeValue fields = .ok (result, [])) :
    ReadHere host fields handler result := by
  have range := host.range
  obtain ⟨msg, frame, built, holds, size, start, _, _⟩ := build_ok fits typed
  unfold Fits at fits
  obtain ⟨tail, unread⟩ := unread_start holds (by omega) start
  obtain ⟨next, ran, still⟩ := MsgReading.run_read_of_values unread values
  refine ⟨values, msg, next, built, ran, ?_⟩
  have before := MsgReading.unread_offset unread
  have after := MsgReading.unread_offset still
  rw [MsgReading.run_keeps_block ran] at after
  rw [start, List.length_append] at before
  omega

/-! ### What each side says -/

/-- The messages a client makes for the server, and what each asks for. -/
inductive Asks (client : CRClient) : List Field → Worker.Request → Prop
  | logon : Asks client client.logonFields (.logon client.mUserName)
  | chat (input : StdString) : Asks client (client.chatFields input) (.chat client.mCurrentRoom.mID input)
  | createRoom (name passwd : StdString) :
      Asks client (CRClient.createRoomFields name passwd) (.createRoom name passwd)
  | joinRoom (roomName passwd : StdString) :
      Asks client (CRClient.joinRoomFields roomName passwd) (.joinRoom roomName passwd)
  | leaveRoom (fields : List Field) (sent : Effect.send fields ∈ client.handleLeaveRoom.2) :
      Asks client fields (.joinRoom HALL_NAME (.ascii ""))
  | whisper (toName words : StdString) (fields : List Field)
      (sent : Effect.send fields ∈ (answer client (.localWhisper toName words)).2) :
      Asks client fields (.whisper toName words)

/-- The messages of fixed length that the server makes for a client, and what
each says. -/
inductive Tells : List Field → Message → Prop
  | logonOk (errstr : StdString) (user : User) :
      Tells (Worker.logonRes 0 errstr user.encode) (.logonOk errstr user)
  | logonFailed (err : Int32) (failed : err ≠ 0) (errstr : StdString) :
      Tells (Worker.logonRes err errstr []) (.logonFailed err failed errstr)
  | createRoomRes (err : Int32) (errstr roomName : StdString) :
      Tells (Worker.createRoomRes err errstr roomName) (.createRoomRes err errstr roomName)
  | joinRoomRes (err : Int32) (errstr roomName : StdString) :
      Tells (Worker.joinRoomRes err errstr roomName) (.joinRoomRes err errstr roomName)
  | roomChat (name input : StdString) : Tells (RoomKeeper.chatFields name input) (.roomChat name input)
  | whisper (name words : StdString) : Tells (Worker.whisperMsg name words) (.whisper name words)
  | whisperFailed (connId : UInt64) (toName reason : StdString) (sent : Sent)
      (member : sent ∈ Worker.sendWhisperFailed connId toName reason) :
      Tells sent.fields (.whisperFailed toName reason)

/-- The messages a client makes for itself. -/
inductive Posts (client : CRClient) : List Field → Message → Prop
  | whisper (target words : StdString) :
      Posts client (CRClient.localWhisperFields target words) (.localWhisper target words)
  | listRoom : Posts client [MsgType.localListRoom.field] (.bare MsgType.localListRoom.code (by decide))
  | leaveRoom : Posts client [MsgType.localLeaveRoom.field] (.bare MsgType.localLeaveRoom.code (by decide))

private theorem asks_fields {client : CRClient} {request : Worker.Request} (asks : Asks client fields request) :
    fields = request.fields := by
  cases asks with
  | logon | chat | createRoom | joinRoom => rfl
  | leaveRoom _ sent =>
    unfold CRClient.handleLeaveRoom at sent
    split at sent
    · cases sent
    · simp only [List.mem_singleton, Effect.send.injEq] at sent
      exact sent
  | whisper toName words _ sent =>
    simp only [answer, List.mem_cons, List.not_mem_nil, or_false, reduceCtorEq, false_or, Effect.send.injEq] at sent
    exact sent

private theorem tells_fields {message : Message} (tells : Tells fields message) : fields = message.fields := by
  cases tells with
  | logonOk | logonFailed | createRoomRes | joinRoomRes | roomChat | whisper => rfl
  | whisperFailed connId toName reason sent member =>
    simp only [Worker.sendWhisperFailed, List.mem_singleton] at member
    rw [member]
    rfl

private theorem posts_fields {client : CRClient} {message : Message} (posts : Posts client fields message) :
    fields = message.fields := by
  cases posts <;> rfl

private theorem message_typed (message : Message) : 4 ≤ (encode message.fields).length := by
  cases message <;> exact at_least_type _ _

theorem request_read_back (request : Worker.Request) (fits : Fits host request.fields) (ip : StdString)
    (port : UInt16) (connId : UInt64) :
    ReadBack host request.fields (Worker.recvMessage ip port connId) (Worker.serve ip port connId request) :=
  read_back fits request.at_least
    ((Worker.recv_message_ok ip port connId).mpr ⟨request, (List.append_nil _).symm, rfl⟩)

private theorem message_values (client : CRClient) (message : Message) :
    client.recvMessage.run Reader.takeValue message.fields = .ok (answer client message, []) :=
  recv_message_ok.mpr ⟨message, (List.append_nil _).symm, rfl⟩

theorem message_read_back (client : CRClient) (message : Message) (fits : Fits host message.fields) :
    ReadBack host message.fields client.recvMessage (answer client message) :=
  read_back fits (message_typed message) (message_values client message)

theorem message_read_here (client : CRClient) (message : Message) (fits : Fits host message.fields) :
    ReadHere host message.fields client.recvMessage (answer client message) :=
  read_here fits (message_typed message) (message_values client message)

/-! ### Rooms and lists of rooms -/

private theorem fields_le_bytes (fields : List Field) : fields.length ≤ (encode fields).length := by
  induction fields with
  | nil => rfl
  | cons field fields ih =>
    have one : 1 ≤ (encodeField field.1 field.2).length := by
      obtain ⟨kind, value⟩ := field
      cases kind <;> simp only [encodeField, List.length_append, be_bytes_length] <;> omega
    rw [List.length_cons]
    change fields.length + 1 ≤ (encodeField field.1 field.2 ++ encode fields).length
    rw [List.length_append]
    omega

/-- A message that fits has fewer values than an `int` can count. -/
private theorem fits_count (fits : Fits host fields) : fields.length < 2 ^ 32 := by
  have range := host.range
  have enough := fields_le_bytes fields
  unfold Fits at fits
  omega

/-- A client that has just started gets the room it is told about, with every
member and every member's record. -/
private theorem room_info_read_back {keeper : RoomKeeper} (inv : RoomKeeperInvariant.Inv keeper)
    (stored : keeper.mIdRoom[roomId]? = some room) (fits : Fits host (announced keeper room)) (name : StdString) :
    ∃ view, ReadBack host (announced keeper room) (CRClient.new name).recvMessage (view, [view.updateWindowUserList]) ∧
      view.mCurrentRoom.mID = room.mID ∧ view.mCurrentRoom.mName = room.mName ∧
      view.mCurrentRoom.mUsers = room.mUsers ∧ ∀ userId : UInt64, view.mOnlines[userId]? =
        if userId ∈ room.mUsers then keeper.mIdUser[userId]? else none := by
  have few : room.mUsers.size < 2 ^ 32 := by
    have count := fits_count fits
    simp only [announced, infoFields, Room.encode, Room.getAllUsers, List.length_cons, List.length_append,
      List.length_map, Std.ExtTreeSet.length_toList] at count
    omega
  obtain ⟨short, fields⟩ := announced_fields inv stored few
  refine ⟨showing (.new name) (room.entry few) (usersOf keeper room), ?_, rfl, rfl, ?_, onlines_of_room inv room⟩
  · rw [fields] at fits ⊢
    exact message_read_back _ _ fits
  · exact foldl_insert_to_list room.mUsers

/-- A client gets every room it is told about, under its id, with its name and
its members. -/
private theorem room_list_read_back {keeper : RoomKeeper} (inv : RoomKeeperInvariant.Inv keeper)
    (fits : Fits host (listFields (valuesOf keeper.mIdRoom))) (client : CRClient) :
    ∃ view, ReadBack host (listFields (valuesOf keeper.mIdRoom)) client.recvMessage (view, []) ∧
      ∀ roomId : UInt32, (view.mRooms[roomId]?.map fun room => (room.mName, room.mUsers)) =
        keeper.mIdRoom[roomId]?.map fun room => (room.mName, room.mUsers) := by
  have count := fits_count fits
  have few : ∀ room ∈ valuesOf keeper.mIdRoom, room.mUsers.size < 2 ^ 32 := by
    intro room member
    have part : room.encode.length ≤ ((valuesOf keeper.mIdRoom).flatMap Room.encode).length := by
      obtain ⟨before, after, split⟩ := List.append_of_mem member
      rw [split, List.flatMap_append, List.flatMap_cons, List.length_append, List.length_append]
      omega
    simp only [listFields, List.length_cons] at count
    simp only [Room.encode, Room.getAllUsers, List.length_append, List.length_map,
      Std.ExtTreeSet.length_toList] at part
    omega
  have rooms : keeper.mIdRoom.size < 2 ^ 32 := by
    have size := length_values_of keeper.mIdRoom
    have enough : (valuesOf keeper.mIdRoom).length ≤ ((valuesOf keeper.mIdRoom).flatMap Room.encode).length := by
      have each : ∀ count ∈ (valuesOf keeper.mIdRoom).map fun room => room.encode.length, 1 ≤ count := by
        intro count member
        obtain ⟨room, _, rfl⟩ := List.mem_map.mp member
        simp [Room.encode]
      rw [List.length_flatMap]
      simpa using List.length_le_sum_of_one_le _ each
    simp only [listFields, List.length_cons] at count
    omega
  obtain ⟨entries, short, same, found⟩ := listed_fields inv rooms few
  refine ⟨{ client with mRooms := roomsOf entries }, ?_, fun roomId => ?_⟩
  · rw [same] at fits ⊢
    exact message_read_back client _ fits
  · simp only [found]
    cases keeper.mIdRoom[roomId]? <;> rfl

/-! ### The whole protocol -/

/-- Every message that fits its page is read back by the other side: what a
client asks for, what the server answers, what a client posts to itself, what
the server tells about any room in any state it can be in, and what it tells
about all rooms. -/
theorem every_message_is_read_back (host : Host) :
    (∀ client fields request, Asks client fields request → Fits host fields → ∀ ip port connId,
      ReadBack host fields (Worker.recvMessage ip port connId) (Worker.serve ip port connId request)) ∧
    (∀ fields message, Tells fields message → Fits host fields → ∀ client : CRClient,
      ReadBack host fields client.recvMessage (answer client message)) ∧
    (∀ client fields message, Posts client fields message → Fits host fields →
      ReadHere host fields client.recvMessage (answer client message)) ∧
    ∀ keeper : RoomKeeper, RoomKeeperInvariant.Inv keeper →
      (∀ (roomId : UInt32) (room : Room), keeper.mIdRoom[roomId]? = some room →
        ∃ fields, keeper.getRoomInfoMsg roomId = .ok fields ∧ (Fits host fields → ∀ name, ∃ view,
          ReadBack host fields (CRClient.new name).recvMessage (view, [view.updateWindowUserList]) ∧
          view.mCurrentRoom.mID = room.mID ∧ view.mCurrentRoom.mName = room.mName ∧
          view.mCurrentRoom.mUsers = room.mUsers ∧ ∀ userId : UInt64, view.mOnlines[userId]? =
            if userId ∈ room.mUsers then keeper.mIdUser[userId]? else none)) ∧
      ∀ connId, ∀ sent ∈ keeper.publishRoomList connId, Fits host sent.fields → ∀ client : CRClient, ∃ view,
        ReadBack host sent.fields client.recvMessage (view, []) ∧
        ∀ roomId : UInt32, (view.mRooms[roomId]?.map fun room => (room.mName, room.mUsers)) =
          keeper.mIdRoom[roomId]?.map fun room => (room.mName, room.mUsers) := by
  refine ⟨?_, ?_, ?_, fun keeper inv => ⟨?_, ?_⟩⟩
  · intro client fields request asks fits ip port connId
    obtain rfl := asks_fields asks
    exact request_read_back request fits ip port connId
  · intro fields message tells fits client
    obtain rfl := tells_fields tells
    exact message_read_back client message fits
  · intro client fields message posts fits
    obtain rfl := posts_fields posts
    exact message_read_here client message fits
  · intro roomId room stored
    exact ⟨_, get_room_info_ok stored fun userId inside => inv.online stored inside,
      fun fits name => room_info_read_back inv stored fits name⟩
  · intro connId sent member fits client
    have fields : sent.fields = listFields (valuesOf keeper.mIdRoom) := by
      unfold publishRoomList at member
      split at member
      · rw [List.mem_singleton] at member
        rw [member]
      · obtain ⟨user, _, rfl⟩ := List.mem_map.mp member
        rfl
    rw [fields] at fits ⊢
    exact room_list_read_back inv fits client

/-- Ann and Bob log on, and a second room is made. -/
private def company : List RoomKeeper.Request :=
  [.logon (.ascii "ann") (.ascii "10.0.0.1") 4000 1, .logon (.ascii "bob") (.ascii "10.0.0.2") 4001 2,
    .create (.ascii "den") (.ascii "key")]

private theorem company_comes :
    ∃ keeper outcomes hall info, run RoomKeeper.step RoomKeeper.new company = .ok (keeper, outcomes) ∧
      keeper.mIdRoom[(0 : UInt32)]? = some hall ∧ hall.getAllUsers = [1, 2] ∧ keeper.getRoomInfoMsg 0 = .ok info ∧
      Fits .usual info ∧ keeper.mIdRoom.size = 2 ∧ Fits .usual (listFields (valuesOf keeper.mIdRoom)) := by
  have found : ((run RoomKeeper.step RoomKeeper.new company).toOption.map fun reply =>
      (reply.1.mIdRoom[(0 : UInt32)]?.map Room.getAllUsers,
        (reply.1.getRoomInfoMsg 0).toOption.map fun info => decide (Fits .usual info),
        reply.1.mIdRoom.size, decide (Fits .usual (listFields (valuesOf reply.1.mIdRoom))))) =
      some (some [1, 2], some true, 2, true) := by
    decide +kernel
  obtain ⟨⟨keeper, outcomes⟩, ran, all⟩ := Option.map_eq_some_iff.mp found
  simp only [Prod.mk.injEq, Option.map_eq_some_iff, decide_eq_true_iff] at all
  obtain ⟨⟨hall, stored, members⟩, ⟨info, told, fits⟩, size, list⟩ := all
  exact ⟨keeper, outcomes, hall, info, ok_of_option ran, stored, members, ok_of_option told, fits, size, list⟩

/-- Ann's logon, what Bob is answered, and what both are told of the hall, in which they
are, and of the two rooms. -/
theorem ann_and_bob_are_read_back :
    ∃ keeper outcomes info, run RoomKeeper.step RoomKeeper.new company = .ok (keeper, outcomes) ∧
      ReadBack .usual (CRClient.new (.ascii "ann")).logonFields (Worker.recvMessage (.ascii "10.0.0.1") 4000 1)
        (Worker.serveLogon (.ascii "ann") (.ascii "10.0.0.1") 4000 1) ∧
      (∃ view, ReadBack .usual (Worker.logonRes 0 (.ascii "") (User.new (.ascii "bob") (.ascii "10.0.0.2") 4001 2).encode)
        (CRClient.new (.ascii "bob")).recvMessage view) ∧
      keeper.getRoomInfoMsg 0 = .ok info ∧
      (∃ view, ReadBack .usual info (CRClient.new (.ascii "ann")).recvMessage (view, [view.updateWindowUserList]) ∧
        view.mCurrentRoom.getAllUsers = [1, 2]) ∧
      ∃ view, ReadBack .usual (listFields (valuesOf keeper.mIdRoom)) (CRClient.new (.ascii "ann")).recvMessage (view, []) ∧
        view.mRooms[(1 : UInt32)]?.map Room.mName = keeper.mIdRoom[(1 : UInt32)]?.map Room.mName := by
  obtain ⟨keeper, outcomes, hall, info, ran, stored, members, told, fits, _, listFits⟩ := company_comes
  have inv := (run_up_to_date ran).1
  obtain ⟨requests, replies, _, rooms⟩ := every_message_is_read_back .usual
  obtain ⟨infos, lists⟩ := rooms keeper inv
  refine ⟨keeper, outcomes, info, ran, requests _ _ _ .logon (by decide) _ _ _,
    ⟨_, replies _ _ (.logonOk (.ascii "") (.new (.ascii "bob") (.ascii "10.0.0.2") 4001 2)) (by decide) _⟩, told, ?_, ?_⟩
  · obtain ⟨fields, same, shown⟩ := infos 0 hall stored
    cases told.symm.trans same
    obtain ⟨view, back, _, _, users, _⟩ := shown fits (.ascii "ann")
    exact ⟨view, back, by rw [Room.getAllUsers, users]; exact members⟩
  · have sent : ⟨1, listFields (valuesOf keeper.mIdRoom)⟩ ∈ keeper.publishRoomList 1 := List.mem_singleton.mpr rfl
    obtain ⟨view, back, same⟩ := lists 1 _ sent listFits (.new (.ascii "ann"))
    have den := congrArg (Option.map Prod.fst) (same 1)
    simp only [Option.map_map] at den
    exact ⟨view, back, den⟩

end ChatRoom.ProtocolRoundTrip
