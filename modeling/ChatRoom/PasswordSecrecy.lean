import ChatRoom.RoomCounts
import Mathlib.Data.List.Forall2

/-! Nothing that the server sends depends on the password of a room that nobody
asks to join. With that password crossed out, every handler does the same, and writes the
same messages: whatever `malloc` has left in their blocks, the same bytes are written. -/
namespace ChatRoom.PasswordSecrecy
open Lib Wire RoomKeeper RoomKeeperInvariant PagedRefinement
open MsgWriting (SameWritten sentBytes same_written_sent)
open RoomCounts (Holds take_holds holds_new)

variable {host hostToo : Host} {keeper other next : RoomKeeper} {name : StdString} {roomId : UInt32} {userId : UInt64}

/-- A room of this name with its password crossed out; any other room as it is. -/
def crossOut (name : StdString) (room : Room) : Room :=
  if room.mName = name then { room with mPassWord := .ascii "" } else room

/-- The state without the password of the room of this name. -/
def hidden (name : StdString) (keeper : RoomKeeper) : RoomKeeper :=
  { keeper with mIdRoom := keeper.mIdRoom.map fun _ => crossOut name }

/-- Two states are equal but for the password of the room of this name. -/
def SameButPassword (name : StdString) (first second : RoomKeeper) : Prop := hidden name first = hidden name second

@[simp] theorem cross_out_id (room : Room) : (crossOut name room).mID = room.mID := by
  unfold crossOut
  split <;> rfl

@[simp] theorem cross_out_name (room : Room) : (crossOut name room).mName = room.mName := by
  unfold crossOut
  split <;> rfl

@[simp] theorem cross_out_users (room : Room) : (crossOut name room).mUsers = room.mUsers := by
  unfold crossOut
  split <;> rfl

@[simp] theorem cross_out_encode (room : Room) : (crossOut name room).encode = room.encode := by
  simp [Room.encode, Room.getAllUsers]

theorem cross_out_other {room : Room} (other : room.mName ≠ name) : crossOut name room = room := if_neg other

theorem cross_out_leave (room : Room) (userId : UInt64) :
    (crossOut name room).handleUserLeave userId = crossOut name (room.handleUserLeave userId) := by
  simp only [Room.handleUserLeave, Room.isUserIn, cross_out_users]
  unfold crossOut
  split <;> split <;> simp_all

/-! ### The operations on a hidden state -/

theorem hidden_lookup (roomId : UInt32) :
    (hidden name keeper).mIdRoom[roomId]? = (keeper.mIdRoom[roomId]?).map (crossOut name) :=
  Std.ExtTreeMap.getElem?_map

theorem hidden_get_room (roomId : UInt32) :
    (hidden name keeper).getRoomById roomId = (keeper.getRoomById roomId).map (crossOut name) := by
  unfold getRoomById
  rw [hidden_lookup]
  cases keeper.mIdRoom[roomId]? <;> rfl

theorem hidden_set_room (roomId : UInt32) (room : Room) :
    (hidden name keeper).setRoom roomId (crossOut name room) = hidden name (keeper.setRoom roomId room) := by
  have rooms : (hidden name keeper).mIdRoom.insert roomId (crossOut name room) =
      (keeper.mIdRoom.insert roomId room).map fun _ => crossOut name := by
    refine Std.ExtTreeMap.ext_getElem? fun probe => ?_
    rw [Std.ExtTreeMap.getElem?_map, Std.ExtTreeMap.getElem?_insert, Std.ExtTreeMap.getElem?_insert, hidden_lookup]
    split <;> rfl
  simp only [setRoom, rooms]
  rfl

theorem hidden_publish_info (room : Room) :
    (hidden name keeper).publishRoomInfo (crossOut name room) = keeper.publishRoomInfo room := by
  simp only [publishRoomInfo, getRoomInfoMsg, hidden_get_room, cross_out_id, Room.getAllUsers, cross_out_users]
  cases keeper.getRoomById room.mID with
  | error fault => rfl
  | ok stored =>
    simp only [Except.map, ok_then, cross_out_users, infoFields, cross_out_encode]
    rfl

theorem hidden_set_user_room (userId : UInt64) (roomId : UInt32) :
    (hidden name keeper).setUserRoomId userId roomId = (keeper.setUserRoomId userId roomId).map (hidden name) := by
  simp only [setUserRoomId]
  change (keeper.getUserById userId >>= _) = _
  cases keeper.getUserById userId <;> rfl

theorem hidden_list_fields (name : StdString) (keeper : RoomKeeper) :
    listFields (valuesOf (hidden name keeper).mIdRoom) = listFields (valuesOf keeper.mIdRoom) := by
  have rooms : valuesOf (hidden name keeper).mIdRoom = (valuesOf keeper.mIdRoom).map (crossOut name) := by
    simp only [valuesOf, hidden, Std.ExtTreeMap.toList_map, List.map_map]
    rfl
  simp only [rooms, listFields, List.length_map, List.flatMap_map, cross_out_encode]

theorem hidden_publish_list (connId : UInt64) :
    (hidden name keeper).publishRoomList connId = keeper.publishRoomList connId := by
  simp only [publishRoomList, hidden_list_fields]
  rfl

/-- What an operation would do if it did not know the password. -/
def blindly (name : StdString) (outcome : Outcome) : Outcome := { outcome with keeper := hidden name outcome.keeper }

theorem hidden_join_room (roomName : StdString) (userId : UInt64) (passwd : StdString)
    (other : ∀ (roomId : UInt32) (room : Room), keeper.mRoomNames[roomName]? = some roomId →
      keeper.mIdRoom[roomId]? = some room → room.mName ≠ name) :
    (hidden name keeper).joinRoom roomName userId passwd =
      (keeper.joinRoom roomName userId passwd).map (blindly name) := by
  have names : (hidden name keeper).mRoomNames = keeper.mRoomNames := rfl
  simp only [joinRoom, names]
  cases named : keeper.mRoomNames[roomName]? with
  | none => rfl
  | some roomId =>
    simp only [hidden_get_room]
    cases stored : keeper.mIdRoom[roomId]? with
    | none => simp [getRoomById, stored, Except.map]
    | some room =>
      simp only [get_room_by_id_ok.mpr stored, Except.map, ok_then, cross_out_other (other roomId room named stored)]
      by_cases okay : room.isPasswdOkay passwd
      · by_cases inside : room.isUserIn userId
        · simp only [okay, inside, not_true_eq_false, if_true, if_false]
          rfl
        · have shown : crossOut name (room.add userId) = room.add userId :=
            cross_out_other (by rw [Room.add_name]; exact other roomId room named stored)
          simp only [okay, inside, not_true_eq_false]
          rw [← shown, hidden_set_room, hidden_set_user_room, shown]
          cases (keeper.setRoom roomId (room.add userId)).setUserRoomId userId roomId with
          | error fault => rfl
          | ok entered =>
            simp only [Except.map, ok_then]
            rw [← shown, hidden_publish_info, shown]
            cases entered.publishRoomInfo (room.add userId) <;> rfl
      · simp only [okay]
        rfl

theorem hidden_leave_room (roomName : StdString) (userId : UInt64) :
    (hidden name keeper).leaveRoom roomName userId = (keeper.leaveRoom roomName userId).map (blindly name) := by
  have names : (hidden name keeper).mRoomNames = keeper.mRoomNames := rfl
  simp only [leaveRoom, names]
  cases keeper.mRoomNames[roomName]? with
  | none => rfl
  | some roomId =>
    simp only [hidden_get_room]
    cases keeper.getRoomById roomId with
    | error fault => rfl
    | ok room =>
      simp only [Except.map, ok_then]
      rw [cross_out_leave, hidden_set_room, hidden_publish_info]
      cases (keeper.setRoom roomId (room.handleUserLeave userId)).publishRoomInfo (room.handleUserLeave userId) <;> rfl

theorem hidden_logon (numbered : Numbered keeper count) (notHall : name ≠ HALL_NAME) (user ip : StdString)
    (port : UInt16) (userId : UInt64) :
    (hidden name keeper).handleLogon user ip port userId =
      (keeper.handleLogon user ip port userId).map (blindly name) := by
  have users : (hidden name keeper).mIdUser = keeper.mIdUser := rfl
  have names : (hidden name keeper).mUserNames = keeper.mUserNames := rfl
  simp only [handleLogon, users, names]
  by_cases logged : keeper.mIdUser.contains userId = true
  · simp only [logged, if_true]
    rfl
  · by_cases taken : keeper.mUserNames.contains user = true
    · simp only [logged, taken, if_true]
      rfl
    · simp only [logged, taken]
      have joined : (hidden name (registered keeper (.new user ip port userId))).joinRoom HALL_NAME userId (.ascii "") =
          ((registered keeper (.new user ip port userId)).joinRoom HALL_NAME userId (.ascii "")).map (blindly name) :=
        hidden_join_room HALL_NAME userId (.ascii "") fun roomId room named stored => by
          rw [numbered.named named stored]
          exact Ne.symm notHall
      change ((hidden name (registered keeper (.new user ip port userId))).joinRoom HALL_NAME userId (.ascii "") >>= _) =
        Except.map _ ((registered keeper (.new user ip port userId)).joinRoom HALL_NAME userId (.ascii "") >>= _)
      rw [joined]
      cases (registered keeper (.new user ip port userId)).joinRoom HALL_NAME userId (.ascii "") with
      | error fault => rfl
      | ok outcome =>
        simp only [Except.map, ok_then, blindly]
        split <;> rfl

theorem hidden_join (numbered : Numbered keeper count) (roomName passwd : StdString) (other : roomName ≠ name)
    (userId : UInt64) :
    (hidden name keeper).handleJoinRoom roomName passwd userId =
      (keeper.handleJoinRoom roomName passwd userId).map (blindly name) := by
  have users : (hidden name keeper).mIdUser = keeper.mIdUser := rfl
  simp only [handleJoinRoom, users]
  cases keeper.mIdUser[userId]? with
  | none => rfl
  | some user =>
    simp only [hidden_get_room]
    cases keeper.getRoomById user.mRoomId with
    | error fault => rfl
    | ok oldRoom =>
      simp only [Except.map, ok_then]
      rw [hidden_join_room roomName userId passwd fun roomId room named stored => by
        rw [numbered.named named stored]
        exact other]
      cases keeper.joinRoom roomName userId passwd with
      | error fault => rfl
      | ok joined =>
        simp only [Except.map, ok_then, blindly, cross_out_name]
        split
        · rfl
        · rw [hidden_leave_room]
          cases joined.keeper.leaveRoom oldRoom.mName userId with
          | error fault => rfl
          | ok left =>
            simp only [Except.map, ok_then, blindly]
            split <;> rfl

theorem hidden_drop (userId : UInt64) :
    (hidden name keeper).handleDrop userId = (keeper.handleDrop userId).map (blindly name) := by
  have users : (hidden name keeper).mIdUser = keeper.mIdUser := rfl
  simp only [handleDrop, users]
  cases keeper.mIdUser[userId]? with
  | none => rfl
  | some user =>
    simp only [hidden_get_room]
    cases keeper.getRoomById user.mRoomId with
    | error fault => rfl
    | ok room =>
      simp only [Except.map, ok_then, cross_out_leave, hidden_set_room]
      have blind : ∀ keeper : RoomKeeper,
          (hidden name keeper).publishRoomInfo (crossOut name (room.handleUserLeave userId)) =
          keeper.publishRoomInfo (room.handleUserLeave userId) := fun _ => hidden_publish_info _
      have published := blind { keeper.setRoom user.mRoomId (room.handleUserLeave userId) with
        mUserNames := keeper.mUserNames.erase user.mName, mIdUser := keeper.mIdUser.erase userId }
      simp only [hidden] at published ⊢
      rw [published]
      cases publishRoomInfo { keeper.setRoom user.mRoomId (room.handleUserLeave userId) with
        mUserNames := keeper.mUserNames.erase user.mName, mIdUser := keeper.mIdUser.erase userId }
          (room.handleUserLeave userId) <;> rfl

theorem hidden_publish_message (roomId : UInt32) (userId : UInt64) (input : StdString) :
    (hidden name keeper).publishRoomMessage roomId userId input = keeper.publishRoomMessage roomId userId input := by
  have users : (hidden name keeper).getUserById = keeper.getUserById := rfl
  simp only [publishRoomMessage, users, hidden_get_room]
  cases keeper.getUserById userId with
  | error fault => rfl
  | ok user =>
    cases keeper.getRoomById roomId with
    | error fault => rfl
    | ok room => simp only [Except.map, ok_then, Room.getAllUsers, cross_out_users]

theorem hidden_created (keeper : RoomKeeper) (roomName passwd : StdString) :
    hidden name (created keeper roomName passwd) = { hidden name keeper with
      mRoomNames := keeper.mRoomNames.insertIfNew roomName keeper.mRoomId
      mIdRoom := (hidden name keeper).mIdRoom.insertIfNew keeper.mRoomId
        (crossOut name (.new keeper.mRoomId roomName passwd))
      mRoomId := keeper.mRoomId + 1 } := by
  have rooms : (hidden name (created keeper roomName passwd)).mIdRoom = (hidden name keeper).mIdRoom.insertIfNew
      keeper.mRoomId (crossOut name (.new keeper.mRoomId roomName passwd)) := by
    refine Std.ExtTreeMap.ext_getElem? fun probe => ?_
    have inside : keeper.mRoomId ∈ (hidden name keeper).mIdRoom ↔ keeper.mRoomId ∈ keeper.mIdRoom :=
      Std.ExtTreeMap.mem_map
    rw [hidden_lookup, created_room, Std.ExtTreeMap.getElem?_insertIfNew, hidden_lookup]
    simp only [inside, Std.LawfulEqCmp.compare_eq_iff_eq]
    split <;> rfl
  rw [← rooms]
  rfl

theorem hidden_created_alike (roomName first second : StdString) (words : roomName ≠ name → first = second)
    (same : SameButPassword name keeper other) :
    hidden name (created keeper roomName first) = hidden name (created other roomName second) := by
  have states : hidden name keeper = hidden name other := same
  have names : keeper.mRoomNames = other.mRoomNames :=
    show (hidden name keeper).mRoomNames = (hidden name other).mRoomNames by rw [states]
  have counter : keeper.mRoomId = other.mRoomId :=
    show (hidden name keeper).mRoomId = (hidden name other).mRoomId by rw [states]
  have shown : crossOut name (.new keeper.mRoomId roomName first) = crossOut name (.new other.mRoomId roomName second) := by
    rw [counter]
    by_cases here : roomName = name
    · simp [crossOut, Room.new, here]
    · rw [words here]
  rw [hidden_created, hidden_created, shown, states, names, counter]

/-- A room is created in the same way, whatever its password and that of the
room to be hidden. -/
theorem hidden_create (roomName first second : StdString) (words : roomName ≠ name → first = second)
    (same : SameButPassword name keeper other) :
    blindly name (keeper.createRoom roomName first) = blindly name (other.createRoom roomName second) := by
  have states : hidden name keeper = hidden name other := same
  have names : keeper.mRoomNames = other.mRoomNames :=
    show (hidden name keeper).mRoomNames = (hidden name other).mRoomNames by rw [states]
  by_cases taken : keeper.mRoomNames.contains roomName = true
  · have takenToo : other.mRoomNames.contains roomName = true := names ▸ taken
    rw [createRoom, createRoom, if_pos taken, if_pos takenToo, blindly, blindly, failed, failed, states]
  · have freeToo : ¬ other.mRoomNames.contains roomName = true := names ▸ taken
    have after := hidden_created_alike roomName first second words same
    rw [createRoom, createRoom, if_neg taken, if_neg freeToo]
    exact congrArg (fun state => (⟨0, .ascii "", state, []⟩ : Outcome)) after

/-! ### Requests -/

/-- A request to join the room of this name. -/
def asksToJoin (name : StdString) : Worker.Event → Prop
  | .recv _ (.joinRoom roomName _) _ => roomName = name
  | _ => False

/-- The same request or drop, or two requests to create the room of this name. -/
inductive Alike (name : StdString) : Worker.Event → Worker.Event → Prop where
  | same (event : Worker.Event) : Alike name event event
  | create (first second : Worker.Delivery) (sender : first.connId = second.connId) (passwd passwdToo : StdString)
      (encoded : encode (Worker.Request.createRoom name passwd).fields <+: first.frame.payload)
      (encodedToo : encode (Worker.Request.createRoom name passwdToo).fields <+: second.frame.payload) :
      Alike name (.recv first (.createRoom name passwd) encoded) (.recv second (.createRoom name passwdToo) encodedToo)

/-- A reply, with the password crossed out of the state behind it. -/
def replyHidden (name : StdString) (reply : RoomKeeper × List Sent) : RoomKeeper × List Sent :=
  (hidden name reply.1, reply.2)

private theorem hidden_serve (numbered : Numbered keeper count) (notHall : name ≠ HALL_NAME) (ip : StdString)
    (port : UInt16) (connId : UInt64) (request : Worker.Request)
    (creates : ∀ roomName passwd, request ≠ .createRoom roomName passwd)
    (joins : ∀ passwd, request ≠ .joinRoom name passwd) :
    Worker.serve ip port connId request (hidden name keeper) =
      (Worker.serve ip port connId request keeper).map (replyHidden name) := by
  cases request with
  | logon user =>
    simp only [Worker.serve, Worker.serveLogon, hidden_logon numbered notHall]
    cases keeper.handleLogon user ip port connId with
    | error fault => rfl
    | ok outcome =>
      have returned : Worker.returnedUser (hidden name outcome.keeper) outcome.err connId =
        Worker.returnedUser outcome.keeper outcome.err connId := rfl
      simp only [Except.map, ok_then, blindly, returned, hidden_publish_list]
      cases Worker.returnedUser outcome.keeper outcome.err connId <;> rfl
  | chat roomId input =>
    simp only [Worker.serve, Worker.serveChat, hidden_publish_message]
    cases keeper.publishRoomMessage roomId connId input <;> rfl
  | createRoom roomName passwd => exact absurd rfl (creates roomName passwd)
  | joinRoom roomName passwd =>
    have other : roomName ≠ name := by
      rintro rfl
      exact joins passwd rfl
    simp only [Worker.serve, Worker.serveJoinRoom, hidden_join numbered roomName passwd other]
    cases keeper.handleJoinRoom roomName passwd connId <;> rfl
  | whisper toName words =>
    have users : (hidden name keeper).getUserById = keeper.getUserById := rfl
    have named : (hidden name keeper).getUserByName = keeper.getUserByName := rfl
    simp only [Worker.serve, Worker.serveWhisper, users, named]
    cases keeper.getUserById connId with
    | error fault => rfl
    | ok user => cases keeper.getUserByName toName <;> rfl
  | other code unknown => rfl

/-- Everything but the creation of a room is done without knowing the password. -/
private theorem hidden_step (numbered : Numbered keeper count) (notHall : name ≠ HALL_NAME) (event : Worker.Event)
    (creates : ∀ delivery roomName passwd encoded, event ≠ .recv delivery (.createRoom roomName passwd) encoded)
    (unjoined : ¬ asksToJoin name event) :
    Worker.step (hidden name keeper) event = (Worker.step keeper event).map (replyHidden name) := by
  cases event with
  | recv delivery request encoded =>
    simp only [Worker.step, Worker.receive_request _ delivery request encoded]
    refine hidden_serve numbered notHall _ _ _ request ?_ ?_
    · rintro roomName passwd rfl
      exact creates delivery roomName passwd encoded rfl
    · rintro passwd rfl
      exact unjoined rfl
  | drop connId =>
    simp only [Worker.step, Worker.drop, hidden_drop]
    cases keeper.handleDrop connId <;> rfl

private theorem serve_create_alike (roomName first second : StdString) (words : roomName ≠ name → first = second)
    (same : SameButPassword name keeper other) (connId : UInt64) :
    ∃ next after sent, Worker.serveCreateRoom roomName first connId keeper = .ok (next, sent) ∧
      Worker.serveCreateRoom roomName second connId other = .ok (after, sent) ∧ SameButPassword name next after := by
  have done := hidden_create roomName first second words same
  simp only [blindly, Outcome.mk.injEq] at done
  obtain ⟨err, errstr, states, sent⟩ := done
  have list : (keeper.createRoom roomName first).keeper.publishRoomList 0 =
      (other.createRoom roomName second).keeper.publishRoomList 0 := by
    have blind : ∀ keeper : RoomKeeper, (hidden name keeper).publishRoomList 0 = keeper.publishRoomList 0 :=
      fun _ => hidden_publish_list 0
    rw [← blind, states, blind]
  refine ⟨_, _, _, rfl, ?_, states⟩
  simp only [Worker.serveCreateRoom, err, errstr, sent, list]

/-- In states that differ in the password only, like requests have the same
answers and leave states that differ in the password only. -/
theorem step_alike {countToo : Nat} (numbered : Numbered keeper count) (numberedToo : Numbered other countToo)
    (notHall : name ≠ HALL_NAME)
    (same : SameButPassword name keeper other) (alike : Alike name event another) (unjoined : ¬ asksToJoin name event)
    (taken : Worker.step keeper event = .ok (next, sent)) :
    ∃ after, Worker.step other another = .ok (after, sent) ∧ SameButPassword name next after := by
  cases alike with
  | same =>
    by_cases creates : ∃ delivery roomName passwd encoded, event = .recv delivery (.createRoom roomName passwd) encoded
    · obtain ⟨delivery, roomName, passwd, encoded, rfl⟩ := creates
      obtain ⟨reached, after, replies, served, servedToo, states⟩ :=
        serve_create_alike roomName passwd passwd (fun _ => rfl) same delivery.connId
      rw [Worker.step, Worker.receive_request _ _ _ encoded] at taken ⊢
      cases served.symm.trans taken
      exact ⟨after, servedToo, states⟩
    · simp only [not_exists] at creates
      have first := hidden_step numbered notHall event creates unjoined
      have second := hidden_step numberedToo notHall event creates unjoined
      have states : hidden name keeper = hidden name other := same
      rw [← states, first, taken] at second
      cases answered : Worker.step other event with
      | error fault =>
        rw [answered] at second
        cases second
      | ok reply =>
        rw [answered] at second
        obtain ⟨after, replies⟩ := reply
        simp only [Except.map, replyHidden, Except.ok.injEq, Prod.mk.injEq] at second
        exact ⟨after, by rw [second.2], second.1⟩
  | create first second sender passwd passwdToo encoded encodedToo =>
    obtain ⟨reached, after, replies, served, servedToo, states⟩ :=
      serve_create_alike name passwd passwdToo (fun other => absurd rfl other) same first.connId
    rw [Worker.step, Worker.receive_request _ _ _ encoded] at taken
    cases served.symm.trans taken
    refine ⟨after, ?_, states⟩
    rw [Worker.step, Worker.receive_request _ _ _ encodedToo, ← servedToo, Worker.serve, sender]

/-! ### Letters -/

theorem cross_out_add (room : Room) (userId : UInt64) :
    (crossOut name room).add userId = crossOut name (room.add userId) := by
  simp only [Room.add, Room.isUserIn, cross_out_users]
  unfold crossOut
  split <;> split <;> simp_all

@[simp] theorem hidden_entered (userId : UInt64) (user : User) (roomId : UInt32) (room : Room) :
    entered (hidden name keeper) userId user roomId (crossOut name room) =
      hidden name (entered keeper userId user roomId room) := by
  rw [entered, cross_out_add, hidden_set_room]
  rfl

@[simp] theorem hidden_moved (user : User) (oldRoom : Room) (roomId : UInt32) (room : Room) :
    moved (hidden name keeper) user (crossOut name oldRoom) roomId (crossOut name room) =
      hidden name (moved keeper user oldRoom roomId room) := by
  rw [moved, left, hidden_entered, cross_out_leave, hidden_set_room]
  rfl

@[simp] theorem hidden_dropped (user : User) (room : Room) :
    dropped (hidden name keeper) user (crossOut name room) = hidden name (dropped keeper user room) := by
  rw [dropped, left, cross_out_leave, hidden_set_room]
  rfl

@[simp] theorem hidden_info (room : Room) : infoOf (hidden name keeper) (crossOut name room) = infoOf keeper room := by
  simp only [infoOf, announced, infoFields, usersOf, Room.getAllUsers, cross_out_users, cross_out_encode]
  rfl

@[simp] theorem hidden_list (name : StdString) (keeper : RoomKeeper) (connId : UInt64) :
    listTo (hidden name keeper) connId = listTo keeper connId := by
  simp only [listTo, hidden_list_fields]
  rfl

private theorem hidden_logon_letters (user : User) : logonLetters (hidden name keeper) user = logonLetters keeper user := by
  have refusal : logonRefusal (hidden name keeper) user.mName user.mID = logonRefusal keeper user.mName user.mID := rfl
  have users : registered (hidden name keeper) user = hidden name (registered keeper user) := rfl
  simp only [logonLetters, refusal, hidden_lookup, welcomed, users]
  cases logonRefusal keeper user.mName user.mID with
  | some err => simp only [hidden_list]
  | none =>
    cases keeper.mIdRoom[(0 : UInt32)]? with
    | none => rfl
    | some hall => simp only [Option.map_some, hidden_entered, cross_out_add, hidden_info, hidden_list]

private theorem hidden_chat_letters (roomId : UInt32) (input : StdString) (userId : UInt64) :
    chatLetters (hidden name keeper) roomId input userId = chatLetters keeper roomId input userId := by
  have users : (hidden name keeper).mIdUser = keeper.mIdUser := rfl
  simp only [chatLetters, users, hidden_lookup]
  cases keeper.mIdUser[userId]? with
  | none => rfl
  | some user =>
    cases keeper.mIdRoom[roomId]? with
    | none => rfl
    | some room => simp only [Option.map_some, chatTo, Room.getAllUsers, cross_out_users]

/-- A room is listed in the same way whatever its password is. -/
private theorem create_letters_alike (roomName first second : StdString) (words : roomName ≠ name → first = second)
    (same : SameButPassword name keeper other) (connId : UInt64) :
    createLetters keeper roomName first connId = createLetters other roomName second connId := by
  have states : hidden name keeper = hidden name other := same
  have names : keeper.mRoomNames = other.mRoomNames :=
    show (hidden name keeper).mRoomNames = (hidden name other).mRoomNames by rw [states]
  have before : listTo keeper 0 = listTo other 0 := by rw [← hidden_list name, states, hidden_list]
  have after : listTo (created keeper roomName first) 0 = listTo (created other roomName second) 0 := by
    rw [← hidden_list name, hidden_created_alike roomName first second words same, hidden_list]
  simp only [createLetters, names, before, after]

private theorem hidden_join_letters (numbered : Numbered keeper count) (roomName passwd : StdString)
    (otherName : roomName ≠ name) (userId : UInt64) :
    joinLetters (hidden name keeper) roomName passwd userId = joinLetters keeper roomName passwd userId := by
  have users : (hidden name keeper).mIdUser = keeper.mIdUser := rfl
  have names : (hidden name keeper).mRoomNames = keeper.mRoomNames := rfl
  have refusal : moveRefusal (hidden name keeper) roomName passwd userId = moveRefusal keeper roomName passwd userId := by
    simp only [moveRefusal, joinRefusal, users, names, hidden_lookup]
    cases named : keeper.mRoomNames[roomName]? with
    | none => rfl
    | some roomId =>
      cases stored : keeper.mIdRoom[roomId]? with
      | none => simp only [stored, Option.map_none]
      | some room =>
        have shown : crossOut name room = room := cross_out_other (by rw [numbered.named named stored]; exact otherName)
        simp only [stored, Option.map_some, shown]
  have moves : ∀ user roomId, moveLetters (hidden name keeper) user roomId = moveLetters keeper user roomId := by
    intro user roomId
    simp only [moveLetters, hidden_lookup]
    cases keeper.mIdRoom[user.mRoomId]? with
    | none => rfl
    | some oldRoom =>
      cases keeper.mIdRoom[roomId]? with
      | none => rfl
      | some room =>
        simp only [Option.map_some, hidden_entered, hidden_moved, cross_out_add, cross_out_leave, hidden_info]
  simp only [joinLetters, refusal, users, names, moves]

private theorem hidden_whisper_letters (toName words : StdString) (userId : UInt64) :
    whisperLetters (hidden name keeper) toName words userId = whisperLetters keeper toName words userId := rfl

private theorem hidden_drop_letters (userId : UInt64) :
    dropLetters (hidden name keeper) userId = dropLetters keeper userId := by
  have users : (hidden name keeper).mIdUser = keeper.mIdUser := rfl
  simp only [dropLetters, users, hidden_lookup]
  cases keeper.mIdUser[userId]? with
  | none => rfl
  | some user =>
    cases stored : keeper.mIdRoom[user.mRoomId]? with
    | none => simp only [stored, Option.map_none]
    | some room => simp only [stored, Option.map_some, hidden_dropped, cross_out_leave, hidden_info]

private theorem hidden_letters
    (numbered : Numbered keeper count) (event : Worker.Event) (unjoined : ¬ asksToJoin name event) :
    (∃ delivery roomName passwd encoded, event = .recv delivery (.createRoom roomName passwd) encoded) ∨
      lettersOf (hidden name keeper) event = lettersOf keeper event := by
  cases event with
  | recv delivery request encoded =>
    cases request with
    | logon user => exact .inr (hidden_logon_letters _)
    | chat roomId input => exact .inr (hidden_chat_letters roomId input delivery.connId)
    | createRoom roomName passwd => exact .inl ⟨delivery, roomName, passwd, encoded, rfl⟩
    | joinRoom roomName passwd => exact .inr (hidden_join_letters numbered roomName passwd unjoined delivery.connId)
    | whisper toName words => exact .inr (hidden_whisper_letters toName words delivery.connId)
    | other code unknown => exact .inr rfl
  | drop connId => exact .inr (hidden_drop_letters connId)

/-- In states that differ in the password only, like requests make the same letters. -/
theorem letters_alike {countToo : Nat} (numbered : Numbered keeper count) (numberedToo : Numbered other countToo)
    (same : SameButPassword name keeper other) (alike : Alike name event another) (unjoined : ¬ asksToJoin name event) :
    lettersOf other another = lettersOf keeper event := by
  cases alike with
  | same =>
    rcases @hidden_letters keeper name count numbered event unjoined with ⟨delivery, roomName, passwd, encoded, rfl⟩ | first
    · exact (create_letters_alike roomName passwd passwd (fun _ => rfl) same delivery.connId).symm
    · rcases @hidden_letters other name countToo numberedToo event unjoined with
        ⟨delivery, roomName, passwd, encoded, rfl⟩ | second
      · exact (create_letters_alike roomName passwd passwd (fun _ => rfl) same delivery.connId).symm
      · have states : hidden name keeper = hidden name other := same
        rw [← first, ← second, states]
  | create first second sender passwd passwdToo encoded encodedToo =>
    have letters := create_letters_alike name passwd passwdToo (fun other => absurd rfl other) same first.connId
    simp only [lettersOf, requestLetters, ← sender, letters]

/-! ### Messages -/

/-- One message for one connection on either side: the same bytes are written, and a
connection sends the same, but for the four bytes of the head that nobody writes. -/
def SameSending (ctx twin : OperContext) : Prop :=
  ∃ connId msg msgToo, ctx = .send connId msg ∧ twin = .send connId msgToo ∧ SameWritten msg msgToo ∧
    sentBytes msgToo = sentBytes msg

private theorem same_sending {msg twin : Msg} (same : SameWritten msg twin) (connId : UInt64) :
    SameSending (.send connId msg) (.send connId twin) :=
  ⟨connId, msg, twin, rfl, rfl, same, same_written_sent same⟩

private theorem copies_alike {msg twin : Msg} (same : SameWritten msg twin) {connIds : List UInt64} {own : List OperContext}
    (copied : connIds.mapM (PagedKeeper.sendCopy host msg) = .ok own) :
    ∃ twins, connIds.mapM (PagedKeeper.sendCopy hostToo twin) = .ok twins ∧ List.Forall₂ SameSending own twins := by
  induction connIds generalizing own with
  | nil =>
    cases copied
    exact ⟨[], rfl, .nil⟩
  | cons connId connIds ih =>
    rw [List.mapM_cons] at copied ⊢
    obtain ⟨ctx, one, rest⟩ := bind_ok.mp copied
    obtain ⟨others, all, final⟩ := bind_ok.mp rest
    cases final
    obtain ⟨copy, taken, made⟩ := bind_ok.mp one
    cases made
    obtain ⟨also, takenToo, alike⟩ : ∃ also, twin.dup hostToo = .ok also ∧ SameWritten copy also :=
      MsgWriting.dup_alike same taken
    obtain ⟨twins, allToo, sames⟩ := ih all
    refine ⟨.send connId also :: twins, ?_, .cons (same_sending alike connId) sames⟩
    simp only [PagedKeeper.sendCopy, takenToo, ok_then, pure_ok, allToo]

private theorem letter_alike (samePage : host.page = hostToo.page) {letter : Letter} {own : List OperContext}
    (posted : letter.post host = .ok own) :
    ∃ twins, letter.post hostToo = .ok twins ∧ List.Forall₂ SameSending own twins := by
  obtain ⟨msg, made, rest⟩ := bind_ok.mp posted
  obtain ⟨twin, madeToo, same⟩ := MsgWriting.build_alike samePage made
  rw [Letter.post, madeToo, ok_then]
  split at rest
  next copied =>
    rw [if_pos copied]
    exact copies_alike same rest
  next itself =>
    rw [if_neg itself]
    cases rest
    refine ⟨_, rfl, ?_⟩
    rw [List.forall₂_map_left_iff, List.forall₂_map_right_iff]
    exact List.forall₂_same.mpr fun connId _ => same_sending same connId

theorem post_alike (samePage : host.page = hostToo.page) {letters : List Letter} {own : List OperContext}
    (posted : post host letters = .ok own) :
    ∃ twins, post hostToo letters = .ok twins ∧ List.Forall₂ SameSending own twins := by
  induction letters generalizing own with
  | nil =>
    cases posted
    exact ⟨[], rfl, .nil⟩
  | cons letter letters ih =>
    obtain ⟨first, here, rest⟩ := bind_ok.mp posted
    obtain ⟨others, there, final⟩ := bind_ok.mp rest
    cases final
    obtain ⟨firstToo, hereToo, same⟩ := letter_alike samePage here
    obtain ⟨othersToo, thereToo, all⟩ := ih there
    exact ⟨firstToo ++ othersToo, by simp only [post, hereToo, thereToo, ok_then, pure_ok], List.rel_append same all⟩

/-! ### Runs -/

/-- What the two sides of a comparison know of their states. -/
private structure Paired (name : StdString) (keeper other : RoomKeeper) : Prop where
  holds : Holds keeper
  holdsToo : Holds other
  same : SameButPassword name keeper other

private theorem paired_step (samePage : host.page = hostToo.page) (notHall : name ≠ HALL_NAME) {own : List OperContext}
    (paired : Paired name keeper other) (alike : Alike name event another) (unjoined : ¬ asksToJoin name event)
    (taken : Worker.take host keeper event = .ok (next, own)) :
    ∃ after twins, Worker.take hostToo other another = .ok (after, twins) ∧ List.Forall₂ SameSending own twins ∧
      Paired name next after := by
  obtain ⟨stepped, posted⟩ := (take_ok_iff paired.holds.inv).mp taken
  have numbered := paired.holds.counted paired.holds.few
  have numberedToo := paired.holdsToo.counted paired.holdsToo.few
  obtain ⟨after, answered, same⟩ := step_alike numbered numberedToo notHall paired.same alike unjoined stepped
  have letters := letters_alike numbered numberedToo paired.same alike unjoined
  obtain ⟨twins, postedToo, sames⟩ := post_alike samePage posted
  rw [← letters] at answered postedToo
  have takenToo := (take_ok_iff paired.holdsToo.inv).mpr ⟨answered, postedToo⟩
  exact ⟨after, twins, takenToo, sames, take_holds paired.holds taken, take_holds paired.holdsToo takenToo, same⟩

/-- A step of the worker, with the memory that it finds at that moment. -/
def takeAt (keeper : RoomKeeper) (moment : Host × Worker.Event) : Except Fault (RoomKeeper × List OperContext) :=
  Worker.take moment.1 keeper moment.2

/-- Two moments with pages of one size, in which the same is asked up to the password;
the memory may hold anything in either. -/
def AlikeAt (name : StdString) (moment other : Host × Worker.Event) : Prop :=
  moment.1.page = other.1.page ∧ Alike name moment.2 other.2

/-- Whatever the server is asked, if nobody asks to join the room of a name then
all that the server enqueues, and all that it holds but the password, are the same
whatever password the room was created with, and whatever is at any moment in the memory
that the server gets. -/
theorem passwords_stay_secret {moments others : List (Host × Worker.Event)} {owns : List (List OperContext)}
    (notHall : name ≠ HALL_NAME) (alike : List.Forall₂ (AlikeAt name) moments others)
    (unjoined : ∀ moment ∈ moments, ¬ asksToJoin name moment.2)
    (ran : run takeAt RoomKeeper.new moments = .ok (keeper, owns)) (count : Nat) :
    ∃ first second twins, run takeAt RoomKeeper.new (moments.take count) = .ok (first, owns.take count) ∧
      run takeAt RoomKeeper.new (others.take count) = .ok (second, twins) ∧
      List.Forall₂ (List.Forall₂ SameSending) (owns.take count) twins ∧ SameButPassword name first second := by
  obtain ⟨first, ranFirst, _⟩ := run_take ran count
  have pairs := List.forall₂_take count ((List.forall₂_and_left _ _).mpr ⟨unjoined, alike⟩)
  obtain ⟨second, twins, ranSecond, sames, paired⟩ := run_lockstep (Paired name)
    (fun moment other => ¬ asksToJoin name moment.2 ∧ AlikeAt name moment other) (List.Forall₂ SameSending)
    (fun _ _ _ _ _ _ paired like taken => paired_step like.2.1 notHall paired like.2.2 like.1 taken) pairs
    ⟨holds_new, holds_new, rfl⟩ ranFirst
  exact ⟨first, second, twins, ranFirst, ranSecond, sames, paired.same⟩

/-- Where the memory stays the same. -/
theorem run_take_at (host : Host) (keeper : RoomKeeper) (events : List Worker.Event) :
    run takeAt keeper (events.map fun event => (host, event)) = run (Worker.take host) keeper events := by
  induction events generalizing keeper with
  | nil => rfl
  | cons event events ih => simp only [List.map_cons, run, takeAt, ih]

private theorem created_fits {passwd : StdString} (short : passwd.bytes.length ≤ 8) :
    (encode (Worker.Request.createRoom (.ascii "den") passwd).fields).length ≤ 2 ^ 31 - 9 := by
  have name : (StdString.ascii "den").bytes.length = 3 := by decide
  simp only [Worker.Request.fields, MsgType.field, encode, codec, encodeField, Codec.encodeAll_cons, Codec.encodeAll_nil,
    List.length_append, be_bytes_length, name, List.length_nil]
  omega

/-- Ann makes a room with this password; Bob comes and chats with her in the hall. -/
private def aRoomIsMade (passwd : StdString) (short : passwd.bytes.length ≤ 8) : List WorkerSafety.Asked :=
  [⟨1, .logon (.ascii "ann"), WorkerSafety.Asked.ann_fits⟩,
    ⟨1, .createRoom (.ascii "den") passwd, created_fits short⟩,
    ⟨2, .logon (.ascii "bob"), WorkerSafety.Asked.bob_fits⟩, ⟨2, .chat 0 (.ascii "hi"), WorkerSafety.Asked.hi_fits⟩]

/-- A host with used memory: what is left at a place is something. -/
private def usedHost (seed : Nat) : Host := { Host.usual with left := fun place => UInt8.ofNat (place + seed) }

/-- The requests for a password, each with other memory. -/
private def inUsedMemory (passwd : StdString) (short : passwd.bytes.length ≤ 8) : List (Host × Worker.Event) :=
  (aRoomIsMade passwd short).mapIdx fun seed asked => (usedHost seed, asked.event)

/-- Whether the password is `key` or `cat`, and whatever is in the memory, Ann and Bob are
sent the same. -/
theorem ann_and_bob_cannot_tell :
    ∃ first second owns twins, run takeAt RoomKeeper.new
        (((aRoomIsMade (.ascii "key") (by decide)).map WorkerSafety.Asked.event).map fun event => (.usual, event)) =
        .ok (first, owns) ∧
      run takeAt RoomKeeper.new (inUsedMemory (.ascii "cat") (by decide)) = .ok (second, twins) ∧
      List.Forall₂ (List.Forall₂ SameSending) owns twins ∧ SameButPassword (.ascii "den") first second := by
  have alike : List.Forall₂ (AlikeAt (.ascii "den"))
      (((aRoomIsMade (.ascii "key") (by decide)).map WorkerSafety.Asked.event).map fun event => (Host.usual, event))
      (inUsedMemory (.ascii "cat") (by decide)) :=
    .cons ⟨rfl, .same _⟩ (.cons ⟨rfl, .create _ _ (show (1 : UInt64) = 1 from rfl) _ _ _ _⟩
      (.cons ⟨rfl, .same _⟩ (.cons ⟨rfl, .same _⟩ .nil)))
  have unjoined : ∀ moment ∈ ((aRoomIsMade (.ascii "key") (by decide)).map WorkerSafety.Asked.event).map
      fun event => (Host.usual, event), ¬ asksToJoin (.ascii "den") moment.2 := by
    intro moment member
    obtain ⟨event, among, rfl⟩ := List.mem_map.mp member
    obtain ⟨asked, inside, rfl⟩ := List.mem_map.mp among
    simp only [aRoomIsMade, List.mem_cons, List.not_mem_nil, or_false] at inside
    rcases inside with rfl | rfl | rfl | rfl <;> exact fun joins => joins
  have completes : (run WorkerSafety.Asked.step RoomKeeper.new (aRoomIsMade (.ascii "key") (by decide))).toOption.isSome =
      true := by
    decide
  obtain ⟨⟨keeper, sents⟩, ran⟩ := Option.isSome_iff_exists.mp completes
  obtain ⟨owns, taken⟩ := asked_fits .usual inv_new (ok_of_option ran) (by decide +kernel)
  rw [← run_take_at] at taken
  obtain ⟨first, second, twins, ranFirst, ranSecond, sames, same⟩ :=
    passwords_stay_secret (by decide) alike unjoined taken 4
  have all : owns.take 4 = owns := List.take_of_length_le (run_length taken).le
  rw [all] at ranFirst sames
  exact ⟨first, second, owns, twins, ranFirst, ranSecond, sames, same⟩

end ChatRoom.PasswordSecrecy
