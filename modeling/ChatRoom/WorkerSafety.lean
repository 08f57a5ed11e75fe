import ChatRoom.Worker
import ChatRoom.RoomKeeperInvariant

/-! Which requests the server survives. Logons, room creations and joins are
answered in every reachable state, whoever sends them. A chat or a whisper from
a connection that is not logged on, and a chat to a room that does not exist,
run into an assertion: `GetUserById` and `GetRoomById` assert what their callers
in `Worker` took off the wire. -/
namespace ChatRoom.WorkerSafety
open Lib Wire Worker RoomKeeperInvariant

variable {keeper next : RoomKeeper} {connId userId : UInt64} {sent : List Sent}

/-- What a request needs of the state in order to be answered. -/
def Answerable (keeper : RoomKeeper) (connId : UInt64) : Request → Prop
  | .chat roomId _ => connId ∈ keeper.mIdUser ∧ roomId ∈ keeper.mIdRoom
  | .whisper _ _ => connId ∈ keeper.mIdUser
  | _ => True

/-! ### One handler at a time -/

theorem perform_ok (inv : Inv keeper) (request : RoomKeeper.Request) :
    ∃ outcome, keeper.perform request = .ok outcome ∧ Inv outcome.keeper := by
  obtain ⟨outcome, performed, advances⟩ := perform_advances inv request
  exact ⟨outcome, performed, advances.1⟩

/-- A successful logon leaves the record that the reply is made from. -/
private theorem returned_user_ok (inv : Inv keeper)
    (logged : keeper.handleLogon name ip port connId = .ok outcome) :
    ∃ user, returnedUser outcome.keeper outcome.err connId = .ok user := by
  rcases logon_cases inv name ip port connId with ⟨err, errstr, refused⟩ | ⟨hall, _, _, _, accepted⟩
  · cases logged.symm.trans refused
    exact ⟨[], if_neg err.code_ne_zero⟩
  · cases logged.symm.trans accepted
    simp [returnedUser, RoomKeeper.succeeded, entered, RoomKeeper.setRoom]

theorem serve_logon_ok (inv : Inv keeper) (name ip : StdString) (port : UInt16) (connId : UInt64) :
    ∃ next sent, serveLogon name ip port connId keeper = .ok (next, sent) ∧ Inv next := by
  obtain ⟨outcome, performed, kept⟩ := perform_ok inv (.logon name ip port connId)
  have logged : keeper.handleLogon name ip port connId = .ok outcome := performed
  obtain ⟨user, returned⟩ := returned_user_ok inv logged
  refine ⟨outcome.keeper, outcome.sent ++ ⟨connId, logonRes outcome.err outcome.errstr user⟩ ::
    outcome.keeper.publishRoomList connId, ?_, kept⟩
  simp only [serveLogon, logged, ok_then, returned]
  rfl

theorem serve_create_room_ok (inv : Inv keeper) (roomName passwd : StdString) (connId : UInt64) :
    ∃ next sent, serveCreateRoom roomName passwd connId keeper = .ok (next, sent) ∧ Inv next := by
  obtain ⟨outcome, performed, kept⟩ := perform_ok inv (.create roomName passwd)
  cases performed
  exact ⟨_, _, rfl, kept⟩

theorem serve_join_room_ok (inv : Inv keeper) (roomName passwd : StdString) (connId : UInt64) :
    ∃ next sent, serveJoinRoom roomName passwd connId keeper = .ok (next, sent) ∧ Inv next := by
  obtain ⟨outcome, performed, kept⟩ := perform_ok inv (.join roomName passwd connId)
  have joined : keeper.handleJoinRoom roomName passwd connId = .ok outcome := performed
  exact ⟨outcome.keeper, _, by simp only [serveJoinRoom, joined, ok_then]; rfl, kept⟩

theorem drop_ok (inv : Inv keeper) (connId : UInt64) :
    ∃ next sent, drop keeper connId = .ok (next, sent) ∧ Inv next := by
  obtain ⟨outcome, performed, kept⟩ := perform_ok inv (.drop connId)
  have dropped : keeper.handleDrop connId = .ok outcome := performed
  exact ⟨outcome.keeper, outcome.sent, by simp only [drop, dropped, ok_then]; rfl, kept⟩

/-- A chat message goes to each member of the room it names, once. -/
theorem publish_room_message_ok (inv : Inv keeper) {userId : UInt64} {user : User} {roomId : UInt32}
    {room : Room} (known : keeper.mIdUser[userId]? = some user)
    (stored : keeper.mIdRoom[roomId]? = some room) (input : StdString) :
    keeper.publishRoomMessage roomId userId input =
      .ok (room.getAllUsers.map fun member => ⟨member, RoomKeeper.chatFields user.mName input⟩) := by
  have each : ∀ members : List UInt64, (∀ member ∈ members, member ∈ room.mUsers) →
      (members.mapM fun member => do
        let temp ← keeper.getUserById member
        return (⟨temp.mID, RoomKeeper.chatFields user.mName input⟩ : Sent)) =
      .ok (members.map fun member => ⟨member, RoomKeeper.chatFields user.mName input⟩) := by
    intro members inside
    induction members with
    | nil => rfl
    | cons member members ih =>
      obtain ⟨temp, found⟩ := inv.online stored (inside member (by simp))
      have rest := ih fun other later => inside other (List.mem_cons_of_mem member later)
      have own := inv.ids found
      simp only [List.mapM_cons, get_user_by_id_ok.mpr found, ok_then, pure_ok, List.map_cons, own] at rest ⊢
      simp only [rest, ok_then]
  simp only [RoomKeeper.publishRoomMessage, get_user_by_id_ok.mpr known, get_room_by_id_ok.mpr stored, ok_then]
  exact each room.getAllUsers fun member inside => Room.mem_all_users.mp inside

/-- What has gone out as a chat message went to the members of a room. -/
theorem published_to_members (inv : Inv keeper) {roomId : UInt32} {userId : UInt64} {input : StdString}
    (published : keeper.publishRoomMessage roomId userId input = .ok sent) :
    ∃ (user : User) (room : Room), keeper.mIdUser[userId]? = some user ∧ keeper.mIdRoom[roomId]? = some room ∧
      sent = room.getAllUsers.map fun member => ⟨member, RoomKeeper.chatFields user.mName input⟩ := by
  have looked := published
  simp only [RoomKeeper.publishRoomMessage, bind_ok] at looked
  obtain ⟨user, known, room, stored, _⟩ := looked
  have known := get_user_by_id_ok.mp known
  have stored := get_room_by_id_ok.mp stored
  cases published.symm.trans (publish_room_message_ok inv known stored input)
  exact ⟨user, room, known, stored, rfl⟩

private theorem serve_chat_iff (inv : Inv keeper) (roomId : UInt32) (input : StdString) (userId : UInt64) :
    (∃ next sent, serveChat roomId input userId keeper = .ok (next, sent)) ↔
      userId ∈ keeper.mIdUser ∧ roomId ∈ keeper.mIdRoom := by
  constructor
  · rintro ⟨next, sent, served⟩
    simp only [serveChat, bind_ok] at served
    obtain ⟨_, published, _⟩ := served
    obtain ⟨user, room, known, stored, _⟩ := published_to_members inv published
    exact ⟨mem_users.mpr ⟨user, known⟩, by
      rw [Std.ExtTreeMap.mem_iff_isSome_getElem?, stored]
      rfl⟩
  · rintro ⟨known, stored⟩
    obtain ⟨user, known⟩ := mem_users.mp known
    rw [Std.ExtTreeMap.mem_iff_isSome_getElem?, Option.isSome_iff_exists] at stored
    obtain ⟨room, stored⟩ := stored
    exact ⟨keeper, _, by
      simp only [serveChat, publish_room_message_ok inv known stored, ok_then]
      rfl⟩

private theorem serve_whisper_iff (toName words : StdString) (connId : UInt64) :
    (∃ next sent, serveWhisper toName words connId keeper = .ok (next, sent)) ↔
      connId ∈ keeper.mIdUser := by
  constructor
  · rintro ⟨next, sent, served⟩
    simp only [serveWhisper, bind_ok] at served
    obtain ⟨user, known, _⟩ := served
    exact mem_users.mpr ⟨user, get_user_by_id_ok.mp known⟩
  · intro known
    obtain ⟨user, known⟩ := mem_users.mp known
    cases found : keeper.getUserByName toName with
    | none =>
      exact ⟨_, _, by simp only [serveWhisper, get_user_by_id_ok.mpr known, ok_then, found]; rfl⟩
    | some toUser =>
      exact ⟨_, _, by simp only [serveWhisper, get_user_by_id_ok.mpr known, ok_then, found]; rfl⟩

/-- Chats and whispers change nothing. -/
theorem serve_chat_same (served : serveChat roomId input userId keeper = .ok (next, sent)) :
    next = keeper := by
  simp only [serveChat, bind_ok, pure_ok, Except.ok.injEq, Prod.mk.injEq] at served
  obtain ⟨_, _, rfl, _⟩ := served
  rfl

theorem serve_whisper_same (served : serveWhisper toName words userId keeper = .ok (next, sent)) :
    next = keeper := by
  simp only [serveWhisper, bind_ok] at served
  obtain ⟨_, _, served⟩ := served
  split at served
  · cases served
    rfl
  · cases served
    rfl

/-! ### Who is logged on -/

/-- Only a logon makes a user, and only the one of its own connection. -/
theorem serve_users (inv : Inv keeper) (request : Request)
    (served : serve ip port connId request keeper = .ok (next, sent)) (inside : userId ∈ next.mIdUser) :
    userId ∈ keeper.mIdUser ∨ userId = connId ∧ ∃ name, request = .logon name := by
  cases request with
  | logon name =>
    obtain ⟨outcome, logged, rest⟩ := bind_ok.mp served
    obtain ⟨_, _, same⟩ := bind_ok.mp rest
    cases same
    have performed : keeper.perform (.logon name ip port connId) = .ok outcome := logged
    apply (perform_users inv performed inside).imp And.left
    rintro ⟨_, _, _, same⟩
    cases same
    exact ⟨rfl, name, rfl⟩
  | chat roomId input =>
    rw [serve_chat_same served] at inside
    exact .inl inside
  | createRoom roomName passwd =>
    cases served
    have performed : keeper.perform (.create roomName passwd) = .ok (keeper.createRoom roomName passwd) := rfl
    exact .inl ((perform_users inv performed inside).resolve_right (by simp)).1
  | joinRoom roomName passwd =>
    obtain ⟨outcome, joined, same⟩ := bind_ok.mp served
    cases same
    have performed : keeper.perform (.join roomName passwd connId) = .ok outcome := joined
    exact .inl ((perform_users inv performed inside).resolve_right (by simp)).1
  | whisper toName words =>
    rw [serve_whisper_same served] at inside
    exact .inl inside
  | other code unknown =>
    cases served
    exact .inl inside

theorem drop_users (inv : Inv keeper) (dropped : drop keeper connId = .ok (next, sent))
    (inside : userId ∈ next.mIdUser) : userId ≠ connId ∧ userId ∈ keeper.mIdUser := by
  obtain ⟨outcome, done, same⟩ := bind_ok.mp dropped
  cases same
  have performed : keeper.perform (.drop connId) = .ok outcome := done
  obtain ⟨before, other⟩ := (perform_users inv performed inside).resolve_right (by simp)
  exact ⟨fun self => other (by rw [self]), before⟩

/-! ### Runs -/

theorem serve_iff (inv : Inv keeper) (ip : StdString) (port : UInt16) (connId : UInt64) (request : Request) :
    (∃ next sent, serve ip port connId request keeper = .ok (next, sent)) ↔
      Answerable keeper connId request := by
  have served : ∀ {result : Except Fault (RoomKeeper × List Sent)},
      (∃ next sent, result = .ok (next, sent) ∧ Inv next) → ∃ next sent, result = .ok (next, sent) :=
    fun ⟨next, sent, done, _⟩ => ⟨next, sent, done⟩
  cases request with
  | logon name => exact iff_of_true (served (serve_logon_ok inv name ip port connId)) trivial
  | chat roomId input => exact serve_chat_iff inv roomId input connId
  | createRoom roomName passwd =>
    exact iff_of_true (served (serve_create_room_ok inv roomName passwd connId)) trivial
  | joinRoom roomName passwd =>
    exact iff_of_true (served (serve_join_room_ok inv roomName passwd connId)) trivial
  | whisper toName words => exact serve_whisper_iff toName words connId
  | other code unknown => exact iff_of_true ⟨keeper, [], rfl⟩ trivial

theorem serve_keeps (inv : Inv keeper) (request : Request)
    (served : serve ip port connId request keeper = .ok (next, sent)) : Inv next := by
  have same : ∀ {result : Except Fault (RoomKeeper × List Sent)}, result = .ok (next, sent) →
      (∃ next sent, result = .ok (next, sent) ∧ Inv next) → Inv next := by
    rintro result done ⟨other, more, again, kept⟩
    cases done.symm.trans again
    exact kept
  cases request with
  | logon name => exact same served (serve_logon_ok inv name ip port connId)
  | chat roomId input =>
    rw [serve_chat_same served]
    exact inv
  | createRoom roomName passwd => exact same served (serve_create_room_ok inv roomName passwd connId)
  | joinRoom roomName passwd => exact same served (serve_join_room_ok inv roomName passwd connId)
  | whisper toName words =>
    rw [serve_whisper_same served]
    exact inv
  | other code unknown =>
    cases served
    exact inv

theorem step_keeps (inv : Inv keeper) (event : Event) (taken : Worker.step keeper event = .ok (next, sent)) :
    Inv next := by
  cases event with
  | recv delivery request encoded =>
    rw [Worker.step, receive_request keeper delivery request encoded] at taken
    exact serve_keeps inv request taken
  | drop connId =>
    obtain ⟨other, more, done, kept⟩ := drop_ok inv connId
    cases done.symm.trans taken
    exact kept

/-- What a request makes of the keeper's state is what one of the keeper's
operations makes of it. -/
theorem serve_performs (request : Request) (served : serve ip port connId request keeper = .ok (next, sent)) :
    next = keeper ∨ ∃ request outcome, keeper.perform request = .ok outcome ∧ next = outcome.keeper := by
  cases request with
  | logon name =>
    obtain ⟨outcome, logged, rest⟩ := bind_ok.mp served
    obtain ⟨_, _, same⟩ := bind_ok.mp rest
    cases same
    exact .inr ⟨.logon name ip port connId, outcome, logged, rfl⟩
  | chat roomId input => exact .inl (serve_chat_same served)
  | createRoom roomName passwd =>
    cases served
    exact .inr ⟨.create roomName passwd, _, rfl, rfl⟩
  | joinRoom roomName passwd =>
    obtain ⟨outcome, joined, same⟩ := bind_ok.mp served
    cases same
    exact .inr ⟨.join roomName passwd connId, outcome, joined, rfl⟩
  | whisper toName words => exact .inl (serve_whisper_same served)
  | other code unknown =>
    cases served
    exact .inl rfl

theorem drop_performs (dropped : Worker.drop keeper connId = .ok (next, sent)) :
    ∃ outcome, keeper.perform (.drop connId) = .ok outcome ∧ next = outcome.keeper := by
  obtain ⟨outcome, done, same⟩ := bind_ok.mp dropped
  cases same
  exact ⟨outcome, done, rfl⟩

/-- What the worker makes of the keeper's state is what one of the keeper's
operations makes of it. -/
theorem step_performs (taken : Worker.step keeper event = .ok (next, sent)) :
    next = keeper ∨ ∃ request outcome, keeper.perform request = .ok outcome ∧ next = outcome.keeper := by
  cases event with
  | recv delivery request encoded =>
    rw [Worker.step, receive_request keeper delivery request encoded] at taken
    exact serve_performs request taken
  | drop connId =>
    obtain ⟨outcome, dropped, same⟩ := drop_performs taken
    exact .inr ⟨.drop connId, outcome, dropped, same⟩

/-- No room is ever removed. -/
theorem performed_counted (inv : Inv keeper) (counted : Counted keeper)
    (performs : next = keeper ∨ ∃ request outcome, keeper.perform request = .ok outcome ∧ next = outcome.keeper) :
    Counted next ∧ keeper.mIdRoom.size ≤ next.mIdRoom.size := by
  rcases performs with rfl | ⟨request, outcome, performed, rfl⟩
  · exact ⟨counted, Nat.le_refl _⟩
  · obtain ⟨same, again, advances⟩ := perform_advances inv request
    cases performed.symm.trans again
    exact advances_counted inv counted advances

theorem step_counted (inv : Inv keeper) (counted : Counted keeper) (taken : Worker.step keeper event = .ok (next, sent)) :
    Counted next ∧ keeper.mIdRoom.size ≤ next.mIdRoom.size :=
  performed_counted inv counted (step_performs taken)

/-- What each event needs in order to be processed; drops need nothing. -/
def Processable (keeper : RoomKeeper) : Event → Prop
  | .recv delivery request _ => Answerable keeper delivery.connId request
  | .drop _ => True

theorem step_iff (keeper : RoomKeeper) (event : Event) (inv : Inv keeper) :
    (∃ next sent, Worker.step keeper event = .ok (next, sent)) ↔ Processable keeper event := by
  cases event with
  | recv delivery request encoded =>
    rw [Worker.step, receive_request keeper delivery request encoded]
    exact serve_iff inv _ _ _ request
  | drop connId =>
    obtain ⟨next, sent, done, _⟩ := drop_ok inv connId
    exact iff_of_true ⟨next, sent, done⟩ trivial

/-! ### Concrete clients -/

/-- A request and the connection it comes from. -/
structure Asked where
  connId : UInt64
  request : Request
  fits : (encode request.fields).length ≤ 2 ^ 31 - 9

namespace Asked

theorem ann_fits : (encode (Request.logon (.ascii "ann")).fields).length ≤ 2 ^ 31 - 9 := by decide

theorem bob_fits : (encode (Request.logon (.ascii "bob")).fields).length ≤ 2 ^ 31 - 9 := by decide

theorem den_fits : (encode (Request.createRoom (.ascii "den") (.ascii "key")).fields).length ≤ 2 ^ 31 - 9 := by decide

theorem hi_fits : (encode (Request.chat 0 (.ascii "hi")).fields).length ≤ 2 ^ 31 - 9 := by decide

/-- The message that carries just this request. -/
def delivery (asked : Asked) : Delivery where
  ip := .ascii "10.0.0.1"
  port := 4000
  connId := asked.connId
  frame := .carrying (encode asked.request.fields) (by
    cases asked.request <;>
      simp [Request.fields, MsgType.field, encode, codec, encodeField]) asked.fits

def event (asked : Asked) : Event := .recv asked.delivery asked.request (List.prefix_refl _)

def step (keeper : RoomKeeper) (asked : Asked) : Except Fault (RoomKeeper × List Sent) :=
  serve (.ascii "10.0.0.1") 4000 asked.connId asked.request keeper

theorem step_event (keeper : RoomKeeper) (asked : Asked) : Worker.step keeper asked.event = step keeper asked :=
  receive_request keeper asked.delivery asked.request (List.prefix_refl _)

theorem run_events (keeper : RoomKeeper) (asked : List Asked) :
    run Worker.step keeper (asked.map event) = run step keeper asked := by
  induction asked generalizing keeper with
  | nil => rfl
  | cons first asked ih =>
    simp only [List.map_cons, run, step_event, ih]

end Asked

end ChatRoom.WorkerSafety
