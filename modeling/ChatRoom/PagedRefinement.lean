import ChatRoom.MsgWriting
import ChatRoom.PagedWorker
import ChatRoom.WorkerSafety

/-! The worker with its messages does what the worker over values does, as long as
every message it makes can be written. Which messages these are is told by the event and
by the state in which it is processed. -/
namespace ChatRoom.PagedRefinement
open Lib Wire RoomKeeper RoomKeeperInvariant
open MsgBuffer (RoomFor)
open MsgWriting (Fits)
open WorkerSafety (publish_room_message_ok Processable step_iff step_keeps Asked)

/-! ### Letters -/

/-- A message that is made, and the connections for which it is enqueued: the message
itself, or a copy for each. -/
structure Letter where
  fields : List Field
  addressees : List UInt64
  copied : Bool

namespace Letter

/-- What the connections are sent, taken as values. -/
def sent (letter : Letter) : List Sent := letter.addressees.map fun connId => ⟨connId, letter.fields⟩

/-- The message is made, and enqueued for each of its connections. -/
def post (host : Host) (letter : Letter) : Except Fault (List OperContext) := do
  let msg ← Msg.build host letter.fields
  if letter.copied then letter.addressees.mapM (PagedKeeper.sendCopy host msg)
  else return letter.addressees.map fun connId => .send connId msg

/-- What a letter needs in order to be posted. -/
def Posts (host : Host) (letter : Letter) : Prop :=
  ∃ msg, Msg.build host letter.fields = .ok msg ∧
    (letter.copied = true → letter.addressees ≠ [] → ∃ copy, msg.dup host = .ok copy)

end Letter

/-- There is room for a message on its page, and its total length is an `int`. -/
def HasRoom (host : Host) (fields : List Field) : Prop :=
  RoomFor host host.page fields ∧ (encode fields).length ≤ 2 ^ 31 - 9

/-- One letter after the other. -/
def post (host : Host) : List Letter → Except Fault (List OperContext)
  | [] => .ok []
  | letter :: letters => do
    let own ← letter.post host
    let rest ← post host letters
    return own ++ rest

variable {host : Host} {keeper next : RoomKeeper} {letters : List Letter} {own : List OperContext}
  {userId : UInt64} {user : User} {roomId : UInt32} {room : Room}

theorem post_append (first second : List Letter) :
    post host (first ++ second) = (do
      let own ← post host first
      let rest ← post host second
      return own ++ rest) := by
  induction first with
  | nil =>
    simp only [List.nil_append, post, ok_then, pure_ok]
    cases post host second <;> rfl
  | cons letter first ih =>
    rw [List.cons_append, post, ih, post]
    cases letter.post host with
    | error fault => rfl
    | ok own =>
      cases post host first with
      | error fault => rfl
      | ok rest =>
        cases post host second with
        | error fault => rfl
        | ok more => simp only [ok_then, pure_ok, List.append_assoc]

theorem post_single (letter : Letter) : post host [letter] = letter.post host := by
  simp only [post]
  cases letter.post host with
  | error fault => rfl
  | ok own => simp only [ok_then, pure_ok, List.append_nil]

/-! ### The letters of an event -/

/-- What an error says. -/
def errText : Err → StdString
  | .userNameAlredyLogoned => .ascii "user has logoned before!"
  | .userSameNameExist => .ascii "user with sanme name exists on server!"
  | .roomNotExist => .ascii "room not exists!"
  | .roomPasswdNotMatch => .ascii "room passwd not match, try again!"
  | .userAlreadyInThisRoom => .ascii "user already in this room"
  | .roomWithSameNameAlreadyExists => .ascii "room with same name already exists"
  | .userNotExist => .ascii "join room ,but user not exist!"

/-- The members of a room are told who is in it. -/
def infoOf (keeper : RoomKeeper) (room : Room) : Letter := ⟨announced keeper room, room.getAllUsers, true⟩

def replyTo (connId : UInt64) (fields : List Field) : Letter := ⟨fields, [connId], false⟩

/-- The list of the rooms, for one connection, or for everybody if it is 0. -/
def listTo (keeper : RoomKeeper) (connId : UInt64) : Letter :=
  ⟨listFields (valuesOf keeper.mIdRoom), if connId ≠ 0 then [connId] else (valuesOf keeper.mIdUser).map User.mID, true⟩

def chatTo (room : Room) (name input : StdString) : Letter := ⟨chatFields name input, room.getAllUsers, true⟩

/-- Why nobody is logged on. -/
def logonRefusal (keeper : RoomKeeper) (name : StdString) (connId : UInt64) : Option Err :=
  if keeper.mIdUser.contains connId then some .userNameAlredyLogoned
  else if keeper.mUserNames.contains name then some .userSameNameExist
  else none

/-- The state once a new user is in the hall. -/
def welcomed (keeper : RoomKeeper) (user : User) (hall : Room) : RoomKeeper :=
  entered (registered keeper user) user.mID user 0 hall

def logonLetters (keeper : RoomKeeper) (user : User) : List Letter :=
  match logonRefusal keeper user.mName user.mID with
  | some err => [replyTo user.mID (Worker.logonRes err.code (errText err) []), listTo keeper user.mID]
  | none =>
    match keeper.mIdRoom[(0 : UInt32)]? with
    | none => []
    | some hall =>
      [infoOf (welcomed keeper user hall) (hall.add user.mID),
        replyTo user.mID (Worker.logonRes 0 (.ascii "") (user.setRoomId 0).encode),
        listTo (welcomed keeper user hall) user.mID]

def chatLetters (keeper : RoomKeeper) (roomId : UInt32) (input : StdString) (userId : UInt64) : List Letter :=
  match keeper.mIdUser[userId]?, keeper.mIdRoom[roomId]? with
  | some user, some room => [chatTo room user.mName input]
  | _, _ => []

def createLetters (keeper : RoomKeeper) (roomName passwd : StdString) (connId : UInt64) : List Letter :=
  if keeper.mRoomNames.contains roomName then
    [replyTo connId (Worker.createRoomRes Err.roomWithSameNameAlreadyExists.code
      (errText .roomWithSameNameAlreadyExists) roomName), listTo keeper 0]
  else
    [replyTo connId (Worker.createRoomRes 0 (.ascii "") roomName), listTo (created keeper roomName passwd) 0]

/-- The new room is told first, and then the old one. -/
def moveLetters (keeper : RoomKeeper) (user : User) (roomId : UInt32) : List Letter :=
  match keeper.mIdRoom[user.mRoomId]?, keeper.mIdRoom[roomId]? with
  | some oldRoom, some room =>
    [infoOf (entered keeper user.mID user roomId room) (room.add user.mID),
      infoOf (moved keeper user oldRoom roomId room) (oldRoom.handleUserLeave user.mID)]
  | _, _ => []

def joinLetters (keeper : RoomKeeper) (roomName passwd : StdString) (userId : UInt64) : List Letter :=
  match moveRefusal keeper roomName passwd userId with
  | some err => [replyTo userId (Worker.joinRoomRes err.code (errText err) roomName)]
  | none =>
    match keeper.mIdUser[userId]?, keeper.mRoomNames[roomName]? with
    | some user, some roomId =>
      moveLetters keeper user roomId ++ [replyTo userId (Worker.joinRoomRes 0 (.ascii "") roomName)]
    | _, _ => []

def whisperLetters (keeper : RoomKeeper) (toName words : StdString) (userId : UInt64) : List Letter :=
  match keeper.mIdUser[userId]?, keeper.getUserByName toName with
  | some _, none =>
    [replyTo userId [MsgType.s2cWhisperMsgFailed.field, .str toName, .str (.ascii "user not exists!")]]
  | some fromUser, some toUser => [replyTo toUser.mID (Worker.whisperMsg fromUser.mName words)]
  | none, _ => []

def dropLetters (keeper : RoomKeeper) (userId : UInt64) : List Letter :=
  match keeper.mIdUser[userId]? with
  | none => []
  | some user =>
    match keeper.mIdRoom[user.mRoomId]? with
    | none => []
    | some room => [infoOf (dropped keeper user room) (room.handleUserLeave userId)]

/-- All messages that a request makes the worker write, in their order. -/
def requestLetters (keeper : RoomKeeper) (ip : StdString) (port : UInt16) (connId : UInt64) :
    Worker.Request → List Letter
  | .logon name => logonLetters keeper (.new name ip port connId)
  | .chat roomId input => chatLetters keeper roomId input connId
  | .createRoom roomName passwd => createLetters keeper roomName passwd connId
  | .joinRoom roomName passwd => joinLetters keeper roomName passwd connId
  | .whisper toName words => whisperLetters keeper toName words connId
  | .other _ _ => []

def lettersOf (keeper : RoomKeeper) : Worker.Event → List Letter
  | .recv delivery request _ => requestLetters keeper delivery.ip delivery.port delivery.connId request
  | .drop connId => dropLetters keeper connId

/-! ### Operations of the keeper -/

theorem publish_room_info (host : Host) (keeper : RoomKeeper) (room : Room) (stored : keeper.mIdRoom[room.mID]? = some room)
    (online : ∀ userId ∈ room.mUsers, ∃ user, keeper.mIdUser[userId]? = some user) :
    PagedKeeper.publishRoomInfo host keeper room = (infoOf keeper room).post host := by
  simp only [PagedKeeper.publishRoomInfo, get_room_info_ok stored online, ok_then]
  rfl

/-- `JoinRoom` for a user who is logged on. -/
private theorem join_room_agrees (host : Host) (linked : Linked keeper) (known : keeper.mIdUser[userId]? = some user)
    (roomName word : StdString) :
    (∃ err, joinRefusal keeper roomName word userId = some err ∧
      keeper.joinRoom roomName userId word = .ok (keeper.failed err (errText err)) ∧
      PagedKeeper.joinRoom host keeper roomName userId word = .ok (PagedKeeper.failed keeper err (errText err))) ∨
    ∃ roomId room, joinRefusal keeper roomName word userId = none ∧ keeper.mRoomNames[roomName]? = some roomId ∧
      keeper.mIdRoom[roomId]? = some room ∧ room.mPassWord = word ∧ userId ∉ room.mUsers ∧
      PagedKeeper.joinRoom host keeper roomName userId word =
        (infoOf (entered keeper userId user roomId room) (room.add userId)).post host >>= fun own =>
          .ok (PagedKeeper.succeeded (entered keeper userId user roomId room) own) := by
  cases named : keeper.mRoomNames[roomName]? with
  | none =>
    exact .inl ⟨.roomNotExist, by simp only [joinRefusal, named], by simp only [joinRoom, named]; rfl,
      by simp only [PagedKeeper.joinRoom, named]; rfl⟩
  | some roomId =>
    obtain ⟨room, stored⟩ := linked.named named
    have looked := get_room_by_id_ok.mpr stored
    by_cases passwd : room.mPassWord = word
    · have okay : room.isPasswdOkay word = true := Room.is_passwd_okay.mpr passwd
      by_cases inside : userId ∈ room.mUsers
      · have present : room.isUserIn userId = true := Room.is_user_in.mpr inside
        refine .inl ⟨.userAlreadyInThisRoom, by simp [joinRefusal, named, stored, passwd, inside], ?_, ?_⟩
        · simp only [joinRoom, named, looked, okay, present, ok_then]
          rfl
        · simp only [PagedKeeper.joinRoom, named, looked, okay, present, ok_then]
          rfl
      · have absent : ¬ room.isUserIn userId = true := fun present => inside (Room.is_user_in.mp present)
        have still : (keeper.setRoom roomId (room.add userId)).getUserById userId = .ok user :=
          get_user_by_id_ok.mpr known
        have after := linked_entered userId user linked stored
        have held : (entered keeper userId user roomId room).mIdRoom[roomId]? = some (room.add userId) := by
          simp [entered, setRoom]
        have published := publish_room_info host (entered keeper userId user roomId room) (room.add userId) (by
          rw [(after.own held).1]
          exact held) fun member inside => after.online held inside
        refine .inr ⟨roomId, room, by simp [joinRefusal, named, stored, passwd, inside], rfl, stored, passwd, inside, ?_⟩
        rw [← published]
        simp only [PagedKeeper.joinRoom, named, looked, okay, absent, setUserRoomId, still, ok_then]
        rfl
    · have refused : ¬ room.isPasswdOkay word = true := fun okay => passwd (Room.is_passwd_okay.mp okay)
      refine .inl ⟨.roomPasswdNotMatch, by simp [joinRefusal, named, stored, passwd], ?_, ?_⟩
      · simp only [joinRoom, named, looked, refused, ok_then]
        rfl
      · simp only [PagedKeeper.joinRoom, named, looked, refused, ok_then]
        rfl

private theorem leave_room_agrees (host : Host) (userId : UInt64) (linked : Linked keeper)
    (named : keeper.mRoomNames[roomName]? = some roomId) (stored : keeper.mIdRoom[roomId]? = some room) :
    PagedKeeper.leaveRoom host keeper roomName userId =
      (infoOf (left keeper userId roomId room) (room.handleUserLeave userId)).post host >>= fun own =>
        .ok (PagedKeeper.succeeded (left keeper userId roomId room) own) := by
  have after := linked_left userId linked stored
  have held : (left keeper userId roomId room).mIdRoom[roomId]? = some (room.handleUserLeave userId) := by
    simp [left, setRoom]
  have published := publish_room_info host (left keeper userId roomId room) (room.handleUserLeave userId) (by
    rw [(after.own held).1]
    exact held) fun member inside => after.online held inside
  rw [← published]
  simp only [PagedKeeper.leaveRoom, named, get_room_by_id_ok.mpr stored, ok_then]
  rfl

private theorem logon_agrees (host : Host) (inv : Inv keeper) (name ip : StdString) (port : UInt16) (connId : UInt64) :
    (∃ err, logonRefusal keeper name connId = some err ∧
      keeper.handleLogon name ip port connId = .ok (keeper.failed err (errText err)) ∧
      PagedKeeper.handleLogon host keeper name ip port connId = .ok (PagedKeeper.failed keeper err (errText err))) ∨
    ∃ hall, logonRefusal keeper name connId = none ∧ keeper.mIdRoom[(0 : UInt32)]? = some hall ∧
      keeper.handleLogon name ip port connId =
        .ok ((welcomed keeper (.new name ip port connId) hall).succeeded
          (announce (welcomed keeper (.new name ip port connId) hall) (hall.add connId))) ∧
      PagedKeeper.handleLogon host keeper name ip port connId =
        (infoOf (welcomed keeper (.new name ip port connId) hall) (hall.add connId)).post host >>= fun own =>
          .ok (PagedKeeper.succeeded (welcomed keeper (.new name ip port connId) hall) own) := by
  by_cases logged : keeper.mIdUser.contains connId = true
  · exact .inl ⟨.userNameAlredyLogoned, if_pos logged, if_pos logged, if_pos logged⟩
  by_cases taken : keeper.mUserNames.contains name = true
  · exact .inl ⟨.userSameNameExist, by rw [logonRefusal, if_neg logged, if_pos taken],
      by rw [handleLogon, if_neg logged, if_pos taken]; rfl,
      by rw [PagedKeeper.handleLogon, if_neg logged, if_pos taken]; rfl⟩
  have fresh : keeper.mIdUser[connId]? = none := by simpa using logged
  have free : keeper.mUserNames[name]? = none := by simpa using taken
  obtain ⟨hall, stored, accepted⟩ := logon_accepts inv ip port fresh free
  refine .inr ⟨hall, by rw [logonRefusal, if_neg logged, if_neg taken], stored, accepted, ?_⟩
  have linked := linked_registered (.new name ip port connId) inv.toLinked fresh
  obtain ⟨home, named, found, passwd⟩ := inv.hall
  cases stored.symm.trans found
  have outside : connId ∉ hall.mUsers := by
    intro inside
    obtain ⟨user, known⟩ := inv.online stored inside
    cases fresh.symm.trans known
  have welcome : joinRefusal (registered keeper (.new name ip port connId)) HALL_NAME (.ascii "") connId = none := by
    simp [joinRefusal, registered, named, stored, passwd, outside]
  rcases join_room_agrees host linked (registered_self (.new name ip port connId) fresh) HALL_NAME (.ascii "") with
    ⟨err, refused, _⟩ | ⟨roomId, room, _, hallName, there, _, _, joined⟩
  · cases welcome.symm.trans refused
  · cases named.symm.trans hallName
    cases stored.symm.trans there
    have enters : PagedKeeper.handleLogon host keeper name ip port connId =
        PagedKeeper.joinRoom host (registered keeper (.new name ip port connId)) HALL_NAME connId (.ascii "") >>=
          fun outcome => if outcome.err ≠ 0 then throw .assertion else pure outcome := by
      rw [PagedKeeper.handleLogon, if_neg logged, if_neg taken]
      rfl
    have inside : PagedKeeper.joinRoom host (registered keeper (.new name ip port connId)) HALL_NAME connId (.ascii "") =
        (infoOf (welcomed keeper (.new name ip port connId) hall) (hall.add connId)).post host >>= fun own =>
          .ok (PagedKeeper.succeeded (welcomed keeper (.new name ip port connId) hall) own) := joined
    rw [enters, inside]
    cases (infoOf (welcomed keeper (.new name ip port connId) hall) (hall.add connId)).post host <;> rfl

private theorem move_agrees (host : Host) (inv : Inv keeper) (roomName passwd : StdString) (connId : UInt64) :
    (∃ err, moveRefusal keeper roomName passwd connId = some err ∧
      keeper.handleJoinRoom roomName passwd connId = .ok (keeper.failed err (errText err)) ∧
      PagedKeeper.handleJoinRoom host keeper roomName passwd connId = .ok (PagedKeeper.failed keeper err (errText err))) ∨
    ∃ user oldRoom roomId room, moveRefusal keeper roomName passwd connId = none ∧
      keeper.mIdUser[connId]? = some user ∧ keeper.mIdRoom[user.mRoomId]? = some oldRoom ∧
      keeper.mRoomNames[roomName]? = some roomId ∧ keeper.mIdRoom[roomId]? = some room ∧
      keeper.handleJoinRoom roomName passwd connId =
        .ok ((moved keeper user oldRoom roomId room).succeeded
          (announce (entered keeper user.mID user roomId room) (room.add user.mID) ++
            announce (moved keeper user oldRoom roomId room) (oldRoom.handleUserLeave user.mID))) ∧
      PagedKeeper.handleJoinRoom host keeper roomName passwd connId =
        post host (moveLetters keeper user roomId) >>= fun own =>
          .ok (PagedKeeper.succeeded (moved keeper user oldRoom roomId room) own) := by
  cases known : keeper.mIdUser[connId]? with
  | none =>
    exact .inl ⟨.userNotExist, by simp only [moveRefusal, known], by simp only [handleJoinRoom, known]; rfl,
      by simp only [PagedKeeper.handleJoinRoom, known]; rfl⟩
  | some user =>
    obtain ⟨oldRoom, old⟩ := inv.housed known
    have own := inv.ids known
    rcases join_room_agrees host inv.toLinked known roomName passwd with
      ⟨err, refused, value, paged⟩ | ⟨roomId, room, admitted, named, stored, word, outside, joined⟩
    · refine .inl ⟨err, by simp only [moveRefusal, known, refused], ?_, ?_⟩
      · simp only [handleJoinRoom, known, get_room_by_id_ok.mpr old, value, ok_then]
        simp [failed, pure_ok]
      · simp only [PagedKeeper.handleJoinRoom, known, get_room_by_id_ok.mpr old, paged, ok_then]
        simp [PagedKeeper.failed, pure_ok]
    · rcases join_cases_named inv roomName passwd connId with
        ⟨err, _, refused, _⟩ | ⟨mover, home, there, place, same, house, place_named, found, _, other, _, accepted⟩
      · rw [moveRefusal, known] at refused
        cases admitted.symm.trans refused
      cases known.symm.trans same
      cases old.symm.trans house
      cases named.symm.trans place_named
      cases stored.symm.trans found
      subst own
      refine .inr ⟨user, oldRoom, roomId, room, by simp only [moveRefusal, known, admitted], rfl, old, named, stored,
        accepted, ?_⟩
      have between := linked_entered user.mID user inv.toLinked stored
      have still : (entered keeper user.mID user roomId room).mIdRoom[user.mRoomId]? = some oldRoom := by
        rw [entered_room, if_neg other, old]
      have leaves := leave_room_agrees host user.mID between (between.own still).2 still
      simp only [PagedKeeper.handleJoinRoom, known, get_room_by_id_ok.mpr old, joined, ok_then, moveLetters, old, stored,
        post, moved]
      cases (infoOf (entered keeper user.mID user roomId room) (room.add user.mID)).post host with
      | error fault => rfl
      | ok first =>
        simp only [ok_then, PagedKeeper.succeeded, leaves]
        simp only [ne_eq, not_true_eq_false, if_false]
        cases (infoOf (left (entered keeper user.mID user roomId room) user.mID user.mRoomId oldRoom)
          (oldRoom.handleUserLeave user.mID)).post host with
        | error fault => rfl
        | ok second =>
          simp only [ok_then, pure_ok, List.append_nil]
          rfl

private theorem drop_agrees (host : Host) (inv : Inv keeper) (connId : UInt64) :
    ∃ next, keeper.handleDrop connId = .ok (next.succeeded ((dropLetters keeper connId).flatMap Letter.sent)) ∧
      PagedKeeper.handleDrop host keeper connId =
        post host (dropLetters keeper connId) >>= fun own => .ok (PagedKeeper.succeeded next own) := by
  rcases drop_cases inv connId with ⟨absent, done⟩ | ⟨user, room, known, stored, done⟩
  · refine ⟨keeper, by simp only [dropLetters, absent, List.flatMap_nil, done], ?_⟩
    simp only [PagedKeeper.handleDrop, dropLetters, absent, post, ok_then]
  · obtain rfl := inv.ids known
    have after := linked_dropped inv known stored
    have held : (dropped keeper user room).mIdRoom[user.mRoomId]? = some (room.handleUserLeave user.mID) := by
      simp [dropped, left, setRoom]
    have published := publish_room_info host (dropped keeper user room) (room.handleUserLeave user.mID) (by
      rw [(after.own held).1]
      exact held) fun member inside => after.online held inside
    refine ⟨dropped keeper user room, ?_, ?_⟩
    · simp only [dropLetters, known, stored, List.flatMap_cons, List.flatMap_nil, List.append_nil, done]
      rfl
    · simp only [dropLetters, known, stored, post_single, ← published]
      simp only [PagedKeeper.handleDrop, known, get_room_by_id_ok.mpr stored, ok_then]
      rfl

/-! ### Handlers -/

/-- A handler over values, and the same handler with its messages: both stop at the same
assertion, or both come to the same state, the one with what the letters say and the other
once they are posted. -/
def Agrees (host : Host) (letters : List Letter) (value : Except Fault (RoomKeeper × List Sent))
    (paged : Except Fault (RoomKeeper × List OperContext)) : Prop :=
  (∃ fault, value = .error fault ∧ paged = .error fault) ∨
    ∃ next, value = .ok (next, letters.flatMap Letter.sent) ∧
      paged = post host letters >>= fun own => .ok (next, own)

theorem list_sent (keeper : RoomKeeper) (connId : UInt64) :
    keeper.publishRoomList connId = (listTo keeper connId).sent := by
  simp only [publishRoomList, listTo, Letter.sent]
  split
  · rfl
  · rw [List.map_map]
    rfl

private theorem list_posted (host : Host) (keeper : RoomKeeper) (connId : UInt64) :
    PagedKeeper.publishRoomList host keeper connId = (listTo keeper connId).post host := by
  simp only [PagedKeeper.publishRoomList, listTo, Letter.post, if_true]
  cases Msg.build host (listFields (valuesOf keeper.mIdRoom)) with
  | error fault => rfl
  | ok msg =>
    simp only [ok_then]
    split
    · cases copied : PagedKeeper.sendCopy host msg connId with
      | error fault => simp [copied, List.mapM_cons]
      | ok ctx => simp [copied, List.mapM_cons, pure_ok]
    · rw [List.mapM_map]
      rfl

theorem reply_posted (connId : UInt64) (fields : List Field) (letters : List Letter) :
    post host (replyTo connId fields :: letters) = (do
      let msg ← Msg.build host fields
      let rest ← post host letters
      return .send connId msg :: rest) := by
  simp only [post, Letter.post, replyTo]
  cases Msg.build host fields with
  | error fault => rfl
  | ok msg => rfl

private theorem logon_serves (host : Host) (inv : Inv keeper) (name ip : StdString) (port : UInt16) (connId : UInt64) :
    Agrees host (logonLetters keeper (.new name ip port connId)) (Worker.serveLogon name ip port connId keeper)
      (PagedWorker.serveLogon host name ip port connId keeper) := by
  have user : (User.new name ip port connId).mName = name ∧ (User.new name ip port connId).mID = connId := ⟨rfl, rfl⟩
  rcases logon_agrees host inv name ip port connId with ⟨err, refusal, value, paged⟩ | ⟨hall, admitted, stored, value, paged⟩
  · refine .inr ⟨keeper, ?_, ?_⟩
    · simp only [Worker.serveLogon, value, ok_then, failed, Worker.returnedUser, Err.code_ne_zero, if_false, pure_ok,
        list_sent, logonLetters, user, refusal, List.flatMap_cons, List.flatMap_nil, List.append_nil]
      rfl
    · simp only [PagedWorker.serveLogon, paged, ok_then, PagedKeeper.failed, Worker.returnedUser, Err.code_ne_zero,
        if_false, list_posted, logonLetters, user, refusal, reply_posted, post_single]
      cases Msg.build host (Worker.logonRes err.code (errText err) []) with
      | error fault => rfl
      | ok reply =>
        cases (listTo keeper connId).post host <;> rfl
  · have known : (welcomed keeper (.new name ip port connId) hall).mIdUser[connId]? =
        some ((User.new name ip port connId).setRoomId 0) := by
      rw [welcomed, entered_user]
      exact if_pos rfl
    refine .inr ⟨welcomed keeper (.new name ip port connId) hall, ?_, ?_⟩
    · simp only [Worker.serveLogon, value, ok_then, succeeded, Worker.returnedUser, if_true, known, pure_ok, list_sent,
        logonLetters, user, admitted, stored]
      simp only [List.flatMap_cons, List.flatMap_nil, List.append_nil]
      rfl
    · simp only [PagedWorker.serveLogon, paged, logonLetters, user, admitted, stored]
      rw [post]
      cases (infoOf (welcomed keeper (.new name ip port connId) hall) (hall.add connId)).post host with
      | error fault => rfl
      | ok info =>
        simp only [ok_then, PagedKeeper.succeeded, Worker.returnedUser, if_true, known, list_posted, reply_posted,
          post_single]
        cases Msg.build host (Worker.logonRes 0 (.ascii "") ((User.new name ip port connId).setRoomId 0).encode) with
        | error fault => rfl
        | ok reply =>
          cases (listTo (welcomed keeper (.new name ip port connId) hall) connId).post host <;> rfl

private theorem chat_serves (host : Host) (inv : Inv keeper) (roomId : UInt32) (input : StdString) (connId : UInt64) :
    Agrees host (chatLetters keeper roomId input connId) (Worker.serveChat roomId input connId keeper)
      (PagedWorker.serveChat host roomId input connId keeper) := by
  cases known : keeper.mIdUser[connId]? with
  | none =>
    refine .inl ⟨.assertion, ?_, ?_⟩
    · simp only [Worker.serveChat, publishRoomMessage, getUserById, known, error_then]
    · simp only [PagedWorker.serveChat, PagedKeeper.publishRoomMessage, getUserById, known, error_then]
  | some user =>
    cases stored : keeper.mIdRoom[roomId]? with
    | none =>
      refine .inl ⟨.assertion, ?_, ?_⟩
      · simp only [Worker.serveChat, publishRoomMessage, getUserById, known, ok_then, getRoomById, stored, error_then]
      · simp only [PagedWorker.serveChat, PagedKeeper.publishRoomMessage, getUserById, known, ok_then, getRoomById,
          stored, error_then]
    | some room =>
      refine .inr ⟨keeper, ?_, ?_⟩
      · simp only [Worker.serveChat, publish_room_message_ok inv known stored input, ok_then, chatLetters, known, stored,
          List.flatMap_cons, List.flatMap_nil, List.append_nil]
        rfl
      · simp only [PagedWorker.serveChat, PagedKeeper.publishRoomMessage, get_user_by_id_ok.mpr known,
          get_room_by_id_ok.mpr stored, ok_then, chatLetters, known, stored, post_single, Letter.post, chatTo, if_true]
        have each : ∀ (msg : Msg) (members : List UInt64), (∀ member ∈ members, member ∈ room.mUsers) →
            (members.mapM fun member => do
              let temp ← keeper.getUserById member
              PagedKeeper.sendCopy host msg temp.mID) = members.mapM (PagedKeeper.sendCopy host msg) := by
          intro msg members inside
          induction members with
          | nil => rfl
          | cons member members ih =>
            obtain ⟨temp, found⟩ := inv.online stored (inside member List.mem_cons_self)
            rw [List.mapM_cons, List.mapM_cons, get_user_by_id_ok.mpr found, ok_then, inv.ids found,
              ih fun other later => inside other (List.mem_cons_of_mem member later)]
        cases Msg.build host (chatFields user.mName input) with
        | error fault => rfl
        | ok msg =>
          simp only [ok_then, each msg room.getAllUsers fun member inside => Room.mem_all_users.mp inside]
          cases room.getAllUsers.mapM (PagedKeeper.sendCopy host msg) <;> rfl

private theorem create_serves (host : Host) (keeper : RoomKeeper) (roomName passwd : StdString) (connId : UInt64) :
    Agrees host (createLetters keeper roomName passwd connId) (Worker.serveCreateRoom roomName passwd connId keeper)
      (PagedWorker.serveCreateRoom host roomName passwd connId keeper) := by
  by_cases taken : keeper.mRoomNames.contains roomName = true
  · have refused : keeper.createRoom roomName passwd =
        keeper.failed .roomWithSameNameAlreadyExists (errText .roomWithSameNameAlreadyExists) := if_pos taken
    refine .inr ⟨keeper, ?_, ?_⟩
    · simp only [Worker.serveCreateRoom, refused, failed, list_sent, createLetters, if_pos taken]
      simp only [List.flatMap_cons, List.flatMap_nil, List.append_nil]
      rfl
    · simp only [PagedWorker.serveCreateRoom, refused, failed, list_posted, createLetters, if_pos taken, reply_posted,
        post_single]
      cases Msg.build host _ with
      | error fault => rfl
      | ok reply => cases (listTo keeper 0).post host <;> rfl
  · have accepted : keeper.createRoom roomName passwd = (created keeper roomName passwd).succeeded [] := if_neg taken
    refine .inr ⟨created keeper roomName passwd, ?_, ?_⟩
    · simp only [Worker.serveCreateRoom, accepted, succeeded, list_sent, createLetters, if_neg taken]
      simp only [List.flatMap_cons, List.flatMap_nil, List.append_nil]
      rfl
    · simp only [PagedWorker.serveCreateRoom, accepted, succeeded, list_posted, createLetters, if_neg taken, reply_posted,
        post_single]
      cases Msg.build host _ with
      | error fault => rfl
      | ok reply => cases (listTo (created keeper roomName passwd) 0).post host <;> rfl

private theorem join_serves (host : Host) (inv : Inv keeper) (roomName passwd : StdString) (connId : UInt64) :
    Agrees host (joinLetters keeper roomName passwd connId) (Worker.serveJoinRoom roomName passwd connId keeper)
      (PagedWorker.serveJoinRoom host roomName passwd connId keeper) := by
  rcases move_agrees host inv roomName passwd connId with
    ⟨err, refusal, value, paged⟩ | ⟨user, oldRoom, roomId, room, admitted, known, old, named, stored, value, paged⟩
  · refine .inr ⟨keeper, ?_, ?_⟩
    · simp only [Worker.serveJoinRoom, value, ok_then, failed, joinLetters, refusal]
      rfl
    · simp only [PagedWorker.serveJoinRoom, paged, ok_then, PagedKeeper.failed, joinLetters, refusal, reply_posted, post]
      cases Msg.build host _ <;> rfl
  · refine .inr ⟨moved keeper user oldRoom roomId room, ?_, ?_⟩
    · simp only [Worker.serveJoinRoom, value, ok_then, succeeded, joinLetters, admitted, known, named, moveLetters, old,
        stored, List.cons_append, List.nil_append, List.flatMap_cons, List.flatMap_nil, List.append_nil]
      rw [List.append_assoc]
      rfl
    · simp only [PagedWorker.serveJoinRoom, paged, joinLetters, admitted, known, named, post_append, reply_posted]
      cases post host (moveLetters keeper user roomId) with
      | error fault => rfl
      | ok infos =>
        simp only [ok_then, PagedKeeper.succeeded, post]
        cases Msg.build host (Worker.joinRoomRes 0 (.ascii "") roomName) <;> rfl

private theorem whisper_serves (host : Host) (keeper : RoomKeeper) (toName words : StdString) (connId : UInt64) :
    Agrees host (whisperLetters keeper toName words connId) (Worker.serveWhisper toName words connId keeper)
      (PagedWorker.serveWhisper host toName words connId keeper) := by
  cases known : keeper.mIdUser[connId]? with
  | none =>
    refine .inl ⟨.assertion, ?_, ?_⟩
    · simp only [Worker.serveWhisper, getUserById, known, error_then]
    · simp only [PagedWorker.serveWhisper, getUserById, known, error_then]
  | some fromUser =>
    cases found : keeper.getUserByName toName with
    | none =>
      refine .inr ⟨keeper, ?_, ?_⟩
      · simp only [Worker.serveWhisper, get_user_by_id_ok.mpr known, ok_then, found, whisperLetters, known]
        rfl
      · simp only [PagedWorker.serveWhisper, get_user_by_id_ok.mpr known, ok_then, found, whisperLetters, known,
          PagedWorker.sendWhisperFailed, reply_posted, post]
        cases Msg.build host _ <;> rfl
    | some toUser =>
      refine .inr ⟨keeper, ?_, ?_⟩
      · simp only [Worker.serveWhisper, get_user_by_id_ok.mpr known, ok_then, found, whisperLetters, known]
        rfl
      · simp only [PagedWorker.serveWhisper, get_user_by_id_ok.mpr known, ok_then, found, whisperLetters, known,
          reply_posted, post]
        cases Msg.build host _ <;> rfl

theorem serve_agrees (host : Host) (inv : Inv keeper) (ip : StdString) (port : UInt16) (connId : UInt64)
    (request : Worker.Request) :
    Agrees host (requestLetters keeper ip port connId request) (Worker.serve ip port connId request keeper)
      (PagedWorker.serve host ip port connId request keeper) := by
  cases request with
  | logon name => exact logon_serves host inv name ip port connId
  | chat roomId input => exact chat_serves host inv roomId input connId
  | createRoom roomName passwd => exact create_serves host keeper roomName passwd connId
  | joinRoom roomName passwd => exact join_serves host inv roomName passwd connId
  | whisper toName words => exact whisper_serves host keeper toName words connId
  | other code unknown => exact .inr ⟨keeper, rfl, rfl⟩

/-! ### Events -/

/-- `RecvMessage` reads the values of a request and does what it asks for. -/
private theorem recv_request (host : Host) (ip : StdString) (port : UInt16) (connId : UInt64) (request : Worker.Request) :
    (PagedWorker.recvMessage host ip port connId).run Reader.takeValue request.fields =
      .ok (PagedWorker.serve host ip port connId request, []) := by
  cases request with
  | logon name => rfl
  | chat roomId input => rfl
  | createRoom roomName passwd => rfl
  | joinRoom roomName passwd => rfl
  | whisper toName words => rfl
  | other code unknown =>
    simp only [PagedWorker.recvMessage, Reader.bind_eq, Reader.run_bind_ok, read_int_ok]
    refine ⟨code, [], rfl, ?_⟩
    split
    case h_6 => rfl
    all_goals
      rename_i selected
      exact absurd unknown (by simp [selected])

theorem take_serves (host : Host) (keeper : RoomKeeper) (delivery : Worker.Delivery) (request : Worker.Request)
    (encoded : encode request.fields <+: delivery.frame.payload) :
    Worker.take host keeper (.recv delivery request encoded) =
      PagedWorker.serve host delivery.ip delivery.port delivery.connId request keeper := by
  obtain ⟨rest, payload⟩ := encoded
  have unread := MsgReading.unread_frame delivery.frame
  rw [← payload] at unread
  obtain ⟨left, ran, _⟩ := MsgReading.run_read_of_values unread
    (recv_request host delivery.ip delivery.port delivery.connId request)
  simp only [Worker.take, Worker.Event.context, Worker.process, ran, ok_then]
  cases PagedWorker.serve host delivery.ip delivery.port delivery.connId request keeper <;> rfl

theorem take_agrees (host : Host) (inv : Inv keeper) (event : Worker.Event) :
    Agrees host (lettersOf keeper event) (Worker.step keeper event) (Worker.take host keeper event) := by
  cases event with
  | recv delivery request encoded =>
    have value : Worker.step keeper (.recv delivery request encoded) =
        Worker.serve delivery.ip delivery.port delivery.connId request keeper :=
      Worker.receive_request keeper delivery request encoded
    rw [take_serves host keeper delivery request encoded, value]
    exact serve_agrees host inv delivery.ip delivery.port delivery.connId request
  | drop connId =>
    obtain ⟨next, value, paged⟩ := drop_agrees host inv connId
    refine .inr ⟨next, ?_, ?_⟩
    · simp only [Worker.step, Worker.drop, value, ok_then, lettersOf]
      rfl
    · simp only [Worker.take, Worker.Event.context, Worker.process, paged, lettersOf]
      cases post host (dropLetters keeper connId) <;> rfl

/-! ### What is enqueued -/

/-- A message into which these values were written, or a copy of one. -/
inductive Written (host : Host) (fields : List Field) : Msg → Prop where
  | built {msg : Msg} (made : Msg.build host fields = .ok msg) : Written host fields msg
  | copied {msg copy : Msg} (made : Msg.build host fields = .ok msg) (taken : msg.dup host = .ok copy) :
      Written host fields copy

/-- The context in which such a message is enqueued. -/
def Bears (host : Host) (reply : Sent) (ctx : OperContext) : Prop :=
  ∃ msg, ctx = .send reply.connId msg ∧ Written host reply.fields msg

private theorem copies_ok {msg copy : Msg} (taken : msg.dup host = .ok copy) (connIds : List UInt64) :
    connIds.mapM (PagedKeeper.sendCopy host msg) = .ok (connIds.map fun connId => .send connId copy) := by
  induction connIds with
  | nil => rfl
  | cons connId connIds ih => simp only [List.mapM_cons, PagedKeeper.sendCopy, taken, ok_then, pure_ok, ih, List.map_cons]

/-- A letter is posted when it can be, as the message or as its copies. -/
private theorem letter_posts (letter : Letter) :
    (∃ own, letter.post host = .ok own) ↔ letter.Posts host := by
  unfold Letter.post Letter.Posts
  cases built : Msg.build host letter.fields with
  | error fault => simp
  | ok msg =>
    simp only [ok_then, Except.ok.injEq, exists_eq_left']
    split
    next copied =>
      cases taken : msg.dup host with
      | ok copy => simp [copies_ok taken]
      | error fault =>
        cases addressees : letter.addressees with
        | nil => simp [copied, pure_ok]
        | cons connId connIds => simp [copied, List.mapM_cons, PagedKeeper.sendCopy, taken]
    next itself => simp [itself, pure_ok]

private theorem letter_bears {letter : Letter} (posted : letter.post host = .ok own) :
    List.Forall₂ (Bears host) letter.sent own := by
  obtain ⟨msg, made, rest⟩ := bind_ok.mp posted
  have each : ∀ connIds : List UInt64, ∀ {sending : Msg}, Written host letter.fields sending →
      List.Forall₂ (Bears host) (connIds.map fun connId => ⟨connId, letter.fields⟩)
        (connIds.map fun connId => OperContext.send connId sending) := by
    intro connIds sending written
    induction connIds with
    | nil => exact .nil
    | cons connId connIds ih => exact .cons ⟨sending, rfl, written⟩ ih
  split at rest
  · cases taken : msg.dup host with
    | ok copy =>
      cases (copies_ok taken letter.addressees).symm.trans rest
      exact each letter.addressees (.copied made taken)
    | error fault =>
      unfold Letter.sent
      cases addressees : letter.addressees with
      | nil =>
        rw [addressees] at rest
        cases rest
        exact .nil
      | cons connId connIds =>
        rw [addressees, List.mapM_cons] at rest
        obtain ⟨_, stuck, _⟩ := bind_ok.mp rest
        simp only [PagedKeeper.sendCopy, taken, error_then, reduceCtorEq] at stuck
  · cases rest
    exact each letter.addressees (.built made)

theorem post_iff (letters : List Letter) : (∃ own, post host letters = .ok own) ↔ ∀ letter ∈ letters, letter.Posts host := by
  induction letters with
  | nil => exact iff_of_true ⟨[], rfl⟩ (fun _ inside => nomatch inside)
  | cons letter letters ih =>
    rw [List.forall_mem_cons, ← letter_posts, ← ih]
    constructor
    · rintro ⟨_, posted⟩
      obtain ⟨own, first, later⟩ := bind_ok.mp posted
      obtain ⟨rest, others, _⟩ := bind_ok.mp later
      exact ⟨⟨own, first⟩, rest, others⟩
    · rintro ⟨⟨own, first⟩, rest, others⟩
      exact ⟨own ++ rest, by rw [post, first, ok_then, others]; rfl⟩

theorem post_bears (posted : post host letters = .ok own) :
    List.Forall₂ (Bears host) (letters.flatMap Letter.sent) own := by
  induction letters generalizing own with
  | nil =>
    cases posted
    exact .nil
  | cons letter letters ih =>
    obtain ⟨first, here, later⟩ := bind_ok.mp posted
    obtain ⟨rest, others, same⟩ := bind_ok.mp later
    cases same
    rw [List.flatMap_cons]
    exact List.rel_append (letter_bears here) (ih others)

/-! ### Any context -/

section Reading

variable {σ φ : Type} {source : Source Kind.Carrier σ φ} {state left : σ} {act : PagedServe} {ip : StdString}
  {port : UInt16} {connId : UInt64}

/-- The three requests with two texts. -/
private theorem two_texts_alike {paged : StdString → StdString → PagedServe} (value : StdString → StdString → Serve)
    (ran : (do let first ← readStr; let second ← readStr; return paged first second : FieldReader PagedServe).run
      source state = .ok (act, left)) :
    ∃ first second, act = paged first second ∧
      (do let first ← readStr; let second ← readStr; return value first second : FieldReader Serve).run source state =
        .ok (value first second, left) := by
  simp only [Reader.bind_eq, Reader.pure_eq, Reader.run_bind_ok, Reader.run_done] at ran ⊢
  obtain ⟨first, middle, here, second, _, there, same⟩ := ran
  cases same
  exact ⟨first, second, rfl, first, middle, here, second, left, there, rfl⟩

/-- The two workers read a message alike. -/
theorem recv_alike (ran : (PagedWorker.recvMessage host ip port connId).run source state = .ok (act, left)) :
    ∃ request, act = PagedWorker.serve host ip port connId request ∧
      (Worker.recvMessage ip port connId).run source state = .ok (Worker.serve ip port connId request, left) := by
  simp only [PagedWorker.recvMessage, Reader.bind_eq, Reader.run_bind_ok] at ran
  obtain ⟨msgType, middle, typed, ran⟩ := ran
  simp only [Worker.recvMessage, Reader.bind_eq, Reader.run_bind_ok]
  split at ran
  next selected =>
    simp only [PagedWorker.handleLogon, Reader.bind_eq, Reader.pure_eq, Reader.run_bind_ok, Reader.run_done] at ran
    obtain ⟨name, _, named, same⟩ := ran
    cases same
    refine ⟨.logon name, rfl, msgType, middle, typed, ?_⟩
    rw [selected]
    exact Reader.run_bind_ok.mpr ⟨name, left, named, rfl⟩
  next selected =>
    simp only [PagedWorker.publishChatMessage, Reader.bind_eq, Reader.pure_eq, Reader.run_bind_ok, Reader.run_done] at ran
    obtain ⟨roomId, last, placed, input, _, said, same⟩ := ran
    cases same
    refine ⟨.chat roomId input, rfl, msgType, middle, typed, ?_⟩
    rw [selected]
    exact Reader.run_bind_ok.mpr ⟨roomId, last, placed, Reader.run_bind_ok.mpr ⟨input, left, said, rfl⟩⟩
  next selected =>
    obtain ⟨roomName, passwd, rfl, read⟩ := two_texts_alike
      (fun roomName passwd => Worker.serveCreateRoom roomName passwd connId) ran
    exact ⟨.createRoom roomName passwd, rfl, msgType, middle, typed, by rw [selected]; exact read⟩
  next selected =>
    obtain ⟨roomName, passwd, rfl, read⟩ := two_texts_alike
      (fun roomName passwd => Worker.serveJoinRoom roomName passwd connId) ran
    exact ⟨.joinRoom roomName passwd, rfl, msgType, middle, typed, by rw [selected]; exact read⟩
  next selected =>
    obtain ⟨toName, words, rfl, read⟩ := two_texts_alike
      (fun toName words => Worker.serveWhisper toName words connId) ran
    exact ⟨.whisper toName words, rfl, msgType, middle, typed, by rw [selected]; exact read⟩
  next =>
    cases ran
    refine ⟨.other msgType (by simp_all), rfl, msgType, left, typed, ?_⟩
    split
    case h_6 => rfl
    all_goals contradiction

end Reading

/-- What a handler with its messages has done, seen from the handler over values. -/
theorem agrees_ok {value : Except Fault (RoomKeeper × List Sent)} {paged : Except Fault (RoomKeeper × List OperContext)}
    (agrees : Agrees host letters value paged) :
    paged = .ok (next, own) ↔ value = .ok (next, letters.flatMap Letter.sent) ∧ post host letters = .ok own := by
  rcases agrees with ⟨fault, rfl, rfl⟩ | ⟨after, rfl, rfl⟩
  · simp
  · cases post host letters with
    | error fault => simp
    | ok posted => simp [eq_comm]

/-- All that a context can come to. -/
inductive Processes (host : Host) (keeper : RoomKeeper) : OperContext → Worker.Processed → Prop where
  | passed {connId : UInt64} {msg : Msg} : Processes host keeper (.send connId msg) ⟨keeper, [], [.send connId msg]⟩
  | served {msg left : Msg} {connId : UInt64} {ip : StdString} {port : UInt16} {request : Worker.Request}
      {next : RoomKeeper} {sent : List Sent} {own : List OperContext}
      (read : (Worker.recvMessage ip port connId).run Msg.read msg = .ok (Worker.serve ip port connId request, left))
      (serves : Worker.serve ip port connId request keeper = .ok (next, sent))
      (bears : List.Forall₂ (Bears host) sent own) : Processes host keeper (.recv msg connId ip port) ⟨next, own, []⟩
  | dropped {connId : UInt64} {next : RoomKeeper} {sent : List Sent} {own : List OperContext}
      (drops : Worker.drop keeper connId = .ok (next, sent)) (bears : List.Forall₂ (Bears host) sent own) :
      Processes host keeper (.drop connId) ⟨next, own, []⟩

theorem process_cases {ctx : OperContext} {result : Worker.Processed} (inv : Inv keeper)
    (done : Worker.process host keeper ctx = .ok result) : Processes host keeper ctx result := by
  cases ctx with
  | accept socket => contradiction
  | send connId msg =>
    cases done
    exact .passed
  | recv msg connId ip port =>
    obtain ⟨⟨act, left⟩, read, rest⟩ := bind_ok.mp done
    obtain ⟨⟨next, own⟩, served, same⟩ := bind_ok.mp rest
    cases same
    obtain ⟨request, rfl, readToo⟩ := recv_alike read
    obtain ⟨serves, posted⟩ := (agrees_ok (serve_agrees host inv ip port connId request)).mp served
    exact .served readToo serves (post_bears posted)
  | drop connId =>
    obtain ⟨outcome, handled, same⟩ := bind_ok.mp done
    cases same
    obtain ⟨next, value, paged⟩ := drop_agrees host inv connId
    rw [paged] at handled
    obtain ⟨own, posted, same⟩ := bind_ok.mp handled
    cases same
    exact .dropped (bind_ok.mpr ⟨_, value, rfl⟩) (post_bears posted)

/-! ### Room on the page -/

/-- A message that a connection sends as a frame with these values. -/
def Carries (msg : Msg) (fields : List Field) : Prop :=
  ∃ frame : Frame, frame.payload = encode fields ∧ msg.wireBytes = frame.wire

/-- A message starts with its type. -/
def Typed (fields : List Field) : Prop := ∃ (type : MsgType) (rest : List Field), fields = type.field :: rest

theorem request_typed (keeper : RoomKeeper) (ip : StdString) (port : UInt16) (connId : UInt64) (request : Worker.Request) :
    ∀ letter ∈ requestLetters keeper ip port connId request, Typed letter.fields := by
  intro letter inside
  cases request with
  | logon name =>
    simp only [requestLetters, logonLetters] at inside
    split at inside
    · simp only [List.mem_cons, List.not_mem_nil, or_false] at inside
      rcases inside with rfl | rfl
      · exact ⟨_, _, rfl⟩
      · exact ⟨_, _, rfl⟩
    · split at inside
      · cases inside
      · simp only [List.mem_cons, List.not_mem_nil, or_false] at inside
        rcases inside with rfl | rfl | rfl
        · exact ⟨_, _, rfl⟩
        · exact ⟨_, _, rfl⟩
        · exact ⟨_, _, rfl⟩
  | chat roomId input =>
    simp only [requestLetters, chatLetters] at inside
    split at inside
    · cases List.mem_singleton.mp inside
      exact ⟨_, _, rfl⟩
    · cases inside
  | createRoom roomName passwd =>
    simp only [requestLetters, createLetters] at inside
    split at inside
    all_goals
      simp only [List.mem_cons, List.not_mem_nil, or_false] at inside
      rcases inside with rfl | rfl
      · exact ⟨_, _, rfl⟩
      · exact ⟨_, _, rfl⟩
  | joinRoom roomName passwd =>
    simp only [requestLetters, joinLetters] at inside
    split at inside
    · cases List.mem_singleton.mp inside
      exact ⟨_, _, rfl⟩
    · split at inside
      · rcases List.mem_append.mp inside with told | replied
        · unfold moveLetters at told
          split at told
          · simp only [List.mem_cons, List.not_mem_nil, or_false] at told
            rcases told with rfl | rfl
            · exact ⟨_, _, rfl⟩
            · exact ⟨_, _, rfl⟩
          · cases told
        · cases List.mem_singleton.mp replied
          exact ⟨_, _, rfl⟩
      · cases inside
  | whisper toName words =>
    simp only [requestLetters, whisperLetters] at inside
    split at inside
    · cases List.mem_singleton.mp inside
      exact ⟨_, _, rfl⟩
    · cases List.mem_singleton.mp inside
      exact ⟨_, _, rfl⟩
    · cases inside
  | other code unknown => cases inside

theorem letters_typed (keeper : RoomKeeper) (event : Worker.Event) :
    ∀ letter ∈ lettersOf keeper event, Typed letter.fields := by
  cases event with
  | recv delivery request encoded => exact request_typed keeper delivery.ip delivery.port delivery.connId request
  | drop connId =>
    intro letter inside
    simp only [lettersOf, dropLetters] at inside
    split at inside
    · cases inside
    · split at inside
      · cases inside
      · cases List.mem_singleton.mp inside
        exact ⟨_, _, rfl⟩

private theorem typed_length {fields : List Field} (typed : Typed fields) : 4 ≤ (encode fields).length := by
  obtain ⟨type, rest, rfl⟩ := typed
  exact at_least_type type.code rest

/-- With room on its page a message is built, and it and its copies are frames. -/
theorem room_written {fields : List Field} (typed : Typed fields) (room : HasRoom host fields) :
    (∃ msg copy, Msg.build host fields = .ok msg ∧ msg.dup host = .ok copy) ∧
      ∀ msg, Written host fields msg → Carries msg fields := by
  obtain ⟨msg, frame, built, holds, payload, sent⟩ := MsgWriting.build_frames room.1 (typed_length typed) room.2
  obtain ⟨copy, taken, sentToo⟩ := MsgWriting.dup_frames host (payload ▸ holds) sent
  refine ⟨⟨msg, copy, built, taken⟩, fun other written => ?_⟩
  cases written with
  | built made =>
    cases built.symm.trans made
    exact ⟨frame, payload, sent⟩
  | copied made again =>
    cases built.symm.trans made
    cases taken.symm.trans again
    exact ⟨frame, payload, sentToo⟩

theorem room_posts {letter : Letter} (typed : Typed letter.fields) (room : HasRoom host letter.fields) :
    letter.Posts host := by
  obtain ⟨⟨msg, copy, built, taken⟩, _⟩ := room_written typed room
  exact ⟨msg, built, fun _ _ => ⟨copy, taken⟩⟩

/-- A message that carries these values is enqueued for the connection. -/
def Delivers (reply : Sent) (ctx : OperContext) : Prop :=
  ∃ msg, ctx = .send reply.connId msg ∧ Carries msg reply.fields

variable {event : Worker.Event} {events : List Worker.Event} {owns : List (List OperContext)}

theorem take_ok_iff (inv : Inv keeper) :
    Worker.take host keeper event = .ok (next, own) ↔
      Worker.step keeper event = .ok (next, (lettersOf keeper event).flatMap Letter.sent) ∧
        post host (lettersOf keeper event) = .ok own :=
  agrees_ok (take_agrees host inv event)

/-- The worker comes through exactly with an answer and all messages posted. -/
theorem take_completes_iff (inv : Inv keeper) :
    (∃ next own, Worker.take host keeper event = .ok (next, own)) ↔
      Processable keeper event ∧ ∀ letter ∈ lettersOf keeper event, letter.Posts host := by
  rw [← step_iff keeper event inv, ← post_iff]
  constructor
  · rintro ⟨next, own, taken⟩
    obtain ⟨stepped, posted⟩ := (take_ok_iff inv).mp taken
    exact ⟨⟨next, _, stepped⟩, own, posted⟩
  · rintro ⟨⟨next, sent, stepped⟩, own, posted⟩
    rcases take_agrees host inv event with ⟨fault, failed, _⟩ | ⟨after, value, paged⟩
    · cases stepped.symm.trans failed
    · exact ⟨after, own, by rw [paged, posted]; rfl⟩

theorem take_keeps (inv : Inv keeper) (taken : Worker.take host keeper event = .ok (next, own)) : Inv next :=
  step_keeps inv event ((take_ok_iff inv).mp taken).1

theorem run_keeps (ran : run (Worker.take host) RoomKeeper.new events = .ok (keeper, owns)) : Inv keeper :=
  run_invariant Inv (fun _ _ _ _ inv taken => take_keeps inv taken) inv_new ran

/-- What the worker enqueues bears what the worker over values sends. -/
theorem take_bears (inv : Inv keeper) (taken : Worker.take host keeper event = .ok (next, own)) :
    ∃ sent, Worker.step keeper event = .ok (next, sent) ∧ List.Forall₂ (Bears host) sent own := by
  obtain ⟨stepped, posted⟩ := (take_ok_iff inv).mp taken
  exact ⟨_, stepped, post_bears posted⟩

/-- A run with its messages is a run over values. -/
theorem run_bears (inv : Inv keeper) (ran : run (Worker.take host) keeper events = .ok (next, owns)) :
    ∃ sents, run Worker.step keeper events = .ok (next, sents) ∧ List.Forall₂ (List.Forall₂ (Bears host)) sents owns := by
  induction events generalizing keeper owns with
  | nil =>
    cases ran
    exact ⟨[], rfl, .nil⟩
  | cons event events ih =>
    obtain ⟨between, own, rest, taken, later, rfl⟩ := run_cons_ok.mp ran
    obtain ⟨sent, stepped, bears⟩ := take_bears inv taken
    obtain ⟨sents, steps, all⟩ := ih (take_keeps inv taken) later
    exact ⟨sent :: sents, run_cons_ok.mpr ⟨between, sent, sents, stepped, steps, rfl⟩, .cons bears all⟩

/-! ### Messages that fit their page -/

theorem fits_room {fields : List Field} (fits : Fits host fields) : HasRoom host fields := by
  have range := host.range
  have head : HEAD_LENGTH = 8 := rfl
  unfold Fits at fits
  exact ⟨.inl fits, by omega⟩

/-- All that the request of a client makes the worker write fits its page. -/
def AllFit (host : Host) (keeper : RoomKeeper) (asked : Asked) : Prop :=
  ∀ letter ∈ requestLetters keeper (.ascii "10.0.0.1") 4000 asked.connId asked.request, Fits host letter.fields

instance (host : Host) (keeper : RoomKeeper) (asked : Asked) : Decidable (AllFit host keeper asked) :=
  inferInstanceAs (Decidable (∀ letter ∈ _, _))

/-- A step over values is taken with its messages, when all of them have room. -/
theorem take_with_room {sent : List Sent} (inv : Inv keeper) (stepped : Worker.step keeper event = .ok (next, sent))
    (roomy : ∀ letter ∈ lettersOf keeper event, HasRoom host letter.fields) :
    ∃ own, Worker.take host keeper event = .ok (next, own) := by
  have processable := (step_iff keeper event inv).mp ⟨next, sent, stepped⟩
  obtain ⟨after, own, taken⟩ := (take_completes_iff inv).mpr ⟨processable, fun letter inside =>
    room_posts (letters_typed keeper event letter inside) (roomy letter inside)⟩
  cases stepped.symm.trans ((take_ok_iff inv).mp taken).1
  exact ⟨own, taken⟩

/-- What clients have asked for over values they have asked for with all messages. -/
theorem asked_fits (host : Host) {asked : List Asked} {sents : List (List Sent)} (inv : Inv keeper)
    (ran : run Asked.step keeper asked = .ok (next, sents)) (fits : EveryStep Asked.step (AllFit host) keeper asked) :
    ∃ owns, run (Worker.take host) keeper (asked.map Asked.event) = .ok (next, owns) := by
  induction asked generalizing keeper sents with
  | nil =>
    cases ran
    exact ⟨[], rfl⟩
  | cons first asked ih =>
    obtain ⟨between, sent, rest, served, later, rfl⟩ := run_cons_ok.mp ran
    obtain ⟨here, behind⟩ := fits
    obtain ⟨own, taken⟩ := take_with_room inv ((Asked.step_event keeper first).trans served)
      fun letter inside => fits_room (here letter inside)
    obtain ⟨owns, all⟩ := ih (take_keeps inv taken) later (behind between _ served)
    exact ⟨own :: owns, run_cons_ok.mpr ⟨between, own, owns, taken, all, rfl⟩⟩

/-! ### What a connection is sent -/

def messageTo (connId : UInt64) : OperContext → Option Msg
  | .accept _ => none
  | .recv _ _ _ _ => none
  | .send addressee msg => if addressee = connId then some msg else none
  | .drop _ => none

/-- The messages to a connection, of everything that is sent. -/
def messagesTo (connId : UInt64) (contexts : List OperContext) : List Msg := contexts.filterMap (messageTo connId)

theorem messages_to_append (connId : UInt64) (first second : List OperContext) :
    messagesTo connId (first ++ second) = messagesTo connId first ++ messagesTo connId second :=
  List.filterMap_append

theorem messages_to_cons (connId : UInt64) (ctx : OperContext) (rest : List OperContext) :
    messagesTo connId (ctx :: rest) = messagesTo connId [ctx] ++ messagesTo connId rest :=
  messages_to_append connId [ctx] rest

theorem messages_to_send (connId addressee : UInt64) (msg : Msg) :
    messagesTo connId [.send addressee msg] = if addressee = connId then [msg] else [] := by
  unfold messagesTo messageTo
  split <;> simp_all

theorem bears_messages {sent : List Sent} (bears : List.Forall₂ (Bears host) sent own) (connId : UInt64) :
    List.Forall₂ (Written host) (sentTo connId sent) (messagesTo connId own) := by
  induction bears with
  | nil => exact .nil
  | @cons reply ctx sent own bear _ ih =>
    obtain ⟨msg, rfl, written⟩ := bear
    have first : sentTo connId (reply :: sent) = sentTo connId [reply] ++ sentTo connId sent :=
      sent_to_append connId [reply] sent
    rw [first, messages_to_cons, messages_to_send]
    refine List.rel_append ?_ ih
    by_cases same : reply.connId = connId
    · simp only [sentTo, same, beq_self_eq_true, List.filter_cons_of_pos, List.filter_nil, List.map_cons, List.map_nil,
        if_true]
      exact .cons written .nil
    · simp [sentTo, same]

end ChatRoom.PagedRefinement
