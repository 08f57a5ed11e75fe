import ChatRoom.RoomKeeper

/-! The joint invariant of the four maps, the member sets and the users' room
ids. It is kept by every operation in any order; with fewer than `2 ^ 32` rooms
the two room maps are also inverse to each other. -/
namespace ChatRoom.RoomKeeperInvariant
open Lib Wire RoomKeeper

variable {keeper : RoomKeeper} {userId other : UInt64} {roomId : UInt32} {room : Room} {user : User}

/-- What holds also in the middle of an operation, when a user is in no room
yet or in two. -/
structure Linked (keeper : RoomKeeper) : Prop where
  named : ∀ {name : StdString} {roomId : UInt32}, keeper.mRoomNames[name]? = some roomId →
    ∃ room, keeper.mIdRoom[roomId]? = some room
  own : ∀ {roomId : UInt32} {room : Room}, keeper.mIdRoom[roomId]? = some room →
    room.mID = roomId ∧ keeper.mRoomNames[room.mName]? = some roomId
  hall : ∃ hall, keeper.mRoomNames[HALL_NAME]? = some 0 ∧ keeper.mIdRoom[(0 : UInt32)]? = some hall ∧
    hall.mPassWord = .ascii ""
  online : ∀ {roomId : UInt32} {room : Room} {userId : UInt64},
    keeper.mIdRoom[roomId]? = some room → userId ∈ room.mUsers →
    ∃ user, keeper.mIdUser[userId]? = some user

/-- What holds between operations. -/
structure Inv (keeper : RoomKeeper) : Prop extends Linked keeper where
  names : ∀ {name : StdString} {userId : UInt64}, keeper.mUserNames[name]? = some userId ↔
    ∃ user, keeper.mIdUser[userId]? = some user ∧ user.mName = name
  ids : ∀ {userId : UInt64} {user : User}, keeper.mIdUser[userId]? = some user → user.mID = userId
  member : ∀ {roomId : UInt32} {room : Room} {userId : UInt64}, keeper.mIdRoom[roomId]? = some room →
    (userId ∈ room.mUsers ↔ ∃ user, keeper.mIdUser[userId]? = some user ∧ user.mRoomId = roomId)
  housed : ∀ {userId : UInt64} {user : User}, keeper.mIdUser[userId]? = some user →
    ∃ room, keeper.mIdRoom[user.mRoomId]? = some room

/-! ### What is sent -/

/-- The records of a room's members. -/
def usersOf (keeper : RoomKeeper) (room : Room) : List User :=
  room.getAllUsers.filterMap fun userId => keeper.mIdUser[userId]?

/-- What a room's members are told about it. -/
def announced (keeper : RoomKeeper) (room : Room) : List Field := infoFields room (usersOf keeper room)

def announce (keeper : RoomKeeper) (room : Room) : List Sent :=
  room.getAllUsers.map fun userId => ⟨userId, announced keeper room⟩

theorem get_user_by_id_ok : keeper.getUserById userId = .ok user ↔ keeper.mIdUser[userId]? = some user := by
  unfold getUserById
  split <;> simp_all

theorem mem_users : userId ∈ keeper.mIdUser ↔ ∃ user, keeper.mIdUser[userId]? = some user := by
  rw [Std.ExtTreeMap.mem_iff_isSome_getElem?, Option.isSome_iff_exists]

theorem get_room_by_id_ok : keeper.getRoomById roomId = .ok room ↔ keeper.mIdRoom[roomId]? = some room := by
  unfold getRoomById
  split <;> simp_all

private theorem users_found {userIds : List UInt64}
    (known : ∀ userId ∈ userIds, ∃ user, keeper.mIdUser[userId]? = some user) :
    userIds.mapM keeper.getUserById = .ok (userIds.filterMap fun userId => keeper.mIdUser[userId]?) := by
  induction userIds with
  | nil => rfl
  | cons userId userIds ih =>
    obtain ⟨user, found⟩ := known userId (by simp)
    have rest := ih fun other member => known other (List.mem_cons_of_mem userId member)
    simp [List.mapM_cons, get_user_by_id_ok.mpr found, rest, found, pure_ok]

theorem get_room_info_ok (stored : keeper.mIdRoom[roomId]? = some room)
    (online : ∀ userId ∈ room.mUsers, ∃ user, keeper.mIdUser[userId]? = some user) :
    keeper.getRoomInfoMsg roomId = .ok (announced keeper room) := by
  have found : room.getAllUsers.mapM keeper.getUserById = .ok (usersOf keeper room) :=
    users_found fun userId member => online userId (Room.mem_all_users.mp member)
  simp only [getRoomInfoMsg, get_room_by_id_ok.mpr stored, found, ok_then]
  rfl

theorem publish_room_info_ok (room : Room) (stored : keeper.mIdRoom[room.mID]? = some room)
    (online : ∀ userId ∈ room.mUsers, ∃ user, keeper.mIdUser[userId]? = some user) :
    keeper.publishRoomInfo room = .ok (announce keeper room) := by
  simp only [publishRoomInfo, get_room_info_ok stored online, ok_then]
  rfl

/-! ### Entering and leaving a room -/

theorem set_room_lookup (keeper : RoomKeeper) (roomId : UInt32) (room : Room) (probe : UInt32) :
    (keeper.setRoom roomId room).mIdRoom[probe]? = if roomId = probe then some room else keeper.mIdRoom[probe]? := by
  simp only [setRoom, Std.ExtTreeMap.getElem?_insert, Std.LawfulEqCmp.compare_eq_iff_eq]

/-- A room is replaced by one that differs from it in the members only. -/
theorem linked_set_room {changed : Room} (linked : Linked keeper) (stored : keeper.mIdRoom[roomId]? = some room)
    (id : changed.mID = room.mID) (name : changed.mName = room.mName) (passwd : changed.mPassWord = room.mPassWord)
    (online : ∀ userId ∈ changed.mUsers, ∃ user, keeper.mIdUser[userId]? = some user) :
    Linked (keeper.setRoom roomId changed) := by
  constructor
  · intro name probe named
    rw [set_room_lookup]
    split
    · exact ⟨changed, rfl⟩
    · exact linked.named named
  · intro probe held found
    rw [set_room_lookup] at found
    split at found
    next same =>
      subst same
      cases found
      rw [id, name]
      exact linked.own stored
    next => exact linked.own found
  · obtain ⟨hall, named, found, unlocked⟩ := linked.hall
    by_cases same : roomId = 0
    · subst same
      cases stored.symm.trans found
      exact ⟨changed, named, by rw [set_room_lookup, if_pos rfl], passwd.trans unlocked⟩
    · exact ⟨hall, named, by rw [set_room_lookup, if_neg same, found], unlocked⟩
  · intro probe held member found inside
    rw [set_room_lookup] at found
    split at found
    next =>
      cases found
      exact online member inside
    next => exact linked.online found inside

theorem set_room_keeps {probe : UInt32} (roomId : UInt32) (room : Room) (stored : keeper.mIdRoom[probe]? = some held) :
    ∃ found, (keeper.setRoom roomId room).mIdRoom[probe]? = some found := by
  rw [set_room_lookup]
  split
  · exact ⟨room, rfl⟩
  · exact ⟨held, stored⟩

/-- Nobody is forgotten; the rooms are as before. -/
theorem linked_more_users (linked : Linked keeper) (users : Std.ExtTreeMap UInt64 User)
    (names : Std.ExtTreeMap StdString UInt64)
    (kept : ∀ (userId : UInt64) (user : User), keeper.mIdUser[userId]? = some user →
      ∃ found, users[userId]? = some found) :
    Linked { keeper with mIdUser := users, mUserNames := names } := by
  refine ⟨linked.named, linked.own, linked.hall, ?_⟩
  intro probe held member found inside
  obtain ⟨user, known⟩ := linked.online found inside
  exact kept member user known

/-- The state once a user has been added to a room. -/
def entered (keeper : RoomKeeper) (userId : UInt64) (user : User) (roomId : UInt32) (room : Room) :
    RoomKeeper :=
  { keeper.setRoom roomId (room.add userId) with
    mIdUser := keeper.mIdUser.insert userId (user.setRoomId roomId) }

theorem entered_user (keeper : RoomKeeper) (userId : UInt64) (user : User) (roomId : UInt32) (room : Room)
    (probe : UInt64) : (entered keeper userId user roomId room).mIdUser[probe]? =
      if userId = probe then some (user.setRoomId roomId) else keeper.mIdUser[probe]? := by
  simp only [entered, Std.ExtTreeMap.getElem?_insert, Std.LawfulEqCmp.compare_eq_iff_eq]

theorem entered_room (keeper : RoomKeeper) (userId : UInt64) (user : User) (roomId : UInt32) (room : Room)
    (probe : UInt32) : (entered keeper userId user roomId room).mIdRoom[probe]? =
      if roomId = probe then some (room.add userId) else keeper.mIdRoom[probe]? :=
  set_room_lookup keeper roomId (room.add userId) probe

theorem linked_entered (userId : UInt64) (user : User) (linked : Linked keeper)
    (stored : keeper.mIdRoom[roomId]? = some room) :
    Linked (entered keeper userId user roomId room) := by
  have users : ∀ probe, (keeper.mIdUser.insert userId (user.setRoomId roomId))[probe]? =
      if userId = probe then some (user.setRoomId roomId) else keeper.mIdUser[probe]? :=
    entered_user keeper userId user roomId room
  have known := linked_more_users linked (keeper.mIdUser.insert userId (user.setRoomId roomId))
    keeper.mUserNames (by
      intro probe found held
      rw [users]
      split
      · exact ⟨_, rfl⟩
      · exact ⟨found, held⟩)
  apply linked_set_room known stored Room.add_id (Room.add_name userId) Room.add_passwd
  intro member inside
  rcases Room.mem_add.mp inside with rfl | inside
  · exact ⟨user.setRoomId roomId, by rw [users, if_pos rfl]⟩
  · exact known.online stored inside

/-- `JoinRoom` with the right name and password, for a user who is not inside. -/
theorem join_room_enters (linked : Linked keeper) (known : keeper.mIdUser[userId]? = some user)
    (named : keeper.mRoomNames[roomName]? = some roomId)
    (stored : keeper.mIdRoom[roomId]? = some room) (passwd : room.mPassWord = word)
    (outside : userId ∉ room.mUsers) :
    keeper.joinRoom roomName userId word =
      .ok ((entered keeper userId user roomId room).succeeded
        (announce (entered keeper userId user roomId room) (room.add userId))) := by
  have okay : room.isPasswdOkay word = true := Room.is_passwd_okay.mpr passwd
  have absent : ¬ room.isUserIn userId = true := fun inside => outside (Room.is_user_in.mp inside)
  have still : (keeper.setRoom roomId (room.add userId)).getUserById userId = .ok user :=
    get_user_by_id_ok.mpr known
  have after := linked_entered userId user linked stored
  have held : (entered keeper userId user roomId room).mIdRoom[roomId]? = some (room.add userId) := by
    simp [entered, setRoom]
  have published := publish_room_info_ok (room.add userId) (by
    rw [(after.own held).1]
    exact held) fun member inside => after.online held inside
  simp only [joinRoom, named, get_room_by_id_ok.mpr stored, okay, absent, setUserRoomId, still, ok_then]
  simp only [entered, setRoom] at published ⊢
  simp only [pure_ok, ok_then, published]
  rfl

/-- Why a user is not let into a room. -/
def joinRefusal (keeper : RoomKeeper) (roomName word : StdString) (userId : UInt64) : Option Err :=
  match keeper.mRoomNames[roomName]? with
  | none => some .roomNotExist
  | some roomId =>
    match keeper.mIdRoom[roomId]? with
    | none => none
    | some room =>
      if room.mPassWord ≠ word then some .roomPasswdNotMatch
      else if userId ∈ room.mUsers then some .userAlreadyInThisRoom
      else none

/-- `JoinRoom` either refuses and changes nothing, or enters the named room. -/
theorem join_room_cases (linked : Linked keeper) (known : keeper.mIdUser[userId]? = some user)
    (roomName word : StdString) :
    (∃ err errstr, joinRefusal keeper roomName word userId = some err ∧
      keeper.joinRoom roomName userId word = .ok (keeper.failed err errstr)) ∨
      ∃ roomId room, keeper.mRoomNames[roomName]? = some roomId ∧
        keeper.mIdRoom[roomId]? = some room ∧ room.mPassWord = word ∧ userId ∉ room.mUsers ∧
        keeper.joinRoom roomName userId word =
          .ok ((entered keeper userId user roomId room).succeeded
            (announce (entered keeper userId user roomId room) (room.add userId))) := by
  cases named : keeper.mRoomNames[roomName]? with
  | none =>
    exact .inl ⟨.roomNotExist, .ascii "room not exists!", by simp only [joinRefusal, named], by simp only [joinRoom, named]⟩
  | some roomId =>
    obtain ⟨room, stored⟩ := linked.named named
    by_cases passwd : room.mPassWord = word
    · by_cases inside : userId ∈ room.mUsers
      · have okay : room.isPasswdOkay word = true := Room.is_passwd_okay.mpr passwd
        have present : room.isUserIn userId = true := Room.is_user_in.mpr inside
        refine .inl ⟨.userAlreadyInThisRoom, .ascii "user already in this room",
          by simp [joinRefusal, named, stored, passwd, inside], ?_⟩
        simp only [joinRoom, named, get_room_by_id_ok.mpr stored, okay, present, ok_then]
        rfl
      · exact .inr ⟨roomId, room, rfl, stored, passwd, inside,
          join_room_enters linked known named stored passwd inside⟩
    · have refused : ¬ room.isPasswdOkay word = true := fun okay => passwd (Room.is_passwd_okay.mp okay)
      refine .inl ⟨.roomPasswdNotMatch, .ascii "room passwd not match, try again!",
        by simp [joinRefusal, named, stored, passwd], ?_⟩
      simp only [joinRoom, named, get_room_by_id_ok.mpr stored, refused, ok_then]
      rfl

/-- The state once a user has been taken out of a room. -/
def left (keeper : RoomKeeper) (userId : UInt64) (roomId : UInt32) (room : Room) : RoomKeeper :=
  keeper.setRoom roomId (room.handleUserLeave userId)

theorem left_room (keeper : RoomKeeper) (userId : UInt64) (roomId : UInt32) (room : Room) (probe : UInt32) :
    (left keeper userId roomId room).mIdRoom[probe]? =
      if roomId = probe then some (room.handleUserLeave userId) else keeper.mIdRoom[probe]? :=
  set_room_lookup keeper roomId (room.handleUserLeave userId) probe

theorem linked_left (userId : UInt64) (linked : Linked keeper) (stored : keeper.mIdRoom[roomId]? = some room) :
    Linked (left keeper userId roomId room) := by
  apply linked_set_room linked stored Room.leave_id (Room.leave_name userId) Room.leave_passwd
  intro member inside
  exact linked.online stored (Room.mem_leave.mp inside).2

theorem leave_room_leaves (userId : UInt64) (linked : Linked keeper) (named : keeper.mRoomNames[roomName]? = some roomId)
    (stored : keeper.mIdRoom[roomId]? = some room) :
    keeper.leaveRoom roomName userId =
      .ok ((left keeper userId roomId room).succeeded
        (announce (left keeper userId roomId room) (room.handleUserLeave userId))) := by
  have after := linked_left userId linked stored
  have held : (left keeper userId roomId room).mIdRoom[roomId]? = some (room.handleUserLeave userId) := by
    simp [left, setRoom]
  have published := publish_room_info_ok (room.handleUserLeave userId) (by
    rw [(after.own held).1]
    exact held) fun member inside => after.online held inside
  simp only [left] at published
  simp only [leaveRoom, named, get_room_by_id_ok.mpr stored, ok_then, published, left]
  rfl

/-! ### What each operation does -/

/-- The state `HandleLogon` hands to `JoinRoom`: the user is in no room. -/
def registered (keeper : RoomKeeper) (user : User) : RoomKeeper :=
  { keeper with
    mIdUser := keeper.mIdUser.insertIfNew user.mID user
    mUserNames := keeper.mUserNames.insertIfNew user.mName user.mID }

theorem registered_other (keeper : RoomKeeper) (user : User) {other : UInt64} (different : other ≠ user.mID) :
    (registered keeper user).mIdUser[other]? = keeper.mIdUser[other]? := by
  simp only [registered, Std.ExtTreeMap.getElem?_insertIfNew, Std.LawfulEqCmp.compare_eq_iff_eq]
  exact if_neg fun same => different same.1.symm

theorem registered_self (user : User) (fresh : keeper.mIdUser[user.mID]? = none) :
    (registered keeper user).mIdUser[user.mID]? = some user := by
  have absent : user.mID ∉ keeper.mIdUser := by simpa using fresh
  simp only [registered, Std.ExtTreeMap.getElem?_insertIfNew, Std.LawfulEqCmp.compare_eq_iff_eq]
  exact if_pos ⟨trivial, absent⟩

theorem registered_name (keeper : RoomKeeper) (user : User) (free : keeper.mUserNames[user.mName]? = none)
    (name : StdString) : (registered keeper user).mUserNames[name]? =
      if user.mName = name then some user.mID else keeper.mUserNames[name]? := by
  have absent : user.mName ∉ keeper.mUserNames := by simpa using free
  simp only [registered, Std.ExtTreeMap.getElem?_insertIfNew, Std.LawfulEqCmp.compare_eq_iff_eq, absent,
    not_false_eq_true, and_true]

theorem linked_registered (user : User) (linked : Linked keeper) (fresh : keeper.mIdUser[user.mID]? = none) :
    Linked (registered keeper user) := by
  apply linked_more_users linked _ _
  intro member found known
  have different : member ≠ user.mID := by
    rintro rfl
    rw [fresh] at known
    cases known
  exact ⟨found, (registered_other keeper user different).trans known⟩

/-- A new id and a free name are let in, to the hall. -/
theorem logon_accepts (inv : Inv keeper) (ip : StdString) (port : UInt16) (fresh : keeper.mIdUser[userId]? = none)
    (free : keeper.mUserNames[name]? = none) :
    ∃ hall, keeper.mIdRoom[(0 : UInt32)]? = some hall ∧
      keeper.handleLogon name ip port userId =
        .ok ((entered (registered keeper (.new name ip port userId)) userId (.new name ip port userId) 0
            hall).succeeded
          (announce (entered (registered keeper (.new name ip port userId)) userId
            (.new name ip port userId) 0 hall) (hall.add userId))) := by
  obtain ⟨hall, named, stored, passwd⟩ := inv.hall
  have unlogged : ¬ keeper.mIdUser.contains userId = true := by simpa using fresh
  have untaken : ¬ keeper.mUserNames.contains name = true := by simpa using free
  have outside : userId ∉ hall.mUsers := by
    intro inside
    obtain ⟨user, known⟩ := inv.online stored inside
    rw [fresh] at known
    cases known
  have known : (registered keeper (.new name ip port userId)).mIdUser[userId]? =
      some (.new name ip port userId) := registered_self (.new name ip port userId) fresh
  have joined := join_room_enters (linked_registered (.new name ip port userId) inv.toLinked fresh)
    known named stored passwd outside
  refine ⟨hall, stored, ?_⟩
  rw [handleLogon, if_neg unlogged, if_neg untaken]
  simp only [registered, User.new] at joined
  simp only [registered, User.new, joined, ok_then]
  rfl

theorem logon_cases (inv : Inv keeper) (name ip : StdString) (port : UInt16) (userId : UInt64) :
    (∃ err errstr, keeper.handleLogon name ip port userId = .ok (keeper.failed err errstr)) ∨
      ∃ hall, keeper.mIdUser[userId]? = none ∧ keeper.mUserNames[name]? = none ∧
        keeper.mIdRoom[(0 : UInt32)]? = some hall ∧
        keeper.handleLogon name ip port userId =
          .ok ((entered (registered keeper (.new name ip port userId)) userId (.new name ip port userId) 0
              hall).succeeded
            (announce (entered (registered keeper (.new name ip port userId)) userId
              (.new name ip port userId) 0 hall) (hall.add userId))) := by
  by_cases logged : keeper.mIdUser.contains userId = true
  · exact .inl ⟨_, _, by rw [handleLogon, if_pos logged]⟩
  · by_cases taken : keeper.mUserNames.contains name = true
    · exact .inl ⟨_, _, by rw [handleLogon, if_neg logged, if_pos taken]⟩
    · have fresh : keeper.mIdUser[userId]? = none := by simpa using logged
      have free : keeper.mUserNames[name]? = none := by simpa using taken
      obtain ⟨hall, stored, accepted⟩ := logon_accepts inv ip port fresh free
      exact .inr ⟨hall, fresh, free, stored, accepted⟩

/-- The state after `HandleJoinRoom` has moved a user. -/
def moved (keeper : RoomKeeper) (user : User) (oldRoom : Room) (roomId : UInt32) (room : Room) :
    RoomKeeper :=
  left (entered keeper user.mID user roomId room) user.mID user.mRoomId oldRoom

/-- Why a user is not moved to a room. -/
def moveRefusal (keeper : RoomKeeper) (roomName passwd : StdString) (userId : UInt64) : Option Err :=
  match keeper.mIdUser[userId]? with
  | none => some .userNotExist
  | some _ => joinRefusal keeper roomName passwd userId

/-- `HandleJoinRoom` either refuses and changes nothing, or moves the user to
the room that has the name and the password. -/
theorem join_cases_named (inv : Inv keeper) (roomName passwd : StdString) (userId : UInt64) :
    (∃ err errstr, moveRefusal keeper roomName passwd userId = some err ∧
      keeper.handleJoinRoom roomName passwd userId = .ok (keeper.failed err errstr)) ∨
      ∃ user oldRoom roomId room, keeper.mIdUser[userId]? = some user ∧
        keeper.mIdRoom[user.mRoomId]? = some oldRoom ∧ keeper.mRoomNames[roomName]? = some roomId ∧
        keeper.mIdRoom[roomId]? = some room ∧ room.mPassWord = passwd ∧
        roomId ≠ user.mRoomId ∧ userId ∉ room.mUsers ∧
        keeper.handleJoinRoom roomName passwd userId =
          .ok ((moved keeper user oldRoom roomId room).succeeded
            (announce (entered keeper userId user roomId room) (room.add userId) ++
              announce (moved keeper user oldRoom roomId room) (oldRoom.handleUserLeave userId))) := by
  cases known : keeper.mIdUser[userId]? with
  | none =>
    exact .inl ⟨.userNotExist, .ascii "join room ,but user not exist!", by simp only [moveRefusal, known],
      by simp only [handleJoinRoom, known]⟩
  | some user =>
    obtain ⟨oldRoom, old⟩ := inv.housed known
    have own := inv.ids known
    rcases join_room_cases inv.toLinked known roomName passwd with
      ⟨err, errstr, reason, refused⟩ | ⟨roomId, room, named, stored, word, outside, joined⟩
    · refine .inl ⟨err, errstr, by simp only [moveRefusal, known, reason], ?_⟩
      simp only [handleJoinRoom, known, get_room_by_id_ok.mpr old, refused, ok_then]
      simp [failed, pure_ok]
    · have inside : userId ∈ oldRoom.mUsers := (inv.member old).mpr ⟨user, known, rfl⟩
      have other : roomId ≠ user.mRoomId := by
        rintro rfl
        cases old.symm.trans stored
        exact outside inside
      have between := linked_entered userId user inv.toLinked stored
      have still : (entered keeper userId user roomId room).mIdRoom[user.mRoomId]? = some oldRoom := by
        rw [entered_room, if_neg other, old]
      have leaves := leave_room_leaves userId between (between.own still).2 still
      refine .inr ⟨user, oldRoom, roomId, room, rfl, old, named, stored, word, other, outside, ?_⟩
      simp only [handleJoinRoom, known, get_room_by_id_ok.mpr old, joined, ok_then, succeeded,
        leaves, moved, own]
      rfl

theorem join_cases (inv : Inv keeper) (roomName passwd : StdString) (userId : UInt64) :
    (∃ err errstr, keeper.handleJoinRoom roomName passwd userId = .ok (keeper.failed err errstr)) ∨
      ∃ user oldRoom roomId room, keeper.mIdUser[userId]? = some user ∧
        keeper.mIdRoom[user.mRoomId]? = some oldRoom ∧ keeper.mIdRoom[roomId]? = some room ∧
        roomId ≠ user.mRoomId ∧ userId ∉ room.mUsers ∧
        keeper.handleJoinRoom roomName passwd userId =
          .ok ((moved keeper user oldRoom roomId room).succeeded
            (announce (entered keeper userId user roomId room) (room.add userId) ++
              announce (moved keeper user oldRoom roomId room) (oldRoom.handleUserLeave userId))) := by
  rcases join_cases_named inv roomName passwd userId with
    ⟨err, errstr, _, refused⟩ | ⟨user, oldRoom, roomId, room, known, old, _, stored, _, other, outside, joined⟩
  · exact .inl ⟨err, errstr, refused⟩
  · exact .inr ⟨user, oldRoom, roomId, room, known, old, stored, other, outside, joined⟩

/-- The state after `HandleDrop` has removed a user. -/
def dropped (keeper : RoomKeeper) (user : User) (room : Room) : RoomKeeper :=
  { left keeper user.mID user.mRoomId room with
    mUserNames := keeper.mUserNames.erase user.mName
    mIdUser := keeper.mIdUser.erase user.mID }

theorem dropped_user (keeper : RoomKeeper) (user : User) (room : Room) (probe : UInt64) :
    (dropped keeper user room).mIdUser[probe]? =
      if user.mID = probe then none else keeper.mIdUser[probe]? := by
  simp only [dropped, Std.ExtTreeMap.getElem?_erase, Std.LawfulEqCmp.compare_eq_iff_eq]

theorem linked_dropped (inv : Inv keeper) (known : keeper.mIdUser[user.mID]? = some user)
    (stored : keeper.mIdRoom[user.mRoomId]? = some room) : Linked (dropped keeper user room) := by
  obtain ⟨named, own, hall, _⟩ := linked_left user.mID inv.toLinked stored
  refine ⟨named, own, hall, ?_⟩
  intro probe held member found inside
  have rooms : (dropped keeper user room).mIdRoom[probe]? =
      if user.mRoomId = probe then some (room.handleUserLeave user.mID) else keeper.mIdRoom[probe]? :=
    left_room keeper user.mID user.mRoomId room probe
  rw [dropped_user]
  rw [rooms] at found
  split at found
  next home =>
    cases found
    obtain ⟨different, inside⟩ := Room.mem_leave.mp inside
    rw [if_neg (Ne.symm different)]
    exact inv.online stored inside
  next away =>
    obtain ⟨other, present, there⟩ := (inv.member found).mp inside
    have different : user.mID ≠ member := by
      rintro rfl
      cases known.symm.trans present
      exact away there
    exact ⟨other, by rw [if_neg different, present]⟩

theorem drop_cases (inv : Inv keeper) (userId : UInt64) :
    (keeper.mIdUser[userId]? = none ∧ keeper.handleDrop userId = .ok (keeper.succeeded [])) ∨
      ∃ user room, keeper.mIdUser[userId]? = some user ∧ keeper.mIdRoom[user.mRoomId]? = some room ∧
        keeper.handleDrop userId =
          .ok ((dropped keeper user room).succeeded
            (announce (dropped keeper user room) (room.handleUserLeave userId))) := by
  cases known : keeper.mIdUser[userId]? with
  | none => exact .inl ⟨rfl, by simp only [handleDrop, known]⟩
  | some user =>
    obtain ⟨room, stored⟩ := inv.housed known
    obtain rfl := inv.ids known
    have after := linked_dropped inv known stored
    have held : (dropped keeper user room).mIdRoom[user.mRoomId]? =
        some (room.handleUserLeave user.mID) := by
      simp [dropped, left, setRoom]
    have published := publish_room_info_ok (room.handleUserLeave user.mID) (by
      rw [(after.own held).1]
      exact held) fun member inside => after.online held inside
    refine .inr ⟨user, room, rfl, stored, ?_⟩
    simp only [dropped, left] at published
    simp only [handleDrop, known, get_room_by_id_ok.mpr stored, ok_then, published, dropped, left]
    rfl

/-! ### The invariant is kept -/

/-- The names in use are those of the records, each under the id that its
record gives. -/
structure NamesHeld (keeper : RoomKeeper) : Prop where
  names : ∀ {name : StdString} {userId : UInt64}, keeper.mUserNames[name]? = some userId ↔
    ∃ user, keeper.mIdUser[userId]? = some user ∧ user.mName = name
  ids : ∀ {userId : UInt64} {user : User}, keeper.mIdUser[userId]? = some user → user.mID = userId

theorem names_held_entered {roomId : UInt32} {room : Room} (held : NamesHeld keeper)
    (known : keeper.mIdUser[user.mID]? = some user) : NamesHeld (entered keeper user.mID user roomId room) := by
  constructor
  · intro name probe
    rw [entered_user]
    apply Iff.trans held.names
    by_cases self : user.mID = probe
    · subst self
      simp [known, User.setRoomId]
    · rw [if_neg self]
  · intro probe found present
    rw [entered_user] at present
    split at present
    next self =>
      cases present
      exact self
    next => exact held.ids present

theorem names_held_registered (held : NamesHeld keeper) (fresh : keeper.mIdUser[user.mID]? = none)
    (free : keeper.mUserNames[user.mName]? = none) : NamesHeld (registered keeper user) := by
  have self := registered_self user fresh
  constructor
  · intro name probe
    rw [registered_name keeper user free]
    by_cases own : probe = user.mID
    · subst own
      have unnamed : keeper.mUserNames[name]? ≠ some user.mID := by
        intro named
        obtain ⟨found, known, _⟩ := held.names.mp named
        rw [fresh] at known
        cases known
      by_cases same : user.mName = name
      · simp [same, self]
      · simp [same, self, unnamed]
    · rw [registered_other keeper user own, ← held.names]
      by_cases same : user.mName = name
      · subst same
        simp [free, Ne.symm own]
      · rw [if_neg same]
  · intro probe found present
    by_cases own : probe = user.mID
    · subst own
      cases self.symm.trans present
      rfl
    · rw [registered_other keeper user own] at present
      exact held.ids present

/-- Everybody but one user is in the room of their record, and in no other. -/
structure OthersSeated (keeper : RoomKeeper) (userId : UInt64) : Prop where
  member : ∀ {roomId : UInt32} {room : Room} {other : UInt64}, other ≠ userId →
    keeper.mIdRoom[roomId]? = some room →
    (other ∈ room.mUsers ↔ ∃ user, keeper.mIdUser[other]? = some user ∧ user.mRoomId = roomId)
  housed : ∀ {other : UInt64} {user : User}, other ≠ userId → keeper.mIdUser[other]? = some user →
    ∃ room, keeper.mIdRoom[user.mRoomId]? = some room

theorem others_seated_of_inv (inv : Inv keeper) (userId : UInt64) : OthersSeated keeper userId :=
  ⟨fun _ stored => inv.member stored, fun _ known => inv.housed known⟩

/-- Nobody notices that one user is taken out of a room or put into one. -/
theorem others_seated_set_room {changed : Room} (seated : OthersSeated keeper userId)
    (stored : keeper.mIdRoom[roomId]? = some room)
    (same : ∀ other, other ≠ userId → (other ∈ changed.mUsers ↔ other ∈ room.mUsers)) :
    OthersSeated (keeper.setRoom roomId changed) userId := by
  constructor
  · intro probe held other different found
    rw [set_room_lookup] at found
    split at found
    next here =>
      subst here
      cases found
      exact (same other different).trans (seated.member different stored)
    next => exact seated.member different found
  · intro other found different known
    obtain ⟨home, there⟩ := seated.housed different known
    exact set_room_keeps roomId changed there

/-- Nobody else notices what becomes of one user's record. -/
theorem others_seated_users (seated : OthersSeated keeper userId) (users : Std.ExtTreeMap UInt64 User)
    (names : Std.ExtTreeMap StdString UInt64)
    (kept : ∀ other, other ≠ userId → users[other]? = keeper.mIdUser[other]?) :
    OthersSeated { keeper with mIdUser := users, mUserNames := names } userId := by
  constructor
  · intro probe held other different found
    apply (seated.member different found).trans
    rw [← kept other different]
  · intro other found different known
    exact seated.housed different ((kept other different).symm.trans known)

theorem others_seated_entered (user : User) (seated : OthersSeated keeper userId)
    (stored : keeper.mIdRoom[roomId]? = some room) : OthersSeated (entered keeper userId user roomId room) userId := by
  have entering := others_seated_users seated (keeper.mIdUser.insert userId (user.setRoomId roomId))
    keeper.mUserNames (by
      intro other different
      exact (entered_user keeper userId user roomId room other).trans (if_neg (Ne.symm different)))
  apply others_seated_set_room entering stored
  intro other different
  rw [Room.mem_add, or_iff_right different]

theorem others_seated_left (seated : OthersSeated keeper userId) (stored : keeper.mIdRoom[roomId]? = some room) :
    OthersSeated (left keeper userId roomId room) userId := by
  apply others_seated_set_room seated stored
  intro other different
  rw [Room.mem_leave, and_iff_right different]

theorem inv_of_seated (linked : Linked keeper) (held : NamesHeld keeper) (others : OthersSeated keeper userId)
    (self : ∀ {roomId : UInt32} {room : Room}, keeper.mIdRoom[roomId]? = some room →
      (userId ∈ room.mUsers ↔ ∃ user, keeper.mIdUser[userId]? = some user ∧ user.mRoomId = roomId))
    (housed : ∀ {user : User}, keeper.mIdUser[userId]? = some user →
      ∃ room, keeper.mIdRoom[user.mRoomId]? = some room) : Inv keeper := by
  refine { linked with names := held.names, ids := held.ids, member := ?_, housed := ?_ }
  · intro roomId room other stored
    by_cases same : other = userId
    · subst same
      exact self stored
    · exact others.member same stored
  · intro other user known
    by_cases same : other = userId
    · subst same
      exact housed known
    · exact others.housed same known

private theorem inv_logged_on {hall : Room} (user : User) (inv : Inv keeper) (fresh : keeper.mIdUser[user.mID]? = none)
    (free : keeper.mUserNames[user.mName]? = none)
    (stored : keeper.mIdRoom[(0 : UInt32)]? = some hall) :
    Inv (entered (registered keeper user) user.mID user 0 hall) := by
  have linked := linked_entered user.mID user
    (linked_registered user inv.toLinked fresh) stored
  have held := names_held_registered ⟨inv.names, inv.ids⟩ fresh free
  have seated : OthersSeated (registered keeper user) user.mID :=
    others_seated_users (others_seated_of_inv inv user.mID) _ _ fun other different =>
      registered_other keeper user different
  have users : (entered (registered keeper user) user.mID user 0 hall).mIdUser[user.mID]? =
      some (user.setRoomId 0) := by
    rw [entered_user, if_pos rfl]
  refine inv_of_seated linked (names_held_entered held (registered_self user fresh))
    (others_seated_entered user seated stored) ?_ ?_
  · intro probe room found
    rw [users]
    rw [entered_room] at found
    split at found
    next home =>
      cases found
      simp [home, User.setRoomId]
    next away =>
      have outside : user.mID ∉ room.mUsers := by
        intro inside
        obtain ⟨other, known⟩ := inv.online found inside
        rw [fresh] at known
        cases known
      simp [outside, away, User.setRoomId]
  · intro found known
    cases users.symm.trans known
    exact ⟨hall.add user.mID, by rw [entered_room]; rfl⟩

/-- After a move the mover is in the new room, and in no other. -/
private theorem inv_moved {oldRoom : Room} (inv : Inv keeper) (known : keeper.mIdUser[user.mID]? = some user)
    (old : keeper.mIdRoom[user.mRoomId]? = some oldRoom) (stored : keeper.mIdRoom[roomId]? = some room)
    (other : roomId ≠ user.mRoomId) : Inv (moved keeper user oldRoom roomId room) := by
  have between := linked_entered user.mID user inv.toLinked stored
  have still : (entered keeper user.mID user roomId room).mIdRoom[user.mRoomId]? = some oldRoom := by
    rw [entered_room, if_neg other, old]
  have linked := linked_left user.mID between still
  have held : NamesHeld (entered keeper user.mID user roomId room) :=
    names_held_entered ⟨inv.names, inv.ids⟩ known
  have seated := others_seated_entered user (others_seated_of_inv inv user.mID) stored
  have users : (moved keeper user oldRoom roomId room).mIdUser[user.mID]? = some (user.setRoomId roomId) :=
    (entered_user keeper user.mID user roomId room user.mID).trans (if_pos rfl)
  have rooms : ∀ probe, (moved keeper user oldRoom roomId room).mIdRoom[probe]? =
      if user.mRoomId = probe then some (oldRoom.handleUserLeave user.mID)
      else if roomId = probe then some (room.add user.mID)
      else keeper.mIdRoom[probe]? := by
    intro probe
    rw [moved, left_room, entered_room]
  refine inv_of_seated linked ⟨held.names, held.ids⟩ (others_seated_left seated still) ?_ ?_
  · intro probe found present
    have now : (∃ user', (moved keeper user oldRoom roomId room).mIdUser[user.mID]? = some user' ∧
        user'.mRoomId = probe) ↔ roomId = probe := by
      simp [users, User.setRoomId]
    refine Iff.trans ?_ now.symm
    rw [rooms] at present
    split at present
    next home =>
      subst home
      cases present
      simp [other]
    next away =>
      split at present
      next here =>
        cases present
        simp [here]
      next elsewhere =>
        rw [inv.member present, known]
        simp [away, elsewhere]
  · intro found present
    cases users.symm.trans present
    exact ⟨room.add user.mID, (rooms roomId).trans (by rw [if_neg (Ne.symm other), if_pos rfl])⟩

private theorem names_held_dropped (inv : Inv keeper) (known : keeper.mIdUser[user.mID]? = some user) (room : Room) :
    NamesHeld (dropped keeper user room) := by
  have forgotten : ∀ name, (dropped keeper user room).mUserNames[name]? =
      if user.mName = name then none else keeper.mUserNames[name]? := by
    intro name
    simp only [dropped, Std.ExtTreeMap.getElem?_erase, Std.LawfulEqCmp.compare_eq_iff_eq]
  constructor
  · intro name probe
    rw [dropped_user, forgotten]
    by_cases self : user.mID = probe
    · subst self
      by_cases same : user.mName = name
      · simp [same]
      · simp [same, inv.names, known]
    · rw [if_neg self, ← inv.names]
      by_cases same : user.mName = name
      · subst same
        have own : keeper.mUserNames[user.mName]? = some user.mID := inv.names.mpr ⟨user, known, rfl⟩
        simp [own, self]
      · rw [if_neg same]
  · intro probe found held
    rw [dropped_user] at held
    split at held
    next => cases held
    next => exact inv.ids held

private theorem inv_dropped (inv : Inv keeper) (known : keeper.mIdUser[user.mID]? = some user)
    (stored : keeper.mIdRoom[user.mRoomId]? = some room) : Inv (dropped keeper user room) := by
  have gone : (dropped keeper user room).mIdUser[user.mID]? = none := by
    rw [dropped_user, if_pos rfl]
  have leaving := others_seated_left (others_seated_of_inv inv user.mID) stored
  have seated : OthersSeated (dropped keeper user room) user.mID :=
    others_seated_users leaving _ _ fun other different =>
      (dropped_user keeper user room other).trans (if_neg (Ne.symm different))
  have linked := linked_dropped inv known stored
  refine inv_of_seated linked (names_held_dropped inv known room) seated ?_ ?_
  · intro probe found present
    refine ⟨fun inside => ?_, ?_⟩
    · obtain ⟨other, there⟩ := linked.online present inside
      rw [gone] at there
      cases there
    · rintro ⟨other, there, _⟩
      rw [gone] at there
      cases there
  · intro found present
    rw [gone] at present
    cases present

/-- The state after `CreateRoom` has added a room. -/
def created (keeper : RoomKeeper) (name passwd : StdString) : RoomKeeper :=
  { keeper with
    mRoomNames := keeper.mRoomNames.insertIfNew name keeper.mRoomId
    mIdRoom := keeper.mIdRoom.insertIfNew keeper.mRoomId (.new keeper.mRoomId name passwd)
    mRoomId := keeper.mRoomId + 1 }

theorem created_room_old (name passwd : StdString) (stored : keeper.mIdRoom[roomId]? = some room) :
    (created keeper name passwd).mIdRoom[roomId]? = some room := by
  simp only [created, Std.ExtTreeMap.getElem?_insertIfNew, Std.LawfulEqCmp.compare_eq_iff_eq]
  rw [if_neg, stored]
  rintro ⟨rfl, absent⟩
  exact absent (Std.ExtTreeMap.mem_iff_isSome_getElem?.mpr (by rw [stored]; rfl))

theorem create_cases (keeper : RoomKeeper) (name passwd : StdString) :
    (∃ err errstr, keeper.createRoom name passwd = keeper.failed err errstr) ∨
      keeper.mRoomNames[name]? = none ∧
        keeper.createRoom name passwd = (created keeper name passwd).succeeded [] := by
  by_cases taken : keeper.mRoomNames.contains name = true
  · exact .inl ⟨_, _, by rw [createRoom, if_pos taken]⟩
  · refine .inr ⟨by simpa using taken, ?_⟩
    rw [createRoom, if_neg taken]
    rfl

theorem created_room (keeper : RoomKeeper) (name passwd : StdString) (probe : UInt32) :
    (created keeper name passwd).mIdRoom[probe]? =
      if keeper.mRoomId = probe ∧ keeper.mRoomId ∉ keeper.mIdRoom
      then some (.new keeper.mRoomId name passwd) else keeper.mIdRoom[probe]? := by
  simp only [created, Std.ExtTreeMap.getElem?_insertIfNew, Std.LawfulEqCmp.compare_eq_iff_eq]

theorem created_name (passwd : StdString) (free : keeper.mRoomNames[name]? = none) (probe : StdString) :
    (created keeper name passwd).mRoomNames[probe]? =
      if name = probe then some keeper.mRoomId else keeper.mRoomNames[probe]? := by
  have absent : name ∉ keeper.mRoomNames := by simpa using free
  simp only [created, Std.ExtTreeMap.getElem?_insertIfNew, Std.LawfulEqCmp.compare_eq_iff_eq, absent,
    not_false_eq_true, and_true]

theorem new_room_is_empty (roomId : UInt32) (name passwd : StdString) (userId : UInt64) :
    userId ∉ (Room.new roomId name passwd).mUsers := by
  simp [Room.new]

theorem absent_room : roomId ∉ keeper.mIdRoom ↔ keeper.mIdRoom[roomId]? = none := by
  rw [Std.ExtTreeMap.mem_iff_isSome_getElem?, Bool.not_eq_true, Option.isSome_eq_false_iff, Option.isNone_iff_eq_none]

/-- A new room takes an id that is not in use, unless the counter has come
round; then the new name stands for the old room. -/
private theorem inv_created (inv : Inv keeper) (free : keeper.mRoomNames[name]? = none) :
    Inv (created keeper name passwd) := by
  have names := created_name passwd free
  have rooms := created_room keeper name passwd
  refine ⟨⟨?_, ?_, ?_, ?_⟩, inv.names, inv.ids, ?_, ?_⟩
  · intro probe roomId named
    rw [names] at named
    split at named
    next =>
      cases named
      rw [rooms]
      split
      · exact ⟨_, rfl⟩
      next held =>
        by_cases absent : keeper.mRoomId ∈ keeper.mIdRoom
        · exact Option.isSome_iff_exists.mp (Std.ExtTreeMap.mem_iff_isSome_getElem?.mp absent)
        · exact absurd ⟨rfl, absent⟩ held
    next =>
      obtain ⟨room, stored⟩ := inv.named named
      exact ⟨room, created_room_old name passwd stored⟩
  · intro probe held stored
    rw [names]
    rw [rooms] at stored
    split at stored
    next fresh =>
      cases stored
      exact ⟨fresh.1, by rw [← fresh.1]; exact if_pos rfl⟩
    next =>
      obtain ⟨own, named⟩ := inv.own stored
      have different : name ≠ held.mName := by
        rintro rfl
        rw [free] at named
        cases named
      exact ⟨own, by rw [if_neg different, named]⟩
  · obtain ⟨hall, named, stored, unlocked⟩ := inv.hall
    have different : name ≠ HALL_NAME := by
      rintro rfl
      rw [free] at named
      cases named
    exact ⟨hall, by rw [names, if_neg different, named], created_room_old name passwd stored, unlocked⟩
  · intro probe held member stored inside
    rw [rooms] at stored
    split at stored
    next =>
      cases stored
      exact absurd inside (new_room_is_empty keeper.mRoomId name passwd member)
    next => exact inv.online stored inside
  · intro probe held member stored
    rw [rooms] at stored
    split at stored
    next fresh =>
      obtain ⟨rfl, absent⟩ := fresh
      cases stored
      refine ⟨fun inside => absurd inside (new_room_is_empty keeper.mRoomId name passwd member), ?_⟩
      rintro ⟨found, known, home⟩
      obtain ⟨room, stored⟩ := inv.housed known
      rw [home, absent_room.mp absent] at stored
      cases stored
    next => exact inv.member stored
  · intro member found known
    obtain ⟨room, stored⟩ := inv.housed known
    exact ⟨room, created_room_old name passwd stored⟩

theorem new_rooms (probe : UInt32) : RoomKeeper.new.mIdRoom[probe]? =
    if 0 = probe then some (Room.new 0 HALL_NAME (.ascii "")) else none := by
  simp [RoomKeeper.new, createRoom, succeeded, Std.ExtTreeMap.getElem?_insertIfNew]

theorem new_names (probe : StdString) : RoomKeeper.new.mRoomNames[probe]? =
    if HALL_NAME = probe then some 0 else none := by
  simp [RoomKeeper.new, createRoom, succeeded, Std.ExtTreeMap.getElem?_insertIfNew]

theorem new_user_names (name : StdString) : RoomKeeper.new.mUserNames[name]? = none := by
  simp [RoomKeeper.new, createRoom, succeeded]

theorem new_has_no_users (userId : UInt64) : RoomKeeper.new.mIdUser[userId]? = none := by
  simp [RoomKeeper.new, createRoom, succeeded]

theorem inv_new : Inv RoomKeeper.new := by
  have nobody : ∀ {userId : UInt64} {user : User}, RoomKeeper.new.mIdUser[userId]? ≠ some user := by
    intro userId user known
    rw [new_has_no_users] at known
    cases known
  refine ⟨⟨?_, ?_, ?_, ?_⟩, ?_, ?_, ?_, ?_⟩
  · intro probe roomId named
    rw [new_names] at named
    split at named
    · cases named
      exact ⟨_, by rw [new_rooms, if_pos rfl]⟩
    · cases named
  · intro probe held stored
    rw [new_rooms] at stored
    split at stored
    next same =>
      cases stored
      exact ⟨same, by rw [new_names, ← same]; exact if_pos rfl⟩
    next => cases stored
  · exact ⟨_, by rw [new_names, if_pos rfl], by rw [new_rooms, if_pos rfl], rfl⟩
  · intro probe held member stored inside
    rw [new_rooms] at stored
    split at stored
    · cases stored
      exact absurd inside (new_room_is_empty 0 HALL_NAME (.ascii "") member)
    · cases stored
  · intro name member
    simp [new_user_names, new_has_no_users]
  · intro member found known
    exact absurd known nobody
  · intro probe held member stored
    rw [new_rooms] at stored
    split at stored
    · cases stored
      simp [new_room_is_empty, new_has_no_users]
    · cases stored
  · intro member found known
    exact absurd known nobody

/-! ### Steps and runs -/

/-- The rooms, their names and the counter are as before; members may differ. -/
structure SameRooms (keeper next : RoomKeeper) : Prop where
  counter : next.mRoomId = keeper.mRoomId
  names : next.mRoomNames = keeper.mRoomNames
  named : ∀ roomId : UInt32,
    (next.mIdRoom[roomId]?).map Room.mName = (keeper.mIdRoom[roomId]?).map Room.mName

theorem same_rooms_refl (keeper : RoomKeeper) : SameRooms keeper keeper := ⟨rfl, rfl, fun _ => rfl⟩

private theorem same_rooms_set {changed : Room} (stored : keeper.mIdRoom[roomId]? = some room)
    (name : changed.mName = room.mName) : SameRooms keeper (keeper.setRoom roomId changed) := by
  refine ⟨rfl, rfl, fun probe => ?_⟩
  rw [set_room_lookup]
  split
  next same =>
    subst same
    rw [stored, Option.map_some, Option.map_some, name]
  next => rfl

theorem same_rooms_trans (first : SameRooms keeper middle) (second : SameRooms middle next) :
    SameRooms keeper next :=
  ⟨second.counter.trans first.counter, second.names.trans first.names,
    fun roomId => (second.named roomId).trans (first.named roomId)⟩

/-- What one request makes of the state: it creates a room, or it leaves the
rooms as they are. -/
def Advances (keeper : RoomKeeper) (request : Request) (outcome : Outcome) : Prop :=
  Inv outcome.keeper ∧
    ((SameRooms keeper outcome.keeper ∧ (request.creates && outcome.err == 0) = false) ∨
      ∃ name passwd, request = .create name passwd ∧ outcome.err = 0 ∧
        keeper.mRoomNames[name]? = none ∧ outcome.keeper = created keeper name passwd)

private theorem advances_failed (inv : Inv keeper) (request : Request) (err : Err) (errstr : StdString) :
    Advances keeper request (keeper.failed err errstr) :=
  ⟨inv, .inl ⟨same_rooms_refl keeper, by simp [failed]⟩⟩

/-- A request is answered without a failing lookup, and keeps the invariant. -/
theorem perform_advances (inv : Inv keeper) (request : Request) :
    ∃ outcome, keeper.perform request = .ok outcome ∧ Advances keeper request outcome := by
  cases request with
  | logon name ip port userId =>
    rcases logon_cases inv name ip port userId with
      ⟨err, errstr, refused⟩ | ⟨hall, fresh, free, stored, accepted⟩
    · exact ⟨_, refused, advances_failed inv _ err errstr⟩
    · refine ⟨_, accepted, ?_, .inl ⟨⟨rfl, rfl, ?_⟩, rfl⟩⟩
      · exact inv_logged_on (.new name ip port userId) inv fresh free stored
      · exact (same_rooms_set stored (Room.add_name userId)).named
  | create name passwd =>
    rcases create_cases keeper name passwd with ⟨err, errstr, refused⟩ | ⟨free, accepted⟩
    · exact ⟨_, by rw [perform, refused], advances_failed inv _ err errstr⟩
    · exact ⟨_, by rw [perform, accepted], inv_created inv free, .inr ⟨name, passwd, rfl, rfl, free, rfl⟩⟩
  | join roomName passwd userId =>
    rcases join_cases inv roomName passwd userId with
      ⟨err, errstr, refused⟩ | ⟨user, oldRoom, roomId, room, known, old, stored, other, _, accepted⟩
    · exact ⟨_, refused, advances_failed inv _ err errstr⟩
    · obtain rfl := inv.ids known
      have still : (entered keeper user.mID user roomId room).mIdRoom[user.mRoomId]? = some oldRoom := by
        rw [entered_room, if_neg other, old]
      have enters : SameRooms keeper (entered keeper user.mID user roomId room) :=
        ⟨rfl, rfl, (same_rooms_set stored (Room.add_name user.mID)).named⟩
      exact ⟨_, accepted, inv_moved inv known old stored other,
        .inl ⟨same_rooms_trans enters (same_rooms_set still (Room.leave_name user.mID)), rfl⟩⟩
  | drop userId =>
    rcases drop_cases inv userId with ⟨_, nothing⟩ | ⟨user, room, known, stored, done⟩
    · exact ⟨_, nothing, inv, .inl ⟨same_rooms_refl keeper, rfl⟩⟩
    · obtain rfl := inv.ids known
      refine ⟨_, done, inv_dropped inv known stored, .inl ⟨⟨rfl, rfl, ?_⟩, rfl⟩⟩
      exact (same_rooms_set stored (Room.leave_name user.mID)).named

theorem step_advances (inv : Inv keeper) (taken : RoomKeeper.step keeper request = .ok (next, outcome)) :
    next = outcome.keeper ∧ Advances keeper request outcome := by
  obtain ⟨same, performed, advances⟩ := perform_advances inv request
  simp only [RoomKeeper.step, performed, ok_then, pure_ok, Except.ok.injEq, Prod.mk.injEq] at taken
  obtain ⟨rfl, rfl⟩ := taken
  exact ⟨rfl, advances⟩

theorem step_of_performed (performed : keeper.perform request = .ok outcome) :
    RoomKeeper.step keeper request = .ok (outcome.keeper, outcome) := by
  rw [RoomKeeper.step, performed]
  rfl

theorem step_performs (taken : RoomKeeper.step keeper request = .ok (next, outcome)) :
    keeper.perform request = .ok outcome := by
  cases performed : keeper.perform request with
  | error fault => simp [RoomKeeper.step, performed] at taken
  | ok other =>
    simp only [RoomKeeper.step, performed, ok_then, pure_ok, Except.ok.injEq, Prod.mk.injEq] at taken
    rw [taken.2]

theorem step_completes (keeper : RoomKeeper) (request : Request) (inv : Inv keeper) :
    ∃ next outcome, RoomKeeper.step keeper request = .ok (next, outcome) ∧ Inv next := by
  obtain ⟨outcome, performed, advances⟩ := perform_advances inv request
  exact ⟨outcome.keeper, outcome, step_of_performed performed, advances.1⟩

/-! ### Who is logged on -/

theorem mem_entered {connId : UInt64} (inside : userId ∈ (entered keeper connId user roomId room).mIdUser) :
    userId = connId ∨ userId ∈ keeper.mIdUser := by
  obtain ⟨found, known⟩ := mem_users.mp inside
  rw [entered_user] at known
  by_cases same : connId = userId
  · exact .inl same.symm
  · rw [if_neg same] at known
    exact .inr (mem_users.mpr ⟨found, known⟩)

/-- Only a logon makes a user, and only the one of its own connection. -/
theorem perform_users (inv : Inv keeper) (performed : keeper.perform request = .ok outcome)
    (inside : userId ∈ outcome.keeper.mIdUser) :
    userId ∈ keeper.mIdUser ∧ request ≠ .drop userId ∨ ∃ name ip port, request = .logon name ip port userId := by
  cases request with
  | logon name ip port connId =>
    rcases logon_cases inv name ip port connId with ⟨err, errstr, refused⟩ | ⟨hall, _, _, _, accepted⟩
    · cases performed.symm.trans refused
      exact .inl ⟨inside, by simp⟩
    · cases performed.symm.trans accepted
      by_cases self : userId = connId
      · exact .inr ⟨name, ip, port, by rw [self]⟩
      · obtain ⟨found, known⟩ := mem_users.mp ((mem_entered inside).resolve_left self)
        rw [registered_other keeper (.new name ip port connId) self] at known
        exact .inl ⟨mem_users.mpr ⟨found, known⟩, by simp⟩
  | create name passwd =>
    cases performed
    rcases create_cases keeper name passwd with ⟨err, errstr, refused⟩ | ⟨_, accepted⟩
    · rw [refused] at inside
      exact .inl ⟨inside, by simp⟩
    · rw [accepted] at inside
      exact .inl ⟨inside, by simp⟩
  | join roomName passwd connId =>
    rcases join_cases inv roomName passwd connId with
      ⟨err, errstr, refused⟩ | ⟨user, oldRoom, roomId, room, known, _, _, _, _, accepted⟩
    · cases performed.symm.trans refused
      exact .inl ⟨inside, by simp⟩
    · cases performed.symm.trans accepted
      have moved : userId ∈ (entered keeper user.mID user roomId room).mIdUser := inside
      rcases mem_entered moved with rfl | before
      · exact .inl ⟨mem_users.mpr ⟨user, by rw [inv.ids known, known]⟩, by simp⟩
      · exact .inl ⟨before, by simp⟩
  | drop connId =>
    rcases drop_cases inv connId with ⟨none, absent⟩ | ⟨user, room, known, _, present⟩
    · cases performed.symm.trans absent
      refine .inl ⟨inside, ?_⟩
      rintro ⟨⟩
      obtain ⟨found, known⟩ := mem_users.mp inside
      cases none.symm.trans known
    · cases performed.symm.trans present
      obtain ⟨found, after⟩ := mem_users.mp inside
      simp only [RoomKeeper.succeeded] at after
      rw [dropped_user, inv.ids known] at after
      by_cases same : connId = userId
      · rw [if_pos same] at after
        cases after
      · rw [if_neg same] at after
        exact .inl ⟨mem_users.mpr ⟨found, after⟩, by simpa using same⟩

/-- Nobody but the one who is dropped is lost. -/
theorem perform_keeps_users (inv : Inv keeper) (performed : keeper.perform request = .ok outcome)
    (inside : userId ∈ keeper.mIdUser) (stays : request ≠ .drop userId) : userId ∈ outcome.keeper.mIdUser := by
  obtain ⟨user, known⟩ := mem_users.mp inside
  cases request with
  | logon name ip port connId =>
    rcases logon_cases inv name ip port connId with ⟨err, errstr, refused⟩ | ⟨hall, fresh, _, _, accepted⟩
    · cases performed.symm.trans refused
      exact inside
    · cases performed.symm.trans accepted
      have different : userId ≠ connId := by
        rintro rfl
        cases fresh.symm.trans known
      have before := (registered_other keeper (.new name ip port connId) different).trans known
      exact mem_users.mpr ⟨user, by rw [RoomKeeper.succeeded, entered_user, if_neg different.symm, before]⟩
  | create name passwd =>
    cases performed
    rcases create_cases keeper name passwd with ⟨err, errstr, refused⟩ | ⟨_, accepted⟩
    · rw [refused]
      exact inside
    · rw [accepted]
      exact inside
  | join roomName passwd connId =>
    rcases join_cases inv roomName passwd connId with
      ⟨err, errstr, refused⟩ | ⟨mover, oldRoom, roomId, room, _, _, _, _, _, accepted⟩
    · cases performed.symm.trans refused
      exact inside
    · cases performed.symm.trans accepted
      have after := entered_user keeper mover.mID mover roomId room userId
      by_cases same : mover.mID = userId
      · exact mem_users.mpr ⟨_, by rw [if_pos same] at after; exact after⟩
      · exact mem_users.mpr ⟨user, by rw [if_neg same] at after; exact after.trans known⟩
  | drop connId =>
    rcases drop_cases inv connId with ⟨_, absent⟩ | ⟨gone, room, was, _, present⟩
    · cases performed.symm.trans absent
      exact inside
    · cases performed.symm.trans present
      have different : gone.mID ≠ userId := by
        rw [inv.ids was]
        rintro rfl
        exact stays rfl
      exact mem_users.mpr ⟨user, by rw [RoomKeeper.succeeded, dropped_user, if_neg different, known]⟩

/-! ### Room ids -/

/-- With `count` rooms created and the counter not come round: ids are below
the counter, and each name stands for the room that has it. -/
structure Numbered (keeper : RoomKeeper) (count : Nat) : Prop where
  counter : keeper.mRoomId.toNat = count
  below : ∀ {roomId : UInt32}, roomId ∈ keeper.mIdRoom → roomId < keeper.mRoomId
  named : ∀ {name : StdString} {roomId : UInt32} {room : Room}, keeper.mRoomNames[name]? = some roomId →
    keeper.mIdRoom[roomId]? = some room → room.mName = name

private theorem numbered_same (same : SameRooms keeper next) (numbered : Numbered keeper count) :
    Numbered next count := by
  refine ⟨same.counter ▸ numbered.counter, ?_, ?_⟩
  · intro roomId inside
    have held := congrArg Option.isSome (same.named roomId)
    rw [Option.isSome_map, Option.isSome_map, Std.ExtTreeMap.mem_iff_isSome_getElem?.mp inside] at held
    rw [same.counter]
    exact numbered.below (Std.ExtTreeMap.mem_iff_isSome_getElem?.mpr held.symm)
  · intro name roomId room named stored
    have held := same.named roomId
    rw [stored, Option.map_some] at held
    rw [same.names] at named
    obtain ⟨before, found, kept⟩ := Option.map_eq_some_iff.mp held.symm
    rw [← kept]
    exact numbered.named named found

private theorem numbered_new : Numbered RoomKeeper.new 1 := by
  refine ⟨by decide, ?_, ?_⟩
  · intro roomId inside
    rw [Std.ExtTreeMap.mem_iff_isSome_getElem?, new_rooms] at inside
    split at inside
    next same =>
      subst same
      decide
    next => cases inside
  · intro name roomId room named stored
    rw [new_names] at named
    split at named
    next same =>
      cases named
      rw [new_rooms, if_pos rfl] at stored
      cases stored
      exact same
    next => cases named

private theorem numbered_created (inv : Inv keeper) (numbered : Numbered keeper count)
    (free : keeper.mRoomNames[name]? = none) (few : count + 1 < 2 ^ 32) :
    Numbered (created keeper name passwd) (count + 1) := by
  have next : (keeper.mRoomId + 1).toNat = count + 1 := by
    rw [UInt32.toNat_add, numbered.counter]
    simp only [UInt32.toNat_one]
    omega
  have absent : keeper.mRoomId ∉ keeper.mIdRoom := fun inside =>
    absurd (numbered.below inside) (UInt32.lt_irrefl _)
  refine ⟨next, ?_, ?_⟩
  · intro roomId inside
    have below : roomId ∈ keeper.mIdRoom → roomId < keeper.mRoomId := numbered.below
    change roomId < keeper.mRoomId + 1
    rw [UInt32.lt_iff_toNat_lt, next, ← numbered.counter]
    rw [Std.ExtTreeMap.mem_iff_isSome_getElem?, created_room] at inside
    split at inside
    next fresh =>
      rw [← fresh.1]
      omega
    next =>
      have := UInt32.lt_iff_toNat_lt.mp (below (Std.ExtTreeMap.mem_iff_isSome_getElem?.mpr inside))
      omega
  · intro probe roomId room named stored
    rw [created_name passwd free] at named
    split at named
    next same =>
      cases named
      rw [created_room, if_pos ⟨rfl, absent⟩] at stored
      cases stored
      exact same
    next =>
      obtain ⟨old, held⟩ := inv.named named
      cases (created_room_old name passwd held).symm.trans stored
      exact numbered.named named held

/-- While there are fewer than `2 ^ 32` rooms, their number is the counter. -/
def Counted (keeper : RoomKeeper) : Prop :=
  keeper.mIdRoom.size < 2 ^ 32 → Numbered keeper keeper.mIdRoom.size

theorem counted_new : Counted RoomKeeper.new := by
  have one : RoomKeeper.new.mIdRoom.size = 1 := by
    simp [RoomKeeper.new, createRoom, succeeded, Std.ExtTreeMap.size_insertIfNew]
  rw [Counted, one]
  exact fun _ => numbered_new

theorem same_rooms_size (same : SameRooms keeper next) : next.mIdRoom.size = keeper.mIdRoom.size := by
  apply size_congr
  intro roomId
  have held := congrArg Option.isSome (same.named roomId)
  rw [Option.isSome_map, Option.isSome_map] at held
  rw [Std.ExtTreeMap.mem_iff_isSome_getElem?, Std.ExtTreeMap.mem_iff_isSome_getElem?, held]

/-- A request adds a room or none, and the rooms stay counted. -/
theorem advances_counted (inv : Inv keeper) (counted : Counted keeper) (advances : Advances keeper request outcome) :
    Counted outcome.keeper ∧ keeper.mIdRoom.size ≤ outcome.keeper.mIdRoom.size := by
  rcases advances.2 with ⟨same, _⟩ | ⟨name, passwd, _, _, free, next⟩
  · have size := same_rooms_size same
    refine ⟨fun few => ?_, Nat.le_of_eq size.symm⟩
    rw [size] at few ⊢
    exact numbered_same same (counted few)
  · rw [next]
    have grown : (created keeper name passwd).mIdRoom.size =
        if keeper.mRoomId ∈ keeper.mIdRoom then keeper.mIdRoom.size else keeper.mIdRoom.size + 1 :=
      Std.ExtTreeMap.size_insertIfNew
    refine ⟨fun few => ?_, by rw [grown]; split <;> omega⟩
    have before : keeper.mIdRoom.size < 2 ^ 32 := by
      rw [grown] at few
      split at few <;> omega
    have numbered := counted before
    have absent : keeper.mRoomId ∉ keeper.mIdRoom := fun inside =>
      absurd (numbered.below inside) (UInt32.lt_irrefl _)
    rw [if_neg absent] at grown
    rw [grown] at few ⊢
    exact numbered_created inv numbered free few

/-- `RoomKeeper`'s maps, as they are meant: the two name maps are inverse to the
two id maps, and membership is the users' room ids. -/
structure Consistent (keeper : RoomKeeper) : Prop where
  rooms : ∀ (name : StdString) (roomId : UInt32), keeper.mRoomNames[name]? = some roomId ↔
    ∃ room, keeper.mIdRoom[roomId]? = some room ∧ room.mName = name
  below : ∀ roomId : UInt32, roomId ∈ keeper.mIdRoom → roomId < keeper.mRoomId
  hall : keeper.mRoomNames[HALL_NAME]? = some 0 ∧
    ∃ hall, keeper.mIdRoom[(0 : UInt32)]? = some hall ∧ hall.mPassWord = .ascii ""
  users : ∀ (name : StdString) (userId : UInt64), keeper.mUserNames[name]? = some userId ↔
    ∃ user, keeper.mIdUser[userId]? = some user ∧ user.mName = name
  members : ∀ (roomId : UInt32) (room : Room) (userId : UInt64), keeper.mIdRoom[roomId]? = some room →
    (userId ∈ room.mUsers ↔ ∃ user, keeper.mIdUser[userId]? = some user ∧ user.mRoomId = roomId)
  oneRoom : ∀ userId : UInt64, userId ∈ keeper.mIdUser →
    ∃! roomId : UInt32, ∃ room, keeper.mIdRoom[roomId]? = some room ∧ userId ∈ room.mUsers
  online : ∀ (roomId : UInt32) (room : Room) (userId : UInt64), keeper.mIdRoom[roomId]? = some room →
    userId ∈ room.mUsers → userId ∈ keeper.mIdUser

theorem consistent_of_inv (inv : Inv keeper) (numbered : Numbered keeper count) : Consistent keeper where
  rooms := by
    intro name roomId
    constructor
    · intro named
      obtain ⟨room, stored⟩ := inv.named named
      exact ⟨room, stored, numbered.named named stored⟩
    · rintro ⟨room, stored, rfl⟩
      exact (inv.own stored).2
  below := fun roomId inside => numbered.below inside
  hall := by
    obtain ⟨hall, named, stored, passwd⟩ := inv.hall
    exact ⟨named, hall, stored, passwd⟩
  users := fun name userId => inv.names
  members := fun roomId room userId stored => inv.member stored
  oneRoom := by
    intro userId inside
    obtain ⟨user, known⟩ := mem_users.mp inside
    obtain ⟨room, stored⟩ := inv.housed known
    refine ⟨user.mRoomId, ⟨room, stored, (inv.member stored).mpr ⟨user, known, rfl⟩⟩, ?_⟩
    rintro roomId ⟨other, held, member⟩
    obtain ⟨same, found, rfl⟩ := (inv.member held).mp member
    cases known.symm.trans found
    rfl
  online := by
    intro roomId room userId stored inside
    exact mem_users.mpr (inv.online stored inside)

/-- What every run keeps, and what it keeps while fewer than `2 ^ 32` rooms have
been created, the hall included. -/
theorem run_consistent (ran : run RoomKeeper.step RoomKeeper.new requests = .ok (keeper, outcomes)) :
    Inv keeper ∧ (1 + roomsCreated (requests.zip outcomes) < 2 ^ 32 → Consistent keeper) := by
  have history := run_history_always
    (fun keeper seen => Inv keeper ∧
      (1 + roomsCreated seen < 2 ^ 32 → Numbered keeper (1 + roomsCreated seen))) (by
      rintro keeper seen request next outcome ⟨inv, numbered⟩ taken
      obtain ⟨rfl, kept, change⟩ := step_advances inv taken
      refine ⟨kept, fun few => ?_⟩
      rcases change with ⟨same, counts⟩ | ⟨name, passwd, rfl, success, free, created⟩
      · have count : roomsCreated (seen ++ [(request, outcome)]) = roomsCreated seen := by
          simp [roomsCreated, counts]
        rw [count] at few ⊢
        exact numbered_same same (numbered few)
      · have count : roomsCreated (seen ++ [(Request.create name passwd, outcome)]) =
            roomsCreated seen + 1 := by
          simp [roomsCreated, success, Request.creates]
        rw [count] at few ⊢
        rw [created]
        exact numbered_created inv (numbered (by omega)) free (by omega))
    ⟨inv_new, fun _ => numbered_new⟩ ran
  exact ⟨history.1, fun few => consistent_of_inv history.1 (history.2 few)⟩

/-- Any logons, room creations, joins and drops, in any order, run to their
end without a failing assertion. While fewer than `2 ^ 32` rooms have been
created, the hall included, the maps are consistent. -/
theorem every_run_stays_consistent (requests : List Request) :
    ∃ keeper outcomes, run RoomKeeper.step RoomKeeper.new requests = .ok (keeper, outcomes) ∧
      (1 + roomsCreated (requests.zip outcomes) < 2 ^ 32 → Consistent keeper) := by
  obtain ⟨keeper, outcomes, ran, _⟩ := run_completes Inv step_completes inv_new requests
  exact ⟨keeper, outcomes, ran, (run_consistent ran).2⟩

private theorem rooms_created_le (requests : List Request) (outcomes : List Outcome) :
    roomsCreated (requests.zip outcomes) ≤ requests.length := by
  apply Nat.le_trans List.countP_le_length
  rw [List.length_zip]
  exact Nat.min_le_left _ _

/-- A user who logs on, makes a room, moves to it and drops. -/
theorem a_short_visit_stays_consistent :
    ∃ keeper outcomes, run RoomKeeper.step RoomKeeper.new
        [.logon (.ascii "ann") (.ascii "10.0.0.1") 4000 1, .create (.ascii "den") (.ascii "key"),
          .join (.ascii "den") (.ascii "key") 1, .drop 1] = .ok (keeper, outcomes) ∧
      Consistent keeper := by
  obtain ⟨keeper, outcomes, ran, consistent⟩ := every_run_stays_consistent
    [.logon (.ascii "ann") (.ascii "10.0.0.1") 4000 1, .create (.ascii "den") (.ascii "key"),
      .join (.ascii "den") (.ascii "key") 1, .drop 1]
  have few := rooms_created_le
    [.logon (.ascii "ann") (.ascii "10.0.0.1") 4000 1, .create (.ascii "den") (.ascii "key"),
      .join (.ascii "den") (.ascii "key") 1, .drop 1] outcomes
  exact ⟨keeper, outcomes, ran, consistent (by simp only [List.length_cons, List.length_nil] at few; omega)⟩

end ChatRoom.RoomKeeperInvariant
