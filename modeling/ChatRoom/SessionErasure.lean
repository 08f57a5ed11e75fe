import ChatRoom.RoomKeeperInvariant

/-! What a client that has come and gone leaves behind. Beside the run with its
requests goes the run without them; the two states differ in that client only:
its record, its name, and its place among the members of one room. -/
namespace ChatRoom.SessionErasure
open Lib Wire RoomKeeper RoomKeeperInvariant

variable {keeper other : RoomKeeper} {connId userId : UInt64} {roomId : UInt32} {request : Request}

/-- The requests that a connection makes; rooms are created by nobody in particular. -/
def asksFor (connId : UInt64) : Request → Bool
  | .logon _ _ _ userId => userId == connId
  | .create _ _ => false
  | .join _ _ userId => userId == connId
  | .drop userId => userId == connId

/-- Nobody else asks for the name that this connection has. -/
def LeavesName (connId : UInt64) (keeper : RoomKeeper) : Request → Prop
  | .logon name _ _ userId => userId ≠ connId →
      ∀ user ∈ keeper.mIdUser[connId]?, name ≠ user.mName
  | _ => True

instance : (request : Request) → Decidable (LeavesName connId keeper request)
  | .logon name _ _ userId =>
    inferInstanceAs (Decidable (userId ≠ connId → ∀ user ∈ keeper.mIdUser[connId]?, name ≠ user.mName))
  | .create _ _ => isTrue trivial
  | .join _ _ _ => isTrue trivial
  | .drop _ => isTrue trivial

/-- The second state is the first without this connection. -/
structure Without (connId : UInt64) (keeper other : RoomKeeper) : Prop where
  counter : other.mRoomId = keeper.mRoomId
  roomNames : other.mRoomNames = keeper.mRoomNames
  rooms : ∀ roomId : UInt32, other.mIdRoom[roomId]? = (keeper.mIdRoom[roomId]?).map fun room => room.handleUserLeave connId
  users : ∀ userId : UInt64, other.mIdUser[userId]? = if connId = userId then none else keeper.mIdUser[userId]?
  names : ∀ name : StdString, other.mUserNames[name]? =
    if keeper.mUserNames[name]? = some connId then none else keeper.mUserNames[name]?

/-! ### Rooms without a member -/

theorem room_ext {first second : Room} (id : first.mID = second.mID) (name : first.mName = second.mName)
    (passwd : first.mPassWord = second.mPassWord) (users : ∀ userId, userId ∈ first.mUsers ↔ userId ∈ second.mUsers) :
    first = second := by
  cases first
  cases second
  simp only [Room.mk.injEq]
  exact ⟨id, name, passwd, Std.ExtTreeSet.ext_mem users⟩

theorem leave_leave (room : Room) (first second : UInt64) :
    (room.handleUserLeave first).handleUserLeave second = (room.handleUserLeave second).handleUserLeave first := by
  apply room_ext (by simp) (by simp) (by simp)
  intro userId
  simp only [Room.mem_leave]
  exact and_left_comm

theorem leave_twice (room : Room) (userId : UInt64) :
    (room.handleUserLeave userId).handleUserLeave userId = room.handleUserLeave userId := by
  apply room_ext (by simp) (by simp) (by simp)
  intro other
  simp only [Room.mem_leave]
  exact and_self_left

theorem add_leave (room : Room) (userId : UInt64) :
    (room.add userId).handleUserLeave userId = room.handleUserLeave userId := by
  apply room_ext (by simp) (by simp) (by simp)
  intro other
  simp only [Room.mem_leave, Room.mem_add]
  exact and_congr_right fun different => or_iff_right different

theorem add_leave_other (room : Room) (different : userId ≠ connId) :
    (room.add userId).handleUserLeave connId = (room.handleUserLeave connId).add userId := by
  apply room_ext (by simp) (by simp) (by simp)
  intro probe
  simp only [Room.mem_leave, Room.mem_add]
  constructor
  · rintro ⟨away, rfl | inside⟩
    · exact .inl rfl
    · exact .inr ⟨away, inside⟩
  · rintro (rfl | ⟨away, inside⟩)
    · exact ⟨different, .inl rfl⟩
    · exact ⟨away, .inr inside⟩

theorem leave_absent {room : Room} (outside : userId ∉ room.mUsers) : room.handleUserLeave userId = room := by
  apply room_ext (by simp) (by simp) (by simp)
  intro probe
  rw [Room.mem_leave]
  exact and_iff_right_of_imp fun inside same => outside (same ▸ inside)

/-- Without a connection that is not logged on, a state is the same. -/
theorem without_nobody (inv : Inv keeper) (gone : keeper.mIdUser[connId]? = none) (without : Without connId keeper other) :
    other = keeper := by
  have rooms : other.mIdRoom = keeper.mIdRoom := by
    refine Std.ExtTreeMap.ext_getElem? fun roomId => ?_
    rw [without.rooms]
    cases stored : keeper.mIdRoom[roomId]? with
    | none => rfl
    | some room =>
      have outside : connId ∉ room.mUsers := by
        intro inside
        obtain ⟨user, known⟩ := inv.online stored inside
        rw [gone] at known
        cases known
      rw [Option.map_some, leave_absent outside]
  have users : other.mIdUser = keeper.mIdUser := by
    refine Std.ExtTreeMap.ext_getElem? fun userId => ?_
    rw [without.users]
    split
    next self => rw [← self, gone]
    next => rfl
  have names : other.mUserNames = keeper.mUserNames := by
    refine Std.ExtTreeMap.ext_getElem? fun name => ?_
    have unnamed : keeper.mUserNames[name]? ≠ some connId := by
      intro named
      obtain ⟨user, known, _⟩ := inv.names.mp named
      rw [gone] at known
      cases known
    rw [without.names, if_neg unnamed]
  cases other
  cases keeper
  simp only [RoomKeeper.mk.injEq]
  exact ⟨without.counter, rooms, without.roomNames, users, names⟩

/-! ### What the connection does itself -/

private theorem rooms_own {room changed : Room} (without : Without connId keeper other)
    (stored : keeper.mIdRoom[roomId]? = some room) (same : changed.handleUserLeave connId = room.handleUserLeave connId)
    (probe : UInt32) : other.mIdRoom[probe]? =
      ((keeper.setRoom roomId changed).mIdRoom[probe]?).map fun room => room.handleUserLeave connId := by
  rw [set_room_lookup, without.rooms]
  split
  next here =>
    subst here
    rw [stored, Option.map_some, Option.map_some, same]
  next => rfl

private theorem without_logged_on {hall : Room} (user : User) (without : Without user.mID keeper other)
    (free : keeper.mUserNames[user.mName]? = none) (stored : keeper.mIdRoom[(0 : UInt32)]? = some hall) :
    Without user.mID (entered (registered keeper user) user.mID user 0 hall) other := by
  have rooms := rooms_own without stored (add_leave hall user.mID)
  refine ⟨without.counter, without.roomNames, rooms, ?_, ?_⟩
  · intro probe
    rw [without.users, entered_user]
    split
    · rfl
    next different => rw [registered_other keeper user (Ne.symm different)]
  · intro name
    have names : (entered (registered keeper user) user.mID user 0 hall).mUserNames[name]? =
        if user.mName = name then some user.mID else keeper.mUserNames[name]? := registered_name keeper user free name
    rw [names, without.names]
    by_cases same : user.mName = name
    · subst same
      simp [free]
    · rw [if_neg same]

private theorem without_moved {user : User} {oldRoom room : Room} (without : Without user.mID keeper other)
    (old : keeper.mIdRoom[user.mRoomId]? = some oldRoom) (stored : keeper.mIdRoom[roomId]? = some room)
    (different : roomId ≠ user.mRoomId) : Without user.mID (moved keeper user oldRoom roomId room) other := by
  have entering : Without user.mID (entered keeper user.mID user roomId room) other := by
    refine ⟨without.counter, without.roomNames, rooms_own without stored (add_leave room user.mID), ?_, without.names⟩
    intro probe
    rw [without.users, entered_user]
    split <;> rfl
  have still : (entered keeper user.mID user roomId room).mIdRoom[user.mRoomId]? = some oldRoom := by
    rw [entered_room, if_neg different, old]
  exact ⟨without.counter, without.roomNames, rooms_own entering still (leave_twice oldRoom user.mID), entering.users,
    without.names⟩

private theorem without_dropped {user : User} {room : Room} (inv : Inv keeper) (without : Without user.mID keeper other)
    (known : keeper.mIdUser[user.mID]? = some user) (stored : keeper.mIdRoom[user.mRoomId]? = some room) :
    Without user.mID (dropped keeper user room) other := by
  refine ⟨without.counter, without.roomNames, rooms_own without stored (leave_twice room user.mID), ?_, ?_⟩
  · intro probe
    rw [without.users, dropped_user]
    split <;> rfl
  · intro name
    have forgotten : (dropped keeper user room).mUserNames[name]? =
        if user.mName = name then none else keeper.mUserNames[name]? := by
      simp only [dropped, Std.ExtTreeMap.getElem?_erase, Std.LawfulEqCmp.compare_eq_iff_eq]
    have own : keeper.mUserNames[user.mName]? = some user.mID := inv.names.mpr ⟨user, known, rfl⟩
    rw [forgotten, without.names]
    by_cases same : user.mName = name
    · subst same
      simp [own]
    · rw [if_neg same]

/-- What a connection asks for changes nothing that is seen without it. -/
theorem own_request (inv : Inv keeper) (without : Without connId keeper other) (own : asksFor connId request = true)
    (performed : keeper.perform request = .ok outcome) : Without connId outcome.keeper other := by
  cases request with
  | logon name ip port userId =>
    obtain rfl : userId = connId := beq_iff_eq.mp own
    rcases logon_cases inv name ip port userId with ⟨err, errstr, refused⟩ | ⟨hall, _, free, stored, accepted⟩
    · cases performed.symm.trans refused
      exact without
    · cases performed.symm.trans accepted
      exact without_logged_on (.new name ip port userId) without free stored
  | create name passwd => cases own
  | join roomName passwd userId =>
    obtain rfl : userId = connId := beq_iff_eq.mp own
    rcases join_cases inv roomName passwd userId with
      ⟨err, errstr, refused⟩ | ⟨user, oldRoom, roomId, room, known, old, stored, different, _, accepted⟩
    · cases performed.symm.trans refused
      exact without
    · cases performed.symm.trans accepted
      obtain rfl := inv.ids known
      exact without_moved without old stored different
  | drop userId =>
    obtain rfl : userId = connId := beq_iff_eq.mp own
    rcases drop_cases inv userId with ⟨_, nothing⟩ | ⟨user, room, known, stored, done⟩
    · cases performed.symm.trans nothing
      exact without
    · cases performed.symm.trans done
      obtain rfl := inv.ids known
      exact without_dropped inv without known stored

/-! ### What the others do -/

/-- Why a request is refused. -/
def refusal (keeper : RoomKeeper) : Request → Option Err
  | .logon name _ _ userId =>
    if userId ∈ keeper.mIdUser then some .userNameAlredyLogoned
    else if name ∈ keeper.mUserNames then some .userSameNameExist
    else none
  | .create name _ => if name ∈ keeper.mRoomNames then some .roomWithSameNameAlreadyExists else none
  | .join roomName passwd userId => moveRefusal keeper roomName passwd userId
  | .drop _ => none

/-- A request is answered with the reason that it is refused for, or with success. -/
theorem perform_err (inv : Inv keeper) (performed : keeper.perform request = .ok outcome) :
    outcome.err = (refusal keeper request).elim 0 Err.code := by
  cases request with
  | logon name ip port userId =>
    by_cases logged : userId ∈ keeper.mIdUser
    · have refused : keeper.perform (.logon name ip port userId) = _ := if_pos (Std.ExtTreeMap.contains_iff_mem.mpr logged)
      cases performed.symm.trans refused
      simp [refusal, logged, failed]
    · have unlogged : ¬ keeper.mIdUser.contains userId = true := logged
      by_cases taken : name ∈ keeper.mUserNames
      · have refused : keeper.perform (.logon name ip port userId) = _ :=
          (if_neg unlogged).trans (if_pos (Std.ExtTreeMap.contains_iff_mem.mpr taken))
        cases performed.symm.trans refused
        simp [refusal, logged, taken, failed]
      · have fresh : keeper.mIdUser[userId]? = none := by simpa using logged
        have free : keeper.mUserNames[name]? = none := by simpa using taken
        obtain ⟨hall, _, accepted⟩ := logon_accepts inv ip port fresh free
        cases performed.symm.trans accepted
        simp [refusal, logged, taken, succeeded]
  | create name passwd =>
    cases performed
    by_cases taken : name ∈ keeper.mRoomNames
    · rw [createRoom, if_pos (Std.ExtTreeMap.contains_iff_mem.mpr taken)]
      simp [refusal, taken, failed]
    · have vacant : ¬ keeper.mRoomNames.contains name = true := taken
      rw [createRoom, if_neg vacant]
      simp [refusal, taken, succeeded]
  | join roomName passwd userId =>
    rcases join_cases_named inv roomName passwd userId with
      ⟨err, errstr, reason, refused⟩ | ⟨user, oldRoom, roomId, room, known, _, named, stored, word, _, outside, accepted⟩
    · cases performed.symm.trans refused
      simp [refusal, reason, failed]
    · cases performed.symm.trans accepted
      simp [refusal, moveRefusal, joinRefusal, known, named, stored, word, outside, succeeded]
  | drop userId =>
    rcases drop_cases inv userId with ⟨_, nothing⟩ | ⟨user, room, _, _, done⟩
    · cases performed.symm.trans nothing
      rfl
    · cases performed.symm.trans done
      rfl

/-- Nobody else is refused for another reason. -/
theorem same_refusal (inv : Inv keeper) (without : Without connId keeper other) (others : asksFor connId request = false)
    (leaves : LeavesName connId keeper request) : refusal other request = refusal keeper request := by
  have users : ∀ userId, userId ≠ connId → other.mIdUser[userId]? = keeper.mIdUser[userId]? := fun userId different => by
    rw [without.users, if_neg (Ne.symm different)]
  cases request with
  | logon name ip port userId =>
    have different : userId ≠ connId := by simpa [asksFor] using others
    have logged : userId ∈ other.mIdUser ↔ userId ∈ keeper.mIdUser := by
      rw [mem_users, mem_users, users userId different]
    have unnamed : keeper.mUserNames[name]? ≠ some connId := by
      intro named
      obtain ⟨user, known, rfl⟩ := inv.names.mp named
      exact leaves different user known rfl
    have taken : name ∈ other.mUserNames ↔ name ∈ keeper.mUserNames := by
      rw [Std.ExtTreeMap.mem_iff_isSome_getElem?, Std.ExtTreeMap.mem_iff_isSome_getElem?, without.names, if_neg unnamed]
    simp only [refusal, logged, taken]
  | create name passwd => simp only [refusal, without.roomNames]
  | join roomName passwd userId =>
    have different : userId ≠ connId := by simpa [asksFor] using others
    simp only [refusal, moveRefusal, users userId different]
    cases keeper.mIdUser[userId]? with
    | none => rfl
    | some user =>
      simp only [joinRefusal, without.roomNames]
      cases keeper.mRoomNames[roomName]? with
      | none => rfl
      | some roomId =>
        simp only [without.rooms]
        cases keeper.mIdRoom[roomId]? with
        | none => rfl
        | some room => simp [different]
  | drop userId => rfl

private theorem rooms_both (without : Without connId keeper other) (changed : Room) (roomId : UInt32) (probe : UInt32) :
    (other.setRoom roomId (changed.handleUserLeave connId)).mIdRoom[probe]? =
      ((keeper.setRoom roomId changed).mIdRoom[probe]?).map fun room => room.handleUserLeave connId := by
  rw [set_room_lookup, set_room_lookup]
  split
  · rfl
  · exact without.rooms probe

private theorem users_both {user : User} (without : Without connId keeper other) (different : user.mID ≠ connId)
    (room roomToo : Room) (probe : UInt64) :
    (entered other user.mID user roomId roomToo).mIdUser[probe]? =
      if connId = probe then none else (entered keeper user.mID user roomId room).mIdUser[probe]? := by
  rw [entered_user, entered_user, without.users]
  split
  next self => rw [if_neg (self ▸ Ne.symm different)]
  next => rfl

private theorem both_logged_on {hall : Room} (user : User) (without : Without connId keeper other)
    (different : user.mID ≠ connId) (free : keeper.mUserNames[user.mName]? = none)
    (freeToo : other.mUserNames[user.mName]? = none) :
    Without connId (entered (registered keeper user) user.mID user 0 hall)
      (entered (registered other user) user.mID user 0 (hall.handleUserLeave connId)) := by
  have rooms := rooms_both without (hall.add user.mID) 0
  rw [add_leave_other hall different] at rooms
  refine ⟨without.counter, without.roomNames, rooms, ?_, ?_⟩
  · intro probe
    rw [entered_user, entered_user]
    by_cases self : user.mID = probe
    · rw [if_pos self, if_pos self, if_neg (self ▸ Ne.symm different)]
    · rw [if_neg self, if_neg self, registered_other other user (Ne.symm self), registered_other keeper user (Ne.symm self),
        without.users]
  · intro name
    have names := registered_name keeper user free name
    have namesToo := registered_name other user freeToo name
    change (registered other user).mUserNames[name]? = if (registered keeper user).mUserNames[name]? = some connId then none
      else (registered keeper user).mUserNames[name]?
    rw [names, namesToo, without.names]
    by_cases same : user.mName = name
    · rw [if_pos same, if_pos same, if_neg (by simpa using different)]
    · rw [if_neg same, if_neg same]

private theorem both_moved {user : User} {oldRoom room : Room} (without : Without connId keeper other)
    (different : user.mID ≠ connId) :
    Without connId (moved keeper user oldRoom roomId room)
      (moved other user (oldRoom.handleUserLeave connId) roomId (room.handleUserLeave connId)) := by
  have entering : Without connId (entered keeper user.mID user roomId room)
      (entered other user.mID user roomId (room.handleUserLeave connId)) := by
    have rooms := rooms_both without (room.add user.mID) roomId
    rw [add_leave_other room different] at rooms
    exact ⟨without.counter, without.roomNames, rooms, users_both without different room _, without.names⟩
  have rooms := rooms_both entering (oldRoom.handleUserLeave user.mID) user.mRoomId
  rw [leave_leave] at rooms
  exact ⟨without.counter, without.roomNames, rooms, entering.users, without.names⟩

private theorem both_dropped {user : User} {room : Room} (without : Without connId keeper other)
    (different : user.mID ≠ connId) :
    Without connId (dropped keeper user room) (dropped other user (room.handleUserLeave connId)) := by
  have rooms := rooms_both without (room.handleUserLeave user.mID) user.mRoomId
  rw [leave_leave] at rooms
  refine ⟨without.counter, without.roomNames, rooms, ?_, ?_⟩
  · intro probe
    rw [dropped_user, dropped_user, without.users]
    split
    next self => rw [if_neg (self ▸ Ne.symm different)]
    next => rfl
  · intro name
    simp only [dropped, Std.ExtTreeMap.getElem?_erase, Std.LawfulEqCmp.compare_eq_iff_eq]
    split
    · rfl
    · exact without.names name

private theorem both_created (name passwd : StdString) (without : Without connId keeper other) :
    Without connId (created keeper name passwd) (created other name passwd) := by
  have absent : other.mRoomId ∉ other.mIdRoom ↔ keeper.mRoomId ∉ keeper.mIdRoom := by
    rw [absent_room, absent_room, without.rooms, without.counter, Option.map_eq_none_iff]
  refine ⟨?_, ?_, ?_, without.users, without.names⟩
  · change other.mRoomId + 1 = keeper.mRoomId + 1
    rw [without.counter]
  · change other.mRoomNames.insertIfNew name other.mRoomId = keeper.mRoomNames.insertIfNew name keeper.mRoomId
    rw [without.counter, without.roomNames]
  · intro probe
    rw [created_room, created_room]
    simp only [absent]
    rw [without.counter, without.rooms]
    split
    · rw [Option.map_some, leave_absent (new_room_is_empty _ _ _ connId)]
    · rfl

private theorem others_logon {name ip : StdString} {port : UInt16} {userId : UInt64} (inv : Inv keeper) (invToo : Inv other)
    (without : Without connId keeper other) (different : userId ≠ connId) (same : answer.err = outcome.err)
    (logged : keeper.handleLogon name ip port userId = .ok outcome)
    (loggedToo : other.handleLogon name ip port userId = .ok answer) :
    Without connId outcome.keeper answer.keeper := by
  rcases logon_cases inv name ip port userId with ⟨err, errstr, refused⟩ | ⟨hall, _, free, stored, accepted⟩
  · cases logged.symm.trans refused
    rcases logon_cases invToo name ip port userId with ⟨errToo, _, refusedToo⟩ | ⟨_, _, _, _, acceptedToo⟩
    · cases loggedToo.symm.trans refusedToo
      exact without
    · cases loggedToo.symm.trans acceptedToo
      exact absurd same.symm err.code_ne_zero
  · cases logged.symm.trans accepted
    rcases logon_cases invToo name ip port userId with
      ⟨errToo, _, refusedToo⟩ | ⟨hallToo, _, freeToo, storedToo, acceptedToo⟩
    · cases loggedToo.symm.trans refusedToo
      exact absurd same errToo.code_ne_zero
    · cases loggedToo.symm.trans acceptedToo
      rw [without.rooms, stored] at storedToo
      cases storedToo
      exact both_logged_on (.new name ip port userId) without different free freeToo

private theorem others_create (name passwd : StdString) (without : Without connId keeper other)
    (same : (other.createRoom name passwd).err = (keeper.createRoom name passwd).err) :
    Without connId (keeper.createRoom name passwd).keeper (other.createRoom name passwd).keeper := by
  rcases create_cases keeper name passwd with ⟨err, errstr, refused⟩ | ⟨_, accepted⟩
  · rcases create_cases other name passwd with ⟨errToo, _, refusedToo⟩ | ⟨_, acceptedToo⟩
    · rw [refused, refusedToo]
      exact without
    · rw [refused, acceptedToo] at same
      exact absurd same.symm err.code_ne_zero
  · rcases create_cases other name passwd with ⟨errToo, _, refusedToo⟩ | ⟨_, acceptedToo⟩
    · rw [accepted, refusedToo] at same
      exact absurd same errToo.code_ne_zero
    · rw [accepted, acceptedToo]
      exact both_created name passwd without

private theorem others_join {roomName passwd : StdString} {userId : UInt64} (inv : Inv keeper) (invToo : Inv other)
    (without : Without connId keeper other) (different : userId ≠ connId) (same : answer.err = outcome.err)
    (joined : keeper.handleJoinRoom roomName passwd userId = .ok outcome)
    (joinedToo : other.handleJoinRoom roomName passwd userId = .ok answer) :
    Without connId outcome.keeper answer.keeper := by
  rcases join_cases_named inv roomName passwd userId with
    ⟨err, errstr, _, refused⟩ | ⟨user, oldRoom, roomId, room, known, old, named, stored, _, _, _, accepted⟩
  · cases joined.symm.trans refused
    rcases join_cases_named invToo roomName passwd userId with
      ⟨errToo, _, _, refusedToo⟩ | ⟨_, _, _, _, _, _, _, _, _, _, _, acceptedToo⟩
    · cases joinedToo.symm.trans refusedToo
      exact without
    · cases joinedToo.symm.trans acceptedToo
      exact absurd same.symm err.code_ne_zero
  · cases joined.symm.trans accepted
    obtain rfl := inv.ids known
    rcases join_cases_named invToo roomName passwd user.mID with
      ⟨errToo, _, _, refusedToo⟩ | ⟨_, _, _, _, knownToo, oldToo, namedToo, storedToo, _, _, _, acceptedToo⟩
    · cases joinedToo.symm.trans refusedToo
      exact absurd same errToo.code_ne_zero
    · cases joinedToo.symm.trans acceptedToo
      rw [without.users, if_neg (Ne.symm different), known] at knownToo
      cases knownToo
      rw [without.rooms, old] at oldToo
      cases oldToo
      rw [without.roomNames, named] at namedToo
      cases namedToo
      rw [without.rooms, stored] at storedToo
      cases storedToo
      exact both_moved without different

private theorem others_drop {userId : UInt64} (inv : Inv keeper) (invToo : Inv other)
    (without : Without connId keeper other) (different : userId ≠ connId)
    (dropped : keeper.handleDrop userId = .ok outcome) (droppedToo : other.handleDrop userId = .ok answer) :
    Without connId outcome.keeper answer.keeper := by
  have users : other.mIdUser[userId]? = keeper.mIdUser[userId]? := by
    rw [without.users, if_neg (Ne.symm different)]
  rcases drop_cases inv userId with ⟨absent, nothing⟩ | ⟨user, room, known, stored, done⟩
  · cases dropped.symm.trans nothing
    rcases drop_cases invToo userId with ⟨_, nothingToo⟩ | ⟨_, _, knownToo, _, _⟩
    · cases droppedToo.symm.trans nothingToo
      exact without
    · rw [users, absent] at knownToo
      cases knownToo
  · cases dropped.symm.trans done
    obtain rfl := inv.ids known
    rcases drop_cases invToo user.mID with ⟨absentToo, _⟩ | ⟨_, _, knownToo, storedToo, doneToo⟩
    · rw [users, known] at absentToo
      cases absentToo
    · cases droppedToo.symm.trans doneToo
      rw [users, known] at knownToo
      cases knownToo
      rw [without.rooms, stored] at storedToo
      cases storedToo
      exact both_dropped without different

/-- What the others ask for is answered in the same way, and does the same. -/
theorem others_request (inv : Inv keeper) (invToo : Inv other) (without : Without connId keeper other)
    (others : asksFor connId request = false) (leaves : LeavesName connId keeper request)
    (performed : keeper.perform request = .ok outcome) (performedToo : other.perform request = .ok answer) :
    answer.err = outcome.err ∧ Without connId outcome.keeper answer.keeper := by
  have same : answer.err = outcome.err := by
    rw [perform_err inv performed, perform_err invToo performedToo, same_refusal inv without others leaves]
  refine ⟨same, ?_⟩
  cases request with
  | logon name ip port userId =>
    have different : userId ≠ connId := by simpa [asksFor] using others
    exact others_logon inv invToo without different same performed performedToo
  | create name passwd =>
    cases performed
    cases performedToo
    exact others_create name passwd without same
  | join roomName passwd userId =>
    have different : userId ≠ connId := by simpa [asksFor] using others
    exact others_join inv invToo without different same performed performedToo
  | drop userId =>
    have different : userId ≠ connId := by simpa [asksFor] using others
    exact others_drop inv invToo without different performed performedToo

/-! ### Runs -/

private theorem without_new (connId : UInt64) : Without connId RoomKeeper.new RoomKeeper.new := by
  refine ⟨rfl, rfl, ?_, ?_, ?_⟩
  · intro roomId
    rw [new_rooms]
    split
    · rw [Option.map_some, leave_absent (new_room_is_empty _ _ _ connId)]
    · rfl
  · intro userId
    simp [new_has_no_users]
  · intro name
    simp [new_user_names]

/-- A client that is not logged on in the end might as well never have been there. -/
theorem gone_clients_leave_no_trace (ran : run RoomKeeper.step RoomKeeper.new requests = .ok (keeper, outcomes))
    (leaves : EveryStep RoomKeeper.step (LeavesName connId) RoomKeeper.new requests)
    (gone : keeper.mIdUser[connId]? = none) :
    ∃ others, run RoomKeeper.step RoomKeeper.new (requests.filter fun request => !asksFor connId request) =
        .ok (keeper, others) ∧
      others.map Outcome.err =
        ((requests.zip outcomes).filter fun entry => !asksFor connId entry.1).map fun entry => entry.2.err := by
  obtain ⟨other, others, ranToo, ⟨inv, _, without⟩, same⟩ := run_erasing
    (fun keeper other => Inv keeper ∧ Inv other ∧ Without connId keeper other) (asksFor connId) Outcome.err (by
      rintro keeper other request next outcome ⟨inv, invToo, without⟩ own _ taken
      obtain ⟨rfl, advances⟩ := step_advances inv taken
      exact ⟨advances.1, invToo, own_request inv without own (step_performs taken)⟩) (by
      rintro keeper other request next outcome ⟨inv, invToo, without⟩ others leaves taken
      obtain ⟨rfl, advances⟩ := step_advances inv taken
      obtain ⟨answer, performed, advancesToo⟩ := perform_advances invToo request
      obtain ⟨err, after⟩ := others_request inv invToo without others leaves (step_performs taken) performed
      exact ⟨_, answer, step_of_performed performed, err, advances.1, advancesToo.1, after⟩)
    ⟨inv_new, inv_new, without_new connId⟩ leaves ran
  rw [without_nobody inv gone without] at ranToo
  exact ⟨others, ranToo, same⟩

private theorem gone_since_drop (later : ∀ request ∈ after, ∀ name ip port, request ≠ .logon name ip port connId)
    (ran : run RoomKeeper.step RoomKeeper.new (before ++ .drop connId :: after) = .ok (keeper, outcomes)) :
    keeper.mIdUser[connId]? = none := by
  have absent : ∀ {keeper : RoomKeeper}, keeper.mIdUser[connId]? = none ↔ connId ∉ keeper.mIdUser := by
    intro keeper
    simp
  obtain ⟨middle, _, _, first, second, _⟩ := run_append_ok.mp ran
  obtain ⟨next, outcome, rest, taken, third, _⟩ := run_cons_ok.mp second
  have inv := run_invariant Inv (fun _ _ _ _ inv taken => by
    obtain ⟨rfl, advances⟩ := step_advances inv taken
    exact advances.1) inv_new first
  obtain ⟨rfl, advances⟩ := step_advances inv taken
  have dropped : connId ∉ outcome.keeper.mIdUser := fun inside =>
    ((perform_users inv (step_performs taken) inside).resolve_right (by simp)).2 rfl
  refine absent.mpr (run_history (fun keeper _ => Inv keeper ∧ connId ∉ keeper.mIdUser) ?_ ⟨advances.1, dropped⟩
    (every_step_of_mem later) third).2
  rintro keeper _ request next outcome ⟨inv, out⟩ other taken
  obtain ⟨rfl, advances⟩ := step_advances inv taken
  refine ⟨advances.1, fun inside => ?_⟩
  rcases perform_users inv (step_performs taken) inside with ⟨before, _⟩ | ⟨name, ip, port, same⟩
  · exact out before
  · exact other name ip port same

/-- A client that has been dropped and has not come back leaves no trace: the
state is what it would be, and every other request is answered as it would be,
if the client had never been there. All that the others must not do is to ask
for the client's name while it is logged on. -/
theorem sessions_leave_no_trace (ran : run RoomKeeper.step RoomKeeper.new requests = .ok (keeper, outcomes))
    (session : requests = before ++ .drop connId :: after)
    (finished : ∀ request ∈ after, ∀ name ip port, request ≠ .logon name ip port connId)
    (leaves : EveryStep RoomKeeper.step (LeavesName connId) RoomKeeper.new requests) :
    ∃ others, run RoomKeeper.step RoomKeeper.new (requests.filter fun request => !asksFor connId request) =
        .ok (keeper, others) ∧
      others.map Outcome.err =
        ((requests.zip outcomes).filter fun entry => !asksFor connId entry.1).map fun entry => entry.2.err := by
  subst session
  exact gone_clients_leave_no_trace ran leaves (gone_since_drop finished ran)

/-- Bob comes, makes Ann's room his own for a while, and goes. -/
private def bobComesAndGoes : List Request :=
  [.logon (.ascii "ann") (.ascii "10.0.0.1") 4000 1, .create (.ascii "den") (.ascii "key"),
    .logon (.ascii "bob") (.ascii "10.0.0.2") 4001 2, .join (.ascii "den") (.ascii "key") 2,
    .join (.ascii "den") (.ascii "key") 1, .drop 2]

theorem bob_leaves_no_trace :
    ∃ keeper outcomes others, run RoomKeeper.step RoomKeeper.new bobComesAndGoes = .ok (keeper, outcomes) ∧
      run RoomKeeper.step RoomKeeper.new [.logon (.ascii "ann") (.ascii "10.0.0.1") 4000 1,
        .create (.ascii "den") (.ascii "key"), .join (.ascii "den") (.ascii "key") 1] = .ok (keeper, others) := by
  obtain ⟨keeper, outcomes, ran, _⟩ := run_completes Inv (fun keeper request inv => by
    obtain ⟨outcome, performed, advances⟩ := perform_advances inv request
    exact ⟨outcome.keeper, outcome, step_of_performed performed, advances.1⟩) inv_new bobComesAndGoes
  have leaves : EveryStep RoomKeeper.step (LeavesName 2) RoomKeeper.new bobComesAndGoes := by
    decide
  have session : bobComesAndGoes = bobComesAndGoes.take 5 ++ .drop 2 :: [] := rfl
  obtain ⟨others, ranToo, _⟩ := sessions_leave_no_trace ran session (fun _ member => by cases member) leaves
  exact ⟨keeper, outcomes, others, ran, ranToo⟩

end ChatRoom.SessionErasure
