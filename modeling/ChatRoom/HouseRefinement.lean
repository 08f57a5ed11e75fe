import ChatRoom.ChatHouse
import ChatRoom.RoomCounts
import ChatRoom.ServerSurvival

/-! The server is a chat house. What its maps say together is a house, in which the
id of a room is its place and the id of a connection is the guest, and what the
handlers send is what the house says, written as the fields of messages. A whole run
of the server is a run of the house, answer by answer, for as long as every message has
room on its page. -/
namespace ChatRoom.HouseRefinement
open Lib Wire RoomKeeper RoomKeeperInvariant Worker ChatHouse PagedRefinement

abbrev House := ChatHouse UInt64 StdString (StdString × UInt16)

abbrev Guest := Visitor StdString (StdString × UInt16)

variable {keeper next : RoomKeeper} {house : House} {roomId : UInt32} {room : Room} {user : User} {userId connId : UInt64}
  {name passwd : StdString} {sent more : List Sent}

/-! ### Records and texts -/

def visitorOf (user : User) : Guest where
  name := user.mName
  address := (user.mIP, user.mPort)
  place := user.mRoomId.toNat

/-- The record of the guest with an id. -/
def recordOf (userId : UInt64) (visitor : Guest) : User where
  mName := visitor.name
  mIP := visitor.address.1
  mPort := visitor.address.2
  mID := userId
  mRoomId := UInt32.ofNat visitor.place

theorem record_of_visitor (own : user.mID = userId) : recordOf userId (visitorOf user) = user := by
  simp [recordOf, visitorOf, ← own]

def errOf : Refusal → Err
  | .alreadyHere => .userNameAlredyLogoned
  | .nameTaken => .userSameNameExist
  | .noSuchRoom => .roomNotExist
  | .wrongWord => .roomPasswdNotMatch
  | .alreadyInside => .userAlreadyInThisRoom
  | .roomTaken => .roomWithSameNameAlreadyExists
  | .stranger => .userNotExist

def errstrOf : Refusal → StdString
  | .alreadyHere => .ascii "user has logoned before!"
  | .nameTaken => .ascii "user with sanme name exists on server!"
  | .noSuchRoom => .ascii "room not exists!"
  | .wrongWord => .ascii "room passwd not match, try again!"
  | .alreadyInside => .ascii "user already in this room"
  | .roomTaken => .ascii "room with same name already exists"
  | .stranger => .ascii "join room ,but user not exist!"

def codeOf : Option Refusal → Int32
  | none => 0
  | some why => (errOf why).code

def reasonOf : Option Refusal → StdString
  | none => .ascii ""
  | some why => errstrOf why

/-! ### What is said, and what is sent -/

/-- The fields of a message say what the notice says, to the guest with this id. -/
def Renders (userId : UInt64) : Notice UInt64 StdString (StdString × UInt16) → List Field → Prop
  | .company place door present, fields =>
    ∃ room : Room, room.mID.toNat = place ∧ door = some room.mName ∧
      (∀ member, member ∈ room.mUsers ↔ (present member).isSome) ∧
      fields = infoFields room (room.getAllUsers.filterMap fun member => (present member).map (recordOf member))
  | .rooms doors guests, fields =>
    ∃ rooms : List Room, rooms.map Room.mName = doors ∧
      (∀ place room, rooms[place]? = some room → room.mID.toNat = place ∧
        ∀ member, member ∈ room.mUsers ↔ ∃ visitor, guests member = some visitor ∧ visitor.place = place) ∧
      fields = listFields rooms
  | .welcome visitor, fields => fields = logonRes 0 (.ascii "") (recordOf userId visitor).encode
  | .turnedAway why, fields => fields = logonRes (errOf why).code (errstrOf why) []
  | .made room why, fields => fields = createRoomRes (codeOf why) (reasonOf why) room
  | .moved room why, fields => fields = joinRoomRes (codeOf why) (reasonOf why) room
  | .heard speaker words, fields => fields = RoomKeeper.chatFields speaker words
  | .whispered speaker words, fields => fields = whisperMsg speaker words
  | .notHeard name, fields =>
    fields = [MsgType.s2cWhisperMsgFailed.field, .str name, .str (.ascii "user not exists!")]

/-- Every connection is sent what its guest is told, message by message. -/
def Speaks (told : Told UInt64 StdString (StdString × UInt16)) (sent : List Sent) : Prop :=
  ∀ userId, List.Forall₂ (Renders userId) (told userId) (sentTo userId sent)

/-- The maps of the keeper say what is in the house. -/
structure Pictures (keeper : RoomKeeper) (house : House) : Prop where
  inv : Inv keeper
  counted : Counted keeper
  size : house.doors.length = keeper.mIdRoom.size
  doors : ∀ roomId : UInt32, house.doors[roomId.toNat]? =
    (keeper.mIdRoom[roomId]?).map fun room => (room.mName, room.mPassWord)
  guests : ∀ userId : UInt64, house.guests userId = (keeper.mIdUser[userId]?).map visitorOf

/-! ### Lookups -/

theorem numbered_of_few (pictures : Pictures keeper house) (few : keeper.mIdRoom.size < 2 ^ 32) :
    Numbered keeper house.doors.length := by
  rw [pictures.size]
  exact pictures.counted few

/-- Every door is that of a room. -/
theorem door_known (pictures : Pictures keeper house) (few : keeper.mIdRoom.size < 2 ^ 32) {place : Nat}
    {door : StdString × StdString} (found : house.doors[place]? = some door) :
    ∃ (roomId : UInt32) (room : Room), roomId.toNat = place ∧ keeper.mIdRoom[roomId]? = some room ∧
      door = (room.mName, room.mPassWord) := by
  obtain ⟨inside, _⟩ := List.getElem?_eq_some_iff.mp found
  have small : (UInt32.ofNat place).toNat = place := by
    rw [UInt32.toNat_ofNat', Nat.mod_eq_of_lt (by have := pictures.size; omega)]
  have held := pictures.doors (UInt32.ofNat place)
  rw [small, found] at held
  obtain ⟨room, stored, same⟩ := Option.map_eq_some_iff.mp held.symm
  exact ⟨_, room, small, stored, same.symm⟩

theorem door_of_name (pictures : Pictures keeper house) (few : keeper.mIdRoom.size < 2 ^ 32) (name : StdString) :
    house.doorOf name = (keeper.mRoomNames[name]?).map UInt32.toNat := by
  have named : ∀ place door, house.doors[place]? = some door → door.1 = name →
      ∃ roomId : UInt32, roomId.toNat = place ∧ keeper.mRoomNames[name]? = some roomId := by
    rintro place door found rfl
    obtain ⟨roomId, room, rfl, stored, rfl⟩ := door_known pictures few found
    exact ⟨roomId, rfl, (pictures.inv.own stored).2⟩
  cases held : keeper.mRoomNames[name]? with
  | none =>
    rw [Option.map_none, doorOf, List.findIdx?_eq_none_iff]
    intro door member
    obtain ⟨place, found⟩ := List.mem_iff_getElem?.mp member
    simp only [decide_eq_false_iff_not]
    intro same
    obtain ⟨_, _, other⟩ := named place door found same
    cases held.symm.trans other
  | some roomId =>
    obtain ⟨room, stored⟩ := pictures.inv.named held
    have own := (numbered_of_few pictures few).named held stored
    have found := pictures.doors roomId
    rw [stored, Option.map_some] at found
    obtain ⟨inside, here⟩ := List.getElem?_eq_some_iff.mp found
    rw [Option.map_some, doorOf, List.findIdx?_eq_some_iff_getElem]
    refine ⟨inside, by simp [here, own], fun earlier before => ?_⟩
    simp only [decide_eq_true_eq]
    intro same
    obtain ⟨other, place, also⟩ := named earlier _ (List.getElem?_eq_getElem _) same
    cases held.symm.trans also
    omega

theorem present_iff (pictures : Pictures keeper house) (stored : keeper.mIdRoom[roomId]? = some room) (member : UInt64) :
    member ∈ room.mUsers ↔ (house.present roomId.toNat member).isSome := by
  rw [pictures.inv.member stored, present, pictures.guests]
  cases known : keeper.mIdUser[member]? with
  | none => simp
  | some user => simp [Option.filter, visitorOf, UInt32.toNat_inj]

theorem present_record (pictures : Pictures keeper house) (stored : keeper.mIdRoom[roomId]? = some room) {member : UInt64}
    (inside : member ∈ room.mUsers) :
    (house.present roomId.toNat member).map (recordOf member) = keeper.mIdUser[member]? := by
  obtain ⟨user, known, home⟩ := (pictures.inv.member stored).mp inside
  rw [present, pictures.guests, known, Option.map_some, Option.filter_some_pos (by simp [visitorOf, home]), Option.map_some,
    record_of_visitor (pictures.inv.ids known)]

/-- The two maps of the users know the same names. -/
theorem named_iff (pictures : Pictures keeper house) : house.Named name userId ↔ keeper.mUserNames[name]? = some userId := by
  rw [pictures.inv.names, Named, pictures.guests]
  cases keeper.mIdUser[userId]? with
  | none => simp
  | some user => simp [visitorOf]

theorem somebody_named_iff (pictures : Pictures keeper house) :
    (∃ other, house.Named name other) ↔ keeper.mUserNames[name]?.isSome := by
  simp only [named_iff pictures, Option.isSome_iff_exists]

/-! ### Saying and sending -/

theorem speaks_silence : Speaks silence [] := fun _ => .nil

theorem speaks_and_then {first second : Told UInt64 StdString (StdString × UInt16)} (here : Speaks first sent)
    (there : Speaks second more) : Speaks (andThen first second) (sent ++ more) := by
  intro userId
  rw [sent_to_append]
  exact List.rel_append (here userId) (there userId)

theorem speaks_tell {notice : Notice UInt64 StdString (StdString × UInt16)} {fields : List Field}
    (renders : Renders userId notice fields) : Speaks (tell userId notice) [⟨userId, fields⟩] := by
  intro other
  by_cases own : other = userId
  · subst own
    simpa [ChatHouse.tell, sentTo] using renders
  · simp [ChatHouse.tell, sentTo, own, Ne.symm own]

theorem speaks_room {notice : Notice UInt64 StdString (StdString × UInt16)} {fields : List Field}
    (pictures : Pictures keeper house) (stored : keeper.mIdRoom[roomId]? = some room)
    (renders : ∀ userId, Renders userId notice fields) :
    Speaks (house.tellRoom roomId.toNat notice) (room.getAllUsers.map fun member => ⟨member, fields⟩) := by
  intro userId
  rw [sent_to_each, tellRoom]
  simp only [← present_iff pictures stored]
  split
  · exact .cons (renders userId) .nil
  · exact .nil

theorem renders_company (pictures : Pictures keeper house) (stored : keeper.mIdRoom[roomId]? = some room)
    (userId : UInt64) : Renders userId (house.companyOf roomId.toNat) (announced keeper room) := by
  refine ⟨room, by rw [(pictures.inv.own stored).1], ?_, present_iff pictures stored, ?_⟩
  · rw [pictures.doors, stored]
    rfl
  · rw [announced, usersOf]
    congr 1
    apply List.filterMap_congr
    intro member inside
    exact (present_record pictures stored (Room.mem_all_users.mp inside)).symm

theorem speaks_company (pictures : Pictures keeper house) (stored : keeper.mIdRoom[roomId]? = some room) :
    Speaks (house.tellRoom roomId.toNat (house.companyOf roomId.toNat)) (announce keeper room) :=
  speaks_room pictures stored (renders_company pictures stored)

/-- The keeper numbers its rooms as they are made, so a loop over them meets the
doors in their order. -/
theorem rooms_in_order (pictures : Pictures keeper house) (few : keeper.mIdRoom.size < 2 ^ 32) {place : Nat}
    (found : (valuesOf keeper.mIdRoom)[place]? = some room) :
    ∃ roomId : UInt32, roomId.toNat = place ∧ keeper.mIdRoom[roomId]? = some room := by
  have numbered := pictures.counted few
  refine values_in_order (fun _ _ less => UInt32.lt_iff_toNat_lt.mp (compareOfLessAndEq_eq_lt.mp less)) ?_ found
  intro roomId inside
  rw [← numbered.counter]
  exact UInt32.lt_iff_toNat_lt.mp (numbered.below inside)

theorem renders_rooms (pictures : Pictures keeper house) (few : keeper.mIdRoom.size < 2 ^ 32) (userId : UInt64) :
    Renders userId (.rooms (house.doors.map Prod.fst) house.guests) (listFields (valuesOf keeper.mIdRoom)) := by
  refine ⟨valuesOf keeper.mIdRoom, ?_, ?_, rfl⟩
  · apply List.ext_getElem?
    intro place
    rw [List.getElem?_map, List.getElem?_map]
    cases found : (valuesOf keeper.mIdRoom)[place]? with
    | none =>
      have beyond := List.getElem?_eq_none_iff.mp found
      rw [length_values_of, ← pictures.size] at beyond
      rw [List.getElem?_eq_none beyond]
      rfl
    | some room =>
      obtain ⟨roomId, rfl, stored⟩ := rooms_in_order pictures few found
      rw [pictures.doors, stored]
      rfl
  · intro place room found
    obtain ⟨roomId, rfl, stored⟩ := rooms_in_order pictures few found
    refine ⟨by rw [(pictures.inv.own stored).1], fun member => ?_⟩
    rw [present_iff pictures stored, present, Option.isSome_iff_exists]
    simp [Option.filter_eq_some_iff]

/-- Connection 0 stands for everybody. -/
theorem speaks_rooms (pictures : Pictures keeper house) (few : keeper.mIdRoom.size < 2 ^ 32) (connId : UInt64) :
    Speaks (house.tellRooms 0 connId) (keeper.publishRoomList connId) := by
  rw [tellRooms, publishRoomList]
  by_cases zero : connId = 0
  · rw [if_pos zero, if_neg (not_not.mpr zero)]
    intro userId
    have own : ∀ (userId : UInt64) (user : User), keeper.mIdUser[userId]? = some user → user.mID = userId :=
      fun _ _ known => pictures.inv.ids known
    have users : sentTo userId ((valuesOf keeper.mIdUser).map fun user => ⟨user.mID, listFields (valuesOf keeper.mIdRoom)⟩) =
        keeper.mIdUser[userId]?.toList.map fun _ => listFields (valuesOf keeper.mIdRoom) := by
      rw [← filter_values_of own userId, sentTo, List.filter_map, List.map_map]
      rfl
    simp only [users, pictures.guests, Option.isSome_map]
    cases keeper.mIdUser[userId]? with
    | none => exact .nil
    | some user => exact .cons (renders_rooms pictures few userId) .nil
  · rw [if_neg zero, if_pos zero]
    exact speaks_tell (renders_rooms pictures few connId)

/-! ### One request -/

/-- What the server does with a request is what the house does. -/
def Refines (house : House) (ask : Ask UInt64 StdString (StdString × UInt16)) (next : RoomKeeper)
    (sent : List Sent) : Prop :=
  ∃ after told, house.step 0 ask = .ok (after, told) ∧ Pictures next after ∧ Speaks told sent

/-- Changing who is in a room changes no door. -/
private theorem doors_set {changed : Room} (stored : keeper.mIdRoom[roomId]? = some room)
    (sameName : changed.mName = room.mName)
    (sameWord : changed.mPassWord = room.mPassWord) (probe : UInt32) :
    ((keeper.setRoom roomId changed).mIdRoom[probe]?).map (fun room => (room.mName, room.mPassWord)) =
      (keeper.mIdRoom[probe]?).map fun room => (room.mName, room.mPassWord) := by
  rw [set_room_lookup]
  split
  next same =>
    subst same
    rw [stored, Option.map_some, Option.map_some, sameName, sameWord]
  next => rfl

/-- The doors stay, and the guests are as they are meant to be. -/
private theorem pictures_set {visitor : Option Guest} (pictures : Pictures keeper house) (inv : Inv next)
    (counted : Counted next)
    (doors : ∀ roomId : UInt32, (next.mIdRoom[roomId]?).map (fun room => (room.mName, room.mPassWord)) =
      (keeper.mIdRoom[roomId]?).map fun room => (room.mName, room.mPassWord))
    (guest : (next.mIdUser[userId]?).map visitorOf = visitor)
    (others : ∀ other, other ≠ userId → next.mIdUser[other]? = keeper.mIdUser[other]?) :
    Pictures next (house.set userId visitor) := by
  refine ⟨inv, counted, ?_, fun roomId => (pictures.doors roomId).trans (doors roomId).symm, fun other => ?_⟩
  · refine pictures.size.trans (size_congr fun roomId => ?_)
    have held := congrArg Option.isSome (doors roomId)
    rw [Option.isSome_map, Option.isSome_map] at held
    rw [Std.ExtTreeMap.mem_iff_isSome_getElem?, Std.ExtTreeMap.mem_iff_isSome_getElem?, held]
  · by_cases own : other = userId
    · subst own
      rw [guest, set_guests, if_pos rfl]
    · rw [others other own, set_guests, if_neg own, pictures.guests]

private theorem logon_refines {ip : StdString} {port : UInt16} (pictures : Pictures keeper house) (inv : Inv next)
    (counted : Counted next) (few : next.mIdRoom.size < 2 ^ 32)
    (served : serveLogon name ip port connId keeper = .ok (next, sent)) :
    Refines house (.arrive connId name (ip, port)) next sent := by
  have refused : ∀ why, keeper.handleLogon name ip port connId = .ok (keeper.failed (errOf why) (errstrOf why)) →
      next = keeper ∧ sent = [⟨connId, logonRes (errOf why).code (errstrOf why) []⟩] ++ keeper.publishRoomList connId := by
    intro why failing
    simp only [serveLogon, failing, ok_then, returnedUser, failed, Err.code_ne_zero, if_false] at served
    cases served
    exact ⟨rfl, rfl⟩
  cases known : keeper.mIdUser[connId]? with
  | some user =>
    have here : (house.guests connId).isSome := by rw [pictures.guests, known]; rfl
    obtain ⟨rfl, rfl⟩ := refused .alreadyHere (if_pos (by simp [Std.ExtTreeMap.contains_iff_mem, mem_users, known]))
    refine ⟨house, _, by rw [ChatHouse.step, if_pos here], pictures, ?_⟩
    exact speaks_and_then (speaks_tell rfl) (speaks_rooms pictures few connId)
  | none =>
    have absent : ¬ (house.guests connId).isSome := by rw [pictures.guests, known]; exact Bool.false_ne_true
    have unlogged : ¬ keeper.mIdUser.contains connId = true := by simpa using known
    by_cases taken : keeper.mUserNames.contains name = true
    · have named : ∃ other, house.Named name other := by
        rw [somebody_named_iff pictures, ← Std.ExtTreeMap.mem_iff_isSome_getElem?]
        exact Std.ExtTreeMap.contains_iff_mem.mp taken
      obtain ⟨rfl, rfl⟩ := refused .nameTaken ((if_neg unlogged).trans (if_pos taken))
      refine ⟨house, _, by rw [ChatHouse.step, if_neg absent, if_pos named], pictures, ?_⟩
      exact speaks_and_then (speaks_tell rfl) (speaks_rooms pictures few connId)
    · have free : keeper.mUserNames[name]? = none := by simpa using taken
      have unnamed : ¬ ∃ other, house.Named name other := by
        rw [somebody_named_iff pictures, free]
        exact Bool.false_ne_true
      obtain ⟨hall, stored, accepted⟩ := logon_accepts pictures.inv ip port known free
      have record : (entered (registered keeper (.new name ip port connId)) connId
          (.new name ip port connId) 0 hall).mIdUser[connId]? =
          some ((User.new name ip port connId).setRoomId 0) := by
        rw [entered_user, if_pos rfl]
      simp only [serveLogon, accepted, ok_then, succeeded, returnedUser, if_true, record] at served
      cases served
      have after : Pictures _ (house.set connId (some ⟨name, (ip, port), 0⟩)) :=
        pictures_set pictures inv counted (doors_set stored (Room.add_name connId) Room.add_passwd) (by rw [record]; rfl)
          fun other own => by
            rw [entered_user, if_neg (Ne.symm own), registered_other keeper (.new name ip port connId) own]
      have company := speaks_company after (by rw [entered_room, if_pos rfl] : _ = some (hall.add connId))
      have welcome : Speaks (tell connId (.welcome ⟨name, (ip, port), 0⟩))
          [⟨connId, logonRes 0 (.ascii "") ((User.new name ip port connId).setRoomId 0).encode⟩] := speaks_tell rfl
      refine ⟨_, _, by rw [ChatHouse.step, if_neg absent, if_neg unnamed], after, ?_⟩
      exact speaks_and_then company (speaks_and_then welcome (speaks_rooms after few connId))

private theorem create_refines (pictures : Pictures keeper house) (inv : Inv next) (counted : Counted next)
    (few : next.mIdRoom.size < 2 ^ 32) (served : serveCreateRoom name passwd connId keeper = .ok (next, sent)) :
    Refines house (.make connId name passwd) next sent := by
  have before : keeper.mIdRoom.size < 2 ^ 32 := by
    have performed : keeper.perform (.create name passwd) = .ok (keeper.createRoom name passwd) := rfl
    obtain ⟨_, again, advances⟩ := perform_advances pictures.inv (.create name passwd)
    cases performed.symm.trans again
    have grown := (advances_counted pictures.inv pictures.counted advances).2
    cases served
    omega
  have door := door_of_name pictures before name
  by_cases taken : keeper.mRoomNames.contains name = true
  · have refused : keeper.createRoom name passwd = keeper.failed .roomWithSameNameAlreadyExists
        (.ascii "room with same name already exists") := if_pos taken
    simp only [serveCreateRoom, refused, failed] at served
    cases served
    have there : (house.doorOf name).isSome := by
      rw [door, Option.isSome_map, ← Std.ExtTreeMap.mem_iff_isSome_getElem?]
      exact Std.ExtTreeMap.contains_iff_mem.mp taken
    have answer : Speaks (tell connId (.made name (some .roomTaken)))
        [⟨connId, createRoomRes Err.roomWithSameNameAlreadyExists.code
          (.ascii "room with same name already exists") name⟩] :=
      speaks_tell rfl
    have spoken := speaks_and_then answer (speaks_rooms pictures few 0)
    exact ⟨house, _, by rw [ChatHouse.step, if_pos there], pictures, spoken⟩
  · have free : keeper.mRoomNames[name]? = none := by simpa using taken
    have accepted : keeper.createRoom name passwd = (created keeper name passwd).succeeded [] := if_neg taken
    simp only [serveCreateRoom, accepted, succeeded] at served
    cases served
    have absent : ¬ (house.doorOf name).isSome := by
      rw [door, free]
      exact Bool.false_ne_true
    have numbered := numbered_of_few pictures before
    have fresh : keeper.mRoomId ∉ keeper.mIdRoom := fun inside => absurd (numbered.below inside) (UInt32.lt_irrefl _)
    have size : (created keeper name passwd).mIdRoom.size = keeper.mIdRoom.size + 1 := by
      have grown : (created keeper name passwd).mIdRoom.size =
          if keeper.mRoomId ∈ keeper.mIdRoom then keeper.mIdRoom.size else keeper.mIdRoom.size + 1 :=
        Std.ExtTreeMap.size_insertIfNew
      rw [grown, if_neg fresh]
    have after : Pictures (created keeper name passwd) { house with doors := house.doors ++ [(name, passwd)] } := by
      refine ⟨inv, counted, ?_, fun roomId => ?_, pictures.guests⟩
      · rw [List.length_append, List.length_singleton, size, pictures.size]
      · rw [created_room]
        by_cases last : keeper.mRoomId = roomId
        · rw [if_pos ⟨last, fresh⟩, ← last, numbered.counter, List.getElem?_concat_length]
          rfl
        · have other : roomId.toNat ≠ house.doors.length := by
            rw [← numbered.counter]
            exact fun same => last (UInt32.toNat_inj.mp same.symm)
          rw [if_neg fun new => last new.1, List.getElem?_append, ← pictures.doors]
          split
          · rfl
          · rw [List.getElem?_eq_none (by rw [List.length_singleton]; omega), List.getElem?_eq_none (by omega)]
    have answer : Speaks (tell connId (.made name none)) [⟨connId, createRoomRes 0 (.ascii "") name⟩] := speaks_tell rfl
    have spoken := speaks_and_then answer (speaks_rooms after few 0)
    exact ⟨_, _, by rw [ChatHouse.step, if_neg absent], after, spoken⟩

private theorem refused_entry_is_no_move (pictures : Pictures keeper house) (known : keeper.mIdUser[userId]? = some user)
    {err : Err} {errstr : StdString} (refused : keeper.joinRoom name userId passwd = .ok (keeper.failed err errstr)) :
    keeper.handleJoinRoom name passwd userId = .ok (keeper.failed err errstr) := by
  obtain ⟨oldRoom, home⟩ := pictures.inv.housed known
  rw [RoomKeeper.handleJoinRoom, known]
  simp only [get_room_by_id_ok.mpr home, refused, ok_then, failed, ne_eq, Err.code_ne_zero, not_false_eq_true, if_true]
  rfl

/-- The keeper and the house let the same users into the same rooms, and refuse
the others for the same reason. -/
private theorem admits_alike (pictures : Pictures keeper house) (few : keeper.mIdRoom.size < 2 ^ 32)
    (known : keeper.mIdUser[userId]? = some user) (name passwd : StdString) :
    (∃ why, house.admits (visitorOf user) name passwd = .error why ∧
      keeper.handleJoinRoom name passwd userId = .ok (keeper.failed (errOf why) (errstrOf why))) ∨
    ∃ roomId room, keeper.mRoomNames[name]? = some roomId ∧ keeper.mIdRoom[roomId]? = some room ∧
      room.mPassWord = passwd ∧ user.mRoomId ≠ roomId ∧ house.admits (visitorOf user) name passwd = .ok roomId.toNat := by
  have door := door_of_name pictures few name
  cases named : keeper.mRoomNames[name]? with
  | none =>
    rw [named] at door
    refine .inl ⟨.noSuchRoom, by rw [admits, door]; rfl, refused_entry_is_no_move pictures known ?_⟩
    simp only [joinRoom, named]
    rfl
  | some roomId =>
    obtain ⟨room, stored⟩ := pictures.inv.named named
    have found := pictures.doors roomId
    rw [stored, Option.map_some] at found
    rw [named, Option.map_some] at door
    by_cases word : room.mPassWord = passwd
    · by_cases inside : user.mRoomId = roomId
      · have member : userId ∈ room.mUsers := (pictures.inv.member stored).mpr ⟨user, known, inside⟩
        refine .inl ⟨.alreadyInside, ?_, refused_entry_is_no_move pictures known ?_⟩
        · simp [admits, door, found, word, visitorOf, inside]
        · simp only [joinRoom, named, get_room_by_id_ok.mpr stored, Room.is_passwd_okay.mpr word,
            Room.is_user_in.mpr member, ok_then]
          rfl
      · have away : user.mRoomId.toNat ≠ roomId.toNat := fun same => inside (UInt32.toNat_inj.mp same)
        refine .inr ⟨roomId, room, rfl, stored, word, inside, ?_⟩
        simp [admits, door, found, word, visitorOf, away]
    · have refused : ¬ room.isPasswdOkay passwd = true := fun okay => word (Room.is_passwd_okay.mp okay)
      refine .inl ⟨.wrongWord, ?_, refused_entry_is_no_move pictures known ?_⟩
      · simp [admits, door, found, word]
      · simp only [joinRoom, named, get_room_by_id_ok.mpr stored, refused, ok_then]
        rfl

private theorem join_refines (pictures : Pictures keeper house) (inv : Inv next) (counted : Counted next)
    (few : keeper.mIdRoom.size < 2 ^ 32) (served : serveJoinRoom name passwd connId keeper = .ok (next, sent)) :
    Refines house (.move connId name passwd) next sent := by
  have refused : ∀ why, keeper.handleJoinRoom name passwd connId = .ok (keeper.failed (errOf why) (errstrOf why)) →
      next = keeper ∧ sent = [⟨connId, joinRoomRes (errOf why).code (errstrOf why) name⟩] := by
    intro why failing
    simp only [serveJoinRoom, failing, ok_then, failed] at served
    cases served
    exact ⟨rfl, rfl⟩
  cases known : keeper.mIdUser[connId]? with
  | none =>
    have outside : house.guests connId = none := by rw [pictures.guests, known]; rfl
    obtain ⟨rfl, rfl⟩ := refused .stranger (by rw [RoomKeeper.handleJoinRoom, known]; rfl)
    refine ⟨house, tell connId (.moved name (some .stranger)), ?_, pictures, speaks_tell rfl⟩
    simp only [ChatHouse.step, outside]
  | some user =>
    have here : house.guests connId = some (visitorOf user) := by rw [pictures.guests, known]; rfl
    rcases admits_alike pictures few known name passwd with
      ⟨why, turned, failing⟩ | ⟨roomId, room, named, stored, word, away, admitted⟩
    · obtain ⟨rfl, rfl⟩ := refused why failing
      refine ⟨house, tell connId (.moved name (some why)), ?_, pictures, speaks_tell rfl⟩
      simp only [ChatHouse.step, here, turned]
    · rcases join_cases_named pictures.inv name passwd connId with
        ⟨err, _, refusal, _⟩ | ⟨other, oldRoom, otherId, otherRoom, knownToo, home, namedToo, storedToo, _, apart,
          outside, accepted⟩
      · have inside : connId ∉ room.mUsers := by
          rw [pictures.inv.member stored]
          rintro ⟨other, knownToo, home⟩
          cases known.symm.trans knownToo
          exact away home
        simp [moveRefusal, known, joinRefusal, named, stored, word, inside] at refusal
      cases known.symm.trans knownToo
      cases named.symm.trans namedToo
      cases stored.symm.trans storedToo
      obtain rfl := pictures.inv.ids known
      simp only [serveJoinRoom, accepted, ok_then, succeeded] at served
      cases served
      have still : (entered keeper user.mID user roomId room).mIdRoom[user.mRoomId]? = some oldRoom := by
        rw [entered_room, if_neg apart, home]
      have after : Pictures (moved keeper user oldRoom roomId room)
          (house.set user.mID (some { visitorOf user with place := roomId.toNat })) := by
        refine pictures_set pictures inv counted (fun probe => ?_) ?_ fun member different => ?_
        · exact (doors_set still (Room.leave_name user.mID) Room.leave_passwd probe).trans
            (doors_set stored (Room.add_name user.mID) Room.add_passwd probe)
        · change ((entered keeper user.mID user roomId room).mIdUser[user.mID]?).map visitorOf = _
          rw [entered_user, if_pos rfl]
          rfl
        · change (entered keeper user.mID user roomId room).mIdUser[member]? = _
          rw [entered_user, if_neg (Ne.symm different)]
      have newCompany := speaks_company after
        (by rw [moved, left_room, if_neg (Ne.symm apart), entered_room, if_pos rfl] : _ = some (room.add user.mID))
      have oldCompany := speaks_company after
        (by rw [moved, left_room, if_pos rfl] : _ = some (oldRoom.handleUserLeave user.mID))
      have answer : Speaks (tell user.mID (.moved name none)) [⟨user.mID, joinRoomRes 0 (.ascii "") name⟩] := speaks_tell rfl
      have spoken := speaks_and_then newCompany (speaks_and_then oldCompany answer)
      refine ⟨_, _, by simp only [ChatHouse.step, here, admitted]; rfl, after, ?_⟩
      rw [← List.append_assoc] at spoken
      exact spoken

private theorem chat_refines {input : StdString} (pictures : Pictures keeper house)
    (served : serveChat roomId input connId keeper = .ok (next, sent)) :
    Refines house (.say connId roomId.toNat input) next sent := by
  obtain ⟨replies, published, same⟩ := bind_ok.mp served
  cases same
  obtain ⟨user, room, known, stored, rfl⟩ := WorkerSafety.published_to_members pictures.inv published
  have here : house.guests connId = some (visitorOf user) := by rw [pictures.guests, known]; rfl
  have inside : roomId.toNat < house.doors.length := by
    have found := pictures.doors roomId
    rw [stored, Option.map_some] at found
    exact (List.getElem?_eq_some_iff.mp found).1
  refine ⟨house, house.tellRoom roomId.toNat (.heard user.mName input), ?_, pictures, ?_⟩
  · simp only [ChatHouse.step, here, if_pos inside]
    rfl
  · exact speaks_room pictures stored fun _ => rfl

private theorem whisper_refines {words : StdString} (pictures : Pictures keeper house)
    (served : serveWhisper name words connId keeper = .ok (next, sent)) :
    Refines house (.whisper connId name words) next sent := by
  obtain ⟨user, knows, rest⟩ := bind_ok.mp served
  have known := get_user_by_id_ok.mp knows
  have here : house.guests connId = some (visitorOf user) := by rw [pictures.guests, known]; rfl
  cases found : keeper.getUserByName name with
  | none =>
    rw [found] at rest
    cases rest
    have nobody : ¬ ∃ other, house.Named name other := by
      simp only [named_iff pictures]
      rintro ⟨other, named⟩
      obtain ⟨target, online, _⟩ := pictures.inv.names.mp named
      simp [getUserByName, named, online] at found
    refine ⟨house, tell connId (.notHeard name), ?_, pictures, speaks_tell rfl⟩
    simp only [ChatHouse.step, here, if_neg nobody]
  | some target =>
    rw [found] at rest
    cases rest
    obtain ⟨targetId, named, online⟩ : ∃ targetId, keeper.mUserNames[name]? = some targetId ∧
        keeper.mIdUser[targetId]? = some target := by
      cases named : keeper.mUserNames[name]? with
      | none => simp [getUserByName, named] at found
      | some targetId => exact ⟨targetId, rfl, by simpa [getUserByName, named] using found⟩
    obtain rfl := pictures.inv.ids online
    have only : ∀ other, house.Named name other ↔ other = target.mID := by
      intro other
      rw [named_iff pictures, named, Option.some.injEq, eq_comm]
    refine ⟨house, _, by simp only [ChatHouse.step, here,
      if_pos (⟨_, (only _).mpr rfl⟩ : ∃ other, house.Named name other)]; rfl,
      pictures, fun userId => ?_⟩
    simp only [only]
    exact (speaks_tell rfl : Speaks (tell target.mID (.whispered user.mName words))
      [⟨target.mID, whisperMsg user.mName words⟩]) userId

private theorem part_refines (pictures : Pictures keeper house) (inv : Inv next) (counted : Counted next)
    (dropped : Worker.drop keeper connId = .ok (next, sent)) : Refines house (.part connId) next sent := by
  obtain ⟨outcome, done, same⟩ := bind_ok.mp dropped
  cases same
  rcases drop_cases pictures.inv connId with ⟨unknown, nothing⟩ | ⟨user, room, known, stored, drops⟩
  · cases done.symm.trans nothing
    have outside : house.guests connId = none := by rw [pictures.guests, unknown]; rfl
    exact ⟨house, silence, by simp only [ChatHouse.step, outside], pictures, speaks_silence⟩
  · cases done.symm.trans drops
    obtain rfl := pictures.inv.ids known
    have here : house.guests user.mID = some (visitorOf user) := by rw [pictures.guests, known]; rfl
    have after : Pictures (RoomKeeperInvariant.dropped keeper user room) (house.set user.mID none) := by
      refine pictures_set pictures inv counted (doors_set stored (Room.leave_name user.mID) Room.leave_passwd) ?_
        fun member different => ?_
      · change ((RoomKeeperInvariant.dropped keeper user room).mIdUser[user.mID]?).map visitorOf = none
        rw [dropped_user, if_pos rfl]
        rfl
      · rw [dropped_user, if_neg (Ne.symm different)]
    have company := speaks_company after
      (by rw [RoomKeeperInvariant.dropped, left_room, if_pos rfl] : _ = some (room.handleUserLeave user.mID))
    exact ⟨_, _, by simp only [ChatHouse.step, here]; rfl, after, company⟩

/-! ### Runs -/

/-- What a request asks for, and who asks. -/
def askOfRequest (ip : StdString) (port : UInt16) (connId : UInt64) :
    Worker.Request → Ask UInt64 StdString (StdString × UInt16)
  | .logon name => .arrive connId name (ip, port)
  | .chat roomId input => .say connId roomId.toNat input
  | .createRoom roomName passwd => .make connId roomName passwd
  | .joinRoom roomName passwd => .move connId roomName passwd
  | .whisper toName words => .whisper connId toName words
  | .other _ _ => .mutter

def askOf : Worker.Event → Ask UInt64 StdString (StdString × UInt16)
  | .recv delivery request _ => askOfRequest delivery.ip delivery.port delivery.connId request
  | .drop connId => .part connId

theorem serve_refines {request : Worker.Request} {ip : StdString} {port : UInt16} (pictures : Pictures keeper house)
    (few : next.mIdRoom.size < 2 ^ 32) (served : serve ip port connId request keeper = .ok (next, sent)) :
    Refines house (askOfRequest ip port connId request) next sent := by
  have inv := WorkerSafety.serve_keeps pictures.inv request served
  obtain ⟨counted, grown⟩ := WorkerSafety.performed_counted pictures.inv pictures.counted
    (WorkerSafety.serve_performs request served)
  have before : keeper.mIdRoom.size < 2 ^ 32 := by omega
  cases request with
  | logon name => exact logon_refines pictures inv counted few served
  | chat roomId input => exact chat_refines pictures served
  | createRoom roomName passwd => exact create_refines pictures inv counted few served
  | joinRoom roomName passwd => exact join_refines pictures inv counted before served
  | whisper toName words => exact whisper_refines pictures served
  | other code unknown =>
    cases served
    exact ⟨house, silence, rfl, pictures, speaks_silence⟩

theorem drop_refines (pictures : Pictures keeper house) (dropped : Worker.drop keeper connId = .ok (next, sent)) :
    Refines house (.part connId) next sent := by
  obtain ⟨_, _, again, inv⟩ := WorkerSafety.drop_ok pictures.inv connId
  cases dropped.symm.trans again
  obtain ⟨outcome, performed, same⟩ := WorkerSafety.drop_performs dropped
  obtain ⟨counted, _⟩ := WorkerSafety.performed_counted pictures.inv pictures.counted (.inr ⟨_, outcome, performed, same⟩)
  exact part_refines pictures inv counted dropped

theorem pictures_new : Pictures RoomKeeper.new (ChatHouse.new HALL_NAME (.ascii "")) := by
  refine ⟨inv_new, counted_new, ?_, fun roomId => ?_, fun userId => ?_⟩
  · simp [ChatHouse.new, RoomKeeper.new, createRoom, succeeded, Std.ExtTreeMap.size_insertIfNew]
  · rw [new_rooms]
    by_cases hall : 0 = roomId
    · subst hall
      rfl
    · have other : roomId.toNat ≠ 0 := fun same => hall (UInt32.toNat_inj.mp same.symm)
      rw [if_neg hall, ChatHouse.new, List.getElem?_eq_none (by rw [List.length_singleton]; omega)]
      rfl
  · rw [new_has_no_users]
    rfl

/-- The house has an answer to what the event asks. -/
def Answers (house : House) (event : Worker.Event) : Prop :=
  ∃ after told, house.step 0 (askOf event) = .ok (after, told)

end ChatRoom.HouseRefinement
