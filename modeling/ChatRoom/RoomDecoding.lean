import ChatRoom.ClientView

/-! `Room::Decode` on a room that has been used. It overwrites the id and the
name, but the members it reads are added to those the room has. A client keeps
one room object for all the rooms it is told about, and clears its map of users
before each. -/
namespace ChatRoom.RoomDecoding
open Lib Wire ClientReading ClientView

variable {room target : Room} {client view : CRClient} {userId : UInt64}

/-! ### One room -/

/-- What `Decode` finds in the bytes of a room: as many members as the count in
front of them says. -/
def counted (room : Room) : Room.Entry where
  id := room.mID
  name := room.mName
  users := room.getAllUsers.take (room.mUsers.size % 2 ^ 32)
  short := by
    rw [List.length_take]
    omega

/-- The members of a room that its count leaves out: none, of fewer than
`2 ^ 32`. -/
def uncounted (room : Room) : List UInt64 := room.getAllUsers.drop (room.mUsers.size % 2 ^ 32)

theorem encode_counted (room : Room) :
    room.encode = (counted room).fields ++ (uncounted room).map Field.u64 := by
  have count : UInt32.ofNat (counted room).users.length = UInt32.ofNat room.mUsers.size := by
    apply UInt32.toNat_inj.mp
    simp only [counted, List.length_take, Room.all_users_length, UInt32.toNat_ofNat']
    omega
  rw [Room.encode, Room.Entry.fields, count, counted, uncounted, List.append_assoc, ← List.map_append,
    List.take_append_drop]

/-- `Decode` goes through on what `Encode` wrote, whatever the object held. -/
theorem decode_encoded (room target : Room) (tail : List UInt8) :
    target.decode.run (Reader.decoded codec) (encode room.encode ++ tail) =
      .ok (target.update (counted room), encode ((uncounted room).map Field.u64) ++ tail) := by
  have values : target.decode.run Reader.takeValue room.encode =
      .ok (target.update (counted room), (uncounted room).map Field.u64) :=
    Room.decode_ok.mpr ⟨counted room, encode_counted room, rfl⟩
  exact Reader.run_decoded_of_values codec tail values

/-- A decoded room with just the id, the name and the members of another. -/
structure Replaces (decoded room : Room) : Prop where
  id : decoded.mID = room.mID
  name : decoded.mName = room.mName
  users : decoded.mUsers = room.mUsers

private theorem update_replaces_iff (room target : Room) :
    Replaces (target.update (counted room)) room ↔
      (∀ userId ∈ target.mUsers, userId ∈ room.mUsers) ∧ ∀ userId ∈ uncounted room, userId ∈ target.mUsers := by
  have updated : ∀ userId, userId ∈ (target.update (counted room)).mUsers ↔
      userId ∈ target.mUsers ∨ userId ∈ (counted room).users := fun userId => mem_foldl_insert
  have split : (counted room).users ++ uncounted room = room.getAllUsers := List.take_append_drop _ _
  have members : ∀ userId, userId ∈ room.mUsers ↔ userId ∈ (counted room).users ∨ userId ∈ uncounted room := by
    intro userId
    rw [← List.mem_append, split, Room.mem_all_users]
  constructor
  · intro replaces
    refine ⟨fun userId held => ?_, fun userId behind => ?_⟩
    · rw [← replaces.users, updated]
      exact .inl held
    · have held := (members userId).mpr (.inr behind)
      rw [← replaces.users, updated] at held
      have apart := List.nodup_append.mp (split ▸ room.all_users_nodup)
      exact held.resolve_right fun counted => apart.2.2 userId counted userId behind rfl
  · rintro ⟨inside, covered⟩
    refine ⟨rfl, rfl, Std.ExtTreeSet.ext_mem fun userId => ?_⟩
    rw [updated, members]
    constructor
    · rintro (held | counted)
      · exact (members userId).mp (inside userId held)
      · exact .inl counted
    · rintro (counted | behind)
      · exact .inr counted
      · exact .inl (covered userId behind)

/-! ### A client that is told about rooms -/

/-- What a `s2c_room_info` says: a room, and a record for each user in it. -/
structure Info where
  room : Room.Entry
  users : List User
  short : users.length < 2 ^ 32

def Info.fields (info : Info) : List Field := (Message.roomInfo info.room info.users info.short).fields

/-- The messages of the server list just the users whose records they have. -/
theorem announced_info {keeper : RoomKeeper} {roomId : UInt32} (inv : RoomKeeperInvariant.Inv keeper)
    (stored : keeper.mIdRoom[roomId]? = some room) (few : room.mUsers.size < 2 ^ 32) :
    ∃ info : Info, RoomKeeperInvariant.announced keeper room = info.fields ∧
      (∀ userId, userId ∈ info.room.users ↔ userId ∈ room.mUsers) ∧
      ∀ userId, userId ∈ info.room.users ↔ ∃ user ∈ info.users, user.mID = userId := by
  obtain ⟨short, fields⟩ := announced_fields inv stored few
  refine ⟨⟨room.entry few, _, short⟩, fields, fun userId => Room.mem_all_users, fun userId => ?_⟩
  constructor
  · intro listed
    obtain ⟨user, known⟩ := inv.online stored (Room.mem_all_users.mp listed)
    exact ⟨user, List.mem_filterMap.mpr ⟨userId, listed, known⟩, inv.ids known⟩
  · rintro ⟨user, recorded, rfl⟩
    obtain ⟨other, listed, known⟩ := List.mem_filterMap.mp recorded
    obtain rfl := inv.ids known
    exact listed

/-- The client after a message. -/
def told (client : CRClient) (info : Info) : CRClient := showing client info.room info.users

theorem apply_all_told (client : CRClient) (infos : List Info) :
    applyAll client (infos.map Info.fields) = .ok (infos.foldl told client) := by
  induction infos generalizing client with
  | nil => rfl
  | cons info infos ih =>
    have shown : applyInfo client info.fields = .ok (told client info) :=
      apply_info_ok client (.roomInfo info.room info.users info.short) (List.append_nil _).symm
    rw [List.map_cons, applyAll, List.foldlM_cons, shown, ok_then]
    exact ih (told client info)

/-- Every member that the room ever had, or that a message listed, stays. -/
theorem members_told (client : CRClient) (infos : List Info) :
    userId ∈ (infos.foldl told client).mCurrentRoom.mUsers ↔
      userId ∈ client.mCurrentRoom.mUsers ∨ ∃ info ∈ infos, userId ∈ info.room.users := by
  induction infos generalizing client with
  | nil => simp
  | cons info infos ih =>
    have one : userId ∈ (told client info).mCurrentRoom.mUsers ↔
        userId ∈ client.mCurrentRoom.mUsers ∨ userId ∈ info.room.users := mem_foldl_insert
    rw [List.foldl_cons, ih, one, or_assoc]
    simp only [List.mem_cons, exists_eq_or_imp]

theorem mem_onlines (users : List User) : userId ∈ onlinesOf users ↔ ∃ user ∈ users, user.mID = userId := by
  rw [Std.ExtTreeMap.mem_iff_isSome_getElem?, onlinesOf, insert_each_lookup]
  simp

/-- The members of the room and the keys of the map are what the message lists. -/
structure Agrees (view : CRClient) (last : Info) : Prop where
  onlines : ∀ userId : UInt64, userId ∈ view.mCurrentRoom.mUsers ↔ userId ∈ view.mOnlines
  listed : ∀ userId : UInt64, userId ∈ view.mOnlines ↔ userId ∈ last.room.users

private theorem told_agrees_iff (client : CRClient) (earlier : List Info) (last : Info) :
    Agrees ((earlier ++ [last]).foldl told client) last ↔
      (∀ userId, userId ∈ last.room.users ↔ ∃ user ∈ last.users, user.mID = userId) ∧
      (∀ userId ∈ client.mCurrentRoom.mUsers, userId ∈ last.room.users) ∧
      ∀ info ∈ earlier, ∀ userId ∈ info.room.users, userId ∈ last.room.users := by
  have members : ∀ userId, userId ∈ ((earlier ++ [last]).foldl told client).mCurrentRoom.mUsers ↔
      userId ∈ client.mCurrentRoom.mUsers ∨ ∃ info ∈ earlier ++ [last], userId ∈ info.room.users :=
    fun userId => members_told client (earlier ++ [last])
  have onlines : ((earlier ++ [last]).foldl told client).mOnlines = onlinesOf last.users := by
    rw [List.foldl_append]
    rfl
  constructor
  · intro agrees
    have known : ∀ userId, userId ∈ client.mCurrentRoom.mUsers ∨
        (∃ info ∈ earlier ++ [last], userId ∈ info.room.users) → userId ∈ last.room.users := by
      intro userId held
      exact (agrees.listed userId).mp ((agrees.onlines userId).mp ((members userId).mpr held))
    refine ⟨fun userId => ?_, fun userId held => known userId (.inl held), fun info sent userId listed => ?_⟩
    · rw [← agrees.listed, onlines, mem_onlines]
    · exact known userId (.inr ⟨info, List.mem_append_left _ sent, listed⟩)
  · rintro ⟨recorded, held, sent⟩
    have listed : ∀ userId, userId ∈ ((earlier ++ [last]).foldl told client).mOnlines ↔ userId ∈ last.room.users := by
      intro userId
      rw [onlines, mem_onlines, recorded]
    refine ⟨fun userId => ?_, listed⟩
    rw [members, listed]
    constructor
    · rintro (before | ⟨info, among, said⟩)
      · exact held userId before
      · rcases List.mem_append.mp among with early | late
        · exact sent info early userId said
        · rw [List.mem_singleton.mp late] at said
          exact said
    · intro said
      exact .inr ⟨last, List.mem_append_right _ (List.mem_singleton_self last), said⟩

/-- Decoding a room into an object replaces what it held exactly when the room
has every member that was there before; and a client's room agrees with its map
of users, and with the last message, exactly when everyone it has ever been told
about is listed again. -/
theorem decoding_replaces_iff (room target : Room) (tail : List UInt8) (client : CRClient) (earlier : List Info)
    (last : Info) :
    (∃ decoded rest,
      target.decode.run (Reader.decoded codec) (encode room.encode ++ tail) = .ok (decoded, rest) ∧
      (Replaces decoded room ↔
        (∀ userId ∈ target.mUsers, userId ∈ room.mUsers) ∧ ∀ userId ∈ uncounted room, userId ∈ target.mUsers)) ∧
    ∃ view, applyAll client ((earlier ++ [last]).map Info.fields) = .ok view ∧
      (Agrees view last ↔
        (∀ userId, userId ∈ last.room.users ↔ ∃ user ∈ last.users, user.mID = userId) ∧
        (∀ userId ∈ client.mCurrentRoom.mUsers, userId ∈ last.room.users) ∧
        ∀ info ∈ earlier, ∀ userId ∈ info.room.users, userId ∈ last.room.users) :=
  ⟨⟨_, _, decode_encoded room target tail, update_replaces_iff room target⟩,
    _, apply_all_told client _, told_agrees_iff client earlier last⟩

/-- The hall with Ann and Bob, and what is said when Bob has left it. -/
def annAndBob : Info where
  room := ⟨0, HALL_NAME, [1, 2], by decide⟩
  users := [.new (.ascii "ann") (.ascii "10.0.0.1") 4000 1, .new (.ascii "bob") (.ascii "10.0.0.2") 4000 2]
  short := by decide

def annAlone : Info where
  room := ⟨0, HALL_NAME, [1], by decide⟩
  users := [.new (.ascii "ann") (.ascii "10.0.0.1") 4000 1]
  short := by decide

/-- A room with user 2 that is decoded from a room with user 1 has both; and
Bob, who has left, stays in the room of a client that was told about him. -/
theorem a_reused_room_keeps_a_member :
    (∃ decoded rest, ((Room.empty.add 2).decode.run (Reader.decoded codec) (encode (Room.empty.add 1).encode)) =
        .ok (decoded, rest) ∧ ¬ Replaces decoded (Room.empty.add 1)) ∧
    ∃ view, applyAll (.new (.ascii "ann")) ([annAndBob, annAlone].map Info.fields) = .ok view ∧
      (2 : UInt64) ∈ view.mCurrentRoom.mUsers ∧ ¬ Agrees view annAlone := by
  constructor
  · have decoded := decode_encoded (Room.empty.add 1) (Room.empty.add 2) []
    rw [List.append_nil] at decoded
    refine ⟨_, _, decoded, fun replaces => ?_⟩
    have inside := ((update_replaces_iff _ _).mp replaces).1 2 (Room.mem_add.mpr (.inl rfl))
    exact absurd inside (by decide)
  · have bob : (2 : UInt64) ∈ ([annAndBob, annAlone].foldl told (.new (.ascii "ann"))).mCurrentRoom.mUsers :=
      (members_told _ _).mpr (.inr ⟨annAndBob, by simp, by decide⟩)
    refine ⟨_, apply_all_told _ _, bob, fun agrees => ?_⟩
    exact absurd ((agrees.listed 2).mp ((agrees.onlines 2).mp bob)) (by decide)

end ChatRoom.RoomDecoding
