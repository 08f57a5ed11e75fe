import ChatRoom.PagedRefinement

/-! Counts that a server cannot outgrow. It tells of its rooms in lists, which it writes
whenever it makes one or lets somebody in, and a list of 2^32 bytes cannot be written: the
counter of the bytes leaves the `int`s before that. So as long as the server goes on there
are fewer than 2^32 rooms, and of a room in a list the members can be counted in 32 bits. -/
namespace ChatRoom.RoomCounts
open Lib Wire RoomKeeper RoomKeeperInvariant PagedRefinement

variable {host : Host} {keeper next : RoomKeeper} {event : Worker.Event} {events : List Worker.Event} {rooms : List Room}
  {room : Room} {sent : List Sent} {own : List OperContext} {owns : List (List OperContext)} {msg : Msg}

/-! ### What a written list says -/

/-- The names of the rooms are as long as they can be in a request. -/
def NamesFit (keeper : RoomKeeper) : Prop :=
  ∀ (roomId : UInt32) (room : Room), keeper.mIdRoom[roomId]? = some room → room.mName.length ≤ 2 ^ 31 - 24

private theorem encode_room_length (room : Room) : room.mUsers.size < (encode room.encode).length := by
  have users : (encode (room.getAllUsers.map Field.u64)).length = 8 * room.mUsers.size := by
    rw [← Room.all_users_length]
    induction room.getAllUsers with
    | nil => rfl
    | cons userId userIds ih =>
      rw [List.map_cons, List.length_cons, ← List.singleton_append, encode_append, List.length_append, ih]
      simp [encode, codec, encodeField]
      omega
  rw [Room.encode, encode_append, List.length_append, users]
  simp [encode, codec, encodeField]
  omega

private theorem encode_rooms_length (rooms : List Room) :
    rooms.length ≤ (encode (rooms.flatMap Room.encode)).length ∧
      ∀ room ∈ rooms, room.mUsers.size < (encode (rooms.flatMap Room.encode)).length := by
  induction rooms with
  | nil => exact ⟨Nat.zero_le _, fun _ inside => nomatch inside⟩
  | cons first rooms ih =>
    have here := encode_room_length first
    rw [List.flatMap_cons, encode_append, List.length_append, List.length_cons]
    refine ⟨by omega, fun room inside => ?_⟩
    rcases List.mem_cons.mp inside with rfl | later
    · omega
    · have there := ih.2 room later
      omega

/-- The only texts of a list are the names of its rooms. -/
private theorem list_texts {text : StdString} (inside : Field.str text ∈ listFields rooms) :
    ∃ room ∈ rooms, text = room.mName := by
  have listed : Field.str text ∈ rooms.flatMap Room.encode := by simpa [listFields, MsgType.field] using inside
  obtain ⟨room, among, said⟩ := List.mem_flatMap.mp listed
  refine ⟨room, among, ?_⟩
  simpa [Room.encode] using said

theorem written_list_counts (names : NamesFit keeper)
    (built : Msg.build host (listFields (valuesOf keeper.mIdRoom)) = .ok msg) :
    keeper.mIdRoom.size < 2 ^ 32 ∧
      ∀ (roomId : UInt32) (room : Room), keeper.mIdRoom[roomId]? = some room → room.mUsers.size < 2 ^ 32 := by
  have texts : ∀ text, Field.str text ∈ listFields (valuesOf keeper.mIdRoom) → text.length ≤ 2 ^ 31 - 24 := by
    intro text inside
    obtain ⟨room, among, rfl⟩ := list_texts inside
    obtain ⟨roomId, stored⟩ := mem_values_of.mp among
    exact names roomId room stored
  rw [← List.append_nil (listFields _)] at built
  have short := MsgWriting.build_short texts built
  have split : listFields (valuesOf keeper.mIdRoom) =
      [MsgType.s2cRoomList.field, .u32 (UInt32.ofNat (valuesOf keeper.mIdRoom).length)] ++
        (valuesOf keeper.mIdRoom).flatMap Room.encode := rfl
  rw [split, encode_append, List.length_append] at short
  obtain ⟨rooms, members⟩ := encode_rooms_length (valuesOf keeper.mIdRoom)
  rw [length_values_of] at rooms
  exact ⟨by omega, fun roomId room stored => by
    have inside := members room (mem_values_of.mpr ⟨roomId, stored⟩)
    omega⟩

/-! ### What becomes of the rooms -/

/-- Only the creation of a room changes the rooms. -/
theorem rooms_stay {request : Request} {outcome : Outcome} (inv : Inv keeper)
    (performed : keeper.perform request = .ok outcome)
    (creates : request.creates = false) : SameRooms keeper outcome.keeper := by
  obtain ⟨same, again, _, change⟩ := perform_advances inv request
  cases performed.symm.trans again
  rcases change with ⟨rooms, _⟩ | ⟨name, passwd, rfl, _⟩
  · exact rooms
  · cases creates

/-- A step leaves the rooms as they are, but for the one that it makes. -/
theorem step_rooms (inv : Inv keeper) (taken : Worker.step keeper event = .ok (next, sent)) :
    SameRooms keeper next ∨ ∃ delivery roomName passwd encoded,
      event = .recv delivery (.createRoom roomName passwd) encoded ∧ next = created keeper roomName passwd := by
  cases event with
  | recv delivery request encoded =>
    rw [Worker.step, Worker.receive_request keeper delivery request encoded] at taken
    cases request with
    | logon name =>
      obtain ⟨outcome, logged, rest⟩ := bind_ok.mp taken
      obtain ⟨_, _, same⟩ := bind_ok.mp rest
      cases same
      have performed : keeper.perform (.logon name delivery.ip delivery.port delivery.connId) = .ok outcome := logged
      exact .inl (rooms_stay inv performed rfl)
    | chat roomId input =>
      rw [WorkerSafety.serve_chat_same taken]
      exact .inl (same_rooms_refl keeper)
    | createRoom roomName passwd =>
      cases taken
      rcases create_cases keeper roomName passwd with ⟨err, errstr, refused⟩ | ⟨_, accepted⟩
      · rw [refused]
        exact .inl (same_rooms_refl keeper)
      · rw [accepted]
        exact .inr ⟨delivery, roomName, passwd, encoded, rfl, rfl⟩
    | joinRoom roomName passwd =>
      obtain ⟨outcome, joined, same⟩ := bind_ok.mp taken
      cases same
      have performed : keeper.perform (.join roomName passwd delivery.connId) = .ok outcome := joined
      exact .inl (rooms_stay inv performed rfl)
    | whisper toName words =>
      rw [WorkerSafety.serve_whisper_same taken]
      exact .inl (same_rooms_refl keeper)
    | other code unknown =>
      cases taken
      exact .inl (same_rooms_refl keeper)
  | drop connId =>
    obtain ⟨outcome, dropped, rfl⟩ := WorkerSafety.drop_performs taken
    exact .inl (rooms_stay inv dropped rfl)

/-- A name that comes in a message is shorter than the message. -/
private theorem name_fits {roomName passwd : StdString} {frame : Frame}
    (encoded : encode (Worker.Request.createRoom roomName passwd).fields <+: frame.payload) :
    roomName.length ≤ 2 ^ 31 - 24 := by
  have short := encoded.length_le.trans frame.atMost
  simp [Worker.Request.fields, MsgType.field, encode, codec, encodeField] at short
  unfold StdString.length
  omega

theorem names_fit_new : NamesFit RoomKeeper.new := by
  intro roomId room stored
  rw [new_rooms] at stored
  split at stored
  · cases stored
    decide
  · cases stored

theorem names_fit_step (inv : Inv keeper) (names : NamesFit keeper) (taken : Worker.step keeper event = .ok (next, sent)) :
    NamesFit next := by
  intro roomId room stored
  rcases step_rooms inv taken with same | ⟨delivery, roomName, passwd, encoded, rfl, rfl⟩
  · have named := same.named roomId
    rw [stored, Option.map_some] at named
    obtain ⟨before, held, sameName⟩ := Option.map_eq_some_iff.mp named.symm
    exact sameName ▸ names roomId before held
  · rw [created_room] at stored
    split at stored
    · cases stored
      exact name_fits encoded
    · exact names roomId room stored

/-! ### Runs -/

/-- All that is known of the rooms of a server that goes on. -/
structure Holds (keeper : RoomKeeper) : Prop where
  inv : Inv keeper
  counted : Counted keeper
  names : NamesFit keeper
  few : keeper.mIdRoom.size < 2 ^ 32

/-- With a new room the list of all rooms is written. -/
private theorem list_is_written (inv : Inv keeper) {delivery : Worker.Delivery} {roomName passwd : StdString}
    {encoded : encode (Worker.Request.createRoom roomName passwd).fields <+: delivery.frame.payload}
    (taken : Worker.take host keeper (.recv delivery (.createRoom roomName passwd) encoded) = .ok (next, own)) :
    ∃ msg, Msg.build host (listFields (valuesOf next.mIdRoom)) = .ok msg := by
  obtain ⟨stepped, _⟩ := (take_ok_iff inv).mp taken
  have posts := ((take_completes_iff inv).mp ⟨next, own, taken⟩).2
  rw [Worker.step, Worker.receive_request keeper delivery _ encoded] at stepped
  have list : listTo next 0 ∈ lettersOf keeper (.recv delivery (.createRoom roomName passwd) encoded) := by
    obtain rfl : (keeper.createRoom roomName passwd).keeper = next := (Prod.mk.inj (Except.ok.inj stepped)).1
    simp only [lettersOf, requestLetters, createLetters]
    rw [createRoom]
    split
    · exact List.mem_cons_of_mem _ List.mem_cons_self
    · exact List.mem_cons_of_mem _ List.mem_cons_self
  obtain ⟨msg, built, _⟩ := posts _ list
  exact ⟨msg, built⟩

theorem take_holds (holds : Holds keeper) (taken : Worker.take host keeper event = .ok (next, own)) : Holds next := by
  obtain ⟨stepped, _⟩ := (take_ok_iff holds.inv).mp taken
  have names := names_fit_step holds.inv holds.names stepped
  refine ⟨take_keeps holds.inv taken, (WorkerSafety.step_counted holds.inv holds.counted stepped).1, names, ?_⟩
  rcases step_rooms holds.inv stepped with same | ⟨delivery, roomName, passwd, encoded, rfl, rfl⟩
  · rw [same_rooms_size same]
    exact holds.few
  · obtain ⟨msg, built⟩ := list_is_written holds.inv taken
    exact (written_list_counts names built).1

theorem holds_new : Holds RoomKeeper.new where
  inv := inv_new
  counted := counted_new
  names := names_fit_new
  few := by
    simp [RoomKeeper.new, createRoom, succeeded, Std.ExtTreeMap.size_insertIfNew]

end ChatRoom.RoomCounts
