import ChatRoom.ClientReading
import ChatRoom.RoomKeeperInvariant

/-! A client's picture of its room against the server's room. The server never
repeats itself: it announces a room when its members change, to the members that
are left. What makes the picture right is that the last announcement a user is
sent is always the current one of the room it is in. -/
namespace ChatRoom.ClientView
open Lib Wire RoomKeeper RoomKeeperInvariant ClientReading

variable {keeper next : RoomKeeper} {userId mover : UInt64} {roomId : UInt32} {user : User} {room : Room}

/-- A request with which this user has logged on. -/
def logsOn (userId : UInt64) : Request × Outcome → Bool
  | (.logon _ _ _ connId, outcome) => connId == userId && outcome.err == 0
  | _ => false

/-- The messages enqueued for a user since its latest logon. The four operations
send no other messages than `s2c_room_info`. -/
def inbox (userId : UInt64) (history : List (Request × Outcome)) : List (List Field) :=
  history.foldl (fun messages entry =>
    (if logsOn userId entry then [] else messages) ++ sentTo userId entry.2.sent) []

theorem inbox_snoc (history : List (Request × Outcome)) (entry : Request × Outcome) :
    inbox userId (history ++ [entry]) =
      (if logsOn userId entry then [] else inbox userId history) ++ sentTo userId entry.2.sent := by
  simp [inbox]

/-! ### Announcements -/

private theorem announced_congr
    (same : ∀ member ∈ room.mUsers, next.mIdUser[member]? = keeper.mIdUser[member]?) :
    announced next room = announced keeper room := by
  have users : usersOf next room = usersOf keeper room :=
    List.filterMap_congr fun member inside => same member (Room.mem_all_users.mp inside)
  rw [announced, announced, users]

/-- What a user in a room that nobody has entered or left finds: the same record
in the same room, about which the same would be said. -/
private theorem bystander (inv : Inv next)
    (others : ∀ other, other ≠ mover → next.mIdUser[other]? = keeper.mIdUser[other]?)
    (away : ∀ moved, next.mIdUser[mover]? = some moved → moved.mRoomId ≠ user.mRoomId)
    (sameRoom : next.mIdRoom[user.mRoomId]? = keeper.mIdRoom[user.mRoomId]?)
    (known : next.mIdUser[userId]? = some user) (stored : next.mIdRoom[user.mRoomId]? = some room) :
    keeper.mIdUser[userId]? = some user ∧ keeper.mIdRoom[user.mRoomId]? = some room ∧
      announced next room = announced keeper room := by
  have other : userId ≠ mover := by
    rintro rfl
    exact away user known rfl
  refine ⟨others userId other ▸ known, sameRoom ▸ stored, announced_congr fun member inside => ?_⟩
  obtain ⟨record, found, home⟩ := (inv.member stored).mp inside
  apply others member
  intro same
  subst same
  exact away record found home

/-- What a request tells a user who is logged on afterwards: the present state of
its room, or nothing when neither the user nor its room has changed. -/
def Told (keeper : RoomKeeper) (request : Request) (outcome : Outcome) (userId : UInt64) (user : User)
    (room : Room) : Prop :=
  sentTo userId outcome.sent = [announced outcome.keeper room] ∨
    sentTo userId outcome.sent = [] ∧ logsOn userId (request, outcome) = false ∧
      keeper.mIdUser[userId]? = some user ∧ keeper.mIdRoom[user.mRoomId]? = some room ∧
      announced outcome.keeper room = announced keeper room

/-- A request that sends nothing and changes neither a user nor its room. -/
private theorem told_nothing {outcome : Outcome} (silent : outcome.sent = [])
    (notLogon : logsOn userId (request, outcome) = false)
    (users : outcome.keeper.mIdUser = keeper.mIdUser)
    (known : outcome.keeper.mIdUser[userId]? = some user) (stored : keeper.mIdRoom[user.mRoomId]? = some room) :
    Told keeper request outcome userId user room := by
  refine .inr ⟨by rw [silent]; rfl, notLogon, users ▸ known, stored, announced_congr fun member _ => ?_⟩
  rw [users]

private theorem told_refused (known : keeper.mIdUser[userId]? = some user)
    (stored : keeper.mIdRoom[user.mRoomId]? = some room) (request : Request) (err : Err) (errstr : StdString) :
    Told keeper request (keeper.failed err errstr) userId user room := by
  refine told_nothing rfl ?_ rfl known stored
  cases request <;> simp [logsOn, failed]

/-- An announced room is heard about by those whose home it is. -/
private theorem sent_by_home (kept : Inv next) (known : next.mIdUser[userId]? = some user)
    (stored : next.mIdRoom[roomId]? = some room) :
    sentTo userId (announce next room) = if user.mRoomId = roomId then [announced next room] else [] := by
  have home : userId ∈ room.mUsers ↔ user.mRoomId = roomId := by
    rw [kept.member stored]
    constructor
    · rintro ⟨found, held, same⟩
      cases known.symm.trans held
      exact same
    · intro same
      exact ⟨user, known, same⟩
  rw [announce, sent_to_each]
  exact if_congr home rfl rfl

private theorem told_logon (inv : Inv keeper)
    (performed : keeper.handleLogon name ip port connId = .ok outcome) (kept : Inv outcome.keeper)
    (known : outcome.keeper.mIdUser[userId]? = some user)
    (stored : outcome.keeper.mIdRoom[user.mRoomId]? = some room) :
    Told keeper (.logon name ip port connId) outcome userId user room := by
  rcases logon_cases inv name ip port connId with ⟨err, errstr, refused⟩ | ⟨hall, fresh, free, inHall, accepted⟩
  · cases performed.symm.trans refused
    exact told_refused known stored _ err errstr
  · cases performed.symm.trans accepted
    simp only [succeeded] at known stored kept
    have hallNow := entered_room (registered keeper (.new name ip port connId)) connId
      (.new name ip port connId) 0 hall 0
    rw [if_pos rfl] at hallNow
    have hears := sent_by_home kept known hallNow
    by_cases home : user.mRoomId = 0
    · left
      rw [if_pos home] at hears
      rw [home, hallNow] at stored
      cases stored
      exact hears
    · right
      rw [if_neg home] at hears
      have away : ∀ moved, (entered (registered keeper (.new name ip port connId)) connId
          (.new name ip port connId) 0 hall).mIdUser[connId]? = some moved → moved.mRoomId ≠ user.mRoomId := by
        intro moved found
        rw [entered_user, if_pos rfl] at found
        cases found
        exact fun same => home same.symm
      have others : ∀ other, other ≠ connId → (entered (registered keeper (.new name ip port connId)) connId
          (.new name ip port connId) 0 hall).mIdUser[other]? = keeper.mIdUser[other]? := by
        intro other different
        rw [entered_user, if_neg different.symm]
        exact registered_other keeper (.new name ip port connId) different
      have sameRoom : (entered (registered keeper (.new name ip port connId)) connId
          (.new name ip port connId) 0 hall).mIdRoom[user.mRoomId]? = keeper.mIdRoom[user.mRoomId]? := by
        rw [entered_room, if_neg fun same => home same.symm]
        rfl
      have different : connId ≠ userId := by
        rintro rfl
        exact away user known rfl
      obtain ⟨before, held, same⟩ := bystander kept others away sameRoom known stored
      exact ⟨hears, by simp [logsOn, different], before, held, same⟩

private theorem told_create (inv : Inv keeper) (known : (keeper.createRoom name passwd).keeper.mIdUser[userId]? = some user)
    (stored : (keeper.createRoom name passwd).keeper.mIdRoom[user.mRoomId]? = some room) :
    Told keeper (.create name passwd) (keeper.createRoom name passwd) userId user room := by
  rcases create_cases keeper name passwd with ⟨err, errstr, refused⟩ | ⟨free, accepted⟩
  · rw [refused] at known stored ⊢
    exact told_refused known stored _ err errstr
  · rw [accepted] at known stored ⊢
    refine told_nothing rfl rfl rfl known ?_
    have before : keeper.mIdUser[userId]? = some user := known
    obtain ⟨old, held⟩ := inv.housed before
    have keeps := created_room_old name passwd held
    cases keeps.symm.trans stored
    exact held

private theorem told_join (inv : Inv keeper)
    (performed : keeper.handleJoinRoom roomName passwd connId = .ok outcome) (kept : Inv outcome.keeper)
    (known : outcome.keeper.mIdUser[userId]? = some user)
    (stored : outcome.keeper.mIdRoom[user.mRoomId]? = some room) :
    Told keeper (.join roomName passwd connId) outcome userId user room := by
  rcases join_cases inv roomName passwd connId with
    ⟨err, errstr, refused⟩ | ⟨mover, oldRoom, newId, newRoom, was, old, target, other, _, accepted⟩
  · cases performed.symm.trans refused
    exact told_refused known stored _ err errstr
  · cases performed.symm.trans accepted
    obtain rfl := inv.ids was
    simp only [succeeded] at known stored kept
    have oldNow : (moved keeper mover oldRoom newId newRoom).mIdRoom[mover.mRoomId]? =
        some (oldRoom.handleUserLeave mover.mID) := by
      rw [moved, left_room, if_pos rfl]
    have newNow : (moved keeper mover oldRoom newId newRoom).mIdRoom[newId]? =
        some (newRoom.add mover.mID) := by
      rw [moved, left_room, if_neg other.symm, entered_room, if_pos rfl]
    -- the first announcement is made before the old room is left, but the users' records are final
    have hears : sentTo userId (announce (entered keeper mover.mID mover newId newRoom) (newRoom.add mover.mID) ++
        announce (moved keeper mover oldRoom newId newRoom) (oldRoom.handleUserLeave mover.mID)) =
        (if user.mRoomId = newId then [announced (moved keeper mover oldRoom newId newRoom)
          (newRoom.add mover.mID)] else []) ++
        if user.mRoomId = mover.mRoomId then [announced (moved keeper mover oldRoom newId newRoom)
          (oldRoom.handleUserLeave mover.mID)] else [] := by
      rw [sent_to_append, ← sent_by_home kept known newNow, ← sent_by_home kept known oldNow]
      rfl
    by_cases inNew : user.mRoomId = newId
    · left
      have notOld : user.mRoomId ≠ mover.mRoomId := inNew ▸ other
      rw [inNew, newNow] at stored
      cases stored
      rw [if_pos inNew, if_neg notOld, List.append_nil] at hears
      exact hears
    · by_cases inOld : user.mRoomId = mover.mRoomId
      · left
        rw [inOld, oldNow] at stored
        cases stored
        rw [if_neg inNew, if_pos inOld, List.nil_append] at hears
        exact hears
      · right
        rw [if_neg inNew, if_neg inOld] at hears
        have others : ∀ other, other ≠ mover.mID →
            (moved keeper mover oldRoom newId newRoom).mIdUser[other]? = keeper.mIdUser[other]? := by
          intro other different
          exact (entered_user keeper mover.mID mover newId newRoom other).trans (if_neg different.symm)
        have away : ∀ found, (moved keeper mover oldRoom newId newRoom).mIdUser[mover.mID]? = some found →
            found.mRoomId ≠ user.mRoomId := by
          intro found held
          cases ((entered_user keeper mover.mID mover newId newRoom mover.mID).trans (if_pos rfl)).symm.trans held
          exact fun same => inNew same.symm
        have sameRoom : (moved keeper mover oldRoom newId newRoom).mIdRoom[user.mRoomId]? =
            keeper.mIdRoom[user.mRoomId]? := by
          rw [moved, left_room, if_neg fun same => inOld same.symm, entered_room,
            if_neg fun same => inNew same.symm]
        obtain ⟨before, held, same⟩ := bystander kept others away sameRoom known stored
        exact ⟨hears, rfl, before, held, same⟩

private theorem told_drop (inv : Inv keeper)
    (performed : keeper.handleDrop connId = .ok outcome) (kept : Inv outcome.keeper)
    (known : outcome.keeper.mIdUser[userId]? = some user)
    (stored : outcome.keeper.mIdRoom[user.mRoomId]? = some room) :
    Told keeper (.drop connId) outcome userId user room := by
  rcases drop_cases inv connId with ⟨_, nothing⟩ | ⟨gone, home, was, held, done⟩
  · cases performed.symm.trans nothing
    exact told_nothing rfl rfl rfl known stored
  · cases performed.symm.trans done
    obtain rfl := inv.ids was
    simp only [succeeded] at known stored kept
    have homeNow : (dropped keeper gone home).mIdRoom[gone.mRoomId]? = some (home.handleUserLeave gone.mID) := by
      exact (left_room keeper gone.mID gone.mRoomId home gone.mRoomId).trans (if_pos rfl)
    have hears := sent_by_home kept known homeNow
    by_cases there : user.mRoomId = gone.mRoomId
    · left
      rw [if_pos there] at hears
      rw [there, homeNow] at stored
      cases stored
      exact hears
    · right
      rw [if_neg there] at hears
      have others : ∀ other, other ≠ gone.mID →
          (dropped keeper gone home).mIdUser[other]? = keeper.mIdUser[other]? := by
        intro other different
        rw [dropped_user, if_neg different.symm]
      have away : ∀ found, (dropped keeper gone home).mIdUser[gone.mID]? = some found →
          found.mRoomId ≠ user.mRoomId := by
        intro found held
        rw [dropped_user, if_pos rfl] at held
        cases held
      have sameRoom : (dropped keeper gone home).mIdRoom[user.mRoomId]? = keeper.mIdRoom[user.mRoomId]? :=
        (left_room keeper gone.mID gone.mRoomId home user.mRoomId).trans (if_neg fun same => there same.symm)
      obtain ⟨before, held, same⟩ := bystander kept others away sameRoom known stored
      exact ⟨hears, rfl, before, held, same⟩

/-- Whatever a request does, a user who is logged on behind it is told the
present state of its room, or nothing has changed for that user. -/
theorem perform_told (inv : Inv keeper) (request : Request) (performed : keeper.perform request = .ok outcome)
    (kept : Inv outcome.keeper) (known : outcome.keeper.mIdUser[userId]? = some user)
    (stored : outcome.keeper.mIdRoom[user.mRoomId]? = some room) :
    Told keeper request outcome userId user room := by
  cases request with
  | logon name ip port connId => exact told_logon inv performed kept known stored
  | create name passwd =>
    cases performed
    exact told_create inv known stored
  | join roomName passwd connId => exact told_join inv performed kept known stored
  | drop connId => exact told_drop inv performed kept known stored

/-! ### Runs -/

/-- The last thing every user was told is the present state of its room. -/
def UpToDate (keeper : RoomKeeper) (history : List (Request × Outcome)) : Prop :=
  ∀ (userId : UInt64) (user : User) (room : Room), keeper.mIdUser[userId]? = some user →
    keeper.mIdRoom[user.mRoomId]? = some room →
      ∃ earlier, inbox userId history = earlier ++ [announced keeper room]

/-- Every run keeps every user up to date. -/
theorem run_up_to_date (ran : run RoomKeeper.step RoomKeeper.new requests = .ok (keeper, outcomes)) :
    Inv keeper ∧ UpToDate keeper (requests.zip outcomes) := by
  refine run_history_always (fun keeper history => Inv keeper ∧ UpToDate keeper history) ?_
    ⟨inv_new, ?_⟩ ran
  · rintro keeper history request next outcome ⟨inv, upToDate⟩ taken
    obtain ⟨rfl, kept, _⟩ := step_advances inv taken
    have performed := step_performs taken
    refine ⟨kept, fun userId user room known stored => ?_⟩
    rw [inbox_snoc]
    rcases perform_told inv request performed kept known stored with
      told | ⟨silent, notLogon, before, held, same⟩
    · exact ⟨_, by rw [told]⟩
    · obtain ⟨earlier, messages⟩ := upToDate userId user room before held
      refine ⟨earlier, ?_⟩
      rw [silent, notLogon, messages, same]
      simp
  · intro userId user room known
    rw [new_has_no_users] at known
    cases known

/-! ### The client -/

/-- A client takes the bytes of a message. -/
def applyInfo (client : CRClient) (message : List Field) : Except Unit CRClient :=
  (client.recvMessage.run (Reader.decoded codec) (encode message)).map fun reply => reply.1.1

/-- A client does what the message at the front of the bytes says. -/
theorem apply_info_ok (client : CRClient) (message : Message) {fields : List Field} {tail : List UInt8}
    (bytes : encode fields = encode message.fields ++ tail) :
    applyInfo client fields = .ok (answer client message).1 := by
  have values : client.recvMessage.run Reader.takeValue message.fields = .ok (answer client message, []) :=
    recv_message_ok.mpr ⟨message, (List.append_nil _).symm, rfl⟩
  have read := Reader.run_decoded_of_values codec tail values
  rw [applyInfo, bytes, read]
  rfl

/-- A client takes messages in order. -/
def applyAll (client : CRClient) (messages : List (List Field)) : Except Unit CRClient :=
  messages.foldlM applyInfo client

theorem apply_all_last (applied : applyAll client (earlier ++ [message]) = .ok view) :
    ∃ between, applyInfo between message = .ok view := by
  rw [applyAll, List.foldlM_append] at applied
  obtain ⟨between, _, last⟩ := bind_ok.mp applied
  rw [List.foldlM_cons] at last
  obtain ⟨final, taken, same⟩ := bind_ok.mp last
  cases same
  exact ⟨between, taken⟩

/-- A client's picture of its room is the server's. -/
structure Shows (view : CRClient) (keeper : RoomKeeper) (user : User) (room : Room) : Prop where
  id : view.mCurrentRoom.mID = user.mRoomId
  name : view.mCurrentRoom.mName = room.mName
  home : view.mUser.mRoomId = user.mRoomId
  onlines : ∀ member : UInt64, view.mOnlines[member]? =
    if member ∈ room.mUsers then keeper.mIdUser[member]? else none

/-- The records of a room's members, looked up by id. -/
private theorem users_lookup (inv : Inv keeper) (userIds : List UInt64) (userId : UInt64) :
    ((userIds.filterMap fun member => keeper.mIdUser[member]?).find? fun user => decide (user.mID = userId)) =
      if userId ∈ userIds then keeper.mIdUser[userId]? else none := by
  induction userIds with
  | nil => rfl
  | cons member userIds ih =>
    cases found : keeper.mIdUser[member]? with
    | none =>
      rw [List.filterMap_cons_none found, ih]
      by_cases same : userId = member
      · subst same
        simp [found]
      · simp [same]
    | some user =>
      have own := inv.ids found
      rw [List.filterMap_cons_some found, List.find?_cons, ih]
      by_cases same : userId = member
      · subst same
        simp [own, found]
      · have different : decide (user.mID = userId) = false := by
          rw [own]
          exact decide_eq_false (Ne.symm same)
        simp [different, same]

theorem onlines_of_room (inv : Inv keeper) (room : Room) (userId : UInt64) :
    (onlinesOf (usersOf keeper room))[userId]? =
      if userId ∈ room.mUsers then keeper.mIdUser[userId]? else none := by
  rw [onlinesOf, insert_each_lookup, usersOf, users_lookup inv]
  simp

/-- What is announced of a room is a message that clients know. -/
theorem announced_fields (inv : Inv keeper) (stored : keeper.mIdRoom[roomId]? = some room)
    (few : room.mUsers.size < 2 ^ 32) :
    ∃ short, announced keeper room = (Message.roomInfo (room.entry few) (usersOf keeper room) short).fields := by
  have online : ∀ userId ∈ room.getAllUsers, (keeper.mIdUser[userId]?).isSome := by
    intro userId inside
    obtain ⟨user, known⟩ := inv.online stored (Room.mem_all_users.mp inside)
    rw [known]
    rfl
  have size : (usersOf keeper room).length = room.mUsers.size := by
    rw [usersOf, List.length_filterMap_eq_countP, List.countP_eq_length.mpr online, Room.all_users_length]
  refine ⟨size ▸ few, ?_⟩
  rw [announced, infoFields, Room.encode_entry room few, Message.fields, size]

/-- The entries of a list of rooms, each with a count that fits. -/
private theorem entries_of_rooms (rooms : List Room) (few : ∀ room ∈ rooms, room.mUsers.size < 2 ^ 32) :
    ∃ entries : List Room.Entry, entries.length = rooms.length ∧
      rooms.flatMap Room.encode = entries.flatMap Room.Entry.fields ∧
      ∀ roomId, (entries.find? fun entry => decide (entry.id = roomId)).map Room.empty.update =
        (rooms.find? fun room => decide (room.mID = roomId)).map fun room => { room with mPassWord := .ascii "" } := by
  induction rooms with
  | nil => exact ⟨[], rfl, rfl, fun _ => rfl⟩
  | cons room rooms ih =>
    obtain ⟨entries, count, fields, found⟩ := ih fun other member => few other (List.mem_cons_of_mem room member)
    have short := few room List.mem_cons_self
    refine ⟨room.entry short :: entries, by simp [count], ?_, fun roomId => ?_⟩
    · rw [List.flatMap_cons, List.flatMap_cons, fields, Room.encode_entry]
    · have own : (room.entry short).id = room.mID := rfl
      rw [List.find?_cons, List.find?_cons, own]
      by_cases same : room.mID = roomId
      · simp only [same, decide_true, Option.map_some, Room.update_entry]
      · simp only [same, decide_false]
        exact found roomId

/-- What is told about all rooms is a message that clients know: each room under
its id, without its password. -/
theorem listed_fields (inv : Inv keeper) (few : keeper.mIdRoom.size < 2 ^ 32)
    (uncrowded : ∀ room ∈ valuesOf keeper.mIdRoom, room.mUsers.size < 2 ^ 32) :
    ∃ entries short, listFields (valuesOf keeper.mIdRoom) = (Message.roomList entries short).fields ∧
      ∀ roomId : UInt32, (roomsOf entries)[roomId]? =
        keeper.mIdRoom[roomId]?.map fun room => { room with mPassWord := .ascii "" } := by
  obtain ⟨entries, size, fields, found⟩ := entries_of_rooms (valuesOf keeper.mIdRoom) uncrowded
  have short : entries.length < 2 ^ 32 := by
    rw [size, length_values_of]
    exact few
  refine ⟨entries, short, ?_, fun roomId => ?_⟩
  · rw [listFields, Message.fields, fields, size]
  · have own : ∀ (roomId : UInt32) (room : Room), keeper.mIdRoom[roomId]? = some room → room.mID = roomId :=
      fun roomId room stored => (inv.own stored).1
    rw [roomsOf, insert_each_lookup, found, find_values_of own, Std.ExtTreeMap.getElem?_empty, Option.none_or]

/-- Of a room of up to `2 ^ 32 - 1` members, a client gets the whole picture. -/
theorem announced_is_shown (inv : Inv keeper) (stored : keeper.mIdRoom[user.mRoomId]? = some room)
    (few : room.mUsers.size < 2 ^ 32) (applied : applyInfo client (announced keeper room) = .ok view) :
    Shows view keeper user room := by
  obtain ⟨short, fields⟩ := announced_fields inv stored few
  have bytes : encode (announced keeper room) =
      encode (Message.roomInfo (room.entry few) (usersOf keeper room) short).fields ++ [] := by
    rw [fields, List.append_nil]
  have shown := apply_info_ok client _ bytes
  cases applied.symm.trans shown
  exact ⟨(inv.own stored).1, rfl, (inv.own stored).1, onlines_of_room inv room⟩

/-- The requests that a run has fewer than `2 ^ 32` of: logons and creations of rooms. -/
def logsOnOrCreates : Request → Bool
  | .logon _ _ _ _ => true
  | .create _ _ => true
  | .join _ _ _ => false
  | .drop _ => false

/-- It takes a logon for each user who is logged on. -/
private theorem users_counted (inv : Inv keeper) (ran : run RoomKeeper.step keeper requests = .ok (next, outcomes)) :
    next.mIdUser.size ≤ keeper.mIdUser.size + requests.countP logsOnOrCreates := by
  induction requests generalizing keeper outcomes with
  | nil =>
    cases ran
    exact Nat.le_add_right _ _
  | cons request requests ih =>
    obtain ⟨between, outcome, rest, taken, later, rfl⟩ := run_cons_ok.mp ran
    obtain ⟨rfl, kept, _⟩ := step_advances inv taken
    have performed := step_performs taken
    have behind := ih kept later
    rw [List.countP_cons]
    cases request with
    | logon name ip port connId =>
      have grown : outcome.keeper.mIdUser.size ≤ keeper.mIdUser.size + 1 := size_le_succ connId fun userId inside => by
        rcases perform_users inv performed inside with ⟨before, _⟩ | ⟨_, _, _, same⟩
        · exact .inl before
        · cases same
          exact .inr rfl
      simp only [logsOnOrCreates, if_true]
      omega
    | _ =>
      have grown : outcome.keeper.mIdUser.size ≤ keeper.mIdUser.size := size_le fun userId inside => by
        rcases perform_users inv performed inside with ⟨before, _⟩ | ⟨_, _, _, same⟩
        · exact before
        · cases same
      omega

/-- Whatever the clients do and in whatever order, with fewer than `2 ^ 32` logons and
creations of rooms in total, a user who is logged on is in a room; and once its client
has taken every message enqueued for it since its logon, the client shows that room as
it is. -/
theorem client_shows_its_room (ran : run RoomKeeper.step RoomKeeper.new requests = .ok (keeper, outcomes))
    (few : requests.countP logsOnOrCreates < 2 ^ 32) (known : keeper.mIdUser[userId]? = some user) :
    ∃ room, keeper.mIdRoom[user.mRoomId]? = some room ∧ ∀ client view : CRClient,
      applyAll client (inbox userId (requests.zip outcomes)) = .ok view → Shows view keeper user room := by
  obtain ⟨inv, upToDate⟩ := run_up_to_date ran
  obtain ⟨room, stored⟩ := inv.housed known
  have members : room.mUsers.size ≤ keeper.mIdUser.size :=
    set_size_le fun userId inside => mem_users.mpr (inv.online stored inside)
  have users := users_counted inv_new ran
  have nobody : RoomKeeper.new.mIdUser.size = 0 := by decide
  refine ⟨room, stored, fun client view applied => ?_⟩
  obtain ⟨earlier, messages⟩ := upToDate userId user room known stored
  rw [messages] at applied
  obtain ⟨between, last⟩ := apply_all_last applied
  exact announced_is_shown inv stored (by omega) last

private def visit : List Request :=
  [.logon (.ascii "ann") (.ascii "10.0.0.1") 4000 1, .logon (.ascii "bob") (.ascii "10.0.0.2") 4001 2,
    .create (.ascii "den") (.ascii "key"), .join (.ascii "den") (.ascii "key") 2]

/-- Ann logs on, and sees Bob come to the hall and go to his own room. -/
theorem ann_sees_the_hall :
    ∃ keeper outcomes user room view, run RoomKeeper.step RoomKeeper.new visit = .ok (keeper, outcomes) ∧
      keeper.mIdUser[(1 : UInt64)]? = some user ∧ keeper.mIdRoom[user.mRoomId]? = some room ∧
      applyAll (.new (.ascii "ann")) (inbox 1 (visit.zip outcomes)) = .ok view ∧ Shows view keeper user room := by
  have taken : ((run RoomKeeper.step RoomKeeper.new visit).toOption.map fun reply =>
      (reply.1.mIdUser[(1 : UInt64)]?.isSome,
        (applyAll (.new (.ascii "ann")) (inbox 1 (visit.zip reply.2))).toOption.isSome)) =
      some (true, true) := by
    decide +kernel
  obtain ⟨⟨keeper, outcomes⟩, ran, both⟩ := Option.map_eq_some_iff.mp taken
  simp only [Prod.mk.injEq, Option.isSome_iff_exists] at both
  obtain ⟨⟨user, known⟩, view, applied⟩ := both
  obtain ⟨room, stored, shows⟩ := client_shows_its_room (ok_of_option ran) (by decide) known
  exact ⟨keeper, outcomes, user, room, view, ok_of_option ran, known, stored, ok_of_option applied,
    shows _ view (ok_of_option applied)⟩

end ChatRoom.ClientView
