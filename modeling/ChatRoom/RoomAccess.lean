import ChatRoom.ClientView
import ChatRoom.WorkerSafety

/-! Who is in a room with a password. Membership is a statement about the whole
history: whoever is in a room other than the hall has asked for it by its name,
with the password that it was created with, since the latest logon, and has gone
nowhere else since. What is said about a room or in it goes only to such users. -/
namespace ChatRoom.RoomAccess
open Lib Wire RoomKeeper RoomKeeperInvariant
open ClientView (logsOn)

variable {keeper : RoomKeeper} {history : List (Request × Outcome)} {entry : Request × Outcome}
  {request : Request} {outcome : Outcome} {userId : UInt64} {roomId : UInt32} {name passwd : StdString}

/-- A request with which this user has moved to another room. -/
def moves (userId : UInt64) : Request × Outcome → Bool
  | (.join _ _ connId, outcome) => connId == userId && outcome.err == 0
  | _ => false

/-- The request that created the room with this id: the counter has just passed
the id. -/
def creates (roomId : UInt32) : Request × Outcome → Bool
  | (.create _ _, outcome) => outcome.err == 0 && outcome.keeper.mRoomId == roomId + 1
  | _ => false

/-- The room was created once, with this name and this password. -/
structure CreatedAs (history : List (Request × Outcome)) (roomId : UInt32) (name passwd : StdString) : Prop where
  once : ∃ entry ∈ history, creates roomId entry = true
  only : ∀ entry ∈ history, creates roomId entry = true → entry.1 = .create name passwd

/-- Since the latest logon the user has joined the room by its name and with its
password, and has not moved again. -/
def Admitted (history : List (Request × Outcome)) (userId : UInt64) (roomId : UInt32) : Prop :=
  ∃ earlier name passwd outcome later, history = earlier ++ (.join name passwd userId, outcome) :: later ∧
    outcome.err = 0 ∧ CreatedAs history roomId name passwd ∧ (∃ entry ∈ earlier, logsOn userId entry = true) ∧
    ∀ entry ∈ later, logsOn userId entry = false ∧ moves userId entry = false

/-! ### One more request -/

theorem created_as_snoc (created : CreatedAs history roomId name passwd) (other : creates roomId entry = false) :
    CreatedAs (history ++ [entry]) roomId name passwd := by
  obtain ⟨⟨first, inside, made⟩, only⟩ := created
  refine ⟨⟨first, List.mem_append_left _ inside, made⟩, fun probe member again => ?_⟩
  rcases List.mem_append.mp member with before | last
  · exact only probe before again
  · rw [List.mem_singleton.mp last, other] at again
    contradiction

theorem admitted_snoc (admitted : Admitted history userId roomId) (other : creates roomId entry = false)
    (absent : logsOn userId entry = false) (still : moves userId entry = false) :
    Admitted (history ++ [entry]) userId roomId := by
  obtain ⟨earlier, name, passwd, outcome, later, rfl, success, created, logon, quiet⟩ := admitted
  refine ⟨earlier, name, passwd, outcome, later ++ [entry], by simp, success, created_as_snoc created other, logon,
    fun probe member => ?_⟩
  rcases List.mem_append.mp member with before | last
  · exact quiet probe before
  · rw [List.mem_singleton.mp last]
    exact ⟨absent, still⟩

theorem refused_is_nothing (keeper : RoomKeeper) (request : Request) (err : Err) (errstr : StdString)
    (userId : UInt64) (roomId : UInt32) :
    logsOn userId (request, keeper.failed err errstr) = false ∧
      moves userId (request, keeper.failed err errstr) = false ∧
      creates roomId (request, keeper.failed err errstr) = false := by
  cases request <;> simp [logsOn, moves, creates, failed]

/-! ### What the state says about the history -/

/-- Rooms are as they were created, and every user is where it was admitted. -/
structure Access (keeper : RoomKeeper) (history : List (Request × Outcome)) : Prop where
  rooms : ∀ {roomId : UInt32} {room : Room}, roomId ≠ 0 → keeper.mIdRoom[roomId]? = some room →
    CreatedAs history roomId room.mName room.mPassWord
  past : ∀ entry ∈ history, ∀ roomId, creates roomId entry = true → roomId < keeper.mRoomId
  online : ∀ {userId : UInt64} {user : User}, keeper.mIdUser[userId]? = some user →
    ∃ entry ∈ history, logsOn userId entry = true
  admitted : ∀ {userId : UInt64} {user : User}, keeper.mIdUser[userId]? = some user → user.mRoomId ≠ 0 →
    Admitted history userId user.mRoomId

/-- A request that creates no room leaves names and passwords as they are. -/
structure SameDoors (keeper next : RoomKeeper) : Prop where
  counter : next.mRoomId = keeper.mRoomId
  rooms : ∀ {roomId : UInt32} {room : Room}, next.mIdRoom[roomId]? = some room →
    ∃ before, keeper.mIdRoom[roomId]? = some before ∧ before.mName = room.mName ∧
      before.mPassWord = room.mPassWord

private theorem same_doors_refl (keeper : RoomKeeper) : SameDoors keeper keeper :=
  ⟨rfl, fun {_ room} stored => ⟨room, stored, rfl, rfl⟩⟩

private theorem same_doors_trans {middle next : RoomKeeper} (first : SameDoors keeper middle)
    (second : SameDoors middle next) : SameDoors keeper next := by
  refine ⟨second.counter.trans first.counter, fun stored => ?_⟩
  obtain ⟨between, held, name, passwd⟩ := second.rooms stored
  obtain ⟨before, found, nameToo, passwdToo⟩ := first.rooms held
  exact ⟨before, found, nameToo.trans name, passwdToo.trans passwd⟩

private theorem same_doors_set {room changed : Room} (stored : keeper.mIdRoom[roomId]? = some room)
    (name : changed.mName = room.mName) (passwd : changed.mPassWord = room.mPassWord) :
    SameDoors keeper (keeper.setRoom roomId changed) := by
  refine ⟨rfl, fun {probe held} found => ?_⟩
  rw [set_room_lookup] at found
  split at found
  next same =>
    subst same
    cases found
    exact ⟨room, stored, name.symm, passwd.symm⟩
  next => exact ⟨held, found, rfl, rfl⟩

/-- The rooms of a history, after a request that creates none. -/
private theorem rooms_kept (entry : Request × Outcome) {next : RoomKeeper} (access : Access keeper history)
    (same : SameDoors keeper next)
    (none : ∀ roomId, creates roomId entry = false) :
    (∀ {roomId : UInt32} {room : Room}, roomId ≠ 0 → next.mIdRoom[roomId]? = some room →
      CreatedAs (history ++ [entry]) roomId room.mName room.mPassWord) ∧
    ∀ probe ∈ history ++ [entry], ∀ roomId, creates roomId probe = true → roomId < next.mRoomId := by
  constructor
  · intro roomId room inner stored
    obtain ⟨before, found, name, passwd⟩ := same.rooms stored
    rw [← name, ← passwd]
    exact created_as_snoc (access.rooms inner found) (none roomId)
  · intro probe member roomId made
    rcases List.mem_append.mp member with before | last
    · rw [same.counter]
      exact access.past probe before roomId made
    · rw [List.mem_singleton.mp last, none] at made
      contradiction

private theorem online_snoc {user : User} (access : Access keeper history) (known : keeper.mIdUser[userId]? = some user) :
    ∃ probe ∈ history ++ [entry], logsOn userId probe = true := by
  obtain ⟨probe, inside, logon⟩ := access.online known
  exact ⟨probe, List.mem_append_left _ inside, logon⟩

private theorem access_refused (access : Access keeper history) (request : Request) (err : Err) (errstr : StdString) :
    Access keeper (history ++ [(request, keeper.failed err errstr)]) := by
  have nothing := refused_is_nothing keeper request err errstr
  obtain ⟨rooms, past⟩ := rooms_kept (request, keeper.failed err errstr) access (same_doors_refl keeper) fun roomId =>
    (nothing 0 roomId).2.2
  refine ⟨rooms, past, online_snoc access, fun {userId user} known inner => ?_⟩
  obtain ⟨absent, still, other⟩ := nothing userId user.mRoomId
  exact admitted_snoc (access.admitted known inner) other absent still

private theorem access_logon {hall : Room} (access : Access keeper history) (user : User)
    (stored : keeper.mIdRoom[(0 : UInt32)]? = some hall) (success : logsOn user.mID entry = true)
    (others : ∀ userId, userId ≠ user.mID → logsOn userId entry = false ∧ moves userId entry = false)
    (none : ∀ roomId, creates roomId entry = false) :
    Access (entered (registered keeper user) user.mID user 0 hall) (history ++ [entry]) := by
  have same : SameDoors keeper (entered (registered keeper user) user.mID user 0 hall) :=
    ⟨rfl, (same_doors_set stored (Room.add_name user.mID) Room.add_passwd).rooms⟩
  have users : ∀ probe found, (entered (registered keeper user) user.mID user 0 hall).mIdUser[probe]? = some found →
      probe = user.mID ∧ found.mRoomId = 0 ∨ probe ≠ user.mID ∧ keeper.mIdUser[probe]? = some found := by
    intro probe found known
    rw [entered_user] at known
    split at known
    next self =>
      cases known
      exact .inl ⟨self.symm, rfl⟩
    next different =>
      rw [registered_other keeper user (Ne.symm different)] at known
      exact .inr ⟨Ne.symm different, known⟩
  obtain ⟨rooms, past⟩ := rooms_kept entry access same none
  refine ⟨rooms, past, fun {userId found} known => ?_, fun {userId found} known inner => ?_⟩
  · rcases users userId found known with ⟨rfl, _⟩ | ⟨_, before⟩
    · exact ⟨entry, List.mem_append_right _ (List.mem_singleton_self entry), success⟩
    · exact online_snoc access before
  · rcases users userId found known with ⟨_, home⟩ | ⟨different, before⟩
    · exact absurd home inner
    · obtain ⟨absent, still⟩ := others userId different
      exact admitted_snoc (access.admitted before inner) (none found.mRoomId) absent still

/-- The id of a new room is not the id of any room before. -/
private theorem access_created (inv : Inv keeper) (numbered : Numbered keeper count) (access : Access keeper history)
    (grows : keeper.mRoomId < keeper.mRoomId + 1) (success : outcome.err = 0)
    (next : outcome.keeper = created keeper name passwd) :
    Access (created keeper name passwd) (history ++ [(.create name passwd, outcome)]) := by
  have makes : ∀ roomId, creates roomId (.create name passwd, outcome) = true ↔ roomId = keeper.mRoomId := by
    intro roomId
    simp only [creates, success, next, created, beq_self_eq_true, Bool.true_and, beq_iff_eq, UInt32.add_left_inj]
    exact eq_comm
  have others : ∀ {roomId : UInt32} {room : Room}, keeper.mIdRoom[roomId]? = some room →
      creates roomId (.create name passwd, outcome) = false := by
    intro roomId room stored
    rw [Bool.eq_false_iff, Ne, makes]
    rintro rfl
    have inside : keeper.mRoomId ∈ keeper.mIdRoom := Std.ExtTreeMap.mem_iff_isSome_getElem?.mpr (by rw [stored]; rfl)
    exact absurd (numbered.below inside) (UInt32.lt_irrefl _)
  refine ⟨fun {roomId room} inner stored => ?_, fun probe member roomId again => ?_, fun known => online_snoc access known,
    fun {userId user} known inner => ?_⟩
  · rw [created_room] at stored
    split at stored
    next fresh =>
      cases stored
      refine ⟨⟨_, List.mem_append_right _ (List.mem_singleton_self _), (makes roomId).mpr fresh.1.symm⟩,
        fun probe member again => ?_⟩
      rcases List.mem_append.mp member with before | last
      · have past := access.past probe before roomId again
        rw [← fresh.1] at past
        exact absurd past (UInt32.lt_irrefl _)
      · rw [List.mem_singleton.mp last]
        rfl
    next => exact created_as_snoc (access.rooms inner stored) (others stored)
  · rcases List.mem_append.mp member with before | last
    · exact UInt32.lt_trans (access.past probe before roomId again) grows
    · rw [List.mem_singleton.mp last, makes] at again
      rw [again]
      exact grows
  · obtain ⟨room, stored⟩ := inv.housed known
    exact admitted_snoc (access.admitted known inner) (others stored) rfl rfl

private theorem access_moved {user : User} {oldRoom room : Room} (numbered : Numbered keeper count)
    (access : Access keeper history) (known : keeper.mIdUser[user.mID]? = some user)
    (old : keeper.mIdRoom[user.mRoomId]? = some oldRoom) (named : keeper.mRoomNames[name]? = some roomId)
    (stored : keeper.mIdRoom[roomId]? = some room) (word : room.mPassWord = passwd) (other : roomId ≠ user.mRoomId)
    (success : outcome.err = 0) :
    Access (moved keeper user oldRoom roomId room) (history ++ [(.join name passwd user.mID, outcome)]) := by
  have still : (entered keeper user.mID user roomId room).mIdRoom[user.mRoomId]? = some oldRoom := by
    rw [entered_room, if_neg other, old]
  have enters : SameDoors keeper (entered keeper user.mID user roomId room) :=
    ⟨rfl, (same_doors_set stored (Room.add_name user.mID) Room.add_passwd).rooms⟩
  have same : SameDoors keeper (moved keeper user oldRoom roomId room) :=
    same_doors_trans enters (same_doors_set still (Room.leave_name user.mID) Room.leave_passwd)
  have users : ∀ probe, (moved keeper user oldRoom roomId room).mIdUser[probe]? =
      if user.mID = probe then some (user.setRoomId roomId) else keeper.mIdUser[probe]? :=
    entered_user keeper user.mID user roomId room
  obtain ⟨rooms, past⟩ := rooms_kept (.join name passwd user.mID, outcome) access same fun _ => rfl
  refine ⟨rooms, past, fun {userId found} present => ?_, fun {userId found} present inner => ?_⟩
  · rw [users] at present
    split at present
    next self =>
      subst self
      exact online_snoc access known
    next => exact online_snoc access present
  · rw [users] at present
    split at present
    next self =>
      -- the mover: this request is the one
      subst self
      cases present
      have created : CreatedAs history roomId room.mName room.mPassWord := access.rooms inner stored
      rw [numbered.named named stored, word] at created
      exact ⟨history, name, passwd, outcome, [], rfl, success, created_as_snoc created rfl, access.online known,
        fun _ inside => by cases inside⟩
    next different =>
      apply admitted_snoc (access.admitted present inner) rfl rfl
      simp [moves, different]

private theorem access_dropped {user : User} {room : Room} (access : Access keeper history)
    (stored : keeper.mIdRoom[user.mRoomId]? = some room) (outcome : Outcome) :
    Access (dropped keeper user room) (history ++ [(.drop user.mID, outcome)]) := by
  have same : SameDoors keeper (dropped keeper user room) :=
    ⟨rfl, (same_doors_set stored (Room.leave_name user.mID) Room.leave_passwd).rooms⟩
  have users : ∀ {probe : UInt64} {found : User}, (dropped keeper user room).mIdUser[probe]? = some found →
      keeper.mIdUser[probe]? = some found := by
    intro probe found known
    rw [dropped_user] at known
    split at known
    · cases known
    · exact known
  obtain ⟨rooms, past⟩ := rooms_kept (.drop user.mID, outcome) access same fun _ => rfl
  exact ⟨rooms, past, fun known => online_snoc access (users known),
    fun known inner => admitted_snoc (access.admitted (users known) inner) rfl rfl rfl⟩

/-! ### Who is told -/

/-- Everything that is sent is said about a room to one of its members. -/
theorem sent_to_members (inv : Inv keeper) (performed : keeper.perform request = .ok outcome) :
    ∀ message ∈ outcome.sent, ∃ (roomId : UInt32) (room : Room), outcome.keeper.mIdRoom[roomId]? = some room ∧
      message.connId ∈ room.mUsers ∧ message.fields = announced outcome.keeper room := by
  have announces : ∀ {keeper : RoomKeeper} {room : Room}, ∀ message ∈ announce keeper room,
      message.connId ∈ room.mUsers ∧ message.fields = announced keeper room := by
    intro keeper room message member
    obtain ⟨userId, inside, rfl⟩ := List.mem_map.mp member
    exact ⟨Room.mem_all_users.mp inside, rfl⟩
  intro message member
  cases request with
  | logon name ip port userId =>
    rcases logon_cases inv name ip port userId with
      ⟨err, errstr, refused⟩ | ⟨hall, _, _, stored, accepted⟩
    · cases performed.symm.trans refused
      cases member
    · cases performed.symm.trans accepted
      exact ⟨0, hall.add userId, by rw [succeeded, entered_room, if_pos rfl], announces message member⟩
  | create name passwd =>
    cases performed
    rcases create_cases keeper name passwd with ⟨err, errstr, refused⟩ | ⟨_, accepted⟩
    · rw [refused] at member
      cases member
    · rw [accepted] at member
      cases member
  | join roomName passwd userId =>
    rcases join_cases inv roomName passwd userId with
      ⟨err, errstr, refused⟩ | ⟨user, oldRoom, roomId, room, known, old, stored, other, _, accepted⟩
    · cases performed.symm.trans refused
      cases member
    · cases performed.symm.trans accepted
      obtain rfl := inv.ids known
      rcases List.mem_append.mp member with entering | leaving
      · refine ⟨roomId, room.add user.mID, ?_, announces message entering⟩
        rw [succeeded, moved, left_room, if_neg (Ne.symm other), entered_room, if_pos rfl]
      · refine ⟨user.mRoomId, oldRoom.handleUserLeave user.mID, ?_, announces message leaving⟩
        rw [succeeded, moved, left_room, if_pos rfl]
  | drop userId =>
    rcases drop_cases inv userId with ⟨_, nothing⟩ | ⟨user, room, known, stored, done⟩
    · cases performed.symm.trans nothing
      cases member
    · cases performed.symm.trans done
      obtain rfl := inv.ids known
      refine ⟨user.mRoomId, room.handleUserLeave user.mID, ?_, announces message member⟩
      exact (left_room keeper user.mID user.mRoomId room user.mRoomId).trans (if_pos rfl)

/-- The members of a room are users. -/
private theorem member_online {room : Room} (inv : Inv keeper) (stored : keeper.mIdRoom[roomId]? = some room)
    (inside : userId ∈ room.mUsers) : userId ∈ keeper.mIdUser := by
  obtain ⟨user, known, _⟩ := (inv.member stored).mp inside
  exact mem_users.mpr ⟨user, known⟩

private theorem sent_to_users (inv : Inv keeper) (performed : keeper.perform request = .ok outcome) :
    ∀ message ∈ outcome.sent, message.connId ∈ outcome.keeper.mIdUser := by
  intro message inside
  obtain ⟨_, again, kept⟩ := WorkerSafety.perform_ok inv request
  cases again.symm.trans performed
  obtain ⟨roomId, room, stored, member, _⟩ := sent_to_members inv performed message inside
  exact member_online kept stored member

private theorem list_to_users (inv : Inv keeper) (connId : UInt64) :
    ∀ message ∈ keeper.publishRoomList connId, message.connId = connId ∧ connId ≠ 0 ∨ message.connId ∈ keeper.mIdUser := by
  intro message inside
  unfold publishRoomList at inside
  split at inside
  next one =>
    rw [List.mem_singleton.mp inside]
    exact .inl ⟨rfl, one⟩
  next =>
    obtain ⟨user, stored, rfl⟩ := List.mem_map.mp inside
    obtain ⟨userId, known⟩ := mem_values_of.mp stored
    rw [inv.ids known]
    exact .inr (mem_users.mpr ⟨user, known⟩)

/-- Everything that is sent goes to the one who asked, or to a user. -/
theorem serve_addressees {ip : StdString} {port : UInt16} {connId : UInt64} {next : RoomKeeper} {sent : List Sent}
    (inv : Inv keeper) (request : Worker.Request) (served : Worker.serve ip port connId request keeper = .ok (next, sent)) :
    ∀ message ∈ sent, message.connId = connId ∨ message.connId ∈ next.mIdUser := by
  have kept := WorkerSafety.serve_keeps inv request served
  intro message inside
  cases request with
  | logon name =>
    obtain ⟨outcome, logged, rest⟩ := bind_ok.mp served
    obtain ⟨_, _, same⟩ := bind_ok.mp rest
    cases same
    have performed : keeper.perform (.logon name ip port connId) = .ok outcome := logged
    rcases List.mem_append.mp inside with told | replied
    · exact .inr (sent_to_users inv performed message told)
    · rcases List.mem_cons.mp replied with rfl | listed
      · exact .inl rfl
      · exact (list_to_users kept connId message listed).imp_left And.left
  | chat roomId input =>
    obtain ⟨published, done, same⟩ := bind_ok.mp served
    cases same
    obtain ⟨user, room, _, stored, rfl⟩ := WorkerSafety.published_to_members inv done
    obtain ⟨member, listed, rfl⟩ := List.mem_map.mp inside
    exact .inr (member_online inv stored (Room.mem_all_users.mp listed))
  | createRoom roomName passwd =>
    cases served
    rcases List.mem_append.mp inside with told | replied
    · have performed : keeper.perform (.create roomName passwd) = .ok (keeper.createRoom roomName passwd) := rfl
      exact .inr (sent_to_users inv performed message told)
    · rcases List.mem_cons.mp replied with rfl | listed
      · exact .inl rfl
      · -- connection 0 stands for everybody
        exact .inr ((list_to_users kept 0 message listed).resolve_left fun one => one.2 rfl)
  | joinRoom roomName passwd =>
    obtain ⟨outcome, joined, same⟩ := bind_ok.mp served
    cases same
    have performed : keeper.perform (.join roomName passwd connId) = .ok outcome := joined
    rcases List.mem_append.mp inside with told | replied
    · exact .inr (sent_to_users inv performed message told)
    · rw [List.mem_singleton.mp replied]
      exact .inl rfl
  | whisper toName words =>
    obtain ⟨fromUser, _, rest⟩ := bind_ok.mp served
    cases found : keeper.getUserByName toName with
    | none =>
      rw [found] at rest
      cases rest
      rw [List.mem_singleton.mp inside]
      exact .inl rfl
    | some toUser =>
      rw [found] at rest
      cases rest
      rw [List.mem_singleton.mp inside]
      unfold getUserByName at found
      split at found
      · contradiction
      · rw [inv.ids found]
        exact .inr (mem_users.mpr ⟨toUser, found⟩)
  | other code unknown =>
    cases served
    contradiction

theorem drop_addressees {connId : UInt64} {next : RoomKeeper} {sent : List Sent} (inv : Inv keeper)
    (dropped : Worker.drop keeper connId = .ok (next, sent)) : ∀ message ∈ sent, message.connId ∈ next.mIdUser := by
  obtain ⟨outcome, done, same⟩ := bind_ok.mp dropped
  cases same
  have performed : keeper.perform (.drop connId) = .ok outcome := done
  exact sent_to_users inv performed

/-! ### Steps and runs -/

/-- A message about a room says which room it is about. -/
private theorem info_fields_id {first second : Room} {some others : List User}
    (same : infoFields first some = infoFields second others) : first.mID = second.mID := by
  simp only [infoFields, Room.encode, List.cons_append, List.cons.injEq] at same
  simpa using same.2.1

private theorem member_admitted {room : Room} (inv : Inv keeper) (access : Access keeper history) (inner : roomId ≠ 0)
    (stored : keeper.mIdRoom[roomId]? = some room) (inside : userId ∈ room.mUsers) : Admitted history userId roomId := by
  obtain ⟨user, known, rfl⟩ := (inv.member stored).mp inside
  exact access.admitted known inner

private theorem access_new : Access RoomKeeper.new [] := by
  refine ⟨fun {roomId room} inner stored => ?_, fun entry member => ?_, fun {userId user} known => ?_,
    fun {userId user} known => ?_⟩
  · rw [new_rooms, if_neg (Ne.symm inner)] at stored
    cases stored
  · cases member
  · rw [new_has_no_users] at known
    cases known
  · rw [new_has_no_users] at known
    cases known

theorem perform_access (inv : Inv keeper) (counted : Counted keeper) (access : Access keeper history)
    (performed : keeper.perform request = .ok outcome) (few : outcome.keeper.mIdRoom.size < 2 ^ 32) :
    Access outcome.keeper (history ++ [(request, outcome)]) := by
  obtain ⟨same, again, advances⟩ := perform_advances inv request
  cases performed.symm.trans again
  obtain ⟨countedNext, grown⟩ := advances_counted inv counted advances
  have numbered := counted (Nat.lt_of_le_of_lt grown few)
  cases request with
  | logon name ip port connId =>
    rcases logon_cases inv name ip port connId with ⟨err, errstr, refused⟩ | ⟨hall, _, _, stored, accepted⟩
    · cases performed.symm.trans refused
      exact access_refused access _ err errstr
    · cases performed.symm.trans accepted
      refine access_logon access (.new name ip port connId) stored ?_ ?_ fun _ => rfl
      · simp [logsOn, succeeded, User.new]
      · intro userId different
        have other : ¬ connId = userId := Ne.symm different
        exact ⟨by simp [logsOn, other], rfl⟩
  | create name passwd =>
    cases performed
    rcases create_cases keeper name passwd with ⟨err, errstr, refused⟩ | ⟨free, accepted⟩
    · rw [refused]
      exact access_refused access _ err errstr
    · rw [accepted] at grown few countedNext ⊢
      have now := (countedNext few).counter
      have was := numbered.counter
      have grows : keeper.mRoomId < keeper.mRoomId + 1 := by
        simp only [succeeded, created, UInt32.toNat_add, UInt32.toNat_one] at now grown
        rw [UInt32.lt_iff_toNat_lt, UInt32.toNat_add, UInt32.toNat_one]
        omega
      exact access_created inv numbered access grows rfl rfl
  | join roomName passwd connId =>
    rcases join_cases_named inv roomName passwd connId with
      ⟨err, errstr, _, refused⟩ | ⟨user, oldRoom, roomId, room, known, old, named, stored, word, other, _, accepted⟩
    · cases performed.symm.trans refused
      exact access_refused access _ err errstr
    · cases performed.symm.trans accepted
      obtain rfl := inv.ids known
      exact access_moved numbered access known old named stored word other rfl
  | drop connId =>
    rcases drop_cases inv connId with ⟨absent, nothing⟩ | ⟨user, room, known, stored, done⟩
    · cases performed.symm.trans nothing
      obtain ⟨rooms, past⟩ := rooms_kept (.drop connId, keeper.succeeded []) access (same_doors_refl keeper) fun _ => rfl
      exact ⟨rooms, past, online_snoc access, fun known inner => admitted_snoc (access.admitted known inner) rfl rfl rfl⟩
    · cases performed.symm.trans done
      obtain rfl := inv.ids known
      exact access_dropped access stored _

/-- Whatever was sent about a room other than the hall went to users who had
been admitted to it when it was sent. -/
def SentToAdmitted (history : List (Request × Outcome)) : Prop :=
  ∀ earlier entry later, history = earlier ++ entry :: later → ∀ message ∈ entry.2.sent,
    ∀ room users, message.fields = infoFields room users → room.mID ≠ 0 →
      Admitted (earlier ++ [entry]) message.connId room.mID

private theorem sent_to_admitted_snoc (before : SentToAdmitted history) (inv : Inv keeper)
    (performed : keeper.perform request = .ok outcome) (kept : Inv outcome.keeper)
    (access : Access outcome.keeper (history ++ [(request, outcome)])) :
    SentToAdmitted (history ++ [(request, outcome)]) := by
  intro earlier entry later split message member room users fields inner
  rcases List.eq_nil_or_concat later with rfl | ⟨middle, last, rfl⟩
  · obtain ⟨rfl, same⟩ := List.append_inj' split rfl
    cases same
    obtain ⟨roomId, held, stored, inside, said⟩ := sent_to_members inv performed message member
    have id : room.mID = roomId := (info_fields_id (fields.symm.trans said)).trans (kept.own stored).1
    subst id
    exact member_admitted kept access inner stored inside
  · rw [List.concat_eq_append, ← List.cons_append, ← List.append_assoc] at split
    exact before earlier entry middle (List.append_inj' split rfl).1 message member room users fields inner

/-- Who is in a room, and who is told about it or hears what is said in it, has
been admitted with its password. -/
theorem rooms_are_guarded (ran : run RoomKeeper.step RoomKeeper.new requests = .ok (keeper, outcomes))
    (few : keeper.mIdRoom.size < 2 ^ 32) :
    (∀ (roomId : UInt32) (room : Room) (userId : UInt64), roomId ≠ 0 → keeper.mIdRoom[roomId]? = some room →
      userId ∈ room.mUsers → Admitted (requests.zip outcomes) userId roomId) ∧
    SentToAdmitted (requests.zip outcomes) ∧
    ∀ (roomId : UInt32) (userId : UInt64) (input : StdString) (sent : List Sent), roomId ≠ 0 →
      keeper.publishRoomMessage roomId userId input = .ok sent →
      ∀ message ∈ sent, Admitted (requests.zip outcomes) message.connId roomId := by
  have history := run_history_always
    (fun keeper history => Inv keeper ∧ Counted keeper ∧
      (keeper.mIdRoom.size < 2 ^ 32 → Access keeper history ∧ SentToAdmitted history)) (by
      rintro keeper history request next outcome ⟨inv, counted, guarded⟩ taken
      obtain ⟨rfl, advances⟩ := step_advances inv taken
      have performed := step_performs taken
      obtain ⟨countedNext, grown⟩ := advances_counted inv counted advances
      refine ⟨advances.1, countedNext, fun few => ?_⟩
      obtain ⟨access, told⟩ := guarded (Nat.lt_of_le_of_lt grown few)
      have accessNext := perform_access inv counted access performed few
      exact ⟨accessNext, sent_to_admitted_snoc told inv performed advances.1 accessNext⟩)
    ⟨inv_new, counted_new, fun _ => ⟨access_new, fun earlier entry later split => by simp at split⟩⟩ ran
  obtain ⟨inv, _, guarded⟩ := history
  obtain ⟨access, told⟩ := guarded few
  refine ⟨fun roomId room userId inner stored inside => member_admitted inv access inner stored inside, told, ?_⟩
  intro roomId userId input sent inner published message member
  obtain ⟨user, room, known, stored, listed⟩ := WorkerSafety.published_to_members inv published
  rw [listed] at member
  obtain ⟨connId, inside, rfl⟩ := List.mem_map.mp member
  exact member_admitted inv access inner stored (Room.mem_all_users.mp inside)

/-- Bob makes a room, is let in with its password, and hears what is said there. -/
private def guardedVisit : List Request :=
  [.logon (.ascii "bob") (.ascii "10.0.0.2") 4001 2, .create (.ascii "den") (.ascii "key"),
    .join (.ascii "den") (.ascii "key") 2]

theorem bob_is_in_his_room :
    ∃ keeper outcomes room, run RoomKeeper.step RoomKeeper.new guardedVisit = .ok (keeper, outcomes) ∧
      keeper.mIdRoom[(1 : UInt32)]? = some room ∧ 2 ∈ room.mUsers ∧ Admitted (guardedVisit.zip outcomes) 2 1 := by
  have taken : ((run RoomKeeper.step RoomKeeper.new guardedVisit).toOption.map fun reply =>
      (reply.1.mIdRoom[(1 : UInt32)]?.map Room.getAllUsers, reply.1.mIdRoom.size)) = some (some [2], 2) := by
    decide
  cases ran : run RoomKeeper.step RoomKeeper.new guardedVisit with
  | error fault =>
    rw [ran] at taken
    cases taken
  | ok reply =>
    obtain ⟨keeper, outcomes⟩ := reply
    rw [ran] at taken
    simp only [Except.toOption, Option.map_some, Option.some.injEq, Prod.mk.injEq, Option.map_eq_some_iff] at taken
    obtain ⟨⟨room, stored, members⟩, few⟩ := taken
    have inside : 2 ∈ room.mUsers := Room.mem_all_users.mp (by rw [members]; decide)
    have guarded := rooms_are_guarded ran (by rw [few]; decide)
    exact ⟨keeper, outcomes, room, rfl, stored, inside, guarded.1 1 room 2 (by decide) stored inside⟩

end ChatRoom.RoomAccess
