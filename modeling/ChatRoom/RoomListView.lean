import ChatRoom.RoomAccess
import ChatRoom.RoomCounts

/-! A client's list of rooms against the server's. A list is sent to a user who
asks to log on, and to everybody when a room is asked for; in between the rooms
and their names stay as they are. So the last list that a user was sent names
the rooms that there are. What the server could write into a list can be counted, and
so the client reads what was meant. -/
namespace ChatRoom.RoomListView
open Lib Wire RoomKeeper RoomKeeperInvariant ClientReading
open ClientView (applyInfo apply_info_ok applyAll listed_fields)
open PagedRefinement (Bears Written take_bears asked_fits)
open RoomCounts (Holds rooms_stay take_holds written_list_counts holds_new)

variable {host : Host} {keeper next : RoomKeeper} {userId connId : UInt64} {sent : List Sent}

def isRoomList (fields : List Field) : Bool := fields.head? == some MsgType.s2cRoomList.field

/-- A reply that lets this user in. -/
def isWelcome (userId : UInt64) (message : Sent) : Bool :=
  message.connId == userId && message.fields.take 2 == [MsgType.s2cLogonRes.field, .int 0]

/-- The lists among the messages for a user. -/
def listsIn (userId : UInt64) (sent : List Sent) : List (List Field) := (sentTo userId sent).filter isRoomList

/-- The `s2c_room_list` messages enqueued for a user since its latest logon, the
one that the logon itself sends included. -/
def lists (userId : UInt64) (outputs : List (List Sent)) : List (List Field) :=
  outputs.foldl (fun messages sent => (if sent.any (isWelcome userId) then [] else messages) ++ listsIn userId sent) []

theorem lists_snoc (outputs : List (List Sent)) (sent : List Sent) :
    lists userId (outputs ++ [sent]) =
      (if sent.any (isWelcome userId) then [] else lists userId outputs) ++ listsIn userId sent := by
  simp [lists]

/-! ### What one event tells -/

/-- Neither a list nor a welcome for this user. -/
def Quiet (userId : UInt64) (sent : List Sent) : Prop := listsIn userId sent = [] ∧ sent.any (isWelcome userId) = false

theorem quiet_of_types (types : ∀ message ∈ sent, message.connId = userId →
      message.fields.head? ≠ some MsgType.s2cRoomList.field ∧ message.fields.head? ≠ some MsgType.s2cLogonRes.field) :
    Quiet userId sent := by
  constructor
  · apply List.filter_eq_nil_iff.mpr
    intro fields inside
    obtain ⟨message, member, rfl⟩ := List.mem_map.mp inside
    obtain ⟨inside, addressed⟩ := List.mem_filter.mp member
    simpa [isRoomList] using (types message inside (beq_iff_eq.mp addressed)).1
  · apply List.any_eq_false.mpr
    intro message inside welcome
    simp only [isWelcome, Bool.and_eq_true, beq_iff_eq] at welcome
    apply (types message inside welcome.1).2
    have first := congrArg List.head? welcome.2
    simpa [List.head?_take] using first

/-- What an event tells a user about the rooms: how they are now, or nothing
when they are as before. -/
def Told (keeper next : RoomKeeper) (userId : UInt64) (sent : List Sent) : Prop :=
  (∃ earlier, listsIn userId sent = earlier ++ [listFields (valuesOf next.mIdRoom)]) ∨
    Quiet userId sent ∧ userId ∈ keeper.mIdUser ∧ SameRooms keeper next

private theorem no_lists_in (none : ∀ message ∈ sent, isRoomList message.fields = false) : listsIn userId sent = [] := by
  apply List.filter_eq_nil_iff.mpr
  intro fields inside
  obtain ⟨message, member, rfl⟩ := List.mem_map.mp inside
  rw [none message (List.mem_filter.mp member).1]
  exact Bool.false_ne_true

/-- Messages that are no lists, in front of a list. -/
private theorem lists_behind {before list : List Sent} (none : ∀ message ∈ before, isRoomList message.fields = false) :
    listsIn userId (before ++ list) = listsIn userId list := by
  rw [listsIn, sent_to_append, List.filter_append, ← listsIn, ← listsIn, no_lists_in none, List.nil_append]

/-- A list, with messages in front that are no lists. -/
private theorem told_list {before : List Sent} (none : ∀ message ∈ before, isRoomList message.fields = false)
    (inside : userId ∈ next.mIdUser)
    (own : ∀ {userId : UInt64} {user : User}, next.mIdUser[userId]? = some user → user.mID = userId)
    (addressed : connId = userId ∨ connId = 0) :
    ∃ earlier, listsIn userId (before ++ next.publishRoomList connId) = earlier ++ [listFields (valuesOf next.mIdRoom)] := by
  have all : ∀ fields ∈ listsIn userId (next.publishRoomList connId), fields = listFields (valuesOf next.mIdRoom) := by
    intro fields member
    obtain ⟨message, sent, rfl⟩ := List.mem_map.mp (List.mem_filter.mp member).1
    have inside := (List.mem_filter.mp sent).1
    unfold publishRoomList at inside
    split at inside
    · rw [List.mem_singleton.mp inside]
    · obtain ⟨user, _, rfl⟩ := List.mem_map.mp inside
      rfl
  have one : listFields (valuesOf next.mIdRoom) ∈ listsIn userId (next.publishRoomList connId) := by
    refine List.mem_filter.mpr ⟨List.mem_map.mpr ⟨⟨userId, listFields (valuesOf next.mIdRoom)⟩,
      List.mem_filter.mpr ⟨?_, beq_self_eq_true _⟩, rfl⟩, by simp [isRoomList, listFields]⟩
    unfold publishRoomList
    split
    next given =>
      rw [addressed.resolve_right given]
      exact List.mem_singleton_self _
    next =>
      obtain ⟨user, known⟩ := mem_users.mp inside
      exact List.mem_map.mpr ⟨user, mem_values_of.mpr ⟨userId, known⟩, by rw [own known]⟩
  rw [lists_behind none]
  rcases List.eq_nil_or_concat (listsIn userId (next.publishRoomList connId)) with empty | ⟨earlier, last, snoc⟩
  · rw [empty] at one
    cases one
  · rw [List.concat_eq_append] at snoc
    have same := all last (by rw [snoc]; simp)
    exact ⟨earlier, by rw [snoc, same]⟩

/-- What the operations of the keeper send is about one room. -/
private theorem no_lists_sent (inv : Inv keeper) (performed : keeper.perform request = .ok outcome) :
    ∀ message ∈ outcome.sent, message.fields.head? = some MsgType.s2cRoomInfo.field := by
  intro message member
  obtain ⟨_, _, _, _, said⟩ := RoomAccess.sent_to_members inv performed message member
  rw [said]
  rfl

private theorem told_nothing (types : ∀ message ∈ sent, message.connId = userId →
      message.fields.head? ≠ some MsgType.s2cRoomList.field ∧ message.fields.head? ≠ some MsgType.s2cLogonRes.field)
    (before : userId ∈ keeper.mIdUser) (rooms : SameRooms keeper next) : Told keeper next userId sent :=
  .inr ⟨quiet_of_types types, before, rooms⟩

private theorem info_is_neither {message : Sent} (info : message.fields.head? = some MsgType.s2cRoomInfo.field) :
    message.fields.head? ≠ some MsgType.s2cRoomList.field ∧ message.fields.head? ≠ some MsgType.s2cLogonRes.field := by
  rw [info]
  decide

private theorem told_logon (inv : Inv keeper)
    (served : Worker.serve ip port connId (.logon name) keeper = .ok (next, sent)) (kept : Inv next)
    (inside : userId ∈ next.mIdUser) : Told keeper next userId sent := by
  have users := WorkerSafety.serve_users inv _ served inside
  obtain ⟨outcome, logged, rest⟩ := bind_ok.mp served
  obtain ⟨user, _, same⟩ := bind_ok.mp rest
  cases same
  have performed : keeper.perform (.logon name ip port connId) = .ok outcome := logged
  have infos := no_lists_sent inv performed
  by_cases addressed : connId = userId ∨ connId = 0
  · left
    rw [List.append_cons]
    refine told_list ?_ inside kept.ids addressed
    intro message member
    rcases List.mem_append.mp member with info | reply
    · simp [isRoomList, infos message info, MsgType.field, MsgType.code]
    · rw [List.mem_singleton.mp reply]
      simp [isRoomList, Worker.logonRes, MsgType.field, MsgType.code]
  · obtain ⟨other, some⟩ := not_or.mp addressed
    refine told_nothing ?_ (users.resolve_right fun self => other self.1.symm) (rooms_stay inv performed rfl)
    intro message member mine
    rcases List.mem_append.mp member with info | later
    · exact info_is_neither (infos message info)
    · rcases List.mem_cons.mp later with rfl | list
      · exact absurd mine other
      · rw [publishRoomList, if_pos some] at list
        rw [List.mem_singleton.mp list] at mine
        exact absurd mine other

private theorem told_create (inv : Inv keeper)
    (served : Worker.serve ip port connId (.createRoom roomName passwd) keeper = .ok (next, sent)) (kept : Inv next)
    (inside : userId ∈ next.mIdUser) : Told keeper next userId sent := by
  cases served
  have performed : keeper.perform (.create roomName passwd) = .ok (keeper.createRoom roomName passwd) := rfl
  have infos := no_lists_sent inv performed
  left
  rw [List.append_cons]
  refine told_list ?_ inside kept.ids (.inr rfl)
  intro message member
  rcases List.mem_append.mp member with info | reply
  · simp [isRoomList, infos message info, MsgType.field, MsgType.code]
  · rw [List.mem_singleton.mp reply]
    simp [isRoomList, Worker.createRoomRes, MsgType.field, MsgType.code]

/-- Whatever happens, a user who is logged on behind it has been told the rooms
as they are, or they have not changed. -/
theorem step_told (inv : Inv keeper) (taken : Worker.step keeper event = .ok (next, sent))
    (inside : userId ∈ next.mIdUser) : Told keeper next userId sent := by
  have kept := WorkerSafety.step_keeps inv event taken
  cases event with
  | recv delivery request encoded =>
    rw [Worker.step, Worker.receive_request keeper delivery request encoded] at taken
    have users := WorkerSafety.serve_users inv request taken inside
    cases request with
    | logon name => exact told_logon inv taken kept inside
    | createRoom roomName passwd => exact told_create inv taken kept inside
    | chat roomId input =>
      have before := users.resolve_right (by simp)
      obtain ⟨messages, published, same⟩ := bind_ok.mp taken
      cases same
      obtain ⟨user, room, _, _, listed⟩ := WorkerSafety.published_to_members inv published
      refine told_nothing (fun message member _ => ?_) before (same_rooms_refl keeper)
      rw [listed] at member
      obtain ⟨_, _, rfl⟩ := List.mem_map.mp member
      simp [chatFields, MsgType.field, MsgType.code]
    | joinRoom roomName passwd =>
      have before := users.resolve_right (by simp)
      obtain ⟨outcome, joined, same⟩ := bind_ok.mp taken
      cases same
      have performed : keeper.perform (.join roomName passwd delivery.connId) = .ok outcome := joined
      refine told_nothing (fun message member _ => ?_) before (rooms_stay inv performed rfl)
      rcases List.mem_append.mp member with info | reply
      · exact info_is_neither (no_lists_sent inv performed message info)
      · rw [List.mem_singleton.mp reply]
        simp [Worker.joinRoomRes, MsgType.field, MsgType.code]
    | whisper toName words =>
      have before := users.resolve_right (by simp)
      obtain rfl := WorkerSafety.serve_whisper_same taken
      refine told_nothing (fun message member _ => ?_) before (same_rooms_refl next)
      obtain ⟨user, _, answered⟩ := bind_ok.mp taken
      split at answered
      · cases answered
        rw [List.mem_singleton.mp member]
        simp [MsgType.field, MsgType.code]
      · cases answered
        rw [List.mem_singleton.mp member]
        simp [Worker.whisperMsg, MsgType.field, MsgType.code]
    | other code unknown =>
      have before := users.resolve_right (by simp)
      cases taken
      exact told_nothing (fun message member _ => by cases member) before (same_rooms_refl keeper)
  | drop connId =>
    obtain ⟨_, before⟩ := WorkerSafety.drop_users inv taken inside
    obtain ⟨outcome, dropped, same⟩ := bind_ok.mp taken
    cases same
    have performed : keeper.perform (.drop connId) = .ok outcome := dropped
    exact told_nothing (fun message member _ => info_is_neither (no_lists_sent inv performed message member)) before
      (rooms_stay inv performed rfl)

/-! ### The client -/

/-- No room has more members than its 32-bit count can say. -/
def Uncrowded (keeper : RoomKeeper) : Prop :=
  ∀ (roomId : UInt32) (room : Room), keeper.mIdRoom[roomId]? = some room → room.mUsers.size < 2 ^ 32

/-- Of rooms that are not crowded, a client takes every id and every name. -/
theorem list_is_shown (inv : Inv keeper) (few : keeper.mIdRoom.size < 2 ^ 32) (uncrowded : Uncrowded keeper)
    (applied : applyInfo client (listFields (valuesOf keeper.mIdRoom)) = .ok view) (roomId : UInt32) :
    (view.mRooms[roomId]?).map Room.mName = (keeper.mIdRoom[roomId]?).map Room.mName := by
  obtain ⟨entries, short, message, found⟩ := listed_fields inv few fun room member => by
    obtain ⟨key, stored⟩ := mem_values_of.mp member
    exact uncrowded key room stored
  have bytes : encode (listFields (valuesOf keeper.mIdRoom)) =
      encode (Message.roomList entries short).fields ++ [] := by
    rw [message, List.append_nil]
  have shown := apply_info_ok client _ bytes
  cases applied.symm.trans shown
  change ((roomsOf entries)[roomId]?).map Room.mName = _
  rw [found, Option.map_map]
  rfl

/-! ### Runs -/

/-- Every user has been told the rooms as they were at some time since which
they have not changed. -/
def Listed (keeper : RoomKeeper) (outputs : List (List Sent)) : Prop :=
  ∀ userId : UInt64, userId ∈ keeper.mIdUser → ∃ earlier told,
    lists userId outputs = earlier ++ [listFields (valuesOf told.mIdRoom)] ∧ Inv told ∧ Uncrowded told ∧
      told.mIdRoom.size ≤ keeper.mIdRoom.size ∧ SameRooms told keeper

/-- What is enqueued has been written. -/
private theorem enqueued_is_written
    {own : List OperContext} (bears : List.Forall₂ (Bears host) sent own) {fields : List Field}
    (said : fields ∈ sentTo userId sent) : ∃ msg, Msg.build host fields = .ok msg := by
  obtain ⟨reply, inside, rfl⟩ := List.mem_map.mp said
  have member := (List.mem_filter.mp inside).1
  clear said inside
  induction bears with
  | nil => cases member
  | cons bear _ ih =>
    rcases List.mem_cons.mp member with rfl | later
    · obtain ⟨msg, _, written⟩ := bear
      cases written with
      | built made => exact ⟨msg, made⟩
      | copied made _ => exact ⟨_, made⟩
    · exact ih later

private theorem listed_step {outputs : List (List Sent)} {own : List OperContext} (holds : Holds keeper)
    (listed : Listed keeper outputs) (taken : Worker.step keeper event = .ok (next, sent))
    (after : Holds next) (bears : List.Forall₂ (Bears host) sent own) : Listed next (outputs ++ [sent]) := by
  intro userId inside
  rw [lists_snoc]
  rcases step_told holds.inv taken inside with ⟨before, now⟩ | ⟨⟨silent, stays⟩, known, rooms⟩
  · have told : listFields (valuesOf next.mIdRoom) ∈ listsIn userId sent := by simp [now]
    obtain ⟨msg, built⟩ := enqueued_is_written bears (List.mem_filter.mp told).1
    refine ⟨(if sent.any (isWelcome userId) then [] else lists userId outputs) ++ before, next, ?_,
      after.inv, (written_list_counts after.names built).2, Nat.le_refl _, same_rooms_refl next⟩
    rw [now, List.append_assoc]
  · obtain ⟨earlier, told, sofar, held, few, size, same⟩ := listed userId known
    refine ⟨earlier, told, ?_, held, few, Nat.le_trans size (WorkerSafety.step_counted holds.inv holds.counted taken).2,
      same_rooms_trans same rooms⟩
    rw [silent, stays, List.append_nil, ← sofar]
    rfl

/-- What the server has enqueued says what its handlers say, and all users are told. -/
private structure Telling (host : Host) (keeper : RoomKeeper) (events : List Worker.Event)
    (owns : List (List OperContext)) : Prop where
  holds : Holds keeper
  told : ∃ sents, run Worker.step RoomKeeper.new events = .ok (keeper, sents) ∧
    List.Forall₂ (List.Forall₂ (Bears host)) sents owns ∧ Listed keeper sents

/-- Of every run: what is enqueued are messages into which the replies were written, and
once its client has taken all lists among those that were enqueued for it since its logon,
a user sees exactly the rooms that there are, by their names. -/
theorem clients_know_the_rooms {owns : List (List OperContext)}
    (ran : run (Worker.take host) RoomKeeper.new events = .ok (keeper, owns)) (inside : userId ∈ keeper.mIdUser) :
    ∃ sents, run Worker.step RoomKeeper.new events = .ok (keeper, sents) ∧
      List.Forall₂ (List.Forall₂ (Bears host)) sents owns ∧
      ∀ client view : CRClient, applyAll client (lists userId sents) = .ok view → ∀ roomId : UInt32,
        (view.mRooms[roomId]?).map Room.mName = (keeper.mIdRoom[roomId]?).map Room.mName := by
  have history := run_history_always
    (fun keeper history => Telling host keeper (history.map Prod.fst) (history.map Prod.snd)) (by
      rintro keeper history event next own ⟨holds, sents, values, bears, listed⟩ taken
      obtain ⟨sent, stepped, written⟩ := take_bears holds.inv taken
      have after := take_holds holds taken
      rw [List.map_append, List.map_append]
      exact ⟨after, sents ++ [sent], run_snoc values stepped, List.rel_append bears (.cons written .nil),
        listed_step holds listed stepped after written⟩)
    ⟨holds_new, [], rfl, .nil, fun userId known => by simp [mem_users, new_has_no_users] at known⟩ ran
  rw [List.map_fst_zip (run_length ran).ge, List.map_snd_zip (run_length ran).le] at history
  obtain ⟨holds, sents, values, bears, listed⟩ := history
  refine ⟨sents, values, bears, fun client view applied roomId => ?_⟩
  obtain ⟨earlier, told, messages, inv, small, size, same⟩ := listed userId inside
  rw [messages] at applied
  obtain ⟨between, last⟩ := ClientView.apply_all_last applied
  rw [list_is_shown inv (Nat.lt_of_le_of_lt size holds.few) small last roomId]
  exact (same.named roomId).symm

/-- Ann makes a room; Bob logs on behind her. -/
private def denIsMade : List WorkerSafety.Asked :=
  [⟨1, .logon (.ascii "ann"), WorkerSafety.Asked.ann_fits⟩,
    ⟨1, .createRoom (.ascii "den") (.ascii "key"), WorkerSafety.Asked.den_fits⟩,
    ⟨2, .logon (.ascii "bob"), WorkerSafety.Asked.bob_fits⟩]

theorem ann_sees_the_rooms :
    ∃ keeper owns sents view, run (Worker.take .usual) RoomKeeper.new (denIsMade.map WorkerSafety.Asked.event) =
      .ok (keeper, owns) ∧
      List.Forall₂ (List.Forall₂ (Bears .usual)) sents owns ∧ 1 ∈ keeper.mIdUser ∧
      applyAll (.new (.ascii "ann")) (lists 1 sents) = .ok view ∧
      ∀ roomId : UInt32, (view.mRooms[roomId]?).map Room.mName = (keeper.mIdRoom[roomId]?).map Room.mName := by
  have taken : ((run WorkerSafety.Asked.step RoomKeeper.new denIsMade).toOption.map fun reply =>
      (reply.1.mIdUser.contains 1, (applyAll (.new (.ascii "ann")) (lists 1 reply.2)).toOption.isSome)) =
        some (true, true) := by
    decide +kernel
  obtain ⟨⟨keeper, outputs⟩, ran, both⟩ := Option.map_eq_some_iff.mp taken
  simp only [Prod.mk.injEq, Option.isSome_iff_exists] at both
  obtain ⟨online, view, applied⟩ := both
  have inside : 1 ∈ keeper.mIdUser := Std.ExtTreeMap.contains_iff_mem.mp online
  obtain ⟨owns, ranOn⟩ := asked_fits .usual inv_new (ok_of_option ran) (by decide +kernel)
  obtain ⟨sents, values, bears, shows⟩ := clients_know_the_rooms ranOn inside
  cases ((WorkerSafety.Asked.run_events RoomKeeper.new denIsMade).trans (ok_of_option ran)).symm.trans values
  exact ⟨keeper, owns, outputs, view, ranOn, bears, inside, ok_of_option applied, shows _ view (ok_of_option applied)⟩

end ChatRoom.RoomListView
