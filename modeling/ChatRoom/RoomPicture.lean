import ChatRoom.ClientView
import ChatRoom.SystemFlow
import ChatRoom.Lib.Published
import Mathlib.Data.List.Nodup

/-! What a client shows of its room, in the whole program. The server tells everybody
in a room about every change, but a client hears of it later, so its picture can be
old. It is never wrong: it is the server's room at an earlier moment, what is on its
way is what the server has said since, and with nothing on its way the moment is now. -/
namespace ChatRoom.RoomPicture
open Lib Wire ChatSystem RoomKeeperInvariant SystemFlow

variable {system next final : ChatSystem} {act : Act} {report : Report} {reports : List Report} {connId userId : UInt64}
  {station : Station} {keeper after : RoomKeeper} {sent : List Sent}

/-! ### What the server says about a room -/

def isInfo (message : List Field) : Bool := message.head? == some MsgType.s2cRoomInfo.field

def infosIn (messages : List (List Field)) : List (List Field) := messages.filter isInfo

@[simp] theorem infos_nil : infosIn [] = [] := rfl

@[simp] theorem infos_append (first second : List (List Field)) :
    infosIn (first ++ second) = infosIn first ++ infosIn second :=
  List.filter_append first second

/-- What there is to say about a user's room. -/
def roomInfo (userId : UInt64) (keeper : RoomKeeper) : Option (List Field) :=
  (keeper.mIdUser[userId]?).bind fun user => (keeper.mIdRoom[user.mRoomId]?).map (announced keeper)

theorem room_info_known {user : User} {room : Room} (known : keeper.mIdUser[userId]? = some user)
    (stored : keeper.mIdRoom[user.mRoomId]? = some room) : roomInfo userId keeper = some (announced keeper room) := by
  simp [roomInfo, known, stored]

theorem room_info_unknown (unknown : userId ∉ keeper.mIdUser) : roomInfo userId keeper = none := by
  have none : keeper.mIdUser[userId]? = none := by
    cases known : keeper.mIdUser[userId]? with
    | none => rfl
    | some user => exact absurd (mem_users.mpr ⟨user, known⟩) unknown
  simp [roomInfo, none]

/-- Whatever changes a user's room says so to the user, and nothing else does. -/
def SaysSo (userId : UInt64) (keeper after : RoomKeeper) (sent : List Sent) : Prop :=
  infosIn (sentTo userId sent) = [] ∧ roomInfo userId after = roomInfo userId keeper ∨
    ∃ info, infosIn (sentTo userId sent) = [info] ∧ roomInfo userId after = some info

theorem perform_says_so {request : RoomKeeper.Request} {outcome : Outcome} (inv : Inv keeper)
    (performed : keeper.perform request = .ok outcome) (stays : request ≠ .drop userId) :
    SaysSo userId keeper outcome.keeper outcome.sent := by
  obtain ⟨_, again, kept⟩ := WorkerSafety.perform_ok inv request
  cases again.symm.trans performed
  by_cases inside : userId ∈ outcome.keeper.mIdUser
  · obtain ⟨user, known⟩ := mem_users.mp inside
    obtain ⟨room, stored⟩ := kept.housed known
    have now := room_info_known known stored
    rcases ClientView.perform_told inv request performed kept known stored with told | ⟨silent, _, before, held, same⟩
    · exact .inr ⟨_, by rw [told]; rfl, now⟩
    · exact .inl ⟨by rw [silent]; rfl, by rw [now, room_info_known before held, same]⟩
  · have before : userId ∉ keeper.mIdUser := fun online => inside (perform_keeps_users inv performed online stays)
    refine .inl ⟨?_, by rw [room_info_unknown inside, room_info_unknown before]⟩
    rw [sent_to_others fun message told same => ?_]
    · rfl
    obtain ⟨_, room, stored, member, _⟩ := RoomAccess.sent_to_members inv performed message told
    exact inside (same ▸ mem_users.mpr (kept.online stored member))

private theorem no_infos (asides : ∀ message ∈ sent, Aside message.fields) : infosIn (sentTo userId sent) = [] := by
  rw [infosIn, List.filter_eq_nil_iff]
  intro fields inside info
  obtain ⟨message, within, rfl⟩ := List.mem_map.mp inside
  exact aside_other (asides message (List.mem_of_mem_filter within)) (by decide) (beq_iff_eq.mp info)

theorem serve_says_so {ip : StdString} {port : UInt16} {request : Worker.Request} (inv : Inv keeper)
    (served : Worker.serve ip port connId request keeper = .ok (after, sent)) : SaysSo userId keeper after sent := by
  obtain ⟨asked, outcome, replies, performed, stays, rfl, rfl, asides, _⟩ | ⟨_, words, user, room, _, _, _, rfl, rfl⟩ |
    ⟨rfl, asides, _⟩ := serve_cases inv served
  · have saysSo := perform_says_so inv performed (stays userId)
    unfold SaysSo at saysSo ⊢
    rwa [sent_to_append, infos_append, no_infos asides, List.append_nil]
  · refine .inl ⟨?_, rfl⟩
    rw [sent_to_each]
    split <;> rfl
  · exact .inl ⟨no_infos asides, rfl⟩

/-- The room of a connection that is not dropped is published, step by step. -/
theorem step_publishes (inv : Inv system.keeper) (stays : act ≠ .drops connId) :
    Publishes step (fun system => roomInfo connId system.keeper)
      (fun report => infosIn (sentTo connId report.sent)) system act := by
  intro next report taken
  obtain ⟨_, _, _, turn⟩ | ⟨_, _, turn⟩ | ⟨_, _, request, keeper, _, turn⟩ | ⟨rfl, keeper, turn⟩ := step_turns taken
  · rw [turn.next, turn.report]
    exact .inl ⟨rfl, rfl⟩
  · dsimp only
    rw [turn.next, turn.sent]
    exact .inl ⟨rfl, rfl⟩
  · rw [turn.next]
    exact serve_says_so inv turn.served
  · rw [turn.next]
    obtain ⟨outcome, done, same⟩ := bind_ok.mp turn.dropped
    have performed : system.keeper.perform (.drop report.connId) = .ok outcome := done
    obtain ⟨rfl, sent⟩ := Prod.mk.inj (Except.ok.inj same)
    dsimp only
    rw [← sent]
    have other : RoomKeeper.Request.drop report.connId ≠ .drop connId := fun same => stays (by cases same; rfl)
    exact perform_says_so inv performed other

/-! ### What a client makes of it -/

/-- A client shows what the last message about its room has said. -/
def Pictures (client : CRClient) : Option (List Field) → Prop
  | none => client.mCurrentRoom = .empty ∧ client.mOnlines = ∅
  | some info => ∃ before view, ClientView.applyInfo before info = .ok view ∧
      client.mCurrentRoom = view.mCurrentRoom ∧ client.mOnlines = view.mOnlines

theorem pictures_same {client other : CRClient} {known : Option (List Field)}
    (room : other.mCurrentRoom = client.mCurrentRoom)
    (onlines : other.mOnlines = client.mOnlines) (pictures : Pictures client known) : Pictures other known := by
  cases known with
  | none => exact ⟨room.trans pictures.1, onlines.trans pictures.2⟩
  | some info =>
    obtain ⟨before, view, applied, sameRoom, sameOnlines⟩ := pictures
    exact ⟨before, view, applied, room.trans sameRoom, onlines.trans sameOnlines⟩

private theorem bare_changes_nothing (client : CRClient) (code : Int32) (silent) :
    (ClientReading.answer client (.bare code silent)).1.mCurrentRoom = client.mCurrentRoom ∧
      (ClientReading.answer client (.bare code silent)).1.mOnlines = client.mOnlines := by
  simp only [ClientReading.answer]
  split
  · exact ⟨rfl, rfl⟩
  · unfold CRClient.handleLeaveRoom
    split <;> exact ⟨rfl, rfl⟩
  · exact ⟨rfl, rfl⟩

/-- Only a message about its room changes what a client shows of it. -/
theorem answer_pictures {client : CRClient} {known : Option (List Field)} {message : List Field}
    {said : ClientReading.Message}
    (front : said.fields <+: message) (pictures : Pictures client known) :
    Pictures (ClientReading.answer client said).1 (lastWord known (infosIn [message])) := by
  obtain ⟨rest, rfl⟩ := front
  cases said with
  | roomInfo room users short =>
    have applied := ClientView.apply_info_ok client (.roomInfo room users short) (encode_append _ rest)
    exact ⟨client, _, applied, rfl, rfl⟩
  | bare code silent =>
    have other : isInfo ((ClientReading.Message.bare code silent).fields ++ rest) = false := by
      simp only [isInfo, ClientReading.Message.fields, List.cons_append, List.head?_cons, MsgType.field, beq_eq_false_iff_ne]
      rintro ⟨⟩
      exact silent (by decide)
    rw [infosIn, List.filter_cons_of_neg (by simp [other])]
    obtain ⟨room, onlines⟩ := bare_changes_nothing client code silent
    exact pictures_same room onlines pictures
  | logonOk => exact pictures_same rfl rfl pictures
  | logonFailed => exact pictures_same rfl rfl pictures
  | _ => exact pictures

/-- A client shows what it has heard, and tells itself nothing about its room. -/
structure Keeps (own : List Report) (client : CRClient) (posted : List (List Field)) : Prop where
  picture : Pictures client (lastWord none (infosIn (own.flatMap Report.heard)))
  quiet : ∀ message ∈ posted, isInfo message = false

private theorem own_is_no_info {message : List Field} (own : ClientInput.OwnMessage message) : isInfo message = false := by
  obtain rfl | rfl | ⟨target, words, rfl⟩ := own <;> rfl

/-- One turn more, by what is heard in it. -/
private theorem keeps_snoc {own : List Report} {client other : CRClient} {posted waiting : List (List Field)}
    (keeps : Keeps own client posted) (quiet : ∀ message ∈ waiting, isInfo message = false)
    (picture : ∀ known, Pictures client known → Pictures other (lastWord known (infosIn report.heard))) :
    Keeps (own ++ [report]) other waiting where
  picture := by
    rw [List.flatMap_append, infos_append, last_word_append, List.flatMap_singleton]
    exact picture _ keeps.picture
  quiet := quiet

theorem keeps_rule : ClientRule Keeps where
  starts := fun name report heard _ =>
    ⟨by rw [List.flatMap_singleton, heard]; exact ⟨rfl, rfl⟩, (fun _ none => nomatch none)⟩
  idles := fun own report client posted heard _ keeps =>
    keeps_snoc keeps keeps.quiet fun known pictures => by rwa [heard]
  types := fun own report client next line effects posted more caused posts heard _ keeps => by
    refine keeps_snoc keeps (fun message inside => ?_) fun known pictures => ?_
    · rcases List.mem_append.mp inside with old | new
      · exact keeps.quiet message old
      · exact own_is_no_info (caused.posts message (posts message new))
    · obtain ⟨running, rfl⟩ := caused.same
      rw [heard]
      exact pictures_same rfl rfl pictures
  minds := fun own report client known message posted front heard _ keeps => by
    have quiet := keeps.quiet message List.mem_cons_self
    refine keeps_snoc keeps (fun other inside => keeps.quiet other (List.mem_cons_of_mem _ inside)) fun shown pictures => ?_
    have answered := answer_pictures front pictures
    rw [infosIn, List.filter_cons_of_neg (by simp [quiet])] at answered
    rwa [heard]
  hears := fun own report client known message posted front heard _ keeps =>
    keeps_snoc keeps keeps.quiet fun shown pictures => by rw [heard]; exact answer_pictures front pictures

/-! ### Whole runs -/

/-- There are no more users in a room than there have been connections. -/
theorem few_in_a_room (joined : Joined system reports) {roomId : UInt32} {room : Room}
    (stored : system.keeper.mIdRoom[roomId]? = some room) : room.mUsers.size ≤ system.mMaxID := by
  have once : (room.getAllUsers.map UInt64.toNat).Nodup :=
    List.Nodup.map (fun _ _ same => UInt64.toNat_inj.mp same) room.all_users_nodup
  have inside : room.getAllUsers.map UInt64.toNat ⊆ List.range system.mMaxID := by
    intro number listed
    obtain ⟨userId, within, rfl⟩ := List.mem_map.mp listed
    have online : userId ∈ system.keeper.mIdUser := mem_users.mpr (joined.inv.online stored (Room.mem_all_users.mp within))
    obtain ⟨station, stands⟩ := joined.present userId online
    exact List.mem_range.mpr (joined.young _ _ stands)
  have size := (once.subperm inside).length_le
  rwa [List.length_map, room.all_users_length, List.length_range] at size

/-- What the server says to a connection about its room. -/
def roomSaid (connId : UInt64) (reports : List Report) : List (List Field) := infosIn (toldTo connId reports)

/-- A client shows the room that its user is in; none, while it is not logged on. -/
def ShowsRoom (connId : UInt64) (keeper : RoomKeeper) (client : CRClient) : Prop :=
  match keeper.mIdUser[connId]? with
  | none => client.mCurrentRoom = .empty ∧ client.mOnlines = ∅
  | some user => ∃ room, keeper.mIdRoom[user.mRoomId]? = some room ∧ client.mCurrentRoom.mID = user.mRoomId ∧
      client.mCurrentRoom.mName = room.mName ∧
      ∀ member : UInt64, client.mOnlines[member]? = if member ∈ room.mUsers then keeper.mIdUser[member]? else none

theorem shows_room {client : CRClient} (inv : Inv keeper)
    (few : ∀ (roomId : UInt32) (room : Room), keeper.mIdRoom[roomId]? = some room → room.mUsers.size < 2 ^ 32)
    (pictures : Pictures client (roomInfo connId keeper)) : ShowsRoom connId keeper client := by
  unfold ShowsRoom
  cases known : keeper.mIdUser[connId]? with
  | none =>
    have unknown : roomInfo connId keeper = none := by simp [roomInfo, known]
    rw [unknown] at pictures
    exact pictures
  | some user =>
    obtain ⟨room, stored⟩ := inv.housed known
    rw [room_info_known known stored] at pictures
    obtain ⟨before, view, applied, sameRoom, sameOnlines⟩ := pictures
    have shows := ClientView.announced_is_shown inv stored (few _ room stored) applied
    exact ⟨room, stored, by rw [sameRoom, shows.id], by rw [sameRoom, shows.name],
      fun member => by rw [sameOnlines, shows.onlines]⟩

theorem every_step_publishes {acts : List Act} (stays : ∀ act ∈ acts, act ≠ .drops connId) :
    EveryStep step (Publishes step (fun system => roomInfo connId system.keeper)
      fun report => infosIn (sentTo connId report.sent)) .new acts :=
  every_step_of_invariant (fun system => Inv system.keeper) (fun _ _ _ _ inv _ taken => keeper_kept inv taken)
    (fun _ _ inv stays => step_publishes inv stays) inv_new (every_step_of_mem stays)

theorem room_said_flat (reports : List Report) :
    (reports.flatMap fun report => infosIn (sentTo connId report.sent)) = roomSaid connId reports := by
  rw [roomSaid, toldTo, infosIn, List.filter_flatMap]
  rfl

/-- The moment up to which a client has heard what the server says about its room. -/
theorem shown_at_a_moment {acts : List Act} (ran : run step .new acts = .ok (final, reports)) (few : final.mMaxID < 2 ^ 32)
    (stands : final.station connId = some station) :
    ∃ middle first second before after,
      Moment step (fun report => infosIn (sentTo connId report.sent)) .new final acts reports
      (infosIn (heardBy connId reports)).length middle first second before after ∧
        ShowsRoom connId middle.keeper station.client := by
  have bound : final.mMaxID ≤ 2 ^ 64 := by omega
  have flows := (run_joined ran bound).flows _ _ stands
  have said : roomSaid connId reports = infosIn (heardBy connId reports) ++ infosIn station.down := by
    rw [roomSaid, flows.down, infos_append]
  have part : (infosIn (heardBy connId reports)).length ≤
      (reports.flatMap fun report => infosIn (sentTo connId report.sent)).length := by
    rw [room_said_flat, said, List.length_append]
    exact Nat.le_add_right _ _
  obtain ⟨middle, first, second, before, after, moment, known⟩ :=
    every_word_was_true (every_step_publishes (never_dropped ran bound stands)) ran part
  have grown := max_of_part (moment.cut ▸ ran) moment.ran
  have joined := run_joined moment.ran (Nat.le_trans grown bound)
  refine ⟨middle, first, second, before, after, moment, shows_room joined.inv (fun roomId room stored => ?_) ?_⟩
  · have := few_in_a_room joined stored
    omega
  · rw [known, room_said_flat, said, List.take_left]
    exact (run_clients keeps_rule ran bound _ _ stands).picture

/-- A client to which nothing is on its way shows its room as it is. -/
theorem shown_now {acts : List Act} (ran : run step .new acts = .ok (final, reports)) (few : final.mMaxID < 2 ^ 32)
    (stands : final.station connId = some station) (none : infosIn station.down = []) :
    ShowsRoom connId final.keeper station.client := by
  obtain ⟨middle, first, second, before, after, moment, shows⟩ := shown_at_a_moment ran few stands
  have flows := (run_joined ran (by omega)).flows _ _ stands
  have present : second = [] := by
    apply moment.present
    rw [moment.waiting, room_said_flat, roomSaid, flows.down, infos_append, List.drop_left, none]
  have goesOn := moment.goesOn
  rw [present] at goesOn
  cases goesOn
  exact shows

/-- What a connected client shows of its room has been true: it is the room that its
user was in at a moment of the run. Up to the moment the server had said just what the
client has heard; what is on its way to the client is what the server has said since;
and with nothing on its way the picture is that of the present. -/
theorem room_pictures_were_true
    {acts : List Act} (ran : run step .new acts = .ok (final, reports)) (few : final.mMaxID < 2 ^ 32)
    (stands : final.station connId = some station) :
    ∃ middle first second before after, acts = first ++ second ∧ run step .new first = .ok (middle, before) ∧
      run step middle second = .ok (final, after) ∧ ShowsRoom connId middle.keeper station.client ∧
      infosIn (heardBy connId reports) = roomSaid connId before ∧ infosIn station.down = roomSaid connId after ∧
      (infosIn station.down = [] → ShowsRoom connId final.keeper station.client) := by
  obtain ⟨middle, first, second, before, after, moment, shows⟩ := shown_at_a_moment ran few stands
  have flows := (run_joined ran (by omega)).flows _ _ stands
  have said : roomSaid connId before ++ roomSaid connId after = infosIn (heardBy connId reports) ++
      infosIn station.down := by
    rw [← infos_append, ← flows.down, moment.answers]
    simp [roomSaid, toldTo]
  obtain ⟨heard, waiting⟩ := List.append_inj said (by rw [← moment.said, room_said_flat])
  exact ⟨middle, first, second, before, after, moment.cut, moment.ran, moment.goesOn, shows, heard.symm, waiting.symm,
    shown_now ran few stands⟩

/-- Bob comes, and Ann's client has not heard of it yet. -/
private def bobComes : List Act :=
  [.connects (.ascii "ann") (.ascii "h") 1, .serves 0, .hears 0, .connects (.ascii "bob") (.ascii "g") 2, .serves 1]

/-- What she shows is the room of an earlier moment, and no longer that of the present. -/
theorem ann_shows_an_old_room :
    ∃ final reports station middle first second before after, bobComes = first ++ second ∧
      run step .new bobComes = .ok (final, reports) ∧ final.station 0 = some station ∧
      run step .new first = .ok (middle, before) ∧ run step middle second = .ok (final, after) ∧
      ShowsRoom 0 middle.keeper station.client ∧ ¬ ShowsRoom 0 final.keeper station.client := by
  have goes : (run step .new bobComes).toOption.map (fun reply =>
      (reply.1.mMaxID, (reply.1.station 0).map (fun station => station.client.mOnlines[(1 : UInt64)]?.isNone),
        (reply.1.keeper.mIdUser[(0 : UInt64)]?).map fun user => ((reply.1.keeper.mIdRoom[user.mRoomId]?).map fun room =>
          decide ((1 : UInt64) ∈ room.mUsers), reply.1.keeper.mIdUser[(1 : UInt64)]?.isSome))) =
      some (2, some true, some (some true, true)) := by decide +kernel
  obtain ⟨⟨final, reports⟩, ran, shape⟩ := Option.map_eq_some_iff.mp goes
  have done := ok_of_option ran
  simp only [Prod.mk.injEq, Option.map_eq_some_iff] at shape
  obtain ⟨count, ⟨station, stands, unseen⟩, user, known, ⟨room, stored, inside⟩, online⟩ := shape
  have few : final.mMaxID < 2 ^ 32 := by omega
  obtain ⟨middle, first, second, before, after, cut, ranFirst, goesOn, shows, _⟩ := room_pictures_were_true done few stands
  refine ⟨final, reports, station, middle, first, second, before, after, cut, done, stands, ranFirst, goesOn, shows,
    fun current => ?_⟩
  rw [ShowsRoom, known] at current
  obtain ⟨roomToo, storedToo, _, _, onlines⟩ := current
  obtain rfl := Option.some.inj (stored.symm.trans storedToo)
  have seen := onlines 1
  rw [if_pos (of_decide_eq_true inside), Option.isNone_iff_eq_none.mp unseen] at seen
  rw [← seen] at online
  cases online

end ChatRoom.RoomPicture
