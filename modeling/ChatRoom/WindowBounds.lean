import ChatRoom.Layout
import ChatRoom.SystemFlow

/-! Names and lines that are short enough for the buffers of every window. What a client
formats comes from somebody's command line and somebody's keyboard, through the server;
nobody on the way makes it longer, and nobody checks it. -/
namespace ChatRoom.WindowBounds
open Lib Wire ChatSystem RoomKeeperInvariant SystemFlow Layout

/-- How long the names of users and the lines that they type are at most. -/
structure Limits where
  name : Nat
  line : Nat

/-- With markup, separators and terminator both kinds of text have room. -/
structure Limits.Suffice (limits : Limits) : Prop where
  chat : limits.name + limits.line ≤ 243
  list : limits.name ≤ 205

/-- As long as a dotted address, as `inet_ntoa` writes it, gets. -/
def addressMax : Nat := 15

section
variable (limits : Limits)

def RequestWithin : Worker.Request → Prop
  | .logon name => name.length ≤ limits.name
  | .chat _ words => words.length ≤ limits.line
  | .createRoom _ _ => True
  | .joinRoom _ _ => True
  | .whisper _ _ => True
  | .other _ _ => True

/-- What comes in from outside is within the limits. -/
def ActWithin : Act → Prop
  | .connects name ip _ => name.length ≤ limits.name ∧ ip.length ≤ addressMax
  | .types _ line => line.bytes.length ≤ limits.line
  | .asks _ request => RequestWithin limits request
  | .minds _ => True
  | .hears _ => True
  | .serves _ => True
  | .drops _ => True

structure UserWithin (user : User) : Prop where
  name : user.mName.length ≤ limits.name
  ip : user.mIP.length ≤ addressMax

def MessageWithin : ClientReading.Message → Prop
  | .roomInfo _ users _ => ∀ user ∈ users, UserWithin limits user
  | .roomChat fromName words => fromName.length ≤ limits.name ∧ words.length ≤ limits.line
  | _ => True

/-- Whatever request the server finds at the start of the message. -/
def UpWithin (message : List Field) : Prop :=
  ∀ request : Worker.Request, request.fields <+: message → RequestWithin limits request

/-- Whatever the client finds at the start of the message. -/
def DownWithin (message : List Field) : Prop :=
  ∀ known : ClientReading.Message, known.fields <+: message → MessageWithin limits known

structure StationWithin (station : Station) : Prop where
  ip : station.ip.length ≤ addressMax
  up : ∀ message ∈ station.up, UpWithin limits message
  posted : ∀ message ∈ station.posted, DownWithin limits message
  down : ∀ message ∈ station.down, DownWithin limits message

def UsersWithin (keeper : RoomKeeper) : Prop :=
  ∀ (userId : UInt64) (user : User), keeper.mIdUser[userId]? = some user → UserWithin limits user

/-- Nothing that is held or on its way is longer than what may come in. -/
structure Within (system : ChatSystem) : Prop where
  users : UsersWithin limits system.keeper
  stations : ∀ connId station, system.station connId = some station → StationWithin limits station

end

variable {limits : Limits} {system next final : ChatSystem} {act : Act} {report : Report} {reports : List Report}
  {station : Station} {keeper after : RoomKeeper} {sent : List Sent} {message rest : List Field}
    {known : ClientReading.Message}

/-! ### What fits -/

private theorem length_text (number : Nat) {count : Nat} (positive : 0 < count) (small : number < 10 ^ count) :
    (text (toString number)).length ≤ count := by
  rw [text, List.length_map, Nat.toString_eq_repr, Nat.toList_repr]
  exact (Nat.length_toDigits_le_iff (by decide) positive).mpr small

/-- A sign and ten digits. -/
private theorem length_i2s (number : Nat) : (i2s number).length ≤ 11 := by
  obtain ⟨lower, upper⟩ := to_int32_range number
  rw [i2s, Int.toString_eq_repr, Int.repr_eq_if]
  split
  · exact length_text (toInt32 number).toNat (by decide) (by omega)
  · have digits : _ ≤ 10 := length_text (-toInt32 number).toNat (by decide) (by omega)
    rw [text, List.length_map, Nat.toString_eq_repr] at digits
    rw [text, List.length_map, String.toList_append, List.length_append]
    exact Nat.add_le_add (Nat.le_refl 1) digits

private theorem length_port (port : UInt16) : (i2s port.toNat).length ≤ 5 := by
  have small := port.toNat_lt
  have same : toInt32 port.toNat = port.toNat := to_int32_eq ⟨by omega, by omega⟩
  rw [i2s, same]
  exact length_text port.toNat (by decide) (by omega)

private theorem chat_text_length (fromName words : StdString) (isSelf : Bool) :
    (chatText fromName words isSelf).length ≤ fromName.length + words.length + 12 := by
  cases isSelf with
  | true =>
    have markup : (text "<R></B/05>").length = 10 := rfl
    have separator : (text " :").length = 2 := rfl
    simp only [chatText, if_true, List.length_append, markup, separator, StdString.length]
    omega
  | false =>
    have markup : (text "<L></05>").length = 8 := rfl
    have separator : (text ": ").length = 2 := rfl
    simp only [chatText, Bool.false_eq_true, if_false, List.length_append, markup, separator, StdString.length]
    omega

/-- The line of a user in the list. -/
def userLine (user : User) : List UInt8 :=
  text "<L></B/31>" ++ user.mName.bytes ++ text "  " ++ i2s user.mID.toNat ++ text "  " ++ user.mIP.bytes ++ text "  " ++
    i2s user.mPort.toNat ++ text "  "

theorem user_line_length (user : User) :
    (userLine user).length = user.mName.length + (i2s user.mID.toNat).length + user.mIP.length +
      (i2s user.mPort.toNat).length + 18 := by
  have markup : (text "<L></B/31>").length = 10 := rfl
  have separator : (text "  ").length = 2 := rfl
  simp only [userLine, List.length_append, markup, separator, StdString.length]
  omega

private theorem list_fits (suffice : limits.Suffice) {client : CRClient}
    (users : ∀ user ∈ valuesOf client.mOnlines, UserWithin limits user) :
    Fits client.updateWindowUserList := by
  intro line listed
  rcases List.mem_cons.mp listed with rfl | inside
  · exact fits_in_of_length (by decide)
  · obtain ⟨user, online, rfl⟩ := List.mem_map.mp inside
    obtain ⟨name, ip⟩ := users user online
    apply fits_in_of_length
    have length := user_line_length user
    have id := length_i2s user.mID.toNat
    have port := length_port user.mPort
    have list := suffice.list
    unfold addressMax at ip
    change (userLine user).length < 255
    omega

private theorem online_told {users : List User} {user : User} (online : user ∈ valuesOf (ClientReading.onlinesOf users)) :
    user ∈ users := by
  obtain ⟨userId, held⟩ := mem_values_of.mp online
  rw [ClientReading.onlinesOf, insert_each_lookup, Std.ExtTreeMap.getElem?_empty, Option.none_or, Option.map_id] at held
  exact List.mem_of_find?_eq_some held

/-- What a client makes of a message within the limits, it shows without an overrun. -/
theorem answer_fits (suffice : limits.Suffice) (client : CRClient) (within : MessageWithin limits known) :
    ∀ effect ∈ (ClientReading.answer client known).2, Fits effect := by
  intro effect inside
  cases known with
  | roomInfo room users short =>
    rw [List.mem_singleton.mp inside]
    exact list_fits suffice fun user online => within user (online_told online)
  | roomChat fromName words =>
    rw [List.mem_singleton.mp inside]
    have length := chat_text_length fromName words (fromName == client.mUserName)
    have chat := suffice.chat
    exact fits_in_of_length (by have := within.1; have := within.2; omega)
  | bare code silent =>
    simp only [ClientReading.answer] at inside
    split at inside
    · rcases List.mem_cons.mp inside with rfl | listed
      · exact trivial
      · obtain ⟨room, _, rfl⟩ := List.mem_map.mp listed
        exact trivial
    · unfold CRClient.handleLeaveRoom at inside
      split at inside
      · cases inside
      · rw [List.mem_singleton.mp inside]
        exact trivial
    · cases inside
  | logonOk => cases inside
  | roomList => cases inside
  | localWhisper toName words =>
    rcases List.mem_cons.mp inside with rfl | sends
    · exact trivial
    · rw [List.mem_singleton.mp sends]
      exact trivial
  | _ =>
    rw [List.mem_singleton.mp inside]
    exact trivial

/-! ### What is on its way -/

private theorem same_type {type other : MsgType} {fields : List Field}
    (front : type.field :: fields <+: other.field :: rest) :
    type = other := by
  have same : type.code = other.code := by simpa [MsgType.field] using (List.cons_prefix_cons.mp front).1
  exact MsgType.code_injective same

private theorem up_of_type {type : MsgType} (other : type ∉ [MsgType.c2sLogon, .c2sPublishChatMsg]) (rest : List Field) :
    UpWithin limits (type.field :: rest) := by
  intro request front
  cases request with
  | logon name => exact absurd (same_type front) (by rintro rfl; exact other (by decide))
  | chat roomId words => exact absurd (same_type front) (by rintro rfl; exact other (by decide))
  | _ => trivial

private theorem down_of_type {type : MsgType} (other : type ∉ [MsgType.s2cRoomInfo, .s2cRoomChatMsg]) (rest : List Field) :
    DownWithin limits (type.field :: rest) := by
  intro known front
  cases known with
  | roomInfo room users short => exact absurd (same_type front) (by rintro rfl; exact other (by decide))
  | roomChat fromName words => exact absurd (same_type front) (by rintro rfl; exact other (by decide))
  | _ => trivial

private theorem up_of_chat {words : StdString} (within : words.length ≤ limits.line) (roomId : UInt32) :
    UpWithin limits [MsgType.c2sPublishChatMsg.field, .u32 roomId, .str words] := by
  intro request front
  cases request with
  | chat other input =>
    simp only [Worker.Request.fields, List.cons_prefix_cons] at front
    obtain ⟨_, _, same, _⟩ := front
    cases same
    exact within
  | logon name => exact absurd (same_type front) (by decide)
  | _ => trivial

private theorem up_of_logon {name : StdString} (within : name.length ≤ limits.name) :
    UpWithin limits [MsgType.c2sLogon.field, .str name] := by
  intro request front
  cases request with
  | logon other =>
    simp only [Worker.Request.fields, List.cons_prefix_cons] at front
    obtain ⟨_, same, _⟩ := front
    cases same
    exact within
  | chat roomId words => exact absurd (same_type front) (by decide)
  | _ => trivial

private theorem up_of_request {request : Worker.Request} (within : RequestWithin limits request) :
    UpWithin limits request.fields := by
  cases request with
  | logon name => exact up_of_logon within
  | chat roomId words => exact up_of_chat within roomId
  | createRoom => exact up_of_type (by decide) _
  | joinRoom => exact up_of_type (by decide) _
  | whisper => exact up_of_type (by decide) _
  | other code unknown =>
    intro request front
    cases request with
    | logon name =>
      cases (List.cons_prefix_cons.mp front).1
      exact absurd unknown (by decide)
    | chat roomId words =>
      cases (List.cons_prefix_cons.mp front).1
      exact absurd unknown (by decide)
    | _ => trivial

private theorem down_of_chat {name words : StdString} (short : name.length ≤ limits.name)
    (within : words.length ≤ limits.line) :
    DownWithin limits (RoomKeeper.chatFields name words) := by
  intro known front
  cases known with
  | roomChat fromName input =>
    simp only [ClientReading.Message.fields, RoomKeeper.chatFields, List.cons_prefix_cons] at front
    obtain ⟨_, sameName, sameWords, _⟩ := front
    cases sameName
    cases sameWords
    exact ⟨short, within⟩
  | roomInfo room users few => exact absurd (same_type front) (by decide)
  | _ => trivial

private theorem down_of_aside (aside : Aside message) : DownWithin limits message := by
  intro known front
  cases message with
  | nil =>
    obtain ⟨_, _, first⟩ := aside
    cases first
  | cons first fields =>
    cases known with
    | roomInfo room users short =>
      refine absurd ?_ (@aside_other _ .s2cRoomInfo aside (by decide))
      rw [← (List.cons_prefix_cons.mp front).1]
      rfl
    | roomChat fromName words =>
      refine absurd ?_ (@aside_other _ .s2cRoomChatMsg aside (by decide))
      rw [← (List.cons_prefix_cons.mp front).1]
      rfl
    | _ => trivial

/-- A row of ids ends where a value of another type comes. -/
private theorem ids_apart {ids others : List UInt64} {count otherCount : UInt32} {tail otherTail : List Field}
    (same : ids.map Field.u64 ++ .u32 count :: tail = others.map Field.u64 ++ .u32 otherCount :: otherTail) :
    tail = otherTail := by
  induction ids generalizing others with
  | nil =>
    cases others with
    | nil =>
      cases same
      rfl
    | cons => cases same
  | cons id ids ih =>
    cases others with
    | nil => cases same
    | cons other others => exact ih (List.cons.inj same).2

/-- Users that are read were written. -/
private theorem users_among {users others : List User}
    (front : users.flatMap User.encode ++ rest = others.flatMap User.encode) :
    ∀ user ∈ users, user ∈ others := by
  induction users generalizing others with
  | nil => exact fun _ none => nomatch none
  | cons user users ih =>
    cases others with
    | nil => cases front
    | cons other others =>
      rw [List.flatMap_cons, List.flatMap_cons, List.append_assoc] at front
      obtain ⟨same, behind⟩ := List.append_inj front rfl
      have alike : user = other := by
        obtain ⟨name, ip, port, id, roomId⟩ := user
        cases same
        rfl
      intro probe inside
      rcases List.mem_cons.mp inside with rfl | later
      · exact alike ▸ List.mem_cons_self
      · exact List.mem_cons_of_mem _ (ih behind probe later)

private theorem down_of_info (room : Room) {users : List User} (within : ∀ user ∈ users, UserWithin limits user) :
    DownWithin limits (RoomKeeper.infoFields room users) := by
  intro known front
  cases known with
  | roomInfo entry read short =>
    obtain ⟨rest, same⟩ := front
    simp only [ClientReading.Message.fields, Room.Entry.fields, RoomKeeper.infoFields, Room.encode, List.cons_append,
      List.append_assoc,
      List.nil_append, List.cons.injEq] at same
    obtain ⟨_, _, _, _, ids⟩ := same
    exact fun user inside => within user (users_among (ids_apart ids) user inside)
  | roomChat fromName words => exact absurd (same_type front) (by decide)
  | _ => trivial

/-- What a client answers is never a logon, and never something to be said. -/
theorem answer_up (client : CRClient) (known : ClientReading.Message) :
    ∀ message ∈ saidIn (ClientReading.answer client known).2, UpWithin limits message := by
  intro message inside
  cases known with
  | localWhisper toName words =>
    rw [List.mem_singleton.mp inside]
    exact up_of_type (by decide) _
  | bare code silent =>
    simp only [ClientReading.answer] at inside
    split at inside
    · simp [CRClient.showRoomList, saidIn] at inside
    · unfold CRClient.handleLeaveRoom at inside
      split at inside
      · cases inside
      · rw [List.mem_singleton.mp inside]
        exact up_of_type (by decide) _
    · cases inside
  | _ => cases inside

/-! ### The server -/

/-- A record that a request leaves is one of before, in another room perhaps, or the one
that a logon brings. -/
theorem perform_within {request : RoomKeeper.Request} {outcome : Outcome} (inv : Inv keeper)
    (users : UsersWithin limits keeper)
    (logon : ∀ name ip port connId, request = .logon name ip port connId →
      name.length ≤ limits.name ∧ ip.length ≤ addressMax)
    (performed : keeper.perform request = .ok outcome) : UsersWithin limits outcome.keeper := by
  intro userId user known
  cases request with
  | logon name ip port connId =>
    rcases logon_cases inv name ip port connId with ⟨err, errstr, refused⟩ | ⟨hall, _, _, _, accepted⟩
    · cases performed.symm.trans refused
      exact users userId user known
    · cases performed.symm.trans accepted
      simp only [RoomKeeper.succeeded] at known
      rw [entered_user] at known
      split at known
      · cases known
        exact ⟨(logon name ip port connId rfl).1, (logon name ip port connId rfl).2⟩
      next other =>
        rw [registered_other keeper (.new name ip port connId) (Ne.symm other)] at known
        exact users userId user known
  | create name passwd =>
    cases performed
    rcases create_cases keeper name passwd with ⟨err, errstr, refused⟩ | ⟨_, accepted⟩
    · rw [refused] at known
      exact users userId user known
    · rw [accepted] at known
      exact users userId user known
  | join roomName passwd connId =>
    rcases join_cases inv roomName passwd connId with
      ⟨err, errstr, refused⟩ | ⟨mover, oldRoom, roomId, room, found, _, _, _, _, accepted⟩
    · cases performed.symm.trans refused
      exact users userId user known
    · cases performed.symm.trans accepted
      have held : (entered keeper mover.mID mover roomId room).mIdUser[userId]? = some user := known
      rw [entered_user] at held
      split at held
      · cases held
        exact ⟨(users connId mover found).name, (users connId mover found).ip⟩
      · exact users userId user held
  | drop connId =>
    rcases drop_cases inv connId with ⟨_, absent⟩ | ⟨gone, room, _, _, present⟩
    · cases performed.symm.trans absent
      exact users userId user known
    · cases performed.symm.trans present
      simp only [RoomKeeper.succeeded] at known
      rw [dropped_user] at known
      split at known
      · cases known
      · exact users userId user known

private theorem infos_down {request : RoomKeeper.Request} {outcome : Outcome} (inv : Inv keeper)
    (performed : keeper.perform request = .ok outcome)
    (users : UsersWithin limits outcome.keeper) :
    ∀ message ∈ outcome.sent, DownWithin limits message.fields := by
  intro message inside
  obtain ⟨_, room, _, _, info⟩ := RoomAccess.sent_to_members inv performed message inside
  rw [info]
  apply down_of_info
  intro user told
  obtain ⟨userId, _, known⟩ := List.mem_filterMap.mp told
  exact users userId user known

/-- The record of a logon is what the server was asked for. -/
private theorem serve_users {request : Worker.Request} {ip : StdString} {port : UInt16} {connId : UInt64} (inv : Inv keeper)
    (users : UsersWithin limits keeper)
    (asked : RequestWithin limits request) (address : ip.length ≤ addressMax)
    (served : Worker.serve ip port connId request keeper = .ok (after, sent)) : UsersWithin limits after := by
  cases request with
  | logon name =>
    obtain ⟨outcome, logged, rest⟩ := bind_ok.mp served
    obtain ⟨_, _, same⟩ := bind_ok.mp rest
    cases same
    have performed : keeper.perform (.logon name ip port connId) = .ok outcome := logged
    refine perform_within inv users ?_ performed
    rintro _ _ _ _ ⟨⟩
    exact ⟨asked, address⟩
  | chat roomId words =>
    obtain ⟨_, _, same⟩ := bind_ok.mp served
    cases same
    exact users
  | createRoom roomName passwd =>
    cases served
    have performed : keeper.perform (.create roomName passwd) = .ok (keeper.createRoom roomName passwd) := rfl
    exact perform_within inv users (by rintro _ _ _ _ ⟨⟩) performed
  | joinRoom roomName passwd =>
    obtain ⟨outcome, joined, same⟩ := bind_ok.mp served
    cases same
    have performed : keeper.perform (.join roomName passwd connId) = .ok outcome := joined
    exact perform_within inv users (by rintro _ _ _ _ ⟨⟩) performed
  | whisper toName words =>
    obtain ⟨_, _, rest⟩ := bind_ok.mp served
    split at rest <;> cases rest <;> exact users
  | other code unknown =>
    cases served
    exact users

/-- What the server holds and says after a request. -/
theorem serve_within {request : Worker.Request} {ip : StdString} {port : UInt16} {connId : UInt64} (inv : Inv keeper)
    (users : UsersWithin limits keeper)
    (asked : RequestWithin limits request) (address : ip.length ≤ addressMax)
    (served : Worker.serve ip port connId request keeper = .ok (after, sent)) :
    UsersWithin limits after ∧
      ∀ message ∈ sent, DownWithin limits message.fields := by
  have kept := serve_users inv users asked address served
  refine ⟨kept, fun message inside => ?_⟩
  obtain ⟨_, outcome, replies, performed, _, rfl, rfl, asides, _⟩ | ⟨roomId, words, user, room, rfl, known, _, rfl, rfl⟩ |
    ⟨rfl, asides, _⟩ := serve_cases inv served
  · rcases List.mem_append.mp inside with info | reply
    · exact infos_down inv performed kept message info
    · exact down_of_aside (asides message reply)
  · obtain ⟨_, _, rfl⟩ := List.mem_map.mp inside
    exact down_of_chat (users connId user known).name asked
  · exact down_of_aside (asides message inside)

/-! ### Steps and runs -/

/-- The server's turn: what it holds is replaced, and what it sends is on its way. -/
private theorem within_sent {put : Option Station} {connId : UInt64} (within : Within limits system)
    (users : UsersWithin limits keeper)
    (told : ∀ message ∈ sent, DownWithin limits message.fields)
    (own : ∀ station, put = some station → StationWithin limits station) :
    Within limits ({ system.setStation connId put with keeper }.deliver sent) where
  users := users
  stations := by
    intro probe station stands
    simp only [station_deliver, Option.map_eq_some_iff] at stands
    obtain ⟨before, there, rfl⟩ := stands
    have old : StationWithin limits before := by
      change (system.setStation connId put).station probe = some before at there
      rw [station_set] at there
      split at there
      · exact own before there
      · exact within.stations probe before there
    refine ⟨old.ip, old.up, old.posted, fun message inside => ?_⟩
    rcases List.mem_append.mp inside with earlier | later
    · exact old.down message earlier
    · obtain ⟨delivered, among, rfl⟩ := List.mem_map.mp later
      exact told delivered (List.mem_of_mem_filter among)

private theorem within_set {connId : UInt64} (within : Within limits system) (put : StationWithin limits station) :
    Within limits (system.setStation connId (some station)) where
  users := within.users
  stations := by
    intro probe other stands
    rw [station_set] at stands
    split at stands
    · cases stands
      exact put
    · exact within.stations probe other stands

/-- A client takes a message from one of its queues. -/
private theorem takes_within (suffice : limits.Suffice) {before taken : Station} {effects : List Effect}
    (within : StationWithin limits before)
    (next : DownWithin limits message) (took : takes before message = .ok (taken, effects)) :
    StationWithin limits taken ∧ ∀ effect ∈ effects, Fits effect := by
  obtain ⟨_, known, front, rfl, rfl⟩ := takes_ok took
  refine ⟨⟨within.ip, fun said inside => ?_, within.posted, within.down⟩, answer_fits suffice _ (next known front)⟩
  rcases List.mem_append.mp inside with earlier | later
  · exact within.up said earlier
  · exact answer_up before.client known said later

theorem step_within (suffice : limits.Suffice) (inv : Inv system.keeper) (within : Within limits system)
    (allowed : ActWithin limits act)
    (taken : step system act = .ok (next, report)) : Within limits next ∧ ∀ effect ∈ report.shown, Fits effect := by
  cases act with
  | connects name ip port =>
    cases taken
    have fresh : StationWithin limits ⟨ip, port, .new name, false, [], [(CRClient.new name).logonFields], []⟩ := by
      refine ⟨allowed.2, fun message inside => ?_, (fun _ none => nomatch none), fun _ none => nomatch none⟩
      rw [List.mem_singleton.mp inside]
      exact up_of_logon allowed.1
    exact ⟨⟨within.users, (within_set within fresh).stations⟩, fun _ none => nomatch none⟩
  | types connId line =>
    obtain ⟨before, client, effects, posted, said, _, _, handled, posts, sends, rfl, turn⟩ := types_turn taken
    obtain ⟨ip, up, mine, down⟩ := within.stations _ _ turn.found
    have caused := ClientInput.line_causes handled
    rw [turn.next]
    refine ⟨within_set within ⟨ip, fun message inside => ?_, fun message inside => ?_, down⟩, fun effect inside => ?_⟩
    · rcases List.mem_append.mp inside with earlier | later
      · exact up message earlier
      · rcases caused.sends message (sends_caused sends later) with ⟨roomName, passwd, rfl | rfl⟩ | rfl
        · exact up_of_type (by decide) _
        · exact up_of_type (by decide) _
        · have short : line.string.length ≤ limits.line := allowed
          exact up_of_chat short _
    · rcases List.mem_append.mp inside with earlier | later
      · exact mine message earlier
      · rcases caused.posts message (posts_caused posts later) with rfl | rfl | ⟨target, words, rfl⟩
        · exact down_of_type (by decide) _
        · exact down_of_type (by decide) _
        · exact down_of_type (by decide) _
    · obtain ⟨cause, _, same⟩ := List.mem_filterMap.mp inside
      cases cause with
      | display info =>
        cases same
        trivial
      | post => cases same
      | send => cases same
  | minds connId =>
    obtain ⟨before, message, posted, taken, effects, waiting, took, rfl, turn⟩ := minds_turn taken
    obtain ⟨ip, up, mine, down⟩ := within.stations _ _ turn.found
    rw [waiting] at mine
    have rest : StationWithin limits { before with posted } :=
      ⟨ip, up, fun other later => mine other (List.mem_cons_of_mem _ later), down⟩
    obtain ⟨kept, fit⟩ := takes_within suffice rest (mine message List.mem_cons_self) took
    rw [turn.next]
    exact ⟨within_set within kept, fit⟩
  | hears connId =>
    obtain ⟨before, message, down, taken, effects, waiting, took, rfl, turn⟩ := hears_turn taken
    obtain ⟨ip, up, mine, told⟩ := within.stations _ _ turn.found
    rw [waiting] at told
    have rest : StationWithin limits { before with down } :=
      ⟨ip, up, mine, fun other later => told other (List.mem_cons_of_mem _ later)⟩
    obtain ⟨kept, fit⟩ := takes_within suffice rest (told message List.mem_cons_self) took
    rw [turn.next]
    exact ⟨within_set within kept, fit⟩
  | asks connId request =>
    obtain ⟨before, rfl, turn⟩ := asks_turn taken
    obtain ⟨ip, up, mine, down⟩ := within.stations _ _ turn.found
    rw [turn.next]
    refine ⟨within_set within ⟨ip, fun message inside => ?_, mine, down⟩, fun _ none => nomatch none⟩
    rcases List.mem_append.mp inside with earlier | later
    · exact up message earlier
    · rw [List.mem_singleton.mp later]
      exact up_of_request allowed
  | serves connId =>
    obtain ⟨_, before, request, keeper, rest, turn⟩ := serves_turn taken
    obtain ⟨ip, up, mine, down⟩ := within.stations _ _ turn.found
    obtain ⟨values, waiting, _⟩ := turn.waiting
    rw [waiting] at up
    obtain ⟨users, told⟩ := serve_within inv within.users
      (up _ List.mem_cons_self request (List.prefix_append ..)) ip turn.served
    rw [turn.next, turn.shown]
    refine ⟨within_sent within users told ?_, fun _ none => nomatch none⟩
    rintro _ ⟨⟩
    exact ⟨ip, fun message later => up message (List.mem_cons_of_mem _ later), mine, down⟩
  | drops connId =>
    obtain ⟨_, keeper, turn⟩ := drops_turn taken
    obtain ⟨outcome, done, same⟩ := bind_ok.mp turn.dropped
    obtain ⟨rfl, sent⟩ := Prod.mk.inj (Except.ok.inj same)
    have performed : system.keeper.perform (.drop report.connId) = .ok outcome := done
    have users := perform_within inv within.users (by rintro _ _ _ _ ⟨⟩) performed
    rw [turn.next, turn.shown]
    refine ⟨within_sent within users ?_ (fun _ none => nomatch none), fun _ none => nomatch none⟩
    rw [← sent]
    exact infos_down inv performed users

private theorem within_new : Within limits .new where
  users := fun userId user known => by
    have none := new_has_no_users userId
    cases none.symm.trans known
  stations := fun _ _ none => nomatch none

/-- Whoever shows it, and whenever. -/
theorem run_fits (suffice : limits.Suffice) {acts : List Act} (allowed : ∀ act ∈ acts, ActWithin limits act)
    (ran : run step .new acts = .ok (final, reports)) : ∀ report ∈ reports, ∀ effect ∈ report.shown, Fits effect := by
  have history := run_history (fun system seen => (Inv system.keeper ∧ Within limits system) ∧
      ∀ entry ∈ seen, ∀ effect ∈ Report.shown (Prod.snd entry), Fits effect)
    (fun system seen act next report holds allowed taken => by
      obtain ⟨⟨inv, within⟩, fit⟩ := holds
      obtain ⟨kept, fits⟩ := step_within suffice inv within allowed taken
      refine ⟨⟨keeper_kept inv taken, kept⟩, fun entry inside => ?_⟩
      rcases List.mem_append.mp inside with earlier | later
      · exact fit entry earlier
      · rw [List.mem_singleton.mp later]
        exact fits)
    ⟨⟨inv_new, within_new⟩, fun _ none => nomatch none⟩ (every_step_of_mem allowed) ran
  intro report inside
  have listed : report ∈ (acts.zip reports).map Prod.snd := by
    rw [List.map_snd_zip (Nat.le_of_eq (run_length ran))]
    exact inside
  obtain ⟨entry, among, rfl⟩ := List.mem_map.mp listed
  exact history.2 entry among

end ChatRoom.WindowBounds
