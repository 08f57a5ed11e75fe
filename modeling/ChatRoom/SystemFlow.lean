import ChatRoom.ChatSystem

/-! What a connection's queues hold. Everything that was said to the server has been
served or is on its way up; everything that the server has sent to a connection has been
heard or is on its way down; in both directions in order, and nothing twice. Ids are not
used again, so all of this begins with the connection. -/
namespace ChatRoom.SystemFlow
open Lib Wire ChatSystem RoomKeeperInvariant

variable {system next final : ChatSystem} {act : Act} {report : Report} {reports : List Report} {connId userId : UInt64}
  {station : Station} {keeper after : RoomKeeper} {sent : List Sent}

/-! ### What has been seen of a connection -/

def ofConn (connId : UInt64) (reports : List Report) : List Report := reports.filter fun report => report.connId == connId

def saidBy (connId : UInt64) (reports : List Report) : List (List Field) := (ofConn connId reports).flatMap Report.said

def servedOf (connId : UInt64) (reports : List Report) : List (List Field) := (ofConn connId reports).flatMap Report.served

def heardBy (connId : UInt64) (reports : List Report) : List (List Field) := (ofConn connId reports).flatMap Report.heard

/-- What the server has sent to a connection, whoever's request it was for. -/
def toldTo (connId : UInt64) (reports : List Report) : List (List Field) :=
  reports.flatMap fun report => sentTo connId report.sent

theorem of_conn_snoc (reports : List Report) (report : Report) :
    ofConn connId (reports ++ [report]) = ofConn connId reports ++ if report.connId = connId then [report] else [] := by
  rw [ofConn, List.filter_append, ← ofConn]
  by_cases own : report.connId = connId <;> simp [own]

theorem said_snoc (reports : List Report) (report : Report) :
    saidBy connId (reports ++ [report]) = saidBy connId reports ++ if report.connId = connId then report.said else [] := by
  rw [saidBy, of_conn_snoc, List.flatMap_append, ← saidBy]
  split <;> simp

theorem served_snoc (reports : List Report) (report : Report) :
    servedOf connId (reports ++ [report]) = servedOf connId reports ++
      if report.connId = connId then report.served else [] := by
  rw [servedOf, of_conn_snoc, List.flatMap_append, ← servedOf]
  split <;> simp

theorem heard_snoc (reports : List Report) (report : Report) :
    heardBy connId (reports ++ [report]) = heardBy connId reports ++
      if report.connId = connId then report.heard else [] := by
  rw [heardBy, of_conn_snoc, List.flatMap_append, ← heardBy]
  split <;> simp

theorem told_snoc (reports : List Report) (report : Report) :
    toldTo connId (reports ++ [report]) = toldTo connId reports ++ sentTo connId report.sent := by
  simp [toldTo]

/-! ### What a request brings about -/

/-- A message that is neither about a room nor something said in one. -/
def Aside (fields : List Field) : Prop :=
  ∃ type ∈ [MsgType.s2cLogonRes, .s2cCreateRoomRes, .s2cRoomList, .s2cJoinRoomRes, .s2cWhisperMsg, .s2cWhisperMsgFailed],
    fields.head? = some type.field

theorem aside_other {fields : List Field} {type : MsgType} (aside : Aside fields)
    (other : type ∉ [MsgType.s2cLogonRes, .s2cCreateRoomRes, .s2cRoomList, .s2cJoinRoomRes, .s2cWhisperMsg,
      .s2cWhisperMsgFailed]) :
    fields.head? ≠ some type.field := by
  obtain ⟨known, listed, first⟩ := aside
  rw [first]
  intro same
  have code : known.code = type.code := by simpa [MsgType.field] using same
  rw [MsgType.code_injective code] at listed
  exact other listed

private theorem aside_reply {message : Sent} {fields : List Field} (type : MsgType)
    (same : message.fields = type.field :: fields)
    (listed : type ∈ [MsgType.s2cLogonRes, .s2cCreateRoomRes, .s2cRoomList, .s2cJoinRoomRes, .s2cWhisperMsg,
      .s2cWhisperMsgFailed]) :
    Aside message.fields :=
  ⟨type, listed, by rw [same]; rfl⟩

private theorem aside_list (keeper : RoomKeeper) (connId : UInt64) :
    ∀ message ∈ keeper.publishRoomList connId, Aside message.fields := by
  intro message inside
  unfold RoomKeeper.publishRoomList at inside
  split at inside
  · rw [List.mem_singleton.mp inside]
    exact aside_reply .s2cRoomList rfl (by decide)
  · obtain ⟨user, _, rfl⟩ := List.mem_map.mp inside
    exact aside_reply .s2cRoomList rfl (by decide)

/-- The keeper does what is asked, and the asker is answered; or something is said in a
room; or there is nothing but an answer. -/
theorem serve_cases {ip : StdString} {port : UInt16} {request : Worker.Request} (inv : Inv keeper)
    (served : Worker.serve ip port connId request keeper = .ok (after, sent)) :
    (∃ asked outcome replies, keeper.perform asked = .ok outcome ∧ (∀ userId, asked ≠ .drop userId) ∧
      after = outcome.keeper ∧ sent = outcome.sent ++ replies ∧ (∀ message ∈ replies, Aside message.fields) ∧
      ∀ roomId words, request ≠ .chat roomId words) ∨
    (∃ roomId words user room, request = .chat roomId words ∧ keeper.mIdUser[connId]? = some user ∧
      keeper.mIdRoom[roomId]? = some room ∧ after = keeper ∧
      sent = room.getAllUsers.map fun member => ⟨member, RoomKeeper.chatFields user.mName words⟩) ∨
    after = keeper ∧ (∀ message ∈ sent, Aside message.fields) ∧ ∀ roomId words, request ≠ .chat roomId words := by
  cases request with
  | logon name =>
    obtain ⟨outcome, logged, rest⟩ := bind_ok.mp served
    obtain ⟨user, _, same⟩ := bind_ok.mp rest
    cases same
    refine .inl ⟨.logon name ip port connId, outcome, _, logged, by simp, rfl, rfl, fun message inside => ?_, by simp⟩
    rcases List.mem_cons.mp inside with rfl | listed
    · exact aside_reply .s2cLogonRes rfl (by decide)
    · exact aside_list _ connId message listed
  | chat roomId words =>
    obtain ⟨published, done, same⟩ := bind_ok.mp served
    cases same
    obtain ⟨user, room, known, stored, rfl⟩ := WorkerSafety.published_to_members inv done
    exact .inr (.inl ⟨roomId, words, user, room, rfl, known, stored, rfl, rfl⟩)
  | createRoom roomName passwd =>
    cases served
    refine .inl ⟨.create roomName passwd, _, _, rfl, by simp, rfl, rfl, fun message inside => ?_, by simp⟩
    rcases List.mem_cons.mp inside with rfl | listed
    · exact aside_reply .s2cCreateRoomRes rfl (by decide)
    · exact aside_list _ 0 message listed
  | joinRoom roomName passwd =>
    obtain ⟨outcome, joined, same⟩ := bind_ok.mp served
    cases same
    refine .inl ⟨.join roomName passwd connId, outcome, _, joined, by simp, rfl, rfl, fun message inside => ?_, by simp⟩
    rw [List.mem_singleton.mp inside]
    exact aside_reply .s2cJoinRoomRes rfl (by decide)
  | whisper toName words =>
    obtain ⟨fromUser, _, rest⟩ := bind_ok.mp served
    cases found : keeper.getUserByName toName with
    | none =>
      rw [found] at rest
      cases rest
      refine .inr (.inr ⟨rfl, fun message inside => ?_, by simp⟩)
      rw [List.mem_singleton.mp inside]
      exact aside_reply .s2cWhisperMsgFailed rfl (by decide)
    | some toUser =>
      rw [found] at rest
      cases rest
      refine .inr (.inr ⟨rfl, fun message inside => ?_, by simp⟩)
      rw [List.mem_singleton.mp inside]
      exact aside_reply .s2cWhisperMsg rfl (by decide)
  | other code unknown =>
    cases served
    exact .inr (.inr ⟨rfl, (fun _ none => nomatch none), by simp⟩)

/-! ### What a turn does -/

theorem find_ok : system.find connId = .ok station ↔ system.station connId = some station := by
  unfold find
  cases system.station connId <;> simp

@[simp] theorem station_set (probe : UInt64) (put : Option Station) :
    (system.setStation connId put).station probe = if probe = connId then put else system.station probe := by
  simp [setStation, Function.update_apply]

@[simp] theorem station_deliver (probe : UInt64) :
    (system.deliver sent).station probe = (system.station probe).map fun station =>
      { station with down := station.down ++ sentTo probe sent } := rfl

theorem all_present {messages : List (Option (List Field))} {all : List (List Field)}
    (present : messages.mapM present = .ok all) :
    messages = all.map some := by
  induction messages generalizing all with
  | nil =>
    cases present
    rfl
  | cons message messages ih =>
    rw [List.mapM_cons] at present
    obtain ⟨fields, here, rest⟩ := bind_ok.mp present
    obtain ⟨more, others, same⟩ := bind_ok.mp rest
    cases same
    cases message with
    | none => cases here
    | some _ =>
      cases here
      rw [ih others, List.map_cons]

/-- What a line has posted and sent, it has caused. -/
theorem posts_caused {effects : List InputEffect} {posted : List (List Field)}
    (posts : (postsOf effects).mapM present = .ok posted)
    {message : List Field} (inside : message ∈ posted) : .post (some message) ∈ effects := by
  have among : some message ∈ postsOf effects := by
    rw [all_present posts]
    exact List.mem_map_of_mem inside
  obtain ⟨effect, within, same⟩ := List.mem_filterMap.mp among
  cases effect with
  | post => exact (Option.some.inj same) ▸ within
  | send => cases same
  | display => cases same

theorem sends_caused {effects : List InputEffect} {said : List (List Field)}
    (sends : (sendsOf effects).mapM present = .ok said)
    {message : List Field} (inside : message ∈ said) : .send (some message) ∈ effects := by
  have among : some message ∈ sendsOf effects := by
    rw [all_present sends]
    exact List.mem_map_of_mem inside
  obtain ⟨effect, within, same⟩ := List.mem_filterMap.mp among
  cases effect with
  | send => exact (Option.some.inj same) ▸ within
  | post => cases same
  | display => cases same

/-- A turn of a client, or of what is in its place: nothing but its own station changes. -/
structure OwnTurn (system next : ChatSystem) (report : Report) (before after : Station) : Prop where
  found : system.station report.connId = some before
  next : next = system.setStation report.connId (some after)
  up : after.up = before.up ++ report.said
  down : before.down = report.heard ++ after.down
  served : report.served = []
  sent : report.sent = []

theorem types_turn {line : CString} (taken : step system (.types connId line) = .ok (next, report)) :
    ∃ before client effects posted said, before.exited = false ∧ before.client.mCdkRunning = true ∧
      before.client.handleInput line = .ok (client, effects) ∧ (postsOf effects).mapM present = .ok posted ∧
      (sendsOf effects).mapM present = .ok said ∧
      report = { connId, said, shown := displaysOf effects } ∧
      OwnTurn system next report before { before with
        client, posted := before.posted ++ posted, up := before.up ++ said } := by
  obtain ⟨before, found, rest⟩ := bind_ok.mp taken
  split at rest
  · cases rest
  next running =>
    obtain ⟨⟨client, effects⟩, handled, rest⟩ := bind_ok.mp rest
    obtain ⟨posted, posts, rest⟩ := bind_ok.mp rest
    obtain ⟨said, sends, same⟩ := bind_ok.mp rest
    cases same
    push Not at running
    exact ⟨before, client, effects, posted, said, by simpa using running.1, by simpa using running.2, handled, posts,
      sends, rfl,
      find_ok.mp found, rfl, rfl, rfl, rfl, rfl⟩

/-- What a client does with a message it does because of the values at its start. -/
theorem takes_ok {message : List Field} {after : Station} {effects : List Effect}
    (taken : takes station message = .ok (after, effects)) :
    station.exited = false ∧ ∃ known : ClientReading.Message, known.fields <+: message ∧
      effects = (ClientReading.answer station.client known).2 ∧
      after = { station with
        client := (ClientReading.answer station.client known).1
        exited := effects.any isExit
        up := station.up ++ saidIn effects } := by
  unfold takes at taken
  split at taken
  · cases taken
  next running =>
    split at taken
    · cases taken
    next client effects rest ran =>
      cases taken
      obtain ⟨known, rfl, same⟩ := ClientReading.recv_message_ok.mp ran
      exact ⟨by simpa using running, known, List.prefix_append .., by rw [← same], by rw [← same]⟩

theorem minds_turn (taken : step system (.minds connId) = .ok (next, report)) :
    ∃ before message posted after effects, before.posted = message :: posted ∧
      takes { before with posted } message = .ok (after, effects) ∧
      report = { connId, said := saidIn effects, shown := effects } ∧ OwnTurn system next report before after := by
  obtain ⟨before, found, rest⟩ := bind_ok.mp taken
  split at rest
  · cases rest
  next message posted waiting =>
    obtain ⟨⟨after, effects⟩, took, same⟩ := bind_ok.mp rest
    cases same
    obtain ⟨_, _, _, _, same⟩ := takes_ok took
    exact ⟨before, message, posted, after, effects, waiting, took, rfl, find_ok.mp found,
      rfl, by rw [same], by rw [same]; rfl, rfl, rfl⟩

theorem hears_turn (taken : step system (.hears connId) = .ok (next, report)) :
    ∃ before message down after effects, before.down = message :: down ∧
      takes { before with down } message = .ok (after, effects) ∧
      report = { connId, said := saidIn effects, heard := [message], shown := effects } ∧
      OwnTurn system next report before after := by
  obtain ⟨before, found, rest⟩ := bind_ok.mp taken
  split at rest
  · cases rest
  next message down waiting =>
    obtain ⟨⟨after, effects⟩, took, same⟩ := bind_ok.mp rest
    cases same
    obtain ⟨_, _, _, _, same⟩ := takes_ok took
    exact ⟨before, message, down, after, effects, waiting, took, rfl, find_ok.mp found,
      rfl, by rw [same], by rw [same, waiting]; rfl,
      rfl, rfl⟩

theorem asks_turn {request : Worker.Request} (taken : step system (.asks connId request) = .ok (next, report)) :
    ∃ before, report = { connId, said := [request.fields] } ∧
      OwnTurn system next report before { before with up := before.up ++ [request.fields] } := by
  obtain ⟨before, found, same⟩ := bind_ok.mp taken
  cases same
  exact ⟨before, rfl, find_ok.mp found, rfl, rfl, rfl, rfl, rfl⟩

/-- The server takes a message because a request is at its start. -/
structure ServerTurn (system next : ChatSystem) (report : Report) (before : Station) (request : Worker.Request)
    (keeper : RoomKeeper) (up : List (List Field)) : Prop where
  found : system.station report.connId = some before
  waiting : ∃ rest, before.up = (request.fields ++ rest) :: up ∧ report.served = [request.fields ++ rest]
  served : Worker.serve before.ip before.port report.connId request system.keeper = .ok (keeper, report.sent)
  next : next = { system.setStation report.connId (some { before with up }) with keeper }.deliver report.sent
  said : report.said = []
  heard : report.heard = []
  shown : report.shown = []

theorem serves_turn (taken : step system (.serves connId) = .ok (next, report)) :
    report.connId = connId ∧ ∃ before request keeper up, ServerTurn system next report before request keeper up := by
  obtain ⟨before, found, rest⟩ := bind_ok.mp taken
  split at rest
  · cases rest
  next message up waiting =>
    obtain ⟨⟨keeper, sent⟩, served, same⟩ := bind_ok.mp rest
    cases same
    unfold serve at served
    split at served
    · cases served
    next act values ran =>
      obtain ⟨request, rfl, rfl⟩ := (Worker.recv_message_ok ..).mp ran
      exact ⟨rfl, before, request, keeper, up, find_ok.mp found, ⟨values, waiting, rfl⟩, served, rfl, rfl, rfl, rfl⟩

/-- A connection is gone. -/
structure DropTurn (system next : ChatSystem) (report : Report) (keeper : RoomKeeper) : Prop where
  found : ∃ before, system.station report.connId = some before
  dropped : Worker.drop system.keeper report.connId = .ok (keeper, report.sent)
  next : next = { system.setStation report.connId none with keeper }.deliver report.sent
  said : report.said = []
  served : report.served = []
  heard : report.heard = []
  shown : report.shown = []

theorem drops_turn (taken : step system (.drops connId) = .ok (next, report)) :
    report.connId = connId ∧ ∃ keeper, DropTurn system next report keeper := by
  obtain ⟨before, found, rest⟩ := bind_ok.mp taken
  obtain ⟨⟨keeper, sent⟩, dropped, same⟩ := bind_ok.mp rest
  cases same
  exact ⟨rfl, keeper, ⟨before, find_ok.mp found⟩, dropped, rfl, rfl, rfl, rfl, rfl⟩

/-- A client starts. -/
structure FirstTurn (system next : ChatSystem) (report : Report) (name ip : StdString) (port : UInt16) : Prop where
  report : report = { connId := UInt64.ofNat system.mMaxID, said := [(CRClient.new name).logonFields] }
  next : next = { system.setStation (UInt64.ofNat system.mMaxID)
    (some ⟨ip, port, .new name, false, [], [(CRClient.new name).logonFields], []⟩) with mMaxID := system.mMaxID + 1 }

/-- Whoever's turn it was. -/
theorem step_turns (taken : step system act = .ok (next, report)) :
    (∃ name ip port, FirstTurn system next report name ip port) ∨
    (∃ before after, OwnTurn system next report before after) ∨
    (act = .serves report.connId ∧ ∃ before request keeper up, ServerTurn system next report before request keeper up) ∨
    act = .drops report.connId ∧ ∃ keeper, DropTurn system next report keeper := by
  cases act with
  | connects name ip port =>
    cases taken
    exact .inl ⟨name, ip, port, rfl, rfl⟩
  | types connId line =>
    obtain ⟨before, _, _, _, _, _, _, _, _, _, _, turn⟩ := types_turn taken
    exact .inr (.inl ⟨before, _, turn⟩)
  | minds connId =>
    obtain ⟨before, _, _, after, _, _, _, _, turn⟩ := minds_turn taken
    exact .inr (.inl ⟨before, after, turn⟩)
  | hears connId =>
    obtain ⟨before, _, _, after, _, _, _, _, turn⟩ := hears_turn taken
    exact .inr (.inl ⟨before, after, turn⟩)
  | asks connId request =>
    obtain ⟨before, _, turn⟩ := asks_turn taken
    exact .inr (.inl ⟨before, _, turn⟩)
  | serves connId =>
    obtain ⟨rfl, turn⟩ := serves_turn taken
    exact .inr (.inr (.inl ⟨rfl, turn⟩))
  | drops connId =>
    obtain ⟨rfl, turn⟩ := drops_turn taken
    exact .inr (.inr (.inr ⟨rfl, turn⟩))

/-! ### What holds of every connection -/

/-- A station keeps up with what it has said and heard. -/
structure Flows (connId : UInt64) (reports : List Report) (station : Station) : Prop where
  up : saidBy connId reports = servedOf connId reports ++ station.up
  down : toldTo connId reports = heardBy connId reports ++ station.down

/-- Nothing has been seen of a connection. -/
structure Unseen (connId : UInt64) (reports : List Report) : Prop where
  own : ofConn connId reports = []
  told : toldTo connId reports = []

/-- Only those who are connected are logged on, and what has been seen of a connection
has been seen since it was made. -/
structure Joined (system : ChatSystem) (reports : List Report) : Prop where
  inv : Inv system.keeper
  present : ∀ userId ∈ system.keeper.mIdUser, ∃ station, system.station userId = some station
  young : ∀ connId station, system.station connId = some station → connId.toNat < system.mMaxID
  flows : ∀ connId station, system.station connId = some station → Flows connId reports station
  unseen : ∀ connId : UInt64, system.mMaxID ≤ connId.toNat → Unseen connId reports

theorem joined_new : Joined .new [] where
  inv := inv_new
  present := fun userId inside => by
    obtain ⟨user, known⟩ := mem_users.mp inside
    rw [new, new_has_no_users] at known
    cases known
  young := fun _ _ found => nomatch found
  flows := fun _ _ found => nomatch found
  unseen := fun _ _ => ⟨rfl, rfl⟩

theorem sent_to_others (others : ∀ message ∈ sent, message.connId ≠ connId) : sentTo connId sent = [] := by
  rw [sentTo, List.map_eq_nil_iff, List.filter_eq_nil_iff]
  intro message inside same
  exact others message inside (beq_iff_eq.mp same)

/-- Another connection's turn, in which the server sends nothing. -/
private theorem flows_elsewhere (flows : Flows connId reports station) (other : report.connId ≠ connId)
    (silent : sentTo connId report.sent = []) : Flows connId (reports ++ [report]) station where
  up := by rw [said_snoc, served_snoc, if_neg other, if_neg other, List.append_nil, List.append_nil, flows.up]
  down := by rw [told_snoc, heard_snoc, if_neg other, silent, List.append_nil, List.append_nil, flows.down]

private theorem unseen_elsewhere (unseen : Unseen connId reports) (other : report.connId ≠ connId)
    (silent : sentTo connId report.sent = []) : Unseen connId (reports ++ [report]) where
  own := by rw [of_conn_snoc, if_neg other, unseen.own, List.append_nil]
  told := by rw [told_snoc, silent, unseen.told, List.append_nil]

private theorem joined_own {before after : Station} (joined : Joined system reports)
    (turn : OwnTurn system next report before after) : Joined next (reports ++ [report]) := by
  obtain ⟨found, rfl, up, down, served, sent⟩ := turn
  have silent (connId : UInt64) : sentTo connId report.sent = [] := by rw [sent]; rfl
  have old := joined.flows _ _ found
  refine ⟨joined.inv, fun userId inside => ?_, fun connId station stands => ?_, fun connId station stands => ?_,
    fun connId beyond => ?_⟩
  · obtain ⟨station, stands⟩ := joined.present userId inside
    by_cases own : userId = report.connId
    · exact ⟨after, by rw [station_set, if_pos own]⟩
    · exact ⟨station, by rw [station_set, if_neg own, stands]⟩
  · rw [station_set] at stands
    split at stands
    next own =>
      subst own
      exact joined.young _ _ found
    next => exact joined.young _ _ stands
  · rw [station_set] at stands
    split at stands
    next own =>
      cases stands
      subst own
      constructor
      · rw [said_snoc, served_snoc, if_pos rfl, if_pos rfl, served, List.append_nil, old.up, up, List.append_assoc]
      · rw [told_snoc, heard_snoc, if_pos rfl, silent, List.append_nil, old.down, down, List.append_assoc]
    next other => exact flows_elsewhere (joined.flows _ _ stands) (Ne.symm other) (silent _)
  · have young := joined.young _ _ found
    exact unseen_elsewhere (joined.unseen connId beyond) (fun same => absurd (same ▸ beyond) (Nat.not_le.mpr young))
      (silent _)

/-- The server has sent something, to whoever has asked and to those who are logged on. -/
private theorem joined_sent {before : Station} {put : Option Station} (joined : Joined system reports)
    (found : system.station report.connId = some before) (inv : Inv keeper)
    (users : ∀ userId ∈ keeper.mIdUser, if userId = report.connId then put.isSome else userId ∈ system.keeper.mIdUser)
    (addressed : ∀ message ∈ report.sent, message.connId = report.connId ∨ message.connId ∈ keeper.mIdUser)
    (own : ∀ after, put = some after → Flows report.connId (reports ++ [report])
      { after with down := after.down ++ sentTo report.connId report.sent }) :
    Joined ({ system.setStation report.connId put with keeper }.deliver report.sent) (reports ++ [report]) := by
  have young := joined.young _ _ found
  refine ⟨inv, fun userId inside => ?_, fun connId station stands => ?_, fun connId station stands => ?_,
    fun connId beyond => ?_⟩
  · have known := users userId inside
    simp only [station_deliver, station_set]
    split at known
    next same =>
      obtain ⟨after, there⟩ := Option.isSome_iff_exists.mp known
      exact ⟨_, by rw [if_pos same, there]; rfl⟩
    next other =>
      obtain ⟨station, stands⟩ := joined.present userId known
      exact ⟨_, by rw [if_neg other, stands]; rfl⟩
  · simp only [station_deliver, station_set, Option.map_eq_some_iff] at stands
    obtain ⟨old, stands, _⟩ := stands
    split at stands
    next same =>
      subst same
      exact young
    next => exact joined.young _ _ stands
  · simp only [station_deliver, station_set, Option.map_eq_some_iff] at stands
    obtain ⟨old, stands, rfl⟩ := stands
    split at stands
    next same =>
      subst same
      exact own old stands
    next other =>
      have flows := joined.flows _ _ stands
      constructor
      · rw [said_snoc, served_snoc, if_neg (Ne.symm other), if_neg (Ne.symm other), List.append_nil, List.append_nil,
          flows.up]
      · rw [told_snoc, heard_snoc, if_neg (Ne.symm other), List.append_nil, flows.down, List.append_assoc]
  · refine unseen_elsewhere (joined.unseen connId beyond) (fun same => absurd (same ▸ beyond) (Nat.not_le.mpr young))
      (sent_to_others fun message inside same => ?_)
    -- nobody that the server knows is as young as that
    have other : connId ≠ report.connId := fun same => absurd (same ▸ beyond) (Nat.not_le.mpr young)
    rcases addressed message inside with asked | online
    · exact other (same.symm.trans asked)
    · have known := users _ online
      rw [same, if_neg other] at known
      obtain ⟨station, stands⟩ := joined.present _ known
      exact absurd beyond (Nat.not_le.mpr (joined.young _ _ stands))

private theorem joined_first {name ip : StdString} {port : UInt16} (joined : Joined system reports)
    (turn : FirstTurn system next report name ip port) (few : next.mMaxID ≤ 2 ^ 64) : Joined next (reports ++ [report]) := by
  obtain ⟨rfl, rfl⟩ := turn
  have bound : system.mMaxID < 2 ^ 64 := few
  have number : (UInt64.ofNat system.mMaxID).toNat = system.mMaxID := UInt64.toNat_ofNat_of_lt' bound
  refine ⟨joined.inv, fun userId inside => ?_, fun connId station stands => ?_, fun connId station stands => ?_,
    fun connId beyond => ?_⟩
  · obtain ⟨station, stands⟩ := joined.present userId inside
    have young := joined.young _ _ stands
    refine ⟨station, ?_⟩
    simp only [station_set]
    rw [if_neg (fun same => by rw [same, number] at young; exact Nat.lt_irrefl _ young), stands]
  · simp only [station_set] at stands
    split at stands
    next same => rw [same, number]; exact Nat.lt_succ_self _
    next => exact Nat.lt_succ_of_lt (joined.young _ _ stands)
  · simp only [station_set] at stands
    split at stands
    next same =>
      cases stands
      subst same
      obtain ⟨own, told⟩ := joined.unseen _ (Nat.le_of_eq number.symm)
      constructor
      · rw [said_snoc, served_snoc, if_pos rfl, if_pos rfl]
        simp [saidBy, servedOf, own]
      · rw [told_snoc, heard_snoc, if_pos rfl, told]
        simp [heardBy, own, sentTo]
    next other => exact flows_elsewhere (joined.flows _ _ stands) (Ne.symm other) rfl
  · exact unseen_elsewhere (joined.unseen connId (Nat.le_of_succ_le beyond))
      (fun same => by rw [← same, number] at beyond; exact Nat.lt_irrefl _ beyond) rfl

theorem joined_step (joined : Joined system reports) (taken : step system act = .ok (next, report))
    (few : next.mMaxID ≤ 2 ^ 64) :
    Joined next (reports ++ [report]) := by
  obtain ⟨name, ip, port, turn⟩ | ⟨before, after, turn⟩ | ⟨_, before, request, keeper, up, turn⟩ | ⟨_, keeper, turn⟩ :=
    step_turns taken
  · exact joined_first joined turn few
  · exact joined_own joined turn
  · have served := turn.served
    obtain ⟨values, waiting, took⟩ := turn.waiting
    have flows := joined.flows _ _ turn.found
    rw [turn.next]
    refine joined_sent joined turn.found (WorkerSafety.serve_keeps joined.inv request served) ?_
      (RoomAccess.serve_addressees joined.inv request served) ?_
    · intro userId inside
      split
      · rfl
      next other =>
        rcases WorkerSafety.serve_users joined.inv request served inside with before | ⟨same, _⟩
        · exact before
        · exact absurd same other
    · rintro _ ⟨⟩
      constructor
      · rw [said_snoc, served_snoc, if_pos rfl, if_pos rfl, turn.said, took, List.append_nil, flows.up, waiting]
        simp
      · rw [told_snoc, heard_snoc, if_pos rfl, turn.heard, List.append_nil, flows.down, List.append_assoc]
  · rw [turn.next]
    obtain ⟨before, found⟩ := turn.found
    obtain ⟨again, _, dropped, kept⟩ := WorkerSafety.drop_ok joined.inv report.connId
    cases dropped.symm.trans turn.dropped
    refine joined_sent joined found kept ?_
      (fun message inside => .inr (RoomAccess.drop_addressees joined.inv turn.dropped message inside))
        (fun _ none => nomatch none)
    intro userId inside
    obtain ⟨other, before⟩ := WorkerSafety.drop_users joined.inv turn.dropped inside
    rw [if_neg other]
    exact before

/-! ### Runs -/

theorem keeper_kept (inv : Inv system.keeper) (taken : step system act = .ok (next, report)) : Inv next.keeper := by
  obtain ⟨_, _, _, turn⟩ | ⟨_, _, turn⟩ | ⟨_, _, request, keeper, _, turn⟩ | ⟨_, keeper, turn⟩ := step_turns taken
  · rw [turn.next]
    exact inv
  · rw [turn.next]
    exact inv
  · rw [turn.next]
    exact WorkerSafety.serve_keeps inv request turn.served
  · rw [turn.next]
    obtain ⟨after, sent, dropped, kept⟩ := WorkerSafety.drop_ok inv report.connId
    cases dropped.symm.trans turn.dropped
    exact kept

/-- Connections are counted up. -/
theorem max_grows (taken : step system act = .ok (next, report)) : system.mMaxID ≤ next.mMaxID := by
  obtain ⟨_, _, _, turn⟩ | ⟨_, _, turn⟩ | ⟨_, _, _, _, _, turn⟩ | ⟨_, _, turn⟩ := step_turns taken
  · rw [turn.next]
    exact Nat.le_succ _
  all_goals
    rw [turn.next]
    exact Nat.le_refl _

/-- Before there have been no more connections than behind. -/
theorem max_of_part {first second : List Act} {middle : ChatSystem} {before : List Report}
    (ran : run step .new (first ++ second) = .ok (final, reports)) (ranFirst : run step .new first = .ok (middle, before)) :
    middle.mMaxID ≤ final.mMaxID := by
  obtain ⟨_, _, _, again, goesOn, rfl⟩ := run_append_ok.mp ran
  cases again.symm.trans ranFirst
  exact run_invariant (fun system => middle.mMaxID ≤ system.mMaxID)
    (fun _ _ _ _ more taken => Nat.le_trans more (max_grows taken)) (Nat.le_refl _) goesOn

theorem run_joined {acts : List Act} (ran : run step .new acts = .ok (final, reports)) (few : final.mMaxID ≤ 2 ^ 64) :
    Joined final reports := by
  have joined := run_history_always (fun system seen => system.mMaxID ≤ 2 ^ 64 → Joined system (seen.map Prod.snd))
    (fun _ _ _ _ _ held taken few => by
      rw [List.map_append]
      exact joined_step (held (Nat.le_trans (max_grows taken) few)) taken few)
    (fun _ => joined_new) ran few
  rwa [List.map_snd_zip (run_length ran).le] at joined

/-- What a client's own turns keep, of what it has heard and shown, of the client, and of
what it has posted to itself. -/
structure ClientRule (Holds : List Report → CRClient → List (List Field) → Prop) : Prop where
  starts : ∀ name report, report.heard = [] → report.shown = [] → Holds [report] (.new name) []
  idles : ∀ own report client posted, report.heard = [] → report.shown = [] → Holds own client posted →
    Holds (own ++ [report]) client posted
  types : ∀ own report client next line effects posted more, ClientInput.Caused client next line effects →
    (∀ message ∈ more, .post (some message) ∈ effects) → report.heard = [] → report.shown = displaysOf effects →
    Holds own client posted → Holds (own ++ [report]) next (posted ++ more)
  minds : ∀ own report client (known : ClientReading.Message) message posted, known.fields <+: message → report.heard = [] →
    report.shown = (ClientReading.answer client known).2 → Holds own client (message :: posted) →
    Holds (own ++ [report]) (ClientReading.answer client known).1 posted
  hears : ∀ own report client (known : ClientReading.Message) message posted, known.fields <+: message →
    report.heard = [message] →
    report.shown = (ClientReading.answer client known).2 → Holds own client posted →
    Holds (own ++ [report]) (ClientReading.answer client known).1 posted

variable {Holds : List Report → CRClient → List (List Field) → Prop}

/-- The same of every station. -/
def OfStations (Holds : List Report → CRClient → List (List Field) → Prop) (system : ChatSystem)
    (reports : List Report) : Prop :=
  ∀ connId station, system.station connId = some station → Holds (ofConn connId reports) station.client station.posted

private theorem of_stations_own {before after : Station} (held : OfStations Holds system reports)
    (turn : OwnTurn system next report before after)
    (own : Holds (ofConn report.connId reports) before.client before.posted →
      Holds (ofConn report.connId reports ++ [report]) after.client after.posted) :
    OfStations Holds next (reports ++ [report]) := by
  intro connId station stands
  rw [turn.next, station_set] at stands
  rw [of_conn_snoc]
  split at stands
  next here =>
    cases stands
    subst here
    rw [if_pos rfl]
    exact own (held _ _ turn.found)
  next other =>
    rw [if_neg (Ne.symm other), List.append_nil]
    exact held _ _ stands

/-- The server's turns bring a client nothing but messages on their way. -/
private theorem of_stations_sent {put : Option Station} (rule : ClientRule Holds) (held : OfStations Holds system reports)
    (heard : report.heard = []) (shown : report.shown = [])
    (old : ∀ after ∈ put, ∃ before, system.station report.connId = some before ∧ after.client = before.client ∧
      after.posted = before.posted) :
    OfStations Holds ({ system.setStation report.connId put with keeper }.deliver sent) (reports ++ [report]) := by
  intro connId station stands
  simp only [station_deliver, station_set, Option.map_eq_some_iff] at stands
  obtain ⟨after, stands, rfl⟩ := stands
  rw [of_conn_snoc]
  split at stands
  next here =>
    obtain ⟨before, found, client, posted⟩ := old after stands
    subst here
    rw [if_pos rfl]
    dsimp only
    rw [client, posted]
    exact rule.idles _ report _ _ heard shown (held _ _ found)
  next other =>
    have kept := held _ _ stands
    rwa [if_neg (Ne.symm other), List.append_nil]

theorem of_stations_step (rule : ClientRule Holds) (joined : Joined system reports) (held : OfStations Holds system reports)
    (taken : step system act = .ok (next, report)) (few : next.mMaxID ≤ 2 ^ 64) :
    OfStations Holds next (reports ++ [report]) := by
  cases act with
  | connects name ip port =>
    cases taken
    have number : (UInt64.ofNat system.mMaxID).toNat = system.mMaxID := UInt64.toNat_ofNat_of_lt' few
    intro connId station stands
    simp only [station_set] at stands
    rw [of_conn_snoc]
    split at stands
    next here =>
      cases stands
      rw [(joined.unseen connId (by rw [here, number])).own, if_pos here.symm, List.nil_append]
      exact rule.starts name _ rfl rfl
    next other =>
      rw [if_neg (Ne.symm other), List.append_nil]
      exact held _ _ stands
  | types connId line =>
    obtain ⟨before, client, effects, posted, said, _, _, handled, posts, _, rfl, turn⟩ := types_turn taken
    exact of_stations_own held turn fun own =>
      rule.types _ _ _ _ line effects _ _ (ClientInput.line_causes handled)
        (fun _ inside => posts_caused posts inside) rfl rfl own
  | minds connId =>
    obtain ⟨before, message, posted, after, effects, waiting, took, rfl, turn⟩ := minds_turn taken
    obtain ⟨_, known, front, rfl, rfl⟩ := takes_ok took
    refine of_stations_own held turn fun own => rule.minds _ _ _ known message posted front rfl rfl ?_
    rwa [waiting] at own
  | hears connId =>
    obtain ⟨before, message, down, after, effects, _, took, rfl, turn⟩ := hears_turn taken
    obtain ⟨_, known, front, rfl, rfl⟩ := takes_ok took
    exact of_stations_own held turn fun own => rule.hears _ _ _ known message _ front rfl rfl own
  | asks connId request =>
    obtain ⟨before, rfl, turn⟩ := asks_turn taken
    exact of_stations_own held turn fun own => rule.idles _ _ _ _ rfl rfl own
  | serves connId =>
    obtain ⟨_, before, _, keeper, up, turn⟩ := serves_turn taken
    rw [turn.next]
    refine of_stations_sent rule held turn.heard turn.shown fun after put => ?_
    cases put
    exact ⟨before, turn.found, rfl, rfl⟩
  | drops connId =>
    obtain ⟨_, keeper, turn⟩ := drops_turn taken
    rw [turn.next]
    exact of_stations_sent rule held turn.heard turn.shown fun _ none => nomatch none

theorem run_clients {acts : List Act} (rule : ClientRule Holds) (ran : run step .new acts = .ok (final, reports))
    (few : final.mMaxID ≤ 2 ^ 64) : OfStations Holds final reports := by
  have held := run_history_always
    (fun system seen => system.mMaxID ≤ 2 ^ 64 → Joined system (seen.map Prod.snd) ∧
      OfStations Holds system (seen.map Prod.snd))
    (fun _ _ _ _ _ held taken few => by
      obtain ⟨joined, held⟩ := held (Nat.le_trans (max_grows taken) few)
      rw [List.map_append]
      exact ⟨joined_step joined taken few, of_stations_step rule joined held taken few⟩)
    (fun _ => ⟨joined_new, fun _ _ none => nomatch none⟩) ran few
  rw [List.map_snd_zip (run_length ran).le] at held
  exact held.2

/-- Who has been there and is gone. -/
def Gone (connId : UInt64) (system : ChatSystem) : Prop := system.station connId = none ∧ connId.toNat < system.mMaxID

theorem gone_step (gone : Gone connId system) (taken : step system act = .ok (next, report)) (few : next.mMaxID ≤ 2 ^ 64) :
    Gone connId next := by
  refine ⟨?_, Nat.lt_of_lt_of_le gone.2 (max_grows taken)⟩
  obtain ⟨away, young⟩ := gone
  have other {before : Station} (found : system.station report.connId = some before) : connId ≠ report.connId := by
    rintro rfl
    rw [away] at found
    cases found
  obtain ⟨_, _, _, turn⟩ | ⟨_, _, turn⟩ | ⟨_, _, _, _, _, turn⟩ | ⟨_, _, turn⟩ := step_turns taken
  · rw [turn.next] at few ⊢
    have number : (UInt64.ofNat system.mMaxID).toNat = system.mMaxID := UInt64.toNat_ofNat_of_lt' few
    simp only [station_set]
    rw [if_neg (fun same => by rw [same, number] at young; exact Nat.lt_irrefl _ young), away]
  · rw [turn.next, station_set, if_neg (other turn.found), away]
  · rw [turn.next, station_deliver]
    simp only [station_set]
    rw [if_neg (other turn.found), away, Option.map_none]
  · obtain ⟨_, found⟩ := turn.found
    rw [turn.next, station_deliver]
    simp only [station_set]
    rw [if_neg (other found), away, Option.map_none]

/-- Whoever is connected has not been dropped: ids are not used again. -/
theorem never_dropped {acts : List Act} (ran : run step .new acts = .ok (final, reports)) (few : final.mMaxID ≤ 2 ^ 64)
    (stands : final.station connId = some station) : ∀ act ∈ acts, act ≠ .drops connId := by
  rintro _ inside rfl
  obtain ⟨first, second, rfl⟩ := List.append_of_mem inside
  obtain ⟨middle, before, _, ranFirst, rest, rfl⟩ := run_append_ok.mp ran
  obtain ⟨next, report, after, taken, later, rfl⟩ := run_cons_ok.mp rest
  have start : next.mMaxID ≤ 2 ^ 64 → Gone connId next := by
    intro bound
    obtain ⟨rfl, keeper, turn⟩ := drops_turn taken
    obtain ⟨_, found⟩ := turn.found
    have joined := run_joined ranFirst (Nat.le_trans (max_grows taken) bound)
    refine ⟨?_, Nat.lt_of_lt_of_le (joined.young _ _ found) (max_grows taken)⟩
    rw [turn.next, station_deliver]
    simp only [station_set, if_true, Option.map_none]
  have stays := run_invariant (fun system => system.mMaxID ≤ 2 ^ 64 → Gone connId system)
    (fun _ _ _ _ held taken bound => gone_step (held (Nat.le_trans (max_grows taken) bound)) taken bound) start later
  rw [(stays few).1] at stands
  cases stands

end ChatRoom.SystemFlow
