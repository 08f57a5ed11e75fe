import ChatRoom.RoomPicture

/-! What is said in the whole program is one conversation. The order in which the server
takes chat messages makes a log, and everybody's window shows its own part of it: what was
posted to the room that its user was in then, in the order of the log, each line
once, and nothing else. -/
namespace ChatRoom.ChatLog
open Lib Wire ChatSystem RoomKeeperInvariant SystemFlow RoomPicture

variable {system next final : ChatSystem} {act : Act} {report : Report} {reports : List Report} {connId userId : UInt64}
  {station : Station} {keeper after : RoomKeeper} {sent : List Sent}

/-- Something said in a room, by whom, and to whom. -/
structure Posting where
  author : UInt64
  name : StdString
  roomId : UInt32
  words : StdString
  audience : List UInt64

/-! ### Chat among other messages -/

/-- What a message asks to be said, and where. -/
def chatOf : List Field → Option (UInt32 × StdString)
  | type :: .u32 roomId :: .str words :: _ => if type = MsgType.c2sPublishChatMsg.field then some (roomId, words) else none
  | _ => none

/-- Who has said what, as a message tells it. -/
def lineOf : List Field → Option (StdString × StdString)
  | type :: .str fromName :: .str words :: _ => if type = MsgType.s2cRoomChatMsg.field then some (fromName, words) else none
  | _ => none

def chatsIn (messages : List (List Field)) : List (UInt32 × StdString) := messages.filterMap chatOf

def linesIn (messages : List (List Field)) : List (StdString × StdString) := messages.filterMap lineOf

/-- The lines that a window shows, and whether they look like its user's own. -/
def receivedIn (effects : List Effect) : List (StdString × StdString × Bool) :=
  effects.filterMap fun
    | .receive fromName words isSelf => some (fromName, words, isSelf)
    | .display _ => none
    | .userList _ => none
    | .send _ => none
    | .exit _ => none

def Posting.asked (posting : Posting) (connId : UInt64) : Option (UInt32 × StdString) :=
  if posting.author = connId then some (posting.roomId, posting.words) else none

def Posting.shown (posting : Posting) (connId : UInt64) : Option (StdString × StdString) :=
  if connId ∈ posting.audience then some (posting.name, posting.words) else none

/-- The server takes a chat message of a user who is logged on, and passes it on to
everybody in the room that it names. -/
structure Posts (posting : Posting) (system : ChatSystem) (act : Act) : Prop where
  turn : act = .serves posting.author
  message : ∃ station message up, system.station posting.author = some station ∧ station.up = message :: up ∧
    chatOf message = some (posting.roomId, posting.words)
  author : ∃ user, system.keeper.mIdUser[posting.author]? = some user ∧ user.mName = posting.name
  audience : ∃ room, system.keeper.mIdRoom[posting.roomId]? = some room ∧ posting.audience = room.getAllUsers

/-! ### One message -/

theorem chat_of_other {type : Field} (other : type ≠ MsgType.c2sPublishChatMsg.field) (rest : List Field) :
    chatOf (type :: rest) = none := by
  unfold chatOf
  split
  next same =>
    cases same
    exact if_neg other
  · rfl

theorem line_of_other {type : Field} (other : type ≠ MsgType.s2cRoomChatMsg.field) (rest : List Field) :
    lineOf (type :: rest) = none := by
  unfold lineOf
  split
  next same =>
    cases same
    exact if_neg other
  · rfl

theorem chat_of_request (request : Worker.Request) (rest : List Field) :
    chatOf (request.fields ++ rest) = match request with
      | .chat roomId words => some (roomId, words)
      | _ => none := by
  cases request with
  | chat roomId words => rfl
  | other code unknown =>
    apply chat_of_other
    rintro ⟨⟩
    exact unknown (by decide)
  | logon name => exact chat_of_other (by decide) _
  | createRoom roomName passwd => exact chat_of_other (by decide) _
  | joinRoom roomName passwd => exact chat_of_other (by decide) _
  | whisper toName words => exact chat_of_other (by decide) _

private theorem aside_is_no_line {fields : List Field} (aside : Aside fields) : lineOf fields = none := by
  cases fields with
  | nil => rfl
  | cons type rest =>
    apply line_of_other
    rintro rfl
    exact @aside_other _ .s2cRoomChatMsg aside (by decide) rfl

private theorem no_lines (others : ∀ message ∈ sent, lineOf message.fields = none) (userId : UInt64) :
    linesIn (sentTo userId sent) = [] := by
  rw [linesIn, List.filterMap_eq_nil_iff]
  intro fields inside
  obtain ⟨message, within, rfl⟩ := List.mem_map.mp inside
  exact others message (List.mem_of_mem_filter within)

private theorem info_is_no_line {request : RoomKeeper.Request} {outcome : Outcome} (inv : Inv keeper)
    (performed : keeper.perform request = .ok outcome) : ∀ message ∈ outcome.sent, lineOf message.fields = none := by
  intro message inside
  obtain ⟨_, room, _, _, info⟩ := RoomAccess.sent_to_members inv performed message inside
  rw [info]
  exact line_of_other (by decide) _

private theorem chat_of_quiet {request : Worker.Request} (other : ∀ roomId words, request ≠ .chat roomId words)
    (rest : List Field) :
    chatOf (request.fields ++ rest) = none := by
  rw [chat_of_request]
  split
  next roomId words => exact absurd rfl (other roomId words)
  next => rfl

/-- What a request has posted. -/
theorem serve_posts {request : Worker.Request} {rest : List Field} {up : List (List Field)} (inv : Inv system.keeper)
    (found : system.station connId = some station) (waiting : station.up = (request.fields ++ rest) :: up)
    (served : Worker.serve station.ip station.port connId request system.keeper = .ok (after, sent)) :
    ∃ posts : List Posting, (∀ posting ∈ posts, Posts posting system (.serves connId)) ∧
      (∀ author, chatsIn (if connId = author then [request.fields ++ rest] else []) = posts.filterMap (·.asked author)) ∧
      ∀ userId, linesIn (sentTo userId sent) = posts.filterMap (·.shown userId) := by
  obtain ⟨asked, outcome, replies, performed, _, rfl, rfl, asides, other⟩ |
      ⟨roomId, words, user, room, rfl, known, stored, rfl, rfl⟩ |
    ⟨rfl, asides, other⟩ := serve_cases inv served
  · have none : chatOf (request.fields ++ rest) = none := chat_of_quiet other rest
    refine ⟨[], (fun _ none => nomatch none), fun author => ?_, fun userId => ?_⟩
    · split <;> simp [chatsIn, none]
    · rw [sent_to_append, linesIn, List.filterMap_append, ← linesIn, ← linesIn, no_lines (info_is_no_line inv performed),
        no_lines fun message inside => aside_is_no_line (asides message inside)]
      rfl
  · refine ⟨[⟨connId, user.mName, roomId, words, room.getAllUsers⟩], ?_, fun author => ?_, fun userId => ?_⟩
    · intro posting inside
      rw [List.mem_singleton.mp inside]
      exact ⟨rfl, ⟨station, _, up, found, waiting, chat_of_request _ rest⟩, ⟨user, known, rfl⟩, ⟨room, stored, rfl⟩⟩
    · by_cases own : connId = author
      · simp [own, Posting.asked, chatsIn, chat_of_request]
      · simp [own, Posting.asked, chatsIn]
    · rw [sent_to_each]
      by_cases inside : userId ∈ room.mUsers
      · simp [inside, Posting.shown, linesIn, lineOf, RoomKeeper.chatFields]
      · simp [inside, Posting.shown, linesIn]
  · have none : chatOf (request.fields ++ rest) = none := chat_of_quiet other rest
    refine ⟨[], (fun _ none => nomatch none), fun author => ?_, fun userId => ?_⟩
    · split <;> simp [chatsIn, none]
    · rw [no_lines fun message inside => aside_is_no_line (asides message inside)]
      rfl

/-! ### The log -/

/-- What a turn has brought in is what was posted in it, for everybody. -/
structure Credits (report : Report) (posts : List Posting) : Prop where
  asked : ∀ author, chatsIn (if report.connId = author then report.served else []) = posts.filterMap (·.asked author)
  shown : ∀ userId, linesIn (sentTo userId report.sent) = posts.filterMap (·.shown userId)

private theorem credits_nothing
    (served : report.served = []) (quiet : ∀ message ∈ report.sent, lineOf message.fields = none) :
    Credits report [] where
  asked := fun author => by rw [served, ite_self]; rfl
  shown := fun userId => no_lines quiet userId

theorem step_posts (inv : Inv system.keeper) (taken : step system act = .ok (next, report)) :
    ∃ posts : List Posting, (∀ posting ∈ posts, Posts posting system act) ∧ Credits report posts := by
  have nothing (credits : Credits report []) :
      ∃ posts : List Posting, (∀ posting ∈ posts, Posts posting system act) ∧ Credits report posts :=
    ⟨[], (fun _ none => nomatch none), credits⟩
  obtain ⟨_, _, _, turn⟩ | ⟨_, _, turn⟩ | ⟨rfl, before, request, keeper, up, turn⟩ | ⟨_, keeper, turn⟩ := step_turns taken
  · exact nothing (credits_nothing (by rw [turn.report]) (by rw [turn.report]; exact fun _ none => nomatch none))
  · exact nothing (credits_nothing turn.served (by rw [turn.sent]; exact fun _ none => nomatch none))
  · obtain ⟨rest, waiting, took⟩ := turn.waiting
    obtain ⟨posts, posted, asked, shown⟩ := serve_posts inv turn.found waiting turn.served
    exact ⟨posts, posted, fun author => by rw [took, asked], shown⟩
  · obtain ⟨outcome, done, same⟩ := bind_ok.mp turn.dropped
    have performed : system.keeper.perform (.drop report.connId) = .ok outcome := done
    obtain ⟨_, sent⟩ := Prod.mk.inj (Except.ok.inj same)
    exact nothing (credits_nothing turn.served (by rw [← sent]; exact info_is_no_line inv performed))

theorem chats_served (connId : UInt64) (reports : List Report) :
    chatsIn (servedOf connId reports) = reports.flatMap fun report =>
      chatsIn (if report.connId = connId then report.served else []) := by
  induction reports with
  | nil => rfl
  | cons report reports ih =>
    rw [List.flatMap_cons, ← ih]
    by_cases own : report.connId = connId
    · simp [servedOf, ofConn, own, chatsIn]
    · simp [servedOf, ofConn, own, chatsIn]

theorem lines_told (connId : UInt64) (reports : List Report) :
    linesIn (toldTo connId reports) = reports.flatMap fun report => linesIn (sentTo connId report.sent) := by
  rw [linesIn, toldTo, List.filterMap_flatMap]
  rfl

/-! ### The windows -/

/-- A line, as a client shows it. -/
def shownBy (client : CRClient) (line : StdString × StdString) : StdString × StdString × Bool :=
  (line.1, line.2, line.1 == client.mUserName)

/-- A client shows the lines that it has heard, and no others. -/
structure Shows (own : List Report) (client : CRClient) (posted : List (List Field)) : Prop where
  lines : receivedIn (own.flatMap Report.shown) = (linesIn (own.flatMap Report.heard)).map (shownBy client)
  quiet : ∀ message ∈ posted, lineOf message = none

private theorem own_is_no_line {message : List Field} (own : ClientInput.OwnMessage message) : lineOf message = none := by
  obtain rfl | rfl | ⟨target, words, rfl⟩ := own <;> exact line_of_other (by decide) _

private theorem shows_nothing {client : CRClient} {effects : List Effect} {message : List Field}
    (quiet : lineOf message = none)
    (silent : receivedIn effects = []) : receivedIn effects = (linesIn [message]).map (shownBy client) := by
  rw [silent, linesIn, List.filterMap_cons_none quiet]
  rfl

/-- A client shows a message of the room as what it says. -/
private theorem answer_shows {client : CRClient} {said : ClientReading.Message} {message : List Field}
    (front : said.fields <+: message) :
    receivedIn (ClientReading.answer client said).2 = (linesIn [message]).map (shownBy client) ∧
      (ClientReading.answer client said).1.mUserName = client.mUserName := by
  obtain ⟨rest, rfl⟩ := front
  cases said with
  | roomChat fromName words => exact ⟨rfl, rfl⟩
  | bare code silent =>
    have other : lineOf ((ClientReading.Message.bare code silent).fields ++ rest) = none := by
      apply line_of_other
      rintro ⟨⟩
      exact silent (by decide)
    refine ⟨shows_nothing other ?_, ?_⟩
    · simp only [ClientReading.answer]
      split
      · simp [CRClient.showRoomList, receivedIn]
      · unfold CRClient.handleLeaveRoom
        split <;> rfl
      · rfl
    · simp only [ClientReading.answer]
      split
      · rfl
      · unfold CRClient.handleLeaveRoom
        split <;> rfl
      · rfl
  | _ => exact ⟨shows_nothing (line_of_other (by decide) _) rfl, rfl⟩

private theorem displays_receive_nothing (effects : List InputEffect) : receivedIn (displaysOf effects) = [] := by
  rw [receivedIn, List.filterMap_eq_nil_iff]
  intro effect inside
  obtain ⟨cause, _, same⟩ := List.mem_filterMap.mp inside
  cases cause with
  | display info =>
    cases same
    rfl
  | post => cases same
  | send => cases same

/-- One turn more, by what is heard and shown in it. -/
private theorem shows_snoc {own : List Report} {client other : CRClient} {posted waiting : List (List Field)}
    (shows : Shows own client posted) (name : other.mUserName = client.mUserName)
    (lines : receivedIn report.shown = (linesIn report.heard).map (shownBy client))
    (quiet : ∀ message ∈ waiting, lineOf message = none) :
    Shows (own ++ [report]) other waiting where
  lines := by
    have same : shownBy other = shownBy client := by
      unfold shownBy
      rw [name]
    rw [same, List.flatMap_append, List.flatMap_append, receivedIn, linesIn, List.filterMap_append, List.filterMap_append,
      List.map_append,
      List.flatMap_singleton, List.flatMap_singleton, ← receivedIn, ← receivedIn, ← linesIn, ← linesIn, shows.lines, lines]
  quiet := quiet

theorem shows_rule : ClientRule Shows where
  starts := fun name report heard shown =>
    ⟨by rw [List.flatMap_singleton, List.flatMap_singleton, heard, shown]; rfl, (fun _ none => nomatch none)⟩
  idles := fun own report client posted heard shown shows =>
    shows_snoc shows rfl (by rw [heard, shown]; rfl) shows.quiet
  types := fun own report client next line effects posted more caused posts heard shown shows => by
    obtain ⟨running, rfl⟩ := caused.same
    refine shows_snoc shows rfl ?_ fun message inside => ?_
    · rw [heard, shown, displays_receive_nothing]
      rfl
    · rcases List.mem_append.mp inside with old | new
      · exact shows.quiet message old
      · exact own_is_no_line (caused.posts message (posts message new))
  minds := fun own report client known message posted front heard shown shows => by
    have quiet := shows.quiet message List.mem_cons_self
    obtain ⟨lines, name⟩ := answer_shows front
    refine shows_snoc shows name ?_ fun other inside => shows.quiet other (List.mem_cons_of_mem _ inside)
    rw [heard, shown, lines, linesIn, List.filterMap_cons_none quiet]
    rfl
  hears := fun own report client known message posted front heard shown shows => by
    obtain ⟨lines, name⟩ := answer_shows front
    exact shows_snoc shows name (by rw [heard, shown, lines]) shows.quiet

/-! ### Whole runs -/

/-- What has been shown in a connection's window. -/
def windowOf (connId : UInt64) (reports : List Report) : List (StdString × StdString × Bool) :=
  receivedIn ((ofConn connId reports).flatMap Report.shown)

/-- What is said is one conversation. There is a log of what was posted, each entry at a
moment when its author was logged on under the name, and the audience was who was in the
room. What the server has taken from a connection is what the log has of it; what is on
its way there was said later. And what a connected client has shown, and then what is on its
way to it, is what the log has posted to it, in the order of the log. -/
theorem one_conversation {acts : List Act} (ran : run step .new acts = .ok (final, reports)) (few : final.mMaxID ≤ 2 ^ 64) :
    ∃ log : List Posting, (∀ posting ∈ log, Happened step .new acts (Posts posting)) ∧
      (∀ connId, chatsIn (servedOf connId reports) = log.filterMap (·.asked connId)) ∧
      ∀ connId station, final.station connId = some station →
        chatsIn (saidBy connId reports) = log.filterMap (·.asked connId) ++ chatsIn station.up ∧
        ∃ lines, windowOf connId reports = lines.map (shownBy station.client) ∧
          lines ++ linesIn station.down = log.filterMap (·.shown connId) := by
  have every : EveryStep step (fun system act => ∀ next report, step system act = .ok (next, report) →
      ∃ posts, (∀ posting ∈ posts, Posts posting system act) ∧ Credits report posts) .new acts :=
    every_step_of_invariant (fun system => Inv system.keeper) (fun _ _ _ _ inv _ taken => keeper_kept inv taken)
      (fun _ _ inv _ next report taken => step_posts inv taken) inv_new (every_step_of_all fun _ _ => trivial)
  obtain ⟨logs, credits, happened⟩ := run_log every ran
  have asked (connId : UInt64) : chatsIn (servedOf connId reports) = logs.flatten.filterMap (·.asked connId) := by
    rw [chats_served]
    exact read_off_log _ _ (credits.imp fun _ _ credit => credit.asked connId)
  have told (connId : UInt64) : linesIn (toldTo connId reports) = logs.flatten.filterMap (·.shown connId) := by
    rw [lines_told]
    exact read_off_log _ _ (credits.imp fun _ _ credit => credit.shown connId)
  refine ⟨logs.flatten, happened, asked, fun connId station stands => ?_⟩
  have flows := (run_joined ran few).flows _ _ stands
  refine ⟨?_, linesIn (heardBy connId reports), (run_clients shows_rule ran few _ _ stands).lines, ?_⟩
  · rw [flows.up, chatsIn, List.filterMap_append, ← chatsIn, asked]
    rfl
  · rw [← told, flows.down, linesIn, linesIn, linesIn, List.filterMap_append]

/-- Ann and Bob talk in the hall. -/
private def hallTalk : List Act :=
  [.connects (.ascii "ann") (.ascii "h") 1, .serves 0, .hears 0, .connects (.ascii "bob") (.ascii "g") 2, .serves 1,
    .hears 1,
    .types 1 (.ascii "hi"), .types 0 (.ascii "ho"), .serves 0, .serves 1, .hears 0, .hears 0, .hears 0, .hears 0, .hears 0]

theorem ann_and_bob_talk :
    ∃ final reports, run step .new hallTalk = .ok (final, reports) ∧ final.mMaxID ≤ 2 ^ 64 ∧
      ∃ log : List Posting, (∀ posting ∈ log, Happened step .new hallTalk (Posts posting)) ∧
        chatsIn (servedOf 1 reports) = log.filterMap (·.asked 1) := by
  have goes : (run step .new hallTalk).toOption.map (fun reply => (reply.1.mMaxID, windowOf 0 reply.2)) =
      some (2, [(.ascii "ann", .ascii "ho", true), (.ascii "bob", .ascii "hi", false)]) := by
    decide +kernel
  obtain ⟨⟨final, reports⟩, ran, shape⟩ := Option.map_eq_some_iff.mp goes
  have done := ok_of_option ran
  have few : final.mMaxID ≤ 2 ^ 64 := by
    obtain ⟨count, _⟩ := Prod.mk.inj shape
    simp only at count
    omega
  obtain ⟨log, happened, asked, _⟩ := one_conversation done few
  exact ⟨final, reports, done, few, log, happened, asked 1⟩

/-! ### Where the lines come from -/

/-- A line is typed into a window that shows this room. -/
structure Typed (connId : UInt64) (entry : UInt32 × CString) (system : ChatSystem) (act : Act) : Prop where
  turn : act = .types connId entry.2
  window : ∃ station, system.station connId = some station ∧ station.client.mCurrentRoom.mID = entry.1

/-- The chat that typed lines become. -/
def chatOfTyped (entry : UInt32 × CString) : Option (UInt32 × StdString) := some (entry.1, entry.2.string)

/-- No message that a client takes makes it chat. -/
private theorem answer_says_no_chat (client : CRClient) (known : ClientReading.Message) :
    chatsIn (saidIn (ClientReading.answer client known).2) = [] := by
  cases known with
  | bare code silent =>
    simp only [ClientReading.answer]
    split
    · simp [CRClient.showRoomList, saidIn, chatsIn]
    · unfold CRClient.handleLeaveRoom
      split <;> rfl
    · rfl
  | _ => rfl

private theorem request_is_no_chat {message : List Field} (asks : ClientInput.RoomRequest message) :
    chatOf message = none := by
  obtain ⟨name, passwd, rfl | rfl⟩ := asks <;> exact chat_of_other (by decide) _

/-- What a connection asks to be said was typed there, unless something else than the
client asks. -/
theorem said_was_typed (taken : step system act = .ok (next, report)) (honest : ∀ request, act ≠ .asks connId request) :
    ∃ typed : List (UInt32 × CString), (∀ entry ∈ typed, Typed connId entry system act) ∧
      chatsIn (if report.connId = connId then report.said else []) = typed.filterMap chatOfTyped := by
  have nothing (silent : report.connId = connId → chatsIn report.said = []) :
      ∃ typed : List (UInt32 × CString), (∀ entry ∈ typed, Typed connId entry system act) ∧
        chatsIn (if report.connId = connId then report.said else []) = typed.filterMap chatOfTyped := by
    refine ⟨[], (fun _ none => nomatch none), ?_⟩
    split
    next own => exact silent own
    next => rfl
  cases act with
  | connects name ip port =>
    cases taken
    exact nothing fun _ => rfl
  | types typist line =>
    obtain ⟨before, client, effects, posted, said, _, _, handled, _, sends, rfl, turn⟩ := types_turn taken
    by_cases own : typist = connId
    · subst own
      have caused := ClientInput.line_causes handled
      have each : ∀ message ∈ said, chatOf message = none ∨
          chatOf message = some (before.client.mCurrentRoom.mID, line.string) := by
        intro message inside
        rcases caused.sends message (sends_caused sends inside) with asks | rfl
        · exact .inl (request_is_no_chat asks)
        · exact .inr rfl
      have same : ∀ chat ∈ chatsIn said, chat = (before.client.mCurrentRoom.mID, line.string) := by
        intro chat inside
        obtain ⟨message, within, tells⟩ := List.mem_filterMap.mp inside
        rcases each message within with none | this
        · rw [none] at tells
          cases tells
        · rw [this] at tells
          exact (Option.some.inj tells).symm
      refine ⟨List.replicate (chatsIn said).length (before.client.mCurrentRoom.mID, line), fun entry inside => ?_, ?_⟩
      · rw [List.eq_of_mem_replicate inside]
        exact ⟨rfl, before, turn.found, rfl⟩
      · have chat : chatOfTyped (before.client.mCurrentRoom.mID, line) =
            some (before.client.mCurrentRoom.mID, line.string) := rfl
        rw [if_pos rfl, List.filterMap_replicate_of_some chat]
        exact List.eq_replicate_of_mem same
    · exact nothing fun same => absurd same own
  | minds connId =>
    obtain ⟨before, message, posted, after, effects, _, took, rfl, turn⟩ := minds_turn taken
    obtain ⟨_, known, _, rfl, _⟩ := takes_ok took
    exact nothing fun _ => answer_says_no_chat _ known
  | hears connId =>
    obtain ⟨before, message, down, after, effects, _, took, rfl, turn⟩ := hears_turn taken
    obtain ⟨_, known, _, rfl, _⟩ := takes_ok took
    exact nothing fun _ => answer_says_no_chat _ known
  | asks asker request =>
    obtain ⟨before, rfl, turn⟩ := asks_turn taken
    exact nothing fun same => absurd rfl (same ▸ honest request)
  | serves connId =>
    obtain ⟨_, _, _, _, _, turn⟩ := serves_turn taken
    exact nothing fun _ => by rw [turn.said]; rfl
  | drops connId =>
    obtain ⟨_, _, turn⟩ := drops_turn taken
    exact nothing fun _ => by rw [turn.said]; rfl

theorem chats_said (connId : UInt64) (reports : List Report) :
    chatsIn (saidBy connId reports) = reports.flatMap fun report =>
      chatsIn (if report.connId = connId then report.said else []) := by
  induction reports with
  | nil => rfl
  | cons report reports ih =>
    rw [List.flatMap_cons, ← ih]
    by_cases own : report.connId = connId
    · simp [saidBy, ofConn, own, chatsIn]
    · simp [saidBy, ofConn, own, chatsIn]

/-- A client that shows a room shows one that its user has been in. -/
private theorem shown_room {client : CRClient} (shows : ShowsRoom connId keeper client) :
    client.mCurrentRoom.mID = INVALID_ROOM_ID ∨ ∃ user, keeper.mIdUser[connId]? = some user ∧
      user.mRoomId = client.mCurrentRoom.mID := by
  unfold ShowsRoom at shows
  split at shows
  next => exact .inl (by rw [shows.1]; rfl)
  next user known =>
    obtain ⟨room, _, id, _⟩ := shows
    exact .inr ⟨user, known, id.symm⟩

/-- Whatever the server posts in a user's name was typed by the user, word by word, as
long as nothing but the client speaks on its connection; and it is posted to the room
that the window showed at that time, which the user was in at an earlier moment, if the
window showed a room at all. -/
theorem postings_were_typed {acts : List Act} (ran : run step .new acts = .ok (final, reports)) (few : final.mMaxID < 2 ^ 32)
    {posting : Posting} (posted : Happened step .new acts (Posts posting))
    (honest : ∀ request, .asks posting.author request ∉ acts) :
    ∃ line : CString, line.string = posting.words ∧ ∃ first second middle before,
      acts = first ++ .types posting.author line :: second ∧
      run step .new first = .ok (middle, before) ∧
      (∃ station, middle.station posting.author = some station ∧ station.client.mCurrentRoom.mID = posting.roomId) ∧
      (posting.roomId = INVALID_ROOM_ID ∨ ∃ earlier later state seen, first = earlier ++ later ∧
        run step .new earlier = .ok (state, seen) ∧ ∃ user, state.keeper.mIdUser[posting.author]? = some user ∧
          user.mRoomId = posting.roomId) := by
  obtain ⟨toPosting, act, rest, atPosting, seen, rfl, ranThen, posts⟩ := posted
  have fewThen : atPosting.mMaxID < 2 ^ 32 := Nat.lt_of_le_of_lt (max_of_part ran ranThen) few
  -- what is posted had been said
  obtain ⟨station, message, up, stands, waiting, chat⟩ := posts.message
  have flows := (run_joined ranThen (by omega)).flows _ _ stands
  have said : (posting.roomId, posting.words) ∈ chatsIn (saidBy posting.author seen) := by
    refine List.mem_filterMap.mpr ⟨message, ?_, chat⟩
    rw [flows.up, waiting]
    exact List.mem_append_right _ List.mem_cons_self
  -- what had been said had been typed
  have every : EveryStep step (fun system act => ∀ next report, step system act = .ok (next, report) →
      ∃ typed : List (UInt32 × CString), (∀ entry ∈ typed, Typed posting.author entry system act) ∧
        chatsIn (if report.connId = posting.author then report.said else []) = typed.filterMap chatOfTyped) .new toPosting :=
    every_step_mono (fun _ _ honest _ _ taken => said_was_typed taken honest)
      (every_step_of_mem fun act inside request same => honest request (same ▸ List.mem_append_left _ inside))
  obtain ⟨typed, credits, happened⟩ := run_log every ranThen
  rw [chats_said, read_off_log _ chatOfTyped credits] at said
  obtain ⟨⟨roomId, line⟩, listed, same⟩ := List.mem_filterMap.mp said
  obtain ⟨room, words⟩ := Prod.mk.inj (Option.some.inj same)
  obtain ⟨first, _, second, middle, before, rfl, ranFirst, rfl, typist, there, window⟩ := happened _ listed
  have shown : typist.client.mCurrentRoom.mID = posting.roomId := window.trans room
  refine ⟨line, words, first, second ++ act :: rest, middle, before, by simp, ranFirst, ⟨typist, there, shown⟩, ?_⟩
  -- and the window had been told of the room
  have fewBefore : middle.mMaxID < 2 ^ 32 := Nat.lt_of_le_of_lt (max_of_part ranThen ranFirst) fewThen
  obtain ⟨state, earlier, later, heard, _, moment, shows⟩ := shown_at_a_moment ranFirst fewBefore there
  rcases shown_room shows with none | ⟨user, known, home⟩
  · exact .inl (shown.symm.trans none)
  · exact .inr ⟨earlier, later, state, heard, moment.cut, moment.ran, user, known, home.trans shown⟩

/-- Ann says something. -/
private def annSays : List Act := [.connects (.ascii "ann") (.ascii "h") 1, .serves 0, .hears 0, .types 0 (.ascii "ho")]

/-- When the server takes it, it was typed. -/
theorem ann_has_typed_it :
    ∃ final reports posting, run step .new (annSays ++ [.serves 0]) = .ok (final, reports) ∧
      Happened step .new (annSays ++ [.serves 0]) (Posts posting) ∧ ∃ line : CString, line.string = posting.words ∧
        ∃ first second, annSays ++ [.serves 0] = first ++ .types posting.author line :: second := by
  have goes : (run step .new (annSays ++ [.serves 0])).toOption.map (fun reply => reply.1.mMaxID) = some 1 := by
    decide +kernel
  obtain ⟨⟨final, reports⟩, ran, count⟩ := Option.map_eq_some_iff.mp goes
  have done := ok_of_option ran
  have few : final.mMaxID < 2 ^ 32 := by
    simp only at count
    omega
  have before : (run step .new annSays).toOption.map
      (fun reply => (reply.1.station 0).map fun station => station.up.map chatOf) =
      some (some [some (0, .ascii "ho")]) := by
    decide +kernel
  have there : (run step .new annSays).toOption.map (fun reply =>
      ((reply.1.keeper.mIdUser[(0 : UInt64)]?).map User.mName,
        (reply.1.keeper.mIdRoom[(0 : UInt32)]?).map Room.getAllUsers)) =
      some (some (.ascii "ann"), some [0]) := by
    decide +kernel
  obtain ⟨⟨middle, seen⟩, ranThen, waiting⟩ := Option.map_eq_some_iff.mp before
  rw [ranThen] at there
  obtain ⟨named, listed⟩ := Prod.mk.inj (Option.some.inj there)
  obtain ⟨station, stands, chats⟩ := Option.map_eq_some_iff.mp waiting
  obtain ⟨message, up, chat⟩ := List.map_eq_singleton_iff.mp chats
  obtain ⟨user, known, name⟩ := Option.map_eq_some_iff.mp named
  obtain ⟨room, stored, audience⟩ := Option.map_eq_some_iff.mp listed
  have posted : Happened step .new (annSays ++ [.serves 0]) (Posts ⟨0, .ascii "ann", 0, .ascii "ho", [0]⟩) :=
    ⟨annSays, .serves 0, [], middle, seen, rfl, ok_of_option ranThen, rfl, ⟨station, message, [], stands, up, chat⟩,
      ⟨user, known, name⟩,
      ⟨room, stored, audience.symm⟩⟩
  obtain ⟨line, words, first, second, _, _, cut, _⟩ := postings_were_typed done few posted (by simp [annSays])
  exact ⟨final, reports, _, done, posted, line, words, first, second, cut⟩

end ChatRoom.ChatLog
