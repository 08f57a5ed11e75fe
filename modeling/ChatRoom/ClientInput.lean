import ChatRoom.InputAcceptance

/-! `CRClient::HandleInput`: what becomes of a typed line. A line that is not
parsed is taken for chat, also when a parse function has refused it; so a mistyped
command is published, with its password, and its error is never shown. Below is
exactly when that does not happen. -/
namespace ChatRoom
open Lib Wire

/-- What `HandleInput` does besides changing the client. -/
inductive InputEffect where
  /-- `DisplaySystemMessage`. -/
  | display (info : StdString)
  /-- A local message for the client itself, through the queue of its `NetService`. -/
  | post (message : Option (List Field))
  /-- `SendMessage`. -/
  | send (message : Option (List Field))
  deriving DecidableEq

namespace CRClient

def showHelpInfo : List InputEffect :=
  ["CRClient currently support this commands", " command list:", " /h            show help info\n",
    " /c room       create room", " /j room       join room\n", " /w username msg whisper to user",
    " /q            exit room, exit HALL--> exit program", " /e         exit program",
    " /i         show current info", " /l [room,user] list room or user info"].map fun info => .display (.ascii info)

def handleInput (client : CRClient) (input : CString) : Except Fault (CRClient × List InputEffect) := do
  let (parsed, cmd) ← InputParser.parseInput input .new
  if parsed then
    if cmd.mInvalid then
      -- show why
      return (client, [.display cmd.mErrStr])
    else if cmd.mLocalCmd then
      if (cmd.mType = .leaveRoom ∧ client.mCurrentRoom.mName = HALL_NAME) ∨ cmd.mType = .exit then
        return ({ client with mCdkRunning := false }, [])
      else if cmd.mType = .help then
        return (client, showHelpInfo)
      else
        return (client, [.post cmd.mMsg])
    else
      return (client, [.send cmd.mMsg])
  else
    -- taken for a normal chat message
    return (client, [.send (some (client.chatFields input.string))])

end CRClient

namespace ClientInput
open InputParser

variable {client next : CRClient} {line : CString} {cmd : Cmd} {effects : List InputEffect}

/-- Some message for the server is a `c2s_publish_chat_msg`. -/
def SendsChat (effects : List InputEffect) : Prop :=
  ∃ fields, InputEffect.send (some (MsgType.c2sPublishChatMsg.field :: fields)) ∈ effects

/-- Its parse function refuses the line, and says why. -/
def Refuses (line : CString) (why : StdString) : Prop :=
  ∃ parsed cmd, parseInput line .new = .ok (parsed, cmd) ∧ (parsed = false ∨ cmd.mInvalid = true) ∧ why = cmd.mErrStr

/-- The line is handled; it is published only when it starts with something else
than a `/`; and a refused command shows its reason and does nothing else. -/
structure StaysPrivate (client : CRClient) (line : CString) : Prop where
  handled : ∃ next effects, client.handleInput line = .ok (next, effects)
  chat : ∀ next effects, client.handleInput line = .ok (next, effects) → SendsChat effects →
    ∃ front first rest, line.bytes = front ++ first :: rest ∧ Blanks front ∧ first ≠ byte ' ' ∧ first ≠ byte '/'
  refused : ∀ letter ∈ letters, ∀ rest, Commands line letter rest → ∀ why, Refuses line why →
    client.handleInput line = .ok (client, [.display why])

/-- The line is not blank, not a `/` alone, and every letter is followed by what
its parse function wants. -/
structure WellTyped (line : CString) : Prop where
  word : HasWord line.bytes
  named : ∀ front, Blanks front → line.bytes ≠ front ++ [byte '/']
  accepted : ∀ letter ∈ letters, ∀ rest, Commands line letter rest → Accepts letter rest.bytes

/-! ### The two ways of a line -/

private theorem handle_unparsed (parsed : parseInput line .new = .ok (false, cmd)) (client : CRClient) :
    client.handleInput line = .ok (client, [.send (some (client.chatFields line.string))]) := by
  simp only [CRClient.handleInput, parsed]
  rfl

private theorem handle_invalid (parsed : parseInput line .new = .ok (true, cmd)) (invalid : cmd.mInvalid = true)
    (client : CRClient) : client.handleInput line = .ok (client, [.display cmd.mErrStr]) := by
  simp only [CRClient.handleInput, parsed, ok_then, invalid]
  rfl

theorem handle_remote {fields : List Field} (parsed : parseInput line .new = .ok (true, cmd))
    (remote : Cmd.Remote fields cmd) (client : CRClient) :
    client.handleInput line = .ok (client, [.send (some fields)]) := by
  obtain ⟨valid, remote, message⟩ := remote
  simp only [CRClient.handleInput, parsed, ok_then, valid, remote, message]
  rfl

theorem handle_posted {fields : List Field} (parsed : parseInput line .new = .ok (true, cmd))
    (posts : Cmd.Posts fields cmd) (plain : cmd.mType = .chat) (client : CRClient) :
    client.handleInput line = .ok (client, [.post (some fields)]) := by
  obtain ⟨valid, stays, message⟩ := posts
  simp only [CRClient.handleInput, parsed, ok_then, valid, stays, message, plain]
  rfl

private theorem unparsed_sends_chat (client : CRClient) (line : CString) :
    SendsChat [.send (some (client.chatFields line.string))] :=
  ⟨_, List.mem_singleton_self _⟩

/-- A parsed command is handled, and is not chat. -/
private theorem handle_parsed (parsed : parseInput line .new = .ok (true, cmd)) (settles : Cmd.Settles cmd)
    (client : CRClient) : ∃ next effects, client.handleInput line = .ok (next, effects) ∧ ¬ SendsChat effects := by
  simp only [CRClient.handleInput, parsed, ok_then, if_true]
  split
  · exact ⟨_, _, rfl, by simp [SendsChat]⟩
  split
  · split
    · exact ⟨_, _, rfl, by simp [SendsChat]⟩
    split
    · exact ⟨_, _, rfl, by simp [SendsChat, CRClient.showHelpInfo]⟩
    · exact ⟨_, _, rfl, by simp [SendsChat]⟩
  · rename_i remote
    refine ⟨_, _, rfl, ?_⟩
    rintro ⟨fields, sent⟩
    obtain stays | ⟨name, passwd, ⟨_, _, message⟩ | ⟨_, _, message⟩⟩ := settles
    · exact remote stays
    · rw [message] at sent
      simp [CRClient.createRoomFields, MsgType.field, MsgType.code] at sent
    · rw [message] at sent
      simp [CRClient.joinRoomFields, MsgType.field, MsgType.code] at sent

/-! ### What a line can cause -/

/-- A message that a client posts to itself. -/
def OwnMessage (message : List Field) : Prop :=
  message = [MsgType.localListRoom.field] ∨ message = [MsgType.localLeaveRoom.field] ∨
    ∃ target words, message = CRClient.localWhisperFields target words

/-- A message that asks the server for a room. -/
def RoomRequest (message : List Field) : Prop :=
  ∃ name passwd, message = CRClient.createRoomFields name passwd ∨ message = CRClient.joinRoomFields name passwd

/-- What a parsed command carries fits its kind. -/
def Cmd.Carries (cmd : Cmd) : Prop :=
  cmd.mLocalCmd = true ∧ (∀ message ∈ cmd.mMsg, OwnMessage message) ∨
    cmd.mLocalCmd = false ∧ ∀ message ∈ cmd.mMsg, RoomRequest message

/-- A command before its letter is known. -/
private theorem carries_nothing {made : Cmd} (stays : cmd.mLocalCmd = true) (nothing : cmd.mMsg = none)
    (same : made.mLocalCmd = cmd.mLocalCmd) (sameToo : made.mMsg = cmd.mMsg) : Cmd.Carries made :=
  .inl ⟨same.trans stays, fun message inside => by rw [sameToo, nothing] at inside; cases inside⟩

private theorem create_carries {made : Cmd} (parsed : parseCreateRoom line cmd = .ok (true, made)) : Cmd.Carries made := by
  obtain ⟨_, faults⟩ | ⟨_, ⟨name, passwd, _, _, accepts, _, remote, message⟩ | ⟨_, _, refuses⟩⟩ :=
    parse_create_room_cases line cmd
  · rw [faults] at parsed
    cases parsed
  · cases accepts.symm.trans parsed
    refine .inr ⟨remote, fun other inside => ?_⟩
    rw [message] at inside
    cases inside
    exact ⟨name, passwd, .inl rfl⟩
  · rw [refuses] at parsed
    cases parsed

private theorem join_carries {made : Cmd} (parsed : parseJoinRoom line cmd = (true, made)) : Cmd.Carries made := by
  obtain ⟨name, passwd, _, _, accepts, _, remote, message⟩ | ⟨_, _, refuses⟩ := parse_join_room_cases line cmd
  · cases accepts.symm.trans parsed
    refine .inr ⟨remote, fun other inside => ?_⟩
    rw [message] at inside
    cases inside
    exact ⟨name, passwd, .inr rfl⟩
  · rw [refuses] at parsed
    cases parsed

private theorem whisper_carries {made : Cmd} (parsed : parseWhisper line cmd = (true, made)) : Cmd.Carries made := by
  obtain ⟨target, words, _, _, accepts, _, _, stays, message⟩ | ⟨_, _, refuses⟩ := parse_whisper_cases line cmd
  · cases accepts.symm.trans parsed
    refine .inl ⟨stays, fun other inside => ?_⟩
    rw [message] at inside
    cases inside
    exact .inr (.inr ⟨target, words, rfl⟩)
  · rw [refuses] at parsed
    cases parsed

private theorem list_carries {made : Cmd} (stays : cmd.mLocalCmd = true) (nothing : cmd.mMsg = none)
    (parsed : parseList line cmd = (true, made)) : Cmd.Carries made := by
  simp only [parseList] at parsed
  split at parsed
  · cases parsed
  split at parsed
  · cases parsed
    exact .inl ⟨rfl, fun message inside => .inl (Option.mem_some_iff.mp inside).symm⟩
  · cases parsed
    exact carries_nothing stays nothing rfl rfl

private theorem leave_carries {made : Cmd} (parsed : parseLeaveRoom line cmd = (true, made)) : Cmd.Carries made := by
  simp only [parseLeaveRoom] at parsed
  split at parsed
  · cases parsed
  · cases parsed
    exact .inl ⟨rfl, fun message inside => .inr (.inl (Option.mem_some_iff.mp inside).symm)⟩

private theorem command_carries {made : Cmd} (stays : cmd.mLocalCmd = true) (nothing : cmd.mMsg = none)
    (parsed : parseCmdMessage line cmd = .ok (true, made)) : Cmd.Carries made := by
  simp only [parseCmdMessage] at parsed
  split at parsed
  · cases parsed
    exact carries_nothing stays nothing rfl rfl
  split at parsed
  · exact create_carries parsed
  split at parsed
  · exact join_carries (Except.ok.inj parsed)
  split at parsed
  · exact whisper_carries (Except.ok.inj parsed)
  split at parsed
  · cases parsed
  split at parsed
  · exact leave_carries (Except.ok.inj parsed)
  split at parsed
  · cases parsed
    exact carries_nothing stays nothing rfl rfl
  split at parsed
  · exact list_carries stays nothing (Except.ok.inj parsed)
  split at parsed
  · cases parsed
  · cases parsed
    exact carries_nothing stays nothing rfl rfl

theorem parsed_carries {made : Cmd} (parsed : parseInput line .new = .ok (true, made)) : Cmd.Carries made := by
  simp only [parseInput] at parsed
  split at parsed
  · cases parsed
  split at parsed
  · exact command_carries rfl rfl parsed
  · cases parsed

/-- What comes of a typed line: the client stays as it is, but for the end of its
input; it tells itself and the server nothing else than this. -/
structure Caused (client next : CRClient) (line : CString) (effects : List InputEffect) : Prop where
  same : ∃ running, next = { client with mCdkRunning := running }
  posts : ∀ message, .post (some message) ∈ effects → OwnMessage message
  sends : ∀ message, .send (some message) ∈ effects → RoomRequest message ∨ message = client.chatFields line.string

theorem line_causes (handled : client.handleInput line = .ok (next, effects)) : Caused client next line effects := by
  obtain ⟨⟨parsed, cmd⟩, answered, rest⟩ := bind_ok.mp handled
  dsimp only at rest
  split at rest
  next done =>
    subst done
    have carries := parsed_carries answered
    split at rest
    · cases rest
      exact ⟨⟨_, rfl⟩, by simp, by simp⟩
    split at rest
    next stays =>
      have own : ∀ message ∈ cmd.mMsg, OwnMessage message := by
        obtain ⟨_, own⟩ | ⟨away, _⟩ := carries
        · exact own
        · rw [stays] at away
          cases away
      split at rest
      · cases rest
        exact ⟨⟨_, rfl⟩, by simp, by simp⟩
      split at rest
      · cases rest
        exact ⟨⟨_, rfl⟩, by simp [CRClient.showHelpInfo], by simp [CRClient.showHelpInfo]⟩
      · cases rest
        exact ⟨⟨_, rfl⟩, fun message inside => own message (by simpa [eq_comm] using inside), by simp⟩
    next away =>
      have asks : ∀ message ∈ cmd.mMsg, RoomRequest message := by
        obtain ⟨stays, _⟩ | ⟨_, asks⟩ := carries
        · exact absurd stays away
        · exact asks
      cases rest
      exact ⟨⟨_, rfl⟩, by simp, fun message inside => .inl (asks message (by simpa [eq_comm] using inside))⟩
  · cases rest
    exact ⟨⟨_, rfl⟩, by simp, fun message inside => .inr (by simpa using inside)⟩

/-! ### Where a line starts -/

theorem commands_parse {letter : Char} {rest : CString} (commands : Commands line letter rest) :
    ∃ command : CString, command.bytes = byte letter :: rest.bytes ∧
      ∀ cmd, parseInput line cmd = parseCmdMessage command { cmd with mType := .chat } := by
  obtain ⟨front, shape, blanks⟩ := commands
  have noNul : 0 ∉ byte letter :: rest.bytes := fun member =>
    line.noNul (shape ▸ List.mem_append_right front (List.mem_cons_of_mem _ member))
  have short : (byte letter :: rest.bytes).length < 2 ^ 31 := by
    have whole := line.short
    rw [shape, List.length_append, List.length_cons] at whole
    omega
  exact ⟨⟨_, noNul, short⟩, rfl, parse_slash shape blanks⟩

/-- A line that starts with a `/` starts with nothing else. -/
private theorem slash_first {front before tail rest : List UInt8} {first : UInt8}
    (slash : line.bytes = front ++ byte '/' :: tail) (blanks : Blanks front)
    (other : line.bytes = before ++ first :: rest) (blanksToo : Blanks before) (some : first ≠ byte ' ') :
    first = byte '/' := by
  have toSlash := drop_blanks slash blanks (by decide)
  have toOther := drop_blanks other blanksToo some
  exact (List.cons.inj (toOther.symm.trans toSlash)).1

/-- A line with a `/` in front that is not parsed is published. -/
private theorem unparsed_slash_leaks {front tail : List UInt8} (slash : line.bytes = front ++ byte '/' :: tail)
    (blanks : Blanks front) (parsed : parseInput line .new = .ok (false, cmd)) : ¬ StaysPrivate client line := by
  intro stays
  obtain ⟨before, first, rest, other, blanksToo, some, notSlash⟩ :=
    stays.chat client _ (handle_unparsed parsed client) (unparsed_sends_chat client line)
  exact notSlash (slash_first slash blanks other blanksToo some)

/-- A command is one for the client itself until it turns out to be another. -/
private theorem chat_is_local : { Cmd.new with mType := .chat }.mLocalCmd = true := rfl

private theorem well_typed_of_private (stays : StaysPrivate client line) : WellTyped line := by
  refine ⟨?_, ?_, ?_⟩
  · by_contra blank
    obtain ⟨front, first, rest, shape, _, some, _⟩ :=
      stays.chat client _ (handle_unparsed (parse_blank_line blank .new) client) (unparsed_sends_chat client line)
    exact blank ⟨first, shape ▸ List.mem_append_right front (List.mem_cons_self ..), some⟩
  · intro front blanks shape
    have parsed : parseInput line .new = parseCmdMessage ⟨[], by decide, by decide⟩ { Cmd.new with mType := .chat } :=
      parse_slash shape blanks .new
    rw [parse_bare_slash rfl] at parsed
    exact unparsed_slash_leaks shape blanks parsed stays
  · intro letter known rest commands
    obtain ⟨command, named, parses⟩ := commands_parse commands
    obtain ⟨accepts, _⟩ | ⟨_, notParsed⟩ := parse_letter_cases named known chat_is_local
    · exact accepts
    · obtain ⟨front, shape, blanks⟩ := commands
      cases parsed : parseInput line .new with
      | error fault =>
        obtain ⟨next, effects, handled⟩ := stays.handled
        simp [CRClient.handleInput, parsed] at handled
      | ok result =>
        obtain ⟨answer, cmd⟩ := result
        cases answer with
        | false => exact absurd stays (unparsed_slash_leaks shape blanks parsed)
        | true => exact absurd ((parses .new).symm.trans parsed) (notParsed cmd)

/-- A well-typed line is chat, or a command that is parsed. -/
private theorem well_typed_cases (typed : WellTyped line) :
    (∃ front first rest, line.bytes = front ++ first :: rest ∧ Blanks front ∧ first ≠ byte ' ' ∧ first ≠ byte '/' ∧
      ∃ cmd, parseInput line .new = .ok (false, cmd)) ∨
    ∃ cmd, parseInput line .new = .ok (true, cmd) ∧ Cmd.Settles cmd := by
  obtain ⟨front, command, shape, blanks, parses⟩ | ⟨front, first, rest, shape, blanks, some, other, parsed⟩ :=
    parse_line_cases typed.word .new
  · right
    rw [parses]
    have some : command.bytes ≠ [] := fun none => typed.named front blanks (none ▸ shape)
    by_cases listed : ∀ letter ∈ letters, command.char ≠ byte letter
    · obtain ⟨made, parsed, stays⟩ := parse_other_letter some listed { Cmd.new with mType := .chat }
      exact ⟨made, parsed, .inl stays⟩
    · push Not at listed
      obtain ⟨letter, known, first⟩ := listed
      have named : command.bytes = byte letter :: command.next.bytes :=
        (CString.char_some (first ▸ fun zero => some (CString.char_zero.mp zero))).mp first
      have accepts := typed.accepted letter known command.next ⟨front, named ▸ shape, blanks⟩
      obtain ⟨_, parsed⟩ | ⟨refuses, _⟩ := parse_letter_cases named known chat_is_local
      · exact parsed
      · exact absurd accepts refuses
  · exact .inl ⟨front, first, rest, shape, blanks, some, other, _, parsed⟩

private theorem private_of_well_typed (typed : WellTyped line) (client : CRClient) : StaysPrivate client line := by
  obtain ⟨front, first, rest, shape, blanks, some, other, cmd, parsed⟩ | ⟨cmd, parsed, settles⟩ :=
    well_typed_cases typed
  · refine ⟨⟨_, _, handle_unparsed parsed client⟩, fun _ _ _ _ => ⟨front, first, rest, shape, blanks, some, other⟩, ?_⟩
    intro letter _ behind ⟨before, slash, blanksToo⟩
    exact absurd (slash_first slash blanksToo shape blanks some) other
  · obtain ⟨next, effects, handled, noChat⟩ := handle_parsed parsed settles client
    refine ⟨⟨next, effects, handled⟩, ?_, ?_⟩
    · intro next' effects' again sent
      cases handled.symm.trans again
      exact absurd sent noChat
    · intro letter _ _ _ why ⟨answer, cmd', parsed', refused, reason⟩
      cases parsed.symm.trans parsed'
      have invalid := refused.resolve_left (by simp)
      rw [reason]
      exact handle_invalid parsed invalid client

/-- Commands and blank lines stay private exactly when they are well typed. -/
theorem commands_stay_private_iff (client : CRClient) (line : CString) :
    StaysPrivate client line ↔ WellTyped line :=
  ⟨well_typed_of_private, fun typed => private_of_well_typed typed client⟩

/-- A room password that is too short goes to everybody in the room. -/
theorem a_mistyped_password_is_published :
    (CRClient.new (.ascii "ann")).handleInput (.ascii "/j den1 pw") = .ok (.new (.ascii "ann"),
      [.send (some [MsgType.c2sPublishChatMsg.field, .u32 INVALID_ROOM_ID, .str (.ascii "/j den1 pw")])]) ∧
    ¬ StaysPrivate (.new (.ascii "ann")) (.ascii "/j den1 pw") := by
  have parsed : parseInput (.ascii "/j den1 pw") .new = .ok (false, { Cmd.new with
      mType := .chat
      mErrStr := .ascii "room passwd at least 4 at most 20 chars length!" }) := by decide
  have slash : (CString.ascii "/j den1 pw").bytes = [] ++ byte '/' :: text "j den1 pw" := by decide
  exact ⟨handle_unparsed parsed _, unparsed_slash_leaks slash (by simp [Blanks]) parsed⟩

end ClientInput
end ChatRoom
