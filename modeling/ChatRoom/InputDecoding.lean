import ChatRoom.ClientInput
import ChatRoom.ProtocolRoundTrip

/-! From a typed line to what the server decodes. The shape of the line decides
whether there is a command; its words come out of the message on the other side,
for a whisper after a hop through the client's own queue. -/
namespace ChatRoom.InputDecoding
open Lib Wire InputParser ProtocolRoundTrip ClientInput
open MsgWriting (Fits)

variable {host : Host} {line rest : CString} {name passwd target words : StdString}

/-- `ParseInput` makes a command of the line that is not invalid. -/
def Valid (line : CString) (isLocal : Bool) : Prop :=
  ∃ cmd, parseInput line .new = .ok (true, cmd) ∧ cmd.mInvalid = false ∧ cmd.mLocalCmd = isLocal

/-- The client sends a request, and the server decodes it. -/
structure Serves (host : Host) (client : CRClient) (line : CString) (request : Worker.Request) : Prop where
  sent : client.handleInput line = .ok (client, [.send (some request.fields)])
  decoded : ∀ ip port connId,
    ReadBack host request.fields (Worker.recvMessage ip port connId) (Worker.serve ip port connId request)

/-- The client posts a whisper to itself, sends it on when it gets there, and the
server decodes it. -/
structure ServesWhisper (host : Host) (client : CRClient) (line : CString) (target words : StdString) : Prop where
  posted : client.handleInput line = .ok (client, [.post (some (CRClient.localWhisperFields target words))])
  hop : ∀ receiver : CRClient, ∃ shown, ReadHere host (CRClient.localWhisperFields target words) receiver.recvMessage
    (receiver, [.display shown, .send (Worker.Request.whisper target words).fields])
  decoded : ∀ ip port connId, ReadBack host (Worker.Request.whisper target words).fields
    (Worker.recvMessage ip port connId) (Worker.serveWhisper target words connId)

private theorem room_args_unique {other otherPasswd : StdString} (args : RoomArgs rest.bytes name passwd)
    (others : RoomArgs rest.bytes other otherPasswd) : name = other ∧ passwd = otherPasswd := by
  obtain ⟨rfl, rfl, _⟩ := room_args_iff.mp args
  obtain ⟨rfl, rfl, _⟩ := room_args_iff.mp others
  exact ⟨rfl, rfl⟩

private theorem words_unique {other otherWords : StdString} (shape : WordAndRest rest.bytes target words)
    (others : WordAndRest rest.bytes other otherWords) : target = other ∧ words = otherWords := by
  obtain ⟨rfl, rfl, _⟩ := word_and_rest_iff.mp shape
  obtain ⟨rfl, rfl, _⟩ := word_and_rest_iff.mp others
  exact ⟨rfl, rfl⟩

private theorem two_strings_fit (code : Int32) (size : 28 + (name.length + passwd.length) ≤ host.page) :
    Fits host [.int code, .str name, .str passwd] := by
  have nameBytes : name.length = name.bytes.length := rfl
  have passwdBytes : passwd.length = passwd.bytes.length := rfl
  simp only [Fits, HEAD_LENGTH, Codec.encodeAll_cons, Codec.encodeAll_nil, codec, encodeField, List.length_append,
    be_bytes_length, List.length_nil]
  omega

private theorem args_fit (args : RoomArgs rest.bytes name passwd) (roomy : 68 ≤ host.page) (code : Int32) :
    Fits host [.int code, .str name, .str passwd] := by
  obtain ⟨_, ⟨_, nameShort⟩, ⟨_, passwdShort⟩⟩ := args
  exact two_strings_fit code (by omega)

/-! ### Requests for rooms -/

/-- A function that accepts just a name and a password, and asks for that room. -/
private theorem room_decoded (request : StdString → StdString → Worker.Request)
    (fits : ∀ name passwd, RoomArgs rest.bytes name passwd → Fits host (request name passwd).fields)
    (cases' : (∃ name passwd made, RoomArgs rest.bytes name passwd ∧ parseInput line .new = .ok (true, made) ∧
        Cmd.Remote (request name passwd).fields made) ∨
      (¬ ∃ name passwd, RoomArgs rest.bytes name passwd) ∧ ∀ made, parseInput line .new ≠ .ok (true, made)) :
    (Valid line false ↔ ∃ name passwd, RoomArgs rest.bytes name passwd) ∧
    ∀ name passwd, RoomArgs rest.bytes name passwd → ∀ client, Serves host client line (request name passwd) := by
  obtain ⟨name, passwd, made, args, parsed, remote⟩ | ⟨none, refused⟩ := cases'
  · refine ⟨⟨fun _ => ⟨name, passwd, args⟩, fun _ => ⟨made, parsed, remote.1, remote.2.1⟩⟩, ?_⟩
    intro name' passwd' args' client
    obtain ⟨rfl, rfl⟩ := room_args_unique args args'
    exact ⟨handle_remote parsed remote client, request_read_back (request name passwd) (fits name passwd args)⟩
  · refine ⟨⟨?_, fun args => absurd args none⟩, fun name passwd args => absurd ⟨name, passwd, args⟩ none⟩
    rintro ⟨cmd, parsed, _⟩
    exact absurd parsed (refused cmd)

private theorem join_decoded (roomy : 68 ≤ host.page) (commands : Commands line 'j' rest) :
    (Valid line false ↔ ∃ name passwd, RoomArgs rest.bytes name passwd) ∧
    ∀ name passwd, RoomArgs rest.bytes name passwd → ∀ client, Serves host client line (.joinRoom name passwd) := by
  obtain ⟨command, named, parses⟩ := commands_parse commands
  apply room_decoded .joinRoom (fun name passwd args => args_fit args roomy MsgType.c2sJoinRoom.code)
  rw [parses, parse_join_command named]
  obtain ⟨name, passwd, made, args, parsed, remote⟩ | ⟨none, left, refused⟩ :=
    parse_join_room_cases rest { Cmd.new with mType := .chat }
  · exact .inl ⟨name, passwd, made, args, by rw [parsed], remote⟩
  · exact .inr ⟨none, by simp [refused]⟩

private theorem create_decoded (roomy : 68 ≤ host.page) (commands : Commands line 'c' rest) :
    (Valid line false ↔ ∃ name passwd, RoomArgs rest.bytes name passwd) ∧
    ∀ name passwd, RoomArgs rest.bytes name passwd → ∀ client, Serves host client line (.createRoom name passwd) := by
  obtain ⟨command, named, parses⟩ := commands_parse commands
  apply room_decoded .createRoom (fun name passwd args => args_fit args roomy MsgType.c2sCreateRoom.code)
  rw [parses, parse_create_command named]
  obtain ⟨overruns, faults⟩ | ⟨_, made | ⟨none, left, refused⟩⟩ :=
    parse_create_room_cases rest { Cmd.new with mType := .chat }
  · exact .inr ⟨no_args_of_overruns overruns, by simp [faults]⟩
  · exact .inl made
  · exact .inr ⟨none, by simp [refused]⟩

/-! ### Whispers -/

private theorem words_fit (commands : Commands line 'w' rest) (shape : WordAndRest rest.bytes target words)
    (fits : 28 + line.bytes.length ≤ host.page) (code : Int32) : Fits host [.int code, .str target, .str words] := by
  obtain ⟨front, typed, _⟩ := commands
  obtain ⟨before, gap, split, _⟩ := shape
  have targetBytes : target.length = target.bytes.length := rfl
  have wordsBytes : words.length = words.bytes.length := rfl
  simp only [typed, split, List.length_append, List.length_cons] at fits
  exact two_strings_fit code (by omega)

private theorem whisper_decoded (commands : Commands line 'w' rest) :
    (Valid line true ↔ HasWord rest.bytes) ∧
    (HasWord rest.bytes ↔ ∃ target words, WordAndRest rest.bytes target words) ∧
    ∀ target words, WordAndRest rest.bytes target words → 28 + line.bytes.length ≤ host.page → ∀ client,
      ServesWhisper host client line target words := by
  obtain ⟨command, named, parses⟩ := commands_parse commands
  have whole := parses .new
  rw [parse_whisper_command named] at whole
  obtain ⟨target, words, made, shape, parsed, type, posts⟩ | ⟨none, left, refused⟩ :=
    parse_whisper_cases rest { Cmd.new with mType := .chat }
  · rw [parsed] at whole
    have word := has_word_of_shape shape
    refine ⟨⟨fun _ => word, fun _ => ⟨made, whole, posts.1, posts.2.1⟩⟩, ⟨fun _ => ⟨target, words, shape⟩, fun _ => word⟩,
      ?_⟩
    intro target' words' shape' fits client
    obtain ⟨rfl, rfl⟩ := words_unique shape shape'
    refine ⟨handle_posted whole posts type client, ?_,
      request_read_back (.whisper target words) (words_fit commands shape fits MsgType.c2sWhisperMsg.code)⟩
    intro receiver
    exact ⟨_, message_read_here receiver (.localWhisper target words)
      (words_fit commands shape fits MsgType.localWhisperMsg.code)⟩
  · rw [refused] at whole
    refine ⟨⟨?_, fun word => absurd word none⟩, ⟨fun word => absurd word none, ?_⟩, ?_⟩
    · rintro ⟨cmd, parsed, _⟩
      cases whole.symm.trans parsed
    · rintro ⟨target, words, shape⟩
      exact has_word_of_shape shape
    · intro target words shape
      exact absurd (has_word_of_shape shape) none

/-! ### The three commands -/

/-- What the user types is what the server decodes. A page holds a request for a
room of any name; for a whisper the page has to hold the line, and a line of the
window has at most 256 characters. -/
theorem typed_lines_are_decoded (host : Host) (roomy : 68 ≤ host.page) (line rest : CString) :
    (Commands line 'j' rest →
      (Valid line false ↔ ∃ name passwd, RoomArgs rest.bytes name passwd) ∧
      ∀ name passwd, RoomArgs rest.bytes name passwd → ∀ client, Serves host client line (.joinRoom name passwd)) ∧
    (Commands line 'c' rest → Closed rest.bytes →
      (Valid line false ↔ ∃ name passwd, RoomArgs rest.bytes name passwd) ∧
      ∀ name passwd, RoomArgs rest.bytes name passwd → ∀ client, Serves host client line (.createRoom name passwd)) ∧
    (Commands line 'w' rest →
      (Valid line true ↔ HasWord rest.bytes) ∧
      (HasWord rest.bytes ↔ ∃ target words, WordAndRest rest.bytes target words) ∧
      ∀ target words, WordAndRest rest.bytes target words → 28 + line.bytes.length ≤ host.page → ∀ client,
        ServesWhisper host client line target words) :=
  ⟨join_decoded roomy, fun commands _ => create_decoded roomy commands, whisper_decoded⟩

/-- Ann asks to join a room, and whispers to Bob. -/
theorem ann_joins_and_whispers :
    Serves .usual (.new (.ascii "ann")) (.ascii " /j  den1 passwd !") (.joinRoom (.ascii "den1") (.ascii "passwd")) ∧
    ServesWhisper .usual (.new (.ascii "ann")) (.ascii "/w bob  see you ") (.ascii "bob") (.ascii "see you ") := by
  constructor
  · have commands : Commands (.ascii " /j  den1 passwd !") 'j' (.ascii "  den1 passwd !") :=
      ⟨text " ", by decide +kernel⟩
    have args : RoomArgs (CString.ascii "  den1 passwd !").bytes (.ascii "den1") (.ascii "passwd") :=
      ⟨⟨text "  ", text " ", text " !", by decide +kernel⟩, by decide +kernel⟩
    exact ((typed_lines_are_decoded .usual (by decide +kernel) _ _).1 commands).2 _ _ args _
  · have commands : Commands (.ascii "/w bob  see you ") 'w' (.ascii " bob  see you ") :=
      ⟨[], by decide +kernel⟩
    have shape : WordAndRest (CString.ascii " bob  see you ").bytes (.ascii "bob") (.ascii "see you ") :=
      ⟨text " ", text "  ", by decide +kernel⟩
    exact ((typed_lines_are_decoded .usual (by decide +kernel) _ _).2.2 commands).2.2 _ _ shape (by decide +kernel) _

end ChatRoom.InputDecoding
