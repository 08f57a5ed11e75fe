import ChatRoom.ClientInput
import ChatRoom.Lib.CPointer

/-! `InputParser`, read by read. The functions work on the whole line with offsets
into it; every character that they look at, copy or print is a read that can
fault. They come to the same as the functions that work on what is left of the
line, so the shape of a line decides whether every read is inside. -/
namespace ChatRoom.InputScanning
open Lib Wire InputParser

variable (line : CString) (input : Nat) (cmd : Cmd)

/-- `*index != ' ' && *index != 0`. -/
def inText (char : UInt8) : Bool := inWord char && char != 0

/-! ### One function for each command -/

def parseCreateRoom : Except Fault Parsed := do
  let index ← line.scan isSpace input
  if (← line.read index) = 0 then
    let _ ← line.strlen (input + 1)
    return (false, { cmd with
      mType := .createRoom
      mErrStr := .ascii "create room but empty room name (4-20 char length)" })
  let namestart := index - input
  let index ← line.scan inWord index
  let nameend := index - input
  let roomlen := nameend - namestart
  if roomlen < 4 ∨ roomlen > 20 then
    let _ ← line.strlen (input + namestart)
    return (false, { cmd with
      mType := .createRoom
      mErrStr := .ascii "room name at least 4 at most 20 chars length!" })
  let index ← line.scan isSpace index
  let passwdstart := index - input
  let index ← line.scan inText index
  let passwdend := index - input
  let passwdlen := passwdend - passwdstart
  if passwdlen < 4 ∨ passwdlen > 20 then
    let _ ← line.strlen (input + passwdstart)
    return (false, { cmd with
      mType := .createRoom
      mErrStr := .ascii "room passwd at least 4 at most 20 chars length!" })
  let name ← line.copy (input + namestart) (nameend - namestart)
  let passwd ← line.copy (input + passwdstart) (passwdend - passwdstart)
  return (true, { cmd with
    mType := .createRoom
    mInvalid := false
    mLocalCmd := false
    mMsg := some (CRClient.createRoomFields name passwd) })

def parseJoinRoom : Except Fault Parsed := do
  let index ← line.scan isSpace input
  if (← line.read index) = 0 then
    let _ ← line.strlen input
    return (false, { cmd with mType := .null, mErrStr := .ascii "list command with no target" })
  let roombegin := index - input
  let index ← line.scan inText index
  let roomend := index - input
  let roomlen := roomend - roombegin
  let roomName ← line.copy (input + roombegin) (roomend - roombegin)
  if roomlen < 4 ∨ roomlen > 20 then
    let _ ← line.strlen input
    return (false, { cmd with mType := .null, mErrStr := .ascii "join room ,but invalid room len!" })
  let index ← line.scan isSpace index
  let passwdstart := index - input
  let index ← line.scan inText index
  let passwdend := index - input
  let passwdlen := passwdend - passwdstart
  if passwdlen < 4 ∨ passwdlen > 20 then
    let _ ← line.strlen (input + passwdstart)
    return (false, { cmd with mErrStr := .ascii "room passwd at least 4 at most 20 chars length!" })
  let passwd ← line.copy (input + passwdstart) (passwdend - passwdstart)
  return (true, { cmd with
    mLocalCmd := false
    mInvalid := false
    mMsg := some (CRClient.joinRoomFields roomName passwd) })

def parseWhisper : Except Fault Parsed := do
  let index ← line.scan isSpace input
  if (← line.read index) = 0 then
    let _ ← line.strlen input
    return (false, { cmd with mType := .null, mErrStr := .ascii "list command with no target" })
  let targetbegin := index - input
  let index ← line.scan inText index
  let targetend := index - input
  let target ← line.copy (input + targetbegin) (targetend - targetbegin)
  let index ← line.scan isSpace index
  let wordsbegin := index - input
  let index ← line.scan (· != 0) index
  let wordsend := index - input
  let words ← line.copy (input + wordsbegin) (wordsend - wordsbegin)
  return (true, { cmd with
    mLocalCmd := true
    mInvalid := false
    mMsg := some (CRClient.localWhisperFields target words) })

def parseList : Except Fault Parsed := do
  let index ← line.scan isSpace input
  if (← line.read index) = 0 then
    let _ ← line.strlen input
    return (false, { cmd with mType := .null, mErrStr := .ascii "list command with no target" })
  let targetbegin := index - input
  let index ← line.scan inText index
  let targetend := index - input
  let target ← line.copy (input + targetbegin) (targetend - targetbegin)
  if target = .ascii "room" then
    return (true, { cmd with
      mType := .listRoom
      mLocalCmd := true
      mInvalid := false
      mMsg := some [MsgType.localListRoom.field] })
  else
    return (true, { cmd with mType := .null, mErrStr := .ascii "list command with invalid target" })

def parseLeaveRoom : Except Fault Parsed := do
  if inText (← line.read input) then
    let _ ← line.strlen input
    return (false, { cmd with mType := .null })
  return (true, { cmd with
    mType := .leaveRoom
    mInvalid := false
    mLocalCmd := true
    mMsg := some [MsgType.localLeaveRoom.field] })

/-! ### The whole line -/

def parseCmdMessage : Except Fault Parsed := do
  let ch ← line.read input
  if ch = byte 'h' then return (true, { cmd with mType := .help, mInvalid := false })
  else if ch = byte 'c' then parseCreateRoom line (input + 1) cmd
  else if ch = byte 'j' then parseJoinRoom line (input + 1) cmd
  else if ch = byte 'w' then parseWhisper line (input + 1) cmd
  else if ch = byte 'r' then return parseReply cmd
  else if ch = byte 'q' then parseLeaveRoom line (input + 1) cmd
  else if ch = byte 'e' then return (true, { cmd with mType := .exit, mInvalid := false })
  else if ch = byte 'l' then parseList line (input + 1) cmd
  else if ch = 0 then return (false, cmd)
  else return (true, cmd)

def parseInput : Except Fault Parsed := do
  let len ← line.strlen 0
  let i ← line.scan isSpace 0
  if i = len then
    let _ ← line.strlen 0
    return (false, { cmd with mType := .null })
  if (← line.read i) = byte '/' then parseCmdMessage line (i + 1) { cmd with mType := .chat }
  else return (false, { cmd with mType := .chat })

/-! ### They come to the same -/

variable {line : CString} {input : Nat} {rest : CString}

private theorem text_word (here : CString) :
    here.passed inText = here.passed inWord ∧ here.skip inText = here.skip inWord := by
  apply CString.passed_congr
  intro char some
  simp [inText, some]

/-- The two loops over a word: one that looks for the terminator, and one that
does not but finds a blank. -/
private theorem scan_text (place : line.At input rest) :
    line.scan inText input = .ok (input + (rest.passed inWord).length) ∧
      line.At (input + (rest.passed inWord).length) (rest.skip inWord) := by
  have scanned := place.scan_ok (.inl rfl : inText 0 = false ∨ _)
  rw [(text_word rest).1, (text_word rest).2] at scanned
  exact scanned

private theorem scan_blanks (place : line.At input rest) :
    line.scan isSpace input = .ok (input + (rest.passed isSpace).length) ∧
      line.At (input + (rest.passed isSpace).length) (rest.skip isSpace) :=
  place.scan_ok (.inl rfl)

private theorem scan_rest (place : line.At input rest) : line.scan (· != 0) input = .ok (input + rest.string.length) := by
  rw [(place.scan_ok (.inl rfl)).1, CString.passed_all]

/-! The source keeps offsets from `input`: both ends of a word are taken from it. -/

private theorem offset_back {index : Nat} (behind : input ≤ index) : input + (index - input) = index := by omega

private theorem length_between {index : Nat} (behind : input ≤ index) (count : Nat) :
    index + count - input - (index - input) = count := by omega

theorem parse_join_room_scans (place : line.At input rest) (cmd : Cmd) :
    parseJoinRoom line input cmd = .ok (InputParser.parseJoinRoom rest cmd) := by
  obtain ⟨overBlanks, atName⟩ := scan_blanks place
  obtain ⟨overName, behindName⟩ := scan_text atName
  obtain ⟨overGap, atPasswd⟩ := scan_blanks behindName
  obtain ⟨overPasswd, _⟩ := scan_text atPasswd
  simp only [parseJoinRoom, InputParser.parseJoinRoom, overBlanks, ok_then, atName.read_char]
  split
  · rw [place.strlen_ok]
    rfl
  · simp (disch := omega) only [overName, ok_then, offset_back, length_between, atName.copy_ok]
    split
    · rw [place.strlen_ok]
      rfl
    · simp (disch := omega) only [overGap, overPasswd, ok_then, offset_back, length_between, atPasswd.strlen_ok,
        atPasswd.copy_ok]
      split
      · rfl
      · rfl

theorem parse_whisper_scans (place : line.At input rest) (cmd : Cmd) :
    parseWhisper line input cmd = .ok (InputParser.parseWhisper rest cmd) := by
  obtain ⟨overBlanks, atTarget⟩ := scan_blanks place
  obtain ⟨overTarget, behindTarget⟩ := scan_text atTarget
  obtain ⟨overGap, atWords⟩ := scan_blanks behindTarget
  have overWords := scan_rest atWords
  simp only [parseWhisper, InputParser.parseWhisper, overBlanks, ok_then, atTarget.read_char]
  split
  · rw [place.strlen_ok]
    rfl
  · simp (disch := omega) only [overTarget, overGap, overWords, ok_then, offset_back, length_between, atTarget.copy_ok,
      atWords.copy_all]
    rfl

theorem parse_list_scans (place : line.At input rest) (cmd : Cmd) :
    parseList line input cmd = .ok (InputParser.parseList rest cmd) := by
  obtain ⟨overBlanks, atTarget⟩ := scan_blanks place
  obtain ⟨overTarget, _⟩ := scan_text atTarget
  simp only [parseList, InputParser.parseList, overBlanks, ok_then, atTarget.read_char]
  split
  · rw [place.strlen_ok]
    rfl
  · simp (disch := omega) only [overTarget, ok_then, offset_back, length_between, atTarget.copy_ok]
    split
    · rfl
    · rfl

theorem parse_leave_room_scans (place : line.At input rest) (cmd : Cmd) :
    parseLeaveRoom line input cmd = .ok (InputParser.parseLeaveRoom rest cmd) := by
  simp only [parseLeaveRoom, InputParser.parseLeaveRoom, ok_then, place.read_char, place.strlen_ok]
  have same : inText rest.char = true ↔ rest.char ≠ byte ' ' ∧ rest.char ≠ 0 := by simp [inText, inWord]
  simp only [same]
  split
  · rfl
  · rfl

theorem parse_create_room_scans (place : line.At input rest) (cmd : Cmd) :
    parseCreateRoom line input cmd = InputParser.parseCreateRoom rest cmd := by
  obtain ⟨overBlanks, atName⟩ := scan_blanks place
  simp only [parseCreateRoom, InputParser.parseCreateRoom, overBlanks, ok_then, atName.read_char]
  split
  · unfold logBehind
    split
    next ended =>
      rw [place.strlen_behind ended]
      rfl
    next some =>
      rw [(place.next some).strlen_ok]
      rfl
  · unfold seekSpace
    split
    next all =>
      rw [atName.scan_past rfl all]
      rfl
    next stopped =>
      obtain ⟨overName, behindName⟩ := atName.scan_ok (.inr (Bool.not_eq_true _ ▸ stopped))
      obtain ⟨overGap, atPasswd⟩ := scan_blanks behindName
      obtain ⟨overPasswd, _⟩ := scan_text atPasswd
      simp (disch := omega) only [overName, ok_then, offset_back, length_between, atName.strlen_ok]
      split
      · rfl
      · simp (disch := omega) only [overGap, overPasswd, ok_then, offset_back, length_between, atPasswd.strlen_ok,
          atPasswd.copy_ok, atName.copy_ok]

theorem parse_cmd_message_scans (place : line.At input rest) (cmd : Cmd) :
    parseCmdMessage line input cmd = InputParser.parseCmdMessage rest cmd := by
  simp only [parseCmdMessage, InputParser.parseCmdMessage, place.read_char, ok_then]
  by_cases ended : rest.bytes = []
  · have none : rest.char = 0 := CString.char_zero.mpr ended
    simp only [none]
    rfl
  · have next := place.next ended
    simp only [parse_create_room_scans next, parse_join_room_scans next, parse_whisper_scans next, parse_list_scans next,
      parse_leave_room_scans next]
    rfl

theorem parse_input_scans (line : CString) (cmd : Cmd) : parseInput line cmd = InputParser.parseInput line cmd := by
  have start := line.at_start
  obtain ⟨overBlanks, atText⟩ := scan_blanks start
  simp only [parseInput, InputParser.parseInput, start.strlen_ok, overBlanks, ok_then, atText.at_end, atText.read_char]
  split
  · rfl
  · rename_i some
    rw [parse_cmd_message_scans (atText.next some)]
    rfl

/-! ### Which lines are left -/

/-- The line is a `/c` with nothing behind it, or with a name that no blank ends. -/
def LeavesLine (line : CString) : Prop := ∃ rest, Commands line 'c' rest ∧ Overruns rest.bytes

private theorem faults_of_leaves (leaves : LeavesLine line) (cmd : Cmd) :
    InputParser.parseInput line cmd = .error .outOfBounds := by
  obtain ⟨rest, commands, overruns⟩ := leaves
  obtain ⟨command, named, parses⟩ := ClientInput.commands_parse commands
  rw [parses, parse_create_command named]
  obtain ⟨_, faults⟩ | ⟨stays, _⟩ := parse_create_room_cases rest { cmd with mType := .chat }
  · exact faults
  · exact absurd overruns stays

/-- The other commands read nothing behind the line. -/
private theorem other_command_returns {command : CString} (other : command.char ≠ byte 'c') (cmd : Cmd) :
    ∃ parsed, InputParser.parseCmdMessage command cmd = .ok parsed := by
  simp only [InputParser.parseCmdMessage, if_neg other]
  repeat' split
  all_goals exact ⟨_, rfl⟩

private theorem returns_of_stays (stays : ¬ LeavesLine line) (cmd : Cmd) :
    ∃ parsed, InputParser.parseInput line cmd = .ok parsed := by
  by_cases word : HasWord line.bytes
  · obtain ⟨front, command, shape, blanks, parses⟩ | ⟨_, _, _, _, _, _, _, parses⟩ := parse_line_cases word cmd
    · rw [parses]
      by_cases create : command.char = byte 'c'
      · have named := (CString.char_some (by decide)).mp create
        rw [parse_create_command named]
        obtain ⟨overruns, _⟩ | ⟨_, ⟨_, _, made, _, parsed, _⟩ | ⟨_, left, refused⟩⟩ :=
          parse_create_room_cases command.next { cmd with mType := .chat }
        · exact absurd ⟨command.next, ⟨front, named ▸ shape, blanks⟩, overruns⟩ stays
        · exact ⟨_, parsed⟩
        · exact ⟨_, refused⟩
      · exact other_command_returns create _
    · exact ⟨_, parses⟩
  · exact ⟨_, parse_blank_line word cmd⟩

/-- Every read of the parser is inside the line exactly when the line is not one
of those. -/
theorem reads_stay_inside_iff (line : CString) (cmd : Cmd) :
    (∃ parsed, parseInput line cmd = .ok parsed) ↔ ¬ LeavesLine line := by
  rw [parse_input_scans]
  constructor
  · rintro ⟨parsed, done⟩ leaves
    cases (faults_of_leaves leaves cmd).symm.trans done
  · intro stays
    exact returns_of_stays stays cmd

/-- A room without a password: the scan for the blank behind its name goes on
behind the line. -/
theorem a_lone_room_name_leaves_the_line : ¬ ∀ (line : CString) (cmd : Cmd), ∃ parsed, parseInput line cmd = .ok parsed := by
  intro claimed
  obtain ⟨parsed, done⟩ := claimed (.ascii "/c den1") .new
  have faults : InputParser.parseInput (.ascii "/c den1") .new = .error .outOfBounds := by decide +kernel
  rw [parse_input_scans] at done
  cases faults.symm.trans done

end ChatRoom.InputScanning
