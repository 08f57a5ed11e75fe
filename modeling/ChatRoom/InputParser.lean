import ChatRoom.Client
import ChatRoom.Lib.CString

/-! `InputParser`: from a typed line to a command. Each function scans its part of
the line with a pointer; its result says whether the line was parsed, and the
command holds what was found so far. `Layout::Start` asks for lines of at most
256 characters, so the offsets into them are exact. -/
namespace ChatRoom
open Lib Wire

/-- A character of the source. -/
def byte (char : Char) : UInt8 := UInt8.ofNat char.toNat

/-- `Cmd::CmdType`. -/
inductive CmdType where
  | createRoom | joinRoom | whisper | leaveRoom | exit | listRoom | listUser | help | chat | null
  deriving DecidableEq

structure Cmd where
  mType : CmdType
  mMsg : Option (List Field)
  /-- The command's invalid reason. -/
  mErrStr : StdString
  mInvalid : Bool
  mLocalCmd : Bool
  deriving DecidableEq

/-- `Cmd::Cmd`. -/
def Cmd.new : Cmd where
  mType := .null
  mMsg := none
  mErrStr := .ascii ""
  mInvalid := true
  mLocalCmd := true

namespace InputParser

/-- What a parse function returns, and the command as it leaves it. -/
abbrev Parsed := Bool × Cmd

variable (input : CString) (cmd : Cmd)

def isSpace (char : UInt8) : Bool := char == byte ' '

def inWord (char : UInt8) : Bool := char != byte ' '

/-- `while (*index != ' ')`, without a look at the terminator: with no blank
left it reads on behind the string. -/
def seekSpace (index : CString) : Except Fault CString :=
  if index.bytes.all inWord then .error .outOfBounds else .ok (index.skip inWord)

/-- `debug_log(... << (input + 1))`: the string to print starts behind the
terminator when `input` is at it. -/
def logBehind : Except Fault Unit := if input.bytes = [] then .error .outOfBounds else .ok ()

/-! ### One function for each command -/

def parseCreateRoom : Except Fault Parsed := do
  let index := input.skip isSpace
  if index.char = 0 then
    logBehind input
    return (false, { cmd with
      mType := .createRoom
      mErrStr := .ascii "create room but empty room name (4-20 char length)" })
  let nameStart := index
  let index ← seekSpace index
  let name := nameStart.passed inWord
  if name.length < 4 ∨ name.length > 20 then
    return (false, { cmd with
      mType := .createRoom
      mErrStr := .ascii "room name at least 4 at most 20 chars length!" })
  let index := index.skip isSpace
  let passwd := index.passed inWord
  if passwd.length < 4 ∨ passwd.length > 20 then
    return (false, { cmd with
      mType := .createRoom
      mErrStr := .ascii "room passwd at least 4 at most 20 chars length!" })
  return (true, { cmd with
    mType := .createRoom
    mInvalid := false
    mLocalCmd := false
    mMsg := some (CRClient.createRoomFields name passwd) })

def parseJoinRoom : Parsed :=
  let index := input.skip isSpace
  if index.char = 0 then
    (false, { cmd with mType := .null, mErrStr := .ascii "list command with no target" })
  else
    let roomName := index.passed inWord
    let index := index.skip inWord
    if roomName.length < 4 ∨ roomName.length > 20 then
      (false, { cmd with mType := .null, mErrStr := .ascii "join room ,but invalid room len!" })
    else
      let index := index.skip isSpace
      let passwd := index.passed inWord
      if passwd.length < 4 ∨ passwd.length > 20 then
        (false, { cmd with mErrStr := .ascii "room passwd at least 4 at most 20 chars length!" })
      else
        (true, { cmd with
          mLocalCmd := false
          mInvalid := false
          mMsg := some (CRClient.joinRoomFields roomName passwd) })

def parseWhisper : Parsed :=
  let index := input.skip isSpace
  if index.char = 0 then
    (false, { cmd with mType := .null, mErrStr := .ascii "list command with no target" })
  else
    let target := index.passed inWord
    let index := index.skip inWord
    let words := (index.skip isSpace).string
    (true, { cmd with
      mLocalCmd := true
      mInvalid := false
      mMsg := some (CRClient.localWhisperFields target words) })

def parseReply : Parsed := (false, cmd)

def parseList : Parsed :=
  let index := input.skip isSpace
  if index.char = 0 then
    (false, { cmd with mType := .null, mErrStr := .ascii "list command with no target" })
  else
    let target := index.passed inWord
    if target = .ascii "room" then
      (true, { cmd with
        mType := .listRoom
        mLocalCmd := true
        mInvalid := false
        mMsg := some [MsgType.localListRoom.field] })
    else (true, { cmd with mType := .null, mErrStr := .ascii "list command with invalid target" })

def parseLeaveRoom : Parsed :=
  if input.char ≠ byte ' ' ∧ input.char ≠ 0 then (false, { cmd with mType := .null })
  else
    (true, { cmd with
      mType := .leaveRoom
      mInvalid := false
      mLocalCmd := true
      mMsg := some [MsgType.localLeaveRoom.field] })

/-! ### The whole line -/

/-- `ParseCmdMessage`: a letter that no case names is parsed, and stays invalid
with an empty reason. -/
def parseCmdMessage : Except Fault Parsed :=
  let ch := input.char
  if ch = byte 'h' then .ok (true, { cmd with mType := .help, mInvalid := false })
  else if ch = byte 'c' then parseCreateRoom input.next cmd
  else if ch = byte 'j' then .ok (parseJoinRoom input.next cmd)
  else if ch = byte 'w' then .ok (parseWhisper input.next cmd)
  else if ch = byte 'r' then .ok (parseReply cmd)
  else if ch = byte 'q' then .ok (parseLeaveRoom input.next cmd)
  else if ch = byte 'e' then .ok (true, { cmd with mType := .exit, mInvalid := false })
  else if ch = byte 'l' then .ok (parseList input.next cmd)
  else if ch = 0 then .ok (false, cmd)
  else .ok (true, cmd)

def parseInput : Except Fault Parsed :=
  let input := input.skip isSpace
  if input.bytes = [] then .ok (false, { cmd with mType := .null })
  else if input.char = byte '/' then parseCmdMessage input.next { cmd with mType := .chat }
  else .ok (false, { cmd with mType := .chat })

end InputParser
end ChatRoom
