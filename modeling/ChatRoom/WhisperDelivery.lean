import ChatRoom.PagedRefinement
import Mathlib.Data.FinEnum

/-! Who a whisper goes to. `RoomKeeper` finds the user of a name through two maps,
that logons and drops maintain; what they are meant to say together is a roster,
the connections that are logged on and their names, which follows from the
history alone. -/
namespace ChatRoom.WhisperDelivery
open Lib Wire RoomKeeper RoomKeeperInvariant Worker PagedRefinement
open MsgBuffer (RoomFor letters letters_length)

variable {host : Host} {keeper next : RoomKeeper} {connId target : UInt64} {request : RoomKeeper.Request} {outcome : Outcome}
  {name toName words : StdString} {events : List Worker.Event} {event : Worker.Event} {sent : List Sent}
  {replies : List (List Sent)}

/-! ### The roster -/

/-- The connections that are logged on, each with the name it has. -/
abbrev Roster := UInt64 → Option StdString

namespace Roster

def nobody : Roster := fun _ => none

/-- What becomes of the roster: a connection that is not logged on gets a name that
nobody has, and loses it when it is dropped. -/
noncomputable def after (roster : Roster) : Worker.Event → Roster
  | .recv delivery (.logon name) _ =>
    open Classical in
    if roster delivery.connId = none ∧ ∀ other, roster other ≠ some name then
      Function.update roster delivery.connId (some name)
    else roster
  | .recv _ _ _ => roster
  | .drop connId => Function.update roster connId none

end Roster

/-- What a whisper is answered with, and to which connection: the words to whoever has the
name on the roster, or the name back to the sender. -/
inductive Answers (roster : Roster) (connId : UInt64) (sender toName words : StdString) : Sent → Prop where
  | reaches {target : UInt64} (has : roster target = some toName) :
      Answers roster connId sender toName words ⟨target, whisperMsg sender words⟩
  | fails (nobody : ∀ target, roster target ≠ some toName) :
      Answers roster connId sender toName words
        ⟨connId, [MsgType.s2cWhisperMsgFailed.field, .str toName, .str (.ascii "user not exists!")]⟩

/-- The message of the answer has room. -/
def Roomy (host : Host) (roster : Roster) (connId : UInt64) (sender toName words : StdString) : Prop :=
  ∀ answer, Answers roster connId sender toName words answer → HasRoom host answer.fields

/-- Ann and Bob log on. -/
private def annAndBob : List WorkerSafety.Asked :=
  [⟨1, .logon (.ascii "ann"), WorkerSafety.Asked.ann_fits⟩, ⟨2, .logon (.ascii "bob"), WorkerSafety.Asked.bob_fits⟩]

end ChatRoom.WhisperDelivery
