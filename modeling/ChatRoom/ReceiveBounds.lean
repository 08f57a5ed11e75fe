import ChatRoom.Worker
import ChatRoom.ClientReading

/-! Which messages from a peer are read inside their own bytes. `>>` has no
bounds check and no handler makes one, so what keeps the reads inside is the
message itself: it has to start with complete values of everything its type
calls for. The grammars of both sides say what that is. -/
namespace ChatRoom.ReceiveBounds
open Lib Wire

/-- No read of a handler goes past the end of the message, also not where the length
of a string is so large that it throws instead of reading. -/
def ReadsInside (handler : FieldReader α) (frame : Frame) : Prop :=
  ∀ fault, handler.run Msg.read frame.msg = .error fault → fault ≠ .outOfBounds ∧ fault ≠ .lengthError

/-- A handler that goes through exactly on the values of a grammar reads inside
a message exactly when the message starts with an encoding of such values. -/
theorem reads_inside_iff {handler : FieldReader α} (fieldsOf : ι → List Field) (act : ι → α)
    (grammar : ∀ result fields rest, handler.run Reader.takeValue fields = .ok (result, rest) ↔
      ∃ item, fields = fieldsOf item ++ rest ∧ result = act item) (frame : Frame) :
    ReadsInside handler frame ↔ ∃ item, encode (fieldsOf item) <+: frame.payload := by
  have unread := MsgReading.unread_frame frame
  constructor
  · intro inside
    cases ran : handler.run Msg.read frame.msg with
    | error fault =>
      obtain ⟨bounded, possible⟩ := inside fault ran
      rcases Reader.run_fault (fun fault => fault = .outOfBounds ∨ fault = .lengthError) MsgReading.read_fault ran with
        outside | long
      · exact absurd outside bounded
      · exact absurd long possible
    | ok reply =>
      obtain ⟨result, next⟩ := reply
      obtain ⟨fields, rest, values, payload, _⟩ := MsgReading.run_read_values unread ran
      obtain ⟨item, same, _⟩ := (grammar result fields []).mp values
      rw [List.append_nil] at same
      exact ⟨item, rest, by rw [payload, same]⟩
  · rintro ⟨item, rest, payload⟩ fault stopped
    rw [← payload] at unread
    obtain ⟨next, ran, _⟩ := MsgReading.run_read_of_values unread
      ((grammar (act item) (fieldsOf item) []).mpr ⟨item, (List.append_nil _).symm, rfl⟩)
    cases ran.symm.trans stopped

/-- The server reads inside a message exactly when it starts with a request, and
a client exactly when it starts with one of the messages it knows. An unknown
type alone is such a request and such a message. -/
theorem handlers_read_inside_iff (frame : Frame) :
    (∀ ip port connId, ReadsInside (Worker.recvMessage ip port connId) frame ↔
      ∃ request : Worker.Request, encode request.fields <+: frame.payload) ∧
    ∀ client : CRClient, ReadsInside client.recvMessage frame ↔
      ∃ message : ClientReading.Message, encode message.fields <+: frame.payload :=
  ⟨fun ip port connId => reads_inside_iff Worker.Request.fields (Worker.serve ip port connId)
      (fun _ _ _ => Worker.recv_message_ok ip port connId) frame,
    fun client => reads_inside_iff ClientReading.Message.fields (ClientReading.answer client)
      (fun _ _ _ => ClientReading.recv_message_ok) frame⟩

/-- A logon of four bytes: the type, and no name. -/
def namelessLogon : Frame := .carrying [0, 0, 0, 1] (by decide) (by decide)

theorem a_nameless_logon_is_read_past_its_end :
    ¬ ∀ frame : Frame, (∀ ip port connId, ReadsInside (Worker.recvMessage ip port connId) frame) ∧
      ∀ client : CRClient, ReadsInside client.recvMessage frame := by
  intro always
  exact ((always namelessLogon).1 (.ascii "10.0.0.1") 4000 1 .outOfBounds rfl).1 rfl

end ChatRoom.ReceiveBounds
