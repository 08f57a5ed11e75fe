import ChatRoom.Server
import ChatRoom.PagedRefinement
import ChatRoom.RoomAccess

/-! What `Process` of the worker makes of a context, as the rest of the server
sees it: whom it sends to, who is a user before and behind it, and what goes on to
the net service. -/
namespace ChatRoom.WorkerContexts
open Lib
open PagedRefinement (Bears)

theorem sent_contexts {host : Host} {sent : List Sent} {own : List OperContext}
    (bears : List.Forall₂ (Bears host) sent own) : ∀ ctx ∈ own, ∃ reply ∈ sent, ∃ msg, ctx = .send reply.connId msg := by
  induction bears with
  | nil => exact fun _ inside => nomatch inside
  | @cons reply ctx sent own bear _ ih =>
    intro other inside
    rcases List.mem_cons.mp inside with rfl | behind
    · obtain ⟨msg, sending, _⟩ := bear
      exact ⟨reply, List.mem_cons_self, msg, sending⟩
    · obtain ⟨reply, member, sending⟩ := ih other behind
      exact ⟨reply, List.mem_cons_of_mem _ member, sending⟩

/-- The connection that a context is about. -/
def about : OperContext → Option UInt64
  | .accept _ => none
  | .recv _ connId _ _ => some connId
  | .send connId _ => some connId
  | .drop connId => some connId

/-- What a connection enqueues, and the net service hands over. -/
def raised : OperContext → Bool
  | .accept _ => false
  | .recv _ _ _ _ => true
  | .send _ _ => false
  | .drop _ => true

/-- Replies go to the one who asked and to users; users come with what is received,
and go with reports. -/
structure Worked (keeper : RoomKeeper) (ctx : OperContext) (result : Worker.Processed) : Prop where
  rooms : RoomKeeperInvariant.Inv result.keeper
  replies : ∀ reply ∈ result.own, ∃ connId msg, reply = .send connId msg ∧
    (about ctx = some connId ∨ connId ∈ result.keeper.mIdUser)
  users : ∀ userId ∈ result.keeper.mIdUser,
    userId ∈ keeper.mIdUser ∧ ctx ≠ .drop userId ∨ ∃ msg ip port, ctx = .recv msg userId ip port
  passed : (∃ connId msg, ctx = .send connId msg ∧ result.net = [ctx]) ∨ raised ctx = true ∧ result.net = []

theorem process_worked {host : Host} {keeper : RoomKeeper} {ctx : OperContext} {result : Worker.Processed}
    (inv : RoomKeeperInvariant.Inv keeper) (done : Worker.process host keeper ctx = .ok result) :
    Worked keeper ctx result := by
  cases PagedRefinement.process_cases inv done with
  | @passed connId msg =>
    exact ⟨inv, (fun _ inside => nomatch inside), fun userId inside => .inl ⟨inside, by simp⟩,
      .inl ⟨connId, msg, rfl, rfl⟩⟩
  | @served msg left connId ip port request next sent own read serves bears =>
    refine ⟨WorkerSafety.serve_keeps inv request serves, fun reply inside => ?_, fun userId inside => ?_,
      .inr ⟨rfl, rfl⟩⟩
    · obtain ⟨message, member, built, rfl⟩ := sent_contexts bears reply inside
      refine ⟨message.connId, built, rfl, ?_⟩
      exact (RoomAccess.serve_addressees inv request serves message member).imp_left fun same => by rw [same]; rfl
    · rcases WorkerSafety.serve_users inv request serves inside with before | ⟨rfl, _⟩
      · exact .inl ⟨before, by simp⟩
      · exact .inr ⟨msg, ip, port, rfl⟩
  | @dropped connId next sent own drops bears =>
    obtain ⟨_, _, again, kept⟩ := WorkerSafety.drop_ok inv connId
    cases again.symm.trans drops
    refine ⟨kept, fun reply inside => ?_, fun userId inside => ?_, .inr ⟨rfl, rfl⟩⟩
    · obtain ⟨message, member, built, rfl⟩ := sent_contexts bears reply inside
      exact ⟨message.connId, built, rfl, .inr (RoomAccess.drop_addressees inv drops message member)⟩
    · obtain ⟨other, before⟩ := WorkerSafety.drop_users inv drops inside
      exact .inl ⟨before, by simpa using Ne.symm other⟩

end ChatRoom.WorkerContexts
