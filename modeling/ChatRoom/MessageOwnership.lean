import ChatRoom.OwningConnection
import Mathlib.Data.List.Nodup

/-! Every outgoing message is freed exactly once. The queue and what was deleted
are together what was handed over, each message once; and as long as the connection
is not closed, the message that is being sent is the front of the queue. After
`Close` a pointer to a deleted message stays behind, but `WriteData` looks at it
no more. -/
namespace ChatRoom.MessageOwnership
open Lib OwningConnection

variable {owner next : OwningConnection} {msg : Nat} {answer : Sendable} {running : Bool}

/-- The queue and the deleted messages are all that was handed over. -/
def Ledger (owner : OwningConnection) : Prop :=
  (owner.mToSendMsg ++ owner.heap.deleted).Perm (List.range owner.heap.made.length)

/-- What holds between two calls. -/
structure Inv (owner : OwningConnection) : Prop where
  ledger : Ledger owner
  front : owner.alive = true → owner.base.mClosed = false → ∀ msg, owner.mCurrentSendMsg = some msg →
    owner.mToSendMsg.head? = some msg
  gone : owner.alive = false → owner.mToSendMsg = []
  known : ∀ msg, owner.mCurrentSendMsg = some msg → msg < owner.heap.made.length

theorem free_all (heap : MsgHeap) (mToSendMsg : List Nat) :
    freeAll heap mToSendMsg = { heap with deleted := heap.deleted ++ mToSendMsg } := by
  induction mToSendMsg generalizing heap with
  | nil => simp [freeAll]
  | cons msg mToSendMsg ih =>
    rw [freeAll, ih]
    simp [MsgHeap.delete]

theorem queued_known (ledger : Ledger owner) (queued : msg ∈ owner.mToSendMsg) : msg < owner.heap.made.length :=
  List.mem_range.mp (ledger.subset (List.mem_append_left _ queued))

/-- What is queued has not been deleted. -/
theorem queued_alive (ledger : Ledger owner) (queued : msg ∈ owner.mToSendMsg) :
    ∃ found, owner.heap.made[msg]? = some found ∧ owner.heap.deref msg = .ok found := by
  have nodup : (owner.mToSendMsg ++ owner.heap.deleted).Nodup := ledger.nodup_iff.mpr List.nodup_range
  have apart : msg ∉ owner.heap.deleted := fun deleted => (List.nodup_append.mp nodup).2.2 msg queued msg deleted rfl
  have inside := queued_known ledger queued
  refine ⟨owner.heap.made[msg], List.getElem?_eq_getElem inside, ?_⟩
  rw [MsgHeap.deref, if_neg apart, List.getElem?_eq_getElem inside]

/-! ### Freeing all -/

theorem ledger_freed (ledger : Ledger owner) : Ledger owner.freeNotSendMsg := by
  rw [Ledger, freeNotSendMsg, free_all]
  exact (@List.perm_append_comm _ owner.heap.deleted owner.mToSendMsg).trans ledger

theorem freed_made (owner : OwningConnection) : owner.freeNotSendMsg.heap.made = owner.heap.made := by
  rw [freeNotSendMsg, free_all]

theorem inv_freed (ledger : Ledger owner) (known : ∀ msg, owner.mCurrentSendMsg = some msg → msg < owner.heap.made.length)
    (ended : owner.base.mClosed = true ∨ owner.alive = false) : Inv owner.freeNotSendMsg where
  ledger := ledger_freed ledger
  front alive opened := by
    rcases ended with closed | dead
    · cases closed.symm.trans opened
    · cases dead.symm.trans alive
  gone _ := rfl
  known := by
    rw [freed_made]
    exact known

theorem inv_close (inv : Inv owner) : Inv owner.close := by
  unfold OwningConnection.close
  split
  · exact inv
  · exact @inv_freed { owner with base := owner.base.close } inv.ledger inv.known (.inl (by simp))

theorem close_made (owner : OwningConnection) : owner.close.heap.made = owner.heap.made := by
  unfold OwningConnection.close
  split
  · rfl
  · exact freed_made _

theorem inv_destroy (inv : Inv owner) : Inv owner.destroy :=
  @inv_freed { owner with base := { owner.base with mSocket := owner.base.mSocket.close }, alive := false } inv.ledger
    inv.known
    (.inr rfl)

/-! ### Enqueueing and reading -/

theorem inv_enqueue (inv : Inv owner) (msg : Msg) (alive : owner.alive = true) : Inv (owner.enqueue msg) where
  ledger := by
    rw [Ledger, OwningConnection.enqueue, List.length_append, List.length_singleton, List.range_succ, List.append_assoc]
    exact (List.perm_append_comm.append_left owner.mToSendMsg).trans
      ((List.append_assoc owner.mToSendMsg _ _).symm ▸ inv.ledger.append_right _)
  front _ opened ptr current := by
    rw [OwningConnection.enqueue, List.head?_append, inv.front alive opened ptr current]
    rfl
  gone dead := by cases alive.symm.trans dead
  known ptr current := by
    rw [OwningConnection.enqueue, List.length_append]
    exact Nat.lt_add_right _ (inv.known ptr current)

theorem inv_read (inv : Inv owner) {arrivals : List Arrival} (alive : owner.alive = true)
    (done : owner.readData running arrivals = .ok next) : Inv next ∧ next.heap.made = owner.heap.made := by
  obtain ⟨result, read, same⟩ := bind_ok.mp done
  cases same
  split
  next closing =>
    rw [Bool.and_eq_true, Bool.not_eq_true'] at closing
    exact ⟨@inv_freed { owner with base := result.conn } inv.ledger inv.known (.inl closing.2), freed_made _⟩
  next still =>
    refine ⟨⟨inv.ledger, fun alive opened => inv.front alive ?_, fun dead => absurd (alive.symm.trans dead) (by simp),
      inv.known⟩, rfl⟩
    rcases TcpConnection.read_keeps_fd read with ⟨flag, _⟩ | ⟨before, _⟩
    · exact flag.symm.trans opened
    · exact before

/-! ### Writing -/

/-- What `WriteData` comes to: another fault than a dangling pointer, or a state
that is right again. -/
def Fine (made : List Msg) (result : Except Fault OwningConnection) : Prop :=
  result ≠ .error .danglingPointer ∧ ∀ next, result = .ok next → Inv next ∧ next.heap.made = made

theorem fine_ok (inv : Inv owner) : Fine owner.heap.made (.ok owner) := by
  refine ⟨by simp, ?_⟩
  rintro next ⟨⟩
  exact ⟨inv, rfl⟩

theorem fine_overflow {made : List Msg} {value : Int} {rest : Int → Except Fault OwningConnection}
    (fine : ∀ result, Fine made (rest result)) : Fine made (checkInt value >>= rest) := by
  unfold checkInt
  split
  · exact fine value
  · exact ⟨by simp, fun next done => by cases done⟩

/-- The message that is sent is the front of the queue. -/
theorem advance_fine {queue : List Nat} (inv : Inv owner) (alive : owner.alive = true)
    (front : owner.mToSendMsg = msg :: queue) (sent : Int) : Fine owner.heap.made (owner.advance msg sent) := by
  rw [OwningConnection.advance]
  apply fine_overflow
  intro mSent
  apply fine_overflow
  intro mToSend
  dsimp only
  split
  · rw [front]
    apply fine_ok
    refine ⟨?_, fun _ _ _ current => (nomatch current), fun dead => absurd (alive.symm.trans dead) (by simp),
      fun _ current => (nomatch current)⟩
    have ledger := inv.ledger
    rw [Ledger, front] at ledger
    refine List.Perm.trans ?_ ledger
    simp only [resetSend, MsgHeap.delete]
    rw [← List.append_assoc]
    exact (List.perm_append_singleton msg _)
  · exact fine_ok ⟨inv.ledger, inv.front, inv.gone, inv.known⟩

theorem send_more_fine {queue : List Nat} (inv : Inv owner) (alive : owner.alive = true)
    (front : owner.mToSendMsg = msg :: queue) : Fine owner.heap.made (owner.sendMore msg answer) := by
  obtain ⟨found, _, deref⟩ := queued_alive inv.ledger (by rw [front]; exact List.mem_cons_self)
  rw [OwningConnection.sendMore, deref, ok_then]
  dsimp only
  split
  · have reset : Inv { owner with
        base := { owner.base with mSocket := (owner.base.mSocket.sendCount owner.base.mToSend answer).2.2 } }.resetSend :=
      ⟨inv.ledger, fun _ _ _ current => (nomatch current), inv.gone, fun _ current => (nomatch current)⟩
    have closed := fine_ok (inv_close reset)
    rwa [close_made] at closed
  · exact @advance_fine { owner with
      base := { owner.base with mSocket := (owner.base.mSocket.sendCount owner.base.mToSend answer).2.2 } } msg queue
      ⟨inv.ledger, inv.front, inv.gone, inv.known⟩ alive front _

theorem write_fine (inv : Inv owner) (alive : owner.alive = true) : Fine owner.heap.made (owner.writeData answer) := by
  unfold OwningConnection.writeData
  split
  · exact fine_ok inv
  next working =>
    have opened : owner.base.mClosed = false := by simp_all
    cases current : owner.mCurrentSendMsg with
    | some msg =>
      obtain ⟨queue, front⟩ := List.head?_eq_some_iff.mp (inv.front alive opened msg current)
      exact send_more_fine inv alive front
    | none =>
      simp only [initNextSend]
      cases queue : owner.mToSendMsg with
      | nil => exact fine_ok inv
      | cons msg rest =>
        have queued : msg ∈ owner.mToSendMsg := by rw [queue]; exact List.mem_cons_self
        obtain ⟨found, _, deref⟩ := queued_alive inv.ledger queued
        simp only [deref, ok_then, pure_ok]
        refine @send_more_fine { owner with
          mCurrentSendMsg := some msg
          base := { owner.base with mToSend := found.getTotalLen, mSent := 0 }
          mToSendMsg := msg :: rest } msg answer rest
          ⟨queue ▸ inv.ledger, fun _ _ ptr same => ?_, fun dead => ?_, fun ptr same => ?_⟩ alive rfl
        · cases same
          rfl
        · cases alive.symm.trans dead
        · cases same
          exact @queued_known owner msg inv.ledger queued

/-! ### Runs -/

def handedOver : Use → Option Msg
  | .enqueue msg => some msg
  | .write _ => none
  | .read _ => none
  | .close => none
  | .destroy => none

theorem step_keeps (inv : Inv owner) {use : Use} {output : Unit}
    (done : OwningConnection.step running owner use = .ok (next, output)) :
    Inv next ∧ next.heap.made = owner.heap.made ++ (handedOver use).toList := by
  unfold OwningConnection.step at done
  split at done
  next alive =>
    obtain ⟨after, taken, same⟩ := bind_ok.mp done
    cases same
    cases use with
    | enqueue msg =>
      cases taken
      exact ⟨inv_enqueue inv msg alive, rfl⟩
    | write answer =>
      rw [handedOver, Option.toList_none, List.append_nil]
      exact (write_fine inv alive).2 next taken
    | read arrivals =>
      rw [handedOver, Option.toList_none, List.append_nil]
      exact inv_read inv alive taken
    | close =>
      cases taken
      exact ⟨inv_close inv, by rw [close_made, handedOver, Option.toList_none, List.append_nil]⟩
    | destroy =>
      cases taken
      refine ⟨inv_destroy inv, ?_⟩
      rw [OwningConnection.destroy, freed_made, handedOver, Option.toList_none, List.append_nil]
  next => cases done

/-- Where the messages of a connection are. -/
structure FreedOnce (handed : List Msg) (owner : OwningConnection) : Prop where
  made : owner.heap.made = handed
  once : ∀ msg < handed.length,
    owner.mToSendMsg.count msg = 1 ∧ owner.heap.deleted.count msg = 0 ∨
      owner.mToSendMsg.count msg = 0 ∧ owner.heap.deleted.count msg = 1
  current : owner.alive = true → owner.base.mClosed = false →
    owner.mCurrentSendMsg = none ∨ owner.mCurrentSendMsg = owner.mToSendMsg.head?
  safe : owner.alive = true → ∀ answer, owner.writeData answer ≠ .error .danglingPointer
  freed : owner.alive = false → ∀ msg < handed.length, owner.heap.deleted.count msg = 1

theorem freed_once_of_inv (inv : Inv owner) : FreedOnce owner.heap.made owner := by
  have counts (msg : Nat) (known : msg < owner.heap.made.length) :
      owner.mToSendMsg.count msg + owner.heap.deleted.count msg = 1 := by
    rw [← List.count_append, inv.ledger.count_eq, List.count_eq_one_of_mem List.nodup_range (List.mem_range.mpr known)]
  refine ⟨rfl, fun msg known => ?_, fun alive opened => ?_, fun alive answer => (write_fine inv alive).1,
    fun dead msg known => ?_⟩
  · have total := counts msg known
    omega
  · cases current : owner.mCurrentSendMsg with
    | none => exact .inl rfl
    | some msg => exact .inr (inv.front alive opened msg current).symm
  · have total := counts msg known
    rwa [inv.gone dead, List.count_nil, Nat.zero_add] at total

theorem inv_new (sock : TcpSocket) (connID : UInt64) : Inv (.new sock connID) where
  ledger := List.Perm.nil
  front _ _ _ current := by cases current
  gone _ := rfl
  known _ current := by cases current

/-- In every order of calls, each message that was handed over is queued or
deleted, once; what is being sent is the front of the queue; and `WriteData` finds
no message deleted. -/
theorem messages_are_freed_once (sock : TcpSocket) (connID : UInt64) (running : Bool) (uses : List Use)
    (final : OwningConnection) (outputs : List Unit)
    (ran : run (OwningConnection.step running) (.new sock connID) uses = .ok (final, outputs)) :
    FreedOnce (uses.filterMap handedOver) final := by
  have held := run_history_always (fun owner seen => Inv owner ∧ owner.heap.made = (seen.map Prod.fst).filterMap handedOver)
    (by
      intro owner seen use next output ⟨inv, made⟩ done
      obtain ⟨invToo, added⟩ := step_keeps inv done
      refine ⟨invToo, ?_⟩
      rw [added, made, List.map_append, List.filterMap_append]
      cases handed : handedOver use <;> simp [handed])
    ⟨inv_new sock connID, rfl⟩ ran
  have events : (uses.zip outputs).map Prod.fst = uses := List.map_fst_zip (le_of_eq (run_length ran).symm)
  obtain ⟨inv, made⟩ := held
  rw [events] at made
  rw [← made]
  exact freed_once_of_inv inv

private def greeting : Msg := ⟨[0, 0, 0, 4, 0, 0, 0, 0, 1, 2, 3, 4], 0, 4, 12⟩

/-- The first message is sent, the second only in part when the peer goes, and the
third comes after that. -/
def threeGreetings : List Use :=
  [.enqueue greeting, .write (.accepts 12 (by decide)), .enqueue greeting, .write (.accepts 9 (by decide)), .read [.fin],
    .enqueue greeting, .destroy]

theorem three_greetings_are_freed :
    ∃ final outputs,
      run (OwningConnection.step true) (.new (.accepted (.ascii "h") 80 7) 1) threeGreetings = .ok (final, outputs) ∧
      FreedOnce [greeting, greeting, greeting] final ∧ final.heap.deleted = [0, 1, 2] := by
  have goes : (run (OwningConnection.step true) (.new (.accepted (.ascii "h") 80 7) 1) threeGreetings).toOption.map
      (fun reply => reply.1.heap.deleted) = some [0, 1, 2] := by decide +kernel
  obtain ⟨⟨final, outputs⟩, ran, deleted⟩ := Option.map_eq_some_iff.mp goes
  have done := ok_of_option ran
  exact ⟨final, outputs, done, messages_are_freed_once _ _ _ _ _ _ done, deleted⟩

end ChatRoom.MessageOwnership
