import ChatRoom.MessageOwnership
import ChatRoom.SendStream

/-! A connection with its messages by pointer does what the one with the messages
themselves does: each call that goes through there goes through here, and leaves
pointers to the same messages. So what the stream of a connection is, and which
messages are freed, are facts about the same runs. -/
namespace ChatRoom
open Lib

/-! ### Reading does not look at the fields for sending -/

namespace TcpConnection

variable {conn next middle : TcpConnection} {arrivals rest : List Arrival} {err : Int} {running : Bool}

/-- The connection with other fields for sending. -/
def withSend (conn : TcpConnection) (mCurrentSendMsg : Option Msg) (mToSendMsg : List Msg) : TcpConnection :=
  { conn with mCurrentSendMsg, mToSendMsg }

variable (mCurrentSendMsg : Option Msg) (mToSendMsg : List Msg)

/-- What is queued is deleted when the connection gets closed. -/
def leftOf (before after : TcpConnection) : List Msg := if !before.mClosed && after.mClosed then [] else mToSendMsg

theorem left_of_still (still : next.mClosed = conn.mClosed) : leftOf mToSendMsg conn next = mToSendMsg := by
  rw [leftOf, still, if_neg (by simp)]

theorem close_with_send (same : middle.mClosed = conn.mClosed) :
    (middle.withSend mCurrentSendMsg mToSendMsg).close =
      middle.close.withSend mCurrentSendMsg (leftOf mToSendMsg conn middle.close) := by
  rw [leftOf, close_closed, ← same]
  cases shut : middle.mClosed with
  | true => simp [close, withSend, shut]
  | false => simp [close, withSend, shut]

private theorem recv_more_with_send (done : conn.recvMore arrivals = .ok (err, next, rest)) :
    (conn.withSend mCurrentSendMsg mToSendMsg).recvMore arrivals =
      .ok (err, next.withSend mCurrentSendMsg (leftOf mToSendMsg conn next), rest) := by
  obtain ⟨mToRecv, mRecved, mCurrentRecvMsg, mToSend, mSent, current, queue, mSocket, mConnID, mClosed⟩ := conn
  cases mCurrentRecvMsg with
  | none => cases done
  | some msg =>
    obtain ⟨⟨failed, socket, recved, behind⟩, received, done⟩ := bind_ok.mp done
    refine bind_ok.mpr ⟨_, received, ?_⟩
    dsimp only at done ⊢
    split at done
    next bad =>
      cases done
      rw [if_pos bad]
      have closed := @close_with_send
        ⟨mToRecv, mRecved, some msg, mToSend, mSent, current, queue, mSocket, mConnID, mClosed⟩
        ⟨mToRecv, mRecved, some msg, mToSend, mSent, current, queue, socket, mConnID, mClosed⟩ mCurrentSendMsg mToSendMsg rfl
      exact congrArg (fun closed => Except.ok (err, closed, rest)) closed
    next good =>
      obtain ⟨mData, copied, same⟩ := bind_ok.mp done
      cases same
      rw [if_neg good]
      refine bind_ok.mpr ⟨mData, copied, ?_⟩
      simp [withSend, leftOf, pure_ok]

private theorem start_msg_with_send {dataLen : Int} (done : conn.startMsg dataLen = .ok next) :
    (conn.withSend mCurrentSendMsg mToSendMsg).startMsg dataLen = .ok (next.withSend mCurrentSendMsg mToSendMsg) ∧
      next.mClosed = conn.mClosed := by
  rw [startMsg] at done ⊢
  split at done
  · cases done
  next idle =>
    obtain ⟨msg, made, done⟩ := bind_ok.mp done
    obtain ⟨framed, lengthSet, done⟩ := bind_ok.mp done
    obtain ⟨total, checked, same⟩ := bind_ok.mp done
    cases same
    simp [withSend, idle, made, lengthSet, checked, pure_ok]

private theorem try_read_with_send (done : conn.tryRead arrivals = .ok (err, next, rest)) :
    (conn.withSend mCurrentSendMsg mToSendMsg).tryRead arrivals =
      .ok (err, next.withSend mCurrentSendMsg (leftOf mToSendMsg conn next), rest) := by
  rw [tryRead] at done ⊢
  split at done
  next ended =>
    cases done
    rw [left_of_still mToSendMsg rfl]
    exact if_pos ended
  next working =>
    refine (if_neg working).trans ?_
    split at done
    next begun => exact (if_pos begun).trans (recv_more_with_send mCurrentSendMsg mToSendMsg done)
    next fresh =>
      refine (if_neg fresh).trans ?_
      obtain ⟨⟨failed, dataLen, socket, behind⟩, received, done⟩ := bind_ok.mp done
      dsimp only [withSend]
      rw [received]
      simp only [ok_then]
      dsimp only at done
      split at done
      next bad =>
        cases done
        rw [if_pos bad]
        have closed := @close_with_send conn { conn with mSocket := socket } mCurrentSendMsg mToSendMsg rfl
        exact congrArg (fun closed => Except.ok (err, closed, rest)) closed
      next good =>
        obtain ⟨started, start, more⟩ := bind_ok.mp done
        obtain ⟨startToo, flag⟩ := start_msg_with_send mCurrentSendMsg mToSendMsg start
        rw [if_neg good]
        refine bind_ok.mpr ⟨_, startToo, ?_⟩
        rw [recv_more_with_send mCurrentSendMsg mToSendMsg more, leftOf, leftOf, flag]
        rfl

private theorem finish_with_send {result : ReadResult} {full : List OperContext}
    (done : (if err ≠ 0 then pure
      { err, conn := next.resetRecv, rest, enqueued := full ++ handOver running (.drop next.mConnID) }
      else pure { err, conn := next, rest, enqueued := full }) = (.ok result : Except Fault ReadResult)) :
    (if err ≠ 0 then pure {
        err
        conn := (next.withSend mCurrentSendMsg (leftOf mToSendMsg conn next)).resetRecv
        rest
        enqueued := full ++ handOver running (.drop next.mConnID) }
      else pure { err, conn := next.withSend mCurrentSendMsg (leftOf mToSendMsg conn next), rest, enqueued := full }) =
      (.ok { result with conn := result.conn.withSend mCurrentSendMsg (leftOf mToSendMsg conn result.conn) } :
        Except Fault ReadResult) := by
  split at done
  next failed =>
    cases done
    exact if_pos failed
  next fine =>
    cases done
    exact if_neg fine

/-- Reading does not look at the fields for sending. -/
theorem read_data_with_send {result : ReadResult} (done : conn.readData running arrivals = .ok result) :
    (conn.withSend mCurrentSendMsg mToSendMsg).readData running arrivals =
      .ok { result with conn := result.conn.withSend mCurrentSendMsg (leftOf mToSendMsg conn result.conn) } := by
  rw [readData] at done ⊢
  obtain ⟨⟨err, next, rest⟩, tried, done⟩ := bind_ok.mp done
  refine bind_ok.mpr ⟨_, try_read_with_send mCurrentSendMsg mToSendMsg tried, ?_⟩
  obtain ⟨mToRecv, mRecved, mCurrentRecvMsg, mToSend, mSent, current, queue, mSocket, mConnID, mClosed⟩ := next
  dsimp only at done ⊢
  split at done
  next full =>
    cases mCurrentRecvMsg with
    | none => cases done
    | some msg =>
      simp only [pure_ok, ok_then] at done
      rw [if_pos (by exact full)]
      exact finish_with_send mCurrentSendMsg mToSendMsg done
  next part =>
    simp only [pure_ok, ok_then] at done
    rw [if_neg (by exact part)]
    exact finish_with_send mCurrentSendMsg mToSendMsg done

end TcpConnection

namespace OwningRefinement
open OwningConnection MessageOwnership

variable {owner next : OwningConnection} {msg : Nat} {answer : Sendable} {running : Bool} {arrivals : List Arrival}

/-- The messages in place of the pointers. -/
def value (owner : OwningConnection) : TcpConnection :=
  owner.base.withSend (owner.mCurrentSendMsg.bind (owner.heap.made[·]?)) (owner.mToSendMsg.filterMap (owner.heap.made[·]?))

/-- The destructor has not run, and the pointers stand for these messages. -/
def StandsFor (owner : OwningConnection) (conn : TcpConnection) : Prop := owner.alive = true ∧ value owner = conn

/-! ### One call -/

theorem value_enqueue (inv : Inv owner) (added : Msg) : value (owner.enqueue added) = (value owner).enqueue added := by
  have current : owner.mCurrentSendMsg.bind ((owner.heap.made ++ [added])[·]?) =
      owner.mCurrentSendMsg.bind (owner.heap.made[·]?) := by
    cases sending : owner.mCurrentSendMsg with
    | none => rfl
    | some msg => exact List.getElem?_append_left (inv.known msg sending)
  have queue : owner.mToSendMsg.filterMap ((owner.heap.made ++ [added])[·]?) =
      owner.mToSendMsg.filterMap (owner.heap.made[·]?) := by
    apply List.filterMap_congr
    intro msg queued
    exact List.getElem?_append_left (queued_known inv.ledger queued)
  simp only [value, OwningConnection.enqueue, TcpConnection.enqueue, TcpConnection.withSend, List.filterMap_append,
    current, queue]
  simp

theorem value_freed (owner : OwningConnection) :
    value owner.freeNotSendMsg = owner.base.withSend (owner.mCurrentSendMsg.bind (owner.heap.made[·]?)) [] := by
  rw [freeNotSendMsg, free_all]
  rfl

theorem close_alive (owner : OwningConnection) : owner.close.alive = owner.alive := by
  rw [OwningConnection.close]
  split
  · rfl
  · rfl

theorem value_close (owner : OwningConnection) : value owner.close = (value owner).close := by
  rw [value.eq_def owner, TcpConnection.close_with_send _ _ (rfl : owner.base.mClosed = owner.base.mClosed),
    OwningConnection.close]
  split
  next closed =>
    have same : owner.base.close = owner.base := by rw [TcpConnection.close, if_pos closed]
    rw [same, TcpConnection.left_of_still _ rfl]
    rfl
  next opened =>
    rw [value_freed, TcpConnection.leftOf, if_pos (by simp [opened])]

theorem read_stands_for {result : ReadResult} (alive : owner.alive = true)
    (done : (value owner).readData running arrivals = .ok result) :
    ∃ next, owner.readData running arrivals = .ok next ∧ StandsFor next result.conn := by
  obtain ⟨other, based, same⟩ : ∃ other, owner.base.readData running arrivals = .ok other ∧
      result.conn = other.conn.withSend (owner.mCurrentSendMsg.bind (owner.heap.made[·]?))
        (TcpConnection.leftOf (owner.mToSendMsg.filterMap (owner.heap.made[·]?)) owner.base other.conn) := by
    have based := TcpConnection.read_data_with_send owner.base.mCurrentSendMsg owner.base.mToSendMsg done
    refine ⟨_, based, ?_⟩
    have again := TcpConnection.read_data_with_send (owner.mCurrentSendMsg.bind (owner.heap.made[·]?))
      (owner.mToSendMsg.filterMap (owner.heap.made[·]?)) based
    exact congrArg ReadResult.conn (Except.ok.inj (done.symm.trans again))
  refine ⟨_, bind_ok.mpr ⟨other, based, rfl⟩, ?_⟩
  rw [same, TcpConnection.leftOf]
  by_cases closing : (!owner.base.mClosed && other.conn.mClosed) = true
  · rw [if_pos closing, if_pos closing]
    exact ⟨alive, value_freed _⟩
  · rw [if_neg closing, if_neg closing]
    exact ⟨alive, rfl⟩

theorem send_count_ok {socket after : TcpSocket} {block taken : List UInt8} {start len err sent : Int}
    (done : socket.send block start len answer = .ok (err, sent, after, taken)) :
    socket.sendCount len answer = (err, sent, after) := by
  unfold TcpSocket.send at done
  unfold TcpSocket.sendCount
  split at done
  next ended =>
    cases done
    exact if_pos ended
  next working =>
    rw [if_neg working]
    cases answer with
    | fail errno =>
      dsimp only at done ⊢
      split at done
      next again =>
        cases done
        exact if_pos again
      next failed =>
        cases done
        exact if_neg failed
    | accepts count some =>
      obtain ⟨bytes, copied, same⟩ := bind_ok.mp done
      cases same
      obtain ⟨_, inside, which⟩ := peek_ok.mp copied
      have length : taken.length = min count (toSizeT len) := by
        rw [which, List.length_take, List.length_drop]
        omega
      rw [length]

theorem advance_stands_for {queue : List Nat} {found : Msg} {sent : Int} {after : TcpConnection}
    (alive : owner.alive = true) (front : owner.mToSendMsg = msg :: queue) (known : owner.heap.made[msg]? = some found)
    (done : (value owner).advance sent = .ok after) :
    ∃ next, owner.advance msg sent = .ok next ∧ StandsFor next after := by
  rw [TcpConnection.advance] at done
  obtain ⟨mSent, forward, done⟩ := bind_ok.mp done
  obtain ⟨mToSend, fewer, done⟩ := bind_ok.mp done
  dsimp only at done
  split at done
  next all =>
    cases done
    have removed : owner.advance msg sent = .ok (OwningConnection.resetSend { owner with
        base := { owner.base with mSent, mToSend }
        mToSendMsg := queue
        heap := owner.heap.delete msg }) := by
      refine bind_ok.mpr ⟨mSent, forward, bind_ok.mpr ⟨mToSend, fewer, ?_⟩⟩
      dsimp only
      rw [if_pos all, front]
      rfl
    refine ⟨_, removed, alive, ?_⟩
    simp [value, TcpConnection.withSend, OwningConnection.resetSend, TcpConnection.resetSend, MsgHeap.delete, front, known]
  next part =>
    cases done
    have counted : owner.advance msg sent = .ok { owner with base := { owner.base with mSent, mToSend } } :=
      bind_ok.mpr ⟨mSent, forward, bind_ok.mpr ⟨mToSend, fewer, if_neg part⟩⟩
    exact ⟨_, counted, alive, rfl⟩

theorem send_more_stands_for {queue : List Nat} {found : Msg} {result : WriteResult}
    (alive : owner.alive = true) (front : owner.mToSendMsg = msg :: queue) (known : owner.heap.made[msg]? = some found)
    (deref : owner.heap.deref msg = .ok found) (done : (value owner).sendMore found running answer = .ok result) :
    ∃ next, owner.sendMore msg answer = .ok next ∧ StandsFor next result.conn := by
  rw [TcpConnection.sendMore] at done
  obtain ⟨⟨err, sent, socket, taken⟩, sending, done⟩ := bind_ok.mp done
  rw [OwningConnection.sendMore, deref, ok_then]
  have count : owner.base.mSocket.sendCount owner.base.mToSend answer = (err, sent, socket) := send_count_ok sending
  rw [count]
  dsimp only at done ⊢
  split at done
  next failed =>
    cases done
    rw [if_pos failed]
    refine ⟨_, rfl, (close_alive _).trans alive, ?_⟩
    rw [value_close]
    rfl
  next fine =>
    obtain ⟨after, advanced, same⟩ := bind_ok.mp done
    cases same
    rw [if_neg fine]
    exact @advance_stands_for { owner with base := { owner.base with mSocket := socket } } msg queue found sent after
      alive front known advanced

theorem write_stands_for {result : WriteResult} (inv : Inv owner) (alive : owner.alive = true)
    (done : (value owner).writeData running answer = .ok result) :
    ∃ next, owner.writeData answer = .ok next ∧ StandsFor next result.conn := by
  unfold TcpConnection.writeData at done
  unfold OwningConnection.writeData
  split at done
  next ended =>
    cases done
    exact ⟨owner, if_pos ended, alive, rfl⟩
  next working =>
    have opened : owner.base.mClosed = false := by
      cases flag : owner.base.mClosed with
      | false => rfl
      | true => exact absurd (by simp [value, TcpConnection.withSend, flag]) working
    rw [if_neg (by exact working)]
    cases current : owner.mCurrentSendMsg with
    | some msg =>
      obtain ⟨queue, front⟩ := List.head?_eq_some_iff.mp (inv.front alive opened msg current)
      obtain ⟨found, known, deref⟩ := queued_alive inv.ledger (by rw [front]; exact List.mem_cons_self)
      have sending : (value owner).mCurrentSendMsg = some found := by
        rw [value, current]
        exact known
      rw [sending] at done
      exact send_more_stands_for alive front known deref done
    | none =>
      have idle : (value owner).mCurrentSendMsg = none := by
        rw [value, current]
        rfl
      rw [idle] at done
      cases queue : owner.mToSendMsg with
      | nil =>
        have empty : (value owner).mToSendMsg = [] := by
          rw [value, queue]
          rfl
        simp only [TcpConnection.initNextSend, empty] at done
        cases done
        simp only [initNextSend, queue]
        exact ⟨owner, rfl, alive, rfl⟩
      | cons msg rest =>
        have queued : msg ∈ owner.mToSendMsg := by rw [queue]; exact List.mem_cons_self
        obtain ⟨found, known, deref⟩ := queued_alive inv.ledger queued
        have front : (value owner).mToSendMsg = found :: rest.filterMap (owner.heap.made[·]?) := by
          rw [value, queue]
          exact List.filterMap_cons_some known
        simp only [TcpConnection.initNextSend, front] at done
        simp only [initNextSend, queue, deref, ok_then, pure_ok]
        apply @send_more_stands_for { owner with
          mCurrentSendMsg := some msg
          base := { owner.base with mToSend := found.getTotalLen, mSent := 0 }
          mToSendMsg := msg :: rest } msg answer running rest found result alive rfl known deref
        simp only [value, TcpConnection.withSend, Option.bind_some, List.filterMap_cons_some known, known] at done ⊢
        exact done

/-! ### Runs -/

/-- What a call is here: `ReadData` finds what waits in the kernel. -/
def useOf (link : Link) : Call → Use
  | .read => .read link.arrivals
  | .write answer => .write answer
  | .enqueue msg => .enqueue msg

theorem step_stands_for {link after : Link} {call : Call} {result : CallResult} (inv : Inv owner)
    (stands : StandsFor owner link.conn) (done : Link.step running link call = .ok (after, result)) :
    ∃ next, OwningConnection.step running owner (useOf link call) = .ok (next, ()) ∧ StandsFor next after.conn := by
  obtain ⟨alive, same⟩ := stands
  have taken (next : OwningConnection) (goes : owner.take running (useOf link call) = .ok next) :
      OwningConnection.step running owner (useOf link call) = .ok (next, ()) := by
    rw [OwningConnection.step, if_pos alive]
    exact bind_ok.mpr ⟨next, goes, rfl⟩
  cases call with
  | read =>
    obtain ⟨read, reads, ended⟩ := bind_ok.mp done
    cases ended
    rw [← same] at reads
    obtain ⟨next, goes, standsToo⟩ := read_stands_for alive reads
    exact ⟨next, taken next goes, standsToo⟩
  | write answer =>
    obtain ⟨written, writes, ended⟩ := bind_ok.mp done
    cases ended
    rw [← same] at writes
    obtain ⟨next, goes, standsToo⟩ := write_stands_for inv alive writes
    exact ⟨next, taken next goes, standsToo⟩
  | enqueue msg =>
    cases done
    refine ⟨_, taken _ rfl, alive, ?_⟩
    rw [value_enqueue inv, same]

/-- Each run of calls is one of the calls with pointers, in which the same messages
are handed over; so each of them is queued or deleted, once. -/
theorem calls_are_followed {sock : TcpSocket} {connID : UInt64} {arrivals : List Arrival} {calls : List Call}
    {final : Link} {results : List CallResult}
    (ran : run (Link.step running) ⟨.new sock connID, arrivals⟩ calls = .ok (final, results)) :
    ∃ uses owner outputs, run (OwningConnection.step running) (.new sock connID) uses = .ok (owner, outputs) ∧
      StandsFor owner final.conn ∧ FreedOnce (SendStream.queuedBy calls) owner := by
  have held := run_history_always (fun link seen => ∃ uses owner outputs,
      run (OwningConnection.step running) (.new sock connID) uses = .ok (owner, outputs) ∧
      StandsFor owner link.conn ∧ Inv owner ∧ owner.heap.made = SendStream.queuedBy (seen.map Prod.fst))
    (by
      rintro link seen call after result ⟨uses, owner, outputs, ran, stands, inv, made⟩ done
      obtain ⟨next, taken, standsToo⟩ := step_stands_for inv stands done
      obtain ⟨invToo, added⟩ := step_keeps inv taken
      refine ⟨_, next, _, run_snoc ran taken, standsToo, invToo, ?_⟩
      rw [added, made, List.map_append, SendStream.queuedBy, SendStream.queuedBy, List.filterMap_append]
      cases call <;> rfl)
    ⟨[], .new sock connID, [], rfl, ⟨rfl, rfl⟩, inv_new sock connID, rfl⟩ ran
  obtain ⟨uses, owner, outputs, goes, stands, inv, made⟩ := held
  rw [List.map_fst_zip (le_of_eq (run_length ran).symm)] at made
  exact ⟨uses, owner, outputs, goes, stands, made ▸ freed_once_of_inv inv⟩

end OwningRefinement
end ChatRoom
