import ChatRoom.TcpConnection

/-! What one call of `ReadData` or `WriteData` can do, whatever the peer sends
and whatever the kernel answers. -/
namespace ChatRoom.TcpConnection
open Lib

/-! ### `ReadData` -/

section
open TcpSocket Arrival

variable {conn : TcpConnection} {arrivals : List Arrival}

theorem try_read_closed (ended : conn.mSocket.noOK = true) : conn.tryRead arrivals = .ok (EINVAL, conn, arrivals) := by
  rw [tryRead, if_pos ended]

theorem try_read_resumes (working : conn.mSocket.noOK = false) (begun : conn.mSocket.mPreRecv = true) :
    conn.tryRead arrivals = conn.recvMore arrivals := by
  rw [tryRead, if_neg (by simp [working]), if_pos begun]

/-- With a whole length field in front: a message for the length, or the end of
the connection, which is no error, where the length is too small. -/
theorem try_read_enough (working : conn.mSocket.noOK = false) (fresh : conn.mSocket.mPreRecv = false)
    (enough : 4 ≤ (bytesOf arrivals).length) :
    ∃ rest, (bytesOf rest = (bytesOf arrivals).drop 4 ∧ ending rest = ending arrivals ∧
        weight rest < weight arrivals) ∧
      conn.tryRead arrivals =
        if lengthOf ((bytesOf arrivals).take 4) < 4 then
          .ok (0, { conn with mSocket := { conn.mSocket with mPreRecv := true } }.close, rest)
        else
          { conn with mSocket := { conn.mSocket with mPreRecv := true } }.startMsg
            (lengthOf ((bytesOf arrivals).take 4)) >>= fun next => next.recvMore rest := by
  obtain ⟨rest, done, left⟩ := pre_recv_enough working fresh enough
  refine ⟨rest, left, ?_⟩
  rw [tryRead, if_neg (by simp [working]), if_neg (by simp [fresh]), done]
  simp only [ok_then]
  by_cases small : lengthOf ((bytesOf arrivals).take 4) < 4
  · rw [if_pos (.inr (.inr small)), if_pos small]
    rfl
  · rw [if_neg (by simp only [ne_eq, not_true_eq_false, false_or]; omega), if_neg small]

/-- With less than a length field in front: the end, or no return. -/
theorem try_read_short (working : conn.mSocket.noOK = false) (fresh : conn.mSocket.mPreRecv = false)
    (short : (bytesOf arrivals).length < 4) :
    match ending arrivals with
    | none => conn.tryRead arrivals = .error .blocked
    | some last => ∃ rest, conn.tryRead arrivals =
        .ok (endError last, { conn with mSocket := { conn.mSocket with mPreRecv := true }.ended last }.close,
          rest) := by
  have first := pre_recv_short working fresh short
  rw [tryRead, if_neg (by simp [working]), if_neg (by simp [fresh])]
  cases last : ending arrivals with
  | none =>
    rw [last] at first
    rw [first]
    rfl
  | some last' =>
    rw [last] at first
    obtain ⟨rest, done⟩ := first
    refine ⟨rest, ?_⟩
    rw [done]
    simp only [ok_then]
    rw [if_pos (.inl (end_error_ne_zero last'))]
    rfl

variable {next : TcpConnection} {rest : List Arrival} {err : Int} {fault : Fault} {msg : Msg} {running : Bool}

theorem read_data_stops (tried : conn.tryRead arrivals = .error fault) :
    conn.readData running arrivals = .error fault := by
  rw [readData, tried]
  rfl

theorem read_data_part (tried : conn.tryRead arrivals = .ok (0, next, rest)) (part : ¬ next.Full) :
    conn.readData running arrivals = .ok { err := 0, conn := next, rest, enqueued := [] } := by
  rw [readData, tried]
  simp only [ok_then]
  rw [if_neg part]
  rfl

theorem read_data_full (tried : conn.tryRead arrivals = .ok (0, next, rest)) (full : next.Full)
    (whole : next.mCurrentRecvMsg = some msg) :
    conn.readData true arrivals = .ok {
      err := 0
      conn := next.resetRecv
      rest
      enqueued := [.recv msg next.mConnID next.mSocket.mIP next.mSocket.mPort] } := by
  rw [readData, tried]
  simp only [ok_then]
  rw [if_pos full, whole]
  rfl

/-- A service that does not run takes no message. -/
theorem read_data_refused (tried : conn.tryRead arrivals = .ok (0, next, rest)) (full : next.Full)
    (whole : next.mCurrentRecvMsg = some msg) :
    conn.readData false arrivals =
      .ok { err := EINVAL, conn := next.resetRecv.resetRecv, rest, enqueued := [] } := by
  rw [readData, tried]
  simp only [ok_then]
  rw [if_pos full, whole]
  rfl

theorem read_data_failed (tried : conn.tryRead arrivals = .ok (err, next, rest)) (failed : err ≠ 0)
    (part : ¬ next.Full) :
    conn.readData running arrivals = .ok {
      err
      conn := next.resetRecv
      rest
      enqueued := handOver running (.drop next.mConnID) } := by
  rw [readData, tried]
  simp only [ok_then]
  rw [if_neg part]
  simp only [pure_ok, ok_then]
  rw [if_pos failed]
  rfl

/-- What holds of a connection between two calls: no message is complete, and a
socket that is not okay belongs to a connection that is closed. -/
structure Settled (conn : TcpConnection) : Prop where
  part : ¬ conn.Full
  sound : conn.mSocket.noOK = true → conn.mClosed = true

/-- Only the fields for receiving differ. -/
def OnlyReads (conn next : TcpConnection) : Prop :=
  ∃ mToRecv mRecved mCurrentRecvMsg mPreRecv,
    next = { conn with mToRecv, mRecved, mCurrentRecvMsg, mSocket := { conn.mSocket with mPreRecv } }

/-- The length field that is read next is smaller than 4. -/
def RejectedNext (conn : TcpConnection) (arrivals : List Arrival) : Prop :=
  conn.mSocket.noOK = false ∧ conn.mSocket.mPreRecv = false ∧ 4 ≤ (bytesOf arrivals).length ∧
    lengthOf ((bytesOf arrivals).take 4) < 4

instance (conn : TcpConnection) (arrivals : List Arrival) : Decidable (conn.RejectedNext arrivals) :=
  inferInstanceAs (Decidable (_ ∧ _ ∧ _ ∧ _))

/-- The connection ends, and is the same otherwise. -/
structure Ends (conn next : TcpConnection) : Prop where
  closed : next.mClosed = true
  id : next.mConnID = conn.mConnID
  part : ¬ next.Full

/-- The connection ends because its socket has failed. -/
structure Fails (conn next : TcpConnection) : Prop extends Ends conn next where
  dead : next.mSocket.noOK = true

private theorem closed_part {socket : TcpSocket} (part : ¬ conn.Full) : ¬ { conn with mSocket := socket }.close.Full := by
  rw [Full, close_recved, close_to_recv]
  exact part

private theorem recv_more_outcomes (working : conn.mSocket.noOK = false) (part : ¬ conn.Full)
    (done : conn.recvMore arrivals = .ok (err, next, rest)) :
    err = 0 ∧ conn.OnlyReads next ∨ err ≠ 0 ∧ conn.Fails next := by
  rw [recvMore] at done
  cases current : conn.mCurrentRecvMsg with
  | none =>
    rw [current] at done
    contradiction
  | some msg =>
    rw [current] at done
    obtain ⟨⟨err', socket, recved, rest'⟩, answered, stored⟩ := bind_ok.mp done
    dsimp only at stored
    rcases recv_outcomes working answered with ⟨rfl, rfl⟩ | ⟨failed, dead⟩
    · left
      rw [if_neg (by simp)] at stored
      obtain ⟨mData, _, same⟩ := bind_ok.mp stored
      cases same
      exact ⟨rfl, _, _, _, conn.mSocket.mPreRecv, rfl⟩
    · right
      rw [if_pos failed] at stored
      cases stored
      exact ⟨failed, ⟨by simp, by simp, fun full => part (by rwa [Full, close_recved, close_to_recv] at full)⟩,
        close_no_ok dead⟩

private theorem start_msg_outcome {dataLen : Int} (done : conn.startMsg dataLen = .ok next) :
    conn.OnlyReads next ∧ next.mSocket = conn.mSocket ∧ ¬ next.Full := by
  rw [startMsg] at done
  by_cases current : conn.mCurrentRecvMsg.isSome
  · rw [if_pos current] at done
    contradiction
  · rw [if_neg current] at done
    simp only [pure_ok] at done
    obtain ⟨msg, _, done⟩ := bind_ok.mp done
    obtain ⟨framed, _, done⟩ := bind_ok.mp done
    obtain ⟨total, _, same⟩ := bind_ok.mp done
    cases same
    exact ⟨⟨_, _, _, conn.mSocket.mPreRecv, rfl⟩, rfl, fun full => absurd full.2 (lt_irrefl 4)⟩

/-- A failure of a connection that was open, or a call on one that was not. -/
private theorem try_read_outcomes (settled : conn.Settled)
    (done : conn.tryRead arrivals = .ok (err, next, rest)) :
    err = 0 ∧ conn.OnlyReads next ∧ conn.mSocket.noOK = false ∨ err ≠ 0 ∧ conn.Fails next ∨
      err = 0 ∧ conn.RejectedNext arrivals ∧ conn.Ends next := by
  have part := settled.part
  cases ended : conn.mSocket.noOK with
  | true =>
    rw [try_read_closed ended] at done
    cases done
    exact .inr (.inl ⟨by decide, ⟨settled.sound ended, rfl, part⟩, ended⟩)
  | false =>
    cases begun : conn.mSocket.mPreRecv with
    | true =>
      rw [try_read_resumes ended begun] at done
      rcases recv_more_outcomes ended part done with ⟨none, reads⟩ | failed
      · exact .inl ⟨none, reads, rfl⟩
      · exact .inr (.inl failed)
    | false =>
      by_cases enough : 4 ≤ (bytesOf arrivals).length
      · obtain ⟨behind, _, tried⟩ := try_read_enough ended begun enough
        rw [tried] at done
        by_cases small : lengthOf ((bytesOf arrivals).take 4) < 4
        · rw [if_pos small] at done
          cases done
          exact .inr (.inr ⟨rfl, ⟨ended, begun, enough, small⟩, by simp, by simp, closed_part part⟩)
        · rw [if_neg small] at done
          obtain ⟨started, start, more⟩ := bind_ok.mp done
          obtain ⟨⟨mToRecv, mRecved, mCurrentRecvMsg, mPreRecv, fields⟩, socket, few⟩ := start_msg_outcome start
          have working : started.mSocket.noOK = false := by
            rw [socket]
            exact ended
          have outcomes := recv_more_outcomes working few more
          subst fields
          rcases outcomes with ⟨none, _, _, _, mPreRecv', reads⟩ | ⟨failed, ⟨closed, id, whole⟩, dead⟩
          · exact .inl ⟨none, ⟨_, _, _, mPreRecv', reads⟩, rfl⟩
          · exact .inr (.inl ⟨failed, ⟨closed, id, whole⟩, dead⟩)
      · have first := try_read_short ended begun (Nat.lt_of_not_le enough)
        cases last : ending arrivals with
        | none =>
          rw [last] at first
          rw [first] at done
          contradiction
        | some last' =>
          rw [last] at first
          obtain ⟨behind, tried⟩ := first
          rw [tried] at done
          cases done
          exact .inr (.inl ⟨end_error_ne_zero last', ⟨by simp, by simp, closed_part part⟩, close_no_ok (by simp)⟩)

/-- The connection goes on, and at most a message is enqueued. -/
def KeepsReading (conn : TcpConnection) (running : Bool) (result : ReadResult) : Prop :=
  conn.mSocket.noOK = false ∧ conn.OnlyReads result.conn ∧ ¬ result.conn.Full ∧
    (result.enqueued = [] ∨
      ∃ msg, result.enqueued = handOver running (.recv msg conn.mConnID conn.mSocket.mIP conn.mSocket.mPort))

/-- Every call of `ReadData`, whatever the peer sends: the connection goes on, or
it ends and is reported, or it ends because the length is too small. -/
theorem read_data_outcomes {result : ReadResult} (settled : conn.Settled)
    (done : conn.readData running arrivals = .ok result) :
    conn.KeepsReading running result ∨
    conn.Fails result.conn ∧ result.enqueued = handOver running (.drop conn.mConnID) ∨
    conn.RejectedNext arrivals ∧ conn.Ends result.conn ∧ result.enqueued = [] := by
  cases tried : conn.tryRead arrivals with
  | error fault =>
    rw [read_data_stops tried] at done
    contradiction
  | ok reply =>
    obtain ⟨err, next, rest⟩ := reply
    rcases try_read_outcomes settled tried with
      ⟨rfl, reads, working⟩ | ⟨failed, ends⟩ | ⟨rfl, rejected, ends⟩
    · left
      by_cases full : next.Full
      · obtain ⟨mToRecv, mRecved, mCurrentRecvMsg, mPreRecv, rfl⟩ := reads
        have emptied (conn : TcpConnection) : ¬ conn.resetRecv.Full := fun full => absurd full.2 (by simp [resetRecv])
        cases mCurrentRecvMsg with
        | none =>
          rw [readData, tried] at done
          simp only [ok_then] at done
          rw [if_pos full] at done
          contradiction
        | some msg =>
          cases running with
          | true =>
            rw [read_data_full tried full rfl] at done
            cases done
            exact ⟨working, ⟨_, _, _, _, rfl⟩, emptied _, .inr ⟨msg, rfl⟩⟩
          | false =>
            rw [read_data_refused tried full rfl] at done
            cases done
            exact ⟨working, ⟨_, _, _, _, rfl⟩, emptied _, .inl rfl⟩
      · rw [read_data_part tried full] at done
        cases done
        exact ⟨working, reads, full, .inl rfl⟩
    · right
      left
      rw [read_data_failed tried failed ends.part] at done
      cases done
      exact ⟨⟨⟨ends.closed, ends.id, fun full => absurd full.2 (by simp [resetRecv])⟩, ends.dead⟩, by rw [ends.id]⟩
    · right
      right
      rw [read_data_part tried ends.part] at done
      cases done
      exact ⟨rejected, ends, rfl⟩

/-- A length that is too small ends the connection without a word. -/
theorem read_data_rejected (running : Bool) (part : ¬ conn.Full) (rejected : conn.RejectedNext arrivals) :
    ∃ rest, conn.readData running arrivals = .ok {
      err := 0
      conn := { conn with mSocket := { conn.mSocket with mPreRecv := true } }.close
      rest
      enqueued := [] } := by
  obtain ⟨working, fresh, enough, small⟩ := rejected
  obtain ⟨rest, _, tried⟩ := try_read_enough working fresh enough
  rw [if_pos small] at tried
  exact ⟨rest, read_data_part tried (closed_part part)⟩

theorem settled_new {socket : TcpSocket} {id : UInt64} (working : socket.noOK = false) : (new socket id).Settled :=
  ⟨fun full => absurd full.2 (by simp [new]), fun ended => absurd (working.symm.trans ended) (by simp)⟩

theorem settled_of_ends (ends : conn.Ends next) : next.Settled := ⟨ends.part, fun _ => ends.closed⟩

theorem settled_read {result : ReadResult} (settled : conn.Settled)
    (done : conn.readData running arrivals = .ok result) : result.conn.Settled := by
  rcases read_data_outcomes settled done with ⟨working, reads, part, _⟩ | ⟨ends, _⟩ | ⟨_, ends, _⟩
  · refine ⟨part, fun ended => ?_⟩
    obtain ⟨_, _, _, _, same⟩ := reads
    have still : result.conn.mSocket.noOK = conn.mSocket.noOK := by
      rw [same]
      rfl
    rw [still, working] at ended
    contradiction
  · exact settled_of_ends ends.toEnds
  · exact settled_of_ends ends

end

/-! ### `WriteData` -/

variable {conn next : TcpConnection} {msg : Msg} {running : Bool} {answer : Sendable} {result : WriteResult}

/-- The message that `WriteData` works on, and how much of it has been sent and
is left to send. -/
def sending (conn : TcpConnection) : Option (Msg × Int × Int) :=
  match conn.mCurrentSendMsg with
  | some msg => some (msg, conn.mSent, conn.mToSend)
  | none => conn.mToSendMsg.head?.map fun msg => (msg, 0, msg.getTotalLen)

theorem write_data_closed (ended : (conn.mClosed || conn.mSocket.noOK) = true) :
    conn.writeData running answer = .ok { err := EINVAL, conn, taken := [], enqueued := [] } := by
  rw [writeData, if_pos ended]

/-- An open connection sends more of the message it works on, if there is one. -/
theorem write_data_open (working : (conn.mClosed || conn.mSocket.noOK) = false) :
    conn.writeData running answer =
      match conn.sending with
      | none => .ok { err := 0, conn, taken := [], enqueued := [] }
      | some (msg, mSent, mToSend) =>
        { conn with mCurrentSendMsg := some msg, mSent, mToSend }.sendMore msg running answer := by
  rw [writeData, if_neg (by simp [working]), sending]
  cases current : conn.mCurrentSendMsg with
  | some msg =>
    simp only
    rw [← current]
  | none =>
    simp only [initNextSend]
    cases conn.mToSendMsg with
    | nil => rfl
    | cons msg queue => rfl

/-- Only the fields for sending differ, and nothing is enqueued. -/
def OnlySends (conn : TcpConnection) (result : WriteResult) : Prop :=
  result.enqueued = [] ∧ ∃ mToSend mSent mCurrentSendMsg mToSendMsg,
    result.conn = { conn with mToSend, mSent, mCurrentSendMsg, mToSendMsg }

/-- The socket failed: the connection is closed and reported. -/
def FailsToSend (conn : TcpConnection) (running : Bool) (result : WriteResult) : Prop :=
  result.enqueued = handOver running (.drop conn.mConnID) ∧ result.conn.mClosed = true ∧
    result.conn.mConnID = conn.mConnID ∧ (result.conn.Full ↔ conn.Full) ∧ result.conn.mSocket.noOK = true

/-- A kernel that is full counts as a `Send` of -1 bytes. -/
theorem send_more_waits {errno : Errno} (working : conn.mSocket.noOK = false) (again : errno.Again) :
    conn.sendMore msg running (.fail errno) = do
      let next ← conn.advance (-1)
      return { err := 0, conn := next, taken := [], enqueued := [] } := by
  simp only [sendMore, TcpSocket.send_waits working again, ok_then]
  rw [if_neg (by simp)]

theorem send_more_fails {errno : Errno} (working : conn.mSocket.noOK = false) (failed : ¬ errno.Again) :
    conn.sendMore msg running (.fail errno) = .ok {
      err := errno.value
      conn := { conn with mSocket := { conn.mSocket with mError := errno.value } }.resetSend.close
      taken := []
      enqueued := handOver running (.drop conn.mConnID) } := by
  simp only [sendMore, TcpSocket.send_fails working failed, ok_then]
  rw [if_pos errno.positive.ne']
  rfl

theorem send_more_takes {count : Nat} {some : 0 < count} (working : conn.mSocket.noOK = false) :
    conn.sendMore msg running (.accepts count some) = do
      let taken ← peek msg.mData conn.mSent (min count (toSizeT conn.mToSend))
      let next ← conn.advance taken.length
      return { err := 0, conn := next, taken, enqueued := [] } := by
  simp only [sendMore, TcpSocket.send_takes working]
  cases peek msg.mData conn.mSent (min count (toSizeT conn.mToSend)) with
  | error fault => rfl
  | ok taken =>
    simp only [ok_then, pure_ok]
    rw [if_neg (by simp)]

theorem advance_cases {sent : Int} (done : conn.advance sent = .ok next) :
    ∃ mToSend mSent mCurrentSendMsg mToSendMsg,
      next = { conn with mToSend, mSent, mCurrentSendMsg, mToSendMsg } := by
  rw [advance] at done
  obtain ⟨mSent, _, rest⟩ := bind_ok.mp done
  obtain ⟨mToSend, _, rest⟩ := bind_ok.mp rest
  by_cases all : mToSend = 0
  · rw [if_pos all] at rest
    cases rest
    exact ⟨_, _, _, _, rfl⟩
  · rw [if_neg all] at rest
    cases rest
    exact ⟨_, _, _, _, rfl⟩

/-- What is left of a connection whose socket has failed to send. -/
def failedToSend (conn : TcpConnection) (errno : Errno) : TcpConnection :=
  { conn with mSocket := { conn.mSocket with mError := errno.value } }.resetSend.close

private theorem send_more_cases (done : conn.sendMore msg running answer = .ok result)
    (working : conn.mSocket.noOK = false) :
    conn.OnlySends result ∨ ∃ errno, answer = .fail errno ∧ ¬ errno.Again ∧
      result = ⟨errno.value, conn.failedToSend errno, [], handOver running (.drop conn.mConnID)⟩ := by
  cases answer with
  | fail errno =>
    by_cases again : errno.Again
    · left
      rw [send_more_waits working again] at done
      obtain ⟨next, advanced, same⟩ := bind_ok.mp done
      cases same
      exact ⟨rfl, advance_cases advanced⟩
    · right
      rw [send_more_fails working again] at done
      cases done
      exact ⟨errno, rfl, again, rfl⟩
  | accepts count some =>
    left
    rw [send_more_takes working] at done
    obtain ⟨taken, _, rest⟩ := bind_ok.mp done
    obtain ⟨next, advanced, same⟩ := bind_ok.mp rest
    cases same
    exact ⟨rfl, advance_cases advanced⟩

/-- Every call of `WriteData`, whatever the kernel answers. -/
theorem write_data_outcomes (done : conn.writeData running answer = .ok result) :
    conn.OnlySends result ∨ ∃ errno, answer = .fail errno ∧ ¬ errno.Again ∧
      (conn.mClosed || conn.mSocket.noOK) = false ∧
      result = ⟨errno.value, conn.failedToSend errno, [], handOver running (.drop conn.mConnID)⟩ := by
  cases ended : conn.mClosed || conn.mSocket.noOK with
  | true =>
    rw [write_data_closed ended] at done
    cases done
    exact .inl ⟨rfl, _, _, _, _, rfl⟩
  | false =>
    rw [write_data_open ended] at done
    cases picked : conn.sending with
    | none =>
      rw [picked] at done
      cases done
      exact .inl ⟨rfl, _, _, _, _, rfl⟩
    | some work =>
      obtain ⟨msg, mSent, mToSend⟩ := work
      rw [picked] at done
      rcases send_more_cases done (Bool.or_eq_false_iff.mp ended).2 with
        ⟨nothing, fields⟩ | ⟨errno, failure, waits, same⟩
      · exact .inl ⟨nothing, fields⟩
      · exact .inr ⟨errno, failure, waits, rfl, same⟩

theorem write_data_cases (done : conn.writeData running answer = .ok result) :
    conn.OnlySends result ∨ (∃ errno, answer = .fail errno ∧ ¬ errno.Again) ∧ conn.FailsToSend running result := by
  rcases write_data_outcomes done with sends | ⟨errno, failure, waits, _, rfl⟩
  · exact .inl sends
  · exact .inr ⟨⟨errno, failure, waits⟩, rfl, by simp [failedToSend], by simp [failedToSend, resetSend],
      by simp [failedToSend, Full, resetSend],
      close_no_ok (by simp [resetSend, TcpSocket.noOK, errno.positive.ne'])⟩

theorem settled_write (settled : conn.Settled) (done : conn.writeData running answer = .ok result) :
    result.conn.Settled := by
  rcases write_data_cases done with ⟨_, _, _, _, _, same⟩ | ⟨_, _, closed, _, part, _⟩
  · rw [same]
    exact ⟨settled.part, settled.sound⟩
  · exact ⟨fun full => settled.part (part.mp full), fun _ => closed⟩

theorem settled_enqueue (settled : conn.Settled) : (conn.enqueue msg).Settled := ⟨settled.part, settled.sound⟩

/-! ### What the service above sees -/

/-- What a call does to a connection, and what it enqueues: nothing, a message of
a connection that works, or the report of one that does not. -/
structure Called (conn next : TcpConnection) (enqueued : List OperContext) : Prop where
  id : next.mConnID = conn.mConnID
  settled : next.Settled
  still : conn.mSocket.noOK = true → next.mSocket.noOK = true
  outcome : enqueued = [] ∨
    conn.mSocket.noOK = false ∧ (∃ msg ip port, enqueued = [.recv msg conn.mConnID ip port]) ∨
    next.mSocket.noOK = true ∧ enqueued = [.drop conn.mConnID]

theorem called_read {result : ReadResult} (settled : conn.Settled)
    (done : conn.readData true arrivals = .ok result) : conn.Called result.conn result.enqueued := by
  have after := settled_read settled done
  rcases read_data_outcomes settled done with
    ⟨working, ⟨_, _, _, _, same⟩, _, received⟩ | ⟨fails, reported⟩ | ⟨rejected, ends, none⟩
  · refine ⟨by rw [same], after, fun dead => absurd (working.symm.trans dead) (by simp), ?_⟩
    rcases received with none | ⟨msg, handed⟩
    · exact .inl none
    · exact .inr (.inl ⟨working, msg, _, _, handed⟩)
  · exact ⟨fails.id, after, fun _ => fails.dead, .inr (.inr ⟨fails.dead, reported⟩)⟩
  · exact ⟨ends.id, after, fun dead => absurd (rejected.1.symm.trans dead) (by simp), .inl none⟩

theorem called_write {result : WriteResult} (settled : conn.Settled)
    (done : conn.writeData true answer = .ok result) : conn.Called result.conn result.enqueued := by
  have after := settled_write settled done
  rcases write_data_cases done with ⟨none, _, _, _, _, same⟩ | ⟨_, reported, _, id, _, dead⟩
  · exact ⟨by rw [same], after, fun dead => by rw [same]; exact dead, .inl none⟩
  · exact ⟨id, after, fun _ => dead, .inr (.inr ⟨dead, reported⟩)⟩

/-- `WriteData`, for a message that is put behind the others first. -/
theorem called_send {result : WriteResult} (settled : conn.Settled)
    (done : (conn.enqueue msg).writeData true answer = .ok result) : conn.Called result.conn result.enqueued := by
  obtain ⟨id, settled, still, outcome⟩ := called_write (settled_enqueue settled) done
  exact ⟨id, settled, still, outcome⟩

theorem Called.enqueues {enqueued : List OperContext} {ctx : OperContext} (called : conn.Called next enqueued)
    (inside : ctx ∈ enqueued) :
    conn.mSocket.noOK = false ∧ (∃ msg ip port, ctx = .recv msg conn.mConnID ip port) ∨
      next.mSocket.noOK = true ∧ ctx = .drop conn.mConnID := by
  rcases called.outcome with none | ⟨working, msg, ip, port, received⟩ | ⟨dead, reported⟩
  · rw [none] at inside
    contradiction
  · rw [received, List.mem_singleton] at inside
    exact .inl ⟨working, msg, ip, port, inside⟩
  · rw [reported, List.mem_singleton] at inside
    exact .inr ⟨dead, inside⟩

/-! ### The messages that wait -/

variable {arrivals rest : List Arrival} {err : Int}

theorem close_queue (conn : TcpConnection) : conn.close.mToSendMsg <:+ conn.mToSendMsg := by
  unfold close
  split
  · exact List.suffix_refl _
  · exact List.nil_suffix

private theorem recv_more_queue (done : conn.recvMore arrivals = .ok (err, next, rest)) :
    next.mToSendMsg <:+ conn.mToSendMsg := by
  rw [recvMore] at done
  split at done
  · contradiction
  · obtain ⟨⟨err, mSocket, recved, left⟩, _, done⟩ := bind_ok.mp done
    dsimp only at done
    split at done
    · cases done
      exact close_queue _
    · obtain ⟨mData, _, same⟩ := bind_ok.mp done
      cases same
      exact List.suffix_refl _

private theorem try_read_queue (done : conn.tryRead arrivals = .ok (err, next, rest)) :
    next.mToSendMsg <:+ conn.mToSendMsg := by
  rw [tryRead] at done
  split at done
  · cases done
    exact List.suffix_refl _
  · split at done
    · exact recv_more_queue done
    · obtain ⟨⟨code, dataLen, mSocket, left⟩, _, done⟩ := bind_ok.mp done
      dsimp only at done
      split at done
      · cases done
        exact close_queue _
      · obtain ⟨started, starts, more⟩ := bind_ok.mp done
        have same : started.mToSendMsg = conn.mToSendMsg := by
          rw [startMsg] at starts
          split at starts
          · contradiction
          · obtain ⟨msg, _, starts⟩ := bind_ok.mp starts
            obtain ⟨msg, _, starts⟩ := bind_ok.mp starts
            obtain ⟨mToRecv, _, starts⟩ := bind_ok.mp starts
            cases starts
            rfl
        exact same ▸ recv_more_queue more

theorem read_data_queue {result : ReadResult} (done : conn.readData running arrivals = .ok result) :
    result.conn.mToSendMsg <:+ conn.mToSendMsg := by
  obtain ⟨⟨err, tried, left⟩, tries, done⟩ := bind_ok.mp done
  have queue := try_read_queue tries
  dsimp only at done
  split at done
  · split at done
    · cases done
    next msg _ =>
      simp only [pure_ok, ok_then] at done
      generalize (if handOver running (.recv msg tried.mConnID tried.mSocket.mIP tried.mSocket.mPort) = [] then EINVAL
        else err) = code at done
      split at done <;> cases done <;> exact queue
  · simp only [pure_ok, ok_then] at done
    split at done <;> cases done <;> exact queue

private theorem send_more_queue {msg : Msg} {result : WriteResult} (done : conn.sendMore msg running answer = .ok result) :
    result.conn.mToSendMsg <:+ conn.mToSendMsg := by
  obtain ⟨⟨err, sent, mSocket, taken⟩, _, done⟩ := bind_ok.mp done
  dsimp only at done
  split at done
  · cases done
    exact close_queue _
  · obtain ⟨after, advanced, same⟩ := bind_ok.mp done
    cases same
    obtain ⟨mSent, _, advanced⟩ := bind_ok.mp advanced
    obtain ⟨mToSend, _, advanced⟩ := bind_ok.mp advanced
    split at advanced
    · cases advanced
      exact List.tail_suffix _
    · cases advanced
      exact List.suffix_refl _

theorem write_data_queue {result : WriteResult} (done : conn.writeData running answer = .ok result) :
    result.conn.mToSendMsg <:+ conn.mToSendMsg := by
  rw [writeData] at done
  split at done
  · cases done
    exact List.suffix_refl _
  · split at done
    · exact send_more_queue done
    · split at done
      · cases done
        exact List.suffix_refl _
      next started starts =>
        have same : started.mToSendMsg = conn.mToSendMsg := by
          rw [initNextSend] at starts
          split at starts
          · cases starts
          · cases starts
            rfl
        split at done
        · contradiction
        · exact same ▸ send_more_queue done

end ChatRoom.TcpConnection
