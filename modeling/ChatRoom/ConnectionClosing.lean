import ChatRoom.ConnectionCalls

/-! What a call leaves of the descriptor and of the queue for sending. Neither
changes by reading, unless the call comes to `Close`, which gives the descriptor
back and deletes what is queued. -/
namespace ChatRoom

namespace TcpSocket

variable {socket next : TcpSocket} {arrivals rest : List Arrival} {got : List UInt8} {count : Nat} {err : Int}

theorem recv_fd (done : socket.recv count arrivals = .ok (err, next, got, rest)) : next.mSocket = socket.mSocket := by
  rw [recv] at done
  split at done
  · cases done
    rfl
  · obtain ⟨⟨answer, behind⟩, _, done⟩ := Lib.bind_ok.mp done
    split at done
    · split at done
      · cases done
        rfl
      · cases done
        rfl
    · cases done
      rfl
    · cases done
      rfl

private theorem recv_loop_fd {before : List UInt8}
    (done : socket.recvLoop count before arrivals = .ok (err, next, got, rest)) :
    next.mSocket = socket.mSocket := by
  induction arrivals generalizing count before with
  | nil => cases done
  | cons arrival arrivals ih =>
    cases arrival with
    | fin =>
      cases done
      rfl
    | fail errno =>
      rw [recvLoop] at done
      split at done
      · exact ih done
      · cases done
        rfl
    | data bytes some =>
      rw [recvLoop] at done
      split at done
      · exact ih done
      · split at done
        · cases done
          rfl
        · cases done
          rfl

theorem pre_recv_fd {dataLen : Int} (done : socket.preRecv arrivals = .ok (err, dataLen, next, rest)) :
    next.mSocket = socket.mSocket := by
  rw [preRecv] at done
  split at done
  · cases done
    rfl
  · split at done
    · cases done
    · obtain ⟨⟨failed, after, buf, behind⟩, received, done⟩ := Lib.bind_ok.mp done
      have kept : after.mSocket = socket.mSocket := by
        rw [recvAll] at received
        split at received
        · cases received
          rfl
        · exact (recv_loop_fd received).trans rfl
      dsimp only at done
      split at done
      · cases done
        exact kept
      · cases done
        exact kept

@[simp] theorem close_fd (socket : TcpSocket) : socket.close.mSocket = -1 := by
  unfold close
  split
  · rfl
  · rename_i gone
    exact not_not.mp gone

end TcpSocket

namespace TcpConnection
open Lib

variable {conn next middle : TcpConnection} {arrivals rest : List Arrival} {err : Int} {running : Bool}

/-- Only the fields for receiving differ, and the state of the socket. -/
def ReadsOn (conn next : TcpConnection) : Prop :=
  ∃ mToRecv mRecved mCurrentRecvMsg mSocket, mSocket.mSocket = conn.mSocket.mSocket ∧
    next = { conn with mToRecv, mRecved, mCurrentRecvMsg, mSocket }

theorem ReadsOn.refl (conn : TcpConnection) : conn.ReadsOn conn := ⟨_, _, _, _, rfl, rfl⟩

theorem ReadsOn.trans (first : conn.ReadsOn middle) (second : middle.ReadsOn next) : conn.ReadsOn next := by
  obtain ⟨_, _, _, _, fd, rfl⟩ := first
  obtain ⟨_, _, _, _, fdToo, rfl⟩ := second
  exact ⟨_, _, _, _, fdToo.trans fd, rfl⟩

/-- The connection goes on, or `Close` was called. -/
def ReadsOrCloses (conn next : TcpConnection) : Prop :=
  conn.ReadsOn next ∨ ∃ middle, conn.ReadsOn middle ∧ middle.close.ReadsOn next

theorem ReadsOrCloses.after (first : conn.ReadsOn middle) (second : middle.ReadsOrCloses next) :
    conn.ReadsOrCloses next := by
  rcases second with reads | ⟨closing, reads, closed⟩
  · exact .inl (first.trans reads)
  · exact .inr ⟨closing, first.trans reads, closed⟩

theorem ReadsOrCloses.before (first : conn.ReadsOrCloses middle) (second : middle.ReadsOn next) :
    conn.ReadsOrCloses next := by
  rcases first with reads | ⟨closing, reads, closed⟩
  · exact .inl (reads.trans second)
  · exact .inr ⟨closing, reads, closed.trans second⟩

private theorem recv_more_leaves (done : conn.recvMore arrivals = .ok (err, next, rest)) : conn.ReadsOrCloses next := by
  rw [recvMore] at done
  split at done
  · cases done
  · obtain ⟨⟨failed, socket, recved, behind⟩, received, done⟩ := bind_ok.mp done
    have fd := TcpSocket.recv_fd received
    dsimp only at done
    split at done
    · cases done
      exact .inr ⟨{ conn with mSocket := socket }, ⟨_, _, _, socket, fd, rfl⟩, .refl _⟩
    · obtain ⟨mData, _, same⟩ := bind_ok.mp done
      cases same
      exact .inl ⟨_, _, _, socket, fd, rfl⟩

private theorem start_msg_leaves {dataLen : Int} (done : conn.startMsg dataLen = .ok next) : conn.ReadsOn next := by
  rw [startMsg] at done
  split at done
  · cases done
  · obtain ⟨msg, _, done⟩ := bind_ok.mp done
    obtain ⟨framed, _, done⟩ := bind_ok.mp done
    obtain ⟨total, _, same⟩ := bind_ok.mp done
    cases same
    exact ⟨_, _, _, _, rfl, rfl⟩

private theorem try_read_leaves (done : conn.tryRead arrivals = .ok (err, next, rest)) : conn.ReadsOrCloses next := by
  rw [tryRead] at done
  split at done
  · cases done
    exact .inl (.refl _)
  · split at done
    · exact recv_more_leaves done
    · obtain ⟨⟨failed, dataLen, socket, behind⟩, received, done⟩ := bind_ok.mp done
      have reads : conn.ReadsOn { conn with mSocket := socket } := ⟨_, _, _, socket, TcpSocket.pre_recv_fd received, rfl⟩
      dsimp only at done
      split at done
      · cases done
        exact .inr ⟨_, reads, .refl _⟩
      · obtain ⟨started, start, more⟩ := bind_ok.mp done
        exact (recv_more_leaves more).after (reads.trans (start_msg_leaves start))

private theorem reset_reads (conn : TcpConnection) : conn.ReadsOn conn.resetRecv :=
  ⟨0, 0, none, { conn.mSocket with mPreRecv := false }, rfl, rfl⟩

/-- Every call of `ReadData` in any state. -/
theorem read_data_leaves {result : ReadResult} (done : conn.readData running arrivals = .ok result) :
    conn.ReadsOrCloses result.conn := by
  rw [readData] at done
  obtain ⟨⟨err, next, rest⟩, tried, done⟩ := bind_ok.mp done
  have leaves := try_read_leaves tried
  have finished {err : Int} {next : TcpConnection} {full : List OperContext} (leaves : conn.ReadsOrCloses next)
      (done : (if err ≠ 0 then pure
        { err, conn := next.resetRecv, rest, enqueued := full ++ handOver running (.drop next.mConnID) }
        else pure { err, conn := next, rest, enqueued := full }) = (.ok result : Except Fault ReadResult)) :
      conn.ReadsOrCloses result.conn := by
    split at done
    · cases done
      exact leaves.before (reset_reads next)
    · cases done
      exact leaves
  dsimp only at done
  split at done
  · split at done
    · cases done
    · simp only [pure_ok, ok_then] at done
      exact finished (leaves.before (reset_reads next)) done
  · simp only [pure_ok, ok_then] at done
    exact finished leaves done

/-! ### Descriptors -/

/-- The connection keeps its descriptor and its flag, or it is closed now. -/
def KeepsFd (conn next : TcpConnection) : Prop :=
  next.mClosed = conn.mClosed ∧ next.mSocket.mSocket = conn.mSocket.mSocket ∨
    conn.mClosed = false ∧ next.mClosed = true ∧ next.mSocket.mSocket = -1

private theorem reads_fd (reads : conn.ReadsOn next) :
    next.mClosed = conn.mClosed ∧ next.mSocket.mSocket = conn.mSocket.mSocket := by
  obtain ⟨_, _, _, _, fd, rfl⟩ := reads
  exact ⟨rfl, fd⟩

private theorem close_keeps_fd
    (closed : middle.mClosed = conn.mClosed) (fd : middle.mSocket.mSocket = conn.mSocket.mSocket) :
    conn.KeepsFd middle.close := by
  cases shut : conn.mClosed with
  | true =>
    left
    rw [close, if_pos (closed.trans shut)]
    exact ⟨closed, fd⟩
  | false =>
    right
    rw [close, if_neg (by simp [closed, shut])]
    exact ⟨shut, rfl, TcpSocket.close_fd _⟩

theorem read_keeps_fd {result : ReadResult} (done : conn.readData running arrivals = .ok result) :
    conn.KeepsFd result.conn := by
  rcases read_data_leaves done with reads | ⟨middle, reads, closed⟩
  · exact .inl (reads_fd reads)
  · obtain ⟨flag, fd⟩ := reads_fd reads
    obtain ⟨flagToo, fdToo⟩ := reads_fd closed
    rw [KeepsFd, flagToo, fdToo]
    exact close_keeps_fd flag fd

theorem write_keeps_fd {answer : Sendable} {result : WriteResult} (done : conn.writeData running answer = .ok result) :
    conn.KeepsFd result.conn := by
  rcases write_data_outcomes done with ⟨_, _, _, _, _, same⟩ | ⟨errno, _, _, _, rfl⟩
  · rw [same]
    exact .inl ⟨rfl, rfl⟩
  · exact close_keeps_fd rfl rfl

end TcpConnection
end ChatRoom
