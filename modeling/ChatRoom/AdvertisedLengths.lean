import ChatRoom.FrameReassembly

/-! The length that a peer puts in front of a frame, and what it does to the
counters and the buffer of the receiving side. Lengths below 4 end the
connection. The largest lengths that an `int` can hold do not: 8 is added to them
all the same. -/
namespace ChatRoom.AdvertisedLengths
open Lib TcpSocket Arrival TcpConnection

variable {conn next : TcpConnection} {msg : Msg} {dataLen : Int} {arrivals rest : List Arrival} {running : Bool}

/-! ### A frame in progress -/

/-- The largest length that leaves room for the head. -/
def maxLength : Int := 2 ^ 31 - 1 - HEAD_LENGTH

/-- The buffer is the one for the length in front of it, and is filled up to the
place that the counter says. -/
structure Buffered (conn : TcpConnection) (msg : Msg) (dataLen : Int) : Prop where
  atLeast : 4 ≤ dataLen
  atMost : dataLen ≤ maxLength
  header : lengthOf (msg.mData.take 4) = dataLen
  toRecv : conn.mToRecv = dataLen + HEAD_LENGTH
  requested : msg.mMallocSize = dataLen + HEAD_LENGTH
  block : (msg.mData.length : Int) = dataLen + HEAD_LENGTH
  begun : 4 ≤ conn.mRecved
  within : conn.mRecved ≤ conn.mToRecv

/-- More of the frame is to come. -/
structure InFrame (conn : TcpConnection) (msg : Msg) (dataLen : Int) : Prop extends Buffered conn msg dataLen where
  missing : conn.mRecved < conn.mToRecv

/-- What `Recv` is asked for is something, and fits the rest of the buffer. -/
def RecvInside (conn : TcpConnection) (msg : Msg) : Prop :=
  0 < toSizeT (conn.mToRecv - conn.mRecved) ∧
    conn.mRecved.toNat + toSizeT (conn.mToRecv - conn.mRecved) ≤ msg.mData.length

theorem recv_inside (frame : InFrame conn msg dataLen) : RecvInside conn msg := by
  have most := frame.atMost
  have toRecv := frame.toRecv
  have block := frame.block
  have begun := frame.begun
  have missing := frame.missing
  have head : (HEAD_LENGTH : Int) = 8 := rfl
  unfold maxLength at most
  unfold RecvInside toSizeT
  omega

/-- The connection, as it is when `ReadData` comes to `Recv`. -/
def receiving (conn : TcpConnection) (arrivals : List Arrival) : Option TcpConnection :=
  if conn.mSocket.noOK then none
  else if conn.mSocket.mPreRecv then some conn
  else
    match conn.mSocket.preRecv arrivals with
    | .error _ => none
    | .ok (err, dataLen, socket, _) =>
      if err ≠ 0 ∨ dataLen < 0 ∨ dataLen < 4 then none else ({ conn with mSocket := socket }.startMsg dataLen).toOption

/-- This call reads a length field, and this is what it says. -/
def NextLength (conn : TcpConnection) (arrivals : List Arrival) (dataLen : Int) : Prop :=
  conn.mSocket.noOK = false ∧ conn.mSocket.mPreRecv = false ∧ 4 ≤ (bytesOf arrivals).length ∧
    lengthOf ((bytesOf arrivals).take 4) = dataLen

/-- This call reads a length to which 8 cannot be added. -/
def OverlongNext (conn : TcpConnection) (arrivals : List Arrival) : Prop :=
  ∃ dataLen, NextLength conn arrivals dataLen ∧ maxLength < dataLen

/-- A call of `ReadData` that no length can harm: it returns or waits, it asks
`Recv` for bytes that fit the buffer, and a length that it cannot use ends the
connection. -/
structure SafeRead (conn : TcpConnection) (running : Bool) (arrivals : List Arrival) : Prop where
  returns : ∀ fault, conn.readData running arrivals = .error fault → fault = .blocked
  inside : ∀ current, receiving conn arrivals = some current → ∃ msg dataLen,
    current.mCurrentRecvMsg = some msg ∧ InFrame current msg dataLen ∧ RecvInside current msg
  refused : ∀ dataLen, NextLength conn arrivals dataLen → ¬ (4 ≤ dataLen ∧ dataLen ≤ maxLength) →
    ∃ result, conn.readData running arrivals = .ok result ∧ result.conn.mClosed = true

/-- What holds between two calls. -/
structure Receives (conn : TcpConnection) : Prop where
  closed : conn.mClosed = true → conn.mSocket.noOK = true
  gone : conn.mSocket.mSocket = -1 → conn.mSocket.noOK = true
  idle : conn.mCurrentRecvMsg = none → ¬ conn.Full ∧ (conn.mSocket.mPreRecv = true → conn.mSocket.noOK = true)
  busy : ∀ msg, conn.mCurrentRecvMsg = some msg → conn.mSocket.mPreRecv = true ∧ ∃ dataLen, InFrame conn msg dataLen

/-! ### Parts of a call -/

theorem length_range (buf : List UInt8) : IsInt32 (lengthOf buf) := by
  have low := Int32.le_toInt (ntohl (UInt32.ofNat (leNat buf))).toInt32
  have high := Int32.toInt_lt (ntohl (UInt32.ofNat (leNat buf))).toInt32
  unfold IsInt32 lengthOf
  omega

/-- A length that leaves room for the head gets its buffer. -/
theorem start_msg_buffers (idle : conn.mCurrentRecvMsg = none) (atLeast : 4 ≤ dataLen) (atMost : dataLen ≤ maxLength) :
    ∃ msg, conn.startMsg dataLen = .ok { conn with
        mCurrentRecvMsg := some msg, mRecved := 4, mToRecv := dataLen + HEAD_LENGTH } ∧
      InFrame { conn with mCurrentRecvMsg := some msg, mRecved := 4, mToRecv := dataLen + HEAD_LENGTH } msg dataLen := by
  have head : (HEAD_LENGTH : Int) = 8 := rfl
  unfold maxLength at atMost
  have total : checkInt (dataLen + HEAD_LENGTH) = .ok (dataLen + HEAD_LENGTH) :=
    check_int_ok.mpr ⟨by unfold IsInt32; omega, rfl⟩
  have word : (UInt32.ofInt dataLen).toNat = dataLen.toNat := by
    rw [UInt32.ofInt, UInt32.toNat_ofNat']
    omega
  obtain ⟨data, written⟩ : ∃ data,
      poke (malloc (fun _ => 0) (dataLen + HEAD_LENGTH : Int).toNat) 0 (beBytes 4 dataLen.toNat) = .ok data :=
    ⟨_, poke_ok.mpr ⟨le_refl _, by simp; omega, rfl⟩⟩
  have size : data.length = (dataLen + HEAD_LENGTH).toNat := by rw [poke_length written, malloc_length]
  have front : data.take 4 = beBytes 4 dataLen.toNat := by
    have taken := poke_take written
    simpa only [Int.toNat_zero, be_bytes_length, Nat.zero_add, List.take_zero, List.nil_append] using taken
  refine ⟨⟨data, 0, 0, dataLen + HEAD_LENGTH⟩, ?_, ⟨atLeast, ?_, ?_, rfl, rfl, ?_, le_refl _, ?_⟩, ?_⟩
  · rw [startMsg, if_neg (by simp [idle]), Msg.ofLen, total]
    simp only [ok_then]
    rw [if_neg (by omega)]
    simp only [ok_then, pure_ok, Msg.setLenTo, MsgBuffer.htonl_bytes, word, written]
  · unfold maxLength
    omega
  · rw [front, FrameReassembly.length_of_eq _ (be_bytes_length 4 _), be_nat_bytes, Nat.mod_eq_of_lt (by omega),
      Int.toNat_of_nonneg (by omega)]
    exact to_int32_eq (by unfold IsInt32; omega)
  · rw [size]
    omega
  · simp only
    omega
  · simp only
    omega

/-- A length that does not overflows the `int`. -/
theorem start_msg_overflows (idle : conn.mCurrentRecvMsg = none) (overlong : maxLength < dataLen) :
    conn.startMsg dataLen = .error .signedOverflow := by
  have head : (HEAD_LENGTH : Int) = 8 := rfl
  unfold maxLength at overlong
  have overflow : checkInt (dataLen + HEAD_LENGTH) = .error .signedOverflow :=
    check_int_error (by unfold IsInt32; omega)
  rw [startMsg, if_neg (by simp [idle]), Msg.ofLen, overflow]
  rfl

/-- `Recv` waits, puts what it got into the buffer, or ends the connection. -/
theorem recv_more_buffers (frame : InFrame conn msg dataLen) (held : conn.mCurrentRecvMsg = some msg)
    (working : conn.mSocket.noOK = false) (arrivals : List Arrival) :
    conn.recvMore arrivals = .error .blocked ∨
    (∃ next msg' rest, conn.recvMore arrivals = .ok (0, next, rest) ∧ next.mCurrentRecvMsg = some msg' ∧
      next.mSocket = conn.mSocket ∧ next.mClosed = conn.mClosed ∧ Buffered next msg' dataLen) ∨
    ∃ err next rest, conn.recvMore arrivals = .ok (err, next, rest) ∧ err ≠ 0 ∧ ¬ next.Full ∧
      next.mSocket.noOK = true := by
  obtain ⟨asked, inside⟩ := recv_inside frame
  rcases recv_cases working asked arrivals with
    ⟨_, waits⟩ | ⟨got, rest, done, _, few, _, _⟩ | ⟨last, rest, done, _, _⟩
  · left
    rw [recvMore, held]
    simp only [waits]
    rfl
  · right
    left
    have begun := frame.begun
    have missing := frame.missing
    have fits : got.length ≤ (conn.mToRecv - conn.mRecved).toNat := by
      unfold toSizeT at few
      have most := frame.atMost
      have toRecv := frame.toRecv
      have head : (HEAD_LENGTH : Int) = 8 := rfl
      unfold maxLength at most
      omega
    obtain ⟨data, written⟩ : ∃ data, poke msg.mData conn.mRecved got = .ok data :=
      ⟨_, poke_ok.mpr ⟨by omega, by omega, rfl⟩⟩
    refine ⟨{ conn with
        mCurrentRecvMsg := some { msg with mData := data }
        mRecved := conn.mRecved + got.length }, { msg with mData := data }, rest, ?_, rfl, rfl, rfl,
      frame.atLeast, frame.atMost, ?_, frame.toRecv, frame.requested, ?_, ?_, ?_⟩
    · rw [recvMore, held]
      simp only [done, ok_then]
      rw [if_neg (by simp)]
      simp only [written, ok_then]
      rfl
    · rw [poke_front written (by omega)]
      exact frame.header
    · rw [poke_length written]
      exact frame.block
    · simp only
      omega
    · simp only
      omega
  · right
    right
    refine ⟨endError last, { conn with mSocket := conn.mSocket.ended last }.close, rest, ?_, end_error_ne_zero last, ?_,
      TcpConnection.close_no_ok (ended_no_ok conn.mSocket last)⟩
    · rw [recvMore, held]
      simp only [done, ok_then]
      rw [if_pos (end_error_ne_zero last)]
      rfl
    · rw [Full, close_recved, close_to_recv]
      exact fun full => frame.missing.ne full.1

/-! ### Whole calls -/

private theorem close_dead (closed : conn.mClosed = true → conn.mSocket.noOK = true)
    (gone : conn.mSocket.mSocket = -1 → conn.mSocket.noOK = true) : conn.close.mSocket.noOK = true := by
  cases shut : conn.mClosed with
  | true =>
    have same : conn.close = conn := by rw [TcpConnection.close, if_pos shut]
    rw [same]
    exact closed shut
  | false =>
    have socket : conn.close.mSocket = conn.mSocket.close := by
      rw [TcpConnection.close, if_neg (by simp [shut])]
    rw [socket, TcpSocket.close]
    split
    next => simp [noOK]
    next none => exact gone (not_not.mp none)

private theorem reset_receives (closed : conn.mClosed = true → conn.mSocket.noOK = true)
    (gone : conn.mSocket.mSocket = -1 → conn.mSocket.noOK = true) : Receives conn.resetRecv where
  closed := closed
  gone := gone
  idle _ := ⟨fun full => absurd full.2 (by simp [resetRecv]), by simp [resetRecv]⟩
  busy msg held := by simp [resetRecv] at held

/-- `ReadData` has put what it got into the buffer. -/
private theorem read_on (tried : conn.tryRead arrivals = .ok (0, next, rest)) (buffered : Buffered next msg dataLen)
    (held : next.mCurrentRecvMsg = some msg) (begun : next.mSocket.mPreRecv = true)
    (closed : next.mClosed = true → next.mSocket.noOK = true)
    (gone : next.mSocket.mSocket = -1 → next.mSocket.noOK = true) :
    ∃ result, conn.readData running arrivals = .ok result ∧ Receives result.conn := by
  by_cases full : next.Full
  · cases running with
    | true => exact ⟨_, read_data_full tried full held, reset_receives closed gone⟩
    | false => exact ⟨_, read_data_refused tried full held, reset_receives closed gone⟩
  · have missing : next.mRecved < next.mToRecv := by
      refine lt_of_le_of_ne buffered.within fun all => full ⟨all, ?_⟩
      have atLeast := buffered.atLeast
      have head : (HEAD_LENGTH : Int) = 8 := rfl
      rw [all, buffered.toRecv]
      omega
    refine ⟨_, read_data_part tried full, closed, gone, fun none => ?_, fun found same => ?_⟩
    · cases none.symm.trans held
    · cases held.symm.trans same
      exact ⟨begun, dataLen, buffered, missing⟩

private theorem read_off {err : Int} (tried : conn.tryRead arrivals = .ok (err, next, rest)) (failed : err ≠ 0)
    (part : ¬ next.Full) (dead : next.mSocket.noOK = true) :
    ∃ result, conn.readData running arrivals = .ok result ∧ Receives result.conn :=
  ⟨_, read_data_failed tried failed part, reset_receives (fun _ => dead) (fun _ => dead)⟩

private theorem read_in_frame {current : TcpConnection} (tried : conn.tryRead arrivals = current.recvMore rest)
    (frame : InFrame current msg dataLen) (held : current.mCurrentRecvMsg = some msg)
    (begun : current.mSocket.mPreRecv = true) (working : current.mSocket.noOK = false)
    (closed : current.mClosed = true → current.mSocket.noOK = true)
    (gone : current.mSocket.mSocket = -1 → current.mSocket.noOK = true) :
    conn.readData running arrivals = .error .blocked ∨
      ∃ result, conn.readData running arrivals = .ok result ∧ Receives result.conn := by
  rcases recv_more_buffers frame held working rest with
    waits | ⟨next, msg', behind, more, heldToo, socket, still, buffered⟩ | ⟨err, next, behind, fails, failed, part, dead⟩
  · exact .inl (read_data_stops (tried.trans waits))
  · right
    rw [← socket] at begun closed gone
    rw [← still] at closed
    exact read_on (tried.trans more) buffered heldToo begun closed gone
  · exact .inr (read_off (tried.trans fails) failed part dead)

private theorem no_frame (receives : Receives conn) (fresh : conn.mSocket.mPreRecv = false) :
    conn.mCurrentRecvMsg = none := by
  cases held : conn.mCurrentRecvMsg with
  | none => rfl
  | some msg => exact absurd (fresh.symm.trans (receives.busy msg held).1) (by simp)

private theorem some_frame (receives : Receives conn) (working : conn.mSocket.noOK = false)
    (begun : conn.mSocket.mPreRecv = true) :
    ∃ msg dataLen, conn.mCurrentRecvMsg = some msg ∧ InFrame conn msg dataLen := by
  cases held : conn.mCurrentRecvMsg with
  | none => exact absurd (working.symm.trans ((receives.idle held).2 begun)) (by simp)
  | some msg =>
    obtain ⟨_, dataLen, frame⟩ := receives.busy msg held
    exact ⟨msg, dataLen, rfl, frame⟩

private theorem not_full (receives : Receives conn) : ¬ conn.Full := by
  cases held : conn.mCurrentRecvMsg with
  | none => exact (receives.idle held).1
  | some msg =>
    obtain ⟨_, dataLen, frame⟩ := receives.busy msg held
    exact fun full => frame.missing.ne full.1

theorem overlong_next : OverlongNext conn arrivals ↔ conn.mSocket.noOK = false ∧ conn.mSocket.mPreRecv = false ∧
    4 ≤ (bytesOf arrivals).length ∧ maxLength < lengthOf ((bytesOf arrivals).take 4) := by
  constructor
  · rintro ⟨dataLen, ⟨working, begun, enough, rfl⟩, overlong⟩
    exact ⟨working, begun, enough, overlong⟩
  · rintro ⟨working, begun, enough, overlong⟩
    exact ⟨_, ⟨working, begun, enough, rfl⟩, overlong⟩

/-- A length of which the peer has not sent all four bytes. -/
private theorem read_starved (receives : Receives conn) (running : Bool) (working : conn.mSocket.noOK = false)
    (begun : conn.mSocket.mPreRecv = false) (short : (bytesOf arrivals).length < 4) :
    conn.readData running arrivals = .error .blocked ∨
      ∃ result, conn.readData running arrivals = .ok result ∧ Receives result.conn := by
  have part := not_full receives
  have first := try_read_short working begun short
  cases last : ending arrivals with
  | none =>
    rw [last] at first
    exact .inl (read_data_stops first)
  | some last' =>
    rw [last] at first
    obtain ⟨rest, tried⟩ := first
    refine .inr (read_off tried (end_error_ne_zero last') ?_ (TcpConnection.close_no_ok (ended_no_ok _ last')))
    rw [Full, close_recved, close_to_recv]
    exact part

/-- A length below 4, which ends the connection. -/
private theorem read_rejected (receives : Receives conn) (running : Bool) (working : conn.mSocket.noOK = false)
    (begun : conn.mSocket.mPreRecv = false) (enough : 4 ≤ (bytesOf arrivals).length)
    (small : lengthOf ((bytesOf arrivals).take 4) < 4) :
    ∃ result, conn.readData running arrivals = .ok result ∧ Receives result.conn := by
  have part := not_full receives
  obtain ⟨rest, _, tried⟩ := try_read_enough working begun enough
  rw [if_pos small] at tried
  have still : ¬ { conn with mSocket := { conn.mSocket with mPreRecv := true } }.close.Full := by
    rw [Full, close_recved, close_to_recv]
    exact part
  have dead := @close_dead { conn with mSocket := { conn.mSocket with mPreRecv := true } } receives.closed receives.gone
  refine ⟨_, read_data_part tried still, fun _ => dead, fun _ => dead, fun _ => ⟨still, fun _ => dead⟩, fun msg held => ?_⟩
  rw [close_current_recv] at held
  cases (no_frame receives begun).symm.trans held

/-- Every call either overflows, at an overlong length, or returns or waits. -/
theorem read_cases (receives : Receives conn) (running : Bool) (arrivals : List Arrival) :
    OverlongNext conn arrivals ∧ conn.readData running arrivals = .error .signedOverflow ∨
    ¬ OverlongNext conn arrivals ∧ (conn.readData running arrivals = .error .blocked ∨
      ∃ result, conn.readData running arrivals = .ok result ∧ Receives result.conn) := by
  rw [overlong_next]
  cases working : conn.mSocket.noOK with
  | true =>
    right
    refine ⟨by simp, .inr ?_⟩
    exact read_off (try_read_closed working) (by decide) (not_full receives) working
  | false =>
    cases begun : conn.mSocket.mPreRecv with
    | true =>
      right
      obtain ⟨msg, dataLen, held, frame⟩ := some_frame receives working begun
      refine ⟨by simp, ?_⟩
      exact read_in_frame (try_read_resumes working begun) frame held begun working receives.closed receives.gone
    | false =>
      have idle := no_frame receives begun
      rcases Nat.lt_or_ge (bytesOf arrivals).length 4 with short | enough
      · right
        refine ⟨fun next => ?_, read_starved receives running working begun short⟩
        exact absurd next.2.2.1 (Nat.not_le.mpr short)
      · obtain ⟨rest, _, tried⟩ := try_read_enough working begun enough
        by_cases small : lengthOf ((bytesOf arrivals).take 4) < 4
        · right
          refine ⟨fun next => ?_, .inr (read_rejected receives running working begun enough small)⟩
          have overlong := next.2.2.2
          have head : (HEAD_LENGTH : Int) = 8 := rfl
          unfold maxLength at overlong
          omega
        · rw [if_neg small] at tried
          by_cases overlong : maxLength < lengthOf ((bytesOf arrivals).take 4)
          · left
            refine ⟨⟨rfl, rfl, enough, overlong⟩, read_data_stops ?_⟩
            rw [tried, @start_msg_overflows { conn with mSocket := { conn.mSocket with mPreRecv := true } } _ idle overlong]
            rfl
          · right
            refine ⟨fun next => overlong next.2.2.2, ?_⟩
            obtain ⟨msg, started, frame⟩ :=
              @start_msg_buffers { conn with mSocket := { conn.mSocket with mPreRecv := true } }
              (lengthOf ((bytesOf arrivals).take 4)) idle (Int.not_lt.mp small) (Int.not_lt.mp overlong)
            rw [started, ok_then] at tried
            exact read_in_frame tried frame rfl rfl working receives.closed receives.gone

/-- `Recv` is only ever asked to go on with a frame. -/
theorem receiving_in_frame (receives : Receives conn) (short : ¬ OverlongNext conn arrivals) {current : TcpConnection}
    (here : receiving conn arrivals = some current) :
    ∃ msg dataLen, current.mCurrentRecvMsg = some msg ∧ InFrame current msg dataLen := by
  unfold receiving at here
  cases working : conn.mSocket.noOK with
  | true => simp [working] at here
  | false =>
    cases begun : conn.mSocket.mPreRecv with
    | true =>
      simp only [working, begun, Bool.false_eq_true, if_false, if_true, Option.some.injEq] at here
      subst here
      exact some_frame receives working begun
    | false =>
      have idle := no_frame receives begun
      simp only [working, begun, Bool.false_eq_true, if_false] at here
      by_cases enough : 4 ≤ (bytesOf arrivals).length
      · obtain ⟨rest, done, _⟩ := pre_recv_enough working begun enough
        simp only [done, ne_eq, not_true_eq_false, false_or] at here
        split at here
        next => cases here
        next fits =>
          have fine : 4 ≤ lengthOf ((bytesOf arrivals).take 4) := by omega
          have most : lengthOf ((bytesOf arrivals).take 4) ≤ maxLength :=
            Int.not_lt.mp fun overlong => short ⟨_, ⟨working, begun, enough, rfl⟩, overlong⟩
          obtain ⟨msg, started, frame⟩ := @start_msg_buffers { conn with mSocket := { conn.mSocket with mPreRecv := true } }
            (lengthOf ((bytesOf arrivals).take 4)) idle fine most
          rw [started] at here
          cases here
          exact ⟨msg, _, rfl, frame⟩
      · have first := pre_recv_short working begun (Nat.lt_of_not_le enough)
        cases last : ending arrivals with
        | none =>
          rw [last] at first
          rw [first] at here
          cases here
        | some last' =>
          rw [last] at first
          obtain ⟨rest, done⟩ := first
          rw [done] at here
          simp only [ne_eq, end_error_ne_zero last', not_false_eq_true, true_or, if_true] at here
          cases here

/-- No length harms a call exactly when the length it reads, if it reads one, is
not overlong. -/
theorem safe_read_iff (receives : Receives conn) (running : Bool) (arrivals : List Arrival) :
    SafeRead conn running arrivals ↔ ¬ OverlongNext conn arrivals := by
  rcases read_cases receives running arrivals with ⟨overlong, overflows⟩ | ⟨short, outcome⟩
  · simp only [overlong, not_true_eq_false, iff_false]
    intro safe
    exact absurd (safe.returns _ overflows) (by decide)
  · simp only [short, not_false_eq_true, iff_true]
    refine ⟨fun fault failed => ?_, fun current here => ?_, fun dataLen next misfit => ?_⟩
    · rcases outcome with waits | ⟨result, done, _⟩
      · cases waits.symm.trans failed
        rfl
      · cases done.symm.trans failed
    · obtain ⟨msg, dataLen, held, frame⟩ := receiving_in_frame receives short here
      exact ⟨msg, dataLen, held, frame, recv_inside frame⟩
    · have small : dataLen < 4 := by
        by_contra enough
        exact misfit ⟨Int.not_lt.mp enough, Int.not_lt.mp fun overlong => short ⟨dataLen, next, overlong⟩⟩
      obtain ⟨working, begun, enough, rfl⟩ := next
      obtain ⟨rest, done⟩ := read_data_rejected running (not_full receives) ⟨working, begun, enough, small⟩
      exact ⟨_, done, by simp⟩

/-! ### Calls in any order -/

theorem receives_new (ip : StdString) (port : UInt16) (fd : Nat) (connId : UInt64) :
    Receives (.new (.accepted ip port fd) connId) where
  closed := by simp [TcpConnection.new]
  gone none := by
    have some : ((fd : Int) : Int) ≠ -1 := by omega
    exact absurd none some
  idle _ := ⟨fun full => absurd full.2 (by simp [TcpConnection.new]), by simp [TcpConnection.new, accepted]⟩
  busy msg held := by simp [TcpConnection.new] at held

private theorem write_receives {answer : Sendable} {result : WriteResult} (receives : Receives conn)
    (done : conn.writeData running answer = .ok result) : Receives result.conn := by
  rcases write_data_outcomes done with ⟨_, mToSend, mSent, mCurrentSendMsg, mToSendMsg, same⟩ | ⟨errno, _, _, _, rfl⟩
  · rw [same]
    refine ⟨receives.closed, receives.gone, receives.idle, fun msg held => ?_⟩
    obtain ⟨begun, dataLen, ⟨⟨atLeast, atMost, header, toRecv, requested, block, recved, within⟩, missing⟩⟩ :=
      receives.busy msg held
    exact ⟨begun, dataLen, ⟨atLeast, atMost, header, toRecv, requested, block, recved, within⟩, missing⟩
  · have dead : (conn.failedToSend errno).mSocket.noOK = true :=
      TcpConnection.close_no_ok (by simp [resetSend, noOK, errno.positive.ne'])
    have preRecv : (conn.failedToSend errno).mSocket.mPreRecv = conn.mSocket.mPreRecv := by
      simp [failedToSend, resetSend]
    have toRecv : (conn.failedToSend errno).mToRecv = conn.mToRecv := by simp [failedToSend, resetSend]
    have recved : (conn.failedToSend errno).mRecved = conn.mRecved := by simp [failedToSend, resetSend]
    have current : (conn.failedToSend errno).mCurrentRecvMsg = conn.mCurrentRecvMsg := by simp [failedToSend, resetSend]
    refine ⟨fun _ => dead, fun _ => dead, fun none => ⟨?_, fun _ => dead⟩, fun msg held => ?_⟩
    · dsimp only
      rw [Full, recved, toRecv]
      exact not_full receives
    · dsimp only at held ⊢
      rw [current] at held
      obtain ⟨begun, dataLen, frame⟩ := receives.busy msg held
      refine ⟨preRecv.trans begun, dataLen, ⟨frame.atLeast, frame.atMost, frame.header, toRecv.trans frame.toRecv,
        frame.requested, frame.block, ?_, ?_⟩, ?_⟩
      · rw [recved]
        exact frame.begun
      · rw [recved, toRecv]
        exact frame.within
      · rw [recved, toRecv]
        exact frame.missing

private theorem step_receives (link : Link) (call : Call) (after : Link) (output : CallResult)
    (receives : Receives link.conn)
    (taken : Link.step running link call = .ok (after, output)) : Receives after.conn := by
  cases call with
  | read =>
    obtain ⟨result, done, same⟩ := bind_ok.mp taken
    cases same
    rcases read_cases receives running link.arrivals with ⟨_, overflows⟩ | ⟨_, waits | ⟨other, again, kept⟩⟩
    · cases overflows.symm.trans done
    · cases waits.symm.trans done
    · cases again.symm.trans done
      exact kept
  | write answer =>
    obtain ⟨result, done, same⟩ := bind_ok.mp taken
    cases same
    exact write_receives receives done
  | enqueue msg =>
    cases taken
    refine ⟨receives.closed, receives.gone, receives.idle, fun msg held => ?_⟩
    obtain ⟨begun, dataLen, ⟨⟨atLeast, atMost, header, toRecv, requested, block, recved, within⟩, missing⟩⟩ :=
      receives.busy msg held
    exact ⟨begun, dataLen, ⟨atLeast, atMost, header, toRecv, requested, block, recved, within⟩, missing⟩

/-- Whenever a frame is in progress, counters and buffer are right. -/
def Sound (conn : TcpConnection) : Prop := ∀ msg, conn.mCurrentRecvMsg = some msg → ∃ dataLen, InFrame conn msg dataLen

/-- The state before a call is sound, and if the call reads, no length harms it. -/
def Harmless (running : Bool) (link : Link) (call : Call) : Prop :=
  Sound link.conn ∧ (call = .read → SafeRead link.conn running link.arrivals)

/-- The length that a call reads is not one of the eight largest. -/
def NotOverlong (link : Link) (call : Call) : Prop := call = .read → ¬ OverlongNext link.conn link.arrivals

private theorem sound_of_receives (receives : Receives conn) : Sound conn := fun msg held => (receives.busy msg held).2

/-- Whatever the peer sends and however it arrives, in any order of calls: no
length that it advertises harms the receiving side, exactly when none of them is
overlong. -/
theorem lengths_are_harmless_iff (ip : StdString) (port : UInt16) (fd : Nat) (connId : UInt64) (arrivals : List Arrival)
    (running : Bool) (calls : List Call) :
    (EveryStep (Link.step running) (Harmless running) ⟨.new (.accepted ip port fd) connId, arrivals⟩ calls ∧
      ∀ final results, run (Link.step running) ⟨.new (.accepted ip port fd) connId, arrivals⟩ calls = .ok (final, results) →
        Sound final.conn) ↔
    EveryStep (Link.step running) NotOverlong ⟨.new (.accepted ip port fd) connId, arrivals⟩ calls := by
  have start : Receives (.new (.accepted ip port fd) connId) := receives_new ip port fd connId
  have sound : ∀ final results, run (Link.step running) ⟨.new (.accepted ip port fd) connId, arrivals⟩ calls =
      .ok (final, results) → Sound final.conn := by
    intro final results ran
    exact sound_of_receives (run_invariant (fun link => Receives link.conn) step_receives start ran)
  have alike (link : Link) (call : Call) (receives : Receives link.conn) :
      Harmless running link call ↔ NotOverlong link call := by
    constructor
    · intro harmless reads
      exact (safe_read_iff receives running link.arrivals).mp (harmless.2 reads)
    · intro short
      exact ⟨sound_of_receives receives, fun reads => (safe_read_iff receives running link.arrivals).mpr (short reads)⟩
  rw [and_iff_left sound]
  exact every_step_congr (fun link => Receives link.conn) step_receives alike start

/-- The largest length that four bytes can hold. -/
def longest : List UInt8 := [0x7f, 0xff, 0xff, 0xff]

theorem longest_overflows : (TcpConnection.new (.accepted (.ascii "10.0.0.2") 7788 5) 1).readData true
    [.data longest (by decide)] =
    .error .signedOverflow := by
  decide +kernel

theorem longest_does_harm : ¬ ∀ (ip : StdString) (port : UInt16) (fd : Nat) (connId : UInt64) (arrivals : List Arrival)
    (running : Bool) (calls : List Call),
    EveryStep (Link.step running) (Harmless running) ⟨.new (.accepted ip port fd) connId, arrivals⟩ calls ∧
      ∀ final results, run (Link.step running) ⟨.new (.accepted ip port fd) connId, arrivals⟩ calls = .ok (final, results) →
        Sound final.conn := by
  intro claimed
  obtain ⟨⟨harmless, _⟩, _⟩ := claimed (.ascii "10.0.0.2") 7788 5 1 [.data longest (by decide)] true [.read]
  exact absurd ((harmless.2 rfl).returns _ longest_overflows) (by decide)

end ChatRoom.AdvertisedLengths
