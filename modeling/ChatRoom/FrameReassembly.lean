import ChatRoom.ConnectionCalls
import ChatRoom.MsgReading
import ChatRoom.Lib.Runs

/-! Reading a stream of frames. Between two calls the connection stands between
two frames, or inside one of which it has at least the length; in both cases its
state is determined by the bytes of the frame that it has. However the kernel
cuts the stream, each call moves on in it, and the frames come out one by one. -/
namespace ChatRoom.FrameReassembly
open Lib TcpSocket Arrival

variable {conn next : TcpConnection} {frame : Frame} {part bytes : List UInt8} {arrivals rest : List Arrival}

/-! ### Where a connection stands -/

theorem wire_length (frame : Frame) : frame.wire.length = frame.payload.length + 8 := by
  simp only [Frame.wire, List.length_append, be_bytes_length, frame.headLength]
  omega

/-- No byte of a frame has been read. -/
structure Between (conn : TcpConnection) : Prop where
  toRecv : conn.mToRecv = 0
  recved : conn.mRecved = 0
  msg : conn.mCurrentRecvMsg = none
  preRecv : conn.mSocket.mPreRecv = false

/-- These bytes of a frame have been read, its length among them. -/
structure Filled (conn : TcpConnection) (frame : Frame) (part : List UInt8) : Prop where
  begun : 4 ≤ part.length
  front : part <+: frame.wire
  toRecv : conn.mToRecv = frame.wire.length
  recved : conn.mRecved = part.length
  preRecv : conn.mSocket.mPreRecv = true
  msg : ∃ data, conn.mCurrentRecvMsg = some ⟨data, 0, 0, frame.payload.length + HEAD_LENGTH⟩ ∧
    data.length = frame.wire.length ∧ data.take part.length = part

/-- Nothing has happened that ends the connection. -/
structure Open (conn : TcpConnection) : Prop where
  socket : conn.mSocket.noOK = false
  conn : conn.mClosed = false

/-- Who the connection belongs to. -/
structure SamePeer (conn next : TcpConnection) : Prop where
  id : next.mConnID = conn.mConnID
  ip : next.mSocket.mIP = conn.mSocket.mIP
  port : next.mSocket.mPort = conn.mSocket.mPort

theorem SamePeer.trans {first second third : TcpConnection} (here : SamePeer first second)
    (there : SamePeer second third) : SamePeer first third :=
  ⟨there.id.trans here.id, there.ip.trans here.ip, there.port.trans here.port⟩

/-- A message that is full is the frame's. -/
private theorem filled_full (filled : Filled conn frame part) (full : part.length = frame.wire.length) :
    conn.mCurrentRecvMsg = some frame.msg ∧ part = frame.wire := by
  have whole : part = frame.wire := filled.front.eq_of_length full
  obtain ⟨data, held, size, kept⟩ := filled.msg
  have same : data = frame.wire := by
    rw [full, ← size, List.take_length] at kept
    rw [kept, whole]
  exact ⟨by rw [held, same]; rfl, whole⟩

/-! ### The length field -/

/-- The length is the number that the four bytes spell, as an `int`. -/
theorem length_of_eq (buf : List UInt8) (width : buf.length = 4) : lengthOf buf = toInt32 (beNat buf) := by
  rw [lengthOf, MsgReading.ntohl_reads buf width]
  simp [toInt32]

private theorem length_of_wire (frame : Frame) : lengthOf (frame.wire.take 4) = frame.payload.length := by
  have range := frame.atMost
  have field : frame.wire.take 4 = beBytes 4 frame.payload.length := by
    rw [Frame.wire, List.append_assoc, List.take_left' (be_bytes_length 4 frame.payload.length)]
  rw [length_of_eq _ (by simp [wire_length]), field, be_nat_bytes, Nat.mod_eq_of_lt (by omega)]
  exact to_int32_eq (by unfold IsInt32; omega)

/-! ### Parts of a call -/

private theorem start_msg_fills (frame : Frame) (none : conn.mCurrentRecvMsg = none)
    (preRecv : conn.mSocket.mPreRecv = true) :
    ∃ next, conn.startMsg frame.payload.length = .ok next ∧ Filled next frame (frame.wire.take 4) ∧
      next.mSocket = conn.mSocket ∧ next.mClosed = conn.mClosed ∧ next.mConnID = conn.mConnID := by
  have range := frame.atMost
  have head : HEAD_LENGTH = 8 := rfl
  have total : checkInt ((frame.payload.length : Int) + HEAD_LENGTH) = .ok (frame.payload.length + HEAD_LENGTH) :=
    check_int_ok.mpr ⟨by unfold IsInt32; omega, rfl⟩
  have word : (UInt32.ofInt frame.payload.length).toNat = frame.payload.length := by
    rw [UInt32.ofInt, UInt32.toNat_ofNat']
    omega
  have size : (malloc (fun _ => 0) (frame.payload.length + HEAD_LENGTH : Int).toNat).length = frame.wire.length := by
    rw [malloc_length, wire_length]
    omega
  obtain ⟨data, written⟩ : ∃ data, poke (malloc (fun _ => 0) (frame.payload.length + HEAD_LENGTH : Int).toNat) 0
      (beBytes 4 frame.payload.length) = .ok data :=
    ⟨_, poke_ok.mpr ⟨le_refl _, by simp; omega, rfl⟩⟩
  have made : conn.startMsg frame.payload.length = .ok { conn with
      mCurrentRecvMsg := some ⟨data, 0, 0, frame.payload.length + HEAD_LENGTH⟩
      mRecved := 4
      mToRecv := frame.payload.length + HEAD_LENGTH } := by
    rw [TcpConnection.startMsg, if_neg (by simp [none]), Msg.ofLen, total]
    simp only [ok_then]
    rw [if_neg (by omega)]
    simp only [ok_then, pure_ok, Msg.setLenTo, MsgBuffer.htonl_bytes, word, written]
  have front : data.take 4 = frame.wire.take 4 := by
    have taken := poke_take written
    simp only [Int.toNat_zero, be_bytes_length, Nat.zero_add, List.take_zero, List.nil_append] at taken
    rw [taken, Frame.wire, List.append_assoc, List.take_left' (be_bytes_length 4 frame.payload.length)]
  have width : (frame.wire.take 4).length = 4 := by
    rw [List.length_take, wire_length]
    omega
  refine ⟨_, made, ⟨by rw [width], List.take_prefix 4 frame.wire, ?_, by rw [width]; rfl, preRecv,
    data, rfl, (poke_length written).trans size, by rw [width, front]⟩, rfl, rfl, rfl⟩
  rw [wire_length]
  rfl

/-- What comes next on the stream is this frame, or as much of it as there is. -/
def Meets (frame : Frame) (stream : List UInt8) : Prop := frame.wire <+: stream ∨ stream <+: frame.wire

private theorem meets_front (meets : Meets frame (part ++ bytes)) (short : part.length ≤ frame.wire.length) :
    part <+: frame.wire := by
  rcases meets with whole | less
  · exact List.prefix_of_prefix_length_le (List.prefix_append part bytes) whole short
  · exact (List.prefix_append part bytes).trans less

private theorem meets_take (meets : Meets frame bytes) (enough : 4 ≤ bytes.length) :
    bytes.take 4 = frame.wire.take 4 := by
  have width := wire_length frame
  rcases meets with ⟨behind, rfl⟩ | ⟨missing, whole⟩
  · rw [List.take_append_of_le_length (by omega)]
  · rw [← whole, List.take_append_of_le_length enough]

private theorem recv_more_cases (filled : Filled conn frame part) (working : Open conn)
    (missing : part.length < frame.wire.length) (meets : Meets frame (part ++ bytesOf arrivals)) :
    arrivals = [] ∧ conn.recvMore arrivals = .error .blocked ∨
    (∃ next got rest, conn.recvMore arrivals = .ok (0, next, rest) ∧ Filled next frame (part ++ got) ∧
      got ++ bytesOf rest = bytesOf arrivals ∧ ending rest = ending arrivals ∧ weight rest < weight arrivals ∧
      Open next ∧ SamePeer conn next) ∨
    ∃ err next rest, conn.recvMore arrivals = .ok (err, next, rest) ∧ err ≠ 0 ∧ (ending arrivals).isSome ∧
      bytesOf arrivals = [] ∧ next.mClosed = true ∧ next.mRecved < next.mToRecv ∧ SamePeer conn next := by
  obtain ⟨data, held, size, kept⟩ := filled.msg
  have asked : toSizeT (conn.mToRecv - conn.mRecved) = frame.wire.length - part.length := by
    have range := frame.atMost
    have width := wire_length frame
    rw [filled.toRecv, filled.recved, toSizeT]
    omega
  rcases recv_cases working.socket (Nat.sub_pos_of_lt missing) arrivals with
    ⟨none, waits⟩ | ⟨got, rest, done, split, few, last, less⟩ | ⟨last, rest, done, ends, none⟩
  · left
    refine ⟨none, ?_⟩
    rw [TcpConnection.recvMore, held]
    simp only [asked, waits]
    rfl
  · right
    left
    obtain ⟨filledData, written⟩ : ∃ filledData, poke data conn.mRecved got = .ok filledData :=
      ⟨_, poke_ok.mpr ⟨by rw [filled.recved]; omega, by rw [filled.recved]; omega, rfl⟩⟩
    have taken := poke_take written
    rw [filled.recved, Int.toNat_natCast, kept, ← List.length_append] at taken
    have read : conn.recvMore arrivals = .ok (0, { conn with
        mCurrentRecvMsg := some ⟨filledData, 0, 0, frame.payload.length + HEAD_LENGTH⟩
        mRecved := conn.mRecved + got.length }, rest) := by
      rw [TcpConnection.recvMore, held]
      simp only [asked, done, ok_then]
      rw [if_neg (by simp)]
      simp only [written, ok_then]
      rfl
    refine ⟨_, got, rest, read, ?_, split, last, less, ⟨working.socket, working.conn⟩, ⟨rfl, rfl, rfl⟩⟩
    refine ⟨?_, ?_, filled.toRecv, ?_, filled.preRecv, filledData, rfl, (poke_length written).trans size, taken⟩
    · rw [List.length_append]
      exact Nat.le_add_right_of_le filled.begun
    · rw [← split, ← List.append_assoc] at meets
      exact meets_front meets (by rw [List.length_append]; omega)
    · simp only [filled.recved, List.length_append, Nat.cast_add]
  · right
    right
    have failed : conn.recvMore arrivals =
        .ok (endError last, { conn with mSocket := conn.mSocket.ended last }.close, rest) := by
      rw [TcpConnection.recvMore, held]
      simp only [asked, done, ok_then]
      rw [if_pos (end_error_ne_zero last)]
      rfl
    refine ⟨endError last, _, rest, failed, end_error_ne_zero last, by rw [ends]; rfl, none, by simp, ?_,
      ⟨by simp, by simp, by simp⟩⟩
    simp only [TcpConnection.close_recved, TcpConnection.close_to_recv, filled.recved, filled.toRecv]
    omega

/-- Where a connection can stand between two calls: these bytes of a frame have
been read, and more are to come. -/
def At (conn : TcpConnection) (frame : Frame) (part : List UInt8) : Prop :=
  part = [] ∧ Between conn ∨ Filled conn frame part ∧ part.length < frame.wire.length

/-- The call takes bytes of the frame from the stream. -/
structure Advances (conn : TcpConnection) (part : List UInt8) (arrivals : List Arrival)
    (next : TcpConnection) (more : List UInt8) (rest : List Arrival) : Prop where
  stream : more ++ bytesOf rest = part ++ bytesOf arrivals
  ending : ending rest = ending arrivals
  less : weight rest < weight arrivals
  working : Open next
  peer : SamePeer conn next

/-- What `TryRead` makes of the frame: it waits for more of it, takes a part of
it, or meets the end in front of it. -/
def Tries (conn : TcpConnection) (frame : Frame) (part : List UInt8) (arrivals : List Arrival) : Prop :=
  (conn.tryRead arrivals = .error .blocked ∧ ending arrivals = none ∧
    (part ++ bytesOf arrivals).length < frame.wire.length) ∨
  (∃ next more rest, conn.tryRead arrivals = .ok (0, next, rest) ∧ Filled next frame more ∧
    Advances conn part arrivals next more rest) ∨
  ∃ err next rest, conn.tryRead arrivals = .ok (err, next, rest) ∧ err ≠ 0 ∧ (ending arrivals).isSome ∧
    (part ++ bytesOf arrivals).length < frame.wire.length ∧ next.mClosed = true ∧
    ¬ next.Full ∧ SamePeer conn next

/-- The length field comes first; what follows it is asked for in the same call. -/
private theorem first_try (between : Between conn) (working : Open conn) (meets : Meets frame (bytesOf arrivals)) :
    Tries conn frame [] arrivals := by
  have width := wire_length frame
  unfold Tries
  rw [List.nil_append]
  by_cases enough : 4 ≤ (bytesOf arrivals).length
  · obtain ⟨rest, ⟨left, last, less⟩, done⟩ := TcpConnection.try_read_enough working.socket between.preRecv enough
    have field : (bytesOf arrivals).take 4 = frame.wire.take 4 := meets_take meets enough
    obtain ⟨started, made, fills, socket, closed, id⟩ :=
      @start_msg_fills { conn with mSocket := { conn.mSocket with mPreRecv := true } } frame between.msg rfl
    have whole : frame.wire.take 4 ++ bytesOf rest = bytesOf arrivals := by
      rw [← field, left, List.take_append_drop]
    have short : (frame.wire.take 4).length < frame.wire.length := by
      rw [List.length_take]
      omega
    have begun : Open started := ⟨by rw [socket]; exact working.socket, by rw [closed]; exact working.conn⟩
    have same : SamePeer conn started := ⟨id, by rw [socket], by rw [socket]⟩
    rw [field, length_of_wire, if_neg (by have := frame.atLeast; omega), made] at done
    simp only [ok_then] at done
    rw [done]
    rw [← whole] at meets
    rcases recv_more_cases fills begun short meets with
      ⟨none, waits⟩ | ⟨next, got, behind, did, filled, split, last', less', working', peer⟩ |
      ⟨err, next, behind, did, failed, last', none, closed', few, peer⟩
    · left
      refine ⟨waits, by rw [← last, none]; rfl, ?_⟩
      rw [← whole, none, bytesOf, List.append_nil]
      exact short
    · right
      left
      refine ⟨next, _, behind, did, filled, ⟨?_, last'.trans last, less'.trans less, working', same.trans peer⟩⟩
      rw [List.append_assoc, split, whole, List.nil_append]
    · right
      right
      refine ⟨err, next, behind, did, failed, by rw [← last]; exact last', ?_, closed', fun full => few.ne full.1,
        same.trans peer⟩
      rw [← whole, none, List.append_nil]
      exact short
  · have first := TcpConnection.try_read_short working.socket between.preRecv (Nat.lt_of_not_le enough)
    cases last : ending arrivals with
    | none =>
      rw [last] at first
      exact .inl ⟨first, rfl, by omega⟩
    | some last' =>
      right
      right
      rw [last] at first
      obtain ⟨rest, done⟩ := first
      refine ⟨_, _, rest, done, end_error_ne_zero last', rfl, by omega, by simp, ?_, ⟨by simp, by simp, by simp⟩⟩
      simp [TcpConnection.Full, between.recved]

private theorem later_try (filled : Filled conn frame part) (missing : part.length < frame.wire.length)
    (working : Open conn) (meets : Meets frame (part ++ bytesOf arrivals)) : Tries conn frame part arrivals := by
  unfold Tries
  rw [TcpConnection.try_read_resumes working.socket filled.preRecv]
  rcases recv_more_cases filled working missing meets with
    ⟨none, waits⟩ | ⟨next, got, rest, done, fills, split, last, less, working, peer⟩ |
    ⟨err, next, rest, done, failed, last, none, closed, few, peer⟩
  · left
    exact ⟨waits, by rw [none]; rfl, by simpa [none, bytesOf] using missing⟩
  · right
    left
    exact ⟨next, part ++ got, rest, done, fills, by rw [List.append_assoc, split], last, less, working, peer⟩
  · right
    right
    exact ⟨err, next, rest, done, failed, last, by simpa [none] using missing, closed,
      fun full => few.ne full.1, peer⟩

private theorem try_read_cases (here : At conn frame part) (working : Open conn)
    (meets : Meets frame (part ++ bytesOf arrivals)) : Tries conn frame part arrivals := by
  rcases here with ⟨rfl, between⟩ | ⟨filled, missing⟩
  · exact first_try between working meets
  · exact later_try filled missing working meets

/-- What the logic service is given for a frame. -/
def received (conn : TcpConnection) (frame : Frame) : OperContext :=
  .recv frame.msg conn.mConnID conn.mSocket.mIP conn.mSocket.mPort

private theorem filled_is_full (filled : Filled conn frame part) :
    conn.Full ↔ part.length = frame.wire.length := by
  have width := wire_length frame
  rw [TcpConnection.Full, filled.recved, filled.toRecv]
  omega

/-- One call of `ReadData`: it waits for more, takes a part of the frame, hands
over the frame, or meets the end in front of it. -/
theorem read_data_cases (here : At conn frame part) (working : Open conn)
    (meets : Meets frame (part ++ bytesOf arrivals)) :
    (conn.readData true arrivals = .error .blocked ∧ ending arrivals = none ∧
      (part ++ bytesOf arrivals).length < frame.wire.length) ∨
    (∃ next more rest, conn.readData true arrivals = .ok ⟨0, next, rest, []⟩ ∧ At next frame more ∧
      Advances conn part arrivals next more rest) ∨
    (∃ next rest, conn.readData true arrivals = .ok ⟨0, next, rest, [received conn frame]⟩ ∧ Between next ∧
      Advances conn part arrivals next frame.wire rest) ∨
    ∃ err next rest, conn.readData true arrivals = .ok ⟨err, next, rest, [.drop conn.mConnID]⟩ ∧
      (ending arrivals).isSome ∧ (part ++ bytesOf arrivals).length < frame.wire.length ∧
      next.mClosed = true ∧ SamePeer conn next := by
  rcases try_read_cases here working meets with
    ⟨waits, last, short⟩ | ⟨next, more, rest, tried, filled, forward⟩ |
    ⟨err, next, rest, tried, failed, last, short, closed, part, peer⟩
  · exact .inl ⟨TcpConnection.read_data_stops waits, last, short⟩
  · right
    by_cases full : next.Full
    · right
      left
      obtain ⟨whole, same⟩ := filled_full filled ((filled_is_full filled).mp full)
      refine ⟨next.resetRecv, rest, ?_, ⟨rfl, rfl, rfl, rfl⟩, ⟨?_, forward.ending, forward.less,
        ⟨forward.working.socket, forward.working.conn⟩, ⟨forward.peer.id, forward.peer.ip, forward.peer.port⟩⟩⟩
      · rw [TcpConnection.read_data_full tried full whole, received, forward.peer.id, forward.peer.ip,
          forward.peer.port]
      · rw [← forward.stream, same]
    · left
      have missing : more.length < frame.wire.length :=
        lt_of_le_of_ne filled.front.length_le fun all => full ((filled_is_full filled).mpr all)
      exact ⟨next, more, rest, TcpConnection.read_data_part tried full, .inr ⟨filled, missing⟩, forward⟩
  · right
    right
    right
    refine ⟨err, next.resetRecv, rest, ?_, last, short, closed, ⟨peer.id, peer.ip, peer.port⟩⟩
    rw [TcpConnection.read_data_failed tried failed part, peer.id]
    rfl

/-! ### Runs -/

/-- A stream sent to a connection: frames one after the other, of the last of
which only a part may come, in whatever pieces the kernel hands it out, and with
nothing but the end of the stream behind it. -/
structure Delivery where
  frames : List Frame
  cut : List UInt8
  unfinished : ∃ frame : Frame, cut <+: frame.wire ∧ cut.length < frame.wire.length
  arrivals : List Arrival
  bytes : bytesOf arrivals = frames.flatMap Frame.wire ++ cut
  ends : ending arrivals = none ∨ ending arrivals = some .fin

/-- The connection is read only until it is closed, and no write fails. -/
def Calm (link : Link) : Call → Prop
  | .read => link.conn.mClosed = false
  | .write (.fail errno) => errno.Again
  | .write (.accepts _ _) => True
  | .enqueue _ => True

instance (link : Link) (call : Call) : Decidable (Calm link call) :=
  match call with
  | .read => inferInstanceAs (Decidable (link.conn.mClosed = false))
  | .write (.fail errno) => inferInstanceAs (Decidable errno.Again)
  | .write (.accepts _ _) => isTrue trivial
  | .enqueue _ => isTrue trivial

/-- The frame that the next bytes belong to. -/
private def Due (frame : Frame) (todo : List Frame) (cut : List UInt8) : Prop :=
  match todo with
  | [] => cut <+: frame.wire ∧ cut.length < frame.wire.length
  | first :: _ => frame = first

variable {delivery : Delivery} {first : TcpConnection} {link : Link} {queued : List OperContext}
  {done todo : List Frame}

private theorem due_meets {cut : List UInt8} (due : Due frame todo cut) :
    Meets frame (todo.flatMap Frame.wire ++ cut) := by
  cases todo with
  | nil => exact .inr due.1
  | cons first others =>
    subst due
    left
    rw [List.flatMap_cons, List.append_assoc]
    exact List.prefix_append frame.wire _

private theorem due_exists (delivery : Delivery) (todo : List Frame) : ∃ frame, Due frame todo delivery.cut := by
  cases todo with
  | nil => exact delivery.unfinished
  | cons first others => exact ⟨first, rfl⟩

private theorem none_due {cut : List UInt8} (due : Due frame todo cut)
    (short : (todo.flatMap Frame.wire ++ cut).length < frame.wire.length) : todo = [] := by
  cases todo with
  | nil => rfl
  | cons first others =>
    subst due
    simp only [List.flatMap_cons, List.length_append] at short
    omega

private theorem due_whole {cut : List UInt8} (due : Due frame todo cut)
    (whole : frame.wire ++ bytes = todo.flatMap Frame.wire ++ cut) :
    ∃ others, todo = frame :: others ∧ bytes = others.flatMap Frame.wire ++ cut := by
  cases todo with
  | nil =>
    have length := congrArg List.length whole
    have short := due.2
    simp only [List.flatMap_nil, List.nil_append, List.length_append] at length
    omega
  | cons first others =>
    subst due
    rw [List.flatMap_cons, List.append_assoc] at whole
    exact ⟨others, rfl, List.append_cancel_left whole⟩

theorem received_same {conn next : TcpConnection} (peer : SamePeer conn next) :
    received next = received conn := by
  funext frame
  rw [received, received, peer.id, peer.ip, peer.port]

/-- The frames `done` have been handed over, and the rest is still to be read. -/
structure Underway (delivery : Delivery) (first : TcpConnection) (done todo : List Frame) (link : Link)
    (queued : List OperContext) : Prop where
  frames : delivery.frames = done ++ todo
  queued : queued = done.map (received first)
  peer : SamePeer first link.conn
  working : Open link.conn
  ending : ending link.arrivals = ending delivery.arrivals
  here : ∃ frame part, Due frame todo delivery.cut ∧ At link.conn frame part ∧
    part ++ bytesOf link.arrivals = todo.flatMap Frame.wire ++ delivery.cut

/-- All frames have been handed over, and the connection was reported. -/
structure Over (delivery : Delivery) (first : TcpConnection) (link : Link) (queued : List OperContext) : Prop where
  queued : queued = delivery.frames.map (received first) ++ [.drop first.mConnID]
  closed : link.conn.mClosed = true
  ending : ending delivery.arrivals = some .fin

private theorem underway_read (underway : Underway delivery first done todo link queued) :
    (Link.step true link .read = .error .blocked ∧ todo = [] ∧ Arrival.ending delivery.arrivals = none) ∨
    ∃ next result, Link.step true link .read = .ok (next, result) ∧
      ((∃ done todo, Underway delivery first done todo next (queued ++ result.enqueued) ∧
        weight next.arrivals < weight link.arrivals) ∨ Over delivery first next (queued ++ result.enqueued)) := by
  obtain ⟨frame, part, due, here, stream⟩ := underway.here
  have meets := due_meets due
  rw [← stream] at meets
  rcases read_data_cases here underway.working meets with
    ⟨waits, last, short⟩ | ⟨next, more, rest, read, here, forward⟩ | ⟨next, rest, read, between, forward⟩ |
    ⟨err, next, rest, read, last, short, closed, peer⟩
  · left
    rw [stream] at short
    exact ⟨by rw [Link.step, waits]; rfl, none_due due short, underway.ending ▸ last⟩
  · right
    refine ⟨⟨next, rest⟩, ⟨[], []⟩, by rw [Link.step, read]; rfl, .inl ⟨done, todo, ?_, forward.less⟩⟩
    rw [List.append_nil]
    exact ⟨underway.frames, underway.queued, underway.peer.trans forward.peer, forward.working,
      forward.ending.trans underway.ending, frame, more, due, here, forward.stream.trans stream⟩
  · right
    obtain ⟨others, rfl, left⟩ := due_whole due (forward.stream.trans stream)
    obtain ⟨second, due'⟩ := due_exists delivery others
    refine ⟨⟨next, rest⟩, ⟨[received link.conn frame], []⟩, by rw [Link.step, read]; rfl,
      .inl ⟨done ++ [frame], others, ⟨?_, ?_, underway.peer.trans forward.peer, forward.working,
        forward.ending.trans underway.ending, second, [], due', .inl ⟨rfl, between⟩, left⟩, forward.less⟩⟩
    · rw [underway.frames, List.append_assoc]
      rfl
    · rw [underway.queued, received_same underway.peer, List.map_append]
      rfl
  · right
    refine ⟨⟨next, rest⟩, ⟨[.drop link.conn.mConnID], []⟩, by rw [Link.step, read]; rfl, .inr ?_⟩
    rw [stream] at short
    have all : delivery.frames = done := by
      rw [underway.frames, none_due due short, List.append_nil]
    refine ⟨by rw [underway.queued, all, underway.peer.id], closed, ?_⟩
    rw [underway.ending] at last
    rcases delivery.ends with none | fin
    · rw [none] at last
      contradiction
    · exact fin

/-- Whatever the connection does that keeps its receiving half leaves it where it stands. -/
private theorem at_of_sends {mToSend mSent : Int} {mCurrentSendMsg : Option Msg} {mToSendMsg : List Msg}
    (underway : Underway delivery first done todo link queued) :
    Underway delivery first done todo
      { link with conn := { link.conn with mToSend, mSent, mCurrentSendMsg, mToSendMsg } } queued := by
  obtain ⟨frame, part, due, here, stream⟩ := underway.here
  refine ⟨underway.frames, underway.queued, ⟨underway.peer.id, underway.peer.ip, underway.peer.port⟩,
    ⟨underway.working.socket, underway.working.conn⟩, underway.ending, frame, part, due, ?_, stream⟩
  rcases here with ⟨none, between⟩ | ⟨filled, missing⟩
  · exact .inl ⟨none, between.toRecv, between.recved, between.msg, between.preRecv⟩
  · exact .inr ⟨⟨filled.begun, filled.front, filled.toRecv, filled.recved, filled.preRecv, filled.msg⟩, missing⟩

/-- The history of a run: frames that are done and frames to do, or the end. -/
private def History (delivery : Delivery) (first : TcpConnection) (link : Link)
    (seen : List (Call × CallResult)) : Prop :=
  (∃ done todo, Underway delivery first done todo link (Link.enqueuedBy (seen.map Prod.snd))) ∨
    Over delivery first link (Link.enqueuedBy (seen.map Prod.snd))

private theorem calm_write_sends {answer : Sendable} {result : WriteResult} (calm : Calm link (.write answer))
    (written : link.conn.writeData true answer = .ok result) : link.conn.OnlySends result := by
  rcases TcpConnection.write_data_cases written with sends | ⟨⟨errno, rfl, failed⟩, _⟩
  · exact sends
  · exact absurd calm failed

private theorem history_step {seen : List (Call × CallResult)} {call : Call} {next : Link} {result : CallResult}
    (history : History delivery first link seen) (calm : Calm link call)
    (taken : Link.step true link call = .ok (next, result)) :
    History delivery first next (seen ++ [(call, result)]) := by
  have grown : Link.enqueuedBy ((seen ++ [(call, result)]).map Prod.snd) =
      Link.enqueuedBy (seen.map Prod.snd) ++ result.enqueued := by
    simp [Link.enqueuedBy]
  rw [History, grown]
  cases call with
  | read =>
    rcases history with ⟨done, todo, underway⟩ | ended
    · rcases underway_read underway with ⟨waits, _⟩ | ⟨next', result', read, after⟩
      · rw [waits] at taken
        contradiction
      · rw [read] at taken
        cases taken
        rcases after with ⟨done', todo', underway', _⟩ | ended
        · exact .inl ⟨done', todo', underway'⟩
        · exact .inr ended
    · have closed := ended.closed
      rw [Calm] at calm
      rw [calm] at closed
      contradiction
  | write answer =>
    obtain ⟨written, writes, same⟩ := bind_ok.mp taken
    obtain ⟨nothing, mToSend, mSent, mCurrentSendMsg, mToSendMsg, conn⟩ := calm_write_sends calm writes
    cases same
    simp only [nothing, List.append_nil, conn]
    rcases history with ⟨done, todo, underway⟩ | ended
    · exact .inl ⟨done, todo, at_of_sends underway⟩
    · exact .inr ⟨ended.queued, ended.closed, ended.ending⟩
  | enqueue msg =>
    cases taken
    simp only [List.append_nil]
    rcases history with ⟨done, todo, underway⟩ | ended
    · exact .inl ⟨done, todo, at_of_sends underway⟩
    · exact .inr ⟨ended.queued, ended.closed, ended.ending⟩

private theorem at_begins {socket : TcpSocket} (working : socket.noOK = false) (fresh : socket.mPreRecv = false)
    (delivery : Delivery) (id : UInt64) :
    Underway delivery (TcpConnection.new socket id) [] delivery.frames
      ⟨TcpConnection.new socket id, delivery.arrivals⟩ [] := by
  obtain ⟨frame, due⟩ := due_exists delivery delivery.frames
  exact ⟨rfl, rfl, ⟨rfl, rfl, rfl⟩, ⟨working, rfl⟩, rfl, frame, [], due, .inl ⟨rfl, rfl, rfl, rfl, fresh⟩,
    delivery.bytes⟩

/-- All frames have been handed over, and nothing comes behind them. -/
def Waiting (delivery : Delivery) (first : TcpConnection) (link : Link) (queued : List OperContext) : Prop :=
  queued = delivery.frames.map (received first) ∧ Arrival.ending delivery.arrivals = none ∧
    Link.step true link .read = .error .blocked

/-- Reading on reaches the end of what is sent: the weight of what waits in the
kernel goes down with each call. -/
private theorem reads_finish (underway : Underway delivery first done todo link queued) :
    ∃ count last more, run (Link.step true) link (List.replicate count .read) = .ok (last, more) ∧
      EveryStep (Link.step true) Calm link (List.replicate count .read) ∧
      (Waiting delivery first last (queued ++ Link.enqueuedBy more) ∨
        Over delivery first last (queued ++ Link.enqueuedBy more)) := by
  generalize bound : weight link.arrivals = left
  induction left using Nat.strongRecOn generalizing link queued done todo with
  | ind left ih =>
    rcases underway_read underway with ⟨waits, none, last⟩ | ⟨next, result, read, after⟩
    · refine ⟨0, link, [], rfl, trivial, .inl ⟨?_, last, waits⟩⟩
      rw [underway.queued, underway.frames, none]
      simp [Link.enqueuedBy]
    · rcases after with ⟨done', todo', underway', less⟩ | ended
      · obtain ⟨count, last, more, ran, calm, finished⟩ := ih _ (bound ▸ less) underway' rfl
        refine ⟨count + 1, last, result :: more, run_cons_ok.mpr ⟨next, result, more, read, ran, rfl⟩,
          ⟨underway.working.conn, ?_⟩, ?_⟩
        · rintro _ _ same
          rw [read] at same
          cases same
          exact calm
        · simpa [Link.enqueuedBy] using finished
      · refine ⟨1, next, [result], run_cons_ok.mpr ⟨next, result, [], read, rfl, rfl⟩,
          ⟨underway.working.conn, fun _ _ _ => trivial⟩, .inr ?_⟩
        simpa [Link.enqueuedBy] using ended

/-- The frames `done` were handed over, each once and in order, and of the next
frame only a part has been read. -/
def Reassembled (delivery : Delivery) (first : TcpConnection) (link : Link) (queued : List OperContext) : Prop :=
  ∃ done todo part, delivery.frames = done ++ todo ∧ queued = done.map (received first) ∧
    part ++ bytesOf link.arrivals = todo.flatMap Frame.wire ++ delivery.cut ∧
    ∀ frame ∈ todo.head?, part.length < frame.wire.length

private theorem underway_reassembled (underway : Underway delivery first done todo link queued) :
    Reassembled delivery first link queued := by
  obtain ⟨frame, part, due, here, stream⟩ := underway.here
  refine ⟨done, todo, part, underway.frames, underway.queued, stream, fun next head => ?_⟩
  have same : frame = next := by
    cases todo with
    | nil => contradiction
    | cons first others =>
      cases head
      exact due
  rw [← same]
  rcases here with ⟨rfl, _⟩ | ⟨_, missing⟩
  · rw [wire_length]
    exact Nat.succ_pos _
  · exact missing

theorem Frame.payload_behind_head (frame : Frame) : frame.msg.mData.drop HEAD_LENGTH = frame.payload := by
  rw [Frame.msg, Frame.wire]
  exact List.drop_left' (by simp [HEAD_LENGTH, frame.headLength])

/-- However the kernel hands out the stream and whatever is sent meanwhile: as
long as the connection is open, the complete frames that have been read are what
the logic service was given; reading on, all frames are handed over, and if the
stream ends, the connection is closed and reported once, behind the last of them. -/
theorem every_segmentation_is_reassembled {socket : TcpSocket} {calls : List Call} {final : Link}
    {results : List CallResult} (working : socket.noOK = false) (fresh : socket.mPreRecv = false)
    (delivery : Delivery) (id : UInt64)
    (ran : run (Link.step true) ⟨TcpConnection.new socket id, delivery.arrivals⟩ calls = .ok (final, results))
    (calm : EveryStep (Link.step true) Calm ⟨TcpConnection.new socket id, delivery.arrivals⟩ calls) :
    let first := TcpConnection.new socket id
    (final.conn.mClosed = false ∧ Reassembled delivery first final (Link.enqueuedBy results) ∨
      Over delivery first final (Link.enqueuedBy results)) ∧
    (∃ count last more, run (Link.step true) final (List.replicate count .read) = .ok (last, more) ∧
      EveryStep (Link.step true) Calm final (List.replicate count .read) ∧
      (Waiting delivery first last (Link.enqueuedBy (results ++ more)) ∨
        Over delivery first last (Link.enqueuedBy (results ++ more)))) ∧
    ∀ frame ∈ delivery.frames, frame.msg.mData.drop HEAD_LENGTH = frame.payload := by
  intro first
  have start : History delivery first ⟨first, delivery.arrivals⟩ [] :=
    .inl ⟨[], delivery.frames, at_begins working fresh delivery id⟩
  have history := run_history (History delivery first)
    (fun _ _ _ _ _ held meets taken => history_step held meets taken) start calm ran
  have all : (calls.zip results).map Prod.snd = results :=
    List.map_snd_zip (Nat.le_of_eq (run_length ran))
  rw [History, all] at history
  refine ⟨?_, ?_, fun frame _ => Frame.payload_behind_head frame⟩
  · rcases history with ⟨done, todo, underway⟩ | ended
    · exact .inl ⟨underway.working.conn, underway_reassembled underway⟩
    · exact .inr ended
  · have joined : ∀ more, Link.enqueuedBy (results ++ more) = Link.enqueuedBy results ++ Link.enqueuedBy more :=
      fun _ => List.flatMap_append
    rcases history with ⟨done, todo, underway⟩ | ended
    · obtain ⟨count, last, more, reads, calmly, finished⟩ := reads_finish underway
      exact ⟨count, last, more, reads, calmly, by rwa [joined]⟩
    · refine ⟨0, final, [], rfl, trivial, .inr ?_⟩
      rwa [List.append_nil]

/-- One frame in three pieces, cut inside its length and inside its payload, and
the end of the stream behind the first bytes of another. -/
def hurried : Delivery where
  frames := [.carrying [0, 0, 0, 8] (by decide) (by decide)]
  cut := [0, 0]
  unfinished := ⟨.carrying [0, 0, 0, 8] (by decide) (by decide), by decide, by decide⟩
  arrivals := [.data [0, 0] (by decide), .fail .again, .data [0, 4, 0, 0, 0, 0, 0] (by decide), .fail .again,
    .data [0, 0, 8, 0, 0] (by decide), .fin]
  bytes := by decide
  ends := .inr rfl

/-- The socket of a client that is called "h". -/
def visitor : TcpSocket := TcpSocket.accepted (.ascii "h") 80 7

theorem a_hurried_frame_is_reassembled :
    ∃ final results, run (Link.step true) ⟨TcpConnection.new visitor 1, hurried.arrivals⟩
        [.read, .write (.fail .again), .read, .read, .read] = .ok (final, results) ∧
      Over hurried (TcpConnection.new visitor 1) final (Link.enqueuedBy results) := by
  have calm : EveryStep (Link.step true) Calm ⟨TcpConnection.new visitor 1, hurried.arrivals⟩
      [.read, .write (.fail .again), .read, .read, .read] := by decide +kernel
  have closes : (run (Link.step true) ⟨TcpConnection.new visitor 1, hurried.arrivals⟩
      [.read, .write (.fail .again), .read, .read, .read]).toOption.map (fun reply => reply.1.conn.mClosed) =
      some true := by decide +kernel
  obtain ⟨⟨final, results⟩, ran, closed⟩ := Option.map_eq_some_iff.mp closes
  have done := ok_of_option ran
  rcases (every_segmentation_is_reassembled rfl rfl hurried 1 done calm).1 with ⟨opened, _⟩ | ended
  · rw [closed] at opened
    contradiction
  · exact ⟨final, results, done, ended⟩

end ChatRoom.FrameReassembly
