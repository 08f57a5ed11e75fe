import ChatRoom.NetIo
import ChatRoom.ConnectionClosing

/-! What makes the driver send the rest of a message. `SendMsg` tries once, and what
the kernel does not take then stays in the queue. The write event of a connection is
made with the flags of its read event, so nothing in the driver waits for a
descriptor to become writable; the rest has to wait until the peer sends, or until
there is another message. -/
namespace ChatRoom.WriteTrigger
open Lib NetIo

variable {driver : Driver} {io next : NetIo} {conn after : TcpConnection} {connId : UInt64} {fd : Int}

/-- The driver calls `WriteData` of the connection when its descriptor is writable. -/
def Watched (driver : Driver) (fd : Int) (conn : RWConnection) : Prop :=
  ∃ info side event, driver.mEventsInfo[fd]? = some info ∧ info.event side = some event ∧
    .EV_WRITE ∈ event.flags ∧ event.handler = .writeHandler ∧ event.arg = conn

/-- A message leaves the queue with its last byte. -/
def HasUnsent (conn : TcpConnection) : Prop := conn.mToSendMsg ≠ []

/-- What is unsent on an open connection is sent once the kernel can take it. -/
def Triggered (io : NetIo) : Prop :=
  ∀ (connId : UInt64) (conn : TcpConnection), io.net.mConns[connId]? = some conn → conn.mClosed = false → HasUnsent conn →
    Watched io.driver conn.mSocket.mSocket (.connection connId)

/-! ### The driver -/

/-- No event is reported when a descriptor is writable. -/
def NeverWritable (driver : Driver) : Prop :=
  ∀ (fd : Int) info side event, driver.mEventsInfo[fd]? = some info → info.event side = some event →
    .EV_WRITE ∉ event.flags

private theorem never_insert (never : NeverWritable driver) {entry : EventInfo}
    (added : ∀ side event, entry.event side = some event → .EV_WRITE ∉ event.flags) :
    NeverWritable ⟨driver.mEventsInfo.insert fd entry⟩ := by
  intro probe info side event found made
  rw [Std.ExtTreeMap.getElem?_insert] at found
  split at found
  · cases found
    exact added side event made
  · exact never probe info side event found made

private theorem never_erase (never : NeverWritable driver) : NeverWritable ⟨driver.mEventsInfo.erase fd⟩ := by
  intro probe info side event found made
  rw [Std.ExtTreeMap.getElem?_erase] at found
  split at found
  · cases found
  · exact never probe info side event found made

private theorem never_regist (never : NeverWritable driver) (fd : Int) (conn : RWConnection) (side : EventInfo.Side)
    {flags : List EventFlag} (handler : EventHandler) (unwatched : .EV_WRITE ∉ flags) :
    NeverWritable (driver.regist fd conn side flags handler).2 := by
  have old (other : EventInfo.Side) (event : IoEvent)
      (made : (driver.mEventsInfo[fd]?.getD .new).event other = some event) : .EV_WRITE ∉ event.flags := by
    cases found : driver.mEventsInfo[fd]? with
    | none =>
      rw [found] at made
      cases other <;> cases made
    | some info =>
      rw [found] at made
      exact never fd info other event found made
  unfold Driver.regist
  dsimp only
  split
  · exact never
  · apply never_insert never
    intro other event made
    cases side <;> cases other
    · cases made
      exact unwatched
    · exact old .write event made
    · exact old .read event made
    · cases made
      exact unwatched

private theorem never_un_regist (never : NeverWritable driver) (fd : Int) (side : EventInfo.Side) :
    NeverWritable (driver.unRegist fd side).2 := by
  unfold Driver.unRegist
  split
  · exact never
  next info found =>
    dsimp only
    split
    · exact never_erase never
    · apply never_insert never
      intro other event made
      apply never fd info other event found
      cases side <;> cases other <;> first | exact made | cases made

private theorem asserted_ok {result : Int × Driver} {driver : Driver} (done : RWConnection.asserted result = .ok driver) :
    result.2 = driver := by
  obtain ⟨err, after⟩ := result
  simp only [RWConnection.asserted] at done
  split at done
  · cases done
    rfl
  · cases done

theorem never_regist_read {conn : RWConnection} {after : Driver} (never : NeverWritable driver)
    (done : conn.registReadEvent driver fd = .ok after) : NeverWritable after := by
  rw [← asserted_ok done]
  exact never_regist never fd conn .read .readHandler (by decide)

/-- The flags of a write event are those of a read event. -/
theorem never_regist_write {conn : RWConnection} {after : Driver} (never : NeverWritable driver)
    (done : conn.registWriteEvent driver fd = .ok after) : NeverWritable after := by
  rw [← asserted_ok done]
  exact never_regist never fd conn .write .writeHandler (by decide)

theorem never_un_regist_read {after : Driver} (never : NeverWritable driver)
    (done : RWConnection.unRegistReadEvent driver fd = .ok after) : NeverWritable after := by
  rw [← asserted_ok done]
  exact never_un_regist never fd .read

theorem never_un_regist_both {after : Driver} (never : NeverWritable driver)
    (done : RWConnection.unRegistRWEvent driver fd = .ok after) : NeverWritable after := by
  obtain ⟨middle, first, second⟩ := bind_ok.mp done
  rw [← asserted_ok second]
  exact never_un_regist (never_un_regist_read never first) fd .write

/-! ### One step -/

/-- What holds in every state of a run. -/
structure Sound (io : NetIo) : Prop where
  never : NeverWritable io.driver
  settled : ∀ (connId : UInt64) (conn : TcpConnection), io.net.mConns[connId]? = some conn → conn.Settled
  fresh : ∀ socket, .accept socket ∈ io.net.mQueue → socket.noOK = false

/-- Nothing is unsent on an open connection. -/
def AllSent (io : NetIo) : Prop :=
  ∀ (connId : UInt64) (conn : TcpConnection), io.net.mConns[connId]? = some conn → conn.mClosed = false →
    conn.mToSendMsg = [] ∧ conn.mCurrentSendMsg = none

theorem triggered_of_sent (sent : AllSent io) : Triggered io := by
  intro connId conn known opened unsent
  exact absurd (sent connId conn known opened).1 unsent

/-- What `called` leaves. -/
theorem called_leaves {enqueued : List OperContext} (done : io.called connId conn after enqueued = .ok next) :
    next.net = io.net.changed connId after enqueued ∧ (NeverWritable io.driver → NeverWritable next.driver) := by
  unfold NetIo.called at done
  dsimp only at done
  split at done
  · obtain ⟨driver, gone, same⟩ := bind_ok.mp done
    cases same
    exact ⟨rfl, fun never => never_un_regist_both never gone⟩
  · cases done
    exact ⟨rfl, id⟩

/-! ### Calls -/

variable {arrivals : List Arrival} {answer : Sendable} {msg : Msg}

/-- `ReadData` leaves what is queued, or closes the connection. -/
theorem read_leaves_sent {result : ReadResult} (done : conn.readData true arrivals = .ok result)
    (opened : result.conn.mClosed = false) : conn.mClosed = false ∧ result.conn.mToSendMsg = conn.mToSendMsg ∧
      result.conn.mCurrentSendMsg = conn.mCurrentSendMsg := by
  rcases TcpConnection.read_data_leaves done with ⟨_, _, _, _, _, same⟩ | ⟨middle, _, _, _, _, _, _, same⟩
  · rw [same] at opened ⊢
    exact ⟨opened, rfl, rfl⟩
  · rw [same] at opened
    cases (TcpConnection.close_closed middle).symm.trans opened

/-- With nothing queued, `WriteData` does nothing. -/
theorem write_idle {result : WriteResult} (done : conn.writeData true answer = .ok result)
    (sent : conn.mClosed = false → conn.mToSendMsg = [] ∧ conn.mCurrentSendMsg = none) : result.conn = conn := by
  cases ended : conn.mClosed || conn.mSocket.noOK with
  | true =>
    rw [TcpConnection.write_data_closed ended] at done
    cases done
    rfl
  | false =>
    obtain ⟨queue, current⟩ := sent (Bool.or_eq_false_iff.mp ended).1
    rw [TcpConnection.write_data_open ended, TcpConnection.sending, current, queue] at done
    cases done
    rfl

theorem working_of_open (settled : conn.Settled) (opened : conn.mClosed = false) :
    (conn.mClosed || conn.mSocket.noOK) = false := by
  rw [opened, Bool.false_or, ← Bool.not_eq_true]
  intro ended
  cases (settled.sound ended).symm.trans opened

/-- One `send` takes all of the message. -/
def Takes (msg : Msg) : Sendable → Prop
  | .accepts count _ => 0 ≤ msg.getTotalLen ∧ msg.getTotalLen ≤ count
  | .fail _ => False

instance (msg : Msg) (answer : Sendable) : Decidable (Takes msg answer) :=
  match answer with
  | .accepts _ _ => inferInstanceAs (Decidable (_ ∧ _))
  | .fail _ => isFalse not_false

/-- One `send` takes a part of what it is offered. -/
def TakesPart : Sendable → Prop
  | .accepts _ _ => True
  | .fail _ => False

instance (answer : Sendable) : Decidable (TakesPart answer) :=
  match answer with
  | .accepts _ _ => isTrue trivial
  | .fail _ => isFalse not_false

/-- The one call of `WriteData` in `SendMsg`, for a connection that has sent all. -/
theorem write_one {result : WriteResult} {count : Nat} {some : 0 < count}
    (done : (conn.enqueue msg).writeData true (.accepts count some) = .ok result)
    (working : (conn.mClosed || conn.mSocket.noOK) = false) (queue : conn.mToSendMsg = [])
    (current : conn.mCurrentSendMsg = none) :
    result.conn.mClosed = false ∧ if Takes msg (.accepts count some)
      then result.conn.mToSendMsg = [] ∧ result.conn.mCurrentSendMsg = none
      else result.conn.mToSendMsg = [msg] := by
  obtain ⟨opened, fine⟩ := Bool.or_eq_false_iff.mp working
  rw [TcpConnection.write_data_open (by exact working)] at done
  simp only [TcpConnection.sending, TcpConnection.enqueue, current, queue, List.nil_append, List.head?_cons,
    Option.map_some] at done
  rw [TcpConnection.send_more_takes (by exact fine)] at done
  obtain ⟨taken, peeked, done⟩ := bind_ok.mp done
  obtain ⟨advanced, moved, same⟩ := bind_ok.mp done
  cases same
  obtain ⟨_, inside, which⟩ := peek_ok.mp peeked
  dsimp only at inside which
  have length : taken.length = min count (toSizeT msg.getTotalLen) := by
    rw [which, List.length_take, List.length_drop]
    omega
  rw [TcpConnection.advance] at moved
  obtain ⟨mSent, _, moved⟩ := bind_ok.mp moved
  obtain ⟨mToSend, fewer, moved⟩ := bind_ok.mp moved
  have left : mToSend = msg.getTotalLen - taken.length := (check_int_ok.mp fewer).2
  have exactly : mToSend = 0 ↔ Takes msg (.accepts count some) := by
    have range : IsInt32 msg.getTotalLen := to_int32_range _
    simp only [Takes]
    rcases lt_or_ge msg.getTotalLen 0 with negative | nonneg
    · omega
    · have offered := to_size_t_nonneg nonneg (by unfold IsInt32 at range; omega)
      omega
  dsimp only at moved
  split at moved
  next all =>
    cases moved
    rw [if_pos (exactly.mp all)]
    exact ⟨opened, rfl, rfl⟩
  next part =>
    cases moved
    rw [if_neg (fun takes => part (exactly.mpr takes))]
    exact ⟨opened, rfl⟩

/-! ### Steps -/

theorem faulting_ok {α : Type} {result : Except Fault α} {value : α} (done : faulting result = .ok value) :
    result = .ok value := by
  cases result with
  | error fault => cases done
  | ok found =>
    cases done
    rfl

/-- The connections are as before, and a new client's socket works. -/
structure LeavesConns (io next : NetIo) : Prop where
  conns : next.net.mConns = io.net.mConns
  fresh : ∀ socket, .accept socket ∈ next.net.mQueue → .accept socket ∈ io.net.mQueue ∨ socket.noOK = false
  never : NeverWritable io.driver → NeverWritable next.driver

/-- A call of `ReadData` or `WriteData` in this step, and what it leaves. -/
inductive Calls (mQueue : List OperContext) : Step → UInt64 → TcpConnection → TcpConnection → Prop where
  | read {connId : UInt64} {conn : TcpConnection} {arrivals : List Arrival} {result : ReadResult}
      (done : conn.readData true arrivals = .ok result) : Calls mQueue (.read connId arrivals) connId conn result.conn
  | write {connId : UInt64} {conn : TcpConnection} {answer : Sendable} {result : WriteResult}
      (done : conn.writeData true answer = .ok result) : Calls mQueue (.write connId answer) connId conn result.conn
  | send {connId : UInt64} {conn : TcpConnection} {answer : Sendable} {result : WriteResult} {msg : Msg}
      {rest : List OperContext} (queued : mQueue = .send connId msg :: rest)
      (done : (conn.enqueue msg).writeData true answer = .ok result) : Calls mQueue (.net answer) connId conn result.conn

/-- What a step does to the connections: one of them may be called, one made for a
socket that works, and one may go. -/
structure Leaves (calls : UInt64 → TcpConnection → TcpConnection → Prop) (io next : NetIo) : Prop where
  conns : ∀ (connId : UInt64) (after : TcpConnection), next.net.mConns[connId]? = some after →
    io.net.mConns[connId]? = some after ∨
    (∃ socket, after = .new socket connId ∧ (.accept socket ∈ io.net.mQueue ∨ socket.noOK = false)) ∨
    ∃ conn, io.net.mConns[connId]? = some conn ∧ calls connId conn after
  fresh : ∀ socket, .accept socket ∈ next.net.mQueue → .accept socket ∈ io.net.mQueue ∨ socket.noOK = false
  never : NeverWritable io.driver → NeverWritable next.driver

variable {calls : UInt64 → TcpConnection → TcpConnection → Prop} {middle : NetIo}

theorem leaves_of_same (leaves : LeavesConns io next) : Leaves calls io next where
  conns _ _ stored := .inl (leaves.conns ▸ stored)
  fresh := leaves.fresh
  never := leaves.never

/-- A step that first takes its context off the queue, or opens a socket. -/
theorem leaves_behind (first : LeavesConns io middle) (rest : Leaves calls middle next) : Leaves calls io next where
  conns connId after stored := by
    have found := rest.conns connId after stored
    rw [first.conns] at found
    rcases found with same | ⟨socket, made, working⟩ | called
    · exact .inl same
    · exact .inr (.inl ⟨socket, made, working.elim (first.fresh socket) .inr⟩)
    · exact .inr (.inr called)
  fresh socket inside := (rest.fresh socket inside).elim (first.fresh socket) .inr
  never never := rest.never (first.never never)

private theorem leaves_same (io : NetIo) : LeavesConns io io := ⟨rfl, fun _ => .inl, id⟩

private theorem popped_leaves {ctx : OperContext} {mQueue : List OperContext} (queued : io.net.mQueue = ctx :: mQueue) :
    LeavesConns io { io with net.mQueue := mQueue } := by
  refine ⟨rfl, fun socket inside => .inl ?_, id⟩
  rw [queued]
  exact List.mem_cons_of_mem ctx inside

/-- Only the connection that was called has changed. -/
theorem called_only {enqueued : List OperContext} (known : io.net.mConns[connId]? = some conn)
    (called : conn.Called after enqueued) (call : calls connId conn after)
    (done : io.called connId conn after enqueued = .ok next) : Leaves calls io next := by
  obtain ⟨net, never⟩ := called_leaves done
  refine ⟨fun probe found stored => ?_, fun socket inside => ?_, never⟩
  · rw [net, NetService.changed_lookup] at stored
    split at stored
    next same =>
      subst same
      cases stored
      exact .inr (.inr ⟨conn, known, call⟩)
    next => exact .inl stored
  · rw [net] at inside
    rcases List.mem_append.mp inside with before | made
    · exact .inl before
    · rcases called.enqueues made with ⟨_, msg, ip, port, received⟩ | ⟨_, drops⟩
      · cases received
      · cases drops

private theorem start_leaves {starter : Starter} {socket : TcpSocket}
    (working : .accept socket ∈ io.net.mQueue ∨ socket.noOK = false) (done : io.start starter socket = .ok next) :
    Leaves calls io next := by
  obtain ⟨net, made, same⟩ := bind_ok.mp done
  cases same
  have made := faulting_ok made
  unfold NetService.acceptConnection at made
  dsimp only at made
  split at made
  · cases made
  · cases made
    refine ⟨fun probe found stored => ?_, fun _ => .inl, id⟩
    simp only [Std.ExtTreeMap.getElem?_insert, Std.LawfulEqCmp.compare_eq_iff_eq] at stored
    split at stored
    next same =>
      subst same
      cases stored
      exact .inr (.inl ⟨socket, rfl, working⟩)
    next => exact .inl stored

private theorem drop_leaves (io : NetIo) (connId : UInt64) : Leaves calls io (io.dropConnection connId) := by
  have parts : (io.dropConnection connId).net = io.net.dropConnection connId ∧
      (io.dropConnection connId).driver = io.driver := by
    unfold NetIo.dropConnection
    dsimp only
    split
    · exact ⟨rfl, rfl⟩
    · split
      · exact ⟨rfl, rfl⟩
      · exact ⟨rfl, rfl⟩
  obtain ⟨net, driver⟩ := parts
  refine ⟨fun probe found stored => ?_, fun socket inside => ?_, fun never => driver ▸ never⟩
  · rw [net, NetService.erased_lookup] at stored
    split at stored
    · cases stored
    · exact .inl stored
  · rw [net] at inside
    exact .inl inside

/-- `SendMsg`, for a connection that is there. -/
private theorem send_msg_ok (done : io.sendMsg connId msg answer = .ok next) (known : io.net.mConns[connId]? = some conn) :
    ∃ result, (conn.enqueue msg).writeData true answer = .ok result ∧
      io.called connId conn result.conn result.enqueued = .ok next := by
  rw [NetIo.sendMsg, known] at done
  obtain ⟨result, written, called⟩ := bind_ok.mp done
  exact ⟨result, faulting_ok written, called⟩

/-- What a step of the service takes from its queue. -/
private theorem process_ok (done : io.process answer = .ok next) :
    io.net.mQueue = [] ∧ next = io ∨ ∃ ctx mQueue, io.net.mQueue = ctx :: mQueue ∧
      (match ctx with
        | .accept clientSocket => { io with net.mQueue := mQueue }.start .acceptConnection clientSocket
        | .recv _ _ _ _ => .ok { io with net.mQueue := mQueue }
        | .send connId msg => { io with net.mQueue := mQueue }.sendMsg connId msg answer
        | .drop connId => .ok ({ io with net.mQueue := mQueue }.dropConnection connId)) = .ok next := by
  unfold NetIo.process at done
  split at done
  · cases done
  · split at done
    next empty =>
      cases done
      exact .inl ⟨empty, rfl⟩
    next ctx mQueue queued => exact .inr ⟨ctx, mQueue, queued, done⟩

private theorem process_leaves (sound : Sound io) (done : io.process answer = .ok next) :
    Leaves (Calls io.net.mQueue (.net answer)) io next := by
  rcases process_ok done with ⟨_, rfl⟩ | ⟨ctx, mQueue, queued, done⟩
  · exact leaves_of_same (leaves_same _)
  · have popped := popped_leaves queued
    cases ctx with
    | accept socket =>
      have working := sound.fresh socket (by rw [queued]; exact List.mem_cons_self)
      exact leaves_behind popped (start_leaves (.inr working) done)
    | recv =>
      cases done
      exact leaves_of_same popped
    | send connId msg =>
      cases known : io.net.mConns[connId]? with
      | none =>
        simp only [NetIo.sendMsg, known] at done
        cases done
        exact leaves_of_same popped
      | some conn =>
        obtain ⟨result, written, called⟩ := send_msg_ok done known
        have made := TcpConnection.called_send (sound.settled connId conn known) written
        exact leaves_behind popped (called_only known made (.send queued written) called)
    | drop connId =>
      cases done
      exact leaves_behind popped (drop_leaves _ connId)

private theorem accept_leaves {number : Nat} {client : Option Client} (done : io.accept number client = .ok next) :
    LeavesConns io next := by
  unfold NetIo.accept at done
  split at done
  · cases done
  · split at done
    · cases done
      exact leaves_same io
    · dsimp only at done
      split at done
      · cases done
        refine ⟨rfl, fun socket inside => ?_, id⟩
        rcases List.mem_append.mp inside with before | made
        · exact .inl before
        · cases List.mem_singleton.mp made
          exact .inr rfl
      · cases done
        exact ⟨rfl, fun _ => .inl, id⟩

private theorem connect_leaves {ip : StdString} {port : UInt16} {opened : Opened}
    (done : io.connect ip port opened = .ok next) : Leaves calls io next := by
  cases opened with
  | noSocket =>
    cases done
    exact leaves_of_same (leaves_same io)
  | failed fd =>
    cases done
    exact leaves_of_same (leaves_same io)
  | done fd =>
    have wider : LeavesConns io { io with openFds := io.openFds.insert fd } := ⟨rfl, fun _ => .inl, id⟩
    exact leaves_behind wider (start_leaves (.inr rfl) done)

private theorem regist_leaves (done : io.regist connId = .ok next) : LeavesConns io next := by
  unfold NetIo.regist at done
  split at done
  · split at done
    · obtain ⟨driver, made, same⟩ := bind_ok.mp done
      cases same
      exact ⟨rfl, fun _ => .inl, fun never => never_regist_write never made⟩
    · obtain ⟨driver, made, same⟩ := bind_ok.mp done
      cases same
      exact ⟨rfl, fun _ => .inl, fun never => never_regist_read never made⟩
  · cases done
  · cases done

private theorem start_listen_leaves {ip : StdString} {port : UInt16} {opened : Opened}
    (done : io.startListen ip port opened = .ok next) : LeavesConns io next := by
  cases opened with
  | noSocket =>
    cases done
    exact ⟨rfl, fun _ => .inl, id⟩
  | failed fd =>
    cases done
    exact ⟨rfl, fun _ => .inl, id⟩
  | done fd =>
    obtain ⟨driver, made, same⟩ := bind_ok.mp done
    cases same
    exact ⟨rfl, fun _ => .inl, fun never => never_regist_read never made⟩

private theorem stop_listen_leaves {number : Nat} (done : io.stopListen number = .ok next) : LeavesConns io next := by
  unfold NetIo.stopListen at done
  split at done
  · cases done
  · obtain ⟨driver, gone, same⟩ := bind_ok.mp done
    cases same
    exact ⟨rfl, fun _ => .inl, fun never => never_un_regist_read never gone⟩

private theorem send_leaves (io : NetIo) (connId : UInt64) (msg : Msg) :
    LeavesConns io { io with net.mQueue := io.net.mQueue ++ [.send connId msg] } :=
  ⟨rfl, fun socket inside => .inl (by simpa using inside), id⟩

/-- What a step can do to the connections. -/
theorem take_leaves {event : Step} (sound : Sound io) (done : io.take event = .ok next) :
    Leaves (Calls io.net.mQueue event) io next := by
  cases event with
  | accept number client => exact leaves_of_same (accept_leaves done)
  | read connId arrivals =>
    obtain ⟨conn, looked, done⟩ := bind_ok.mp done
    obtain ⟨result, read, called⟩ := bind_ok.mp done
    have known := NetService.connection_ok.mp (faulting_ok looked)
    have read := faulting_ok read
    exact called_only known (TcpConnection.called_read (sound.settled connId conn known) read) (.read read) called
  | write connId answer =>
    obtain ⟨conn, looked, done⟩ := bind_ok.mp done
    obtain ⟨result, written, called⟩ := bind_ok.mp done
    have known := NetService.connection_ok.mp (faulting_ok looked)
    have written := faulting_ok written
    exact called_only known (TcpConnection.called_write (sound.settled connId conn known) written) (.write written) called
  | send connId msg =>
    cases done
    exact leaves_of_same (send_leaves io connId msg)
  | net answer => exact process_leaves sound done
  | connect ip port opened => exact connect_leaves done
  | regist connId => exact leaves_of_same (regist_leaves done)
  | startListen ip port opened => exact leaves_of_same (start_listen_leaves done)
  | stopListen number => exact leaves_of_same (stop_listen_leaves done)

theorem calls_settled {mQueue : List OperContext} {event : Step} (settled : conn.Settled)
    (call : Calls mQueue event connId conn after) : after.Settled := by
  cases call with
  | read done => exact (TcpConnection.called_read settled done).settled
  | write done => exact (TcpConnection.called_write settled done).settled
  | send queued done => exact (TcpConnection.called_send settled done).settled

theorem take_sound {event : Step} (sound : Sound io) (done : io.take event = .ok next) : Sound next := by
  obtain ⟨conns, fresh, never⟩ := take_leaves sound done
  have works (socket : TcpSocket) (made : .accept socket ∈ io.net.mQueue ∨ socket.noOK = false) : socket.noOK = false :=
    made.elim (sound.fresh socket) id
  refine ⟨never sound.never, fun connId after stored => ?_, fun socket inside => works socket (fresh socket inside)⟩
  rcases conns connId after stored with same | ⟨socket, rfl, working⟩ | ⟨conn, known, call⟩
  · exact sound.settled connId after same
  · exact TcpConnection.settled_new (works socket working)
  · exact calls_settled (sound.settled connId conn known) call

/-- What the kernel answers to a `send` of this step, if there is one. -/
def answerOf : Step → Option Sendable
  | .write _ answer => some answer
  | .net answer => some answer
  | _ => none

/-- The kernel takes a part of what it is offered. -/
def Accepted (event : Step) : Prop := ∀ answer ∈ answerOf event, TakesPart answer

instance (event : Step) : Decidable (Accepted event) := inferInstanceAs (Decidable (∀ answer ∈ answerOf event, _))

/-- The message that the service sends next, to a connection that is open. -/
def nextMessage (io : NetIo) : Step → Option (Msg × Sendable)
  | .net answer =>
    match io.net.mQueue with
    | .send connId msg :: _ => io.net.mConns[connId]?.bind fun conn => if conn.mClosed then none else some (msg, answer)
    | _ => none
  | _ => none

/-- The one `send` for a message takes all of it. -/
def SendsWhole (io : NetIo) (event : Step) : Prop := ∀ sent ∈ nextMessage io event, Takes sent.1 sent.2

instance (io : NetIo) (event : Step) : Decidable (SendsWhole io event) :=
  inferInstanceAs (Decidable (∀ sent ∈ nextMessage io event, _))

/-- For a message to an open connection. -/
theorem next_message {mQueue : List OperContext} (queued : io.net.mQueue = .send connId msg :: mQueue)
    (known : io.net.mConns[connId]? = some conn) (opened : conn.mClosed = false) :
    nextMessage io (.net answer) = some (msg, answer) := by
  simp [nextMessage, queued, known, opened]

theorem of_next_message {event : Step} {sent : Msg × Sendable} (next : nextMessage io event = some sent) :
    ∃ connId msg answer mQueue conn, event = .net answer ∧ sent = (msg, answer) ∧
      io.net.mQueue = .send connId msg :: mQueue ∧ io.net.mConns[connId]? = some conn ∧ conn.mClosed = false := by
  unfold nextMessage at next
  split at next
  next answer =>
    split at next
    next connId msg mQueue queued =>
      obtain ⟨conn, known, same⟩ := Option.bind_eq_some_iff.mp next
      split at same
      · cases same
      next opened =>
        cases same
        exact ⟨connId, msg, answer, mQueue, conn, rfl, rfl, queued, known, by simpa using opened⟩
    · cases next
  · cases next

/-- A call that leaves its connection open leaves it with nothing to send, if there
was nothing and no message is taken in part. -/
private theorem calls_sent {event : Step} (sound : Sound io) (sent : AllSent io) (whole : SendsWhole io event)
    (known : io.net.mConns[connId]? = some conn) (call : Calls io.net.mQueue event connId conn after)
    (opened : after.mClosed = false) : after.mToSendMsg = [] ∧ after.mCurrentSendMsg = none := by
  cases call with
  | read done =>
    obtain ⟨before, queue, current⟩ := read_leaves_sent done opened
    rw [queue, current]
    exact sent connId conn known before
  | write done =>
    rw [write_idle done (sent connId conn known)] at opened ⊢
    exact sent connId conn known opened
  | @send connId conn answer result msg rest queued done =>
    cases closed : conn.mClosed with
    | true =>
      rw [TcpConnection.write_data_closed (by simp [TcpConnection.enqueue, closed])] at done
      cases done
      cases closed.symm.trans opened
    | false =>
      have takes := whole _ (next_message queued known closed)
      obtain ⟨queue, current⟩ := sent connId conn known closed
      cases answer with
      | fail errno => cases takes
      | accepts count some =>
        have emptied := (write_one done (working_of_open (sound.settled connId conn known) closed) queue current).2
        rwa [if_pos takes] at emptied

theorem take_sent {event : Step} (sound : Sound io) (sent : AllSent io) (whole : SendsWhole io event)
    (done : io.take event = .ok next) : AllSent next := by
  intro connId after stored opened
  rcases (take_leaves sound done).conns connId after stored with same | ⟨socket, rfl, _⟩ | ⟨conn, known, call⟩
  · exact sent connId after same opened
  · exact ⟨rfl, rfl⟩
  · exact calls_sent sound sent whole known call opened

/-- What is unsent stays untriggered. -/
theorem untriggered (never : NeverWritable io.driver) (known : io.net.mConns[connId]? = some conn)
    (opened : conn.mClosed = false) (unsent : HasUnsent conn) : ¬ Triggered io := by
  intro triggered
  obtain ⟨info, side, event, found, made, writable, _⟩ := triggered connId conn known opened unsent
  exact never _ info side event found made writable

/-- A message of which `send` takes only a part. -/
theorem take_unsent {event : Step} (sound : Sound io) (sent : AllSent io) (accepted : Accepted event)
    (part : ¬ SendsWhole io event) (done : io.take event = .ok next) : ¬ Triggered next := by
  have never := (take_sound sound done).never
  simp only [SendsWhole, not_forall] at part
  obtain ⟨_, chosen, part⟩ := part
  obtain ⟨connId, msg, answer, mQueue, conn, rfl, rfl, queued, known, opened⟩ := of_next_message chosen
  rcases process_ok done with ⟨empty, _⟩ | ⟨ctx, rest, front, sending⟩
  · cases queued.symm.trans empty
  · cases queued.symm.trans front
    obtain ⟨result, written, called⟩ := send_msg_ok sending known
    obtain ⟨net, _⟩ := called_leaves called
    obtain ⟨queue, current⟩ := sent connId conn known opened
    cases answer with
    | fail errno => cases accepted _ rfl
    | accepts count some =>
      obtain ⟨still, left⟩ := write_one written (working_of_open (sound.settled connId conn known) opened) queue current
      rw [if_neg part] at left
      have stored : next.net.mConns[connId]? = .some result.conn := by
        rw [net, NetService.changed_lookup, if_pos rfl]
      exact untriggered never stored still (by simp [HasUnsent, left])

/-! ### Runs -/

theorem sound_new : Sound .new where
  never fd info side event found := by cases found
  settled connId conn known := by cases known
  fresh socket inside := by cases inside

theorem sent_new : AllSent .new := by
  intro connId conn known
  cases known

/-- Unsent data has a trigger in every state of a run just when each `SendMsg` sends
its message with one `send`. -/
theorem unsent_data_has_a_trigger_iff {events : List Step} {final : NetIo} {outputs : List Unit}
    (accepted : ∀ event ∈ events, Accepted event) (ran : run NetIo.step .new events = .ok (final, outputs)) :
    EveryStep NetIo.step (fun io event => ∀ next output, io.step event = .ok (next, output) → Triggered next) .new events ↔
      EveryStep NetIo.step SendsWhole .new events := by
  apply (every_step_iff (fun io => Sound io ∧ AllSent io) Accepted ?_ ⟨sound_new, sent_new⟩ accepted ran).symm
  rintro io event next output ⟨sound, sent⟩ accepted done
  obtain ⟨after, taken, same⟩ := bind_ok.mp done
  cases same
  refine ⟨⟨fun whole other result again => ?_, fun triggered => ?_⟩,
    fun whole => ⟨take_sound sound taken, take_sent sound sent whole taken⟩⟩
  · cases done.symm.trans again
    exact triggered_of_sent (take_sent sound sent whole taken)
  · by_contra part
    exact take_unsent sound sent accepted part taken (triggered _ _ done)

private def greeting : Msg := ⟨[0, 0, 0, 4, 0, 0, 0, 0, 1, 2, 3, 4], 0, 4, 12⟩

/-- A client connects to its server, and sends a message of twelve bytes. -/
def oneGreeting (count : Nat) (some : 0 < count) : List Step :=
  [.connect (.ascii "h") 80 (.done 4), .regist 0, .regist 0, .send 0 greeting, .net (.accepts count some)]

theorem a_whole_greeting_needs_no_trigger :
    EveryStep NetIo.step (fun io event => ∀ next output, io.step event = .ok (next, output) → Triggered next) .new
      (oneGreeting 12 (by decide)) := by
  have goes : (run NetIo.step .new (oneGreeting 12 (by decide))).toOption.isSome = true := by decide +kernel
  obtain ⟨⟨final, outputs⟩, ran⟩ := Option.isSome_iff_exists.mp goes
  exact (unsent_data_has_a_trigger_iff (by decide) (ok_of_option ran)).mpr (by decide +kernel)

/-- The kernel takes nine of the bytes; the write event of the connection waits for
its server to send. -/
theorem a_rest_of_a_greeting_has_no_trigger : ¬ ∀ events final outputs, (∀ event ∈ events, Accepted event) →
    run NetIo.step .new events = .ok (final, outputs) → Triggered final := by
  intro claimed
  have goes : (run NetIo.step .new (oneGreeting 9 (by decide))).toOption.bind
      (fun reply => reply.1.net.mConns[(0 : UInt64)]?.map fun conn => (conn.mClosed, conn.mToSendMsg)) =
        some (false, [greeting]) := by decide +kernel
  obtain ⟨⟨final, outputs⟩, ran, found⟩ := Option.bind_eq_some_iff.mp goes
  obtain ⟨conn, known, same⟩ := Option.map_eq_some_iff.mp found
  obtain ⟨opened, queue⟩ := Prod.mk.injEq .. ▸ same
  have done := ok_of_option ran
  have sound : Sound final := by
    apply run_invariant Sound ?_ sound_new done
    intro io event next output sound step
    obtain ⟨after, taken, same⟩ := bind_ok.mp step
    cases same
    exact take_sound sound taken
  exact untriggered sound.never known opened (by simp [HasUnsent, queue]) (claimed _ final outputs (by decide) done)

end ChatRoom.WriteTrigger
