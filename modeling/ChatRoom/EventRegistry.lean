import ChatRoom.NetIo
import ChatRoom.ConnectionClosing
import ChatRoom.Lib.Mirror

/-! The driver's registry mirrors the sockets that are open: both events of a
connection that is not closed, the read event of a listener, and nothing else,
also when the kernel hands a descriptor out again. One place is open: between the
two registrations of a new connection the driver may already call it, and `Close`
then asserts on an event that is not there. Each call of the driver is one step
here: the source has no lock around `mEventsInfo`, and what two threads do to the map
at the same time is left out. -/
namespace ChatRoom.EventRegistry
open Lib NetIo

variable {io next : NetIo} {connId : UInt64} {conn after : TcpConnection} {enqueued : List OperContext} {fd : Int}

/-! ### Who holds which descriptor -/

/-- The descriptor of a connection that is not closed. -/
def ownFd (conn : TcpConnection) : Option Int := if conn.mClosed then none else some conn.mSocket.mSocket

def fdOf (io : NetIo) : RWConnection → Option Int
  | .connection connId => io.net.mConns[connId]?.bind ownFd
  | .accepter number => io.accepters[number]?.map fun accepter => accepter.mListenSocket.mSocket

/-- What the driver is to hold for it; a connection that is being made has got
as far as its call says. -/
def wants (io : NetIo) : RWConnection → Option EventInfo
  | .connection connId =>
    match io.starting[connId]? with
    | none => some (.both (.connection connId))
    | some call => if call.reads then some (.readOnly (.connection connId)) else none
  | .accepter number => some (.readOnly (.accepter number))

/-- The client that waits in a context. -/
def clientFd : OperContext → Option Int
  | .accept clientSocket => some clientSocket.mSocket
  | .recv _ _ _ _ => none
  | .send _ _ => none
  | .drop _ => none

/-- What holds of a connection in `mConns`. -/
structure Known (mMaxID connId : UInt64) (conn : TcpConnection) : Prop where
  id : conn.mConnID = connId
  old : connId < mMaxID
  settled : conn.Settled
  gone : conn.mClosed = true → conn.mSocket.mSocket = -1

structure Inv (io : NetIo) : Prop where
  mirrors : Mirrors (fun fd => io.driver.mEventsInfo[fd]?) (fdOf io) (wants io)
  held : ∀ owner fd, fdOf io owner = some fd → fd ∈ io.openFds
  waiting : (io.net.mQueue.filterMap clientFd).Nodup
  clients : ∀ fd ∈ io.net.mQueue.filterMap clientFd, fd ∈ io.openFds ∧ ∀ owner, fdOf io owner ≠ some fd
  fresh : ∀ socket, .accept socket ∈ io.net.mQueue → socket.noOK = false
  conns : ∀ connId conn, io.net.mConns[connId]? = some conn → Known io.net.mMaxID connId conn
  dropped : ∀ connId, .drop connId ∈ io.net.mQueue →
    connId < io.net.mMaxID ∧ ∀ conn, io.net.mConns[connId]? = some conn → conn.mClosed = true
  starting : ∀ connId call, io.starting[connId]? = some call → fdOf io (.connection connId) = some call.fd
  numbers : ∀ number ∈ io.accepters, number < io.accepterCount

/-- A connection that is registered keeps its descriptor, or gives it up. -/
def Kept (io next : NetIo) : Prop :=
  ∀ (connId : UInt64) (fd : Int), fdOf io (.connection connId) = some fd → io.starting[connId]? = none →
    fdOf next (.connection connId) = some fd ∧ next.starting[connId]? = none ∨ fdOf next (.connection connId) = none

/-- No assert of `RWConnection` fails, and what a step leaves is right again. -/
def Safe (io : NetIo) (result : Except Stop NetIo) : Prop :=
  result ≠ .error .registry ∧ ∀ next, result = .ok next → Inv next ∧ Kept io next

theorem kept_of_same (keys : ∀ connId, fdOf next (.connection connId) = fdOf io (.connection connId))
    (calls : ∀ connId : UInt64, io.starting[connId]? = none → next.starting[connId]? = none) : Kept io next := by
  intro connId fd held idle
  exact .inl ⟨(keys connId).trans held, calls connId idle⟩

theorem safe_ok (inv : Inv next) (kept : Kept io next) : Safe io (.ok next) := by
  refine ⟨by simp, ?_⟩
  rintro next ⟨⟩
  exact ⟨inv, kept⟩

theorem safe_same (inv : Inv io) : Safe io (.ok io) := safe_ok inv (kept_of_same (fun _ => rfl) fun _ idle => idle)

theorem safe_fault (fault : Fault) : Safe io (.error (.fault fault)) := by
  refine ⟨by simp, ?_⟩
  intro next done
  cases done

/-- A call of the model that can fault, in front of the rest of a step. -/
theorem safe_bind {α : Type} {result : Except Fault α} {rest : α → Except Stop NetIo}
    (safe : ∀ value, result = .ok value → Safe io (rest value)) : Safe io (faulting result >>= rest) := by
  cases result with
  | error fault => exact safe_fault fault
  | ok value => exact safe value rfl

theorem mem_insert_fd (fds : Std.ExtTreeSet Int) (fd probe : Int) : probe ∈ fds.insert fd ↔ probe = fd ∨ probe ∈ fds := by
  rw [Std.ExtTreeSet.mem_insert, Std.LawfulEqCmp.compare_eq_iff_eq, eq_comm]

theorem mem_erase_fd (fds : Std.ExtTreeSet Int) (fd probe : Int) : probe ∈ fds.erase fd ↔ probe ≠ fd ∧ probe ∈ fds := by
  rw [Std.ExtTreeSet.mem_erase, ne_eq, Std.LawfulEqCmp.compare_eq_iff_eq, ne_comm, ne_eq]

/-! ### Connections -/

theorem own_fd_some : ownFd conn = some fd ↔ conn.mClosed = false ∧ conn.mSocket.mSocket = fd := by
  unfold ownFd
  cases conn.mClosed <;> simp

theorem fd_of_known (known : io.net.mConns[connId]? = some conn) : fdOf io (.connection connId) = ownFd conn := by
  rw [fdOf, known, Option.bind_some]

/-- Where a connection has changed, the descriptors of the others are the same. -/
private theorem fd_of_changed {driver : Driver} {openFds : Std.ExtTreeSet Int} (owner : RWConnection) :
    fdOf { io with net := io.net.changed connId after enqueued, driver, openFds } owner =
      if owner = .connection connId then ownFd after else fdOf io owner := by
  cases owner with
  | accepter number => rw [if_neg (by simp)]; rfl
  | connection probe =>
    rw [fdOf, NetService.changed_lookup]
    by_cases same : connId = probe
    · subst same
      simp
    · rw [if_neg same, if_neg (by simp [Ne.symm same])]
      rfl

private theorem clients_of_enqueued (called : conn.Called after enqueued) : enqueued.filterMap clientFd = [] := by
  rw [List.filterMap_eq_nil_iff]
  intro ctx inside
  rcases called.enqueues inside with ⟨_, msg, ip, port, rfl⟩ | ⟨_, rfl⟩
  · rfl
  · rfl

private theorem waits_changed (called : conn.Called after enqueued) :
    (io.net.changed connId after enqueued).mQueue.filterMap clientFd = io.net.mQueue.filterMap clientFd := by
  rw [NetService.changed, List.filterMap_append, clients_of_enqueued called, List.append_nil]

/-- What the contexts that a call enqueues ask for. -/
private theorem dropped_changed (inv : Inv io) (known : io.net.mConns[connId]? = some conn)
    (called : conn.Called after enqueued) (keeps : conn.KeepsFd after) (probe : UInt64)
    (inside : .drop probe ∈ (io.net.changed connId after enqueued).mQueue) :
    probe < io.net.mMaxID ∧ ∀ found, (io.net.changed connId after enqueued).mConns[probe]? = some found →
      found.mClosed = true := by
  have own := (inv.conns connId conn known).id
  have closes : .drop probe ∈ io.net.mQueue ∨ probe = connId ∧ after.mClosed = true := by
    rcases List.mem_append.mp inside with before | made
    · exact .inl before
    · rcases called.enqueues made with ⟨_, msg, ip, port, received⟩ | ⟨dead, drops⟩
      · cases received
      · cases drops
        exact .inr ⟨own, called.settled.sound dead⟩
  have old : probe < io.net.mMaxID := by
    rcases closes with before | ⟨rfl, _⟩
    · exact (inv.dropped probe before).1
    · exact (inv.conns probe conn known).old
  refine ⟨old, fun found stored => ?_⟩
  rw [NetService.changed_lookup] at stored
  split at stored
  next same =>
    subst same
    cases stored
    rcases closes with before | ⟨_, closed⟩
    · have shut := (inv.dropped connId before).2 conn known
      rcases keeps with ⟨flag, _⟩ | ⟨opened, _⟩
      · exact flag.trans shut
      · exact absurd (opened.symm.trans shut) (by simp)
    · exact closed
  next different =>
    rcases closes with before | ⟨same, _⟩
    · exact (inv.dropped probe before).2 found stored
    · exact absurd same.symm different

private theorem conns_changed (inv : Inv io) (known : io.net.mConns[connId]? = some conn)
    (called : conn.Called after enqueued) (keeps : conn.KeepsFd after) (probe : UInt64) (found : TcpConnection)
    (stored : (io.net.changed connId after enqueued).mConns[probe]? = some found) :
    Known io.net.mMaxID probe found := by
  rw [NetService.changed_lookup] at stored
  split at stored
  next same =>
    subst same
    cases stored
    obtain ⟨id, old, settled, gone⟩ := inv.conns connId conn known
    refine ⟨called.id.trans id, old, called.settled, fun closed => ?_⟩
    rcases keeps with ⟨flag, fd⟩ | ⟨_, _, fd⟩
    · exact fd.trans (gone (flag.symm.trans closed))
    · exact fd
  next => exact inv.conns probe found stored

private theorem fresh_changed (inv : Inv io) (called : conn.Called after enqueued) (socket : TcpSocket)
    (inside : .accept socket ∈ (io.net.changed connId after enqueued).mQueue) : socket.noOK = false := by
  rcases List.mem_append.mp inside with before | made
  · exact inv.fresh socket before
  · rcases called.enqueues made with ⟨_, msg, ip, port, received⟩ | ⟨_, drops⟩
    · cases received
    · cases drops

/-- A call that does not close the connection. -/
private theorem stays_safe (inv : Inv io) (known : io.net.mConns[connId]? = some conn) (called : conn.Called after enqueued)
    (flag : after.mClosed = conn.mClosed) (sameFd : after.mSocket.mSocket = conn.mSocket.mSocket) :
    Safe io (.ok { io with net := io.net.changed connId after enqueued }) := by
  have keeps : conn.KeepsFd after := .inl ⟨flag, sameFd⟩
  have waits := @waits_changed io connId conn after enqueued called
  have still : ownFd after = ownFd conn := by rw [ownFd, ownFd, flag, sameFd]
  have keys (owner : RWConnection) : fdOf { io with net := io.net.changed connId after enqueued } owner = fdOf io owner := by
    rw [fd_of_changed, still]
    split
    next same => rw [same, fd_of_known known]
    next => rfl
  apply safe_ok ?_ (kept_of_same (fun _ => keys _) fun _ idle => idle)
  refine ⟨inv.mirrors.unchanged keys fun _ _ => rfl, fun owner fd held => ?_, waits ▸ inv.waiting, fun fd inside => ?_,
    @fresh_changed io connId conn after enqueued inv called, conns_changed inv known called keeps,
    dropped_changed inv known called keeps, fun probe call starts => ?_, inv.numbers⟩
  · rw [keys] at held
    exact inv.held owner fd held
  · obtain ⟨isOpen, free⟩ := inv.clients fd (waits ▸ inside)
    exact ⟨isOpen, fun owner => by rw [keys]; exact free owner⟩
  · rw [keys]
    exact inv.starting probe call starts

/-- A call that closes it: its entry goes, and then its descriptor. -/
private theorem gone_safe (inv : Inv io) (known : io.net.mConns[connId]? = some conn) (called : conn.Called after enqueued)
    (opened : conn.mClosed = false) (closed : after.mClosed = true) (fd : after.mSocket.mSocket = -1)
    (whole : io.starting[connId]? = none) {driver : Driver}
    (erased : driver.mEventsInfo[conn.mSocket.mSocket]? = none)
    (kept : ∀ probe : Int, probe ≠ conn.mSocket.mSocket → driver.mEventsInfo[probe]? = io.driver.mEventsInfo[probe]?) :
    Safe io (.ok { io with
      net := io.net.changed connId after enqueued
      driver
      openFds := io.openFds.erase conn.mSocket.mSocket }) := by
  have keeps : conn.KeepsFd after := .inr ⟨opened, closed, fd⟩
  have waits := @waits_changed io connId conn after enqueued called
  have mine : fdOf io (.connection connId) = some conn.mSocket.mSocket :=
    (fd_of_known known).trans (own_fd_some.mpr ⟨opened, rfl⟩)
  have nothing : ownFd after = none := by rw [ownFd, if_pos closed]
  have keys (owner : RWConnection) (other : owner ≠ .connection connId) : fdOf { io with
      net := io.net.changed connId after enqueued
      driver
      openFds := io.openFds.erase conn.mSocket.mSocket } owner = fdOf io owner := by
    rw [fd_of_changed, if_neg other]
  have given : fdOf { io with
      net := io.net.changed connId after enqueued
      driver
      openFds := io.openFds.erase conn.mSocket.mSocket } (.connection connId) = none := by
    rw [fd_of_changed, if_pos rfl, nothing]
  apply safe_ok
  · refine ⟨inv.mirrors.release mine given keys (fun _ _ => rfl) erased kept, fun owner fd held => ?_, waits ▸ inv.waiting,
      fun fd inside => ?_, @fresh_changed io connId conn after enqueued inv called, conns_changed inv known called keeps,
      dropped_changed inv known called keeps, fun probe call starts => ?_, inv.numbers⟩
    · have other : owner ≠ .connection connId := by
        rintro rfl
        cases given.symm.trans held
      rw [keys owner other] at held
      exact (mem_erase_fd _ _ _).mpr ⟨fun same => other (inv.mirrors.alone _ _ _ (same ▸ held) mine), inv.held owner fd held⟩
    · obtain ⟨isOpen, free⟩ := inv.clients fd (waits ▸ inside)
      refine ⟨(mem_erase_fd _ _ _).mpr ⟨fun same => free _ (same ▸ mine), isOpen⟩, fun owner => ?_⟩
      by_cases other : owner = .connection connId
      · rw [other, given]
        simp
      · rw [keys owner other]
        exact free owner
    · have other : RWConnection.connection probe ≠ .connection connId := by
        rintro ⟨⟩
        cases whole.symm.trans starts
      rw [keys _ other]
      exact inv.starting probe call starts
  · intro probe fd held idle
    by_cases same : probe = connId
    · subst same
      exact .inr given
    · exact .inl ⟨(keys _ (by simp [same])).trans held, idle⟩

/-- A call of `ReadData` or `WriteData`. A connection that is closed by it has
both its events until then. -/
theorem called_safe (inv : Inv io) (known : io.net.mConns[connId]? = some conn) (called : conn.Called after enqueued)
    (keeps : conn.KeepsFd after)
    (whole : conn.mClosed = false → after.mClosed = true → io.starting[connId]? = none) :
    Safe io (io.called connId conn after enqueued) := by
  rw [NetIo.called]
  rcases keeps with ⟨flag, sameFd⟩ | ⟨opened, closed, fd⟩
  · rw [if_neg (by simp [flag])]
    exact stays_safe inv known called flag sameFd
  · rw [if_pos (by simp [opened, closed])]
    have whole := whole opened closed
    have mine : fdOf io (.connection connId) = some conn.mSocket.mSocket :=
      (fd_of_known known).trans (own_fd_some.mpr ⟨opened, rfl⟩)
    have entry : io.driver.mEventsInfo[conn.mSocket.mSocket]? = some (.both (.connection connId)) := by
      rw [inv.mirrors.lookup mine, wants, whole]
    obtain ⟨driver, gone, erased, kept⟩ := RWConnection.un_regist_both_ok entry
    simp only [gone, ok_then]
    exact gone_safe inv known called opened closed fd whole erased kept

/-! ### The conditions on a step -/

/-- The descriptor that the kernel hands out. -/
def handedOut : Step → Option Nat
  | .accept _ client => client.map Client.fd
  | .connect _ _ (.failed fd) => some fd
  | .connect _ _ (.done fd) => some fd
  | .startListen _ _ (.failed fd) => some fd
  | .startListen _ _ (.done fd) => some fd
  | _ => none

/-- It is not open. -/
def HandsOutFree (io : NetIo) (event : Step) : Prop := ∀ fd ∈ handedOut event, (fd : Int) ∉ io.openFds

instance (io : NetIo) (event : Step) : Decidable (HandsOutFree io event) :=
  inferInstanceAs (Decidable (∀ fd ∈ handedOut event, _))

/-- Whether a call closed its connection. -/
def closed (conn : TcpConnection) : Except Fault TcpConnection → Bool
  | .ok after => !conn.mClosed && after.mClosed
  | .error _ => false

/-- The event is a call of `ReadData` or `WriteData` that fails and closes this
connection. -/
def closes (io : NetIo) : Step → Option UInt64
  | .read connId arrivals =>
    io.net.mConns[connId]?.bind fun conn =>
      if closed conn ((conn.readData true arrivals).map ReadResult.conn) then some connId else none
  | .write connId answer =>
    io.net.mConns[connId]?.bind fun conn =>
      if closed conn ((conn.writeData true answer).map WriteResult.conn) then some connId else none
  | .net answer =>
    match io.net.mQueue with
    | .send connId msg :: _ =>
      io.net.mConns[connId]?.bind fun conn =>
        if closed conn (((conn.enqueue msg).writeData true answer).map WriteResult.conn) then some connId else none
    | _ => none
  | _ => none

/-- No connection is closed between its two registrations, and the counter of
the ids does not wrap. -/
structure Undisturbed (io : NetIo) (event : Step) : Prop where
  whole : ∀ connId ∈ closes io event, io.starting[connId]? = none
  few : io.net.mMaxID.toNat + 1 < 2 ^ 64

theorem below_next {id : UInt64} : id < id + 1 ↔ id.toNat + 1 < 2 ^ 64 := by
  have bound := id.toNat_lt
  rw [UInt64.lt_iff_toNat_lt, UInt64.toNat_add, UInt64.toNat_one]
  omega

-- At most one id is in question; the search over all of `UInt64` would not end.
instance (io : NetIo) (event : Step) : Decidable (∀ connId ∈ closes io event, io.starting[connId]? = none) :=
  Option.decidableForallMem ..

instance (io : NetIo) (event : Step) : Decidable (Undisturbed io event) :=
  decidable_of_iff ((∀ connId ∈ closes io event, io.starting[connId]? = none) ∧ io.net.mMaxID < io.net.mMaxID + 1)
    ⟨fun ⟨whole, few⟩ => ⟨whole, below_next.mp few⟩, fun ⟨whole, few⟩ => ⟨whole, below_next.mpr few⟩⟩

variable {arrivals : List Arrival} {answer : Sendable} {msg : Msg}

theorem read_safe (inv : Inv io) (whole : ∀ id ∈ closes io (.read connId arrivals), io.starting[id]? = none) :
    Safe io (io.read connId arrivals) := by
  rw [NetIo.read]
  apply safe_bind
  intro conn looked
  apply safe_bind
  intro result done
  have known := NetService.connection_ok.mp looked
  apply called_safe inv known (TcpConnection.called_read (inv.conns connId conn known).settled done)
    (TcpConnection.read_keeps_fd done)
  intro opened shut
  apply whole
  simp [closes, known, done, closed, Except.map, opened, shut]

theorem write_safe (inv : Inv io) (whole : ∀ id ∈ closes io (.write connId answer), io.starting[id]? = none) :
    Safe io (io.write connId answer) := by
  rw [NetIo.write]
  apply safe_bind
  intro conn looked
  apply safe_bind
  intro result done
  have known := NetService.connection_ok.mp looked
  apply called_safe inv known (TcpConnection.called_write (inv.conns connId conn known).settled done)
    (TcpConnection.write_keeps_fd done)
  intro opened shut
  apply whole
  simp [closes, known, done, closed, Except.map, opened, shut]

/-- `SendMsg` puts the message behind the others before it calls `WriteData`. -/
theorem send_msg_safe (inv : Inv io) (whole : ∀ conn, io.net.mConns[connId]? = some conn →
      closed conn (((conn.enqueue msg).writeData true answer).map WriteResult.conn) = true → io.starting[connId]? = none) :
    Safe io (io.sendMsg connId msg answer) := by
  rw [NetIo.sendMsg]
  cases known : io.net.mConns[connId]? with
  | none => exact safe_same inv
  | some conn =>
    apply safe_bind
    intro result done
    have called := TcpConnection.called_send (inv.conns connId conn known).settled done
    have keeps : (conn.enqueue msg).KeepsFd result.conn := TcpConnection.write_keeps_fd done
    apply called_safe inv known called keeps
    intro opened shut
    apply whole conn known
    simp [done, closed, Except.map, opened, shut]

/-! ### Contexts -/

/-- A queue that holds less, and messages to send. -/
private theorem inv_queue (inv : Inv io) {mQueue : List OperContext}
    (waits : (mQueue.filterMap clientFd).Sublist (io.net.mQueue.filterMap clientFd))
    (old : ∀ ctx ∈ mQueue, ctx ∈ io.net.mQueue ∨ ∃ connId msg, ctx = .send connId msg) :
    Inv { io with net.mQueue := mQueue } where
  mirrors := inv.mirrors
  held := inv.held
  waiting := waits.nodup inv.waiting
  clients fd inside := inv.clients fd (waits.subset inside)
  fresh socket inside := by
    rcases old _ inside with before | ⟨_, _, sent⟩
    · exact inv.fresh socket before
    · cases sent
  conns := inv.conns
  dropped connId inside := by
    rcases old _ inside with before | ⟨_, _, sent⟩
    · exact inv.dropped connId before
    · cases sent
  starting := inv.starting
  numbers := inv.numbers

private theorem inv_popped (inv : Inv io) {ctx : OperContext} {mQueue : List OperContext}
    (queue : io.net.mQueue = ctx :: mQueue) : Inv { io with net.mQueue := mQueue } := by
  apply inv_queue inv
  · rw [queue]
    exact (List.sublist_cons_self ctx mQueue).filterMap clientFd
  · intro other inside
    rw [queue]
    exact .inl (List.mem_cons_of_mem ctx inside)

theorem send_safe (inv : Inv io) (connId : UInt64) (msg : Msg) :
    Inv { io with net.mQueue := io.net.mQueue ++ [.send connId msg] } := by
  apply inv_queue inv
  · rw [List.filterMap_append]
    simp [clientFd]
  · intro ctx inside
    rcases List.mem_append.mp inside with before | made
    · exact .inl before
    · exact .inr ⟨connId, msg, List.mem_singleton.mp made⟩

/-- The net service with a new connection, which is not registered yet. -/
def started (io : NetIo) (starter : Starter) (socket : TcpSocket) : NetIo :=
  { io with
    net := { io.net with
      mMaxID := io.net.mMaxID + 1
      mConns := io.net.mConns.insert io.net.mMaxID (.new socket io.net.mMaxID) }
    starting := io.starting.insert io.net.mMaxID ⟨starter, socket.mSocket, false⟩ }

variable {starter : Starter} {socket : TcpSocket}

private theorem start_ok (unknown : io.net.mConns[io.net.mMaxID]? = none) :
    io.start starter socket = .ok (started io starter socket) := by
  have fresh : io.net.mConns.contains io.net.mMaxID = false := by
    rw [← Bool.not_eq_true, ← Std.ExtTreeMap.mem_iff_contains, Std.ExtTreeMap.mem_iff_isSome_getElem?, unknown]
    simp
  rw [NetIo.start, NetService.acceptConnection, fresh]
  rfl

private theorem started_lookup (probe : UInt64) : (started io starter socket).net.mConns[probe]? =
    if io.net.mMaxID = probe then some (.new socket io.net.mMaxID) else io.net.mConns[probe]? := by
  simp only [started, Std.ExtTreeMap.getElem?_insert, Std.LawfulEqCmp.compare_eq_iff_eq]

private theorem fd_of_started (owner : RWConnection) : fdOf (started io starter socket) owner =
    if owner = .connection io.net.mMaxID then some socket.mSocket else fdOf io owner := by
  cases owner with
  | accepter number => rw [if_neg (by simp)]; rfl
  | connection probe =>
    rw [fdOf, started_lookup]
    by_cases same : io.net.mMaxID = probe
    · rw [if_pos same, if_pos (by rw [same])]
      rfl
    · rw [if_neg same, if_neg (by simp [Ne.symm same])]
      rfl

private theorem starting_of_started (probe : UInt64) : (started io starter socket).starting[probe]? =
    if io.net.mMaxID = probe then some ⟨starter, socket.mSocket, false⟩ else io.starting[probe]? := by
  simp only [started, Std.ExtTreeMap.getElem?_insert, Std.LawfulEqCmp.compare_eq_iff_eq]

private theorem wants_of_started (owner : RWConnection) : wants (started io starter socket) owner =
    if owner = .connection io.net.mMaxID then none else wants io owner := by
  cases owner with
  | accepter number => rw [if_neg (by simp)]; rfl
  | connection probe =>
    rw [wants, starting_of_started]
    by_cases same : io.net.mMaxID = probe
    · rw [if_pos same, if_pos (by rw [same])]
      rfl
    · rw [if_neg same, if_neg (by simp [Ne.symm same])]
      rfl

/-- The next id is not in use. -/
private theorem next_unknown (inv : Inv io) : io.net.mConns[io.net.mMaxID]? = none := by
  cases found : io.net.mConns[io.net.mMaxID]? with
  | none => rfl
  | some conn => exact absurd (inv.conns _ conn found).old (UInt64.lt_irrefl _)

private theorem kept_started (nobody : fdOf io (.connection io.net.mMaxID) = none) :
    Kept io (started io starter socket) := by
  intro probe fd held idle
  have other : io.net.mMaxID ≠ probe := by
    rintro rfl
    cases nobody.symm.trans held
  left
  rw [fd_of_started, if_neg (by simp [Ne.symm other]), starting_of_started, if_neg other]
  exact ⟨held, idle⟩

private theorem inv_started (inv : Inv io) (working : socket.noOK = false) (isOpen : socket.mSocket ∈ io.openFds)
    (free : ∀ owner, fdOf io owner ≠ some socket.mSocket) (apart : socket.mSocket ∉ io.net.mQueue.filterMap clientFd)
    (above : io.net.mMaxID < io.net.mMaxID + 1) (nobody : fdOf io (.connection io.net.mMaxID) = none) :
    Inv (started io starter socket) := by
  have others (owner : RWConnection) (other : owner ≠ .connection io.net.mMaxID) :
      fdOf (started io starter socket) owner = fdOf io owner := by
    rw [fd_of_started, if_neg other]
  refine ⟨?_, fun owner fd held => ?_, inv.waiting, fun fd inside => ?_, inv.fresh, fun probe found stored => ?_,
    fun probe inside => ?_, fun probe call starts => ?_, inv.numbers⟩
  · apply inv.mirrors.settle (.inl nobody) (fun owner _ => free owner) (by rw [fd_of_started, if_pos rfl]) others
    · intro owner other
      rw [wants_of_started, if_neg other]
    · rw [wants_of_started, if_pos rfl]
      exact inv.mirrors.lookup_free free
    · intro _ _
      rfl
  · rw [fd_of_started] at held
    split at held
    · cases held
      exact isOpen
    · exact inv.held owner fd held
  · obtain ⟨isOpen, freeToo⟩ := inv.clients fd inside
    refine ⟨isOpen, fun owner => ?_⟩
    rw [fd_of_started]
    split
    · rintro ⟨⟩
      exact apart inside
    · exact freeToo owner
  · rw [started_lookup] at stored
    split at stored
    next same =>
      cases stored
      exact ⟨same, same ▸ above, TcpConnection.settled_new working, by simp [TcpConnection.new]⟩
    next =>
      obtain ⟨id, old, settled, gone⟩ := inv.conns probe found stored
      exact ⟨id, UInt64.lt_trans old above, settled, gone⟩
  · obtain ⟨old, closed⟩ := inv.dropped probe inside
    refine ⟨UInt64.lt_trans old above, fun conn stored => ?_⟩
    rw [started_lookup] at stored
    split at stored
    next same => exact absurd (same ▸ old) (UInt64.lt_irrefl _)
    next => exact closed conn stored
  · rw [starting_of_started] at starts
    split at starts
    next same =>
      cases starts
      rw [fd_of_started, if_pos (by rw [same])]
    next different =>
      rw [others _ (by simp [Ne.symm different])]
      exact inv.starting probe call starts

/-- A socket that nobody holds gets a connection. -/
theorem start_safe (inv : Inv io) (working : socket.noOK = false) (isOpen : socket.mSocket ∈ io.openFds)
    (free : ∀ owner, fdOf io owner ≠ some socket.mSocket) (apart : socket.mSocket ∉ io.net.mQueue.filterMap clientFd)
    (few : io.net.mMaxID.toNat + 1 < 2 ^ 64) (starter : Starter) : Safe io (io.start starter socket) := by
  have unknown := next_unknown inv
  have nobody : fdOf io (.connection io.net.mMaxID) = none := by rw [fdOf, unknown, Option.bind_none]
  rw [start_ok unknown]
  exact safe_ok (inv_started inv working isOpen free apart (below_next.mpr few) nobody) (kept_started nobody)

private theorem fd_of_dropped (closed : ∀ conn, io.net.mConns[connId]? = some conn → conn.mClosed = true)
    (owner : RWConnection) : fdOf { io with net := io.net.dropConnection connId } owner = fdOf io owner := by
  cases owner with
  | accepter number => rfl
  | connection probe =>
    rw [fdOf, fdOf, NetService.erased_lookup]
    split
    next same =>
      subst same
      cases found : io.net.mConns[connId]? with
      | none => rfl
      | some conn => rw [Option.bind_none, Option.bind_some, ownFd, if_pos (closed conn found)]
    next => rfl

/-- A connection that is reported is closed, so its socket has nothing left to
close. -/
theorem drop_safe (inv : Inv io) (closed : ∀ conn, io.net.mConns[connId]? = some conn → conn.mClosed = true) :
    Safe io (.ok (io.dropConnection connId)) := by
  have only : io.dropConnection connId = { io with net := io.net.dropConnection connId } := by
    unfold NetIo.dropConnection
    split
    · rfl
    · rename_i conn found
      exact if_neg (not_not.mpr ((inv.conns connId conn found).gone (closed conn found)))
  have still (probe : UInt64) (found : TcpConnection) (stored : (io.net.dropConnection connId).mConns[probe]? = some found) :
      io.net.mConns[probe]? = some found := by
    rw [NetService.erased_lookup] at stored
    split at stored
    · cases stored
    · exact stored
  have keys := fd_of_dropped closed
  rw [only]
  apply safe_ok ?_ (kept_of_same (fun _ => keys _) fun _ idle => idle)
  refine ⟨inv.mirrors.unchanged keys fun _ _ => rfl, fun owner fd held => ?_, inv.waiting, fun fd inside => ?_, inv.fresh,
    fun probe found stored => ?_, fun probe inside => ?_, fun probe call starts => ?_, inv.numbers⟩
  · rw [keys] at held
    exact inv.held owner fd held
  · obtain ⟨isOpen, free⟩ := inv.clients fd inside
    exact ⟨isOpen, fun owner => by rw [keys]; exact free owner⟩
  · exact inv.conns probe found (still probe found stored)
  · obtain ⟨old, shut⟩ := inv.dropped probe inside
    exact ⟨old, fun found stored => shut found (still probe found stored)⟩
  · rw [keys]
    exact inv.starting probe call starts

/-- The next context of the net service. -/
theorem process_safe (inv : Inv io) (undisturbed : Undisturbed io (.net answer)) : Safe io (io.process answer) := by
  unfold NetIo.process
  split
  · exact safe_fault _
  · split
    · exact safe_same inv
    · rename_i ctx mQueue queue
      have popped := inv_popped inv queue
      cases ctx with
      | accept socket =>
        have inside : socket.mSocket ∈ io.net.mQueue.filterMap clientFd := by
          rw [queue]
          exact List.mem_cons_self
        obtain ⟨isOpen, free⟩ := inv.clients _ inside
        have once := inv.waiting
        rw [queue, List.filterMap_cons] at once
        apply start_safe popped (inv.fresh socket (by rw [queue]; exact List.mem_cons_self)) isOpen free
          (List.nodup_cons.mp once).1 undisturbed.few
      | recv msg connId ip port => exact safe_same popped
      | send connId msg =>
        apply send_msg_safe popped
        intro conn known shut
        apply undisturbed.whole
        have known : io.net.mConns[connId]? = some conn := known
        simp [closes, queue, known, shut]
      | drop connId =>
        apply drop_safe popped
        exact (inv.dropped connId (by rw [queue]; exact List.mem_cons_self)).2

/-! ### Registering -/

private theorem wants_of_call {driver : Driver} {starting : Std.ExtTreeMap UInt64 Starting} (connId : UInt64)
    (others : ∀ probe, probe ≠ connId → starting[probe]? = io.starting[probe]?) (owner : RWConnection)
    (other : owner ≠ .connection connId) : wants { io with driver, starting } owner = wants io owner := by
  cases owner with
  | accepter number => rfl
  | connection probe => rw [wants, wants, others probe (fun same => other (by rw [same]))]

/-- The call that makes a connection has got further. -/
private theorem registered_safe (inv : Inv io) {call : Starting} {driver : Driver}
    {starting : Std.ExtTreeMap UInt64 Starting} (starts : io.starting[connId]? = some call)
    (rewrites : RWConnection.Rewrites io.driver driver call.fd (wants { io with driver, starting } (.connection connId)))
    (away : ∀ probe, probe ≠ connId → starting[probe]? = io.starting[probe]?)
    (own : ∀ later : Starting, starting[connId]? = some later → later.fd = call.fd) :
    Safe io (.ok { io with driver, starting }) := by
  have mine := inv.starting connId call starts
  have others (owner : RWConnection) (other : owner ≠ .connection connId) : fdOf io owner ≠ some call.fd :=
    fun held => other (inv.mirrors.alone owner (.connection connId) call.fd held mine)
  obtain ⟨written, kept⟩ := rewrites
  have idleToo (probe : UInt64) (idle : io.starting[probe]? = none) : starting[probe]? = none := by
    rw [away probe, idle]
    rintro rfl
    cases idle.symm.trans starts
  have same : Kept io { io with driver, starting } := kept_of_same (fun _ => rfl) idleToo
  apply safe_ok ?_ same
  refine ⟨?_, inv.held, inv.waiting, inv.clients, inv.fresh, inv.conns, inv.dropped, fun probe later found => ?_,
    inv.numbers⟩
  · exact inv.mirrors.settle (.inr mine) others mine (fun _ _ => rfl) (wants_of_call connId away) written kept
  · by_cases here : probe = connId
    · subst here
      rw [own later found]
      exact mine
    · exact inv.starting probe later ((away probe here).symm.trans found)

/-- Each event comes after the one before it. -/
theorem regist_safe (inv : Inv io) (connId : UInt64) : Safe io (io.regist connId) := by
  unfold NetIo.regist
  split
  next call conn starts known =>
    have entry := inv.mirrors.lookup (inv.starting connId call starts)
    rw [wants, starts] at entry
    split
    next reads =>
      simp only [reads, if_true] at entry
      obtain ⟨driver, done, rewrites⟩ := RWConnection.regist_write_ok entry
      simp only [done, ok_then]
      apply registered_safe inv starts
      · rw [wants]
        simpa using rewrites
      · intro probe other
        simp [Std.ExtTreeMap.getElem?_erase, Ne.symm other]
      · intro later found
        simp at found
    next fresh =>
      simp only [fresh] at entry
      obtain ⟨driver, done, rewrites⟩ := @RWConnection.regist_read_ok io.driver call.fd (.connection connId) entry
      simp only [done, ok_then]
      apply registered_safe inv starts
      · rw [wants]
        simpa using rewrites
      · intro probe other
        simp [Std.ExtTreeMap.getElem?_insert, Ne.symm other]
      · intro later found
        simp only [Std.ExtTreeMap.getElem?_insert_self, Option.some.injEq] at found
        rw [← found]
  next => exact safe_fault _
  next => exact safe_fault _

/-! ### Listeners and clients -/

/-- The kernel hands out a descriptor that nobody holds. -/
private theorem inv_opened (inv : Inv io) (fd : Int) : Inv { io with openFds := io.openFds.insert fd } where
  mirrors := inv.mirrors
  held owner probe holds := (mem_insert_fd _ _ _).mpr (.inr (inv.held owner probe holds))
  waiting := inv.waiting
  clients probe inside := by
    obtain ⟨isOpen, free⟩ := inv.clients probe inside
    exact ⟨(mem_insert_fd _ _ _).mpr (.inr isOpen), free⟩
  fresh := inv.fresh
  conns := inv.conns
  dropped := inv.dropped
  starting := inv.starting
  numbers := inv.numbers

private theorem nobody_holds (inv : Inv io) (closed : fd ∉ io.openFds) (owner : RWConnection) : fdOf io owner ≠ some fd :=
  fun held => closed (inv.held owner fd held)

private theorem nobody_waits (inv : Inv io) (closed : fd ∉ io.openFds) : fd ∉ io.net.mQueue.filterMap clientFd :=
  fun inside => closed (inv.clients fd inside).1

theorem accept_safe (inv : Inv io) {number : Nat} {client : Option Client}
    (free : HandsOutFree io (.accept number client)) : Safe io (io.accept number client) := by
  unfold NetIo.accept
  split
  · exact safe_fault _
  · split
    · exact safe_same inv
    next client =>
      have closed : (client.fd : Int) ∉ io.openFds := free client.fd rfl
      have opened := inv_opened inv client.fd
      have nobody := nobody_holds inv closed
      have still (mQueue : List OperContext) :
          Kept io { io with openFds := io.openFds.insert client.fd, net.mQueue := mQueue } :=
        kept_of_same (fun _ => rfl) fun _ idle => idle
      dsimp only
      split
      · apply safe_ok ?_ (still _)
        have waits : (io.net.mQueue ++ [OperContext.accept (.accepted client.ip client.port client.fd)]).filterMap clientFd =
            io.net.mQueue.filterMap clientFd ++ [(client.fd : Int)] := by
          rw [List.filterMap_append]
          rfl
        refine ⟨inv.mirrors, opened.held, ?_, fun fd inside => ?_, fun socket inside => ?_, inv.conns,
          fun connId inside => ?_, inv.starting, inv.numbers⟩
        · rw [waits]
          refine List.nodup_append.mpr ⟨inv.waiting, List.pairwise_singleton _ _, ?_⟩
          rintro fd inside _ last rfl
          rw [List.mem_singleton.mp last] at inside
          exact nobody_waits inv closed inside
        · rw [waits, List.mem_append, List.mem_singleton] at inside
          rcases inside with before | rfl
          · exact opened.clients fd before
          · exact ⟨(mem_insert_fd _ _ _).mpr (.inl rfl), nobody⟩
        · rcases List.mem_append.mp inside with before | made
          · exact inv.fresh socket before
          · cases List.mem_singleton.mp made
            rfl
        · rcases List.mem_append.mp inside with before | made
          · exact inv.dropped connId before
          · cases List.mem_singleton.mp made
      · exact safe_ok opened (still io.net.mQueue)

theorem connect_safe (inv : Inv io) {ip : StdString} {port : UInt16} {opened : Opened}
    (free : HandsOutFree io (.connect ip port opened)) (few : io.net.mMaxID.toNat + 1 < 2 ^ 64) :
    Safe io (io.connect ip port opened) := by
  cases opened with
  | noSocket => exact safe_same inv
  | failed fd => exact safe_same inv
  | done fd =>
    have closed : (fd : Int) ∉ io.openFds := free fd rfl
    have added : (fd : Int) ∈ io.openFds.insert fd := (mem_insert_fd _ _ _).mpr (.inl rfl)
    have nobody := nobody_holds inv closed
    have apart : (TcpSocket.accepted ip port fd).mSocket ∉ io.net.mQueue.filterMap clientFd := nobody_waits inv closed
    exact @start_safe _ (.accepted ip port fd) (inv_opened inv fd) rfl added nobody apart few .startConnectRemote

/-- Where one listener has come or gone, the descriptors of the others are the same. -/
private theorem fd_of_accepters {driver : Driver} {accepters : Std.ExtTreeMap Nat Accepter} {accepterCount number : Nat}
    {openFds : Std.ExtTreeSet Int} (others : ∀ probe, number ≠ probe → accepters[probe]? = io.accepters[probe]?)
    (owner : RWConnection) : fdOf { io with driver, accepters, accepterCount, openFds } owner =
      if owner = .accepter number then accepters[number]?.map fun accepter : Accepter => accepter.mListenSocket.mSocket
      else fdOf io owner := by
  cases owner with
  | connection connId => rw [if_neg (by simp)]; rfl
  | accepter probe =>
    by_cases same : number = probe
    · subst same
      rw [if_pos rfl, fdOf]
    · rw [fdOf, others probe same, if_neg (by simp [Ne.symm same])]
      rfl

private theorem others_inserted {number : Nat} {accepter : Accepter} (probe : Nat) (other : number ≠ probe) :
    (io.accepters.insert number accepter)[probe]? = io.accepters[probe]? := by
  simp [Std.ExtTreeMap.getElem?_insert, other]

private theorem others_erased {number : Nat} (probe : Nat) (other : number ≠ probe) :
    (io.accepters.erase number)[probe]? = io.accepters[probe]? := by
  simp [Std.ExtTreeMap.getElem?_erase, other]

private theorem inv_counted (inv : Inv io) : Inv { io with accepterCount := io.accepterCount + 1 } where
  mirrors := inv.mirrors
  held := inv.held
  waiting := inv.waiting
  clients := inv.clients
  fresh := inv.fresh
  conns := inv.conns
  dropped := inv.dropped
  starting := inv.starting
  numbers number inside := Nat.lt_succ_of_lt (inv.numbers number inside)

theorem start_listen_safe (inv : Inv io) {ip : StdString} {port : UInt16} {opened : Opened}
    (free : HandsOutFree io (.startListen ip port opened)) : Safe io (io.startListen ip port opened) := by
  cases opened with
  | noSocket => exact safe_ok (inv_counted inv) (kept_of_same (fun _ => rfl) fun _ idle => idle)
  | failed fd => exact safe_ok (inv_opened (inv_counted inv) fd) (kept_of_same (fun _ => rfl) fun _ idle => idle)
  | done fd =>
    have closed : (fd : Int) ∉ io.openFds := free fd rfl
    have nobody := nobody_holds inv closed
    have unused : fdOf io (.accepter io.accepterCount) = none := by
      rw [fdOf, Std.ExtTreeMap.getElem?_eq_none fun inside => absurd (inv.numbers _ inside) (lt_irrefl _), Option.map_none]
    obtain ⟨driver, done, written, kept⟩ :=
      @RWConnection.regist_read_ok io.driver fd (.accepter io.accepterCount) (inv.mirrors.lookup_free nobody)
    have keys (owner : RWConnection) : fdOf { io with
        driver
        accepters := io.accepters.insert io.accepterCount ⟨.accepted ip port fd, ip, port⟩
        accepterCount := io.accepterCount + 1
        openFds := io.openFds.insert fd } owner =
          if owner = .accepter io.accepterCount then some (fd : Int) else fdOf io owner := by
      rw [fd_of_accepters others_inserted, Std.ExtTreeMap.getElem?_insert_self]
      rfl
    simp only [NetIo.startListen, done, ok_then]
    apply safe_ok
    · refine ⟨?_, fun owner probe held => ?_, inv.waiting, fun probe inside => ?_, inv.fresh, inv.conns, inv.dropped,
        fun connId call starts => ?_, fun number inside => ?_⟩
      · apply inv.mirrors.settle (.inl unused) (fun owner _ => nobody owner) (by rw [keys, if_pos rfl]) ?_ ?_ written kept
        · intro owner other
          rw [keys, if_neg other]
        · intro owner _
          cases owner <;> rfl
      · rw [keys] at held
        rw [mem_insert_fd]
        split at held
        · cases held
          exact .inl rfl
        · exact .inr (inv.held owner probe held)
      · obtain ⟨isOpen, freeToo⟩ := inv.clients probe inside
        refine ⟨(mem_insert_fd _ _ _).mpr (.inr isOpen), fun owner => ?_⟩
        rw [keys]
        split
        · rintro ⟨⟩
          exact closed isOpen
        · exact freeToo owner
      · rw [keys, if_neg (by simp)]
        exact inv.starting connId call starts
      · rw [Std.ExtTreeMap.mem_insert, Std.LawfulEqCmp.compare_eq_iff_eq] at inside
        rcases inside with rfl | before
        · exact Nat.lt_succ_self _
        · exact Nat.lt_succ_of_lt (inv.numbers number before)
    · apply kept_of_same
      · intro connId
        rw [keys, if_neg (by simp)]
      · exact fun _ idle => idle

theorem stop_listen_safe (inv : Inv io) (number : Nat) : Safe io (io.stopListen number) := by
  unfold NetIo.stopListen
  split
  · exact safe_fault _
  next accepter listening =>
    have mine : fdOf io (.accepter number) = some accepter.mListenSocket.mSocket := by rw [fdOf, listening, Option.map_some]
    obtain ⟨driver, done, erased, kept⟩ :=
      @RWConnection.un_regist_read_ok io.driver accepter.mListenSocket.mSocket (.accepter number) (inv.mirrors.lookup mine)
    have keys (owner : RWConnection) : fdOf { io with
        driver
        accepters := io.accepters.erase number
        openFds := io.openFds.erase accepter.mListenSocket.mSocket } owner =
          if owner = .accepter number then none else fdOf io owner := by
      rw [fd_of_accepters others_erased, Std.ExtTreeMap.getElem?_erase_self]
      rfl
    simp only [done, ok_then]
    apply safe_ok
    · refine ⟨?_, fun owner fd held => ?_, inv.waiting, fun fd inside => ?_, inv.fresh, inv.conns, inv.dropped,
        fun connId call starts => ?_, fun other inside => ?_⟩
      · apply inv.mirrors.release mine (by rw [keys, if_pos rfl]) ?_ ?_ erased kept
        · intro owner other
          rw [keys, if_neg other]
        · intro owner _
          cases owner <;> rfl
      · rw [keys] at held
        split at held
        · cases held
        next other =>
          exact (mem_erase_fd _ _ _).mpr
            ⟨fun same => other (inv.mirrors.alone _ _ _ (same ▸ held) mine), inv.held owner fd held⟩
      · obtain ⟨isOpen, free⟩ := inv.clients fd inside
        refine ⟨(mem_erase_fd _ _ _).mpr ⟨fun same => free _ (same ▸ mine), isOpen⟩, fun owner => ?_⟩
        rw [keys]
        split
        · simp
        · exact free owner
      · rw [keys, if_neg (by simp)]
        exact inv.starting connId call starts
      · exact inv.numbers other (Std.ExtTreeMap.mem_erase.mp inside).2
    · apply kept_of_same
      · intro connId
        rw [keys, if_neg (by simp)]
      · exact fun _ idle => idle

/-! ### Runs -/

theorem take_safe (inv : Inv io) {event : Step} (free : HandsOutFree io event) (undisturbed : Undisturbed io event) :
    Safe io (io.take event) := by
  cases event with
  | accept number client => exact accept_safe inv free
  | read connId arrivals => exact read_safe inv undisturbed.whole
  | write connId answer => exact write_safe inv undisturbed.whole
  | send connId msg => exact safe_ok (send_safe inv connId msg) (kept_of_same (fun _ => rfl) fun _ idle => idle)
  | net answer => exact process_safe inv undisturbed
  | connect ip port opened => exact connect_safe inv free undisturbed.few
  | regist connId => exact regist_safe inv connId
  | startListen ip port opened => exact start_listen_safe inv free
  | stopListen number => exact stop_listen_safe inv number

theorem inv_new : Inv .new where
  mirrors := by
    constructor
    · intro owner other fd held
      cases owner <;> cases held
    · intro fd info
      constructor
      · intro found
        cases found
      · rintro ⟨owner, held, _⟩
        cases owner <;> cases held
  held owner fd held := by cases owner <;> cases held
  waiting := List.nodup_nil
  clients fd inside := by cases inside
  fresh socket inside := by cases inside
  conns connId conn known := by cases known
  dropped connId inside := by cases inside
  starting connId call starts := by cases starts
  numbers number inside := by cases inside

/-- A connection that is not closed, on its descriptor. -/
def Opens (io : NetIo) (connId : UInt64) (fd : Int) : Prop :=
  ∃ conn, io.net.mConns[connId]? = some conn ∧ conn.mClosed = false ∧ conn.mSocket.mSocket = fd

/-- A listener, on its descriptor. -/
def Listens (io : NetIo) (number : Nat) (fd : Int) : Prop :=
  ∃ accepter, io.accepters[number]? = some accepter ∧ accepter.mListenSocket.mSocket = fd

/-- The registry has an entry for a descriptor just when it belongs to a
connection that is not closed, with both events for it, or to a listener, with
the read event. Of a connection that is being made, the second event may be
missing, or both. -/
def Tracks (io : NetIo) : Prop :=
  ∀ fd info, io.driver.mEventsInfo[fd]? = some info ↔
    (∃ connId, Opens io connId fd ∧ io.starting[connId]? = none ∧ info = .both (.connection connId)) ∨
    (∃ connId call, Opens io connId fd ∧ io.starting[connId]? = some call ∧ call.reads = true ∧
      info = .readOnly (.connection connId)) ∨
    ∃ number, Listens io number fd ∧ info = .readOnly (.accepter number)

/-- The events of a connection that stays open stay registered, whatever is
closed or deleted. -/
def Spares (io : NetIo) (event : Step) : Prop :=
  ∀ next output, io.step event = .ok (next, output) → ∀ connId fd, Opens io connId fd →
    io.driver.mEventsInfo[fd]? = some (.both (.connection connId)) → (∃ later, Opens next connId later) →
    Opens next connId fd ∧ next.driver.mEventsInfo[fd]? = some (.both (.connection connId))

theorem fd_of_opens : fdOf io (.connection connId) = some fd ↔ Opens io connId fd := by
  rw [fdOf, Opens, Option.bind_eq_some_iff]
  simp only [own_fd_some]

theorem tracks_of_inv (inv : Inv io) : Tracks io := by
  intro fd info
  rw [inv.mirrors.entries]
  constructor
  · rintro ⟨owner, held, wanted⟩
    cases owner with
    | connection connId =>
      rw [fd_of_opens] at held
      rw [wants] at wanted
      split at wanted
      next idle =>
        cases wanted
        exact .inl ⟨connId, held, idle, rfl⟩
      next call starts =>
        split at wanted
        next reads =>
          cases wanted
          exact .inr (.inl ⟨connId, call, held, starts, reads, rfl⟩)
        next => cases wanted
    | accepter number =>
      cases wanted
      exact .inr (.inr ⟨number, Option.map_eq_some_iff.mp held, rfl⟩)
  · rintro (⟨connId, opens, idle, rfl⟩ | ⟨connId, call, opens, starts, reads, rfl⟩ | ⟨number, listens, rfl⟩)
    · exact ⟨.connection connId, fd_of_opens.mpr opens, by rw [wants, idle]⟩
    · exact ⟨.connection connId, fd_of_opens.mpr opens, by simp [wants, starts, reads]⟩
    · exact ⟨.accepter number, Option.map_eq_some_iff.mpr listens, rfl⟩

theorem step_safe (inv : Inv io) {event : Step} (free : HandsOutFree io event) (undisturbed : Undisturbed io event) :
    io.step event ≠ .error .registry ∧ Spares io event ∧ ∀ next output, io.step event = .ok (next, output) → Inv next := by
  obtain ⟨noAssert, kept⟩ := take_safe inv free undisturbed
  refine ⟨fun failed => ?_, fun next output done connId fd opens watched ⟨later, stays⟩ => ?_, fun next output done => ?_⟩
  · rw [NetIo.step] at failed
    cases taken : io.take event with
    | error stop =>
      rw [taken] at failed
      cases failed
      exact noAssert taken
    | ok next =>
      rw [taken] at failed
      cases failed
  · obtain ⟨after, taken, same⟩ := bind_ok.mp done
    cases same
    obtain ⟨invToo, stillHeld⟩ := kept next taken
    have held := fd_of_opens.mpr opens
    have idle : io.starting[connId]? = none := by
      have entry := inv.mirrors.lookup held
      rw [watched] at entry
      cases starts : io.starting[connId]? with
      | none => rfl
      | some call =>
        simp only [wants, starts] at entry
        split at entry
        · cases entry
        · cases entry
    rcases stillHeld connId fd held idle with ⟨heldToo, idleToo⟩ | gone
    · refine ⟨fd_of_opens.mp heldToo, ?_⟩
      rw [invToo.mirrors.lookup heldToo, wants, idleToo]
    · rw [fd_of_opens.mpr stays] at gone
      cases gone
  · obtain ⟨after, taken, same⟩ := bind_ok.mp done
    cases same
    exact (kept next taken).1

/-- In every run in which no connection is closed between its two registrations,
the asserts on the driver hold, the events of a connection stay as long as it is
open, and the registry tracks the open sockets. -/
theorem registry_tracks_open_sockets (events : List Step) (free : EveryStep NetIo.step HandsOutFree .new events)
    (undisturbed : EveryStep NetIo.step Undisturbed .new events) :
    EveryStep NetIo.step (fun io event => io.step event ≠ .error .registry ∧ Spares io event) .new events ∧
    ∀ final outputs, run NetIo.step .new events = .ok (final, outputs) → Tracks final := by
  have meets := every_step_and free undisturbed
  constructor
  · apply every_step_of_invariant Inv ?_ ?_ inv_new meets
    · intro io event next output inv ⟨free, undisturbed⟩ done
      exact (step_safe inv free undisturbed).2.2 next output done
    · intro io event inv ⟨free, undisturbed⟩
      obtain ⟨noAssert, spares, _⟩ := step_safe inv free undisturbed
      exact ⟨noAssert, spares⟩
  · intro final outputs ran
    apply tracks_of_inv
    apply run_history (fun io _ => Inv io) ?_ inv_new meets ran
    intro io _ event next output inv ⟨free, undisturbed⟩ done
    exact (step_safe inv free undisturbed).2.2 next output done

def someone (fd : Nat) : Client := ⟨.ascii "10.0.0.2", 40000, fd, true⟩

/-- A client goes and is reported twice; the next one gets its descriptor while
the reports still wait. -/
def reusedDescriptor : List Step :=
  [.startListen (.ascii "0.0.0.0") 7788 (.done 3), .accept 0 (some (someone 4)), .net .plenty, .regist 0, .regist 0,
    .read 0 [.fin], .read 0 [.fin], .accept 0 (some (someone 4)), .net .plenty, .net .plenty, .net .plenty, .regist 1,
    .regist 1]

theorem a_reused_descriptor_is_tracked :
    EveryStep NetIo.step (fun io event => io.step event ≠ .error .registry ∧ Spares io event) .new reusedDescriptor ∧
    (∀ final outputs, run NetIo.step .new reusedDescriptor = .ok (final, outputs) → Tracks final) ∧
    (run NetIo.step .new reusedDescriptor).toOption.map (fun reply => reply.1.driver.mEventsInfo[(4 : Int)]?) =
      some (some (.both (.connection 1))) := by
  obtain ⟨steps, tracks⟩ :=
    registry_tracks_open_sockets reusedDescriptor (by decide +kernel) (by decide +kernel)
  exact ⟨steps, tracks, by decide +kernel⟩

/-- The client has gone before its connection is registered for writing. -/
def hastyClient : List Step :=
  [.startListen (.ascii "0.0.0.0") 7788 (.done 3), .accept 0 (some (someone 4)), .net .plenty, .regist 0, .read 0 [.fin]]

/-- The driver reads from it, and `Close` asserts on the write event. -/
theorem a_hasty_client_stops_the_driver : ¬ ∀ events, EveryStep NetIo.step HandsOutFree .new events →
    EveryStep NetIo.step (fun io event => io.step event ≠ .error .registry ∧ Spares io event) .new events ∧
    ∀ final outputs, run NetIo.step .new events = .ok (final, outputs) → Tracks final := by
  intro claimed
  obtain ⟨steps, _⟩ := claimed hastyClient (by decide +kernel)
  have never := run_never (every_step_mono (fun _ _ both => both.1) steps)
  have asserts : (match run NetIo.step .new hastyClient with
      | .error .registry => true
      | _ => false) = true := by decide +kernel
  split at asserts
  next stops => exact never stops
  next => cases asserts

end ChatRoom.EventRegistry
