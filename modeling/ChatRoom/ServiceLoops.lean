import ChatRoom.DropReporting

/-! The loops of the net service and the worker. A loop takes all of its queue at
once, and then processes the contexts of this batch one after the other, while
the other threads append to the queue. `SendMsg` and `OP_DROP` of the net service
consist of two steps each, between which the driver may call `ReadData` and
`WriteData`; `SendMessage` of the worker enqueues one context at a time. -/
namespace ChatRoom
open Lib

/-- Where the net service is in `Process`. -/
inductive NetPhase where
  /-- Before a context. -/
  | idle
  /-- `SendMsg` has put a message into the connection, and calls `WriteData`. -/
  | writing (connId : UInt64)
  /-- The worker is told, and `DropConnection` is called. -/
  | dropping (connId : UInt64)
  deriving DecidableEq

structure ServiceLoops where
  net : NetService
  netBatch : List OperContext
  netPhase : NetPhase
  keeper : RoomKeeper
  workerQueue : List OperContext
  workerBatch : List OperContext
  /-- What the context that the worker is at has yet to send. -/
  workerReplies : List OperContext

/-- A message that `SendMsg` has put into the queue of a connection. -/
structure Appended where
  /-- The connection that it is addressed to. -/
  connId : UInt64
  /-- The id that the connection was accepted with. -/
  mConnID : UInt64
  msg : Msg
  deriving DecidableEq

/-- What is noted of a step. -/
structure Noted where
  /-- The ids of new connections. -/
  opened : List UInt64 := []
  /-- What `ReadData` and `WriteData` enqueue. -/
  enqueued : List OperContext := []
  /-- What the net service enqueues to the worker. -/
  handed : List OperContext := []
  /-- What the worker is through with. -/
  processed : List OperContext := []
  /-- What `SendMessage` enqueues. -/
  addressed : List OperContext := []
  appended : List Appended := []
  deriving DecidableEq

namespace Noted

def append (first second : Noted) : Noted where
  opened := first.opened ++ second.opened
  enqueued := first.enqueued ++ second.enqueued
  handed := first.handed ++ second.handed
  processed := first.processed ++ second.processed
  addressed := first.addressed ++ second.addressed
  appended := first.appended ++ second.appended

/-- What is noted of a whole run. -/
def all (outputs : List Noted) : Noted := outputs.foldl append {}

theorem all_snoc (outputs : List Noted) (noted : Noted) : all (outputs ++ [noted]) = (all outputs).append noted := by
  rw [all, List.foldl_append]
  rfl

end Noted

namespace ServiceLoops
open WorkerContexts

def new : ServiceLoops where
  net := .new
  netBatch := []
  netPhase := .idle
  keeper := .new
  workerQueue := []
  workerBatch := []
  workerReplies := []

/-- What one of the threads does next. -/
inductive Event where
  /-- The accepter has a new client. -/
  | accept (ip : StdString) (port : UInt16) (fd : Nat)
  /-- The driver calls `ReadData`. -/
  | read (connId : UInt64) (arrivals : List Arrival)
  /-- The driver calls `WriteData`. -/
  | write (connId : UInt64) (answer : Sendable)
  /-- The net service takes its queue, once its batch is done. -/
  | takeNet
  /-- The net service goes on; the answer is for a `WriteData` that it calls. -/
  | net (answer : Sendable)
  /-- The worker takes its queue, once its batch is done. -/
  | takeWorker
  /-- The worker goes on. -/
  | worker

variable (loops : ServiceLoops)

def readData (connId : UInt64) (arrivals : List Arrival) : Except Fault (ServiceLoops × Noted) := do
  let conn ← loops.net.connection connId
  let result ← conn.readData true arrivals
  return ({ loops with net := loops.net.changed connId result.conn result.enqueued }, { enqueued := result.enqueued })

def writeData (connId : UInt64) (answer : Sendable) : Except Fault (ServiceLoops × Noted) := do
  let conn ← loops.net.connection connId
  let result ← conn.writeData true answer
  return ({ loops with net := loops.net.changed connId result.conn result.enqueued }, { enqueued := result.enqueued })

/-- The first half of `Process` of the net service; a message for a connection
that is gone is deleted. -/
def netBegin (rest : List OperContext) : OperContext → Except Fault (ServiceLoops × Noted)
  | .accept clientSocket => do
    let net ← loops.net.acceptConnection clientSocket
    return ({ loops with net, netBatch := rest }, { opened := [loops.net.mMaxID] })
  | .recv msg connId ip port =>
    .ok ({ loops with netBatch := rest, workerQueue := loops.workerQueue ++ [.recv msg connId ip port] },
      { handed := [.recv msg connId ip port] })
  | .send connId msg =>
    match loops.net.mConns[connId]? with
    | none => .ok ({ loops with netBatch := rest }, {})
    | some conn =>
      .ok ({ loops with
          net := loops.net.changed connId (conn.enqueue msg) []
          netBatch := rest
          netPhase := .writing connId },
        { appended := [⟨connId, conn.mConnID, msg⟩] })
  | .drop connId =>
    .ok ({ loops with
        netBatch := rest
        netPhase := .dropping connId
        workerQueue := loops.workerQueue ++ [.drop connId] },
      { handed := [.drop connId] })

def netStep (answer : Sendable) : Except Fault (ServiceLoops × Noted) :=
  match loops.netPhase with
  | .writing connId => { loops with netPhase := .idle }.writeData connId answer
  | .dropping connId => .ok ({ loops with net := loops.net.dropConnection connId, netPhase := .idle }, {})
  | .idle =>
    match loops.netBatch with
    | [] => .ok (loops, {})
    | ctx :: rest => loops.netBegin rest ctx

def workerStep (host : Host) : Except Fault (ServiceLoops × Noted) :=
  match loops.workerReplies with
  | ctx :: rest =>
    .ok ({ loops with workerQueue := loops.workerQueue ++ [ctx], workerReplies := rest }, { addressed := [ctx] })
  | [] =>
    match loops.workerBatch with
    | [] => .ok (loops, {})
    | ctx :: rest => do
      let result ← Worker.process host loops.keeper ctx
      return ({ loops with
          net := { loops.net with mQueue := loops.net.mQueue ++ result.net }
          keeper := result.keeper
          workerBatch := rest
          workerReplies := result.own },
        { processed := [ctx] })

def takeNet : ServiceLoops :=
  if loops.netBatch = [] ∧ loops.netPhase = .idle then
    { loops with net := { loops.net with mQueue := [] }, netBatch := loops.net.mQueue }
  else loops

def takeWorker : ServiceLoops :=
  if loops.workerBatch = [] ∧ loops.workerReplies = [] then
    { loops with workerQueue := [], workerBatch := loops.workerQueue }
  else loops

def step (host : Host) (loops : ServiceLoops) : Event → Except Fault (ServiceLoops × Noted)
  | .accept ip port fd =>
    .ok ({ loops with net := { loops.net with mQueue := loops.net.mQueue ++ [.accept (.accepted ip port fd)] } }, {})
  | .read connId arrivals => loops.readData connId arrivals
  | .write connId answer => loops.writeData connId answer
  | .takeNet => .ok (loops.takeNet, {})
  | .net answer => loops.netStep answer
  | .takeWorker => .ok (loops.takeWorker, {})
  | .worker => loops.workerStep host

/-! ### What a step can do -/

/-- Everything that a step can do, as long as connections are settled. -/
inductive Step (host : Host) (loops : ServiceLoops) : ServiceLoops → Noted → Prop where
  | wait : Step host loops loops {}
  | arrive (ip : StdString) (port : UInt16) (fd : Nat) :
    Step host loops
      { loops with net := { loops.net with mQueue := loops.net.mQueue ++ [.accept (.accepted ip port fd)] } } {}
  | call {connId : UInt64} {conn next : TcpConnection} {enqueued : List OperContext} (netPhase : NetPhase)
      (known : loops.net.mConns[connId]? = some conn) (called : conn.Called next enqueued) :
    Step host loops { loops with net := loops.net.changed connId next enqueued, netPhase } { enqueued }
  | takeNet (done : loops.netBatch = []) :
    Step host loops { loops with net := { loops.net with mQueue := [] }, netBatch := loops.net.mQueue } {}
  | takeWorker (done : loops.workerBatch = []) :
    Step host loops { loops with workerQueue := [], workerBatch := loops.workerQueue } {}
  | accept {socket : TcpSocket} {rest : List OperContext} (batch : loops.netBatch = .accept socket :: rest) :
    Step host loops
      { loops with
        net := { loops.net with
          mMaxID := loops.net.mMaxID + 1
          mConns := loops.net.mConns.insert loops.net.mMaxID (.new socket loops.net.mMaxID) }
        netBatch := rest }
      { opened := [loops.net.mMaxID] }
  | forward {msg : Msg} {connId : UInt64} {ip : StdString} {port : UInt16} {rest : List OperContext}
      (batch : loops.netBatch = .recv msg connId ip port :: rest) :
    Step host loops
      { loops with netBatch := rest, workerQueue := loops.workerQueue ++ [.recv msg connId ip port] }
      { handed := [.recv msg connId ip port] }
  | miss {connId : UInt64} {msg : Msg} {rest : List OperContext} (batch : loops.netBatch = .send connId msg :: rest)
      (absent : loops.net.mConns[connId]? = none) : Step host loops { loops with netBatch := rest } {}
  | append {connId : UInt64} {msg : Msg} {rest : List OperContext} {conn : TcpConnection}
      (batch : loops.netBatch = .send connId msg :: rest) (known : loops.net.mConns[connId]? = some conn) :
    Step host loops
      { loops with
        net := loops.net.changed connId (conn.enqueue msg) []
        netBatch := rest
        netPhase := .writing connId }
      { appended := [⟨connId, conn.mConnID, msg⟩] }
  | report {connId : UInt64} {rest : List OperContext} (batch : loops.netBatch = .drop connId :: rest) :
    Step host loops
      { loops with
        netBatch := rest
        netPhase := .dropping connId
        workerQueue := loops.workerQueue ++ [.drop connId] }
      { handed := [.drop connId] }
  | erase (connId : UInt64) :
    Step host loops { loops with net := loops.net.dropConnection connId, netPhase := .idle } {}
  | reply {ctx : OperContext} {rest : List OperContext} (replies : loops.workerReplies = ctx :: rest) :
    Step host loops
      { loops with workerQueue := loops.workerQueue ++ [ctx], workerReplies := rest } { addressed := [ctx] }
  | work {ctx : OperContext} {rest : List OperContext} {result : Worker.Processed} (silent : loops.workerReplies = [])
      (batch : loops.workerBatch = ctx :: rest) (done : Worker.process host loops.keeper ctx = .ok result) :
    Step host loops
      { loops with
        net := { loops.net with mQueue := loops.net.mQueue ++ result.net }
        keeper := result.keeper
        workerBatch := rest
        workerReplies := result.own }
      { processed := [ctx] }

variable {loops} {host : Host} {next : ServiceLoops} {noted : Noted}

private theorem net_begin_cases {rest : List OperContext} {ctx : OperContext} (batch : loops.netBatch = ctx :: rest)
    (done : loops.netBegin rest ctx = .ok (next, noted)) : Step host loops next noted := by
  cases ctx with
  | accept socket =>
    obtain ⟨net, accepted, same⟩ := bind_ok.mp done
    cases same
    rw [NetService.acceptConnection] at accepted
    split at accepted
    · contradiction
    · cases accepted
      exact .accept batch
  | recv msg connId ip port =>
    cases done
    exact .forward batch
  | send connId msg =>
    rw [netBegin] at done
    cases known : loops.net.mConns[connId]? with
    | none =>
      rw [known] at done
      cases done
      exact .miss batch known
    | some conn =>
      rw [known] at done
      cases done
      exact .append batch known
  | drop connId =>
    cases done
    exact .report batch

theorem step_cases {event : Event}
    (settled : ∀ (connId : UInt64) (conn : TcpConnection), loops.net.mConns[connId]? = some conn → conn.Settled)
    (done : step host loops event = .ok (next, noted)) : Step host loops next noted := by
  have wrote : ∀ {connId answer netPhase}, { loops with netPhase }.writeData connId answer = .ok (next, noted) →
      Step host loops next noted := by
    intro connId answer netPhase done
    obtain ⟨conn, known, rest⟩ := bind_ok.mp done
    obtain ⟨result, written, same⟩ := bind_ok.mp rest
    cases same
    have known := NetService.connection_ok.mp known
    exact .call netPhase known (TcpConnection.called_write (settled connId conn known) written)
  cases event with
  | accept ip port fd =>
    cases done
    exact .arrive ip port fd
  | read connId arrivals =>
    obtain ⟨conn, known, rest⟩ := bind_ok.mp done
    obtain ⟨result, read, same⟩ := bind_ok.mp rest
    cases same
    have known := NetService.connection_ok.mp known
    exact .call loops.netPhase known (TcpConnection.called_read (settled connId conn known) read)
  | write connId answer => exact wrote done
  | takeNet =>
    cases done
    rw [takeNet]
    split
    next idle => exact .takeNet idle.1
    next => exact .wait
  | net answer =>
    simp only [step, netStep] at done
    split at done
    · exact wrote done
    · cases done
      exact .erase _
    · split at done
      · cases done
        exact .wait
      next batch => exact net_begin_cases batch done
  | takeWorker =>
    cases done
    rw [takeWorker]
    split
    next idle => exact .takeWorker idle.1
    next => exact .wait
  | worker =>
    simp only [step, workerStep] at done
    split at done
    next replies =>
      cases done
      exact .reply replies
    next silent =>
      split at done
      · cases done
        exact .wait
      next batch =>
        obtain ⟨result, processed, same⟩ := bind_ok.mp done
        cases same
        exact .work silent batch processed

/-! ### Ids -/

/-- What the two services have before them, what is sent first in front. -/
def waiting (loops : ServiceLoops) : List OperContext :=
  loops.netBatch ++ loops.net.mQueue ++ loops.workerBatch ++ loops.workerQueue

/-- The ids that are taken: the ones below the next. -/
structure Issued (mMaxID : UInt64) (opened : List UInt64) : Prop where
  count : mMaxID.toNat = opened.length
  below : ∀ connId ∈ opened, connId < mMaxID
  once : opened.Nodup

/-- All that is known of a connection has an id that is taken. -/
structure LoopsInv (loops : ServiceLoops) (log : Noted) : Prop where
  rooms : RoomKeeperInvariant.Inv loops.keeper
  issued : Issued loops.net.mMaxID log.opened
  conns : ∀ (connId : UInt64) (conn : TcpConnection), loops.net.mConns[connId]? = some conn →
    conn.mConnID = connId ∧ connId < loops.net.mMaxID ∧ conn.Settled
  users : ∀ userId ∈ loops.keeper.mIdUser, userId < loops.net.mMaxID
  known : ∀ ctx ∈ loops.waiting ++ loops.workerReplies, ∀ connId, about ctx = some connId →
    connId < loops.net.mMaxID
  fresh : ∀ socket, .accept socket ∈ loops.netBatch ++ loops.net.mQueue → socket.noOK = false
  replies : ∀ ctx ∈ loops.workerReplies, ∃ connId msg, ctx = .send connId msg

variable {log : Noted} {mMaxID : UInt64} {opened : List UInt64}

theorem LoopsInv.settled (inv : LoopsInv loops log) (connId : UInt64) (conn : TcpConnection)
    (known : loops.net.mConns[connId]? = some conn) : conn.Settled := (inv.conns connId conn known).2.2

theorem issued_next (issued : Issued mMaxID opened) (few : (opened ++ [mMaxID]).length < 2 ^ 64) :
    mMaxID < mMaxID + 1 ∧ Issued (mMaxID + 1) (opened ++ [mMaxID]) := by
  have count := issued.count
  rw [List.length_append, List.length_singleton] at few
  have next : (mMaxID + 1).toNat = mMaxID.toNat + 1 := by
    rw [UInt64.toNat_add, UInt64.toNat_one, Nat.mod_eq_of_lt (by omega)]
  have above : mMaxID < mMaxID + 1 := by
    rw [UInt64.lt_iff_toNat_lt, next]
    exact Nat.lt_succ_self _
  refine ⟨above, by rw [next, count, List.length_append, List.length_singleton], fun connId inside => ?_, ?_⟩
  · rcases List.mem_append.mp inside with before | last
    · exact UInt64.lt_trans (issued.below connId before) above
    · rw [List.mem_singleton.mp last]
      exact above
  · refine List.nodup_append.mpr ⟨issued.once, List.pairwise_singleton _ _, fun connId before other last same => ?_⟩
    rw [same, List.mem_singleton.mp last] at before
    exact UInt64.lt_irrefl _ (issued.below _ before)

theorem issued_step (issued : Issued loops.net.mMaxID log.opened) (few : (log.append noted).opened.length < 2 ^ 64)
    (taken : Step host loops next noted) :
    loops.net.mMaxID ≤ next.net.mMaxID ∧ Issued next.net.mMaxID (log.append noted).opened := by
  cases taken with
  | accept batch =>
    obtain ⟨above, issued⟩ := issued_next issued few
    exact ⟨UInt64.le_of_lt above, issued⟩
  | _ =>
    refine ⟨UInt64.le_refl _, ?_⟩
    simp only [Noted.append, List.append_nil]
    exact issued

private theorem conns_step (inv : LoopsInv loops log) (few : (log.append noted).opened.length < 2 ^ 64)
    (taken : Step host loops next noted) (probe : UInt64) (found : TcpConnection)
    (stored : next.net.mConns[probe]? = some found) :
    found.mConnID = probe ∧ probe < next.net.mMaxID ∧ found.Settled := by
  have changed : ∀ {connId : UInt64} {conn after : TcpConnection} {enqueued : List OperContext},
      loops.net.mConns[connId]? = some conn → after.mConnID = conn.mConnID → after.Settled →
      (loops.net.changed connId after enqueued).mConns[probe]? = some found →
      found.mConnID = probe ∧ probe < loops.net.mMaxID ∧ found.Settled := by
    intro connId conn after enqueued known id settled held
    rw [NetService.changed_lookup] at held
    split at held
    next same =>
      subst same
      cases held
      obtain ⟨own, old, _⟩ := inv.conns connId conn known
      exact ⟨id.trans own, old, settled⟩
    next => exact inv.conns probe found held
  cases taken with
  | call netPhase known called => exact changed known called.id called.settled stored
  | @append _ msg _ conn batch known =>
    have settled : (conn.enqueue msg).Settled := TcpConnection.settled_enqueue (inv.conns _ conn known).2.2
    have id : (conn.enqueue msg).mConnID = conn.mConnID := rfl
    exact changed known id settled stored
  | @accept socket rest batch =>
    obtain ⟨above, _⟩ := issued_next inv.issued few
    simp only [Std.ExtTreeMap.getElem?_insert, Std.LawfulEqCmp.compare_eq_iff_eq] at stored
    split at stored
    next same =>
      subst same
      cases stored
      have working := inv.fresh socket (by rw [batch]; exact List.mem_cons_self)
      exact ⟨rfl, above, TcpConnection.settled_new working⟩
    next =>
      obtain ⟨own, old, settled⟩ := inv.conns probe found stored
      exact ⟨own, UInt64.lt_trans old above, settled⟩
  | erase connId =>
    rw [NetService.erased_lookup] at stored
    split at stored
    · contradiction
    · exact inv.conns probe found stored
  | _ => exact inv.conns probe found stored

private theorem users_step (inv : LoopsInv loops log) (taken : Step host loops next noted) (userId : UInt64)
    (online : userId ∈ next.keeper.mIdUser) : userId < loops.net.mMaxID := by
  cases taken with
  | @work ctx rest result silent batch done =>
    rcases (process_worked inv.rooms done).users userId online with ⟨before, _⟩ | ⟨msg, ip, port, rfl⟩
    · exact inv.users userId before
    · exact inv.known (.recv msg userId ip port) (by simp [waiting, batch]) userId rfl
  | _ => exact inv.users userId online

/-- A context that is new is about no connection, or about one that is known. -/
private theorem known_step (inv : LoopsInv loops log) (taken : Step host loops next noted) (connId : UInt64)
    (users : ∀ userId ∈ next.keeper.mIdUser, userId < loops.net.mMaxID) (ctx : OperContext)
    (inside : ctx ∈ next.waiting ++ next.workerReplies) (mention : about ctx = some connId) :
    connId < loops.net.mMaxID := by
  have before := fun inside => inv.known ctx inside connId mention
  simp only [waiting, List.mem_append] at before inside
  cases taken with
  | wait => exact before inside
  | arrive ip port fd =>
    have other : ctx ≠ .accept (.accepted ip port fd) := by
      rintro rfl
      contradiction
    simp only [List.mem_append, List.mem_singleton] at inside
    exact before (by tauto)
  | @call _ conn after enqueued netPhase known called =>
    by_cases new : ctx ∈ enqueued
    · obtain ⟨own, old, _⟩ := inv.conns _ conn known
      have same : connId = conn.mConnID := by
        rcases called.enqueues new with ⟨_, msg, ip, port, rfl⟩ | ⟨_, rfl⟩
        · exact (Option.some.inj mention).symm
        · exact (Option.some.inj mention).symm
      rw [same, own]
      exact old
    · simp only [NetService.changed, List.mem_append] at inside
      exact before (by tauto)
  | takeNet done =>
    simp only [List.not_mem_nil] at inside
    exact before (by tauto)
  | takeWorker done =>
    simp only [List.not_mem_nil] at inside
    exact before (by tauto)
  | append batch known =>
    simp only [NetService.changed, List.append_nil] at inside
    simp only [batch, List.mem_cons] at before
    exact before (by tauto)
  | erase connId => exact before inside
  | reply replies =>
    simp only [List.mem_append, List.mem_singleton] at inside
    simp only [replies, List.mem_cons] at before
    exact before (by tauto)
  | @work first rest result silent batch done =>
    have worked := process_worked inv.rooms done
    simp only [batch, List.mem_cons] at before
    simp only [List.mem_append] at inside
    by_cases new : ctx ∈ result.own
    · obtain ⟨addressee, msg, rfl, asked | online⟩ := worked.replies ctx new
      · exact inv.known first (by simp [waiting, batch]) connId (asked.trans mention)
      · cases mention
        exact users _ online
    · have passed : ctx ∈ result.net → ctx = first := by
        rcases worked.passed with ⟨_, _, _, passed⟩ | ⟨_, passed⟩
        · rw [passed]
          exact List.mem_singleton.mp
        · rw [passed]
          exact fun inside => absurd inside List.not_mem_nil
      exact before (by tauto)
  | accept batch | forward batch | miss batch absent | report batch =>
    simp only [List.mem_append, List.mem_singleton] at inside
    simp only [batch, List.mem_cons] at before
    exact before (by tauto)

private theorem fresh_step (inv : LoopsInv loops log) (taken : Step host loops next noted) (socket : TcpSocket)
    (inside : .accept socket ∈ next.netBatch ++ next.net.mQueue) : socket.noOK = false := by
  have before := inv.fresh socket
  cases taken with
  | arrive ip port fd =>
    rw [← List.append_assoc] at inside
    rcases List.mem_append.mp inside with earlier | last
    · exact before earlier
    · cases List.mem_singleton.mp last
      rfl
  | call netPhase stored called =>
    simp only [NetService.changed] at inside
    rw [← List.append_assoc] at inside
    exact before ((List.mem_append.mp inside).resolve_right (DropReporting.called_accepts called))
  | takeNet done =>
    rw [List.append_nil] at inside
    exact before (List.mem_append_right _ inside)
  | append batch known =>
    simp only [NetService.changed, List.append_nil] at inside
    rw [batch] at before
    exact before (List.mem_cons_of_mem _ inside)
  | work silent batch done =>
    rw [← List.append_assoc] at inside
    refine before ((List.mem_append.mp inside).resolve_right ?_)
    rcases (process_worked inv.rooms done).passed with ⟨_, _, rfl, passed⟩ | ⟨_, passed⟩
    · simp [passed]
    · simp [passed]
  | accept batch | forward batch | miss batch absent | report batch =>
    rw [batch] at before
    exact before (List.mem_cons_of_mem _ inside)
  | wait | takeWorker done | erase connId | reply replies => exact before inside

theorem step_keeps (inv : LoopsInv loops log) (few : (log.append noted).opened.length < 2 ^ 64)
    (taken : Step host loops next noted) : LoopsInv next (log.append noted) := by
  obtain ⟨later, issued⟩ := issued_step inv.issued few taken
  have users := users_step inv taken
  refine ⟨?_, issued, conns_step inv few taken, fun userId online => UInt64.lt_of_lt_of_le (users userId online) later,
    fun ctx inside connId mention => UInt64.lt_of_lt_of_le (known_step inv taken connId users ctx inside mention) later,
    fresh_step inv taken, ?_⟩
  · cases taken with
    | work silent batch done => exact (process_worked inv.rooms done).rooms
    | _ => exact inv.rooms
  · cases taken with
    | reply replies => exact fun ctx inside => inv.replies ctx (by rw [replies]; exact List.mem_cons_of_mem _ inside)
    | work silent batch done =>
      intro ctx inside
      obtain ⟨connId, msg, same, _⟩ := (process_worked inv.rooms done).replies ctx inside
      exact ⟨connId, msg, same⟩
    | _ => exact inv.replies

theorem inv_new : LoopsInv new {} where
  rooms := RoomKeeperInvariant.inv_new
  issued := ⟨rfl, (fun _ inside => nomatch inside), List.nodup_nil⟩
  conns := fun _ _ stored => nomatch stored
  users := fun userId online => by
    obtain ⟨user, known⟩ := RoomKeeperInvariant.mem_users.mp online
    rw [show new.keeper = RoomKeeper.new from rfl, RoomKeeperInvariant.new_has_no_users] at known
    contradiction
  known := fun _ inside => nomatch inside
  fresh := fun _ inside => nomatch inside
  replies := fun _ inside => nomatch inside

variable {events : List Event} {final : ServiceLoops} {outputs : List Noted}

/-- What every step preserves of the state and of what was noted so far, as long
as the ids do not start again. -/
theorem run_steps_noted (Holds : ServiceLoops → Noted → Prop) (start : Holds new {})
    (preserved : ∀ loops log event next noted, LoopsInv loops log → Holds loops log →
      (log.append noted).opened.length < 2 ^ 64 → step host loops event = .ok (next, noted) →
      Holds next (log.append noted))
    (ran : run (step host) new events = .ok (final, outputs)) (few : (Noted.all outputs).opened.length < 2 ^ 64) :
    LoopsInv final (Noted.all outputs) ∧ Holds final (Noted.all outputs) := by
  have history := run_history_always
    (fun loops seen => (Noted.all (seen.map Prod.snd)).opened.length < 2 ^ 64 →
      LoopsInv loops (Noted.all (seen.map Prod.snd)) ∧ Holds loops (Noted.all (seen.map Prod.snd)))
    (fun loops seen event next noted held done few => ?_) (fun _ => ⟨inv_new, start⟩) ran
  · rw [List.map_snd_zip (Nat.le_of_eq (run_length ran))] at history
    exact history few
  · rw [List.map_append, List.map_singleton, Noted.all_snoc] at few ⊢
    obtain ⟨inv, holds⟩ := held (by simp only [Noted.append, List.length_append] at few; omega)
    have taken := step_cases inv.settled done
    exact ⟨step_keeps inv few taken, preserved loops _ event next noted inv holds few done⟩

theorem run_noted (Holds : ServiceLoops → Noted → Prop) (start : Holds new {})
    (preserved : ∀ loops log next noted, LoopsInv loops log → Holds loops log →
      (log.append noted).opened.length < 2 ^ 64 → Step host loops next noted → Holds next (log.append noted))
    (ran : run (step host) new events = .ok (final, outputs)) (few : (Noted.all outputs).opened.length < 2 ^ 64) :
    LoopsInv final (Noted.all outputs) ∧ Holds final (Noted.all outputs) :=
  run_steps_noted Holds start
    (fun loops log _ next noted inv holds few done =>
      preserved loops log next noted inv holds few (step_cases inv.settled done))
    ran few

end ServiceLoops
end ChatRoom
