import ChatRoom.WorkerContexts
import ChatRoom.ConnectionCalls
import ChatRoom.Lib.Followed

/-! Connections that end are reported. The report goes from the connection to
the queue of the net service, from there to the queue of the worker, and behind
everything that was received before it; so when both queues are empty, only
connections that are open are known, and only their users. A connection that
rejects a length is the exception: it ends without a report. -/
namespace ChatRoom.DropReporting
open Lib RoomKeeperInvariant NetService WorkerContexts

variable {keeper nextKeeper : RoomKeeper} {sent : List Sent} {connId userId : UInt64}

/-! ### The connections and the queue of the net service -/

/-- The connection that a context was received from. -/
def receivedFrom : OperContext → Option UInt64
  | .recv _ connId _ _ => some connId
  | .accept _ => none
  | .send _ _ => none
  | .drop _ => none

/-- Neither received nor a report. -/
def Quiet (ctx : OperContext) : Prop := receivedFrom ctx = none ∧ ∀ connId, .drop connId ≠ ctx

variable {net : NetService} {conn next : TcpConnection} {ctx : OperContext} {enqueued rest : List OperContext}
  {answer : Sendable} {arrivals : List Arrival}

/-- What holds of a connection of the net service. Where it is reported already,
nothing more is received from it. -/
structure Tracked (net : NetService) (connId : UInt64) (conn : TcpConnection) : Prop where
  id : conn.mConnID = connId
  old : connId < net.mMaxID
  settled : conn.Settled
  reported : conn.mClosed = true → .drop connId ∈ net.mQueue
  silent : .drop connId ∈ net.mQueue → conn.mSocket.noOK = true

structure NetInv (net : NetService) : Prop where
  conns : ∀ connId conn, net.mConns[connId]? = some conn → Tracked net connId conn
  old : ∀ connId, .drop connId ∈ net.mQueue → connId < net.mMaxID
  order : NoneBehind receivedFrom .drop net.mQueue
  fresh : ∀ socket, .accept socket ∈ net.mQueue → socket.noOK = false

/-- What a call does to a connection, as the net service sees it. -/
structure Effect (conn next : TcpConnection) (enqueued : List OperContext) : Prop where
  id : next.mConnID = conn.mConnID
  settled : next.Settled
  outcome : (next.mClosed = conn.mClosed ∧ next.mSocket.noOK = conn.mSocket.noOK ∧
      (enqueued = [] ∨ conn.mSocket.noOK = false ∧ ∃ msg ip port, enqueued = [.recv msg conn.mConnID ip port])) ∨
    next.mSocket.noOK = true ∧ enqueued = [.drop conn.mConnID]

theorem read_effect {result : ReadResult} (settled : conn.Settled)
    (done : conn.readData true arrivals = .ok result) (accepted : ¬ conn.RejectedNext arrivals) :
    Effect conn result.conn result.enqueued := by
  have after := TcpConnection.settled_read settled done
  rcases TcpConnection.read_data_outcomes settled done with
    ⟨working, ⟨_, _, _, _, same⟩, _, received⟩ | ⟨fails, reported⟩ | ⟨rejected, _⟩
  · refine ⟨by rw [same], after, .inl ⟨by rw [same], by rw [same]; rfl, ?_⟩⟩
    rcases received with none | ⟨msg, handed⟩
    · exact .inl none
    · exact .inr ⟨working, msg, _, _, handed⟩
  · exact ⟨fails.id, after, .inr ⟨fails.dead, reported⟩⟩
  · exact absurd rejected accepted

theorem write_effect {result : WriteResult} (settled : conn.Settled)
    (done : conn.writeData true answer = .ok result) : Effect conn result.conn result.enqueued := by
  have after := TcpConnection.settled_write settled done
  rcases TcpConnection.write_data_cases done with ⟨none, _, _, _, _, same⟩ | ⟨_, reported, _, id, _, dead⟩
  · exact ⟨by rw [same], after, .inl ⟨by rw [same], by rw [same], .inl none⟩⟩
  · exact ⟨id, after, .inr ⟨dead, reported⟩⟩

theorem enqueue_effect (settled : conn.Settled) (msg : Msg) : Effect conn (conn.enqueue msg) [] :=
  ⟨rfl, TcpConnection.settled_enqueue settled, .inl ⟨rfl, rfl, .inl rfl⟩⟩

theorem Effect.called (effect : Effect conn next enqueued) : conn.Called next enqueued := by
  refine ⟨effect.id, effect.settled, fun dead => ?_, ?_⟩
  · rcases effect.outcome with ⟨_, still, _⟩ | ⟨ended, _⟩
    · exact still.trans dead
    · exact ended
  · rcases effect.outcome with ⟨_, _, none | received⟩ | reported
    · exact .inl none
    · exact .inr (.inl received)
    · exact .inr (.inr reported)

/-- A report that is new is the one for this connection. -/
theorem called_drops (called : conn.Called next enqueued) (inside : .drop connId ∈ enqueued) :
    connId = conn.mConnID ∧ next.mSocket.noOK = true := by
  rcases called.enqueues inside with ⟨_, msg, ip, port, same⟩ | ⟨dead, same⟩
  · contradiction
  · cases same
    exact ⟨rfl, dead⟩

theorem called_accepts {socket : TcpSocket} (called : conn.Called next enqueued) : .accept socket ∉ enqueued := by
  intro inside
  rcases called.enqueues inside with ⟨_, msg, ip, port, same⟩ | ⟨_, same⟩
  · contradiction
  · contradiction

/-- What is received comes from this connection, and it is not reported. -/
theorem called_receives (called : conn.Called next enqueued) (inside : ctx ∈ enqueued)
    (received : receivedFrom ctx = some connId) : connId = conn.mConnID ∧ conn.mSocket.noOK = false := by
  rcases called.enqueues inside with ⟨working, msg, ip, port, rfl⟩ | ⟨_, rfl⟩
  · cases received
    exact ⟨rfl, working⟩
  · contradiction

theorem net_changed (inv : NetInv net) (known : net.mConns[connId]? = some conn)
    (effect : Effect conn next enqueued) : NetInv (net.changed connId next enqueued) := by
  have tracked := inv.conns connId conn known
  have own := tracked.id
  refine ⟨fun probe found stored => ?_, fun probe dropped => ?_, ?_, fun socket accepted => ?_⟩
  · rw [changed_lookup] at stored
    by_cases same : connId = probe
    · rw [if_pos same] at stored
      cases stored
      subst same
      refine ⟨effect.id.trans own, tracked.old, effect.settled, fun closed => ?_, fun dropped => ?_⟩
      · rcases effect.outcome with ⟨still, _, _⟩ | ⟨_, reported⟩
        · exact List.mem_append_left _ (tracked.reported (still.symm.trans closed))
        · exact List.mem_append_right _ (by rw [reported, own]; exact List.mem_singleton_self _)
      · rcases effect.outcome with ⟨_, still, none | ⟨_, msg, ip, port, received⟩⟩ | ⟨dead, _⟩
        · rw [still]
          exact tracked.silent (by simpa [NetService.changed, none] using dropped)
        · rw [still]
          exact tracked.silent (by simpa [NetService.changed, received] using dropped)
        · exact dead
    · rw [if_neg same] at stored
      have before := inv.conns probe found stored
      refine ⟨before.id, before.old, before.settled, fun closed => List.mem_append_left _ (before.reported closed),
        fun dropped => before.silent ?_⟩
      rcases List.mem_append.mp dropped with earlier | later
      · exact earlier
      · exact absurd (own.symm.trans (called_drops effect.called later).1.symm) same
  · rcases List.mem_append.mp dropped with earlier | later
    · exact inv.old probe earlier
    · rw [(called_drops effect.called later).1, own]
      exact tracked.old
  · refine List.pairwise_append.mpr ⟨inv.order, ?_, fun earlier inside later new probe dropped received => ?_⟩
    · rcases effect.outcome with ⟨_, _, none | ⟨_, msg, ip, port, received⟩⟩ | ⟨_, reported⟩
      · rw [none]
        exact List.Pairwise.nil
      · rw [received]
        exact List.pairwise_singleton _ _
      · rw [reported]
        exact List.pairwise_singleton _ _
    · obtain ⟨same, working⟩ := called_receives effect.called new received
      rw [dropped, same, own] at inside
      rw [tracked.silent inside] at working
      contradiction
  · rcases List.mem_append.mp accepted with earlier | later
    · exact inv.fresh socket earlier
    · exact absurd later (called_accepts effect.called)

/-- A context that is no report is taken off the queue. -/
theorem net_popped (inv : NetInv net) (queue : net.mQueue = ctx :: rest) (endless : ∀ connId, .drop connId ≠ ctx) :
    NetInv { net with mQueue := rest } := by
  have order := inv.order
  rw [queue] at order
  refine ⟨fun connId conn known => ?_, fun connId dropped => inv.old connId ?_,
    (List.pairwise_cons.mp order).2, fun socket accepted => inv.fresh socket ?_⟩
  · have before := inv.conns connId conn known
    refine ⟨before.id, before.old, before.settled, fun closed => ?_, fun dropped => before.silent ?_⟩
    · have reported := before.reported closed
      rw [queue] at reported
      rcases List.mem_cons.mp reported with same | behind
      · exact absurd same (endless connId)
      · exact behind
    · rw [queue]
      exact List.mem_cons_of_mem ctx dropped
  · rw [queue]
    exact List.mem_cons_of_mem ctx dropped
  · rw [queue]
    exact List.mem_cons_of_mem ctx accepted

/-- A report is taken off the queue, and the connection is deleted. -/
theorem net_dropped (inv : NetInv net) (queue : net.mQueue = .drop connId :: rest) :
    NetInv ({ net with mQueue := rest }.dropConnection connId) := by
  have order := inv.order
  rw [queue] at order
  have later : ∀ {probe}, probe ∈ rest → probe ∈ net.mQueue := fun inside => by
    rw [queue]
    exact List.mem_cons_of_mem _ inside
  refine ⟨fun probe conn known => ?_, fun probe dropped => inv.old probe (later dropped),
    (List.pairwise_cons.mp order).2, fun socket accepted => inv.fresh socket (later accepted)⟩
  rw [erased_lookup] at known
  by_cases same : connId = probe
  · rw [if_pos same] at known
    contradiction
  · rw [if_neg same] at known
    have before := inv.conns probe conn known
    refine ⟨before.id, before.old, before.settled, fun closed => ?_, fun dropped => before.silent (later dropped)⟩
    have reported := before.reported closed
    rw [queue] at reported
    rcases List.mem_cons.mp reported with this | behind
    · cases this
      exact absurd rfl same
    · exact behind

/-- Contexts that are neither received nor reports come to the queue. -/
theorem net_appended (inv : NetInv net) (quiet : ∀ ctx ∈ enqueued, Quiet ctx)
    (working : ∀ socket, .accept socket ∈ enqueued → socket.noOK = false) :
    NetInv { net with mQueue := net.mQueue ++ enqueued } := by
  have earlier : ∀ {connId}, .drop connId ∈ net.mQueue ++ enqueued → .drop connId ∈ net.mQueue := by
    intro connId dropped
    rcases List.mem_append.mp dropped with before | new
    · exact before
    · exact absurd rfl ((quiet _ new).2 connId)
  refine ⟨fun connId conn known => ?_, fun connId dropped => inv.old connId (earlier dropped), ?_,
    fun socket accepted => ?_⟩
  · have before := inv.conns connId conn known
    exact ⟨before.id, before.old, before.settled, fun closed => List.mem_append_left _ (before.reported closed),
      fun dropped => before.silent (earlier dropped)⟩
  · refine List.pairwise_append.mpr ⟨inv.order, ?_, fun _ _ later new connId _ received => ?_⟩
    · apply List.pairwise_of_forall_mem_list
      intro _ _ later new connId _ received
      rw [(quiet later new).1] at received
      contradiction
    · rw [(quiet later new).1] at received
      contradiction
  · rcases List.mem_append.mp accepted with before | new
    · exact inv.fresh socket before
    · exact working socket new

/-- A connection that is new takes the next id. -/
theorem net_accepted {socket : TcpSocket} {after : NetService} (inv : NetInv net) (working : socket.noOK = false)
    (room : net.mMaxID < net.mMaxID + 1) (done : net.acceptConnection socket = .ok after) :
    NetInv after ∧ after.mQueue = net.mQueue ∧ ∀ probe, probe ∈ net.mConns → probe ∈ after.mConns := by
  rw [NetService.acceptConnection] at done
  by_cases taken : net.mConns.contains net.mMaxID = true
  · rw [if_pos taken] at done
    contradiction
  · rw [if_neg taken] at done
    cases done
    refine ⟨⟨fun probe conn known => ?_, fun probe dropped => UInt64.lt_trans (inv.old probe dropped) room, inv.order,
      inv.fresh⟩,
      rfl, fun probe inside => ?_⟩
    · simp only [Std.ExtTreeMap.getElem?_insert, Std.LawfulEqCmp.compare_eq_iff_eq] at known
      by_cases same : net.mMaxID = probe
      · rw [if_pos same] at known
        cases known
        subst same
        exact ⟨rfl, room, TcpConnection.settled_new working, (fun closed => nomatch closed),
          fun dropped => absurd (inv.old _ dropped) (UInt64.lt_irrefl _)⟩
      · rw [if_neg same] at known
        have before := inv.conns probe conn known
        exact ⟨before.id, UInt64.lt_trans before.old room, before.settled, before.reported, before.silent⟩
    · exact Std.ExtTreeMap.mem_insert.mpr (.inr inside)

/-- Connections and contexts have come, and none has gone. What was received
comes from connections that are there. -/
def Grown (net after : NetService) : Prop :=
  (∀ probe, probe ∈ net.mConns → probe ∈ after.mConns) ∧ ∃ enqueued, after.mQueue = net.mQueue ++ enqueued ∧
    ∀ ctx ∈ enqueued, ∀ connId, receivedFrom ctx = some connId → connId ∈ after.mConns

variable {after : NetService}

theorem Grown.trans {first second third : NetService} (here : Grown first second) (there : Grown second third) :
    Grown first third := by
  obtain ⟨kept, front, queue, received⟩ := here
  obtain ⟨kept', back, queue', received'⟩ := there
  refine ⟨fun probe inside => kept' probe (kept probe inside), front ++ back, ?_, fun ctx inside connId from_ => ?_⟩
  · rw [queue', queue, List.append_assoc]
  · rcases List.mem_append.mp inside with old | new
    · exact kept' connId (received ctx old connId from_)
    · exact received' ctx new connId from_

private theorem changed_grown (own : conn.mConnID = connId)
    (effect : Effect conn next enqueued) : Grown net (net.changed connId next enqueued) := by
  refine ⟨fun probe inside => Std.ExtTreeMap.mem_insert.mpr (.inr inside), enqueued, rfl,
    fun ctx inside probe received => ?_⟩
  obtain ⟨same, _⟩ := called_receives effect.called inside received
  rw [same, own]
  exact Std.ExtTreeMap.mem_insert_self

theorem net_read (inv : NetInv net) (done : net.readData connId arrivals = .ok after)
    (accepted : ∀ conn, net.mConns[connId]? = some conn → ¬ conn.RejectedNext arrivals) :
    NetInv after ∧ Grown net after := by
  obtain ⟨conn, found, rest⟩ := bind_ok.mp done
  obtain ⟨result, read, same⟩ := bind_ok.mp rest
  cases same
  have known := connection_ok.mp found
  have tracked := inv.conns connId conn known
  have effect := read_effect tracked.settled read (accepted conn known)
  exact ⟨net_changed inv known effect, changed_grown tracked.id effect⟩

theorem net_write (inv : NetInv net) (done : net.writeData connId answer = .ok after) :
    NetInv after ∧ Grown net after := by
  obtain ⟨conn, found, rest⟩ := bind_ok.mp done
  obtain ⟨result, written, same⟩ := bind_ok.mp rest
  cases same
  have known := connection_ok.mp found
  have tracked := inv.conns connId conn known
  have effect := write_effect tracked.settled written
  exact ⟨net_changed inv known effect, changed_grown tracked.id effect⟩

theorem net_sent {msg : Msg} (inv : NetInv net) (done : net.sendMsg connId msg answer = .ok after) :
    NetInv after ∧ Grown net after := by
  rw [NetService.sendMsg] at done
  cases known : net.mConns[connId]? with
  | none =>
    rw [known] at done
    cases done
    exact ⟨inv, fun _ inside => inside, [], (List.append_nil _).symm, fun _ inside => nomatch inside⟩
  | some conn =>
    rw [known] at done
    have tracked := inv.conns connId conn known
    have effect := enqueue_effect tracked.settled msg
    obtain ⟨kept, grown⟩ := net_write (net_changed inv known effect) done
    exact ⟨kept, (changed_grown tracked.id effect).trans grown⟩

/-! ### The two queues -/

/-- What was received, and who is logged on, belongs to a connection that is
there, or its report is still to come. -/
structure ServerInv (server : Server) : Prop where
  rooms : RoomKeeperInvariant.Inv server.keeper
  net : NetInv server.net
  received : Followed receivedFrom .drop (· ∈ server.net.mConns) (server.workerQueue ++ server.net.mQueue)
  users : ∀ userId ∈ server.keeper.mIdUser,
    userId ∈ server.net.mConns ∨ .drop userId ∈ server.workerQueue ++ server.net.mQueue

variable {server final : Server} {host : Host}

theorem server_grown (inv : ServerInv server) (kept : NetInv after) (grown : Grown server.net after) :
    ServerInv { server with net := after } := by
  obtain ⟨still, enqueued, queue, received⟩ := grown
  refine ⟨inv.rooms, kept, ?_, fun userId online => ?_⟩
  · simp only [queue]
    rw [← List.append_assoc]
    exact followed_append_expected (followed_mono inv.received fun _ _ connId _ => still connId) received
  · simp only [queue]
    rw [← List.append_assoc]
    exact (inv.users userId online).imp (still userId) (List.mem_append_left _)

private theorem mem_popped {ctx : OperContext} {front rest : List OperContext} (other : .drop connId ≠ ctx)
    (inside : .drop connId ∈ front ++ ctx :: rest) : .drop connId ∈ front ++ rest := by
  rcases List.mem_append.mp inside with before | behind
  · exact List.mem_append_left _ before
  · exact List.mem_append_right _ ((List.mem_cons.mp behind).resolve_left other)

theorem server_popped (inv : ServerInv server) (queue : server.net.mQueue = ctx :: rest) (quiet : Quiet ctx) :
    ServerInv { server with net := { server.net with mQueue := rest } } := by
  have received := inv.received
  rw [queue] at received
  refine ⟨inv.rooms, net_popped inv.net queue quiet.2, followed_remove received quiet.2, fun userId online => ?_⟩
  have before := inv.users userId online
  rw [queue] at before
  exact before.imp_right (mem_popped (quiet.2 userId))

/-- A context goes on to the worker, and keeps its place. -/
private theorem server_forwarded (inv : ServerInv server) (queue : server.net.mQueue = ctx :: rest)
    (endless : ∀ connId, .drop connId ≠ ctx) :
    ServerInv { server with
      net := { server.net with mQueue := rest }
      workerQueue := server.workerQueue ++ [ctx] } := by
  have received := inv.received
  have users := inv.users
  rw [queue] at received users
  refine ⟨inv.rooms, net_popped inv.net queue endless, ?_, fun userId online => ?_⟩
  · simpa only [List.append_assoc, List.singleton_append] using received
  · simpa only [List.append_assoc, List.singleton_append] using users userId online

/-- A report goes on to the worker, and its connection is deleted. -/
private theorem server_dropped (inv : ServerInv server) (queue : server.net.mQueue = .drop connId :: rest) :
    ServerInv { server with
      net := { server.net with mQueue := rest }.dropConnection connId
      workerQueue := server.workerQueue ++ [.drop connId] } := by
  have received := inv.received
  have users := inv.users
  have order := inv.net.order
  rw [queue] at received users order
  have kept : ∀ probe, probe ∈ server.net.mConns ∧ probe ≠ connId →
      probe ∈ ({ server.net with mQueue := rest }.dropConnection connId).mConns := by
    rintro probe ⟨inside, other⟩
    exact Std.ExtTreeMap.mem_erase.mpr ⟨by simpa using Ne.symm other, inside⟩
  refine ⟨inv.rooms, net_dropped inv.net queue, ?_, fun userId online => ?_⟩
  · have ended := followed_ended received order rfl
    simp only [List.append_assoc, List.singleton_append]
    exact followed_mono ended fun _ _ probe _ => kept probe
  · simp only [List.append_assoc, List.singleton_append]
    rcases users userId online with inside | behind
    · by_cases same : userId = connId
      · exact .inr (List.mem_append_right _ (same ▸ List.mem_cons_self))
      · exact .inl (kept userId ⟨inside, same⟩)
    · exact .inr behind

/-! ### One step -/

/-- A call of `ReadData` whose length field is rejected. -/
def Rejected (server : Server) : Server.Event → Prop
  | .read connId arrivals => ∃ conn ∈ server.net.mConns[connId]?, conn.RejectedNext arrivals
  | .accept _ _ _ => False
  | .write _ _ => False
  | .net _ => False
  | .worker => False

instance (server : Server) (event : Server.Event) : Decidable (Rejected server event) :=
  match event with
  | .read connId arrivals => inferInstanceAs (Decidable (∃ conn ∈ server.net.mConns[connId]?, conn.RejectedNext arrivals))
  | .accept _ _ _ => isFalse not_false
  | .write _ _ => isFalse not_false
  | .net _ => isFalse not_false
  | .worker => isFalse not_false

/-- A new client. -/
def opens : OperContext → Bool
  | .accept _ => true
  | .recv _ _ _ _ => false
  | .send _ _ => false
  | .drop _ => false

/-- A connection is made, and with it the ids start over. -/
def Wraps (server : Server) : Server.Event → Prop
  | .net _ => server.net.mQueue.head?.any opens = true ∧ server.net.mMaxID + 1 ≤ server.net.mMaxID
  | .accept _ _ _ => False
  | .read _ _ => False
  | .write _ _ => False
  | .worker => False

instance (server : Server) (event : Server.Event) : Decidable (Wraps server event) :=
  match event with
  | .net _ => inferInstanceAs (Decidable (_ ∧ _))
  | .accept _ _ _ => isFalse not_false
  | .read _ _ => isFalse not_false
  | .write _ _ => isFalse not_false
  | .worker => isFalse not_false

theorem net_step_keeps (inv : ServerInv server) (ids : ¬ Wraps server (.net answer))
    (done : server.netStep answer = .ok final) :
    ServerInv final := by
  rw [Server.netStep] at done
  cases queue : server.net.mQueue with
  | nil =>
    rw [queue] at done
    cases done
    exact inv
  | cons ctx rest =>
    rw [queue] at done
    obtain ⟨⟨net, toWorker⟩, processed, same⟩ := bind_ok.mp done
    cases same
    cases ctx with
    | accept socket =>
      have popped := server_popped inv queue ⟨rfl, fun _ => by simp⟩
      obtain ⟨opened, accepted, same⟩ := bind_ok.mp processed
      cases same
      have working := inv.net.fresh socket (by rw [queue]; exact List.mem_cons_self)
      have room : server.net.mMaxID < server.net.mMaxID + 1 :=
        UInt64.not_le.mp fun wrapped => ids ⟨by rw [queue]; rfl, wrapped⟩
      obtain ⟨kept, still, conns⟩ := net_accepted popped.net working room accepted
      have grown : Grown { server.net with mQueue := rest } net :=
        ⟨conns, [], by rw [still, List.append_nil], fun _ inside => nomatch inside⟩
      have inv := server_grown popped kept grown
      simpa only [List.append_nil] using inv
    | recv msg connId ip port =>
      cases processed
      exact server_forwarded inv queue fun _ => by simp
    | send connId msg =>
      have popped := server_popped inv queue ⟨rfl, fun _ => by simp⟩
      obtain ⟨after, sent, same⟩ := bind_ok.mp processed
      cases same
      obtain ⟨kept, grown⟩ := net_sent popped.net sent
      have inv := server_grown popped kept grown
      simpa only [List.append_nil] using inv
    | drop connId =>
      cases processed
      exact server_dropped inv queue

theorem worker_step_keeps (inv : ServerInv server) (done : server.workerStep host = .ok final) :
    ServerInv final := by
  rw [Server.workerStep] at done
  cases queue : server.workerQueue with
  | nil =>
    rw [queue] at done
    cases done
    exact inv
  | cons ctx rest =>
    rw [queue] at done
    obtain ⟨result, processed, same⟩ := bind_ok.mp done
    cases same
    have worked := process_worked inv.rooms processed
    have received := inv.received
    have users := inv.users
    rw [queue] at received users
    have own : ∀ reply ∈ result.own, Quiet reply := by
      intro reply inside
      obtain ⟨addressee, msg, rfl, _⟩ := worked.replies reply inside
      exact ⟨rfl, fun _ => by simp⟩
    have passed : ∀ reply ∈ result.net, ∃ addressee msg, reply = .send addressee msg := by
      rcases worked.passed with ⟨addressee, msg, rfl, passed⟩ | ⟨_, passed⟩
      · rw [passed]
        exact fun reply inside => ⟨addressee, msg, List.mem_singleton.mp inside⟩
      · rw [passed]
        exact fun _ inside => nomatch inside
    have net : ∀ reply ∈ result.net, Quiet reply := by
      intro reply inside
      obtain ⟨addressee, msg, rfl⟩ := passed reply inside
      exact ⟨rfl, fun _ => by simp⟩
    have waiting : ∀ {connId}, .drop connId ∈ rest ++ server.net.mQueue →
        .drop connId ∈ rest ++ result.own ++ (server.net.mQueue ++ result.net) := by
      intro connId inside
      simp only [List.mem_append] at inside ⊢
      tauto
    refine ⟨worked.rooms, net_appended inv.net net fun socket inside => ?_, ?_, fun userId online => ?_⟩
    · obtain ⟨_, _, sending⟩ := passed _ inside
      contradiction
    · have kept := followed_insert received.2 fun reply inside => (own reply inside).1
      rw [← List.append_assoc, List.append_assoc rest]
      apply followed_append_expected kept
      intro reply inside connId begun
      rw [(net reply inside).1] at begun
      contradiction
    · rcases worked.users userId online with ⟨before, other⟩ | ⟨msg, ip, port, rfl⟩
      · refine (users userId before).imp_right fun inside => waiting ?_
        exact (List.mem_cons.mp inside).resolve_left (Ne.symm other)
      · exact (received.1 userId rfl).imp_right waiting

theorem step_keeps {event : Server.Event} {output : Unit} (inv : ServerInv server) (accepted : ¬ Rejected server event)
    (ids : ¬ Wraps server event) (done : Server.step host server event = .ok (final, output)) : ServerInv final := by
  obtain ⟨next, taken, same⟩ := bind_ok.mp done
  cases same
  cases event with
  | accept ip port fd =>
    cases taken
    have silent : ∀ ctx ∈ [OperContext.accept (.accepted ip port fd)], Quiet ctx := by
      intro ctx inside
      rw [List.mem_singleton.mp inside]
      exact ⟨rfl, fun _ => by simp⟩
    have kept := net_appended inv.net silent fun socket inside => by
      cases List.mem_singleton.mp inside
      rfl
    exact server_grown inv kept ⟨fun _ inside => inside, _, rfl, fun ctx inside connId received => by
      rw [(silent ctx inside).1] at received
      contradiction⟩
  | read connId arrivals =>
    obtain ⟨net, read, same⟩ := bind_ok.mp taken
    cases same
    obtain ⟨kept, grown⟩ := net_read inv.net read fun conn known rejected => accepted ⟨conn, known, rejected⟩
    exact server_grown inv kept grown
  | write connId answer =>
    obtain ⟨net, written, same⟩ := bind_ok.mp taken
    cases same
    obtain ⟨kept, grown⟩ := net_write inv.net written
    exact server_grown inv kept grown
  | net answer => exact net_step_keeps inv ids taken
  | worker => exact worker_step_keeps inv taken

theorem inv_new : ServerInv Server.new where
  rooms := RoomKeeperInvariant.inv_new
  net := {
    conns := fun _ _ known => nomatch known
    old := fun _ inside => nomatch inside
    order := List.Pairwise.nil
    fresh := fun _ inside => nomatch inside }
  received := trivial
  users := fun userId online => by
    obtain ⟨user, known⟩ := mem_users.mp online
    rw [show Server.new.keeper = RoomKeeper.new from rfl, new_has_no_users] at known
    contradiction

/-! ### Runs -/

/-- A connection that is closed has its report in the queue of the net service. -/
def Reported (server : Server) : Prop :=
  ∀ (connId : UInt64) (conn : TcpConnection), server.net.mConns[connId]? = some conn → conn.mClosed = true →
    .drop connId ∈ server.net.mQueue

/-- When the queues have been processed, no connection that is closed is left,
and no user of one. -/
def Cleared (server : Server) : Prop :=
  server.net.mQueue = [] →
    (∀ (connId : UInt64) (conn : TcpConnection), server.net.mConns[connId]? = some conn → conn.mClosed = false) ∧
      (server.workerQueue = [] → ∀ userId ∈ server.keeper.mIdUser,
        ∃ conn : TcpConnection, server.net.mConns[userId]? = some conn ∧ conn.mClosed = false)

private theorem reported_of_inv (inv : ServerInv server) : Reported server :=
  fun connId conn known closed => (inv.net.conns connId conn known).reported closed

private theorem cleared_of_inv (inv : ServerInv server) : Cleared server := by
  intro queue
  have opened : ∀ (connId : UInt64) (conn : TcpConnection), server.net.mConns[connId]? = some conn →
      conn.mClosed = false := by
    intro connId conn known
    cases closed : conn.mClosed with
    | false => rfl
    | true =>
      have reported := reported_of_inv inv connId conn known closed
      rw [queue] at reported
      contradiction
  refine ⟨opened, fun workerQueue userId online => ?_⟩
  rcases inv.users userId online with inside | pending
  · rw [Std.ExtTreeMap.mem_iff_isSome_getElem?, Option.isSome_iff_exists] at inside
    obtain ⟨conn, known⟩ := inside
    exact ⟨conn, known, opened userId conn known⟩
  · rw [queue, workerQueue] at pending
    contradiction

/-- A length that is rejected closes the connection, and nothing reports it. -/
private theorem rejected_is_unreported {output : Unit} {following : Server} (inv : ServerInv server)
    (rejected : Rejected server (.read connId arrivals))
    (done : Server.step host server (.read connId arrivals) = .ok (following, output)) : ¬ Reported following := by
  obtain ⟨conn, known, refused⟩ := rejected
  obtain ⟨next, taken, same⟩ := bind_ok.mp done
  cases same
  obtain ⟨net, read, same⟩ := bind_ok.mp taken
  cases same
  obtain ⟨found, looked, rest⟩ := bind_ok.mp read
  obtain ⟨result, reads, same⟩ := bind_ok.mp rest
  cases same
  cases (Option.mem_def.mp known).symm.trans (connection_ok.mp looked)
  have tracked := inv.net.conns connId conn known
  obtain ⟨rest, silently⟩ := TcpConnection.read_data_rejected true tracked.settled.part refused
  cases silently.symm.trans reads
  intro reported
  have stored := changed_lookup server.net connId connId
    { conn with mSocket := { conn.mSocket with mPreRecv := true } }.close []
  rw [if_pos rfl] at stored
  have dropped := reported connId _ stored (by simp)
  simp only [NetService.changed, List.append_nil] at dropped
  have dead := tracked.silent dropped
  rw [refused.1] at dead
  contradiction

/-- The same on the side of one connection: what it has enqueued so far. -/
private structure LinkHistory (connId : UInt64) (link : Link) (seen : List (Call × CallResult)) : Prop where
  settled : link.conn.Settled
  id : link.conn.mConnID = connId
  reported : link.conn.mClosed = true → .drop connId ∈ Link.enqueuedBy (seen.map Prod.snd)

/-- A call of `ReadData` on one connection whose length field is rejected. -/
def RejectedCall (link : Link) : Call → Prop
  | .read => link.conn.RejectedNext link.arrivals
  | .write _ => False
  | .enqueue _ => False

instance (link : Link) (call : Call) : Decidable (RejectedCall link call) :=
  match call with
  | .read => inferInstanceAs (Decidable (link.conn.RejectedNext link.arrivals))
  | .write _ => isFalse not_false
  | .enqueue _ => isFalse not_false

private theorem link_effect {link follows : Link} {call : Call} {result : CallResult} (settled : link.conn.Settled)
    (accepted : ¬ RejectedCall link call) (done : Link.step true link call = .ok (follows, result)) :
    Effect link.conn follows.conn result.enqueued := by
  cases call with
  | read =>
    obtain ⟨read, reads, same⟩ := bind_ok.mp done
    cases same
    exact read_effect settled reads accepted
  | write answer =>
    obtain ⟨written, writes, same⟩ := bind_ok.mp done
    cases same
    exact write_effect settled writes
  | enqueue msg =>
    cases done
    exact enqueue_effect settled msg

private theorem link_history_step {link follows : Link} {call : Call} {result : CallResult}
    {seen : List (Call × CallResult)} (history : LinkHistory connId link seen) (accepted : ¬ RejectedCall link call)
    (done : Link.step true link call = .ok (follows, result)) :
    LinkHistory connId follows (seen ++ [(call, result)]) := by
  have effect := link_effect history.settled accepted done
  have grown : Link.enqueuedBy ((seen ++ [(call, result)]).map Prod.snd) =
      Link.enqueuedBy (seen.map Prod.snd) ++ result.enqueued := by
    simp [Link.enqueuedBy]
  refine ⟨effect.settled, effect.id.trans history.id, fun closed => ?_⟩
  rw [grown]
  rcases effect.outcome with ⟨still, _, _⟩ | ⟨_, reported⟩
  · exact List.mem_append_left _ (history.reported (still.symm.trans closed))
  · rw [reported, history.id]
    exact List.mem_append_right _ (List.mem_singleton_self _)

/-- As long as no length is rejected. For one connection, whatever its peer sends
and however its calls are interleaved: once it is closed, a report has been
enqueued. For the server, as long as the ids do not start over: in every state
reached the report is still in the queue of each closed connection, and when the
queues are empty, no closed connection and no user of one is left. The condition
leaves out nothing else: where a length is rejected, the report is missing. -/
theorem ended_connections_are_reported (connId : UInt64) (host : Host) :
    (∀ {socket : TcpSocket} {arrivals : List Arrival} {calls : List Call} {final : Link}
        {results : List CallResult},
      socket.noOK = false →
      run (Link.step true) ⟨TcpConnection.new socket connId, arrivals⟩ calls = .ok (final, results) →
      EveryStep (Link.step true) (fun link call => ¬ RejectedCall link call)
        ⟨TcpConnection.new socket connId, arrivals⟩ calls →
      final.conn.mClosed = true → .drop connId ∈ Link.enqueuedBy results) ∧
    ∀ {events : List Server.Event} {final : Server} {outputs : List Unit},
      run (Server.step host) Server.new events = .ok (final, outputs) →
      EveryStep (Server.step host) (fun server event => ¬ Rejected server event ∧ ¬ Wraps server event)
        Server.new events →
      Reported final ∧ Cleared final ∧ ∀ arrivals next output, Rejected final (.read connId arrivals) →
        Server.step host final (.read connId arrivals) = .ok (next, output) → ¬ Reported next := by
  constructor
  · intro socket arrivals calls final results working ran accepted closed
    have start : LinkHistory connId ⟨TcpConnection.new socket connId, arrivals⟩ [] :=
      ⟨TcpConnection.settled_new working, rfl, fun closed => nomatch closed⟩
    have history := run_history (LinkHistory connId)
      (fun _ _ _ _ _ held meets taken => link_history_step held meets taken) start accepted ran
    have all : (calls.zip results).map Prod.snd = results := List.map_snd_zip (Nat.le_of_eq (run_length ran))
    have reported := history.reported closed
    rwa [all] at reported
  · intro events final outputs ran accepted
    have inv := run_history (fun server _ => ServerInv server)
      (fun _ _ _ _ _ held meets taken => step_keeps held meets.1 meets.2 taken) inv_new accepted ran
    exact ⟨reported_of_inv inv, cleared_of_inv inv, fun _ _ _ => rejected_is_unreported inv⟩

/-- A client called Ann logs on. -/
def logonOfAnn : List UInt8 :=
  [0, 0, 0, 15, 0, 0, 0, 0] ++ Wire.encode (Worker.Request.logon (.ascii "ann")).fields

theorem logon_is_some : logonOfAnn ≠ [] := List.cons_ne_nil _ _

/-- Everything is processed: the logon, and the three messages sent for it. -/
private def annIsHere : List Server.Event :=
  [.accept (.ascii "10.0.0.1") 4000 7, .net (.accepts 1 (by decide)), .read 0 [.data logonOfAnn logon_is_some],
    .net (.accepts 1 (by decide)), .worker, .worker, .worker, .worker, .net (.accepts 4096 (by decide)),
    .net (.accepts 4096 (by decide)), .net (.accepts 4096 (by decide))]

private def visitor : TcpSocket := TcpSocket.accepted (.ascii "10.0.0.1") 4000 7

/-- A connection that ends at once; and Ann, who leaves again and is forgotten. -/
theorem a_visit_is_reported :
    (∃ final results, run (Link.step true) ⟨TcpConnection.new visitor 3, [.fin]⟩ [.read] = .ok (final, results) ∧
      .drop 3 ∈ Link.enqueuedBy results) ∧
    ∃ final outputs, run (Server.step Host.usual) Server.new
        (annIsHere ++ [.read 0 [.fin], .net (.accepts 1 (by decide)), .worker]) = .ok (final, outputs) ∧
      final.net.mQueue = [] ∧ final.workerQueue = [] ∧ Reported final ∧ Cleared final := by
  constructor
  · have closes : (run (Link.step true) ⟨TcpConnection.new visitor 3, [.fin]⟩ [.read]).toOption.map
        (fun reply => reply.1.conn.mClosed) = some true := by decide +kernel
    obtain ⟨⟨final, results⟩, ran, closed⟩ := Option.map_eq_some_iff.mp closes
    exact ⟨final, results, ok_of_option ran,
      (ended_connections_are_reported 3 .usual).1 rfl (ok_of_option ran) (by decide +kernel) closed⟩
  · have ends : (run (Server.step Host.usual) Server.new
        (annIsHere ++ [.read 0 [.fin], .net (.accepts 1 (by decide)), .worker])).toOption.map
        (fun reply => (reply.1.net.mQueue, reply.1.workerQueue)) = some ([], []) := by decide +kernel
    obtain ⟨⟨final, outputs⟩, ran, same⟩ := Option.map_eq_some_iff.mp ends
    obtain ⟨queue, workerQueue⟩ := Prod.mk.injEq .. ▸ same
    obtain ⟨reported, cleared, _⟩ := (ended_connections_are_reported 0 .usual).2 (ok_of_option ran) (by decide +kernel)
    exact ⟨final, outputs, ok_of_option ran, queue, workerQueue, reported, cleared⟩

/-- Ann sends a length of 0: her connection is closed and stays, and so does she,
with nothing left to process. -/
theorem a_rejected_length_leaves_its_user :
    ∃ final outputs, run (Server.step Host.usual) Server.new
        (annIsHere ++ [.read 0 [.data [0, 0, 0, 0] (by decide)]]) = .ok (final, outputs) ∧
      final.net.mQueue = [] ∧ final.workerQueue = [] ∧ (0 : UInt64) ∈ final.keeper.mIdUser ∧
      (∃ conn, final.net.mConns[(0 : UInt64)]? = some conn ∧ conn.mClosed = true) ∧
      ¬ Reported final ∧ ¬ Cleared final := by
  have ends : (run (Server.step Host.usual) Server.new
      (annIsHere ++ [.read 0 [.data [0, 0, 0, 0] (by decide)]])).toOption.map
      (fun reply => (reply.1.net.mQueue, reply.1.workerQueue, decide ((0 : UInt64) ∈ reply.1.keeper.mIdUser),
        reply.1.net.mConns[(0 : UInt64)]?.map TcpConnection.mClosed)) = some ([], [], true, some true) := by
    decide +kernel
  obtain ⟨⟨final, outputs⟩, ran, same⟩ := Option.map_eq_some_iff.mp ends
  simp only [Prod.mk.injEq, decide_eq_true_eq, Option.map_eq_some_iff] at same
  obtain ⟨queue, workerQueue, online, conn, known, closed⟩ := same
  refine ⟨final, outputs, ok_of_option ran, queue, workerQueue, online, ⟨conn, known, closed⟩,
    fun reported => ?_, fun cleared => ?_⟩
  · have dropped := reported 0 conn known closed
    rw [queue] at dropped
    exact List.not_mem_nil dropped
  · have opened := (cleared queue).1 0 conn known
    exact absurd (closed.symm.trans opened) (by decide)

end ChatRoom.DropReporting
