import ChatRoom.ServiceLoops

/-! The server as one queue for each service, and the loops that take batches. A
schedule in which `Process` is not interrupted makes of the loops what the server
is: a batch and the queue behind it are one queue. So every run of the server is a
run of the loops. -/
namespace ChatRoom.ServerSchedule
open Lib ServiceLoops

variable {server after : Server} {loops next : ServiceLoops} {host : Host} {ctx : OperContext}
  {rest : List OperContext}

/-- Between two contexts: what is left of a batch is in front of the queue. -/
structure Scheduled (server : Server) (loops : ServiceLoops) : Prop where
  idle : loops.netPhase = .idle
  silent : loops.workerReplies = []
  conns : server.net.mConns = loops.net.mConns
  maxID : server.net.mMaxID = loops.net.mMaxID
  queue : server.net.mQueue = loops.netBatch ++ loops.net.mQueue
  keeper : server.keeper = loops.keeper
  workerQueue : server.workerQueue = loops.workerBatch ++ loops.workerQueue

/-- Some steps of the loops, and what they end in. -/
def Reaches (host : Host) (loops : ServiceLoops) (server : Server) : Prop :=
  ∃ events final outputs, run (step host) loops events = .ok (final, outputs) ∧ Scheduled server final

theorem reaches_later (event : Event) {noted : Noted} (taken : step host loops event = .ok (next, noted))
    (reaches : Reaches host next server) : Reaches host loops server := by
  obtain ⟨events, final, outputs, ran, scheduled⟩ := reaches
  exact ⟨event :: events, final, noted :: outputs, run_cons_ok.mpr ⟨next, noted, outputs, taken, ran, rfl⟩, scheduled⟩

theorem reaches_now (scheduled : Scheduled server loops) : Reaches host loops server := ⟨[], loops, [], rfl, scheduled⟩

/-- The net service takes its queue if its batch is done. -/
private theorem net_begins (scheduled : Scheduled server loops) (queue : server.net.mQueue = ctx :: rest)
    (begins : ∀ next batch, Scheduled server next → next.netBatch = ctx :: batch → Reaches host next after) :
    Reaches host loops after := by
  cases batch : loops.netBatch with
  | cons first batch' =>
    have same := scheduled.queue
    rw [queue, batch, List.cons_append, List.cons.injEq] at same
    exact begins loops batch' scheduled (by rw [batch, same.1])
  | nil =>
    have same := scheduled.queue
    rw [queue, batch, List.nil_append] at same
    have took : loops.takeNet = { loops with net := { loops.net with mQueue := [] }, netBatch := loops.net.mQueue } :=
      if_pos ⟨batch, scheduled.idle⟩
    refine reaches_later .takeNet rfl (begins loops.takeNet rest ?_ ?_)
    · rw [took]
      exact { scheduled with queue := by rw [queue, List.append_nil, same] }
    · rw [took, same]

private theorem worker_begins (scheduled : Scheduled server loops) (queue : server.workerQueue = ctx :: rest)
    (begins : ∀ next batch, Scheduled server next → next.workerBatch = ctx :: batch → Reaches host next after) :
    Reaches host loops after := by
  cases batch : loops.workerBatch with
  | cons first batch' =>
    have same := scheduled.workerQueue
    rw [queue, batch, List.cons_append, List.cons.injEq] at same
    exact begins loops batch' scheduled (by rw [batch, same.1])
  | nil =>
    have same := scheduled.workerQueue
    rw [queue, batch, List.nil_append] at same
    have took : loops.takeWorker = { loops with workerQueue := [], workerBatch := loops.workerQueue } :=
      if_pos ⟨batch, scheduled.silent⟩
    refine reaches_later .takeWorker rfl (begins loops.takeWorker rest ?_ ?_)
    · rw [took]
      exact { scheduled with workerQueue := by rw [queue, List.append_nil, same] }
    · rw [took, same]

/-! ### Calls -/

section
variable {connId : UInt64} {conn : TcpConnection}

private theorem scheduled_changed (scheduled : Scheduled server loops) (connId : UInt64) (conn : TcpConnection)
    (enqueued : List OperContext) :
    Scheduled { server with net := server.net.changed connId conn enqueued }
      { loops with net := loops.net.changed connId conn enqueued } where
  idle := scheduled.idle
  silent := scheduled.silent
  conns := by simp only [NetService.changed, scheduled.conns]
  maxID := scheduled.maxID
  queue := by simp only [NetService.changed, scheduled.queue, List.append_assoc]
  keeper := scheduled.keeper
  workerQueue := scheduled.workerQueue

private theorem known_there (scheduled : Scheduled server loops) (found : server.net.connection connId = .ok conn) :
    loops.net.connection connId = .ok conn := by
  rw [NetService.connection_ok] at found ⊢
  rwa [← scheduled.conns]

private theorem read_reaches {arrivals : List Arrival} {net : NetService} (scheduled : Scheduled server loops)
    (done : server.net.readData connId arrivals = .ok net) : Reaches host loops { server with net } := by
  obtain ⟨conn, found, rest⟩ := bind_ok.mp done
  obtain ⟨result, read, same⟩ := bind_ok.mp rest
  cases same
  have taken : step host loops (.read connId arrivals) = .ok
      ({ loops with net := loops.net.changed connId result.conn result.enqueued }, { enqueued := result.enqueued }) := by
    simp only [step, readData, known_there scheduled found, read, ok_then]
    rfl
  exact reaches_later _ taken (reaches_now (scheduled_changed scheduled connId result.conn result.enqueued))

private theorem write_scheduled {answer : Sendable} {net : NetService} (scheduled : Scheduled server loops)
    (done : server.net.writeData connId answer = .ok net) :
    ∃ next noted, loops.writeData connId answer = .ok (next, noted) ∧ Scheduled { server with net } next := by
  obtain ⟨conn, found, rest⟩ := bind_ok.mp done
  obtain ⟨result, written, same⟩ := bind_ok.mp rest
  cases same
  refine ⟨{ loops with net := loops.net.changed connId result.conn result.enqueued }, { enqueued := result.enqueued }, ?_,
    scheduled_changed scheduled connId result.conn result.enqueued⟩
  simp only [writeData, known_there scheduled found, written, ok_then]
  rfl

/-! ### The net service -/

private theorem process_reaches {answer : Sendable} {net : NetService} {batch toWorker : List OperContext}
    (scheduled : Scheduled server loops) (front : loops.netBatch = ctx :: batch) (queue : server.net.mQueue = ctx :: rest)
    (done : { server.net with mQueue := rest }.process answer ctx = .ok (net, toWorker)) :
    Reaches host loops { server with net, workerQueue := server.workerQueue ++ toWorker } := by
  have behind : rest = batch ++ loops.net.mQueue := by
    have same := scheduled.queue
    rw [queue, front, List.cons_append, List.cons.injEq] at same
    exact same.2
  have begun : step host loops (.net answer) = loops.netBegin batch ctx := by
    simp only [step, netStep, scheduled.idle, front]
  have popped : Scheduled { server with net := { server.net with mQueue := rest } } { loops with netBatch := batch } :=
    { scheduled with queue := behind }
  cases ctx with
  | accept socket =>
    obtain ⟨opened, accepted, same⟩ := bind_ok.mp done
    cases same
    rw [NetService.acceptConnection] at accepted
    split at accepted
    · contradiction
    next free =>
      cases accepted
      have opens : loops.net.acceptConnection socket = .ok { loops.net with
          mMaxID := loops.net.mMaxID + 1
          mConns := loops.net.mConns.insert loops.net.mMaxID (.new socket loops.net.mMaxID) } := by
        rw [NetService.acceptConnection, ← scheduled.conns, ← scheduled.maxID]
        exact if_neg free
      rw [netBegin, opens] at begun
      refine reaches_later (.net answer) begun (reaches_now ?_)
      exact { popped with
        conns := by simp only [scheduled.conns, scheduled.maxID]
        maxID := by simp only [scheduled.maxID]
        workerQueue := by rw [List.append_nil]; exact scheduled.workerQueue }
  | recv msg connId ip port =>
    cases done
    refine reaches_later (.net answer) begun (reaches_now ?_)
    exact { popped with workerQueue := by simp only [scheduled.workerQueue, List.append_assoc] }
  | send connId msg =>
    obtain ⟨sent, sends, same⟩ := bind_ok.mp done
    cases same
    rw [List.append_nil]
    rw [NetService.sendMsg] at sends
    cases known : server.net.mConns[connId]? with
    | none =>
      rw [known] at sends
      cases sends
      rw [netBegin, ← scheduled.conns, known] at begun
      exact reaches_later (.net answer) begun (reaches_now popped)
    | some conn =>
      rw [known] at sends
      rw [netBegin, ← scheduled.conns, known] at begun
      have resumed : Scheduled { server with net := { server.net with mQueue := rest } }
          { loops with netBatch := batch, netPhase := .idle } := { popped with idle := rfl }
      obtain ⟨next, noted, wrote, kept⟩ := write_scheduled (scheduled_changed resumed connId (conn.enqueue msg) []) sends
      exact reaches_later (.net answer) begun (reaches_later (.net answer) wrote (reaches_now kept))
  | drop connId =>
    cases done
    refine reaches_later (.net answer) begun (reaches_later (.net answer) rfl (reaches_now ?_))
    exact { popped with
      idle := rfl
      conns := by simp only [NetService.dropConnection, scheduled.conns]
      queue := behind
      workerQueue := by simp only [scheduled.workerQueue, List.append_assoc] }

end

private theorem net_reaches {answer : Sendable} (scheduled : Scheduled server loops)
    (done : server.netStep answer = .ok after) : Reaches host loops after := by
  rw [Server.netStep] at done
  cases queue : server.net.mQueue with
  | nil =>
    rw [queue] at done
    cases done
    exact reaches_now scheduled
  | cons ctx rest =>
    rw [queue] at done
    obtain ⟨⟨net, toWorker⟩, processed, same⟩ := bind_ok.mp done
    cases same
    exact net_begins scheduled queue fun next batch taken front => process_reaches taken front queue processed

/-! ### The worker -/

/-- The worker sends what it has to, one reply after the other. -/
private theorem replies_reach {replies : List OperContext} (left : loops.workerReplies = replies)
    (scheduled : Scheduled server { loops with workerReplies := [], workerQueue := loops.workerQueue ++ replies }) :
    Reaches host loops server := by
  induction replies generalizing loops with
  | nil =>
    rw [List.append_nil, ← left] at scheduled
    exact reaches_now scheduled
  | cons reply replies ih =>
    have taken : step host loops .worker = .ok
        ({ loops with workerQueue := loops.workerQueue ++ [reply], workerReplies := replies },
          { addressed := [reply] }) := by
      simp only [step, workerStep, left]
    apply reaches_later .worker taken
    apply ih rfl
    simpa only [List.append_assoc, List.singleton_append] using scheduled

private theorem worker_reaches (scheduled : Scheduled server loops) (done : server.workerStep host = .ok after) :
    Reaches host loops after := by
  rw [Server.workerStep] at done
  cases queue : server.workerQueue with
  | nil =>
    rw [queue] at done
    cases done
    exact reaches_now scheduled
  | cons ctx rest =>
    rw [queue] at done
    obtain ⟨result, processed, same⟩ := bind_ok.mp done
    cases same
    apply worker_begins scheduled queue
    intro next batch taken front
    have worked : step host next .worker = .ok
        ({ next with
            net := { next.net with mQueue := next.net.mQueue ++ result.net }
            keeper := result.keeper
            workerBatch := batch
            workerReplies := result.own },
          { processed := [ctx] }) := by
      simp only [step, workerStep, taken.silent, front, ← taken.keeper, processed, ok_then]
      rfl
    have behind : rest = batch ++ next.workerQueue := by
      have same := taken.workerQueue
      rw [queue, front, List.cons_append, List.cons.injEq] at same
      exact same.2
    apply reaches_later .worker worked
    apply replies_reach rfl
    exact { taken with
      silent := rfl
      queue := by simp only [taken.queue, List.append_assoc]
      keeper := rfl
      workerQueue := by simp only [behind, List.append_assoc] }

/-! ### Runs -/

theorem scheduled_new : Scheduled Server.new ServiceLoops.new := ⟨rfl, rfl, rfl, rfl, rfl, rfl, rfl⟩

/-- A step of the server is a few steps of the loops. -/
theorem step_reaches {event : Server.Event} {output : Unit} (scheduled : Scheduled server loops)
    (done : Server.step host server event = .ok (after, output)) : Reaches host loops after := by
  obtain ⟨next, taken, same⟩ := bind_ok.mp done
  cases same
  cases event with
  | accept ip port fd =>
    cases taken
    apply reaches_later (.accept ip port fd) rfl
    apply reaches_now
    exact { scheduled with queue := by simp only [scheduled.queue, List.append_assoc] }
  | read connId arrivals =>
    obtain ⟨net, read, same⟩ := bind_ok.mp taken
    cases same
    exact read_reaches scheduled read
  | write connId answer =>
    obtain ⟨net, written, same⟩ := bind_ok.mp taken
    cases same
    obtain ⟨next, noted, wrote, kept⟩ := write_scheduled scheduled written
    exact reaches_later (.write connId answer) wrote (reaches_now kept)
  | net answer => exact net_reaches scheduled taken
  | worker => exact worker_reaches scheduled taken

/-- Every run of the server is a run of the loops, under some schedule. -/
theorem server_runs_are_scheduled {events : List Server.Event} {final : Server} {outputs : List Unit}
    (ran : run (Server.step host) Server.new events = .ok (final, outputs)) : Reaches host ServiceLoops.new final :=
  run_refined Scheduled (fun _ _ _ _ _ scheduled done => step_reaches scheduled done) scheduled_new ran

end ChatRoom.ServerSchedule
