import ChatRoom.ServiceLoops

/-! Nothing from a connection follows its drop. Once a connection has raised
`OP_DROP` its socket has failed, and nothing is received from it any more; both
queues keep this order, so that no logon comes behind the drop of its connection. -/
namespace ChatRoom.DropFinality
open Lib ServiceLoops WorkerContexts
open DropReporting (receivedFrom called_drops called_receives)

variable {loops next : ServiceLoops} {log noted : Noted} {host : Host} {connId : UInt64} {ctx : OperContext}

/-- What connections have raised, up to now. -/
structure Raised (net : NetService) (enqueued : List OperContext) : Prop where
  only : ∀ ctx ∈ enqueued, raised ctx = true
  order : NoneBehind receivedFrom .drop enqueued
  old : ∀ connId, .drop connId ∈ enqueued → connId < net.mMaxID
  silent : ∀ (connId : UInt64) (conn : TcpConnection), net.mConns[connId]? = some conn →
    .drop connId ∈ enqueued → conn.mSocket.noOK = true

/-- Both queues keep the order, and who is dropped is forgotten. -/
structure Settles (loops : ServiceLoops) (log : Noted) : Prop where
  calls : Raised loops.net log.enqueued
  toNet : log.enqueued = log.handed ++ (loops.netBatch ++ loops.net.mQueue).filter raised
  toWorker : log.handed = (log.processed ++ loops.workerBatch ++ loops.workerQueue).filter raised
  forgotten : ∀ connId, .drop connId ∈ log.processed → connId ∉ loops.keeper.mIdUser

/-- One more call. -/
theorem raised_call {net : NetService} {conn after : TcpConnection} {enqueued more : List OperContext}
    (holds : Raised net enqueued) (known : net.mConns[connId]? = some conn) (own : conn.mConnID = connId)
    (old : connId < net.mMaxID) (called : conn.Called after more) :
    Raised (net.changed connId after more) (enqueued ++ more) := by
  refine ⟨fun ctx inside => ?_, ?_, fun probe dropped => ?_, fun probe found stored dropped => ?_⟩
  · rcases List.mem_append.mp inside with before | new
    · exact holds.only ctx before
    · rcases called.enqueues new with ⟨_, msg, ip, port, rfl⟩ | ⟨_, rfl⟩
      · rfl
      · rfl
  · rcases called.outcome with rfl | ⟨working, msg, ip, port, rfl⟩ | ⟨_, rfl⟩
    · rw [List.append_nil]
      exact holds.order
    · -- the socket is okay, so this connection has raised no drop before
      apply none_behind_snoc holds.order
      intro probe received dropped
      cases received
      rw [own] at dropped
      exact absurd (working.symm.trans (holds.silent connId conn known dropped)) (by simp)
    · exact none_behind_snoc holds.order fun probe received => nomatch received
  · rcases List.mem_append.mp dropped with before | new
    · exact holds.old probe before
    · rw [(called_drops called new).1, own]
      exact old
  · rw [NetService.changed_lookup] at stored
    split at stored
    next same =>
      subst same
      cases stored
      rcases List.mem_append.mp dropped with before | new
      · exact called.still (holds.silent connId conn known before)
      · exact (called_drops called new).2
    next other =>
      rcases List.mem_append.mp dropped with before | new
      · exact holds.silent probe found stored before
      · exact absurd (own.symm.trans (called_drops called new).1.symm) other

theorem raised_step (inv : LoopsInv loops log) (holds : Raised loops.net log.enqueued)
    (few : (log.append noted).opened.length < 2 ^ 64) (taken : Step host loops next noted) :
    Raised next.net (log.append noted).enqueued := by
  cases taken with
  | call netPhase known called =>
    obtain ⟨own, old, _⟩ := inv.conns _ _ known
    exact raised_call holds known own old called
  | @append connId msg rest conn batch known =>
    obtain ⟨own, old, settled⟩ := inv.conns connId conn known
    have called : conn.Called (conn.enqueue msg) [] :=
      ⟨rfl, TcpConnection.settled_enqueue settled, fun dead => dead, .inl rfl⟩
    exact raised_call holds known own old called
  | @accept socket rest batch =>
    obtain ⟨above, _⟩ := issued_next inv.issued few
    simp only [Noted.append, List.append_nil]
    refine ⟨holds.only, holds.order, fun probe dropped => UInt64.lt_trans (holds.old probe dropped) above,
      fun probe found stored dropped => ?_⟩
    simp only [Std.ExtTreeMap.getElem?_insert, Std.LawfulEqCmp.compare_eq_iff_eq] at stored
    split at stored
    next same =>
      -- a new id has not been dropped
      subst same
      exact absurd (holds.old _ dropped) (UInt64.lt_irrefl _)
    next => exact holds.silent probe found stored dropped
  | erase gone =>
    simp only [Noted.append, List.append_nil]
    refine ⟨holds.only, holds.order, holds.old, fun probe found stored dropped => ?_⟩
    rw [NetService.erased_lookup] at stored
    split at stored
    · contradiction
    · exact holds.silent probe found stored dropped
  | _ =>
    simp only [Noted.append, List.append_nil]
    exact ⟨holds.only, holds.order, holds.old, holds.silent⟩

/-- Everything raised is handed over, in order. -/
private theorem to_net_step (inv : LoopsInv loops log) (holds : Settles loops log)
    (taken : Step host loops next noted) :
    (log.append noted).enqueued = (log.append noted).handed ++ (next.netBatch ++ next.net.mQueue).filter raised := by
  have before := holds.toNet
  simp only [List.filter_append] at before
  simp only [Noted.append, List.filter_append]
  cases taken with
  | arrive ip port fd =>
    have quiet : [OperContext.accept (.accepted ip port fd)].filter raised = [] := rfl
    simpa only [List.filter_append, List.append_nil, quiet] using before
  | @call connId conn after enqueued netPhase known called =>
    have all : enqueued.filter raised = enqueued := by
      apply List.filter_eq_self.mpr
      intro ctx new
      rcases called.enqueues new with ⟨_, msg, ip, port, rfl⟩ | ⟨_, rfl⟩
      · rfl
      · rfl
    simp only [NetService.changed, List.filter_append, all, List.append_nil, before, List.append_assoc]
  | takeNet done =>
    rw [done] at before
    simpa only [List.filter_nil, List.nil_append, List.append_nil] using before
  | @forward msg connId ip port rest batch =>
    rw [batch, List.filter_cons_of_pos rfl] at before
    simpa only [List.append_nil, List.append_assoc, List.nil_append, List.cons_append] using before
  | @report connId rest batch =>
    rw [batch, List.filter_cons_of_pos rfl] at before
    simpa only [List.append_nil, List.append_assoc, List.nil_append, List.cons_append] using before
  | append batch known =>
    rw [batch, List.filter_cons_of_neg (by simp [raised])] at before
    simpa only [NetService.changed, List.append_nil] using before
  | accept batch | miss batch absent =>
    rw [batch, List.filter_cons_of_neg (by simp [raised])] at before
    simpa only [List.append_nil] using before
  | @work ctx rest result silent batch done =>
    have quiet : result.net.filter raised = [] := by
      rcases (process_worked inv.rooms done).passed with ⟨_, _, rfl, passed⟩ | ⟨_, passed⟩
      · rw [passed]
        rfl
      · rw [passed]
        rfl
    simpa only [List.filter_append, List.append_nil, quiet] using before
  | erase gone => simpa only [NetService.dropConnection, List.append_nil] using before
  | wait | takeWorker done | reply replies => simpa only [List.append_nil] using before

/-- Everything handed over is processed, in order. -/
private theorem to_worker_step (inv : LoopsInv loops log) (holds : Settles loops log)
    (taken : Step host loops next noted) :
    (log.append noted).handed =
      ((log.append noted).processed ++ next.workerBatch ++ next.workerQueue).filter raised := by
  have before := holds.toWorker
  simp only [List.filter_append] at before
  simp only [Noted.append, List.filter_append]
  cases taken with
  | takeWorker done =>
    rw [done] at before
    simpa only [List.filter_nil, List.append_nil] using before
  | @forward msg connId ip port rest batch =>
    have isRaised : [OperContext.recv msg connId ip port].filter raised = [.recv msg connId ip port] := rfl
    simp only [List.filter_append, List.filter_nil, List.append_nil, isRaised, before, List.append_assoc]
  | @report connId rest batch =>
    have isRaised : [OperContext.drop connId].filter raised = [.drop connId] := rfl
    simp only [List.filter_append, List.filter_nil, List.append_nil, isRaised, before, List.append_assoc]
  | @reply ctx rest replies =>
    obtain ⟨connId, msg, rfl⟩ := inv.replies ctx (by rw [replies]; exact List.mem_cons_self)
    have quiet : [OperContext.send connId msg].filter raised = [] := rfl
    simpa only [List.filter_append, List.filter_nil, List.append_nil, quiet] using before
  | @work ctx rest result silent batch done =>
    have split : (ctx :: rest).filter raised = [ctx].filter raised ++ rest.filter raised := List.filter_append [ctx] rest
    rw [batch, split] at before
    simpa only [List.filter_append, List.filter_nil, List.append_nil, List.append_assoc] using before
  | _ => simpa only [List.filter_nil, List.append_nil] using before

/-- The order in which the worker meets what was raised. -/
private theorem handed_order (holds : Settles loops log) :
    NoneBehind receivedFrom .drop ((log.processed ++ loops.workerBatch ++ loops.workerQueue).filter raised) := by
  have order := holds.calls.order
  rw [holds.toNet, holds.toWorker] at order
  exact (List.pairwise_append.mp order).1

private theorem forgotten_step (inv : LoopsInv loops log) (holds : Settles loops log)
    (taken : Step host loops next noted) (connId : UInt64) (dropped : .drop connId ∈ (log.append noted).processed) :
    connId ∉ next.keeper.mIdUser := by
  cases taken with
  | @work ctx rest result silent batch done =>
    intro online
    rcases List.mem_append.mp dropped with earlier | last
    · rcases (process_worked inv.rooms done).users connId online with ⟨before, _⟩ | ⟨msg, ip, port, rfl⟩
      · exact holds.forgotten connId earlier before
      · -- it would have been received behind its drop
        have order := handed_order holds
        rw [batch, List.append_assoc, List.filter_append] at order
        have behind := (List.pairwise_append.mp order).2.2 (.drop connId)
          (List.mem_filter.mpr ⟨earlier, rfl⟩) (.recv msg connId ip port) (List.mem_filter.mpr ⟨List.mem_cons_self, rfl⟩)
        exact behind connId rfl rfl
    · have same := List.mem_singleton.mp last
      rcases (process_worked inv.rooms done).users connId online with ⟨_, other⟩ | ⟨msg, ip, port, rfl⟩
      · exact other same.symm
      · contradiction
  | _ =>
    simp only [Noted.append, List.append_nil] at dropped
    exact holds.forgotten connId dropped

theorem settles_step (inv : LoopsInv loops log) (holds : Settles loops log)
    (few : (log.append noted).opened.length < 2 ^ 64) (taken : Step host loops next noted) :
    Settles next (log.append noted) :=
  ⟨raised_step inv holds.calls few taken, to_net_step inv holds taken, to_worker_step inv holds taken,
    forgotten_step inv holds taken⟩

theorem settles_new : Settles new {} where
  calls := ⟨(fun _ inside => nomatch inside), List.Pairwise.nil, (fun _ inside => nomatch inside),
    fun _ _ stored => nomatch stored⟩
  toNet := rfl
  toWorker := rfl
  forgotten := fun _ inside => nomatch inside

/-- Of a connection there is what was received from it, and then only its drop. -/
def ReceivedThenDropped (connId : UInt64) (contexts : List OperContext) : Prop :=
  ∃ recvs drops, contexts.filter (fun ctx => about ctx == some connId) = recvs ++ drops ∧
    (∀ ctx ∈ recvs, ∃ msg ip port, ctx = .recv msg connId ip port) ∧ ∀ ctx ∈ drops, ctx = .drop connId

private theorem received_then_dropped {contexts : List OperContext} (only : ∀ ctx ∈ contexts, raised ctx = true)
    (order : NoneBehind receivedFrom .drop contexts) : ReceivedThenDropped connId contexts := by
  have kinds : ∀ ctx ∈ contexts, (about ctx == some connId) = true → receivedFrom ctx = some connId ∨
      ctx = .drop connId := by
    intro ctx inside mention
    have isRaised := only ctx inside
    rw [beq_iff_eq] at mention
    cases ctx with
    | recv msg sender ip port => exact .inl mention
    | drop sender => exact .inr (by rw [Option.some.inj mention])
    | accept socket => contradiction
    | send addressee msg => contradiction
  obtain ⟨recvs, drops, split, received, dropped⟩ := none_behind_split order _ kinds
  refine ⟨recvs, drops, split, fun ctx inside => ?_, dropped⟩
  have came := received ctx inside
  cases ctx with
  | recv msg sender ip port =>
    cases came
    exact ⟨msg, ip, port, rfl⟩
  | drop sender => contradiction
  | accept socket => contradiction
  | send addressee msg => contradiction

variable {events : List Event} {final : ServiceLoops} {outputs : List Noted}

/-- In every run with fewer than 2^64 connections no id is used twice. Of each id
there is first what was received and then only drops: in what `ReadData` and
`WriteData` enqueue, and in what the net service hands to the worker. Once the
worker has processed a drop, there is no user with its id any more. -/
theorem nothing_follows_a_drop (ran : run (step host) new events = .ok (final, outputs))
    (few : (Noted.all outputs).opened.length < 2 ^ 64) :
    (Noted.all outputs).opened.Nodup ∧ ∀ connId,
      ReceivedThenDropped connId (Noted.all outputs).enqueued ∧ ReceivedThenDropped connId (Noted.all outputs).handed ∧
        (.drop connId ∈ (Noted.all outputs).processed → connId ∉ final.keeper.mIdUser) := by
  obtain ⟨inv, holds⟩ := run_noted Settles settles_new
    (fun _ _ _ _ inv holds few taken => settles_step inv holds few taken) ran few
  refine ⟨inv.issued.once, fun connId =>
    ⟨received_then_dropped holds.calls.only holds.calls.order, ?_, holds.forgotten connId⟩⟩
  -- what is handed over is a first part of what was enqueued
  have only := holds.calls.only
  have order := holds.calls.order
  rw [holds.toNet] at only order
  exact received_then_dropped (fun ctx inside => only ctx (List.mem_append_left _ inside)) (List.pairwise_append.mp order).1

/-- Ann logs on and is gone; her connection raises two drops. -/
private def annIsDroppedTwice : List Event :=
  [.accept (.ascii "10.0.0.1") 4000 7, .takeNet, .net .plenty,
    .read 0 [.data DropReporting.logonOfAnn DropReporting.logon_is_some], .read 0 [.fin], .read 0 [.fin],
    .takeNet, .net .plenty, .net .plenty, .net .plenty, .net .plenty, .net .plenty,
    .takeWorker, .worker, .worker, .worker, .worker, .worker, .worker]

theorem two_drops_forget_a_user :
    ∃ final outputs, run (step Host.usual) new annIsDroppedTwice = .ok (final, outputs) ∧
      (Noted.all outputs).handed.length = 3 ∧ ReceivedThenDropped 0 (Noted.all outputs).handed ∧
      .drop 0 ∈ (Noted.all outputs).processed ∧ (0 : UInt64) ∉ final.keeper.mIdUser := by
  have ends : (run (step Host.usual) new annIsDroppedTwice).toOption.map
      (fun reply => ((Noted.all reply.2).opened.length, (Noted.all reply.2).handed.length,
        decide (.drop 0 ∈ (Noted.all reply.2).processed))) = some (1, 3, true) := by decide +kernel
  obtain ⟨⟨final, outputs⟩, ran, same⟩ := Option.map_eq_some_iff.mp ends
  simp only [Prod.mk.injEq, decide_eq_true_eq] at same
  obtain ⟨opened, handed, processed⟩ := same
  have few : (Noted.all outputs).opened.length < 2 ^ 64 := by omega
  obtain ⟨_, each⟩ := nothing_follows_a_drop (ok_of_option ran) few
  obtain ⟨_, split, forgotten⟩ := each 0
  exact ⟨final, outputs, ok_of_option ran, handed, split, processed, forgotten processed⟩

end ChatRoom.DropFinality
