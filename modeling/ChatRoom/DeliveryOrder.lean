import ChatRoom.ServiceLoops
import ChatRoom.Lib.Delivery

/-! Messages reach the connection that they are addressed to, in the order in
which they are sent. A message passes the queue and the batch of the worker, and
then the queue and the batch of the net service; it is lost only when its
connection is gone, and then so is everything behind it. -/
namespace ChatRoom.DeliveryOrder
open Lib ServiceLoops WorkerContexts
open PagedRefinement (messageTo messagesTo messages_to_append messages_to_cons messages_to_send)

variable {loops next : ServiceLoops} {log noted : Noted} {host : Host} {connId : UInt64} {ctx : OperContext}

/-- The messages that `SendMsg` appended to the queue of the connection with this id. -/
def messagesIn (connId : UInt64) (appended : List Appended) : List Msg :=
  (appended.filter fun entry => entry.mConnID == connId).map Appended.msg

theorem messages_in_append (connId : UInt64) (appended : List Appended) (entry : Appended) :
    messagesIn connId (appended ++ [entry]) =
      messagesIn connId appended ++ if entry.mConnID = connId then [entry.msg] else [] := by
  by_cases own : entry.mConnID = connId <;> simp [messagesIn, own]

theorem messages_to_raised (isRaised : raised ctx = true) : messagesTo connId [ctx] = [] := by
  cases ctx with
  | recv msg sender ip port => rfl
  | drop sender => rfl
  | accept socket => contradiction
  | send addressee msg => contradiction

/-- What a connection enqueues is no message to anybody. -/
theorem messages_to_called {conn after : TcpConnection} {enqueued : List OperContext}
    (called : conn.Called after enqueued) : messagesTo connId enqueued = [] := by
  rcases called.outcome with rfl | ⟨_, msg, ip, port, rfl⟩ | ⟨_, rfl⟩
  · rfl
  · rfl
  · rfl

/-- What waits for a connection is what has been sent to it and has not arrived;
once it is gone, what arrives is lost. -/
structure Ordered (loops : ServiceLoops) (log : Noted) : Prop where
  delivers : ∀ connId, Delivers (messagesTo connId log.addressed) (messagesIn connId log.appended)
    (messagesTo connId loops.waiting) (connId ∉ loops.net.mConns ∧ connId < loops.net.mMaxID)
  owners : ∀ entry ∈ log.appended, entry.mConnID = entry.connId

/-- Who is gone stays gone. -/
private theorem gone_step (inv : LoopsInv loops log) (few : (log.append noted).opened.length < 2 ^ 64)
    (taken : Step host loops next noted) (gone : connId ∉ loops.net.mConns ∧ connId < loops.net.mMaxID) :
    connId ∉ next.net.mConns ∧ connId < next.net.mMaxID := by
  obtain ⟨later, _⟩ := issued_step inv.issued few taken
  refine ⟨fun inside => gone.1 ?_, UInt64.lt_of_lt_of_le gone.2 later⟩
  cases taken with
  | call netPhase known called =>
    rcases Std.ExtTreeMap.mem_insert.mp inside with same | before
    · rw [← Std.LawfulEqCmp.compare_eq_iff_eq.mp same, Std.ExtTreeMap.mem_iff_isSome_getElem?, known]
      rfl
    · exact before
  | append batch known =>
    rcases Std.ExtTreeMap.mem_insert.mp inside with same | before
    · rw [← Std.LawfulEqCmp.compare_eq_iff_eq.mp same, Std.ExtTreeMap.mem_iff_isSome_getElem?, known]
      rfl
    · exact before
  | accept batch =>
    rcases Std.ExtTreeMap.mem_insert.mp inside with same | before
    · -- the new connection has an id that was not taken
      have new := Std.LawfulEqCmp.compare_eq_iff_eq.mp same
      exact absurd (new ▸ gone.2) (UInt64.lt_irrefl _)
    · exact before
  | erase dropped => exact (Std.ExtTreeMap.mem_erase.mp inside).2
  | _ => exact inside

private theorem delivers_step (inv : LoopsInv loops log) (ordered : Ordered loops log)
    (few : (log.append noted).opened.length < 2 ^ 64) (taken : Step host loops next noted) (connId : UInt64) :
    Delivers (messagesTo connId (log.append noted).addressed) (messagesIn connId (log.append noted).appended)
      (messagesTo connId next.waiting) (connId ∉ next.net.mConns ∧ connId < next.net.mMaxID) := by
  have still : connId ∉ loops.net.mConns ∧ connId < loops.net.mMaxID →
      connId ∉ next.net.mConns ∧ connId < next.net.mMaxID := gone_step inv few taken
  have delivers := delivers_mono (ordered.delivers connId) still
  have nobody : messagesTo connId [] = [] := rfl
  simp only [waiting, messages_to_append] at delivers
  simp only [Noted.append, waiting]
  cases taken with
  | wait =>
    simpa only [messages_to_append, List.append_nil] using delivers
  | arrive ip port fd =>
    have quiet : messagesTo connId [.accept (.accepted ip port fd)] = [] := rfl
    simpa only [messages_to_append, List.append_nil, quiet] using delivers
  | call netPhase known called =>
    simpa only [NetService.changed, messages_to_append, List.append_nil, messages_to_called called] using delivers
  | takeNet done =>
    rw [done] at delivers
    simpa only [messages_to_append, List.append_nil, nobody, List.nil_append] using delivers
  | takeWorker done =>
    rw [done] at delivers
    simpa only [messages_to_append, List.append_nil, nobody] using delivers
  | @accept socket rest batch =>
    have quiet : messagesTo connId [.accept socket] = [] := rfl
    rw [batch, messages_to_cons, quiet] at delivers
    simpa only [messages_to_append, List.append_nil, List.nil_append] using delivers
  | @forward msg sender ip port rest batch =>
    have quiet : messagesTo connId [.recv msg sender ip port] = [] := rfl
    rw [batch, messages_to_cons, quiet] at delivers
    simpa only [messages_to_append, List.append_nil, List.nil_append, quiet] using delivers
  | @miss addressee msg rest batch absent =>
    rw [batch, messages_to_cons, messages_to_send] at delivers
    simp only [messages_to_append, List.append_nil]
    by_cases own : addressee = connId
    · subst own
      rw [if_pos rfl] at delivers
      have old := inv.known (.send addressee msg) (by simp [waiting, batch]) addressee rfl
      have outside : addressee ∉ loops.net.mConns := by
        rw [Std.ExtTreeMap.mem_iff_isSome_getElem?, absent]
        exact Bool.false_ne_true
      exact delivers_lost delivers (still ⟨outside, old⟩)
    · rw [if_neg own] at delivers
      exact delivers
  | @append addressee msg rest conn batch known =>
    obtain ⟨id, _, _⟩ := inv.conns addressee conn known
    rw [batch, messages_to_cons, messages_to_send] at delivers
    have queue : (loops.net.changed addressee (conn.enqueue msg) []).mQueue = loops.net.mQueue := List.append_nil _
    simp only [queue, messages_to_append, List.append_nil, messages_in_append, id]
    by_cases own : addressee = connId
    · subst own
      rw [if_pos rfl] at delivers ⊢
      exact delivers_arrived delivers fun absent => absent.1 Std.ExtTreeMap.mem_insert_self
    · rw [if_neg own] at delivers ⊢
      simpa only [List.append_nil, List.nil_append] using delivers
  | @report dropped rest batch =>
    have quiet : messagesTo connId [.drop dropped] = [] := rfl
    rw [batch, messages_to_cons, quiet] at delivers
    simpa only [messages_to_append, List.append_nil, List.nil_append, quiet] using delivers
  | erase dropped =>
    simpa only [NetService.dropConnection, messages_to_append, List.append_nil] using delivers
  | @reply ctx rest replies =>
    have more := delivers_sent delivers (messagesTo connId [ctx])
    simpa only [messages_to_append, List.append_nil, List.append_assoc] using more
  | @work ctx rest result silent batch done =>
    have passed : messagesTo connId result.net = messagesTo connId [ctx] := by
      rcases (process_worked inv.rooms done).passed with ⟨_, _, _, passed⟩ | ⟨isRaised, passed⟩
      · rw [passed]
      · rw [passed, messages_to_raised isRaised, nobody]
    rw [batch, messages_to_cons] at delivers
    simpa only [messages_to_append, List.append_nil, passed, List.append_assoc] using delivers

private theorem owners_step (inv : LoopsInv loops log) (ordered : Ordered loops log)
    (taken : Step host loops next noted) : ∀ entry ∈ (log.append noted).appended, entry.mConnID = entry.connId := by
  cases taken with
  | append batch known =>
    intro entry inside
    rcases List.mem_append.mp inside with before | last
    · exact ordered.owners entry before
    · rw [List.mem_singleton.mp last]
      exact (inv.conns _ _ known).1
  | _ => simpa only [Noted.append, List.append_nil] using ordered.owners

theorem ordered_new : Ordered new {} := ⟨fun _ => delivers_nothing _, fun _ inside => nomatch inside⟩

theorem ordered_step (inv : LoopsInv loops log) (ordered : Ordered loops log)
    (few : (log.append noted).opened.length < 2 ^ 64) (taken : Step host loops next noted) :
    Ordered next (log.append noted) :=
  ⟨delivers_step inv ordered few taken, owners_step inv ordered taken⟩

variable {events : List Event} {final : ServiceLoops} {outputs : List Noted}

/-- In every run with fewer than 2^64 connections, and so at every moment of one:
what `SendMsg` has appended to the queue of the connection with an id is a first
part of what was sent to this id, in order; and nothing is ever appended to a
connection that it is not addressed to. -/
theorem messages_arrive_in_order (ran : run (step host) new events = .ok (final, outputs))
    (few : (Noted.all outputs).opened.length < 2 ^ 64) :
    (∀ connId, messagesIn connId (Noted.all outputs).appended <+: messagesTo connId (Noted.all outputs).addressed) ∧
      ∀ entry ∈ (Noted.all outputs).appended, entry.mConnID = entry.connId := by
  obtain ⟨_, ordered⟩ := run_noted Ordered ordered_new
    (fun _ _ _ _ inv ordered few taken => ordered_step inv ordered few taken) ran few
  exact ⟨fun connId => delivers_prefix (ordered.delivers connId), ordered.owners⟩

/-! ### The queue of a connection -/

/-- `mToSendMsg` of the connection that has this id. -/
def queueOf (loops : ServiceLoops) (connId : UInt64) : List Msg :=
  (loops.net.mConns[connId]?).elim [] TcpConnection.mToSendMsg

/-- What a queue can come to: these messages are put behind it; or nothing is, and some
may be taken off its front. -/
def Gains (queue after messages : List Msg) : Prop := after = queue ++ messages ∨ messages = [] ∧ after <:+ queue

private theorem gains_nothing (queue : List Msg) : Gains queue queue [] := .inl (List.append_nil _).symm

private theorem changed_gains {probe : UInt64} {changed found : TcpConnection} {enqueued : List OperContext}
    (same : next.net = loops.net.changed probe changed enqueued) (known : loops.net.mConns[probe]? = some found)
    (queue : changed.mToSendMsg <:+ found.mToSendMsg) : Gains (queueOf loops connId) (queueOf next connId) [] := by
  simp only [queueOf, same, NetService.changed_lookup]
  split
  next here =>
    subst here
    exact .inr ⟨rfl, by rw [known]; exact queue⟩
  · exact gains_nothing _

private theorem accept_queues {socket : TcpSocket} (accepted : loops.net.acceptConnection socket = .ok next.net) :
    queueOf next connId = queueOf loops connId := by
  rw [NetService.acceptConnection] at accepted
  split at accepted
  · contradiction
  next free =>
    have made := Except.ok.inj accepted
    simp only [queueOf, ← made, Std.ExtTreeMap.getElem?_insert, Std.LawfulEqCmp.compare_eq_iff_eq]
    split
    next taken =>
      -- the new connection has an id that was not taken
      subst taken
      rw [Std.ExtTreeMap.contains_eq_isSome_getElem?, Bool.not_eq_true, Option.isSome_eq_false_iff,
        Option.isNone_iff_eq_none] at free
      rw [free]
      rfl
    · rfl

private theorem begin_gains {rest : List OperContext} (inv : LoopsInv loops log)
    (taken : loops.netBegin rest ctx = .ok (next, noted)) :
    Gains (queueOf loops connId) (queueOf next connId) (messagesIn connId noted.appended) := by
  cases ctx with
  | accept socket =>
    obtain ⟨net, accepted, same⟩ := bind_ok.mp taken
    cases same
    have same : queueOf { loops with net, netBatch := rest } connId = queueOf loops connId := accept_queues accepted
    rw [same]
    exact gains_nothing _
  | recv msg sender ip port =>
    cases taken
    exact gains_nothing _
  | send addressee msg =>
    rw [netBegin] at taken
    split at taken
    · cases taken
      exact gains_nothing _
    next conn known =>
      cases taken
      simp only [queueOf, NetService.changed_lookup, messagesIn]
      split
      next here =>
        subst here
        exact .inl (by simp [known, (inv.conns _ _ known).1, TcpConnection.enqueue])
      next other => exact .inl (by simp [(inv.conns _ _ known).1, other])
  | drop addressee =>
    cases taken
    exact gains_nothing _

/-- What a step notes as appended for a connection is what its `mToSendMsg` gains in this
step; no other step puts anything there. -/
theorem appended_is_queued {event : Event} (inv : LoopsInv loops log) (taken : step host loops event = .ok (next, noted)) :
    Gains (queueOf loops connId) (queueOf next connId) (messagesIn connId noted.appended) := by
  have wrote : ∀ {probe answer netPhase}, { loops with netPhase }.writeData probe answer = .ok (next, noted) →
      Gains (queueOf loops connId) (queueOf next connId) (messagesIn connId noted.appended) := by
    intro probe answer netPhase done
    obtain ⟨found, known, rest⟩ := bind_ok.mp done
    obtain ⟨result, written, same⟩ := bind_ok.mp rest
    cases same
    exact changed_gains rfl (NetService.connection_ok.mp known) (TcpConnection.write_data_queue written)
  cases event with
  | accept ip port fd =>
    cases taken
    exact gains_nothing _
  | read probe arrivals =>
    obtain ⟨found, known, rest⟩ := bind_ok.mp taken
    obtain ⟨result, read, same⟩ := bind_ok.mp rest
    cases same
    exact changed_gains rfl (NetService.connection_ok.mp known) (TcpConnection.read_data_queue read)
  | write probe answer => exact wrote taken
  | takeNet =>
    cases taken
    unfold ServiceLoops.takeNet
    split <;> exact gains_nothing _
  | net answer =>
    simp only [step, netStep] at taken
    split at taken
    · exact wrote taken
    · cases taken
      simp only [queueOf, NetService.dropConnection, Std.ExtTreeMap.getElem?_erase]
      split
      · exact .inr ⟨rfl, List.nil_suffix⟩
      · exact gains_nothing _
    · split at taken
      · cases taken
        exact gains_nothing _
      · exact begin_gains inv taken
  | takeWorker =>
    cases taken
    unfold ServiceLoops.takeWorker
    split <;> exact gains_nothing _
  | worker =>
    simp only [step, workerStep] at taken
    split at taken
    · cases taken
      exact gains_nothing _
    · split at taken
      · cases taken
        exact gains_nothing _
      · obtain ⟨result, _, same⟩ := bind_ok.mp taken
        cases same
        exact gains_nothing _

/-- In every run with fewer than 2^64 connections, what waits in `mToSendMsg` of a
connection is the last part of what was appended for it. -/
theorem queues_end_what_was_appended (ran : run (step host) new events = .ok (final, outputs))
    (few : (Noted.all outputs).opened.length < 2 ^ 64) (connId : UInt64) :
    queueOf final connId <:+ messagesIn connId (Noted.all outputs).appended := by
  have ends := run_steps_noted (fun loops log => queueOf loops connId <:+ messagesIn connId log.appended)
    List.nil_suffix (fun loops log event next noted inv suffix few taken => ?_) ran few
  · exact ends.2
  · rw [Noted.append, messagesIn, List.filter_append, List.map_append]
    rcases appended_is_queued inv taken with gained | ⟨none, left⟩
    · rw [gained]
      exact List.suffix_append_self_iff.mpr suffix
    · rw [← messagesIn, ← messagesIn, none, List.append_nil]
      exact left.trans suffix

/-- Ann logs on, and is sent three messages. Behind the first one comes the report
that her connection is gone, and behind the others a new client. -/
private def annLeavesEarly : List Event :=
  [.accept (.ascii "10.0.0.1") 4000 7, .takeNet, .net .plenty,
    .read 0 [.data DropReporting.logonOfAnn DropReporting.logon_is_some], .takeNet, .net .plenty,
    .takeWorker, .worker, .worker, .worker, .worker, .takeWorker, .worker, .read 0 [.fin], .worker, .worker,
    .accept (.ascii "10.0.0.2") 4000 8, .takeNet, .net .plenty, .net .plenty, .net .plenty, .net .plenty, .net .plenty,
    .net .plenty, .net .plenty]

theorem two_messages_come_too_late :
    ∃ final outputs, run (step Host.usual) new annLeavesEarly = .ok (final, outputs) ∧
      (1 : UInt64) ∈ final.net.mConns ∧ (messagesTo 0 (Noted.all outputs).addressed).length = 3 ∧
      (messagesIn 0 (Noted.all outputs).appended).length = 1 ∧
      messagesIn 0 (Noted.all outputs).appended <+: messagesTo 0 (Noted.all outputs).addressed := by
  have ends : (run (step Host.usual) new annLeavesEarly).toOption.map
      (fun reply => (decide ((1 : UInt64) ∈ reply.1.net.mConns), (Noted.all reply.2).opened.length,
        (messagesTo 0 (Noted.all reply.2).addressed).length, (messagesIn 0 (Noted.all reply.2).appended).length)) =
      some (true, 2, 3, 1) := by decide +kernel
  obtain ⟨⟨final, outputs⟩, ran, same⟩ := Option.map_eq_some_iff.mp ends
  simp only [Prod.mk.injEq, decide_eq_true_eq] at same
  obtain ⟨there, opened, sent, arrived⟩ := same
  have few : (Noted.all outputs).opened.length < 2 ^ 64 := by omega
  exact ⟨final, outputs, ok_of_option ran, there, sent, arrived, (messages_arrive_in_order (ok_of_option ran) few).1 0⟩

end ChatRoom.DeliveryOrder
