import ChatRoom.SystemFlow
import ChatRoom.PagedRefinement

/-! The server of the whole program is the worker. The program's queues hold values; the
worker takes frames and makes messages. A turn of anybody else leaves the server as it
is, and a turn of the server is a step of the worker on a frame with the same values. So
a run of the program is a run of the worker; and as long as there is room for each
message that is made, what is enqueued for a connection is what the program has told it,
message by message. -/
namespace ChatRoom.SystemServer
open Lib Wire ChatSystem RoomKeeperInvariant WorkerSafety SystemFlow PagedRefinement

variable {system next final : ChatSystem} {act : Act} {acts : List Act} {report : Report} {reports : List Report}
  {host : Host} {keeper after : RoomKeeper} {events : List Worker.Event} {sents : List (List Sent)}

/-- What the server takes fits a frame. -/
def Framed (report : Report) : Prop := ∀ message ∈ report.served, (encode message).length ≤ 2 ^ 31 - 9

/-- What the server takes of a connection, as bytes. -/
def servedIn (report : Report) : List (UInt64 × List UInt8) :=
  report.served.map fun message => (report.connId, encode message)

/-- The payload that the worker takes. -/
def takenIn : Worker.Event → List (UInt64 × List UInt8)
  | .recv delivery _ _ => [(delivery.connId, delivery.frame.payload)]
  | .drop _ => []

/-! ### One turn -/

/-- Whoever's turn it was: the server did nothing, or it took one step of the worker. -/
theorem turn_is_worked (taken : step system act = .ok (next, report)) (framed : Framed report) :
    next.keeper = system.keeper ∧ report.sent = [] ∧ servedIn report = [] ∨
      ∃ event, Worker.step system.keeper event = .ok (next.keeper, report.sent) ∧ takenIn event = servedIn report := by
  rcases step_turns taken with ⟨name, ip, port, first⟩ | ⟨before, after, turn⟩ | ⟨_, before, request, keeper, up, turn⟩ |
      ⟨_, keeper, turn⟩
  · refine .inl ⟨by rw [first.next]; rfl, by rw [first.report], by rw [first.report]; rfl⟩
  · exact .inl ⟨by rw [turn.next]; rfl, turn.sent, by rw [servedIn, turn.served]; rfl⟩
  · obtain ⟨rest, _, served⟩ := turn.waiting
    have short := framed (request.fields ++ rest) (by rw [served]; exact List.mem_singleton.mpr rfl)
    have front : encode request.fields <+: encode (request.fields ++ rest) := ⟨encode rest, (encode_append ..).symm⟩
    let delivery : Worker.Delivery :=
      ⟨before.ip, before.port, report.connId,
        .carrying (encode (request.fields ++ rest)) (request.at_least.trans front.length_le) short⟩
    refine .inr ⟨.recv delivery request front, ?_, ?_⟩
    · rw [turn.next]
      exact (Worker.receive_request system.keeper delivery request front).trans turn.served
    · rw [servedIn, served]
      rfl
  · refine .inr ⟨.drop report.connId, ?_, ?_⟩
    · rw [turn.next]
      exact turn.dropped
    · rw [servedIn, turn.served]
      rfl

/-! ### Whole runs -/

/-- In every run, what the server takes and tells is what the worker takes and sends in one
run of its own, and in the end they hold the same. -/
theorem server_is_the_worker (ran : run step .new acts = .ok (final, reports)) (framed : ∀ report ∈ reports, Framed report) :
    ∃ events sents, run Worker.step RoomKeeper.new events = .ok (final.keeper, sents) ∧
      events.flatMap takenIn = reports.flatMap servedIn ∧ sents.flatten = reports.flatMap Report.sent := by
  have history := run_history_always (fun (system : ChatSystem) (history : List (Act × Report)) =>
      (∀ report ∈ history.map Prod.snd, Framed report) →
      ∃ events sents, run Worker.step RoomKeeper.new events = .ok (system.keeper, sents) ∧
        events.flatMap takenIn = (history.map Prod.snd).flatMap servedIn ∧
        sents.flatten = (history.map Prod.snd).flatMap Report.sent)
    (fun system history act next report before taken framed => ?_) (fun _ => ⟨[], [], rfl, rfl, rfl⟩) ran
  · rw [List.map_snd_zip (Nat.le_of_eq (run_length ran))] at history
    exact history framed
  · simp only [List.map_append, List.map_cons, List.map_nil, List.mem_append, List.mem_singleton] at framed ⊢
    obtain ⟨events, sents, worked, takes, told⟩ := before fun report inside => framed report (.inl inside)
    rw [List.flatMap_append, List.flatMap_append, List.flatMap_singleton, List.flatMap_singleton]
    rcases turn_is_worked taken (framed report (.inr rfl)) with ⟨same, silent, nothing⟩ | ⟨event, stepped, served⟩
    · exact ⟨events, sents, by rw [same]; exact worked, by rw [nothing, List.append_nil, takes],
        by rw [silent, List.append_nil, told]⟩
    · exact ⟨events ++ [event], sents ++ [report.sent], run_snoc worked stepped,
        by rw [List.flatMap_append, List.flatMap_singleton, takes, served],
        by rw [List.flatten_append, List.flatten_singleton, told]⟩

/-- A run over values goes on with its messages, as long as they have room. -/
theorem run_with_room (inv : Inv keeper) (ran : run Worker.step keeper events = .ok (after, sents))
    (roomy : EveryStep (Worker.take host) (fun keeper event => ∀ letter ∈ lettersOf keeper event, HasRoom host letter.fields)
      keeper events) : ∃ owns, run (Worker.take host) keeper events = .ok (after, owns) := by
  induction events generalizing keeper sents with
  | nil =>
    cases ran
    exact ⟨[], rfl⟩
  | cons event events ih =>
    obtain ⟨between, sent, rest, stepped, later, rfl⟩ := run_cons_ok.mp ran
    obtain ⟨own, taken⟩ := take_with_room inv stepped roomy.1
    obtain ⟨owns, all⟩ := ih (take_keeps inv taken) later (roomy.2 _ _ taken)
    exact ⟨own :: owns, run_cons_ok.mpr ⟨between, own, owns, taken, all, rfl⟩⟩

/-- In every run of the program, the worker takes what the server takes. It comes to the
end when each message that it makes has room on its page; and whenever it does come to the
end, the messages that it enqueues for a connection are those that the program has told
it, with the same values. -/
theorem worker_sends_what_is_told
    (ran : run step .new acts = .ok (final, reports)) (framed : ∀ report ∈ reports, Framed report)
    (host : Host) :
    ∃ events, events.flatMap takenIn = reports.flatMap servedIn ∧
      (EveryStep (Worker.take host) (fun keeper event => ∀ letter ∈ lettersOf keeper event, HasRoom host letter.fields)
        RoomKeeper.new events → ∃ keeper owns, run (Worker.take host) RoomKeeper.new events = .ok (keeper, owns)) ∧
      ∀ keeper owns, run (Worker.take host) RoomKeeper.new events = .ok (keeper, owns) →
        keeper = final.keeper ∧ ∀ connId,
          List.Forall₂ (Written host) (toldTo connId reports) (messagesTo connId owns.flatten) := by
  obtain ⟨events, sents, worked, takes, told⟩ := server_is_the_worker ran framed
  refine ⟨events, takes, fun roomy => ⟨_, run_with_room inv_new worked roomy⟩, fun keeper owns paged => ?_⟩
  obtain ⟨sentsToo, workedToo, bears⟩ := run_bears inv_new paged
  cases worked.symm.trans workedToo
  refine ⟨rfl, fun connId => ?_⟩
  have same : toldTo connId reports = sentTo connId sents.flatten := by
    rw [told, toldTo, sentTo, List.filter_flatMap, List.map_flatMap]
    rfl
  rw [same]
  exact bears_messages (List.rel_flatten bears) connId

end ChatRoom.SystemServer
