import ChatRoom.DeliveryOrder
import ChatRoom.DropFinality
import ChatRoom.HouseRefinement

/-! The house behind the threads. Connections raise what they receive in the net
service, whose loop hands it to the worker; the worker's loop serves it, and its
replies go back through its own queue and that of the net service into the queue of
a connection. However the loops and the calls of the driver are interleaved, this
is one run of the house, whose guests ask in the order in which the connections
have raised their messages, and are told what is put into their queues: what is noted
as put there is what `mToSendMsg` gains, by `appended_is_queued`. -/
namespace ChatRoom.ThreadedHouse
open Lib Wire ServiceLoops WorkerContexts ChatHouse HouseRefinement DeliveryOrder DropFinality

open PagedRefinement (Bears messagesTo messages_to_append)

abbrev HouseAsk := Ask UInt64 StdString (StdString × UInt16)

variable {loops next : ServiceLoops} {log noted : Noted} {host : Host} {connId : UInt64} {ctx : OperContext}
  {ip : StdString} {port : UInt16}

/-! ### What is asked -/

/-- What a message of some type asks for. -/
def readAskOf (ip : StdString) (port : UInt16) (connId : UInt64) : Option MsgType → FieldReader HouseAsk
  | some .c2sLogon => do
    let name ← readStr
    return .arrive connId name (ip, port)
  | some .c2sPublishChatMsg => do
    let roomId ← readU32
    let input ← readStr
    return .say connId roomId.toNat input
  | some .c2sCreateRoom => do
    let roomName ← readStr
    let passwd ← readStr
    return .make connId roomName passwd
  | some .c2sJoinRoom => do
    let roomName ← readStr
    let passwd ← readStr
    return .move connId roomName passwd
  | some .c2sWhisperMsg => do
    let toName ← readStr
    let words ← readStr
    return .whisper connId toName words
  | _ => return .mutter

/-- What a message asks for, read as `RecvMessage` reads it. -/
def readAsk (ip : StdString) (port : UInt16) (connId : UInt64) : FieldReader HouseAsk := do
  let msgType ← readInt
  readAskOf ip port connId (MsgType.ofCode msgType)

/-- What the house is asked with a context; replies that pass through ask for nothing. -/
def asked : OperContext → Option HouseAsk
  | .accept _ => none
  | .recv msg connId ip port => ((readAsk ip port connId).run Msg.read msg).toOption.map Prod.fst
  | .send _ _ => none
  | .drop connId => some (.part connId)

section Reading

variable {σ φ : Type} {source : Source Kind.Carrier σ φ} {state left : σ} {act : Serve}

/-- The three requests with two texts. -/
private theorem two_strings_alike {serves : StdString → StdString → Serve} (asks : StdString → StdString → HouseAsk)
    (ran : (do let first ← readStr; let second ← readStr; return serves first second : FieldReader Serve).run source state =
      .ok (act, left)) :
    ∃ first second, act = serves first second ∧
      (do let first ← readStr; let second ← readStr; return asks first second : FieldReader HouseAsk).run source state =
        .ok (asks first second, left) := by
  simp only [Reader.bind_eq, Reader.pure_eq, Reader.run_bind_ok, Reader.run_done] at ran ⊢
  obtain ⟨first, middle, here, second, _, there, same⟩ := ran
  cases same
  exact ⟨first, second, rfl, first, middle, here, second, left, there, rfl⟩

/-- A request is read from the values from which the worker reads what it does. -/
theorem read_ask_of_act (ran : (Worker.recvMessage ip port connId).run source state = .ok (act, left)) :
    ∃ request, act = Worker.serve ip port connId request ∧
      (readAsk ip port connId).run source state = .ok (askOfRequest ip port connId request, left) := by
  simp only [Worker.recvMessage, Reader.bind_eq, Reader.run_bind_ok] at ran
  obtain ⟨msgType, middle, typed, ran⟩ := ran
  have reads : ∀ {ask}, (readAskOf ip port connId (MsgType.ofCode msgType)).run source middle = .ok (ask, left) →
      (readAsk ip port connId).run source state = .ok (ask, left) :=
    fun read => Reader.run_bind_ok.mpr ⟨msgType, middle, typed, read⟩
  split at ran
  next selected =>
    simp only [Worker.handleLogon, Reader.bind_eq, Reader.pure_eq, Reader.run_bind_ok, Reader.run_done] at ran
    obtain ⟨name, _, named, same⟩ := ran
    cases same
    refine ⟨.logon name, rfl, reads ?_⟩
    rw [selected]
    exact Reader.run_bind_ok.mpr ⟨name, left, named, rfl⟩
  next selected =>
    simp only [Worker.publishChatMessage, Reader.bind_eq, Reader.pure_eq, Reader.run_bind_ok, Reader.run_done] at ran
    obtain ⟨roomId, last, placed, input, _, said, same⟩ := ran
    cases same
    refine ⟨.chat roomId input, rfl, reads ?_⟩
    rw [selected]
    exact Reader.run_bind_ok.mpr ⟨roomId, last, placed, Reader.run_bind_ok.mpr ⟨input, left, said, rfl⟩⟩
  next selected =>
    obtain ⟨roomName, passwd, rfl, read⟩ := two_strings_alike (Ask.make connId) ran
    exact ⟨.createRoom roomName passwd, rfl, reads (by rw [selected]; exact read)⟩
  next selected =>
    obtain ⟨roomName, passwd, rfl, read⟩ := two_strings_alike (Ask.move connId) ran
    exact ⟨.joinRoom roomName passwd, rfl, reads (by rw [selected]; exact read)⟩
  next selected =>
    obtain ⟨toName, words, rfl, read⟩ := two_strings_alike (Ask.whisper connId) ran
    exact ⟨.whisper toName words, rfl, reads (by rw [selected]; exact read)⟩
  next =>
    cases ran
    refine ⟨.other msgType (by simp_all), rfl, reads ?_⟩
    rw [readAskOf]
    · rfl
    all_goals assumption

end Reading

/-! ### One context -/

/-- What comes of a context that the worker is through with. -/
inductive Served (host : Host) (house : House) (keeper : RoomKeeper) (ctx : OperContext) : Worker.Processed → Prop where
  | passed {connId : UInt64} {msg : Msg} (sends : ctx = .send connId msg) : Served host house keeper ctx ⟨keeper, [], [ctx]⟩
  | answered {ask : HouseAsk} {next : RoomKeeper} {sent : List Sent} {own : List OperContext}
      (isRaised : raised ctx = true) (asks : asked ctx = some ask) (refines : Refines house ask next sent)
      (made : List.Forall₂ (Bears host) sent own) : Served host house keeper ctx ⟨next, own, []⟩

theorem process_served {keeper : RoomKeeper} {house : House} {result : Worker.Processed} (pictures : Pictures keeper house)
    (few : result.keeper.mIdRoom.size < 2 ^ 32) (done : Worker.process host keeper ctx = .ok result) :
    Served host house keeper ctx result := by
  cases PagedRefinement.process_cases pictures.inv done with
  | passed => exact .passed rfl
  | served read serves bears =>
    obtain ⟨request, same, reads⟩ := read_ask_of_act read
    rw [same] at serves
    exact .answered rfl (by rw [asked, reads]; rfl) (serve_refines pictures few serves) bears
  | dropped drops bears => exact .answered rfl rfl (drop_refines pictures drops) bears

/-- Rooms are never removed. -/
theorem process_grows {keeper : RoomKeeper} {result : Worker.Processed} (inv : RoomKeeperInvariant.Inv keeper)
    (counted : RoomKeeperInvariant.Counted keeper) (done : Worker.process host keeper ctx = .ok result) :
    RoomKeeperInvariant.Counted result.keeper ∧ keeper.mIdRoom.size ≤ result.keeper.mIdRoom.size := by
  cases PagedRefinement.process_cases inv done with
  | passed => exact ⟨counted, Nat.le_refl _⟩
  | served _ serves _ => exact WorkerSafety.performed_counted inv counted (WorkerSafety.serve_performs _ serves)
  | dropped drops _ =>
    obtain ⟨outcome, performed, same⟩ := WorkerSafety.drop_performs drops
    exact WorkerSafety.performed_counted inv counted (.inr ⟨_, outcome, performed, same⟩)

/-! ### Runs -/

/-- What the house was asked, and what it has told, in the order of the worker. -/
structure HouseRun (host : Host) (keeper : RoomKeeper) (requests replies : List OperContext) (house : House)
    (told : List (Told UInt64 StdString (StdString × UInt16))) (answers : List (List Sent)) : Prop where
  asking : ∀ ctx ∈ requests, raised ctx = true → (asked ctx).isSome
  ran : run (fun house => house.step 0) (ChatHouse.new HALL_NAME (.ascii "")) (requests.filterMap asked) = .ok (house, told)
  pictures : Pictures keeper house
  spoken : List.Forall₂ Speaks told answers
  made : List.Forall₂ (Bears host) answers.flatten replies

/-- All that the threads keep to. -/
structure Housed (host : Host) (loops : ServiceLoops) (log : Noted) : Prop where
  settles : Settles loops log
  ordered : Ordered loops log
  counted : RoomKeeperInvariant.Counted loops.keeper
  serves : loops.keeper.mIdRoom.size < 2 ^ 32 → ∃ house told answers,
    HouseRun host loops.keeper log.processed (log.addressed ++ loops.workerReplies) house told answers

theorem housed_new : Housed host new {} where
  settles := settles_new
  ordered := ordered_new
  counted := RoomKeeperInvariant.counted_new
  serves := fun _ => ⟨_, [], [], (fun _ inside => nomatch inside), rfl, pictures_new, .nil, .nil⟩

/-- The worker is through with one more context. -/
theorem house_run_work {keeper : RoomKeeper} {house : House} {requests replies : List OperContext}
    {result : Worker.Processed}
    {told : List (Told UInt64 StdString (StdString × UInt16))} {answers : List (List Sent)}
    (runs : HouseRun host keeper requests replies house told answers) (few : result.keeper.mIdRoom.size < 2 ^ 32)
    (done : Worker.process host keeper ctx = .ok result) :
    ∃ house told answers, HouseRun host result.keeper (requests ++ [ctx]) (replies ++ result.own) house told answers := by
  have asking : (raised ctx = true → (asked ctx).isSome) → ∀ other ∈ requests ++ [ctx], raised other = true →
      (asked other).isSome := by
    intro here other inside
    rcases List.mem_append.mp inside with before | last
    · exact runs.asking other before
    · rw [List.mem_singleton.mp last]
      exact here
  cases process_served runs.pictures few done with
  | @passed connId msg sends =>
    subst sends
    refine ⟨house, told, answers, asking (fun isRaised => nomatch isRaised), ?_, runs.pictures, runs.spoken, ?_⟩
    · have quiet : asked (.send connId msg) = none := rfl
      rw [List.filterMap_append, List.filterMap_cons_none quiet, List.filterMap_nil, List.append_nil]
      exact runs.ran
    · rw [List.append_nil]
      exact runs.made
  | @answered ask next sent own isRaised asks refines made =>
    obtain ⟨after, news, taken, pictures, spoken⟩ := refines
    refine ⟨after, told ++ [news], answers ++ [sent], asking (fun _ => by rw [asks]; rfl), ?_, pictures, ?_, ?_⟩
    · rw [List.filterMap_append, List.filterMap_cons_some asks, List.filterMap_nil]
      exact run_snoc runs.ran taken
    · exact List.rel_append runs.spoken (.cons spoken .nil)
    · rw [List.flatten_append, List.flatten_singleton]
      exact List.rel_append runs.made made

theorem housed_step (inv : LoopsInv loops log) (housed : Housed host loops log)
    (few : (log.append noted).opened.length < 2 ^ 64) (taken : Step host loops next noted) :
    Housed host next (log.append noted) := by
  refine ⟨settles_step inv housed.settles few taken, ordered_step inv housed.ordered few taken, ?_, ?_⟩
  · cases taken with
    | work silent batch done => exact (process_grows inv.rooms housed.counted done).1
    | _ => exact housed.counted
  · cases taken with
    | work silent batch done =>
      intro bounded
      obtain ⟨_, grown⟩ := process_grows inv.rooms housed.counted done
      obtain ⟨house, told, answers, runs⟩ := housed.serves (Nat.lt_of_le_of_lt grown bounded)
      rw [silent, List.append_nil] at runs
      simpa only [Noted.append, List.append_nil] using house_run_work runs bounded done
    | reply replies =>
      -- the reply has already been made
      simpa only [Noted.append, List.append_nil, replies, List.append_assoc, List.singleton_append] using housed.serves
    | _ => simpa only [Noted.append, List.append_nil] using housed.serves

variable {events : List Event} {final : ServiceLoops} {outputs : List Noted}

/-- Nothing is left to do for the loops. -/
def Idle (loops : ServiceLoops) : Prop := loops.waiting = [] ∧ loops.workerReplies = []

/-- In every run of the threads with fewer than 2^64 connections and fewer than 2^32
rooms: the worker takes what the connections have raised in the order in which they
have raised it, and asks the house for all of it; its maps say what is in the house,
and its replies are what the house tells. What `SendMsg` has put into the queue of a
connection is a first part of the replies to it. Once the loops are idle, everything
that was raised has been asked, and a connection that is still there has all of its
replies in its queue. -/
theorem threads_serve_the_house (ran : run (step host) new events = .ok (final, outputs))
    (few : (Noted.all outputs).opened.length < 2 ^ 64) (rooms : final.keeper.mIdRoom.size < 2 ^ 32) :
    (Noted.all outputs).processed.filter raised <+: (Noted.all outputs).enqueued ∧
      ∃ house told answers replies, HouseRun host final.keeper (Noted.all outputs).processed replies house told answers ∧
        (∀ connId, messagesIn connId (Noted.all outputs).appended <+: messagesTo connId replies) ∧
        (Idle final → (Noted.all outputs).processed.filter raised = (Noted.all outputs).enqueued ∧
          ∀ connId ∈ final.net.mConns, messagesIn connId (Noted.all outputs).appended = messagesTo connId replies) := by
  obtain ⟨_, housed⟩ := run_noted (Housed host) housed_new
    (fun _ _ _ _ inv housed few taken => housed_step inv housed few taken) ran few
  have settles := housed.settles
  obtain ⟨house, told, answers, runs⟩ := housed.serves rooms
  have order := settles.toNet
  rw [settles.toWorker, List.append_assoc, List.filter_append, List.append_assoc] at order
  refine ⟨⟨_, order.symm⟩, house, told, answers, _, runs, fun connId => ?_, fun idle => ⟨?_, fun connId there => ?_⟩⟩
  · have arrived := delivers_prefix (housed.ordered.delivers connId)
    rw [messages_to_append]
    exact arrived.trans (List.prefix_append _ _)
  · obtain ⟨nothing, _⟩ := idle
    simp only [waiting, List.append_eq_nil_iff] at nothing
    obtain ⟨⟨⟨netBatch, queue⟩, workerBatch⟩, workerQueue⟩ := nothing
    rw [order, netBatch, queue, workerBatch, workerQueue]
    simp
  · obtain ⟨nothing, silent⟩ := idle
    obtain ⟨lost, whole, why⟩ := housed.ordered.delivers connId
    have none : lost = [] := by
      by_contra some
      exact (why some).1 there
    rw [silent, List.append_nil, whole, none, nothing]
    simp [messagesTo]

/-- Ann logs on, and the loops go on until her three messages are in the queue of her
connection. -/
private def annIsServed : List Event :=
  [.accept (.ascii "10.0.0.1") 4000 7, .takeNet, .net .plenty,
    .read 0 [.data DropReporting.logonOfAnn DropReporting.logon_is_some], .takeNet, .net .plenty,
    .takeWorker, .worker, .worker, .worker, .worker, .takeWorker, .worker, .worker, .worker,
    .takeNet, .net .plenty, .net .plenty, .net .plenty, .net .plenty, .net .plenty, .net .plenty]

theorem ann_is_told_three_things :
    ∃ final outputs house told answers replies, run (step Host.usual) new annIsServed = .ok (final, outputs) ∧
      HouseRun Host.usual final.keeper (Noted.all outputs).processed replies house told answers ∧
      (messagesTo 0 replies).length = 3 ∧ messagesIn 0 (Noted.all outputs).appended = messagesTo 0 replies := by
  have ends : (run (step Host.usual) new annIsServed).toOption.map
      (fun reply => ((Noted.all reply.2).opened.length, reply.1.keeper.mIdRoom.size,
        decide ((0 : UInt64) ∈ reply.1.net.mConns), reply.1.waiting.isEmpty && reply.1.workerReplies.isEmpty,
        (messagesIn 0 (Noted.all reply.2).appended).length)) = some (1, 1, true, true, 3) := by decide +kernel
  obtain ⟨⟨final, outputs⟩, ran, same⟩ := Option.map_eq_some_iff.mp ends
  simp only [Prod.mk.injEq, decide_eq_true_eq, Bool.and_eq_true, List.isEmpty_iff] at same
  obtain ⟨opened, size, there, idle, length⟩ := same
  obtain ⟨_, house, told, answers, replies, runs, _, whole⟩ :=
    threads_serve_the_house (ok_of_option ran) (by omega) (by omega)
  have all := (whole idle).2 0 there
  exact ⟨final, outputs, house, told, answers, replies, ok_of_option ran, runs, by rw [← all]; exact length, all⟩

end ChatRoom.ThreadedHouse
