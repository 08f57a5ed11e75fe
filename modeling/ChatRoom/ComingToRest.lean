import ChatRoom.RoomPicture
import Mathlib.Algebra.Order.BigOperators.Group.Finset
import Mathlib.Data.Prod.Lex

/-! Without new input the program comes to rest. A message that a client posts to itself
can become one for the server, and the server can answer a message with many; but what
the server sends makes nobody send anything. So however the messages are taken, there is
an end; and if it is one where nothing is left to take, every window shows its room as
it is. -/
namespace ChatRoom.ComingToRest
open Lib Wire ChatSystem RoomKeeperInvariant SystemFlow RoomPicture

variable {system next final : ChatSystem} {act : Act} {report : Report} {reports : List Report} {connId userId : UInt64}
  {station : Station} {keeper after : RoomKeeper} {sent : List Sent}

/-- A message is taken, and nothing new comes from outside. -/
def Reads : Act → Prop
  | .minds _ => True
  | .hears _ => True
  | .serves _ => True
  | .connects _ _ _ => False
  | .types _ _ => False
  | .asks _ _ => False
  | .drops _ => False

/-! ### What the server sends -/

/-- A message of the server, as its type tells it. -/
def FromServer (fields : List Field) : Prop :=
  ∃ type ∈ [MsgType.s2cRoomInfo, .s2cRoomChatMsg, .s2cLogonRes, .s2cCreateRoomRes, .s2cRoomList, .s2cJoinRoomRes,
    .s2cWhisperMsg,
    .s2cWhisperMsgFailed], fields.head? = some type.field

private theorem info_from_server {request : RoomKeeper.Request} {outcome : Outcome} (inv : Inv keeper)
    (performed : keeper.perform request = .ok outcome) : ∀ message ∈ outcome.sent, FromServer message.fields := by
  intro message inside
  obtain ⟨_, room, _, _, info⟩ := RoomAccess.sent_to_members inv performed message inside
  rw [info]
  exact ⟨.s2cRoomInfo, by decide, rfl⟩

private theorem aside_from_server {fields : List Field} (aside : Aside fields) : FromServer fields := by
  obtain ⟨type, listed, first⟩ := aside
  exact ⟨type, List.mem_cons_of_mem _ (List.mem_cons_of_mem _ listed), first⟩

theorem step_sends (inv : Inv system.keeper) (taken : step system act = .ok (next, report)) :
    ∀ message ∈ report.sent, FromServer message.fields := by
  intro message inside
  obtain ⟨_, _, _, turn⟩ | ⟨_, _, turn⟩ | ⟨_, _, request, keeper, _, turn⟩ | ⟨_, keeper, turn⟩ := step_turns taken
  · rw [turn.report] at inside
    cases inside
  · rw [turn.sent] at inside
    cases inside
  · obtain ⟨_, outcome, replies, performed, _, _, sends, asides, _⟩ | ⟨_, words, user, room, _, _, _, _, sends⟩ |
        ⟨_, asides, _⟩ :=
      serve_cases inv turn.served
    · rw [sends] at inside
      rcases List.mem_append.mp inside with info | reply
      · exact info_from_server inv performed message info
      · exact aside_from_server (asides message reply)
    · rw [sends] at inside
      obtain ⟨member, _, rfl⟩ := List.mem_map.mp inside
      exact ⟨.s2cRoomChatMsg, by decide, rfl⟩
    · exact aside_from_server (asides message inside)
  · obtain ⟨outcome, done, same⟩ := bind_ok.mp turn.dropped
    have performed : system.keeper.perform (.drop report.connId) = .ok outcome := done
    obtain ⟨_, sends⟩ := Prod.mk.inj (Except.ok.inj same)
    rw [← sends] at inside
    exact info_from_server inv performed message inside

/-- Whatever is on its way to a client, the server has sent. -/
theorem told_from_server {acts : List Act} (ran : run step .new acts = .ok (final, reports)) :
    ∀ message ∈ toldTo connId reports, FromServer message := by
  have held := run_history_always
    (fun system seen => Inv system.keeper ∧ ∀ message ∈ toldTo connId (seen.map Prod.snd), FromServer message)
    (fun _ seen _ _ report held taken => by
      refine ⟨keeper_kept held.1 taken, fun message inside => ?_⟩
      rw [List.map_append, List.map_singleton, told_snoc] at inside
      rcases List.mem_append.mp inside with old | new
      · exact held.2 message old
      · obtain ⟨envelope, within, rfl⟩ := List.mem_map.mp new
        exact step_sends held.1 taken envelope (List.mem_of_mem_filter within))
    ⟨inv_new, (fun _ none => nomatch none)⟩ ran
  rw [List.map_snd_zip (run_length ran).le] at held
  exact held.2

/-- What the server sends makes a client send nothing. -/
private theorem hears_says_nothing {client : CRClient} {known : ClientReading.Message} {message : List Field}
    (server : FromServer message) (front : known.fields <+: message) :
    saidIn (ClientReading.answer client known).2 = [] := by
  obtain ⟨rest, rfl⟩ := front
  obtain ⟨type, listed, first⟩ := server
  cases known with
  | localWhisper toName words =>
    have code : MsgType.localWhisperMsg.code = type.code := by
      simpa [ClientReading.Message.fields, MsgType.field] using first
    rw [← MsgType.code_injective code] at listed
    exact absurd listed (by decide)
  | bare code silent =>
    have same : code = type.code := by simpa [ClientReading.Message.fields, MsgType.field] using first
    simp only [ClientReading.answer, same, MsgType.of_code_code]
    split
    · simp [CRClient.showRoomList, saidIn]
    next selected =>
      cases Option.some.inj selected
      exact absurd listed (by decide)
    · rfl
  | _ => rfl

/-! ### What is left to take -/

def leftAt (part : Station → Nat) (system : ChatSystem) (connId : UInt64) : Nat := ((system.station connId).map part).getD 0

/-- What is left at all stations together. -/
def leftIn (part : Station → Nat) (system : ChatSystem) : Nat :=
  ∑ number ∈ Finset.range system.mMaxID, leftAt part system (UInt64.ofNat number)

theorem left_lt {part : Station → Nat} (count : next.mMaxID = system.mMaxID) (young : connId.toNat < system.mMaxID)
    (each : ∀ connId, leftAt part next connId ≤ leftAt part system connId)
    (less : leftAt part next connId < leftAt part system connId) : leftIn part next < leftIn part system := by
  unfold leftIn
  rw [count]
  refine Finset.sum_lt_sum (fun number _ => each _) ⟨connId.toNat, Finset.mem_range.mpr young, ?_⟩
  rwa [UInt64.ofNat_toNat]

/-- A taken message counts more than what comes of it. -/
def leftOver (system : ChatSystem) : ℕ ×ₗ ℕ ×ₗ ℕ :=
  toLex (leftIn (fun station => station.posted.length) system,
    toLex (leftIn (fun station => station.up.length) system, leftIn (fun station => station.down.length) system))

theorem left_at_set {part : Station → Nat} {before after : Station} (found : system.station connId = some before)
    (less : part after ≤ part before) (probe : UInt64) :
    leftAt part (system.setStation connId (some after)) probe ≤ leftAt part system probe := by
  simp only [leftAt, station_set]
  split
  next here =>
    rw [here, found]
    simpa using less
  next => exact Nat.le_refl _

theorem left_in_set {part : Station → Nat} {before after : Station} (found : system.station connId = some before)
    (young : connId.toNat < system.mMaxID) (less : part after < part before) :
    leftIn part (system.setStation connId (some after)) < leftIn part system := by
  refine left_lt rfl young (left_at_set found (Nat.le_of_lt less)) ?_
  simpa [leftAt, found] using less

theorem left_in_same {part : Station → Nat} {before after : Station} (found : system.station connId = some before)
    (same : part after = part before) : leftIn part (system.setStation connId (some after)) = leftIn part system := by
  refine Finset.sum_congr rfl fun number _ => ?_
  simp only [leftAt, station_set]
  split
  next here =>
    rw [here, found]
    simpa using same
  next => rfl

/-- What is on its way down does not count as said. -/
theorem left_in_deliver {part : Station → Nat} (upward : ∀ station down, part { station with down } = part station)
    (system : ChatSystem)
    (sent : List Sent) : leftIn part (system.deliver sent) = leftIn part system := by
  refine Finset.sum_congr rfl fun number _ => ?_
  simp only [leftAt, station_deliver]
  cases system.station (UInt64.ofNat number) with
  | none => rfl
  | some station => simp [upward]

theorem left_falls (joined : Joined system reports)
    (server : ∀ connId, ∀ message ∈ toldTo connId reports, FromServer message)
    (reads : Reads act) (taken : step system act = .ok (next, report)) : leftOver next < leftOver system := by
  rw [leftOver, leftOver, Prod.Lex.toLex_lt_toLex, Prod.Lex.toLex_lt_toLex]
  cases act with
  | minds connId =>
    obtain ⟨before, message, posted, after, effects, waiting, took, rfl, turn⟩ := minds_turn taken
    obtain ⟨_, known, _, _, rfl⟩ := takes_ok took
    left
    rw [turn.next]
    exact left_in_set turn.found (joined.young _ _ turn.found) (by rw [waiting]; exact Nat.lt_succ_self _)
  | hears connId =>
    obtain ⟨before, message, down, after, effects, waiting, took, rfl, turn⟩ := hears_turn taken
    obtain ⟨_, known, front, rfl, rfl⟩ := takes_ok took
    have told : FromServer message := by
      apply server connId
      rw [(joined.flows _ _ turn.found).down, waiting]
      exact List.mem_append_right _ List.mem_cons_self
    right
    rw [turn.next]
    refine ⟨left_in_same turn.found rfl, .inr ⟨left_in_same turn.found ?_, ?_⟩⟩
    · dsimp only
      rw [hears_says_nothing told front, List.append_nil]
    · exact left_in_set turn.found (joined.young _ _ turn.found) (by rw [waiting]; exact Nat.lt_succ_self _)
  | serves connId =>
    obtain ⟨rfl, before, request, keeper, up, turn⟩ := serves_turn taken
    obtain ⟨rest, waiting, _⟩ := turn.waiting
    right
    rw [turn.next, left_in_deliver fun _ _ => rfl, left_in_deliver fun _ _ => rfl]
    refine ⟨left_in_same turn.found rfl, .inl ?_⟩
    exact left_in_set turn.found (joined.young _ _ turn.found) (by rw [waiting]; exact Nat.lt_succ_self _)
  | connects name ip port => exact reads.elim
  | types connId line => exact reads.elim
  | asks connId request => exact reads.elim
  | drops connId => exact reads.elim

/-! ### Whole runs -/

/-- Nobody connects meanwhile. -/
theorem reads_counts (reads : Reads act) (taken : step system act = .ok (next, report)) : next.mMaxID = system.mMaxID := by
  cases act with
  | minds connId =>
    obtain ⟨_, _, _, _, _, _, _, _, turn⟩ := minds_turn taken
    rw [turn.next]
    rfl
  | hears connId =>
    obtain ⟨_, _, _, _, _, _, _, _, turn⟩ := hears_turn taken
    rw [turn.next]
    rfl
  | serves connId =>
    obtain ⟨_, _, _, _, _, turn⟩ := serves_turn taken
    rw [turn.next]
    rfl
  | connects name ip port => exact reads.elim
  | types connId line => exact reads.elim
  | asks connId request => exact reads.elim
  | drops connId => exact reads.elim

/-- A state that the program comes to, with so many connections made. -/
def ComesTo (count : Nat) (system : ChatSystem) : Prop :=
  system.mMaxID = count ∧ ∃ acts reports, run step .new acts = .ok (system, reports)

theorem reads_falls {count : Nat} (few : count ≤ 2 ^ 64) (comes : ComesTo count system) (reads : Reads act)
    (taken : step system act = .ok (next, report)) : ComesTo count next ∧ leftOver next < leftOver system := by
  obtain ⟨same, acts, reports, ran⟩ := comes
  have joined := run_joined ran (same ▸ few)
  refine ⟨⟨?_, acts ++ [act], reports ++ [report], run_snoc ran taken⟩,
    left_falls joined (fun connId => told_from_server ran) reads taken⟩
  rw [reads_counts reads taken, same]

/-- A request that the server does not survive fails an assertion. -/
theorem serve_fails {ip : StdString} {port : UInt16} {request : Worker.Request} {fault : Fault} (inv : Inv keeper)
    (failed : Worker.serve ip port connId request keeper = .error fault) : fault = .assertion := by
  have answered (able : WorkerSafety.Answerable keeper connId request) : fault = .assertion := by
    obtain ⟨next, sent, served⟩ := (WorkerSafety.serve_iff inv ip port connId request).mpr able
    rw [served] at failed
    cases failed
  cases request with
  | chat roomId words =>
    by_cases online : connId ∈ keeper.mIdUser
    · by_cases built : roomId ∈ keeper.mIdRoom
      · exact answered ⟨online, built⟩
      · obtain ⟨user, known⟩ := mem_users.mp online
        have missing : keeper.mIdRoom[roomId]? = none := absent_room.mp built
        simp only [Worker.serve, Worker.serveChat, RoomKeeper.publishRoomMessage, RoomKeeper.getUserById, known,
          RoomKeeper.getRoomById,
          missing, ok_then, error_then, Except.error.injEq] at failed
        exact failed.symm
    · have unknown : keeper.mIdUser[connId]? = none := by
        by_contra some
        exact online (mem_users.mpr (Option.ne_none_iff_exists'.mp some))
      simp only [Worker.serve, Worker.serveChat, RoomKeeper.publishRoomMessage, RoomKeeper.getUserById, unknown, error_then,
        Except.error.injEq] at failed
      exact failed.symm
  | whisper toName words =>
    by_cases online : connId ∈ keeper.mIdUser
    · exact answered online
    · have unknown : keeper.mIdUser[connId]? = none := by
        by_contra some
        exact online (mem_users.mpr (Option.ne_none_iff_exists'.mp some))
      simp only [Worker.serve, Worker.serveWhisper, RoomKeeper.getUserById, unknown, error_then,
        Except.error.injEq] at failed
      exact failed.symm
  | logon name => exact answered trivial
  | createRoom roomName passwd => exact answered trivial
  | joinRoom roomName passwd => exact answered trivial
  | other code unknown => exact answered trivial

/-- A client that still runs does not wait for a message that is there. -/
private theorem takes_waits {before : Station} {message : List Field} (waits : takes before message = .error .blocked) :
    before.exited = true := by
  unfold takes at waits
  split at waits
  next exited => exact exited
  next =>
    split at waits
    · cases waits
    · cases waits

private theorem still_running {α : Type} {before : Station} {message : List Field} {next : Station × List Effect → α}
    {result : Prop}
    (waits : (takes before message >>= fun reply => pure (next reply)) = .error .blocked)
    (same : before.exited = station.exited)
    (running : station.exited = false) : result := by
  cases took : takes before message with
  | ok reply =>
    rw [took] at waits
    cases waits
  | error fault =>
    rw [took] at waits
    cases Except.error.inj waits
    rw [← same, takes_waits took] at running
    cases running

/-- Where nothing is left to take, nothing is left. -/
theorem nothing_left (inv : Inv system.keeper) (resting : ∀ act, Reads act → step system act = .error .blocked)
    (stands : system.station connId = some station) :
    station.up = [] ∧ (station.exited = false → station.posted = [] ∧ station.down = []) := by
  have found := find_ok.mpr stands
  refine ⟨?_, fun running => ⟨?_, ?_⟩⟩
  · cases waiting : station.up with
    | nil => rfl
    | cons message up =>
      have waits := resting (.serves connId) trivial
      simp only [step, found, ok_then, waiting] at waits
      cases served : system.serve connId station message with
      | ok reply =>
        simp only [served] at waits
        cases waits
      | error fault =>
        simp only [served, error_then, Except.error.injEq] at waits
        subst waits
        unfold serve at served
        split at served
        · cases served
        next act values ran =>
          obtain ⟨request, _, rfl⟩ := (Worker.recv_message_ok ..).mp ran
          cases serve_fails inv served
  · cases waiting : station.posted with
    | nil => rfl
    | cons message posted =>
      have waits := resting (.minds connId) trivial
      simp only [step, found, ok_then, waiting] at waits
      exact still_running waits rfl running
  · cases waiting : station.down with
    | nil => rfl
    | cons message down =>
      have waits := resting (.hears connId) trivial
      simp only [step, found, ok_then, waiting] at waits
      exact still_running waits rfl running

/-- Where nothing is on its way, nothing can be taken. -/
theorem nothing_to_take (empty : ∀ connId station, system.station connId = some station →
      station.up = [] ∧ station.posted = [] ∧ station.down = []) (reads : Reads act) :
    step system act = .error .blocked := by
  have waits : ∀ connId, system.find connId = .error .blocked ∨ ∃ station, system.find connId = .ok station ∧
      station.up = [] ∧ station.posted = [] ∧ station.down = [] := by
    intro connId
    cases stands : system.station connId with
    | none => exact .inl (by rw [find, stands])
    | some station => exact .inr ⟨station, find_ok.mpr stands, empty connId station stands⟩
  cases act with
  | minds connId =>
    rcases waits connId with gone | ⟨station, found, _, posted, _⟩
    · rw [step, gone, error_then]
    · simp only [step, found, ok_then, posted]
      rfl
  | hears connId =>
    rcases waits connId with gone | ⟨station, found, _, _, down⟩
    · rw [step, gone, error_then]
    · simp only [step, found, ok_then, down]
      rfl
  | serves connId =>
    rcases waits connId with gone | ⟨station, found, up, _, _⟩
    · rw [step, gone, error_then]
    · simp only [step, found, ok_then, up]
      rfl
  | connects name ip port => cases reads
  | types connId line => cases reads
  | asks connId request => cases reads
  | drops connId => cases reads

/-- From wherever it is, the program cannot go on for ever without new input. It comes to
a state in which no message can be taken; and if that is because no message is left, there
is none on its way to any client that still runs, and every window of these shows its
user's room as it is. -/
theorem the_program_comes_to_rest
    {acts : List Act} (ran : run step .new acts = .ok (final, reports)) (few : final.mMaxID < 2 ^ 32) :
    (¬ ∃ later : Nat → ChatSystem, later 0 = final ∧
      ∀ count, ∃ act report, Reads act ∧ step (later count) act = .ok (later (count + 1), report)) ∧
    ∃ more rest answers, (∀ act ∈ more, Reads act) ∧ run step final more = .ok (rest, answers) ∧
      (∀ act, Reads act → ∃ fault, step rest act = .error fault) ∧
      ((∀ act, Reads act → step rest act = .error .blocked) →
        ∀ connId station, rest.station connId = some station → station.up = [] ∧
          (station.exited = false → station.posted = [] ∧ station.down = [] ∧
            ShowsRoom connId rest.keeper station.client)) := by
  have bound : final.mMaxID ≤ 2 ^ 64 := by omega
  have start : ComesTo final.mMaxID final := ⟨rfl, acts, reports, ran⟩
  have falls := fun state act next report => @reads_falls state next act report final.mMaxID bound
  refine ⟨no_endless_run (ComesTo final.mMaxID) Reads leftOver falls start, ?_⟩
  obtain ⟨more, rest, answers, reads, goesOn, ⟨same, before, seen, ranToRest⟩, resting⟩ :=
    run_comes_to_rest (ComesTo final.mMaxID) Reads leftOver falls start
  refine ⟨more, rest, answers, reads, goesOn, resting, fun blocked connId station stands => ?_⟩
  have inv := (run_joined ranToRest (same ▸ bound)).inv
  obtain ⟨up, others⟩ := nothing_left inv blocked stands
  refine ⟨up, fun running => ?_⟩
  obtain ⟨posted, down⟩ := others running
  exact ⟨posted, down, shown_now ranToRest (same ▸ few) stands (by rw [down]; rfl)⟩

/-- Ann and Bob are in the hall, and Ann has said something. -/
private def annIsHeard : List Act :=
  [.connects (.ascii "ann") (.ascii "h") 1, .connects (.ascii "bob") (.ascii "g") 2, .serves 0, .serves 1, .hears 0,
    .types 0 (.ascii "ho")]

private def allIsTaken : List Act :=
  [.serves 0, .hears 0, .hears 0, .hears 0, .hears 0, .hears 1, .hears 1, .hears 1, .hears 1]

private def isServed (station : Station) : Bool :=
  station.up.isEmpty && station.posted.isEmpty && station.down.isEmpty && !station.exited

/-- Once all is taken, nothing more can be, and both windows show the hall as it is. -/
theorem ann_and_bob_come_to_rest :
    ∃ final reports, run step .new (annIsHeard ++ allIsTaken) = .ok (final, reports) ∧
      (∀ act ∈ allIsTaken, Reads act) ∧ (∀ act, Reads act → step final act = .error .blocked) ∧
      ∀ connId ∈ [(0 : UInt64), 1], ∃ station, final.station connId = some station ∧
        ShowsRoom connId final.keeper station.client := by
  have goes : (run step .new (annIsHeard ++ allIsTaken)).toOption.map (fun reply =>
      (reply.1.mMaxID, (reply.1.station 0).map isServed, (reply.1.station 1).map isServed)) =
      some (2, some true, some true) := by decide +kernel
  obtain ⟨⟨final, reports⟩, ran, shape⟩ := Option.map_eq_some_iff.mp goes
  simp only [Prod.mk.injEq, Option.map_eq_some_iff] at shape
  obtain ⟨count, ⟨ann, annStands, annServed⟩, bob, bobStands, bobServed⟩ := shape
  have done := ok_of_option ran
  have few : final.mMaxID < 2 ^ 32 := by omega
  have empty : ∀ connId station, final.station connId = some station →
      station.up = [] ∧ station.posted = [] ∧ station.down = [] ∧ station.exited = false := by
    intro connId station stands
    have served : isServed station = true := by
      have young := (run_joined done (by omega)).young connId station stands
      obtain rfl | rfl : connId = 0 ∨ connId = 1 := by
        rw [← UInt64.toNat_inj, ← UInt64.toNat_inj, UInt64.toNat_zero, UInt64.toNat_one]
        omega
      · rwa [Option.some.inj (stands.symm.trans annStands)]
      · rwa [Option.some.inj (stands.symm.trans bobStands)]
    simpa [isServed, and_assoc] using served
  have resting : ∀ act, Reads act → step final act = .error .blocked := fun act reads =>
    nothing_to_take (fun connId station stands =>
      ⟨(empty connId station stands).1, (empty connId station stands).2.1, (empty connId station stands).2.2.1⟩) reads
  obtain ⟨_, more, rest, answers, reads, goesOn, _, shows⟩ := the_program_comes_to_rest done few
  obtain rfl : rest = final := by
    cases more with
    | nil =>
      cases goesOn
      rfl
    | cons act more =>
      obtain ⟨next, report, others, taken, _⟩ := run_cons_ok.mp goesOn
      rw [resting act (reads act (List.mem_cons_self ..))] at taken
      cases taken
  refine ⟨rest, reports, done, by simp [allIsTaken, Reads], resting, fun connId named => ?_⟩
  obtain ⟨station, stands⟩ : ∃ station, rest.station connId = some station := by
    rcases List.mem_pair.mp named with rfl | rfl
    · exact ⟨ann, annStands⟩
    · exact ⟨bob, bobStands⟩
  obtain ⟨_, shown⟩ := shows resting connId station stands
  exact ⟨station, stands, (shown (empty connId station stands).2.2.2).2.2⟩

end ChatRoom.ComingToRest
