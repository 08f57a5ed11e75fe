import ChatRoom.InputAcceptance
import ChatRoom.WindowBounds

/-! How long names and lines may get before a window overruns one of the three buffers that
they pass: that of a typed line, that of a chat message, and that of a line of the user
list. The limits are exact: behind them, somebody who logs on and says something writes
behind a buffer of its own client. The TAB key is not part of this: what is bound to it
has a buffer of its own, which no limit on lines protects (`tabs_overrun`). -/
namespace ChatRoom.WindowOverruns
open Lib Wire ChatSystem RoomKeeperInvariant SystemFlow Layout WindowBounds

variable {limits : Limits} {system final : ChatSystem} {reports : List Report} {station : Station} {keeper : RoomKeeper}
  {sent : List Sent}

/-! ### Texts that do not fit -/

private theorem overruns {size : Nat} {output : List UInt8} (noNul : 0 ∉ output) (long : size ≤ output.length) :
    ¬ FitsIn size output := by
  have all : output.takeWhile (· != 0) = output := by
    refine List.takeWhile_eq_self_iff.mpr fun char inside => ?_
    have some : char ≠ 0 := fun zero => noNul (zero ▸ inside)
    simpa using some
  rw [FitsIn, all]
  exact Nat.not_lt.mpr long

/-- A text of blanks. -/
def blanks (count : Nat) : List UInt8 := List.replicate count (byte ' ')

private theorem blanks_no_nul (count : Nat) : 0 ∉ blanks count :=
  fun inside => absurd (List.eq_of_mem_replicate inside) (by decide)

def blankName (count : Nat) (short : count < 2 ^ 31) : StdString :=
  ⟨blanks count, by rw [blanks, List.length_replicate]; omega⟩

def blankLine (count : Nat) (short : count < 2 ^ 31) : CString :=
  ⟨blanks count, blanks_no_nul count, by rw [blanks, List.length_replicate]; exact short⟩

/-! ### A first guest -/

/-- A client takes a message that it knows. -/
private theorem takes_known (running : station.exited = false) (known : ClientReading.Message) (rest : List Field) :
    takes station (known.fields ++ rest) = .ok ({ station with
      client := (ClientReading.answer station.client known).1
      exited := (ClientReading.answer station.client known).2.any isExit
      up := station.up ++ saidIn (ClientReading.answer station.client known).2 },
        (ClientReading.answer station.client known).2) := by
  unfold takes
  rw [if_neg (by simp [running]), ClientReading.recv_message_ok.mpr ⟨known, rfl, rfl⟩]

/-- The station of a client that has said all it had to say. -/
def quietStation (ip : StdString) (port : UInt16) (client : CRClient) (down : List (List Field)) : Station :=
  ⟨ip, port, client, false, [], [], down⟩

/-- It takes a message that neither ends it nor makes it say something. -/
private theorem hears_on {ip : StdString} {port : UInt16} {client : CRClient} {connId : UInt64} {down : List (List Field)}
    (known : ClientReading.Message)
    (stands : system.station connId = some (quietStation ip port client (known.fields :: down)))
    (stays : (ClientReading.answer client known).2.any isExit = false)
    (silent : saidIn (ClientReading.answer client known).2 = []) :
    ∃ next report, step system (.hears connId) = .ok (next, report) ∧ report.connId = connId ∧
      report.shown = (ClientReading.answer client known).2 ∧ next.keeper = system.keeper ∧
      next.station connId = some (quietStation ip port (ClientReading.answer client known).1 down) := by
  have took := @takes_known (quietStation ip port client down) rfl known []
  rw [List.append_nil] at took
  simp only [quietStation, stays, silent, List.append_nil] at took
  have taken : step system (.hears connId) = .ok
      (system.setStation connId (some (quietStation ip port (ClientReading.answer client known).1 down)),
        { connId, said := saidIn (ClientReading.answer client known).2, heard := [known.fields],
          shown := (ClientReading.answer client known).2 }) := by
    simp only [step, find_ok.mpr stands, ok_then, quietStation, took]
    rfl
  exact ⟨_, _, taken, rfl, rfl, rfl, by rw [station_set, if_pos rfl]⟩

/-- The server takes a request, and the client has everything else behind it. -/
private theorem serves_on {ip : StdString} {port : UInt16} {client : CRClient} {connId : UInt64} (request : Worker.Request)
    (stands : system.station connId = some ⟨ip, port, client, false, [], [request.fields], []⟩)
    (served : Worker.serve ip port connId request system.keeper = .ok (keeper, sent)) :
    ∃ next report, step system (.serves connId) = .ok (next, report) ∧ next.keeper = keeper ∧
      next.station connId = some (quietStation ip port client (sentTo connId sent)) := by
  have read := (Worker.recv_message_ok ip port connId).mpr ⟨request, (List.append_nil _).symm, rfl⟩
  have taken : step system (.serves connId) = .ok
      ({ system.setStation connId (some (quietStation ip port client [])) with keeper }.deliver sent,
        { connId, served := [request.fields], sent }) := by
    simp only [step, find_ok.mpr stands, ok_then, ChatSystem.serve, read, served]
    rfl
  refine ⟨_, _, taken, rfl, ?_⟩
  rw [station_deliver]
  change ((system.setStation connId (some (quietStation ip port client []))).station connId).map _ = _
  rw [station_set, if_pos rfl]
  rfl

/-- A user who has logged on where nobody else has. -/
def newcomer (name ip : StdString) (port : UInt16) (connId : UInt64) : User := (User.new name ip port connId).setRoomId 0

/-- The hall, with one user in it. -/
def hallOf (connId : UInt64) : Room := (Room.new 0 HALL_NAME (.ascii "")).add connId

def keeperOf (name ip : StdString) (port : UInt16) (connId : UInt64) : RoomKeeper :=
  entered (registered .new (.new name ip port connId)) connId (.new name ip port connId) 0 (.new 0 HALL_NAME (.ascii ""))

private theorem newcomer_known (name ip : StdString) (port : UInt16) (connId : UInt64) :
    (keeperOf name ip port connId).mIdUser[connId]? = some (newcomer name ip port connId) := by
  rw [keeperOf, entered_user, if_pos rfl, newcomer]

private theorem hall_stored (name ip : StdString) (port : UInt16) (connId : UInt64) :
    (keeperOf name ip port connId).mIdRoom[(0 : UInt32)]? = some (hallOf connId) := by
  rw [keeperOf, entered_room, if_pos rfl, hallOf]

private theorem member_of_hall (connId : UInt64) : connId ∈ (hallOf connId).mUsers := Room.mem_add.mpr (.inl rfl)

private theorem hall_members {connId userId : UInt64} (inside : userId ∈ (hallOf connId).mUsers) : userId = connId :=
  (Room.mem_add.mp inside).resolve_right (new_room_is_empty 0 HALL_NAME (.ascii "") userId)

private theorem newcomer_logs_on (name ip : StdString) (port : UInt16) (connId : UInt64) :
    RoomKeeper.new.handleLogon name ip port connId =
      .ok ((keeperOf name ip port connId).succeeded (announce (keeperOf name ip port connId) (hallOf connId))) := by
  obtain ⟨hall, stored, accepted⟩ := logon_accepts inv_new ip port (new_has_no_users connId) (new_user_names name)
  rw [new_rooms, if_pos rfl] at stored
  cases stored
  exact accepted

private theorem newcomer_inv (name ip : StdString) (port : UInt16) (connId : UInt64) :
    Inv (keeperOf name ip port connId) := by
  obtain ⟨outcome, performed, kept, _⟩ := perform_advances inv_new (.logon name ip port connId)
  have logged : RoomKeeper.new.handleLogon name ip port connId = .ok outcome := performed
  cases logged.symm.trans (newcomer_logs_on name ip port connId)
  exact kept

private theorem hall_few (connId : UInt64) : (hallOf connId).mUsers.size < 2 ^ 32 := by
  have alone : (hallOf connId).getAllUsers ⊆ [connId] := fun userId inside =>
    List.mem_singleton.mpr (hall_members (Room.mem_all_users.mp inside))
  have length := ((hallOf connId).all_users_nodup.subperm alone).length_le
  rw [Room.all_users_length, List.length_singleton] at length
  omega

private theorem one_room (name ip : StdString) (port : UInt16) (connId : UInt64) :
    valuesOf (keeperOf name ip port connId).mIdRoom = [hallOf connId] := by
  refine values_of_single (fun other inside => ?_) (hall_stored name ip port connId)
  by_contra different
  rw [Std.ExtTreeMap.mem_iff_isSome_getElem?, keeperOf, entered_room, if_neg (Ne.symm different)] at inside
  have absent := new_rooms other
  rw [if_neg (Ne.symm different)] at absent
  have same : (registered RoomKeeper.new (.new name ip port connId)).mIdRoom[other]? = none := absent
  rw [same] at inside
  cases inside

/-- The three messages that a newcomer is sent. -/
private theorem newcomer_told (name ip : StdString) (port : UInt16) {connId : UInt64} (other : connId ≠ 0) :
    ∃ sent short listed, Worker.serve ip port connId (.logon name) .new = .ok (keeperOf name ip port connId, sent) ∧
      sentTo connId sent = [
        (ClientReading.Message.roomInfo ((hallOf connId).entry (hall_few connId))
          (usersOf (keeperOf name ip port connId) (hallOf connId)) short).fields,
        (ClientReading.Message.logonOk (.ascii "") (newcomer name ip port connId)).fields,
        (ClientReading.Message.roomList [(hallOf connId).entry (hall_few connId)] listed).fields] := by
  obtain ⟨short, info⟩ := ClientView.announced_fields (newcomer_inv name ip port connId) (hall_stored name ip port connId)
    (hall_few connId)
  have one : [(hallOf connId).entry (hall_few connId)].length < 2 ^ 32 := by
    rw [List.length_singleton]
    omega
  refine ⟨announce (keeperOf name ip port connId) (hallOf connId) ++
    ⟨connId, Worker.logonRes 0 (.ascii "") (newcomer name ip port connId).encode⟩ ::
      (keeperOf name ip port connId).publishRoomList connId,
    short, one, ?_, ?_⟩
  · simp only [Worker.serve, Worker.serveLogon, newcomer_logs_on, ok_then, RoomKeeper.succeeded, Worker.returnedUser,
      if_true, newcomer_known]
    rfl
  · have list : RoomKeeper.listFields [hallOf connId] =
        (ClientReading.Message.roomList [(hallOf connId).entry (hall_few connId)] one).fields := by
      rw [RoomKeeper.listFields, ClientReading.Message.fields, List.flatMap_singleton, List.flatMap_singleton,
        Room.encode_entry]
      rfl
    rw [sent_to_append, announce, sent_to_each, if_pos (member_of_hall connId), RoomKeeper.publishRoomList, if_pos other,
      one_room, list, ← info]
    simp only [sentTo, Worker.logonRes, BEq.rfl, List.filter_cons_of_pos, List.filter_nil, List.map_cons, List.map_nil,
      List.cons_append, List.nil_append, List.cons.injEq, and_true, true_and]
    rfl

/-- A client that has just started. -/
def freshStation (name ip : StdString) (port : UInt16) : Station :=
  ⟨ip, port, .new name, false, [], [(CRClient.new name).logonFields], []⟩

private theorem listed_newcomer
    (name ip : StdString) (port : UInt16) (connId : UInt64) (client : CRClient) (entry : Room.Entry) :
    ∃ lines, (ClientReading.showing client entry
      (usersOf (keeperOf name ip port connId) (hallOf connId))).updateWindowUserList = .userList lines ∧
      userLine (newcomer name ip port connId) ∈ lines := by
  refine ⟨_, rfl, List.mem_cons_of_mem _
    (List.mem_map.mpr ⟨newcomer name ip port connId, mem_values_of.mpr ⟨connId, ?_⟩, rfl⟩)⟩
  have online := ClientView.onlines_of_room (newcomer_inv name ip port connId) (hallOf connId) connId
  rw [if_pos (member_of_hall connId), newcomer_known] at online
  exact online

/-- Whoever logs on first is shown itself, and ends up in the hall with nothing more to
hear. -/
theorem newcomer_settles {name ip : StdString} {port : UInt16} {connId : UInt64} (empty : system.keeper = .new)
    (other : connId ≠ 0)
    (stands : system.station connId = some (freshStation name ip port)) :
    ∃ next served info ok list, run step system [.serves connId, .hears connId, .hears connId, .hears connId] =
        .ok (next, [served, info, ok, list]) ∧ info.connId = connId ∧
      (∃ lines, .userList lines ∈ info.shown ∧ userLine (newcomer name ip port connId) ∈ lines) ∧
      next.keeper = keeperOf name ip port connId ∧
      ∃ client, next.station connId = some (quietStation ip port client []) ∧ client.mUserName = name ∧
        client.mCurrentRoom.mID = 0 ∧ client.mCdkRunning = true := by
  obtain ⟨sent, short, listed, served, told⟩ := newcomer_told name ip port other
  rw [← empty] at served
  obtain ⟨first, reply, serves, kept, there⟩ := serves_on (.logon name) stands served
  rw [told] at there
  obtain ⟨second, info, hears, own, shown, keeper2, there2⟩ := hears_on _ there rfl rfl
  obtain ⟨third, ok, hears3, _, _, keeper3, there3⟩ := hears_on _ there2 rfl rfl
  obtain ⟨next, list, hears4, _, _, keeper4, there4⟩ := hears_on _ there3 rfl rfl
  have ran : run step system [.serves connId, .hears connId, .hears connId, .hears connId] =
      .ok (next, [reply, info, ok, list]) := by
    simp only [run, serves, hears, hears3, hears4]
  obtain ⟨lines, drawn, inside⟩ := listed_newcomer name ip port connId (.new name) ((hallOf connId).entry (hall_few connId))
  refine ⟨next, reply, info, ok, list, ran, own, ⟨lines, ?_, inside⟩, by rw [keeper4, keeper3, keeper2, kept], _, there4,
    rfl, ?_, rfl⟩
  · rw [shown]
    exact List.mem_singleton.mpr drawn.symm
  · exact Room.add_id

/-- And then it says something, which it hears and shows as its own. -/
theorem newcomer_speaks {name ip : StdString} {port : UInt16} {connId : UInt64} {client : CRClient} {line : CString}
    (kept : system.keeper = keeperOf name ip port connId)
    (stands : system.station connId = some (quietStation ip port client []))
    (named : client.mUserName = name) (home : client.mCurrentRoom.mID = 0) (running : client.mCdkRunning = true)
    (blank : ¬ InputParser.HasWord line.bytes) :
    ∃ next typed served heard,
      run step system [.types connId line, .serves connId, .hears connId] = .ok (next, [typed, served, heard]) ∧
      heard.connId = connId ∧ .receive name line.string true ∈ heard.shown := by
  have parsed := InputParser.parse_blank_line blank .new
  have handled : client.handleInput line = .ok (client, [.send (some (Worker.Request.chat 0 line.string).fields)]) := by
    simp only [CRClient.handleInput, parsed, CRClient.chatFields, home]
    rfl
  have types : step system (.types connId line) = .ok
      (system.setStation connId (some ⟨ip, port, client, false, [], [(Worker.Request.chat 0 line.string).fields], []⟩),
        { connId, said := [(Worker.Request.chat 0 line.string).fields] }) := by
    simp only [step, find_ok.mpr stands, ok_then, quietStation, handled, running]
    rfl
  have inv := newcomer_inv name ip port connId
  have published := WorkerSafety.publish_room_message_ok inv (newcomer_known name ip port connId)
    (hall_stored name ip port connId) line.string
  have said : Worker.serve ip port connId (.chat 0 line.string) system.keeper =
      .ok (keeperOf name ip port connId,
        (hallOf connId).getAllUsers.map fun member => ⟨member, RoomKeeper.chatFields name line.string⟩) := by
    simp only [Worker.serve, Worker.serveChat, kept, published, ok_then]
    rfl
  have there : (system.setStation connId
      (some ⟨ip, port, client, false, [], [(Worker.Request.chat 0 line.string).fields], []⟩)).station connId =
      some ⟨ip, port, client, false, [], [(Worker.Request.chat 0 line.string).fields], []⟩ := by
    rw [station_set, if_pos rfl]
  obtain ⟨second, served, serves, _, there2⟩ := serves_on (.chat 0 line.string) there said
  rw [sent_to_each, if_pos (member_of_hall connId)] at there2
  obtain ⟨next, heard, hears, own, shown, _, _⟩ := hears_on (.roomChat name line.string) there2 rfl rfl
  refine ⟨next, { connId, said := [(Worker.Request.chat 0 line.string).fields] }, served, heard, ?_, own, ?_⟩
  · simp only [run, types, serves, hears]
  · rw [shown, ClientReading.answer, named, beq_self_eq_true]
    exact List.mem_singleton_self _

/-- Clients that are gone before they have asked for anything, one after the other. -/
def comeAndGo (name ip : StdString) (port : UInt16) (count : Nat) : List Act :=
  (List.range count).flatMap fun index => [.connects name ip port, .drops (UInt64.ofNat index)]

private theorem come_and_go_succ (name ip : StdString) (port : UInt16) (count : Nat) :
    comeAndGo name ip port (count + 1) = comeAndGo name ip port count ++ [.connects name ip port] ++
      [.drops (UInt64.ofNat count)] := by
  rw [comeAndGo, List.range_succ, List.flatMap_append, List.flatMap_singleton, List.append_assoc]
  rfl

/-- A client connects, under the next id. -/
private theorem connects_on (name ip : StdString) (port : UInt16) (system : ChatSystem) :
    ∃ next report, step system (.connects name ip port) = .ok (next, report) ∧ next.keeper = system.keeper ∧
      next.mMaxID = system.mMaxID + 1 ∧ next.station (UInt64.ofNat system.mMaxID) = some (freshStation name ip port) := by
  refine ⟨_, _, rfl, rfl, rfl, ?_⟩
  change (system.setStation (UInt64.ofNat system.mMaxID) (some (freshStation name ip port))).station _ = _
  rw [station_set, if_pos rfl]

/-- And is gone again. -/
private theorem drops_on {connId : UInt64} (empty : system.keeper = .new) (stands : system.station connId = some station) :
    ∃ next report, step system (.drops connId) = .ok (next, report) ∧ next.keeper = .new ∧ next.mMaxID = system.mMaxID := by
  have dropped : Worker.drop system.keeper connId = .ok (.new, []) := by
    rcases drop_cases inv_new connId with ⟨_, nothing⟩ | ⟨user, _, known, _⟩
    · rw [empty, Worker.drop, nothing]
      rfl
    · cases (new_has_no_users connId).symm.trans known
  refine ⟨{ system.setStation connId none with keeper := .new }.deliver [], { connId, sent := [] }, ?_, rfl, rfl⟩
  simp only [step, find_ok.mpr stands, dropped, ok_then]
  rfl

private theorem strangers (name ip : StdString) (port : UInt16) (count : Nat) :
    ∃ system reports, run step .new (comeAndGo name ip port count) = .ok (system, reports) ∧
      system.keeper = .new ∧ system.mMaxID = count := by
  induction count with
  | zero => exact ⟨.new, [], rfl, rfl, rfl⟩
  | succ count ih =>
    obtain ⟨system, reports, ran, empty, number⟩ := ih
    obtain ⟨there, came, connects, kept, next, stands⟩ := connects_on name ip port system
    obtain ⟨after, went, drops, emptyToo, same⟩ := drops_on (kept.trans empty) stands
    rw [number] at drops
    rw [come_and_go_succ]
    exact ⟨after, _, run_snoc (run_snoc ran connects) drops, emptyToo, by rw [same, next, number]⟩

/-- One more of them, who stays. -/
private theorem last_stranger (name ip : StdString) (port : UInt16) (count : Nat) :
    ∃ system reports, run step .new (comeAndGo name ip port count ++ [.connects name ip port]) = .ok (system, reports) ∧
      system.keeper = .new ∧ system.station (UInt64.ofNat count) = some (freshStation name ip port) := by
  obtain ⟨before, seen, ran, empty, number⟩ := strangers name ip port count
  obtain ⟨there, came, connects, kept, _, stands⟩ := connects_on name ip port before
  rw [number] at stands
  exact ⟨there, _, run_snoc ran connects, kept.trans empty, stands⟩

/-- What the last of them does, when it is the first to log on. -/
def settling (name ip : StdString) (port : UInt16) (count : Nat) : List Act :=
  comeAndGo name ip port count ++ [.connects name ip port] ++
    [.serves (UInt64.ofNat count), .hears (UInt64.ofNat count), .hears (UInt64.ofNat count), .hears (UInt64.ofNat count)]

private theorem last_settles (name ip : StdString) (port : UInt16) {count : Nat} (other : UInt64.ofNat count ≠ 0) :
    ∃ system reports, run step .new (settling name ip port count) = .ok (system, reports) ∧
      (∃ lines, .userList lines ∈ (ofConn (UInt64.ofNat count) reports).flatMap Report.shown ∧
        userLine (newcomer name ip port (UInt64.ofNat count)) ∈ lines) ∧
      system.keeper = keeperOf name ip port (UInt64.ofNat count) ∧
      ∃ client, system.station (UInt64.ofNat count) = some (quietStation ip port client []) ∧ client.mUserName = name ∧
        client.mCurrentRoom.mID = 0 ∧ client.mCdkRunning = true := by
  obtain ⟨before, seen, ran, empty, stands⟩ := last_stranger name ip port count
  obtain ⟨next, served, info, ok, list, more, own, ⟨lines, shown, inside⟩, kept, there⟩ :=
    newcomer_settles empty other stands
  refine ⟨next, _, run_append_ok.mpr ⟨_, _, _, ran, more, rfl⟩, ⟨lines, ?_, inside⟩, kept, there⟩
  refine List.mem_flatMap.mpr ⟨info, List.mem_filter.mpr ⟨?_, by simp [own]⟩, shown⟩
  exact List.mem_append_right _ (by simp)

private theorem settling_allowed
    {name ip : StdString} (short : name.length ≤ limits.name) (address : ip.length ≤ addressMax) (port : UInt16)
    (count : Nat) : ∀ act ∈ settling name ip port count, ActWithin limits act := by
  intro act inside
  rcases List.mem_append.mp inside with connects | takes
  · rcases List.mem_append.mp connects with before | last
    · obtain ⟨index, _, one⟩ := List.mem_flatMap.mp before
      simp only [List.mem_cons, List.not_mem_nil, or_false] at one
      rcases one with rfl | rfl
      · exact ⟨short, address⟩
      · trivial
    · rw [List.mem_singleton.mp last]
      exact ⟨short, address⟩
  · simp only [List.mem_cons, List.not_mem_nil, or_false] at takes
    rcases takes with rfl | rfl | rfl | rfl <;> trivial

/-! ### The bounds -/

/-- No client writes behind a buffer, in whatever it shows and whatever is typed, as long
as what comes in is within the limits. -/
def WindowsHold (limits : Limits) : Prop :=
  ∀ acts final reports, (∀ act ∈ acts, ActWithin limits act) → run step .new acts = .ok (final, reports) → ∀ connId,
    (∃ layout, Layout.new.drawAll ((ofConn connId reports).flatMap Report.shown) = .ok layout) ∧
      ∀ line, .types connId line ∈ acts → ∀ normal, ∃ temp, copyInput line normal = .ok temp

private theorem holds_fits (hold : WindowsHold limits) {acts : List Act} (allowed : ∀ act ∈ acts, ActWithin limits act)
    (ran : run step .new acts = .ok (final, reports)) {connId : UInt64} {effect : Effect}
    (shown : effect ∈ (ofConn connId reports).flatMap Report.shown) : Fits effect :=
  (draw_all_ok Layout.new _).mp (hold acts final reports allowed ran connId).1 effect shown

/-- As long as an address in dots gets, and with as many digits as a port gets. -/
def longAddress : StdString := .ascii "255.255.255.255"

private theorem address_allowed : longAddress.length ≤ addressMax := by decide

private theorem blanks_allowed {count : Nat} (short : count < 2 ^ 31) : (blankName count short).length = count :=
  List.length_replicate

private theorem list_needs (hold : WindowsHold limits) : limits.name ≤ 205 := by
  by_contra long
  have short : 206 < 2 ^ 31 := by decide
  -- the id is printed as a negative number
  have sign : (i2s (UInt64.ofNat 2147483648).toNat) = text "-2147483648" := by decide +kernel
  have port : (i2s (65535 : UInt16).toNat) = text "65535" := by decide +kernel
  obtain ⟨system, reports, ran, ⟨lines, shown, inside⟩, _⟩ :=
    last_settles (blankName 206 short) longAddress 65535 (show UInt64.ofNat 2147483648 ≠ 0 by decide)
  have allowed : ∀ act ∈ settling (blankName 206 short) longAddress 65535 2147483648, ActWithin limits act :=
    settling_allowed (by rw [blanks_allowed]; omega) address_allowed 65535 2147483648
  have fits := holds_fits hold allowed ran shown _ inside
  refine overruns ?_ ?_ fits
  · simp only [userLine, newcomer, User.setRoomId, User.new, sign, port, List.mem_append, not_or]
    refine ⟨⟨⟨⟨⟨⟨⟨⟨?_, blanks_no_nul 206⟩, ?_⟩, ?_⟩, ?_⟩, ?_⟩, ?_⟩, ?_⟩, ?_⟩ <;> decide
  · have name : (newcomer (blankName 206 short) longAddress 65535 (UInt64.ofNat 2147483648)).mName.length = 206 :=
      blanks_allowed short
    have dotted : longAddress.length = 15 := by decide
    have address : (newcomer (blankName 206 short) longAddress 65535 (UInt64.ofNat 2147483648)).mIP.length = 15 := dotted
    have id : (i2s (newcomer (blankName 206 short) longAddress 65535 (UInt64.ofNat 2147483648)).mID.toNat).length = 11 := by
      rw [newcomer, User.setRoomId, User.new, sign]
      rfl
    have digits : (i2s (newcomer (blankName 206 short) longAddress 65535 (UInt64.ofNat 2147483648)).mPort.toNat).length =
        5 := by
      rw [newcomer, User.setRoomId, User.new, port]
      rfl
    rw [user_line_length, name, address, id, digits]

private theorem chat_needs (hold : WindowsHold limits) : limits.name + limits.line ≤ 243 := by
  by_contra long
  have name : min limits.name 244 < 2 ^ 31 := by omega
  have line : min limits.line 244 < 2 ^ 31 := by omega
  have blank : ¬ InputParser.HasWord (blankLine (min limits.line 244) line).bytes := fun ⟨char, inside, other⟩ =>
    other (List.eq_of_mem_replicate inside)
  obtain ⟨system, reports, ran, _, kept, client, stands, named, home, running⟩ :=
    last_settles (blankName (min limits.name 244) name) longAddress 65535 (show UInt64.ofNat 1 ≠ 0 by decide)
  obtain ⟨next, typed, served, heard, more, own, shown⟩ := newcomer_speaks kept stands named home running blank
  have ranAll := run_append_ok.mpr ⟨_, _, _, ran, more, rfl⟩
  have allowed : ∀ act ∈ settling (blankName (min limits.name 244) name) longAddress 65535 1 ++
      [.types (UInt64.ofNat 1) (blankLine (min limits.line 244) line), .serves (UInt64.ofNat 1), .hears (UInt64.ofNat 1)],
      ActWithin limits act := by
    intro act inside
    rcases List.mem_append.mp inside with settles | speaks
    · exact settling_allowed (by rw [blanks_allowed]; omega) address_allowed 65535 1 act settles
    · simp only [List.mem_cons, List.not_mem_nil, or_false] at speaks
      rcases speaks with rfl | rfl | rfl
      · exact Nat.le_trans (Nat.le_of_eq List.length_replicate) (Nat.min_le_left ..)
      · trivial
      · trivial
  have seen : Effect.receive (blankName (min limits.name 244) name) (blankLine (min limits.line 244) line).string true ∈
      (ofConn (UInt64.ofNat 1) (reports ++ [typed, served, heard])).flatMap Report.shown :=
    List.mem_flatMap.mpr ⟨heard, List.mem_filter.mpr ⟨List.mem_append_right _ (by simp), by simp [own]⟩, shown⟩
  refine overruns ?_ ?_ (holds_fits hold allowed ranAll seen)
  · simp only [chatText, if_true, List.mem_append, not_or]
    exact ⟨⟨⟨by decide, blanks_no_nul _⟩, by decide⟩, blanks_no_nul _⟩
  · have markup : (text "<R></B/05>").length = 10 := rfl
    have separator : (text " :").length = 2 := rfl
    have words : (blankLine (min limits.line 244) line).string.bytes.length = min limits.line 244 := List.length_replicate
    have author : (blankName (min limits.name 244) name).bytes.length = min limits.name 244 := List.length_replicate
    simp only [chatText, if_true, List.length_append, markup, separator, words, author]
    omega

/-- The three buffers hold, in every run with names and lines within the limits, exactly
when the limits leave room for the markup of a chat message and for the rest of a line of
the user list. -/
theorem windows_hold_iff (limits : Limits) : WindowsHold limits ↔ limits.name + limits.line ≤ 243 ∧ limits.name ≤ 205 := by
  constructor
  · exact fun hold => ⟨chat_needs hold, list_needs hold⟩
  · rintro ⟨chat, list⟩ acts final reports allowed ran connId
    have suffice : limits.Suffice := ⟨chat, list⟩
    refine ⟨(draw_all_ok Layout.new _).mpr fun effect inside => ?_, fun line typed normal => sprintf_ok.mpr ?_⟩
    · obtain ⟨report, among, shown⟩ := List.mem_flatMap.mp inside
      exact run_fits suffice allowed ran report (List.mem_of_mem_filter among) effect shown
    · have short : line.bytes.length ≤ limits.line := allowed _ typed
      have markup : (text "error exit: ").length = 12 := rfl
      apply fits_in_of_length
      split
      · omega
      · rw [List.length_append, markup]
        omega

end ChatRoom.WindowOverruns
