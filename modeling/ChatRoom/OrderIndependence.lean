import ChatRoom.SessionErasure
import ChatRoom.Lib.Interleaving

/-! Moves and drops of different users, in any order. What a user's own requests
come to depends on the names and passwords of the rooms, which nobody's moves
change, and on the user's own record; and the records of all users determine who
is in which room. -/
namespace ChatRoom.OrderIndependence
open Lib Wire RoomKeeper RoomKeeperInvariant
open SessionErasure (asksFor perform_err refusal room_ext)

variable {keeper other next : RoomKeeper} {userId : UInt64} {roomId : UInt32} {request : Request}
  {outcome outcomeToo : Outcome}

/-- A move to another room, or a drop. -/
def Membership : Request → Prop
  | .join _ _ _ => True
  | .drop _ => True
  | .logon _ _ _ _ => False
  | .create _ _ => False

/-- What one user asks for: rooms to go to, one after the other, and perhaps at
last to be dropped. -/
structure Session where
  userId : UInt64
  joins : List (StdString × StdString)
  drops : Bool

def Session.requests (session : Session) : List Request :=
  session.joins.map (fun join => .join join.1 join.2 session.userId) ++
    if session.drops then [.drop session.userId] else []

/-- The answers to one user's requests, in order. -/
def codesOf (userId : UInt64) (history : List (Request × Outcome)) : List Int32 :=
  (history.filter fun entry => asksFor userId entry.1).map fun entry => entry.2.err

/-! ### What no move changes -/

/-- What everybody sees of a room from outside. -/
def door (room : Room) : UInt32 × StdString × StdString := (room.mID, room.mName, room.mPassWord)

/-- The same rooms, apart from their members. -/
structure SameDirectory (keeper other : RoomKeeper) : Prop where
  counter : other.mRoomId = keeper.mRoomId
  names : other.mRoomNames = keeper.mRoomNames
  doors : ∀ roomId : UInt32, (other.mIdRoom[roomId]?).map door = (keeper.mIdRoom[roomId]?).map door

theorem same_directory_refl (keeper : RoomKeeper) : SameDirectory keeper keeper := ⟨rfl, rfl, fun _ => rfl⟩

theorem same_directory_symm (same : SameDirectory keeper other) : SameDirectory other keeper :=
  ⟨same.counter.symm, same.names.symm, fun roomId => (same.doors roomId).symm⟩

theorem same_directory_trans (first : SameDirectory keeper other) (second : SameDirectory other next) :
    SameDirectory keeper next :=
  ⟨second.counter.trans first.counter, second.names.trans first.names,
    fun roomId => (second.doors roomId).trans (first.doors roomId)⟩

theorem same_directory_set {room changed : Room} (stored : keeper.mIdRoom[roomId]? = some room)
    (same : door changed = door room) : SameDirectory keeper (keeper.setRoom roomId changed) := by
  refine ⟨rfl, rfl, fun probe => ?_⟩
  rw [set_room_lookup]
  split
  next here => rw [← here, stored, Option.map_some, Option.map_some, same]
  next => rfl

theorem same_door {room : Room} (same : SameDirectory keeper other) (stored : keeper.mIdRoom[roomId]? = some room) :
    ∃ found, other.mIdRoom[roomId]? = some found ∧ door found = door room := by
  have held := same.doors roomId
  rw [stored, Option.map_some] at held
  exact Option.map_eq_some_iff.mp held

theorem door_add (room : Room) (userId : UInt64) : door (room.add userId) = door room := by
  simp [door]

theorem door_leave (room : Room) (userId : UInt64) : door (room.handleUserLeave userId) = door room := by
  simp [door]

/-- The rooms from outside and the records of the users are the whole state. -/
theorem records_determine (inv : Inv keeper) (invToo : Inv other) (same : SameDirectory keeper other)
    (records : ∀ userId : UInt64, other.mIdUser[userId]? = keeper.mIdUser[userId]?) : other = keeper := by
  have users : other.mIdUser = keeper.mIdUser := Std.ExtTreeMap.ext_getElem? fun {userId} => records userId
  have rooms : other.mIdRoom = keeper.mIdRoom := by
    refine Std.ExtTreeMap.ext_getElem? fun {roomId} => ?_
    cases stored : keeper.mIdRoom[roomId]? with
    | none =>
      have held := same.doors roomId
      rw [stored, Option.map_none] at held
      exact Option.map_eq_none_iff.mp held
    | some room =>
      obtain ⟨found, there, doors⟩ := same_door same stored
      simp only [door, Prod.mk.injEq] at doors
      rw [there, Option.some.injEq]
      apply room_ext doors.1 doors.2.1 doors.2.2
      intro userId
      rw [invToo.member there, inv.member stored, records]
  have names : other.mUserNames = keeper.mUserNames := by
    refine Std.ExtTreeMap.ext_getElem? fun {name} => Option.ext fun userId => ?_
    rw [invToo.names, inv.names, records]
  cases other
  cases keeper
  simp only [RoomKeeper.mk.injEq]
  exact ⟨same.counter, rooms, same.names, users, names⟩

/-! ### What a move changes -/

private theorem directory_moved {user : User} {oldRoom room : Room}
    (old : keeper.mIdRoom[user.mRoomId]? = some oldRoom) (stored : keeper.mIdRoom[roomId]? = some room)
    (different : roomId ≠ user.mRoomId) : SameDirectory keeper (moved keeper user oldRoom roomId room) := by
  have enters : SameDirectory keeper (entered keeper user.mID user roomId room) :=
    ⟨rfl, rfl, (same_directory_set stored (door_add room user.mID)).doors⟩
  have still : (entered keeper user.mID user roomId room).mIdRoom[user.mRoomId]? = some oldRoom := by
    rw [entered_room, if_neg different, old]
  exact same_directory_trans enters (same_directory_set still (door_leave oldRoom user.mID))

private theorem directory_dropped {user : User} {room : Room} (stored : keeper.mIdRoom[user.mRoomId]? = some room) :
    SameDirectory keeper (dropped keeper user room) :=
  ⟨rfl, rfl, (same_directory_set stored (door_leave room user.mID)).doors⟩

/-- The rooms stay from outside as they are, and so do the records of others. -/
theorem membership_frame (inv : Inv keeper) (membership : Membership request)
    (performed : keeper.perform request = .ok outcome) : SameDirectory keeper outcome.keeper ∧
      ∀ userId, asksFor userId request = false → outcome.keeper.mIdUser[userId]? = keeper.mIdUser[userId]? := by
  cases request with
  | logon name ip port connId => exact membership.elim
  | create name passwd => exact membership.elim
  | join roomName passwd connId =>
    rcases join_cases inv roomName passwd connId with
      ⟨err, errstr, refused⟩ | ⟨user, oldRoom, roomId, room, known, old, stored, different, _, accepted⟩
    · cases performed.symm.trans refused
      exact ⟨same_directory_refl keeper, fun _ _ => rfl⟩
    · cases performed.symm.trans accepted
      obtain rfl := inv.ids known
      refine ⟨directory_moved old stored different, fun userId others => ?_⟩
      have apart : user.mID ≠ userId := by simpa [asksFor] using others
      exact (entered_user keeper user.mID user roomId room userId).trans (if_neg apart)
  | drop connId =>
    rcases drop_cases inv connId with ⟨_, nothing⟩ | ⟨user, room, known, stored, done⟩
    · cases performed.symm.trans nothing
      exact ⟨same_directory_refl keeper, fun _ _ => rfl⟩
    · cases performed.symm.trans done
      obtain rfl := inv.ids known
      refine ⟨directory_dropped stored, fun userId others => ?_⟩
      have apart : user.mID ≠ userId := by simpa [asksFor] using others
      exact (dropped_user keeper user room userId).trans (if_neg apart)

/-- Two states in which one user finds the same. -/
structure Agree (userId : UInt64) (keeper other : RoomKeeper) : Prop where
  inv : Inv keeper
  invToo : Inv other
  directory : SameDirectory keeper other
  record : other.mIdUser[userId]? = keeper.mIdUser[userId]?

private theorem same_move_refusal (agree : Agree userId keeper other) (roomName passwd : StdString) :
    moveRefusal other roomName passwd userId = moveRefusal keeper roomName passwd userId := by
  simp only [moveRefusal, agree.record]
  cases known : keeper.mIdUser[userId]? with
  | none => rfl
  | some user =>
    simp only [joinRefusal, agree.directory.names]
    cases keeper.mRoomNames[roomName]? with
    | none => rfl
    | some roomId =>
      cases stored : keeper.mIdRoom[roomId]? with
      | none =>
        have held := agree.directory.doors roomId
        rw [stored, Option.map_none] at held
        simp only [Option.map_eq_none_iff.mp held, stored]
      | some room =>
        obtain ⟨found, there, doors⟩ := same_door agree.directory stored
        simp only [door, Prod.mk.injEq] at doors
        simp only [there, stored, doors.2.2, agree.invToo.member there, agree.inv.member stored, agree.record]

/-- A user who finds the same is answered the same, and its record becomes the same. -/
theorem membership_own (agree : Agree userId keeper other) (membership : Membership request)
    (own : asksFor userId request = true) (performed : keeper.perform request = .ok outcome)
    (performedToo : other.perform request = .ok outcomeToo) :
    outcomeToo.err = outcome.err ∧ outcomeToo.keeper.mIdUser[userId]? = outcome.keeper.mIdUser[userId]? := by
  obtain ⟨inv, invToo, directory, record⟩ := agree
  cases request with
  | logon name ip port connId => exact membership.elim
  | create name passwd => exact membership.elim
  | join roomName passwd connId =>
    obtain rfl : connId = userId := beq_iff_eq.mp own
    have reasons := same_move_refusal ⟨inv, invToo, directory, record⟩ roomName passwd
    rcases join_cases_named inv roomName passwd connId with
      ⟨err, errstr, reason, refused⟩ |
        ⟨user, oldRoom, roomId, room, known, old, named, stored, word, different, outside, accepted⟩
    all_goals rcases join_cases_named invToo roomName passwd connId with
      ⟨errToo, errstrToo, reasonToo, refusedToo⟩ |
        ⟨userToo, oldToo, roomIdToo, roomToo, knownToo, _, namedToo, storedToo, wordToo, _, outsideToo, acceptedToo⟩
    · cases performed.symm.trans refused
      cases performedToo.symm.trans refusedToo
      rw [reason, reasonToo] at reasons
      cases reasons
      exact ⟨rfl, record⟩
    · rw [reason] at reasons
      simp [moveRefusal, joinRefusal, knownToo, namedToo, storedToo, wordToo, outsideToo] at reasons
    · rw [reasonToo] at reasons
      simp [moveRefusal, joinRefusal, known, named, stored, word, outside] at reasons
    · cases performed.symm.trans accepted
      cases performedToo.symm.trans acceptedToo
      rw [directory.names, named] at namedToo
      rw [record, known] at knownToo
      cases namedToo
      cases knownToo
      obtain rfl := inv.ids known
      refine ⟨rfl, ?_⟩
      have after (keeper : RoomKeeper) (oldRoom room : Room) :
          (moved keeper user oldRoom roomId room).mIdUser[user.mID]? = some (user.setRoomId roomId) :=
        (entered_user keeper user.mID user roomId room user.mID).trans (if_pos rfl)
      exact (after other oldToo roomToo).trans (after keeper oldRoom room).symm
  | drop connId =>
    obtain rfl : connId = userId := beq_iff_eq.mp own
    rcases drop_cases inv connId with ⟨none, nothing⟩ | ⟨user, room, known, stored, done⟩
    all_goals rcases drop_cases invToo connId with ⟨noneToo, nothingToo⟩ | ⟨userToo, roomToo, knownToo, storedToo, doneToo⟩
    · cases performed.symm.trans nothing
      cases performedToo.symm.trans nothingToo
      exact ⟨rfl, record⟩
    · rw [record, none] at knownToo
      cases knownToo
    · rw [record, known] at noneToo
      cases noneToo
    · cases performed.symm.trans done
      cases performedToo.symm.trans doneToo
      rw [record, known] at knownToo
      cases knownToo
      obtain rfl := inv.ids known
      refine ⟨rfl, ?_⟩
      have after (keeper : RoomKeeper) (room : Room) : (dropped keeper user room).mIdUser[user.mID]? = none :=
        (dropped_user keeper user room user.mID).trans (if_pos rfl)
      exact (after other roomToo).trans (after keeper room).symm

/-! ### Runs -/

variable {requests order first second : List Request} {outcomes outcomesToo : List Outcome} {sessions : List Session}

/-- From a state in which a user finds the same, its own requests alone are
answered as they are among those of the others. -/
theorem run_of_one (agree : Agree userId keeper other) (memberships : ∀ request ∈ requests, Membership request)
    (ran : run RoomKeeper.step keeper requests = .ok (next, outcomes)) :
    ∃ alone outcomesToo, run RoomKeeper.step other (requests.filter (asksFor userId)) = .ok (alone, outcomesToo) ∧
      Agree userId next alone ∧ outcomesToo.map Outcome.err = codesOf userId (requests.zip outcomes) := by
  have erased := run_erasing (Agree userId) (fun request => !asksFor userId request) Outcome.err
    (by
      intro keeper other request next outcome agree others membership taken
      have apart : asksFor userId request = false := by simpa using others
      obtain ⟨rfl, advances⟩ := step_advances agree.inv taken
      obtain ⟨directory, records⟩ := membership_frame agree.inv membership (step_performs taken)
      exact ⟨advances.1, agree.invToo, same_directory_trans (same_directory_symm directory) agree.directory,
        agree.record.trans (records userId apart).symm⟩)
    (by
      intro keeper other request next outcome agree others membership taken
      have own : asksFor userId request = true := by simpa using others
      obtain ⟨rfl, advances⟩ := step_advances agree.inv taken
      obtain ⟨outcomeToo, performedToo, advancesToo⟩ := perform_advances agree.invToo request
      obtain ⟨directory, _⟩ := membership_frame agree.inv membership (step_performs taken)
      obtain ⟨directoryToo, _⟩ := membership_frame agree.invToo membership performedToo
      obtain ⟨same, record⟩ := membership_own agree membership own (step_performs taken) performedToo
      exact ⟨outcomeToo.keeper, outcomeToo, step_of_performed performedToo, same, advances.1, advancesToo.1,
        same_directory_trans (same_directory_symm directory) (same_directory_trans agree.directory directoryToo), record⟩)
    agree (every_step_of_mem memberships) ran
  simpa only [Bool.not_not, codesOf] using erased

/-- The rooms are seen from outside as before. -/
theorem run_directory (inv : Inv keeper) (memberships : ∀ request ∈ requests, Membership request)
    (ran : run RoomKeeper.step keeper requests = .ok (next, outcomes)) : Inv next ∧ SameDirectory keeper next :=
  run_history (fun state _ => Inv state ∧ SameDirectory keeper state) (by
    rintro state _ request after outcome ⟨inv, directory⟩ membership taken
    obtain ⟨rfl, advances⟩ := step_advances inv taken
    exact ⟨advances.1, same_directory_trans directory (membership_frame inv membership (step_performs taken)).1⟩)
    ⟨inv, same_directory_refl keeper⟩ (every_step_of_mem memberships) ran

/-! ### Sessions -/

private theorem session_membership {session : Session} (inside : request ∈ session.requests) :
    Membership request ∧ asksFor session.userId request = true := by
  rcases List.mem_append.mp inside with joins | drops
  · obtain ⟨join, _, rfl⟩ := List.mem_map.mp joins
    exact ⟨trivial, beq_self_eq_true session.userId⟩
  · split at drops
    next =>
      rw [List.mem_singleton] at drops
      subst drops
      exact ⟨trivial, beq_self_eq_true session.userId⟩
    next => cases drops

private theorem asks_for_one (first : asksFor userId request = true) {connId : UInt64}
    (second : asksFor connId request = true) : userId = connId := by
  cases request with
  | logon name ip port asker => exact (beq_iff_eq.mp first).symm.trans (beq_iff_eq.mp second)
  | create name passwd => cases first
  | join roomName passwd asker => exact (beq_iff_eq.mp first).symm.trans (beq_iff_eq.mp second)
  | drop asker => exact (beq_iff_eq.mp first).symm.trans (beq_iff_eq.mp second)

/-- Of each user an interleaving has one sequence of requests, whichever it is. -/
theorem requests_of_user (distinct : (sessions.map Session.userId).Nodup)
    (interleaved : Interleaves (sessions.map Session.requests) order) (userId : UInt64) :
    order.filter (asksFor userId) =
      ((sessions.map Session.requests).map fun requests => requests.filter (asksFor userId)).flatten := by
  apply interleaved.filter_alone
  rw [List.pairwise_map]
  refine (List.pairwise_map.mp distinct).imp fun {first second} apart => ?_
  have none : ∀ {session : Session}, session.userId ≠ userId → session.requests.filter (asksFor userId) = [] := by
    intro session other
    refine List.filter_eq_nil_iff.mpr fun request inside asks => other ?_
    exact asks_for_one (session_membership inside).2 asks
  by_cases own : first.userId = userId
  · exact .inr (none fun same => apart (own.trans same.symm))
  · exact .inl (none own)

/-- Users who move through the rooms, each perhaps dropped at last: however their
requests are put in a row, each request is answered with the same code, and the
same state is left. -/
theorem memberships_commute (ran : run RoomKeeper.step RoomKeeper.new requests = .ok (keeper, outcomes))
    (distinct : (sessions.map Session.userId).Nodup) (one : Interleaves (sessions.map Session.requests) first)
    (two : Interleaves (sessions.map Session.requests) second) :
    ∃ final outcomes outcomesToo, run RoomKeeper.step keeper first = .ok (final, outcomes) ∧
      run RoomKeeper.step keeper second = .ok (final, outcomesToo) ∧
      ∀ userId, codesOf userId (first.zip outcomes) = codesOf userId (second.zip outcomesToo) := by
  have inv := (run_consistent ran).1
  have completes (order : List Request) : ∃ final outcomes, run RoomKeeper.step keeper order = .ok (final, outcomes) := by
    obtain ⟨final, outcomes, done, _⟩ := run_completes Inv step_completes inv order
    exact ⟨final, outcomes, done⟩
  have memberships {order : List Request} (interleaved : Interleaves (sessions.map Session.requests) order) :
      ∀ request ∈ order, Membership request := by
    intro request inside
    obtain ⟨_, member, held⟩ := interleaved.mem inside
    obtain ⟨session, _, rfl⟩ := List.mem_map.mp member
    exact (session_membership held).1
  obtain ⟨final, outcomes, ranFirst⟩ := completes first
  obtain ⟨finalToo, outcomesToo, ranSecond⟩ := completes second
  have users (userId : UInt64) : finalToo.mIdUser[userId]? = final.mIdUser[userId]? ∧
      codesOf userId (first.zip outcomes) = codesOf userId (second.zip outcomesToo) := by
    have itself : Agree userId keeper keeper := ⟨inv, inv, same_directory_refl keeper, rfl⟩
    obtain ⟨alone, codes, ranAlone, agree, same⟩ := run_of_one itself (memberships one) ranFirst
    obtain ⟨aloneToo, codesToo, ranAloneToo, agreeToo, sameToo⟩ := run_of_one itself (memberships two) ranSecond
    rw [requests_of_user distinct one] at ranAlone
    rw [requests_of_user distinct two] at ranAloneToo
    cases ranAlone.symm.trans ranAloneToo
    exact ⟨agreeToo.record.symm.trans agree.record, same.symm.trans sameToo⟩
  obtain ⟨invFirst, directory⟩ := run_directory inv (memberships one) ranFirst
  obtain ⟨invSecond, directoryToo⟩ := run_directory inv (memberships two) ranSecond
  have same : finalToo = final := records_determine invFirst invSecond
    (same_directory_trans (same_directory_symm directory) directoryToo) fun userId => (users userId).1
  subst same
  exact ⟨finalToo, outcomes, outcomesToo, ranFirst, ranSecond, fun userId => (users userId).2⟩

/-- Ann moves to the den. -/
private def annMoves : Session := ⟨1, [(.ascii "den", .ascii "key")], false⟩

/-- Bob mistakes the key of the den, and goes. -/
private def bobGoes : Session := ⟨2, [(.ascii "den", .ascii "kei")], true⟩

private def annEnters : Request := .join (.ascii "den") (.ascii "key") 1

private def bobTries : Request := .join (.ascii "den") (.ascii "kei") 2

private theorem bob_last : Interleaves [[], [Request.drop 2]] [.drop 2] :=
  @Interleaves.next Request [[]] [] (.drop 2) [] [] (.done (by simp))

private theorem ann_first : Interleaves [annMoves.requests, bobGoes.requests] [annEnters, bobTries, .drop 2] := by
  have behind : Interleaves [[], bobGoes.requests] [bobTries, .drop 2] :=
    @Interleaves.next Request [[]] [] bobTries [.drop 2] [.drop 2] bob_last
  exact @Interleaves.next Request [] [bobGoes.requests] annEnters [] _ behind

private theorem bob_first : Interleaves [annMoves.requests, bobGoes.requests] [bobTries, annEnters, .drop 2] := by
  have behind : Interleaves [annMoves.requests, [Request.drop 2]] [annEnters, .drop 2] :=
    @Interleaves.next Request [] [[.drop 2]] annEnters [] [.drop 2] bob_last
  exact @Interleaves.next Request [annMoves.requests] [] bobTries [.drop 2] _ behind

theorem ann_and_bob_commute :
    ∃ keeper history, run RoomKeeper.step RoomKeeper.new [.logon (.ascii "ann") (.ascii "10.0.0.1") 4000 1,
        .logon (.ascii "bob") (.ascii "10.0.0.2") 4001 2, .create (.ascii "den") (.ascii "key")] = .ok (keeper, history) ∧
      ∃ final outcomes outcomesToo, run RoomKeeper.step keeper [annEnters, bobTries, .drop 2] = .ok (final, outcomes) ∧
        run RoomKeeper.step keeper [bobTries, annEnters, .drop 2] = .ok (final, outcomesToo) := by
  obtain ⟨keeper, history, ran, _⟩ := run_completes Inv step_completes inv_new
    [.logon (.ascii "ann") (.ascii "10.0.0.1") 4000 1, .logon (.ascii "bob") (.ascii "10.0.0.2") 4001 2,
      .create (.ascii "den") (.ascii "key")]
  have distinct : ([annMoves, bobGoes].map Session.userId).Nodup := by decide
  obtain ⟨final, outcomes, outcomesToo, one, two, _⟩ := memberships_commute ran distinct ann_first bob_first
  exact ⟨keeper, history, ran, final, outcomes, outcomesToo, one, two⟩

end ChatRoom.OrderIndependence
