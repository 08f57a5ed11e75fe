import ChatRoom.SessionErasure

/-! When a request succeeds, said of the users and rooms that there are, and what
one that fails has done: nothing. -/
namespace ChatRoom.RequestOutcomes
open Lib Wire RoomKeeper RoomKeeperInvariant
open SessionErasure (refusal perform_err)

variable {keeper : RoomKeeper} {request : Request} {outcome : Outcome}

/-- What a request asks of the users and of the rooms. -/
def Allowed (keeper : RoomKeeper) : Request → Prop
  | .logon name _ _ userId => userId ∉ keeper.mIdUser ∧
      ∀ (other : UInt64) (user : User), keeper.mIdUser[other]? = some user → user.mName ≠ name
  | .create name _ => ∀ (roomId : UInt32) (room : Room), keeper.mIdRoom[roomId]? = some room → room.mName ≠ name
  | .join roomName passwd userId => userId ∈ keeper.mIdUser ∧
      ∃ (roomId : UInt32) (room : Room), keeper.mIdRoom[roomId]? = some room ∧ room.mName = roomName ∧
        room.mPassWord = passwd ∧ userId ∉ room.mUsers
  | .drop _ => True

/-- An answer is the refusal of an unchanged state, or success. -/
theorem perform_refused (inv : Inv keeper) (performed : keeper.perform request = .ok outcome) :
    (∃ err errstr, outcome = keeper.failed err errstr) ∨ outcome.err = 0 := by
  cases request with
  | logon name ip port userId =>
    rcases logon_cases inv name ip port userId with ⟨err, errstr, refused⟩ | ⟨hall, _, _, _, accepted⟩
    · cases performed.symm.trans refused
      exact .inl ⟨err, errstr, rfl⟩
    · cases performed.symm.trans accepted
      exact .inr rfl
  | create name passwd =>
    cases performed
    rcases create_cases keeper name passwd with ⟨err, errstr, refused⟩ | ⟨_, accepted⟩
    · exact .inl ⟨err, errstr, refused⟩
    · exact .inr (by rw [accepted]; rfl)
  | join roomName passwd userId =>
    rcases join_cases inv roomName passwd userId with ⟨err, errstr, refused⟩ | ⟨_, _, _, _, _, _, _, _, _, accepted⟩
    · cases performed.symm.trans refused
      exact .inl ⟨err, errstr, rfl⟩
    · cases performed.symm.trans accepted
      exact .inr rfl
  | drop userId =>
    rcases drop_cases inv userId with ⟨_, nothing⟩ | ⟨_, _, _, _, done⟩
    · cases performed.symm.trans nothing
      exact .inr rfl
    · cases performed.symm.trans done
      exact .inr rfl

/-! ### The conditions, by name and by id -/

private theorem name_taken (consistent : Consistent keeper) (name : StdString) :
    name ∈ keeper.mUserNames ↔
      ∃ (other : UInt64) (user : User), keeper.mIdUser[other]? = some user ∧ user.mName = name := by
  rw [Std.ExtTreeMap.mem_iff_isSome_getElem?, Option.isSome_iff_exists]
  simp only [consistent.users]

private theorem room_taken (consistent : Consistent keeper) (name : StdString) :
    name ∈ keeper.mRoomNames ↔
      ∃ (roomId : UInt32) (room : Room), keeper.mIdRoom[roomId]? = some room ∧ room.mName = name := by
  rw [Std.ExtTreeMap.mem_iff_isSome_getElem?, Option.isSome_iff_exists]
  simp only [consistent.rooms]

private theorem join_allowed (consistent : Consistent keeper) (roomName passwd : StdString) (userId : UInt64) :
    moveRefusal keeper roomName passwd userId = none ↔ Allowed keeper (.join roomName passwd userId) := by
  simp only [Allowed, mem_users]
  cases known : keeper.mIdUser[userId]? with
  | none => simp [moveRefusal, known]
  | some user =>
    simp only [moveRefusal, known, joinRefusal]
    cases named : keeper.mRoomNames[roomName]? with
    | none =>
      simp only [reduceCtorEq, false_iff, not_and, not_exists]
      rintro _ roomId room stored rfl
      cases named.symm.trans ((consistent.rooms room.mName roomId).mpr ⟨room, stored, rfl⟩)
    | some roomId =>
      obtain ⟨room, stored, rfl⟩ := (consistent.rooms roomName roomId).mp named
      simp only [stored, ne_eq, ite_not]
      constructor
      · intro none
        split at none
        next passwd =>
          split at none
          next => cases none
          next outside => exact ⟨⟨user, rfl⟩, roomId, room, stored, rfl, passwd, outside⟩
        next => cases none
      · rintro ⟨_, other, found, there, same, word, outside⟩
        cases named.symm.trans ((consistent.rooms room.mName other).mpr ⟨found, there, same⟩)
        cases stored.symm.trans there
        rw [if_pos word, if_neg outside]

/-- Nothing else is refused, and nothing is refused without a reason. -/
theorem refusal_none (consistent : Consistent keeper) (request : Request) :
    refusal keeper request = none ↔ Allowed keeper request := by
  cases request with
  | logon name ip port userId =>
    have taken := name_taken consistent name
    by_cases logged : userId ∈ keeper.mIdUser
    · simp [refusal, Allowed, logged]
    · by_cases used : name ∈ keeper.mUserNames
      · obtain ⟨other, user, known, same⟩ := taken.mp used
        simp only [refusal, Allowed, if_neg logged, if_pos used, reduceCtorEq, false_iff, not_and]
        intro _ free
        exact free other user known same
      · simp only [refusal, Allowed, if_neg logged, if_neg used, true_iff]
        exact ⟨logged, fun other user known same => used (taken.mpr ⟨other, user, known, same⟩)⟩
  | create name passwd =>
    have taken := room_taken consistent name
    by_cases used : name ∈ keeper.mRoomNames
    · obtain ⟨roomId, room, stored, same⟩ := taken.mp used
      simp only [refusal, Allowed, if_pos used, reduceCtorEq, false_iff]
      intro free
      exact free roomId room stored same
    · simp only [refusal, Allowed, if_neg used, true_iff]
      exact fun roomId room stored same => used (taken.mpr ⟨roomId, room, stored, same⟩)
  | join roomName passwd userId => exact join_allowed consistent roomName passwd userId
  | drop userId => simp [refusal, Allowed]

/-- After any history with fewer than `2 ^ 32` rooms, a request returns zero
exactly when it is allowed; otherwise everything is as before the call, and
nothing is sent. -/
theorem failed_requests_change_nothing {requests : List Request} {outcomes : List Outcome}
    (ran : run RoomKeeper.step RoomKeeper.new requests = .ok (keeper, outcomes))
    (few : 1 + roomsCreated (requests.zip outcomes) < 2 ^ 32) (request : Request) :
    ∃ outcome, keeper.perform request = .ok outcome ∧ (outcome.err = 0 ↔ Allowed keeper request) ∧
      (outcome.err ≠ 0 → outcome.keeper = keeper ∧ outcome.sent = []) := by
  obtain ⟨inv, consistent⟩ := run_consistent ran
  obtain ⟨outcome, performed, _⟩ := perform_advances inv request
  refine ⟨outcome, performed, ?_, fun failed => ?_⟩
  · rw [perform_err inv performed, ← refusal_none (consistent few)]
    cases refusal keeper request with
    | none => simp
    | some err => simp
  · rcases perform_refused inv performed with ⟨err, errstr, rfl⟩ | success
    · exact ⟨rfl, rfl⟩
    · exact absurd success failed

/-- Ann, who is logged on, logs on again: that fails, and nothing comes of it. -/
theorem a_second_logon_changes_nothing :
    ∃ keeper outcomes outcome, run RoomKeeper.step RoomKeeper.new
        [.logon (.ascii "ann") (.ascii "10.0.0.1") 4000 1] = .ok (keeper, outcomes) ∧
      keeper.perform (.logon (.ascii "ann") (.ascii "10.0.0.1") 4000 1) = .ok outcome ∧
      outcome.err ≠ 0 ∧ outcome.keeper = keeper ∧ outcome.sent = [] := by
  have shape : (run RoomKeeper.step RoomKeeper.new [.logon (.ascii "ann") (.ascii "10.0.0.1") 4000 1]).toOption.map
      (fun reply => (reply.1.perform (.logon (.ascii "ann") (.ascii "10.0.0.1") 4000 1)).toOption.map Outcome.err) =
      some (some Err.userNameAlredyLogoned.code) := by decide +kernel
  obtain ⟨⟨keeper, outcomes⟩, ran, again⟩ := Option.map_eq_some_iff.mp shape
  obtain ⟨outcome, performed, refused⟩ := Option.map_eq_some_iff.mp again
  have fails : outcome.err ≠ 0 := by
    rw [refused]
    decide
  have few : roomsCreated ([Request.logon (.ascii "ann") (.ascii "10.0.0.1") 4000 1].zip outcomes) ≤ 1 :=
    List.countP_le_length.trans (by rw [List.length_zip]; exact Nat.min_le_left _ _)
  obtain ⟨reply, repeated, _, nothing⟩ := failed_requests_change_nothing (ok_of_option ran) (by omega)
    (.logon (.ascii "ann") (.ascii "10.0.0.1") 4000 1)
  obtain rfl : outcome = reply := Except.ok.inj ((ok_of_option performed).symm.trans repeated)
  exact ⟨keeper, outcomes, outcome, ok_of_option ran, repeated, fails, nothing fails⟩

end ChatRoom.RequestOutcomes
