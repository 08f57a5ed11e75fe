import ChatRoom.MsgSequence

/-! When a message can be written at all, and what is in it then. A chain of `<<`
that comes to its end has written every byte where it belongs, unless the counters
have gone beyond an `int`; what `malloc` had left in the blocks is behind the bytes
written, and in four bytes of the head. -/
namespace ChatRoom.MsgWriting
open Lib Wire MsgBuffer MsgSequence

variable {host other : Host} {msg next twin : Msg} {fields : List Field} {payload bytes : List UInt8}

/-! ### Messages of a page -/

/-- The encoding, with the head, fits the page that `Msg()` allocates. -/
def Fits (host : Host) (fields : List Field) : Prop :=
  HEAD_LENGTH + (encode fields).length ≤ host.page

instance (host : Host) (fields : List Field) : Decidable (Fits host fields) :=
  inferInstanceAs (Decidable (_ ≤ _))

/-- The block that a value is given differs in nothing that is written already. -/
theorem room_keeps {size : Nat} (holds : Holds msg payload) (small : payload.length < 2 ^ 31)
    (given : room host msg size = .ok next) :
    ∃ block, next = { msg with mData := block } ∧
      block.take (HEAD_LENGTH + payload.length) = msg.mData.take (HEAD_LENGTH + payload.length) := by
  unfold room at given
  split at given
  · unfold Msg.reverse at given
    split at given
    · cases given
      exact ⟨msg.mData, rfl, rfl⟩
    split at given
    · cases given
      exact ⟨msg.mData, rfl, rfl⟩
    simp only [bind_ok, pure_ok, Except.ok.injEq] at given
    obtain ⟨_, _, _, _, kept, read, block, stored, rfl⟩ := given
    have count : toSizeT (msg.mWriteOffset + HEAD_LENGTH) = HEAD_LENGTH + payload.length := by
      rw [holds.offset, toSizeT]
      unfold HEAD_LENGTH
      omega
    obtain ⟨_, inside, rfl⟩ := peek_ok.mp read
    rw [count] at inside stored
    have width : (msg.mData.take (HEAD_LENGTH + payload.length)).length = HEAD_LENGTH + payload.length :=
      List.length_take_of_le (by simpa using inside)
    have front := poke_take stored
    simp only [Int.toNat_zero, List.drop_zero, width, List.take_zero, List.nil_append, Nat.zero_add] at front
    exact ⟨block, rfl, front⟩
  · cases given
    exact ⟨msg.mData, rfl, rfl⟩

/-- A chain that comes to its end has written its bytes where they belong. -/
theorem puts_keep {values : List (List UInt8)} (holds : Holds msg payload)
    (small : payload.length + values.flatten.length < 2 ^ 31)
    (done : values.foldlM (Msg.put host) msg = .ok next) : Holds next (payload ++ values.flatten) := by
  induction values generalizing msg payload with
  | nil =>
    cases done
    simpa using holds
  | cons value values ih =>
    simp only [List.flatten_cons, List.length_append] at small
    rw [List.foldlM_cons] at done
    obtain ⟨between, first, rest⟩ := bind_ok.mp done
    obtain ⟨given, granted, _⟩ := bind_ok.mp (put_room.symm.trans first)
    obtain ⟨block, rfl, front⟩ := room_keeps holds (by omega) granted
    obtain ⟨same, again, held, _⟩ := put_holds holds front granted (put_fits holds granted first) (by omega)
    cases first.symm.trans again
    have kept := ih held (by rw [List.length_append]; omega) rest
    rwa [List.append_assoc, ← List.flatten_cons] at kept

theorem new_holds (host : Host) : Holds (Msg.new host) [] :=
  ⟨rfl, by simpa [Msg.new] using host.head, rfl⟩

theorem new_length (host : Host) : (Msg.new host).mData.length = host.page := by simp [Msg.new]

/-- A message with its length set is sent as a frame. -/
theorem set_len_frames (holds : Holds msg payload) (atLeast : 4 ≤ payload.length)
    (atMost : payload.length ≤ 2 ^ 31 - 9) :
    ∃ next, ∃ frame : Frame, msg.setLen = .ok next ∧ Holds next payload ∧
      next.mData.length = msg.mData.length ∧ next.mReadOffset = msg.mReadOffset ∧
      frame.payload = payload ∧ next.wireBytes = frame.wire := by
  obtain ⟨next, done, held, size, read, front⟩ := set_len_holds holds atMost
  refine ⟨next, ⟨unused msg, payload, unused_length holds, atLeast, atMost⟩, done, held, size, read, rfl, ?_⟩
  rw [Msg.wireBytes, total_length held atMost, front]
  rfl

/-- A copy is sent as the same frame. -/
theorem dup_frames (host : Host) {frame : Frame} (holds : Holds msg frame.payload) (sent : msg.wireBytes = frame.wire) :
    ∃ copy, msg.dup host = .ok copy ∧ copy.wireBytes = frame.wire := by
  have atMost := frame.atMost
  have head : HEAD_LENGTH = 8 := rfl
  obtain ⟨copy, copied, held, _, block⟩ := dup_holds holds atMost
  refine ⟨copy, copied, ?_⟩
  have total := total_length holds atMost
  have size : copy.mData.length = HEAD_LENGTH + frame.payload.length := by
    rw [block, List.length_append, List.length_append, be_bytes_length, unused_length holds, head]
  have middle : unused msg = frame.head := by
    have cut : (((msg.mData.take (HEAD_LENGTH + frame.payload.length)).drop 4).take 4) = unused msg := by
      simp only [unused, List.drop_take, List.take_take]
      congr 1
      omega
    rw [← cut, ← total, ← Msg.wireBytes, sent, Frame.wire, List.append_assoc,
      List.drop_left' (be_bytes_length 4 frame.payload.length), List.take_left' frame.headLength]
  rw [Msg.wireBytes, total_length held atMost, ← size, List.take_length, block, middle]
  rfl

/-- What there is room for is built, and sent as a frame. -/
theorem build_frames (room : RoomFor host host.page fields) (atLeast : 4 ≤ (encode fields).length)
    (atMost : (encode fields).length ≤ 2 ^ 31 - 9) :
    ∃ msg, ∃ frame : Frame, Msg.build host fields = .ok msg ∧ Holds msg (encode fields) ∧
      frame.payload = encode fields ∧ msg.wireBytes = frame.wire := by
  have holding := writes_hold_iff (.page : Created host (Msg.new host)) (by rw [new_length]; exact host.head) fields
  rw [new_length] at holding
  obtain ⟨written, wrote, holds⟩ := holding.mpr room
  obtain ⟨msg, frame, done, held, _, _, payload, sent⟩ := set_len_frames holds atLeast atMost
  exact ⟨msg, frame, bind_ok.mpr ⟨written, wrote, done⟩, held, payload, sent⟩

/-! ### Short strings -/

private theorem put_from (done : msg.put host bytes = .ok next) :
    -HEAD_LENGTH ≤ msg.mWriteOffset ∧ next.mWriteOffset = toInt32 (msg.mWriteOffset + bytes.length) := by
  obtain ⟨given, granted, rest⟩ := bind_ok.mp (put_room.symm.trans done)
  obtain ⟨data, written, same⟩ := bind_ok.mp rest
  cases same
  have offset : given.mWriteOffset = msg.mWriteOffset := by
    unfold room at granted
    split at granted
    · unfold Msg.reverse at granted
      split at granted
      · cases granted
        rfl
      split at granted
      · cases granted
        rfl
      simp only [bind_ok, pure_ok, Except.ok.injEq] at granted
      obtain ⟨_, _, _, _, _, _, _, _, rfl⟩ := granted
      rfl
    · cases granted
      rfl
  have place := (poke_ok.mp written).1
  rw [offset] at place
  exact ⟨by omega, by rw [offset]⟩

/-- A counter that has left the `int`s is negative, and nothing can be written any more:
with no string of 2^31 bytes a chain that comes to its end is shorter than 2^32. -/
theorem puts_short {values : List (List UInt8)} (holds : Holds msg payload) (small : payload.length < 2 ^ 31)
    (each : ∀ value ∈ values, value.length ≤ 2 ^ 31 - 24) (done : values.foldlM (Msg.put host) msg = .ok next) :
    payload.length + values.flatten.length < 2 ^ 32 := by
  induction values generalizing msg payload with
  | nil =>
    rw [List.flatten_nil, List.length_nil]
    omega
  | cons value values ih =>
    have short := each value List.mem_cons_self
    rw [List.flatten_cons, List.length_append]
    rw [List.foldlM_cons] at done
    obtain ⟨between, first, rest⟩ := bind_ok.mp done
    by_cases inside : payload.length + value.length < 2 ^ 31
    · have single : [value].foldlM (Msg.put host) msg = .ok between := by
        rw [List.foldlM_cons, first]
        rfl
      have held := puts_keep holds (by simpa using inside) single
      rw [List.flatten_singleton] at held
      have total := ih held (by rw [List.length_append]; exact inside)
        (fun other later => each other (List.mem_cons_of_mem value later)) rest
      rw [List.length_append] at total
      omega
    · obtain ⟨_, offset⟩ := put_from first
      rw [holds.offset] at offset
      cases values with
      | nil =>
        rw [List.flatten_nil, List.length_nil]
        omega
      | cons second values =>
        rw [List.foldlM_cons] at rest
        obtain ⟨_, stuck, _⟩ := bind_ok.mp rest
        have place := (put_from stuck).1
        rw [offset, to_int32_wraps (by omega) (by omega)] at place
        unfold HEAD_LENGTH at place
        omega

/-- So a chain of values with no such string is, and each of its beginnings. -/
theorem writes_short (short : ∀ text, Field.str text ∈ fields → text.length ≤ 2 ^ 31 - 24)
    (done : (Msg.new host).writes host fields = .ok next) : (encode fields).length < 2 ^ 32 := by
  have chain := (writes_chunks host (Msg.new host) fields).symm.trans done
  have each : ∀ value ∈ fields.flatMap chunks, value.length ≤ 2 ^ 31 - 24 := by
    intro value member
    obtain ⟨field, inside, chunk⟩ := List.mem_flatMap.mp member
    rcases chunk_short field value chunk with small | ⟨text, rfl, _, rfl⟩
    · omega
    · exact short text inside
  have total := puts_short (new_holds host) (by decide) each chain
  rwa [flat_chunks, List.length_nil, Nat.zero_add] at total

theorem build_short {front rest : List Field} (short : ∀ text, Field.str text ∈ front → text.length ≤ 2 ^ 31 - 24)
    (built : Msg.build host (front ++ rest) = .ok msg) : (encode front).length < 2 ^ 32 := by
  obtain ⟨written, wrote, _⟩ := bind_ok.mp built
  rw [Msg.writes, List.foldlM_append] at wrote
  obtain ⟨between, first, _⟩ := bind_ok.mp wrote
  exact writes_short short first

/-! ### What `malloc` had left -/

/-- Two messages with the same counters and the same bytes written. Whatever else is in
their blocks was there before them. -/
structure Alike (msg twin : Msg) : Prop where
  offset : twin.mWriteOffset = msg.mWriteOffset
  limit : twin.mMallocSize = msg.mMallocSize
  size : twin.mData.length = msg.mData.length
  range : IsInt32 msg.mWriteOffset
  written : ∀ place : Nat, HEAD_LENGTH ≤ place → (place : Int) < HEAD_LENGTH + msg.mWriteOffset →
    twin.mData[place]? = msg.mData[place]?

theorem new_alike (samePage : host.page = other.page) : Alike (Msg.new host) (Msg.new other) where
  offset := rfl
  limit := by simp only [Msg.new, samePage]
  size := by rw [new_length, new_length, samePage]
  range := by simp [Msg.new, IsInt32]
  written := by
    intro place behind before
    simp only [Msg.new, Int.add_zero] at before
    omega

/-- What is in a block up to the end of what was stored into it. -/
private theorem stored_at {block result : List UInt8} {start : Int} {place : Nat}
    (stored : poke block start bytes = .ok result) (covered : place < start.toNat + bytes.length) :
    result[place]? = if place < start.toNat then block[place]? else bytes[place - start.toNat]? := by
  have front := poke_take stored
  have inside := (poke_ok.mp stored).2.1
  have width : (block.take start.toNat).length = start.toNat := List.length_take_of_le (by omega)
  rw [← List.getElem?_take_of_lt covered, front]
  split
  next before => rw [List.getElem?_append_left (by rw [width]; exact before), List.getElem?_take_of_lt before]
  next behind => rw [List.getElem?_append_right (by rw [width]; omega), width]

/-- The same bytes stored at the same place of two blocks of one size. -/
private theorem poke_alike {block twin result : List UInt8} {start : Int} (size : twin.length = block.length)
    (stored : poke block start bytes = .ok result) :
    ∃ also, poke twin start bytes = .ok also ∧ also.length = result.length ∧
      ∀ place : Nat, (place < start.toNat → twin[place]? = block[place]?) → place < start.toNat + bytes.length →
        also[place]? = result[place]? := by
  obtain ⟨nonneg, inside, _⟩ := poke_ok.mp stored
  obtain ⟨also, storedToo⟩ : ∃ also, poke twin start bytes = .ok also :=
    ⟨_, poke_ok.mpr ⟨nonneg, by rw [size]; exact inside, rfl⟩⟩
  refine ⟨also, storedToo, ?_, fun place before covered => ?_⟩
  · rw [poke_length storedToo, poke_length stored, size]
  · rw [stored_at storedToo covered, stored_at stored covered]
    split
    next front => exact before front
    next => rfl

/-- The front of a block, as far as it is written, copied to the front of a new block. -/
private theorem copy_alike (other : Host) {count size : Nat} {kept result : List UInt8} (alike : Alike msg twin)
    (read : peek msg.mData 0 count = .ok kept) (stored : poke (malloc host.left size) 0 kept = .ok result) :
    ∃ keptToo also, peek twin.mData 0 count = .ok keptToo ∧ poke (malloc other.left size) 0 keptToo = .ok also ∧
      also.length = result.length ∧
      ∀ place : Nat, twin.mData[place]? = msg.mData[place]? → place < count → also[place]? = result[place]? := by
  obtain ⟨_, inside, rfl⟩ := peek_ok.mp read
  simp only [Int.toNat_zero, Nat.zero_add, List.drop_zero] at inside stored
  have width : (msg.mData.take count).length = count := List.length_take_of_le inside
  have widthToo : (twin.mData.take count).length = count := List.length_take_of_le (by rw [alike.size]; exact inside)
  have room := (poke_ok.mp stored).2.1
  rw [width, malloc_length] at room
  obtain ⟨also, storedToo⟩ : ∃ also, poke (malloc other.left size) 0 (twin.mData.take count) = .ok also :=
    ⟨_, poke_ok.mpr ⟨le_refl _, by rw [widthToo, malloc_length]; exact room, rfl⟩⟩
  refine ⟨twin.mData.take count, also, peek_ok.mpr ⟨le_refl _, by simpa [alike.size] using inside, by simp⟩, storedToo, ?_,
    fun place same covered => ?_⟩
  · rw [poke_length storedToo, poke_length stored, malloc_length, malloc_length]
  · rw [stored_at storedToo (by rw [widthToo]; simpa using covered), stored_at stored (by rw [width]; simpa using covered)]
    simp only [Int.toNat_zero, Nat.not_lt_zero, if_false, Nat.sub_zero, List.getElem?_take_of_lt covered]
    exact same

/-- `Reverse` and `Dup` copy all that is written. -/
private theorem covers {place : Nat} (range : IsInt32 msg.mWriteOffset)
    (before : (place : Int) < HEAD_LENGTH + msg.mWriteOffset) : place < toSizeT (msg.mWriteOffset + HEAD_LENGTH) := by
  unfold IsInt32 at range
  simp only [toSizeT, HEAD_LENGTH] at before ⊢
  omega

private theorem reverse_alike {size : Int} (samePage : host.page = other.page) (alike : Alike msg twin)
    (grown : msg.reverse host size = .ok next) : ∃ also, twin.reverse other size = .ok also ∧ Alike next also := by
  unfold Msg.reverse at grown ⊢
  rw [alike.limit]
  split at grown
  next less =>
    cases grown
    exact ⟨twin, if_pos less, alike⟩
  next notLess =>
    rw [if_neg notLess]
    split at grown
    next same =>
      cases grown
      exact ⟨twin, if_pos same, alike⟩
    next different =>
      rw [if_neg different]
      simp only [bind_ok, pure_ok, Except.ok.injEq] at grown
      obtain ⟨twice, doubled, total, checked, kept, read, block, stored, rfl⟩ := grown
      obtain ⟨keptToo, also, readToo, storedToo, sizeToo, same⟩ := copy_alike other alike read stored
      refine ⟨{ twin with mData := also }, ?_, ⟨alike.offset, alike.limit, sizeToo, alike.range, ?_⟩⟩
      · simp only [doubled, ok_then, ← samePage, checked, alike.offset, readToo, storedToo, pure_ok, alike.limit]
      · intro place behind (before : (place : Int) < HEAD_LENGTH + msg.mWriteOffset)
        exact same place (alike.written place behind before) (covers alike.range before)

private theorem put_alike (samePage : host.page = other.page) (alike : Alike msg twin)
    (done : msg.put host bytes = .ok next) : ∃ also, twin.put other bytes = .ok also ∧ Alike next also := by
  rw [put_room] at done ⊢
  obtain ⟨given, granted, rest⟩ := bind_ok.mp done
  obtain ⟨data, stored, same⟩ := bind_ok.mp rest
  cases same
  obtain ⟨givenToo, grantedToo, held⟩ : ∃ also, room other twin bytes.length = .ok also ∧ Alike given also := by
    unfold room at granted ⊢
    rw [Msg.leftSize, alike.limit, alike.offset, ← Msg.leftSize]
    split at granted
    next larger =>
      rw [if_pos larger]
      exact reverse_alike samePage alike granted
    next enough =>
      cases granted
      exact ⟨twin, if_neg enough, alike⟩
  obtain ⟨also, storedToo, size, covered⟩ := poke_alike held.size stored
  refine ⟨{ givenToo with mData := also, mWriteOffset := toInt32 (givenToo.mWriteOffset + bytes.length) }, ?_,
    ⟨by rw [held.offset], held.limit, size, to_int32_range _, ?_⟩⟩
  · rw [grantedToo, ok_then, held.offset, storedToo, ok_then]
  · intro place behind (before : (place : Int) < HEAD_LENGTH + toInt32 (given.mWriteOffset + bytes.length))
    have nonneg := (poke_ok.mp stored).1
    have range := held.range
    unfold IsInt32 at range
    have limit : toInt32 (given.mWriteOffset + bytes.length) ≤ given.mWriteOffset + bytes.length :=
      to_int32_le (by omega)
    exact covered place (fun front => held.written place behind (by omega)) (by omega)

private theorem puts_alike {values : List (List UInt8)} (samePage : host.page = other.page) (alike : Alike msg twin)
    (done : values.foldlM (Msg.put host) msg = .ok next) :
    ∃ also, values.foldlM (Msg.put other) twin = .ok also ∧ Alike next also := by
  induction values generalizing msg twin with
  | nil =>
    cases done
    exact ⟨twin, rfl, alike⟩
  | cons value values ih =>
    rw [List.foldlM_cons] at done
    obtain ⟨between, first, rest⟩ := bind_ok.mp done
    obtain ⟨betweenToo, firstToo, held⟩ := put_alike samePage alike first
    obtain ⟨also, restToo, final⟩ := ih held rest
    exact ⟨also, by rw [List.foldlM_cons, firstToo]; exact restToo, final⟩

/-- And the same length in front: all that either of them is written with. -/
structure SameWritten (msg twin : Msg) : Prop extends Alike msg twin where
  front : twin.mData.take 4 = msg.mData.take 4

private theorem set_len_alike (alike : Alike msg twin) (done : msg.setLen = .ok next) :
    ∃ also, twin.setLen = .ok also ∧ SameWritten next also := by
  unfold Msg.setLen Msg.setLenTo at done ⊢
  obtain ⟨data, stored, same⟩ := bind_ok.mp done
  cases same
  obtain ⟨also, storedToo, size, _⟩ := poke_alike alike.size stored
  rw [← alike.offset] at storedToo
  refine ⟨{ twin with mData := also }, by rw [storedToo]; rfl,
    ⟨⟨alike.offset, alike.limit, size, alike.range, fun place behind before => ?_⟩, ?_⟩⟩
  · obtain ⟨_, inside, rfl⟩ := poke_ok.mp stored
    obtain ⟨_, insideToo, rfl⟩ := poke_ok.mp storedToo
    have written := alike.written place behind before
    have head : HEAD_LENGTH = 8 := rfl
    simp only [Int.toNat_zero, List.take_zero, List.nil_append, Nat.zero_add, le_bytes_length]
    rw [List.getElem?_append_right (by rw [le_bytes_length]; omega),
      List.getElem?_append_right (by rw [le_bytes_length]; omega)]
    simp only [List.getElem?_drop, le_bytes_length, show 4 + (place - 4) = place by omega]
    exact written
  · have front := poke_take stored
    have frontToo := poke_take storedToo
    rw [le_bytes_length] at front frontToo
    rw [alike.offset] at frontToo
    exact frontToo.trans front.symm

/-- What `malloc` leaves decides neither whether a message is built nor what is written. -/
theorem build_alike (samePage : host.page = other.page) (built : Msg.build host fields = .ok msg) :
    ∃ also, Msg.build other fields = .ok also ∧ SameWritten msg also := by
  obtain ⟨written, wrote, done⟩ := bind_ok.mp built
  rw [writes_chunks] at wrote
  obtain ⟨writtenToo, wroteToo, alike⟩ := puts_alike samePage (new_alike samePage) wrote
  obtain ⟨also, doneToo, same⟩ := set_len_alike alike done
  exact ⟨also, bind_ok.mpr ⟨writtenToo, by rw [writes_chunks]; exact wroteToo, doneToo⟩, same⟩

theorem dup_alike (same : SameWritten msg twin) (copied : msg.dup host = .ok next) :
    ∃ also, twin.dup other = .ok also ∧ SameWritten next also := by
  unfold Msg.dup Msg.ofLen at copied ⊢
  rw [same.offset]
  simp only [bind_ok] at copied
  obtain ⟨ret, ⟨size, checked, made⟩, bytes, read, data, stored, done⟩ := copied
  split at made
  · cases made
  next nonneg =>
    cases made
    obtain ⟨bytesToo, dataToo, readToo, storedToo, sizeToo, covered⟩ :=
      copy_alike other same.toAlike read stored
    have alike : Alike ⟨data, 0, msg.mWriteOffset, size⟩ ⟨dataToo, 0, msg.mWriteOffset, size⟩ :=
      ⟨rfl, rfl, sizeToo, same.range, fun place behind before =>
        covered place (same.written place behind before) (covers same.range before)⟩
    obtain ⟨also, doneToo, final⟩ := set_len_alike alike done
    refine ⟨also, ?_, final⟩
    rw [checked, ok_then, if_neg nonneg]
    simp only [pure_ok, ok_then, readToo, storedToo]
    exact doneToo

/-- What a connection sends of a message, but for the four bytes of its head that are
never written. -/
def sentBytes (msg : Msg) : List UInt8 := msg.wireBytes.take 4 ++ msg.wireBytes.drop HEAD_LENGTH

theorem same_written_sent (same : SameWritten msg twin) : sentBytes twin = sentBytes msg := by
  have head : HEAD_LENGTH = 8 := rfl
  have range := same.range
  unfold IsInt32 at range
  have total : twin.getTotalLen = msg.getTotalLen := by rw [Msg.getTotalLen, same.offset, ← Msg.getTotalLen]
  have limit : msg.getTotalLen ≤ msg.mWriteOffset + HEAD_LENGTH := to_int32_le (by omega)
  have front : twin.wireBytes.take 4 = msg.wireBytes.take 4 := by
    rw [Msg.wireBytes, Msg.wireBytes, total, List.take_take, List.take_take, Nat.min_comm, ← List.take_take, same.front,
      List.take_take]
  have behind : twin.wireBytes.drop HEAD_LENGTH = msg.wireBytes.drop HEAD_LENGTH := by
    apply List.ext_getElem?
    intro index
    simp only [Msg.wireBytes, total, List.getElem?_drop, List.getElem?_take]
    split
    · exact same.written (HEAD_LENGTH + index) (by omega) (by omega)
    · rfl
  rw [sentBytes, sentBytes, front, behind]

end ChatRoom.MsgWriting
