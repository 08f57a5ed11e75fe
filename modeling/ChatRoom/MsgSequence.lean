import ChatRoom.MsgReading

/-! A sequence of values in one message: written by `<<`, with its length set in
front, copied by `Dup`, and read by `>>` in the order written, from the message
or from the copy. -/
namespace ChatRoom.MsgSequence
open Lib Wire MsgBuffer MsgReading

variable {host : Host} {msg : Msg} {fields : List Field} {payload tail : List UInt8}

/-- Values that fit a message are all written where they belong. -/
theorem fits_writes (created : Created host msg) (fits : HEAD_LENGTH + (encode fields).length ≤ msg.mData.length) :
    ∃ written, msg.writes host fields = .ok written ∧ Holds written (encode fields) ∧
      written.mData.length = msg.mData.length ∧ written.mReadOffset = 0 := by
  obtain ⟨limit, range, noWrites, noReads⟩ := created_block created
  have empty : Holds msg [] := ⟨by simpa using noWrites, by rw [List.length_nil]; omega, rfl⟩
  obtain ⟨written, wrote, holds, size, start⟩ :=
    writes_within empty limit range (by rw [List.length_nil]; omega)
  exact ⟨written, wrote, holds, size, start.trans noReads⟩

/-! ### The length in front -/

theorem total_length (holds : Holds msg payload) (short : payload.length ≤ 2 ^ 31 - 9) :
    msg.getTotalLen.toNat = HEAD_LENGTH + payload.length := by
  rw [Msg.getTotalLen, holds.offset, to_int32_eq (by unfold IsInt32 HEAD_LENGTH; omega)]
  omega

private theorem length_word (holds : Holds msg payload) (short : payload.length ≤ 2 ^ 31 - 9) :
    leBytes 4 (htonl (UInt32.ofInt msg.mWriteOffset)).toNat = beBytes 4 payload.length := by
  have word : (UInt32.ofInt msg.mWriteOffset).toNat = payload.length := by
    rw [holds.offset, UInt32.ofInt, UInt32.toNat_ofNat']
    omega
  rw [htonl_bytes, word]

/-- `SetLen` writes the length of the payload over the first four bytes, and
nothing else. -/
theorem set_len_ok (holds : Holds msg payload) (short : payload.length ≤ 2 ^ 31 - 9) :
    msg.setLen = .ok { msg with mData := beBytes 4 payload.length ++ msg.mData.drop 4 } := by
  have inside := holds.inside
  have head : HEAD_LENGTH = 8 := rfl
  have placed : poke msg.mData 0 (beBytes 4 payload.length) =
      .ok (beBytes 4 payload.length ++ msg.mData.drop 4) := by
    rw [poke_ok]
    refine ⟨le_refl _, ?_, by simp⟩
    rw [be_bytes_length, Int.toNat_zero]
    omega
  rw [Msg.setLen, Msg.setLenTo, length_word holds short, placed]
  rfl

/-- The bytes between the length and the payload, which nobody writes. -/
def unused (msg : Msg) : List UInt8 := (msg.mData.drop 4).take 4

theorem unused_length (holds : Holds msg payload) : (unused msg).length = 4 := by
  have inside := holds.inside
  have head : HEAD_LENGTH = 8 := rfl
  simp only [unused, List.length_take, List.length_drop]
  omega

theorem set_len_holds (holds : Holds msg payload) (short : payload.length ≤ 2 ^ 31 - 9) :
    ∃ next, msg.setLen = .ok next ∧ Holds next payload ∧ next.mData.length = msg.mData.length ∧
      next.mReadOffset = msg.mReadOffset ∧
      next.mData.take (HEAD_LENGTH + payload.length) = beBytes 4 payload.length ++ unused msg ++ payload := by
  have inside := holds.inside
  have head : HEAD_LENGTH = 8 := rfl
  have size : (beBytes 4 payload.length ++ msg.mData.drop 4).length = msg.mData.length := by
    rw [List.length_append, be_bytes_length, List.length_drop]
    omega
  have width : (beBytes 4 payload.length ++ unused msg).length = HEAD_LENGTH := by
    rw [List.length_append, be_bytes_length, unused_length holds, head]
  have split : msg.mData.drop 4 = unused msg ++ msg.mData.drop HEAD_LENGTH := by
    have both := (List.take_append_drop 4 (msg.mData.drop 4)).symm
    rwa [List.drop_drop] at both
  have front : beBytes 4 payload.length ++ msg.mData.drop 4 =
      (beBytes 4 payload.length ++ unused msg) ++ msg.mData.drop HEAD_LENGTH := by
    rw [split, List.append_assoc]
  have kept : ((beBytes 4 payload.length ++ msg.mData.drop 4).drop HEAD_LENGTH).take payload.length = payload := by
    rw [front, List.drop_left' width]
    exact holds.kept
  refine ⟨_, set_len_ok holds short, ⟨holds.offset, by rw [size]; exact inside, kept⟩, size, rfl, ?_⟩
  rw [List.take_add, kept, front, List.take_left' width]

/-! ### A copy -/

/-- A copy holds the same payload in a block of its own, with its length in
front, and is read from its start. -/
theorem dup_holds (holds : Holds msg payload) (short : payload.length ≤ 2 ^ 31 - 9) :
    ∃ copy, msg.dup host = .ok copy ∧ Holds copy payload ∧ copy.mReadOffset = 0 ∧
      copy.mData = beBytes 4 payload.length ++ unused msg ++ payload := by
  have head : HEAD_LENGTH = 8 := rfl
  have room : checkInt (msg.mWriteOffset + HEAD_LENGTH) = .ok (payload.length + HEAD_LENGTH : Int) := by
    rw [check_int_ok, holds.offset]
    exact ⟨by unfold IsInt32; omega, rfl⟩
  have count : toSizeT (msg.mWriteOffset + HEAD_LENGTH) = HEAD_LENGTH + payload.length := by
    rw [holds.offset, toSizeT]
    omega
  obtain ⟨bytes, taken⟩ : ∃ bytes, bytes = msg.mData.take (HEAD_LENGTH + payload.length) := ⟨_, rfl⟩
  have size : bytes.length = HEAD_LENGTH + payload.length := by
    rw [taken, List.length_take_of_le holds.inside]
  have copied : peek msg.mData 0 (HEAD_LENGTH + payload.length) = .ok bytes := by
    rw [peek_ok]
    exact ⟨le_refl _, by simpa using holds.inside, taken⟩
  have placed : poke (malloc host.left (payload.length + HEAD_LENGTH : Int).toNat) 0 bytes = .ok bytes := by
    rw [poke_ok]
    refine ⟨le_refl _, by simp; omega, ?_⟩
    simp only [Int.toNat_zero, List.take_zero, List.nil_append, Nat.zero_add]
    rw [List.drop_of_length_le (by simp; omega), List.append_nil]
  have kept : (bytes.drop HEAD_LENGTH).take payload.length = payload := by
    rw [taken, List.drop_take, Nat.add_sub_cancel_left, List.take_take, Nat.min_self]
    exact holds.kept
  have copyHolds : Holds ⟨bytes, 0, msg.mWriteOffset, payload.length + HEAD_LENGTH⟩ payload :=
    ⟨holds.offset, by rw [size], kept⟩
  obtain ⟨copy, done, held, length, start, front⟩ := set_len_holds copyHolds short
  refine ⟨copy, ?_, held, start, ?_⟩
  · rw [Msg.dup, Msg.ofLen, room]
    simp only [ok_then]
    rw [if_neg (by omega)]
    simp only [count, copied, ok_then, pure_ok, placed]
    exact done
  · have whole : copy.mData.length = HEAD_LENGTH + payload.length := length.trans size
    have middle : unused ⟨bytes, 0, msg.mWriteOffset, payload.length + HEAD_LENGTH⟩ = unused msg := by
      simp only [unused, taken, List.drop_take, List.take_take]
      congr 1
      omega
    rw [← whole, List.take_length] at front
    rw [front, middle]

/-! ### Reading in the order written -/

/-- A message that is read from its start has its payload to read. -/
theorem unread_start (holds : Holds msg payload) (small : msg.mData.length < 2 ^ 31)
    (start : msg.mReadOffset = 0) : ∃ tail, Unread msg (payload ++ tail) := by
  have inside := holds.inside
  have split : msg.mData.drop HEAD_LENGTH = payload ++ msg.mData.drop (HEAD_LENGTH + payload.length) := by
    have both := (List.take_append_drop payload.length (msg.mData.drop HEAD_LENGTH)).symm
    rwa [List.drop_drop, holds.kept] at both
  refine ⟨msg.mData.drop (HEAD_LENGTH + payload.length), by rw [start], small, ?_, ?_⟩
  · rw [start, Int.toNat_zero]
    omega
  · rw [start, Int.toNat_zero, Nat.add_zero, split]

/-- Values are read in their order, and the read offset counts their bytes. -/
theorem reads_in_order (done rest : List Field) (unread : Unread msg (encode (done ++ rest) ++ tail)) :
    ∃ next, (Reader.each (done.map Sigma.fst)).run Msg.read msg = .ok (done, next) ∧
      next.mReadOffset = msg.mReadOffset + (encode done).length := by
  rw [encode_append, List.append_assoc] at unread
  obtain ⟨next, ran, still⟩ := run_read_of_values unread (Reader.run_each_values done)
  refine ⟨next, ran, ?_⟩
  have before := unread_offset unread
  have after := unread_offset still
  rw [run_keeps_block ran] at after
  rw [List.length_append] at before
  omega

/-- Reading gives the values back in order, with the read offset behind the
last value read after each of them, and at the write offset after all. -/
structure ReadsBack (msg : Msg) (fields : List Field) : Prop where
  each : ∀ done rest, fields = done ++ rest →
    ∃ next, (Reader.each (done.map Sigma.fst)).run Msg.read msg = .ok (done, next) ∧
      next.mReadOffset = (encode done).length
  end_offset : msg.mWriteOffset = (encode fields).length

theorem holds_reads_back (holds : Holds msg (encode fields)) (small : msg.mData.length < 2 ^ 31)
    (start : msg.mReadOffset = 0) : ReadsBack msg fields := by
  obtain ⟨tail, unread⟩ := unread_start holds small start
  refine ⟨fun done rest split => ?_, holds.offset⟩
  rw [split] at unread
  obtain ⟨next, ran, advanced⟩ := reads_in_order done rest unread
  exact ⟨next, ran, by rw [advanced, start, Int.zero_add]⟩

/-- Any sequence of values that fits a message, new or of a given length, is
read back from the message and from every copy, wherever reading stood when the
copy was made; and `SetLen` changes the first four bytes only. -/
theorem every_sequence_is_read_back (host : Host) (msg : Msg) (created : Created host msg)
    (fields : List Field) (fits : HEAD_LENGTH + (encode fields).length ≤ msg.mData.length) :
    ∃ written, msg.writes host fields = .ok written ∧ ReadsBack written fields ∧
      written.setLen =
        .ok { written with mData := beBytes 4 (encode fields).length ++ written.mData.drop 4 } ∧
      ∀ offset : Int, ∃ copy, { written with mReadOffset := offset }.dup host = .ok copy ∧
        ReadsBack copy fields := by
  have head : HEAD_LENGTH = 8 := rfl
  obtain ⟨_, range, _, _⟩ := created_block created
  obtain ⟨written, wrote, holds, size, start⟩ := fits_writes created fits
  have short : (encode fields).length ≤ 2 ^ 31 - 9 := by omega
  refine ⟨written, wrote, holds_reads_back holds (by omega) start, set_len_ok holds short, ?_⟩
  intro offset
  have moved : Holds { written with mReadOffset := offset } (encode fields) :=
    ⟨holds.offset, holds.inside, holds.kept⟩
  obtain ⟨copy, copied, held, first, block⟩ := dup_holds moved short
  have length : copy.mData.length = HEAD_LENGTH + (encode fields).length := by
    rw [block, List.length_append, List.length_append, be_bytes_length, unused_length moved, head]
  exact ⟨copy, copied, holds_reads_back held (by omega) first⟩

/-- One value of every type, the string empty. -/
theorem one_value_of_each_type_is_read_back :
    ∃ written, (Msg.new .usual).writes .usual
        [.int (-1), .u16 12, .u32 3333, .u64 1112222222211111, .str (.ascii "")] = .ok written ∧
      ReadsBack written [.int (-1), .u16 12, .u32 3333, .u64 1112222222211111, .str (.ascii "")] := by
  obtain ⟨written, wrote, reads, _⟩ := every_sequence_is_read_back .usual (Msg.new .usual) .page
    [.int (-1), .u16 12, .u32 3333, .u64 1112222222211111, .str (.ascii "")]
    (by simp [encode, encodeField, codec, Msg.new, Host.usual, HEAD_LENGTH, StdString.length, StdString.ascii])
  exact ⟨written, wrote, reads⟩

end ChatRoom.MsgSequence
