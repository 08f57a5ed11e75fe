import ChatRoom.MsgBuffer

/-! Reading a message that came over a connection. `>>` compares nothing with
the size of the message; it succeeds exactly when the value it asks for, with
the length that its bytes claim, lies inside the allocated block. -/
namespace ChatRoom
open Lib Wire

/-- One frame on a connection: a length, four more bytes of head, and a payload
of a length that `ReadData` accepts and `int` arithmetic can handle. -/
structure Frame where
  head : List UInt8
  payload : List UInt8
  headLength : head.length = 4
  atLeast : 4 ≤ payload.length
  atMost : payload.length ≤ 2 ^ 31 - 9

namespace Frame

def wire (frame : Frame) : List UInt8 := beBytes 4 frame.payload.length ++ frame.head ++ frame.payload

/-- A frame with zeros in the four bytes that are not used. -/
def carrying (payload : List UInt8) (atLeast : 4 ≤ payload.length) (atMost : payload.length ≤ 2 ^ 31 - 9) :
    Frame where
  head := List.replicate 4 0
  payload := payload
  headLength := List.length_replicate
  atLeast := atLeast
  atMost := atMost

/-- The `Msg` that `ReadData` hands on for a frame. -/
def msg (frame : Frame) : Msg where
  mData := frame.wire
  mReadOffset := 0
  mWriteOffset := 0
  mMallocSize := frame.payload.length + HEAD_LENGTH

end Frame

namespace MsgReading
open MsgBuffer

variable {msg next : Msg} {bytes rest : List UInt8}

/-- The bytes of the block that have not been read yet. -/
structure Unread (msg : Msg) (bytes : List UInt8) : Prop where
  nonneg : 0 ≤ msg.mReadOffset
  small : msg.mData.length < 2 ^ 31
  inside : HEAD_LENGTH + msg.mReadOffset.toNat ≤ msg.mData.length
  left : msg.mData.drop (HEAD_LENGTH + msg.mReadOffset.toNat) = bytes

theorem unread_frame (frame : Frame) : Unread frame.msg frame.payload := by
  have head := frame.headLength
  have range := frame.atMost
  refine ⟨le_refl _, ?_, ?_, ?_⟩
  · simp only [Frame.msg, Frame.wire, List.length_append, be_bytes_length]
    omega
  · simp only [Frame.msg, Frame.wire, List.length_append, be_bytes_length, HEAD_LENGTH, Int.toNat_zero]
    omega
  · have front : (beBytes 4 frame.payload.length ++ frame.head).length = HEAD_LENGTH := by
      simp [head, HEAD_LENGTH]
    simp only [Frame.msg, Frame.wire, Int.toNat_zero, Nat.add_zero]
    rw [← front, List.drop_left]

private theorem unread_length (unread : Unread msg bytes) :
    bytes.length = msg.mData.length - (HEAD_LENGTH + msg.mReadOffset.toNat) := by
  rw [← unread.left, List.length_drop]

private theorem advance_unread (unread : Unread msg bytes) (enough : count ≤ bytes.length) :
    Unread { msg with mReadOffset := toInt32 (msg.mReadOffset + count) } (bytes.drop count) := by
  have size := unread_length unread
  have nonneg := unread.nonneg
  have inside := unread.inside
  have small := unread.small
  have advanced : toInt32 (msg.mReadOffset + count) = msg.mReadOffset + count :=
    to_int32_eq (by unfold IsInt32; omega)
  have moved : (msg.mReadOffset + count).toNat = msg.mReadOffset.toNat + count := by omega
  refine ⟨?_, small, ?_, ?_⟩
  · simp only [advanced]
    omega
  · simp only [advanced, moved]
    omega
  · simp only [advanced, moved, ← Nat.add_assoc]
    rw [← List.drop_drop, unread.left]

/-- Taking bytes succeeds when that many are left, and takes the first of them. -/
theorem take_ok (unread : Unread msg bytes) :
    msg.take count = .ok (front, next) ↔ count ≤ bytes.length ∧ front = bytes.take count ∧
      next = { msg with mReadOffset := toInt32 (msg.mReadOffset + count) } := by
  have size := unread_length unread
  have nonneg := unread.nonneg
  have inside := unread.inside
  have start : (HEAD_LENGTH + msg.mReadOffset).toNat = HEAD_LENGTH + msg.mReadOffset.toNat := by omega
  simp only [Msg.take, bind_ok, peek_ok, start, unread.left, pure_ok, Except.ok.injEq, Prod.mk.injEq]
  constructor
  · rintro ⟨_, ⟨_, enough, rfl⟩, rfl, rfl⟩
    exact ⟨by omega, rfl, rfl⟩
  · rintro ⟨enough, rfl, rfl⟩
    exact ⟨_, ⟨by omega, by omega, rfl⟩, rfl, rfl⟩

/-- The bytes taken, cut off what was left. -/
private theorem take_splits (unread : Unread msg bytes) (taken : msg.take count = .ok (front, next)) :
    ∃ rest, splitBytes count bytes = some (front, rest) ∧ Unread next rest ∧ front.length = count := by
  obtain ⟨enough, rfl, rfl⟩ := (take_ok unread).mp taken
  exact ⟨bytes.drop count, if_pos enough, advance_unread unread enough, List.length_take_of_le enough⟩

private theorem split_taken (unread : Unread msg bytes) (split : splitBytes count bytes = some (front, rest)) :
    ∃ next, msg.take count = .ok (front, next) ∧ Unread next rest ∧ front.length = count := by
  obtain ⟨rfl, width⟩ := split_bytes_some split
  have enough : count ≤ (front ++ rest).length := by
    rw [List.length_append]
    omega
  have still := advance_unread unread enough
  rw [← width, List.drop_left] at still
  exact ⟨_, (take_ok unread).mpr ⟨enough, by rw [← width, List.take_left], rfl⟩, by rwa [← width], width⟩

/-! ### The five `>>` -/

/-- Four of them take bytes and make a value of them. -/
private theorem word_ok {finish : List UInt8 × Msg → α × Msg} :
    (msg.take count >>= fun taken => .ok (finish taken)) = .ok reply ↔
      ∃ front between, msg.take count = .ok (front, between) ∧ finish (front, between) = reply := by
  simp only [bind_ok, Prod.exists, Except.ok.injEq]

private theorem swapped (temp : List UInt8) (width : temp.length = count) :
    leNat (beBytes count (leNat temp)) = beNat temp := by
  rw [beBytes, ← width, le_bytes_nat, beNat]

theorem ntohl_reads (temp : List UInt8) (width : temp.length = 4) :
    ntohl (UInt32.ofNat (leNat temp)) = UInt32.ofNat (beNat temp) := by
  have bound := le_nat_lt temp
  rw [width] at bound
  rw [ntohl, htonl, UInt32.toNat_ofNat', Nat.mod_eq_of_lt (by omega), swapped temp width]

private theorem ntohs_reads (temp : List UInt8) (width : temp.length = 2) :
    ntohs (UInt16.ofNat (leNat temp)) = UInt16.ofNat (beNat temp) := by
  have bound := le_nat_lt temp
  rw [width] at bound
  rw [ntohs, htons, UInt16.toNat_ofNat', Nat.mod_eq_of_lt (by omega), swapped temp width]

private theorem ntohll_reads (temp : List UInt8) (width : temp.length = 8) :
    ntohll (UInt64.ofNat (leNat temp)) = UInt64.ofNat (beNat temp) := by
  have bound := le_nat_lt temp
  rw [width] at bound
  rw [ntohll_stores, UInt64.toNat_ofNat', Nat.mod_eq_of_lt (by omega), swapped temp width]

private theorem read_u64_splits (unread : Unread msg bytes) (read : msg.readU64 = .ok (value, next)) :
    ∃ front rest, splitBytes 8 bytes = some (front, rest) ∧ Unread next rest ∧
      value = UInt64.ofNat (beNat front) := by
  obtain ⟨front, _, taken, same⟩ := word_ok.mp read
  cases same
  obtain ⟨rest, split, still, width⟩ := take_splits unread taken
  exact ⟨front, rest, split, still, ntohll_reads front width⟩

private theorem split_read_u64 (unread : Unread msg bytes) (split : splitBytes 8 bytes = some (front, rest)) :
    ∃ next, msg.readU64 = .ok (UInt64.ofNat (beNat front), next) ∧ Unread next rest := by
  obtain ⟨next, taken, still, width⟩ := split_taken unread split
  exact ⟨next, by simp only [Msg.readU64, taken, ok_then, ntohll_reads front width]; rfl, still⟩

private theorem u64_front (width : List.length front = 8) :
    (UInt64.ofNat (beNat front)).toNat = beNat front := by
  have bound := be_nat_lt front
  rw [width] at bound
  rw [UInt64.toNat_ofNat', Nat.mod_eq_of_lt (by omega)]

/-- A value that `>>` returns is the one that the unread bytes start with. -/
theorem read_decodes (unread : Unread msg bytes) (kind : Kind) (value : kind.Carrier)
    (read : Msg.read kind msg = .ok (value, next)) :
    ∃ rest, decodeField kind bytes = some (value, rest) ∧ Unread next rest := by
  cases kind with
  | int =>
    obtain ⟨front, _, taken, same⟩ := word_ok.mp read
    cases same
    obtain ⟨rest, split, still, width⟩ := take_splits unread taken
    exact ⟨rest, by simp only [decodeField, split, Option.map_some, ntohl_reads front width], still⟩
  | u16 =>
    obtain ⟨front, _, taken, same⟩ := word_ok.mp read
    cases same
    obtain ⟨rest, split, still, width⟩ := take_splits unread taken
    exact ⟨rest, by simp only [decodeField, split, Option.map_some, ntohs_reads front width], still⟩
  | u32 =>
    obtain ⟨front, _, taken, same⟩ := word_ok.mp read
    cases same
    obtain ⟨rest, split, still, width⟩ := take_splits unread taken
    exact ⟨rest, by simp only [decodeField, split, Option.map_some, ntohl_reads front width], still⟩
  | u64 =>
    obtain ⟨front, rest, split, still, rfl⟩ := read_u64_splits unread read
    exact ⟨rest, by simp only [decodeField, split, Option.map_some], still⟩
  | str =>
    simp only [Msg.read, Msg.readStr, bind_ok, Prod.exists] at read
    obtain ⟨_, between, length, read⟩ := read
    split at read
    · cases read
    simp only [bind_ok, Prod.exists] at read
    obtain ⟨text, last, taken, made⟩ := read
    obtain ⟨front, middle, split, still, rfl⟩ := read_u64_splits unread length
    rw [u64_front (split_bytes_some split).2] at taken
    obtain ⟨rest, cut, left, width⟩ := take_splits still taken
    obtain ⟨enough, rfl, _⟩ := (take_ok still).mp taken
    split at made
    · rename_i short
      simp only [pure_ok, Except.ok.injEq, Prod.mk.injEq] at made
      obtain ⟨rfl, rfl⟩ := made
      rw [splitBytes, if_pos enough, Option.some.injEq, Prod.mk.injEq] at cut
      exact ⟨rest, by simp only [decodeField, split]; rw [dif_pos (by omega), dif_pos enough, cut.2], left⟩
    · cases made

/-- A value that the unread bytes start with is returned by `>>`. -/
theorem decode_reads (unread : Unread msg bytes) (kind : Kind) (value : kind.Carrier)
    (decoded : decodeField kind bytes = some (value, rest)) :
    ∃ next, Msg.read kind msg = .ok (value, next) ∧ Unread next rest := by
  cases kind with
  | int =>
    simp only [decodeField, Option.map_eq_some_iff, Prod.mk.injEq] at decoded
    obtain ⟨⟨front, _⟩, split, rfl, rfl⟩ := decoded
    obtain ⟨next, taken, still, width⟩ := split_taken unread split
    exact ⟨next, by simp only [Msg.read, Msg.readInt, taken, ok_then, ntohl_reads front width]; rfl, still⟩
  | u16 =>
    simp only [decodeField, Option.map_eq_some_iff, Prod.mk.injEq] at decoded
    obtain ⟨⟨front, _⟩, split, rfl, rfl⟩ := decoded
    obtain ⟨next, taken, still, width⟩ := split_taken unread split
    exact ⟨next, by simp only [Msg.read, Msg.readU16, taken, ok_then, ntohs_reads front width]; rfl, still⟩
  | u32 =>
    simp only [decodeField, Option.map_eq_some_iff, Prod.mk.injEq] at decoded
    obtain ⟨⟨front, _⟩, split, rfl, rfl⟩ := decoded
    obtain ⟨next, taken, still, width⟩ := split_taken unread split
    exact ⟨next, by simp only [Msg.read, Msg.readU32, taken, ok_then, ntohl_reads front width]; rfl, still⟩
  | u64 =>
    simp only [decodeField, Option.map_eq_some_iff, Prod.mk.injEq] at decoded
    obtain ⟨⟨front, _⟩, split, rfl, rfl⟩ := decoded
    exact split_read_u64 unread split
  | str =>
    simp only [decodeField] at decoded
    split at decoded
    · cases decoded
    · rename_i front middle split
      split at decoded
      · split at decoded
        · rename_i short enough
          simp only [Option.some.injEq, Prod.mk.injEq] at decoded
          obtain ⟨rfl, rfl⟩ := decoded
          obtain ⟨between, length, still⟩ := split_read_u64 unread split
          obtain ⟨next, taken, left, width⟩ := split_taken still (if_pos enough)
          refine ⟨next, ?_, left⟩
          simp only [Msg.read, Msg.readStr, length, ok_then, u64_front (split_bytes_some split).2]
          rw [if_neg (by omega), taken]
          exact dif_pos (show (middle.take (beNat front)).length < 2 ^ 63 by omega)
        · cases decoded
      · cases decoded

/-! ### Handlers -/

/-- A handler that reads to its end has read fields whose encoding is the front
of the message. -/
theorem run_read_values {reader : FieldReader α} (unread : Unread msg bytes)
    (ran : reader.run Msg.read msg = .ok (result, next)) :
    ∃ fields rest, reader.run Reader.takeValue fields = .ok (result, []) ∧
      bytes = encode fields ++ rest ∧ Unread next rest := by
  have simulates : ∀ kind msg bytes value next, Unread msg bytes → Msg.read kind msg = .ok (value, next) →
      ∃ rest, Reader.decoded codec kind bytes = .ok (value, rest) ∧ Unread next rest := by
    intro kind msg bytes value next unread read
    obtain ⟨rest, decoded, still⟩ := read_decodes unread kind value read
    exact ⟨rest, Reader.decoded_ok.mpr decoded, still⟩
  obtain ⟨rest, decodes, still⟩ := Reader.run_simulates Unread simulates unread ran
  obtain ⟨fields, values, split⟩ := Reader.run_values_of_decoded codec decodes
  exact ⟨fields, rest, values, split, still⟩

/-- A handler that can be run on a list of fields reads them off a message that
starts with their encoding. -/
theorem run_read_of_values {reader : FieldReader α} {fields : List Field}
    (unread : Unread msg (encode fields ++ rest))
    (values : reader.run Reader.takeValue fields = .ok (result, [])) :
    ∃ next, reader.run Msg.read msg = .ok (result, next) ∧ Unread next rest := by
  have decodes := Reader.run_decoded_of_values codec rest values
  have simulates : ∀ kind bytes msg value more, Unread msg bytes →
      Reader.decoded codec kind bytes = .ok (value, more) →
      ∃ next, Msg.read kind msg = .ok (value, next) ∧ Unread next more := by
    intro kind bytes msg value more unread decoded
    exact decode_reads unread kind value (Reader.decoded_ok.mp decoded)
  obtain ⟨next, ran, still⟩ := Reader.run_simulates (fun bytes msg => Unread msg bytes) simulates unread decodes
  exact ⟨next, ran, by simpa using still⟩

private theorem take_fault (stopped : msg.take count = .error fault) : fault = .outOfBounds := by
  unfold Msg.take peek at stopped
  split at stopped
  · cases stopped
  · cases stopped
    rfl

/-- The only ways for a `>>` to fail are a read outside the block and a string
longer than any string can be. -/
theorem read_fault (kind : Kind) (msg : Msg) (fault : Fault) (stopped : Msg.read kind msg = .error fault) :
    fault = .outOfBounds ∨ fault = .lengthError := by
  have word : ∀ {count : Nat} {α : Type} {finish : List UInt8 × Msg → α × Msg},
      (msg.take count >>= fun taken => .ok (finish taken)) = .error fault → fault = .outOfBounds := by
    intro count α finish failed
    cases taken : msg.take count with
    | error cause =>
      rw [taken] at failed
      cases failed
      exact take_fault taken
    | ok reply =>
      rw [taken] at failed
      cases failed
  cases kind with
  | int => exact .inl (word stopped)
  | u16 => exact .inl (word stopped)
  | u32 => exact .inl (word stopped)
  | u64 => exact .inl (word stopped)
  | str =>
    simp only [Msg.read, Msg.readStr] at stopped
    cases length : msg.readU64 with
    | error cause =>
      rw [length] at stopped
      cases stopped
      exact .inl (word length)
    | ok reply =>
      obtain ⟨len, between⟩ := reply
      simp only [length, ok_then] at stopped
      split at stopped
      · cases stopped
        exact .inr rfl
      cases taken : between.take len.toNat with
      | error cause =>
        rw [taken] at stopped
        cases stopped
        exact .inl (take_fault taken)
      | ok reply =>
        simp only [taken, ok_then] at stopped
        split at stopped
        · cases stopped
        · cases stopped
          exact .inr rfl

/-- Reading changes nothing but the read offset. -/
theorem read_keeps_block (kind : Kind) (value : kind.Carrier) (read : Msg.read kind msg = .ok (value, next)) :
    next.mData = msg.mData := by
  have taken : ∀ {count : Nat} {msg next : Msg} {front : List UInt8}, msg.take count = .ok (front, next) →
      next.mData = msg.mData := by
    intro count msg next front done
    simp only [Msg.take, bind_ok, pure_ok, Except.ok.injEq, Prod.mk.injEq] at done
    obtain ⟨_, _, _, rfl⟩ := done
    rfl
  cases kind with
  | int =>
    obtain ⟨_, _, done, same⟩ := word_ok.mp read
    cases same
    exact taken done
  | u16 =>
    obtain ⟨_, _, done, same⟩ := word_ok.mp read
    cases same
    exact taken done
  | u32 =>
    obtain ⟨_, _, done, same⟩ := word_ok.mp read
    cases same
    exact taken done
  | u64 =>
    obtain ⟨_, _, done, same⟩ := word_ok.mp read
    cases same
    exact taken done
  | str =>
    simp only [Msg.read, Msg.readStr, Msg.readU64, bind_ok, Prod.exists, pure_ok, Except.ok.injEq,
      Prod.mk.injEq] at read
    obtain ⟨_, _, ⟨_, _, length, _, rfl⟩, read⟩ := read
    split at read
    · cases read
    simp only [bind_ok, Prod.exists] at read
    obtain ⟨_, last, done, made⟩ := read
    split at made
    · cases made
      exact (taken done).trans (taken length)
    · cases made

theorem run_keeps_block {reader : FieldReader α} (ran : reader.run Msg.read msg = .ok (result, next)) :
    next.mData = msg.mData := by
  have keeps : ∀ kind (state twin : Msg) value following, state = twin ∧ twin.mData = msg.mData →
      Msg.read kind state = .ok (value, following) →
      ∃ nextTwin, Msg.read kind twin = .ok (value, nextTwin) ∧ following = nextTwin ∧ nextTwin.mData = msg.mData := by
    rintro kind state _ value following ⟨rfl, same⟩ read
    exact ⟨following, read, rfl, (read_keeps_block kind value read).trans same⟩
  obtain ⟨_, _, rfl, same⟩ := Reader.run_simulates _ keeps ⟨rfl, rfl⟩ ran
  exact same

/-- Where reading stands, counted from the end of the block. -/
theorem unread_offset (unread : Unread msg bytes) :
    msg.mReadOffset = msg.mData.length - HEAD_LENGTH - bytes.length := by
  have size := unread_length unread
  have nonneg := unread.nonneg
  have inside := unread.inside
  omega

end MsgReading
end ChatRoom
