import ChatRoom.Msg
import ChatRoom.Records
import Mathlib.Tactic.Ring

/-! What a chain of writes leaves in a message buffer. The capacity a message
was created with is the only one it ever compares with: a value that does not
fit is given room when it alone is longer than that capacity, and is written
over the end of the block otherwise; after one growth nothing is checked. -/
namespace ChatRoom.MsgBuffer
open Lib Wire

/-! ### The bytes that reach the buffer -/

theorem htonl_bytes (word : UInt32) : leBytes 4 (htonl word).toNat = beBytes 4 word.toNat := by
  have width := be_bytes_length 4 word.toNat
  have bound := le_nat_lt (beBytes 4 word.toNat)
  have same := le_bytes_nat (beBytes 4 word.toNat)
  rw [width] at bound same
  rw [htonl, UInt32.toNat_ofNat', Nat.mod_eq_of_lt (by omega), same]

theorem htons_bytes (word : UInt16) : leBytes 2 (htons word).toNat = beBytes 2 word.toNat := by
  have width := be_bytes_length 2 word.toNat
  have bound := le_nat_lt (beBytes 2 word.toNat)
  have same := le_bytes_nat (beBytes 2 word.toNat)
  rw [width] at bound same
  rw [htons, UInt16.toNat_ofNat', Nat.mod_eq_of_lt (by omega), same]

private theorem stored_byte (input : UInt64) (bits : Nat) (small : bits < 64) :
    (input >>> UInt64.ofNat bits).toUInt8 = UInt8.ofNat (input.toNat / 2 ^ bits) := by
  apply UInt8.toNat_inj.mp
  have shift : (UInt64.ofNat bits).toNat % 64 = bits := by
    simp only [UInt64.toNat_ofNat']
    omega
  simp only [UInt64.toNat_toUInt8, UInt64.toNat_shiftRight, UInt8.toNat_ofNat', shift,
    Nat.shiftRight_eq_div_pow]

/-- The hand-written byte swap stores the bytes in network order. -/
theorem ntohll_stores (input : UInt64) : ntohll input = UInt64.ofNat (leNat (beBytes 8 input.toNat)) := by
  have bytes : beBytes 8 input.toNat =
      [(input >>> 56).toUInt8, (input >>> 48).toUInt8, (input >>> 40).toUInt8,
        (input >>> 32).toUInt8, (input >>> 24).toUInt8, (input >>> 16).toUInt8,
        (input >>> 8).toUInt8, (input >>> 0).toUInt8] := by
    have b0 := stored_byte input 0 (by decide)
    have b1 := stored_byte input 8 (by decide)
    have b2 := stored_byte input 16 (by decide)
    have b3 := stored_byte input 24 (by decide)
    have b4 := stored_byte input 32 (by decide)
    have b5 := stored_byte input 40 (by decide)
    have b6 := stored_byte input 48 (by decide)
    have b7 := stored_byte input 56 (by decide)
    simp only [UInt64.reduceOfNat, Nat.reducePow, Nat.div_one] at b0 b1 b2 b3 b4 b5 b6 b7
    simp only [b0, b1, b2, b3, b4, b5, b6, b7, beBytes, leBytes, Nat.div_div_eq_div_mul,
      Nat.reduceMul, List.reverse_cons, List.reverse_nil, List.nil_append, List.cons_append]
  rw [bytes, ntohll]

theorem htonll_bytes (word : UInt64) : leBytes 8 (htonll word).toNat = beBytes 8 word.toNat := by
  have width := be_bytes_length 8 word.toNat
  have bound := le_nat_lt (beBytes 8 word.toNat)
  have same := le_bytes_nat (beBytes 8 word.toNat)
  rw [width] at bound same
  rw [htonll, ntohll_stores, UInt64.toNat_ofNat', Nat.mod_eq_of_lt (by omega), same]

/-- The byte strings one `<<` hands to the buffer, each checked for room on its
own: a string's length and its bytes are two of them. -/
def chunks : Field → List (List UInt8)
  | .str value => [beBytes 8 value.length, value.bytes]
  | field => [encodeField field.1 field.2]

theorem chunks_flatten (field : Field) : (chunks field).flatten = encodeField field.1 field.2 := by
  obtain ⟨kind, value⟩ := field
  cases kind <;> simp [chunks, encodeField]

theorem write_chunks (host : Host) (msg : Msg) (field : Field) :
    msg.write host field = (chunks field).foldlM (Msg.put host) msg := by
  obtain ⟨kind, value⟩ := field
  cases kind with
  | int => simp [Msg.write, Msg.writeInt, chunks, encodeField, htonl_bytes]
  | u16 => simp [Msg.write, Msg.writeU16, chunks, encodeField, htons_bytes]
  | u32 => simp [Msg.write, Msg.writeU32, chunks, encodeField, htonl_bytes]
  | u64 => simp [Msg.write, Msg.writeU64, chunks, encodeField, htonll_bytes]
  | str =>
    have length : (UInt64.ofNat (StdString.length value)).toNat = StdString.length value := by
      have short : value.bytes.length < 2 ^ 63 := value.short
      simp only [UInt64.toNat_ofNat', StdString.length]
      omega
    simp [Msg.write, Msg.writeStr, Msg.writeU64, Msg.writeByte, chunks, htonll_bytes, length]

theorem writes_chunks (host : Host) (msg : Msg) (fields : List Field) :
    msg.writes host fields = (fields.flatMap chunks).foldlM (Msg.put host) msg := by
  induction fields generalizing msg with
  | nil => rfl
  | cons field fields ih =>
    simp only [Msg.writes, List.foldlM_cons, List.flatMap_cons, List.foldlM_append, write_chunks]
    exact bind_congr fun next => ih next

theorem flat_chunks (fields : List Field) : (fields.flatMap chunks).flatten = encode fields := by
  induction fields with
  | nil => rfl
  | cons field fields ih =>
    simp only [List.flatMap_cons, List.flatten_append, ih, chunks_flatten]
    rfl

/-! ### One write -/

variable {host : Host} {msg next : Msg} {payload bytes : List UInt8}

/-- The buffer holds exactly this payload behind its head: the write offset
counts it, the allocated block contains it, and its bytes are in place. -/
structure Holds (msg : Msg) (payload : List UInt8) : Prop where
  offset : msg.mWriteOffset = payload.length
  inside : HEAD_LENGTH + payload.length ≤ msg.mData.length
  kept : (msg.mData.drop HEAD_LENGTH).take payload.length = payload

theorem holds_start (holds : Holds msg payload) :
    (HEAD_LENGTH + msg.mWriteOffset).toNat = HEAD_LENGTH + payload.length := by
  rw [holds.offset]
  omega

private theorem holds_front (holds : Holds msg payload)
    (front : block.take (HEAD_LENGTH + payload.length) = msg.mData.take (HEAD_LENGTH + payload.length))
    (written : poke block (HEAD_LENGTH + msg.mWriteOffset) bytes = .ok data) :
    (data.drop HEAD_LENGTH).take (payload ++ bytes).length = payload ++ bytes := by
  have taken := poke_take written
  rw [holds_start holds] at taken
  have split : (data.take (HEAD_LENGTH + payload.length + bytes.length)).drop HEAD_LENGTH =
      (data.drop HEAD_LENGTH).take (payload ++ bytes).length := by
    rw [List.drop_take, List.length_append]
    congr 1
    omega
  have inside : (msg.mData.take (HEAD_LENGTH + payload.length)).length = HEAD_LENGTH + payload.length :=
    List.length_take_of_le holds.inside
  rw [← split, taken, front, List.drop_append_of_le_length (by omega), List.drop_take]
  simpa using holds.kept

/-- How large the new block is, in units of a pointer, when a value of `size`
bytes exceeds the capacity. -/
def grown (host : Host) (capacity size : Nat) : Nat :=
  max size (2 * capacity) + max size (2 * capacity) % host.page

private theorem le_grown (host : Host) (capacity size : Nat) :
    size ≤ grown host capacity size ∧ 2 * capacity ≤ grown host capacity size := by
  unfold grown
  omega

/-- The copy that `Reverse` makes: the new block starts with what was written. -/
private theorem copied_block (left : Nat → UInt8) (size : Nat) (room : front ≤ size) (inside : front ≤ block.length) :
    ∃ kept copy, peek block 0 front = .ok kept ∧ poke (malloc left size) 0 kept = .ok copy ∧
      copy.length = size ∧ copy.take front = block.take front := by
  have width : (block.take front).length = front := List.length_take_of_le inside
  have read : peek block 0 front = .ok (block.take front) :=
    peek_ok.mpr ⟨le_refl _, by simpa using inside, rfl⟩
  obtain ⟨copy, stored⟩ : ∃ copy, poke (malloc left size) 0 (block.take front) = .ok copy :=
    ⟨_, poke_ok.mpr ⟨le_refl _, by simpa [width] using room, rfl⟩⟩
  refine ⟨block.take front, copy, read, stored, by simpa using poke_length stored, ?_⟩
  simpa [width] using poke_take stored

theorem holds_size (holds : Holds msg payload) (range : HEAD_LENGTH + payload.length < 2 ^ 31) :
    toSizeT (msg.mWriteOffset + HEAD_LENGTH) = HEAD_LENGTH + payload.length := by
  have nonneg : 0 ≤ msg.mWriteOffset + HEAD_LENGTH := by
    rw [holds.offset]
    omega
  have same := to_size_t_nonneg nonneg (by rw [holds.offset]; omega)
  rw [holds.offset] at same ⊢
  omega

/-- `Reverse` with a size above the capacity succeeds when its own arithmetic
does not overflow, and keeps what was written. -/
theorem reverse_grows {size capacity : Nat} (holds : Holds msg payload)
    (limit : msg.mMallocSize = capacity) (fits : HEAD_LENGTH + payload.length ≤ capacity)
    (large : capacity < size) (twice : 2 * capacity < 2 ^ 31)
    (small : grown host capacity size < 2 ^ 31) :
    ∃ data, msg.reverse host size = .ok { msg with mData := data } ∧
      data.length = 8 * grown host capacity size ∧
      data.take (HEAD_LENGTH + payload.length) = msg.mData.take (HEAD_LENGTH + payload.length) := by
  have notLess : ¬ (size : Int) < msg.mMallocSize := by omega
  have notSame : ¬ (size : Int) = msg.mMallocSize := by omega
  have doubled : checkInt (2 * msg.mMallocSize) = .ok (2 * msg.mMallocSize) :=
    check_int_ok.mpr ⟨by unfold IsInt32; omega, rfl⟩
  have larger : (if (size : Int) < 2 * msg.mMallocSize then 2 * msg.mMallocSize else (size : Int)) =
      (max size (2 * capacity) : Nat) := by
    rw [limit]
    split <;> omega
  have sum : ((max size (2 * capacity) : Nat) : Int) +
      ((max size (2 * capacity) : Nat) : Int).tmod host.page = (grown host capacity size : Nat) := by
    rw [grown, Nat.cast_add, Int.ofNat_tmod]
  have checked : checkInt (grown host capacity size : Nat) = .ok (grown host capacity size : Nat) :=
    check_int_ok.mpr ⟨by unfold IsInt32; omega, rfl⟩
  have units : toSizeT (grown host capacity size : Nat) = grown host capacity size := by
    have same : (toSizeT (grown host capacity size : Nat) : Int) = (grown host capacity size : Nat) :=
      to_size_t_nonneg (by omega) (by omega)
    omega
  have room := le_grown host capacity size
  have count := holds_size holds (by omega)
  obtain ⟨kept, copy, read, stored, size, front⟩ :=
    copied_block host.left (8 * grown host capacity size) (by omega) holds.inside
  refine ⟨copy, ?_, size, front⟩
  simp only [Msg.reverse, notLess, notSame, ↓reduceIte, doubled, larger, sum, checked, units, count,
    read, stored, ok_then]
  rfl

theorem reverse_overflows {size capacity : Nat} (limit : msg.mMallocSize = capacity)
    (large : capacity < size)
    (overflow : ¬ (2 * capacity < 2 ^ 31 ∧ grown host capacity size < 2 ^ 31)) :
    msg.reverse host size = .error .signedOverflow := by
  have notLess : ¬ (size : Int) < msg.mMallocSize := by omega
  have notSame : ¬ (size : Int) = msg.mMallocSize := by omega
  simp only [Msg.reverse, notLess, notSame, ↓reduceIte]
  by_cases twice : 2 * capacity < 2 ^ 31
  · have doubled : checkInt (2 * msg.mMallocSize) = .ok (2 * msg.mMallocSize) :=
      check_int_ok.mpr ⟨by unfold IsInt32; omega, rfl⟩
    have larger : (if (size : Int) < 2 * msg.mMallocSize then 2 * msg.mMallocSize else (size : Int)) =
        (max size (2 * capacity) : Nat) := by
      rw [limit]
      split <;> omega
    have sum : ((max size (2 * capacity) : Nat) : Int) +
        ((max size (2 * capacity) : Nat) : Int).tmod host.page = (grown host capacity size : Nat) := by
      rw [grown, Nat.cast_add, Int.ofNat_tmod]
    have failed : checkInt (grown host capacity size : Nat) = .error .signedOverflow :=
      check_int_error fun range => overflow ⟨twice, by unfold IsInt32 at range; omega⟩
    simp only [doubled, larger, sum, failed, ok_then]
    rfl
  · have failed : checkInt (2 * msg.mMallocSize) = .error .signedOverflow :=
      check_int_error fun range => twice (by unfold IsInt32 at range; omega)
    simp only [failed]
    rfl

/-- The block that the value is copied into: the present one, or what `Reverse`
returns. -/
def room (host : Host) (msg : Msg) (size : Nat) : Except Fault Msg :=
  if toSizeT msg.leftSize < size then msg.reverse host (toInt32 size) else .ok msg

theorem put_room :
    msg.put host bytes = room host msg bytes.length >>= fun msg =>
      poke msg.mData (HEAD_LENGTH + msg.mWriteOffset) bytes >>= fun data =>
        .ok { msg with mData := data, mWriteOffset := toInt32 (msg.mWriteOffset + bytes.length) } := by
  unfold Msg.put room
  split <;> rfl

/-- A value goes where the block has room for it. -/
theorem put_holds (holds : Holds msg payload)
    (front : block.take (HEAD_LENGTH + payload.length) = msg.mData.take (HEAD_LENGTH + payload.length))
    (given : room host msg bytes.length = .ok { msg with mData := block })
    (enough : HEAD_LENGTH + payload.length + bytes.length ≤ block.length)
    (range : payload.length + bytes.length < 2 ^ 31) :
    ∃ next, msg.put host bytes = .ok next ∧ Holds next (payload ++ bytes) ∧
      next.mData.length = block.length ∧ next.mMallocSize = msg.mMallocSize := by
  obtain ⟨data, written⟩ : ∃ data, poke block (HEAD_LENGTH + msg.mWriteOffset) bytes = .ok data :=
    ⟨_, poke_ok.mpr ⟨by rw [holds.offset]; omega, by rw [holds_start holds]; exact enough, rfl⟩⟩
  have offset : toInt32 (msg.mWriteOffset + bytes.length) = (payload ++ bytes).length := by
    rw [holds.offset, to_int32_eq (by unfold IsInt32; omega), List.length_append, Nat.cast_add]
  have size := poke_length written
  refine ⟨{ msg with mData := data, mWriteOffset := toInt32 (msg.mWriteOffset + bytes.length) }, ?_,
    ⟨offset, ?_, holds_front holds front written⟩, size, rfl⟩
  · simp only [put_room, given, ok_then, written]
  · simp only [List.length_append]
    omega

theorem put_fits (holds : Holds msg payload)
    (given : room host msg bytes.length = .ok { msg with mData := block })
    (done : msg.put host bytes = .ok next) :
    HEAD_LENGTH + payload.length + bytes.length ≤ block.length := by
  simp only [put_room, given, ok_then, bind_ok] at done
  obtain ⟨data, written, _⟩ := done
  obtain ⟨_, enough, _⟩ := poke_ok.mp written
  rwa [holds_start holds] at enough

theorem put_range (done : msg.put host bytes = .ok next) : IsInt32 next.mWriteOffset := by
  simp only [put_room, bind_ok, Except.ok.injEq] at done
  obtain ⟨_, _, _, _, rfl⟩ := done
  exact to_int32_range _

private theorem puts_range {values : List (List UInt8)} (start : IsInt32 msg.mWriteOffset)
    (done : values.foldlM (Msg.put host) msg = .ok next) : IsInt32 next.mWriteOffset := by
  induction values generalizing msg with
  | nil =>
    cases done
    exact start
  | cons value values ih =>
    simp only [List.foldlM_cons, bind_ok] at done
    obtain ⟨between, first, later⟩ := done
    exact ih (put_range first) later

/-! ### A chain of writes -/

/-- All values were copied, and the buffer holds them behind what it held. -/
def Kept (host : Host) (msg : Msg) (payload : List UInt8) (values : List (List UInt8)) : Prop :=
  ∃ next, values.foldlM (Msg.put host) msg = .ok next ∧ Holds next (payload ++ values.flatten)

private theorem kept_range (start : IsInt32 msg.mWriteOffset) (kept : Kept host msg payload values) :
    payload.length + values.flatten.length < 2 ^ 31 := by
  obtain ⟨next, done, holds⟩ := kept
  have range := puts_range start done
  rw [holds.offset, List.length_append] at range
  unfold IsInt32 at range
  omega

/-- Where the rest of a chain is kept, so is its first value: a counter that
has wrapped never comes back to the number of bytes written. -/
theorem kept_cons (start : IsInt32 msg.mWriteOffset) (holds : Holds msg payload)
    (front : block.take (HEAD_LENGTH + payload.length) = msg.mData.take (HEAD_LENGTH + payload.length))
    (given : room host msg bytes.length = .ok { msg with mData := block }) :
    Kept host msg payload (bytes :: values) ↔
      HEAD_LENGTH + payload.length + bytes.length ≤ block.length ∧
        payload.length + bytes.length < 2 ^ 31 ∧
        ∃ next, msg.put host bytes = .ok next ∧ Holds next (payload ++ bytes) ∧
          next.mData.length = block.length ∧ next.mMallocSize = msg.mMallocSize ∧
          IsInt32 next.mWriteOffset ∧ Kept host next (payload ++ bytes) values := by
  constructor
  · intro kept
    have range := kept_range start kept
    obtain ⟨final, done, last⟩ := kept
    simp only [List.foldlM_cons, bind_ok] at done
    obtain ⟨next, first, later⟩ := done
    have enough := put_fits holds given first
    simp only [List.flatten_cons, List.length_append] at range
    obtain ⟨same, firstSame, held, size, limit⟩ := put_holds holds front given enough (by omega)
    cases first.symm.trans firstSame
    exact ⟨enough, by omega, next, first, held, size, limit, put_range first, final, later, by
      simpa using last⟩
  · rintro ⟨_, _, next, first, _, _, _, _, final, later, last⟩
    exact ⟨final, by simp only [List.foldlM_cons, first, ok_then, later], by simpa using last⟩

/-! ### The three places a value can go -/

section
variable {capacity size : Nat}

private theorem left_size (holds : Holds msg payload) (limit : msg.mMallocSize = capacity)
    (head : HEAD_LENGTH ≤ capacity) (range : capacity < 2 ^ 31) (small : payload.length < 2 ^ 31) :
    msg.leftSize = (capacity : Int) - payload.length - HEAD_LENGTH := by
  rw [Msg.leftSize, limit, holds.offset]
  exact to_int32_eq (by unfold IsInt32; omega)

/-- A value for which there is room is written where the message ends. -/
theorem room_within (host : Host) (holds : Holds msg payload) (limit : msg.mMallocSize = capacity)
    (range : capacity < 2 ^ 31) (fits : HEAD_LENGTH + payload.length + size ≤ capacity) :
    room host msg size = .ok msg := by
  have left := left_size holds limit (by omega) range (by omega)
  have same : (toSizeT msg.leftSize : Int) = msg.leftSize := to_size_t_nonneg (by omega) (by omega)
  exact if_neg (by omega)

/-- Without room, a value no longer than the capacity is not given any. -/
theorem room_tight (host : Host) (holds : Holds msg payload) (limit : msg.mMallocSize = capacity)
    (range : capacity < 2 ^ 31) (inside : HEAD_LENGTH + payload.length ≤ capacity)
    (short : size ≤ capacity) : room host msg size = .ok msg := by
  by_cases fits : HEAD_LENGTH + payload.length + size ≤ capacity
  · exact room_within host holds limit range fits
  · have left := left_size holds limit (by omega) range (by omega)
    have same : (toSizeT msg.leftSize : Int) = msg.leftSize := to_size_t_nonneg (by omega) (by omega)
    have asked : toInt32 size = size := to_int32_eq (by unfold IsInt32; omega)
    rw [room, if_pos (by omega), asked, Msg.reverse]
    split
    · rfl
    · rw [if_pos (by omega)]
      rfl

theorem room_large (host : Host) (holds : Holds msg payload) (limit : msg.mMallocSize = capacity)
    (inside : HEAD_LENGTH + payload.length ≤ capacity) (large : capacity < size)
    (range : size < 2 ^ 31) : room host msg size = msg.reverse host size := by
  have left := left_size holds limit (by omega) (by omega) (by omega)
  have same : (toSizeT msg.leftSize : Int) = msg.leftSize := to_size_t_nonneg (by omega) (by omega)
  rw [room, if_pos (by omega), to_int32_eq (by unfold IsInt32; omega)]

/-- Behind the old capacity the space left is negative, a huge `size_t`, and
nothing is checked any more. -/
theorem room_behind (host : Host) (holds : Holds msg payload) (limit : msg.mMallocSize = capacity)
    (head : HEAD_LENGTH ≤ capacity) (range : capacity < 2 ^ 31) (small : payload.length < 2 ^ 31)
    (behind : capacity < HEAD_LENGTH + payload.length) (short : size < 2 ^ 63) :
    room host msg size = .ok msg := by
  have left := left_size holds limit head range small
  have same : 2 ^ 63 ≤ toSizeT msg.leftSize := to_size_t_neg (by omega) (by unfold IsInt32; omega)
  exact if_neg (by omega)

end

private theorem kept_nil (host : Host) (holds : Holds msg payload) : Kept host msg payload [] :=
  ⟨msg, rfl, by simpa using holds⟩

private theorem puts_within {values : List (List UInt8)} (holds : Holds msg payload)
    (limit : msg.mMallocSize = msg.mData.length) (range : msg.mData.length < 2 ^ 31)
    (fits : HEAD_LENGTH + payload.length + values.flatten.length ≤ msg.mData.length) :
    ∃ next, values.foldlM (Msg.put host) msg = .ok next ∧ Holds next (payload ++ values.flatten) ∧
      next.mData.length = msg.mData.length ∧ next.mReadOffset = msg.mReadOffset := by
  induction values generalizing msg payload with
  | nil => exact ⟨msg, rfl, by simpa using holds, rfl, rfl⟩
  | cons value values ih =>
    simp only [List.flatten_cons, List.length_append] at fits
    have given : room host msg value.length = .ok msg := room_within host holds limit range (by omega)
    obtain ⟨between, first, held, size, same⟩ := put_holds holds rfl given (by omega) (by omega)
    have unread : between.mReadOffset = msg.mReadOffset := by
      simp only [put_room, given, ok_then, bind_ok, Except.ok.injEq] at first
      obtain ⟨data, _, rfl⟩ := first
      rfl
    obtain ⟨next, later, done, sameSize, sameRead⟩ := ih held (by rw [same, limit, size]) (by omega) (by
      rw [List.length_append]
      omega)
    refine ⟨next, by rw [List.foldlM_cons, first]; exact later, ?_, sameSize.trans size, sameRead.trans unread⟩
    rwa [List.flatten_cons, ← List.append_assoc]

/-- A chain that fits is written in the block there is. -/
theorem writes_within {fields : List Field} (holds : Holds msg payload)
    (limit : msg.mMallocSize = msg.mData.length) (range : msg.mData.length < 2 ^ 31)
    (fits : HEAD_LENGTH + payload.length + (encode fields).length ≤ msg.mData.length) :
    ∃ next, msg.writes host fields = .ok next ∧ Holds next (payload ++ encode fields) ∧
      next.mData.length = msg.mData.length ∧ next.mReadOffset = msg.mReadOffset := by
  rw [writes_chunks, ← flat_chunks]
  exact puts_within holds limit range (by rwa [flat_chunks])

/-- Behind the old capacity a chain is kept when the block happens to contain
it. -/
theorem kept_behind {values : List (List UInt8)} (holds : Holds msg payload)
    (limit : msg.mMallocSize = (capacity : Nat)) (head : HEAD_LENGTH ≤ capacity)
    (range : capacity < 2 ^ 31) (start : IsInt32 msg.mWriteOffset)
    (behind : capacity < HEAD_LENGTH + payload.length)
    (short : ∀ value ∈ values, value.length < 2 ^ 63) :
    Kept host msg payload values ↔
      HEAD_LENGTH + payload.length + values.flatten.length ≤ msg.mData.length ∧
        payload.length + values.flatten.length < 2 ^ 31 := by
  induction values generalizing msg payload with
  | nil =>
    have inside := holds.inside
    have small := kept_range start (kept_nil host holds)
    exact ⟨fun _ => ⟨by simpa using inside, small⟩, fun _ => kept_nil host holds⟩
  | cons value values ih =>
    have small : payload.length < 2 ^ 31 := by
      have kept := kept_range start (kept_nil host holds)
      simpa using kept
    have given := room_behind host holds limit head range small behind (short value (by simp))
    have rest := fun other member => short other (List.mem_cons_of_mem value member)
    rw [kept_cons start holds rfl given]
    simp only [List.flatten_cons, List.length_append]
    constructor
    · rintro ⟨_, _, next, _, held, size, sameLimit, offset, kept⟩
      rw [ih held (sameLimit.trans limit) offset (by simp only [List.length_append]; omega) rest] at kept
      simp only [List.length_append] at kept
      omega
    · rintro ⟨enough, total⟩
      obtain ⟨next, first, held, size, sameLimit⟩ :=
        put_holds holds rfl given (by omega) (by omega)
      refine ⟨by omega, by omega, next, first, held, size, sameLimit, put_range first, ?_⟩
      rw [ih held (sameLimit.trans limit) (put_range first)
        (by simp only [List.length_append]; omega) rest]
      simp only [List.length_append]
      omega

/-- The values for which a block of `capacity` bytes has room: together they
fit, or the first that does not is itself longer than the block and the growth
it causes happens to contain everything behind it too. -/
def Roomy (host : Host) (capacity filled : Nat) (values : List (List UInt8)) : Prop :=
  HEAD_LENGTH + filled + values.flatten.length ≤ capacity ∨
    ∃ before value after, values = before ++ value :: after ∧
      HEAD_LENGTH + filled + before.flatten.length ≤ capacity ∧ capacity < value.length ∧
      2 * capacity < 2 ^ 31 ∧ grown host capacity value.length < 2 ^ 31 ∧
      filled + values.flatten.length < 2 ^ 31 ∧
      HEAD_LENGTH + filled + values.flatten.length ≤ 8 * grown host capacity value.length

private theorem roomy_fits {values : List (List UInt8)}
    (fits : HEAD_LENGTH + filled + bytes.length ≤ capacity) :
    Roomy host capacity filled (bytes :: values) ↔
      Roomy host capacity (filled + bytes.length) values := by
  unfold Roomy
  simp only [List.flatten_cons, List.length_append, Nat.add_assoc]
  refine or_congr_right ⟨?_, ?_⟩
  · rintro ⟨before, value, after, split, front, large, twice, small, total, enough⟩
    cases before with
    | nil =>
      cases split
      omega
    | cons first before =>
      cases split
      simp only [List.flatten_cons, List.length_append] at front
      exact ⟨before, value, after, rfl, front, large, twice, small, total, enough⟩
  · rintro ⟨before, value, after, rfl, front, large, twice, small, total, enough⟩
    exact ⟨bytes :: before, value, after, rfl, by simpa using front, large, twice, small, total, enough⟩

private theorem roomy_exceeds {values : List (List UInt8)}
    (exceeds : capacity < HEAD_LENGTH + filled + bytes.length) :
    Roomy host capacity filled (bytes :: values) ↔
      HEAD_LENGTH + filled ≤ capacity ∧ capacity < bytes.length ∧ 2 * capacity < 2 ^ 31 ∧
        grown host capacity bytes.length < 2 ^ 31 ∧
        filled + (bytes.length + values.flatten.length) < 2 ^ 31 ∧
        HEAD_LENGTH + filled + (bytes.length + values.flatten.length) ≤
          8 * grown host capacity bytes.length := by
  unfold Roomy
  simp only [List.flatten_cons, List.length_append]
  constructor
  · rintro (_ | ⟨before, value, after, split, front, large, twice, small, total, enough⟩)
    · omega
    · cases before with
      | nil =>
        cases split
        exact ⟨by simpa using front, large, twice, small, total, enough⟩
      | cons first before =>
        cases split
        simp only [List.flatten_cons, List.length_append] at front
        omega
  · rintro ⟨front, large, twice, small, total, enough⟩
    exact .inr ⟨[], bytes, values, rfl, by simpa using front, large, twice, small, total, enough⟩

/-- A chain of values is kept by a block exactly when the block has room for
it. The induction follows the message up to the end of the block. -/
theorem kept_iff_roomy {values : List (List UInt8)} (holds : Holds msg payload)
    (limit : msg.mMallocSize = (capacity : Nat)) (allocated : msg.mData.length = capacity)
    (range : capacity < 2 ^ 31) (start : IsInt32 msg.mWriteOffset)
    (short : ∀ value ∈ values, value.length < 2 ^ 63) :
    Kept host msg payload values ↔ Roomy host capacity payload.length values := by
  have inside := holds.inside
  induction values generalizing msg payload with
  | nil => exact ⟨fun _ => .inl (by simpa [allocated] using inside), fun _ => kept_nil host holds⟩
  | cons value values ih =>
    have rest := fun other member => short other (List.mem_cons_of_mem value member)
    by_cases fits : HEAD_LENGTH + payload.length + value.length ≤ capacity
    · have given := room_within host holds limit range fits
      rw [kept_cons start holds rfl given, roomy_fits fits]
      constructor
      · rintro ⟨_, _, next, _, held, size, sameLimit, offset, kept⟩
        have roomy := (ih held (sameLimit.trans limit) (size.trans allocated) offset rest
          held.inside).mp kept
        rwa [List.length_append] at roomy
      · intro roomy
        obtain ⟨next, first, held, size, sameLimit⟩ := put_holds holds rfl given (by omega) (by omega)
        refine ⟨by omega, by omega, next, first, held, size, sameLimit, put_range first, ?_⟩
        have kept := ih held (sameLimit.trans limit) (size.trans allocated) (put_range first) rest
          held.inside
        rw [List.length_append] at kept
        exact kept.mpr roomy
    · rw [roomy_exceeds (by omega)]
      by_cases large : capacity < value.length ∧ value.length < 2 ^ 31
      · have given := room_large host holds limit (by omega) large.1 large.2
        by_cases growth : 2 * capacity < 2 ^ 31 ∧ grown host capacity value.length < 2 ^ 31
        · obtain ⟨block, grows, size, front⟩ :=
            reverse_grows holds limit (by omega) large.1 growth.1 growth.2
          have wide := le_grown host capacity value.length
          rw [kept_cons start holds front (given.trans grows)]
          constructor
          · rintro ⟨_, _, next, _, held, sameSize, sameLimit, offset, kept⟩
            rw [kept_behind held (sameLimit.trans limit) (by omega) range offset
              (by simp only [List.length_append]; omega) rest] at kept
            simp only [List.length_append] at kept
            exact ⟨by omega, large.1, growth.1, growth.2, by omega, by omega⟩
          · rintro ⟨_, _, _, _, total, enough⟩
            obtain ⟨next, first, held, sameSize, sameLimit⟩ :=
              put_holds holds front (given.trans grows) (by omega) (by omega)
            refine ⟨by omega, by omega, next, first, held, sameSize, sameLimit, put_range first, ?_⟩
            rw [kept_behind held (sameLimit.trans limit) (by omega) range (put_range first)
              (by simp only [List.length_append]; omega) rest]
            simp only [List.length_append]
            omega
        · constructor
          · rintro ⟨_, done, _⟩
            simp only [List.foldlM_cons, put_room, given, reverse_overflows limit large.1 growth,
              error_then, reduceCtorEq] at done
          · rintro ⟨_, _, twice, small, _⟩
            exact absurd ⟨twice, small⟩ growth
      · constructor
        · intro kept
          have total := kept_range start kept
          simp only [List.flatten_cons, List.length_append] at total
          have short : value.length ≤ capacity := by omega
          have given := room_tight host holds limit range (by omega) short
          have enough := ((kept_cons start holds rfl given).mp kept).1
          omega
        · rintro ⟨_, tooLarge, _, _, total, _⟩
          exact absurd ⟨tooLarge, by omega⟩ large

/-! ### Chains of `<<` -/

/-- A message as its two constructors make it. -/
inductive Created (host : Host) : Msg → Prop
  | page : Created host (Msg.new host)
  | length (left : Nat → UInt8) (len : Int) (msg : Msg) (made : Msg.ofLen left len = .ok msg) : Created host msg

theorem created_block (created : Created host msg) :
    msg.mMallocSize = msg.mData.length ∧ msg.mData.length < 2 ^ 31 ∧ msg.mWriteOffset = 0 ∧
      msg.mReadOffset = 0 := by
  cases created with
  | page => exact ⟨by simp [Msg.new], by simpa [Msg.new] using host.range, rfl, rfl⟩
  | length left len _ made =>
    unfold Msg.ofLen at made
    obtain ⟨size, checked, made⟩ := bind_ok.mp made
    obtain ⟨range, rfl⟩ := check_int_ok.mp checked
    split at made
    · cases made
    · cases made
      unfold IsInt32 at range
      refine ⟨?_, ?_, rfl, rfl⟩
      · simp only [malloc_length]
        omega
      · simp only [malloc_length]
        omega

/-- The values for which a message has room: they fit the capacity it was
created with, or the first value that does not is a string longer than that
capacity, and the block it is moved to contains the whole message. -/
def RoomFor (host : Host) (capacity : Nat) (fields : List Field) : Prop :=
  HEAD_LENGTH + (encode fields).length ≤ capacity ∨
    ∃ before text after, fields = before ++ Field.str text :: after ∧
      HEAD_LENGTH + (encode before).length + 8 ≤ capacity ∧ capacity < text.length ∧
      2 * capacity < 2 ^ 31 ∧ grown host capacity text.length < 2 ^ 31 ∧
      (encode fields).length < 2 ^ 31 ∧
      HEAD_LENGTH + (encode fields).length ≤ 8 * grown host capacity text.length

theorem chunk_short (field : Field) (value : List UInt8) (member : value ∈ chunks field) :
    value.length ≤ 8 ∨ ∃ text, field = Field.str text ∧ chunks field = [beBytes 8 text.length, value] ∧
      value = text.bytes := by
  obtain ⟨kind, data⟩ := field
  cases kind with
  | str =>
    simp only [chunks, List.mem_cons, List.not_mem_nil, or_false] at member
    rcases member with rfl | rfl
    · simp
    · exact .inr ⟨data, rfl, rfl, rfl⟩
  | int | u16 | u32 | u64 =>
    simp only [chunks, encodeField, List.mem_cons, List.not_mem_nil, or_false] at member
    simp [member]

private theorem long_chunk {fields : List Field} (split : fields.flatMap chunks = before ++ value :: after)
    (long : 8 < value.length) :
    ∃ front text rest, fields = front ++ Field.str text :: rest ∧ value = text.bytes ∧
      before.flatten.length = (encode front).length + 8 := by
  obtain ⟨front, field, rest, inner, outer, rfl, start, chunk, _⟩ :
      ∃ front field rest inner outer, fields = front ++ field :: rest ∧
        before = front.flatMap chunks ++ inner ∧ chunks field = inner ++ value :: outer ∧ True := by
    induction fields generalizing before with
    | nil => simp at split
    | cons field fields ih =>
      rw [List.flatMap_cons, List.append_eq_append_iff] at split
      rcases split with ⟨more, rfl, later⟩ | ⟨more, own, later⟩
      · obtain ⟨front, owner, rest, inner, outer, rfl, rfl, chunk, _⟩ := ih later
        exact ⟨field :: front, owner, rest, inner, outer, rfl, by simp, chunk, trivial⟩
      · cases more with
        | nil =>
          obtain ⟨front, owner, rest, inner, outer, rfl, start, chunk, _⟩ :=
            @ih [] (by simpa using later.symm)
          refine ⟨field :: front, owner, rest, inner, outer, rfl, ?_, chunk, trivial⟩
          simp only [List.append_nil] at own
          rw [List.flatMap_cons, List.append_assoc, ← start, own, List.append_nil]
        | cons first more =>
          simp only [List.cons_append, List.cons.injEq] at later
          obtain ⟨rfl, rfl⟩ := later
          exact ⟨[], field, fields, before, more, rfl, rfl, own, trivial⟩
  subst start
  rcases chunk_short field value (by simp [chunk]) with short | ⟨text, rfl, both, rfl⟩
  · omega
  · rw [chunk] at both
    have inner : inner = [beBytes 8 text.length] := by
      cases inner with
      | nil =>
        simp only [List.nil_append, List.cons.injEq] at both
        rw [both.1, be_bytes_length] at long
        omega
      | cons first inner =>
        cases inner with
        | nil =>
          simp only [List.cons_append, List.cons.injEq] at both
          rw [both.1]
        | cons second inner => simp at both
    refine ⟨front, text, rest, rfl, rfl, ?_⟩
    rw [List.flatten_append, flat_chunks, inner]
    simp

private theorem roomy_iff_room_for (host : Host) (capacity : Nat) (fields : List Field) :
    Roomy host capacity 0 (fields.flatMap chunks) ↔ RoomFor host capacity fields := by
  unfold Roomy RoomFor
  simp only [flat_chunks, Nat.add_zero, Nat.zero_add]
  refine or_congr_right ⟨?_, ?_⟩
  · rintro ⟨before, value, after, split, front, large, twice, small, total, enough⟩
    have head : HEAD_LENGTH = 8 := rfl
    obtain ⟨first, text, rest, same, rfl, width⟩ := long_chunk split (by omega)
    exact ⟨first, text, rest, same, by omega, large, twice, small, total, enough⟩
  · rintro ⟨before, text, after, rfl, front, large, twice, small, total, enough⟩
    refine ⟨before.flatMap chunks ++ [beBytes 8 text.length], text.bytes, after.flatMap chunks,
      by simp [chunks], ?_, large, twice, small, total, enough⟩
    rw [List.flatten_append, flat_chunks]
    simpa [Nat.add_assoc] using front

theorem writes_hold_iff (created : Created host msg) (head : HEAD_LENGTH ≤ msg.mData.length)
    (fields : List Field) :
    (∃ next, msg.writes host fields = .ok next ∧ Holds next (encode fields)) ↔
      RoomFor host msg.mData.length fields := by
  obtain ⟨limit, range, offset, _⟩ := created_block created
  have short : ∀ value ∈ fields.flatMap chunks, value.length < 2 ^ 63 := by
    intro value member
    obtain ⟨field, _, inside⟩ := List.mem_flatMap.mp member
    rcases chunk_short field value inside with small | ⟨text, _, _, rfl⟩
    · omega
    · exact text.short
  have holds : Holds msg [] := ⟨by simpa using offset, by simpa using head, by simp⟩
  rw [← roomy_iff_room_for, writes_chunks, ← flat_chunks]
  exact kept_iff_roomy holds limit rfl range (by rw [offset]; decide) short

private theorem room_for_front (start : done <+: fields) (room : RoomFor host capacity fields) :
    RoomFor host capacity done := by
  obtain ⟨rest, rfl⟩ := start
  have total : (encode (done ++ rest)).length = (encode done).length + (encode rest).length := by
    rw [encode_append, List.length_append]
  rcases room with fits | ⟨before, text, after, split, front, large, twice, small, range, enough⟩
  · exact .inl (by omega)
  · rcases List.append_eq_append_iff.mp split with ⟨more, rfl, _⟩ | ⟨more, rfl, later⟩
    · rw [encode_append, List.length_append] at front
      exact .inl (by omega)
    · cases more with
      | nil =>
        rw [List.append_nil]
        exact .inl (by omega)
      | cons first more =>
        cases later
        exact .inr ⟨before, text, more, rfl, front, large, twice, small, by omega, by omega⟩

/-- After every `<<` of a chain the bytes written are inside the block and in
place, if and only if the message has room for the chain. Each `<<` compares
only its own size with the capacity the message was created with. -/
theorem every_write_stays_inside_iff (created : Created host msg) (fields : List Field) :
    (∀ done, done <+: fields → ∃ next, msg.writes host done = .ok next ∧ Holds next (encode done)) ↔
      RoomFor host msg.mData.length fields := by
  constructor
  · intro all
    obtain ⟨same, started, empty⟩ := all [] (List.nil_prefix)
    cases started
    exact (writes_hold_iff created (by simpa using empty.inside) fields).mp
      (all fields (List.prefix_refl fields))
  · intro room done start
    have head : HEAD_LENGTH ≤ msg.mData.length := by
      rcases room with fits | ⟨_, _, _, _, fits, _⟩
      · omega
      · omega
    exact (writes_hold_iff created head done).mpr (room_for_front start room)

/-- Two integers are far from the end of a page. -/
theorem every_write_of_two_integers_stays_inside :
    ∃ next, (Msg.new .usual).writes .usual [MsgType.s2cRoomList.field, Field.u32 7] = .ok next ∧
      Holds next (encode [MsgType.s2cRoomList.field, Field.u32 7]) :=
  (every_write_stays_inside_iff .page [MsgType.s2cRoomList.field, Field.u32 7]).mpr
    (.inl (by simp [encode, MsgType.field, encodeField, codec, Msg.new, Host.usual, HEAD_LENGTH]))
    [MsgType.s2cRoomList.field, Field.u32 7] (List.prefix_refl _)

theorem room_for_short_strings
    (short : ∀ text, Field.str text ∈ fields → text.length ≤ capacity)
    (room : RoomFor host capacity fields) : HEAD_LENGTH + (encode fields).length ≤ capacity := by
  rcases room with fits | ⟨before, text, after, rfl, _, large, _⟩
  · exact fits
  · have small := short text (by simp)
    omega

/-- The same letter, many times. -/
def letters (count : Nat) (short : count < 2 ^ 63) : StdString where
  bytes := List.replicate count 97
  short := by simpa using short

theorem letters_length (count : Nat) (short : count < 2 ^ 63) :
    (letters count short).bytes.length = count := List.length_replicate

/-- The chat message of a user with a name of one letter: one byte too long for
a page, with no string longer than a page. -/
def overlongChat : List Field :=
  [MsgType.s2cRoomChatMsg.field, .str (letters 1 (by decide)), .str (letters 4068 (by decide))]

theorem overlong_chat_is_written_outside :
    ¬ ∀ host msg, Created host msg → ∀ fields done : List Field, done <+: fields →
      ∃ next, msg.writes host done = .ok next ∧ Holds next (encode done) := by
  intro always
  have head : HEAD_LENGTH ≤ (Msg.new .usual).mData.length := by simp [Msg.new, HEAD_LENGTH, Host.usual]
  have room := (writes_hold_iff .page head overlongChat).mp
    (always .usual _ .page overlongChat overlongChat (List.prefix_refl _))
  have fits := room_for_short_strings (by
    simp [overlongChat, MsgType.field, letters_length, StdString.length, Msg.new, Host.usual]) room
  simp [overlongChat, MsgType.field, encode, codec, encodeField, letters_length, Msg.new,
    Host.usual, HEAD_LENGTH] at fits

end ChatRoom.MsgBuffer
