import ChatRoom.Lib.Codec
import ChatRoom.Lib.StdString
import ChatRoom.Lib.Words

/-! The five value types `Msg` writes with `<<` and reads with `>>`, and their
bytes: integers in network order, and a string behind its 64-bit length. Nothing
in the bytes says which type comes next. -/
namespace ChatRoom.Wire
open Lib

/-- The overloads of `Msg::operator<<` and `Msg::operator>>`. -/
inductive Kind where
  | int | u16 | u32 | u64 | str
  deriving DecidableEq

@[reducible] def Kind.Carrier : Kind → Type
  | .int => Int32
  | .u16 => UInt16
  | .u32 => UInt32
  | .u64 => UInt64
  | .str => StdString

instance : (kind : Kind) → DecidableEq kind.Carrier
  | .int => inferInstanceAs (DecidableEq Int32)
  | .u16 => inferInstanceAs (DecidableEq UInt16)
  | .u32 => inferInstanceAs (DecidableEq UInt32)
  | .u64 => inferInstanceAs (DecidableEq UInt64)
  | .str => inferInstanceAs (DecidableEq StdString)

/-- One written value. A message is a list of these, in the order written. -/
abbrev Field := Value Kind.Carrier

namespace Field
@[match_pattern] abbrev int (value : Int32) : Field := ⟨Kind.int, value⟩
@[match_pattern] abbrev u16 (value : UInt16) : Field := ⟨Kind.u16, value⟩
@[match_pattern] abbrev u32 (value : UInt32) : Field := ⟨Kind.u32, value⟩
@[match_pattern] abbrev u64 (value : UInt64) : Field := ⟨Kind.u64, value⟩
@[match_pattern] abbrev str (value : StdString) : Field := ⟨Kind.str, value⟩
end Field

/-- Splits off `count` bytes, when there are that many. -/
def splitBytes (count : Nat) (bytes : List UInt8) : Option (List UInt8 × List UInt8) :=
  if count ≤ bytes.length then some (bytes.take count, bytes.drop count) else none

theorem split_bytes_append {front rest : List UInt8} (width : front.length = count) :
    splitBytes count (front ++ rest) = some (front, rest) := by
  subst width
  simp [splitBytes]

theorem split_bytes_some (split : splitBytes count bytes = some (front, rest)) :
    bytes = front ++ rest ∧ front.length = count := by
  unfold splitBytes at split
  split at split
  · rename_i enough
    cases split
    exact ⟨(List.take_append_drop count bytes).symm, List.length_take_of_le enough⟩
  · cases split

/-- The bytes one `<<` lays down. -/
def encodeField : (kind : Kind) → kind.Carrier → List UInt8
  | .int, value => beBytes 4 value.toUInt32.toNat
  | .u16, value => beBytes 2 value.toNat
  | .u32, value => beBytes 4 value.toNat
  | .u64, value => beBytes 8 value.toNat
  | .str, value => beBytes 8 value.length ++ value.bytes

def decodeField : (kind : Kind) → List UInt8 → Option (kind.Carrier × List UInt8)
  | .int, bytes => (splitBytes 4 bytes).map fun (front, rest) =>
      ((UInt32.ofNat (beNat front)).toInt32, rest)
  | .u16, bytes => (splitBytes 2 bytes).map fun (front, rest) => (UInt16.ofNat (beNat front), rest)
  | .u32, bytes => (splitBytes 4 bytes).map fun (front, rest) => (UInt32.ofNat (beNat front), rest)
  | .u64, bytes => (splitBytes 8 bytes).map fun (front, rest) => (UInt64.ofNat (beNat front), rest)
  | .str, bytes =>
    match splitBytes 8 bytes with
    | none => none
    | some (front, rest) =>
      if short : beNat front < 2 ^ 63 then
        if enough : beNat front ≤ rest.length then
          some (⟨rest.take (beNat front), by simp; omega⟩, rest.drop (beNat front))
        else none
      else none

private theorem u32_bytes (value : UInt32) : UInt32.ofNat (beNat (beBytes 4 value.toNat)) = value := by
  rw [be_nat_bytes]
  apply UInt32.toNat_inj.mp
  have bound := value.toNat_lt
  simp only [UInt32.toNat_ofNat']
  omega

private theorem u32_nat (bytes : List UInt8) (width : bytes.length = 4) :
    beBytes 4 (UInt32.ofNat (beNat bytes)).toNat = bytes := by
  have bound := be_nat_lt bytes
  have same := be_bytes_nat bytes
  rw [width] at bound same
  rw [UInt32.toNat_ofNat', Nat.mod_eq_of_lt (by omega), same]

theorem decode_encode_field (kind : Kind) (value : kind.Carrier) (rest : List UInt8) :
    decodeField kind (encodeField kind value ++ rest) = some (value, rest) := by
  cases kind with
  | int =>
    simp only [decodeField, encodeField, split_bytes_append (be_bytes_length 4 _), Option.map_some]
    rw [u32_bytes, Int32.toInt32_toUInt32]
  | u16 =>
    simp only [decodeField, encodeField, split_bytes_append (be_bytes_length 2 _), Option.map_some]
    have bound := UInt16.toNat_lt value
    have same : UInt16.ofNat (beNat (beBytes 2 (UInt16.toNat value))) = value := by
      rw [be_nat_bytes]
      apply UInt16.toNat_inj.mp
      simp only [UInt16.toNat_ofNat']
      omega
    rw [same]
  | u32 =>
    simp only [decodeField, encodeField, split_bytes_append (be_bytes_length 4 _), Option.map_some]
    rw [u32_bytes]
  | u64 =>
    simp only [decodeField, encodeField, split_bytes_append (be_bytes_length 8 _), Option.map_some]
    have bound := UInt64.toNat_lt value
    have same : UInt64.ofNat (beNat (beBytes 8 (UInt64.toNat value))) = value := by
      rw [be_nat_bytes]
      apply UInt64.toNat_inj.mp
      simp only [UInt64.toNat_ofNat']
      omega
    rw [same]
  | str =>
    have short : value.bytes.length < 2 ^ 63 := value.short
    have same : beNat (beBytes 8 value.length) = value.bytes.length := by
      rw [be_nat_bytes]
      simp only [StdString.length]
      omega
    simp only [decodeField, encodeField, List.append_assoc, split_bytes_append (be_bytes_length 8 _)]
    simp only [same, List.length_append, Nat.le_add_right, List.take_left, List.drop_left, ↓reduceDIte]
    exact dif_pos short

theorem decode_field_sound (kind : Kind) (bytes : List UInt8) (value : kind.Carrier)
    (rest : List UInt8) (decoded : decodeField kind bytes = some (value, rest)) :
    bytes = encodeField kind value ++ rest := by
  cases kind with
  | int =>
    simp only [decodeField, Option.map_eq_some_iff, Prod.mk.injEq] at decoded
    obtain ⟨⟨front, tail⟩, split, rfl, rfl⟩ := decoded
    obtain ⟨rfl, width⟩ := split_bytes_some split
    simp only [encodeField, UInt32.toUInt32_toInt32, u32_nat front width]
  | u16 =>
    simp only [decodeField, Option.map_eq_some_iff, Prod.mk.injEq] at decoded
    obtain ⟨⟨front, tail⟩, split, rfl, rfl⟩ := decoded
    obtain ⟨rfl, width⟩ := split_bytes_some split
    have bound := be_nat_lt front
    have same := be_bytes_nat front
    rw [width] at bound same
    simp only [encodeField, UInt16.toNat_ofNat']
    rw [Nat.mod_eq_of_lt (by omega), same]
  | u32 =>
    simp only [decodeField, Option.map_eq_some_iff, Prod.mk.injEq] at decoded
    obtain ⟨⟨front, tail⟩, split, rfl, rfl⟩ := decoded
    obtain ⟨rfl, width⟩ := split_bytes_some split
    simp only [encodeField, u32_nat front width]
  | u64 =>
    simp only [decodeField, Option.map_eq_some_iff, Prod.mk.injEq] at decoded
    obtain ⟨⟨front, tail⟩, split, rfl, rfl⟩ := decoded
    obtain ⟨rfl, width⟩ := split_bytes_some split
    have bound := be_nat_lt front
    have same := be_bytes_nat front
    rw [width] at bound same
    simp only [encodeField, UInt64.toNat_ofNat']
    rw [Nat.mod_eq_of_lt (by omega), same]
  | str =>
    simp only [decodeField] at decoded
    split at decoded
    · cases decoded
    · rename_i front tail split
      split at decoded
      · split at decoded
        · rename_i short enough
          obtain ⟨rfl, width⟩ := split_bytes_some split
          simp only [Option.some.injEq, Prod.mk.injEq] at decoded
          obtain ⟨rfl, rfl⟩ := decoded
          have same := be_bytes_nat front
          rw [width] at same
          simp [encodeField, StdString.length, Nat.min_eq_left enough, same]
        · cases decoded
      · cases decoded

/-- The wire format as a codec. -/
def codec : Codec Kind.Carrier where
  encode := encodeField
  decode := decodeField
  decode_encode := decode_encode_field
  decode_sound := decode_field_sound

/-- The payload bytes of a message. -/
abbrev encode (fields : List Field) : List UInt8 := codec.encodeAll fields

/-- A message is at least as long as its type. -/
theorem at_least_type (code : Int32) (rest : List Field) : 4 ≤ (encode (.int code :: rest)).length := by
  simp [encode, codec, encodeField]

theorem encode_append (first second : List Field) :
    encode (first ++ second) = encode first ++ encode second := codec.encodeAll_append first second

/-- A handler's `>>` operations. -/
abbrev FieldReader := Reader Kind.Carrier

/-! ### The five reads -/

def readInt : FieldReader Int32 := Reader.value Kind.int
def readU16 : FieldReader UInt16 := Reader.value Kind.u16
def readU32 : FieldReader UInt32 := Reader.value Kind.u32
def readU64 : FieldReader UInt64 := Reader.value Kind.u64
def readStr : FieldReader StdString := Reader.value Kind.str

variable {fields rest : List Field}

@[simp] theorem read_int_ok : readInt.run Reader.takeValue fields = .ok (value, rest) ↔
    fields = .int value :: rest := Reader.run_value_ok

@[simp] theorem read_u16_ok : readU16.run Reader.takeValue fields = .ok (value, rest) ↔
    fields = .u16 value :: rest := Reader.run_value_ok

@[simp] theorem read_u32_ok : readU32.run Reader.takeValue fields = .ok (value, rest) ↔
    fields = .u32 value :: rest := Reader.run_value_ok

@[simp] theorem read_u64_ok : readU64.run Reader.takeValue fields = .ok (value, rest) ↔
    fields = .u64 value :: rest := Reader.run_value_ok

@[simp] theorem read_str_ok : readStr.run Reader.takeValue fields = .ok (value, rest) ↔
    fields = .str value :: rest := Reader.run_value_ok

/-- A handler that reads two strings. -/
theorem two_strings_ok (finish : StdString → StdString → α) :
    (do let first ← readStr; let second ← readStr; return finish first second : FieldReader α).run
        Reader.takeValue fields = .ok (result, rest) ↔
      ∃ first second, fields = [Field.str first, Field.str second] ++ rest ∧ result = finish first second := by
  simp only [Reader.bind_eq, Reader.pure_eq, Reader.run_bind_ok, read_str_ok, Reader.run_done,
    Except.ok.injEq, Prod.mk.injEq]
  constructor
  · rintro ⟨first, _, rfl, second, _, rfl, rfl, rfl⟩
    exact ⟨first, second, rfl, rfl⟩
  · rintro ⟨first, second, rfl, rfl⟩
    exact ⟨first, _, rfl, second, rest, rfl, rfl, rfl⟩

/-- A handler that reads an error and two strings. -/
theorem error_two_strings_ok (finish : Int32 → StdString → StdString → α) :
    (do let err ← readInt; let first ← readStr; let second ← readStr; return finish err first second :
        FieldReader α).run Reader.takeValue fields = .ok (result, rest) ↔
      ∃ err first second, fields = [Field.int err, Field.str first, Field.str second] ++ rest ∧
        result = finish err first second := by
  simp only [Reader.bind_eq, Reader.pure_eq, Reader.run_bind_ok, read_int_ok, read_str_ok,
    Reader.run_done, Except.ok.injEq, Prod.mk.injEq]
  constructor
  · rintro ⟨err, _, rfl, first, _, rfl, second, _, rfl, rfl, rfl⟩
    exact ⟨err, first, second, rfl, rfl⟩
  · rintro ⟨err, first, second, rfl, rfl⟩
    exact ⟨err, _, rfl, first, _, rfl, second, rest, rfl, rfl, rfl⟩

end ChatRoom.Wire
