import ChatRoom.Lib.StdString
import Mathlib.Data.List.TakeWhile

/-! Scanning a C string with a moving pointer. A pointer into a NUL-terminated
string is what is left of it in front of the terminator; a loop over characters
splits that into the part it passes and the part it stops at. -/
namespace ChatRoom.Lib

/-! ### The longest front that a loop passes -/

/-- `front` is the longest front of the input whose elements are all taken, and
`rest` is what comes behind it. -/
structure Scans (taken : α → Bool) (input front rest : List α) : Prop where
  split : input = front ++ rest
  all : ∀ element ∈ front, taken element = true
  stops : ∀ element ∈ rest.head?, taken element = false

variable {taken : α → Bool} {input front rest : List α}

theorem scans (taken : α → Bool) (input : List α) :
    Scans taken input (input.takeWhile taken) (input.dropWhile taken) where
  split := List.takeWhile_append_dropWhile.symm
  all _ member := List.mem_takeWhile_imp member
  stops element first := by
    have stopped := List.head?_dropWhile_not taken input
    rw [Option.mem_def] at first
    rw [first] at stopped
    simpa using stopped

theorem Scans.take_while (scanned : Scans taken input front rest) : input.takeWhile taken = front := by
  rw [scanned.split, List.takeWhile_append_of_pos scanned.all]
  cases rest with
  | nil => simp
  | cons element rest =>
    have stopped := scanned.stops element rfl
    rw [List.takeWhile_cons_of_neg (by simp [stopped]), List.append_nil]

theorem Scans.drop_while (scanned : Scans taken input front rest) : input.dropWhile taken = rest := by
  have both : input.takeWhile taken ++ input.dropWhile taken = input := List.takeWhile_append_dropWhile
  rw [scanned.take_while] at both
  exact List.append_cancel_left (both.trans scanned.split)

/-! ### Pointers into a string -/

/-- A NUL-terminated string, or what a pointer into one still has in front of it.
Offsets into it fit an `int`. -/
structure CString where
  bytes : List UInt8
  noNul : 0 ∉ bytes
  short : bytes.length < 2 ^ 31
  deriving DecidableEq

namespace CString

@[ext] theorem ext {left right : CString} (same : left.bytes = right.bytes) : left = right := by
  cases left; cases right; cases same; rfl

/-- A literal of ASCII characters. -/
def ascii (text : String) : CString :=
  let bytes := text.toList.map fun char => UInt8.ofNat char.toNat
  if fine : 0 ∉ bytes ∧ bytes.length < 2 ^ 31 then ⟨bytes, fine.1, fine.2⟩ else ⟨[], by decide, by decide⟩

/-- `*index`: behind the last character there is the terminator. -/
def char (index : CString) : UInt8 := index.bytes.headD 0

/-- `index + 1`. -/
def next (index : CString) : CString where
  bytes := index.bytes.tail
  noNul member := index.noNul (List.mem_of_mem_tail member)
  short := Nat.lt_of_le_of_lt (by simp) index.short

/-- Where `while (taken(*index)) ++index` leaves the pointer, for a loop that the
terminator stops. -/
def skip (taken : UInt8 → Bool) (index : CString) : CString where
  bytes := index.bytes.dropWhile taken
  noNul member := index.noNul ((List.dropWhile_sublist taken).subset member)
  short := Nat.lt_of_le_of_lt (List.dropWhile_sublist taken).length_le index.short

/-- What that loop passes, as `assign` copies it. -/
def passed (taken : UInt8 → Bool) (index : CString) : StdString where
  bytes := index.bytes.takeWhile taken
  short := Nat.lt_trans (Nat.lt_of_le_of_lt (List.takeWhile_sublist taken).length_le index.short) (by decide)

/-- `std::string(index)`. -/
def string (index : CString) : StdString := ⟨index.bytes, Nat.lt_trans index.short (by decide)⟩

variable {index : CString} {passes : UInt8 → Bool}

/-- Only at the end is the character the terminator. -/
theorem char_zero : index.char = 0 ↔ index.bytes = [] := by
  obtain ⟨bytes, noNul, short⟩ := index
  cases bytes with
  | nil => simp [char]
  | cons byte bytes =>
    simp only [char, List.headD_cons, reduceCtorEq, iff_false]
    intro zero
    exact noNul (zero ▸ List.mem_cons_self)

/-- A character that is not the terminator is the first one left. -/
theorem char_some (some : byte ≠ 0) : index.char = byte ↔ index.bytes = byte :: index.next.bytes := by
  obtain ⟨bytes, noNul, short⟩ := index
  cases bytes with
  | nil => simp [char, next, some.symm]
  | cons first bytes => simp [char, next]

theorem scanned (passes : UInt8 → Bool) (index : CString) :
    Scans passes index.bytes (index.passed passes).bytes (index.skip passes).bytes := scans passes index.bytes

end CString
end ChatRoom.Lib
