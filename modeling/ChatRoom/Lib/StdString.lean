import Mathlib.Algebra.Group.Nat.Defs
import Mathlib.Data.List.Basic
import Std.Data.ExtTreeMap.Lemmas

/-! The C++ `std::string`: any bytes, NUL included, of a length that a pointer
difference can hold. The bound is a field, so a length always fits 64 bits. -/
namespace ChatRoom.Lib

/-- A `std::string` and the bound of its `max_size`. -/
structure StdString where
  bytes : List UInt8
  short : bytes.length < 2 ^ 63
  deriving DecidableEq

namespace StdString

@[ext] theorem ext {left right : StdString} (same : left.bytes = right.bytes) : left = right := by
  cases left; cases right; cases same; rfl

/-- A string literal of ASCII characters; none is too long. -/
def ascii (text : String) : StdString :=
  if short : text.toList.length < 2 ^ 63 then
    ⟨text.toList.map fun char => UInt8.ofNat char.toNat, by simpa using short⟩
  else ⟨[], by decide⟩

def length (string : StdString) : Nat := string.bytes.length

/-- `std::string::operator<`: lexicographic on unsigned bytes. -/
instance : Ord StdString := ⟨compareOn bytes⟩

instance : Std.TransOrd StdString := inferInstanceAs (Std.TransCmp (compareOn bytes))

instance : Std.LawfulEqOrd StdString where
  eq_of_compare same := ext (Std.LawfulEqOrd.eq_of_compare (α := List UInt8) same)

end StdString
end ChatRoom.Lib
