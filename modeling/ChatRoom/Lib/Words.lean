import Mathlib.Data.List.Basic
import Mathlib.Tactic.Linarith

/-! Fixed-width words as bytes, in both byte orders, and the conversions
between the integer types of a 64-bit C++ program. -/
namespace ChatRoom.Lib

/-- What a little-endian host keeps in memory for a word of `width` bytes. -/
def leBytes : Nat → Nat → List UInt8
  | 0, _ => []
  | width + 1, value => UInt8.ofNat value :: leBytes width (value / 256)

/-- The word that a little-endian host reads from these bytes of memory. -/
def leNat : List UInt8 → Nat
  | [] => 0
  | byte :: bytes => byte.toNat + 256 * leNat bytes

/-- Network order: the most significant byte first. -/
def beBytes (width value : Nat) : List UInt8 := (leBytes width value).reverse

def beNat (bytes : List UInt8) : Nat := leNat bytes.reverse

@[simp] theorem le_bytes_length (width value : Nat) : (leBytes width value).length = width := by
  induction width generalizing value with
  | zero => rfl
  | succ width ih => simp [leBytes, ih]

@[simp] theorem be_bytes_length (width value : Nat) : (beBytes width value).length = width := by
  simp [beBytes]

theorem le_nat_bytes (width value : Nat) : leNat (leBytes width value) = value % 256 ^ width := by
  induction width generalizing value with
  | zero => simp [leBytes, leNat, Nat.mod_one]
  | succ width ih =>
    simp only [leBytes, leNat, ih, UInt8.toNat_ofNat']
    have split : value % (256 * 256 ^ width) = value % 256 + 256 * (value / 256 % 256 ^ width) :=
      Nat.mod_mul
    rw [Nat.pow_succ' (n := width), split]

theorem le_bytes_nat (bytes : List UInt8) : leBytes bytes.length (leNat bytes) = bytes := by
  induction bytes with
  | nil => rfl
  | cons byte bytes ih =>
    have low : UInt8.ofNat (byte.toNat + 256 * leNat bytes) = byte := by
      apply UInt8.toNat_inj.mp
      have bound := byte.toNat_lt
      simp only [UInt8.toNat_ofNat']
      omega
    have high : (byte.toNat + 256 * leNat bytes) / 256 = leNat bytes := by
      have bound := byte.toNat_lt
      omega
    simp only [List.length_cons, leBytes, leNat, low, high, ih]

theorem le_nat_lt (bytes : List UInt8) : leNat bytes < 256 ^ bytes.length := by
  induction bytes with
  | nil => simp [leNat]
  | cons byte bytes ih =>
    have bound := byte.toNat_lt
    simp only [leNat, List.length_cons, Nat.pow_succ']
    omega

theorem be_nat_bytes (width value : Nat) : beNat (beBytes width value) = value % 256 ^ width := by
  simp [beNat, beBytes, le_nat_bytes]

theorem be_bytes_nat (bytes : List UInt8) : beBytes bytes.length (beNat bytes) = bytes := by
  have same := le_bytes_nat bytes.reverse
  rw [List.length_reverse] at same
  rw [beBytes, beNat, same, List.reverse_reverse]

theorem be_nat_lt (bytes : List UInt8) : beNat bytes < 256 ^ bytes.length := by
  simpa [beNat] using le_nat_lt bytes.reverse

/-! ### Conversions between integer types -/

/-- Conversion to a 32-bit `int`: the value modulo `2 ^ 32` in the signed range. -/
def toInt32 (value : Int) : Int := value.bmod (2 ^ 32)

/-- Conversion of a signed value to the 64-bit `size_t`. -/
def toSizeT (value : Int) : Nat := (value % 2 ^ 64).toNat

/-- Conversion to the 64-bit `ssize_t`. -/
def toSSizeT (value : Int) : Int := value.bmod (2 ^ 64)

/-- The range of a 32-bit `int`. -/
def IsInt32 (value : Int) : Prop := -2 ^ 31 ≤ value ∧ value < 2 ^ 31

instance (value : Int) : Decidable (IsInt32 value) := inferInstanceAs (Decidable (_ ∧ _))

theorem to_int32_range (value : Int) : IsInt32 (toInt32 value) := by
  have lower := Int.le_bmod (x := value) (m := 2 ^ 32) (by decide)
  have upper := Int.bmod_lt (x := value) (m := 2 ^ 32) (by decide)
  simp only [IsInt32, toInt32] at *
  omega

theorem to_int32_eq (range : IsInt32 value) : toInt32 value = value := by
  obtain ⟨lower, upper⟩ := range
  exact Int.bmod_eq_of_le (by omega) (by omega)

/-- Nothing gets larger by being cut to an `int`, unless it was below its range. -/
theorem to_int32_le {value : Int} (lower : -2 ^ 31 ≤ value) : toInt32 value ≤ value := by
  simp only [toInt32, Int.bmod]
  split <;> omega

/-- The upper half of the unsigned range is the negative half of the signed one. -/
theorem to_int32_wraps {value : Int} (beyond : 2 ^ 31 ≤ value) (small : value < 2 ^ 32) :
    toInt32 value = value - 2 ^ 32 := by
  simp only [toInt32, Int.bmod]
  split <;> omega

theorem to_ssize_t_eq (lower : -2 ^ 63 ≤ value) (upper : value < 2 ^ 63) : toSSizeT value = value :=
  Int.bmod_eq_of_le (by omega) (by omega)

/-- Two values added as `size_t` and read as `ssize_t` are added modulo `2 ^ 64`. -/
theorem to_ssize_t_add (left right : Int) :
    toSSizeT ((toSizeT left : Int) + toSizeT right) = toSSizeT (left + right) := by
  have held : ∀ value : Int, (toSizeT value : Int) = value % (2 ^ 64 : Nat) := by
    intro value
    simp only [toSizeT]
    omega
  rw [held, held, toSSizeT, Int.emod_add_bmod, Int.add_comm left, Int.emod_add_bmod, Int.add_comm]
  rfl

theorem to_size_t_nonneg (nonneg : 0 ≤ value) (small : value < 2 ^ 64) :
    (toSizeT value : Int) = value := by
  simp only [toSizeT]
  omega

/-- A negative `int` becomes one of the largest values of `size_t`. -/
theorem to_size_t_neg (negative : value < 0) (range : IsInt32 value) :
    2 ^ 63 ≤ toSizeT value := by
  obtain ⟨lower, _⟩ := range
  simp only [toSizeT]
  omega

end ChatRoom.Lib
