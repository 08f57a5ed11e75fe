import Mathlib.Data.List.Basic
import Mathlib.Data.List.Induction
import Mathlib.Tactic.Ring

/-! Decimal numerals as rows of ASCII bytes, and what is known of two numbers
when their numerals are laid end to end without a separator. -/
namespace ChatRoom.Lib

/-- The byte of one digit. -/
def digitByte (digit : Nat) : UInt8 := UInt8.ofNat (48 + digit)

/-- A number, most significant digit first and without leading zeros. -/
def numeral (number : Nat) : List UInt8 :=
  (Nat.toDigits 10 number).map fun char => UInt8.ofNat char.toNat

/-- The number that a row of digits stands for. -/
def valueOfDigits (digits : List UInt8) : Nat :=
  digits.foldl (fun value digit => 10 * value + (digit.toNat - 48)) 0

theorem numeral_digit (small : digit < 10) : numeral digit = [digitByte digit] := by
  rw [numeral, Nat.toDigits_of_lt_base small, List.map_singleton, Nat.toNat_digitChar_of_lt_ten small]
  rfl

/-- A digit more at the end. -/
theorem numeral_snoc (positive : 0 < number) (small : digit < 10) :
    numeral (10 * number + digit) = numeral number ++ [digitByte digit] := by
  rw [← numeral_digit small, numeral, ← Nat.toDigits_append_toDigits (by decide) positive small, List.map_append]
  rfl

theorem numeral_ne_nil (number : Nat) : numeral number ≠ [] := by
  rw [numeral, Ne, List.map_eq_nil_iff]
  exact Nat.toDigits_ne_nil

/-- Numbers by the digits of their numerals, from the front. -/
theorem numeral_induction {holds : Nat → Prop} (small : ∀ digit < 10, holds digit)
    (snoc : ∀ number digit, 0 < number → digit < 10 → holds number → holds (10 * number + digit)) (number : Nat) :
    holds number := by
  induction number using Nat.strongRecOn with
  | ind number ih =>
    by_cases single : number < 10
    · exact small number single
    · have before := ih (number / 10) (by omega)
      have more := snoc (number / 10) (number % 10) (by omega) (by omega) before
      rwa [Nat.div_add_mod] at more

theorem numeral_digits (number : Nat) : ∀ digit ∈ numeral number, 48 ≤ digit.toNat ∧ digit.toNat ≤ 57 := by
  have one : ∀ digit < 10, 48 ≤ (digitByte digit).toNat ∧ (digitByte digit).toNat ≤ 57 := by
    intro digit small
    simp only [digitByte, UInt8.toNat_ofNat']
    omega
  induction number using numeral_induction with
  | small digit small =>
    intro byte member
    rw [numeral_digit small, List.mem_singleton] at member
    exact member ▸ one digit small
  | snoc number digit positive small ih =>
    intro byte member
    rw [numeral_snoc positive small, List.mem_append, List.mem_singleton] at member
    rcases member with front | last
    · exact ih byte front
    · exact last ▸ one digit small

/-! ### Values -/

theorem value_append (front back : List UInt8) :
    valueOfDigits (front ++ back) = valueOfDigits front * 10 ^ back.length + valueOfDigits back := by
  induction back using List.reverseRecOn with
  | nil => simp [valueOfDigits]
  | append_singleton back digit ih =>
    simp only [valueOfDigits] at ih
    simp only [valueOfDigits, ← List.append_assoc, List.foldl_append, List.foldl_cons, List.foldl_nil,
      List.length_append, List.length_singleton]
    rw [← List.foldl_append, ih]
    ring

theorem value_numeral (number : Nat) : valueOfDigits (numeral number) = number := by
  have one : ∀ digit < 10, valueOfDigits [digitByte digit] = digit := by
    intro digit small
    simp only [valueOfDigits, digitByte, List.foldl_cons, List.foldl_nil, UInt8.toNat_ofNat']
    omega
  induction number using numeral_induction with
  | small digit small => rw [numeral_digit small, one digit small]
  | snoc number digit positive small ih =>
    rw [numeral_snoc positive small, value_append, ih, one digit small, List.length_singleton]
    ring

theorem numeral_injective (same : numeral first = numeral second) : first = second := by
  rw [← value_numeral first, same, value_numeral]

/-! ### Numerals end to end -/

/-- Two numerals in a row are one numeral, unless the first is zero. -/
theorem numeral_append (positive : 0 < front) (back : Nat) :
    numeral front ++ numeral back = numeral (front * 10 ^ (numeral back).length + back) := by
  induction back using numeral_induction with
  | small digit small =>
    rw [numeral_digit small, ← numeral_snoc positive small, List.length_singleton]
    congr 1
    ring
  | snoc back digit some small ih =>
    have more : 0 < front * 10 ^ (numeral back).length + back := by omega
    rw [numeral_snoc some small, ← List.append_assoc, ih, ← numeral_snoc more small, List.length_append,
      List.length_singleton]
    congr 1
    ring

/-- A numeral that ends in another one starts with a third. -/
theorem numeral_split (split : numeral whole = front ++ numeral back) (some : front ≠ []) :
    ∃ number, 0 < number ∧ front = numeral number ∧ whole = number * 10 ^ (numeral back).length + back := by
  have value : whole = valueOfDigits front * 10 ^ (numeral back).length + back := by
    rw [← value_numeral whole, split, value_append, value_numeral]
  have positive : 0 < valueOfDigits front := by
    by_contra zero
    -- the whole is the back, so nothing is left for the front
    have same : whole = back := by
      rw [value, Nat.eq_zero_of_not_pos zero]
      omega
    rw [same] at split
    exact some (List.append_left_eq_self.mp split.symm)
  refine ⟨valueOfDigits front, positive, ?_, value⟩
  have joined := numeral_append positive back
  rw [← value, split] at joined
  exact (List.append_cancel_right joined).symm

end ChatRoom.Lib
