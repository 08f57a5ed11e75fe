import Mathlib.Data.List.Basic
import ChatRoom.Lib.Words

/-! A block of C++ memory and the ways a call can fail to return. A block is
the list of its bytes, so its length is the size that was allocated; an access
outside it is a fault, never a value. -/
namespace ChatRoom.Lib

/-- Why a call does not return to its caller. -/
inductive Fault where
  /-- An `assert` failed and the process aborted. -/
  | assertion
  /-- A read or a write outside an allocated block. -/
  | outOfBounds
  /-- A `std::string` was to be longer than its `max_size()`, and nobody caught the
  `std::length_error`. -/
  | lengthError
  /-- Signed arithmetic left the range of `int`. -/
  | signedOverflow
  /-- A pointer that is null, or to an object already deleted, was followed. -/
  | danglingPointer
  /-- The call is still waiting for the kernel to answer. -/
  | blocked
  deriving DecidableEq

@[simp] theorem ok_then (result : α) (next : α → Except ε β) : (Except.ok result >>= next) = next result := rfl

@[simp] theorem error_then (fault : ε) (next : α → Except ε β) :
    (Except.error fault >>= next) = .error fault := rfl

theorem pure_ok (result : α) : (pure result : Except ε α) = .ok result := rfl

theorem ok_of_option {computed : Except ε α} (given : computed.toOption = some result) : computed = .ok result := by
  cases computed with
  | error fault => contradiction
  | ok value =>
    cases given
    rfl

/-- A sequence of two computations goes through when both do. -/
theorem bind_ok {first : Except ε α} {next : α → Except ε β} :
    (first >>= next) = .ok result ↔ ∃ between, first = .ok between ∧ next between = .ok result := by
  cases first with
  | error fault => simp [Bind.bind, Except.bind]
  | ok between => simp [Bind.bind, Except.bind]

/-- A loop goes through when each of its passes does, where what a pass needs does not
depend on the passes before it. -/
theorem loop_ok {pass : β → α → Except ε β} {needs : α → Prop}
    (passes : ∀ state item, (∃ next, pass state item = .ok next) ↔ needs item)
    (state : β) (items : List α) : (∃ final, items.foldlM pass state = .ok final) ↔ ∀ item ∈ items, needs item := by
  induction items generalizing state with
  | nil => exact iff_of_true ⟨state, rfl⟩ (fun _ none => nomatch none)
  | cons item items ih =>
    rw [List.forall_mem_cons, ← passes state item]
    constructor
    · rintro ⟨final, looped⟩
      obtain ⟨next, passed, rest⟩ := bind_ok.mp looped
      exact ⟨⟨next, passed⟩, (ih next).mp ⟨final, rest⟩⟩
    · rintro ⟨⟨next, passed⟩, good⟩
      obtain ⟨final, rest⟩ := (ih next).mpr good
      exact ⟨final, bind_ok.mpr ⟨next, passed, rest⟩⟩

/-- `malloc`. The contents are unspecified: at each place of the block is whatever was
left there. -/
def malloc (left : Nat → UInt8) (size : Nat) : List UInt8 := (List.range size).map left

@[simp] theorem malloc_length (left : Nat → UInt8) (size : Nat) : (malloc left size).length = size := by simp [malloc]

/-- `memcpy` out of a block. -/
def peek (block : List UInt8) (start : Int) (count : Nat) : Except Fault (List UInt8) :=
  if 0 ≤ start ∧ start.toNat + count ≤ block.length then
    .ok ((block.drop start.toNat).take count)
  else .error .outOfBounds

/-- `memcpy` into a block. -/
def poke (block : List UInt8) (start : Int) (bytes : List UInt8) : Except Fault (List UInt8) :=
  if 0 ≤ start ∧ start.toNat + bytes.length ≤ block.length then
    .ok (block.take start.toNat ++ bytes ++ block.drop (start.toNat + bytes.length))
  else .error .outOfBounds

/-- The result of signed `int` arithmetic, which must not overflow. -/
def checkInt (value : Int) : Except Fault Int :=
  if IsInt32 value then .ok value else .error .signedOverflow

theorem check_int_ok : checkInt value = .ok result ↔ IsInt32 value ∧ result = value := by
  unfold checkInt
  split
  · rename_i range
    simp [range, eq_comm]
  · rename_i range
    simp [range]

theorem check_int_error (overflow : ¬ IsInt32 value) : checkInt value = .error .signedOverflow :=
  if_neg overflow

theorem peek_ok :
    peek block start count = .ok bytes ↔
      0 ≤ start ∧ start.toNat + count ≤ block.length ∧
        bytes = (block.drop start.toNat).take count := by
  unfold peek
  split
  · rename_i inside
    simp [inside, eq_comm]
  · rename_i outside
    simp only [reduceCtorEq, false_iff]
    exact fun inside => outside ⟨inside.1, inside.2.1⟩

theorem poke_ok :
    poke block start bytes = .ok result ↔
      0 ≤ start ∧ start.toNat + bytes.length ≤ block.length ∧
        result = block.take start.toNat ++ bytes ++ block.drop (start.toNat + bytes.length) := by
  unfold poke
  split
  · rename_i inside
    simp [inside, eq_comm]
  · rename_i outside
    simp only [reduceCtorEq, false_iff]
    exact fun inside => outside ⟨inside.1, inside.2.1⟩

/-- Writing does not change the size of a block. -/
theorem poke_length (written : poke block start bytes = .ok result) :
    result.length = block.length := by
  obtain ⟨_, inside, rfl⟩ := poke_ok.mp written
  simp only [List.length_append, List.length_take, List.length_drop]
  omega

/-- Everything in front of the written range is kept, and the range holds the
bytes written. -/
theorem poke_take (written : poke block start bytes = .ok result) :
    result.take (start.toNat + bytes.length) = block.take start.toNat ++ bytes := by
  obtain ⟨_, inside, rfl⟩ := poke_ok.mp written
  have front : (block.take start.toNat ++ bytes).length = start.toNat + bytes.length := by
    simp only [List.length_append, List.length_take]
    omega
  rw [← front, List.take_left]

/-- What lies in front of the written range is not touched. -/
theorem poke_front {count : Nat} (written : poke block start bytes = .ok result) (before : count ≤ start.toNat) :
    result.take count = block.take count := by
  obtain ⟨_, inside, rfl⟩ := poke_ok.mp written
  have front : count ≤ (block.take start.toNat).length := by
    rw [List.length_take]
    omega
  rw [List.append_assoc, List.take_append_of_le_length front, List.take_take, Nat.min_eq_left before]

end ChatRoom.Lib
