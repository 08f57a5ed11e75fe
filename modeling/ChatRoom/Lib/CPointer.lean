import ChatRoom.Lib.CString
import ChatRoom.Lib.Memory

/-! Reading a NUL-terminated string at an offset, as a moving pointer does. The
terminator can be read; what lies behind it cannot. `At` ties an offset to what is
left of the string there. -/
namespace ChatRoom.Lib.CString

/-- `string[offset]`. -/
def read (string : CString) (offset : Nat) : Except Fault UInt8 :=
  match (string.bytes ++ [0])[offset]? with
  | some char => .ok char
  | none => .error .outOfBounds

theorem read_inside {string : CString} {offset : Nat} {char : UInt8} (done : string.read offset = .ok char) :
    offset ≤ string.bytes.length := by
  unfold read at done
  split at done
  · rename_i found
    have inside := (List.getElem?_eq_some_iff.mp found).1
    rw [List.length_append, List.length_singleton] at inside
    omega
  · cases done

/-- `while (passes(string[offset])) ++offset`. -/
def scan (string : CString) (passes : UInt8 → Bool) (offset : Nat) : Except Fault Nat :=
  match done : string.read offset with
  | .error fault => .error fault
  | .ok char => if passes char then string.scan passes (offset + 1) else .ok offset
termination_by string.bytes.length + 1 - offset
decreasing_by
  have inside := read_inside done
  omega

/-- `strlen(string + start)`. -/
def strlen (string : CString) (start : Nat) : Except Fault Nat := do
  let stop ← string.scan (· != 0) start
  return stop - start

/-- `assign(string + start, count)`. -/
def copy (string : CString) (start count : Nat) : Except Fault StdString :=
  if inside : start + count ≤ string.bytes.length + 1 then
    .ok ⟨((string.bytes ++ [0]).drop start).take count, by
      have short := string.short
      simp only [List.length_take, List.length_drop, List.length_append, List.length_singleton]
      omega⟩
  else .error .outOfBounds

variable {string here : CString} {offset : Nat} {passes : UInt8 → Bool}

theorem scan_next {char : UInt8} (done : string.read offset = .ok char) (passed : passes char = true) :
    string.scan passes offset = string.scan passes (offset + 1) := by
  rw [scan]
  split
  next failed => cases done.symm.trans failed
  next again =>
    cases done.symm.trans again
    exact if_pos passed

theorem scan_stop {char : UInt8} (done : string.read offset = .ok char) (stopped : passes char = false) :
    string.scan passes offset = .ok offset := by
  rw [scan]
  split
  next failed => cases done.symm.trans failed
  next again =>
    cases done.symm.trans again
    exact if_neg (by simp [stopped])

theorem scan_fault {fault : Fault} (failed : string.read offset = .error fault) :
    string.scan passes offset = .error fault := by
  rw [scan]
  split
  next again =>
    cases failed.symm.trans again
    rfl
  next done => cases failed.symm.trans done

/-! ### What is left at an offset -/

/-- `here` is what a pointer to the offset has in front of it. -/
def At (string : CString) (offset : Nat) (here : CString) : Prop :=
  ∃ front, string.bytes = front ++ here.bytes ∧ front.length = offset

theorem at_start (string : CString) : At string 0 string := ⟨[], rfl, rfl⟩

theorem At.read_char (place : At string offset here) : string.read offset = .ok here.char := by
  obtain ⟨front, split, rfl⟩ := place
  rw [read, split, List.append_assoc, List.getElem?_append_right (le_refl _), Nat.sub_self]
  cases left : here.bytes <;> simp [char, left]

theorem At.next (place : At string offset here) (some : here.bytes ≠ []) : At string (offset + 1) here.next := by
  obtain ⟨front, split, rfl⟩ := place
  cases left : here.bytes with
  | nil => exact absurd left some
  | cons first bytes => exact ⟨front ++ [first], by simp [split, left, CString.next], by simp⟩

/-- Behind the terminator there is nothing to read. -/
theorem At.read_behind (place : At string offset here) (ended : here.bytes = []) :
    string.read (offset + 1) = .error .outOfBounds := by
  obtain ⟨front, split, rfl⟩ := place
  rw [read, split, ended, List.append_nil, List.getElem?_eq_none (by simp)]

private theorem skip_cons {first : UInt8} {bytes : List UInt8} (left : here.bytes = first :: bytes)
    (passed : passes first = true) : here.next.skip passes = here.skip passes ∧
      (here.passed passes).length = (here.next.passed passes).length + 1 := by
  constructor
  · exact ext (by simp [skip, CString.next, left, passed])
  · simp [CString.passed, StdString.length, CString.next, left, passed]

/-- A loop that stops in front of the terminator, or at it, stays inside. -/
theorem At.scan_ok (place : At string offset here) (stops : passes 0 = false ∨ here.bytes.all passes = false) :
    string.scan passes offset = .ok (offset + (here.passed passes).length) ∧
      At string (offset + (here.passed passes).length) (here.skip passes) := by
  induction left : here.bytes generalizing here offset with
  | nil =>
    have none : passes here.char = false := by
      rw [char_zero.mpr left]
      simpa [left] using stops
    have nothing : (here.passed passes).length = 0 := by simp [passed, StdString.length, left]
    have same : here.skip passes = here := ext (by simp [skip, left])
    rw [nothing, same, scan_stop place.read_char none]
    exact ⟨rfl, place⟩
  | cons first bytes ih =>
    have char : here.char = first := by simp [char, left]
    cases passed : passes first with
    | true =>
      obtain ⟨same, longer⟩ := skip_cons left passed
      have rest : here.next.bytes = bytes := by simp [CString.next, left]
      have further := ih (place.next (by simp [left])) (by simpa [left, rest, passed] using stops) rest
      rw [scan_next place.read_char (by rw [char, passed]), ← same, longer, further.1]
      rw [Nat.add_right_comm] at further
      exact ⟨by rw [Nat.add_right_comm, Nat.add_assoc], further.2⟩
    | false =>
      have nothing : (here.passed passes).length = 0 := by simp [CString.passed, StdString.length, left, passed]
      have same : here.skip passes = here := ext (by simp [skip, left, passed])
      rw [nothing, same, scan_stop place.read_char (by rw [char, passed])]
      exact ⟨rfl, place⟩

/-- A loop that nothing stops reads on behind the terminator. -/
theorem At.scan_past (place : At string offset here) (through : passes 0 = true) (all : here.bytes.all passes = true) :
    string.scan passes offset = .error .outOfBounds := by
  induction left : here.bytes generalizing here offset with
  | nil =>
    rw [scan_next place.read_char (by rw [char_zero.mpr left, through]), scan_fault (place.read_behind left)]
  | cons first bytes ih =>
    have char : here.char = first := by simp [char, left]
    rw [left, List.all_cons, Bool.and_eq_true] at all
    have rest : here.next.bytes = bytes := by simp [CString.next, left]
    rw [scan_next place.read_char (by rw [char, all.1])]
    exact ih (place.next (by simp [left])) (by rw [rest, all.2]) rest

/-- Only the terminator stops this loop. -/
theorem passed_all : here.passed (· != 0) = here.string := by
  apply StdString.ext
  simp only [passed, CString.string]
  rw [List.takeWhile_eq_self_iff]
  intro char member
  have some : char ≠ 0 := fun zero => here.noNul (zero ▸ member)
  simpa using some

theorem At.strlen_ok (place : At string offset here) : string.strlen offset = .ok here.bytes.length := by
  rw [strlen, (place.scan_ok (.inl rfl)).1, ok_then, passed_all]
  exact congrArg Except.ok (by simp [StdString.length, CString.string])

theorem At.strlen_behind (place : At string offset here) (ended : here.bytes = []) :
    string.strlen (offset + 1) = .error .outOfBounds := by
  rw [strlen, scan_fault (place.read_behind ended), error_then]

/-- The front of what is left can be copied. -/
theorem At.copy_ok (place : At string offset here) :
    string.copy offset (here.passed passes).length = .ok (here.passed passes) := by
  obtain ⟨front, split, rfl⟩ := place
  have whole : here.bytes = (here.passed passes).bytes ++ (here.skip passes).bytes := (here.scanned passes).split
  have size : (here.passed passes).length = (here.passed passes).bytes.length := rfl
  have inside : front.length + (here.passed passes).length ≤ string.bytes.length + 1 := by
    rw [split, whole, size]
    simp only [List.length_append]
    omega
  rw [copy, dif_pos inside]
  congr 1
  apply StdString.ext
  simp only [split, size]
  rw [List.append_assoc, List.drop_left, whole, List.append_assoc, List.take_left]

theorem At.copy_all (place : At string offset here) : string.copy offset here.string.length = .ok here.string := by
  rw [← passed_all, place.copy_ok]

theorem At.at_end (place : At string offset here) : offset = string.bytes.length ↔ here.bytes = [] := by
  obtain ⟨front, split, rfl⟩ := place
  rw [split, List.length_append, ← List.length_eq_zero_iff]
  omega

/-- Loops that take the same characters do the same. -/
theorem passed_congr {other : UInt8 → Bool} (same : ∀ char, char ≠ 0 → passes char = other char) :
    here.passed passes = here.passed other ∧ here.skip passes = here.skip other := by
  obtain ⟨split, all, stops⟩ := here.scanned passes
  have some : ∀ char ∈ here.bytes, char ≠ 0 := fun char member zero => here.noNul (zero ▸ member)
  have front : ∀ char ∈ (here.passed passes).bytes, other char = true := by
    intro char member
    rw [← same char (some char (split ▸ List.mem_append_left _ member))]
    exact all char member
  have behind : ∀ char ∈ (here.skip passes).bytes.head?, other char = false := by
    intro char first
    rw [← same char (some char (split ▸ List.mem_append_right _ (List.mem_of_mem_head? first)))]
    exact stops char first
  have scanned : Scans other here.bytes (here.passed passes).bytes (here.skip passes).bytes := ⟨split, front, behind⟩
  exact ⟨StdString.ext scanned.take_while.symm, ext scanned.drop_while.symm⟩

end ChatRoom.Lib.CString
