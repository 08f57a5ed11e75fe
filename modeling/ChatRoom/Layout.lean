import ChatRoom.Client
import ChatRoom.Lib.CString

/-! `Layout`: what a client's window shows. A text is formatted into a buffer of a
fixed size before it is added to a window; `sprintf` does not know the size. -/
namespace ChatRoom
open Lib

/-- `sprintf(temp, "%s", output.c_str())` into a buffer of `size` bytes. What does not
fit with its terminator is written behind the buffer. -/
def sprintf (size : Nat) (output : List UInt8) : Except Fault (List UInt8) :=
  let written := output.takeWhile (· != 0)
  if written.length < size then .ok written else .error .outOfBounds

/-- The two windows, by the texts that were added to each. -/
structure Layout where
  mDisplay : List (List UInt8)
  mList : List (List UInt8)
  deriving DecidableEq

namespace Layout

def new : Layout where
  mDisplay := []
  mList := []

variable (layout : Layout)

/-- `addCDKSwindow(mDisplay, temp, BOTTOM)`. -/
def addDisplay (temp : List UInt8) : Layout := { layout with mDisplay := layout.mDisplay ++ [temp] }

/-- What `Start` copies of a line before `HandleInput` gets it, or shows of a line that
was left in another way than with the return key. -/
def copyInput (input : CString) (normal : Bool) : Except Fault (List UInt8) :=
  sprintf 256 (if normal then input.bytes else text "error exit: " ++ input.bytes)

/-- `entryCB`, what the TAB key does with the text of the entry: the text with a mark behind
it is formatted into `data`, becomes the text of the entry, and is edited further. -/
def entryCB (value : List UInt8) : Except Fault (List UInt8) := sprintf 256 (value ++ text " !!!!!!!!!!!!")

/-- One pass of the loop in `UpdateUserListWithStringVec`: `memset(temp, 255, 0)` sets
no byte. -/
def addUser (line : List UInt8) : Except Fault Layout := do
  let temp ← sprintf 255 line
  return { layout with mList := layout.mList ++ [temp] }

def updateUserListWithStringVec (vec : List (List UInt8)) : Except Fault Layout :=
  vec.foldlM addUser { layout with mList := [] }

/-- The text of a chat message: the user's own on the right. -/
def chatText (fromName words : StdString) (isSelf : Bool) : List UInt8 :=
  if isSelf then text "<R></B/05>" ++ words.bytes ++ text " :" ++ fromName.bytes
  else text "<L></05>" ++ fromName.bytes ++ text ": " ++ words.bytes

def receiveMessage (fromName words : StdString) (isSelf : Bool) : Except Fault Layout := do
  let temp ← sprintf 256 (chatText fromName words isSelf)
  return layout.addDisplay temp

/-- `DisplaySystemMessage` formats nothing. -/
def displaySystemMessage (info : List UInt8) : Layout :=
  layout.addDisplay ((text "</B/31>system info: " ++ info).takeWhile (· != 0))

/-- What an effect of a handler does to the windows. -/
def draw : Effect → Except Fault Layout
  | .display info => .ok (layout.displaySystemMessage info)
  | .userList lines => layout.updateUserListWithStringVec lines
  | .receive fromName words isSelf => layout.receiveMessage fromName words isSelf
  | .send _ => .ok layout
  | .exit _ => .ok layout

def drawAll (effects : List Effect) : Except Fault Layout := effects.foldlM draw layout

/-! ### What fits -/

/-- A text fits a buffer with its terminator. -/
def FitsIn (size : Nat) (output : List UInt8) : Prop := (output.takeWhile (· != 0)).length < size

/-- Nothing is written behind a buffer. -/
def Fits : Effect → Prop
  | .userList lines => ∀ line ∈ lines, FitsIn 255 line
  | .receive fromName words isSelf => FitsIn 256 (chatText fromName words isSelf)
  | .display _ => True
  | .send _ => True
  | .exit _ => True

theorem fits_in_of_length {size : Nat} {output : List UInt8} (short : output.length < size) : FitsIn size output :=
  Nat.lt_of_le_of_lt (List.takeWhile_sublist _).length_le short

theorem sprintf_ok {size : Nat} {output : List UInt8} : (∃ temp, sprintf size output = .ok temp) ↔ FitsIn size output := by
  by_cases short : (output.takeWhile (· != 0)).length < size
  · exact iff_of_true ⟨_, if_pos short⟩ short
  · refine iff_of_false (fun ⟨temp, done⟩ => ?_) short
    cases done.symm.trans (if_neg short)

/-- A TAB is harmless for an entry of up to 242 characters, which it makes 13 longer. -/
theorem entry_cb_ok {value data : List UInt8} (noNul : 0 ∉ value) :
    entryCB value = .ok data ↔ data = value ++ text " !!!!!!!!!!!!" ∧ value.length ≤ 242 := by
  have mark : ∀ char ∈ text " !!!!!!!!!!!!", (char != 0) = true := by decide +kernel
  have all : (value ++ text " !!!!!!!!!!!!").takeWhile (· != 0) = value ++ text " !!!!!!!!!!!!" := by
    refine List.takeWhile_eq_self_iff.mpr fun char inside => ?_
    rcases List.mem_append.mp inside with own | marked
    · simpa using fun zero : char = 0 => noNul (zero ▸ own)
    · exact mark char marked
  have length : (text " !!!!!!!!!!!!").length = 13 := rfl
  simp only [entryCB, sprintf, all, List.length_append, length]
  split
  next fits =>
    rw [Except.ok.injEq, eq_comm, and_iff_left (by omega)]
  next long =>
    simp only [reduceCtorEq, false_iff]
    omega

/-- The TAB key, so many times, with nothing typed in between. -/
def tabs : Nat → List UInt8 → Except Fault (List UInt8)
  | 0, value => .ok value
  | count + 1, value => do
    let data ← entryCB value
    tabs count data

theorem tabs_grow {count : Nat} {value last : List UInt8} (noNul : 0 ∉ value) (short : value.length ≤ 255)
    (done : tabs count value = .ok last) : value.length + 13 * count ≤ 255 := by
  induction count generalizing value with
  | zero => omega
  | succ count ih =>
    obtain ⟨data, pressed, rest⟩ := bind_ok.mp done
    obtain ⟨rfl, fits⟩ := (entry_cb_ok noNul).mp pressed
    have length : (text " !!!!!!!!!!!!").length = 13 := rfl
    have clean : 0 ∉ value ++ text " !!!!!!!!!!!!" := by
      rw [List.mem_append, not_or]
      exact ⟨noNul, by decide⟩
    have behind := ih clean (by rw [List.length_append, length]; omega) rest
    rw [List.length_append, length] at behind
    omega

/-- Whatever is in the entry, twenty TABs overrun `data`. -/
theorem tabs_overrun {value : List UInt8} (noNul : 0 ∉ value) (short : value.length ≤ 255) :
    ∃ fault, tabs 20 value = .error fault := by
  cases done : tabs 20 value with
  | error fault => exact ⟨fault, rfl⟩
  | ok last =>
    have grown := tabs_grow noNul short done
    omega

theorem draw_ok (effect : Effect) : (∃ after, layout.draw effect = .ok after) ↔ Fits effect := by
  cases effect with
  | userList lines =>
    refine loop_ok (fun state line => ?_) _ lines
    rw [← sprintf_ok]
    constructor
    · rintro ⟨next, added⟩
      obtain ⟨temp, done, _⟩ := bind_ok.mp added
      exact ⟨temp, done⟩
    · rintro ⟨temp, done⟩
      exact ⟨_, bind_ok.mpr ⟨temp, done, rfl⟩⟩
  | receive fromName words isSelf =>
    refine Iff.trans ?_ sprintf_ok
    constructor
    · rintro ⟨after, shown⟩
      obtain ⟨temp, done, _⟩ := bind_ok.mp shown
      exact ⟨temp, done⟩
    · rintro ⟨temp, done⟩
      exact ⟨_, bind_ok.mpr ⟨temp, done, rfl⟩⟩
  | display => exact iff_of_true ⟨_, rfl⟩ trivial
  | send => exact iff_of_true ⟨_, rfl⟩ trivial
  | exit => exact iff_of_true ⟨_, rfl⟩ trivial

theorem draw_all_ok (effects : List Effect) :
    (∃ after, layout.drawAll effects = .ok after) ↔ ∀ effect ∈ effects, Fits effect :=
  loop_ok (fun state effect => state.draw_ok effect) layout effects

end Layout
end ChatRoom
