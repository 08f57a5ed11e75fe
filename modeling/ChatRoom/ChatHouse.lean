import Mathlib.Data.List.Basic
import Mathlib.Logic.Function.Basic

/-! What a chat server is for: a house with rooms. A room has a name and a
password, and once it is made it stays. A guest has a name of its own and is in one
room at a time. Of what is in the maps and messages of a server nothing is left
here but who is where, and who is told what. -/
namespace ChatRoom

/-- What is known of a guest. -/
structure Visitor (Text Address : Type) where
  name : Text
  address : Address
  /-- The room that the guest is in: the first room is 0. -/
  place : Nat

structure ChatHouse (Guest Text Address : Type) where
  /-- The name and the password of each room, the oldest first. -/
  doors : List (Text × Text)
  guests : Guest → Option (Visitor Text Address)

namespace ChatHouse

variable {Guest Text Address : Type}

/-- What somebody at the door or in the house can ask for. -/
inductive Ask (Guest Text Address : Type) where
  | arrive (guest : Guest) (name : Text) (address : Address)
  | make (guest : Guest) (room word : Text)
  | move (guest : Guest) (room word : Text)
  | say (guest : Guest) (place : Nat) (words : Text)
  | whisper (guest : Guest) (name words : Text)
  | part (guest : Guest)
  /-- Something that nobody understands. -/
  | mutter

/-- Why something is refused. -/
inductive Refusal where
  | alreadyHere | nameTaken | noSuchRoom | wrongWord | alreadyInside | roomTaken | stranger
  deriving DecidableEq

/-- What a guest is told. -/
inductive Notice (Guest Text Address : Type) where
  /-- Who is in a room. -/
  | company (place : Nat) (door : Option Text) (present : Guest → Option (Visitor Text Address))
  /-- Which rooms there are, and who is in each. -/
  | rooms (doors : List Text) (guests : Guest → Option (Visitor Text Address))
  | welcome (visitor : Visitor Text Address)
  | turnedAway (why : Refusal)
  | made (room : Text) (why : Option Refusal)
  | moved (room : Text) (why : Option Refusal)
  | heard (speaker words : Text)
  | whispered (speaker words : Text)
  | notHeard (name : Text)

/-- What each guest is told, in order. -/
abbrev Told (Guest Text Address : Type) := Guest → List (Notice Guest Text Address)

def silence : Told Guest Text Address := fun _ => []

def andThen (first second : Told Guest Text Address) : Told Guest Text Address :=
  fun guest => first guest ++ second guest

variable [DecidableEq Guest]

def tell (guest : Guest) (notice : Notice Guest Text Address) : Told Guest Text Address :=
  fun other => if other = guest then [notice] else []

/-- An empty house but for the hall. -/
def new (hall word : Text) : ChatHouse Guest Text Address where
  doors := [(hall, word)]
  guests := fun _ => none

variable (house : ChatHouse Guest Text Address) (everybody : Guest)

/-- The guests of a room. -/
def present (place : Nat) (guest : Guest) : Option (Visitor Text Address) :=
  (house.guests guest).filter fun visitor => visitor.place = place

def companyOf (place : Nat) : Notice Guest Text Address :=
  .company place (house.doors[place]?.map Prod.fst) (house.present place)

def tellRoom (place : Nat) (notice : Notice Guest Text Address) : Told Guest Text Address :=
  fun guest => if (house.present place guest).isSome then [notice] else []

/-- The list of rooms is for the one who asks; one guest stands for everybody. -/
def tellRooms (asker : Guest) : Told Guest Text Address :=
  let notice := .rooms (house.doors.map Prod.fst) house.guests
  if asker = everybody then fun guest => if (house.guests guest).isSome then [notice] else []
  else tell asker notice

def Named (name : Text) (guest : Guest) : Prop :=
  ∃ visitor, house.guests guest = some visitor ∧ visitor.name = name

/-- A guest comes to a room, or goes. -/
def set (guest : Guest) (visitor : Option (Visitor Text Address)) : ChatHouse Guest Text Address :=
  { house with guests := Function.update house.guests guest visitor }

@[simp] theorem set_doors (guest : Guest) (visitor : Option (Visitor Text Address)) :
    (house.set guest visitor).doors = house.doors := rfl

theorem set_guests (guest other : Guest) (visitor : Option (Visitor Text Address)) :
    (house.set guest visitor).guests other = if other = guest then visitor else house.guests other :=
  Function.update_apply ..

variable [DecidableEq Text]

def doorOf (room : Text) : Option Nat := house.doors.findIdx? fun door => door.1 = room

/-- Why a visitor may not go to a room, or the room. -/
def admits (visitor : Visitor Text Address) (room word : Text) : Except Refusal Nat :=
  match house.doorOf room with
  | none => .error .noSuchRoom
  | some place =>
    if house.doors[place]?.map Prod.snd ≠ some word then .error .wrongWord
    else if visitor.place = place then .error .alreadyInside
    else .ok place

open Classical in
/-- What is asked, and what comes of it; there is no answer to a stranger who
talks, and no talking to a room that is not there. -/
noncomputable def step : Ask Guest Text Address →
    Except Unit (ChatHouse Guest Text Address × Told Guest Text Address)
  | .arrive guest name address =>
    if (house.guests guest).isSome then
      .ok (house, andThen (tell guest (.turnedAway .alreadyHere)) (house.tellRooms everybody guest))
    else if ∃ other, house.Named name other then
      .ok (house, andThen (tell guest (.turnedAway .nameTaken)) (house.tellRooms everybody guest))
    else
      let visitor := { name, address, place := 0 }
      let after := house.set guest (some visitor)
      .ok (after, andThen (after.tellRoom 0 (after.companyOf 0))
        (andThen (tell guest (.welcome visitor)) (after.tellRooms everybody guest)))
  | .make guest room word =>
    if (house.doorOf room).isSome then
      .ok (house, andThen (tell guest (.made room (some .roomTaken))) (house.tellRooms everybody everybody))
    else
      let after := { house with doors := house.doors ++ [(room, word)] }
      .ok (after, andThen (tell guest (.made room none)) (after.tellRooms everybody everybody))
  | .move guest room word =>
    match house.guests guest with
    | none => .ok (house, tell guest (.moved room (some .stranger)))
    | some visitor =>
      match house.admits visitor room word with
      | .error why => .ok (house, tell guest (.moved room (some why)))
      | .ok place =>
        let after := house.set guest (some { visitor with place })
        .ok (after, andThen (after.tellRoom place (after.companyOf place))
          (andThen (after.tellRoom visitor.place (after.companyOf visitor.place)) (tell guest (.moved room none))))
  | .say guest place words =>
    match house.guests guest with
    | none => .error ()
    | some visitor =>
      if place < house.doors.length then .ok (house, house.tellRoom place (.heard visitor.name words))
      else .error ()
  | .whisper guest name words =>
    match house.guests guest with
    | none => .error ()
    | some visitor =>
      if ∃ other, house.Named name other then
        .ok (house, fun other => if house.Named name other then [.whispered visitor.name words] else [])
      else .ok (house, tell guest (.notHeard name))
  | .part guest =>
    match house.guests guest with
    | none => .ok (house, silence)
    | some visitor =>
      let after := house.set guest none
      .ok (after, after.tellRoom visitor.place (after.companyOf visitor.place))
  | .mutter => .ok (house, silence)

/-- What is asked by somebody who may. -/
def Answerable : Ask Guest Text Address → Prop
  | .say guest place _ => (house.guests guest).isSome ∧ place < house.doors.length
  | .whisper guest _ _ => (house.guests guest).isSome
  | _ => True

end ChatHouse
end ChatRoom
