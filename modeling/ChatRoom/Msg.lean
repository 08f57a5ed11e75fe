import ChatRoom.Wire
import ChatRoom.Lib.Memory

/-! The message buffer of `common/Msg.hpp` and `common/Msg.cpp`: one allocated
block with an 8-byte head, a write offset and a read offset that do not count
the head, and a capacity. All three counters are `int`s. -/
namespace ChatRoom
open Lib Wire

/-- The bytes in front of the payload: its length, and four that are not used. -/
def HEAD_LENGTH : Nat := 8

/-- What messages get from their host: `getpagesize()`, a positive `int` with room for
a message head, and what `malloc` leaves at each place of a block. -/
structure Host where
  page : Nat
  left : Nat → UInt8
  head : HEAD_LENGTH ≤ page
  range : page < 2 ^ 31

/-- The page size of the usual 64-bit hosts, and blocks that nobody has used before. -/
def Host.usual : Host := ⟨4096, fun _ => 0, by decide, by decide⟩

structure Msg where
  /-- The allocated block. -/
  mData : List UInt8
  mReadOffset : Int
  mWriteOffset : Int
  mMallocSize : Int
  deriving DecidableEq

/-! ### Byte order of the host -/

/-- `htonl` on a little-endian host: the word whose bytes in memory are the
bytes of `word` in network order. -/
def htonl (word : UInt32) : UInt32 := UInt32.ofNat (leNat (beBytes 4 word.toNat))

def htons (word : UInt16) : UInt16 := UInt16.ofNat (leNat (beBytes 2 word.toNat))

/-- `ntohl` and `ntohs` undo the swap by making it again. -/
def ntohl (word : UInt32) : UInt32 := htonl word

def ntohs (word : UInt16) : UInt16 := htons word

/-- `common.cpp::ntohll`: the bytes of the result are stored one by one. -/
def ntohll (input : UInt64) : UInt64 :=
  UInt64.ofNat (leNat [(input >>> 56).toUInt8, (input >>> 48).toUInt8, (input >>> 40).toUInt8,
    (input >>> 32).toUInt8, (input >>> 24).toUInt8, (input >>> 16).toUInt8, (input >>> 8).toUInt8,
    (input >>> 0).toUInt8])

def htonll (input : UInt64) : UInt64 := ntohll input

namespace Msg

/-! ### Construction -/

/-- `Msg::Msg(int)`: room for `len` bytes of payload behind the head. -/
def ofLen (left : Nat → UInt8) (len : Int) : Except Fault Msg := do
  let size ← checkInt (len + HEAD_LENGTH)
  -- no block of a negative size, a huge `size_t`, is ever given out
  if size < 0 then throw .assertion
  return { mData := malloc left size.toNat, mReadOffset := 0, mWriteOffset := 0, mMallocSize := size }

/-- `Msg::Msg()`: one page. -/
def new (host : Host) : Msg where
  mData := malloc host.left host.page
  mReadOffset := 0
  mWriteOffset := 0
  mMallocSize := host.page

/-! ### Writing -/

/-- `Msg::LeftSize`. -/
def leftSize (msg : Msg) : Int :=
  toInt32 (msg.mMallocSize - msg.mWriteOffset - HEAD_LENGTH)

/-- `Msg::Reverse`: a larger block when the next value alone, not the message
with it, exceeds the capacity. The capacity keeps its old value. -/
def reverse (host : Host) (msg : Msg) (size : Int) : Except Fault Msg := do
  if size < msg.mMallocSize then
    return msg
  else if size = msg.mMallocSize then
    return msg
  else
    let twice ← checkInt (2 * msg.mMallocSize)
    let size := if size < twice then twice else size
    let size ← checkInt (size + size.tmod host.page)
    -- `sizeof(char*) * size` bytes
    let temp := malloc host.left (8 * toSizeT size)
    let kept ← peek msg.mData 0 (toSizeT (msg.mWriteOffset + HEAD_LENGTH))
    let temp ← poke temp 0 kept
    return { msg with mData := temp }

/-- What every `<<` does with the bytes of its value: grow if `LeftSize()`,
compared as a `size_t`, says so, copy, and advance. -/
def put (host : Host) (msg : Msg) (bytes : List UInt8) : Except Fault Msg := do
  let msg ← if toSizeT msg.leftSize < bytes.length then msg.reverse host (toInt32 bytes.length)
    else .ok msg
  let data ← poke msg.mData (HEAD_LENGTH + msg.mWriteOffset) bytes
  return { msg with mData := data, mWriteOffset := toInt32 (msg.mWriteOffset + bytes.length) }

/-- `operator<<(const int&)`. -/
def writeInt (host : Host) (msg : Msg) (r : Int32) : Except Fault Msg :=
  msg.put host (leBytes 4 (htonl r.toUInt32).toNat)

/-- `operator<<(const uint16_t&)`. -/
def writeU16 (host : Host) (msg : Msg) (r : UInt16) : Except Fault Msg :=
  msg.put host (leBytes 2 (htons r).toNat)

/-- `operator<<(const uint32_t&)`. -/
def writeU32 (host : Host) (msg : Msg) (r : UInt32) : Except Fault Msg :=
  msg.put host (leBytes 4 (htonl r).toNat)

/-- `operator<<(const uint64_t&)`. -/
def writeU64 (host : Host) (msg : Msg) (r : UInt64) : Except Fault Msg :=
  msg.put host (leBytes 8 (htonll r).toNat)

/-- `Msg::WriteByte`. -/
def writeByte (host : Host) (msg : Msg) (r : List UInt8) : Except Fault Msg :=
  msg.put host r

/-- `operator<<(const std::string&)`: the `size_t` length, then the bytes. -/
def writeStr (host : Host) (msg : Msg) (r : StdString) : Except Fault Msg := do
  let msg ← msg.writeU64 host (UInt64.ofNat r.length)
  msg.writeByte host r.bytes

/-- One `<<`, of any of the five types. -/
def write (host : Host) (msg : Msg) : Field → Except Fault Msg
  | .int value => msg.writeInt host value
  | .u16 value => msg.writeU16 host value
  | .u32 value => msg.writeU32 host value
  | .u64 value => msg.writeU64 host value
  | .str value => msg.writeStr host value

/-- A chain of `<<`. -/
def writes (host : Host) (msg : Msg) (fields : List Field) : Except Fault Msg :=
  fields.foldlM (write host) msg

/-- `Msg::SetLen(int)`. -/
def setLenTo (msg : Msg) (len : Int) : Except Fault Msg := do
  let data ← poke msg.mData 0 (leBytes 4 (htonl (UInt32.ofInt len)).toNat)
  return { msg with mData := data }

/-- `Msg::SetLen()`. -/
def setLen (msg : Msg) : Except Fault Msg := msg.setLenTo msg.mWriteOffset

/-- Every message is made like this: its values, and then its length. -/
def build (host : Host) (fields : List Field) : Except Fault Msg := do
  let msg ← (new host).writes host fields
  msg.setLen

/-- `Msg::GetTotalLen`. -/
def getTotalLen (msg : Msg) : Int := toInt32 (msg.mWriteOffset + HEAD_LENGTH)

/-- What a connection sends of a message: the first `GetTotalLen()` bytes. -/
def wireBytes (msg : Msg) : List UInt8 := msg.mData.take msg.getTotalLen.toNat

/-- `Msg::Dup`: a block of just the bytes written so far, and the head, of which four
bytes are never written. -/
def dup (host : Host) (msg : Msg) : Except Fault Msg := do
  let ret ← ofLen host.left msg.mWriteOffset
  let bytes ← peek msg.mData 0 (toSizeT (msg.mWriteOffset + HEAD_LENGTH))
  let data ← poke ret.mData 0 bytes
  let ret := { ret with mData := data, mWriteOffset := msg.mWriteOffset, mReadOffset := 0 }
  ret.setLen

/-! ### Reading -/

/-- The bytes at the read offset, and the offset behind them. -/
def take (msg : Msg) (count : Nat) : Except Fault (List UInt8 × Msg) := do
  let bytes ← peek msg.mData (HEAD_LENGTH + msg.mReadOffset) count
  return (bytes, { msg with mReadOffset := toInt32 (msg.mReadOffset + count) })

/-- `operator>>(int&)`. -/
def readInt (msg : Msg) : Except Fault (Int32 × Msg) := do
  let (temp, msg) ← msg.take 4
  return ((ntohl (UInt32.ofNat (leNat temp))).toInt32, msg)

/-- `operator>>(uint16_t&)`. -/
def readU16 (msg : Msg) : Except Fault (UInt16 × Msg) := do
  let (temp, msg) ← msg.take 2
  return (ntohs (UInt16.ofNat (leNat temp)), msg)

/-- `operator>>(uint32_t&)`. -/
def readU32 (msg : Msg) : Except Fault (UInt32 × Msg) := do
  let (temp, msg) ← msg.take 4
  return (ntohl (UInt32.ofNat (leNat temp)), msg)

/-- `operator>>(uint64_t&)`. -/
def readU64 (msg : Msg) : Except Fault (UInt64 × Msg) := do
  let (temp, msg) ← msg.take 8
  return (ntohll (UInt64.ofNat (leNat temp)), msg)

/-- `operator>>(std::string&)`: a length, and that many bytes from the block. A
length above `max_size()` makes `assign` throw before it reads. -/
def readStr (msg : Msg) : Except Fault (StdString × Msg) := do
  let (len, msg) ← msg.readU64
  if 2 ^ 63 ≤ len.toNat then throw .lengthError
  else
    let (bytes, msg) ← msg.take len.toNat
    if short : bytes.length < 2 ^ 63 then return (⟨bytes, short⟩, msg) else throw .lengthError

/-- One `>>`. -/
def read : Source Kind.Carrier Msg Fault
  | .int, msg => msg.readInt
  | .u16, msg => msg.readU16
  | .u32, msg => msg.readU32
  | .u64, msg => msg.readU64
  | .str, msg => msg.readStr

end Msg
end ChatRoom
