import ChatRoom.Lib.Memory
import Std.Data.ExtTreeMap.Lemmas

/-! `Driver`: which events libevent is asked to watch. The events are kept under
their descriptor, one for reading and one for writing. A connection or an accepter
registers through `RWConnection`, which asserts that the driver agrees. -/
namespace ChatRoom
open Lib

def EEXIST : Int := 17
def ENOENT : Int := 2

/-- Why a step stops: an assert of `RWConnection` on its driver fails, or there is
another fault. -/
inductive Stop where
  | registry
  | fault (fault : Fault)
  deriving DecidableEq

/-- The `RWConnection` behind a pointer: a connection of the net service, or an
accepter, which are numbered as they are made. -/
inductive RWConnection where
  | connection (connId : UInt64)
  | accepter (number : Nat)
  deriving DecidableEq

inductive EventFlag where
  | EV_READ | EV_WRITE | EV_PERSIST
  deriving DecidableEq

inductive EventHandler where
  | readHandler | writeHandler
  deriving DecidableEq

/-- What `event_new` is given. -/
structure IoEvent where
  flags : List EventFlag
  handler : EventHandler
  arg : RWConnection
  deriving DecidableEq

/-- `Driver::EventInfo`. -/
structure EventInfo where
  read : Option IoEvent
  write : Option IoEvent
  readConn : Option RWConnection
  writeConn : Option RWConnection
  deriving DecidableEq

namespace EventInfo

def new : EventInfo := ⟨none, none, none, none⟩

/-- Which of the two events of a descriptor. -/
inductive Side where
  | read | write

variable (info : EventInfo)

def event : Side → Option IoEvent
  | .read => info.read
  | .write => info.write

/-- The event is made, and its connection noted. -/
def set (made : IoEvent) (conn : RWConnection) : Side → EventInfo
  | .read => { info with read := some made, readConn := some conn }
  | .write => { info with write := some made, writeConn := some conn }

/-- `FreeReadEvent`, `FreeWriteEvent`: the connection stays noted. -/
def free : Side → EventInfo
  | .read => { info with read := none }
  | .write => { info with write := none }

def isInvalid : Bool := info.read.isNone && info.write.isNone

end EventInfo

structure Driver where
  mEventsInfo : Std.ExtTreeMap Int EventInfo

namespace Driver

def new : Driver := ⟨∅⟩

variable (driver : Driver) (fd : Int) (conn : RWConnection)

/-- The body of the two functions that register: an error, and the driver as it
is then. -/
def regist (side : EventInfo.Side) (flags : List EventFlag) (handler : EventHandler) : Int × Driver :=
  let info := driver.mEventsInfo[fd]?.getD .new
  if (info.event side).isSome then (EEXIST, driver)
  else (0, ⟨driver.mEventsInfo.insert fd (info.set ⟨flags, handler, conn⟩ conn side)⟩)

/-- The body of the two functions that unregister: nothing is asked of the
connection. -/
def unRegist (side : EventInfo.Side) : Int × Driver :=
  match driver.mEventsInfo[fd]? with
  | none => (ENOENT, driver)
  | some info =>
    let info := info.free side
    if info.isInvalid then (0, ⟨driver.mEventsInfo.erase fd⟩) else (0, ⟨driver.mEventsInfo.insert fd info⟩)

def registReadEvent : Int × Driver := driver.regist fd conn .read [.EV_READ, .EV_PERSIST] .readHandler

/-- The write event is made with the flags of the read event. -/
def registWriteEvent : Int × Driver := driver.regist fd conn .write [.EV_READ, .EV_PERSIST] .writeHandler

def unRegistReadEvent : Int × Driver := driver.unRegist fd .read

def unRegistWriteEvent : Int × Driver := driver.unRegist fd .write

end Driver

namespace RWConnection

variable (conn : RWConnection) (driver : Driver) (fd : Int)

/-- `assert(0 == ...)`. -/
def asserted : Int × Driver → Except Stop Driver
  | (err, driver) => if err = 0 then .ok driver else .error .registry

def registReadEvent : Except Stop Driver := asserted (driver.registReadEvent fd conn)

def registWriteEvent : Except Stop Driver := asserted (driver.registWriteEvent fd conn)

def unRegistReadEvent : Except Stop Driver := asserted (driver.unRegistReadEvent fd)

def unRegistWriteEvent : Except Stop Driver := asserted (driver.unRegistWriteEvent fd)

def unRegistRWEvent : Except Stop Driver := do
  let driver ← unRegistReadEvent driver fd
  unRegistWriteEvent driver fd

end RWConnection

/-! ### What is registered -/

namespace EventInfo

/-- A connection or an accepter reads from the descriptor. -/
def readOnly (conn : RWConnection) : EventInfo where
  read := some ⟨[.EV_READ, .EV_PERSIST], .readHandler, conn⟩
  write := none
  readConn := some conn
  writeConn := none

/-- Both events, for one connection. -/
def both (conn : RWConnection) : EventInfo where
  read := some ⟨[.EV_READ, .EV_PERSIST], .readHandler, conn⟩
  write := some ⟨[.EV_READ, .EV_PERSIST], .writeHandler, conn⟩
  readConn := some conn
  writeConn := some conn

end EventInfo

namespace RWConnection
open EventInfo

variable {driver : Driver} {fd : Int} {conn : RWConnection}

/-- After the one descriptor changed, the others are as before. -/
def Rewrites (driver next : Driver) (fd : Int) (entry : Option EventInfo) : Prop :=
  next.mEventsInfo[fd]? = entry ∧ ∀ other, other ≠ fd → next.mEventsInfo[other]? = driver.mEventsInfo[other]?

private theorem rewrites_insert (driver : Driver) (fd : Int) (info : EventInfo) :
    Rewrites driver ⟨driver.mEventsInfo.insert fd info⟩ fd (some info) := by
  refine ⟨by simp, fun other different => ?_⟩
  simp [Std.ExtTreeMap.getElem?_insert, different.symm]

private theorem rewrites_erase (driver : Driver) (fd : Int) : Rewrites driver ⟨driver.mEventsInfo.erase fd⟩ fd none := by
  refine ⟨by simp, fun other different => ?_⟩
  simp [Std.ExtTreeMap.getElem?_erase, different.symm]

/-- The first event of a descriptor that has none. -/
theorem regist_read_ok (absent : driver.mEventsInfo[fd]? = none) :
    ∃ next, conn.registReadEvent driver fd = .ok next ∧ Rewrites driver next fd (some (readOnly conn)) := by
  refine ⟨_, ?_, rewrites_insert driver fd (readOnly conn)⟩
  simp only [registReadEvent, Driver.registReadEvent, Driver.regist, absent]
  rfl

theorem regist_write_ok (held : driver.mEventsInfo[fd]? = some (readOnly conn)) :
    ∃ next, conn.registWriteEvent driver fd = .ok next ∧ Rewrites driver next fd (some (both conn)) := by
  refine ⟨_, ?_, rewrites_insert driver fd (both conn)⟩
  simp only [registWriteEvent, Driver.registWriteEvent, Driver.regist, held]
  rfl

theorem un_regist_read_ok (held : driver.mEventsInfo[fd]? = some (readOnly conn)) :
    ∃ next, unRegistReadEvent driver fd = .ok next ∧ Rewrites driver next fd none := by
  refine ⟨_, ?_, rewrites_erase driver fd⟩
  simp only [unRegistReadEvent, Driver.unRegistReadEvent, Driver.unRegist, held]
  rfl

/-- The read event first; the entry goes with the write event. -/
theorem un_regist_both_ok (held : driver.mEventsInfo[fd]? = some (both conn)) :
    ∃ next, unRegistRWEvent driver fd = .ok next ∧ Rewrites driver next fd none := by
  have first : unRegistReadEvent driver fd = .ok ⟨driver.mEventsInfo.insert fd ((both conn).free .read)⟩ := by
    simp only [unRegistReadEvent, Driver.unRegistReadEvent, Driver.unRegist, held]
    rfl
  obtain ⟨middle, others⟩ := rewrites_insert driver fd ((both conn).free .read)
  obtain ⟨gone, kept⟩ := rewrites_erase ⟨driver.mEventsInfo.insert fd ((both conn).free .read)⟩ fd
  refine ⟨_, ?_, gone, fun other different => (kept other different).trans (others other different)⟩
  rw [unRegistRWEvent, first]
  simp only [ok_then, unRegistWriteEvent, Driver.unRegistWriteEvent, Driver.unRegist, middle]
  rfl

end RWConnection
end ChatRoom
