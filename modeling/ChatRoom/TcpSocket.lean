import ChatRoom.Msg

/-! `TcpSocket`: `recv` and `send` as the connection uses them. What the kernel
answers is not the program's choice, so the answers are given; the socket turns
them into error codes and flags. -/
namespace ChatRoom
open Lib

/-! ### The kernel's answers -/

def EAGAIN : Int := 11
def EWOULDBLOCK : Int := 11
def EINVAL : Int := 22

/-- `errno` after a failed call. -/
structure Errno where
  value : Int
  positive : 0 < value
  deriving DecidableEq

namespace Errno

/-- The call would have to wait: not an error for a socket. -/
def Again (errno : Errno) : Prop := errno.value = EAGAIN ∨ errno.value = EWOULDBLOCK

instance (errno : Errno) : Decidable errno.Again := inferInstanceAs (Decidable (_ ∨ _))

def again : Errno := ⟨EAGAIN, by decide⟩

end Errno

/-- What waits for a `recv`: a piece of the stream, which may be taken in several
calls, the end of the stream, or a failure. -/
inductive Arrival where
  | data (bytes : List UInt8) (some : bytes ≠ [])
  | fin
  | fail (errno : Errno)
  deriving DecidableEq

/-- The answer to one `recv`: bytes, none of them at the end of the stream. -/
inductive Recvd where
  | bytes (bytes : List UInt8)
  | failed (errno : Errno)

/-- `recv` of up to `count` bytes. The end of the stream stays where it is; where
nothing is left to answer, the call does not return. -/
def kernelRecv (count : Nat) : List Arrival → Except Fault (Recvd × List Arrival)
  | [] => .error .blocked
  | .fin :: rest => .ok (.bytes [], .fin :: rest)
  | .fail errno :: rest => .ok (.failed errno, rest)
  | .data bytes _ :: rest =>
    if left : bytes.drop count = [] then .ok (.bytes bytes, rest)
    else .ok (.bytes (bytes.take count), .data (bytes.drop count) left :: rest)

/-- The answer to one `send`: how much was taken, at most what was offered. -/
inductive Sendable where
  | accepts (count : Nat) (some : 0 < count)
  | fail (errno : Errno)
  deriving DecidableEq

/-- More than is offered at once. -/
def Sendable.plenty : Sendable := .accepts (2 ^ 20) (by decide)

/-! ### The socket -/

structure TcpSocket where
  mIP : StdString
  mPort : UInt16
  /-- The length field of the current message has been read. -/
  mPreRecv : Bool
  /-- The descriptor, -1 once it is closed. -/
  mSocket : Int
  mClosed : Bool
  mError : Int
  deriving DecidableEq

namespace TcpSocket

/-- The socket that `Accepter` makes for a new client. -/
def accepted (ip : StdString) (port : UInt16) (fd : Nat) : TcpSocket where
  mIP := ip
  mPort := port
  mPreRecv := false
  mSocket := fd
  mClosed := false
  mError := 0

def noOK (socket : TcpSocket) : Bool := socket.mClosed || socket.mError != 0

def close (socket : TcpSocket) : TcpSocket :=
  if socket.mSocket ≠ -1 then { socket with mSocket := -1, mClosed := true } else socket

/-- `Recv`: the error, and the bytes put into the buffer. -/
def recv (socket : TcpSocket) (len : Nat) (arrivals : List Arrival) :
    Except Fault (Int × TcpSocket × List UInt8 × List Arrival) :=
  if socket.noOK then .ok (EINVAL, socket, [], arrivals)
  else do
    match ← kernelRecv len arrivals with
    | (.failed errno, rest) =>
      if errno.Again then return (0, socket, [], rest)
      else return (errno.value, { socket with mError := errno.value }, [], rest)
    | (.bytes [], rest) => return (EINVAL, { socket with mClosed := true }, [], rest)
    | (.bytes bytes, rest) => return (0, socket, bytes, rest)

/-- The loop of `RecvAll`: it asks for what is missing until nothing is, and
starts over when it is told to wait. Each turn takes an answer away or ends. -/
def recvLoop (socket : TcpSocket) (toRecv : Nat) (recved : List UInt8) :
    List Arrival → Except Fault (Int × TcpSocket × List UInt8 × List Arrival)
  | [] => .error .blocked
  | .fin :: rest => .ok (EINVAL, { socket with mClosed := true }, recved, .fin :: rest)
  | .fail errno :: rest =>
    if errno.Again then recvLoop socket toRecv recved rest
    else .ok (errno.value, { socket with mError := errno.value }, recved, rest)
  | .data bytes _ :: rest =>
    if bytes.length < toRecv then recvLoop socket (toRecv - bytes.length) (recved ++ bytes) rest
    else if left : bytes.drop toRecv = [] then .ok (0, socket, recved ++ bytes, rest)
    else .ok (0, socket, recved ++ bytes.take toRecv, .data (bytes.drop toRecv) left :: rest)

def recvAll (socket : TcpSocket) (len : Nat) (arrivals : List Arrival) :
    Except Fault (Int × TcpSocket × List UInt8 × List Arrival) :=
  if socket.noOK then .ok (EINVAL, socket, [], arrivals) else recvLoop socket len [] arrivals

/-- The length in the four bytes of a length field. -/
def lengthOf (buf : List UInt8) : Int := (ntohl (UInt32.ofNat (leNat buf))).toInt32.toInt

/-- `PreRecv`: the length stays 0 when it fails. -/
def preRecv (socket : TcpSocket) (arrivals : List Arrival) :
    Except Fault (Int × Int × TcpSocket × List Arrival) :=
  if socket.noOK then .ok (EINVAL, 0, socket, arrivals)
  else if socket.mPreRecv then .error .assertion
  else do
    let (err, socket, buf, rest) ← recvAll { socket with mPreRecv := true } 4 arrivals
    if err ≠ 0 then return (err, 0, socket, rest)
    return (0, lengthOf buf, socket, rest)

/-- `Send`: the error, the count, which is -1 also when the socket has to wait,
and the bytes that the kernel took. -/
def send (socket : TcpSocket) (block : List UInt8) (start len : Int) (answer : Sendable) :
    Except Fault (Int × Int × TcpSocket × List UInt8) :=
  if socket.noOK then .ok (EINVAL, 0, socket, [])
  else
    match answer with
    | .fail errno =>
      if errno.Again then .ok (0, -1, socket, [])
      else .ok (errno.value, -1, { socket with mError := errno.value }, [])
    | .accepts count _ => do
      let bytes ← peek block start (min count (toSizeT len))
      return (0, bytes.length, socket, bytes)

end TcpSocket

/-! ### What waits in the kernel -/

namespace Arrival

/-- The bytes in front of the end of the stream or of a failure. -/
def bytesOf : List Arrival → List UInt8
  | [] => []
  | .fin :: _ => []
  | .fail errno :: rest => if errno.Again then bytesOf rest else []
  | .data bytes _ :: rest => bytes ++ bytesOf rest

/-- What comes behind those bytes, if it is known. -/
def ending : List Arrival → Option Arrival
  | [] => none
  | .fin :: _ => some .fin
  | .fail errno :: rest => if errno.Again then ending rest else some (.fail errno)
  | .data _ _ :: rest => ending rest

/-- How many calls can be answered at most before the end. -/
def weight : List Arrival → Nat
  | [] => 0
  | .fin :: rest => 1 + weight rest
  | .fail _ :: rest => 1 + weight rest
  | .data bytes _ :: rest => bytes.length + weight rest

/-- What comes behind an end is not met. -/
theorem bytes_of_append (arrivals more : List Arrival) :
    bytesOf (arrivals ++ more) = bytesOf arrivals ++ if ending arrivals = none then bytesOf more else [] := by
  induction arrivals with
  | nil => rfl
  | cons arrival rest ih =>
    cases arrival with
    | data bytes some => rw [List.cons_append, bytesOf, ih, bytesOf, ending, List.append_assoc]
    | fin => rfl
    | fail errno =>
      rw [List.cons_append, bytesOf, bytesOf, ending]
      split
      · exact ih
      · rfl

theorem ending_append (arrivals more : List Arrival) :
    ending (arrivals ++ more) = (ending arrivals).or (ending more) := by
  induction arrivals with
  | nil => rfl
  | cons arrival rest ih =>
    cases arrival with
    | data bytes some => exact ih
    | fin => rfl
    | fail errno =>
      rw [List.cons_append, ending, ending]
      split
      · exact ih
      · rfl

theorem weight_append (arrivals more : List Arrival) : weight (arrivals ++ more) = weight arrivals + weight more := by
  induction arrivals with
  | nil => exact (Nat.zero_add _).symm
  | cons arrival rest ih => cases arrival <;> simp only [List.cons_append, weight, ih, Nat.add_assoc]

end Arrival

namespace TcpSocket
open Arrival

variable {socket next : TcpSocket} {arrivals rest : List Arrival} {got : List UInt8} {count : Nat}

/-- What a socket is after an end that `recv` has met. -/
def ended (socket : TcpSocket) : Arrival → TcpSocket
  | .fail errno => { socket with mError := errno.value }
  | _ => { socket with mClosed := true }

/-- The error for an end that `recv` has met. -/
def endError : Arrival → Int
  | .fail errno => errno.value
  | _ => EINVAL

theorem end_error_ne_zero (last : Arrival) : endError last ≠ 0 := by
  cases last with
  | fail errno => exact errno.positive.ne'
  | data | fin => exact show EINVAL ≠ 0 by decide

@[simp] theorem ended_no_ok (socket : TcpSocket) (last : Arrival) : (socket.ended last).noOK = true := by
  cases last with
  | fail errno => simp [ended, noOK, errno.positive.ne']
  | data | fin => simp [ended, noOK]

@[simp] theorem ended_ip (socket : TcpSocket) (last : Arrival) : (socket.ended last).mIP = socket.mIP := by
  cases last <;> rfl

@[simp] theorem ended_port (socket : TcpSocket) (last : Arrival) : (socket.ended last).mPort = socket.mPort := by
  cases last <;> rfl

@[simp] theorem close_ip (socket : TcpSocket) : socket.close.mIP = socket.mIP := by
  unfold close
  split <;> rfl

@[simp] theorem close_port (socket : TcpSocket) : socket.close.mPort = socket.mPort := by
  unfold close
  split <;> rfl

@[simp] theorem close_pre_recv (socket : TcpSocket) : socket.close.mPreRecv = socket.mPreRecv := by
  unfold close
  split <;> rfl

theorem close_no_ok (ended : socket.noOK = true) : socket.close.noOK = true := by
  unfold close
  split
  · simp [noOK]
  · exact ended

private theorem cut_data {bytes : List UInt8} (left : bytes.drop count ≠ []) :
    bytes.take count ++ bytes.drop count = bytes ∧ count < bytes.length := by
  refine ⟨List.take_append_drop count bytes, ?_⟩
  by_contra past
  exact left (List.drop_of_length_le (Nat.not_lt.mp past))

/-- `Recv` takes bytes from the front of what waits, or finds that nothing is in
front of the end, or waits for more to come. -/
theorem recv_cases (working : socket.noOK = false) (asked : 0 < count) (arrivals : List Arrival) :
    arrivals = [] ∧ socket.recv count arrivals = .error .blocked ∨
    (∃ got rest, socket.recv count arrivals = .ok (0, socket, got, rest) ∧
      got ++ bytesOf rest = bytesOf arrivals ∧ got.length ≤ count ∧
      ending rest = ending arrivals ∧ weight rest < weight arrivals) ∨
    ∃ last rest, socket.recv count arrivals = .ok (endError last, socket.ended last, [], rest) ∧
      ending arrivals = some last ∧ bytesOf arrivals = [] := by
  rw [recv, if_neg (by simp [working])]
  cases arrivals with
  | nil => exact .inl ⟨rfl, rfl⟩
  | cons arrival behind =>
    right
    cases arrival with
    | fin => exact .inr ⟨.fin, _, rfl, rfl, rfl⟩
    | fail errno =>
      simp only [kernelRecv, ok_then]
      by_cases again : errno.Again
      · left
        refine ⟨[], behind, by rw [if_pos again]; rfl, ?_, Nat.zero_le _, ?_, ?_⟩
        · rw [bytesOf, if_pos again]
          rfl
        · rw [ending, if_pos again]
        · simp [weight]
      · right
        exact ⟨.fail errno, behind, by rw [if_neg again]; rfl, by rw [ending, if_neg again],
          by rw [bytesOf, if_neg again]⟩
    | data bytes some =>
      left
      have nonempty : 0 < bytes.length := List.length_pos_iff.mpr some
      by_cases left : bytes.drop count = []
      · obtain ⟨first, others, rfl⟩ := List.exists_cons_of_ne_nil some
        refine ⟨first :: others, behind, ?_, rfl, List.drop_eq_nil_iff.mp left, rfl, ?_⟩
        · rw [kernelRecv, dif_pos left]
          rfl
        · simp [weight]
      · obtain ⟨whole, more⟩ := cut_data left
        have taken : bytes.take count ≠ [] := by
          rw [← List.length_pos_iff, List.length_take]
          omega
        obtain ⟨first, others, front⟩ := List.exists_cons_of_ne_nil taken
        refine ⟨bytes.take count, .data (bytes.drop count) left :: behind, ?_, ?_, List.length_take_le count bytes,
          rfl, ?_⟩
        · rw [kernelRecv, dif_neg left, front]
          rfl
        · rw [bytesOf, bytesOf, ← List.append_assoc, whole]
        · simp only [weight, List.length_drop]
          omega

/-- `RecvAll` with enough in front of the end takes just what it asks for. -/
theorem recv_loop_enough (enough : count ≤ (bytesOf arrivals).length) (asked : 0 < count) :
    ∃ rest, socket.recvLoop count got arrivals = .ok (0, socket, got ++ (bytesOf arrivals).take count, rest) ∧
      bytesOf rest = (bytesOf arrivals).drop count ∧ ending rest = ending arrivals ∧
      weight rest < weight arrivals := by
  induction arrivals generalizing count got with
  | nil =>
    simp only [bytesOf, List.length_nil] at enough
    omega
  | cons arrival behind ih =>
    cases arrival with
    | fin =>
      simp only [bytesOf, List.length_nil] at enough
      omega
    | fail errno =>
      by_cases again : errno.Again
      · rw [bytesOf, if_pos again] at enough ⊢
        obtain ⟨rest, done, bytes, last, less⟩ := @ih got count enough asked
        refine ⟨rest, by rw [recvLoop, if_pos again, done], bytes, by rw [ending, if_pos again, last], ?_⟩
        simp only [weight]
        omega
      · rw [bytesOf, if_neg again, List.length_nil] at enough
        omega
    | data bytes some =>
      have nonempty : 0 < bytes.length := List.length_pos_iff.mpr some
      simp only [bytesOf, List.length_append] at enough ⊢
      by_cases part : bytes.length < count
      · obtain ⟨rest, done, left, last, less⟩ := @ih (got ++ bytes) (count - bytes.length) (by omega) (by omega)
        refine ⟨rest, ?_, ?_, last, ?_⟩
        · have whole : bytes.take count = bytes := List.take_of_length_le (by omega)
          rw [recvLoop, if_pos part, done, List.take_append, whole, List.append_assoc]
        · have none : bytes.drop count = [] := List.drop_of_length_le (by omega)
          rw [List.drop_append, none, List.nil_append, left]
        · simp only [weight]
          omega
      · have front : (bytes ++ bytesOf behind).take count = bytes.take count :=
          List.take_append_of_le_length (by omega)
        by_cases left : bytes.drop count = []
        · have exact : bytes.length ≤ count := List.drop_eq_nil_iff.mp left
          refine ⟨behind, ?_, ?_, rfl, ?_⟩
          · rw [recvLoop, if_neg part, dif_pos left, front, List.take_of_length_le exact]
          · rw [List.drop_append_of_le_length (by omega), left, List.nil_append]
          · simp only [weight]
            omega
        · refine ⟨.data (bytes.drop count) left :: behind, ?_, ?_, rfl, ?_⟩
          · rw [recvLoop, if_neg part, dif_neg left, front]
          · rw [List.drop_append_of_le_length (by omega)]
            rfl
          · simp only [weight, List.length_drop]
            omega

/-- `RecvAll` with less than it asks for meets the end, or waits for it. -/
theorem recv_loop_short (short : (bytesOf arrivals).length < count) :
    match ending arrivals with
    | none => socket.recvLoop count got arrivals = .error .blocked
    | some last => ∃ rest, socket.recvLoop count got arrivals =
        .ok (endError last, socket.ended last, got ++ bytesOf arrivals, rest) := by
  induction arrivals generalizing count got with
  | nil => rfl
  | cons arrival behind ih =>
    cases arrival with
    | fin => exact ⟨_, by simp only [recvLoop, bytesOf, List.append_nil]; rfl⟩
    | fail errno =>
      by_cases again : errno.Again
      · rw [bytesOf, if_pos again] at short ⊢
        simp only [ending, if_pos again, recvLoop]
        exact ih short
      · simp only [ending, if_neg again, recvLoop, bytesOf, List.append_nil]
        exact ⟨_, rfl⟩
    | data bytes some =>
      simp only [bytesOf, List.length_append] at short ⊢
      have part : bytes.length < count := by omega
      have later := @ih (got ++ bytes) (count - bytes.length) (by omega)
      simp only [ending, recvLoop, if_pos part]
      rwa [List.append_assoc] at later

/-- `PreRecv` with a whole length field in front of the end. -/
theorem pre_recv_enough (working : socket.noOK = false) (fresh : socket.mPreRecv = false)
    (enough : 4 ≤ (bytesOf arrivals).length) :
    ∃ rest, socket.preRecv arrivals =
        .ok (0, lengthOf ((bytesOf arrivals).take 4), { socket with mPreRecv := true }, rest) ∧
      bytesOf rest = (bytesOf arrivals).drop 4 ∧ ending rest = ending arrivals ∧
      weight rest < weight arrivals := by
  have still : { socket with mPreRecv := true }.noOK = false := working
  obtain ⟨rest, done, left, last, less⟩ :=
    @recv_loop_enough { socket with mPreRecv := true } arrivals [] 4 enough (by omega)
  refine ⟨rest, ?_, left, last, less⟩
  rw [preRecv, if_neg (by simp [working]), if_neg (by simp [fresh]), recvAll, if_neg (by simp [still]), done]
  rfl

/-- `PreRecv` with less than a length field in front of the end, or of what has
come so far. -/
theorem pre_recv_short (working : socket.noOK = false) (fresh : socket.mPreRecv = false)
    (short : (bytesOf arrivals).length < 4) :
    match ending arrivals with
    | none => socket.preRecv arrivals = .error .blocked
    | some last => ∃ rest, socket.preRecv arrivals =
        .ok (endError last, 0, { socket with mPreRecv := true }.ended last, rest) := by
  have still : { socket with mPreRecv := true }.noOK = false := working
  have loop := @recv_loop_short { socket with mPreRecv := true } arrivals [] 4 short
  rw [preRecv, if_neg (by simp [working]), if_neg (by simp [fresh]), recvAll, if_neg (by simp [still])]
  cases last : ending arrivals with
  | none =>
    rw [last] at loop
    rw [loop]
    rfl
  | some last' =>
    rw [last] at loop
    obtain ⟨rest, done⟩ := loop
    refine ⟨rest, ?_⟩
    rw [done]
    simp only [ok_then]
    rw [if_pos (end_error_ne_zero last')]
    rfl

/-- Whatever is asked for, `Recv` fails or leaves the socket as it is. -/
theorem recv_outcomes {err : Int} (working : socket.noOK = false)
    (done : socket.recv count arrivals = .ok (err, next, got, rest)) :
    err = 0 ∧ next = socket ∨ err ≠ 0 ∧ next.noOK = true := by
  rw [recv, if_neg (by simp [working])] at done
  obtain ⟨⟨answer, rest'⟩, _, result⟩ := bind_ok.mp done
  cases answer with
  | failed errno =>
    simp only at result
    by_cases again : errno.Again
    · rw [if_pos again] at result
      cases result
      exact .inl ⟨rfl, rfl⟩
    · rw [if_neg again] at result
      cases result
      exact .inr ⟨errno.positive.ne', by simp [noOK, errno.positive.ne']⟩
  | bytes bytes =>
    cases bytes with
    | nil =>
      cases result
      exact .inr ⟨by decide, by simp [noOK]⟩
    | cons first others =>
      cases result
      exact .inl ⟨rfl, rfl⟩

/-! ### Sending -/

variable {block : List UInt8} {start len : Int} {errno : Errno}

theorem send_waits (working : socket.noOK = false) (again : errno.Again) :
    socket.send block start len (.fail errno) = .ok (0, -1, socket, []) := by
  simp only [send, working, Bool.false_eq_true, if_false, if_pos again]

theorem send_fails (working : socket.noOK = false) (failed : ¬ errno.Again) :
    socket.send block start len (.fail errno) =
      .ok (errno.value, -1, { socket with mError := errno.value }, []) := by
  simp only [send, working, Bool.false_eq_true, if_false, if_neg failed]

theorem send_takes {some : 0 < count} (working : socket.noOK = false) :
    socket.send block start len (.accepts count some) = do
      let bytes ← peek block start (min count (toSizeT len))
      return (0, bytes.length, socket, bytes) := by
  simp only [send, working, Bool.false_eq_true, if_false]

end TcpSocket
end ChatRoom
