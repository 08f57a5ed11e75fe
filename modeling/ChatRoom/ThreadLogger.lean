import ChatRoom.MsgSequence
import ChatRoom.TcpSocket
import Mathlib.Data.List.Induction

/-! `ThreadLogger`: a line travels as a string in a message, and `HandleLog`
writes it to the log file with as many calls of `write` as it takes. A `write`
that fails is not looked at: its -1 is added to the position like a count. In front of
all this `WriteLog` sets bytes behind a buffer of its own; what is said of lines here is
said of the messages that it makes if it gets that far. -/
namespace ChatRoom
open Lib Wire

structure ThreadLogger where
  mFileName : StdString
  mLogCount : UInt32
  /-- What the file behind `mFileFd` has taken. -/
  written : List UInt8

/-- Where the loop of `HandleLog` stands in its line, and the positions of the
bytes that the file took, in order. -/
structure Progress where
  hasWrited : Int
  places : List Nat
  deriving DecidableEq

namespace ThreadLogger

def new (filename : StdString) : ThreadLogger where
  mFileName := filename
  mLogCount := 0
  written := []

/-- The second half of `WriteLog`: the message for a line that has its time and its
thread in front of it. -/
def logMsg (host : Host) (log : StdString) : Except Fault Msg := (Msg.new host).write host (.str log)

/-- `WriteLog`, once it is known what time and thread will be in front of the line; first
it sets 100 bytes of `outstr`. -/
def writeLog (host : Host) (outstr : List UInt8) (log : StdString) : Except Fault Msg := do
  let _ ← poke outstr 0 (List.replicate 100 0)
  logMsg host log

/-- `outstr` has 20 bytes: every line that is logged starts with 80 that are set behind it. -/
theorem write_log_overruns (host : Host) {outstr : List UInt8} (size : outstr.length = 20) (log : StdString) :
    writeLog host outstr log = .error .outOfBounds := by
  have outside : poke outstr 0 (List.replicate 100 0) = .error .outOfBounds := by
    rw [poke, if_neg (by simp [size])]
  rw [writeLog, outside]
  rfl

/-! ### The loop of `HandleLog` -/

/-- The condition of the loop: the position is compared as a `size_t`. -/
def Running (log : StdString) (progress : Progress) : Prop := toSizeT progress.hasWrited < log.length

instance (log : StdString) (progress : Progress) : Decidable (Running log progress) :=
  inferInstanceAs (Decidable (_ < _))

/-- One `write` from the position on, and its result, a `size_t`, added to the
position. The answers to `write` are like those to `send`. -/
def writeOnce (log : StdString) (progress : Progress) : Sendable → Progress
  | .accepts count _ =>
    let writed := min count (toSizeT (log.length - progress.hasWrited))
    { hasWrited := toSSizeT ((toSizeT progress.hasWrited : Int) + writed)
      places := progress.places ++ List.range' progress.hasWrited.toNat writed }
  | .fail _ =>
    { hasWrited := toSSizeT ((toSizeT progress.hasWrited : Int) + toSizeT (-1))
      places := progress.places }

/-- The loop after this many turns. -/
def after (log : StdString) (answers : Nat → Sendable) : Nat → Progress
  | 0 => ⟨0, []⟩
  | turns + 1 =>
    if Running log (after log answers turns) then
      writeOnce log (after log answers turns) (answers turns)
    else after log answers turns

/-- The bytes that the file took. -/
def accepted (log : StdString) (progress : Progress) : List UInt8 :=
  progress.places.filterMap fun place => log.bytes[place]?

/-- `HandleLog`, when its loop is given this many turns. -/
def handleLog (logger : ThreadLogger) (msg : Msg) (answers : Nat → Sendable) (turns : Nat) :
    Except Fault ThreadLogger := do
  let (log, _) ← msg.readStr
  let progress := after log answers turns
  if Running log progress then throw .blocked
  return { logger with
    mLogCount := logger.mLogCount + 1
    written := logger.written ++ accepted log progress }

/-! ### Lines that are written once -/

variable {log : StdString} {answers : Nat → Sendable} {progress : Progress}

def Failed : Sendable → Prop
  | .accepts _ _ => False
  | .fail _ => True

instance : (answer : Sendable) → Decidable (Failed answer)
  | .accepts _ _ => isFalse id
  | .fail _ => isTrue trivial

/-- What the first answers would take of a line that is long enough. -/
def counted (answers : Nat → Sendable) : Nat → Nat
  | 0 => 0
  | turns + 1 =>
    counted answers turns +
      match answers turns with
      | .accepts count _ => count
      | .fail _ => 0

/-- At every moment the position is inside the line, and the bytes that the file
took are the front of the line, each taken once; if the loop ends and none of
its calls failed, they are the whole line. -/
structure WrittenOnce (log : StdString) (answers : Nat → Sendable) : Prop where
  inside : ∀ turns, 0 ≤ (after log answers turns).hasWrited ∧ (after log answers turns).hasWrited ≤ log.length
  front : ∀ turns, accepted log (after log answers turns) <+: log.bytes
  once : ∀ turns, ∃ count, (after log answers turns).places = List.range count
  whole : ∀ turns, ¬ Running log (after log answers turns) →
    (∀ turn < turns, Running log (after log answers turn) → ¬ Failed (answers turn)) →
    accepted log (after log answers turns) = log.bytes

/-- The loop with this many bytes of the line behind it. -/
def atPlace (count : Nat) : Progress := ⟨count, List.range count⟩

private theorem accepted_front (log : StdString) (count : Nat) :
    accepted log (atPlace count) = log.bytes.take count := by
  induction count with
  | zero => rfl
  | succ count ih =>
    simp only [accepted, atPlace] at ih
    have last : [count].filterMap (fun place => log.bytes[place]?) = log.bytes[count]?.toList := by
      simp only [List.filterMap_cons, List.filterMap_nil]
      cases log.bytes[count]? <;> rfl
    simp only [accepted, atPlace, List.range_succ, List.filterMap_append, ih, List.take_add_one, last]

theorem running_at_place (short : count ≤ log.length) : Running log (atPlace count) ↔ count < log.length := by
  have range : log.length < 2 ^ 63 := log.short
  have same : (toSizeT (count : Int) : Int) = count := to_size_t_nonneg (by omega) (by omega)
  unfold Running atPlace
  simp only
  omega

theorem accept_at_place (some : 0 < count) (short : done ≤ log.length) :
    writeOnce log (atPlace done) (.accepts count some) = atPlace (min (done + count) log.length) := by
  have range : log.length < 2 ^ 63 := log.short
  have offered : toSizeT ((log.length : Int) - (atPlace done).hasWrited) = log.length - done := by
    simp only [atPlace, toSizeT]
    omega
  have position : (toSizeT (atPlace done).hasWrited : Int) = done := to_size_t_nonneg (by simp [atPlace]) (by
    simp only [atPlace]
    omega)
  have sum : done + min count (log.length - done) = min (done + count) log.length := by omega
  simp only [writeOnce, offered, position]
  rw [← sum, to_ssize_t_eq (by omega) (by omega)]
  simp only [atPlace, Int.toNat_natCast, Progress.mk.injEq]
  refine ⟨by omega, ?_⟩
  have joined := @List.range'_append_1 0 done (min count (log.length - done))
  rw [Nat.zero_add] at joined
  rw [List.range_eq_range', List.range_eq_range', joined]

/-- A failure takes the position back by one. -/
theorem fail_at (low : 0 ≤ progress.hasWrited) (high : progress.hasWrited ≤ log.length) (errno : Errno) :
    writeOnce log progress (.fail errno) = ⟨progress.hasWrited - 1, progress.places⟩ := by
  have range : log.length < 2 ^ 63 := log.short
  rw [writeOnce, to_ssize_t_add, to_ssize_t_eq (by omega) (by omega)]
  rfl

/-- As long as nothing fails before the line is out, the loop stands behind as
many bytes as were counted, or at the end. -/
theorem after_in_time (inTime : ∀ turn < turns, Failed (answers turn) → log.length ≤ counted answers turn) :
    after log answers turns = atPlace (min (counted answers turns) log.length) := by
  induction turns with
  | zero => simp [after, atPlace, counted]
  | succ turns ih =>
    have before := ih fun turn earlier => inTime turn (by omega)
    have running : Running log (atPlace (min (counted answers turns) log.length)) ↔ _ :=
      running_at_place (Nat.min_le_right _ _)
    rw [after, before]
    by_cases out : log.length ≤ counted answers turns
    · rw [if_neg (by rw [running]; omega), Nat.min_eq_right out, Nat.min_eq_right (by rw [counted]; omega)]
    · rw [if_pos (by rw [running]; omega), counted]
      cases answer : answers turns with
      | accepts count some =>
        rw [accept_at_place some (Nat.min_le_right _ _), Nat.min_eq_left (by omega : counted answers turns ≤ log.length)]
      | fail errno =>
        have late := inTime turns (by omega) (by rw [answer]; trivial)
        omega

private theorem counted_turns (inTime : ∀ turn < turns, Failed (answers turn) → log.length ≤ counted answers turn) :
    min turns log.length ≤ counted answers turns := by
  induction turns with
  | zero => simp
  | succ turns ih =>
    have before := ih fun turn earlier => inTime turn (by omega)
    rw [counted]
    cases answer : answers turns with
    | accepts count some =>
      simp only
      omega
    | fail errno =>
      have late := inTime turns (by omega) (by rw [answer]; trivial)
      simp only
      omega

/-- Without a failure in time the loop ends, after as many turns as the line has
bytes at most, and the file has the line. -/
theorem ends_in_time (inTime : ∀ turn, Failed (answers turn) → log.length ≤ counted answers turn)
    (enough : log.length ≤ turns) :
    ¬ Running log (after log answers turns) ∧ accepted log (after log answers turns) = log.bytes := by
  have counts : min turns log.length ≤ counted answers turns := counted_turns fun turn _ => inTime turn
  rw [after_in_time fun turn _ => inTime turn, Nat.min_eq_right (by omega), accepted_front,
    running_at_place (le_refl _)]
  exact ⟨by omega, List.take_length⟩

private theorem behind_fails (written : WrittenOnce log answers)
    (places : (after log answers turns).places = List.range count) (few : count ≤ log.length)
    (behind : (after log answers turns).hasWrited < count) :
    after log answers (turns + 1) = ⟨(after log answers turns).hasWrited - 1, List.range count⟩ := by
  have range : log.length < 2 ^ 63 := log.short
  obtain ⟨low, high⟩ := written.inside turns
  have position : (toSizeT (after log answers turns).hasWrited : Int) = (after log answers turns).hasWrited :=
    to_size_t_nonneg low (by omega)
  have running : Running log (after log answers turns) := by
    unfold Running
    omega
  rw [after, if_pos running]
  cases answer : answers turns with
  | fail errno => rw [fail_at low high errno, places]
  | accepts accepts some =>
    -- the next byte that the file takes is one that it has
    have offered : 0 < toSizeT ((log.length : Int) - (after log answers turns).hasWrited) := by
      simp only [toSizeT]
      omega
    obtain ⟨count', again⟩ := written.once (turns + 1)
    rw [after, if_pos running, answer] at again
    simp only [writeOnce, places] at again
    have apart := List.nodup_append.mp (again ▸ List.nodup_range)
    have held : (after log answers turns).hasWrited.toNat ∈ List.range count := List.mem_range.mpr (by omega)
    have taken : (after log answers turns).hasWrited.toNat ∈ List.range' (after log answers turns).hasWrited.toNat
        (min accepts (toSizeT ((log.length : Int) - (after log answers turns).hasWrited))) :=
      List.mem_range'_1.mpr (by omega)
    exact absurd rfl (apart.2.2 _ held _ taken)

/-- A position behind what the file has taken does not stay inside the line, or
bytes are taken twice. -/
private theorem behind_breaks (written : WrittenOnce log answers)
    (places : (after log answers turns).places = List.range count) (few : count ≤ log.length)
    (behind : (after log answers turns).hasWrited < count) : False := by
  induction position : (after log answers turns).hasWrited.toNat generalizing turns with
  | zero =>
    have next := behind_fails written places few behind
    have inside := (written.inside (turns + 1)).1
    rw [next] at inside
    simp only at inside
    omega
  | succ position ih =>
    have next := behind_fails written places few behind
    exact ih (by rw [next]) (by rw [next]; simp only; omega) (by rw [next]; simp only; omega)

/-- A line is written once exactly when no `write` returns -1 before the counts
of the calls before it add up to the length of the line. -/
theorem written_once_iff (log : StdString) (answers : Nat → Sendable) :
    WrittenOnce log answers ↔ ∀ turn, Failed (answers turn) → log.length ≤ counted answers turn := by
  constructor
  · intro written
    by_contra late
    have found : ∃ turn, Failed (answers turn) ∧ counted answers turn < log.length := by
      simpa using late
    -- the first failure in time takes the position back
    obtain ⟨failed, early⟩ := Nat.find_spec found
    have stands : after log answers (Nat.find found) = atPlace (counted answers (Nat.find found)) := by
      rw [after_in_time, Nat.min_eq_left (by omega)]
      intro turn before again
      have missed := Nat.find_min found before
      simp only [not_and, Nat.not_lt] at missed
      exact missed again
    have running := (running_at_place (Nat.le_of_lt early)).mpr early
    have next : after log answers (Nat.find found + 1) =
        ⟨(counted answers (Nat.find found) : Int) - 1, List.range (counted answers (Nat.find found))⟩ := by
      rw [after, stands, if_pos running]
      cases answer : answers (Nat.find found) with
      | accepts count some =>
        rw [answer] at failed
        exact failed.elim
      | fail errno => exact fail_at (Int.natCast_nonneg _) (by simp only [atPlace]; omega) errno
    exact behind_breaks written (by rw [next]) (Nat.le_of_lt early) (by rw [next]; simp only; omega)
  · intro inTime
    have stands : ∀ turns, after log answers turns = atPlace (min (counted answers turns) log.length) :=
      fun turns => after_in_time fun turn _ => inTime turn
    refine ⟨fun turns => ?_, fun turns => ?_, fun turns => ?_, fun turns ended _ => ?_⟩
    · rw [stands]
      simp only [atPlace]
      omega
    · rw [stands, accepted_front]
      exact List.take_prefix _ _
    · exact ⟨_, by rw [stands, atPlace]⟩
    · rw [stands, running_at_place (Nat.min_le_right _ _)] at ended
      rw [stands, accepted_front, Nat.min_eq_right (by omega)]
      exact List.take_length

/-- One byte is taken, the second `write` fails, and the third takes what it is
offered. -/
def interrupted : Nat → Sendable
  | 0 => .accepts 1 Nat.one_pos
  | 1 => .fail .again
  | _ => .plenty

/-- The first byte of a line of two is written again. -/
theorem an_interrupted_line_is_not_written_once :
    accepted (.ascii "ab") (after (.ascii "ab") interrupted 3) = [97, 97, 98] ∧
      ¬ WrittenOnce (.ascii "ab") interrupted := by
  have twice : accepted (.ascii "ab") (after (.ascii "ab") interrupted 3) = [97, 97, 98] := by decide
  refine ⟨twice, fun written => ?_⟩
  have front := written.front 3
  rw [twice] at front
  exact absurd front (by decide)

/-! ### From the message to the file -/

/-- The message gives the line back. -/
private theorem log_msg_reads (host : Host) (log : StdString)
    (fits : HEAD_LENGTH + 8 + log.length ≤ host.page) :
    ∃ msg next, logMsg host log = .ok msg ∧ msg.readStr = .ok (log, next) := by
  have range := host.range
  have size : (Msg.new host).mData.length = host.page := by simp [Msg.new]
  have length : (encode [.str log]).length = 8 + log.length := by
    simp [encode, codec, encodeField, StdString.length]
  have room : HEAD_LENGTH + (encode [.str log]).length ≤ (Msg.new host).mData.length := by omega
  obtain ⟨msg, wrote, holds, same, start⟩ := MsgSequence.fits_writes .page room
  have one : (Msg.new host).writes host [.str log] = logMsg host log := by simp [Msg.writes, logMsg]
  obtain ⟨tail, unread⟩ := MsgSequence.unread_start holds (by omega) start
  have field : encode [.str log] = encodeField .str log := by simp [encode, codec]
  rw [field] at unread
  obtain ⟨next, read, _⟩ := MsgReading.decode_reads unread .str log (decode_encode_field .str log tail)
  exact ⟨msg, next, one.symm.trans wrote, read⟩

/-- A line that fits its message is appended to the file, and counted, when no
`write` fails in time. -/
theorem logged_line_is_appended (host : Host) (logger : ThreadLogger) (log : StdString)
    (fits : HEAD_LENGTH + 8 + log.length ≤ host.page)
    (inTime : ∀ turn, Failed (answers turn) → log.length ≤ counted answers turn) (enough : log.length ≤ turns) :
    ∃ msg, logMsg host log = .ok msg ∧ logger.handleLog msg answers turns =
      .ok { logger with mLogCount := logger.mLogCount + 1, written := logger.written ++ log.bytes } := by
  obtain ⟨msg, next, wrote, read⟩ := log_msg_reads host log fits
  obtain ⟨ended, whole⟩ := ends_in_time inTime enough
  refine ⟨msg, wrote, ?_⟩
  simp only [handleLog, read, ok_then, if_neg ended, whole]
  rfl

/-- A line on its way to the file, and how its calls of `write` are answered. -/
structure Line (host : Host) where
  log : StdString
  answers : Nat → Sendable
  turns : Nat
  fits : HEAD_LENGTH + 8 + log.length ≤ host.page
  inTime : ∀ turn, Failed (answers turn) → log.length ≤ counted answers turn
  enough : log.length ≤ turns

def logged (logger : ThreadLogger) (line : Line host) : Except Fault ThreadLogger := do
  let msg ← logMsg host line.log
  logger.handleLog msg line.answers line.turns

/-- Of all lines in a row, the file holds each once, in order. -/
theorem lines_are_appended (filename : StdString) (lines : List (Line host)) :
    lines.foldlM logged (new filename) =
      .ok ⟨filename, UInt32.ofNat lines.length, lines.flatMap fun line => line.log.bytes⟩ := by
  induction lines using List.reverseRecOn with
  | nil => rfl
  | append_singleton lines line ih =>
    obtain ⟨msg, wrote, handled⟩ := logged_line_is_appended host
      ⟨filename, UInt32.ofNat lines.length, lines.flatMap fun line => line.log.bytes⟩ line.log line.fits line.inTime
        line.enough
    rw [List.foldlM_append, ih, ok_then, List.foldlM_cons, logged, wrote, ok_then, handled]
    simp

end ThreadLogger
end ChatRoom
