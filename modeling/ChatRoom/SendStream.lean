import ChatRoom.ConnectionCalls

/-! The stream that a connection sends. The message at the front of the queue
stays there while it is being sent; two counters say how far it has come. As
long as the kernel refuses no `Send`, what it has taken is the messages that are
gone and so much of the one at the front. -/
namespace ChatRoom.SendStream
open Lib TcpConnection

variable {conn next : TcpConnection} {link final : Link} {msg : Msg} {queued : List Msg} {taken : List UInt8}
  {calls : List Call} {results : List CallResult}

/-! ### What is to be sent, and what was sent -/

/-- The block holds all that is sent of the message. -/
def Whole (msg : Msg) : Prop := 0 ≤ msg.getTotalLen ∧ msg.getTotalLen ≤ msg.mData.length

instance (msg : Msg) : Decidable (Whole msg) := inferInstanceAs (Decidable (_ ∧ _))

/-- The messages given to `Enqueue`, in order. -/
def queuedBy (calls : List Call) : List Msg :=
  calls.filterMap fun
    | .enqueue msg => some msg
    | .read => none
    | .write _ => none

/-- What the kernel has of the message that is being sent. -/
def sentOf (conn : TcpConnection) : List UInt8 :=
  match conn.mCurrentSendMsg with
  | none => []
  | some msg => msg.wireBytes.take conn.mSent.toNat

/-- The message is being sent: it is the first of the queue, and the counters
add up. -/
structure InProgress (conn : TcpConnection) (msg : Msg) : Prop where
  head : conn.mToSendMsg.head? = some msg
  sent : 0 ≤ conn.mSent
  left : 0 ≤ conn.mToSend
  total : conn.mSent + conn.mToSend = msg.getTotalLen

/-- The queue holds what is not sent yet of the messages that were enqueued; the
others are removed, and the kernel has taken all of them. -/
structure InOrder (queued : List Msg) (taken : List UInt8) (conn : TcpConnection) : Prop where
  stream : ∃ removed, queued = removed ++ conn.mToSendMsg ∧
    taken = removed.flatMap Msg.wireBytes ++ sentOf conn
  current : ∀ msg, conn.mCurrentSendMsg = some msg → InProgress conn msg

/-- The stream is a prefix of what was enqueued, also when the connection has
ended; until then it goes as far as the counters say. -/
def Streams (calls : List Call) (results : List CallResult) (conn : TcpConnection) : Prop :=
  Link.takenBy results <+: (queuedBy calls).flatMap Msg.wireBytes ∧
    (conn.mClosed = false → InOrder (queuedBy calls) (Link.takenBy results) conn)

theorem in_order_starts (inOrder : InOrder queued taken conn) : taken <+: queued.flatMap Msg.wireBytes := by
  obtain ⟨removed, split, sent⟩ := inOrder.stream
  rw [split, sent, List.flatMap_append]
  apply (List.prefix_append_right_inj _).mpr
  cases current : conn.mCurrentSendMsg with
  | none =>
    rw [sentOf, current]
    exact List.nil_prefix
  | some msg =>
    rw [sentOf, current]
    obtain ⟨queue, split⟩ : ∃ queue, conn.mToSendMsg = msg :: queue := by
      cases front : conn.mToSendMsg with
      | nil =>
        have head := (inOrder.current msg current).head
        rw [front] at head
        contradiction
      | cons first queue =>
        have head := (inOrder.current msg current).head
        rw [front] at head
        cases head
        exact ⟨queue, rfl⟩
    rw [split, List.flatMap_cons]
    exact (List.take_prefix _ _).trans (List.prefix_append _ _)

/-! ### One call -/

private theorem queue_front (head : conn.mToSendMsg.head? = some msg) :
    conn.mToSendMsg = msg :: conn.mToSendMsg.tail := by
  cases front : conn.mToSendMsg with
  | nil =>
    rw [front] at head
    contradiction
  | cons first queue =>
    rw [front] at head
    cases head
    rfl

private theorem total_range (msg : Msg) : IsInt32 msg.getTotalLen := to_int32_range _

/-- What `InitNextSend` leaves, or an earlier call. -/
theorem picked_in_order {mSent mToSend : Int} (inOrder : InOrder queued taken conn)
    (whole : ∀ msg ∈ queued, Whole msg) (picked : conn.sending = some (msg, mSent, mToSend)) :
    InOrder queued taken { conn with mCurrentSendMsg := some msg, mSent, mToSend } ∧
      InProgress { conn with mCurrentSendMsg := some msg, mSent, mToSend } msg ∧ Whole msg := by
  obtain ⟨removed, split, sent⟩ := inOrder.stream
  rw [sending] at picked
  cases current : conn.mCurrentSendMsg with
  | some first =>
    rw [current] at picked
    cases picked
    have progress := inOrder.current msg current
    have same : { conn with mCurrentSendMsg := some msg, mSent := conn.mSent, mToSend := conn.mToSend } = conn := by
      rw [← current]
    rw [same]
    refine ⟨inOrder, progress, whole msg ?_⟩
    rw [split, queue_front progress.head]
    exact List.mem_append_right _ List.mem_cons_self
  | none =>
    rw [current] at picked
    obtain ⟨first, head, same⟩ := Option.map_eq_some_iff.mp picked
    cases same
    have good : Whole msg := by
      apply whole msg
      rw [split, queue_front head]
      exact List.mem_append_right _ List.mem_cons_self
    have progress : InProgress
        { conn with mCurrentSendMsg := some msg, mSent := 0, mToSend := msg.getTotalLen } msg :=
      ⟨head, le_refl 0, good.1, zero_add _⟩
    refine ⟨⟨⟨removed, split, ?_⟩, fun first same => ?_⟩, progress, good⟩
    · rw [sent, sentOf, current]
      rfl
    · cases same
      exact progress

/-- The counters go on by what the kernel has taken, and a message of which it
has taken all is removed. -/
private theorem advance_in_order {bytes : List UInt8} (inOrder : InOrder queued taken conn)
    (current : conn.mCurrentSendMsg = some msg) (few : bytes.length ≤ conn.mToSend)
    (next_bytes : msg.wireBytes.take (conn.mSent.toNat + bytes.length) =
      msg.wireBytes.take conn.mSent.toNat ++ bytes) :
    ∃ next, conn.advance bytes.length = .ok next ∧ InOrder queued (taken ++ bytes) next := by
  have progress := inOrder.current msg current
  have range := total_range msg
  have sent := progress.sent
  have left := progress.left
  have total := progress.total
  obtain ⟨removed, split, so_far⟩ := inOrder.stream
  rw [sentOf, current] at so_far
  have forward : checkInt (conn.mSent + bytes.length) = .ok (conn.mSent + bytes.length) :=
    check_int_ok.mpr ⟨by unfold IsInt32 at *; omega, rfl⟩
  have fewer : checkInt (conn.mToSend - bytes.length) = .ok (conn.mToSend - bytes.length) :=
    check_int_ok.mpr ⟨by unfold IsInt32 at *; omega, rfl⟩
  have place : (conn.mSent + bytes.length).toNat = conn.mSent.toNat + bytes.length := by omega
  rw [advance, forward]
  simp only [ok_then]
  rw [fewer]
  simp only [ok_then]
  by_cases all : conn.mToSend - bytes.length = 0
  · rw [if_pos all]
    refine ⟨_, rfl, ⟨removed ++ [msg], ?_, ?_⟩, fun _ none => by cases none⟩
    · rw [split, List.append_assoc]
      exact congrArg _ (queue_front progress.head)
    · have length : conn.mSent.toNat + bytes.length = msg.getTotalLen.toNat := by omega
      have complete : msg.wireBytes = msg.wireBytes.take conn.mSent.toNat ++ bytes := by
        rw [← next_bytes, length, Msg.wireBytes, List.take_take, min_self]
      rw [so_far, List.append_assoc, ← complete, List.flatMap_append, List.flatMap_singleton]
      exact (List.append_nil _).symm
  · rw [if_neg all]
    refine ⟨_, rfl, ⟨removed, split, ?_⟩, fun first same => ?_⟩
    · simp only [sentOf, current]
      rw [place, next_bytes, so_far, List.append_assoc]
    · rw [current] at same
      cases same
      refine ⟨progress.head, ?_, ?_, ?_⟩
      · simp only
        omega
      · simp only
        omega
      · simp only
        omega

theorem send_more_in_order {count : Nat} {some : 0 < count} {running : Bool}
    (inOrder : InOrder queued taken conn) (current : conn.mCurrentSendMsg = .some msg) (whole : Whole msg)
    (working : conn.mSocket.noOK = false) :
    ∃ result, conn.sendMore msg running (.accepts count some) = .ok result ∧
      InOrder queued (taken ++ result.taken) result.conn := by
  have progress := inOrder.current msg current
  have range := total_range msg
  have sent := progress.sent
  have left := progress.left
  have total := progress.total
  have inside := whole.2
  have offered : (toSizeT conn.mToSend : Int) = conn.mToSend :=
    to_size_t_nonneg left (by unfold IsInt32 at range; omega)
  obtain ⟨bytes, peeked⟩ : ∃ bytes, peek msg.mData conn.mSent (min count (toSizeT conn.mToSend)) = .ok bytes :=
    ⟨_, peek_ok.mpr ⟨sent, by omega, rfl⟩⟩
  obtain ⟨_, within, which⟩ := peek_ok.mp peeked
  have length : bytes.length = min count (toSizeT conn.mToSend) := by
    rw [which, List.length_take, List.length_drop]
    omega
  have behind : msg.wireBytes.take (conn.mSent.toNat + bytes.length) =
      msg.wireBytes.take conn.mSent.toNat ++ bytes := by
    have fits : min bytes.length (msg.getTotalLen.toNat - conn.mSent.toNat) = bytes.length := by omega
    rw [List.take_add, Msg.wireBytes, List.drop_take]
    apply congrArg _
    rw [List.take_take, fits, length, ← which]
  obtain ⟨next, advanced, inOrder⟩ := advance_in_order inOrder current (by omega) behind
  refine ⟨⟨0, next, bytes, []⟩, ?_, inOrder⟩
  rw [send_more_takes working, peeked]
  simp only [ok_then]
  rw [advanced]
  rfl

/-- The kernel is asked to take bytes, and answers that it would have to wait. -/
def Refused (link : Link) : Call → Prop
  | .write (.fail errno) =>
    errno.Again ∧ (link.conn.mClosed || link.conn.mSocket.noOK) = false ∧ link.conn.sending.isSome
  | .write (.accepts _ _) => False
  | .read => False
  | .enqueue _ => False

instance (link : Link) (call : Call) : Decidable (Refused link call) :=
  match call with
  | .write (.fail errno) => inferInstanceAs (Decidable (errno.Again ∧ _ ∧ _))
  | .write (.accepts _ _) => isFalse not_false
  | .read => isFalse not_false
  | .enqueue _ => isFalse not_false

/-- A call of `WriteData` that is not refused keeps the stream. -/
private theorem write_in_order {answer : Sendable} {running : Bool} (settled : link.conn.Settled)
    (inOrder : link.conn.mClosed = false → InOrder queued taken link.conn) (whole : ∀ msg ∈ queued, Whole msg)
    (accepted : ¬ Refused link (.write answer)) :
    ∃ result, link.conn.writeData running answer = .ok result ∧
      (result.conn.mClosed = true ∧ result.taken = [] ∨
        InOrder queued (taken ++ result.taken) result.conn) := by
  cases ended : link.conn.mClosed || link.conn.mSocket.noOK with
  | true =>
    refine ⟨_, write_data_closed ended, .inl ⟨?_, rfl⟩⟩
    rcases Bool.or_eq_true_iff.mp ended with closed | failed
    · exact closed
    · exact settled.sound failed
  | false =>
    obtain ⟨opened, working⟩ := Bool.or_eq_false_iff.mp ended
    rw [write_data_open ended]
    cases picked : link.conn.sending with
    | none =>
      refine ⟨_, rfl, .inr ?_⟩
      rw [List.append_nil]
      exact inOrder opened
    | some work =>
      obtain ⟨msg, mSent, mToSend⟩ := work
      obtain ⟨inOrder, _, good⟩ := picked_in_order (inOrder opened) whole picked
      cases answer with
      | fail errno =>
        have failed : ¬ errno.Again := fun again => accepted ⟨again, ended, by rw [picked]; rfl⟩
        exact ⟨_, send_more_fails working failed, .inl ⟨by simp, rfl⟩⟩
      | accepts count some =>
        obtain ⟨result, sent, inOrder⟩ := @send_more_in_order _ _ _ _ count some running inOrder rfl good working
        exact ⟨result, sent, .inr inOrder⟩

private theorem enqueue_in_order (inOrder : InOrder queued taken conn) (msg : Msg) :
    InOrder (queued ++ [msg]) taken (conn.enqueue msg) := by
  obtain ⟨removed, split, sent⟩ := inOrder.stream
  refine ⟨⟨removed, by rw [split, List.append_assoc]; rfl, sent⟩, fun first current => ?_⟩
  have progress := inOrder.current first current
  refine ⟨?_, progress.sent, progress.left, progress.total⟩
  rw [enqueue, queue_front progress.head]
  rfl

private theorem read_in_order {running : Bool} {arrivals : List Arrival} {result : ReadResult}
    (settled : conn.Settled) (inOrder : conn.mClosed = false → InOrder queued taken conn)
    (done : conn.readData running arrivals = .ok result) (opened : result.conn.mClosed = false) :
    InOrder queued taken result.conn := by
  rcases read_data_outcomes settled done with ⟨_, ⟨_, _, _, _, same⟩, _⟩ | ⟨ends, _⟩ | ⟨_, ends, _⟩
  · rw [same] at opened ⊢
    have before := inOrder opened
    exact ⟨before.stream, fun msg current => by
      have progress := before.current msg current
      exact ⟨progress.head, progress.sent, progress.left, progress.total⟩⟩
  · rw [ends.closed] at opened
    contradiction
  · rw [ends.closed] at opened
    contradiction

/-! ### Runs -/

/-- What holds after the calls seen so far. -/
structure History (link : Link) (seen : List (Call × CallResult)) : Prop where
  settled : link.conn.Settled
  streams : (∀ msg ∈ queuedBy (seen.map Prod.fst), Whole msg) →
    Streams (seen.map Prod.fst) (seen.map Prod.snd) link.conn

theorem taken_snoc (results : List CallResult) (result : CallResult) :
    Link.takenBy (results ++ [result]) = Link.takenBy results ++ result.taken := by
  simp [Link.takenBy]

theorem queued_snoc (calls : List Call) (call : Call) :
    queuedBy (calls ++ [call]) = queuedBy calls ++ queuedBy [call] := List.filterMap_append

private theorem streams_of_closed (before : Streams calls results conn) (closed : next.mClosed = true)
    (call : Call) (result : CallResult) (nothing : result.taken = []) :
    Streams (calls ++ [call]) (results ++ [result]) next := by
  rw [Streams, taken_snoc, nothing, List.append_nil, queued_snoc, List.flatMap_append]
  exact ⟨before.1.trans (List.prefix_append _ _), fun opened => absurd (closed.symm.trans opened) (by simp)⟩

private theorem streams_of_in_order {result : CallResult} {call : Call}
    (inOrder : InOrder (queuedBy (calls ++ [call])) (Link.takenBy (results ++ [result])) next) :
    Streams (calls ++ [call]) (results ++ [result]) next :=
  ⟨in_order_starts inOrder, fun _ => inOrder⟩

theorem history_step {running : Bool} {seen : List (Call × CallResult)} {call : Call} {after : Link}
    {result : CallResult} (history : History link seen) (accepted : ¬ Refused link call)
    (done : Link.step running link call = .ok (after, result)) : History after (seen ++ [(call, result)]) := by
  have settled := history.settled
  have earlier : (∀ msg ∈ queuedBy ((seen ++ [(call, result)]).map Prod.fst), Whole msg) →
      ∀ msg ∈ queuedBy (seen.map Prod.fst), Whole msg := by
    intro whole msg queued
    apply whole msg
    rw [List.map_append, List.map_singleton, queued_snoc]
    exact List.mem_append_left _ queued
  cases call with
  | read =>
    obtain ⟨read, reads, same⟩ := bind_ok.mp done
    cases same
    refine ⟨settled_read settled reads, fun whole => ?_⟩
    have before := history.streams (earlier whole)
    rw [List.map_append, List.map_append]
    cases opened : read.conn.mClosed with
    | true => exact streams_of_closed before opened .read _ rfl
    | false =>
      apply streams_of_in_order
      rw [queued_snoc, taken_snoc, List.append_nil]
      exact (List.append_nil (queuedBy _)).symm ▸ read_in_order settled before.2 reads opened
  | write answer =>
    obtain ⟨written, writes, same⟩ := bind_ok.mp done
    cases same
    refine ⟨settled_write settled writes, fun whole => ?_⟩
    have before := history.streams (earlier whole)
    obtain ⟨written', writes', outcome⟩ :=
      @write_in_order _ _ _ answer running settled before.2 (earlier whole) accepted
    rw [writes] at writes'
    cases writes'
    rw [List.map_append, List.map_append]
    rcases outcome with ⟨closed, nothing⟩ | inOrder
    · exact streams_of_closed before closed (.write answer) _ nothing
    · apply streams_of_in_order
      rw [queued_snoc, taken_snoc]
      exact (List.append_nil (queuedBy _)).symm ▸ inOrder
  | enqueue msg =>
    cases done
    refine ⟨settled_enqueue settled, fun whole => ?_⟩
    have before := history.streams (earlier whole)
    rw [List.map_append, List.map_append]
    cases opened : link.conn.mClosed with
    | true =>
      have closed : (link.conn.enqueue msg).mClosed = true := opened
      exact streams_of_closed before closed (.enqueue msg) ⟨[], []⟩ rfl
    | false =>
      apply streams_of_in_order
      rw [queued_snoc, taken_snoc, List.append_nil]
      exact enqueue_in_order (before.2 opened) msg

/-- As long as no `Send` is refused: in every state reached, the kernel has taken
a prefix of the messages in the order of `Enqueue`, the counters add up to the
length of the message being sent, and a message is removed when all of it was
taken. The next call of `Enqueue` or `WriteData` goes through. -/
theorem unrefused_stream_is_in_order {socket : TcpSocket} {running : Bool} {arrivals : List Arrival} {id : UInt64}
    (working : socket.noOK = false)
    (ran : run (Link.step running) ⟨TcpConnection.new socket id, arrivals⟩ calls = .ok (final, results))
    (whole : ∀ msg ∈ queuedBy calls, Whole msg)
    (accepted : EveryStep (Link.step running) (fun link call => ¬ Refused link call)
      ⟨TcpConnection.new socket id, arrivals⟩ calls) :
    Streams calls results final.conn ∧
      ∀ call, call ≠ .read → ¬ Refused final call →
        ∃ next result, Link.step running final call = .ok (next, result) := by
  have begins : InOrder [] [] (TcpConnection.new socket id) := ⟨⟨[], rfl, rfl⟩, fun _ none => nomatch none⟩
  have start : History ⟨TcpConnection.new socket id, arrivals⟩ [] :=
    ⟨settled_new working, fun _ => ⟨List.nil_prefix, fun _ => begins⟩⟩
  have history := run_history History
    (fun _ _ _ _ _ held meets taken => history_step held meets taken) start accepted ran
  have lengths := run_length ran
  have all_calls : (calls.zip results).map Prod.fst = calls := List.map_fst_zip (Nat.le_of_eq lengths.symm)
  have all_results : (calls.zip results).map Prod.snd = results := List.map_snd_zip (Nat.le_of_eq lengths)
  have streams := history.streams
  rw [all_calls, all_results] at streams
  refine ⟨streams whole, fun call unread unrefused => ?_⟩
  cases call with
  | read => contradiction
  | write answer =>
    obtain ⟨result, written, _⟩ :=
      @write_in_order _ _ _ answer running history.settled (streams whole).2 whole unrefused
    exact ⟨_, _, by rw [Link.step, written]; rfl⟩
  | enqueue msg => exact ⟨_, _, rfl⟩

/-- A message with four bytes of payload. -/
def note : Msg := ⟨[0, 0, 0, 4, 0, 0, 0, 0, 1, 2, 3, 4], 0, 4, 12⟩

private def client : TcpSocket := TcpSocket.accepted (.ascii "h") 80 7

/-- It goes out in two parts, and another one behind it. -/
theorem two_notes_are_in_order :
    ∃ final results, run (Link.step true) ⟨TcpConnection.new client 1, []⟩
        [.enqueue note, .write (.accepts 9 (by decide)), .enqueue note, .write (.accepts 12 (by decide)),
          .write (.accepts 5 (by decide))] = .ok (final, results) ∧
      InOrder [note, note] (Link.takenBy results) final.conn ∧ (Link.takenBy results).length = 17 := by
  have goes : (run (Link.step true) ⟨TcpConnection.new client 1, []⟩
      [.enqueue note, .write (.accepts 9 (by decide)), .enqueue note, .write (.accepts 12 (by decide)),
        .write (.accepts 5 (by decide))]).toOption.map
      (fun reply => (reply.1.conn.mClosed, (Link.takenBy reply.2).length)) = some (false, 17) := by
    decide +kernel
  obtain ⟨⟨final, results⟩, ran, same⟩ := Option.map_eq_some_iff.mp goes
  obtain ⟨opened, length⟩ := Prod.mk.injEq .. ▸ same
  have done := ok_of_option ran
  have streams := (unrefused_stream_is_in_order rfl done (by decide) (by decide +kernel)).1
  exact ⟨final, results, done, streams.2 opened, length⟩

/-- The kernel takes nine bytes and then has to wait once: the counters go one
byte back, and the peer gets the last of the nine a second time. -/
theorem a_refused_send_repeats_a_byte :
    ∃ final results, run (Link.step true) ⟨TcpConnection.new client 1, []⟩
        [.enqueue note, .write (.accepts 9 (by decide)), .write (.fail .again),
          .write (.accepts 12 (by decide))] = .ok (final, results) ∧
      (∀ msg ∈ [note], Whole msg) ∧
      Link.takenBy results = [0, 0, 0, 4, 0, 0, 0, 0, 1, 1, 2, 3, 4] ∧
      ¬ Link.takenBy results <+: [note].flatMap Msg.wireBytes := by
  have goes : (run (Link.step true) ⟨TcpConnection.new client 1, []⟩
      [.enqueue note, .write (.accepts 9 (by decide)), .write (.fail .again),
        .write (.accepts 12 (by decide))]).toOption.map
      (fun reply => Link.takenBy reply.2) = some [0, 0, 0, 4, 0, 0, 0, 0, 1, 1, 2, 3, 4] := by
    decide +kernel
  obtain ⟨⟨final, results⟩, ran, taken⟩ := Option.map_eq_some_iff.mp goes
  dsimp only at taken
  refine ⟨final, results, ok_of_option ran, by decide, taken, ?_⟩
  rw [taken]
  decide

end ChatRoom.SendStream
