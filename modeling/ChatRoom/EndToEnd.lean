import ChatRoom.FrameReassembly
import ChatRoom.SendStream
import ChatRoom.ProtocolRoundTrip
import Mathlib.Logic.Function.Basic

/-! A connection from end to end. Each party has a `TcpConnection` on its side; what
one kernel takes is on its way until the other hands it out, in pieces that are no
choice of the program's. The calls of both parties and the network take turns in any
order. As long as no `Send` is refused, each party is handed the messages that the
other has enqueued, each once, in their order and byte for byte. -/
namespace ChatRoom.EndToEnd
open Lib TcpConnection TcpSocket Arrival FrameReassembly SendStream

/-! ### Two parties -/

inductive Party where
  | client
  | server
  deriving DecidableEq

namespace Party

def peer : Party → Party
  | client => server
  | server => client

@[simp] theorem peer_peer (party : Party) : party.peer.peer = party := by cases party <;> rfl

@[simp] theorem peer_ne (party : Party) : party.peer ≠ party := by cases party <;> simp [peer]

@[simp] theorem ne_peer (party : Party) : party ≠ party.peer := by cases party <;> simp [peer]

/-- What holds of a party and of its peer holds of both. -/
theorem both {holds : Party → Prop} (party : Party) (here : holds party) (there : holds party.peer) (other : Party) :
    holds other := by
  cases party <;> cases other <;> assumption

end Party

/-- The connection of each party, and the bytes that are on their way to it. -/
structure Session where
  link : Party → Link
  inFlight : Party → List UInt8

/-- A call of one party, or what the network does: it hands over some of the bytes
that are on their way, and its answer to a `recv` may be an error or, once the other
party has closed and all bytes have come, the end of the stream. -/
inductive Act where
  | call (party : Party) (call : Call)
  | carry (party : Party) (count : Nat)
  | fails (party : Party) (errno : Errno)
  | hangUp (party : Party)

namespace Session

/-- What waits in a party's kernel grows. -/
def arrive (session : Session) (party : Party) (more : List Arrival) (inFlight : List UInt8) : Session where
  link := Function.update session.link party
    { session.link party with arrivals := (session.link party).arrivals ++ more }
  inFlight := Function.update session.inFlight party inFlight

/-- What a party's kernel has taken is on its way to the other. -/
def sent (session : Session) (party : Party) (link : Link) (bytes : List UInt8) : Session where
  link := Function.update session.link party link
  inFlight := Function.update session.inFlight party.peer (session.inFlight party.peer ++ bytes)

def step (session : Session) : Act → Except Fault (Session × CallResult)
  | .call party call => do
    let (link, result) ← Link.step true (session.link party) call
    return (session.sent party link result.taken, result)
  | .carry party count =>
    let bytes := session.inFlight party
    if some : bytes.take count ≠ [] then
      .ok (session.arrive party [.data (bytes.take count) some] (bytes.drop count), ⟨[], []⟩)
    else .ok (session, ⟨[], []⟩)
  | .fails party errno => .ok (session.arrive party [.fail errno] (session.inFlight party), ⟨[], []⟩)
  | .hangUp party =>
    if (session.link party.peer).conn.mClosed = true ∧ session.inFlight party = [] then
      .ok (session.arrive party [.fin] [], ⟨[], []⟩)
    else .ok (session, ⟨[], []⟩)

variable (session : Session) (party : Party) (link : Link) (more : List Arrival) (bytes : List UInt8)

@[simp] theorem arrive_link : (session.arrive party more bytes).link party =
    { session.link party with arrivals := (session.link party).arrivals ++ more } := Function.update_self ..

@[simp] theorem arrive_flight : (session.arrive party more bytes).inFlight party = bytes := Function.update_self ..

@[simp] theorem arrive_link_peer : (session.arrive party more bytes).link party.peer = session.link party.peer :=
  Function.update_of_ne party.peer_ne ..

@[simp] theorem arrive_flight_peer : (session.arrive party more bytes).inFlight party.peer = session.inFlight party.peer :=
  Function.update_of_ne party.peer_ne ..

@[simp] theorem sent_link : (session.sent party link bytes).link party = link := Function.update_self ..

@[simp] theorem sent_flight : (session.sent party link bytes).inFlight party = session.inFlight party :=
  Function.update_of_ne party.ne_peer ..

@[simp] theorem sent_link_peer : (session.sent party link bytes).link party.peer = session.link party.peer :=
  Function.update_of_ne party.peer_ne ..

@[simp] theorem sent_flight_peer :
    (session.sent party link bytes).inFlight party.peer = session.inFlight party.peer ++ bytes := Function.update_self ..

/-- Nothing has been sent yet. -/
structure Fresh (session : Session) : Prop where
  new : ∀ party, ∃ socket id, socket.noOK = false ∧ socket.mPreRecv = false ∧
    session.link party = ⟨TcpConnection.new socket id, []⟩
  none : ∀ party, session.inFlight party = []

/-- A party calls `WriteData`, and its kernel answers that it would have to wait. -/
def Refuses (session : Session) : Act → Prop
  | .call party call => Refused (session.link party) call
  | .carry _ _ => False
  | .fails _ _ => False
  | .hangUp _ => False

instance (session : Session) (act : Act) : Decidable (session.Refuses act) :=
  match act with
  | .call party call => inferInstanceAs (Decidable (Refused (session.link party) call))
  | .carry _ _ => isFalse not_false
  | .fails _ _ => isFalse not_false
  | .hangUp _ => isFalse not_false

end Session

/-! ### What was said and what was heard -/

/-- The calls of one party, and what they returned. -/
def callsOf (party : Party) (seen : List (Act × CallResult)) : List (Call × CallResult) :=
  seen.filterMap fun
    | (.call other call, result) => if other = party then some (call, result) else none
    | (.carry _ _, _) => none
    | (.fails _ _, _) => none
    | (.hangUp _, _) => none

/-- The messages that a party enqueues. -/
def saidBy (party : Party) (acts : List Act) : List Msg :=
  acts.filterMap fun
    | .call other (.enqueue msg) => if other = party then some msg else none
    | .call _ .read => none
    | .call _ (.write _) => none
    | .carry _ _ => none
    | .fails _ _ => none
    | .hangUp _ => none

/-- The bytes that a party's kernel has taken. -/
def takenFrom (party : Party) (seen : List (Act × CallResult)) : List UInt8 :=
  Link.takenBy ((callsOf party seen).map Prod.snd)

/-- A message, not the report of a lost connection. -/
def isRecv : OperContext → Bool
  | .recv _ _ _ _ => true
  | .accept _ => false
  | .send _ _ => false
  | .drop _ => false

/-- The messages that a party's logic service was handed. -/
def heardBy (party : Party) (seen : List (Act × CallResult)) : List OperContext :=
  (Link.enqueuedBy ((callsOf party seen).map Prod.snd)).filter isRecv

/-- The block holds the whole message, with its length in front. -/
structure Framed (msg : Msg) : Prop where
  whole : Whole msg
  frame : ∃ frame : Frame, msg.wireBytes = frame.wire

/-- The message that comes out at the other end: the same bytes in a block of just
that size, to be read from the start. -/
def arrived (msg : Msg) : Msg := ⟨msg.wireBytes, 0, 0, msg.wireBytes.length⟩

/-- A message that a party's service is handed. -/
def handed (conn : TcpConnection) (msg : Msg) : OperContext :=
  .recv (arrived msg) conn.mConnID conn.mSocket.mIP conn.mSocket.mPort

/-! ### The receiving party -/

/-- How far a party has come: the frames `done` were handed over, `part` of the next
one has been read, and the rest of what was sent waits in the kernel or is on its
way. What comes behind an end of the stream is lost. -/
structure Follows (first : TcpConnection) (frames : List Frame) (taken inFlight : List UInt8)
    (heard : List OperContext) (link : Link) (done todo : List Frame) (part lost : List UInt8) : Prop where
  frames : frames = done ++ todo
  heard : heard = done.map (received first)
  peer : SamePeer first link.conn
  working : Open link.conn
  here : part = [] ∧ Between link.conn ∨
    ∃ frame others, todo = frame :: others ∧ Filled link.conn frame part ∧ part.length < frame.wire.length
  stream : done.flatMap Frame.wire ++ (part ++ (bytesOf link.arrivals ++ lost)) = taken
  flight : ending link.arrivals = none → lost = inFlight

/-- The party's connection has failed; it was handed a first part of the frames. -/
structure Ended (first : TcpConnection) (frames : List Frame) (heard : List OperContext) (link : Link) : Prop where
  dead : link.conn.mSocket.noOK = true
  heard : ∃ done todo, frames = done ++ todo ∧ heard = done.map (received first)

def Receives (first : TcpConnection) (frames : List Frame) (taken inFlight : List UInt8) (heard : List OperContext)
    (link : Link) : Prop :=
  (∃ done todo part lost, Follows first frames taken inFlight heard link done todo part lost) ∨
    Ended first frames heard link

variable {first : TcpConnection} {frames done todo : List Frame} {taken inFlight part lost : List UInt8}
  {heard : List OperContext} {link next : Link} {call : Call} {result : CallResult}

private theorem receives_sent (receives : Receives first frames taken inFlight heard link) (more : List Frame)
    (bytes : List UInt8) : Receives first (frames ++ more) (taken ++ bytes) (inFlight ++ bytes) heard link := by
  rcases receives with ⟨done, todo, part, lost, follows⟩ | ⟨dead, done, todo, split, heard⟩
  · refine .inl ⟨done, todo ++ more, part, lost ++ bytes, ?_, follows.heard, follows.peer, follows.working, ?_, ?_, ?_⟩
    · rw [follows.frames, List.append_assoc]
    · rcases follows.here with start | ⟨frame, others, rest, filled, short⟩
      · exact .inl start
      · exact .inr ⟨frame, others ++ more, by rw [rest, List.cons_append], filled, short⟩
    · rw [← follows.stream]
      simp only [List.append_assoc]
    · exact fun open_ => by rw [follows.flight open_]
  · exact .inr ⟨dead, done, todo ++ more, by rw [split, List.append_assoc], heard⟩

private theorem receives_arrivals {more : List Arrival} {rest : List UInt8}
    (receives : Receives first frames taken inFlight heard link) (split : inFlight = bytesOf more ++ rest) :
    Receives first frames taken rest heard { link with arrivals := link.arrivals ++ more } := by
  rcases receives with ⟨done, todo, part, lost, follows⟩ | ⟨dead, heard⟩
  · refine .inl ⟨done, todo, part, if ending link.arrivals = none then rest else lost, follows.frames, follows.heard,
      follows.peer, follows.working, follows.here, ?_, ?_⟩
    · rw [← follows.stream, bytes_of_append]
      cases last : ending link.arrivals with
      | none => simp only [if_true, follows.flight last, split, List.append_assoc]
      | some _ => simp
    · intro still
      rw [ending_append, Option.or_eq_none_iff] at still
      rw [if_pos still.1]
  · exact .inr ⟨dead, heard⟩

/-- What has come and what is still to come are a part of the frames to do. -/
private theorem follows_starts (follows : Follows first frames taken inFlight heard link done todo part lost)
    (sent : taken <+: frames.flatMap Frame.wire) : part ++ bytesOf link.arrivals <+: todo.flatMap Frame.wire := by
  rw [← follows.stream, follows.frames, List.flatMap_append, List.prefix_append_right_inj, ← List.append_assoc] at sent
  exact (List.prefix_append _ _).trans sent

/-- A frame like no other. -/
private def anyFrame : Frame := .carrying [0, 0, 0, 0] (le_refl 4) (by simp)

/-- The frame that the next bytes belong to, if there is one. -/
private theorem follows_here (follows : Follows first frames taken inFlight heard link done todo part lost)
    (sent : taken <+: frames.flatMap Frame.wire) :
    ∃ frame, (∀ head ∈ todo.head?, head = frame) ∧ At link.conn frame part ∧
      Meets frame (part ++ bytesOf link.arrivals) := by
  have starts := follows_starts follows sent
  cases left : todo with
  | nil =>
    rw [left, List.flatMap_nil, List.prefix_nil] at starts
    rcases follows.here with ⟨none, between⟩ | ⟨frame, others, some, _⟩
    · exact ⟨anyFrame, (fun _ none => nomatch none), .inl ⟨none, between⟩, .inr (starts ▸ List.nil_prefix)⟩
    · cases left.symm.trans some
  | cons frame others =>
    rw [left, List.flatMap_cons] at starts
    refine ⟨frame, fun _ head => (Option.some.inj head).symm, ?_, ?_⟩
    · rcases follows.here with start | ⟨first, rest, some, filled⟩
      · exact .inl start
      · cases left.symm.trans some
        exact .inr filled
    · exact (List.prefix_or_prefix_of_prefix starts (List.prefix_append frame.wire _)).symm

/-- A call of `ReadData`: it waits for more of a frame, goes on in the stream, or
meets its end. -/
private theorem follows_read (settled : link.conn.Settled)
    (follows : Follows first frames taken inFlight heard link done todo part lost)
    (sent : taken <+: frames.flatMap Frame.wire) :
    (link.conn.readData true link.arrivals = .error .blocked ∧ ending link.arrivals = none ∧
      ∀ frame ∈ todo.head?, (part ++ bytesOf link.arrivals).length < frame.wire.length) ∨
    ∃ read, link.conn.readData true link.arrivals = .ok read ∧
      ((∃ done todo part, Follows first frames taken inFlight (heard ++ read.enqueued.filter isRecv)
          ⟨read.conn, read.rest⟩ done todo part lost ∧ ending read.rest = ending link.arrivals ∧
          weight read.rest < weight link.arrivals) ∨
        Ended first frames (heard ++ read.enqueued.filter isRecv) ⟨read.conn, read.rest⟩ ∧
          (ending link.arrivals).isSome) := by
  obtain ⟨frame, head, here, meets⟩ := follows_here follows sent
  rcases read_data_cases here follows.working meets with
    ⟨waits, last, short⟩ | ⟨conn, more, rest, read, here, forward⟩ | ⟨conn, rest, read, between, forward⟩ |
    ⟨err, conn, rest, read, last, _, _, _⟩
  · exact .inl ⟨waits, last, fun other which => by rw [head other which]; exact short⟩
  · refine .inr ⟨_, read, .inl ⟨done, todo, more, ⟨follows.frames, ?_, follows.peer.trans forward.peer, forward.working,
      ?_, ?_, fun open_ => follows.flight (forward.ending.symm.trans open_)⟩, forward.ending, forward.less⟩⟩
    · rw [follows.heard]
      exact List.append_nil _
    · rcases here with start | ⟨filled, short⟩
      · exact .inl start
      · cases left : todo with
        | nil =>
          have starts := follows_starts follows sent
          rw [left, List.flatMap_nil, List.prefix_nil, ← forward.stream, List.append_eq_nil_iff] at starts
          have begun := filled.begun
          rw [starts.1] at begun
          contradiction
        | cons other others =>
          rw [head other (by rw [left]; rfl)]
          exact .inr ⟨frame, others, rfl, filled, short⟩
    · rw [← follows.stream, ← List.append_assoc more, forward.stream, List.append_assoc]
  · cases left : todo with
    | nil =>
      have starts := follows_starts follows sent
      rw [left, List.flatMap_nil, List.prefix_nil, ← forward.stream, List.append_eq_nil_iff] at starts
      have size := wire_length frame
      rw [starts.1] at size
      contradiction
    | cons other others =>
      have same := head other (by rw [left]; rfl)
      subst same
      refine .inr ⟨_, read, .inl ⟨done ++ [other], others, [], ⟨?_, ?_, follows.peer.trans forward.peer, forward.working,
        .inl ⟨rfl, between⟩, ?_, fun open_ => follows.flight (forward.ending.symm.trans open_)⟩, forward.ending,
        forward.less⟩⟩
      · rw [follows.frames, left, List.append_assoc]
        rfl
      · rw [follows.heard, received_same follows.peer, List.map_append]
        rfl
      · rw [← follows.stream, ← List.append_assoc part, ← forward.stream, List.flatMap_append, List.flatMap_singleton,
          List.nil_append, List.append_assoc, List.append_assoc]
  · refine .inr ⟨_, read, .inr ⟨⟨?_, done, todo, follows.frames, ?_⟩, last⟩⟩
    · rcases read_data_outcomes settled read with ⟨_, _, _, none | ⟨msg, handed⟩⟩ | ⟨fails, _⟩ | ⟨_, _, none⟩
      · cases none
      · cases handed
      · exact fails.dead
      · cases none
    · rw [follows.heard]
      exact List.append_nil _

/-- A call of either kind, as the service above sees it. -/
private theorem step_called (settled : link.conn.Settled) (done : Link.step true link call = .ok (next, result)) :
    link.conn.Called next.conn result.enqueued := by
  cases call with
  | read =>
    obtain ⟨read, reads, same⟩ := bind_ok.mp done
    cases same
    exact called_read settled reads
  | write answer =>
    obtain ⟨written, writes, same⟩ := bind_ok.mp done
    cases same
    exact called_write settled writes
  | enqueue msg =>
    cases done
    exact ⟨rfl, settled_enqueue settled, id, .inl rfl⟩

/-- Nothing is heard over a connection that has failed. -/
private theorem ended_call (settled : link.conn.Settled) (ended : Ended first frames heard link)
    (done : Link.step true link call = .ok (next, result)) :
    Ended first frames (heard ++ result.enqueued.filter isRecv) next := by
  obtain ⟨_, _, still, outcome⟩ := step_called settled done
  refine ⟨still ended.dead, ?_⟩
  rcases outcome with none | ⟨working, _⟩ | ⟨_, reported⟩
  · rw [none, List.filter_nil, List.append_nil]
    exact ended.heard
  · cases ended.dead.symm.trans working
  · rw [reported, List.filter_cons_of_neg (by simp [isRecv]), List.filter_nil, List.append_nil]
    exact ended.heard

/-- Whatever a party does that keeps its receiving half leaves it where it stands. -/
private theorem follows_sends {mToSend mSent : Int} {mCurrentSendMsg : Option Msg} {mToSendMsg : List Msg}
    (follows : Follows first frames taken inFlight heard link done todo part lost) :
    Follows first frames taken inFlight heard
      { link with conn := { link.conn with mToSend, mSent, mCurrentSendMsg, mToSendMsg } } done todo part lost := by
  refine ⟨follows.frames, follows.heard, ⟨follows.peer.id, follows.peer.ip, follows.peer.port⟩,
    ⟨follows.working.socket, follows.working.conn⟩, ?_, follows.stream, follows.flight⟩
  rcases follows.here with ⟨none, between⟩ | ⟨frame, others, some, filled, missing⟩
  · exact .inl ⟨none, between.toRecv, between.recved, between.msg, between.preRecv⟩
  · exact .inr ⟨frame, others, some,
      ⟨filled.begun, filled.front, filled.toRecv, filled.recved, filled.preRecv, filled.msg⟩, missing⟩

/-- A call of the party itself. -/
private theorem receives_call (settled : link.conn.Settled) (receives : Receives first frames taken inFlight heard link)
    (sent : taken <+: frames.flatMap Frame.wire) (did : Link.step true link call = .ok (next, result)) :
    Receives first frames taken inFlight (heard ++ result.enqueued.filter isRecv) next := by
  rcases receives with ⟨done, todo, part, lost, follows⟩ | ended
  · cases call with
    | read =>
      obtain ⟨read, reads, same⟩ := bind_ok.mp did
      cases same
      rcases follows_read settled follows sent with ⟨waits, _⟩ | ⟨read', reads', outcome⟩
      · cases reads.symm.trans waits
      · cases reads.symm.trans reads'
        rcases outcome with ⟨done, todo, part, after, _⟩ | ⟨ended, _⟩
        · exact .inl ⟨done, todo, part, lost, after⟩
        · exact .inr ended
    | write answer =>
      obtain ⟨written, writes, same⟩ := bind_ok.mp did
      cases same
      rcases write_data_cases writes with ⟨nothing, _, _, _, _, same⟩ | ⟨_, reported, _, _, _, dead⟩
      · simp only [nothing, same, List.filter_nil, List.append_nil]
        exact .inl ⟨done, todo, part, lost, follows_sends follows⟩
      · refine .inr ⟨dead, done, todo, follows.frames, ?_⟩
        rw [follows.heard, reported]
        exact List.append_nil _
    | enqueue msg =>
      cases did
      rw [List.filter_nil, List.append_nil]
      exact .inl ⟨done, todo, part, lost, follows_sends follows⟩
  · exact .inr (ended_call settled ended did)

/-! ### Both parties -/

variable {session after final : Session} {seen : List (Act × CallResult)} {act : Act} {party : Party}

/-- The messages that a party has enqueued, as its connection knows them. -/
private def saidIn (party : Party) (seen : List (Act × CallResult)) : List Msg :=
  queuedBy ((callsOf party seen).map Prod.fst)

private theorem said_in_eq (party : Party) (seen : List (Act × CallResult)) :
    saidIn party seen = saidBy party (seen.map Prod.fst) := by
  induction seen with
  | nil => rfl
  | cons entry seen ih =>
    obtain ⟨act, result⟩ := entry
    cases act with
    | call other call =>
      by_cases same : other = party <;> cases call <;> simp_all [saidIn, saidBy, callsOf, queuedBy]
    | carry => exact ih
    | fails => exact ih
    | hangUp => exact ih

private theorem calls_of_self (seen : List (Act × CallResult)) (party : Party) (call : Call) (result : CallResult) :
    callsOf party (seen ++ [(.call party call, result)]) = callsOf party seen ++ [(call, result)] := by
  simp [callsOf]

private theorem calls_of_peer (seen : List (Act × CallResult)) (party : Party) (call : Call) (result : CallResult) :
    callsOf party.peer (seen ++ [(.call party call, result)]) = callsOf party.peer seen := by
  simp [callsOf]

/-- What holds after the acts seen so far: each party sends what it has enqueued,
and follows what the other one sends. -/
private structure Joint (first : Party → TcpConnection) (session : Session) (seen : List (Act × CallResult)) : Prop where
  sends : ∀ party, SendStream.History (session.link party) (callsOf party seen)
  receives : (∀ party, ∀ msg ∈ saidIn party seen, Framed msg) → ∀ party frames,
    frames.map Frame.wire = (saidIn party.peer seen).map Msg.wireBytes →
    Receives (first party) frames (takenFrom party.peer seen) (session.inFlight party) (heardBy party seen)
      (session.link party)

/-- The kernel has taken a first part of the frames. -/
private theorem taken_starts {firsts : Party → TcpConnection} (joint : Joint firsts session seen)
    (framed : ∀ msg ∈ saidIn party seen, Framed msg)
    (which : frames.map Frame.wire = (saidIn party seen).map Msg.wireBytes) :
    takenFrom party seen <+: frames.flatMap Frame.wire := by
  have streams := ((joint.sends party).streams fun msg said => (framed msg said).whole).1
  rwa [List.flatMap_def, ← saidIn, ← which, ← List.flatMap_def] at streams

private theorem joint_arrive {firsts : Party → TcpConnection} {more : List Arrival} {rest : List UInt8}
    (joint : Joint firsts session seen) (split : session.inFlight party = bytesOf more ++ rest)
    (silent : ∀ party, callsOf party (seen ++ [(act, result)]) = callsOf party seen) :
    Joint firsts (session.arrive party more rest) (seen ++ [(act, result)]) := by
  refine ⟨party.both ?_ ?_, fun framed => party.both ?_ ?_⟩
  · rw [silent, Session.arrive_link]
    exact ⟨(joint.sends party).settled, (joint.sends party).streams⟩
  · rw [silent, Session.arrive_link_peer]
    exact joint.sends party.peer
  · intro frames which
    simp only [saidIn, takenFrom, heardBy, silent] at framed which ⊢
    rw [Session.arrive_link, Session.arrive_flight]
    exact receives_arrivals (joint.receives framed party frames which) split
  · intro frames which
    simp only [saidIn, takenFrom, heardBy, silent] at framed which ⊢
    rw [Session.arrive_link_peer, Session.arrive_flight_peer]
    exact joint.receives framed party.peer frames which

private theorem joint_call {firsts : Party → TcpConnection} (joint : Joint firsts session seen)
    (accepted : ¬ Refused (session.link party) call) (did : Link.step true (session.link party) call = .ok (next, result)) :
    Joint firsts (session.sent party next result.taken) (seen ++ [(.call party call, result)]) := by
  have said_more : saidIn party (seen ++ [(.call party call, result)]) = saidIn party seen ++ queuedBy [call] := by
    rw [saidIn, calls_of_self, List.map_append, List.map_singleton, queued_snoc, saidIn]
  have said_peer : saidIn party.peer (seen ++ [(.call party call, result)]) = saidIn party.peer seen := by
    rw [saidIn, calls_of_peer, saidIn]
  have earlier (framed : ∀ other, ∀ msg ∈ saidIn other (seen ++ [(.call party call, result)]), Framed msg) :
      ∀ other, ∀ msg ∈ saidIn other seen, Framed msg := by
    refine party.both ?_ ?_
    · intro msg said
      exact framed party msg (by rw [said_more]; exact List.mem_append_left _ said)
    · intro msg said
      exact framed party.peer msg (by rw [said_peer]; exact said)
  refine ⟨party.both ?_ ?_, fun framed => party.both ?_ ?_⟩
  · rw [Session.sent_link, calls_of_self]
    exact SendStream.history_step (joint.sends party) accepted did
  · rw [Session.sent_link_peer, calls_of_peer]
    exact joint.sends party.peer
  · intro frames which
    rw [said_peer] at which
    have receives := joint.receives (earlier framed) party frames which
    have starts := taken_starts joint (earlier framed party.peer) which
    have grown : heardBy party (seen ++ [(.call party call, result)]) = heardBy party seen ++
        result.enqueued.filter isRecv := by
      simp [heardBy, calls_of_self, Link.enqueuedBy]
    rw [takenFrom, calls_of_peer, ← takenFrom, grown, Session.sent_link, Session.sent_flight]
    exact receives_call (joint.sends party).settled receives starts did
  · intro frames which
    rw [Party.peer_peer, said_more, List.map_append, List.map_eq_append_iff] at which
    obtain ⟨old, new, rfl, which, _⟩ := which
    have receives := joint.receives (earlier framed) party.peer old (by rw [Party.peer_peer]; exact which)
    rw [Party.peer_peer] at receives ⊢
    have grown : takenFrom party (seen ++ [(.call party call, result)]) = takenFrom party seen ++ result.taken := by
      rw [takenFrom, calls_of_self, List.map_append, List.map_singleton, taken_snoc, takenFrom]
    rw [grown, heardBy, calls_of_peer, ← heardBy, Session.sent_link_peer, Session.sent_flight_peer]
    exact receives_sent receives new result.taken

private theorem joint_step {firsts : Party → TcpConnection} (joint : Joint firsts session seen)
    (accepted : ¬ session.Refuses act) (did : session.step act = .ok (after, result)) :
    Joint firsts after (seen ++ [(act, result)]) := by
  cases act with
  | call party call =>
    obtain ⟨⟨link, output⟩, called, same⟩ := bind_ok.mp did
    cases same
    exact joint_call joint accepted called
  | carry party count =>
    simp only [Session.step] at did
    split at did
    · cases did
      exact joint_arrive joint (by simp [bytesOf]) fun _ => by simp [callsOf]
    · cases did
      exact ⟨by simpa [callsOf] using joint.sends, by simpa [saidIn, takenFrom, heardBy, callsOf] using joint.receives⟩
  | fails party errno =>
    cases did
    exact joint_arrive joint (by simp [bytesOf]) fun _ => by simp [callsOf]
  | hangUp party =>
    simp only [Session.step] at did
    split at did
    next ended =>
      cases did
      exact joint_arrive joint (by simp [bytesOf, ended.2]) fun _ => by simp [callsOf]
    · cases did
      exact ⟨by simpa [callsOf] using joint.sends, by simpa [saidIn, takenFrom, heardBy, callsOf] using joint.receives⟩

private theorem joint_fresh (fresh : session.Fresh) : Joint (fun party => (session.link party).conn) session [] := by
  refine ⟨fun party => ?_, fun _ party frames which => ?_⟩
  · obtain ⟨socket, id, working, _, new⟩ := fresh.new party
    rw [new]
    exact ⟨settled_new working, fun _ => ⟨List.nil_prefix, fun _ => ⟨⟨[], rfl, rfl⟩, fun _ none => nomatch none⟩⟩⟩
  · obtain ⟨socket, id, working, unread, new⟩ := fresh.new party
    have none : frames = [] := List.map_eq_nil_iff.mp which
    subst none
    rw [new, fresh.none]
    exact .inl ⟨[], [], [], [], rfl, rfl, ⟨rfl, rfl, rfl⟩, ⟨working, rfl⟩, .inl ⟨rfl, rfl, rfl, rfl, unread⟩, rfl,
      fun _ => rfl⟩

/-! ### Going on -/

/-- Both connections are open, and nothing but bytes waits for them. -/
def Session.Alive (session : Session) : Prop :=
  ∀ party, (session.link party).conn.mClosed = false ∧ ending (session.link party).arrivals = none

/-- What brings messages across: calls of `ReadData`, calls of `WriteData` that the
kernel answers by taking bytes, and bytes handed over. -/
inductive Onward : Act → Prop
  | read (party : Party) : Onward (.call party .read)
  | write (party : Party) (count : Nat) (some : 0 < count) : Onward (.call party (.write (.accepts count some)))
  | carry (party : Party) (count : Nat) : Onward (.carry party count)

private theorem onward_says_nothing (onward : Onward act) (party : Party) :
    saidIn party (seen ++ [(act, result)]) = saidIn party seen := by
  cases onward with
  | read other => by_cases same : other = party <;> simp [saidIn, callsOf, queuedBy, same]
  | write other => by_cases same : other = party <;> simp [saidIn, callsOf, queuedBy, same]
  | carry => simp [saidIn, callsOf]

private theorem onward_unrefused (onward : Onward act) : ¬ session.Refuses act := by
  cases onward <;> exact id

/-- A `Send` that is not refused takes some of what is left, or all of it. -/
private theorem send_moves {conn : TcpConnection} {msg : Msg} {written : WriteResult}
    (working : conn.mSocket.noOK = false) (progress : InProgress conn msg)
    (done : conn.sendMore msg true .plenty = .ok written) :
    written.taken ≠ [] ∧ written.conn.mToSendMsg = conn.mToSendMsg ∨ written.conn.mToSendMsg = conn.mToSendMsg.tail := by
  rw [Sendable.plenty, send_more_takes working] at done
  obtain ⟨bytes, peeked, done⟩ := bind_ok.mp done
  obtain ⟨next, advanced, same⟩ := bind_ok.mp done
  cases same
  rw [advance] at advanced
  obtain ⟨mSent, _, advanced⟩ := bind_ok.mp advanced
  obtain ⟨mToSend, fewer, advanced⟩ := bind_ok.mp advanced
  have left := (check_int_ok.mp fewer).2
  by_cases all : mToSend = 0
  · rw [if_pos all] at advanced
    cases advanced
    exact .inr rfl
  · rw [if_neg all] at advanced
    cases advanced
    refine .inl ⟨fun nothing => all ?_, rfl⟩
    obtain ⟨_, inside, which⟩ := peek_ok.mp peeked
    have range : IsInt32 msg.getTotalLen := to_int32_range _
    have total := progress.total
    have sent := progress.sent
    have nonneg := progress.left
    have offered := to_size_t_nonneg nonneg (by unfold IsInt32 at range; omega)
    have length : bytes.length = min (2 ^ 20) (toSizeT conn.mToSend) := by
      rw [which, List.length_take, List.length_drop]
      omega
    have none : bytes.length = 0 := List.length_eq_zero_iff.mpr nothing
    omega

/-- A connection that has something to send sends some of it, or is done with its
first message. -/
private theorem write_moves {conn : TcpConnection} {queued : List Msg} (settled : conn.Settled)
    (opened : conn.mClosed = false) (inOrder : InOrder queued taken conn) (whole : ∀ msg ∈ queued, Whole msg)
    (some : conn.mToSendMsg ≠ []) :
    ∃ written, conn.writeData true .plenty = .ok written ∧ written.conn.mClosed = false ∧
      (written.taken ≠ [] ∧ written.conn.mToSendMsg = conn.mToSendMsg ∨
        written.conn.mToSendMsg = conn.mToSendMsg.tail) := by
  have working : conn.mSocket.noOK = false := by
    rw [← Bool.not_eq_true]
    intro dead
    cases opened.symm.trans (settled.sound dead)
  have fine : (conn.mClosed || conn.mSocket.noOK) = false := by rw [opened, working]; rfl
  obtain ⟨⟨msg, mSent, mToSend⟩, picked⟩ : ∃ work, conn.sending = .some work := by
    rw [sending]
    cases conn.mCurrentSendMsg with
    | some msg => exact ⟨_, rfl⟩
    | none =>
      obtain ⟨msg, queue, front⟩ := List.exists_cons_of_ne_nil some
      exact ⟨_, by rw [front]; rfl⟩
  obtain ⟨inOrder, progress, good⟩ := picked_in_order inOrder whole picked
  obtain ⟨written, sent, _⟩ := @send_more_in_order _ _ _ _ (2 ^ 20) (by decide) true inOrder rfl good working
  have wrote : conn.writeData true .plenty = .ok written := by
    rw [write_data_open fine, picked]
    exact sent
  refine ⟨written, wrote, ?_, @send_moves { conn with mCurrentSendMsg := Option.some msg, mSent, mToSend } msg written
    working progress sent⟩
  rcases write_data_cases wrote with ⟨_, _, _, _, _, same⟩ | ⟨⟨_, fails, _⟩, _⟩
  · rw [same]
    exact opened
  · cases fails

/-- With an empty queue, all has been sent. -/
private theorem all_taken {conn : TcpConnection} {queued : List Msg} (inOrder : InOrder queued taken conn)
    (none : conn.mToSendMsg = []) : taken = queued.flatMap Msg.wireBytes := by
  obtain ⟨removed, split, sent⟩ := inOrder.stream
  rw [none, List.append_nil] at split
  rw [sent, split, sentOf]
  cases current : conn.mCurrentSendMsg with
  | none => exact List.append_nil _
  | some msg =>
    have head := (inOrder.current msg current).head
    rw [none] at head
    cases head

private theorem frames_of {msgs : List Msg} (framed : ∀ msg ∈ msgs, Framed msg) :
    ∃ frames : List Frame, frames.map Frame.wire = msgs.map Msg.wireBytes := by
  induction msgs with
  | nil => exact ⟨[], rfl⟩
  | cons msg msgs ih =>
    obtain ⟨frame, same⟩ := (framed msg List.mem_cons_self).frame
    obtain ⟨frames, others⟩ := ih fun other inside => framed other (List.mem_cons_of_mem _ inside)
    exact ⟨frame :: frames, by rw [List.map_cons, List.map_cons, same, others]⟩

/-- What is handed over for a frame depends on its bytes only. -/
private theorem received_is_handed {msgs : List Msg} (conn : TcpConnection)
    (which : frames.map Frame.wire = msgs.map Msg.wireBytes) : frames.map (received conn) = msgs.map (handed conn) := by
  let carried (bytes : List UInt8) : OperContext :=
    .recv ⟨bytes, 0, 0, bytes.length⟩ conn.mConnID conn.mSocket.mIP conn.mSocket.mPort
  have frame_wise : received conn = carried ∘ Frame.wire := by
    funext frame
    simp only [received, carried, Function.comp_apply, wire_length, Nat.cast_add, Frame.msg, HEAD_LENGTH]
  have msg_wise : handed conn = carried ∘ Msg.wireBytes := rfl
  rw [frame_wise, msg_wise, ← List.map_map, ← List.map_map, which]

/-- What one party has still to send, and what has still to come to it. Each byte is
taken, carried and read. -/
private def toDo (session : Session) (seen : List (Act × CallResult)) (party : Party) : Nat :=
  3 * (((saidIn party seen).flatMap Msg.wireBytes).length - (takenFrom party seen).length) +
    (session.link party).conn.mToSendMsg.length + 2 * (session.inFlight party).length +
    weight (session.link party).arrivals

private def allToDo (session : Session) (seen : List (Act × CallResult)) : Nat :=
  toDo session seen .client + toDo session seen .server

private theorem all_to_do (session : Session) (seen : List (Act × CallResult)) (party : Party) :
    allToDo session seen = toDo session seen party + toDo session seen party.peer := by
  cases party
  · rfl
  · exact Nat.add_comm _ _

/-- Nothing more is said, and both connections stay alive. -/
private structure Going (firsts : Party → TcpConnection) (said : Party → List Msg) (session : Session)
    (seen : List (Act × CallResult)) : Prop where
  joint : Joint firsts session seen
  same : ∀ party, saidIn party seen = said party
  alive : session.Alive

variable {firsts : Party → TcpConnection} {said : Party → List Msg}

private theorem going_onward (going : Going firsts said session seen) (onward : Onward act)
    (did : session.step act = .ok (after, result)) (alive : after.Alive) :
    Going firsts said after (seen ++ [(act, result)]) :=
  ⟨joint_step going.joint (onward_unrefused onward) did,
    fun party => (onward_says_nothing onward party).trans (going.same party), alive⟩

private theorem going_writes (going : Going firsts said session seen) (framed : ∀ party, ∀ msg ∈ said party, Framed msg)
    (some : (session.link party).conn.mToSendMsg ≠ []) :
    ∃ act after result, Onward act ∧ session.step act = .ok (after, result) ∧
      Going firsts said after (seen ++ [(act, result)]) ∧
      allToDo after (seen ++ [(act, result)]) < allToDo session seen := by
  have whole : ∀ msg ∈ saidIn party seen, Whole msg := fun msg inside =>
    (framed party msg (by rwa [← going.same])).whole
  have settled := (going.joint.sends party).settled
  have streams := (going.joint.sends party).streams whole
  obtain ⟨opened, ends⟩ := going.alive party
  obtain ⟨written, wrote, stays, moves⟩ := write_moves settled opened (streams.2 opened) whole some
  have did : session.step (.call party (.write .plenty)) = .ok
      (session.sent party { session.link party with conn := written.conn } written.taken,
        ⟨written.enqueued, written.taken⟩) := by
    rw [Session.step, Link.step, wrote]
    rfl
  have onward : Onward (.call party (.write .plenty)) := .write party _ _
  have goes := going_onward going onward did
    (party.both (by rw [Session.sent_link]; exact ⟨stays, ends⟩) (by rw [Session.sent_link_peer]; exact going.alive _))
  refine ⟨_, _, _, onward, did, goes, ?_⟩
  have grown : takenFrom party (seen ++ [(.call party (.write .plenty), ⟨written.enqueued, written.taken⟩)]) =
      takenFrom party seen ++ written.taken := by
    rw [takenFrom, calls_of_self, List.map_append, List.map_singleton, taken_snoc, takenFrom]
  have unchanged : takenFrom party.peer (seen ++ [(.call party (.write .plenty), ⟨written.enqueued, written.taken⟩)]) =
      takenFrom party.peer seen := by
    rw [takenFrom, calls_of_peer, takenFrom]
  have bound := (((goes.joint.sends party).streams fun msg inside =>
    (framed party msg (by rwa [← goes.same])).whole).1).length_le
  rw [← takenFrom, ← saidIn, grown, onward_says_nothing onward, List.length_append] at bound
  simp only [all_to_do _ _ party, toDo, onward_says_nothing onward, grown, unchanged, Session.sent_link,
    Session.sent_flight, Session.sent_link_peer, Session.sent_flight_peer, List.length_append]
  rcases moves with ⟨bytes, queue⟩ | queue
  · have positive := List.length_pos_iff.mpr bytes
    rw [queue]
    omega
  · have positive := List.length_pos_iff.mpr some
    rw [queue, List.length_tail]
    omega

private theorem going_carries (going : Going firsts said session seen) (some : session.inFlight party ≠ []) :
    ∃ act after result, Onward act ∧ session.step act = .ok (after, result) ∧
      Going firsts said after (seen ++ [(act, result)]) ∧
      allToDo after (seen ++ [(act, result)]) < allToDo session seen := by
  have all : (session.inFlight party).take (session.inFlight party).length = session.inFlight party := List.take_length
  have did : session.step (.carry party (session.inFlight party).length) = .ok
      (session.arrive party [.data (session.inFlight party) some] [], ⟨[], []⟩) := by
    simp only [Session.step, all, List.drop_length]
    rw [dif_pos some]
  have onward : Onward (.carry party (session.inFlight party).length) := .carry party _
  have same (other : Party) : callsOf other (seen ++ [(.carry party (session.inFlight party).length, ⟨[], []⟩)]) =
      callsOf other seen := by simp [callsOf]
  refine ⟨_, _, _, onward, did, going_onward going onward did (party.both ?_ ?_), ?_⟩
  · rw [Session.arrive_link, ending_append, (going.alive party).2]
    exact ⟨(going.alive party).1, rfl⟩
  · rw [Session.arrive_link_peer]
    exact going.alive _
  · have positive := List.length_pos_iff.mpr some
    simp only [all_to_do _ _ party, toDo, saidIn, takenFrom, same, Session.arrive_link, Session.arrive_flight,
      Session.arrive_link_peer, Session.arrive_flight_peer, weight_append, weight, List.length_nil]
    omega

/-- Everything has been said, taken and carried, and a party has not heard all. -/
private theorem going_reads (going : Going firsts said session seen) (framed : ∀ party, ∀ msg ∈ said party, Framed msg)
    (queues : ∀ party, (session.link party).conn.mToSendMsg = []) (flights : ∀ party, session.inFlight party = [])
    (missing : heardBy party seen ≠ (said party.peer).map (handed (firsts party))) :
    ∃ act after result, Onward act ∧ session.step act = .ok (after, result) ∧
      Going firsts said after (seen ++ [(act, result)]) ∧
      allToDo after (seen ++ [(act, result)]) < allToDo session seen := by
  have framedBy : ∀ other, ∀ msg ∈ saidIn other seen, Framed msg := fun other msg inside =>
    framed other msg (by rwa [← going.same])
  have settled := (going.joint.sends party).settled
  obtain ⟨opened, ends⟩ := going.alive party
  obtain ⟨frames, which⟩ := frames_of (framedBy party.peer)
  have starts := taken_starts going.joint (framedBy party.peer) which
  have whole := (going.joint.sends party.peer).streams fun msg inside => (framedBy _ msg inside).whole
  have all : takenFrom party.peer seen = frames.flatMap Frame.wire := by
    have taken := all_taken (whole.2 (going.alive party.peer).1) (queues party.peer)
    rwa [← takenFrom, ← saidIn, List.flatMap_def, ← which, ← List.flatMap_def] at taken
  rcases going.joint.receives framedBy party frames which with ⟨done, todo, part, lost, follows⟩ | ended
  · have nothing : lost = [] := (follows.flight ends).trans (flights party)
    have here : part ++ bytesOf (session.link party).arrivals = todo.flatMap Frame.wire := by
      have stream := follows.stream
      rw [all, follows.frames, List.flatMap_append, List.append_cancel_left_eq, nothing, List.append_nil] at stream
      exact stream
    rcases follows_read settled follows starts with ⟨_, _, short⟩ | ⟨read, reads, outcome⟩
    · cases left : todo with
      | nil =>
        refine absurd ?_ missing
        have heard : frames = done := by rw [follows.frames, left, List.append_nil]
        rw [follows.heard, ← heard, received_is_handed _ which, going.same]
      | cons frame others =>
        have few := short frame (by rw [left]; rfl)
        rw [here, left, List.flatMap_cons, List.length_append] at few
        omega
    · rcases outcome with ⟨done, todo, part, after, last, less⟩ | ⟨_, last⟩
      · have did : session.step (.call party .read) =
            .ok (session.sent party ⟨read.conn, read.rest⟩ [], ⟨read.enqueued, []⟩) := by
          rw [Session.step, Link.step, reads]
          rfl
        have onward : Onward (.call party .read) := .read party
        have queue : read.conn.mToSendMsg = (session.link party).conn.mToSendMsg := by
          rcases read_data_outcomes settled reads with ⟨_, ⟨_, _, _, _, same⟩, _⟩ | ⟨fails, _⟩ | ⟨_, fails, _⟩
          · rw [same]
          · cases fails.closed.symm.trans after.working.conn
          · cases fails.closed.symm.trans after.working.conn
        refine ⟨_, _, _, onward, did, going_onward going onward did (party.both ?_ ?_), ?_⟩
        · rw [Session.sent_link]
          exact ⟨after.working.conn, last.trans ends⟩
        · rw [Session.sent_link_peer]
          exact going.alive _
        · have same : takenFrom party (seen ++ [(.call party .read, ⟨read.enqueued, []⟩)]) = takenFrom party seen := by
            rw [takenFrom, calls_of_self, List.map_append, List.map_singleton, taken_snoc, takenFrom, List.append_nil]
          have unchanged : takenFrom party.peer (seen ++ [(.call party .read, ⟨read.enqueued, []⟩)]) =
              takenFrom party.peer seen := by
            rw [takenFrom, calls_of_peer, takenFrom]
          simp only [all_to_do _ _ party, toDo, onward_says_nothing onward, same, unchanged, Session.sent_link,
            Session.sent_flight, Session.sent_link_peer, Session.sent_flight_peer, List.append_nil, queue]
          omega
      · rw [ends] at last
        cases last
  · cases opened.symm.trans (settled.sound ended.dead)

/-- From a state in which both connections are alive, everything said comes across. -/
private theorem going_arrives (going : Going firsts said session seen) (framed : ∀ party, ∀ msg ∈ said party, Framed msg) :
    ∃ more last answers, (∀ act ∈ more, Onward act) ∧ run Session.step session more = .ok (last, answers) ∧
      ∀ party, heardBy party (seen ++ more.zip answers) = (said party.peer).map (handed (firsts party)) := by
  apply run_reaches_with_history (Going firsts said)
    (fun _ seen => ∀ party, heardBy party seen = (said party.peer).map (handed (firsts party))) Onward allToDo ?_ seen going
  intro session seen going short
  by_cases queues : ∀ party, (session.link party).conn.mToSendMsg = []
  · by_cases flights : ∀ party, session.inFlight party = []
    · obtain ⟨party, missing⟩ := not_forall.mp short
      exact going_reads going framed queues flights missing
    · obtain ⟨party, some⟩ := not_forall.mp flights
      exact going_carries going some
  · obtain ⟨party, some⟩ := not_forall.mp queues
    exact going_writes going framed some

/-! ### From end to end -/

/-- A message that fits its page is one that can be sent, and what arrives of it is
read back as the values it was made of. -/
theorem built_arrives {host : Host} {msg : Msg} {fields : List Wire.Field} (fits : MsgWriting.Fits host fields)
    (typed : 4 ≤ (Wire.encode fields).length) (built : Msg.build host fields = .ok msg) :
    Framed msg ∧ ∃ next, (Reader.each (fields.map Sigma.fst)).run Msg.read (arrived msg) = .ok (fields, next) := by
  obtain ⟨msg', frame, built', holds, size, _, payload, sent⟩ := ProtocolRoundTrip.build_ok fits typed
  cases built.symm.trans built'
  have range := host.range
  have head : HEAD_LENGTH = 8 := rfl
  unfold MsgWriting.Fits at fits
  have total := MsgSequence.total_length holds (by omega)
  refine ⟨⟨⟨by omega, by omega⟩, frame, sent⟩, ?_⟩
  have same : arrived msg = frame.msg := by
    simp only [arrived, sent, wire_length, Frame.msg, HEAD_LENGTH, Nat.cast_add]
  have unread := MsgReading.unread_frame frame
  rw [payload, ← List.append_nil (Wire.encode fields)] at unread
  obtain ⟨next, ran, _⟩ := MsgReading.run_read_of_values unread (Reader.run_each_values fields)
  exact ⟨next, by rw [same]; exact ran⟩

/-- In every run without a refused `Send`, each party is handed a first part of what
the other has said: the messages in their order, each once, with the bytes sent and no
others. As long as both connections are alive, calls and the network alone bring over
the rest. And what was built from values is read back to the same values. -/
theorem every_message_arrives {session final : Session} {acts : List Act} {results : List CallResult}
    (fresh : session.Fresh) (ran : run Session.step session acts = .ok (final, results))
    (framed : ∀ party, ∀ msg ∈ saidBy party acts, Framed msg)
    (accepted : EveryStep Session.step (fun session act => ¬ session.Refuses act) session acts) :
    (∀ party, heardBy party (acts.zip results) <+:
      (saidBy party.peer acts).map (handed (session.link party).conn)) ∧
    (final.Alive → ∃ more last answers, (∀ act ∈ more, Onward act) ∧
      run Session.step session (acts ++ more) = .ok (last, results ++ answers) ∧
      ∀ party, heardBy party ((acts ++ more).zip (results ++ answers)) =
        (saidBy party.peer acts).map (handed (session.link party).conn)) ∧
    ∀ party, ∀ msg ∈ saidBy party acts, ∀ host fields, MsgWriting.Fits host fields →
      4 ≤ (Wire.encode fields).length → Msg.build host fields = .ok msg →
      ∃ next, (Reader.each (fields.map Sigma.fst)).run Msg.read (arrived msg) = .ok (fields, next) := by
  have joint := run_history (Joint fun party => (session.link party).conn)
    (fun _ _ _ _ _ held meets taken => joint_step held meets taken) (joint_fresh fresh) accepted ran
  have lengths := run_length ran
  have said (party : Party) : saidIn party (acts.zip results) = saidBy party acts := by
    rw [said_in_eq, List.map_fst_zip (Nat.le_of_eq lengths.symm)]
  refine ⟨fun party => ?_, fun alive => ?_,
    fun party msg _ host fields fits typed built => (built_arrives fits typed built).2⟩
  · obtain ⟨frames, which⟩ := frames_of (framed party.peer)
    rw [← received_is_handed _ which]
    rcases joint.receives (fun other => by rw [said]; exact framed other) party frames (by rw [said]; exact which) with
      ⟨done, todo, _, _, follows⟩ | ⟨_, done, todo, split, heard⟩
    · rw [follows.heard, follows.frames, List.map_append]
      exact List.prefix_append _ _
    · rw [heard, split, List.map_append]
      exact List.prefix_append _ _
  · obtain ⟨more, last, answers, onward, goesOn, heard⟩ := going_arrives ⟨joint, said, alive⟩ framed
    refine ⟨more, last, answers, onward, run_append_ok.mpr ⟨final, results, answers, ran, goesOn, rfl⟩, fun party => ?_⟩
    rw [List.zip_append lengths.symm]
    exact heard party

/-- A client and a server that have just met. -/
def acquaintance : Session where
  link := fun
    | .client => ⟨TcpConnection.new (TcpSocket.accepted (.ascii "s") 80 7) 1, []⟩
    | .server => ⟨TcpConnection.new (TcpSocket.accepted (.ascii "h") 81 8) 2, []⟩
  inFlight := fun _ => []

theorem acquaintance_fresh : acquaintance.Fresh where
  new := fun
    | .client => ⟨_, _, rfl, rfl, rfl⟩
    | .server => ⟨_, _, rfl, rfl, rfl⟩
  none := fun _ => rfl

theorem some_bytes : 0 < 9 := Nat.succ_pos 8

/-- Both speak at once; the client's note has come in three parts when nothing has been
handed to the client yet. -/
def crossing : List Act :=
  [.call .client (.enqueue note), .call .server (.enqueue note), .call .client (.write (.accepts 9 some_bytes)),
    .carry .server 5, .call .server .read, .call .client (.write .plenty), .call .server (.write .plenty),
    .carry .server 5, .fails .server .again, .carry .server 5, .call .server .read, .call .server .read,
    .call .server .read]

theorem two_notes_cross :
    ∃ final results, run Session.step acquaintance crossing = .ok (final, results) ∧
      heardBy .server (crossing.zip results) <+: [handed (acquaintance.link .server).conn note] ∧
      ∃ more last answers, run Session.step acquaintance (crossing ++ more) = .ok (last, results ++ answers) ∧
        heardBy .client ((crossing ++ more).zip (results ++ answers)) = [handed (acquaintance.link .client).conn note] := by
  have goes : (run Session.step acquaintance crossing).toOption.map (fun reply =>
      [Party.client, .server].map fun party =>
        ((reply.1.link party).conn.mClosed, decide (ending (reply.1.link party).arrivals = none))) =
      some [(false, true), (false, true)] := by
    decide +kernel
  obtain ⟨⟨final, results⟩, ran, alive⟩ := Option.map_eq_some_iff.mp goes
  have done := ok_of_option ran
  have framed : Framed note := ⟨by decide, .carrying [1, 2, 3, 4] (by decide) (by decide), by decide⟩
  have said : ∀ party, saidBy party crossing = [note] := fun
    | .client => rfl
    | .server => rfl
  have calm : EveryStep Session.step (fun session act => ¬ session.Refuses act) acquaintance crossing := by decide +kernel
  obtain ⟨heard, goesOn, _⟩ := every_message_arrives acquaintance_fresh done
    (fun party msg inside => by rw [said, List.mem_singleton] at inside; rw [inside]; exact framed) calm
  have living : final.Alive := by
    simp only [List.map_cons, List.map_nil, List.cons.injEq, Prod.mk.injEq, decide_eq_true_eq] at alive
    exact fun
      | .client => alive.1
      | .server => alive.2.1
  obtain ⟨more, last, answers, _, onward, all⟩ := goesOn living
  exact ⟨final, results, done, heard .server, more, last, answers, onward, all .client⟩

end ChatRoom.EndToEnd
