import ChatRoom.ServicePair

/-! Who has the message of a context. While it waits in a queue or a batch, the
service that is to process it has; between two services it is with the context that
is handed over. A hand-over that is refused leaves it there, with nobody to take it
out: no step ever disposes of it, and where nobody but `ReadData` looks at the
refusal, the context is destroyed with its message. -/
namespace ChatRoom.ContextOwnership
open Lib LogicService ServicePair

variable {role : Role} {side : Side} {pair next : ServicePair} {service after : LogicService Nat} {id : Nat}
  {fates : List Fate} {event : ServicePair.Event} {ctx : SharedContext}

/-! ### References and owners -/

/-- How often a service refers to a context. -/
def refsOf (service : LogicService Nat) (id : Nat) : Nat := (service.mQueue ++ unreleased service.phase).count id

/-- How often a service still has to see to a context. -/
def duesOf (service : LogicService Nat) (id : Nat) : Nat := (service.mQueue ++ unsettled service.phase).count id

def refs (pair : ServicePair) (id : Nat) : Nat := refsOf pair.net id + refsOf pair.peer id + pair.held.count id

def dues (pair : ServicePair) (id : Nat) : Nat := duesOf pair.net id + duesOf pair.peer id

/-- `mRef` of a context in memory. -/
def mRefOf (pair : ServicePair) (id : Nat) : Nat := (pair.contexts id).elim 0 SharedContext.mRef

private theorem unsettled_sublist (phase : Phase Nat) : (unsettled phase).Sublist (unreleased phase) := by
  cases phase with
  | releasing id ctxVec => exact List.sublist_cons_self id ctxVec
  | init | test | waiting | batch | processing | returned => exact List.Sublist.refl _

private theorem dues_le_refs (pair : ServicePair) (id : Nat) : dues pair id ≤ refs pair id := by
  have each : ∀ service : LogicService Nat, duesOf service id ≤ refsOf service id := fun service =>
    List.Sublist.count_le id ((List.Sublist.refl service.mQueue).append (unsettled_sublist service.phase))
  have net := each pair.net
  have peer := each pair.peer
  unfold dues refs
  omega

/-- A context that the thread has settled in this step. -/
def settles : Seen Nat → Option Nat
  | .processed id => some id
  | .discarded id => some id
  | _ => none

def releases : Seen Nat → Option Nat
  | .released id => some id
  | _ => none

/-- One more, for this context. -/
def one (which : Option Nat) (id : Nat) : Nat := if which = some id then 1 else 0

/-- What a step of `Run` does to both counts. -/
private theorem run_counts {type : Nat → OperType} {seen : Seen Nat}
    (done : service.runStep type true = .ok (after, seen)) (id : Nat) :
    refsOf after id + one (releases seen) id = refsOf service id ∧
    duesOf after id + one (settles seen) id = duesOf service id := by
  have step : Step type service (.run true) after seen := step_cases done
  unfold refsOf duesOf
  cases step with
  | idle => exact ⟨rfl, rfl⟩
  | enters _ _ phase | leaves _ _ phase | ends _ phase | begins _ _ _ _ phase =>
    rw [phase]
    exact ⟨rfl, rfl⟩
  | takes _ phase =>
    rw [phase]
    simp [unsettled, unreleased, one, releases, settles]
  | discards _ ctx ctxVec _ phase | processes _ ctx ctxVec _ phase _ | releases _ ctx ctxVec phase =>
    rw [phase]
    simp [unsettled, unreleased, one, releases, settles, List.count_cons, Nat.add_assoc]

/-- A context that is settled was due. -/
private theorem settles_due {type : Nat → OperType} {seen : Seen Nat} (done : service.runStep type true = .ok (after, seen))
    (settled : settles seen = some id) : duesOf service id = duesOf after id + 1 := by
  have counts := (run_counts done id).2
  rw [one, if_pos settled] at counts
  exact counts.symm

@[simp] private theorem service_put : (pair.put side service).service side = service := by cases side <;> rfl

@[simp] private theorem service_put_other : (pair.put side service).service side.other = pair.service side.other := by
  cases side <;> rfl

@[simp] private theorem put_contexts : (pair.put side service).contexts = pair.contexts := by cases side <;> rfl

@[simp] private theorem put_held : (pair.put side service).held = pair.held := by cases side <;> rfl

@[simp] private theorem put_fresh : (pair.put side service).fresh = pair.fresh := by cases side <;> rfl

private theorem refs_put (pair : ServicePair) (side : Side) (service : LogicService Nat) (id : Nat) :
    refs (pair.put side service) id + refsOf (pair.service side) id = refs pair id + refsOf service id := by
  cases side <;> simp only [refs, put, ServicePair.service] <;> omega

private theorem dues_put (pair : ServicePair) (side : Side) (service : LogicService Nat) (id : Nat) :
    dues (pair.put side service) id + duesOf (pair.service side) id = dues pair id + duesOf service id := by
  cases side <;> simp only [dues, put, ServicePair.service] <;> omega

private theorem dues_le (pair : ServicePair) (side : Side) (id : Nat) : duesOf (pair.service side) id ≤ dues pair id := by
  cases side <;> simp only [dues, ServicePair.service] <;> omega

/-! ### What holds between two steps, and inside of one -/

/-- Every reference is counted; the thread that makes a step may hold one more. -/
structure Counted (pair : ServicePair) (extra : Option Nat) : Prop where
  refs : ∀ id, mRefOf pair id = refs pair id + one extra id
  alive : ∀ id ctx, pair.contexts id = some ctx → 0 < ctx.mRef ∧ id < pair.fresh

/-- A context is seen to once, and by nobody else while the thread has it in hand. -/
structure Owned (pair : ServicePair) (inHand : Option Nat) : Prop where
  once : ∀ id, dues pair id + one inHand id ≤ 1
  own : ∀ id ctx msg, pair.contexts id = some ctx → ctx.mMsg = some msg →
    msg = id ∧ (ctx.mType = .recv ∨ ctx.mType = .send)

/-- A message has somebody to see to it. -/
def Carried (pair : ServicePair) (inHand : Option Nat) : Prop :=
  ∀ id ctx, pair.contexts id = some ctx → ctx.mMsg ≠ none → 0 < dues pair id + one inHand id

variable {inHand extra : Option Nat}

private theorem look_ok : pair.look id = .ok ctx ↔ pair.contexts id = some ctx := by
  unfold look
  cases pair.contexts id with
  | none => simp
  | some found => simp

/-! ### What each call does -/

private theorem clear_ok : pair.clear id = .ok next ↔
    ∃ ctx, pair.contexts id = some ctx ∧ next = pair.store id (some { ctx with mMsg := none }) := by
  unfold clear
  rw [bind_ok]
  simp only [look_ok, pure_ok, Except.ok.injEq]
  exact exists_congr fun ctx => and_congr_right fun _ => eq_comm

private theorem enqueue_cases {pushed : Bool} (done : pair.enqueue side id = .ok (next, pushed)) :
    ((pair.service side).mRunning = true ∧ pushed = true ∧ ∃ ctx, pair.contexts id = some ctx ∧
      next = (pair.store id (some { ctx with mRef := ctx.mRef + 1 })).put side
        { pair.service side with mQueue := (pair.service side).mQueue ++ [id] }) ∨
    (pair.service side).mRunning = false ∧ pushed = false ∧ next = pair := by
  unfold ServicePair.enqueue at done
  split at done
  · rename_i running
    obtain ⟨grown, counted, same⟩ := bind_ok.mp done
    obtain ⟨ctx, found, rest⟩ := bind_ok.mp counted
    cases same
    cases rest
    refine .inl ⟨running, rfl, ctx, look_ok.mp found, ?_⟩
    have still : (pair.store id (some { ctx with mRef := ctx.mRef + 1 })).service side = pair.service side := by
      cases side <;> rfl
    rw [still, LogicService.enqueue, if_pos running]
  · rename_i stopped
    cases done
    exact .inr ⟨by simpa using stopped, rfl, rfl⟩

private theorem dec_ref_cases (done : pair.decRef id = .ok (next, fates)) : ∃ ctx, pair.contexts id = some ctx ∧
    (ctx.mRef ≤ 1 ∧ next = pair.store id none ∧ fates = [.destroyed id ctx.mMsg] ∨
      1 < ctx.mRef ∧ next = pair.store id (some { ctx with mRef := ctx.mRef - 1 }) ∧ fates = []) := by
  obtain ⟨ctx, found, rest⟩ := bind_ok.mp done
  refine ⟨ctx, look_ok.mp found, ?_⟩
  split at rest
  · rename_i last
    cases rest
    exact .inl ⟨last, rfl, rfl⟩
  · rename_i more
    cases rest
    exact .inr ⟨by omega, rfl, rfl⟩

private theorem stored_lookup (pair : ServicePair) (id probe : Nat) (ctx : Option SharedContext) :
    (pair.store id ctx).contexts probe = if probe = id then ctx else pair.contexts probe := by
  simp only [store, Function.update_apply]

private theorem m_ref_store (pair : ServicePair) (id probe : Nat) (ctx : Option SharedContext) :
    mRefOf (pair.store id ctx) probe = if probe = id then ctx.elim 0 SharedContext.mRef else mRefOf pair probe := by
  unfold mRefOf
  rw [stored_lookup]
  split <;> rfl

/-! ### References -/

private theorem counted_run {type : Nat → OperType} {seen : Seen Nat} (counted : Counted pair none)
    (done : (pair.service side).runStep type true = .ok (after, seen)) :
    Counted (pair.put side after) (releases seen) := by
  refine ⟨fun id => ?_, fun id ctx found => by simpa using counted.alive id ctx (by simpa using found)⟩
  have before := counted.refs id
  have moved := (run_counts done id).1
  have placed := refs_put pair side after id
  simp only [mRefOf, put_contexts, one, reduceCtorEq, if_false] at *
  omega

/-- A context has changed, and its count with the references to it. -/
private theorem counted_change {changed : SharedContext} {extra' : Option Nat} (counted : Counted pair extra)
    (found : pair.contexts id = some ctx) (contexts : next.contexts = (pair.store id (some changed)).contexts)
    (fresh : next.fresh = pair.fresh) (alive : 0 < changed.mRef)
    (balance : ∀ probe, refs next probe + one extra' probe + (if probe = id then ctx.mRef else 0) =
      refs pair probe + one extra probe + if probe = id then changed.mRef else 0) : Counted next extra' := by
  refine ⟨fun probe => ?_, fun probe other stored => ?_⟩
  · have before := counted.refs probe
    have balanced := balance probe
    have now : mRefOf next probe = if probe = id then changed.mRef else mRefOf pair probe := by
      rw [mRefOf, contexts]
      exact m_ref_store pair id probe (some changed)
    rw [now]
    split at balanced
    · rename_i same
      rw [same, mRefOf, found] at before
      rw [if_pos same]
      simp only [Option.elim_some, same] at *
      omega
    · rename_i other
      rw [if_neg other]
      omega
  · rw [contexts, stored_lookup] at stored
    rw [fresh]
    split at stored
    · rename_i same
      cases stored
      exact ⟨alive, same ▸ (counted.alive id ctx found).2⟩
    · exact counted.alive probe other stored

private theorem counted_clear (counted : Counted pair extra) (done : pair.clear id = .ok next) : Counted next extra := by
  obtain ⟨ctx, found, rfl⟩ := clear_ok.mp done
  exact counted_change counted found rfl rfl (counted.alive id ctx found).1 fun _ => rfl

private theorem one_self (id : Nat) : one (some id) id = 1 := if_pos rfl

private theorem one_other {probe : Nat} (other : probe ≠ id) : one (some id) probe = 0 :=
  if_neg fun same => other (Option.some.inj same).symm

@[simp] private theorem one_none (id : Nat) : one none id = 0 := rfl

private theorem count_enqueued (mQueue rest : List Nat) (id probe : Nat) :
    (mQueue ++ [id] ++ rest).count probe = (mQueue ++ rest).count probe + one (some id) probe := by
  simp only [one, List.count_append, List.count_singleton, beq_iff_eq, Option.some.injEq]
  omega

private theorem enqueued_refs (pair : ServicePair) (side : Side) (id probe : Nat) (ctx : Option SharedContext) :
    refs ((pair.store id ctx).put side { pair.service side with mQueue := (pair.service side).mQueue ++ [id] }) probe =
      refs pair probe + one (some id) probe := by
  have placed := refs_put (pair.store id ctx) side
    { pair.service side with mQueue := (pair.service side).mQueue ++ [id] } probe
  have still : (pair.store id ctx).service side = pair.service side := by cases side <;> rfl
  have same : refs (pair.store id ctx) probe = refs pair probe := rfl
  have longer : refsOf { pair.service side with mQueue := (pair.service side).mQueue ++ [id] } probe =
      refsOf (pair.service side) probe + one (some id) probe := count_enqueued _ _ id probe
  rw [still, same, longer] at placed
  omega

private theorem counted_enqueue {pushed : Bool} (counted : Counted pair extra)
    (done : pair.enqueue side id = .ok (next, pushed)) : Counted next extra := by
  obtain ⟨_, _, ctx, found, rfl⟩ | ⟨_, _, rfl⟩ := enqueue_cases done
  · apply counted_change counted found put_contexts put_fresh (Nat.succ_pos ctx.mRef)
    intro probe
    rw [enqueued_refs]
    by_cases here : probe = id
    · rw [here, one_self, if_pos rfl, if_pos rfl]
      simp only
      omega
    · rw [one_other here, if_neg here, if_neg here]
      simp only [Nat.add_zero]
  · exact counted

private theorem counted_dec_ref (counted : Counted pair (some id)) (done : pair.decRef id = .ok (next, fates)) :
    Counted next none := by
  obtain ⟨ctx, found, ⟨last, rfl, _⟩ | ⟨more, rfl, _⟩⟩ := dec_ref_cases done
  · refine ⟨fun probe => ?_, fun probe other stored => ?_⟩
    · have before := counted.refs probe
      have still : refs (pair.store id none) probe = refs pair probe := rfl
      rw [m_ref_store, still]
      by_cases same : probe = id
      · subst same
        rw [one_self, mRefOf, found] at before
        simp only [Option.elim_some] at before
        simp only [if_true, Option.elim_none, one_none]
        omega
      · rw [one_other same] at before
        rw [if_neg same, before, one_none]
    · rw [stored_lookup] at stored
      split at stored
      · cases stored
      · exact counted.alive probe other stored
  · apply counted_change counted found rfl rfl (by simp only; omega)
    intro probe
    have still : refs (pair.store id (some { ctx with mRef := ctx.mRef - 1 })) probe = refs pair probe := rfl
    rw [still]
    by_cases same : probe = id
    · subst same
      rw [one_self, if_pos rfl, if_pos rfl, one_none]
      simp only
      omega
    · rw [one_other same, if_neg same, if_neg same, one_none]

/-- A new context, with the reference of the thread that makes it. -/
def made (pair : ServicePair) (site : Site) : ServicePair :=
  { pair.store pair.fresh (some { mRef := 1, mType := site.type, mMsg := if site.carries then some pair.fresh else none })
    with fresh := pair.fresh + 1, held := pair.fresh :: pair.held }

/-- The next address is nowhere yet. -/
private theorem fresh_unused (counted : Counted pair none) : mRefOf pair pair.fresh = 0 ∧ refs pair pair.fresh = 0 := by
  have unknown : mRefOf pair pair.fresh = 0 := by
    cases found : pair.contexts pair.fresh with
    | none => rw [mRefOf, found, Option.elim_none]
    | some ctx => exact absurd (counted.alive _ ctx found).2 (lt_irrefl _)
  have unused := counted.refs pair.fresh
  rw [unknown, one_none] at unused
  exact ⟨unknown, by omega⟩

private theorem counted_made (counted : Counted pair none) (site : Site) : Counted (made pair site) none := by
  have unused := fresh_unused counted
  refine ⟨fun probe => ?_, fun probe ctx stored => ?_⟩
  · have before := counted.refs probe
    have held : refs (made pair site) probe = refs pair probe + if pair.fresh = probe then 1 else 0 := by
      simp only [refs, made, store, List.count_cons, beq_iff_eq]
      omega
    have now : mRefOf (made pair site) probe = if probe = pair.fresh then 1 else mRefOf pair probe :=
      m_ref_store pair pair.fresh probe _
    rw [held, now]
    by_cases same : probe = pair.fresh
    · subst same
      simp only [if_true, one_none] at *
      omega
    · rw [if_neg same, if_neg (Ne.symm same)]
      exact before
  · have stored : (pair.store pair.fresh _).contexts probe = some ctx := stored
    rw [stored_lookup] at stored
    split at stored
    · rename_i same
      cases stored
      exact ⟨Nat.one_pos, same ▸ Nat.lt_succ_self _⟩
    · have before := counted.alive probe ctx stored
      exact ⟨before.1, Nat.lt_succ_of_lt before.2⟩

private theorem counted_let_go (counted : Counted pair none) (inside : id ∈ pair.held) :
    Counted { pair with held := pair.held.erase id } (some id) := by
  refine ⟨fun probe => ?_, counted.alive⟩
  have before := counted.refs probe
  have same : mRefOf { pair with held := pair.held.erase id } probe = mRefOf pair probe := rfl
  rw [same, before, one_none]
  simp only [refs]
  by_cases here : probe = id
  · subst here
    have one := List.count_pos_iff.mpr inside
    rw [List.count_erase_self, one_self]
    omega
  · rw [List.count_erase_of_ne here, one_other here]

/-! ### Owners -/

private theorem owned_run {type : Nat → OperType} {seen : Seen Nat} (owned : Owned pair none)
    (done : (pair.service side).runStep type true = .ok (after, seen)) :
    Owned (pair.put side after) (settles seen) := by
  refine ⟨fun id => ?_, fun id ctx msg found => owned.own id ctx msg (by simpa using found)⟩
  have before := owned.once id
  have moved := (run_counts done id).2
  have placed := dues_put pair side after id
  rw [one_none] at before
  omega

private theorem carried_run {type : Nat → OperType} {seen : Seen Nat} (carried : Carried pair none)
    (done : (pair.service side).runStep type true = .ok (after, seen)) :
    Carried (pair.put side after) (settles seen) := by
  intro id ctx found message
  have before := carried id ctx (by simpa using found) message
  have moved := (run_counts done id).2
  have placed := dues_put pair side after id
  rw [one_none] at before
  omega

/-- What the thread has in hand is emptied, or it had nothing. -/
private theorem owned_clear (owned : Owned pair inHand) (done : pair.clear id = .ok next) : Owned next none := by
  obtain ⟨ctx, found, rfl⟩ := clear_ok.mp done
  refine ⟨fun probe => ?_, fun probe other msg stored message => ?_⟩
  · have before := owned.once probe
    have still : dues (pair.store id (some { ctx with mMsg := none })) probe = dues pair probe := rfl
    rw [still, one_none]
    omega
  · rw [stored_lookup] at stored
    split at stored
    · cases stored
      cases message
    · exact owned.own probe other msg stored message

private theorem carried_clear (carried : Carried pair (some id)) (done : pair.clear id = .ok next) : Carried next none := by
  obtain ⟨ctx, found, rfl⟩ := clear_ok.mp done
  intro probe other stored message
  rw [stored_lookup] at stored
  split at stored
  · cases stored
    exact absurd rfl message
  · rename_i elsewhere
    have before := carried probe other stored message
    rwa [one_other elsewhere] at before

private theorem enqueued_dues (pair : ServicePair) (side : Side) (id probe : Nat) (ctx : Option SharedContext) :
    dues ((pair.store id ctx).put side { pair.service side with mQueue := (pair.service side).mQueue ++ [id] }) probe =
      dues pair probe + one (some id) probe := by
  have placed := dues_put (pair.store id ctx) side
    { pair.service side with mQueue := (pair.service side).mQueue ++ [id] } probe
  have still : (pair.store id ctx).service side = pair.service side := by cases side <;> rfl
  have same : dues (pair.store id ctx) probe = dues pair probe := rfl
  have longer : duesOf { pair.service side with mQueue := (pair.service side).mQueue ++ [id] } probe =
      duesOf (pair.service side) probe + one (some id) probe := count_enqueued _ _ id probe
  rw [still, same, longer] at placed
  omega

/-- What is in hand goes to the service, or to nobody. -/
private theorem owned_enqueue {pushed : Bool} (owned : Owned pair (some id))
    (done : pair.enqueue side id = .ok (next, pushed)) : Owned next none := by
  obtain ⟨_, _, ctx, found, rfl⟩ | ⟨_, _, rfl⟩ := enqueue_cases done
  · refine ⟨fun probe => ?_, fun probe other msg stored message => ?_⟩
    · rw [enqueued_dues, one_none]
      exact owned.once probe
    · rw [put_contexts, stored_lookup] at stored
      split at stored
      · rename_i same
        cases stored
        subst same
        exact owned.own _ ctx msg found message
      · exact owned.own probe other msg stored message
  · exact ⟨fun probe => Nat.le_trans (Nat.le_add_right _ _) (owned.once probe), owned.own⟩

private theorem carried_enqueue {pushed : Bool} (carried : Carried pair (some id))
    (taken : (pair.service side).mRunning = true ∨ ∀ ctx, pair.contexts id = some ctx → ctx.mMsg = none)
    (done : pair.enqueue side id = .ok (next, pushed)) : Carried next none := by
  obtain ⟨_, _, ctx, found, rfl⟩ | ⟨stopped, _, rfl⟩ := enqueue_cases done
  · intro probe other stored message
    rw [put_contexts, stored_lookup] at stored
    rw [enqueued_dues, one_none]
    split at stored
    · rename_i same
      rw [same, one_self]
      omega
    · exact carried probe other stored message
  · have empty := taken.resolve_left fun running => absurd (running.symm.trans stopped) (by decide)
    intro probe other stored message
    by_cases same : probe = id
    · subst same
      exact absurd (empty other stored) message
    · have before := carried probe other stored message
      rwa [one_other same] at before

private theorem owned_dec_ref (owned : Owned pair none) (done : pair.decRef id = .ok (next, fates)) : Owned next none := by
  obtain ⟨ctx, found, ⟨_, rfl, _⟩ | ⟨_, rfl, _⟩⟩ := dec_ref_cases done
  · refine ⟨owned.once, fun probe other msg stored message => ?_⟩
    rw [stored_lookup] at stored
    split at stored
    · cases stored
    · exact owned.own probe other msg stored message
  · refine ⟨owned.once, fun probe other msg stored message => ?_⟩
    rw [stored_lookup] at stored
    split at stored
    · rename_i same
      cases stored
      exact same ▸ owned.own id ctx msg found message
    · exact owned.own probe other msg stored message

private theorem carried_dec_ref (carried : Carried pair none) (done : pair.decRef id = .ok (next, fates)) :
    Carried next none := by
  obtain ⟨ctx, found, ⟨_, rfl, _⟩ | ⟨_, rfl, _⟩⟩ := dec_ref_cases done
  · intro probe other stored message
    rw [stored_lookup] at stored
    split at stored
    · cases stored
    · exact carried probe other stored message
  · intro probe other stored message
    rw [stored_lookup] at stored
    split at stored
    · rename_i same
      cases stored
      exact same ▸ carried id ctx found message
    · exact carried probe other stored message

/-- The last reference goes: the context has nobody to see to it, and no message. -/
private theorem destroyed_empty (counted : Counted pair (some id)) (carried : Carried pair none)
    (done : pair.decRef id = .ok (next, fates)) {which : Nat} {mMsg : Option Nat}
    (destroyed : .destroyed which mMsg ∈ fates) : mMsg = none := by
  obtain ⟨ctx, found, ⟨last, _, rfl⟩ | ⟨_, _, rfl⟩⟩ := dec_ref_cases done
  · cases List.mem_singleton.mp destroyed
    by_contra message
    have due := carried id ctx found message
    have within := dues_le_refs pair id
    have count := counted.refs id
    rw [mRefOf, found, one_self] at count
    simp only [Option.elim_some] at count
    rw [one_none] at due
    omega
  · cases destroyed

private theorem owned_made (counted : Counted pair none) (owned : Owned pair none) (site : Site) :
    Owned (made pair site) (some pair.fresh) := by
  have unused := fresh_unused counted
  refine ⟨fun probe => ?_, fun probe ctx msg stored message => ?_⟩
  · have still : dues (made pair site) probe = dues pair probe := rfl
    have before := owned.once probe
    have within := dues_le_refs pair probe
    rw [one_none] at before
    by_cases same : probe = pair.fresh
    · subst same
      rw [still, one_self]
      omega
    · rw [still, one_other same]
      exact before
  · have stored : (pair.store pair.fresh _).contexts probe = some ctx := stored
    rw [stored_lookup] at stored
    split at stored
    · rename_i same
      cases stored
      cases site <;> simp_all [Site.carries, Site.type]
    · exact owned.own probe ctx msg stored message

private theorem carried_made (carried : Carried pair none) (site : Site) : Carried (made pair site) (some pair.fresh) := by
  intro probe ctx stored message
  have stored : (pair.store pair.fresh _).contexts probe = some ctx := stored
  have still : dues (made pair site) probe = dues pair probe := rfl
  rw [stored_lookup] at stored
  rw [still]
  split at stored
  · rename_i same
    rw [same, one_self]
    omega
  · have before := carried probe ctx stored message
    rw [one_none] at before
    omega

/-! ### One step -/

/-- Nobody is to see to the context, now or later. -/
def Lost (pair : ServicePair) (id : Nat) : Prop := id < pair.fresh ∧ dues pair id = 0

/-- A service is about to hand over a message that the other one does not take. -/
def forwardRefused (pair : ServicePair) (side : Side) : Bool :=
  match (pair.service side).phase with
  | .processing id _ =>
    match pair.contexts id with
    | some ctx => forwards side ctx.mType && ctx.mMsg.isSome && !(pair.service side.other).mRunning
    | none => false
  | _ => false

/-- The hand-over of a message is refused, because its target has been stopped. -/
def refused (role : Role) (pair : ServicePair) : ServicePair.Event → Bool
  | .create site => site.present role && site.carries && !(pair.service (site.target role)).mRunning
  | .run side => forwardRefused pair side
  | .letGo _ => false
  | .stop _ => false

/-- The same, where nobody looks at the refusal. -/
def strands (role : Role) (pair : ServicePair) (event : ServicePair.Event) : Bool :=
  refused role pair event && event ≠ .create .readData

structure Inv (pair : ServicePair) : Prop where
  counted : Counted pair none
  owned : Owned pair none

private theorem process_cases (done : pair.process side id = .ok (next, fates)) :
    ∃ ctx, pair.contexts id = some ctx ∧
      (forwards side ctx.mType = true ∧ fates = [] ∧ (∃ pushed, pair.enqueue side.other id = .ok (next, pushed)) ∨
      forwards side ctx.mType = false ∧
        (∃ msg, ctx.mMsg = some msg ∧ pair.clear id = .ok next ∧ fates = [.disposed msg]) ∨
      ctx.mType ≠ .recv ∧ ctx.mType ≠ .send ∧ next = pair ∧ fates = []) := by
  obtain ⟨ctx, found, rest⟩ := bind_ok.mp done
  refine ⟨ctx, look_ok.mp found, ?_⟩
  split at rest
  · rename_i forwarded
    obtain ⟨⟨after, pushed⟩, enqueued, same⟩ := bind_ok.mp rest
    cases same
    exact .inl ⟨forwarded, rfl, pushed, enqueued⟩
  rename_i kept
  split at rest
  · obtain ⟨again, foundAgain, rest⟩ := bind_ok.mp rest
    cases found.symm.trans foundAgain
    cases message : ctx.mMsg with
    | none =>
      rw [message] at rest
      cases rest
    | some msg =>
      rw [message] at rest
      obtain ⟨cleared, clears, same⟩ := bind_ok.mp rest
      cases same
      exact .inr (.inl ⟨by simpa using kept, msg, rfl, clears, rfl⟩)
  split at rest
  · rename_i quiet
    cases rest
    obtain ⟨accept, _⟩ | ⟨drop, _⟩ := quiet
    · exact .inr (.inr ⟨by simp [accept], by simp [accept], rfl, rfl⟩)
    · exact .inr (.inr ⟨by simp [drop], by simp [drop], rfl, rfl⟩)
  · cases rest

/-- A service processes what it has in hand. -/
private theorem processing_of_seen {type : Nat → OperType} (done : service.runStep type true = .ok (after, .processed id)) :
    ∃ ctxVec, service.phase = .processing id ctxVec := by
  have step : Step type service (.run true) after (.processed id) := step_cases done
  cases step with
  | processes _ _ ctxVec _ phase => exact ⟨ctxVec, phase⟩

private theorem inv_process (counted : Counted pair none) (owned : Owned pair (some id))
    (done : pair.process side id = .ok (next, fates)) : Inv next := by
  obtain ⟨ctx, found, ⟨_, _, pushed, enqueued⟩ | ⟨_, msg, _, clears, _⟩ | ⟨_, _, rfl, _⟩⟩ := process_cases done
  · exact ⟨counted_enqueue counted enqueued, owned_enqueue owned enqueued⟩
  · exact ⟨counted_clear counted clears, owned_clear owned clears⟩
  · exact ⟨counted, fun probe => Nat.le_trans (Nat.le_add_right _ _) (owned.once probe), owned.own⟩

private theorem create_cases {site : Site} (done : pair.create role site = .ok (next, fates)) :
    fates = [] ∧ ∃ between pushed, (made pair site).enqueue (site.target role) pair.fresh = .ok (between, pushed) ∧
      (site = .readData ∧ pushed = false ∧ between.clear pair.fresh = .ok next ∨
        (site = .readData → pushed = true) ∧ next = between) := by
  obtain ⟨⟨between, pushed⟩, enqueued, rest⟩ := bind_ok.mp done
  simp only at rest
  split at rest
  · rename_i reset
    obtain ⟨cleared, clears, same⟩ := bind_ok.mp rest
    cases same
    exact ⟨rfl, between, pushed, enqueued, .inl ⟨reset.1, reset.2, clears⟩⟩
  · rename_i kept
    cases rest
    refine ⟨rfl, next, pushed, enqueued, .inr ⟨fun read => ?_, rfl⟩⟩
    exact Bool.eq_true_of_not_eq_false fun refused => kept ⟨read, refused⟩

private theorem inv_create {site : Site} (inv : Inv pair) (done : pair.create role site = .ok (next, fates)) :
    Inv next := by
  obtain ⟨_, between, pushed, enqueued, rest⟩ := create_cases done
  have counted := counted_enqueue (counted_made inv.counted site) enqueued
  have owned := owned_enqueue (owned_made inv.counted inv.owned site) enqueued
  obtain ⟨_, _, clears⟩ | ⟨_, rfl⟩ := rest
  · exact ⟨counted_clear counted clears, owned_clear owned clears⟩
  · exact ⟨counted, owned⟩

private theorem inv_react {seen : Seen Nat} (counted : Counted pair (releases seen)) (owned : Owned pair (settles seen))
    (done : pair.react side seen = .ok (next, fates)) : Inv next := by
  cases seen with
  | processed id => exact inv_process counted owned done
  | discarded id =>
    obtain ⟨cleared, clears, same⟩ := bind_ok.mp done
    cases same
    exact ⟨counted_clear counted clears, owned_clear owned clears⟩
  | released id => exact ⟨counted_dec_ref counted done, owned_dec_ref owned done⟩
  | nothing | accepted _ | refused _ | taken _ =>
    cases done
    exact ⟨counted, owned⟩

private theorem inv_stop (inv : Inv pair) (side : Side) : Inv (pair.put side (pair.service side).stop) := by
  have sameRefs : ∀ id, refs (pair.put side (pair.service side).stop) id = refs pair id := by
    cases side <;> exact fun _ => rfl
  have sameDues : ∀ id, dues (pair.put side (pair.service side).stop) id = dues pair id := by
    cases side <;> exact fun _ => rfl
  refine ⟨⟨fun id => ?_, fun id ctx found => ?_⟩, ⟨fun id => ?_, fun id ctx msg found => ?_⟩⟩
  · rw [mRefOf, put_contexts, sameRefs]
    exact inv.counted.refs id
  · rw [put_contexts] at found
    rw [put_fresh]
    exact inv.counted.alive id ctx found
  · rw [sameDues]
    exact inv.owned.once id
  · rw [put_contexts] at found
    exact inv.owned.own id ctx msg found

private theorem inv_step (inv : Inv pair) (done : step role pair event = .ok (next, fates)) : Inv next := by
  cases event with
  | create site =>
    simp only [ServicePair.step] at done
    split at done
    · exact inv_create inv done
    · cases done
      exact inv
  | letGo id =>
    simp only [ServicePair.step] at done
    split at done
    · rename_i inside
      have owned : Owned { pair with held := pair.held.erase id } none := ⟨inv.owned.once, inv.owned.own⟩
      exact ⟨counted_dec_ref (counted_let_go inv.counted inside) done, owned_dec_ref owned done⟩
    · cases done
      exact inv
  | stop side =>
    cases done
    exact inv_stop inv side
  | run side =>
    obtain ⟨⟨after, seen⟩, ran, reacts⟩ := bind_ok.mp done
    exact inv_react (counted_run inv.counted ran) (owned_run inv.owned ran) reacts

private theorem inv_new : Inv ServicePair.new where
  counted := ⟨fun _ => rfl, fun _ _ found => by cases found⟩
  owned := ⟨fun _ => Nat.zero_le 1, fun _ _ _ found => by cases found⟩

/-! ### Steps that strand no message -/

private theorem carried_process (owned : Owned pair (some id)) (carried : Carried pair (some id))
    (taken : ∀ ctx, pair.contexts id = some ctx → forwards side ctx.mType = true → ctx.mMsg ≠ none →
      (pair.service side.other).mRunning = true)
    (done : pair.process side id = .ok (next, fates)) : Carried next none ∧ ∀ which mMsg, .destroyed which mMsg ∉ fates := by
  obtain ⟨ctx, found, ⟨forwarded, rfl, pushed, enqueued⟩ | ⟨_, msg, _, clears, rfl⟩ | ⟨noRecv, noSend, rfl, rfl⟩⟩ :=
    process_cases done
  · refine ⟨carried_enqueue carried ?_ enqueued, by simp⟩
    by_cases empty : ctx.mMsg = none
    · right
      intro again foundAgain
      cases found.symm.trans foundAgain
      exact empty
    · exact .inl (taken ctx found forwarded empty)
  · exact ⟨carried_clear carried clears, by simp⟩
  · refine ⟨fun probe other stored message => ?_, by simp⟩
    have before := carried probe other stored message
    by_cases same : probe = id
    · subst same
      cases found.symm.trans stored
      obtain ⟨msg, some⟩ := Option.ne_none_iff_exists'.mp message
      obtain ⟨_, recv | send⟩ := owned.own probe ctx msg found some
      · exact absurd recv noRecv
      · exact absurd send noSend
    · rwa [one_other same] at before

/-- The other service runs, where a message is forwarded and not refused. -/
private theorem forward_taken {ctxVec : List Nat} (phase : (pair.service side).phase = .processing id ctxVec)
    (fine : forwardRefused pair side = false) (found : pair.contexts id = some ctx)
    (forwarded : forwards side ctx.mType = true) (message : ctx.mMsg ≠ none) :
    (pair.service side.other).mRunning = true := by
  have some : ctx.mMsg.isSome = true := Option.isSome_iff_ne_none.mpr message
  unfold forwardRefused at fine
  rw [phase] at fine
  simp only [found, forwarded, some, Bool.true_and, Bool.not_eq_false'] at fine
  exact fine

private theorem carried_create {site : Site} (carried : Carried pair none) (present : site.present role = true)
    (fine : strands role pair (.create site) = false) (done : pair.create role site = .ok (next, fates)) :
    Carried next none ∧ ∀ which mMsg, .destroyed which mMsg ∉ fates := by
  obtain ⟨rfl, between, pushed, enqueued, rest⟩ := create_cases done
  have held := carried_made carried site
  refine ⟨?_, by simp⟩
  have same : (made pair site).service (site.target role) = pair.service (site.target role) := by
    cases site.target role <;> rfl
  obtain ⟨running, rfl, _⟩ | ⟨stopped, rfl, here⟩ := enqueue_cases enqueued
  · obtain ⟨_, refused, _⟩ | ⟨_, rfl⟩ := rest
    · cases refused
    · exact carried_enqueue held (.inl running) enqueued
  · obtain ⟨_, _, clears⟩ | ⟨looks, rfl⟩ := rest
    · exact carried_clear (here ▸ held) clears
    · have other : site ≠ .readData := fun read => by cases looks read
      have empty : site.carries = false := by
        simpa [strands, refused, present, other, ← same, stopped] using fine
      refine carried_enqueue held (.inr fun ctx found => ?_) enqueued
      have found : (pair.store pair.fresh _).contexts pair.fresh = some ctx := found
      rw [stored_lookup, if_pos rfl] at found
      cases found
      simp [empty]

private theorem carried_react {seen : Seen Nat} (counted : Counted pair (releases seen)) (owned : Owned pair (settles seen))
    (carried : Carried pair (settles seen))
    (taken : ∀ id ctx, seen = .processed id → pair.contexts id = some ctx → forwards side ctx.mType = true →
      ctx.mMsg ≠ none → (pair.service side.other).mRunning = true)
    (done : pair.react side seen = .ok (next, fates)) :
    Carried next none ∧ ∀ which mMsg, .destroyed which mMsg ∈ fates → mMsg = none := by
  cases seen with
  | processed id =>
    obtain ⟨kept, none⟩ := carried_process owned carried (fun ctx => taken id ctx rfl) done
    exact ⟨kept, fun which mMsg destroyed => absurd destroyed (none which mMsg)⟩
  | discarded id =>
    obtain ⟨cleared, clears, same⟩ := bind_ok.mp done
    cases same
    exact ⟨carried_clear carried clears, by simp⟩
  | released id => exact ⟨carried_dec_ref carried done, fun _ _ destroyed => destroyed_empty counted carried done destroyed⟩
  | nothing | accepted _ | refused _ | taken _ =>
    cases done
    exact ⟨carried, by simp⟩

private theorem carried_step (inv : Inv pair) (carried : Carried pair none) (fine : strands role pair event = false)
    (done : step role pair event = .ok (next, fates)) :
    Carried next none ∧ ∀ which mMsg, .destroyed which mMsg ∈ fates → mMsg = none := by
  cases event with
  | create site =>
    simp only [ServicePair.step] at done
    split at done
    · rename_i present
      obtain ⟨kept, none⟩ := carried_create carried present fine done
      exact ⟨kept, fun which mMsg destroyed => absurd destroyed (none which mMsg)⟩
    · cases done
      exact ⟨carried, by simp⟩
  | letGo id =>
    simp only [ServicePair.step] at done
    split at done
    · rename_i inside
      have still : Carried { pair with held := pair.held.erase id } none := carried
      exact ⟨carried_dec_ref still done,
        fun _ _ destroyed => destroyed_empty (counted_let_go inv.counted inside) still done destroyed⟩
    · cases done
      exact ⟨carried, by simp⟩
  | stop side =>
    cases done
    have sameDues : ∀ id, dues (pair.put side (pair.service side).stop) id = dues pair id := by
      cases side <;> exact fun _ => rfl
    refine ⟨fun id ctx found message => ?_, by simp⟩
    rw [put_contexts] at found
    rw [sameDues]
    exact carried id ctx found message
  | run side =>
    obtain ⟨⟨after, seen⟩, ran, reacts⟩ := bind_ok.mp done
    refine carried_react (counted_run inv.counted ran) (owned_run inv.owned ran) (carried_run carried ran) ?_ reacts
    rintro id ctx rfl found forwarded message
    obtain ⟨ctxVec, phase⟩ := processing_of_seen ran
    rw [put_contexts] at found
    rw [service_put_other]
    exact forward_taken phase (by simpa [strands, refused] using fine) found forwarded message

/-! ### Messages that are lost -/

private theorem lost_enqueue {pushed : Bool} {probe : Nat} (lost : Lost pair probe) (other : probe ≠ id)
    (done : pair.enqueue side id = .ok (next, pushed)) : Lost next probe := by
  obtain ⟨_, _, ctx, _, rfl⟩ | ⟨_, _, rfl⟩ := enqueue_cases done
  · refine ⟨?_, ?_⟩
    · rw [put_fresh]
      exact lost.1
    · rw [enqueued_dues, one_other other]
      exact lost.2
  · exact lost

private theorem lost_clear {probe : Nat} (lost : Lost pair probe) (done : pair.clear id = .ok next) : Lost next probe := by
  obtain ⟨ctx, _, rfl⟩ := clear_ok.mp done
  exact lost

private theorem lost_dec_ref {probe : Nat} (lost : Lost pair probe) (done : pair.decRef id = .ok (next, fates)) :
    Lost next probe ∧ .disposed probe ∉ fates := by
  obtain ⟨ctx, _, ⟨_, rfl, rfl⟩ | ⟨_, rfl, rfl⟩⟩ := dec_ref_cases done
  · exact ⟨lost, by simp⟩
  · exact ⟨lost, by simp⟩

/-- What a service processes was due to it. -/
private theorem lost_run {type : Nat → OperType} {seen : Seen Nat} {probe : Nat} (lost : Lost pair probe)
    (done : (pair.service side).runStep type true = .ok (after, seen)) :
    Lost (pair.put side after) probe ∧ settles seen ≠ some probe := by
  have moved := (run_counts done probe).2
  have placed := dues_put pair side after probe
  have none := lost.2
  have within := dues_le pair side probe
  refine ⟨⟨?_, ?_⟩, fun settled => ?_⟩
  · rw [put_fresh]
    exact lost.1
  · omega
  · have due := settles_due done settled
    omega

private theorem lost_process {probe : Nat} (owned : Owned pair (some id)) (lost : Lost pair probe) (other : probe ≠ id)
    (done : pair.process side id = .ok (next, fates)) : Lost next probe ∧ .disposed probe ∉ fates := by
  obtain ⟨ctx, found, ⟨_, rfl, pushed, enqueued⟩ | ⟨_, msg, message, clears, rfl⟩ | ⟨_, _, rfl, rfl⟩⟩ :=
    process_cases done
  · exact ⟨lost_enqueue lost other enqueued, by simp⟩
  · refine ⟨lost_clear lost clears, fun disposed => other ?_⟩
    cases List.mem_singleton.mp disposed
    exact (owned.own id ctx probe found message).1
  · exact ⟨lost, by simp⟩

private theorem lost_step {probe : Nat} (inv : Inv pair) (lost : Lost pair probe)
    (done : step role pair event = .ok (next, fates)) : Lost next probe ∧ .disposed probe ∉ fates := by
  cases event with
  | create site =>
    simp only [ServicePair.step] at done
    split at done
    · obtain ⟨rfl, between, pushed, enqueued, rest⟩ := create_cases done
      have made : Lost (made pair site) probe := ⟨Nat.lt_succ_of_lt lost.1, lost.2⟩
      have kept := lost_enqueue made (Nat.ne_of_lt lost.1) enqueued
      obtain ⟨_, _, clears⟩ | ⟨_, rfl⟩ := rest
      · exact ⟨lost_clear kept clears, by simp⟩
      · exact ⟨kept, by simp⟩
    · cases done
      exact ⟨lost, by simp⟩
  | letGo id =>
    simp only [ServicePair.step] at done
    split at done
    · have still : Lost { pair with held := pair.held.erase id } probe := lost
      exact lost_dec_ref still done
    · cases done
      exact ⟨lost, by simp⟩
  | stop side =>
    cases done
    cases side <;> exact ⟨lost, by simp⟩
  | run side =>
    obtain ⟨⟨after, seen⟩, ran, reacts⟩ := bind_ok.mp done
    obtain ⟨kept, other⟩ := lost_run lost ran
    have owned := owned_run inv.owned ran
    cases seen with
    | processed id => exact lost_process owned kept (fun same => other (same ▸ rfl)) reacts
    | discarded id =>
      obtain ⟨cleared, clears, same⟩ := bind_ok.mp reacts
      cases same
      exact ⟨lost_clear kept clears, by simp⟩
    | released id => exact lost_dec_ref kept reacts
    | nothing | accepted _ | refused _ | taken _ =>
      cases reacts
      exact ⟨kept, by simp⟩

/-- What a service has in hand, nobody else is to see to. -/
private theorem in_hand_lost (counted : Counted pair none) (owned : Owned pair (some id))
    (found : pair.contexts id = some ctx) : Lost pair id := by
  have once := owned.once id
  rw [one_self] at once
  exact ⟨(counted.alive id ctx found).2, by omega⟩

/-- A message that is disposed of is gone. -/
private theorem dispose_loses {msg : Nat} (inv : Inv pair) (done : step role pair event = .ok (next, fates))
    (disposed : .disposed msg ∈ fates) : fates = [.disposed msg] ∧ Lost next msg := by
  cases event with
  | create site =>
    simp only [ServicePair.step] at done
    split at done
    · obtain ⟨rfl, _⟩ := create_cases done
      cases disposed
    · cases done
      cases disposed
  | letGo id =>
    simp only [ServicePair.step] at done
    split at done
    · obtain ⟨ctx, _, ⟨_, _, rfl⟩ | ⟨_, _, rfl⟩⟩ := dec_ref_cases done
      · simp at disposed
      · cases disposed
    · cases done
      cases disposed
  | stop side =>
    cases done
    cases disposed
  | run side =>
    obtain ⟨⟨after, seen⟩, ran, reacts⟩ := bind_ok.mp done
    cases seen with
    | processed id =>
      obtain ⟨ctx, found, ⟨_, rfl, _⟩ | ⟨_, own, message, clears, rfl⟩ | ⟨_, _, _, rfl⟩⟩ := process_cases reacts
      · cases disposed
      · cases List.mem_singleton.mp disposed
        have owned := owned_run inv.owned ran
        obtain ⟨rfl, _⟩ := owned.own id ctx msg found message
        exact ⟨rfl, lost_clear (in_hand_lost (counted_run inv.counted ran) owned found) clears⟩
      · cases disposed
    | discarded id =>
      obtain ⟨cleared, clears, same⟩ := bind_ok.mp reacts
      cases same
      cases disposed
    | released id =>
      obtain ⟨ctx, _, ⟨_, _, rfl⟩ | ⟨_, _, rfl⟩⟩ := dec_ref_cases reacts
      · simp at disposed
      · cases disposed
    | nothing | accepted _ | refused _ | taken _ =>
      cases reacts
      cases disposed

/-- The hand-over that is refused is the one that the service is in. -/
private theorem run_forwarding {type : Nat → OperType} {ctxVec : List Nat} {seen : Seen Nat}
    (phase : service.phase = .processing id ctxVec) (done : service.runStep type true = .ok (after, seen)) :
    seen = .processed id := by
  unfold runStep at done
  rw [phase] at done
  obtain ⟨_, _, same⟩ := bind_ok.mp done
  cases same
  rfl

/-- A message that is refused is gone, and was not disposed of. -/
private theorem refuse_loses (inv : Inv pair) (refuses : refused role pair event = true)
    (done : step role pair event = .ok (next, fates)) : ∃ msg, ¬ Lost pair msg ∧ Lost next msg ∧ .disposed msg ∉ fates := by
  cases event with
  | create site =>
    simp only [refused, Bool.and_eq_true, Bool.not_eq_true'] at refuses
    obtain ⟨⟨present, _⟩, stopped⟩ := refuses
    simp only [ServicePair.step, if_pos present] at done
    obtain ⟨rfl, between, pushed, enqueued, rest⟩ := create_cases done
    have same : (made pair site).service (site.target role) = pair.service (site.target role) := by
      cases site.target role <;> rfl
    have found : (made pair site).contexts pair.fresh = some _ :=
      (stored_lookup pair pair.fresh pair.fresh _).trans (if_pos rfl)
    have gone := in_hand_lost (counted_made inv.counted site) (owned_made inv.counted inv.owned site) found
    refine ⟨pair.fresh, fun lost => absurd lost.1 (lt_irrefl _), ?_, by simp⟩
    obtain ⟨running, _⟩ | ⟨_, _, here⟩ := enqueue_cases enqueued
    · rw [same, stopped] at running
      cases running
    · obtain ⟨_, _, clears⟩ | ⟨_, rfl⟩ := rest
      · exact lost_clear (here ▸ gone) clears
      · exact here ▸ gone
  | letGo | stop => cases refuses
  | run side =>
    obtain ⟨⟨after, seen⟩, ran, reacts⟩ := bind_ok.mp done
    simp only [refused, forwardRefused] at refuses
    split at refuses
    · rename_i id ctxVec phase
      split at refuses
      · rename_i ctx found
        simp only [Bool.and_eq_true, Bool.not_eq_true'] at refuses
        obtain ⟨⟨forwarded, full⟩, stopped⟩ := refuses
        obtain ⟨msg, message⟩ := Option.isSome_iff_exists.mp full
        obtain rfl := run_forwarding phase ran
        have due := settles_due ran rfl
        have within := dues_le pair side id
        have foundNow : (pair.put side after).contexts id = some ctx := by rw [put_contexts, found]
        have gone := in_hand_lost (counted_run inv.counted ran) (owned_run inv.owned ran) foundNow
        obtain ⟨_, again, ⟨_, rfl, pushed, enqueued⟩ | ⟨kept, _⟩ | ⟨noRecv, noSend, _⟩⟩ := process_cases reacts
        · obtain ⟨running, _⟩ | ⟨_, _, rfl⟩ := enqueue_cases enqueued
          · rw [service_put_other, stopped] at running
            cases running
          · exact ⟨id, fun lost => by have none := lost.2; omega, gone, by simp⟩
        · cases foundNow.symm.trans again
          rw [forwarded] at kept
          cases kept
        · cases foundNow.symm.trans again
          obtain ⟨_, recv | send⟩ := (owned_run inv.owned ran).own id ctx msg foundNow message
          · exact absurd recv noRecv
          · exact absurd send noSend
      · cases refuses
    · cases refuses

/-! ### Whole runs -/

/-- All that became of contexts and messages. -/
def fatesOf (seen : List (ServicePair.Event × List Fate)) : List Fate := seen.flatMap Prod.snd

/-- Each message is disposed of once at most, and is gone then. -/
structure Once (pair : ServicePair) (all : List Fate) : Prop where
  inv : Inv pair
  once : ∀ msg, all.count (.disposed msg) ≤ 1
  lost : ∀ msg, .disposed msg ∈ all → Lost pair msg

private theorem once_step {all : List Fate} (held : Once pair all) (done : step role pair event = .ok (next, fates)) :
    Once next (all ++ fates) := by
  obtain ⟨inv, once, lost⟩ := held
  refine ⟨inv_step inv done, fun msg => ?_, fun msg disposed => ?_⟩
  · rw [List.count_append]
    by_cases now : .disposed msg ∈ fates
    · obtain ⟨only, _⟩ := dispose_loses inv done now
      have before : .disposed msg ∉ all := fun earlier => (lost_step inv (lost msg earlier) done).2 now
      rw [List.count_eq_zero.mpr before, only]
      simp
    · rw [List.count_eq_zero.mpr now]
      exact once msg
  · rcases List.mem_append.mp disposed with earlier | now
    · exact (lost_step inv (lost msg earlier) done).1
    · exact (dispose_loses inv done now).2

/-- In every run each message is disposed of once at most. If no hand-over of a
message is refused, but those of `ReadData`, no context is destroyed with a message
in it. Where one is refused, at any of the sites, its message is not disposed of at
all, then or later. -/
theorem messages_are_owned (role : Role) {events : List ServicePair.Event} {outputs : List (List Fate)}
    (ran : run (step role) .new events = .ok (pair, outputs)) :
    (∀ msg, outputs.flatten.count (.disposed msg) ≤ 1) ∧
    (EveryStep (step role) (fun pair event => strands role pair event = false) .new events →
      ∀ id mMsg, .destroyed id mMsg ∈ outputs.flatten → mMsg = none) ∧
    ∀ event next fates, refused role pair event = true → step role pair event = .ok (next, fates) →
      ∃ msg, .disposed msg ∉ outputs.flatten ++ fates ∧
        ∀ more last outputs', run (step role) next more = .ok (last, outputs') → .disposed msg ∉ outputs'.flatten := by
  have every : fatesOf (events.zip outputs) = outputs.flatten := by
    have all : (events.zip outputs).map Prod.snd = outputs := List.map_snd_zip (Nat.le_of_eq (run_length ran))
    rw [fatesOf, List.flatMap_def, all]
  have once : Once pair outputs.flatten := by
    rw [← every]
    exact run_history_always (fun pair seen => Once pair (fatesOf seen))
      (fun _ _ _ _ _ held taken => by simpa [fatesOf] using once_step held taken)
      ⟨inv_new, fun _ => Nat.zero_le 1, fun _ disposed => by cases disposed⟩ ran
  refine ⟨once.once, fun fine id mMsg destroyed => ?_, fun event next fates refuses done => ?_⟩
  · have clean : (Inv pair ∧ Carried pair none) ∧
        ∀ id mMsg, .destroyed id mMsg ∈ fatesOf (events.zip outputs) → mMsg = none := by
      refine run_history (fun pair seen => (Inv pair ∧ Carried pair none) ∧
        ∀ id mMsg, .destroyed id mMsg ∈ fatesOf seen → mMsg = none) ?_ ?_ fine ran
      · rintro pair seen event next fates ⟨⟨inv, carried⟩, empty⟩ meets taken
        obtain ⟨kept, now⟩ := carried_step inv carried meets taken
        refine ⟨⟨inv_step inv taken, kept⟩, fun id mMsg destroyed => ?_⟩
        rw [fatesOf, List.flatMap_append, List.flatMap_singleton] at destroyed
        rcases List.mem_append.mp destroyed with before | last
        · exact empty id mMsg before
        · exact now id mMsg last
      · exact ⟨⟨inv_new, fun _ _ found => by cases found⟩, fun _ _ destroyed => by cases destroyed⟩
    exact clean.2 id mMsg (every ▸ destroyed)
  · obtain ⟨msg, before, gone, notNow⟩ := refuse_loses once.inv refuses done
    refine ⟨msg, fun disposed => ?_, fun more last outputs' ranOn => ?_⟩
    · rcases List.mem_append.mp disposed with earlier | now
      · exact before (once.lost msg earlier)
      · exact notNow now
    · have later : (Inv last ∧ Lost last msg) ∧ .disposed msg ∉ fatesOf (more.zip outputs') := by
        refine run_history_always (fun pair seen => (Inv pair ∧ Lost pair msg) ∧ .disposed msg ∉ fatesOf seen) ?_
          ⟨⟨inv_step once.inv done, gone⟩, by simp [fatesOf]⟩ ranOn
        rintro pair seen event next fates ⟨⟨inv, lost⟩, never⟩ taken
        obtain ⟨kept, notNow⟩ := lost_step inv lost taken
        refine ⟨⟨inv_step inv taken, kept⟩, fun disposed => ?_⟩
        rw [fatesOf, List.flatMap_append, List.flatMap_singleton] at disposed
        exact (List.mem_append.mp disposed).elim never notNow
      have all : fatesOf (more.zip outputs') = outputs'.flatten := by
        have same : (more.zip outputs').map Prod.snd = outputs' := List.map_snd_zip (Nat.le_of_eq (run_length ranOn))
        rw [fatesOf, List.flatMap_def, same]
      exact all ▸ later.2

/-- A message comes to a client that runs, is passed on, and is read. -/
private def received : List ServicePair.Event :=
  [.create .readData, .letGo 0, .run .net, .run .net, .run .net, .run .net, .run .net, .run .peer, .run .peer,
    .run .peer, .run .peer, .run .peer]

theorem a_message_is_read :
    ∃ pair outputs, run (step .client) .new received = .ok (pair, outputs) ∧
      outputs.flatten = [.disposed 0, .destroyed 0 none] ∧ ∀ id mMsg, .destroyed id mMsg ∈ outputs.flatten →
        mMsg = none := by
  obtain ⟨pair, outputs, ran, fates⟩ : ∃ pair outputs, run (step .client) .new received = .ok (pair, outputs) ∧
      outputs.flatten = [.disposed 0, .destroyed 0 none] := ⟨_, _, rfl, rfl⟩
  exact ⟨pair, outputs, ran, fates, (messages_are_owned .client ran).2.1 (by decide)⟩

/-- A client is stopped while its net service passes a message on. -/
theorem a_stop_destroys_a_message :
    ∃ pair outputs, run (step .client) .new
        [.create .readData, .letGo 0, .run .net, .run .net, .run .net, .stop .peer, .run .net, .run .net] =
          .ok (pair, outputs) ∧
      outputs.flatten = [.destroyed 0 (some 0)] :=
  ⟨_, _, rfl, rfl⟩

end ChatRoom.ContextOwnership
