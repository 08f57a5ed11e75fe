import ChatRoom.LogicService

/-! What becomes of the contexts in the queue of a service that is stopped. Each is
taken at most once and in order, whatever happens. But `Run` tests its flag between
two batches, and leaves without a look at the queue: a stop that falls there leaves
what was accepted since the last batch, unless `Run` is already behind its test. -/
namespace ChatRoom.ServiceStop
open Lib LogicService

variable {Ctx : Type} {type : Ctx → OperType} {service next final : LogicService Ctx} {event : Event Ctx}
  {seen : Seen Ctx} {all : List (Seen Ctx)}

/-! ### What was seen -/

def acceptedOf (all : List (Seen Ctx)) : List Ctx := all.filterMap fun
  | .accepted ctx => some ctx
  | _ => none

def takenOf (all : List (Seen Ctx)) : List Ctx := all.flatMap fun
  | .taken ctxVec => ctxVec
  | _ => []

/-- Processed or discarded. -/
def settledOf (all : List (Seen Ctx)) : List Ctx := all.filterMap fun
  | .processed ctx => some ctx
  | .discarded ctx => some ctx
  | _ => none

def releasedOf (all : List (Seen Ctx)) : List Ctx := all.filterMap fun
  | .released ctx => some ctx
  | _ => none

/-- Nothing is lost, doubled or passed by another context. -/
structure Conserved (service : LogicService Ctx) (all : List (Seen Ctx)) : Prop where
  accepted : acceptedOf all = takenOf all ++ service.mQueue
  settled : takenOf all = settledOf all ++ unsettled service.phase
  released : takenOf all = releasedOf all ++ unreleased service.phase

/-! ### Conservation -/

@[simp] private theorem accepted_append (all more : List (Seen Ctx)) :
    acceptedOf (all ++ more) = acceptedOf all ++ acceptedOf more := List.filterMap_append

@[simp] private theorem taken_append (all more : List (Seen Ctx)) :
    takenOf (all ++ more) = takenOf all ++ takenOf more := List.flatMap_append

@[simp] private theorem settled_append (all more : List (Seen Ctx)) :
    settledOf (all ++ more) = settledOf all ++ settledOf more := List.filterMap_append

@[simp] private theorem released_append (all more : List (Seen Ctx)) :
    releasedOf (all ++ more) = releasedOf all ++ releasedOf more := List.filterMap_append

/-- A step at which no context moves. -/
private theorem conserved_quiet (conserved : Conserved service all) (queue : next.mQueue = service.mQueue)
    (settled : unsettled next.phase = unsettled service.phase)
    (released : unreleased next.phase = unreleased service.phase) : Conserved next (all ++ [.nothing]) := by
  constructor
  · rw [queue]
    simpa [acceptedOf, takenOf] using conserved.accepted
  · rw [settled]
    simpa [settledOf, takenOf] using conserved.settled
  · rw [released]
    simpa [releasedOf, takenOf] using conserved.released

private theorem conserved_step (conserved : Conserved service all)
    (done : step type service event = .ok (next, seen)) : Conserved next (all ++ [seen]) := by
  have accepted := conserved.accepted
  have settled := conserved.settled
  have released := conserved.released
  cases step_cases done with
  | idle | stops => exact conserved_quiet conserved rfl rfl rfl
  | inits phase | fails _ _ phase | enters _ _ phase | leaves _ _ phase | ends _ phase | begins _ _ _ _ phase =>
    exact conserved_quiet conserved rfl (by rw [phase]; rfl) (by rw [phase]; rfl)
  | accepts ctx running =>
    constructor
    · rw [accepted_append, taken_append, accepted]
      simp [acceptedOf, takenOf]
    · simpa [settledOf, takenOf] using settled
    · simpa [releasedOf, takenOf] using released
  | refuses ctx stopped =>
    constructor
    · simpa [acceptedOf, takenOf] using accepted
    · simpa [settledOf, takenOf] using settled
    · simpa [releasedOf, takenOf] using released
  | takes _ phase =>
    rw [phase] at settled released
    simp only [unsettled, unreleased, List.append_nil] at settled released
    constructor
    · simpa [acceptedOf, takenOf] using accepted
    · rw [taken_append, settled_append, settled]
      simp [settledOf, takenOf, unsettled]
    · rw [taken_append, released_append, released]
      simp [releasedOf, takenOf, unreleased]
  | discards _ ctx ctxVec _ phase | processes _ ctx ctxVec _ phase _ | releases _ ctx ctxVec phase =>
    rw [phase] at settled released
    constructor
    · simpa [acceptedOf, takenOf] using accepted
    · rw [taken_append, settled_append, settled]
      simp [settledOf, takenOf, unsettled]
    · rw [taken_append, released_append, released]
      simp [releasedOf, takenOf, unreleased]

/-! ### When a stop loses nothing -/

/-- A stop falls on an empty queue, or between the test of `Run` and the batch that
it takes then; an `Init` that fails has nothing behind it, and nothing is enqueued
after it. -/
def Timely (service : LogicService Ctx) : Event Ctx → Prop
  | .stop => service.mRunning = true → service.mQueue = [] ∨ service.phase = .waiting
  | .init err => service.phase = .init → err ≠ 0 → service.mQueue = []
  | .enqueue _ => service.phase = .returned → service.mRunning = false
  | .run _ => True

instance [DecidableEq Ctx] (service : LogicService Ctx) (event : Event Ctx) : Decidable (Timely service event) :=
  match event with
  | .stop => inferInstanceAs (Decidable (_ → _ ∨ _))
  | .init _ => inferInstanceAs (Decidable (_ → _ → _))
  | .enqueue _ => inferInstanceAs (Decidable (_ → _))
  | .run _ => isTrue trivial

/-- A service that is stopped has nothing in its queue that it will not take. -/
structure Drained (service : LogicService Ctx) : Prop where
  stopped : service.mRunning = false → service.mQueue = [] ∨ service.phase = .waiting
  returned : service.phase = .returned → service.mQueue = []

private theorem drained_step (drained : Drained service) (timely : Timely service event)
    (done : step type service event = .ok (next, seen)) : Drained next := by
  obtain ⟨stopped, returned⟩ := drained
  cases step_cases done with
  | idle | refuses => exact ⟨stopped, returned⟩
  | accepts ctx running =>
    refine ⟨fun halted => absurd (running.symm.trans halted) (by decide), fun ended => ?_⟩
    exact absurd (running.symm.trans (timely ended)) (by decide)
  | stops =>
    refine ⟨fun _ => ?_, returned⟩
    cases running : service.mRunning with
    | true => exact timely running
    | false => exact stopped running
  | fails err failed phase =>
    have empty : service.mQueue = [] := timely phase failed
    exact ⟨fun _ => .inl empty, fun _ => empty⟩
  | enters _ running phase => exact ⟨fun _ => .inr rfl, by simp⟩
  | leaves _ halted phase =>
    have empty : service.mQueue = [] := (stopped halted).resolve_right (by simp [phase])
    exact ⟨fun _ => .inl empty, fun _ => empty⟩
  | takes => exact ⟨fun _ => .inl rfl, by simp⟩
  | inits phase | ends _ phase | begins _ _ _ _ phase | releases _ _ _ phase | discards _ _ _ _ phase =>
    exact ⟨fun halted => .inl ((stopped halted).resolve_right (by simp [phase])), by simp⟩
  | processes _ ctx ctxVec mRunning phase flag =>
    refine ⟨fun halted => .inl ?_, by simp⟩
    obtain same | ⟨running, _⟩ := flag
    · exact (stopped (same.symm.trans halted)).resolve_right (by simp [phase])
    · exact absurd (running.symm.trans halted) (by decide)

/-! ### When it does -/

/-- `Process` has a start in hand: it sets the flag again. -/
def Restarting (type : Ctx → OperType) (service : LogicService Ctx) : Prop :=
  ∃ ctx ctxVec, service.phase = .processing ctx ctxVec ∧ type ctx = .start

/-- What is in the queue stays there. -/
def Stuck (type : Ctx → OperType) (service : LogicService Ctx) : Prop :=
  service.mQueue ≠ [] ∧ (service.phase = .returned ∨
    service.mRunning = false ∧ service.phase ≠ .waiting ∧ ¬ Restarting type service)

private theorem stuck_step (stuck : Stuck type service) (done : step type service event = .ok (next, seen)) :
    Stuck type next := by
  obtain ⟨some, place⟩ := stuck
  cases step_cases done with
  | idle | refuses => exact ⟨some, place⟩
  | accepts ctx running =>
    exact ⟨by simp, place.imp_right fun halted => absurd (running.symm.trans halted.1) (by decide)⟩
  | stops => exact ⟨some, place.imp_right fun halted => ⟨rfl, halted.2⟩⟩
  | fails | leaves => exact ⟨some, .inl rfl⟩
  | inits phase | ends _ phase | discards _ _ _ _ phase | releases _ _ _ phase =>
    obtain ⟨halted, _, _⟩ := place.resolve_left (by simp [phase])
    exact ⟨some, .inr ⟨halted, by simp, by simp [Restarting]⟩⟩
  | enters _ running phase | begins _ _ _ running phase =>
    have halted := (place.resolve_left (by simp [phase])).1
    exact absurd (running.symm.trans halted) (by decide)
  | takes _ phase =>
    exact absurd phase (place.resolve_left (by simp [phase])).2.1
  | processes _ ctx ctxVec mRunning phase flag =>
    obtain ⟨halted, _, noStart⟩ := place.resolve_left (by simp [phase])
    have still : mRunning = service.mRunning := flag.resolve_right fun start => noStart ⟨ctx, ctxVec, phase, start.2⟩
    exact ⟨some, .inr ⟨still.trans halted, by simp, by simp [Restarting]⟩⟩

private theorem untimely_sticks (untimely : ¬ Timely service event) (calm : ¬ Restarting type service)
    (done : step type service event = .ok (next, seen)) : Stuck type next := by
  cases event with
  | run => exact absurd trivial untimely
  | stop =>
    cases done
    simp only [Timely, not_forall, not_or] at untimely
    obtain ⟨_, some, elsewhere⟩ := untimely
    exact ⟨some, .inr ⟨rfl, elsewhere, calm⟩⟩
  | init err =>
    simp only [Timely, not_forall] at untimely
    obtain ⟨phase, failed, some⟩ := untimely
    simp only [step, initStep, phase, if_neg failed] at done
    cases done
    exact ⟨some, .inl rfl⟩
  | enqueue ctx =>
    simp only [Timely, not_forall, Bool.not_eq_false] at untimely
    obtain ⟨ended, running⟩ := untimely
    simp only [step, enqueue, if_pos running] at done
    cases done
    exact ⟨by simp, .inl ended⟩

/-! ### Whole runs -/

/-- In every run, contexts are taken at most once and in the order in which they
were accepted. If every step is timely, a service that has returned has settled and
released each of them once, and its queue is empty. After a step that is not, the
queue is never empty again, unless a start is being processed at that moment. -/
theorem accepted_contexts_are_settled (type : Ctx → OperType) {events : List (Event Ctx)}
    (ran : run (step type) LogicService.started events = .ok (final, all)) :
    takenOf all <+: acceptedOf all ∧
    (EveryStep (step type) Timely LogicService.started events → final.phase = .returned →
      settledOf all = acceptedOf all ∧ releasedOf all = acceptedOf all ∧ final.mQueue = []) ∧
    ∀ event next seen, ¬ Timely final event → ¬ Restarting type final → step type final event = .ok (next, seen) →
      ∀ more last seenThen, run (step type) next more = .ok (last, seenThen) → last.mQueue ≠ [] := by
  have every : (events.zip all).map Prod.snd = all := List.map_snd_zip (Nat.le_of_eq (run_length ran))
  have conserved : Conserved final ((events.zip all).map Prod.snd) :=
    run_history_always (fun service seen => Conserved service (seen.map Prod.snd))
      (fun _ _ _ _ _ held taken => by simpa using conserved_step held taken) ⟨rfl, rfl, rfl⟩ ran
  rw [every] at conserved
  refine ⟨conserved.accepted ▸ List.prefix_append .., fun timely ended => ?_, ?_⟩
  · have drained : Drained final := run_history (fun service _ => Drained service)
      (fun _ _ _ _ _ held meets taken => drained_step held meets taken)
      ⟨fun _ => .inl rfl, fun _ => rfl⟩ timely ran
    have empty := drained.returned ended
    have accepted := conserved.accepted
    have settled := conserved.settled
    have released := conserved.released
    rw [empty, List.append_nil] at accepted
    rw [ended] at settled released
    simp only [unsettled, unreleased, List.append_nil] at settled released
    exact ⟨(accepted.trans settled).symm, (accepted.trans released).symm, empty⟩
  · intro event next seen untimely calm done more last seenThen ranOn
    have stuck : Stuck type last := run_invariant (Stuck type)
      (fun _ _ _ _ held taken => stuck_step held taken) (untimely_sticks untimely calm done) ranOn
    exact stuck.1

/-- One context is processed, the service is stopped while it waits, and the other
is discarded. -/
theorem a_timely_stop_settles :
    ∃ final all, run (step fun _ : Nat => .recv) LogicService.started
        [.init 0, .run true, .enqueue 1, .run true, .run true, .run true, .run true, .run true, .run true, .enqueue 2,
          .stop, .run true, .run true, .run true, .run true, .run true] = .ok (final, all) ∧
      settledOf all = [1, 2] ∧ releasedOf all = [1, 2] ∧ final.mQueue = [] := by
  obtain ⟨final, all, ran, ended, accepted⟩ : ∃ final all, run (step fun _ : Nat => .recv) LogicService.started
      [.init 0, .run true, .enqueue 1, .run true, .run true, .run true, .run true, .run true, .run true, .enqueue 2,
        .stop, .run true, .run true, .run true, .run true, .run true] = .ok (final, all) ∧
      final.phase = .returned ∧ acceptedOf all = [1, 2] := ⟨_, _, rfl, rfl, rfl⟩
  obtain ⟨settled, released, empty⟩ := (accepted_contexts_are_settled (fun _ => .recv) ran).2.1 (by decide) ended
  exact ⟨final, all, ran, settled.trans accepted, released.trans accepted, empty⟩

/-- A context comes while another one is processed, and then the stop: it is
accepted, and nobody takes it. -/
theorem a_stop_in_a_batch_leaves_a_context :
    ∃ final all, run (step fun _ : Nat => .recv) LogicService.started
        [.init 0, .run true, .enqueue 1, .run true, .run true, .enqueue 2, .stop, .run true, .run true, .run true,
          .run true] = .ok (final, all) ∧
      final.phase = .returned ∧ acceptedOf all = [1, 2] ∧ settledOf all = [1] ∧ final.mQueue = [2] :=
  ⟨_, _, rfl, rfl, rfl, rfl, rfl⟩

end ChatRoom.ServiceStop
