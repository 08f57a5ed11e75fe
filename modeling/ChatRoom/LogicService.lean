import ChatRoom.Lib.Runs
import ChatRoom.Lib.Memory

/-! `LogicService`: a thread that takes the contexts of a queue in batches, and
processes one after the other, while other threads append to the queue, until one
of them stops it. The queue and the flag are changed under the lock, but `Run`
looks at the flag without it, so each of its looks is a step of its own. -/
namespace ChatRoom
open Lib

/-- `OperContext::_type`. -/
inductive OperType where
  | recv | send | start | stop | accept | drop
  deriving DecidableEq

variable {Ctx : Type}

/-- Where `Run` is. -/
inductive Phase (Ctx : Type) where
  /-- In front of `Init`. -/
  | init
  /-- At the test of the `while`. -/
  | test
  /-- Behind the test, without a batch. -/
  | waiting
  /-- At the `if` of the `for`, or at its end; what is left of `ctxVec`. -/
  | batch (ctxVec : List Ctx)
  /-- In `Process`. -/
  | processing (ctx : Ctx) (ctxVec : List Ctx)
  /-- In front of `DecRef`. -/
  | releasing (ctx : Ctx) (ctxVec : List Ctx)
  | returned
  deriving DecidableEq

structure LogicService (Ctx : Type) where
  mRunning : Bool
  mQueue : List Ctx
  phase : Phase Ctx
  deriving DecidableEq

namespace LogicService

/-- `Start` has set the flag and started the thread. -/
def started : LogicService Ctx where
  mRunning := true
  mQueue := []
  phase := .init

/-- What one of the threads does next. -/
inductive Event (Ctx : Type) where
  /-- Any thread calls `Enqueue`, also the one of the service from `Process`. -/
  | enqueue (ctx : Ctx)
  /-- `Stop`, without the `Join` behind it. -/
  | stop
  /-- The thread calls `Init`, which returns this. -/
  | init (err : Int)
  /-- The thread takes its next step in `Run`; a virtual `Process` that it is in
  returns this. -/
  | run (processed : Bool)
  deriving DecidableEq

/-- What a step does with a context. -/
inductive Seen (Ctx : Type) where
  | nothing
  | accepted (ctx : Ctx)
  | refused (ctx : Ctx)
  | taken (ctxVec : List Ctx)
  | processed (ctx : Ctx)
  | discarded (ctx : Ctx)
  /-- `DecRef`. -/
  | released (ctx : Ctx)
  deriving DecidableEq

/-- `Enqueue`. -/
def enqueue (service : LogicService Ctx) (ctx : Ctx) : LogicService Ctx × Seen Ctx :=
  if service.mRunning then ({ service with mQueue := service.mQueue ++ [ctx] }, .accepted ctx)
  else (service, .refused ctx)

/-- The critical section of `Stop`. -/
def stop (service : LogicService Ctx) : LogicService Ctx := { service with mRunning := false }

/-- `LogicService::Process`, and then the virtual one, which has to know the
context. A stop that is a context makes the thread wait for itself. -/
def process (service : LogicService Ctx) (type : OperType) (processed : Bool) : Except Fault (LogicService Ctx) :=
  match type with
  | .start => .ok { service with mRunning := true }
  | .stop => .error .assertion
  | _ => if processed then .ok service else .error .assertion

/-- The next step of `Run` behind `Init`. -/
def runStep (type : Ctx → OperType) (service : LogicService Ctx) (processed : Bool) :
    Except Fault (LogicService Ctx × Seen Ctx) :=
  match service.phase with
  | .init => .ok (service, .nothing)
  | .test =>
    if service.mRunning then .ok ({ service with phase := .waiting }, .nothing)
    else .ok ({ service with phase := .returned }, .nothing)
  | .waiting =>
    -- the condition variable goes on waiting
    if service.mQueue = [] ∧ service.mRunning then .ok (service, .nothing)
    else .ok ({ service with mQueue := [], phase := .batch service.mQueue }, .taken service.mQueue)
  | .batch [] => .ok ({ service with phase := .test }, .nothing)
  | .batch (ctx :: ctxVec) =>
    if service.mRunning then .ok ({ service with phase := .processing ctx ctxVec }, .nothing)
    else .ok ({ service with phase := .releasing ctx ctxVec }, .discarded ctx)
  | .processing ctx ctxVec => do
    let service ← service.process (type ctx) processed
    return ({ service with phase := .releasing ctx ctxVec }, .processed ctx)
  | .releasing ctx ctxVec => .ok ({ service with phase := .batch ctxVec }, .released ctx)
  | .returned => .ok (service, .nothing)

/-- `Init`: `Run` returns at once where it fails. -/
def initStep (service : LogicService Ctx) (err : Int) : LogicService Ctx :=
  match service.phase with
  | .init => { service with phase := if err = 0 then .test else .returned }
  | _ => service

def step (type : Ctx → OperType) (service : LogicService Ctx) :
    Event Ctx → Except Fault (LogicService Ctx × Seen Ctx)
  | .enqueue ctx => .ok (service.enqueue ctx)
  | .stop => .ok (service.stop, .nothing)
  | .init err => .ok (service.initStep err, .nothing)
  | .run processed => service.runStep type processed

/-! ### What one step does -/

variable {type : Ctx → OperType} {service next : LogicService Ctx} {event : Event Ctx} {seen : Seen Ctx}

/-- The steps, with what each needs. -/
inductive Step (type : Ctx → OperType) (service : LogicService Ctx) :
    Event Ctx → LogicService Ctx → Seen Ctx → Prop where
  | accepts (ctx : Ctx) (running : service.mRunning = true) :
      Step type service (.enqueue ctx) { service with mQueue := service.mQueue ++ [ctx] } (.accepted ctx)
  | refuses (ctx : Ctx) (stopped : service.mRunning = false) : Step type service (.enqueue ctx) service (.refused ctx)
  | stops : Step type service .stop { service with mRunning := false } .nothing
  | inits (phase : service.phase = .init) : Step type service (.init 0) { service with phase := .test } .nothing
  | fails (err : Int) (failed : err ≠ 0) (phase : service.phase = .init) :
      Step type service (.init err) { service with phase := .returned } .nothing
  | idle (event : Event Ctx) : Step type service event service .nothing
  | enters (processed : Bool) (running : service.mRunning = true) (phase : service.phase = .test) :
      Step type service (.run processed) { service with phase := .waiting } .nothing
  | leaves (processed : Bool) (stopped : service.mRunning = false) (phase : service.phase = .test) :
      Step type service (.run processed) { service with phase := .returned } .nothing
  | takes (processed : Bool) (phase : service.phase = .waiting) :
      Step type service (.run processed) { service with mQueue := [], phase := .batch service.mQueue }
        (.taken service.mQueue)
  | ends (processed : Bool) (phase : service.phase = .batch []) :
      Step type service (.run processed) { service with phase := .test } .nothing
  | begins (processed : Bool) (ctx : Ctx) (ctxVec : List Ctx) (running : service.mRunning = true)
      (phase : service.phase = .batch (ctx :: ctxVec)) :
      Step type service (.run processed) { service with phase := .processing ctx ctxVec } .nothing
  | discards (processed : Bool) (ctx : Ctx) (ctxVec : List Ctx) (stopped : service.mRunning = false)
      (phase : service.phase = .batch (ctx :: ctxVec)) :
      Step type service (.run processed) { service with phase := .releasing ctx ctxVec } (.discarded ctx)
  | processes (processed : Bool) (ctx : Ctx) (ctxVec : List Ctx) (mRunning : Bool)
      (phase : service.phase = .processing ctx ctxVec)
      (flag : mRunning = service.mRunning ∨ mRunning = true ∧ type ctx = .start) :
      Step type service (.run processed) { service with mRunning, phase := .releasing ctx ctxVec } (.processed ctx)
  | releases (processed : Bool) (ctx : Ctx) (ctxVec : List Ctx) (phase : service.phase = .releasing ctx ctxVec) :
      Step type service (.run processed) { service with phase := .batch ctxVec } (.released ctx)

private theorem run_step_cases {processed : Bool} (done : service.runStep type processed = .ok (next, seen)) :
    Step type service (.run processed) next seen := by
  unfold runStep at done
  split at done
  · cases done
    exact .idle _
  · rename_i phase
    split at done
    · rename_i running
      cases done
      exact .enters processed running phase
    · rename_i stopped
      cases done
      exact .leaves processed (by simpa using stopped) phase
  · rename_i phase
    split at done
    · cases done
      exact .idle _
    · cases done
      exact .takes processed phase
  · rename_i phase
    cases done
    exact .ends processed phase
  · rename_i ctx ctxVec phase
    split at done
    · rename_i running
      cases done
      exact .begins processed ctx ctxVec running phase
    · rename_i stopped
      cases done
      exact .discards processed ctx ctxVec (by simpa using stopped) phase
  · rename_i ctx ctxVec phase
    obtain ⟨after, called, same⟩ := bind_ok.mp done
    cases same
    obtain ⟨mRunning, flag, rfl⟩ : ∃ mRunning,
        (mRunning = service.mRunning ∨ mRunning = true ∧ type ctx = .start) ∧ after = { service with mRunning } := by
      unfold LogicService.process at called
      split at called
      · rename_i start
        cases called
        exact ⟨true, .inr ⟨rfl, start⟩, rfl⟩
      · cases called
      · split at called
        · cases called
          exact ⟨service.mRunning, .inl rfl, rfl⟩
        · cases called
    exact .processes processed ctx ctxVec mRunning phase flag
  · rename_i ctx ctxVec phase
    cases done
    exact .releases processed ctx ctxVec phase
  · cases done
    exact .idle _

theorem step_cases (done : step type service event = .ok (next, seen)) : Step type service event next seen := by
  cases event with
  | enqueue ctx =>
    simp only [step, enqueue] at done
    split at done
    · rename_i running
      cases done
      exact .accepts ctx running
    · rename_i stopped
      cases done
      exact .refuses ctx (by simpa using stopped)
  | stop =>
    cases done
    exact .stops
  | init err =>
    cases done
    unfold initStep
    split
    · rename_i phase
      by_cases fine : err = 0
      · subst fine
        exact .inits phase
      · rw [if_neg fine]
        exact .fails err fine phase
    · exact .idle _
  | run processed => exact run_step_cases done

/-- What is taken and not settled. -/
def unsettled : Phase Ctx → List Ctx
  | .batch ctxVec => ctxVec
  | .processing ctx ctxVec => ctx :: ctxVec
  | .releasing _ ctxVec => ctxVec
  | _ => []

/-- What is taken and not released. -/
def unreleased : Phase Ctx → List Ctx
  | .batch ctxVec => ctxVec
  | .processing ctx ctxVec => ctx :: ctxVec
  | .releasing ctx ctxVec => ctx :: ctxVec
  | _ => []

end LogicService
end ChatRoom
