import ChatRoom.ServiceStart

/-! A start of a service does not hang, if `Init` returns 0. The closure's mutex is
with `Start` from the making of the closure until the wait, so the service signals
when `Start` waits; and `Run` does not return before. When `Init` fails, `Run` has
returned without a look at the queue, and `Start` waits on. -/
namespace ChatRoom.StartHandshake
open Lib ServiceStart LogicService

variable {state next : ServiceStart} {service after : LogicService Queued} {processed : Bool}

/-- The context of `Start` is in front of its `Process`, or in it. -/
def OnItsWay (service : LogicService Queued) : Prop := Queued.start ∈ unsettled service.phase ++ service.mQueue

/-! ### What the phases mean -/

/-- `Start` has not called `Enqueue`. -/
def Early : StartPhase → Prop
  | .entry | .creating | .making | .enqueuing => True
  | _ => False

/-- `Start` has called it, and the signal is still to come. -/
def Expects : StartPhase → Prop
  | .enqueued | .asleep => True
  | _ => False

/-- The wait has got its signal, or has returned without. -/
def Waited : StartPhase → Prop
  | .woken | .clearing | .leaving | .returned _ => True
  | _ => False

/-- The thread is there, and `Start` has not returned. -/
def Threaded : StartPhase → Prop
  | .entry | .creating | .returned _ => False
  | _ => True

/-- The closure is there, and `Start` has not returned from its wait. -/
def Points : StartPhase → Prop
  | .enqueuing | .enqueued | .asleep => True
  | _ => False

theorem early_or_expects {starter : StartPhase} (points : Points starter) : Early starter ∨ Expects starter := by
  cases starter with
  | enqueuing => exact .inl trivial
  | enqueued | asleep => exact .inr trivial
  | _ => cases points

/-- What the service has locked. -/
def held : SignalPhase → Option Party
  | .broadcasting | .unlocking => some .service
  | _ => none

/-- The closure, from where the two threads are. -/
def syncOf (starter : StartPhase) (signal : SignalPhase) : Option SyncClosure :=
  match starter with
  | .enqueuing | .enqueued | .clearing | .leaving => some ⟨some .starter⟩
  | .asleep | .woken => some ⟨held signal⟩
  | .entry | .creating | .making | .returned _ => none

/-- What holds in every state, as long as `Init` returns 0. -/
structure Inv (state : ServiceStart) : Prop where
  unborn : state.starter = .entry → state.created = false
  running : state.starter ≠ .entry → state.service.mRunning = true
  present : state.service.phase ≠ .returned
  created : Threaded state.starter → state.created = true
  sync : state.sync = syncOf state.starter state.signal
  locked : state.starter = .asleep ∨ state.starter = .woken ∨ held state.signal = none
  inProcess : state.signal ≠ .idle → ∃ ctxVec, state.service.phase = .processing .start ctxVec
  early : Early state.starter → ¬ OnItsWay state.service
  pointed : Points state.starter → state.mSyncClosure = true
  expected : Expects state.starter → OnItsWay state.service ∧ state.signal ≠ .unlocking ∧ state.signal ≠ .clearing
  heard : state.signalled = true → Waited state.starter

/-! ### The service -/

/-- While the service is running, `Run` does not return, and the context stays on its
way until `ProcessStart` is through with it. -/
theorem run_keeps {seen : Seen Queued} (running : service.mRunning = true) (present : service.phase ≠ .returned)
    (done : service.runStep Queued.type processed = .ok (after, seen)) :
    after.mRunning = true ∧ after.phase ≠ .returned ∧ (OnItsWay after → OnItsWay service) ∧
      ((∀ ctxVec, service.phase ≠ .processing .start ctxVec) → OnItsWay service → OnItsWay after) := by
  have same (flag : after.mRunning = true) (phase : after.phase ≠ .returned)
      (way : OnItsWay after ↔ OnItsWay service) : after.mRunning = true ∧ after.phase ≠ .returned ∧
        (OnItsWay after → OnItsWay service) ∧
        ((∀ ctxVec, service.phase ≠ .processing .start ctxVec) → OnItsWay service → OnItsWay after) :=
    ⟨flag, phase, way.mp, fun _ => way.mpr⟩
  have taken : LogicService.Step Queued.type service (.run processed) after seen := step_cases done
  cases taken with
  | idle => exact same running present Iff.rfl
  | enters _ _ phase => exact same running (by simp) (by simp [OnItsWay, phase, unsettled])
  | leaves _ stopped => cases running.symm.trans stopped
  | takes _ phase => exact same running (by simp) (by simp [OnItsWay, phase, unsettled])
  | ends _ phase => exact same running (by simp) (by simp [OnItsWay, phase, unsettled])
  | begins _ ctx ctxVec _ phase => exact same running (by simp) (by simp [OnItsWay, phase, unsettled])
  | discards _ ctx ctxVec stopped => cases running.symm.trans stopped
  | releases _ ctx ctxVec phase => exact same running (by simp) (by simp [OnItsWay, phase, unsettled])
  | processes _ ctx ctxVec mRunning phase flag =>
    refine ⟨?_, by simp, ?_, fun other way => ?_⟩
    · rcases flag with kept | ⟨set, _⟩
      · exact kept.trans running
      · exact set
    · simp only [OnItsWay, phase, unsettled]
      exact List.mem_cons_of_mem ctx
    · have different : Queued.start ≠ ctx := fun first => other ctxVec (first ▸ phase)
      simpa [OnItsWay, phase, unsettled, different] using way

/-! ### The two threads -/

attribute [local simp] held syncOf Early Expects Waited Threaded Points

theorem quiet_elsewhere (inv : Inv state) (elsewhere : ∀ ctxVec, state.service.phase ≠ .processing .start ctxVec) :
    state.signal = .idle := by
  by_contra busy
  obtain ⟨ctxVec, phase⟩ := inv.inProcess busy
  exact elsewhere ctxVec phase

/-- As long as the context is not queued, the service is not in `ProcessStart`. -/
theorem quiet_of_early (inv : Inv state) (early : ¬ OnItsWay state.service) : state.signal = .idle := by
  apply quiet_elsewhere inv
  intro ctxVec phase
  exact early (by simp [OnItsWay, phase, unsettled])

/-- What a move of `Start` keeps, from one place to another behind the first. -/
structure Onward (here there : StartPhase) : Prop where
  begun : here ≠ .entry
  left : there ≠ .entry
  threaded : Threaded there → Threaded here
  early : Early there → Early here
  expects : Expects there → Expects here
  waited : Waited here → Waited there

/-- `Start` moves on, and does something to the closure. -/
private theorem inv_moved {starter : StartPhase} {sync : Option SyncClosure} {mSyncClosure : Bool} (inv : Inv state)
    (onward : Onward state.starter starter) (closure : sync = syncOf starter state.signal)
    (locked : starter = .asleep ∨ starter = .woken ∨ held state.signal = none)
    (pointed : Points starter → mSyncClosure = true) : Inv { state with starter, sync, mSyncClosure } where
  unborn entry := absurd entry onward.left
  running _ := inv.running onward.begun
  present := inv.present
  created threaded := inv.created (onward.threaded threaded)
  sync := closure
  locked := locked
  inProcess := inv.inProcess
  early early := inv.early (onward.early early)
  pointed := pointed
  expected expects := inv.expected (onward.expects expects)
  heard signalled := onward.waited (inv.heard signalled)

/-- `Start` sets `mRunning`, or finds it set and returns. -/
private theorem inv_entered {starter : StartPhase} (inv : Inv state) (entry : state.starter = .entry)
    (gone : starter = .creating ∨ starter = .returned 0) :
    Inv { state with service := { state.service with mRunning := true }, starter } where
  unborn stays := by rcases gone with rfl | rfl <;> cases stays
  running _ := rfl
  present := inv.present
  created threaded := by rcases gone with rfl | rfl <;> cases threaded
  sync := by
    rw [inv.sync, entry]
    rcases gone with rfl | rfl <;> rfl
  locked := .inr (.inr (by simp [quiet_of_early inv (inv.early (by simp [entry]))]))
  inProcess := inv.inProcess
  early _ := inv.early (by simp [entry])
  pointed points := by rcases gone with rfl | rfl <;> cases points
  expected expects := by rcases gone with rfl | rfl <;> cases expects
  heard signalled := absurd (inv.heard signalled) (by simp [entry])

/-- The thread is made. -/
private theorem inv_created (inv : Inv state) (creating : state.starter = .creating) :
    Inv { state with created := true, starter := .making } where
  unborn stays := by cases stays
  running _ := inv.running (by simp [creating])
  present := inv.present
  created _ := rfl
  sync := by
    rw [inv.sync, creating]
    rfl
  locked := .inr (.inr (by simp [quiet_of_early inv (inv.early (by simp [creating]))]))
  inProcess := inv.inProcess
  early _ := inv.early (by simp [creating])
  pointed points := by cases points
  expected expects := by cases expects
  heard signalled := absurd (inv.heard signalled) (by simp [creating])

/-- The context is queued; the mutex of its closure stays locked. -/
private theorem inv_enqueued (inv : Inv state) (enqueuing : state.starter = .enqueuing) :
    Inv { state with service := (state.service.enqueue .start).1, starter := .enqueued } := by
  have runs : state.service.mRunning = true := inv.running (by simp [enqueuing])
  have quiet := quiet_of_early inv (inv.early (by simp [enqueuing]))
  rw [LogicService.enqueue, if_pos runs]
  exact {
    unborn := fun stays => by cases stays
    running := fun _ => runs
    present := inv.present
    created := fun _ => inv.created (by simp [enqueuing])
    sync := by
      rw [inv.sync, enqueuing]
      rfl
    locked := .inr (.inr (by simp [quiet]))
    inProcess := inv.inProcess
    early := False.elim
    pointed := fun _ => inv.pointed (by simp [enqueuing])
    expected := fun _ => ⟨by simp [OnItsWay], by simp [quiet], by simp [quiet]⟩
    heard := fun signalled => absurd (inv.heard signalled) (by simp [enqueuing]) }

theorem inv_start {err : Int} (inv : Inv state) (done : state.startStep err = .ok next) : Inv next := by
  have closure := inv.sync
  have unlocked : state.starter ≠ .asleep → state.starter ≠ .woken → held state.signal = none := by
    intro awake other
    rcases inv.locked with asleep | woken | free
    · exact absurd asleep awake
    · exact absurd woken other
    · exact free
  cases starter : state.starter with
  | entry =>
    simp only [startStep, starter] at done
    split at done
    next runs =>
      cases done
      have same : { state.service with mRunning := true } = state.service := by rw [← runs]
      have entered := inv_entered inv starter (.inr rfl)
      rwa [same] at entered
    next =>
      cases done
      exact inv_entered inv starter (.inl rfl)
  | creating =>
    simp only [startStep, starter] at done
    obtain ⟨result, made, done⟩ := bind_ok.mp done
    split at done
    next failed =>
      simp only [Thread.start] at made
      split at made
      next fine =>
        cases made
        exact absurd fine failed
      next => cases made
    next =>
      cases done
      exact inv_created inv starter
  | making =>
    simp only [startStep, starter] at done
    cases done
    exact inv_moved inv (by rw [starter]; constructor <;> simp) rfl
      (.inr (.inr (unlocked (by simp [starter]) (by simp [starter]))))
      fun _ => rfl
  | enqueuing =>
    simp only [startStep, starter] at done
    cases done
    exact inv_enqueued inv starter
  | enqueued =>
    simp only [startStep, starter] at done
    cases done
    have free := unlocked (by simp [starter]) (by simp [starter])
    exact inv_moved inv (by rw [starter]; constructor <;> simp) (by rw [syncOf, free]) (.inl rfl)
      fun _ => inv.pointed (by simp [starter])
  | asleep =>
    simp only [startStep, starter] at done
    cases done
    exact inv
  | woken =>
    simp only [startStep, starter] at done
    split at done
    next free =>
      cases done
      have lock : held state.signal = none := by
        rw [closure, starter, syncOf] at free
        simpa [-held] using free
      exact inv_moved inv (by rw [starter]; constructor <;> simp) rfl (.inr (.inr lock)) False.elim
    next =>
      cases done
      exact inv
  | clearing =>
    simp only [startStep, starter] at done
    cases done
    exact inv_moved inv (by rw [starter]; constructor <;> simp) (closure.trans (by rw [starter]; rfl))
      (.inr (.inr (unlocked (by simp [starter]) (by simp [starter])))) False.elim
  | leaving =>
    simp only [startStep, starter] at done
    cases done
    exact inv_moved inv (by rw [starter]; constructor <;> simp) rfl
      (.inr (.inr (unlocked (by simp [starter]) (by simp [starter])))) False.elim
  | returned err =>
    simp only [startStep, starter] at done
    cases done
    exact inv

theorem inv_wake (inv : Inv state) :
    Inv { state with starter := if state.starter = .asleep then .woken else state.starter } := by
  split
  next asleep =>
    have onward : Onward state.starter .woken := by
      rw [asleep]
      constructor <;> simp
    have closure : state.sync = syncOf .woken state.signal := by
      rw [inv.sync, asleep]
      rfl
    exact inv_moved inv onward closure (.inr (.inl rfl)) False.elim
  next => exact inv

theorem inv_enqueue (inv : Inv state) (ctx : OperContext) :
    Inv { state with service := (state.service.enqueue (.other ctx)).1 } := by
  obtain ⟨unborn, running, present, created, sync, locked, inProcess, early, pointed, expected, heard⟩ := inv
  rw [LogicService.enqueue]
  split
  · constructor <;> simp_all [OnItsWay]
  · constructor <;> simp_all

/-- The thread is at work. -/
theorem running_of_created (inv : Inv state) (created : state.created = true) : state.service.mRunning = true := by
  apply inv.running
  intro entry
  cases (inv.unborn entry).symm.trans created

/-- In `Run`, but not in `ProcessStart`. -/
theorem inv_run {seen : Seen Queued} (inv : Inv state) (created : state.created = true)
    (elsewhere : ∀ ctxVec, state.service.phase ≠ .processing .start ctxVec)
    (done : state.service.runStep Queued.type processed = .ok (after, seen)) : Inv { state with service := after } := by
  have quiet := quiet_elsewhere inv elsewhere
  obtain ⟨runs, present, backward, forward⟩ := run_keeps (running_of_created inv created) inv.present done
  exact {
    unborn := inv.unborn
    running := fun _ => runs
    present := present
    created := inv.created
    sync := inv.sync
    locked := inv.locked
    inProcess := fun busy => absurd quiet busy
    early := fun early way => inv.early early (backward way)
    pointed := inv.pointed
    expected := fun expects => ⟨forward elsewhere (inv.expected expects).1, (inv.expected expects).2⟩
    heard := inv.heard }

/-- The mutex is free only while `Start` is in its wait. -/
theorem waits_of_free (inv : Inv state) (free : state.sync = some ⟨none⟩) :
    state.starter = .asleep ∨ state.starter = .woken := by
  have sync := inv.sync
  cases starter : state.starter with
  | asleep => exact .inl rfl
  | woken => exact .inr rfl
  | _ => simp_all

/-- And the service has it only then. -/
theorem waits_of_held (inv : Inv state) (busy : held state.signal ≠ none) :
    state.starter = .asleep ∨ state.starter = .woken := by
  rcases inv.locked with asleep | woken | free
  · exact .inl asleep
  · exact .inr woken
  · exact absurd free busy

/-- The service moves on in `ProcessStart`, and does something to the mutex. -/
private theorem inv_signalling {signal : SignalPhase} {sync : Option SyncClosure} (inv : Inv state)
    (inProcess : ∃ ctxVec, state.service.phase = .processing .start ctxVec) (closure : sync = syncOf state.starter signal)
    (locked : state.starter = .asleep ∨ state.starter = .woken ∨ held signal = none)
    (before : Expects state.starter → signal ≠ .unlocking ∧ signal ≠ .clearing) : Inv { state with sync, signal } where
  unborn := inv.unborn
  running := inv.running
  present := inv.present
  created := inv.created
  sync := closure
  locked := locked
  inProcess _ := inProcess
  early := inv.early
  pointed := inv.pointed
  expected expects := ⟨(inv.expected expects).1, before expects⟩
  heard := inv.heard

/-- `Signal` wakes `Start`, if it is not awake yet. -/
private theorem inv_broadcast (inv : Inv state) {ctxVec : List Queued}
    (phase : state.service.phase = .processing .start ctxVec)
    (signal : state.signal = .broadcasting) : Inv { state with
      starter := if state.starter = .asleep then .woken else state.starter
      signal := .unlocking
      signalled := true } := by
  have woken : (if state.starter = .asleep then .woken else state.starter) = StartPhase.woken := by
    rcases waits_of_held inv (by simp [signal]) with asleep | woken
    · rw [if_pos asleep]
    · rw [if_neg (by simp [woken]), woken]
  have awake := inv_wake inv
  rw [woken] at awake ⊢
  have closure : state.sync = syncOf .woken .unlocking := by
    rw [awake.sync, signal]
    rfl
  have unlocking := inv_signalling awake ⟨ctxVec, phase⟩ closure (.inr (.inl rfl)) (by simp)
  exact { unlocking with heard := fun _ => trivial }

theorem inv_signal (inv : Inv state) (created : state.created = true) {ctxVec : List Queued}
    (phase : state.service.phase = .processing .start ctxVec) (done : state.signalStep = .ok next) : Inv next := by
  have runs := running_of_created inv created
  cases signal : state.signal with
  | idle =>
    simp only [signalStep, signal] at done
    split at done
    · cases done
      have same : { state.service with mRunning := true } = state.service := by rw [← runs]
      have closure : state.sync = syncOf state.starter .locking := by
        rw [inv.sync, signal]
        cases state.starter <;> rfl
      rw [same]
      exact inv_signalling inv ⟨ctxVec, phase⟩ closure (.inr (.inr rfl)) (by simp)
    · cases done
  | locking =>
    simp only [signalStep, signal] at done
    split at done
    · cases done
    next free =>
      cases done
      rcases waits_of_free inv free with asleep | woken
      · exact inv_signalling inv ⟨ctxVec, phase⟩ (by rw [asleep]; rfl) (.inl asleep) (by simp)
      · exact inv_signalling inv ⟨ctxVec, phase⟩ (by rw [woken]; rfl) (.inr (.inl woken)) (by simp)
    · cases done
      exact inv
  | broadcasting =>
    simp only [signalStep, signal] at done
    split at done
    · cases done
    · cases done
      exact inv_broadcast inv phase signal
  | unlocking =>
    -- it has signalled, so `Start` is awake
    have woken : state.starter = .woken := by
      rcases waits_of_held inv (by simp [signal]) with asleep | woken
      · exact absurd signal (inv.expected (by simp [asleep])).2.1
      · exact woken
    simp only [signalStep, signal] at done
    split at done
    · cases done
    · cases done
      exact inv_signalling inv ⟨ctxVec, phase⟩ (by rw [woken]; rfl) (.inr (.inl woken)) (by simp [woken])
  | clearing =>
    simp only [signalStep, signal] at done
    obtain ⟨⟨after, seen⟩, ran, same⟩ := bind_ok.mp done
    cases same
    obtain ⟨runs, present, backward, _⟩ := run_keeps runs inv.present ran
    have through : ¬ Expects state.starter := fun expects => (inv.expected expects).2.2 signal
    have begun : ¬ Early state.starter := fun early => inv.early early (by simp [OnItsWay, phase, unsettled])
    exact {
      unborn := inv.unborn
      running := fun _ => runs
      present
      created := inv.created
      sync := by
        rw [inv.sync, signal]
        cases state.starter <;> rfl
      locked := .inr (.inr rfl)
      inProcess := fun busy => absurd rfl busy
      early := fun early => absurd early begun
      pointed := fun points => (early_or_expects points).elim (absurd · begun) (absurd · through)
      expected := fun expects => absurd expects through
      heard := inv.heard }

theorem inv_service (inv : Inv state) (done : state.serviceStep 0 processed = .ok next) : Inv next := by
  unfold serviceStep at done
  split at done
  · cases done
    exact inv
  next there =>
    have created : state.created = true := by simpa using there
    split at done
    next phase =>
      cases done
      have quiet := quiet_elsewhere inv (by simp [phase])
      simp only [LogicService.initStep, phase, if_true]
      exact ⟨inv.unborn, inv.running, by simp, inv.created, inv.sync, inv.locked, fun busy => absurd quiet busy,
        by simpa [OnItsWay, phase, unsettled] using inv.early, inv.pointed,
        by simpa [OnItsWay, phase, unsettled] using inv.expected, inv.heard⟩
    next phase => exact inv_signal inv created phase done
    next elsewhere =>
      obtain ⟨⟨after, seen⟩, ran, same⟩ := bind_ok.mp done
      cases same
      exact inv_run inv created elsewhere ran

theorem inv_take {event : ServiceStart.Step} (inv : Inv state) (done : state.take 0 event = .ok next) : Inv next := by
  cases event with
  | start err => exact inv_start inv done
  | wake =>
    cases done
    exact inv_wake inv
  | service processed => exact inv_service inv done
  | enqueue ctx =>
    cases done
    exact inv_enqueue inv ctx

theorem inv_new : Inv .new where
  unborn _ := rfl
  running other := absurd rfl other
  present := by simp [ServiceStart.new]
  created threaded := by cases threaded
  sync := rfl
  locked := .inr (.inr rfl)
  inProcess busy := absurd rfl busy
  early _ := by simp [OnItsWay, ServiceStart.new, unsettled]
  pointed points := by cases points
  expected expects := by cases expects
  heard signalled := by cases signalled

/-! ### Going on -/

/-- How much `Start` has yet to do. -/
def startWeight : StartPhase → Nat
  | .entry => 60
  | .creating => 59
  | .making => 58
  | .enqueuing => 57
  | .enqueued => 40
  | .asleep => 39
  | .woken => 3
  | .clearing => 2
  | .leaving => 1
  | .returned _ => 0

def signalWeight : SignalPhase → Nat
  | .idle => 4
  | .locking => 3
  | .broadcasting => 2
  | .unlocking => 1
  | .clearing => 0

def phaseWeight : Phase Queued → Nat
  | .init => 3
  | .test => 2
  | .waiting => 1
  | .batch ctxVec => 8 * ctxVec.length + 4
  | .processing _ ctxVec => 8 * ctxVec.length + 11
  | .releasing _ ctxVec => 8 * ctxVec.length + 5
  | .returned => 0

/-- How much the service has to do with what it has. -/
def serviceWeight (service : LogicService Queued) : Nat := 12 * service.mQueue.length + phaseWeight service.phase

def weight (state : ServiceStart) : Nat :=
  startWeight state.starter + signalWeight state.signal + serviceWeight state.service

/-- With the context on its way, `Run` goes on. -/
theorem run_goes_on (running : service.mRunning = true) (present : service.phase ≠ .returned)
    (initialized : service.phase ≠ .init) (elsewhere : ∀ ctxVec, service.phase ≠ .processing .start ctxVec)
    (way : OnItsWay service) :
    ∃ after seen, service.runStep Queued.type true = .ok (after, seen) ∧ serviceWeight after < serviceWeight service := by
  obtain ⟨mRunning, mQueue, phase⟩ := service
  cases running
  cases phase with
  | init => exact absurd rfl initialized
  | test => exact ⟨_, _, rfl, by simp [serviceWeight, phaseWeight]⟩
  | waiting =>
    have some : mQueue ≠ [] := by
      rintro rfl
      simp [OnItsWay, unsettled] at way
    refine ⟨_, _, if_neg fun idle => some idle.1, ?_⟩
    have length : 0 < mQueue.length := List.length_pos_iff.mpr some
    simp only [serviceWeight, phaseWeight, List.length_nil]
    omega
  | batch ctxVec =>
    cases ctxVec with
    | nil => exact ⟨_, _, rfl, by simp [serviceWeight, phaseWeight]⟩
    | cons ctx ctxVec =>
      refine ⟨_, _, rfl, ?_⟩
      simp only [serviceWeight, phaseWeight, List.length_cons]
      omega
  | processing ctx ctxVec =>
    have processed : (⟨true, mQueue, .processing ctx ctxVec⟩ : LogicService Queued).process ctx.type true =
        .ok ⟨true, mQueue, .processing ctx ctxVec⟩ := by
      cases ctx with
      | start => exact absurd rfl (elsewhere ctxVec)
      | other ctx => cases ctx <;> rfl
    refine ⟨_, _, bind_ok.mpr ⟨_, processed, rfl⟩, ?_⟩
    simp only [serviceWeight, phaseWeight]
    omega
  | releasing ctx ctxVec => exact ⟨_, _, rfl, by simp [serviceWeight, phaseWeight]⟩
  | returned => exact absurd rfl present

theorem service_step_init {init : Int} (created : state.created = true) (phase : state.service.phase = .init) :
    state.serviceStep init processed = .ok { state with service := state.service.initStep init } := by
  rw [serviceStep, if_neg (by simp [created]), phase]

theorem service_step_signal {init : Int} {ctxVec : List Queued} (created : state.created = true)
    (phase : state.service.phase = .processing .start ctxVec) : state.serviceStep init processed = state.signalStep := by
  rw [serviceStep, if_neg (by simp [created]), phase]

theorem service_step_run {init : Int} {seen : Seen Queued} (created : state.created = true)
    (initialized : state.service.phase ≠ .init) (elsewhere : ∀ ctxVec, state.service.phase ≠ .processing .start ctxVec)
    (ran : state.service.runStep Queued.type processed = .ok (after, seen)) :
    state.serviceStep init processed = .ok { state with service := after } := by
  rw [serviceStep, if_neg (by simp [created])]
  split
  next phase => exact absurd phase initialized
  next phase => exact absurd phase (elsewhere _)
  next => exact bind_ok.mpr ⟨_, ran, rfl⟩

/-- While `Start` waits, the service goes on. -/
theorem service_goes_on (inv : Inv state) (asleep : state.starter = .asleep) :
    ∃ next, state.serviceStep 0 true = .ok next ∧ weight next < weight state := by
  have created := inv.created (by simp [asleep])
  have expects : Expects state.starter := by simp [asleep]
  obtain ⟨way, notUnlocking, notClearing⟩ := inv.expected expects
  have pointed := inv.pointed (by simp [asleep])
  have sync := inv.sync
  by_cases initializing : state.service.phase = .init
  · refine ⟨_, service_step_init created initializing, ?_⟩
    simp [weight, serviceWeight, LogicService.initStep, initializing, phaseWeight]
  by_cases starts : ∃ ctxVec, state.service.phase = .processing .start ctxVec
  · obtain ⟨ctxVec, phase⟩ := starts
    rw [service_step_signal created phase, signalStep]
    cases signal : state.signal with
    | idle =>
      refine ⟨_, if_pos pointed, ?_⟩
      simp [weight, signal, signalWeight, serviceWeight]
    | locking =>
      rw [asleep, signal] at sync
      simp only [sync, syncOf, held]
      refine ⟨_, rfl, ?_⟩
      simp [weight, signal, signalWeight]
    | broadcasting =>
      rw [asleep, signal] at sync
      refine ⟨_, if_neg (by simp [sync]), ?_⟩
      simp [weight, asleep, signal, signalWeight, startWeight]
    | unlocking => exact absurd signal notUnlocking
    | clearing => exact absurd signal notClearing
  · have elsewhere (ctxVec : List Queued) : state.service.phase ≠ .processing .start ctxVec := fun phase =>
      starts ⟨ctxVec, phase⟩
    obtain ⟨after, seen, ran, less⟩ :=
      run_goes_on (running_of_created inv created) inv.present initializing elsewhere way
    refine ⟨_, service_step_run created initializing elsewhere ran, ?_⟩
    simp only [weight]
    omega

/-- `Start` is woken, and the service has the mutex yet. -/
theorem service_unlocks (inv : Inv state) (woken : state.starter = .woken) (busy : held state.signal ≠ none) :
    ∃ next, state.serviceStep 0 true = .ok next ∧ weight next < weight state := by
  have created := inv.created (by simp [woken])
  have sync := inv.sync
  rw [woken] at sync
  cases signal : state.signal with
  | broadcasting =>
    obtain ⟨ctxVec, phase⟩ := inv.inProcess (by simp [signal])
    rw [service_step_signal created phase, signalStep, signal]
    refine ⟨_, if_neg (by simp [sync]), ?_⟩
    simp [weight, woken, signal, signalWeight]
  | unlocking =>
    obtain ⟨ctxVec, phase⟩ := inv.inProcess (by simp [signal])
    rw [service_step_signal created phase, signalStep, signal]
    refine ⟨_, if_neg (by simp [sync]), ?_⟩
    simp [weight, signal, signalWeight]
  | idle | locking | clearing => exact absurd (by rw [signal]; rfl) busy

def Returned (state : ServiceStart) : Prop := ∃ err, state.starter = .returned err

/-- Unless it waits, `Start` goes on. -/
theorem start_goes_on (waiting : ¬ Returned state) (awake : state.starter ≠ .asleep)
    (free : state.starter = .woken → state.sync = some ⟨none⟩) :
    ∃ next, state.startStep 0 = .ok next ∧ weight next < weight state := by
  obtain ⟨service, created, starter, signal, closure, mSyncClosure, signalled⟩ := state
  cases starter with
  | entry =>
    simp only [startStep]
    split
    · exact ⟨_, rfl, by simp [weight, startWeight]⟩
    · exact ⟨_, rfl, by simp [weight, startWeight, serviceWeight]⟩
  | creating => exact ⟨_, rfl, by simp [weight, startWeight]⟩
  | making => exact ⟨_, rfl, by simp [weight, startWeight]⟩
  | enqueuing =>
    refine ⟨_, rfl, ?_⟩
    simp only [weight, startWeight, serviceWeight, LogicService.enqueue]
    split
    · simp only [List.length_append, List.length_singleton]
      omega
    · dsimp only
      omega
  | enqueued => exact ⟨_, rfl, by simp [weight, startWeight]⟩
  | asleep => exact absurd rfl awake
  | woken => exact ⟨_, if_pos (free rfl), by simp [weight, startWeight]⟩
  | clearing => exact ⟨_, rfl, by simp [weight, startWeight]⟩
  | leaving => exact ⟨_, rfl, by simp [weight, startWeight]⟩
  | returned err => exact absurd ⟨err, rfl⟩ waiting

/-- Until `Start` has returned, one of the two threads goes on. -/
theorem one_goes_on (inv : Inv state) (waiting : ¬ Returned state) :
    ∃ event next, event ≠ .wake ∧ state.take 0 event = .ok next ∧ weight next < weight state := by
  by_cases asleep : state.starter = .asleep
  · obtain ⟨next, done, less⟩ := service_goes_on inv asleep
    exact ⟨.service true, next, by simp, done, less⟩
  · by_cases locked : state.starter = .woken ∧ held state.signal ≠ none
    · obtain ⟨next, done, less⟩ := service_unlocks inv locked.1 locked.2
      exact ⟨.service true, next, by simp, done, less⟩
    · have free (woken : state.starter = .woken) : state.sync = some ⟨none⟩ := by
        have sync := inv.sync
        rw [woken] at sync
        have none : held state.signal = none := not_not.mp fun busy => locked ⟨woken, busy⟩
        rw [sync, syncOf, none]
      obtain ⟨next, done, less⟩ := start_goes_on waiting asleep free
      exact ⟨.start 0, next, by simp, done, less⟩

/-! ### Runs -/

/-- `Start` waits for a service that is gone. -/
def Hangs (state : ServiceStart) : Prop :=
  state.starter = .asleep ∧ state.service.phase = .returned ∧ state.signalled = false

/-- What a start promises in a state, where `Init` returns `init`. -/
structure Answered (init : Int) (state : ServiceStart) : Prop where
  noHang : ¬ Hangs state
  /-- The signal came while `Start` was waiting, and woke it. -/
  heard : state.signalled = true → Waited state.starter
  reported : ∀ err, state.starter = .returned err → init ≠ 0 → err ≠ 0
  processed : state.service.phase = .returned → Queued.start ∉ state.service.mQueue
  /-- `Start` can still return, with no wake that is not signalled. -/
  finishes : ∃ events final outputs, (∀ event ∈ events, event ≠ ServiceStart.Step.wake) ∧
    run (ServiceStart.step init) state events = .ok (final, outputs) ∧ Returned final

theorem answered_of_inv (inv : Inv state) : Answered 0 state where
  noHang hangs := inv.present hangs.2.1
  heard := inv.heard
  reported _ _ failed := absurd rfl failed
  processed returned := absurd returned inv.present
  finishes := by
    apply run_reaches Inv Returned (fun event => event ≠ ServiceStart.Step.wake) weight ?_ inv
    intro state inv waiting
    obtain ⟨event, next, notWake, done, less⟩ := one_goes_on inv waiting
    exact ⟨event, next, (), notWake, bind_ok.mpr ⟨next, done, rfl⟩, inv_take inv done, less⟩

/-- `Start` goes on to its wait, and then `Init` fails. -/
def failingStart : List ServiceStart.Step := [.start 0, .start 0, .start 0, .start 0, .start 0, .service true]

theorem a_failing_start_hangs {init : Int} (failed : init ≠ 0) :
    ∃ final outputs, run (ServiceStart.step init) .new failingStart = .ok (final, outputs) ∧ Hangs final := by
  refine ⟨_, _, rfl, rfl, ?_, rfl⟩
  exact if_neg failed

/-- Every start is answered just when `Init` returns 0. -/
theorem start_is_answered_iff (init : Int) :
    (∀ events final outputs, run (ServiceStart.step init) .new events = .ok (final, outputs) → Answered init final) ↔
      init = 0 := by
  constructor
  · intro answered
    by_contra failed
    obtain ⟨final, outputs, ran, hangs⟩ := a_failing_start_hangs failed
    exact (answered failingStart final outputs ran).noHang hangs
  · rintro rfl events final outputs ran
    apply answered_of_inv
    apply run_invariant Inv ?_ inv_new ran
    intro state event next output inv done
    obtain ⟨after, taken, same⟩ := bind_ok.mp done
    cases same
    exact inv_take inv taken

def ECONNREFUSED : Int := 111

/-- A client whose server is not there. -/
theorem a_refused_client_hangs : ¬ ∀ init events final outputs,
    run (ServiceStart.step init) .new events = .ok (final, outputs) → Answered init final := by
  intro claimed
  obtain ⟨final, outputs, ran, hangs⟩ :=
    @a_failing_start_hangs (CRClient.init 0 ECONNREFUSED) (by decide)
  exact (claimed _ failingStart final outputs ran).noHang hangs

end ChatRoom.StartHandshake
