import Mathlib.Logic.Basic
import Mathlib.Data.List.Basic
import Mathlib.Order.OrderIsoNat

/-! Finite runs of a step function that can fail. A step answers an event
with a new state and an output, or stops with a fault; a run is the sequence
of answers, and it stops at the first fault. The rules below are the only
inductions over runs: whatever one step preserves, every run preserves. -/
namespace ChatRoom.Lib

variable {State Event Fault Output : Type}

/-- The events are taken in order; the outputs are kept, one per event. -/
def run (step : State → Event → Except Fault (State × Output)) :
    State → List Event → Except Fault (State × List Output)
  | state, [] => .ok (state, [])
  | state, event :: events =>
    match step state event with
    | .error fault => .error fault
    | .ok (next, output) =>
      match run step next events with
      | .error fault => .error fault
      | .ok (final, outputs) => .ok (final, output :: outputs)

/-- Each event meets a condition on the state it is taken in. Nothing is
asked of the events behind a step that fails. -/
def EveryStep (step : State → Event → Except Fault (State × Output))
    (condition : State → Event → Prop) : State → List Event → Prop
  | _, [] => True
  | state, event :: events =>
    condition state event ∧
      ∀ next output, step state event = .ok (next, output) → EveryStep step condition next events

variable {step : State → Event → Except Fault (State × Output)}
variable {condition : State → Event → Prop}
variable {state next final : State} {event : Event} {events more : List Event}
variable {output : Output} {outputs : List Output}

@[simp] theorem run_nil : run step state [] = .ok (state, []) := rfl

/-- A run that does not stop takes its first event, and then runs on. -/
theorem run_cons_ok :
    run step state (event :: events) = .ok (final, outputs) ↔
      ∃ next output rest, step state event = .ok (next, output) ∧
        run step next events = .ok (final, rest) ∧ outputs = output :: rest := by
  cases first : step state event with
  | error fault => simp [run, first]
  | ok reply =>
    obtain ⟨next, output⟩ := reply
    cases later : run step next events with
    | error fault => simp [run, first, later]
    | ok reply =>
      obtain ⟨last, rest⟩ := reply
      simp only [run, first, later, Except.ok.injEq, Prod.mk.injEq]
      constructor
      · rintro ⟨rfl, rfl⟩
        exact ⟨next, output, rest, ⟨rfl, rfl⟩, by rw [later], rfl⟩
      · rintro ⟨_, _, _, ⟨rfl, rfl⟩, same, rfl⟩
        rw [later] at same
        cases same
        exact ⟨rfl, rfl⟩

/-- There is one output for each event. -/
theorem run_length (ran : run step state events = .ok (final, outputs)) : outputs.length = events.length := by
  induction events generalizing state outputs with
  | nil =>
    cases ran
    rfl
  | cons event events ih =>
    obtain ⟨next, output, rest, _, later, rfl⟩ := run_cons_ok.mp ran
    rw [List.length_cons, List.length_cons, ih later]

theorem run_append_ok :
    run step state (events ++ more) = .ok (final, outputs) ↔
      ∃ middle before after, run step state events = .ok (middle, before) ∧
        run step middle more = .ok (final, after) ∧ outputs = before ++ after := by
  induction events generalizing state outputs with
  | nil => simp
  | cons event events ih =>
    simp only [List.cons_append, run_cons_ok, ih]
    constructor
    · rintro ⟨next, output, _, taken, ⟨middle, before, after, ran, ranOn, rfl⟩, rfl⟩
      exact ⟨middle, output :: before, after, ⟨next, output, before, taken, ran, rfl⟩, ranOn, rfl⟩
    · rintro ⟨middle, _, after, ⟨next, output, before, taken, ran, rfl⟩, ranOn, rfl⟩
      exact ⟨next, output, before ++ after, taken, ⟨middle, before, after, ran, ranOn, rfl⟩, rfl⟩

/-- A run, stopped on its way. -/
theorem run_take (ran : run step state events = .ok (final, outputs)) (count : Nat) :
    ∃ middle, run step state (events.take count) = .ok (middle, outputs.take count) ∧
      run step middle (events.drop count) = .ok (final, outputs.drop count) := by
  rw [← List.take_append_drop count events] at ran
  obtain ⟨middle, before, after, first, second, rfl⟩ := run_append_ok.mp ran
  have size : before.length = (events.take count).length := run_length first
  rcases Nat.le_total count events.length with inside | beyond
  · have exactly : before.length = count := by rw [size, List.length_take, Nat.min_eq_left inside]
    refine ⟨middle, ?_, ?_⟩
    · rw [first, List.take_left' exactly]
    · rw [second, List.drop_left' exactly]
  · rw [List.drop_of_length_le beyond] at second
    cases second
    have short : before.length ≤ count := by rw [size, List.take_of_length_le beyond]; exact beyond
    refine ⟨final, ?_, ?_⟩
    · rw [first, List.append_nil, List.take_of_length_le short]
    · rw [List.drop_of_length_le beyond, List.append_nil, List.drop_of_length_le short]
      rfl

/-- One more event at the end of a run. -/
theorem run_snoc (ran : run step state events = .ok (next, outputs))
    (taken : step next event = .ok (final, output)) :
    run step state (events ++ [event]) = .ok (final, outputs ++ [output]) :=
  run_append_ok.mpr ⟨next, outputs, [output], ran,
    run_cons_ok.mpr ⟨final, output, [], taken, rfl, rfl⟩, rfl⟩

private theorem run_history_from (Holds : State → List (Event × Output) → Prop)
    (preserved : ∀ state seen event next output, Holds state seen → condition state event →
      step state event = .ok (next, output) → Holds next (seen ++ [(event, output)]))
    {seen : List (Event × Output)} (start : Holds state seen)
    (meets : EveryStep step condition state events)
    (ran : run step state events = .ok (final, outputs)) :
    Holds final (seen ++ events.zip outputs) := by
  induction events generalizing state seen outputs with
  | nil =>
    simp only [run_nil, Except.ok.injEq, Prod.mk.injEq] at ran
    obtain ⟨rfl, rfl⟩ := ran
    simpa using start
  | cons event events ih =>
    obtain ⟨next, output, rest, taken, later, rfl⟩ := run_cons_ok.mp ran
    have held := preserved state seen event next output start meets.1 taken
    simpa using ih held (meets.2 next output taken) later

/-- An invariant of the state together with all events so far and what they
put out: what one step preserves, a whole run preserves. The condition is what
each step may assume of its event. -/
theorem run_history (Holds : State → List (Event × Output) → Prop)
    (preserved : ∀ state seen event next output, Holds state seen → condition state event →
      step state event = .ok (next, output) → Holds next (seen ++ [(event, output)]))
    (start : Holds state []) (meets : EveryStep step condition state events)
    (ran : run step state events = .ok (final, outputs)) : Holds final (events.zip outputs) :=
  run_history_from Holds preserved start meets ran

theorem every_step_of_all (all : ∀ state event, condition state event) :
    EveryStep step condition state events := by
  induction events generalizing state with
  | nil => trivial
  | cons event events ih => exact ⟨all state event, fun next _ _ => ih⟩

theorem every_step_of_mem {meets : Event → Prop} (all : ∀ event ∈ events, meets event) :
    EveryStep step (fun _ event => meets event) state events := by
  induction events generalizing state with
  | nil => trivial
  | cons event events ih =>
    exact ⟨all event (List.mem_cons_self ..),
      fun next _ _ => ih fun later member => all later (List.mem_cons_of_mem event member)⟩

/-- Of two conditions that are the same under an invariant, every step meets the
one exactly when every step meets the other. -/
theorem every_step_congr {other : State → Event → Prop} (Holds : State → Prop)
    (preserved : ∀ state event next output, Holds state →
      step state event = .ok (next, output) → Holds next)
    (same : ∀ state event, Holds state → (condition state event ↔ other state event)) (start : Holds state) :
    EveryStep step condition state events ↔ EveryStep step other state events := by
  induction events generalizing state with
  | nil => exact Iff.rfl
  | cons event events ih =>
    apply and_congr (same state event start)
    constructor
    · intro later next output taken
      exact (ih (preserved state event next output start taken)).mp (later next output taken)
    · intro later next output taken
      exact (ih (preserved state event next output start taken)).mpr (later next output taken)

/-- Of two conditions that agree along a run as long as they are met, every step
meets the one exactly when every step meets the other. -/
theorem every_step_iff {other : State → Event → Prop} (Holds : State → Prop) (kind : Event → Prop)
    (agree : ∀ state event next output, Holds state → kind event → step state event = .ok (next, output) →
      (condition state event ↔ other state event) ∧ (condition state event → Holds next))
    (start : Holds state) (kinds : ∀ event ∈ events, kind event)
    (ran : run step state events = .ok (final, outputs)) :
    EveryStep step condition state events ↔ EveryStep step other state events := by
  induction events generalizing state outputs with
  | nil => exact Iff.rfl
  | cons event events ih =>
    obtain ⟨next, output, rest, taken, later, rfl⟩ := run_cons_ok.mp ran
    obtain ⟨same, kept⟩ := agree state event next output start (kinds event List.mem_cons_self) taken
    have ofLater := fun event inside => kinds event (List.mem_cons_of_mem _ inside)
    constructor
    · rintro ⟨here, more⟩
      refine ⟨same.mp here, fun other result again => ?_⟩
      cases taken.symm.trans again
      exact (ih (kept here) ofLater later).mp (more next output taken)
    · rintro ⟨here, more⟩
      refine ⟨same.mpr here, fun other result again => ?_⟩
      cases taken.symm.trans again
      exact (ih (kept (same.mpr here)) ofLater later).mpr (more next output taken)

theorem every_step_mono {other : State → Event → Prop} (weaker : ∀ state event, condition state event → other state event)
    (meets : EveryStep step condition state events) : EveryStep step other state events := by
  induction events generalizing state with
  | nil => trivial
  | cons event events ih => exact ⟨weaker state event meets.1, fun next output taken => ih (meets.2 next output taken)⟩

theorem every_step_and {other : State → Event → Prop} (meets : EveryStep step condition state events)
    (meetsToo : EveryStep step other state events) :
    EveryStep step (fun state event => condition state event ∧ other state event) state events := by
  induction events generalizing state with
  | nil => trivial
  | cons event events ih =>
    exact ⟨⟨meets.1, meetsToo.1⟩, fun next output taken => ih (meets.2 next output taken) (meetsToo.2 next output taken)⟩

/-- What an invariant and a condition give of a step holds of every step. -/
theorem every_step_of_invariant {other : State → Event → Prop} (Holds : State → Prop)
    (preserved : ∀ state event next output, Holds state → condition state event →
      step state event = .ok (next, output) → Holds next)
    (gives : ∀ state event, Holds state → condition state event → other state event) (start : Holds state)
    (meets : EveryStep step condition state events) : EveryStep step other state events := by
  induction events generalizing state with
  | nil => trivial
  | cons event events ih =>
    refine ⟨gives state event start meets.1, fun next output taken => ?_⟩
    exact ih (preserved state event next output start meets.1 taken) (meets.2 next output taken)

/-- A fault that no step has ends no run. -/
theorem run_never {fault : Fault}
    (never : EveryStep step (fun state event => step state event ≠ .error fault) state events) :
    run step state events ≠ .error fault := by
  induction events generalizing state with
  | nil => simp
  | cons event events ih =>
    obtain ⟨here, later⟩ := never
    rw [run]
    cases taken : step state event with
    | error other =>
      rintro ⟨⟩
      exact here taken
    | ok reply =>
      obtain ⟨next, output⟩ := reply
      have rest := ih (later next output taken)
      cases ran : run step next events with
      | error other =>
        simp only [ran]
        rintro ⟨⟩
        exact rest ran
      | ok reply => simp [ran]

/-- Whether each event meets a condition can be computed with the run. -/
instance everyStepDecidable [∀ state event, Decidable (condition state event)] (state : State) :
    (events : List Event) → Decidable (EveryStep step condition state events)
  | [] => isTrue trivial
  | event :: events =>
    have later : Decidable (∀ next output, step state event = .ok (next, output) →
        EveryStep step condition next events) :=
      match taken : step state event with
      | .error _ => isTrue fun _ _ same => by contradiction
      | .ok (next, output) =>
        have := everyStepDecidable next events
        decidable_of_iff (EveryStep step condition next events)
          ⟨fun meets _ _ same => by cases same; exact meets, fun meets => meets next output rfl⟩
    inferInstanceAs (Decidable (_ ∧ _))

/-- The same for steps that assume nothing. -/
theorem run_history_always (Holds : State → List (Event × Output) → Prop)
    (preserved : ∀ state seen event next output, Holds state seen →
      step state event = .ok (next, output) → Holds next (seen ++ [(event, output)]))
    (start : Holds state []) (ran : run step state events = .ok (final, outputs)) :
    Holds final (events.zip outputs) := by
  have meets : EveryStep step (fun _ _ => True) state events := every_step_of_all fun _ _ => trivial
  exact run_history Holds
    (fun state seen event next output held _ taken => preserved state seen event next output held taken)
    start meets ran

/-- An invariant of the state alone. -/
theorem run_invariant (Holds : State → Prop)
    (preserved : ∀ state event next output, Holds state →
      step state event = .ok (next, output) → Holds next)
    (start : Holds state) (ran : run step state events = .ok (final, outputs)) : Holds final :=
  run_history_always (fun state _ => Holds state)
    (fun state _ event next output held taken => preserved state event next output held taken) start ran

/-- Two runs side by side: where related states answer like events alike, and
stay related, the whole runs do. -/
theorem run_lockstep {State' Event' Fault' Output' : Type} {step' : State' → Event' → Except Fault' (State' × Output')}
    {state' : State'} {others : List Event'} (Related : State → State' → Prop) (Alike : Event → Event' → Prop)
    (Same : Output → Output' → Prop)
    (answered : ∀ state state' event event' next output, Related state state' → Alike event event' →
      step state event = .ok (next, output) →
      ∃ next' output', step' state' event' = .ok (next', output') ∧ Same output output' ∧ Related next next')
    (alike : List.Forall₂ Alike events others) (start : Related state state')
    (ran : run step state events = .ok (final, outputs)) :
    ∃ final' outputs', run step' state' others = .ok (final', outputs') ∧ List.Forall₂ Same outputs outputs' ∧
      Related final final' := by
  induction alike generalizing state state' outputs with
  | nil =>
    cases ran
    exact ⟨state', [], rfl, .nil, start⟩
  | cons like alike ih =>
    obtain ⟨next, output, rest, taken, later, rfl⟩ := run_cons_ok.mp ran
    obtain ⟨next', output', taken', same, related⟩ := answered _ _ _ _ _ _ start like taken
    obtain ⟨final', rest', ran', all, kept⟩ := ih related later
    exact ⟨final', output' :: rest', run_cons_ok.mpr ⟨next', output', rest', taken', ran', rfl⟩, .cons same all, kept⟩

/-- A run in large steps, each of which is a run in small ones. -/
theorem run_refined {State' Event' Fault' Output' : Type} {step' : State' → Event' → Except Fault' (State' × Output')}
    {state' : State'} (Related : State → State' → Prop)
    (refined : ∀ state state' event next output, Related state state' → step state event = .ok (next, output) →
      ∃ events' next' outputs', run step' state' events' = .ok (next', outputs') ∧ Related next next')
    (start : Related state state') (ran : run step state events = .ok (final, outputs)) :
    ∃ events' final' outputs', run step' state' events' = .ok (final', outputs') ∧ Related final final' := by
  induction events generalizing state state' outputs with
  | nil =>
    cases ran
    exact ⟨[], state', [], rfl, start⟩
  | cons event events ih =>
    obtain ⟨next, output, rest, taken, later, rfl⟩ := run_cons_ok.mp ran
    obtain ⟨first, next', before, here, related⟩ := refined _ _ _ _ _ start taken
    obtain ⟨second, final', after, there, kept⟩ := ih related later
    exact ⟨first ++ second, final', before ++ after, run_append_ok.mpr ⟨next', before, after, here, there, rfl⟩, kept⟩

/-- A run next to the run without some of its events: the events left out change
nothing that the second run sees, and the others look the same in both. -/
theorem run_erasing {Seen : Type} (Related : State → State → Prop) (left : Event → Bool) (look : Output → Seen)
    (alone : ∀ state state' event next output, Related state state' → left event = true →
      condition state event → step state event = .ok (next, output) → Related next state')
    (together : ∀ state state' event next output, Related state state' → left event = false →
      condition state event → step state event = .ok (next, output) →
      ∃ next' output', step state' event = .ok (next', output') ∧ look output' = look output ∧ Related next next')
    {state' : State} (start : Related state state') (meets : EveryStep step condition state events)
    (ran : run step state events = .ok (final, outputs)) :
    ∃ final' outputs', run step state' (events.filter fun event => !left event) = .ok (final', outputs') ∧
      Related final final' ∧
      outputs'.map look = ((events.zip outputs).filter fun entry => !left entry.1).map fun entry => look entry.2 := by
  induction events generalizing state state' outputs with
  | nil =>
    cases ran
    exact ⟨state', [], rfl, start, rfl⟩
  | cons event events ih =>
    obtain ⟨next, output, rest, taken, later, rfl⟩ := run_cons_ok.mp ran
    have meetsLater := meets.2 next output taken
    cases out : left event with
    | true =>
      have related := alone _ _ _ _ _ start out meets.1 taken
      obtain ⟨final', outputs', ran', kept, seen⟩ := ih related meetsLater later
      exact ⟨final', outputs', by simpa [out] using ran', kept, by simpa [out] using seen⟩
    | false =>
      obtain ⟨next', output', taken', same, related⟩ := together _ _ _ _ _ start out meets.1 taken
      obtain ⟨final', outputs', ran', kept, seen⟩ := ih related meetsLater later
      refine ⟨final', output' :: outputs', ?_, kept, ?_⟩
      · simp only [List.filter_cons, out, Bool.not_false, if_true]
        exact run_cons_ok.mpr ⟨next', output', outputs', taken', ran', rfl⟩
      · simp [out, same, seen]

/-- A step function that never fails under its invariant has no failing run. -/
theorem run_completes (Holds : State → Prop)
    (taken : ∀ state event, Holds state →
      ∃ next output, step state event = .ok (next, output) ∧ Holds next)
    (start : Holds state) (events : List Event) :
    ∃ final outputs, run step state events = .ok (final, outputs) ∧ Holds final := by
  induction events generalizing state with
  | nil => exact ⟨state, [], rfl, start⟩
  | cons event events ih =>
    obtain ⟨next, output, first, held⟩ := taken state event start
    obtain ⟨final, rest, ran, kept⟩ := ih held
    exact ⟨final, output :: rest, run_cons_ok.mpr ⟨next, output, rest, first, ran, rfl⟩, kept⟩

/-- Where, short of a goal about all events so far and what they put out, some event
of a kind makes a measure smaller, a run of such events comes to the goal. -/
theorem run_reaches_with_history (Holds Goal : State → List (Event × Output) → Prop) (kind : Event → Prop)
    (measure : State → List (Event × Output) → Nat)
    (goes : ∀ state seen, Holds state seen → ¬ Goal state seen → ∃ event next output, kind event ∧
      step state event = .ok (next, output) ∧ Holds next (seen ++ [(event, output)]) ∧
      measure next (seen ++ [(event, output)]) < measure state seen)
    (seen : List (Event × Output)) (start : Holds state seen) :
    ∃ events final outputs, (∀ event ∈ events, kind event) ∧ run step state events = .ok (final, outputs) ∧
      Goal final (seen ++ events.zip outputs) := by
  induction size : measure state seen using Nat.strongRecOn generalizing state seen with
  | ind size ih =>
    by_cases reached : Goal state seen
    · exact ⟨[], state, [], (by simp), rfl, by simpa using reached⟩
    · obtain ⟨event, next, output, of_kind, taken, held, less⟩ := goes state seen start reached
      obtain ⟨events, final, outputs, kinds, ran, goal⟩ := ih _ (size ▸ less) _ held rfl
      refine ⟨event :: events, final, output :: outputs, ?_, run_cons_ok.mpr ⟨_, _, _, taken, ran, rfl⟩,
        by simpa using goal⟩
      intro other inside
      rcases List.mem_cons.mp inside with rfl | behind
      · exact of_kind
      · exact kinds other behind

/-- The same for a goal about the state alone. -/
theorem run_reaches (Holds Goal : State → Prop) (kind : Event → Prop) (measure : State → Nat)
    (goes : ∀ state, Holds state → ¬ Goal state → ∃ event next output, kind event ∧
      step state event = .ok (next, output) ∧ Holds next ∧ measure next < measure state)
    (start : Holds state) :
    ∃ events final outputs, (∀ event ∈ events, kind event) ∧ run step state events = .ok (final, outputs) ∧
      Goal final := by
  obtain ⟨events, final, outputs, kinds, ran, goal⟩ :=
    run_reaches_with_history (fun state _ => Holds state) (fun state _ => Goal state) kind (fun state _ => measure state)
      (fun state _ held short => goes state held short) [] start
  exact ⟨events, final, outputs, kinds, ran, goal⟩

/-- Where each event of a kind makes a measure smaller, in an order without endless
descents, there is no endless run of such events. -/
theorem no_endless_run {Measure : Type} [Preorder Measure] [WellFoundedLT Measure] (Holds : State → Prop)
    (kind : Event → Prop)
    (measure : State → Measure)
    (falls : ∀ state event next output, Holds state → kind event → step state event = .ok (next, output) →
      Holds next ∧ measure next < measure state) (start : Holds state) :
    ¬ ∃ states : Nat → State, states 0 = state ∧
      ∀ count, ∃ event output, kind event ∧ step (states count) event = .ok (states (count + 1), output) := by
  rintro ⟨states, rfl, goesOn⟩
  have held (count : Nat) : Holds (states count) := by
    induction count with
    | zero => exact start
    | succ count ih =>
      obtain ⟨event, output, of_kind, taken⟩ := goesOn count
      exact (falls _ _ _ _ ih of_kind taken).1
  have descends (count : Nat) : measure (states (count + 1)) < measure (states count) := by
    obtain ⟨event, output, of_kind, taken⟩ := goesOn count
    exact (falls _ _ _ _ (held count) of_kind taken).2
  exact (RelEmbedding.natGT (fun count => measure (states count)) descends).not_wellFounded (wellFounded_lt)

/-- Such events come to an end: to a state in which none of them goes through. -/
theorem run_comes_to_rest {Measure : Type} [Preorder Measure] [WellFoundedLT Measure] (Holds : State → Prop)
    (kind : Event → Prop)
    (measure : State → Measure)
    (falls : ∀ state event next output, Holds state → kind event → step state event = .ok (next, output) →
      Holds next ∧ measure next < measure state) (start : Holds state) :
    ∃ events final outputs, (∀ event ∈ events, kind event) ∧ run step state events = .ok (final, outputs) ∧ Holds final ∧
      ∀ event, kind event → ∃ fault, step final event = .error fault := by
  induction size : measure state using WellFoundedLT.induction generalizing state with
  | ind size ih =>
    by_cases resting : ∀ event, kind event → ∃ fault, step state event = .error fault
    · exact ⟨[], state, [], (fun _ none => nomatch none), rfl, start, resting⟩
    · push Not at resting
      obtain ⟨event, of_kind, goes⟩ := resting
      cases taken : step state event with
      | error fault => exact absurd taken (goes fault)
      | ok reply =>
        obtain ⟨next, output⟩ := reply
        obtain ⟨held, less⟩ := falls _ _ _ _ start of_kind taken
        obtain ⟨events, final, outputs, kinds, ran, kept, rests⟩ := ih _ (size ▸ less) held rfl
        refine ⟨event :: events, final, output :: outputs, ?_, run_cons_ok.mpr ⟨_, _, _, taken, ran, rfl⟩, kept, rests⟩
        intro other inside
        rcases List.mem_cons.mp inside with rfl | behind
        · exact of_kind
        · exact kinds other behind

end ChatRoom.Lib
