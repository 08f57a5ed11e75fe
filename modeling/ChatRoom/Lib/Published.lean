import ChatRoom.Lib.Runs

/-! A state that is published step by step. Each step either says one word, which is
then the truth, or says nothing and leaves the truth as it was. Whoever has taken a
first part of the words knows a truth of some moment of the run, and what it has not
taken yet is what has been said since that moment. -/
namespace ChatRoom.Lib

variable {State Event Fault Output Word : Type}
variable {step : State → Event → Except Fault (State × Output)}
variable {truth : State → Option Word} {told : Output → List Word}
variable {state final : State} {events : List Event} {outputs : List Output} {count : Nat}

/-- What a step says is true behind it, and nothing else has become true. -/
def Publishes (step : State → Event → Except Fault (State × Output)) (truth : State → Option Word)
    (told : Output → List Word) (state : State) (event : Event) : Prop :=
  ∀ next output, step state event = .ok (next, output) →
    told output = [] ∧ truth next = truth state ∨ ∃ word, told output = [word] ∧ truth next = some word

/-- What is known from some words, the last of which counts. -/
def lastWord (known : Option Word) (words : List Word) : Option Word := words.getLast?.or known

@[simp] theorem last_word_nil (known : Option Word) : lastWord known [] = known := rfl

theorem last_word_cons (known : Option Word) (word : Word) (words : List Word) :
    lastWord known (word :: words) = lastWord (some word) words := by
  simp only [lastWord, List.getLast?_cons]
  cases words.getLast? <;> rfl

theorem last_word_append (known : Option Word) (first second : List Word) :
    lastWord known (first ++ second) = lastWord (lastWord known first) second := by
  simp [lastWord, List.getLast?_append, Option.or_assoc]

/-- A run, cut at a moment: before it the first `count` words were said, and behind it
the others. -/
structure Moment (step : State → Event → Except Fault (State × Output)) (told : Output → List Word) (state final : State)
    (events : List Event) (outputs : List Output) (count : Nat) (middle : State) (first second : List Event)
    (before after : List Output) : Prop where
  cut : events = first ++ second
  answers : outputs = before ++ after
  ran : run step state first = .ok (middle, before)
  goesOn : run step middle second = .ok (final, after)
  said : (before.flatMap told).length = count
  present : after.flatMap told = [] → second = []

variable {next middle : State} {event : Event} {output : Output} {rest before after : List Output}
  {first second : List Event}

theorem Moment.waiting (moment : Moment step told state final events outputs count middle first second before after) :
    after.flatMap told = (outputs.flatMap told).drop count := by
  rw [moment.answers, List.flatMap_append, List.drop_left' moment.said]

/-- The moment is one step further from the start. -/
private theorem moment_later (moment : Moment step told next final events rest count middle first second before after)
    (taken : step state event = .ok (next, output)) :
    Moment step told state final (event :: events) (output :: rest) ((told output).length + count) middle
      (event :: first) second (output :: before) after where
  cut := by rw [moment.cut, List.cons_append]
  answers := by rw [moment.answers, List.cons_append]
  ran := run_cons_ok.mpr ⟨next, output, before, taken, moment.ran, rfl⟩
  goesOn := moment.goesOn
  said := by rw [List.flatMap_cons, List.length_append, moment.said]
  present := moment.present

/-- After any number of words, what is known was true at a moment of the run; the
moment is the present one when no word is left. -/
theorem every_word_was_true (publishes : EveryStep step (Publishes step truth told) state events)
    (ran : run step state events = .ok (final, outputs)) (few : count ≤ (outputs.flatMap told).length) :
    ∃ middle first second before after,
      Moment step told state final events outputs count middle first second before after ∧
      truth middle = lastWord (truth state) ((outputs.flatMap told).take count) := by
  induction events generalizing state outputs count with
  | nil =>
    cases ran
    have none : count = 0 := by simpa using few
    exact ⟨final, [], [], [], [], ⟨rfl, rfl, rfl, rfl, none.symm, fun _ => rfl⟩, by simp⟩
  | cons event events ih =>
    obtain ⟨next, output, rest, taken, later, rfl⟩ := run_cons_ok.mp ran
    have publishesLater := publishes.2 next output taken
    rcases publishes.1 next output taken with ⟨silent, same⟩ | ⟨word, said, now⟩
    · -- the moment is put as late as possible, behind the silent steps
      simp only [List.flatMap_cons, silent, List.nil_append] at few ⊢
      obtain ⟨middle, first, second, before, after, moment, known⟩ := ih publishesLater later few
      have placed := moment_later moment taken
      rw [silent, List.length_nil, Nat.zero_add] at placed
      exact ⟨middle, _, second, _, after, placed, by rw [known, same]⟩
    · simp only [List.flatMap_cons, said, List.singleton_append, List.length_cons] at few ⊢
      cases count with
      | zero =>
        refine ⟨state, [], event :: events, [], output :: rest, ⟨rfl, rfl, rfl, ran, rfl, fun none => ?_⟩, rfl⟩
        simp [said] at none
      | succ count =>
        obtain ⟨middle, first, second, before, after, moment, known⟩ := ih publishesLater later (Nat.le_of_succ_le_succ few)
        have placed := moment_later moment taken
        rw [said, List.length_singleton, Nat.add_comm] at placed
        exact ⟨middle, _, second, _, after, placed, by rw [known, now, List.take_succ_cons, last_word_cons]⟩

/-! ### Logs -/

variable {Entry : Type}

/-- In a state that a first part of the run has come to. -/
def Happened (step : State → Event → Except Fault (State × Output)) (start : State) (events : List Event)
    (happens : State → Event → Prop) : Prop :=
  ∃ first event second middle before, events = first ++ event :: second ∧ run step start first = .ok (middle, before) ∧
    happens middle event

/-- Where each step can be credited with some entries, a run has a log of them. -/
theorem run_log {happens : State → Event → Entry → Prop} {credit : Output → List Entry → Prop}
    (credited : EveryStep step (fun state event => ∀ next output, step state event = .ok (next, output) →
      ∃ entries, (∀ entry ∈ entries, happens state event entry) ∧ credit output entries) state events)
    (ran : run step state events = .ok (final, outputs)) :
    ∃ log, List.Forall₂ credit outputs log ∧
      ∀ entry ∈ log.flatten, Happened step state events fun middle event => happens middle event entry := by
  induction events generalizing state outputs with
  | nil =>
    cases ran
    exact ⟨[], .nil, fun _ none => nomatch none⟩
  | cons event events ih =>
    obtain ⟨next, output, rest, taken, later, rfl⟩ := run_cons_ok.mp ran
    obtain ⟨entries, here, credits⟩ := credited.1 next output taken
    obtain ⟨log, others, there⟩ := ih (credited.2 next output taken) later
    refine ⟨entries :: log, .cons credits others, fun entry inside => ?_⟩
    rcases List.mem_append.mp inside with now | behind
    · exact ⟨[], event, events, state, [], rfl, rfl, here entry now⟩
    · obtain ⟨first, probe, second, middle, before, rfl, ranFirst, happens⟩ := there entry behind
      exact ⟨event :: first, probe, second, middle, output :: before, rfl,
        run_cons_ok.mpr ⟨next, output, before, taken, ranFirst, rfl⟩, happens⟩

/-- Whatever is read off each output is read off the log. -/
theorem read_off_log {Word : Type} {log : List (List Entry)} (words : Output → List Word) (shown : Entry → Option Word)
    (credits : List.Forall₂ (fun output entries => words output = entries.filterMap shown) outputs log) :
    outputs.flatMap words = log.flatten.filterMap shown := by
  induction credits with
  | nil => rfl
  | cons here _ ih => rw [List.flatMap_cons, List.flatten_cons, List.filterMap_append, here, ih]

end ChatRoom.Lib
