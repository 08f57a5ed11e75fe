import Mathlib.Data.List.Basic

/-! Queues in which some items begin something and others end it. What is begun
has to be ended: by an item further back in the queue, or by one that is
expected from elsewhere. -/
namespace ChatRoom.Lib

variable {α ι : Type} {begins : α → Option ι} {ends : ι → α} {expected other : ι → Prop}
  {queue first second : List α} {item : α} {id : ι}

/-- Each item that begins something is followed by the one that ends it, unless
that one is expected. -/
def Followed (begins : α → Option ι) (ends : ι → α) (expected : ι → Prop) : List α → Prop
  | [] => True
  | item :: rest => (∀ id, begins item = some id → expected id ∨ ends id ∈ rest) ∧
      Followed begins ends expected rest

/-- Nothing is begun again behind its end. -/
def NoneBehind (begins : α → Option ι) (ends : ι → α) (queue : List α) : Prop :=
  queue.Pairwise fun earlier later => ∀ id, earlier = ends id → begins later ≠ some id

/-- What is further back is expected in front. -/
theorem followed_append :
    Followed begins ends expected (first ++ second) ↔
      Followed begins ends (fun id => expected id ∨ ends id ∈ second) first ∧
        Followed begins ends expected second := by
  induction first with
  | nil => simp [Followed]
  | cons item first ih =>
    simp only [List.cons_append, Followed, ih, List.mem_append]
    constructor
    · rintro ⟨here, front, back⟩
      exact ⟨⟨fun id begun => by have := here id begun; tauto, front⟩, back⟩
    · rintro ⟨⟨here, front⟩, back⟩
      exact ⟨fun id begun => by have := here id begun; tauto, front, back⟩

/-- Only what the queue begins matters. -/
theorem followed_mono (followed : Followed begins ends expected queue)
    (still : ∀ item ∈ queue, ∀ id, begins item = some id → expected id → other id) :
    Followed begins ends other queue := by
  induction queue with
  | nil => trivial
  | cons item queue ih =>
    refine ⟨fun id begun => ?_, ih followed.2 fun later inside => still later (List.mem_cons_of_mem item inside)⟩
    rcases followed.1 id begun with elsewhere | behind
    · exact .inl (still item List.mem_cons_self id begun elsewhere)
    · exact .inr behind

theorem followed_of_expected (all : ∀ item ∈ queue, ∀ id, begins item = some id → expected id) :
    Followed begins ends expected queue := by
  induction queue with
  | nil => trivial
  | cons item queue ih =>
    exact ⟨fun id begun => .inl (all item List.mem_cons_self id begun),
      ih fun later inside => all later (List.mem_cons_of_mem item inside)⟩

/-- Items that begin nothing but what is expected may come at the back. -/
theorem followed_append_expected (followed : Followed begins ends expected first)
    (all : ∀ item ∈ second, ∀ id, begins item = some id → expected id) :
    Followed begins ends expected (first ++ second) :=
  followed_append.mpr ⟨followed_mono followed fun _ _ _ _ elsewhere => .inl elsewhere, followed_of_expected all⟩

/-- Items that begin nothing may be put in. -/
theorem followed_insert {middle : List α} (followed : Followed begins ends expected (first ++ second))
    (quiet : ∀ item ∈ middle, begins item = none) :
    Followed begins ends expected (first ++ (middle ++ second)) := by
  obtain ⟨front, back⟩ := followed_append.mp followed
  refine followed_append.mpr ⟨followed_mono front fun _ _ id _ => Or.imp_right (List.mem_append_right middle), ?_⟩
  refine followed_append.mpr ⟨followed_of_expected fun item inside id begun => ?_, back⟩
  rw [quiet item inside] at begun
  contradiction

/-- An item that ends nothing may be taken out. -/
theorem followed_remove (followed : Followed begins ends expected (first ++ item :: second))
    (endless : ∀ id, ends id ≠ item) : Followed begins ends expected (first ++ second) := by
  obtain ⟨front, back⟩ := followed_append.mp followed
  refine followed_append.mpr ⟨followed_mono front fun _ _ id _ => Or.imp_right fun inside => ?_, back.2⟩
  rcases List.mem_cons.mp inside with same | behind
  · exact absurd same (endless id)
  · exact behind

/-- Where the end is in the queue, it need not be expected. -/
theorem followed_ended (followed : Followed begins ends expected (first ++ ends id :: second))
    (behind : NoneBehind begins ends (ends id :: second)) (quiet : begins (ends id) = none) :
    Followed begins ends (fun other => expected other ∧ other ≠ id) (first ++ ends id :: second) := by
  obtain ⟨front, back⟩ := followed_append.mp followed
  refine followed_append.mpr ⟨followed_mono front fun _ _ other _ covered => ?_,
    followed_mono back fun item inside other begun elsewhere => ⟨elsewhere, ?_⟩⟩
  · rcases covered with elsewhere | later
    · by_cases same : other = id
      · exact .inr (same ▸ List.mem_cons_self)
      · exact .inl ⟨elsewhere, same⟩
    · exact .inr later
  · rintro rfl
    rcases List.mem_cons.mp inside with rfl | later
    · rw [quiet] at begun
      contradiction
    · exact (List.pairwise_cons.mp behind).1 item later other rfl begun

/-- What comes to the back begins nothing that has been ended. -/
theorem none_behind_snoc (behind : NoneBehind begins ends queue)
    (unended : ∀ id, begins item = some id → ends id ∉ queue) : NoneBehind begins ends (queue ++ [item]) := by
  refine List.pairwise_append.mpr ⟨behind, List.pairwise_singleton _ _, fun earlier inside later last id ended begun => ?_⟩
  rw [List.mem_singleton.mp last] at begun
  exact unended id begun (ended ▸ inside)

/-- Of the items for one id, those that begin it come first. -/
theorem none_behind_split (behind : NoneBehind begins ends queue) (concerns : α → Bool)
    (kinds : ∀ item ∈ queue, concerns item = true → begins item = some id ∨ item = ends id) :
    ∃ front back, queue.filter concerns = front ++ back ∧ (∀ item ∈ front, begins item = some id) ∧
      ∀ item ∈ back, item = ends id := by
  induction queue with
  | nil => exact ⟨[], [], rfl, (fun _ inside => nomatch inside), fun _ inside => nomatch inside⟩
  | cons item queue ih =>
    obtain ⟨later, rest⟩ := List.pairwise_cons.mp behind
    obtain ⟨front, back, split, begin, ended⟩ := ih rest fun other inside => kinds other (List.mem_cons_of_mem item inside)
    cases concerned : concerns item with
    | false => exact ⟨front, back, by rw [List.filter_cons_of_neg (by simp [concerned]), split], begin, ended⟩
    | true =>
      have whole : (item :: queue).filter concerns = item :: (front ++ back) := by
        rw [List.filter_cons_of_pos concerned, split]
      rcases kinds item List.mem_cons_self concerned with begun | closes
      · refine ⟨item :: front, back, whole, fun other inside => ?_, ended⟩
        rcases List.mem_cons.mp inside with rfl | behind
        · exact begun
        · exact begin other behind
      · -- behind the end nothing begins, so all that is left ends as well
        refine ⟨[], item :: (front ++ back), whole, (fun _ inside => nomatch inside), fun other inside => ?_⟩
        rcases List.mem_cons.mp inside with rfl | behind
        · exact closes
        · have member : other ∈ queue.filter concerns := by rw [split]; exact behind
          obtain ⟨member, chosen⟩ := List.mem_filter.mp member
          exact (kinds other (List.mem_cons_of_mem item member) chosen).resolve_left (later other member id closes)

end ChatRoom.Lib
