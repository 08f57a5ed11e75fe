import Mathlib.Data.List.Basic

/-! Interleavings of finitely many sequences. An interleaving takes the elements
of each sequence in their order and says nothing about two elements of different
sequences. -/
namespace ChatRoom.Lib

/-- `order` is the sequences, each in its own order, in one of the ways to put
them together. -/
inductive Interleaves : List (List α) → List α → Prop
  | done {sequences : List (List α)} (empty : ∀ sequence ∈ sequences, sequence = []) : Interleaves sequences []
  | next {before after : List (List α)} {first : α} {rest order : List α}
      (later : Interleaves (before ++ rest :: after) order) :
      Interleaves (before ++ (first :: rest) :: after) (first :: order)

variable {sequences before after : List (List α)} {order : List α} {element : α}

/-- What is left out of every sequence is left out of the whole. -/
theorem Interleaves.filter (keep : α → Bool) (interleaved : Interleaves sequences order) :
    Interleaves (sequences.map fun sequence => sequence.filter keep) (order.filter keep) := by
  induction interleaved with
  | done empty =>
    refine .done fun sequence member => ?_
    obtain ⟨whole, inside, rfl⟩ := List.mem_map.mp member
    rw [empty whole inside, List.filter_nil]
  | @next before after first rest order later ih =>
    rw [List.map_append, List.map_cons] at ih ⊢
    cases kept : keep first with
    | true =>
      rw [List.filter_cons_of_pos kept, List.filter_cons_of_pos kept]
      exact .next ih
    | false =>
      rw [List.filter_cons_of_neg (by simp [kept]), List.filter_cons_of_neg (by simp [kept])]
      exact ih

/-- Nothing is added. -/
theorem Interleaves.mem (interleaved : Interleaves sequences order) (inside : element ∈ order) :
    ∃ sequence ∈ sequences, element ∈ sequence := by
  induction interleaved with
  | done => cases inside
  | @next before after first rest order later ih =>
    rcases List.mem_cons.mp inside with rfl | behind
    · exact ⟨element :: rest, List.mem_append_right before (List.mem_cons_self ..), List.mem_cons_self ..⟩
    · obtain ⟨sequence, member, held⟩ := ih behind
      rcases List.mem_append.mp member with front | back
      · exact ⟨sequence, List.mem_append_left _ front, held⟩
      · rcases List.mem_cons.mp back with rfl | back
        · exact ⟨first :: sequence, List.mem_append_right before (List.mem_cons_self ..), List.mem_cons_of_mem first held⟩
        · exact ⟨sequence, List.mem_append_right before (List.mem_cons_of_mem _ back), held⟩

/-- With nothing beside it, a sequence can be taken in one way only. -/
theorem Interleaves.alone (interleaved : Interleaves sequences order)
    (one : sequences.Pairwise fun first second => first = [] ∨ second = []) : order = sequences.flatten := by
  induction interleaved with
  | done empty => rw [List.flatten_eq_nil_iff.mpr empty]
  | @next before after first rest order later ih =>
    obtain ⟨front, behind, across⟩ := List.pairwise_append.mp one
    obtain ⟨back, apart⟩ := List.pairwise_cons.mp behind
    have noneBefore : before.flatten = [] := List.flatten_eq_nil_iff.mpr fun sequence member =>
      (across sequence member _ (List.mem_cons_self ..)).resolve_right (List.cons_ne_nil first rest)
    have still : (before ++ rest :: after).Pairwise fun first second => first = [] ∨ second = [] := by
      refine List.pairwise_append.mpr ⟨front, List.pairwise_cons.mpr ⟨fun sequence member => ?_, apart⟩, ?_⟩
      · exact .inr ((back sequence member).resolve_left (List.cons_ne_nil first rest))
      · intro sequence member other _
        exact .inl ((across sequence member _ (List.mem_cons_self ..)).resolve_right (List.cons_ne_nil first rest))
    rw [ih still, List.flatten_append, List.flatten_append, noneBefore]
    rfl

/-- Where only one of the sequences has elements of a kind, every interleaving
has these elements in the order of that sequence. -/
theorem Interleaves.filter_alone (keep : α → Bool) (interleaved : Interleaves sequences order)
    (one : sequences.Pairwise fun first second => first.filter keep = [] ∨ second.filter keep = []) :
    order.filter keep = (sequences.map fun sequence => sequence.filter keep).flatten :=
  (interleaved.filter keep).alone (List.pairwise_map.mpr one)

end ChatRoom.Lib
