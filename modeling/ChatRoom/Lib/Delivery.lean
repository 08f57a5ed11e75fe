import Mathlib.Data.List.Basic

/-! What is on its way to a receiver, in order. Of what was sent a first part has
arrived, a last part is waiting, and what was between them is lost. Nothing is
lost as long as the receiver is there. -/
namespace ChatRoom.Lib

variable {α : Type} {sent arrived waiting : List α} {item : α} {gone after : Prop}

/-- Nothing is out of order, and nothing comes twice. -/
def Delivers (sent arrived waiting : List α) (gone : Prop) : Prop :=
  ∃ lost, sent = arrived ++ lost ++ waiting ∧ (lost ≠ [] → gone)

theorem delivers_nothing (gone : Prop) : Delivers ([] : List α) [] [] gone := ⟨[], rfl, fun some => absurd rfl some⟩

theorem delivers_prefix (delivers : Delivers sent arrived waiting gone) : arrived <+: sent := by
  obtain ⟨lost, rfl, _⟩ := delivers
  exact ⟨lost ++ waiting, (List.append_assoc ..).symm⟩

theorem delivers_mono (delivers : Delivers sent arrived waiting gone) (still : gone → after) :
    Delivers sent arrived waiting after := by
  obtain ⟨lost, whole, why⟩ := delivers
  exact ⟨lost, whole, fun some => still (why some)⟩

/-- More is sent. -/
theorem delivers_sent (delivers : Delivers sent arrived waiting gone) (more : List α) :
    Delivers (sent ++ more) arrived (waiting ++ more) gone := by
  obtain ⟨lost, rfl, why⟩ := delivers
  exact ⟨lost, by simp only [List.append_assoc], why⟩

/-- As long as the receiver is there, the first that waits arrives next. -/
theorem delivers_arrived (delivers : Delivers sent arrived (item :: waiting) gone) (there : ¬ gone) :
    Delivers sent (arrived ++ [item]) waiting gone := by
  obtain ⟨lost, rfl, why⟩ := delivers
  have none : lost = [] := by
    by_contra some
    exact there (why some)
  subst none
  exact ⟨[], by simp, fun some => absurd rfl some⟩

/-- The receiver is gone. -/
theorem delivers_lost (delivers : Delivers sent arrived (item :: waiting) gone) (absent : gone) :
    Delivers sent arrived waiting gone := by
  obtain ⟨lost, rfl, _⟩ := delivers
  exact ⟨lost ++ [item], by simp, fun _ => absent⟩

end ChatRoom.Lib
