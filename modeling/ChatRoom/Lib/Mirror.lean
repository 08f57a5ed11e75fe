import Mathlib.Logic.Basic
import Mathlib.Data.Option.Basic

/-! A table that mirrors its owners. Every owner holds a key or none, no two hold
the same, and under the key of an owner the table has what that owner wants, if it
wants anything. Keys are held, given up and held by others in any order; the rules
say how the table has to follow. -/
namespace ChatRoom.Lib

variable {Owner Key Value : Type}

/-- The entries of the table are the wishes of the owners. -/
structure Mirrors (table : Key → Option Value) (holds : Owner → Option Key) (wants : Owner → Option Value) : Prop where
  alone : ∀ owner other key, holds owner = some key → holds other = some key → owner = other
  entries : ∀ key value, table key = some value ↔ ∃ owner, holds owner = some key ∧ wants owner = some value

namespace Mirrors

variable {table next : Key → Option Value} {holds holds' : Owner → Option Key} {wants wants' : Owner → Option Value}
variable {owner : Owner} {key : Key}

theorem lookup (mirrors : Mirrors table holds wants) (held : holds owner = some key) : table key = wants owner := by
  apply Option.ext
  intro value
  rw [mirrors.entries]
  constructor
  · rintro ⟨other, heldToo, wanted⟩
    rw [mirrors.alone owner other key held heldToo, wanted]
  · intro wanted
    exact ⟨owner, held, wanted⟩

theorem lookup_free (mirrors : Mirrors table holds wants) (free : ∀ owner, holds owner ≠ some key) : table key = none := by
  cases found : table key with
  | none => rfl
  | some value =>
    obtain ⟨owner, held, _⟩ := (mirrors.entries key value).mp found
    exact absurd held (free owner)

/-- One owner has a key that no other holds, an old or a new one, and the entry
there follows it. -/
theorem settle (mirrors : Mirrors table holds wants) (before : holds owner = none ∨ holds owner = some key)
    (mine : ∀ other, other ≠ owner → holds other ≠ some key) (held : holds' owner = some key)
    (others : ∀ other, other ≠ owner → holds' other = holds other)
    (wishes : ∀ other, other ≠ owner → wants' other = wants other) (entry : next key = wants' owner)
    (kept : ∀ other, other ≠ key → next other = table other) : Mirrors next holds' wants' := by
  have own : ∀ other, holds' other = some key → other = owner := by
    intro other heldToo
    by_contra different
    rw [others other different] at heldToo
    exact mine other different heldToo
  constructor
  · intro first second shared heldFirst heldSecond
    by_cases here : shared = key
    · subst here
      rw [own first heldFirst, own second heldSecond]
    · have away : ∀ other, holds' other = some shared → holds other = some shared := by
        intro other heldToo
        have different : other ≠ owner := by
          rintro rfl
          rw [held] at heldToo
          exact here (Option.some.inj heldToo).symm
        rwa [others other different] at heldToo
      exact mirrors.alone first second shared (away first heldFirst) (away second heldSecond)
  · intro probe value
    by_cases here : probe = key
    · subst here
      rw [entry]
      constructor
      · intro wanted
        exact ⟨owner, held, wanted⟩
      · rintro ⟨other, heldToo, wanted⟩
        rwa [own other heldToo] at wanted
    · rw [kept probe here, mirrors.entries]
      have notOwner : ∀ other, (holds other = some probe ∨ holds' other = some probe) → other ≠ owner := by
        rintro other heldToo rfl
        rcases heldToo with old | new
        · rcases before with none | same
          · cases none.symm.trans old
          · exact here (Option.some.inj (same.symm.trans old)).symm
        · exact here (Option.some.inj (held.symm.trans new)).symm
      constructor
      · rintro ⟨other, heldToo, wanted⟩
        have different := notOwner other (.inl heldToo)
        exact ⟨other, (others other different).trans heldToo, (wishes other different).trans wanted⟩
      · rintro ⟨other, heldToo, wanted⟩
        have different := notOwner other (.inr heldToo)
        exact ⟨other, (others other different).symm.trans heldToo, (wishes other different).symm.trans wanted⟩

/-- One owner gives its key up, and the entry there goes. -/
theorem release (mirrors : Mirrors table holds wants) (held : holds owner = some key) (gone : holds' owner = none)
    (others : ∀ other, other ≠ owner → holds' other = holds other)
    (wishes : ∀ other, other ≠ owner → wants' other = wants other) (erased : next key = none)
    (kept : ∀ other, other ≠ key → next other = table other) : Mirrors next holds' wants' := by
  have back : ∀ other shared, holds' other = some shared → other ≠ owner ∧ holds other = some shared := by
    intro other shared heldToo
    have different : other ≠ owner := by
      rintro rfl
      cases gone.symm.trans heldToo
    exact ⟨different, (others other different).symm.trans heldToo⟩
  constructor
  · intro first second shared heldFirst heldSecond
    exact mirrors.alone first second shared (back first shared heldFirst).2 (back second shared heldSecond).2
  · intro probe value
    by_cases here : probe = key
    · subst here
      rw [erased]
      constructor
      · intro found
        cases found
      · rintro ⟨other, heldToo, _⟩
        obtain ⟨different, before⟩ := back other probe heldToo
        exact absurd (mirrors.alone other owner probe before held) different
    · rw [kept probe here, mirrors.entries]
      constructor
      · rintro ⟨other, heldToo, wanted⟩
        have different : other ≠ owner := by
          rintro rfl
          exact here (Option.some.inj (held.symm.trans heldToo)).symm
        exact ⟨other, (others other different).trans heldToo, (wishes other different).trans wanted⟩
      · rintro ⟨other, heldToo, wanted⟩
        obtain ⟨different, before⟩ := back other probe heldToo
        exact ⟨other, before, (wishes other different).symm.trans wanted⟩

/-- Nobody's key and no wish of a holder has changed. -/
theorem unchanged (mirrors : Mirrors table holds wants) (keys : ∀ owner, holds' owner = holds owner)
    (wishes : ∀ owner, holds owner ≠ none → wants' owner = wants owner) : Mirrors table holds' wants' := by
  constructor
  · intro first second shared heldFirst heldSecond
    rw [keys] at heldFirst heldSecond
    exact mirrors.alone first second shared heldFirst heldSecond
  · intro probe value
    rw [mirrors.entries]
    constructor
    · rintro ⟨owner, held, wanted⟩
      exact ⟨owner, (keys owner).trans held, (wishes owner (by simp [held])).trans wanted⟩
    · rintro ⟨owner, held, wanted⟩
      rw [keys] at held
      exact ⟨owner, held, (wishes owner (by simp [held])).symm.trans wanted⟩

end Mirrors
end ChatRoom.Lib
