import Mathlib.Data.List.Perm.Subperm
import Std.Data.ExtTreeMap.Lemmas
import Std.Data.ExtTreeSet.Lemmas

/-! `std::map` and `std::set` as ordered trees: what a loop over one meets, and
what `insert` calls in a row make of one. `insert` keeps the element that has
the key already. -/
namespace ChatRoom.Lib

variable {κ ν ι : Type} [Ord κ] [Std.TransOrd κ]

/-- What `iter->second` is in a loop over a map. -/
def valuesOf (map : Std.ExtTreeMap κ ν) : List ν := map.toList.map Prod.snd

/-- Elements inserted in a row: of two with one key the first stays. -/
def insertEach (keyOf : ι → κ) (valueOf : ι → ν) (map : Std.ExtTreeMap κ ν) (items : List ι) :
    Std.ExtTreeMap κ ν :=
  items.foldl (fun map item => map.insertIfNew (keyOf item) (valueOf item)) map

theorem length_values_of (map : Std.ExtTreeMap κ ν) : (valuesOf map).length = map.size := by
  rw [valuesOf, List.length_map, Std.ExtTreeMap.length_toList]

/-! ### Sets that take different elements for the same -/

section equivalent
variable {set : Std.ExtTreeSet κ} {key item : κ}

theorem mem_to_list_iff : key ∈ set.toList ↔ set.get? key = some key := by
  change key ∈ set.inner.keys ↔ set.inner.getKey? key = some key
  rw [← Std.ExtTreeMap.map_fst_toList_eq_keys, List.mem_map]
  constructor
  · rintro ⟨⟨held, value⟩, member, rfl⟩
    exact (Std.ExtTreeMap.mem_toList_iff_getKey?_eq_some_and_getElem?_eq_some.mp member).1
  · intro held
    have inside : key ∈ set.inner := Std.ExtTreeMap.mem_iff_isSome_getKey?.mpr (by rw [held]; rfl)
    obtain ⟨value, found⟩ := Option.isSome_iff_exists.mp (Std.ExtTreeMap.mem_iff_isSome_getElem?.mp inside)
    exact ⟨(key, value), Std.ExtTreeMap.mem_toList_iff_getKey?_eq_some_and_getElem?_eq_some.mpr ⟨held, found⟩, rfl⟩

/-- `find` answers for an equivalent element. -/
theorem mem_iff_equivalent : key ∈ set ↔ ∃ held ∈ set.toList, compare held key = .eq := by
  constructor
  · intro inside
    have same := Std.ExtTreeSet.compare_get_self inside
    refine ⟨set.get key inside, ?_, same⟩
    rw [mem_to_list_iff, Std.ExtTreeSet.get?_congr same, Std.ExtTreeSet.get?_eq_some_get inside]
  · rintro ⟨held, member, same⟩
    rw [mem_to_list_iff, Std.ExtTreeSet.get?_congr same] at member
    exact Std.ExtTreeSet.mem_iff_isSome_get?.mpr (by rw [member]; rfl)

/-- Of equivalent elements a set holds one. -/
theorem equivalent_members (first : key ∈ set.toList) (second : item ∈ set.toList) (same : compare key item = .eq) :
    key = item := by
  rw [mem_to_list_iff] at first second
  rw [Std.ExtTreeSet.get?_congr same, second] at first
  exact (Option.some.inj first).symm

/-- An element is put in beside the others, if nothing is equivalent to it. -/
theorem mem_to_list_insert :
    key ∈ (set.insert item).toList ↔ (key = item ∧ item ∉ set) ∨ key ∈ set.toList := by
  rw [mem_to_list_iff, mem_to_list_iff, Std.ExtTreeSet.get?_insert]
  by_cases new : compare item key = .eq ∧ ¬ item ∈ set
  · have absent : set.get? key = none := by
      rw [← Std.ExtTreeSet.get?_congr new.1]
      exact Std.ExtTreeSet.get?_eq_none new.2
    rw [if_pos new, absent, Option.some.injEq, eq_comm]
    simp [new.2]
  · rw [if_neg new]
    constructor
    · exact .inr
    · rintro (⟨rfl, absent⟩ | held)
      · exact absurd ⟨Std.ReflCmp.compare_self, absent⟩ new
      · exact held

end equivalent

variable [Std.LawfulEqOrd κ]

theorem mem_values_of {map : Std.ExtTreeMap κ ν} {value : ν} :
    value ∈ valuesOf map ↔ ∃ key : κ, map[key]? = some value := by
  simp only [valuesOf, List.mem_map, Prod.exists, exists_eq_right, Std.ExtTreeMap.mem_toList_iff_getElem?_eq_some]

theorem mem_foldl_insert {set : Std.ExtTreeSet κ} {items : List κ} {key : κ} :
    key ∈ items.foldl (fun set item => set.insert item) set ↔ key ∈ set ∨ key ∈ items := by
  induction items generalizing set with
  | nil => simp
  | cons item items ih =>
    rw [List.foldl_cons, ih, Std.ExtTreeSet.mem_insert, Std.LawfulEqCmp.compare_eq_iff_eq, List.mem_cons,
      eq_comm (a := item), or_comm (a := key = item), or_assoc]

/-- A loop over a map with one key runs once. -/
theorem values_of_single {map : Std.ExtTreeMap κ ν} {key : κ} {value : ν} (only : ∀ other : κ, other ∈ map → other = key)
    (held : map[key]? = some value) : valuesOf map = [value] := by
  have entries : map.toList = [(key, value)] := by
    apply List.perm_singleton.mp
    refine (List.perm_ext_iff_of_nodup ?_ (List.pairwise_singleton _ _)).mpr ?_
    · exact Std.ExtTreeMap.distinct_keys_toList.imp fun {first second} different same => different (by simp [same])
    · rintro ⟨other, found⟩
      rw [Std.ExtTreeMap.mem_toList_iff_getElem?_eq_some, List.mem_singleton, Prod.mk.injEq]
      constructor
      · intro there
        obtain rfl := only other (Std.ExtTreeMap.mem_iff_isSome_getElem?.mpr (by rw [there]; rfl))
        cases held.symm.trans there
        exact ⟨rfl, rfl⟩
      · rintro ⟨rfl, rfl⟩
        exact held
  rw [valuesOf, entries]
  rfl

/-- Inserting all elements of a set makes the set again. -/
theorem foldl_insert_to_list (set : Std.ExtTreeSet κ) :
    set.toList.foldl (fun set item => set.insert item) ∅ = set := by
  apply Std.ExtTreeSet.ext_mem
  intro key
  rw [mem_foldl_insert]
  simp

/-- Maps with the same keys have the same size. -/
theorem size_congr {first second : Std.ExtTreeMap κ ν} (same : ∀ key : κ, key ∈ first ↔ key ∈ second) :
    first.size = second.size := by
  have keys : first.keys.Perm second.keys :=
    (List.perm_ext_iff_of_nodup Std.ExtTreeMap.nodup_keys Std.ExtTreeMap.nodup_keys).mpr fun key => by
      rw [Std.ExtTreeMap.mem_keys, Std.ExtTreeMap.mem_keys, same]
  rw [← Std.ExtTreeMap.length_keys, keys.length_eq, Std.ExtTreeMap.length_keys]

theorem size_le {first second : Std.ExtTreeMap κ ν} (inside : ∀ key : κ, key ∈ second → key ∈ first) :
    second.size ≤ first.size := by
  have keys : second.keys ⊆ first.keys := by
    intro key member
    exact Std.ExtTreeMap.mem_keys.mpr (inside key (Std.ExtTreeMap.mem_keys.mp member))
  have lengths := (Std.ExtTreeMap.nodup_keys.subperm keys).length_le
  rwa [Std.ExtTreeMap.length_keys, Std.ExtTreeMap.length_keys] at lengths

theorem size_le_succ {first second : Std.ExtTreeMap κ ν} (extra : κ)
    (inside : ∀ key : κ, key ∈ second → key ∈ first ∨ key = extra) : second.size ≤ first.size + 1 := by
  have keys : second.keys ⊆ extra :: first.keys := by
    intro key member
    rw [List.mem_cons, Std.ExtTreeMap.mem_keys]
    exact (inside key (Std.ExtTreeMap.mem_keys.mp member)).symm
  have lengths := (Std.ExtTreeMap.nodup_keys.subperm keys).length_le
  rwa [List.length_cons, Std.ExtTreeMap.length_keys, Std.ExtTreeMap.length_keys] at lengths

theorem set_size_le {set : Std.ExtTreeSet κ} {map : Std.ExtTreeMap κ ν} (inside : ∀ key ∈ set, key ∈ map) :
    set.size ≤ map.size := by
  have nodup : set.toList.Nodup := Std.ExtTreeSet.distinct_toList.imp fun different same => different (by simp [same])
  have keys : set.toList ⊆ map.keys := by
    intro key member
    exact Std.ExtTreeMap.mem_keys.mpr (inside key (Std.ExtTreeSet.mem_toList.mp member))
  have lengths := (nodup.subperm keys).length_le
  rwa [Std.ExtTreeSet.length_toList, Std.ExtTreeMap.length_keys] at lengths

/-- Where the keys are the numbers below the size, a loop meets the values in
the order of their numbers. -/
theorem values_in_order {map : Std.ExtTreeMap κ ν} {rank : κ → Nat}
    (monotone : ∀ first second, compare first second = .lt → rank first < rank second)
    (below : ∀ key : κ, key ∈ map → rank key < map.size) {place : Nat} {value : ν}
    (found : (valuesOf map)[place]? = some value) : ∃ key : κ, rank key = place ∧ map[key]? = some value := by
  have sorted : (map.toList.map fun entry => rank entry.1).Pairwise (· < ·) :=
    List.pairwise_map.mpr (Std.ExtTreeMap.ordered_keys_toList.imp fun less => monotone _ _ less)
  have nodup : (map.toList.map fun entry => rank entry.1).Nodup := sorted.imp Nat.ne_of_lt
  have inside : (map.toList.map fun entry => rank entry.1) ⊆ List.range map.size := by
    intro number member
    obtain ⟨entry, listed, rfl⟩ := List.mem_map.mp member
    have held := Std.ExtTreeMap.mem_toList_iff_getElem?_eq_some.mp listed
    exact List.mem_range.mpr (below entry.1 (Std.ExtTreeMap.mem_iff_isSome_getElem?.mpr (by rw [held]; rfl)))
  have perm : (map.toList.map fun entry => rank entry.1).Perm (List.range map.size) := by
    apply (nodup.subperm inside).perm_of_length_le
    simp
  have numbers : (map.toList.map fun entry => rank entry.1) = List.range map.size :=
    perm.eq_of_pairwise (fun _ _ _ _ less more => absurd less (Nat.lt_asymm more)) sorted List.pairwise_lt_range
  rw [valuesOf, List.getElem?_map, Option.map_eq_some_iff] at found
  obtain ⟨⟨key, held⟩, entry, rfl⟩ := found
  have number := congrArg (fun numbers => numbers[place]?) numbers
  simp only [List.getElem?_map, entry, Option.map_some] at number
  obtain ⟨_, same⟩ := List.getElem?_eq_some_iff.mp number.symm
  rw [List.getElem_range] at same
  exact ⟨key, same.symm, Std.ExtTreeMap.mem_toList_iff_getElem?_eq_some.mp (List.mem_of_getElem? entry)⟩

variable [DecidableEq κ]

/-- Where each value says its own key, looking for the key in a loop is looking
it up. -/
theorem find_values_of {map : Std.ExtTreeMap κ ν} {keyOf : ν → κ}
    (own : ∀ key value, map[key]? = some value → keyOf value = key) (key : κ) :
    ((valuesOf map).find? fun value => decide (keyOf value = key)) = map[key]? := by
  cases found : (valuesOf map).find? fun value => decide (keyOf value = key) with
  | none =>
    cases held : map[key]? with
    | none => rfl
    | some value =>
      have absent := List.find?_eq_none.mp found value (mem_values_of.mpr ⟨key, held⟩)
      simp [own key value held] at absent
  | some value =>
    have same : keyOf value = key := by simpa using List.find?_some found
    obtain ⟨other, held⟩ := mem_values_of.mp (List.mem_of_find?_eq_some found)
    rw [← same, own other value held, held]

/-- A loop that looks for a key meets the value of that key, and once. -/
theorem filter_values_of {map : Std.ExtTreeMap κ ν} {keyOf : ν → κ}
    (own : ∀ key value, map[key]? = some value → keyOf value = key) (key : κ) :
    ((valuesOf map).filter fun value => decide (keyOf value = key)) = map[key]?.toList := by
  have entries : (map.toList.filter fun entry => decide (keyOf entry.2 = key)) =
      (map[key]?.map fun value => (key, value)).toList := by
    have nodup : map.toList.Nodup :=
      Std.ExtTreeMap.distinct_keys_toList.imp fun {first second} different same => different (by simp [same])
    have member : ∀ entry, (entry ∈ map.toList.filter fun entry => decide (keyOf entry.2 = key)) ↔
        entry.1 = key ∧ map[key]? = some entry.2 := by
      rintro ⟨other, value⟩
      rw [List.mem_filter, Std.ExtTreeMap.mem_toList_iff_getElem?_eq_some, decide_eq_true_eq]
      constructor
      · rintro ⟨held, same⟩
        rw [own other value held] at same
        exact ⟨same, same ▸ held⟩
      · rintro ⟨rfl, held⟩
        exact ⟨held, own other value held⟩
    cases held : map[key]? with
    | none =>
      apply List.eq_nil_iff_forall_not_mem.mpr
      intro entry inside
      cases held.symm.trans ((member entry).mp inside).2
    | some value =>
      apply List.perm_singleton.mp
      refine (List.perm_ext_iff_of_nodup (nodup.filter _) (List.pairwise_singleton _ _)).mpr fun entry => ?_
      rw [member, held, List.mem_singleton, Option.some.injEq, Prod.ext_iff, eq_comm (a := value)]
  rw [valuesOf, List.filter_map]
  change (map.toList.filter fun entry => decide (keyOf entry.2 = key)).map Prod.snd = _
  rw [entries]
  cases map[key]? <;> rfl

theorem insert_each_lookup (keyOf : ι → κ) (valueOf : ι → ν) (map : Std.ExtTreeMap κ ν) (items : List ι) (key : κ) :
    (insertEach keyOf valueOf map items)[key]? =
      map[key]?.or ((items.find? fun item => decide (keyOf item = key)).map valueOf) := by
  induction items generalizing map with
  | nil => simp [insertEach]
  | cons item items ih =>
    rw [insertEach, List.foldl_cons, ← insertEach, ih, List.find?_cons]
    simp only [Std.ExtTreeMap.getElem?_insertIfNew, Std.LawfulEqCmp.compare_eq_iff_eq]
    by_cases same : keyOf item = key
    · subst same
      by_cases held : keyOf item ∈ map
      · simp [held]
      · simp [held]
    · simp [same]

end ChatRoom.Lib
