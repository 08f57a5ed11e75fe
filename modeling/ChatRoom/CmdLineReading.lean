import ChatRoom.CmdLine
import ChatRoom.Lib.Memory
import Mathlib.Data.List.Forall2

/-! What a command line says. An argument is a flag, a row of initials, a setting with
its value behind `=` or in the argument that follows, or none of these; a command line
is spelled in such words. `parse` accepts exactly what is spelled in words that fit
the options and leaves no needed option out; an option then has the value that is
given to it last. -/
namespace ChatRoom.CmdLineReading
open Lib CmdLine

/-- What comes of an argument. -/
inductive Item where
  | flag (name : StdString)
  | setting (name value : StdString)
  | other (arg : StdString)
  deriving DecidableEq

variable {parser base next : Parser} {lookup : Lookup} {item more : Item} {items : List Item} {name : StdString}
  {letter : UInt8}
  {arg : CString} {args : List CString}

def apply (parser : Parser) : Item → Parser
  | .flag name => parser.setOption name
  | .setting name value => parser.setOptionTo name value
  | .other arg => { parser with others := parser.others ++ [arg] }

/-- A letter stands for an option. -/
def Initial (parser : Parser) (letter : UInt8) (name : StdString) : Prop :=
  name.length ≠ 0 ∧ letter ≠ 0 ∧ ∃ opt, parser.options[name]? = some opt ∧ opt.snam = letter

/-- The options take an item. -/
def Legal (parser : Parser) : Item → Prop
  | .flag name => ∃ opt, parser.options[name]? = some opt ∧ opt.value = none
  | .setting name value => ∃ opt held actual, parser.options[name]? = some opt ∧ opt.value = some held ∧
      held.read value = some actual
  | .other _ => True

/-- What an argument says, alone or with the one behind it. -/
inductive Word (parser : Parser) (arg : CString) : Option CString → List Item → Prop where
  | assigned {name value : StdString} (split : arg.bytes = dash :: dash :: (name.bytes ++ equals :: value.bytes))
      (plain : equals ∉ name.bytes) : Word parser arg none [.setting name value]
  | long {name : StdString} (value : CString) (split : arg.bytes = dash :: dash :: name.bytes)
      (plain : equals ∉ name.bytes) :
    Word parser arg (some value) [.setting name value.string]
  | longFlag {name : StdString} (split : arg.bytes = dash :: dash :: name.bytes) (plain : equals ∉ name.bytes) :
    Word parser arg none [.flag name]
  | nothing (alone : arg.bytes = [dash]) : Word parser arg none []
  | initials {front : List UInt8} {last : UInt8} {names : List StdString} {name : StdString}
      (split : arg.bytes = dash :: (front ++ [last])) (single : (front ++ [last]).head? ≠ some dash)
      (stand : List.Forall₂ (Initial parser) front names) (stands : Initial parser last name) :
    Word parser arg none (names.map .flag ++ [.flag name])
  | initialsValue {front : List UInt8} {last : UInt8} {names : List StdString} {name : StdString} (value : CString)
      (split : arg.bytes = dash :: (front ++ [last])) (single : (front ++ [last]).head? ≠ some dash)
      (stand : List.Forall₂ (Initial parser) front names) (stands : Initial parser last name) :
    Word parser arg (some value) (names.map .flag ++ [.setting name value.string])
  | other (plain : arg.char ≠ dash) : Word parser arg none [.other arg.string]

/-- A command line in words. -/
inductive Spells (parser : Parser) : List CString → List Item → Prop where
  | nil : Spells parser [] []
  | one {arg : CString} {rest : List CString} {items more : List Item} (word : Word parser arg none items)
      (others : Spells parser rest more) : Spells parser (arg :: rest) (items ++ more)
  | two {arg value : CString} {rest : List CString} {items more : List Item} (word : Word parser arg (some value) items)
      (others : Spells parser rest more) : Spells parser (arg :: value :: rest) (items ++ more)

/-! ### Items -/

/-- What an item makes of a value. -/
def taken (held : OptionValue) (value : StdString) : OptionValue :=
  match held.read value with
  | none => held
  | some actual => { held with actual }

/-- What an item makes of the option with a name. -/
def optionTaking (name : StdString) (opt : OptionBase) : Item → OptionBase
  | .flag other => if other = name then { opt with has := true } else opt
  | .setting other value =>
    if other = name then { opt with has := true, value := opt.value.map fun held => taken held value } else opt
  | .other _ => opt

theorem apply_lookup (legal : Legal parser item) (name : StdString) :
    (apply parser item).options[name]? = (parser.options[name]?).map fun opt => optionTaking name opt item := by
  have inserted : ∀ {other : StdString} {opt changed : OptionBase}, parser.options[other]? = some opt →
      (parser.options.insert other changed)[name]? =
        (parser.options[name]?).map fun opt => if other = name then changed else opt := by
    intro other opt changed known
    simp only [Std.ExtTreeMap.getElem?_insert, Std.LawfulEqCmp.compare_eq_iff_eq]
    split
    next same =>
      rw [← same, known]
      rfl
    next => simp
  cases item with
  | flag other =>
    obtain ⟨opt, known, lone⟩ := legal
    simp only [apply, Parser.setOption, known, OptionBase.set, lone, inserted known]
    by_cases same : other = name
    · subst same
      simp [known, optionTaking, lone]
    · simp [same, optionTaking]
  | setting other value =>
    obtain ⟨opt, held, actual, known, valued, reads⟩ := legal
    simp only [apply, Parser.setOptionTo, known, OptionBase.setTo, valued, reads, Option.map_some, inserted known]
    by_cases same : other = name
    · subst same
      simp [known, optionTaking, valued, taken, reads]
    · simp [same, optionTaking]
  | other arg => simp [apply, optionTaking]

/-- Every item that does not fit is an error. -/
theorem apply_errors : (apply parser item).errors = [] ↔ parser.errors = [] ∧ Legal parser item := by
  cases item with
  | flag name =>
    simp only [apply, Parser.setOption, Legal]
    cases known : parser.options[name]? with
    | none => simp [Parser.note]
    | some opt => cases lone : opt.value <;> simp [OptionBase.set, lone, Parser.note]
  | setting name value =>
    simp only [apply, Parser.setOptionTo, Legal]
    cases known : parser.options[name]? with
    | none => simp [Parser.note]
    | some opt =>
      cases valued : opt.value with
      | none => simp [OptionBase.setTo, valued, Parser.note]
      | some held => cases reads : held.read value <;> simp [OptionBase.setTo, valued, reads, Parser.note]
  | other arg => simp [apply, Legal]

/-- Taking an item changes neither which options there are nor what they take. -/
theorem option_taking_value (name : StdString) (opt : OptionBase) (item : Item) :
    (optionTaking name opt item).value = opt.value ∨
      ∃ held value, opt.value = some held ∧ (optionTaking name opt item).value = some (taken held value) := by
  cases item with
  | flag other => exact .inl (by simp only [optionTaking]; split <;> rfl)
  | setting other value =>
    cases valued : opt.value with
    | none => exact .inl (by simp only [optionTaking]; split <;> simp [valued])
    | some held =>
      by_cases same : other = name
      · exact .inr ⟨held, value, rfl, by simp [optionTaking, same, valued]⟩
      · exact .inl (by simp [optionTaking, same, valued])
  | other arg => exact .inl rfl

theorem taken_takes (held : OptionValue) (value text : StdString) :
    (∃ actual, (taken held value).read text = some actual) ↔ ∃ actual, held.read text = some actual := by
  unfold taken
  split <;> rfl

theorem legal_apply (legal : Legal parser item) : Legal (apply parser item) more ↔ Legal parser more := by
  have look := apply_lookup legal
  cases more with
  | flag name =>
    simp only [Legal, look, Option.map_eq_some_iff]
    constructor
    · rintro ⟨_, ⟨opt, known, rfl⟩, lone⟩
      refine ⟨opt, known, ?_⟩
      rcases option_taking_value name opt item with same | ⟨held, value, _, valued⟩
      · exact same ▸ lone
      · cases lone.symm.trans valued
    · rintro ⟨opt, known, lone⟩
      refine ⟨_, ⟨opt, known, rfl⟩, ?_⟩
      rcases option_taking_value name opt item with same | ⟨held, value, valued, _⟩
      · exact same.trans lone
      · cases lone.symm.trans valued
  | setting name text =>
    simp only [Legal, look, Option.map_eq_some_iff]
    constructor
    · rintro ⟨_, held, actual, ⟨opt, known, rfl⟩, valued, reads⟩
      rcases option_taking_value name opt item with same | ⟨before, value, valuedToo, changed⟩
      · exact ⟨opt, held, actual, known, same ▸ valued, reads⟩
      · cases valued.symm.trans changed
        obtain ⟨read, readsToo⟩ := (taken_takes before value text).mp ⟨actual, reads⟩
        exact ⟨opt, before, read, known, valuedToo, readsToo⟩
    · rintro ⟨opt, held, actual, known, valued, reads⟩
      rcases option_taking_value name opt item with same | ⟨before, value, valuedToo, changed⟩
      · exact ⟨_, held, actual, ⟨opt, known, rfl⟩, same.trans valued, reads⟩
      · cases valued.symm.trans valuedToo
        obtain ⟨read, readsToo⟩ := (taken_takes held value text).mpr ⟨actual, reads⟩
        exact ⟨_, _, read, ⟨opt, known, rfl⟩, changed, readsToo⟩
  | other arg => exact Iff.rfl

/-- Items in a row are without an error when each of them fits. -/
theorem applied_errors : (items.foldl apply parser).errors = [] ↔ parser.errors = [] ∧
    ∀ item ∈ items, Legal parser item := by
  induction items generalizing parser with
  | nil => simp
  | cons item items ih =>
    rw [List.foldl_cons, ih, apply_errors, List.forall_mem_cons, and_assoc]
    refine and_congr_right fun _ => and_congr_right fun legal => ?_
    exact forall₂_congr fun more _ => legal_apply legal

/-- What fits at the start fits later. -/
theorem legal_applied (legal : ∀ item ∈ items, Legal parser item) :
    Legal (items.foldl apply parser) more ↔ Legal parser more := by
  induction items generalizing parser with
  | nil => exact Iff.rfl
  | cons item items ih =>
    obtain ⟨here, later⟩ := List.forall_mem_cons.mp legal
    rw [List.foldl_cons, ih fun other member => (legal_apply here).mpr (later other member), legal_apply here]

/-! ### Initials -/

/-- No two options have one letter. -/
def Unambiguous (parser : Parser) : Prop :=
  ∀ letter name other, Initial parser letter name → Initial parser letter other → name = other

/-- A letter stands for the option of an entry. -/
def Marks (letter : UInt8) (entry : StdString × OptionBase) : Prop :=
  entry.1.length ≠ 0 ∧ letter ≠ 0 ∧ entry.2.snam = letter

theorem initial_iff : Initial parser letter name ↔ ∃ entry ∈ parser.options.toList, Marks letter entry ∧ entry.1 = name := by
  constructor
  · rintro ⟨any, some, opt, known, short⟩
    exact ⟨(name, opt), Std.ExtTreeMap.mem_toList_iff_getElem?_eq_some.mpr known, ⟨any, some, short⟩, rfl⟩
  · rintro ⟨⟨_, opt⟩, member, ⟨any, some, short⟩, rfl⟩
    exact ⟨any, some, opt, Std.ExtTreeMap.mem_toList_iff_getElem?_eq_some.mp member, short⟩

/-- What one entry does to the letters. -/
theorem add_initial_cases (lookup : Lookup) (entry : StdString × OptionBase) :
    (Parser.addInitial lookup entry = .ok lookup ∧ ∀ letter, ¬ Marks letter entry) ∨
      (Marks entry.2.snam entry ∧ ((Parser.addInitial lookup entry = .error entry.2.snam ∧ entry.2.snam ∈ lookup) ∨
        (Parser.addInitial lookup entry = .ok (lookup.insert entry.2.snam entry.1) ∧ entry.2.snam ∉ lookup))) := by
  unfold Parser.addInitial
  split
  next empty => exact .inl ⟨rfl, fun letter marks => marks.1 empty⟩
  next any =>
    split
    next none => exact .inl ⟨rfl, fun letter marks => marks.2.1 (marks.2.2.symm.trans none)⟩
    next some =>
      refine .inr ⟨⟨any, some, rfl⟩, ?_⟩
      split
      next held => exact .inl ⟨rfl, held⟩
      next free => exact .inr ⟨rfl, free⟩

/-- The letters of a row of entries. -/
theorem add_initials_ok {entries : List (StdString × OptionBase)} {result : Lookup}
    (done : entries.foldlM Parser.addInitial lookup = .ok result) (letter : UInt8) (name : StdString) :
    result[letter]? = some name ↔ lookup[letter]? = some name ∨ ∃ entry ∈ entries, Marks letter entry ∧ entry.1 = name := by
  induction entries generalizing lookup with
  | nil =>
    cases done
    simp
  | cons entry entries ih =>
    rw [List.foldlM_cons] at done
    obtain ⟨middle, here, done⟩ := bind_ok.mp done
    rw [ih done]
    rcases add_initial_cases lookup entry with ⟨same, silent⟩ | ⟨marks, ⟨clash, _⟩ | ⟨added, free⟩⟩
    · cases here.symm.trans same
      simp [silent]
    · cases here.symm.trans clash
    · cases here.symm.trans added
      simp only [Std.ExtTreeMap.getElem?_insert, Std.LawfulEqCmp.compare_eq_iff_eq, List.exists_mem_cons_iff, ← or_assoc]
      refine or_congr_left ?_
      split
      next same =>
        subst same
        have absent : lookup[entry.2.snam]? = none := Std.ExtTreeMap.getElem?_eq_none free
        simp [absent, marks]
      next other =>
        have silent : ¬ Marks letter entry := fun marks => other marks.2.2
        simp [silent]

theorem add_initials_free {entries : List (StdString × OptionBase)}
    (free : ∀ entry ∈ entries, ∀ letter, Marks letter entry → letter ∉ lookup)
    (apart : entries.Pairwise fun first second => ∀ letter, Marks letter first → ¬ Marks letter second) :
    ∃ result, entries.foldlM Parser.addInitial lookup = .ok result := by
  induction entries generalizing lookup with
  | nil => exact ⟨lookup, rfl⟩
  | cons entry entries ih =>
    obtain ⟨here, later⟩ := List.pairwise_cons.mp apart
    obtain ⟨own, others⟩ := List.forall_mem_cons.mp free
    rw [List.foldlM_cons]
    rcases add_initial_cases lookup entry with ⟨same, _⟩ | ⟨marks, ⟨_, held⟩ | ⟨added, _⟩⟩
    · rw [same]
      exact ih others later
    · exact absurd held (own _ marks)
    · rw [added]
      refine ih (fun other member letter marksToo inside => ?_) later
      rcases Std.ExtTreeMap.mem_insert.mp inside with same | before
      · exact here other member letter (Std.LawfulEqCmp.compare_eq_iff_eq.mp same ▸ marks) marksToo
      · exact others other member letter marksToo before

/-- The letters are looked up as long as none is ambiguous, and stand for their options. -/
theorem lookup_iff : (∃ lookup, parser.lookup = .ok lookup) ↔ Unambiguous parser := by
  constructor
  · rintro ⟨lookup, done⟩ letter name other stands standsToo
    have stored := add_initials_ok done letter
    simp only [← initial_iff] at stored
    have first := (stored name).mpr (.inr stands)
    have second := (stored other).mpr (.inr standsToo)
    exact Option.some.inj (first.symm.trans second)
  · intro plain
    refine add_initials_free (fun _ _ _ _ inside => nomatch Std.ExtTreeMap.not_mem_empty inside) ?_
    refine List.Pairwise.imp_of_mem (fun {first second} member memberToo different letter marks marksToo => ?_)
      Std.ExtTreeMap.distinct_keys_toList
    have same := plain letter first.1 second.1 (initial_iff.mpr ⟨first, member, marks, rfl⟩)
      (initial_iff.mpr ⟨second, memberToo, marksToo, rfl⟩)
    exact different (by rw [same]; exact Std.ReflCmp.compare_self)

theorem lookup_initial (done : parser.lookup = .ok lookup) (letter : UInt8) (name : StdString) :
    lookup[letter]? = some name ↔ Initial parser letter name := by
  rw [add_initials_ok done, initial_iff]
  simp

/-! ### Arguments -/

/-- What the loop makes of an argument, and whether of the one behind it. -/
inductive Takes (base parser : Parser) (arg : CString) (following : Option CString) : Parser × Bool → Prop where
  | alone {items : List Item} (word : Word base arg none items) :
      Takes base parser arg following (items.foldl apply parser, false)
  | both {value : CString} {items : List Item} (behind : following = some value) (word : Word base arg (some value) items) :
    Takes base parser arg following (items.foldl apply parser, true)

theorem noted_is_error (error : Text) : (parser.note error).errors ≠ [] :=
  List.append_ne_nil_of_right_ne_nil _ (List.cons_ne_nil _ _)

theorem two_dashes : arg.char = dash ∧ arg.next.char = dash ↔ arg.bytes = dash :: dash :: arg.next.next.bytes := by
  have some : dash ≠ 0 := by decide
  rw [CString.char_some some, CString.char_some some]
  constructor
  · rintro ⟨first, second⟩
    rw [first, second]
  · intro split
    have rest : arg.next.bytes = dash :: arg.next.next.bytes := congrArg List.tail split
    exact ⟨split.trans (by rw [rest]), rest⟩

/-- The initials of an argument, all but the last. -/
theorem take_initials_sound (look : ∀ letter name, lookup[letter]? = some name → Initial base letter name) {last : UInt8}
    {letters : List UInt8} (clean : (Parser.takeInitials lookup parser last letters).1.errors = []) :
    ∃ front names, last :: letters = front ++ [(Parser.takeInitials lookup parser last letters).2] ∧
      List.Forall₂ (Initial base) front names ∧
      (Parser.takeInitials lookup parser last letters).1 = (names.map Item.flag).foldl apply parser := by
  induction letters generalizing parser last with
  | nil => exact ⟨[], [], rfl, .nil, rfl⟩
  | cons letter letters ih =>
    obtain ⟨front, names, split, stand, rest⟩ := ih clean
    have before := (applied_errors.mp ((congrArg Parser.errors rest).symm.trans clean)).1
    have first : ∃ name, lookup[last]? = some name ∧ parser.takeInitial lookup last = parser.setOption name := by
      unfold Parser.takeInitial at before ⊢
      split at before
      · exact absurd before (noted_is_error _)
      next name found =>
        split at before
        · exact absurd before (noted_is_error _)
        next any => exact ⟨name, found, if_neg any⟩
    obtain ⟨name, found, taken⟩ := first
    refine ⟨last :: front, name :: names, congrArg (List.cons last) split, .cons (look last name found) stand, ?_⟩
    rw [List.map_cons, List.foldl_cons]
    change (Parser.takeInitials lookup (parser.takeInitial lookup last) letter letters).1 = _
    rw [rest, taken]
    rfl

theorem take_initials_complete (look : ∀ letter name, Initial base letter name → lookup[letter]? = some name) {final : UInt8}
    {front : List UInt8} {names : List StdString} (stand : List.Forall₂ (Initial base) front names) :
    ∃ last letters, front ++ [final] = last :: letters ∧
      Parser.takeInitials lookup parser last letters = ((names.map Item.flag).foldl apply parser, final) := by
  induction stand generalizing parser with
  | nil => exact ⟨final, [], rfl, rfl⟩
  | @cons letter name front names stands stand ih =>
    obtain ⟨last, letters, split, taken⟩ := @ih (parser.setOption name)
    refine ⟨letter, last :: letters, by rw [List.cons_append, split], ?_⟩
    have here : parser.takeInitial lookup letter = parser.setOption name := by
      simp only [Parser.takeInitial, look letter name stands, if_neg stands.1]
    rw [Parser.takeInitials, here, taken]
    rfl

/-- Where there is an equals sign, and where there is none. -/
theorem equals_split (start : CString) : equals ∉ (start.passed fun char => char != equals).bytes ∧
    (((start.skip fun char => char != equals).char = 0 ∧ (start.passed fun char => char != equals).bytes = start.bytes) ∨
      ((start.skip fun char => char != equals).char ≠ 0 ∧ start.bytes =
        (start.passed fun char => char != equals).bytes ++
          equals :: (start.skip fun char => char != equals).next.bytes)) := by
  have scanned := CString.scanned (fun char => char != equals) start
  refine ⟨fun inside => by simpa using scanned.all equals inside, ?_⟩
  by_cases found : (start.skip fun char => char != equals).char = 0
  · refine .inl ⟨found, ?_⟩
    have whole := scanned.split
    rw [CString.char_zero.mp found, List.append_nil] at whole
    exact whole.symm
  · have rest := (CString.char_some found).mp rfl
    have sign := scanned.stops _ (by rw [rest]; rfl)
    simp only [bne_eq_false_iff_eq] at sign
    rw [sign] at rest
    exact .inr ⟨found, scanned.split.trans (by rw [rest])⟩

theorem take_long_sound {start : CString} {following : Option CString} (split : arg.bytes = dash :: dash :: start.bytes)
    (clean : (parser.takeLong start following).1.errors = []) :
    Takes base parser arg following (parser.takeLong start following) := by
  obtain ⟨plain, ⟨nothing, whole⟩ | ⟨found, whole⟩⟩ := equals_split start
  · rw [whole] at plain
    simp only [Parser.takeLong, nothing, ne_eq, not_true_eq_false, if_false] at clean ⊢
    cases known : parser.options[start.string]? with
    | none =>
      rw [known] at clean
      exact absurd clean (noted_is_error _)
    | some opt =>
      simp only [known] at clean ⊢
      split
      next valued =>
        rw [if_pos valued] at clean
        cases following with
        | none => exact absurd clean (noted_is_error _)
        | some value => exact .both rfl (.long value split plain)
      next => exact .alone (.longFlag split plain)
  · rw [Parser.takeLong, if_pos found]
    exact .alone (.assigned (split.trans (congrArg (fun bytes => dash :: dash :: bytes) whole)) plain)

theorem take_last_sound (look : ∀ letter name, lookup[letter]? = some name → Initial base letter name) {last : UInt8}
    {following : Option CString} (clean : (parser.takeLast lookup last following).1.errors = []) :
    ∃ name, Initial base last name ∧
      (parser.takeLast lookup last following = (apply parser (.flag name), false) ∨
        ∃ value, following = some value ∧
          parser.takeLast lookup last following = (apply parser (.setting name value.string), true)) := by
  cases found : lookup[last]? with
  | none =>
    simp only [Parser.takeLast, found] at clean
    exact absurd clean (noted_is_error _)
  | some name =>
    have stands := look last name found
    refine ⟨name, stands, ?_⟩
    simp only [Parser.takeLast, found, if_neg stands.1]
    cases following with
    | none => exact .inl rfl
    | some value =>
      simp only
      split
      · exact .inr ⟨value, rfl, rfl⟩
      · exact .inl rfl

theorem take_arg_sound (look : ∀ letter name, lookup[letter]? = some name → Initial base letter name)
    {following : Option CString} (clean : (parser.takeArg lookup arg following).1.errors = []) :
    Takes base parser arg following (parser.takeArg lookup arg following) := by
  unfold Parser.takeArg at clean ⊢
  split
  next long =>
    rw [if_pos long] at clean
    exact take_long_sound (two_dashes.mp long) clean
  next short =>
    rw [if_neg short] at clean
    split
    next single =>
      rw [if_pos single] at clean
      have split := (CString.char_some (by decide)).mp single
      by_cases alone : arg.next.char = 0
      · rw [if_pos alone]
        exact .alone (.nothing (split.trans (by rw [CString.char_zero.mp alone])))
      · rw [if_neg alone] at clean ⊢
        have letters := (CString.char_some alone).mp rfl
        have first : arg.next.bytes.head? ≠ some dash := by
          rw [letters]
          exact fun same => short ⟨single, Option.some.inj same⟩
        obtain ⟨name, stands, last⟩ := take_last_sound look clean
        have before : (Parser.takeInitials lookup parser arg.next.char arg.next.next.bytes).1.errors = [] := by
          rcases last with same | ⟨_, _, same⟩
          · exact (apply_errors.mp ((congrArg (fun taken => taken.1.errors) same).symm.trans clean)).1
          · exact (apply_errors.mp ((congrArg (fun taken => taken.1.errors) same).symm.trans clean)).1
        obtain ⟨front, names, whole, stand, taken⟩ := take_initials_sound look before
        rw [letters.trans whole] at split first
        rcases last with same | ⟨value, behind, same⟩
        · have word : Word base arg none (names.map .flag ++ [.flag name]) := .initials split first stand stands
          change Takes base parser arg following (Parser.takeLast _ lookup _ following)
          rw [same, taken]
          simpa only [List.foldl_append, List.foldl_cons, List.foldl_nil] using Takes.alone word
        · have word : Word base arg (some value) (names.map .flag ++ [.setting name value.string]) :=
            .initialsValue value split first stand stands
          change Takes base parser arg following (Parser.takeLast _ lookup _ following)
          rw [same, taken]
          simpa only [List.foldl_append, List.foldl_cons, List.foldl_nil] using Takes.both behind word
    next plain => exact .alone (.other plain)

theorem take_last_flag (look : ∀ letter name, Initial base letter name → lookup[letter]? = some name) {last : UInt8}
    (stands : Initial base last name) (legal : Legal parser (.flag name)) (following : Option CString) :
    parser.takeLast lookup last following = (apply parser (.flag name), false) := by
  obtain ⟨opt, known, lone⟩ := legal
  have without : ¬ (parser.options[name]?).any OptionBase.hasValue = true := by simp [known, OptionBase.hasValue, lone]
  simp only [Parser.takeLast, look last name stands, if_neg stands.1]
  cases following with
  | none => rfl
  | some value => exact if_neg without

theorem take_last_value (look : ∀ letter name, Initial base letter name → lookup[letter]? = some name) {last : UInt8}
    (stands : Initial base last name) (value : CString) (legal : Legal parser (.setting name value.string)) :
    parser.takeLast lookup last (some value) = (apply parser (.setting name value.string), true) := by
  obtain ⟨opt, held, _, known, valued, _⟩ := legal
  have within : (parser.options[name]?).any OptionBase.hasValue = true := by simp [known, OptionBase.hasValue, valued]
  simp only [Parser.takeLast, look last name stands, if_neg stands.1, if_pos within]
  rfl

theorem take_long_assigned {start : CString} {value : StdString} (split : start.bytes = name.bytes ++ equals :: value.bytes)
    (plain : equals ∉ name.bytes) (following : Option CString) :
    parser.takeLong start following = (apply parser (.setting name value), false) := by
  have scanned : Scans (fun char => char != equals) start.bytes name.bytes (equals :: value.bytes) := by
    refine ⟨split, fun char inside => ?_, fun char first => by cases first; simp⟩
    simp only [bne_iff_ne]
    rintro rfl
    exact plain inside
  have front : (start.passed fun char => char != equals) = name := StdString.ext scanned.take_while
  have back : (start.skip fun char => char != equals).bytes = equals :: value.bytes := scanned.drop_while
  have found : (start.skip fun char => char != equals).char ≠ 0 := by
    rw [CString.char, back]
    exact show equals ≠ 0 by decide
  have behind : (start.skip fun char => char != equals).next.string = value := StdString.ext (congrArg List.tail back)
  rw [Parser.takeLong, if_pos found, front, behind]
  rfl

/-- Without an equals sign. -/
theorem take_long_name {start : CString} (split : start.bytes = name.bytes) (plain : equals ∉ name.bytes) :
    (start.skip fun char => char != equals).char = 0 ∧ start.string = name := by
  refine ⟨CString.char_zero.mpr ?_, StdString.ext split⟩
  refine List.dropWhile_eq_nil_iff.mpr fun char inside => ?_
  simp only [bne_iff_ne]
  rintro rfl
  exact plain (split ▸ inside)

theorem take_long_value {start : CString} (value : CString) (split : start.bytes = name.bytes) (plain : equals ∉ name.bytes)
    (legal : Legal parser (.setting name value.string)) :
    parser.takeLong start (some value) = (apply parser (.setting name value.string), true) := by
  obtain ⟨nothing, own⟩ := take_long_name split plain
  obtain ⟨opt, held, _, known, valued, _⟩ := legal
  have within : opt.hasValue = true := by rw [OptionBase.hasValue, valued]; rfl
  simp only [Parser.takeLong, nothing, ne_eq, not_true_eq_false, if_false, own, known, within, if_true]
  rfl

theorem take_long_flag {start : CString} (split : start.bytes = name.bytes) (plain : equals ∉ name.bytes)
    (legal : Legal parser (.flag name)) (following : Option CString) :
    parser.takeLong start following = (apply parser (.flag name), false) := by
  obtain ⟨nothing, own⟩ := take_long_name split plain
  obtain ⟨opt, known, lone⟩ := legal
  have without : ¬ opt.hasValue = true := by rw [OptionBase.hasValue, lone]; exact Bool.false_ne_true
  simp only [Parser.takeLong, nothing, ne_eq, not_true_eq_false, if_false, own, known, without, Bool.false_eq_true]
  rfl

/-- A row of initials, and the last of them. -/
theorem take_arg_initials (look : ∀ letter name, Initial base letter name → lookup[letter]? = some name)
    {front : List UInt8} {names : List StdString} {last : UInt8} (split : arg.bytes = dash :: (front ++ [last]))
    (single : (front ++ [last]).head? ≠ some dash) (stand : List.Forall₂ (Initial base) front names)
    (following : Option CString) :
    parser.takeArg lookup arg following = ((names.map Item.flag).foldl apply parser).takeLast lookup last following := by
  obtain ⟨first, letters, whole, taken⟩ := @take_initials_complete parser base lookup look last front names stand
  rw [whole] at split single
  have here : arg.char = dash := by rw [CString.char, split]; rfl
  have next : arg.next.char = first := by rw [CString.char, CString.next]; simp only [split]; rfl
  have rest : arg.next.next.bytes = letters := by simp only [CString.next, split, List.tail_cons]
  have short : ¬ (arg.char = dash ∧ arg.next.char = dash) := fun both => single (congrArg some (next.symm.trans both.2))
  have any : arg.next.char ≠ 0 := by
    rw [next]
    rintro rfl
    exact arg.noNul (by rw [split]; simp)
  rw [Parser.takeArg, if_neg short, if_pos here, if_neg any, next, rest, taken]

theorem take_arg_long {rest : List UInt8} (split : arg.bytes = dash :: dash :: rest) (following : Option CString) :
    parser.takeArg lookup arg following = parser.takeLong arg.next.next following ∧ arg.next.next.bytes = rest := by
  have behind : arg.next.next.bytes = rest := by simp only [CString.next, split, List.tail_cons]
  have both : arg.char = dash ∧ arg.next.char = dash := two_dashes.mpr (by rw [behind]; exact split)
  exact ⟨if_pos both, behind⟩

/-- What an argument says is what the loop makes of it, if it fits. -/
theorem take_arg_complete (look : ∀ letter name, Initial base letter name → lookup[letter]? = some name)
    {value following : Option CString} (word : Word base arg value items)
    (behind : ∀ text, value = some text → following = some text)
    (legal : ∀ item ∈ items, Legal parser item) :
    parser.takeArg lookup arg following = (items.foldl apply parser, value.isSome) := by
  cases word with
  | assigned split plain =>
    obtain ⟨long, rest⟩ := @take_arg_long parser lookup arg _ split following
    exact long.trans (take_long_assigned rest plain following)
  | long value split plain =>
    obtain ⟨long, rest⟩ := @take_arg_long parser lookup arg _ split following
    rw [long, behind value rfl]
    exact take_long_value value rest plain (legal _ List.mem_cons_self)
  | longFlag split plain =>
    obtain ⟨long, rest⟩ := @take_arg_long parser lookup arg _ split following
    exact long.trans (take_long_flag rest plain (legal _ List.mem_cons_self) following)
  | nothing alone =>
    have here : arg.char = dash := by rw [CString.char, alone]; rfl
    have none : arg.next.char = 0 := CString.char_zero.mpr (congrArg List.tail alone)
    have short : ¬ (arg.char = dash ∧ arg.next.char = dash) := fun both => absurd (none.symm.trans both.2) (by decide)
    rw [Parser.takeArg, if_neg short, if_pos here, if_pos none]
    rfl
  | initials split single stand stands =>
    obtain ⟨before, last⟩ := List.forall_mem_append.mp legal
    rw [take_arg_initials look split single stand following, List.foldl_append, List.foldl_cons, List.foldl_nil]
    exact take_last_flag look stands ((legal_applied before).mpr (last _ List.mem_cons_self)) following
  | initialsValue value split single stand stands =>
    obtain ⟨before, last⟩ := List.forall_mem_append.mp legal
    rw [take_arg_initials look split single stand following, behind value rfl, List.foldl_append, List.foldl_cons,
      List.foldl_nil]
    exact take_last_value look stands value ((legal_applied before).mpr (last _ List.mem_cons_self))
  | other plain =>
    have short : ¬ (arg.char = dash ∧ arg.next.char = dash) := fun both => plain both.1
    rw [Parser.takeArg, if_neg short, if_neg plain]
    rfl

/-! ### Command lines -/

/-- What the loop makes of a command line without an error is what the command line says. -/
theorem take_args_sound (look : ∀ letter name, lookup[letter]? = some name → Initial base letter name)
    (clean : (Parser.takeArgs lookup parser args).errors = []) :
    ∃ items, Spells base args items ∧ Parser.takeArgs lookup parser args = items.foldl apply parser := by
  fun_induction Parser.takeArgs lookup parser args with
  | case1 parser => exact ⟨[], .nil, rfl⟩
  | case2 parser arg =>
    have taken := take_arg_sound look clean
    cases same : parser.takeArg lookup arg none with
    | mk next used =>
      rw [same] at taken
      cases taken with
      | alone word => exact ⟨_, by simpa using Spells.one word .nil, rfl⟩
      | both behind => contradiction
  | case3 parser arg value rest next same ih =>
    obtain ⟨more, others, done⟩ := ih clean
    have before := (applied_errors.mp ((congrArg Parser.errors done).symm.trans clean)).1
    have taken := take_arg_sound look (by rw [same]; exact before)
    rw [same] at taken
    cases taken with
    | both behind word =>
      cases behind
      exact ⟨_, .two word others, by rw [done, List.foldl_append]⟩
  | case4 parser arg value rest next same ih =>
    obtain ⟨more, others, done⟩ := ih clean
    have before := (applied_errors.mp ((congrArg Parser.errors done).symm.trans clean)).1
    have taken := take_arg_sound look (by rw [same]; exact before)
    rw [same] at taken
    cases taken with
    | alone word => exact ⟨_, .one word others, by rw [done, List.foldl_append]⟩

theorem take_args_complete (look : ∀ letter name, Initial base letter name → lookup[letter]? = some name)
    (spelled : Spells base args items) (legal : ∀ item ∈ items, Legal parser item) :
    Parser.takeArgs lookup parser args = items.foldl apply parser := by
  induction spelled generalizing parser with
  | nil => rfl
  | @one arg rest items more word others ih =>
    obtain ⟨here, later⟩ := List.forall_mem_append.mp legal
    have next := @ih (items.foldl apply parser) fun item member => (legal_applied here).mpr (later item member)
    have taken := fun following =>
      @take_arg_complete parser base lookup items arg look none following word (fun _ none => nomatch none) here
    rw [List.foldl_append, ← next]
    cases rest with
    | nil => exact congrArg Prod.fst (taken none)
    | cons value rest =>
      rw [Parser.takeArgs.eq_3, taken]
      rfl
  | @two arg value rest items more word others ih =>
    obtain ⟨here, later⟩ := List.forall_mem_append.mp legal
    have next := @ih (items.foldl apply parser) fun item member => (legal_applied here).mpr (later item member)
    have taken := @take_arg_complete parser base lookup items arg look (some value) (some value) word
      (fun _ same => same) here
    rw [List.foldl_append, ← next, Parser.takeArgs.eq_3, taken]
    rfl

/-! ### What the options have in the end -/

def about (name : StdString) : Item → Bool
  | .flag other => other = name
  | .setting other _ => other = name
  | .other _ => false

def given (name : StdString) (items : List Item) : Bool := items.any (about name)

def textFor (name : StdString) : Item → Option StdString
  | .flag _ => none
  | .setting other value => if other = name then some value else none
  | .other _ => none

/-- The text that is given last. -/
def lastText (name : StdString) (items : List Item) : Option StdString := (items.filterMap (textFor name)).getLast?

def otherOf : Item → Option StdString
  | .flag _ => none
  | .setting _ _ => none
  | .other arg => some arg

def after (name : StdString) (items : List Item) (opt : OptionBase) : OptionBase :=
  { opt with
    has := opt.has || given name items
    value := opt.value.map fun held => match lastText name items with
      | none => held
      | some value => taken held value }

theorem given_snoc (name : StdString) (items : List Item) (item : Item) :
    given name (items ++ [item]) = (given name items || about name item) := by
  rw [given, List.any_append, List.any_cons, List.any_nil, Bool.or_false]
  rfl

theorem last_text_snoc (name : StdString) (items : List Item) (item : Item) :
    lastText name (items ++ [item]) = (textFor name item).or (lastText name items) := by
  rw [lastText, List.filterMap_append]
  cases found : textFor name item with
  | none => rw [List.filterMap_cons_none found, List.filterMap_nil, List.append_nil]; rfl
  | some value => rw [List.filterMap_cons_some found, List.filterMap_nil, List.getLast?_concat]; rfl

/-- Of two texts that can be read the later one stays. -/
theorem taken_twice {held : OptionValue} {value : StdString} {actual : held.type.Carrier} (before : Option StdString)
    (reads : held.read value = some actual) :
    taken (match before with | none => held | some text => taken held text) value = taken held value := by
  cases before with
  | none => rfl
  | some text =>
    simp only [taken]
    cases held.read text <;> simp only [reads]

theorem after_snoc {opt : OptionBase} (known : parser.options[name]? = some opt) (legal : Legal parser item) :
    optionTaking name (after name items opt) item = after name (items ++ [item]) opt := by
  cases item with
  | flag other =>
    by_cases same : other = name
    · simp [optionTaking, after, given_snoc, last_text_snoc, about, textFor, same]
    · simp [optionTaking, after, given_snoc, last_text_snoc, about, textFor, same]
  | setting other value =>
    by_cases same : other = name
    · subst same
      obtain ⟨_, held, actual, knownToo, valued, reads⟩ := legal
      cases known.symm.trans knownToo
      simp only [optionTaking, after, given_snoc, last_text_snoc, about, textFor, valued, if_true, decide_true, Bool.or_true,
        Option.map_some, taken_twice _ reads, Option.some_or]
    · simp [optionTaking, after, given_snoc, last_text_snoc, about, textFor, same]
  | other arg => simp [optionTaking, after, given_snoc, last_text_snoc, about, textFor]

/-- The last text stays, and whatever is given once is set. -/
theorem applied_lookup (legal : ∀ item ∈ items, Legal parser item) (name : StdString) :
    (items.foldl apply parser).options[name]? = (parser.options[name]?).map (after name items) := by
  induction items using List.reverseRecOn with
  | nil =>
    have same : ∀ opt, after name [] opt = opt := fun opt => by
      obtain ⟨nam, snam, desc, has, value⟩ := opt
      simp [after, given, lastText]
    rw [List.foldl_nil, funext same]
    exact Option.map_id'.symm
  | append_singleton items item ih =>
    obtain ⟨before, last⟩ := List.forall_mem_append.mp legal
    have fits := last item List.mem_cons_self
    rw [List.foldl_append, List.foldl_cons, List.foldl_nil, apply_lookup ((legal_applied before).mpr fits), ih before]
    cases known : parser.options[name]? with
    | none => rfl
    | some opt => exact congrArg some (after_snoc known fits)

theorem applied_others : (items.foldl apply parser).others = parser.others ++ items.filterMap otherOf := by
  have one : ∀ (parser : Parser) (item : Item), (apply parser item).others = parser.others ++ (otherOf item).toList := by
    intro parser item
    cases item with
    | flag name =>
      simp only [apply, Parser.setOption]
      split
      · simp [Parser.note, otherOf]
      · split <;> simp [Parser.note, otherOf]
    | setting name value =>
      simp only [apply, Parser.setOptionTo]
      split
      · simp [Parser.note, otherOf]
      · split <;> simp [Parser.note, otherOf]
    | other arg => rfl
  induction items generalizing parser with
  | nil => simp
  | cons item items ih =>
    rw [List.foldl_cons, ih, one, List.filterMap_cons, List.append_assoc]
    cases otherOf item <;> rfl

theorem needed_iff : parser.needed = [] ↔ ∀ (name : StdString) (opt : OptionBase), parser.options[name]? = some opt →
    opt.valid = true := by
  simp only [Parser.needed, List.map_eq_nil_iff, List.filter_eq_nil_iff, Prod.forall,
    Std.ExtTreeMap.mem_toList_iff_getElem?_eq_some,
    Bool.not_eq_true', Bool.not_eq_false]

/-! ### `parse` -/

/-- Items that make a command line of these arguments. -/
structure Fits (parser : Parser) (args : List CString) (items : List Item) : Prop where
  spelled : Spells parser args items
  legal : ∀ item ∈ items, Legal parser item

/-- No option is left out that is needed. -/
def Complete (parser : Parser) (items : List Item) : Prop :=
  ∀ (name : StdString) (opt : OptionBase), parser.options[name]? = some opt → opt.must = true →
    opt.has = true ∨ given name items = true

theorem after_valid (name : StdString) (items : List Item) (opt : OptionBase) :
    (after name items opt).valid = true ↔ (opt.must = true → opt.has = true ∨ given name items = true) := by
  have need : ∀ held value, (taken held value).need = held.need := by
    intro held value
    unfold taken
    split <;> rfl
  have must : (after name items opt).must = opt.must := by
    simp only [OptionBase.must, after]
    cases opt.value with
    | none => rfl
    | some held =>
      cases lastText name items with
      | none => rfl
      | some value => exact need held value
  rw [OptionBase.valid, must, after]
  cases opt.must <;> cases opt.has <;> simp

theorem complete_iff (legal : ∀ item ∈ items, Legal parser item) :
    (items.foldl apply parser).needed = [] ↔ Complete parser items := by
  simp only [needed_iff, applied_lookup legal, Option.map_eq_some_iff, Complete]
  constructor
  · intro valid name opt known
    exact (after_valid name items opt).mp (valid name _ ⟨opt, known, rfl⟩)
  · rintro complete name _ ⟨opt, known, rfl⟩
    exact (after_valid name items opt).mpr (complete name opt known)

/-- Without an error. -/
theorem parse_complete (prog : CString) (plain : Unambiguous parser) (fits : Fits parser args items) :
    parser.parse (prog :: args) = (items.foldl apply (parser.started prog)).finished := by
  obtain ⟨lookup, found⟩ := lookup_iff.mpr plain
  have look := fun letter name => (lookup_initial found letter name).mpr
  have legal : ∀ item ∈ items, Legal (parser.started prog) item := fits.legal
  have foundToo : (parser.started prog).lookup = .ok lookup := found
  rw [Parser.parse, foundToo]
  exact congrArg Parser.finished (take_args_complete look fits.spelled legal)

theorem parse_sound (prog : CString) (accepted : (parser.parse (prog :: args)).1 = true) :
    Unambiguous parser ∧ ∃ items, Fits parser args items ∧ Complete parser items := by
  rw [Parser.parse] at accepted
  cases found : (parser.started prog).lookup with
  | error initial =>
    rw [found] at accepted
    contradiction
  | ok lookup =>
    simp only [found, Parser.finished, List.isEmpty_iff, List.append_eq_nil_iff] at accepted
    have foundToo : parser.lookup = .ok lookup := found
    obtain ⟨items, spelled, taken⟩ :=
      take_args_sound (fun letter name => (lookup_initial foundToo letter name).mp) accepted.1
    have legal := (applied_errors.mp (taken ▸ accepted.1)).2
    exact ⟨lookup_iff.mp ⟨lookup, foundToo⟩, items, ⟨spelled, legal⟩, (complete_iff legal).mp (taken ▸ accepted.2)⟩

theorem finished_accepts (clean : parser.errors = []) : parser.finished.1 = true ↔ parser.needed = [] := by
  rw [Parser.finished, clean]
  exact List.isEmpty_iff

theorem parse_accepts (prog : CString) (plain : Unambiguous parser) (fits : Fits parser args items) :
    (parser.parse (prog :: args)).1 = true ↔ Complete parser items := by
  have legal : ∀ item ∈ items, Legal (parser.started prog) item := fits.legal
  have clean := (@applied_errors (parser.started prog) items).mpr ⟨rfl, legal⟩
  rw [parse_complete prog plain fits, finished_accepts clean]
  exact complete_iff legal

/-! ### What no command line changes -/

/-- What is said of an option when it is added. -/
def fixed (opt : OptionBase) : StdString × UInt8 × Text × Option (ValueType × Bool) :=
  (opt.nam, opt.snam, opt.desc, opt.value.map fun held => (held.type, held.need))

/-- There are the same options, and the same is printed about them. -/
structure Stays (parser next : Parser) : Prop where
  options : ∀ name : StdString, (next.options[name]?).map fixed = (parser.options[name]?).map fixed
  ordered : next.ordered = parser.ordered
  ftr : next.ftr = parser.ftr
  progName : next.progName = parser.progName
  mDesc : next.mDesc = parser.mDesc

theorem stays_refl (parser : Parser) : Stays parser parser := ⟨fun _ => rfl, rfl, rfl, rfl, rfl⟩

theorem stays_trans {middle : Parser} (first : Stays parser middle) (second : Stays middle next) : Stays parser next :=
  ⟨fun name => (second.options name).trans (first.options name), second.ordered.trans first.ordered,
    second.ftr.trans first.ftr,
    second.progName.trans first.progName, second.mDesc.trans first.mDesc⟩

theorem stays_note (error : Text) : Stays parser (parser.note error) := ⟨fun _ => rfl, rfl, rfl, rfl, rfl⟩

theorem stays_insert {opt changed : OptionBase} (known : parser.options[name]? = some opt)
    (same : fixed changed = fixed opt) :
    Stays parser { parser with options := parser.options.insert name changed } := by
  refine ⟨fun other => ?_, rfl, rfl, rfl, rfl⟩
  simp only [Std.ExtTreeMap.getElem?_insert, Std.LawfulEqCmp.compare_eq_iff_eq]
  split
  next own =>
    rw [← own, known, Option.map_some, Option.map_some, same]
  next => rfl

theorem stays_set_option (name : StdString) : Stays parser (parser.setOption name) := by
  unfold Parser.setOption
  split
  · exact stays_note _
  next opt known =>
    split
    · exact stays_note _
    next changed set =>
      refine stays_insert known ?_
      unfold OptionBase.set at set
      split at set
      next lone =>
        cases set
        rfl
      next => contradiction

theorem stays_set_option_to (name value : StdString) : Stays parser (parser.setOptionTo name value) := by
  unfold Parser.setOptionTo
  split
  · exact stays_note _
  next opt known =>
    split
    · exact stays_note _
    next changed set =>
      refine stays_insert known ?_
      unfold OptionBase.setTo at set
      split at set
      next => contradiction
      next held valued =>
        obtain ⟨actual, _, rfl⟩ := Option.map_eq_some_iff.mp set
        simp only [fixed, valued, Option.map_some]

theorem stays_take_initial (lookup : Lookup) (initial : UInt8) : Stays parser (parser.takeInitial lookup initial) := by
  unfold Parser.takeInitial
  split
  · exact stays_note _
  · split
    · exact stays_note _
    · exact stays_set_option _

theorem stays_take_initials (lookup : Lookup) (last : UInt8) (letters : List UInt8) :
    Stays parser (Parser.takeInitials lookup parser last letters).1 := by
  induction letters generalizing parser last with
  | nil => exact stays_refl parser
  | cons letter letters ih => exact stays_trans (stays_take_initial lookup last) (ih letter)

theorem stays_take_long (start : CString) (following : Option CString) :
    Stays parser (parser.takeLong start following).1 := by
  simp only [Parser.takeLong]
  split
  · exact stays_set_option_to _ _
  · split
    · exact stays_note _
    · split
      · split
        · exact stays_note _
        · exact stays_set_option_to _ _
      · exact stays_set_option _

theorem stays_take_last (lookup : Lookup) (last : UInt8) (following : Option CString) :
    Stays parser (parser.takeLast lookup last following).1 := by
  unfold Parser.takeLast
  split
  · exact stays_note _
  · split
    · exact stays_note _
    · split
      · exact stays_set_option _
      · split
        · exact stays_set_option_to _ _
        · exact stays_set_option _

theorem stays_take_arg (lookup : Lookup) (arg : CString) (following : Option CString) :
    Stays parser (parser.takeArg lookup arg following).1 := by
  unfold Parser.takeArg
  split
  · exact stays_take_long _ _
  · split
    · split
      · exact stays_refl parser
      · exact stays_trans (stays_take_initials lookup _ _) (stays_take_last lookup _ _)
    · exact ⟨fun _ => rfl, rfl, rfl, rfl, rfl⟩

theorem stays_take_args (lookup : Lookup) (args : List CString) : Stays parser (Parser.takeArgs lookup parser args) := by
  fun_induction Parser.takeArgs lookup parser args with
  | case1 parser => exact stays_refl parser
  | case2 parser arg => exact stays_take_arg lookup arg none
  | case3 parser arg value rest next same ih =>
    have here := @stays_take_arg parser lookup arg (some value)
    rw [same] at here
    exact stays_trans here ih
  | case4 parser arg value rest next same ih =>
    have here := @stays_take_arg parser lookup arg (some value)
    rw [same] at here
    exact stays_trans here ih

theorem stays_parse (prog : CString) (args : List CString) :
    Stays (parser.started prog) (parser.parse (prog :: args)).2 := by
  rw [Parser.parse]
  split
  · exact stays_note _
  next lookup _ =>
    have taken := @stays_take_args (parser.started prog) lookup args
    exact ⟨taken.options, taken.ordered, taken.ftr, taken.progName, taken.mDesc⟩

/-- What depends on nothing else is the same for each of the options. -/
theorem same_of_fixed {β : Type} {first second : List OptionBase} (same : first.map fixed = second.map fixed)
    {part : OptionBase → β}
    (factor : StdString × UInt8 × Text × Option (ValueType × Bool) → β) (factors : ∀ opt, part opt = factor (fixed opt)) :
    first.map part = second.map part := by
  have whole : part = factor ∘ fixed := funext factors
  rw [whole, ← List.map_map, ← List.map_map, same]

theorem filter_fixed {first second : List OptionBase} (same : first.map fixed = second.map fixed) :
    (first.filter OptionBase.must).map fixed = (second.filter OptionBase.must).map fixed := by
  have must : OptionBase.must = (fun known => known.2.2.2.any Prod.snd) ∘ fixed := by
    funext opt
    obtain ⟨nam, snam, desc, has, _ | held⟩ := opt
    · rfl
    · rfl
  rw [must, ← List.filter_map, ← List.filter_map, same]

/-- The same usage is printed behind every command line. -/
theorem stays_usage (stays : Stays parser next) : next.usage = parser.usage := by
  have same : (next.ordered.filterMap fun name => next.options[name]?).map fixed =
      (parser.ordered.filterMap fun name => parser.options[name]?).map fixed := by
    rw [List.map_filterMap, List.map_filterMap, stays.ordered]
    exact congrArg (fun look => parser.ordered.filterMap look) (funext stays.options)
  have widths := @same_of_fixed _ _ _ same (fun opt => opt.nam.length) (fun known => known.1.length) fun _ => rfl
  have lines := fun maxWidth => @same_of_fixed _ _ _ same (Parser.optionLine maxWidth)
    (fun known => Parser.optionLine maxWidth ⟨known.1, known.2.1, known.2.2.1, false, none⟩) fun _ => rfl
  have short := @same_of_fixed _ _ _ (filter_fixed same) (fun opt => opt.shortDescription ++ text " ")
    (fun known => text "--" ++ known.1.bytes ++ (known.2.2.2.elim [] fun held => text "=" ++ readableTypename held.1) ++
      text " ") (by
      rintro ⟨nam, snam, desc, has, _ | held⟩
      · rfl
      · rfl)
  simp only [Parser.usage, List.flatMap_def, stays.ftr, stays.progName, stays.mDesc]
  rw [widths, lines, short]

/-! ### What the program gets -/

theorem exist_after {opt : OptionBase}
    (look : ∀ name : StdString, next.options[name]? = (parser.options[name]?).map (after name items))
    (known : parser.options[name]? = some opt) : next.exist name = .ok (opt.has || given name items) := by
  rw [Parser.exist, look, known]
  rfl

/-- The last text, as it is read, or what was there before. -/
theorem get_after {type : ValueType} {need : Bool} {initial : type.Carrier} {read : StdString → Option type.Carrier}
    {opt : OptionBase}
    (look : ∀ name : StdString, next.options[name]? = (parser.options[name]?).map (after name items))
    (known : parser.options[name]? = some opt) (valued : opt.value = some ⟨type, need, initial, read⟩) :
    next.get type name = .ok (((lastText name items).bind read).getD initial) := by
  have taking : ∀ text, taken ⟨type, need, initial, read⟩ text = ⟨type, need, (read text).getD initial, read⟩ := by
    intro text
    cases reads : read text <;> simp [taken, reads]
  have value : (after name items opt).value = some ⟨type, need, ((lastText name items).bind read).getD initial, read⟩ := by
    rw [after, valued]
    cases lastText name items with
    | none => rfl
    | some text => exact congrArg some (taking text)
  rw [Parser.get, look, known, Option.map_some]
  simp only [value]
  rfl

theorem given_of_last {value : StdString} (last : lastText name items = some value) :
    given name items = true ∧ .setting name value ∈ items := by
  obtain ⟨item, inside, found⟩ := List.mem_filterMap.mp (List.mem_of_getLast? last)
  cases item with
  | flag other => contradiction
  | other arg => contradiction
  | setting other text =>
    simp only [textFor] at found
    split at found
    next same =>
      cases found
      subst same
      exact ⟨List.any_eq_true.mpr ⟨_, inside, by simp [about]⟩, inside⟩
    next => contradiction

/-- An option with a value is given with a text. -/
theorem last_of_given {opt : OptionBase} {held : OptionValue} (legal : ∀ item ∈ items, Legal parser item)
    (known : parser.options[name]? = some opt) (valued : opt.value = some held) (isGiven : given name items = true) :
    ∃ value, lastText name items = some value := by
  obtain ⟨item, inside, about⟩ := List.any_eq_true.mp isGiven
  have some : items.filterMap (textFor name) ≠ [] := by
    cases item with
    | flag other =>
      obtain ⟨_, knownToo, lone⟩ := legal _ inside
      rw [of_decide_eq_true about] at knownToo
      cases known.symm.trans knownToo
      cases valued.symm.trans lone
    | other arg => contradiction
    | setting other text =>
      have found : textFor name (.setting other text) = Option.some text := if_pos (of_decide_eq_true about)
      exact List.ne_nil_of_mem (List.mem_filterMap.mpr ⟨_, inside, found⟩)
  exact ⟨_, List.getLast?_eq_some_getLast some⟩

/-- An option without a value is given as a flag. -/
theorem given_flag {opt : OptionBase} (legal : ∀ item ∈ items, Legal parser item) (known : parser.options[name]? = some opt)
    (lone : opt.value = none) : given name items = true ↔ .flag name ∈ items := by
  constructor
  · intro isGiven
    obtain ⟨item, inside, about⟩ := List.any_eq_true.mp isGiven
    cases item with
    | flag other =>
      rw [of_decide_eq_true about] at inside
      exact inside
    | other arg => contradiction
    | setting other text =>
      obtain ⟨_, _, _, knownToo, valued, _⟩ := legal _ inside
      rw [of_decide_eq_true about] at knownToo
      cases known.symm.trans knownToo
      cases lone.symm.trans valued
  · exact fun inside => List.any_eq_true.mpr ⟨_, inside, by simp [about]⟩

/-- The text that is given last can be read. -/
theorem read_last {opt : OptionBase} {held : OptionValue} {value : StdString} (legal : ∀ item ∈ items, Legal parser item)
    (known : parser.options[name]? = some opt) (valued : opt.value = some held) (last : lastText name items = some value) :
    ∃ actual, held.read value = some actual := by
  obtain ⟨_, _, actual, knownToo, valuedToo, reads⟩ := legal _ (given_of_last last).2
  cases known.symm.trans knownToo
  cases valued.symm.trans valuedToo
  exact ⟨actual, reads⟩

/-- `parse` accepts a command line exactly when no letter is ambiguous, the arguments
are spelled in words that fit the options, and no needed option is left out. What is
spelled so, in whichever words and in whichever order, sets the options that are
given, and each of them has the last text given to it. -/
theorem command_lines_are_read (parser : Parser) (prog : CString) (args : List CString) :
    ((parser.parse (prog :: args)).1 = true ↔ Unambiguous parser ∧ ∃ items, Fits parser args items ∧ Complete parser items) ∧
      ∀ items, Unambiguous parser → Fits parser args items →
        (∀ name : StdString, (parser.parse (prog :: args)).2.options[name]? =
          (parser.options[name]?).map (after name items)) ∧
          (parser.parse (prog :: args)).2.others = items.filterMap otherOf := by
  refine ⟨⟨parse_sound prog, ?_⟩, fun items plain fits => ?_⟩
  · rintro ⟨plain, items, fits, complete⟩
    exact (parse_accepts prog plain fits).mpr complete
  · rw [parse_complete prog plain fits]
    exact ⟨@applied_lookup (parser.started prog) items fits.legal, @applied_others (parser.started prog) items⟩

end ChatRoom.CmdLineReading
