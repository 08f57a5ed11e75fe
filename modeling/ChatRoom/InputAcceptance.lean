import ChatRoom.InputParser

/-! Which lines `InputParser` accepts. The shape of a line is said by splitting it,
without a pointer; each parse function is shown to accept just its shape. -/
namespace ChatRoom.InputParser
open Lib Wire

variable (input : CString) (cmd : Cmd)

/-! ### What lines look like -/

def Blanks (bytes : List UInt8) : Prop := ∀ char ∈ bytes, char = byte ' '

def HasWord (bytes : List UInt8) : Prop := ∃ char ∈ bytes, char ≠ byte ' '

def Word (bytes : List UInt8) : Prop := bytes ≠ [] ∧ ∀ char ∈ bytes, char ≠ byte ' '

/-- The length of a room's name and of its password. -/
def Sized (word : StdString) : Prop := 4 ≤ word.length ∧ word.length ≤ 20

instance (bytes : List UInt8) : Decidable (Blanks bytes) := inferInstanceAs (Decidable (∀ char ∈ bytes, _))
instance (bytes : List UInt8) : Decidable (Word bytes) := inferInstanceAs (Decidable (_ ∧ ∀ char ∈ bytes, _))
instance (word : StdString) : Decidable (Sized word) := inferInstanceAs (Decidable (_ ∧ _))

/-- Blanks, a name, at least one blank, a password, and then the end or a blank
with anything behind it. -/
def TwoWords (rest : List UInt8) (name passwd : StdString) : Prop :=
  ∃ front gap tail, rest = front ++ (name.bytes ++ (gap ++ (passwd.bytes ++ tail))) ∧ Blanks front ∧
    Word name.bytes ∧ Blanks gap ∧ gap ≠ [] ∧ Word passwd.bytes ∧ ∀ char ∈ tail.head?, char = byte ' '

/-- Blanks, a word, the blanks behind it, and everything up to the end. -/
def WordAndRest (rest : List UInt8) (target words : StdString) : Prop :=
  ∃ front gap, rest = front ++ (target.bytes ++ (gap ++ words.bytes)) ∧ Blanks front ∧ Word target.bytes ∧
    Blanks gap ∧ (gap = [] → words.bytes = []) ∧ ∀ char ∈ words.bytes.head?, char ≠ byte ' '

/-- The line is blanks, a `/`, a letter, and the rest. -/
def Commands (line : CString) (letter : Char) (rest : CString) : Prop :=
  ∃ front, line.bytes = front ++ byte '/' :: byte letter :: rest.bytes ∧ Blanks front

/-! ### What the scanners find -/

def firstWord : StdString := (input.skip isSpace).passed inWord

def behindFirst : CString := (input.skip isSpace).skip inWord

def secondWord : StdString := ((behindFirst input).skip isSpace).passed inWord

def behindBlanks : StdString := ((behindFirst input).skip isSpace).string

variable {input cmd} {name passwd target words : StdString}

private theorem space_scan {bytes front rest : List UInt8} : Scans isSpace bytes front rest ↔
    bytes = front ++ rest ∧ Blanks front ∧ ∀ char ∈ rest.head?, char ≠ byte ' ' := by
  constructor
  · intro scanned
    exact ⟨scanned.split, fun char member => by simpa [isSpace] using scanned.all char member,
      fun char first => by simpa [isSpace] using scanned.stops char first⟩
  · rintro ⟨split, all, stops⟩
    exact ⟨split, fun char member => by simpa [isSpace] using all char member,
      fun char first => by simpa [isSpace] using stops char first⟩

private theorem word_scan {bytes front rest : List UInt8} : Scans inWord bytes front rest ↔
    bytes = front ++ rest ∧ (∀ char ∈ front, char ≠ byte ' ') ∧ ∀ char ∈ rest.head?, char = byte ' ' := by
  constructor
  · intro scanned
    exact ⟨scanned.split, fun char member => by simpa [inWord] using scanned.all char member,
      fun char first => by simpa [inWord] using scanned.stops char first⟩
  · rintro ⟨split, all, stops⟩
    exact ⟨split, fun char member => by simpa [inWord] using all char member,
      fun char first => by simpa [inWord] using stops char first⟩

/-- The four scans of a line with two words. -/
private theorem first_scan (input : CString) : ∃ front, Scans isSpace input.bytes front (input.skip isSpace).bytes ∧
    Scans inWord (input.skip isSpace).bytes (firstWord input).bytes (behindFirst input).bytes :=
  ⟨_, input.scanned isSpace, (input.skip isSpace).scanned inWord⟩

private theorem second_scan (input : CString) : ∃ gap tail,
    Scans isSpace (behindFirst input).bytes gap (behindBlanks input).bytes ∧
    Scans inWord (behindBlanks input).bytes (secondWord input).bytes tail :=
  ⟨_, _, (behindFirst input).scanned isSpace, ((behindFirst input).skip isSpace).scanned inWord⟩

private theorem head_of_word {front rest : List UInt8} (word : Word front) :
    ∀ char ∈ (front ++ rest).head?, char ≠ byte ' ' := by
  obtain ⟨some, all⟩ := word
  intro char first
  cases front with
  | nil => exact absurd rfl some
  | cons head front =>
    cases first
    exact all char (List.mem_cons_self ..)

private theorem head_of_blanks {front rest : List UInt8} (blanks : Blanks front) (some : front ≠ []) :
    ∀ char ∈ (front ++ rest).head?, char = byte ' ' := by
  intro char first
  cases front with
  | nil => exact absurd rfl some
  | cons head front =>
    cases first
    exact blanks char (List.mem_cons_self ..)

/-- Behind a word there is a blank, unless there is nothing. -/
private theorem gap_of_rest {gap rest : List UInt8} (stops : ∀ char ∈ (gap ++ rest).head?, char = byte ' ')
    (word : ∀ char ∈ rest.head?, char ≠ byte ' ') (none : gap = []) : rest = [] := by
  subst none
  cases rest with
  | nil => rfl
  | cons char rest => exact absurd (stops char rfl) (word char rfl)

/-- A line has two words when both scans for one find something. -/
theorem two_words_iff : TwoWords input.bytes name passwd ↔
    name = firstWord input ∧ passwd = secondWord input ∧ name.bytes ≠ [] ∧ passwd.bytes ≠ [] := by
  constructor
  · rintro ⟨front, gap, tail, split, blanks, nameWord, gapBlanks, someGap, passwdWord, stops⟩
    have toName : (input.skip isSpace).bytes = name.bytes ++ (gap ++ (passwd.bytes ++ tail)) :=
      (space_scan.mpr ⟨split, blanks, head_of_word nameWord⟩).drop_while
    have overName := word_scan.mpr ⟨toName, nameWord.2, head_of_blanks gapBlanks someGap⟩
    have toPasswd : ((behindFirst input).skip isSpace).bytes = passwd.bytes ++ tail :=
      (space_scan.mpr ⟨overName.drop_while, gapBlanks, head_of_word passwdWord⟩).drop_while
    have overPasswd := word_scan.mpr ⟨toPasswd, passwdWord.2, stops⟩
    exact ⟨StdString.ext overName.take_while.symm, StdString.ext overPasswd.take_while.symm, nameWord.1, passwdWord.1⟩
  · rintro ⟨rfl, rfl, someName, somePasswd⟩
    obtain ⟨front, toName, overName⟩ := first_scan input
    obtain ⟨gap, tail, toPasswd, overPasswd⟩ := second_scan input
    obtain ⟨splitFront, blanks, _⟩ := space_scan.mp toName
    obtain ⟨splitName, nameChars, behindName⟩ := word_scan.mp overName
    obtain ⟨splitGap, gapBlanks, atPasswd⟩ := space_scan.mp toPasswd
    obtain ⟨splitPasswd, passwdChars, stops⟩ := word_scan.mp overPasswd
    refine ⟨front, gap, tail, ?_, blanks, ⟨someName, nameChars⟩, gapBlanks, ?_, ⟨somePasswd, passwdChars⟩, stops⟩
    · rw [← splitPasswd, ← splitGap, ← splitName, ← splitFront]
    · intro none
      rw [splitGap] at behindName
      have nothing := gap_of_rest behindName atPasswd none
      rw [splitPasswd] at nothing
      exact somePasswd (List.append_eq_nil_iff.mp nothing).1

theorem word_and_rest_iff : WordAndRest input.bytes target words ↔
    target = firstWord input ∧ words = behindBlanks input ∧ target.bytes ≠ [] := by
  constructor
  · rintro ⟨front, gap, split, blanks, targetWord, gapBlanks, noGap, atWords⟩
    have toTarget : (input.skip isSpace).bytes = target.bytes ++ (gap ++ words.bytes) :=
      (space_scan.mpr ⟨split, blanks, head_of_word targetWord⟩).drop_while
    have behind : ∀ char ∈ (gap ++ words.bytes).head?, char = byte ' ' := by
      by_cases none : gap = []
      · simp [none, noGap none]
      · exact head_of_blanks gapBlanks none
    have overTarget := word_scan.mpr ⟨toTarget, targetWord.2, behind⟩
    have toWords : ((behindFirst input).skip isSpace).bytes = words.bytes :=
      (space_scan.mpr ⟨overTarget.drop_while, gapBlanks, atWords⟩).drop_while
    exact ⟨StdString.ext overTarget.take_while.symm, StdString.ext toWords.symm, targetWord.1⟩
  · rintro ⟨rfl, rfl, someTarget⟩
    obtain ⟨front, toTarget, overTarget⟩ := first_scan input
    obtain ⟨gap, _, toWords, _⟩ := second_scan input
    obtain ⟨splitFront, blanks, _⟩ := space_scan.mp toTarget
    obtain ⟨splitTarget, targetChars, behindTarget⟩ := word_scan.mp overTarget
    obtain ⟨splitGap, gapBlanks, atWords⟩ := space_scan.mp toWords
    refine ⟨front, gap, ?_, blanks, ⟨someTarget, targetChars⟩, gapBlanks, ?_, atWords⟩
    · rw [← splitGap, ← splitTarget, ← splitFront]
    · rw [splitGap] at behindTarget
      exact gap_of_rest behindTarget atWords

/-- There is a word to find unless all is blank. -/
theorem has_word_iff : HasWord input.bytes ↔ (input.skip isSpace).bytes ≠ [] := by
  have none : (input.skip isSpace).bytes = [] ↔ ∀ char ∈ input.bytes, isSpace char = true :=
    List.dropWhile_eq_nil_iff
  rw [Ne, none, HasWord]
  simp [isSpace]

theorem first_word_nil : (firstWord input).bytes = [] ↔ (input.skip isSpace).bytes = [] := by
  obtain ⟨front, toWord, overWord⟩ := first_scan input
  obtain ⟨_, _, atWord⟩ := space_scan.mp toWord
  obtain ⟨split, _, stops⟩ := word_scan.mp overWord
  constructor
  · intro none
    rw [split, none, List.nil_append] at atWord ⊢
    exact gap_of_rest (show ∀ char ∈ ([] ++ (behindFirst input).bytes).head?, char = byte ' ' from stops) atWord rfl
  · intro none
    rw [split] at none
    exact (List.append_eq_nil_iff.mp none).1

/-! ### What each function accepts -/

private theorem sized_iff {word : StdString} : ¬ (word.length < 4 ∨ word.length > 20) ↔ Sized word := by
  unfold Sized
  omega

private theorem sized_some {word : StdString} (sized : Sized word) : word.bytes ≠ [] := by
  intro none
  have short : word.length = 0 := congrArg List.length none
  unfold Sized at sized
  omega

/-- A command for the server, with the message it sends. -/
def Cmd.Remote (fields : List Field) (cmd : Cmd) : Prop :=
  cmd.mInvalid = false ∧ cmd.mLocalCmd = false ∧ cmd.mMsg = some fields

/-- A command that stays in the client, with the message it posts. -/
def Cmd.Posts (fields : List Field) (cmd : Cmd) : Prop :=
  cmd.mInvalid = false ∧ cmd.mLocalCmd = true ∧ cmd.mMsg = some fields

/-- A name and a password of the right lengths. -/
def RoomArgs (rest : List UInt8) (name passwd : StdString) : Prop :=
  TwoWords rest name passwd ∧ Sized name ∧ Sized passwd

theorem room_args_iff : RoomArgs input.bytes name passwd ↔
    name = firstWord input ∧ passwd = secondWord input ∧ Sized name ∧ Sized passwd := by
  unfold RoomArgs
  rw [two_words_iff]
  constructor
  · rintro ⟨⟨first, second, _, _⟩, sizes⟩
    exact ⟨first, second, sizes⟩
  · rintro ⟨first, second, nameSized, passwdSized⟩
    exact ⟨⟨first, second, sized_some nameSized, sized_some passwdSized⟩, nameSized, passwdSized⟩

private theorem no_room_args (sized : ¬ (Sized (firstWord input) ∧ Sized (secondWord input))) :
    ¬ ∃ name passwd, RoomArgs input.bytes name passwd := by
  rintro ⟨name, passwd, args⟩
  obtain ⟨rfl, rfl, sizes⟩ := room_args_iff.mp args
  exact sized sizes

/-- What `ParseJoinRoom` comes to. -/
theorem parse_join_room_cases (input : CString) (cmd : Cmd) :
    (∃ name passwd made, RoomArgs input.bytes name passwd ∧ parseJoinRoom input cmd = (true, made) ∧
      Cmd.Remote (CRClient.joinRoomFields name passwd) made) ∨
    (¬ ∃ name passwd, RoomArgs input.bytes name passwd) ∧ ∃ left, parseJoinRoom input cmd = (false, left) := by
  by_cases sized : Sized (firstWord input) ∧ Sized (secondWord input)
  · left
    obtain ⟨nameSized, passwdSized⟩ := sized
    have some : (input.skip isSpace).char ≠ 0 := fun none =>
      sized_some nameSized (first_word_nil.mpr (CString.char_zero.mp none))
    refine ⟨firstWord input, secondWord input, (parseJoinRoom input cmd).2,
      room_args_iff.mpr ⟨rfl, rfl, nameSized, passwdSized⟩, ?_⟩
    have nameFits := sized_iff.mpr nameSized
    have passwdFits := sized_iff.mpr passwdSized
    simp only [firstWord, secondWord, behindFirst] at nameFits passwdFits
    simp only [parseJoinRoom]
    rw [if_neg some, if_neg nameFits, if_neg passwdFits]
    exact ⟨rfl, rfl, rfl, rfl⟩
  · right
    refine ⟨no_room_args sized, ?_⟩
    simp only [parseJoinRoom]
    split
    · exact ⟨_, rfl⟩
    · split
      · exact ⟨_, rfl⟩
      · rename_i nameFits
        split
        · exact ⟨_, rfl⟩
        · rename_i passwdFits
          exact absurd ⟨sized_iff.mp nameFits, sized_iff.mp passwdFits⟩ sized

/-- The word behind the letter ends at a blank, or there is none. -/
def Closed (rest : List UInt8) : Prop :=
  HasWord rest → ∃ front word tail, rest = front ++ (word ++ byte ' ' :: tail) ∧ Blanks front ∧ Word word

private theorem seek_cases (index : CString) :
    (byte ' ' ∉ index.bytes ∧ seekSpace index = .error .outOfBounds) ∨
    (byte ' ' ∈ index.bytes ∧ seekSpace index = .ok (index.skip inWord)) := by
  have all : index.bytes.all inWord = true ↔ byte ' ' ∉ index.bytes := by
    rw [List.all_eq_true]
    constructor
    · intro every inside
      simpa [inWord] using every _ inside
    · intro outside char inside
      have other : char ≠ byte ' ' := fun same => outside (same ▸ inside)
      simpa [inWord] using other
  unfold seekSpace
  by_cases inside : byte ' ' ∈ index.bytes
  · exact .inr ⟨inside, if_neg fun every => all.mp every inside⟩
  · exact .inl ⟨inside, if_pos (all.mpr inside)⟩

theorem closed_iff : Closed input.bytes ↔
    ((input.skip isSpace).bytes ≠ [] → byte ' ' ∈ (input.skip isSpace).bytes) := by
  unfold Closed
  rw [has_word_iff]
  constructor
  · intro closed some
    obtain ⟨front, word, tail, line, blanks, isWord⟩ := closed some
    have toWord : (input.skip isSpace).bytes = word ++ byte ' ' :: tail :=
      (space_scan.mpr ⟨line, blanks, head_of_word isWord⟩).drop_while
    rw [toWord]
    exact List.mem_append_right word (List.mem_cons_self ..)
  · intro closed some
    obtain ⟨front, toWord, overWord⟩ := first_scan input
    obtain ⟨splitFront, blanks, _⟩ := space_scan.mp toWord
    obtain ⟨split, chars, stops⟩ := word_scan.mp overWord
    have inside := closed some
    rw [split] at inside
    have behind : byte ' ' ∈ (behindFirst input).bytes :=
      (List.mem_append.mp inside).resolve_left fun member => chars _ member rfl
    cases tail : (behindFirst input).bytes with
    | nil => simp [tail] at behind
    | cons char tail' =>
      rw [tail] at split stops
      obtain rfl := stops char rfl
      exact ⟨front, (firstWord input).bytes, tail', split ▸ splitFront, blanks, fun none => some (first_word_nil.mp none),
        chars⟩

private theorem closed_of_args (args : RoomArgs input.bytes name passwd) : Closed input.bytes := by
  obtain ⟨⟨front, gap, tail, line, blanks, nameWord, gapBlanks, someGap, _, _⟩, _, _⟩ := args
  intro _
  cases gap with
  | nil => exact absurd rfl someGap
  | cons char gap =>
    obtain rfl := gapBlanks char (List.mem_cons_self ..)
    exact ⟨front, name.bytes, _, line, blanks, nameWord⟩

/-- Nothing follows the letter, or a word that no blank ends. -/
def Overruns (rest : List UInt8) : Prop := rest = [] ∨ ¬ Closed rest

theorem no_args_of_overruns (overruns : Overruns input.bytes) : ¬ ∃ name passwd, RoomArgs input.bytes name passwd := by
  rintro ⟨name, passwd, args⟩
  obtain none | notClosed := overruns
  · obtain ⟨_, _, _, line, _⟩ := args.1
    have noName : name.bytes = [] := by
      rw [none] at line
      simp_all
    exact sized_some args.2.1 noName
  · exact notClosed (closed_of_args args)

/-- What `ParseCreateRoom` comes to. -/
theorem parse_create_room_cases (input : CString) (cmd : Cmd) :
    (Overruns input.bytes ∧ parseCreateRoom input cmd = .error .outOfBounds) ∨
    ¬ Overruns input.bytes ∧
      ((∃ name passwd made, RoomArgs input.bytes name passwd ∧ parseCreateRoom input cmd = .ok (true, made) ∧
        Cmd.Remote (CRClient.createRoomFields name passwd) made) ∨
      (¬ ∃ name passwd, RoomArgs input.bytes name passwd) ∧ ∃ left, parseCreateRoom input cmd = .ok (false, left)) := by
  by_cases none : (input.skip isSpace).char = 0
  · have nothing := CString.char_zero.mp none
    by_cases ended : input.bytes = []
    · left
      refine ⟨.inl ended, ?_⟩
      simp only [parseCreateRoom, logBehind]
      rw [if_pos none, if_pos ended, error_then]
    · right
      refine ⟨?_, .inr ⟨no_room_args fun sized => sized_some sized.1 (first_word_nil.mpr nothing), ?_⟩⟩
      · rintro (atEnd | notClosed)
        · exact ended atEnd
        · exact notClosed (closed_iff.mpr fun some => absurd nothing some)
      · simp only [parseCreateRoom, logBehind]
        rw [if_pos none, if_neg ended, ok_then]
        exact ⟨_, rfl⟩
  have some : (input.skip isSpace).bytes ≠ [] := fun nothing => none (CString.char_zero.mpr nothing)
  obtain ⟨outside, faults⟩ | ⟨inside, seeks⟩ := seek_cases (input.skip isSpace)
  · left
    refine ⟨.inr fun closed => outside (closed_iff.mp closed some), ?_⟩
    simp only [parseCreateRoom]
    rw [if_neg none, faults, error_then]
  right
  constructor
  · rintro (atEnd | notClosed)
    · exact some (by simp [CString.skip, atEnd])
    · exact notClosed (closed_iff.mpr fun _ => inside)
  by_cases sized : Sized (firstWord input) ∧ Sized (secondWord input)
  · left
    obtain ⟨nameSized, passwdSized⟩ := sized
    have nameFits := sized_iff.mpr nameSized
    have passwdFits := sized_iff.mpr passwdSized
    simp only [firstWord, secondWord, behindFirst] at nameFits passwdFits
    refine ⟨firstWord input, secondWord input, { cmd with
        mType := .createRoom
        mInvalid := false
        mLocalCmd := false
        mMsg := .some (CRClient.createRoomFields (firstWord input) (secondWord input)) },
      room_args_iff.mpr ⟨rfl, rfl, nameSized, passwdSized⟩, ?_, rfl, rfl, rfl⟩
    simp only [parseCreateRoom]
    rw [if_neg none, seeks, ok_then, if_neg nameFits, if_neg passwdFits]
    rfl
  · right
    refine ⟨no_room_args sized, ?_⟩
    simp only [parseCreateRoom]
    rw [if_neg none, seeks, ok_then]
    split
    · exact ⟨_, rfl⟩
    · rename_i nameFits
      split
      · exact ⟨_, rfl⟩
      · rename_i passwdFits
        exact absurd ⟨sized_iff.mp nameFits, sized_iff.mp passwdFits⟩ sized

theorem has_word_of_shape (shape : WordAndRest input.bytes target words) : HasWord input.bytes := by
  obtain ⟨rfl, rfl, some⟩ := word_and_rest_iff.mp shape
  exact has_word_iff.mpr fun none => some (first_word_nil.mpr none)

/-- What `ParseWhisper` comes to. -/
theorem parse_whisper_cases (input : CString) (cmd : Cmd) :
    (∃ target words made, WordAndRest input.bytes target words ∧ parseWhisper input cmd = (true, made) ∧
      made.mType = cmd.mType ∧ Cmd.Posts (CRClient.localWhisperFields target words) made) ∨
    ¬ HasWord input.bytes ∧ ∃ left, parseWhisper input cmd = (false, left) := by
  by_cases none : (input.skip isSpace).char = 0
  · right
    refine ⟨fun word => has_word_iff.mp word (CString.char_zero.mp none), ?_⟩
    simp only [parseWhisper]
    rw [if_pos none]
    exact ⟨_, rfl⟩
  · left
    have some : (firstWord input).bytes ≠ [] := fun nothing => none (CString.char_zero.mpr (first_word_nil.mp nothing))
    refine ⟨firstWord input, behindBlanks input, (parseWhisper input cmd).2,
      word_and_rest_iff.mpr ⟨rfl, rfl, some⟩, ?_⟩
    simp only [parseWhisper]
    rw [if_neg none]
    exact ⟨rfl, rfl, rfl, rfl, rfl⟩

/-- What `ParseList` comes to: a target that is not known is parsed as well. -/
theorem parse_list_cases (input : CString) (cmd : Cmd) (local' : cmd.mLocalCmd = true) :
    (HasWord input.bytes ∧ ∃ made, parseList input cmd = (true, made) ∧ made.mLocalCmd = true) ∨
    ¬ HasWord input.bytes ∧ ∃ left, parseList input cmd = (false, left) := by
  simp only [parseList]
  split
  · rename_i none
    exact .inr ⟨fun word => has_word_iff.mp word (CString.char_zero.mp none), _, rfl⟩
  · rename_i some
    have word : HasWord input.bytes := has_word_iff.mpr fun none => some (CString.char_zero.mpr none)
    left
    split
    · exact ⟨word, _, rfl, rfl⟩
    · exact ⟨word, _, rfl, local'⟩

/-- What `ParseLeaveRoom` comes to. -/
theorem parse_leave_room_cases (input : CString) (cmd : Cmd) :
    ((∀ char ∈ input.bytes.head?, char = byte ' ') ∧
      ∃ made, parseLeaveRoom input cmd = (true, made) ∧ made.mLocalCmd = true) ∨
    (¬ ∀ char ∈ input.bytes.head?, char = byte ' ') ∧ ∃ left, parseLeaveRoom input cmd = (false, left) := by
  have first : (∀ char ∈ input.bytes.head?, char = byte ' ') ↔ ¬ (input.char ≠ byte ' ' ∧ input.char ≠ 0) := by
    by_cases none : input.bytes = []
    · simp [none, CString.char_zero.mpr none]
    · have some : input.char ≠ 0 := fun zero => none (CString.char_zero.mp zero)
      rw [(CString.char_some some).mp rfl]
      simp [some]
  simp only [parseLeaveRoom]
  split
  · rename_i other
    exact .inr ⟨fun fine => first.mp fine other, _, rfl⟩
  · rename_i fine
    exact .inl ⟨first.mpr fine, _, rfl, rfl⟩

/-! ### What the letters accept -/

/-- The letters with a parse function of their own. -/
def letters : List Char := ['c', 'j', 'w', 'l', 'q', 'r']

/-- What may follow a letter. -/
def Accepts : Char → List UInt8 → Prop
  | 'c', rest => ∃ name passwd, RoomArgs rest name passwd
  | 'j', rest => ∃ name passwd, RoomArgs rest name passwd
  | 'w', rest => HasWord rest
  | 'l', rest => HasWord rest
  | 'q', rest => ∀ char ∈ rest.head?, char = byte ' '
  | 'r', _ => False
  | _, _ => True

/-- A parsed command stays in the client, or asks for a room. -/
def Cmd.Settles (cmd : Cmd) : Prop :=
  cmd.mLocalCmd = true ∨ ∃ name passwd, Cmd.Remote (CRClient.createRoomFields name passwd) cmd ∨
    Cmd.Remote (CRClient.joinRoomFields name passwd) cmd

variable {command rest : CString} {letter : Char}

private theorem dispatch (named : command.bytes = byte letter :: rest.bytes) :
    command.char = byte letter ∧ command.next = rest := by
  constructor
  · simp [CString.char, named]
  · exact CString.ext (by simp [CString.next, named])

theorem parse_create_command (named : command.bytes = byte 'c' :: rest.bytes) (cmd : Cmd) :
    parseCmdMessage command cmd = parseCreateRoom rest cmd := by
  obtain ⟨first, next⟩ := dispatch named
  simp only [parseCmdMessage, first, next]
  rfl

theorem parse_join_command (named : command.bytes = byte 'j' :: rest.bytes) (cmd : Cmd) :
    parseCmdMessage command cmd = .ok (parseJoinRoom rest cmd) := by
  obtain ⟨first, next⟩ := dispatch named
  simp only [parseCmdMessage, first, next]
  rfl

theorem parse_whisper_command (named : command.bytes = byte 'w' :: rest.bytes) (cmd : Cmd) :
    parseCmdMessage command cmd = .ok (parseWhisper rest cmd) := by
  obtain ⟨first, next⟩ := dispatch named
  simp only [parseCmdMessage, first, next]
  rfl

private theorem parse_list_command (named : command.bytes = byte 'l' :: rest.bytes) (cmd : Cmd) :
    parseCmdMessage command cmd = .ok (parseList rest cmd) := by
  obtain ⟨first, next⟩ := dispatch named
  simp only [parseCmdMessage, first, next]
  rfl

private theorem parse_leave_command (named : command.bytes = byte 'q' :: rest.bytes) (cmd : Cmd) :
    parseCmdMessage command cmd = .ok (parseLeaveRoom rest cmd) := by
  obtain ⟨first, next⟩ := dispatch named
  simp only [parseCmdMessage, first, next]
  rfl

private theorem parse_reply_command (named : command.bytes = byte 'r' :: rest.bytes) (cmd : Cmd) :
    parseCmdMessage command cmd = .ok (parseReply cmd) := by
  obtain ⟨first, _⟩ := dispatch named
  simp only [parseCmdMessage, first]
  rfl

/-- A letter accepts what follows it, or its command is not parsed. -/
theorem parse_letter_cases (named : command.bytes = byte letter :: rest.bytes) (known : letter ∈ letters)
    (local' : cmd.mLocalCmd = true) :
    (Accepts letter rest.bytes ∧ ∃ made, parseCmdMessage command cmd = .ok (true, made) ∧ Cmd.Settles made) ∨
    ¬ Accepts letter rest.bytes ∧ ∀ made, parseCmdMessage command cmd ≠ .ok (true, made) := by
  simp only [letters, List.mem_cons, List.not_mem_nil, or_false] at known
  obtain rfl | rfl | rfl | rfl | rfl | rfl := known
  · rw [parse_create_command named]
    obtain ⟨overruns, faults⟩ | ⟨_, ⟨name, passwd, made, args, parsed, remote⟩ | ⟨none, left, refused⟩⟩ :=
      parse_create_room_cases rest cmd
    · exact .inr ⟨no_args_of_overruns overruns, by simp [faults]⟩
    · exact .inl ⟨⟨name, passwd, args⟩, made, parsed, .inr ⟨name, passwd, .inl remote⟩⟩
    · exact .inr ⟨none, by simp [refused]⟩
  · rw [parse_join_command named]
    obtain ⟨name, passwd, made, args, parsed, remote⟩ | ⟨none, left, refused⟩ := parse_join_room_cases rest cmd
    · exact .inl ⟨⟨name, passwd, args⟩, made, by rw [parsed], .inr ⟨name, passwd, .inr remote⟩⟩
    · exact .inr ⟨none, by simp [refused]⟩
  · rw [parse_whisper_command named]
    obtain ⟨target, words, made, shape, parsed, _, posts⟩ | ⟨none, left, refused⟩ := parse_whisper_cases rest cmd
    · exact .inl ⟨has_word_of_shape shape, made, by rw [parsed], .inl posts.2.1⟩
    · exact .inr ⟨none, by simp [refused]⟩
  · rw [parse_list_command named]
    obtain ⟨word, made, parsed, stays⟩ | ⟨none, left, refused⟩ := parse_list_cases rest cmd local'
    · exact .inl ⟨word, made, by rw [parsed], .inl stays⟩
    · exact .inr ⟨none, by simp [refused]⟩
  · rw [parse_leave_command named]
    obtain ⟨fine, made, parsed, stays⟩ | ⟨other, left, refused⟩ := parse_leave_room_cases rest cmd
    · exact .inl ⟨fine, made, by rw [parsed], .inl stays⟩
    · exact .inr ⟨other, by simp [refused]⟩
  · rw [parse_reply_command named]
    exact .inr ⟨id, by simp [parseReply]⟩

/-- No other letter is refused. -/
theorem parse_other_letter (some : command.bytes ≠ []) (other : ∀ letter ∈ letters, command.char ≠ byte letter)
    (cmd : Cmd) : ∃ made, parseCmdMessage command cmd = .ok (true, made) ∧ made.mLocalCmd = cmd.mLocalCmd := by
  have notEnd : command.char ≠ 0 := fun zero => some (CString.char_zero.mp zero)
  simp only [letters, List.forall_mem_cons, List.not_mem_nil, false_implies, implies_true, and_true] at other
  obtain ⟨notC, notJ, notW, notL, notQ, notR⟩ := other
  simp only [parseCmdMessage, notC, notJ, notW, notL, notQ, notR, notEnd, if_false]
  split
  · exact ⟨_, rfl, rfl⟩
  · split
    · exact ⟨_, rfl, rfl⟩
    · exact ⟨_, rfl, rfl⟩

theorem parse_bare_slash (none : command.bytes = []) (cmd : Cmd) : parseCmdMessage command cmd = .ok (false, cmd) := by
  have zero := CString.char_zero.mpr none
  simp only [parseCmdMessage, zero]
  rfl

/-! ### Whole lines -/

variable {line : CString}

theorem parse_blank_line (blank : ¬ HasWord line.bytes) (cmd : Cmd) :
    parseInput line cmd = .ok (false, { cmd with mType := .null }) := by
  rw [has_word_iff, not_not] at blank
  simp only [parseInput]
  rw [if_pos blank]

/-- The blanks in front of the first word are skipped. -/
theorem drop_blanks {front rest : List UInt8} {first : UInt8} (shape : line.bytes = front ++ first :: rest)
    (blanks : Blanks front) (some : first ≠ byte ' ') : (line.skip isSpace).bytes = first :: rest := by
  refine (space_scan.mpr ⟨shape, blanks, ?_⟩).drop_while
  rintro char ⟨⟩
  exact some

/-- A line with a word starts a command, or is not parsed. -/
theorem parse_line_cases (word : HasWord line.bytes) (cmd : Cmd) :
    (∃ front command, line.bytes = front ++ byte '/' :: CString.bytes command ∧ Blanks front ∧
      parseInput line cmd = parseCmdMessage command { cmd with mType := .chat }) ∨
    ∃ front first rest, line.bytes = front ++ first :: rest ∧ Blanks front ∧ first ≠ byte ' ' ∧ first ≠ byte '/' ∧
      parseInput line cmd = .ok (false, { cmd with mType := .chat }) := by
  obtain ⟨front, toWord, _⟩ := first_scan line
  obtain ⟨split, blanks, stops⟩ := space_scan.mp toWord
  have some := has_word_iff.mp word
  by_cases slash : (line.skip isSpace).char = byte '/'
  · left
    rw [(CString.char_some (by decide)).mp slash] at split
    refine ⟨front, (line.skip isSpace).next, split, blanks, ?_⟩
    simp only [parseInput]
    rw [if_neg some, if_pos slash]
  · right
    have notEnd : (line.skip isSpace).char ≠ 0 := fun zero => some (CString.char_zero.mp zero)
    have first := (CString.char_some notEnd).mp rfl
    rw [first] at split stops
    refine ⟨front, _, _, split, blanks, stops _ rfl, slash, ?_⟩
    simp only [parseInput]
    rw [if_neg some, if_neg slash]

/-- The same, for a line of which the command is known. -/
theorem parse_slash (line' : line.bytes = front ++ byte '/' :: command.bytes) (blanks : Blanks front) (cmd : Cmd) :
    parseInput line cmd = parseCmdMessage command { cmd with mType := .chat } := by
  have toSlash := drop_blanks line' blanks (by decide)
  obtain ⟨first, next⟩ := dispatch toSlash
  simp only [parseInput, first, next]
  rw [if_neg (by simp [toSlash]), if_pos trivial]

end ChatRoom.InputParser
