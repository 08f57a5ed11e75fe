import ChatRoom.Lib.CString
import ChatRoom.Lib.Numerals

/-! `stream >> number` for an `int`, in the classic locale: behind blanks there is a
sign or none, and then a row of digits. Without a digit, or outside the range of
`int`, nothing is read; what is behind the digits is left in the stream. -/
namespace ChatRoom.Lib

/-- `std::isspace`. -/
def isBlank (char : UInt8) : Bool := char == 32 || (9 ≤ char && char ≤ 13)

def isDigit (char : UInt8) : Bool := 48 ≤ char && char ≤ 57

/-- The sign in front of a number, and what is behind it. -/
def takeSign : List UInt8 → Int × List UInt8
  | 43 :: rest => (1, rest)
  | 45 :: rest => (-1, rest)
  | rest => (1, rest)

/-- The number, and what is left of the stream. -/
def extractInt (input : List UInt8) : Option (Int32 × List UInt8) :=
  let (sign, rest) := takeSign (input.dropWhile isBlank)
  let digits := rest.takeWhile isDigit
  let value := sign * valueOfDigits digits
  if digits = [] then none
  else if -2 ^ 31 ≤ value ∧ value < 2 ^ 31 then some (Int32.ofInt value, rest.dropWhile isDigit)
  else none

/-- A text that is one number, up to its end. -/
def extractWhole (input : List UInt8) : Option Int32 :=
  match extractInt input with
  | some (value, []) => some value
  | _ => none

/-- What stands for the sign of a number. -/
inductive SignMark : Int → List UInt8 → Prop where
  | none : SignMark 1 []
  | plus : SignMark 1 [43]
  | minus : SignMark (-1) [45]

/-- A number, written in one of the ways in which it can be. -/
structure WrittenAs (value : Int) (text blanks mark digits : List UInt8) (sign : Int) : Prop where
  split : text = blanks ++ (mark ++ digits)
  blank : ∀ char ∈ blanks, isBlank char = true
  marked : SignMark sign mark
  any : digits ≠ []
  all : ∀ char ∈ digits, isDigit char = true
  amounts : value = sign * valueOfDigits digits

def Written (value : Int) (text : List UInt8) : Prop :=
  ∃ blanks mark digits sign, WrittenAs value text blanks mark digits sign

variable {digits rest input : List UInt8} {value sign : Int}

theorem digit_is_no_sign (digit : isDigit char = true) : char ≠ 43 ∧ char ≠ 45 ∧ isBlank char = false := by
  simp only [isDigit, Bool.and_eq_true, decide_eq_true_eq, UInt8.le_iff_toNat_le] at digit
  have low : 48 ≤ char.toNat := digit.1
  refine ⟨?_, ?_, ?_⟩
  · rintro rfl
    exact absurd low (by decide)
  · rintro rfl
    exact absurd low (by decide)
  · simp only [isBlank, Bool.or_eq_false_iff, beq_eq_false_iff_ne, Bool.and_eq_false_iff, decide_eq_false_iff_not,
      UInt8.le_iff_toNat_le]
    refine ⟨?_, .inr ?_⟩
    · rintro rfl
      exact absurd low (by decide)
    · change ¬ char.toNat ≤ 13
      omega

/-- Digits alone are taken whole. -/
theorem take_digits (all : ∀ char ∈ digits, isDigit char = true) :
    digits.takeWhile isDigit = digits ∧ digits.dropWhile isDigit = [] := by
  have scanned : Scans isDigit digits digits [] := ⟨(List.append_nil _).symm, all, fun _ first => nomatch first⟩
  exact ⟨scanned.take_while, scanned.drop_while⟩

/-- A row of digits starts neither with a sign nor with a blank. -/
theorem take_sign_mark {mark : List UInt8} (marked : SignMark sign mark) (any : digits ≠ [])
    (all : ∀ char ∈ digits, isDigit char = true) :
    takeSign (mark ++ digits) = (sign, digits) ∧ ∀ char ∈ (mark ++ digits).head?, isBlank char = false := by
  cases marked with
  | plus => exact ⟨rfl, fun char first => by cases first; rfl⟩
  | minus => exact ⟨rfl, fun char first => by cases first; rfl⟩
  | none =>
    obtain ⟨first, digits, rfl⟩ := List.exists_cons_of_ne_nil any
    obtain ⟨noPlus, noMinus, noBlank⟩ := digit_is_no_sign (all first List.mem_cons_self)
    rw [List.nil_append]
    constructor
    · rw [takeSign]
      · exact fun _ same => noPlus (List.cons.inj same).1
      · exact fun _ same => noMinus (List.cons.inj same).1
    · intro char same
      cases same
      exact noBlank

/-- What is behind a sign is split off with it. -/
theorem take_sign_split (input : List UInt8) :
    ∃ mark, SignMark (takeSign input).1 mark ∧ input = mark ++ (takeSign input).2 := by
  unfold takeSign
  split
  · exact ⟨[43], .plus, rfl⟩
  · exact ⟨[45], .minus, rfl⟩
  · exact ⟨[], .none, rfl⟩

theorem extract_complete (written : Written value input) (fits : -2 ^ 31 ≤ value ∧ value < 2 ^ 31) :
    extractWhole input = some (Int32.ofInt value) := by
  obtain ⟨blanks, mark, digits, sign, rfl, blank, marked, any, all, rfl⟩ := written
  obtain ⟨front, stops⟩ := take_sign_mark marked any all
  obtain ⟨taken, nothing⟩ := take_digits all
  have skipped : (blanks ++ (mark ++ digits)).dropWhile isBlank = mark ++ digits := Scans.drop_while ⟨rfl, blank, stops⟩
  simp only [extractWhole, extractInt, skipped, front, taken, nothing, if_neg any, if_pos fits]

theorem extract_sound (read : extractWhole input = some number) : Written number.toInt input := by
  unfold extractWhole at read
  split at read
  next extracted =>
    cases read
    simp only [extractInt] at extracted
    split at extracted
    · contradiction
    next any =>
      split at extracted
      next fits =>
        simp only [Option.some.injEq, Prod.mk.injEq] at extracted
        obtain ⟨rfl, nothing⟩ := extracted
        obtain ⟨mark, marked, behind⟩ := take_sign_split (input.dropWhile isBlank)
        have blanks := scans isBlank input
        have digits := scans isDigit (takeSign (input.dropWhile isBlank)).2
        have whole := digits.split
        rw [nothing, List.append_nil] at whole
        refine ⟨_, mark, _, _, ?_, blanks.all, marked, any, digits.all, ?_⟩
        · rw [← whole, ← behind]
          exact blanks.split
        · exact Int32.toInt_ofInt_of_le fits.1 fits.2
      next => contradiction
  next => contradiction

/-- What is read as a number is what is written, if it is in the range of `int`. -/
theorem extract_whole_iff : extractWhole input = some number ↔ Written number.toInt input := by
  constructor
  · exact extract_sound
  · intro written
    rw [extract_complete written ⟨Int32.le_toInt number, Int32.toInt_lt number⟩, Int32.ofInt_toInt]

/-- A text is that of one number. -/
theorem written_unique {other : Int} (written : Written value input) (writtenToo : Written other input)
    (fits : -2 ^ 31 ≤ value ∧ value < 2 ^ 31) (fitsToo : -2 ^ 31 ≤ other ∧ other < 2 ^ 31) : value = other := by
  have same := Option.some.inj ((extract_complete written fits).symm.trans (extract_complete writtenToo fitsToo))
  have values := congrArg Int32.toInt same
  rwa [Int32.toInt_ofInt_of_le fits.1 fits.2, Int32.toInt_ofInt_of_le fitsToo.1 fitsToo.2] at values

/-- A numeral is read as its number. -/
theorem written_numeral (number : Nat) : Written number (numeral number) := by
  refine ⟨[], [], numeral number, 1, rfl, (fun _ inside => nomatch inside), .none, numeral_ne_nil number,
    fun char inside => ?_, ?_⟩
  · obtain ⟨low, high⟩ := numeral_digits number char inside
    simp only [isDigit, Bool.and_eq_true, decide_eq_true_eq, UInt8.le_iff_toNat_le]
    exact ⟨low, high⟩
  · rw [value_numeral, Int.one_mul]

end ChatRoom.Lib
