import ScriptFront.Proofs.IllegalLexeme
import ScriptFront.Proofs.NormalText

/-! Integers are exact up to their bound. Digits that no number goes on behind are the integer
they write, however many zeros they start with, or out of range; a point with a digit behind it
makes them part of a float, whatever their size. In each case the lexer stops right behind. -/
namespace ScriptFront

namespace Lexical

variable {lexer : Lexer} {whole fraction rest after : List Char}

/-- No number goes on in the text: it starts with no digit and no letter, and with no point
before a digit. -/
def EndsNumber (text : List Char) : Prop :=
  (∀ c, text.head? = some c → ¬ Digit c ∧ ¬ Letter c) ∧
    ∀ c more, text = '.' :: c :: more → ¬ Digit c

theorem EndsNumber.fractionDigits (ends : EndsNumber rest) : Lexeme.fractionDigits rest = [] := by
  unfold Lexeme.fractionDigits
  split
  · rename_i more
    cases more with
    | nil => rfl
    | cons c more =>
      have other : ¬ c.isDigit := digit_iff.not.mpr (ends.2 c more rfl)
      exact List.takeWhile_cons_of_neg other
  · rfl

/-- Digits with no digit behind them are the whole part of the longest number, and the digits
behind the point that may follow are its fraction. -/
theorem longest_numberText (digits : Digits whole) (next : ∀ c, rest.head? = some c → ¬ Digit c)
    (same : whole ++ rest = Lexeme.numberText whole (Lexeme.fractionDigits rest) ++ after) :
    Longest Number (Lexeme.numberText whole (Lexeme.fractionDigits rest)) after := by
  obtain ⟨c, cs, front, digit⟩ := digits.head
  have text : (Lexeme.ofNumber (whole ++ rest)).text =
      Lexeme.numberText whole (Lexeme.fractionDigits rest) := by
    simp only [Lexeme.ofNumber, Binary64.takeWhile_digits digits.2,
      Binary64.dropWhile_digits digits.2, Binary64.digits_stop next, List.append_nil]
  have left : (Lexeme.ofNumber (whole ++ rest)).rest = after := by
    have split := Lexeme.ofNumber_split (whole ++ rest)
    rw [text] at split
    exact List.append_cancel_left (split.trans same)
  rw [← text, ← left, front]
  exact longest_number digit

theorem longest_digits (digits : Digits whole) (ends : EndsNumber rest) :
    Longest Number whole rest := by
  have longest : Longest Number (Lexeme.numberText whole (Lexeme.fractionDigits rest)) rest := by
    apply longest_numberText digits fun c head => (ends.1 c head).1
    rw [ends.fractionDigits]
    rfl
  rwa [ends.fractionDigits] at longest

theorem longest_fraction (digits : Digits whole) (parts : Digits fraction)
    (next : ∀ c, after.head? = some c → ¬ Digit c) :
    Longest Number (whole ++ '.' :: fraction) after := by
  have point : Lexeme.fractionDigits ('.' :: fraction ++ after) = fraction :=
    Binary64.fractionDigits_append parts.2 after (Binary64.digits_stop next).1
  have text : Lexeme.numberText whole fraction = whole ++ '.' :: fraction := by
    rw [Lexeme.numberText, if_neg (by simpa using parts.1)]
  have longest : Longest Number
      (Lexeme.numberText whole (Lexeme.fractionDigits ('.' :: fraction ++ after))) after := by
    apply longest_numberText digits
    · rintro _ ⟨⟩
      decide
    · rw [point, text, List.append_assoc]
  rwa [point, text] at longest

theorem pass_number (number : Number whole) (lexer : Lexer) (rest : List Char) :
    lexer.pass whole rest = { lexer with rest := rest } := by
  rw [Lexer.pass, newlines_eq_zero (number.notMem apart_newline), UInt32.add_zero]

/-- A step over a number that is a token. -/
theorem step_number {kind : TokenKind} {payload : Payload} (number : Number whole)
    (trivia : Trivia [] (whole ++ rest)) (lexes : Lexes whole rest kind payload)
    (front : lexer.rest = whole ++ rest) :
    lexer.step = (.ok ⟨kind, payload, lexer.line⟩, { lexer with rest := rest }) := by
  have clear : '\n' ∉ whole.dropLast :=
    fun member => number.notMem apart_newline (List.dropLast_subset whole member)
  rw [step_eq trivia lexes front, newlines_eq_zero clear, UInt32.add_zero,
    pass_number number lexer rest]

theorem step_int (digits : Digits whole) (ends : EndsNumber rest)
    (front : lexer.rest = whole ++ rest) (bound : decimalValue whole < 2 ^ 63) :
    ∃ value : Int64, value.toInt = (decimalValue whole : Int) ∧
      lexer.step = (.ok (.int value lexer.line), { lexer with rest := rest }) := by
  have exact : (Int64.ofNat (decimalValue whole)).toInt = (decimalValue whole : Int) :=
    Int64.toInt_ofNat_of_lt bound
  have unlettered : Unlettered rest := fun c head => (ends.1 c head).2
  have lexes := Lexes.int (longest_digits digits ends) digits unlettered bound exact
  exact ⟨_, exact, step_number (.inl digits) (trivia_digits digits rest) lexes front⟩

theorem step_outOfRange (digits : Digits whole) (ends : EndsNumber rest)
    (front : lexer.rest = whole ++ rest) (large : 2 ^ 63 ≤ decimalValue whole) :
    lexer.step = (.error ⟨.numberOutOfRange (String.ofList whole), lexer.line, lexer.file⟩,
      { lexer with rest := rest }) := by
  have unlettered : Unlettered rest := fun c head => (ends.1 c head).2
  have longest : Longest Number (Lexeme.numberText whole []) rest := longest_digits digits ends
  obtain ⟨c, cs, text, read⟩ := first_number longest digits (List.forall_mem_nil _)
  have skipped : Lexeme.skipTrivia lexer.rest = c :: cs := by
    rw [front]
    exact (trivia_digits digits rest).skipTrivia.trans text
  have notBelow : ¬ Nat.ofDigitChars 10 whole 0 < Lexeme.intBound := by
    rw [← decimalValue_eq]
    exact Nat.not_lt_of_le large
  have content : Lexeme.numberContent whole [] rest.head? =
      .error (.numberOutOfRange (String.ofList whole)) := by
    simp only [Lexeme.numberContent, filter_unlettered unlettered, List.isEmpty_nil, if_true,
      if_neg notBelow]
  have clear : '\n' ∉ Lexeme.numberText whole [] := longest.1.notMem apart_newline
  simp only [Lexer.step, skipped, read, Lexer.locate, content, pass_number longest.1,
    newlines_eq_zero clear, UInt32.add_zero]

theorem step_float (digits : Digits whole) (parts : Digits fraction)
    (next : ∀ c, after.head? = some c → ¬ Digit c) (unlettered : Unlettered after)
    (front : lexer.rest = whole ++ ('.' :: fraction ++ after)) :
    lexer.step = (.ok (.float (Binary64.ofDecimal (decimalValue (whole ++ fraction))
      (-(fraction.length : Int))) lexer.line), { lexer with rest := after }) := by
  have longest := longest_fraction digits parts next
  have text : whole ++ ('.' :: fraction ++ after) = whole ++ '.' :: fraction ++ after := by simp
  have trivia := trivia_digits digits ('.' :: fraction ++ after)
  rw [text] at front trivia
  have nearest : (Binary64.ofDecimal (decimalValue (whole ++ fraction))
      (-(fraction.length : Int))).NearestEven _ := Binary64.nearestEven_div_iff.mpr rfl
  exact step_number longest.1 trivia (.float longest digits parts unlettered nearest) front

/-- Digits with a fraction are no integer, whatever follows. -/
theorem step_fraction_kind (digits : Digits whole) (parts : Digits fraction)
    (next : ∀ c, after.head? = some c → ¬ Digit c)
    (front : lexer.rest = whole ++ ('.' :: fraction ++ after)) {token : Token}
    (read : lexer.step.1 = .ok token) : token.kind ≠ .int := by
  by_cases unlettered : Unlettered after
  · rw [step_float digits parts next unlettered front] at read
    cases read
    exact nofun
  · simp only [Unlettered, not_forall, not_not] at unlettered
    obtain ⟨c, head, letter⟩ := unlettered
    obtain ⟨more, rfl⟩ := List.head?_eq_some_iff.mp head
    have text : whole ++ ('.' :: fraction ++ c :: more) = whole ++ '.' :: fraction ++ c :: more := by
      simp
    have trivia := trivia_digits digits ('.' :: fraction ++ c :: more)
    rw [text] at front trivia
    have illegal := Illegal.malformed (longest_fraction digits parts next) letter
    rw [step_eq_error trivia illegal front] at read
    cases read

theorem Lexes.int_nonneg {kind : TokenKind} {value : Int64}
    (lexes : Lexes whole rest kind (.int value)) : 0 ≤ value.toInt := by
  cases lexes with
  | int _ _ _ _ same =>
    rw [same]
    exact Int.natCast_nonneg _

theorem step_int_nonneg {token : Token} {value : Int64} (read : lexer.step.1 = .ok token)
    (payload : token.payload = .int value) : 0 ≤ value.toInt := by
  obtain trivia | ⟨run, text, rest, kind, found, front, trivia, lexes⟩ := step_cases read
  · rw [step_eq_end trivia] at read
    cases read
    cases payload
  · rw [step_eq trivia lexes front] at read
    cases read
    cases payload
    exact lexes.int_nonneg

end Lexical

open Lexical

/-- Digits that no number goes on behind are the integer they write if it is below `2 ^ 63`, and
otherwise out of range. With a point and a digit behind them the longest number is one float,
unless a letter touches it. No integer that any lexer gives is negative. -/
theorem Lexer.step_digits_exact (lexer : Lexer) :
    (∀ digits rest, lexer.rest = digits ++ rest → Digits digits →
      (EndsNumber rest →
        (decimalValue digits ≤ 2 ^ 63 - 1 →
          ∃ value : Int64, value.toInt = (decimalValue digits : Int) ∧
            lexer.step = (.ok (.int value lexer.line), { lexer with rest := rest })) ∧
        (2 ^ 63 - 1 < decimalValue digits →
          lexer.step = (.error ⟨.numberOutOfRange (String.ofList digits), lexer.line, lexer.file⟩,
            { lexer with rest := rest }))) ∧
      ∀ c more, rest = '.' :: c :: more → Digit c →
        ∃ fraction after, rest = '.' :: fraction ++ after ∧ Digits fraction ∧
          Longest Number (digits ++ '.' :: fraction) after ∧
          (∀ token, lexer.step.1 = .ok token → token.kind ≠ .int) ∧
          (Unlettered after →
            lexer.step = (.ok (.float (Binary64.ofDecimal (decimalValue (digits ++ fraction))
              (-(fraction.length : Int))) lexer.line), { lexer with rest := after }))) ∧
    ∀ token value, lexer.step.1 = .ok token → token.payload = .int value → 0 ≤ value.toInt := by
  refine ⟨?_, fun _ _ => step_int_nonneg⟩
  intro digits rest front whole
  constructor
  · intro ends
    constructor
    · intro bound
      exact step_int whole ends front (by omega)
    · intro large
      exact step_outOfRange whole ends front (by omega)
  · rintro c more rfl digit
    have parts : Digits ((c :: more).takeWhile Char.isDigit) := digits_takeWhile digit more
    have next : ∀ d, ((c :: more).dropWhile Char.isDigit).head? = some d → ¬ Digit d := by
      intro d head
      have stop := List.head?_dropWhile_not Char.isDigit (c :: more)
      rw [head] at stop
      exact digit_iff.not.mp (by simpa using stop)
    have split : '.' :: c :: more = '.' :: (c :: more).takeWhile Char.isDigit ++
        (c :: more).dropWhile Char.isDigit := by
      rw [List.cons_append, List.takeWhile_append_dropWhile]
    rw [split] at front
    exact ⟨_, _, split, parts, longest_fraction whole parts next,
      fun _ => step_fraction_kind whole parts next front,
      fun unlettered => step_float whole parts next unlettered front⟩

/-- The last integer in range, with zeros before it and points behind, the first one out of
range, and the same digits as the whole part of a float. -/
theorem Lexer.step_digits_atBound :
    (∃ value : Int64, value.toInt = 9223372036854775807 ∧
      (ofSource "0009223372036854775807..5" none).step =
        (.ok (.int value 1), ⟨['.', '.', '5'], 1, "shell", false⟩)) ∧
    (ofSource "9223372036854775808)" none).step =
      (.error ⟨.numberOutOfRange "9223372036854775808", 1, "shell"⟩,
        ⟨[')'], 1, "shell", false⟩) ∧
    ∃ value, (ofSource "9223372036854775808.50)" none).step =
      (.ok (.float value 1), ⟨[')'], 1, "shell", false⟩) := by
  have points : EndsNumber ['.', '.', '5'] := by
    constructor
    · rintro _ ⟨⟩
      decide
    · rintro _ _ ⟨⟩
      decide
  have closing : EndsNumber [')'] := by
    constructor
    · rintro _ ⟨⟩
      decide
    · rintro _ _ ⟨⟩
  refine ⟨?_, ?_, ?_⟩
  · obtain ⟨exact, _⟩ := step_digits_exact (ofSource "0009223372036854775807..5" none)
    have value : decimalValue "0009223372036854775807".toList = 9223372036854775807 := by
      rw [decimalValue_eq]
      decide +kernel
    obtain ⟨below, _⟩ := (exact "0009223372036854775807".toList _ (by decide +kernel)
      (.of_all (by decide +kernel) (by decide +kernel))).1 points
    rw [value] at below
    exact below (by decide)
  · obtain ⟨exact, _⟩ := step_digits_exact (ofSource "9223372036854775808)" none)
    have value : decimalValue "9223372036854775808".toList = 9223372036854775808 := by
      rw [decimalValue_eq]
      decide +kernel
    obtain ⟨_, above⟩ := (exact "9223372036854775808".toList _ (by decide +kernel)
      (.of_all (by decide +kernel) (by decide +kernel))).1 closing
    rw [value, String.ofList_toList] at above
    exact above (by decide)
  · obtain ⟨exact, _⟩ := step_digits_exact (ofSource "9223372036854775808.50)" none)
    have whole : Digits "9223372036854775808".toList :=
      .of_all (by decide +kernel) (by decide +kernel)
    obtain ⟨fraction, after, split, parts, longest, _, float⟩ :=
      (exact "9223372036854775808".toList ['.', '5', '0', ')'] (by decide +kernel) whole).2
        '5' ['0', ')'] rfl (by decide)
    -- Only one number is longest, so the fraction is the two digits.
    have known := longest_fraction whole (.of_all (List.cons_ne_nil '5' ['0']) (by decide))
      fun c head => (closing.1 c head).1
    have same := longest.unique known (by rw [List.append_assoc, ← split]; rfl)
    rw [same.2] at float
    exact ⟨_, float fun c head => (closing.1 c head).2⟩

end ScriptFront
