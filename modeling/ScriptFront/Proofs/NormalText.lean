import Mathlib.Data.List.Induction
import ScriptFront.Proofs.NumberText

/-! The normal form of a source: its tokens as they are shown, with a space behind each. It is
scanned to the tokens it was made of, so nothing but the layout of a source, its comments
and the zeros before its integers is lost in it. Floats are left out, for their texts need
not be lexemes. -/
namespace ScriptFront

/-- The text of a token in the normal form. A newline is written as itself. -/
def Token.spelling (token : Token) : String :=
  if token.kind = .newLine then "\n" else token.render

/-- Every token but the end of input, with a space behind it. -/
def normalText : List Token → String
  | [] => ""
  | token :: tokens =>
    if token.kind = .endOfInput then normalText tokens
    else token.spelling ++ " " ++ normalText tokens

namespace Lexical

variable {text rest : List Char} {kind : TokenKind} {payload : Payload}

/-- What is of a language is longest before a character that the language does not use. -/
theorem longest_before {language : List Char → Prop} {stop : Char}
    (free : ∀ text, language text → stop ∉ text) (inside : language text) (more : List Char) :
    Longest language text (stop :: more) := by
  refine ⟨inside, ?_⟩
  intro longer after same within
  by_contra exceeds
  have reaches : text ++ [stop] <+: longer := by
    refine List.prefix_of_prefix_length_le ⟨more, by simp⟩ ⟨after, same⟩ ?_
    rw [List.length_append]
    exact Nat.lt_of_not_le exceeds
  exact free longer within (reaches.subset (by simp))

theorem unlettered_apart {c : Char} (apart : Apart c) (more : List Char) :
    Unlettered (c :: more) := by
  rintro _ ⟨⟩
  exact apart.1

/-- A lexeme stays one before a character that no lexeme goes on with, whatever stood behind
it. -/
theorem Lexes.before_apart (lexes : Lexes text rest kind payload) {c : Char} (apart : Apart c)
    (more : List Char) : Lexes text (c :: more) kind payload := by
  have word_free (text : List Char) (word : Word text) : c ∉ text := word.notMem apart
  have number_free (text : List Char) (number : Number text) : c ∉ text := number.notMem apart
  have other {d : Char} (joins : d ∈ ['.', '=', '/']) : (c :: more).head? ≠ some d := by
    rintro ⟨⟩
    exact apart.2.2 joins
  cases lexes with
  | keyword word longest same =>
    exact .keyword word (longest_before word_free longest.1 more) same
  | identifier longest different =>
    exact .identifier (longest_before word_free longest.1 more) different
  | int longest digits _ bound same =>
    exact .int (longest_before number_free longest.1 more) digits (unlettered_apart apart more)
      bound same
  | float longest whole fraction _ nearest =>
    exact .float (longest_before number_free longest.1 more) whole fraction
      (unlettered_apart apart more) nearest
  | string clear => exact .string clear
  | joined member => exact .joined member
  | alone member _ => exact .alone member (other (by simp))
  | single member => exact .single member
  | slash _ => exact .slash (other (by simp))

theorem Lexes.text_ne_nil (lexes : Lexes text rest kind payload) : text ≠ [] := by
  obtain ⟨c, cs, _, read⟩ := lexes.first
  have some := Lexeme.first_text_ne_nil c cs
  rwa [read] at some

theorem Trivia.before_apart {run : List Char} (trivia : Trivia run (text ++ rest))
    (some : text ≠ []) {c : Char} (apart : Apart c) (more : List Char) :
    Trivia [] (text ++ c :: more) := by
  obtain ⟨first, others, rfl⟩ := List.exists_cons_of_ne_nil some
  refine .none ?_ ?_
  · rintro _ ⟨⟩
    exact trivia.noGap first rfl
  · intro comment
    cases others with
    | nil =>
      obtain ⟨_, second⟩ : '/' = first ∧ '/' = c := by simpa using comment
      exact apart.2.2 (by simp [← second])
    | cons second others => exact trivia.noComment (by simpa using comment)

theorem joinables_lexeme : ∀ entry ∈ joinables,
    entry.2.1.lexeme.toList = [entry.1] ∧ entry.2.2.lexeme.toList = [entry.1, '='] ∧
      entry.2.1 ≠ .newLine ∧ entry.2.2 ≠ .newLine := by decide

theorem singles_lexeme : ∀ entry ∈ singles,
    (if entry.2 = .newLine then "\n" else entry.2.lexeme).toList = [entry.1] := by decide

/-- Any token but a number is spelled as it was written, and an integer by its value. -/
theorem Lexes.spelling_cases (lexes : Lexes text rest kind payload) (line : UInt32)
    (notFloat : kind ≠ .float) :
    (Token.mk kind payload line).spelling.toList = text ∨
    ∃ value : Int64, kind = .int ∧ payload = .int value ∧ Digits text ∧
      decimalValue text < 2 ^ 63 ∧ value.toInt = (decimalValue text : Int) := by
  cases lexes with
  | keyword word _ same => exact .inl same.symm
  | identifier => exact .inl String.toList_ofList
  | @int _ _ value _ digits _ bound same => exact .inr ⟨value, rfl, rfl, digits, bound, same⟩
  | float => exact absurd rfl notFloat
  | @string contents _ _ =>
    left
    change ("\"" ++ String.ofList contents ++ "\"").toList = _
    simp
  | joined member =>
    left
    obtain ⟨_, joined, _, newline⟩ := joinables_lexeme _ member
    rw [Token.spelling, if_neg newline]
    exact joined
  | alone member _ =>
    left
    obtain ⟨alone, _, newline, _⟩ := joinables_lexeme _ member
    rw [Token.spelling, if_neg newline]
    exact alone
  | single member => exact .inl (singles_lexeme _ member)
  | slash _ =>
    left
    change "/".toList = ['/']
    decide

theorem spelling_int {value : Int64} {n : Nat} (same : value.toInt = n) (line : UInt32) :
    (Token.int value line).spelling.toList = Nat.toDigits 10 n := by
  change (toString value.toInt).toList = _
  rw [toList_toString_int, same, if_pos (Int.natCast_nonneg n), Int.toNat_natCast]

/-- The digits of a number in range are a lexeme for it. -/
theorem lexes_toDigits {value : Int64} {n : Nat} (bound : n < 2 ^ 63) (same : value.toInt = n)
    {c : Char} (apart : Apart c) (more : List Char) :
    Lexes (Nat.toDigits 10 n) (c :: more) .int (.int value) := by
  have digits := digits_toDigits n
  have read : decimalValue (Nat.toDigits 10 n) = n := by
    rw [decimalValue_eq, Nat.ofDigitChars_ten_toDigits]
  refine .int (longest_before (fun _ number => number.notMem apart) (.inl digits) more) digits
    (unlettered_apart apart more) ?_ ?_
  · rwa [read]
  · rwa [read]

theorem trivia_digits {digits : List Char} (some : Digits digits) (more : List Char) :
    Trivia [] (digits ++ more) := by
  obtain ⟨c, cs, rfl, digit⟩ := some.head
  apply Trivia.of_cons
  · rintro (rfl | rfl | rfl) <;> exact absurd digit (by decide)
  · rintro rfl
    exact absurd digit (by decide)

theorem Digits.count_newline {digits : List Char} (some : Digits digits) :
    digits.count '\n' = 0 :=
  List.count_eq_zero_of_not_mem (Number.notMem (.inl some) apart_newline)

/-- A token is scanned from its spelling as it was from its lexeme, on the same lines. -/
theorem Lexes.respelled {run : List Char} (lexes : Lexes text rest kind payload)
    (trivia : Trivia run (text ++ rest)) (notFloat : kind ≠ .float) (line : UInt32) {c : Char}
    (apart : Apart c) (more : List Char) :
    ∃ spelled, (Token.mk kind payload line).spelling.toList = spelled ∧
      Trivia [] (spelled ++ c :: more) ∧ Lexes spelled (c :: more) kind payload ∧
      spelled.count '\n' = text.count '\n' ∧
      spelled.dropLast.count '\n' = text.dropLast.count '\n' := by
  obtain same | ⟨value, rfl, rfl, digits, bound, same⟩ := lexes.spelling_cases line notFloat
  · exact ⟨text, same, trivia.before_apart lexes.text_ne_nil apart more,
      lexes.before_apart apart more, rfl, rfl⟩
  · have spelled := digits_toDigits (decimalValue text)
    have none {digits : List Char} (some : Digits digits) : digits.dropLast.count '\n' = 0 :=
      Nat.eq_zero_of_le_zero
        (some.count_newline ▸ (List.dropLast_sublist digits).count_le '\n')
    refine ⟨_, spelling_int same line, trivia_digits spelled _,
      lexes_toDigits bound same apart more, ?_, ?_⟩
    · rw [spelled.count_newline, digits.count_newline]
    · rw [none spelled, none digits]

theorem Splits.gap {line : Nat} {tokens : List Token} (splits : Splits line text tokens) {c : Char}
    (gap : Gap c) : Splits line (c :: text) tokens := by
  cases splits with
  | done trivia => exact .done (.gap gap trivia)
  | next trivia lexes later => exact .next (.gap gap trivia) lexes later

theorem Splits.normalText {line : Nat} {tokens : List Token} (splits : Splits line text tokens)
    (noFloat : ∀ token ∈ tokens, token.kind ≠ .float) :
    Splits line (normalText tokens).toList tokens := by
  induction splits with
  | done => exact .done (.none nofun (by simp))
  | @next line run text rest kind payload tokens trivia lexes _ ih =>
    have space : Gap ' ' := .inl rfl
    obtain ⟨notFloat, others⟩ := List.forall_mem_cons.mp noFloat
    obtain ⟨spelled, same, trivia, lexes, lines, before⟩ :=
      lexes.respelled trivia notFloat (UInt32.ofNat (line + text.dropLast.count '\n'))
        space.apart (ScriptFront.normalText tokens).toList
    have whole : (ScriptFront.normalText
        (⟨kind, payload, UInt32.ofNat (line + text.dropLast.count '\n')⟩ :: tokens)).toList =
        [] ++ (spelled ++ ' ' :: (ScriptFront.normalText tokens).toList) := by
      rw [ScriptFront.normalText, if_neg lexes.kind_ne, String.toList_append,
        String.toList_append, same]
      simp
    -- The space behind a token belongs to the trivia of the next one.
    rw [whole, ← before]
    exact .next trivia lexes (lines ▸ (ih others).gap space)

end Lexical

theorem scanned_normalText {source : String} {file : Option String} {tokens : List Token}
    (read : tokenize source file = .ok tokens)
    (noFloat : ∀ token ∈ tokens, token.kind ≠ .float) (label : Option String) :
    tokenize (normalText tokens) label = .ok tokens := by
  have splits : Lexical.Splits 1 source.toList tokens := .of_scanAll rfl read
  exact (splits.normalText noFloat).scanAll rfl rfl

/-- Printing tokens and scanning again changes nothing. The normal form of a source without
floats is scanned to the tokens of the source, line by line, under any label; it is its own
normal form, and sources have the same one only if they have the same tokens. -/
theorem tokenize_normalText (source : String) (file : Option String) (tokens : List Token)
    (read : tokenize source file = .ok tokens)
    (noFloat : ∀ token ∈ tokens, token.kind ≠ .float) (label : Option String) :
    tokenize (normalText tokens) label = .ok tokens ∧
    (tokenize (normalText tokens) label).map normalText = .ok (normalText tokens) ∧
    ∀ other tokens', tokenize other label = .ok tokens' →
      (∀ token ∈ tokens', token.kind ≠ .float) → normalText tokens' = normalText tokens →
      tokens' = tokens := by
  have same := scanned_normalText read noFloat label
  refine ⟨same, by rw [same]; rfl, ?_⟩
  intro other tokens' readOther noFloat' alike
  have sameOther := scanned_normalText readOther noFloat' label
  rw [alike] at sameOther
  exact Except.ok.inj (sameOther.symm.trans same)

/-- A source with a comment, a tab, zeros before a number and spaces in a string. -/
def looseLayout : String := "x=007 // seven\r\n\t\"a  b\"!=y"

theorem normalText_looseLayout :
    ∃ tokens, tokenize looseLayout none = .ok tokens ∧
      normalText tokens = "x = 7 \n \"a  b\" != y " ∧
      tokenize "x = 7 \n \"a  b\" != y " none = .ok tokens := by
  have read : tokenize looseLayout none =
      .ok [.identifier "x" 1, .bare .assignment 1, .int 7 1, .bare .newLine 1, .string "a  b" 2,
        .bare .notEquals 2, .identifier "y" 2, .bare .endOfInput 2] := by
    decide +kernel
  have text : normalText [.identifier "x" 1, .bare .assignment 1, .int 7 1, .bare .newLine 1,
      .string "a  b" 2, .bare .notEquals 2, .identifier "y" 2, .bare .endOfInput 2] =
      "x = 7 \n \"a  b\" != y " := by
    decide +kernel
  obtain ⟨again, _⟩ := tokenize_normalText looseLayout none _ read (by decide) none
  rw [text] at again
  exact ⟨_, read, text, again⟩

end ScriptFront
