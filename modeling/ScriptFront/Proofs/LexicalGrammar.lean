import Mathlib.Data.List.TakeWhile
import Mathlib.Data.Nat.Digits.Defs
import ScriptFront.Lexer
import ScriptFront.Proofs.NearestEven

/-! The lexical grammar. A source is split into lexemes with trivia between them; words
and numbers are the longest that fit, trivia runs are maximal, and every other lexeme
is decided by the character after it. Tokenizing succeeds exactly on the sources
that can be split so, with the tokens of the split. -/
namespace ScriptFront.Lexical

def Letter (c : Char) : Prop := ('A' ≤ c ∧ c ≤ 'Z') ∨ ('a' ≤ c ∧ c ≤ 'z') ∨ c = '_'

def Digit (c : Char) : Prop := '0' ≤ c ∧ c ≤ '9'

def Gap (c : Char) : Prop := c = ' ' ∨ c = '\t' ∨ c = '\r'

/-- The texts `[A-Za-z_][A-Za-z0-9_]*`. -/
def Word (text : List Char) : Prop :=
  ∃ first more, text = first :: more ∧ Letter first ∧ ∀ c ∈ more, Letter c ∨ Digit c

/-- The texts `[0-9]+`. -/
def Digits (text : List Char) : Prop := text ≠ [] ∧ ∀ c ∈ text, Digit c

/-- The texts `[0-9]+(\.[0-9]+)?`. -/
def Number (text : List Char) : Prop :=
  Digits text ∨ ∃ whole fraction, text = whole ++ '.' :: fraction ∧ Digits whole ∧ Digits fraction

/-- The text is of the language, and no longer piece at the same place is. -/
def Longest (language : List Char → Prop) (text rest : List Char) : Prop :=
  language text ∧
    ∀ longer more, longer ++ more = text ++ rest → language longer → longer.length ≤ text.length

/-- The value of decimal digits, the last of them counting ones. -/
def decimalValue (digits : List Char) : Nat :=
  Nat.ofDigits 10 (digits.reverse.map fun c => c.toNat - '0'.toNat)

def Unlettered (rest : List Char) : Prop := ∀ c, rest.head? = some c → ¬ Letter c

/-- A maximal run of gaps and comments before the rest. A comment reaches up to the next
newline or the end, so nothing but that follows it. -/
inductive Trivia : List Char → List Char → Prop where
  | none {rest} : (∀ c, rest.head? = some c → ¬ Gap c) → ¬ ['/', '/'] <+: rest → Trivia [] rest
  | gap {c run rest} : Gap c → Trivia run rest → Trivia (c :: run) rest
  | comment {body rest} : '\n' ∉ body → (∀ c, rest.head? = some c → c = '\n') →
      Trivia ('/' :: '/' :: body) rest

/-- The symbols that mean the same whatever follows. -/
def singles : List (Char × TokenKind) :=
  [('(', .openParen), (')', .closeParen), (';', .semicolon), (':', .colon), (',', .comma),
   ('+', .plus), ('-', .dash), ('*', .star), ('\n', .newLine)]

/-- The symbols that an equals sign may join, with their kinds alone and joined. -/
def joinables : List (Char × TokenKind × TokenKind) :=
  [('=', .assignment, .equals), ('!', .not, .notEquals), ('<', .less, .lessEquals),
   ('>', .greater, .greaterEquals)]

/-- The text, with the rest after it, is a lexeme of the kind and payload. An integer has the
value of its digits, and a float the number nearest to its decimal. -/
inductive Lexes : List Char → List Char → TokenKind → Payload → Prop where
  | keyword {text rest} (word : Keyword) : Longest Word text rest →
      text = word.spelling.toList → Lexes text rest (.keyword word) .absent
  | identifier {text rest} : Longest Word text rest →
      (∀ word : Keyword, text ≠ word.spelling.toList) →
      Lexes text rest .identifier (.text (String.ofList text))
  | int {text rest} {value : Int64} : Longest Number text rest → Digits text → Unlettered rest →
      decimalValue text < 2 ^ 63 → value.toInt = (decimalValue text : Int) →
      Lexes text rest .int (.int value)
  | float {whole fraction rest} {value : Binary64} :
      Longest Number (whole ++ '.' :: fraction) rest →
      Digits whole → Digits fraction → Unlettered rest →
      value.NearestEven (decimalValue (whole ++ fraction) / 10 ^ fraction.length) →
      Lexes (whole ++ '.' :: fraction) rest .float (.float value)
  | string {contents rest} : '"' ∉ contents →
      Lexes ('"' :: contents ++ ['"']) rest .string (.text (String.ofList contents))
  | joined {c alone joined rest} : (c, alone, joined) ∈ joinables →
      Lexes [c, '='] rest joined .absent
  | alone {c alone joined rest} : (c, alone, joined) ∈ joinables → rest.head? ≠ some '=' →
      Lexes [c] rest alone .absent
  | single {c kind rest} : (c, kind) ∈ singles → Lexes [c] rest kind .absent
  | slash {rest} : rest.head? ≠ some '/' → Lexes ['/'] rest .slash .absent

/-- The text, from the given line on, is split into trivia and lexemes that make the tokens.
A token is on the line of its last character. -/
inductive Splits : Nat → List Char → List Token → Prop where
  | done {line run} : Trivia run [] → Splits line run [.bare .endOfInput (UInt32.ofNat line)]
  | next {line run text rest kind payload tokens} :
      Trivia run (text ++ rest) → Lexes text rest kind payload →
      Splits (line + text.count '\n') rest tokens →
      Splits line (run ++ (text ++ rest))
        (⟨kind, payload, UInt32.ofNat (line + text.dropLast.count '\n')⟩ :: tokens)

theorem letter_iff {c : Char} : Lexeme.isLetter c ↔ Letter c := by
  have upper : c.isUpper ↔ 'A' ≤ c ∧ c ≤ 'Z' := decide_eq_true_iff
  have lower : c.isLower ↔ 'a' ≤ c ∧ c ≤ 'z' :=
    Bool.and_eq_true_iff.trans (and_congr decide_eq_true_iff decide_eq_true_iff)
  have alpha : c.isAlpha = (c.isUpper || c.isLower) := rfl
  simp only [Letter, Lexeme.isLetter, alpha, Bool.or_eq_true, upper, lower, beq_iff_eq, or_assoc]

theorem digit_iff {c : Char} : c.isDigit ↔ Digit c := by
  simp [Digit, Char.isDigit, Char.le_def]

theorem wordChar_iff {c : Char} : Lexeme.isWordChar c ↔ Letter c ∨ Digit c := by
  simp [Lexeme.isWordChar, letter_iff, digit_iff]

theorem gap_iff {c : Char} : Lexeme.isGap c ↔ Gap c := by
  simp [Gap, Lexeme.isGap, or_assoc]

theorem Digit.not_letter {c : Char} (digit : Digit c) : ¬ Letter c := by
  rintro (⟨low, _⟩ | ⟨low, _⟩ | rfl)
  · exact absurd (Char.le_trans low digit.2) (by decide)
  · exact absurd (Char.le_trans low digit.2) (by decide)
  · exact absurd digit.2 (by decide)

theorem decimalValue_eq (digits : List Char) :
    decimalValue digits = Nat.ofDigitChars 10 digits 0 := by
  induction digits with
  | nil => rfl
  | cons c digits ih =>
    rw [Nat.ofDigitChars_cons, Nat.ofDigitChars_eq_ofDigitChars_zero, ← ih]
    simp only [decimalValue, List.reverse_cons, List.map_append, List.map_cons, List.map_nil,
      Nat.ofDigits_append, Nat.ofDigits_singleton, List.length_map, List.length_reverse,
      Nat.mul_zero, Nat.zero_add]
    exact Nat.add_comm _ _

namespace Longest

variable {language : List Char → Prop} {text rest text' rest' : List Char}

theorem unique (longest : Longest language text rest) (other : Longest language text' rest')
    (same : text ++ rest = text' ++ rest') : text = text' ∧ rest = rest' := by
  have le := other.2 text rest same longest.1
  have ge := longest.2 text' rest' same.symm other.1
  exact List.append_inj same (Nat.le_antisymm le ge)

end Longest

theorem bne_of_notMem {stop : Char} {text : List Char} (clear : stop ∉ text) :
    ∀ c ∈ text, (c != stop) = true := by
  intro c member
  exact bne_iff_ne.mpr fun same => clear (same ▸ member)

theorem le_takeWhile {p : Char → Bool} {text more : List Char} (all : ∀ c ∈ text, p c) :
    text.length ≤ ((text ++ more).takeWhile p).length := by
  rw [List.takeWhile_append_of_pos all, List.length_append]
  exact Nat.le_add_right _ _

/-- The word characters at a place where a letter stands are the longest word there. -/
theorem longest_word {c : Char} {cs : List Char} (letter : Letter c) :
    Longest Word ((c :: cs).takeWhile Lexeme.isWordChar)
      ((c :: cs).dropWhile Lexeme.isWordChar) := by
  have first : Lexeme.isWordChar c := wordChar_iff.mpr (.inl letter)
  constructor
  · refine ⟨c, cs.takeWhile Lexeme.isWordChar, List.takeWhile_cons_of_pos first, letter, ?_⟩
    intro d member
    exact wordChar_iff.mp (List.all_eq_true.mp List.all_takeWhile d member)
  · rintro longer more same ⟨first, others, rfl, head, tail⟩
    rw [List.takeWhile_append_dropWhile] at same
    rw [← same]
    apply le_takeWhile
    intro d member
    apply wordChar_iff.mpr
    rcases List.mem_cons.mp member with rfl | member
    · exact .inl head
    · exact tail d member

theorem takeWhile_digits {text : List Char} (digits : ∀ c ∈ text, Digit c) (more : List Char) :
    (text ++ '.' :: more).takeWhile Char.isDigit = text ∧
      (text ++ '.' :: more).dropWhile Char.isDigit = '.' :: more := by
  have all : ∀ c ∈ text, c.isDigit := fun c member => digit_iff.mpr (digits c member)
  rw [List.takeWhile_append_of_pos all, List.dropWhile_append_of_pos all]
  exact ⟨List.append_nil text, rfl⟩

theorem Digits.of_all {text : List Char} (some : text ≠ [])
    (all : text.all Char.isDigit = true) : Digits text :=
  ⟨some, fun c member => digit_iff.mp (List.all_eq_true.mp all c member)⟩

theorem digits_takeWhile {c : Char} (digit : Digit c) (cs : List Char) :
    Digits ((c :: cs).takeWhile Char.isDigit) := by
  constructor
  · rw [List.takeWhile_cons_of_pos (digit_iff.mpr digit)]
    exact List.cons_ne_nil _ _
  · intro d member
    exact digit_iff.mp (List.all_eq_true.mp List.all_takeWhile d member)

theorem fractionDigits_digit (cs : List Char) : ∀ c ∈ Lexeme.fractionDigits cs, Digit c := by
  intro c member
  unfold Lexeme.fractionDigits at member
  split at member
  · exact digit_iff.mp (List.all_eq_true.mp List.all_takeWhile c member)
  · cases member

/-- The digits at a place where a digit stands, with the fraction that follows if there
is one, are the longest number there. -/
theorem longest_number {c : Char} {cs : List Char} (digit : Digit c) :
    Longest Number (Lexeme.ofNumber (c :: cs)).text (Lexeme.ofNumber (c :: cs)).rest := by
  have split := Lexeme.ofNumber_split (c :: cs)
  constructor
  · have whole := digits_takeWhile digit cs
    simp only [Lexeme.ofNumber, Lexeme.numberText, List.isEmpty_iff]
    split
    · exact .inl whole
    · rename_i present
      exact .inr ⟨_, _, rfl, whole, present, fractionDigits_digit _⟩
  · intro longer more same number
    rw [split] at same
    rw [← same]
    obtain digits | ⟨whole, fraction, rfl, first, last⟩ := number
    · have enough : longer.length ≤ ((longer ++ more).takeWhile Char.isDigit).length :=
        le_takeWhile fun d member => digit_iff.mpr (digits.2 d member)
      apply Nat.le_trans enough
      simp only [Lexeme.ofNumber, Lexeme.numberText]
      split <;> simp
    · obtain ⟨take, drop⟩ := takeWhile_digits first.2 (fraction ++ more)
      have enough : fraction.length ≤ ((fraction ++ more).takeWhile Char.isDigit).length :=
        le_takeWhile fun d member => digit_iff.mpr (last.2 d member)
      have positive := List.length_pos_iff.mpr last.1
      simp only [Lexeme.ofNumber, Lexeme.numberText, List.append_assoc, List.cons_append, take,
        drop, Lexeme.fractionDigits]
      rw [if_neg]
      · simp only [List.length_append, List.length_cons]
        omega
      · rw [List.isEmpty_iff, ← List.length_eq_zero_iff]
        omega

theorem numberContent_lexes {whole fraction rest : List Char} {kind : TokenKind} {payload : Payload}
    (longest : Longest Number (Lexeme.numberText whole fraction) rest)
    (digits : Digits whole) (parts : ∀ c ∈ fraction, Digit c)
    (read : Lexeme.numberContent whole fraction rest.head? = .ok (kind, payload)) :
    Lexes (Lexeme.numberText whole fraction) rest kind payload := by
  unfold Lexeme.numberContent at read
  split at read
  · cases read
  · rename_i clear
    have unlettered : Unlettered rest := by
      intro c head letter
      rw [head, Option.filter_some, if_pos (letter_iff.mpr letter)] at clear
      cases clear
    by_cases empty : fraction = []
    · subst empty
      simp only [List.isEmpty_nil, if_true] at read
      split at read
      · rename_i bound
        cases read
        rw [← decimalValue_eq] at bound ⊢
        exact .int longest digits unlettered bound (Int64.toInt_ofNat_of_lt bound)
      · cases read
    · have present : fraction.isEmpty = false := by simpa using empty
      simp only [present, Bool.false_eq_true, if_false] at read
      cases read
      rw [Lexeme.numberText, present, if_neg Bool.false_ne_true] at longest ⊢
      rw [← decimalValue_eq]
      exact .float longest digits ⟨empty, parts⟩ unlettered (Binary64.nearestEven_div_iff.mpr rfl)

theorem wordContent_lexes {text rest : List Char} {kind : TokenKind} {payload : Payload}
    (longest : Longest Word text rest)
    (read : Lexeme.wordContent (String.ofList text) = (kind, payload)) :
    Lexes text rest kind payload := by
  unfold Lexeme.wordContent at read
  split at read
  · rename_i word found
    cases read
    have same := List.find?_some found
    apply Lexes.keyword word longest
    rw [eq_of_beq same, String.toList_ofList]
  · rename_i missing
    cases read
    apply Lexes.identifier longest
    intro word same
    have different := List.find?_eq_none.mp missing word word.mem_all
    rw [same, String.ofList_toList] at different
    exact different (beq_self_eq_true _)

theorem single?_eq_some {c : Char} {kind : TokenKind} :
    Lexeme.single? c = some kind ↔ (c, kind) ∈ singles ∨ c = '/' ∧ kind = .slash := by
  unfold Lexeme.single?
  split <;> simp_all [singles, eq_comm]

theorem joinable?_eq_some {c : Char} {alone joined : TokenKind} :
    Lexeme.joinable? c = some (alone, joined) ↔ (c, alone, joined) ∈ joinables := by
  unfold Lexeme.joinable?
  split <;> simp_all [joinables, eq_comm]

theorem ofSymbol_single {c : Char} {kind : TokenKind} (single : Lexeme.single? c = some kind)
    (cs : List Char) : Lexeme.ofSymbol c cs = ⟨[c], cs, .ok (kind, .absent)⟩ := by
  simp only [Lexeme.ofSymbol, single]

theorem ofSymbol_joined {c : Char} {alone joined : TokenKind} (single : Lexeme.single? c = none)
    (joinable : Lexeme.joinable? c = some (alone, joined)) (rest : List Char) :
    Lexeme.ofSymbol c ('=' :: rest) = ⟨[c, '='], rest, .ok (joined, .absent)⟩ := by
  simp only [Lexeme.ofSymbol, single, joinable]

theorem ofSymbol_alone {c : Char} {alone joined : TokenKind} (single : Lexeme.single? c = none)
    (joinable : Lexeme.joinable? c = some (alone, joined)) {cs : List Char}
    (next : cs.head? ≠ some '=') :
    Lexeme.ofSymbol c cs = ⟨[c], cs, .ok (alone, .absent)⟩ := by
  simp only [Lexeme.ofSymbol, single, joinable]
  split
  · exact absurd rfl next
  · rfl

theorem ofSymbol_lexes {c : Char} {cs : List Char} {kind : TokenKind} {payload : Payload}
    (noComment : ¬ ['/', '/'] <+: c :: cs)
    (read : (Lexeme.ofSymbol c cs).content = .ok (kind, payload)) :
    Lexes (Lexeme.ofSymbol c cs).text (Lexeme.ofSymbol c cs).rest kind payload := by
  cases single : Lexeme.single? c with
  | some found =>
    rw [ofSymbol_single single] at read ⊢
    cases read
    obtain member | ⟨rfl, rfl⟩ := single?_eq_some.mp single
    · exact .single member
    · apply Lexes.slash
      intro slash
      apply noComment
      obtain ⟨more, rfl⟩ := List.head?_eq_some_iff.mp slash
      exact ⟨more, rfl⟩
  | none =>
    cases joinable : Lexeme.joinable? c with
    | none =>
      simp only [Lexeme.ofSymbol, single, joinable] at read
      cases read
    | some kinds =>
      obtain ⟨alone, joined⟩ := kinds
      have member := joinable?_eq_some.mp joinable
      by_cases next : cs.head? = some '='
      · obtain ⟨rest, rfl⟩ := List.head?_eq_some_iff.mp next
        rw [ofSymbol_joined single joinable] at read ⊢
        cases read
        exact .joined member
      · rw [ofSymbol_alone single joinable next] at read ⊢
        cases read
        exact .alone member next

theorem ofString_eq {contents : List Char} (clear : '"' ∉ contents) (rest : List Char) :
    Lexeme.ofString (contents ++ '"' :: rest) =
      ⟨'"' :: contents ++ ['"'], rest, .ok (.string, .text (String.ofList contents))⟩ := by
  have inside := bne_of_notMem clear
  simp only [Lexeme.ofString, List.takeWhile_append_of_pos inside,
    List.dropWhile_append_of_pos inside]
  simp

theorem ofString_lexes {cs : List Char} {kind : TokenKind} {payload : Payload}
    (read : (Lexeme.ofString cs).content = .ok (kind, payload)) :
    Lexes (Lexeme.ofString cs).text (Lexeme.ofString cs).rest kind payload := by
  by_cases closed : '"' ∈ cs
  · obtain ⟨contents, rest, rfl, clear⟩ := List.eq_append_cons_of_mem closed
    rw [ofString_eq clear] at read ⊢
    cases read
    exact .string clear
  · have all : cs.dropWhile (· != '"') = [] :=
      List.dropWhile_eq_nil_iff.mpr (bne_of_notMem closed)
    simp only [Lexeme.ofString, all] at read
    cases read

/-- The lexeme at the front of a text that starts no comment is one of the grammar. -/
theorem first_lexes {c : Char} {cs : List Char} {kind : TokenKind} {payload : Payload}
    (noComment : ¬ ['/', '/'] <+: c :: cs)
    (read : (Lexeme.first c cs).content = .ok (kind, payload)) :
    Lexes (Lexeme.first c cs).text (Lexeme.first c cs).rest kind payload := by
  unfold Lexeme.first at read ⊢
  by_cases letter : Lexeme.isLetter c
  · rw [if_pos letter] at read ⊢
    exact wordContent_lexes (longest_word (letter_iff.mp letter)) (Except.ok.inj read)
  · rw [if_neg letter] at read ⊢
    by_cases digit : c.isDigit
    · rw [if_pos digit] at read ⊢
      have digit := digit_iff.mp digit
      exact numberContent_lexes (longest_number digit) (digits_takeWhile digit cs)
        (fractionDigits_digit _) read
    · rw [if_neg digit] at read ⊢
      by_cases quote : c = '"'
      · rw [if_pos quote] at read ⊢
        exact ofString_lexes read
      · rw [if_neg quote] at read ⊢
        exact ofSymbol_lexes noComment read

theorem first_of_symbol {c : Char} (letter : ¬ Letter c) (digit : ¬ Digit c) (quote : c ≠ '"')
    (cs : List Char) : Lexeme.first c cs = Lexeme.ofSymbol c cs := by
  rw [Lexeme.first, if_neg (letter_iff.not.mpr letter), if_neg (digit_iff.not.mpr digit),
    if_neg quote]

instance (c : Char) : Decidable (Letter c) := decidable_of_iff _ letter_iff

instance (c : Char) : Decidable (Digit c) := decidable_of_iff _ digit_iff

/-- No lexeme goes on with the character: it is of no word or number and joins no symbol. -/
def Apart (c : Char) : Prop := ¬ Letter c ∧ ¬ Digit c ∧ c ∉ ['.', '=', '/']

instance (c : Char) : Decidable (Apart c) :=
  inferInstanceAs (Decidable (¬ Letter c ∧ ¬ Digit c ∧ c ∉ ['.', '=', '/']))

theorem apart_newline : Apart '\n' := by decide

theorem newlines_eq_zero {text : List Char} (clear : '\n' ∉ text) : Lexer.newlines text = 0 := by
  rw [Lexer.newlines, List.count_eq_zero_of_not_mem clear]
  rfl

theorem newlines_append (text more : List Char) :
    Lexer.newlines (text ++ more) = Lexer.newlines text + Lexer.newlines more := by
  rw [Lexer.newlines, List.count_append, UInt32.ofNat_add]
  rfl

theorem Gap.apart {c : Char} (gap : Gap c) : Apart c := by
  rcases gap with rfl | rfl | rfl <;> decide

theorem Word.notMem {text : List Char} (word : Word text) {c : Char} (apart : Apart c) :
    c ∉ text := by
  obtain ⟨first, more, rfl, letter, others⟩ := word
  intro member
  rcases List.mem_cons.mp member with rfl | member
  · exact apart.1 letter
  · exact (others c member).elim apart.1 apart.2.1

theorem Number.notMem {text : List Char} (number : Number text) {c : Char} (apart : Apart c) :
    c ∉ text := by
  intro member
  obtain digits | ⟨whole, fraction, rfl, first, last⟩ := number
  · exact apart.2.1 (digits.2 c member)
  · rcases List.mem_append.mp member with member | member
    · exact apart.2.1 (first.2 c member)
    · rcases List.mem_cons.mp member with rfl | member
      · exact apart.2.2 List.mem_cons_self
      · exact apart.2.1 (last.2 c member)

theorem first_word {text rest : List Char} (longest : Longest Word text rest) :
    ∃ c cs, text ++ rest = c :: cs ∧
      Lexeme.first c cs = ⟨text, rest, .ok (Lexeme.wordContent (String.ofList text))⟩ := by
  obtain ⟨c, more, rfl, letter, _⟩ := longest.1
  obtain ⟨take, drop⟩ := longest.unique (longest_word letter)
    (List.takeWhile_append_dropWhile (l := c :: (more ++ rest))).symm
  refine ⟨c, more ++ rest, rfl, ?_⟩
  rw [Lexeme.first, if_pos (letter_iff.mpr letter), Lexeme.ofWord, ← take, ← drop]

/-- The parts of a number can be read off its text. -/
theorem numberText_parts {whole fraction : List Char} (digits : ∀ c ∈ whole, Digit c)
    (parts : ∀ c ∈ fraction, Digit c) :
    (Lexeme.numberText whole fraction).takeWhile Char.isDigit = whole ∧
      Lexeme.fractionDigits ((Lexeme.numberText whole fraction).dropWhile Char.isDigit) =
        fraction := by
  have wholeDigits : ∀ c ∈ whole, c.isDigit := fun c member => digit_iff.mpr (digits c member)
  have fractionDigits : ∀ c ∈ fraction, c.isDigit := fun c member => digit_iff.mpr (parts c member)
  by_cases empty : fraction = []
  · subst empty
    simp only [Lexeme.numberText, List.isEmpty_nil, if_true]
    exact ⟨List.takeWhile_eq_self_iff.mpr wholeDigits,
      by rw [List.dropWhile_eq_nil_iff.mpr wholeDigits]; rfl⟩
  · obtain ⟨take, drop⟩ := takeWhile_digits digits fraction
    simp only [Lexeme.numberText, List.isEmpty_iff, if_neg empty]
    exact ⟨take, by rw [drop]; exact List.takeWhile_eq_self_iff.mpr fractionDigits⟩

theorem first_number {whole fraction rest : List Char}
    (longest : Longest Number (Lexeme.numberText whole fraction) rest) (digits : Digits whole)
    (parts : ∀ c ∈ fraction, Digit c) :
    ∃ c cs, Lexeme.numberText whole fraction ++ rest = c :: cs ∧
      Lexeme.first c cs = ⟨Lexeme.numberText whole fraction, rest,
        Lexeme.numberContent whole fraction rest.head?⟩ := by
  obtain ⟨c, more, first, digit⟩ : ∃ c more,
      Lexeme.numberText whole fraction ++ rest = c :: more ∧ Digit c := by
    obtain ⟨c, more, rfl⟩ := List.exists_cons_of_ne_nil digits.1
    unfold Lexeme.numberText
    split <;> exact ⟨c, _, rfl, digits.2 c List.mem_cons_self⟩
  refine ⟨c, more, first, ?_⟩
  rw [Lexeme.first, if_neg (letter_iff.not.mpr digit.not_letter), if_pos (digit_iff.mpr digit)]
  have split := Lexeme.ofNumber_split (c :: more)
  obtain ⟨text, left⟩ := longest.unique (longest_number digit) (first.trans split.symm)
  -- Equal texts have equal parts, so the number read is the one of the grammar.
  obtain ⟨wholeRead, fractionRead⟩ := numberText_parts (digits_takeWhile digit more).2
    (fractionDigits_digit ((c :: more).dropWhile Char.isDigit))
  obtain ⟨wholeGiven, fractionGiven⟩ := numberText_parts digits.2 parts
  rw [text] at wholeGiven fractionGiven
  have wholeSame := wholeRead.symm.trans wholeGiven
  have fractionSame := fractionRead.symm.trans fractionGiven
  have content : (Lexeme.ofNumber (c :: more)).content =
      Lexeme.numberContent whole fraction (Lexeme.ofNumber (c :: more)).rest.head? := by
    simp only [Lexeme.ofNumber, wholeSame, fractionSame]
  rw [text, left, ← content]

theorem filter_unlettered {rest : List Char} (unlettered : Unlettered rest) :
    rest.head?.filter Lexeme.isLetter = none := by
  cases head : rest.head? with
  | none => rfl
  | some c => simp [letter_iff, unlettered c head]

theorem singles_symbol :
    ∀ entry ∈ singles, ¬ Letter entry.1 ∧ ¬ Digit entry.1 ∧ entry.1 ≠ '"' := by decide

theorem joinables_symbol : ∀ entry ∈ joinables, ¬ Letter entry.1 ∧ ¬ Digit entry.1 ∧
    entry.1 ≠ '"' ∧ Lexeme.single? entry.1 = none := by decide

/-- A lexeme of the grammar is the one at the front of the text. -/
theorem Lexes.first {text rest : List Char} {kind : TokenKind} {payload : Payload}
    (lexes : Lexes text rest kind payload) :
    ∃ c cs, text ++ rest = c :: cs ∧
      Lexeme.first c cs = ⟨text, rest, .ok (kind, payload)⟩ := by
  cases lexes with
  | keyword word longest same =>
    obtain ⟨c, cs, whole, read⟩ := first_word longest
    refine ⟨c, cs, whole, ?_⟩
    rw [read, same, String.ofList_toList, Lexeme.wordContent, word.ofWord?_spelling]
  | identifier longest different =>
    obtain ⟨c, cs, whole, read⟩ := first_word longest
    refine ⟨c, cs, whole, ?_⟩
    have missing : Keyword.ofWord? (String.ofList text) = none := by
      apply List.find?_eq_none.mpr
      intro word _ same
      apply different word
      rw [eq_of_beq same, String.toList_ofList]
    rw [read, Lexeme.wordContent, missing]
  | @int _ _ value longest digits unlettered bound same =>
    have whole : Lexeme.numberText text [] = text := rfl
    rw [← whole] at longest ⊢
    obtain ⟨c, cs, front, read⟩ := first_number longest digits nofun
    refine ⟨c, cs, front, read.trans ?_⟩
    have value : Int64.ofNat (decimalValue text) = value :=
      Int64.toInt_inj.mp ((Int64.toInt_ofNat_of_lt bound).trans same.symm)
    have below : decimalValue text < Lexeme.intBound := bound
    simp only [Lexeme.numberContent, filter_unlettered unlettered, List.isEmpty_nil, if_true,
      ← decimalValue_eq, if_pos below, value]
  | @float whole fraction _ value longest digits parts unlettered nearest =>
    have present : fraction.isEmpty = false := by simpa using parts.1
    have text : Lexeme.numberText whole fraction = whole ++ '.' :: fraction := by
      rw [Lexeme.numberText, present, if_neg Bool.false_ne_true]
    rw [← text] at longest ⊢
    obtain ⟨c, cs, front, read⟩ := first_number longest digits parts.2
    refine ⟨c, cs, front, read.trans ?_⟩
    simp only [Lexeme.numberContent, filter_unlettered unlettered, present, Bool.false_eq_true,
      if_false, ← decimalValue_eq, Binary64.nearestEven_div_iff.mp nearest]
  | @string contents _ clear =>
    refine ⟨'"', contents ++ '"' :: rest, by simp, ?_⟩
    exact ofString_eq clear rest
  | @joined c _ _ _ member =>
    obtain ⟨letter, digit, quote, single⟩ := joinables_symbol _ member
    refine ⟨c, '=' :: rest, rfl, ?_⟩
    rw [first_of_symbol letter digit quote,
      ofSymbol_joined single (joinable?_eq_some.mpr member)]
  | @alone c _ _ _ member next =>
    obtain ⟨letter, digit, quote, single⟩ := joinables_symbol _ member
    refine ⟨c, rest, rfl, ?_⟩
    rw [first_of_symbol letter digit quote,
      ofSymbol_alone single (joinable?_eq_some.mpr member) next]
  | @single c _ _ member =>
    obtain ⟨letter, digit, quote⟩ := singles_symbol _ member
    refine ⟨c, rest, rfl, ?_⟩
    rw [first_of_symbol letter digit quote, ofSymbol_single (single?_eq_some.mpr (.inl member))]
  | slash _ => exact ⟨'/', rest, rfl, rfl⟩

theorem Lexes.kind_ne {text rest : List Char} {kind : TokenKind} {payload : Payload}
    (lexes : Lexes text rest kind payload) : kind ≠ .endOfInput := by
  cases lexes with
  | joined member | alone member =>
    rintro rfl
    revert member
    simp [joinables]
  | single member =>
    rintro rfl
    revert member
    simp [singles]
  | _ => exact nofun

namespace Trivia

variable {run rest : List Char}

theorem skipTrivia (trivia : Trivia run rest) : Lexeme.skipTrivia (run ++ rest) = rest := by
  induction trivia with
  | @none rest gap comment =>
    cases rest with
    | nil => rfl
    | cons c cs =>
      have notGap : ¬ Lexeme.isGap c := gap_iff.not.mpr (gap c rfl)
      have notComment : ¬ (c = '/' ∧ cs.head? = some '/') := by
        rintro ⟨rfl, next⟩
        obtain ⟨more, rfl⟩ := List.head?_eq_some_iff.mp next
        exact comment ⟨more, rfl⟩
      simp only [List.nil_append, Lexeme.skipTrivia, if_neg notGap, if_neg notComment]
  | gap gap _ ih =>
    simp only [List.cons_append, Lexeme.skipTrivia, if_pos (gap_iff.mpr gap), ih]
  | @comment body rest clear next =>
    have inside : ∀ c ∈ '/' :: body, (c != '\n') = true := by
      intro c member
      rcases List.mem_cons.mp member with rfl | member
      · rfl
      · exact bne_iff_ne.mpr fun same => clear (same ▸ member)
    have stop : rest.dropWhile (· != '\n') = rest := by
      cases rest with
      | nil => rfl
      | cons c cs =>
        rw [next c rfl]
        rfl
    calc Lexeme.skipTrivia ('/' :: '/' :: body ++ rest)
        = ('/' :: body ++ rest).dropWhile (· != '\n') := rfl
      _ = rest.dropWhile (· != '\n') := List.dropWhile_append_of_pos inside
      _ = rest := stop

theorem of_skipTrivia (cs : List Char) :
    ∃ run, cs = run ++ Lexeme.skipTrivia cs ∧ Trivia run (Lexeme.skipTrivia cs) := by
  induction cs with
  | nil => exact ⟨[], rfl, .none nofun (by decide)⟩
  | cons c cs ih =>
    simp only [Lexeme.skipTrivia]
    split
    · rename_i gap
      obtain ⟨run, split, trivia⟩ := ih
      exact ⟨c :: run, by rw [List.cons_append, ← split], .gap (gap_iff.mp gap) trivia⟩
    · rename_i notGap
      split
      · rename_i slashes
        obtain ⟨rfl, next⟩ := slashes
        obtain ⟨body, rfl⟩ := List.head?_eq_some_iff.mp next
        rw [List.dropWhile_cons_of_pos (by decide)]
        refine ⟨'/' :: '/' :: body.takeWhile (· != '\n'), ?_, .comment ?_ ?_⟩
        · rw [List.cons_append, List.cons_append, List.takeWhile_append_dropWhile]
        · intro inside
          exact absurd (List.mem_takeWhile_imp inside) (by decide)
        · intro c head
          have stop := List.head?_dropWhile_not (· != '\n') body
          rw [head] at stop
          simpa using stop
      · rename_i notComment
        refine ⟨[], rfl, .none ?_ ?_⟩
        · rintro d head
          cases Option.some.inj head
          exact gap_iff.not.mp notGap
        · rintro ⟨more, same⟩
          cases same
          exact notComment ⟨rfl, rfl⟩

theorem of_cons {c : Char} (gap : ¬ Gap c) (slash : c ≠ '/') (cs : List Char) :
    Trivia [] (c :: cs) := by
  refine .none ?_ ?_
  · rintro _ ⟨⟩
    exact gap
  · intro comment
    exact slash (List.cons_prefix_cons.mp comment).1.symm

theorem noComment (trivia : Trivia run rest) : ¬ ['/', '/'] <+: rest := by
  induction trivia with
  | none _ comment => exact comment
  | gap _ _ ih => exact ih
  | comment _ next =>
    rintro ⟨more, rfl⟩
    cases next '/' rfl

theorem noGap (trivia : Trivia run rest) : ∀ c, rest.head? = some c → ¬ Gap c := by
  induction trivia with
  | none gap _ => exact gap
  | gap _ _ ih => exact ih
  | comment _ next =>
    intro c head
    rw [next c head]
    simp [Gap]

theorem count_newline (trivia : Trivia run rest) :
    run.count '\n' = 0 := by
  induction trivia with
  | none => rfl
  | gap gap _ ih =>
    rw [List.count_cons, ih]
    rcases gap with rfl | rfl | rfl <;> rfl
  | comment clear _ =>
    rw [List.count_cons, List.count_cons, List.count_eq_zero_of_not_mem clear]
    rfl

end Trivia

/-- A step over the next lexeme of a split. -/
theorem step_eq {lexer : Lexer} {run text rest : List Char} {kind : TokenKind} {payload : Payload}
    (trivia : Trivia run (text ++ rest)) (lexes : Lexes text rest kind payload)
    (front : lexer.rest = run ++ (text ++ rest)) :
    lexer.step = (.ok ⟨kind, payload, lexer.line + Lexer.newlines text.dropLast⟩,
      lexer.pass text rest) := by
  obtain ⟨c, cs, same, first⟩ := lexes.first
  have skipped : Lexeme.skipTrivia lexer.rest = c :: cs := by
    rw [front, trivia.skipTrivia, same]
  simp only [Lexer.step, skipped, first, Lexer.locate]

theorem step_eq_end {lexer : Lexer} (trivia : Trivia lexer.rest []) :
    lexer.step = (.ok (.bare .endOfInput lexer.line), { lexer with rest := [] }) := by
  have skipped : Lexeme.skipTrivia lexer.rest = [] := by
    simpa using trivia.skipTrivia
  simp only [Lexer.step, skipped]

theorem scanAll_of_end {lexer next : Lexer} {token : Token} (step : lexer.step = (.ok token, next))
    (last : token.kind = .endOfInput) : lexer.scanAll = (.ok [token], next) := by
  rw [Lexer.scanAll]
  split
  · rename_i failed
    rw [step] at failed
    cases failed
  · rename_i read
    rw [step] at read
    cases read
    rw [dif_pos last]

theorem scanAll_eq_of_step {lexer next : Lexer} {token : Token}
    (step : lexer.step = (.ok token, next)) (more : token.kind ≠ .endOfInput) :
    lexer.scanAll = (next.scanAll.1.map (token :: ·), next.scanAll.2) := by
  rw [Lexer.scanAll]
  split
  · rename_i failed
    rw [step] at failed
    cases failed
  · rename_i read
    rw [step] at read
    cases read
    rw [dif_neg more]
    split <;> rename_i rest <;> rw [rest] <;> rfl

theorem scanAll_of_step {lexer next : Lexer} {token : Token} (step : lexer.step = (.ok token, next))
    (more : token.kind ≠ .endOfInput) :
    lexer.scanAll.1 = next.scanAll.1.map (token :: ·) := by
  rw [scanAll_eq_of_step step more]

theorem scanAll_eq_of_error {lexer next : Lexer} {d : Diagnostic}
    (step : lexer.step = (.error d, next)) : lexer.scanAll = (.error d, next) := by
  rw [Lexer.scanAll]
  split
  · rename_i failed
    rw [step] at failed
    cases failed
    rfl
  · rename_i read
    rw [step] at read
    cases read

theorem scanAll_of_error {lexer : Lexer} {d : Diagnostic} (failed : lexer.step.1 = .error d) :
    lexer.scanAll.1 = .error d := by
  rw [scanAll_eq_of_error (Prod.ext failed rfl)]

theorem Splits.scanAll {line : Nat} {text : List Char} {tokens : List Token}
    (splits : Splits line text tokens) {lexer : Lexer} (front : lexer.rest = text)
    (start : lexer.line = UInt32.ofNat line) : lexer.scanAll.1 = .ok tokens := by
  induction splits generalizing lexer with
  | done trivia =>
    rw [scanAll_of_end (step_eq_end (front ▸ trivia)) rfl, start]
  | @next line run text rest kind payload tokens trivia lexes _ ih =>
    have step := step_eq trivia lexes front
    have passed : (lexer.pass text rest).scanAll.1 = .ok tokens :=
      ih rfl (by rw [UInt32.ofNat_add, ← start]; rfl)
    rw [scanAll_of_step step lexes.kind_ne, passed, start, UInt32.ofNat_add]
    rfl

/-- Where a step finds a token, the text starts with trivia and a lexeme that makes it. -/
theorem step_cases {lexer : Lexer} {token : Token} (read : lexer.step.1 = .ok token) :
    Trivia lexer.rest [] ∨ ∃ run text rest kind payload, lexer.rest = run ++ (text ++ rest) ∧
      Trivia run (text ++ rest) ∧ Lexes text rest kind payload := by
  obtain ⟨run, split, trivia⟩ := Trivia.of_skipTrivia lexer.rest
  unfold Lexer.step at read
  split at read
  · rename_i front
    rw [front] at split trivia
    rw [split, List.append_nil]
    exact .inl trivia
  · rename_i c cs front
    rw [front] at split trivia
    simp only [Lexer.locate] at read
    split at read
    · rename_i kind payload content
      have lexes := first_lexes trivia.noComment content
      rw [← Lexeme.first_split c cs] at split trivia
      exact .inr ⟨_, _, _, _, _, split, trivia, lexes⟩
    · cases read

theorem Splits.of_scanAll {lexer : Lexer} {line : Nat} {tokens : List Token}
    (start : lexer.line = UInt32.ofNat line) (read : lexer.scanAll.1 = .ok tokens) :
    Splits line lexer.rest tokens := by
  induction size : lexer.rest.length using Nat.strongRecOn generalizing lexer line tokens with
  | ind size ih =>
    subst size
    cases found : lexer.step.1 with
    | error d =>
      rw [scanAll_of_error found] at read
      cases read
    | ok token =>
      obtain trivia | ⟨run, text, rest, kind, payload, front, trivia, lexes⟩ := step_cases found
      · rw [scanAll_of_end (step_eq_end trivia) rfl, start] at read
        cases read
        exact .done trivia
      · have step := step_eq trivia lexes front
        rw [scanAll_of_step step lexes.kind_ne] at read
        cases passed : (lexer.pass text rest).scanAll.1 with
        | error d =>
          rw [passed] at read
          cases read
        | ok more =>
          rw [passed] at read
          cases read
          have onLine : (lexer.pass text rest).line =
              UInt32.ofNat (line + text.count '\n') := by
            rw [UInt32.ofNat_add, ← start]
            rfl
          have splits : Splits (line + text.count '\n') rest more :=
            ih _ (Lexer.step_shorter step lexes.kind_ne) onLine passed rfl
          rw [front, start, Lexer.newlines, ← UInt32.ofNat_add]
          exact .next trivia lexes splits

/-- Tokenizing implements the lexical grammar: it succeeds exactly on the sources that
split into trivia and lexemes, with the tokens of the split. -/
theorem tokenize_eq_ok_iff (source : String) (file : Option String) (tokens : List Token) :
    tokenize source file = .ok tokens ↔ Splits 1 source.toList tokens := by
  constructor
  · intro read
    exact .of_scanAll rfl read
  · intro splits
    exact splits.scanAll rfl rfl

end ScriptFront.Lexical
