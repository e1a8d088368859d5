import ScriptFront.Proofs.LexicalGrammar

/-! Where scanning fails. What no lexeme can start with is of one of four forms, each with
its fault; an error is the one of the first such piece behind lexemes and trivia, and
every such piece is an error. -/
namespace ScriptFront.Lexical

/-- The characters that are a symbol or start one. -/
def symbols : List Char := ['(', ')', ';', ':', ',', '+', '-', '/', '*', '=', '!', '<', '>']

/-- The text starts with a piece that is no lexeme, by the given fault. A number that a
letter touches is malformed whatever its value. -/
inductive Illegal : List Char → Fault → Prop where
  | unrecognised {c rest} : ¬ Letter c → ¬ Digit c → ¬ Gap c → c ≠ '\n' → c ≠ '"' →
      c ∉ symbols → Illegal (c :: rest) (.unrecognisedToken (String.singleton c))
  | unterminated {text} : '"' ∉ text → Illegal ('"' :: text) .unterminatedString
  | malformed {number c rest} : Longest Number number (c :: rest) → Letter c →
      Illegal (number ++ c :: rest) (.malformedNumber (String.ofList (number ++ [c])))
  | outOfRange {digits rest} : Longest Number digits rest → Digits digits → Unlettered rest →
      2 ^ 63 ≤ decimalValue digits →
      Illegal (digits ++ rest) (.numberOutOfRange (String.ofList digits))

/-- The text is split into trivia and lexemes as they are with the rest after it. -/
inductive SplitsBefore : List Char → List Char → Prop where
  | done {run rest} : Trivia run rest → SplitsBefore run rest
  | next {run text passed rest kind payload} :
      Trivia run (text ++ (passed ++ rest)) → Lexes text (passed ++ rest) kind payload →
      SplitsBefore passed rest → SplitsBefore (run ++ (text ++ passed)) rest

/-- The newlines before the line of a fault in the rest: a string that does not end is
reported on the last line, any other fault where it stands. -/
def newlinesBefore (fault : Fault) (passed rest : List Char) : Nat :=
  if fault = .unterminatedString then (passed ++ rest).count '\n' else passed.count '\n'

theorem newlinesBefore_append (fault : Fault) (before passed rest : List Char) :
    newlinesBefore fault (before ++ passed) rest =
      before.count '\n' + newlinesBefore fault passed rest := by
  unfold newlinesBefore
  split <;> simp only [List.append_assoc, List.count_append]

theorem newlinesBefore_le (fault : Fault) (passed rest : List Char) :
    newlinesBefore fault passed rest ≤ (passed ++ rest).count '\n' := by
  unfold newlinesBefore
  split
  · exact Nat.le_refl _
  · exact (List.sublist_append_left passed rest).count_le '\n'

theorem Number.parts {text : List Char} (number : Number text) :
    ∃ whole fraction, text = Lexeme.numberText whole fraction ∧ Digits whole ∧
      ∀ c ∈ fraction, Digit c := by
  obtain digits | ⟨whole, fraction, rfl, digits, parts⟩ := number
  · exact ⟨text, [], rfl, digits, List.forall_mem_nil _⟩
  · have present : ¬ fraction.isEmpty := by simpa using parts.1
    exact ⟨whole, fraction, by rw [Lexeme.numberText, if_neg present], digits, parts.2⟩

theorem numberContent_illegal {whole fraction rest : List Char} {fault : Fault}
    (longest : Longest Number (Lexeme.numberText whole fraction) rest) (digits : Digits whole)
    (failed : Lexeme.numberContent whole fraction rest.head? = .error fault) :
    Illegal (Lexeme.numberText whole fraction ++ rest) fault := by
  unfold Lexeme.numberContent at failed
  split at failed
  · rename_i c touches
    cases failed
    obtain ⟨head, letter⟩ := Option.filter_eq_some_iff.mp touches
    obtain ⟨more, rfl⟩ := List.head?_eq_some_iff.mp head
    exact .malformed longest (letter_iff.mp letter)
  · rename_i clear
    have unlettered : Unlettered rest := by
      intro c head letter
      rw [head, Option.filter_some, if_pos (letter_iff.mpr letter)] at clear
      cases clear
    split at failed
    · rename_i empty
      obtain rfl : fraction = [] := List.isEmpty_iff.mp empty
      dsimp only at failed
      split at failed
      · cases failed
      · rename_i large
        cases failed
        rw [← decimalValue_eq] at large
        exact .outOfRange longest digits unlettered (Nat.le_of_not_lt large)
    · cases failed

theorem ofString_illegal {cs : List Char} {fault : Fault}
    (failed : (Lexeme.ofString cs).content = .error fault) : Illegal ('"' :: cs) fault := by
  by_cases closed : '"' ∈ cs
  · obtain ⟨contents, rest, rfl, clear⟩ := List.eq_append_cons_of_mem closed
    rw [ofString_eq clear] at failed
    cases failed
  · unfold Lexeme.ofString at failed
    dsimp only at failed
    split at failed
    · cases failed
      exact .unterminated closed
    · cases failed

theorem ofString_unterminated {cs : List Char} (clear : '"' ∉ cs) :
    Lexeme.ofString cs = ⟨'"' :: cs, [], .error .unterminatedString⟩ := by
  have inside := bne_of_notMem clear
  simp only [Lexeme.ofString, List.dropWhile_eq_nil_iff.mpr inside,
    List.takeWhile_eq_self_iff.mpr inside]

theorem singles_symbols : ∀ entry ∈ singles, entry.1 = '\n' ∨ entry.1 ∈ symbols := by decide

theorem joinables_symbols : ∀ entry ∈ joinables, entry.1 ∈ symbols := by decide

theorem symbols_known {c : Char} (member : c ∈ '\n' :: symbols) :
    (Lexeme.single? c).isSome ∨ (Lexeme.joinable? c).isSome := by
  have all : ('\n' :: symbols).all
      (fun c => (Lexeme.single? c).isSome || (Lexeme.joinable? c).isSome) = true := by decide
  simpa using List.all_eq_true.mp all c member

theorem ofSymbol_unrecognised {c : Char} (newline : c ≠ '\n') (other : c ∉ symbols)
    (cs : List Char) :
    Lexeme.ofSymbol c cs = ⟨[c], cs, .error (.unrecognisedToken (String.singleton c))⟩ := by
  have single : Lexeme.single? c = none := by
    by_contra present
    obtain ⟨kind, found⟩ := Option.ne_none_iff_exists'.mp present
    obtain member | ⟨rfl, _⟩ := single?_eq_some.mp found
    · exact (singles_symbols _ member).elim newline other
    · exact other (by decide)
  have joinable : Lexeme.joinable? c = none := by
    by_contra present
    obtain ⟨⟨alone, joined⟩, found⟩ := Option.ne_none_iff_exists'.mp present
    exact other (joinables_symbols _ (joinable?_eq_some.mp found))
  simp only [Lexeme.ofSymbol, single, joinable]

theorem ofSymbol_error {c : Char} {cs : List Char} {fault : Fault}
    (failed : (Lexeme.ofSymbol c cs).content = .error fault) :
    Lexeme.single? c = none ∧ Lexeme.joinable? c = none := by
  unfold Lexeme.ofSymbol at failed
  split at failed
  · cases failed
  · split at failed <;> cases failed
  · rename_i single joinable
    exact ⟨single, joinable⟩

theorem ofSymbol_illegal {c : Char} {cs : List Char} {fault : Fault} (letter : ¬ Letter c)
    (digit : ¬ Digit c) (gap : ¬ Gap c) (quote : c ≠ '"')
    (failed : (Lexeme.ofSymbol c cs).content = .error fault) : Illegal (c :: cs) fault := by
  have unknown : c ∉ '\n' :: symbols := by
    intro member
    have known := symbols_known member
    obtain ⟨single, joinable⟩ := ofSymbol_error failed
    simp [single, joinable] at known
  have newline : c ≠ '\n' := fun same => unknown (same ▸ List.mem_cons_self)
  have other : c ∉ symbols := fun member => unknown (List.mem_cons_of_mem _ member)
  rw [ofSymbol_unrecognised newline other] at failed
  cases failed
  exact .unrecognised letter digit gap newline quote other

/-- A piece at the front of a text that starts with no gap either is a lexeme or has one of
the four forms. -/
theorem first_illegal {c : Char} {cs : List Char} {fault : Fault} (gap : ¬ Gap c)
    (failed : (Lexeme.first c cs).content = .error fault) : Illegal (c :: cs) fault := by
  by_cases letter : Letter c
  · rw [Lexeme.first, if_pos (letter_iff.mpr letter)] at failed
    cases failed
  by_cases digit : Digit c
  · rw [Lexeme.first, if_neg (letter_iff.not.mpr letter), if_pos (digit_iff.mpr digit)] at failed
    rw [← Lexeme.ofNumber_split (c :: cs)]
    exact numberContent_illegal (longest_number digit) (digits_takeWhile digit cs) failed
  by_cases quote : c = '"'
  · subst quote
    exact ofString_illegal failed
  · rw [first_of_symbol letter digit quote] at failed
    exact ofSymbol_illegal letter digit gap quote failed

/-- An illegal piece is the one at the front of the text, and only a string that does not
end has newlines. -/
theorem Illegal.first {text : List Char} {fault : Fault} (illegal : Illegal text fault) :
    ∃ c cs, text = c :: cs ∧ (Lexeme.first c cs).content = .error fault ∧
      (Lexeme.first c cs).text.count '\n' = newlinesBefore fault [] text := by
  cases illegal with
  | @unrecognised c rest letter digit gap newline quote other =>
    refine ⟨c, rest, rfl, ?_⟩
    rw [first_of_symbol letter digit quote, ofSymbol_unrecognised newline other]
    exact ⟨rfl, List.count_eq_zero_of_not_mem (by simpa using newline.symm)⟩
  | @unterminated contents clear =>
    refine ⟨'"', contents, rfl, ?_⟩
    have read : Lexeme.first '"' contents = Lexeme.ofString contents := rfl
    rw [read, ofString_unterminated clear]
    exact ⟨rfl, rfl⟩
  | @malformed number c rest longest letter =>
    have clear := longest.1.notMem apart_newline
    obtain ⟨whole, fraction, rfl, digits, parts⟩ := longest.1.parts
    obtain ⟨d, ds, front, read⟩ := first_number longest digits parts
    refine ⟨d, ds, front, ?_, ?_⟩
    · have touches : (c :: rest).head?.filter Lexeme.isLetter = some c :=
        Option.filter_eq_some_iff.mpr ⟨rfl, letter_iff.mpr letter⟩
      simp only [read, Lexeme.numberContent, touches]
    · rw [read]
      exact List.count_eq_zero_of_not_mem clear
  | @outOfRange number rest longest digits unlettered large =>
    have clear := longest.1.notMem apart_newline
    have whole : Lexeme.numberText number [] = number := rfl
    rw [← whole] at longest clear
    obtain ⟨d, ds, front, read⟩ := first_number longest digits (List.forall_mem_nil _)
    have notBelow : ¬ Nat.ofDigitChars 10 number 0 < Lexeme.intBound := by
      rw [← decimalValue_eq]
      exact Nat.not_lt_of_le large
    refine ⟨d, ds, front, ?_, ?_⟩
    · simp only [read, Lexeme.numberContent, filter_unlettered unlettered, List.isEmpty_nil,
        if_true, if_neg notBelow]
    · rw [read]
      exact List.count_eq_zero_of_not_mem clear

theorem step_eq_error {lexer : Lexer} {run rest : List Char} {fault : Fault}
    (trivia : Trivia run rest) (illegal : Illegal rest fault) (front : lexer.rest = run ++ rest) :
    lexer.step.1 = .error ⟨fault, lexer.line + UInt32.ofNat (newlinesBefore fault [] rest),
      lexer.file⟩ := by
  obtain ⟨c, cs, rfl, content, lines⟩ := illegal.first
  have skipped : Lexeme.skipTrivia lexer.rest = c :: cs := by rw [front, trivia.skipTrivia]
  simp only [Lexer.step, skipped, Lexer.locate, content, Lexer.newlines, lines]

/-- Where a step fails, the text starts with trivia and an illegal piece. -/
theorem step_error_cases {lexer : Lexer} {d : Diagnostic} (failed : lexer.step.1 = .error d) :
    ∃ run rest, lexer.rest = run ++ rest ∧ Trivia run rest ∧ Illegal rest d.fault := by
  obtain ⟨run, split, trivia⟩ := Trivia.of_skipTrivia lexer.rest
  unfold Lexer.step at failed
  split at failed
  · cases failed
  · rename_i c cs front
    rw [front] at split trivia
    simp only [Lexer.locate] at failed
    split at failed
    · cases failed
    · rename_i content
      cases failed
      exact ⟨run, c :: cs, split, trivia, first_illegal (trivia.noGap c rfl) content⟩

/-- Behind lexemes, an illegal piece is the error. -/
theorem SplitsBefore.scanAll_error {passed rest : List Char} {fault : Fault}
    (before : SplitsBefore passed rest) (illegal : Illegal rest fault) {lexer : Lexer} {line : Nat}
    (front : lexer.rest = passed ++ rest) (start : lexer.line = UInt32.ofNat line) :
    lexer.scanAll.1 = .error ⟨fault, UInt32.ofNat (line + newlinesBefore fault passed rest),
      lexer.file⟩ := by
  induction before generalizing lexer line with
  | @done run rest trivia =>
    have lines : newlinesBefore fault run rest = newlinesBefore fault [] rest := by
      rw [← List.append_nil run, newlinesBefore_append, trivia.count_newline, Nat.zero_add]
    rw [scanAll_of_error (step_eq_error trivia illegal front), start, lines, UInt32.ofNat_add]
  | @next run text passed rest kind payload trivia lexes _ ih =>
    have front : lexer.rest = run ++ (text ++ (passed ++ rest)) := by simpa using front
    have step := step_eq trivia lexes front
    have onLine : (lexer.pass text (passed ++ rest)).line =
        UInt32.ofNat (line + text.count '\n') := by
      rw [UInt32.ofNat_add, ← start]
      rfl
    have lines : newlinesBefore fault (run ++ (text ++ passed)) rest =
        text.count '\n' + newlinesBefore fault passed rest := by
      rw [newlinesBefore_append, newlinesBefore_append, trivia.count_newline, Nat.zero_add]
    rw [scanAll_of_step step lexes.kind_ne, ih illegal rfl onLine, lines, Nat.add_assoc]
    rfl

/-- An error is that of an illegal piece behind lexemes. -/
theorem SplitsBefore.of_scanAll_error {lexer : Lexer} {d : Diagnostic}
    (failed : lexer.scanAll.1 = .error d) :
    ∃ passed rest, lexer.rest = passed ++ rest ∧ SplitsBefore passed rest ∧
      Illegal rest d.fault := by
  induction size : lexer.rest.length using Nat.strongRecOn generalizing lexer with
  | ind size ih =>
    cases found : lexer.step.1 with
    | error d' =>
      rw [scanAll_of_error found] at failed
      cases failed
      obtain ⟨run, rest, front, trivia, illegal⟩ := step_error_cases found
      exact ⟨run, rest, front, .done trivia, illegal⟩
    | ok token =>
      obtain trivia | ⟨run, text, after, kind, payload, front, trivia, lexes⟩ := step_cases found
      · rw [scanAll_of_end (step_eq_end trivia) rfl] at failed
        cases failed
      · have step := step_eq trivia lexes front
        rw [scanAll_of_step step lexes.kind_ne] at failed
        have later : (lexer.pass text after).scanAll.1 = .error d := by
          cases left : (lexer.pass text after).scanAll.1 with
          | ok tokens =>
            rw [left] at failed
            cases failed
          | error d' =>
            rw [left] at failed
            exact failed
        obtain ⟨passed, rest, rfl, before, illegal⟩ :=
          ih _ (size ▸ Lexer.step_shorter step lexes.kind_ne) later rfl
        exact ⟨run ++ (text ++ passed), rest, by simpa using front, .next trivia lexes before,
          illegal⟩

theorem scanAll_eq_error_iff {lexer : Lexer} {line : Nat} {d : Diagnostic}
    (start : lexer.line = UInt32.ofNat line) :
    lexer.scanAll.1 = .error d ↔ ∃ passed rest, lexer.rest = passed ++ rest ∧
      SplitsBefore passed rest ∧ Illegal rest d.fault ∧
      d.position = ⟨UInt32.ofNat (line + newlinesBefore d.fault passed rest), lexer.file⟩ := by
  constructor
  · intro failed
    obtain ⟨passed, rest, front, before, illegal⟩ := SplitsBefore.of_scanAll_error failed
    have same := failed.symm.trans (before.scanAll_error illegal front start)
    exact ⟨passed, rest, front, before, illegal, congrArg Diagnostic.position (Except.error.inj same)⟩
  · rintro ⟨passed, rest, front, before, illegal, position⟩
    rw [before.scanAll_error illegal front start, ← position]

/-- Tokenizing fails exactly on the first illegal piece behind lexemes and trivia, with its fault.
The error is on the line of the piece, or on the last line if a string does not end; as the
counter is a 32-bit word, that is the number of the line modulo `2 ^ 32`. -/
theorem tokenize_eq_error_iff (source : String) (file : Option String) (d : Diagnostic) :
    (tokenize source file = .error d ↔ ∃ passed rest, source.toList = passed ++ rest ∧
      SplitsBefore passed rest ∧ Illegal rest d.fault ∧
      d.position = ⟨UInt32.ofNat (1 + newlinesBefore d.fault passed rest),
        file.getD shellLabel⟩) ∧
    ∀ text, tokenize source file = .error d → d.fault = .numberOutOfRange text →
      '.' ∉ text.toList := by
  have start : (Lexer.ofSource source file).line = UInt32.ofNat 1 := rfl
  have exactly := scanAll_eq_error_iff (d := d) start
  refine ⟨exactly, ?_⟩
  intro text failed fault point
  obtain ⟨passed, rest, _, _, illegal, _⟩ := exactly.mp failed
  rw [fault] at illegal
  cases illegal with
  | outOfRange _ digits _ _ =>
    rw [String.toList_ofList] at point
    exact absurd (digits.2 '.' point) (by decide)

-- A number can be too large and touched by a letter; then it is malformed.
example : tokenize "x\n= 99999999999999999999y" none =
    .error ⟨.malformedNumber "99999999999999999999y", ⟨2, "shell"⟩⟩ := by
  decide +kernel

end ScriptFront.Lexical
