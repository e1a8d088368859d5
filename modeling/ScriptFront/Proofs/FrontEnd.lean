import ScriptFront.Proofs.LineShift
import ScriptFront.Proofs.TokenLines

/-! The front end, from a source to a program, goes line by line, and so does the lexer by
itself: what stands after a complete source and a newline is read as it would be by itself,
only further down. -/
namespace ScriptFront

/-- The program of a source. -/
def frontEnd (source : String) (file : Option String) : Except Diagnostic Program :=
  match tokenize source file with
  | .error d => .error d
  | .ok tokens => parse tokens (file.getD shellLabel)

/-- The line a number of lines further down. -/
def raised (lines : Nat) (line : UInt32) : UInt32 := line + UInt32.ofNat lines

theorem Between.toNat_raised {low high lines : Nat} {line : UInt32}
    (between : Between low high line) (bound : high + lines < 2 ^ 32) :
    (raised lines line).toNat = line.toNat + lines := by
  obtain ⟨n, _, few, rfl⟩ := between
  simp only [raised, UInt32.toNat_add, UInt32.toNat_ofNat']
  omega

namespace Lexical

variable {line : Nat} {run text rest : List Char} {kind : TokenKind} {payload : Payload}

theorem Trivia.before_newline (trivia : Trivia run rest) (more : List Char) :
    Trivia run (rest ++ '\n' :: more) := by
  induction trivia with
  | @none rest gap comment =>
    cases rest with
    | nil =>
      refine .none ?_ (by simp)
      rintro c head
      cases Option.some.inj head
      simp [Gap]
    | cons c cs =>
      refine .none gap ?_
      intro starts
      cases cs with
      | nil => simp at starts
      | cons c' cs => exact comment (by simpa using starts)
  | gap gap _ ih => exact .gap gap ih
  | @comment body rest clear next =>
    refine .comment clear ?_
    cases rest with
    | nil =>
      intro c head
      exact (Option.some.inj head).symm
    | cons c cs => exact next

/-- What is longest in a language without newlines stays longest before a newline. -/
theorem Longest.before_newline {language : List Char → Prop}
    (clear : ∀ text, language text → '\n' ∉ text) (longest : Longest language text rest)
    (more : List Char) : Longest language text (rest ++ '\n' :: more) := by
  refine ⟨longest.1, ?_⟩
  intro longer after same inside
  rw [← List.append_assoc] at same
  obtain ⟨between, whole, _⟩ | ⟨beyond, whole, last⟩ := List.append_eq_append_iff.mp same
  · exact longest.2 longer between whole.symm inside
  · cases beyond with
    | nil => exact longest.2 longer [] (by simpa using whole) inside
    | cons c beyond =>
      cases last
      exact absurd (by rw [whole]; simp) (clear longer inside)

theorem head?_before_newline {p : Char → Prop} (newline : ¬ p '\n')
    (none : ∀ c, rest.head? = some c → ¬ p c) (more : List Char) :
    ∀ c, (rest ++ '\n' :: more).head? = some c → ¬ p c := by
  cases rest with
  | nil =>
    intro c head
    cases Option.some.inj head
    exact newline
  | cons c cs => exact none

theorem Lexes.before_newline (lexes : Lexes text rest kind payload) (more : List Char) :
    Lexes text (rest ++ '\n' :: more) kind payload := by
  have next {c : Char} (newline : '\n' ≠ c) (other : rest.head? ≠ some c) :
      (rest ++ '\n' :: more).head? ≠ some c := by
    cases rest with
    | nil => simpa using newline
    | cons => exact other
  have word_clear (text : List Char) (word : Word text) : '\n' ∉ text := word.notMem apart_newline
  have number_clear (text : List Char) (number : Number text) : '\n' ∉ text :=
    number.notMem apart_newline
  cases lexes with
  | keyword word longest same =>
    exact .keyword word (longest.before_newline word_clear more) same
  | identifier longest different =>
    exact .identifier (longest.before_newline word_clear more) different
  | int longest digits unlettered bound same =>
    exact .int (longest.before_newline number_clear more) digits
      (head?_before_newline (by decide) unlettered more) bound same
  | float longest whole fraction unlettered nearest =>
    exact .float (longest.before_newline number_clear more) whole fraction
      (head?_before_newline (by decide) unlettered more) nearest
  | string clear => exact .string clear
  | joined member => exact .joined member
  | alone member other => exact .alone member (next (by decide) other)
  | single member => exact .single member
  | slash other => exact .slash (next (by decide) other)

/-- Before a newline a text is scanned to the same tokens, up to its end of input, whose
place the newline takes; the rest is scanned by itself. -/
theorem Splits.scanAll_before_newline {tokens : List Token} (splits : Splits line text tokens) :
    ∃ front, tokens = front ++ [.bare .endOfInput (UInt32.ofNat (line + text.count '\n'))] ∧
      (∀ token ∈ front, token.kind ≠ .endOfInput) ∧
      ∀ (lexer : Lexer) (more : List Char), lexer.rest = text ++ '\n' :: more →
        lexer.line = UInt32.ofNat line →
        lexer.scanAll.1 =
          ({ lexer with rest := more, line := UInt32.ofNat (line + text.count '\n' + 1) } :
            Lexer).scanAll.1.map
            (front ++ .bare .newLine (UInt32.ofNat (line + text.count '\n')) :: ·) := by
  induction splits with
  | @done line run trivia =>
    rw [trivia.count_newline]
    refine ⟨[], rfl, nofun, ?_⟩
    intro lexer more front start
    have lexes : Lexes ['\n'] more .newLine .absent := .single (by decide)
    have trivia : Trivia run (['\n'] ++ more) := trivia.before_newline more
    have step := step_eq trivia lexes front
    have passed : lexer.pass ['\n'] more =
        { lexer with rest := more, line := UInt32.ofNat (line + 0 + 1) } := by
      rw [Nat.add_zero, UInt32.ofNat_add, ← start]
      rfl
    have token : lexer.line + Lexer.newlines ['\n'].dropLast = UInt32.ofNat (line + 0) := by
      rw [start]
      exact UInt32.add_zero _
    rw [scanAll_of_step step lexes.kind_ne, passed, token]
    rfl
  | @next line run text rest kind payload tokens trivia lexes _ ih =>
    obtain ⟨front, same, clean, scans⟩ := ih
    have total : (run ++ (text ++ rest)).count '\n' = text.count '\n' + rest.count '\n' := by
      rw [List.count_append, List.count_append, trivia.count_newline, Nat.zero_add]
    rw [total, ← Nat.add_assoc]
    refine ⟨⟨kind, payload, UInt32.ofNat (line + text.dropLast.count '\n')⟩ :: front,
      by rw [same, List.cons_append], ?_, ?_⟩
    · intro token member
      rcases List.mem_cons.mp member with rfl | member
      · exact lexes.kind_ne
      · exact clean token member
    · intro lexer more whole start
      have whole : lexer.rest = run ++ (text ++ (rest ++ '\n' :: more)) := by
        rw [whole]
        simp
      have trivia : Trivia run (text ++ (rest ++ '\n' :: more)) := by
        simpa using trivia.before_newline more
      have step := step_eq trivia (lexes.before_newline more) whole
      have onLine : (lexer.pass text (rest ++ '\n' :: more)).line =
          UInt32.ofNat (line + text.count '\n') := by
        rw [UInt32.ofNat_add, ← start]
        rfl
      rw [scanAll_of_step step lexes.kind_ne, scans _ more rfl onLine, start, Lexer.newlines,
        ← UInt32.ofNat_add]
      simp only [Lexer.pass]
      cases Lexer.scanAll _ |>.1 <;> rfl

end Lexical

/-- The number of newlines in a text. -/
def newlineCount (text : String) : Nat := text.toList.count '\n'

theorem tokenize_before_newline {first : String} {file : Option String} {tokens : List Token}
    (read : tokenize first file = .ok tokens) (second : String) :
    ∃ front, tokens = front ++ [.bare .endOfInput (UInt32.ofNat (1 + newlineCount first))] ∧
      (∀ token ∈ front, token.kind ≠ .endOfInput) ∧
      tokenize (first ++ "\n" ++ second) file =
        (relineResult (List.map (Token.reline (raised (1 + newlineCount first))))
          (raised (1 + newlineCount first)) (tokenize second file)).map
          (front ++ .bare .newLine (UInt32.ofNat (1 + newlineCount first)) :: ·) := by
  have splits : Lexical.Splits 1 first.toList tokens := .of_scanAll rfl read
  obtain ⟨front, same, clean, scans⟩ := splits.scanAll_before_newline
  refine ⟨front, same, clean, ?_⟩
  have text : (first ++ "\n" ++ second).toList = first.toList ++ '\n' :: second.toList := by simp
  have scanned := scans (.ofSource (first ++ "\n" ++ second) file) second.toList text rfl
  have further : ({ Lexer.ofSource (first ++ "\n" ++ second) file with
      rest := second.toList, line := UInt32.ofNat (1 + newlineCount first + 1) } : Lexer) =
      (Lexer.ofSource second file).raise (UInt32.ofNat (1 + newlineCount first)) := by
    rw [Nat.add_comm (1 + newlineCount first) 1, UInt32.ofNat_add]
    rfl
  rw [tokenize, scanned]
  exact congrArg (fun lexer : Lexer => Except.map _ lexer.scanAll.1) further |>.trans
    (congrArg (Except.map _) (Lexer.scanAll_raise _ _))

theorem Statements.readBody_before_newline {setting : Setting} {tokens rest : List Token}
    {body : List Stmt} {newline : Token} (statements : Statements tokens body)
    (standard : setting.grammar = .standard) (kind : newline.kind = .newLine) :
    setting.readBody (tokens ++ newline :: rest) = (setting.readBody rest).map (body ++ ·) := by
  have separates : (nextKind (newline :: rest)).isSeparator :=
    TokenKind.isSeparator_iff.mpr (.inl kind)
  induction statements with
  | @none blank blanks =>
    have alone : Blank [newline] := by
      intro token member
      cases List.mem_singleton.mp member
      exact kind
    have skipped : skipNewLines (blank ++ newline :: rest) = skipNewLines rest :=
      (skipNewLines_blank_append blanks _).trans (skipNewLines_blank_append alone rest)
    rw [Setting.readBody_congr skipped]
    cases setting.readBody rest <;> rfl
  | last blanks derived fits =>
    rw [Setting.readBody_statement standard blanks derived fits separates]
    rfl
  | @next blank first tokens expr separator between body blanks derived fits ends _ ih =>
    have next : (nextKind (separator :: (between ++ newline :: rest))).isSeparator :=
      TokenKind.isSeparator_iff.mpr (ends.imp_right .inl)
    rw [List.append_assoc, List.cons_append,
      Setting.readBody_statement standard blanks derived fits next, List.tail_cons, ih]
    cases setting.readBody rest <;> rfl

/-- Behind the tokens of a program and a newline, tokens are parsed as they would be by
themselves. -/
theorem Statements.parse_before_newline {tokens more : List Token} {body : List Stmt}
    {newline : Token} (statements : Statements tokens body) (kind : newline.kind = .newLine)
    (some : more ≠ []) (f : UInt32 → UInt32) (file : String) :
    parse (tokens ++ newline :: more.map (Token.reline f)) file =
      (relineResult (Program.reline f) f (parse more file)).map
        fun program => ⟨body ++ program.body⟩ := by
  have moved : more.map (Token.reline f) ≠ [] := by simpa using some
  have setting : Setting.ofTokens .standard file
      (tokens ++ newline :: more.map (Token.reline f)) =
      (Setting.ofTokens .standard file more).reline f := by
    rw [← Setting.ofTokens_reline .standard file some, ← List.singleton_append,
      ← List.append_assoc, Setting.ofTokens_append .standard file _ moved]
  rw [parse, parse, setting, statements.readBody_before_newline rfl kind, Setting.readBody_reline]
  cases (Setting.ofTokens .standard file more).readBody more <;> rfl

section FrontEnd

variable {source first : String} {file : Option String} {tokens : List Token} {program : Program}
  {d : Diagnostic}

theorem frontEnd_of_tokenize (read : tokenize source file = .ok tokens) :
    frontEnd source file = parse tokens (file.getD shellLabel) := by
  rw [frontEnd, read]

theorem frontEnd_eq_ok (accepted : frontEnd source file = .ok program) :
    ∃ tokens, tokenize source file = .ok tokens ∧
      parse tokens (file.getD shellLabel) = .ok program := by
  unfold frontEnd at accepted
  split at accepted
  · cases accepted
  · rename_i tokens read
    exact ⟨tokens, read, accepted⟩

/-- The tokens of a source that parse are statements before the end of input. -/
theorem tokenize_statements {label : String} (read : tokenize source file = .ok tokens)
    (parsed : parse tokens label = .ok program) :
    ∃ front, tokens = front ++ [.bare .endOfInput (UInt32.ofNat (1 + newlineCount source))] ∧
      Statements front program.body := by
  obtain ⟨front, rfl, clean, _⟩ := tokenize_before_newline read ""
  have ends : Ending [.bare .endOfInput (UInt32.ofNat (1 + newlineCount source))] :=
    .inr ⟨_, rfl, rfl⟩
  obtain ⟨rest, whole⟩ := parse_eq_ok.mp parsed
  exact ⟨front, rfl, .of_readBody clean ends rfl whole⟩

theorem frontEnd_statements (accepted : frontEnd source file = .ok program) :
    ∃ front, tokenize source file =
        .ok (front ++ [.bare .endOfInput (UInt32.ofNat (1 + newlineCount source))]) ∧
      Statements front program.body := by
  obtain ⟨tokens, read, parsed⟩ := frontEnd_eq_ok accepted
  obtain ⟨front, rfl, statements⟩ := tokenize_statements read parsed
  exact ⟨front, read, statements⟩

theorem frontEnd_before_newline (accepted : frontEnd first file = .ok program) (second : String) :
    frontEnd (first ++ "\n" ++ second) file =
      (relineResult (Program.reline (raised (1 + newlineCount first)))
        (raised (1 + newlineCount first)) (frontEnd second file)).map
        fun more => ⟨program.body ++ more.body⟩ := by
  obtain ⟨front, read, statements⟩ := frontEnd_statements accepted
  obtain ⟨front', same, _, scanned⟩ := tokenize_before_newline read second
  obtain ⟨rfl, _⟩ := List.append_inj' same rfl
  cases more : tokenize second file with
  | error d =>
    rw [more] at scanned
    rw [frontEnd, scanned, frontEnd, more]
    rfl
  | ok tokens =>
    rw [more] at scanned
    obtain ⟨_, rfl, _⟩ := tokenize_before_newline more ""
    rw [frontEnd_of_tokenize scanned, frontEnd_of_tokenize more,
      statements.parse_before_newline rfl (by simp)]

theorem tokenize_lines (read : tokenize source file = .ok tokens) :
    ∀ token ∈ tokens, Between 1 (1 + newlineCount source) token.line :=
  (Lexical.Splits.of_scanAll rfl read).lines

/-- Every line of a program is a line of its source. -/
theorem frontEnd_ok_lines (accepted : frontEnd source file = .ok program) :
    ∀ line ∈ program.lines, Between 1 (1 + newlineCount source) line := by
  obtain ⟨front, read, statements⟩ := frontEnd_statements accepted
  intro line member
  obtain ⟨token, inside, rfl⟩ := List.mem_map.mp (statements.lines line member)
  exact tokenize_lines read token (List.mem_append_left _ inside)

/-- Every parse error is on a line of the source. -/
theorem parse_error_between {label : String} (read : tokenize source file = .ok tokens)
    (failed : parse tokens label = .error d) : Between 1 (1 + newlineCount source) d.line := by
  obtain ⟨_, rfl, _⟩ := tokenize_before_newline read ""
  obtain ⟨token, inside, same⟩ := List.mem_map.mp (parse_error_line (by simp) failed)
  rw [Diagnostic.line, ← same]
  exact tokenize_lines read token inside

theorem tokenize_error_line (failed : tokenize source file = .error d) :
    Between 1 (1 + newlineCount source) d.line :=
  Lexical.scanAll_error_line rfl failed

/-- Every error is on a line of the source. -/
theorem frontEnd_error_line (failed : frontEnd source file = .error d) :
    Between 1 (1 + newlineCount source) d.line := by
  cases read : tokenize source file with
  | error d' =>
    rw [frontEnd, read] at failed
    cases failed
    exact tokenize_error_line read
  | ok tokens =>
    rw [frontEnd_of_tokenize read] at failed
    exact parse_error_between read failed

end FrontEnd

/-- Tokenizing works line by line. Behind a source that is split into tokens and a newline, a
second source gives the tokens or the error it gives by itself, with every line raised by that
of the end of input. With fewer than `2 ^ 32` lines in all, no line overflows. -/
theorem tokenize_append_line (first second : String) (file : Option String) (front : List Token)
    (line : UInt32) (read : tokenize first file = .ok (front ++ [.bare .endOfInput line]))
    (few : 2 + newlineCount first + newlineCount second < 2 ^ 32) :
    (∀ more, tokenize second file = .ok more →
      tokenize (first ++ "\n" ++ second) file =
        .ok (front ++ [.bare .newLine line] ++ more.map (Token.reline (· + line))) ∧
      ∀ token ∈ more, (token.line + line).toNat = token.line.toNat + line.toNat) ∧
    ∀ d, tokenize second file = .error d →
      tokenize (first ++ "\n" ++ second) file = .error (d.reline (· + line)) ∧
      (d.line + line).toNat = d.line.toNat + line.toNat := by
  obtain ⟨front', same, _, joined⟩ := tokenize_before_newline read second
  obtain ⟨rfl, last⟩ := List.append_inj' same rfl
  obtain rfl : line = UInt32.ofNat (1 + newlineCount first) :=
    congrArg Token.line (List.singleton_inj.mp last)
  have bound : 1 + newlineCount second + (1 + newlineCount first) < 2 ^ 32 := by omega
  have number : (UInt32.ofNat (1 + newlineCount first)).toNat = 1 + newlineCount first := by
    rw [UInt32.toNat_ofNat', Nat.mod_eq_of_lt (by omega)]
  rw [number]
  constructor
  · intro more scanned
    rw [scanned] at joined
    constructor
    · rw [List.append_assoc]
      exact joined
    · intro token member
      exact (tokenize_lines scanned token member).toNat_raised bound
  · intro d failed
    rw [failed] at joined
    exact ⟨joined, (tokenize_error_line failed).toNat_raised bound⟩

/-- Two lines that make no program, the second ending in a comment. -/
def closedBeforeOpened : String := ")\n= // (x"

/-- Behind them tokens and errors are those of a fresh source, two lines further down. -/
theorem tokenize_closedBeforeOpened :
    tokenize closedBeforeOpened none =
      .ok [.bare .closeParen 1, .bare .newLine 1, .bare .assignment 2, .bare .endOfInput 2] ∧
    frontEnd closedBeforeOpened none = .error ⟨.unexpectedToken ")", 1, "shell"⟩ ∧
    tokenize (closedBeforeOpened ++ "\n" ++ "= \"y\n\"") none =
      .ok [.bare .closeParen 1, .bare .newLine 1, .bare .assignment 2, .bare .newLine 2,
        .bare .assignment 3, .string "y\n" 4, .bare .endOfInput 4] ∧
    tokenize (closedBeforeOpened ++ "\n" ++ "= \"y\n") none =
      .error ⟨.unterminatedString, 4, "shell"⟩ := by
  have read : tokenize closedBeforeOpened none =
      .ok ([.bare .closeParen 1, .bare .newLine 1, .bare .assignment 2] ++
        [.bare .endOfInput 2]) := by
    decide +kernel
  have closed : tokenize "= \"y\n\"" none =
      .ok [.bare .assignment 1, .string "y\n" 2, .bare .endOfInput 2] := by
    decide +kernel
  have opened : tokenize "= \"y\n" none = .error ⟨.unterminatedString, 2, "shell"⟩ := by
    decide +kernel
  obtain ⟨tokens, _⟩ := tokenize_append_line _ "= \"y\n\"" none _ _ read (by decide)
  obtain ⟨_, error⟩ := tokenize_append_line _ "= \"y\n" none _ _ read (by decide)
  exact ⟨read, by decide +kernel, (tokens _ closed).1, (error _ opened).1⟩

/-- The front end works line by line. Behind a source that it accepts and a newline, a second
source gives the statements or the error it gives by itself, with every line raised by the
lines before. With fewer than `2 ^ 32` lines in all, no line overflows. -/
theorem frontEnd_append_line (first second : String) (file : Option String) (program : Program)
    (accepted : frontEnd first file = .ok program)
    (few : 2 + newlineCount first + newlineCount second < 2 ^ 32) :
    (∀ more, frontEnd second file = .ok more →
      frontEnd (first ++ "\n" ++ second) file =
        .ok ⟨program.body ++ (more.reline (raised (1 + newlineCount first))).body⟩ ∧
      ∀ line ∈ more.lines, (raised (1 + newlineCount first) line).toNat =
        line.toNat + (1 + newlineCount first)) ∧
    ∀ d, frontEnd second file = .error d →
      frontEnd (first ++ "\n" ++ second) file =
        .error (d.reline (raised (1 + newlineCount first))) ∧
      (raised (1 + newlineCount first) d.line).toNat = d.line.toNat + (1 + newlineCount first) := by
  have joined := frontEnd_before_newline accepted second
  have bound : 1 + newlineCount second + (1 + newlineCount first) < 2 ^ 32 := by omega
  constructor
  · intro more read
    rw [read] at joined
    refine ⟨joined, ?_⟩
    intro line member
    exact (frontEnd_ok_lines read line member).toNat_raised bound
  · intro d failed
    rw [failed] at joined
    exact ⟨joined, (frontEnd_error_line failed).toNat_raised bound⟩

/-- A source that ends in a comment on its second line, its string going over both. -/
def stringOverTwoLines : String := "x = \"two\nlines\" // end"

/-- Behind it a program goes on, and an error is found, two lines further down. -/
theorem frontEnd_stringOverTwoLines :
    ∃ program more, frontEnd stringOverTwoLines none = .ok program ∧
      frontEnd "y = x" none = .ok more ∧
      frontEnd (stringOverTwoLines ++ "\n" ++ "y = x") none =
        .ok ⟨program.body ++ (more.reline (raised 2)).body⟩ ∧
      frontEnd "y = (x" none = .error ⟨.unterminatedGrouping, 1, "shell"⟩ ∧
      frontEnd (stringOverTwoLines ++ "\n" ++ "y = (x") none =
        .error ⟨.unterminatedGrouping, 3, "shell"⟩ := by
  have accepted : frontEnd stringOverTwoLines none =
      .ok ⟨[⟨.assign ⟨.identifier "x" 1, "x"⟩ (.literal (.text "two\nlines") 2), 1⟩]⟩ := by
    decide +kernel
  have whole : frontEnd "y = x" none =
      .ok ⟨[⟨.assign ⟨.identifier "y" 1, "y"⟩ (.name ⟨.identifier "x" 1, "x"⟩), 1⟩]⟩ := by
    decide +kernel
  have failed : frontEnd "y = (x" none = .error ⟨.unterminatedGrouping, 1, "shell"⟩ := by
    decide +kernel
  obtain ⟨read, _⟩ := frontEnd_append_line stringOverTwoLines "y = x" none _ accepted (by decide)
  obtain ⟨_, error⟩ := frontEnd_append_line stringOverTwoLines "y = (x" none _ accepted (by decide)
  exact ⟨_, _, accepted, whole, (read _ whole).1, failed, (error _ failed).1⟩

end ScriptFront
