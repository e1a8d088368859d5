import ScriptFront.Proofs.ExpressionGrammar

/-! The program grammar: statements, each a whole expression, ended by a newline or a
semicolon, with blank lines before them. Only the last statement may go without its
separator. Parsing accepts exactly these programs, and each statement carries the
line of its first token. -/
namespace ScriptFront

/-- Nothing but newlines. -/
def Blank (tokens : List Token) : Prop := ∀ token ∈ tokens, token.kind = .newLine

theorem blank_nil : Blank [] := fun _ => nofun

inductive Statements : List Token → List Stmt → Prop where
  | none {blank} : Blank blank → Statements blank []
  | last {blank first tokens expr} :
      Blank blank → Derives .expr (first :: tokens) expr → expr.need ≤ 256 →
      Statements (blank ++ first :: tokens) [⟨expr, first.line⟩]
  | next {blank first tokens expr separator rest body} :
      Blank blank → Derives .expr (first :: tokens) expr → expr.need ≤ 256 →
      separator.kind = .newLine ∨ separator.kind = .semicolon → Statements rest body →
      Statements (blank ++ first :: tokens ++ separator :: rest) (⟨expr, first.line⟩ :: body)

namespace Derives

variable {stratum : Stratum} {used : List Token} {expr : Expr}

/-- An expression starts on the line of its first token. -/
theorem head (derived : Derives stratum used expr) :
    ∃ first tokens, used = first :: tokens ∧ expr.line = first.line := by
  induction derived with
  | assign | negate | name | text | int | float | grouping => exact ⟨_, _, rfl, rfl⟩
  | ofSum _ ih | ofProduct _ ih | ofUnary _ ih | ofPrimary _ ih => exact ih
  | add _ _ _ ih | multiply _ _ _ ih =>
    obtain ⟨first, tokens, rfl, line⟩ := ih
    exact ⟨first, _, rfl, line⟩

/-- No token of an expression ends a statement. -/
theorem not_separator (derived : Derives stratum used expr) :
    ∀ token ∈ used, token.kind.isSeparator = false := by
  induction derived with
  | ofSum _ ih | ofProduct _ ih | ofUnary _ ih | ofPrimary _ ih => exact ih
  | name kind | text kind | int kind | float kind =>
    intro token member
    cases List.mem_singleton.mp member
    rw [kind]
    rfl
  | assign target _ operator _ ih =>
    intro token member
    rcases List.mem_cons.mp member with rfl | member
    · rw [target]; rfl
    · rcases List.mem_cons.mp member with rfl | member
      · rw [operator]; rfl
      · exact ih token member
  | negate operator _ ih =>
    intro token member
    rcases List.mem_cons.mp member with rfl | member
    · rw [operator]; rfl
    · exact ih token member
  | add _ operator _ ihLeft ihRight | multiply _ operator _ ihLeft ihRight =>
    intro token member
    rcases List.mem_append.mp member with member | member
    · exact ihLeft token member
    · rcases List.mem_cons.mp member with rfl | member
      · rcases operator with operator | operator <;> rw [operator] <;> rfl
      · exact ihRight token member
  | grouping opening _ closing ih =>
    intro token member
    rcases List.mem_append.mp member with member | member
    · rcases List.mem_cons.mp member with rfl | member
      · rw [opening]; rfl
      · exact ih token member
    · cases List.mem_singleton.mp member
      rw [closing]
      rfl

end Derives

theorem TokenKind.isSeparator_iff {kind : TokenKind} :
    kind.isSeparator ↔ kind = .newLine ∨ kind = .semicolon ∨ kind = .endOfInput := by
  cases kind <;> simp [isSeparator]

theorem TokenKind.not_operator_of_separator {kind : TokenKind} (separates : kind.isSeparator) :
    kind ∉ operatorKinds := by
  obtain rfl | rfl | rfl := isSeparator_iff.mp separates <;> decide

theorem skipNewLines_blank {blank tokens : List Token} (blanks : Blank blank)
    (starts : nextKind tokens ≠ .newLine) : skipNewLines (blank ++ tokens) = tokens := by
  induction blank with
  | nil =>
    cases tokens with
    | nil => rfl
    | cons first tokens =>
      exact List.dropWhile_cons_of_neg (by simpa [nextKind] using starts)
  | cons token blank ih =>
    have newLine := blanks token List.mem_cons_self
    have others : Blank blank := by
      intro other member
      exact blanks other (List.mem_cons_of_mem _ member)
    exact (List.dropWhile_cons_of_pos (by simpa using newLine)).trans (ih others)

theorem skipNewLines_blank_append {blank : List Token} (blanks : Blank blank)
    (tokens : List Token) : skipNewLines (blank ++ tokens) = skipNewLines tokens := by
  apply List.dropWhile_append_of_pos
  intro token member
  exact decide_eq_true (blanks token member)

theorem skipNewLines_split (tokens : List Token) :
    ∃ blank, Blank blank ∧ tokens = blank ++ skipNewLines tokens ∧
      nextKind (skipNewLines tokens) ≠ .newLine := by
  refine ⟨tokens.takeWhile fun token => token.kind = .newLine, ?_, ?_, ?_⟩
  · intro token member
    simpa using List.all_eq_true.mp List.all_takeWhile token member
  · exact List.takeWhile_append_dropWhile.symm
  · have first := List.head?_dropWhile_not (fun token : Token => token.kind = .newLine) tokens
    unfold nextKind skipNewLines
    split at first
    · rename_i token head
      rw [head]
      simpa using first
    · rename_i head
      rw [head]
      decide

theorem skipNewLines_append (tokens : List Token) {more : List Token}
    (stops : nextKind more ≠ .newLine) :
    skipNewLines (tokens ++ more) = skipNewLines tokens ++ more := by
  obtain ⟨blank, blanks, split, starts⟩ := skipNewLines_split tokens
  have whole : tokens ++ more = blank ++ (skipNewLines tokens ++ more) := by
    rw [← List.append_assoc, ← split]
  rw [whole]
  apply skipNewLines_blank blanks
  cases left : skipNewLines tokens with
  | nil => exact stops
  | cons first rest =>
    rw [left] at starts
    exact starts

namespace Setting

variable {setting : Setting} {tokens rest : List Token} {stmt : Stmt} {room : Nat}

/-- A statement is read as an expression up to a separator, which is read too. -/
theorem readStmt_standard (standard : setting.grammar = .standard) :
    setting.readStmt room tokens = .ok stmt rest ↔
      ∃ used middle expr, tokens = used ++ middle ∧ Derives .expr used expr ∧ expr.need ≤ room ∧
        (nextKind middle).isSeparator ∧ stmt = .ofExpr expr ∧ rest = middle.tail := by
  unfold readStmt
  constructor
  · intro read
    split at read
    · cases read
    · rename_i expr middle inner
      obtain ⟨used, rfl, derived, _, fits⟩ := (level_read_standard standard).mp inner
      dsimp only at read
      split at read
      · rename_i separates
        cases read
        rw [Token.isSeparator, setting.current_kind] at separates
        exact ⟨used, middle, expr, rfl, derived, fits, separates, rfl, rfl⟩
      · cases read
  · rintro ⟨used, middle, expr, rfl, derived, fits, separates, rfl, rfl⟩
    have loose := TokenKind.not_operator_of_separator separates
    have inner := (level_read_standard standard).mpr ⟨used, rfl, derived, loose, fits⟩
    rw [← setting.current_kind] at separates
    simp only [inner, Token.isSeparator, separates, if_true]

theorem readBody_of_end (ends : nextKind (skipNewLines tokens) = .endOfInput) :
    setting.readBody tokens = .ok [] (skipNewLines tokens) := by
  rw [readBody]
  simp only [setting.current_kind, ends, if_true]

theorem readBody_of_error {d : Diagnostic} (more : nextKind (skipNewLines tokens) ≠ .endOfInput)
    (failed : setting.readStmt nestingLimit (skipNewLines tokens) = .error d rest) :
    setting.readBody tokens = .error d rest := by
  rw [readBody]
  simp only [setting.current_kind, if_neg more]
  split
  · rename_i again
    rw [failed] at again
    cases again
    rfl
  · rename_i read
    rw [failed] at read
    cases read

theorem readBody_of_readStmt (more : nextKind (skipNewLines tokens) ≠ .endOfInput)
    (read : setting.readStmt nestingLimit (skipNewLines tokens) = .ok stmt rest) :
    setting.readBody tokens = (setting.readBody rest).map (stmt :: ·) := by
  rw [readBody]
  simp only [setting.current_kind, if_neg more]
  split
  · rename_i failed
    rw [read] at failed
    cases failed
  · rename_i again
    rw [read] at again
    cases again
    rfl

/-- A round of the statement loop ends the body, fails, or reads one statement. -/
theorem readBody_cases (setting : Setting) (tokens : List Token) :
    (nextKind (skipNewLines tokens) = .endOfInput ∧
      setting.readBody tokens = .ok [] (skipNewLines tokens)) ∨
    (∃ d rest, nextKind (skipNewLines tokens) ≠ .endOfInput ∧
      setting.readStmt nestingLimit (skipNewLines tokens) = .error d rest ∧
      setting.readBody tokens = .error d rest) ∨
    ∃ stmt rest, setting.readStmt nestingLimit (skipNewLines tokens) = .ok stmt rest ∧
      rest.length < tokens.length ∧
      setting.readBody tokens = (setting.readBody rest).map (stmt :: ·) := by
  by_cases ends : nextKind (skipNewLines tokens) = .endOfInput
  · exact .inl ⟨ends, readBody_of_end ends⟩
  · cases step : setting.readStmt nestingLimit (skipNewLines tokens) with
    | error d rest => exact .inr (.inl ⟨d, rest, ends, rfl, readBody_of_error ends step⟩)
    | ok stmt rest =>
      have shorter := Nat.lt_of_lt_of_le (readStmt_shorter step) (skipNewLines_length tokens)
      exact .inr (.inr ⟨stmt, rest, rfl, shorter, readBody_of_readStmt ends step⟩)

/-- Blank lines in front make no difference. -/
theorem readBody_congr {other : List Token} (same : skipNewLines tokens = skipNewLines other) :
    setting.readBody tokens = setting.readBody other := by
  by_cases ends : nextKind (skipNewLines other) = .endOfInput
  · rw [readBody_of_end ends, readBody_of_end (same ▸ ends), same]
  · cases step : setting.readStmt nestingLimit (skipNewLines other) with
    | error d rest =>
      rw [readBody_of_error ends step, readBody_of_error (same ▸ ends) (same ▸ step)]
    | ok stmt rest =>
      rw [readBody_of_readStmt ends step, readBody_of_readStmt (same ▸ ends) (same ▸ step)]

theorem readBody_nil : setting.readBody [] = .ok [] [] := readBody_of_end rfl

/-- One round of the statement loop. -/
theorem readBody_statement (standard : setting.grammar = .standard)
    {blank tokens middle : List Token} {first : Token} {expr : Expr} (blanks : Blank blank)
    (derived : Derives .expr (first :: tokens) expr) (fits : expr.need ≤ nestingLimit)
    (separates : (nextKind middle).isSeparator) :
    setting.readBody (blank ++ first :: tokens ++ middle) =
      (setting.readBody middle.tail).map (⟨expr, first.line⟩ :: ·) := by
  have within := derived.not_separator first List.mem_cons_self
  have differs {kind : TokenKind} (separates : kind.isSeparator = true) : first.kind ≠ kind := by
    rintro rfl
    rw [within] at separates
    cases separates
  have skipped : skipNewLines (blank ++ first :: tokens ++ middle) = first :: tokens ++ middle := by
    rw [List.append_assoc]
    exact skipNewLines_blank blanks (differs rfl)
  obtain ⟨_, _, same, line⟩ := derived.head
  cases same
  apply readBody_of_readStmt (by rw [skipped]; exact differs rfl)
  rw [skipped, ← line]
  exact (readStmt_standard standard).mpr
    ⟨_, middle, expr, rfl, derived, fits, separates, rfl, rfl⟩

end Setting

/-- What may follow the tokens of a program: nothing, or the end of input. -/
def Ending (tokens : List Token) : Prop :=
  tokens = [] ∨ ∃ last, last.kind = .endOfInput ∧ tokens = [last]

namespace Ending

variable {ending tokens used middle : List Token} {expr : Expr}

theorem nextKind_eq (ends : Ending ending) : nextKind ending = .endOfInput := by
  obtain rfl | ⟨last, kind, rfl⟩ := ends
  · rfl
  · exact kind

theorem stops (ends : Ending ending) : nextKind ending ≠ .newLine := by
  rw [ends.nextKind_eq]
  decide

theorem tail_eq (ends : Ending ending) : ending.tail = [] := by
  obtain rfl | ⟨last, kind, rfl⟩ := ends <;> rfl

/-- The tokens of an expression stop before the ending. -/
theorem within (ends : Ending ending) (derived : Derives .expr used expr)
    (same : tokens ++ ending = used ++ middle) :
    ∃ between, tokens = used ++ between ∧ middle = between ++ ending := by
  obtain ⟨beyond, rfl, last⟩ | ⟨between, rfl, rest⟩ := List.append_eq_append_iff.mp same
  · cases beyond with
    | nil => exact ⟨[], by simp, last.symm⟩
    | cons token beyond =>
      have inside := derived.not_separator token (by simp)
      have kind := ends.nextKind_eq
      rw [last] at kind
      change token.kind = .endOfInput at kind
      rw [kind] at inside
      cases inside
  · exact ⟨between, rfl, rest⟩

end Ending

theorem Statements.single {tokens : List Token} {expr : Expr} (derived : Derives .expr tokens expr)
    (fits : expr.need ≤ 256) : Statements tokens [.ofExpr expr] := by
  obtain ⟨first, rest, rfl, line⟩ := derived.head
  rw [Stmt.ofExpr, line]
  exact .last blank_nil derived fits

namespace Statements

variable {setting : Setting} {tokens ending rest : List Token} {body : List Stmt}

theorem readBody (statements : Statements tokens body) (ends : Ending ending)
    (standard : setting.grammar = .standard) :
    ∃ rest, setting.readBody (tokens ++ ending) = .ok body rest := by
  have separates : (nextKind ending).isSeparator := by rw [ends.nextKind_eq]; rfl
  induction statements with
  | @none blank blanks =>
    have skipped : skipNewLines (blank ++ ending) = ending :=
      skipNewLines_blank blanks ends.stops
    exact ⟨_, Setting.readBody_of_end (by rw [skipped, ends.nextKind_eq])⟩
  | last blanks derived fits =>
    rw [Setting.readBody_statement standard blanks derived fits separates, ends.tail_eq,
      Setting.readBody_nil]
    exact ⟨[], rfl⟩
  | @next blank first tokens expr separator rest body blanks derived fits kind _ ih =>
    obtain ⟨left, read⟩ := ih
    have separates : (nextKind (separator :: (rest ++ ending))).isSeparator :=
      TokenKind.isSeparator_iff.mpr (kind.imp_right .inl)
    rw [List.append_assoc, List.cons_append,
      Setting.readBody_statement standard blanks derived fits separates, List.tail_cons, read]
    exact ⟨left, rfl⟩

theorem of_readBody (clean : ∀ token ∈ tokens, token.kind ≠ .endOfInput) (ends : Ending ending)
    (standard : setting.grammar = .standard)
    (read : setting.readBody (tokens ++ ending) = .ok body rest) : Statements tokens body := by
  induction size : (tokens ++ ending).length using Nat.strongRecOn generalizing tokens body with
  | ind size ih =>
    obtain ⟨blank, blanks, split, _⟩ := skipNewLines_split tokens
    obtain ⟨done, all⟩ | ⟨_, _, _, _, failed⟩ | ⟨stmt, next, step, shorter, round⟩ :=
      setting.readBody_cases (tokens ++ ending)
    · cases all.symm.trans read
      rw [skipNewLines_append tokens ends.stops] at done
      cases left : skipNewLines tokens with
      | nil =>
        rw [left, List.append_nil] at split
        exact split ▸ .none blanks
      | cons first rest =>
        rw [left] at split done
        exact absurd done (clean first (by rw [split]; simp))
    · cases failed.symm.trans read
    · obtain ⟨remaining, inner, rfl⟩ := Outcome.map_eq_ok (round.symm.trans read)
      rw [skipNewLines_append tokens ends.stops] at step
      obtain ⟨used, middle, expr, same, derived, fits, separates, rfl, rfl⟩ :=
        (Setting.readStmt_standard standard).mp step
      obtain ⟨between, left, rfl⟩ := ends.within derived same
      obtain ⟨first, rest, rfl, line⟩ := derived.head
      rw [left] at split
      rw [Stmt.ofExpr, line]
      cases between with
      | nil =>
        rw [List.nil_append, ends.tail_eq, Setting.readBody_nil] at inner
        cases inner
        rw [split, List.append_nil]
        exact .last blanks derived fits
      | cons separator between =>
        have member : separator ∈ tokens := by rw [split]; simp
        have kind : separator.kind = .newLine ∨ separator.kind = .semicolon := by
          have notEnd := clean separator member
          have kinds := TokenKind.isSeparator_iff.mp separates
          exact kinds.imp_right fun kind => kind.resolve_right notEnd
        have statements := ih _ (size ▸ shorter)
          (fun token inside => clean token (by rw [split]; simp [inside])) inner rfl
        rw [split, ← List.append_assoc]
        exact .next blanks derived fits kind statements

end Statements

theorem Setting.ofTokens_append (grammar : Grammar) (file : String) (before : List Token)
    {tokens : List Token} (some : tokens ≠ []) :
    ofTokens grammar file (before ++ tokens) = ofTokens grammar file tokens := by
  obtain ⟨front, last, rfl⟩ := List.eq_nil_or_concat tokens |>.resolve_left some
  simp [ofTokens]

theorem parse_eq_ok {tokens : List Token} {file : String} {body : List Stmt} :
    parse tokens file = .ok ⟨body⟩ ↔
      ∃ rest, (Setting.ofTokens .standard file tokens).readBody tokens = .ok body rest := by
  rw [← Outcome.result_eq_ok, parse]
  cases (Setting.readBody _ _).result <;> simp [Except.map]

theorem parse_eq_error {tokens : List Token} {file : String} {d : Diagnostic} :
    parse tokens file = .error d ↔
      ∃ rest, (Setting.ofTokens .standard file tokens).readBody tokens = .error d rest := by
  rw [parse]
  cases (Setting.readBody _ _) <;> simp [Except.map, Outcome.result]

theorem parseExpression_eq_error {tokens : List Token} {file : String} {d : Diagnostic} :
    parseExpression tokens file = .error d ↔ ∃ rest,
      ((Setting.ofTokens .standard file tokens).level nestingLimit).read .default tokens =
        .error d rest := by
  rw [parseExpression]
  cases Operand.read _ _ _ <;> simp [Outcome.result]

/-- Parsing accepts exactly the program grammar, whether or not the end of input is
among the tokens: the statements are those of the program, in order, and each is
marked with the line of its first token. -/
theorem parse_eq_ok_iff (tokens ending : List Token) (file : String) (program : Program)
    (clean : ∀ token ∈ tokens, token.kind ≠ .endOfInput) (ends : Ending ending) :
    parse (tokens ++ ending) file = .ok program ↔ Statements tokens program.body := by
  obtain ⟨body⟩ := program
  rw [parse_eq_ok]
  constructor
  · rintro ⟨rest, read⟩
    exact .of_readBody clean ends rfl read
  · intro statements
    exact statements.readBody ends rfl

/-- An assignment and a name, with a blank line before each and the end of input behind. -/
theorem parse_assignment_then_name :
    parse ([.bare .newLine 1, .identifier "a" 2, .bare .assignment 2, .int 1 2,
        .bare .semicolon 2, .bare .newLine 2, .identifier "b" 3] ++ [.bare .endOfInput 3]) "shell" =
      .ok ⟨[⟨.assign ⟨.identifier "a" 2, "a"⟩ (.literal (.int 1) 2), 2⟩,
        ⟨.name ⟨.identifier "b" 3, "b"⟩, 3⟩]⟩ := by
  have one : Derives .expr [.int 1 2] (.literal (.int 1) 2) :=
    .ofSum (.ofProduct (.ofUnary (.ofPrimary (.int rfl rfl))))
  have assign : Derives .expr [.identifier "a" 2, .bare .assignment 2, .int 1 2]
      (.assign ⟨.identifier "a" 2, "a"⟩ (.literal (.int 1) 2)) := .assign rfl rfl rfl one
  have name : Derives .expr [.identifier "b" 3] (.name ⟨.identifier "b" 3, "b"⟩) :=
    .ofSum (.ofProduct (.ofUnary (.ofPrimary (.name rfl rfl))))
  have blank (line : UInt32) : Blank [.bare .newLine line] := by
    intro token member
    cases List.mem_singleton.mp member
    rfl
  apply (parse_eq_ok_iff _ _ "shell" ⟨_⟩ (by decide) (.inr ⟨_, rfl, rfl⟩)).mpr
  exact .next (blank 1) assign (by decide) (.inr rfl) (.last (blank 2) name (by decide))

end ScriptFront
