import Mathlib.Data.List.TakeWhile
import ScriptFront.Proofs.EarliestError

/-! The end of input, among the tokens and behind the last of them. Readers see tokens only
from the front, and none but the statement loop goes on behind an end of input, so tokens
that look alike up to there are read alike. Further ends of input behind the last token
change nothing. Behind the first one the statement loop goes on only where that stood in
place of a separator. -/
namespace ScriptFront

/-- The same value, with related tokens left, or the same diagnostic. -/
inductive Outcome.Alike {α : Type} (R : List Token → List Token → Prop) :
    Outcome α → Outcome α → Prop where
  | ok {value rest rest'} : R rest rest' → Alike R (.ok value rest) (.ok value rest')
  | error {d rest rest'} : Alike R (.error d rest) (.error d rest')

theorem Outcome.Alike.map {α β : Type} {R : List Token → List Token → Prop}
    {outcome outcome' : Outcome α} (alike : outcome.Alike R outcome') (f : α → β) :
    (outcome.map f).Alike R (outcome'.map f) := by
  cases alike with
  | ok related => exact .ok related
  | error => exact .error

theorem Outcome.Alike.result_eq {α : Type} {R : List Token → List Token → Prop}
    {outcome outcome' : Outcome α} (alike : outcome.Alike R outcome') :
    outcome'.result = outcome.result := by
  cases alike <;> rfl

theorem Outcome.result_map {α β : Type} (f : α → β) (outcome : Outcome α) :
    (outcome.map f).result = outcome.result.map f := by
  cases outcome <;> rfl

/-- Readers that read related tokens alike. -/
def Operand.Alike (R : List Token → List Token → Prop) (operand operand' : Operand) : Prop :=
  ∀ power {tokens tokens'}, R tokens tokens' →
    (operand.read power tokens).Alike R (operand'.read power tokens')

namespace Setting

/-- Related tokens, the second ending on the given line, look alike from the front: the next
token is the same, and unless it is an end of input the tokens behind are related again. -/
structure LooksAlike (setting : Setting) (line : UInt32) (R : List Token → List Token → Prop) :
    Prop where
  current : ∀ {tokens tokens'}, R tokens tokens' →
    (setting.endingOn line).current tokens' = setting.current tokens
  tail : ∀ {tokens tokens'}, R tokens tokens' → (setting.current tokens).kind ≠ .endOfInput →
    R tokens.tail tokens'.tail

/-- What reading a separator off related tokens leaves. -/
def Behind (R : List Token → List Token → Prop) (rest rest' : List Token) : Prop :=
  ∃ tokens tokens', R tokens tokens' ∧ rest = tokens.tail ∧ rest' = tokens'.tail

section Alike

variable {setting : Setting} {line : UInt32} {R : List Token → List Token → Prop}
  {operand operand' : Operand} {tokens tokens' : List Token}

theorem closeGroup_alike (alike : setting.LooksAlike line R) (related : R tokens tokens')
    (inner : Expr) (opening : UInt32) :
    (setting.closeGroup inner opening tokens).Alike R
      ((setting.endingOn line).closeGroup inner opening tokens') := by
  simp only [closeGroup, alike.current related]
  split
  · rename_i closes
    exact .ok (alike.tail related (by rw [closes]; decide))
  · split <;> exact .error

theorem startWith_alike (alike : setting.LooksAlike line R) (below : operand.Alike R operand')
    (related : R tokens tokens') (rule : StartRule) (token : Token) :
    (setting.startWith operand rule token tokens).Alike R
      ((setting.endingOn line).startWith operand' rule token tokens') := by
  cases rule with
  | name =>
    simp only [startWith]
    split
    · exact .ok related
    · exact .error
  | literal =>
    simp only [startWith]
    split
    · exact .ok related
    · exact .error
  | unary => exact (below .unary related).map _
  | grouping =>
    have inner := below .default related
    simp only [startWith]
    generalize operand.read .default tokens = outcome at inner
    generalize operand'.read .default tokens' = outcome' at inner
    cases inner with
    | ok related => exact closeGroup_alike alike related _ _
    | error => exact .error

theorem joinWith_alike (setting : Setting) (line : UInt32) (below : operand.Alike R operand')
    (related : R tokens tokens') (rule : JoinRule) (left : Expr) (operator : Token)
    (power : Power) :
    (setting.joinWith operand rule left operator power tokens).Alike R
      ((setting.endingOn line).joinWith operand' rule left operator power tokens') := by
  cases rule with
  | binary => exact (below power related).map _
  | assignment =>
    cases left with
    | name target => exact (below power.lower related).map _
    | _ => exact .error

/-- The end of input joins nothing, so no round of extending goes past it. -/
theorem extend_alike (alike : setting.LooksAlike line R) (closed : setting.grammar.Sealed)
    (below : operand.Alike R operand') (related : R tokens tokens') (power : Power)
    (left : Expr) :
    (setting.extend operand power left tokens).Alike R
      ((setting.endingOn line).extend operand' power left tokens') := by
  induction size : tokens.length using Nat.strongRecOn generalizing left tokens tokens' with
  | ind size ih =>
    have grammar : (setting.endingOn line).grammar = setting.grammar := rfl
    rw [setting.extend_eq operand, (setting.endingOn line).extend_eq operand',
      alike.current related, grammar]
    cases joined : setting.grammar.join? (setting.current tokens).kind with
    | none => exact .ok related
    | some join =>
      have more : (setting.current tokens).kind ≠ .endOfInput := by
        intro ends
        rw [ends, closed.join] at joined
        cases joined
      have step := setting.joinWith_alike line below (alike.tail related more) join.rule left
        (setting.current tokens) join.power
      dsimp only
      split
      · exact .ok related
      · generalize read : setting.joinWith operand join.rule left (setting.current tokens)
          join.power tokens.tail = outcome at step
        generalize joinWith _ operand' join.rule left _ join.power tokens'.tail = outcome' at step
        cases step with
        | ok related => exact ih _ (size ▸ joinWith_tail_shorter read) related _ rfl
        | error => exact .error

theorem readNested_alike (alike : setting.LooksAlike line R) (closed : setting.grammar.Sealed)
    (below : operand.Alike R operand') (power : Power) (related : R tokens tokens') :
    (setting.readNested operand power tokens).Alike R
      ((setting.endingOn line).readNested operand' power tokens') := by
  have grammar : (setting.endingOn line).grammar = setting.grammar := rfl
  simp only [readNested, alike.current related, grammar]
  cases starts : setting.grammar.start? (setting.current tokens).kind with
  | none => exact .error
  | some rule =>
    have more : (setting.current tokens).kind ≠ .endOfInput := by
      intro ends
      rw [ends, closed.start] at starts
      cases starts
    have start := startWith_alike alike below (alike.tail related more) rule
      (setting.current tokens)
    dsimp only
    generalize setting.startWith operand rule _ tokens.tail = outcome at start
    generalize startWith _ operand' rule _ tokens'.tail = outcome' at start
    cases start with
    | ok related => exact extend_alike alike closed below related power _
    | error => exact .error

theorem level_alike (alike : setting.LooksAlike line R) (closed : setting.grammar.Sealed)
    (room : Nat) : (setting.level room).Alike R ((setting.endingOn line).level room) := by
  induction room with
  | zero =>
    intro power tokens tokens' related
    have stopped : (setting.endingOn line).tooDeep tokens' = setting.tooDeep tokens := by
      rw [tooDeep, alike.current related]
      rfl
    simp only [level, stopped]
    exact .error
  | succ room below =>
    intro power tokens tokens' related
    exact readNested_alike alike closed below power related

theorem readStmt_alike (alike : setting.LooksAlike line R) (closed : setting.grammar.Sealed)
    (room : Nat) (related : R tokens tokens') :
    (setting.readStmt room tokens).Alike (Behind R)
      ((setting.endingOn line).readStmt room tokens') := by
  have inner := level_alike alike closed room .default related
  simp only [readStmt]
  generalize (setting.level room).read .default tokens = outcome at inner
  generalize ((setting.endingOn line).level room).read .default tokens' = outcome' at inner
  cases inner with
  | error => exact .error
  | ok related =>
    simp only [alike.current related]
    split
    · exact .ok ⟨_, _, related, rfl, rfl⟩
    · exact .error

theorem LooksAlike.nextKind_eq (alike : setting.LooksAlike line R) (related : R tokens tokens') :
    nextKind tokens' = nextKind tokens := by
  rw [← (setting.endingOn line).current_kind, alike.current related, setting.current_kind]

end Alike

section Padded

variable {setting : Setting} {tokens tokens' : List Token}

/-- The second tokens are the first with further ends of input behind. -/
def Padded (setting : Setting) (tokens tokens' : List Token) : Prop :=
  ∃ count, tokens' = tokens ++ List.replicate count setting.endToken

theorem Padded.tail (padded : setting.Padded tokens tokens') :
    setting.Padded tokens.tail tokens'.tail := by
  obtain ⟨count, rfl⟩ := padded
  cases tokens with
  | nil => exact ⟨count - 1, by simp⟩
  | cons token tokens => exact ⟨count, rfl⟩

theorem padded_looksAlike (setting : Setting) :
    setting.LooksAlike setting.lastLine setting.Padded := by
  constructor
  · rintro tokens _ ⟨count, rfl⟩
    cases tokens with
    | nil => cases count <;> rfl
    | cons => rfl
  · intro tokens tokens' padded _
    exact padded.tail

theorem nextKind_endTokens (setting : Setting) (count : Nat) :
    nextKind (List.replicate count setting.endToken) = .endOfInput := by
  cases count <;> rfl

/-- The statement loop reads past an end of input only where there is another or none left. -/
theorem readBody_padded (closed : setting.grammar.Sealed) (padded : setting.Padded tokens tokens') :
    (setting.readBody tokens).Alike setting.Padded (setting.readBody tokens') := by
  induction size : tokens.length using Nat.strongRecOn generalizing tokens tokens' with
  | ind size ih =>
    obtain ⟨count, rfl⟩ := padded
    have stops : nextKind (List.replicate count setting.endToken) ≠ .newLine := by
      rw [setting.nextKind_endTokens]
      decide
    have skipped := skipNewLines_append tokens stops
    have start : setting.Padded (skipNewLines tokens)
        (skipNewLines (tokens ++ List.replicate count setting.endToken)) := ⟨count, skipped⟩
    have kind := setting.padded_looksAlike.nextKind_eq start
    have step : (setting.readStmt nestingLimit (skipNewLines tokens)).Alike
        (Behind setting.Padded) (setting.readStmt nestingLimit (skipNewLines (tokens ++ _))) :=
      readStmt_alike setting.padded_looksAlike closed nestingLimit start
    by_cases ends : nextKind (skipNewLines tokens) = .endOfInput
    · rw [readBody_of_end ends, readBody_of_end (kind.trans ends)]
      exact .ok start
    · generalize read : setting.readStmt nestingLimit (skipNewLines tokens) = outcome at step
      generalize read' : setting.readStmt nestingLimit (skipNewLines (tokens ++ _)) =
        outcome' at step
      cases step with
      | error =>
        rw [readBody_of_error ends read, readBody_of_error (kind ▸ ends) read']
        exact .error
      | ok behind =>
        obtain ⟨middle, middle', padded, rfl, rfl⟩ := behind
        have shorter := Nat.lt_of_lt_of_le (readStmt_shorter read) (skipNewLines_length tokens)
        rw [readBody_of_readStmt ends read, readBody_of_readStmt (kind ▸ ends) read']
        exact (ih _ (size ▸ shorter) padded.tail rfl).map _

end Padded

section Behind

variable {setting : Setting} {last : Token} {before behind tokens rest : List Token}

/-- The same tokens up to an end of input, and none behind it in the first. -/
def UpTo (last : Token) (behind tokens tokens' : List Token) : Prop :=
  ∃ before, tokens = before ++ [last] ∧ tokens' = before ++ last :: behind

theorem upTo_looksAlike (setting : Setting) (line : UInt32) (ends : last.kind = .endOfInput)
    (behind : List Token) : setting.LooksAlike line (UpTo last behind) := by
  constructor
  · rintro _ _ ⟨before, rfl, rfl⟩
    cases before <;> rfl
  · rintro _ _ ⟨before, rfl, rfl⟩ more
    cases before with
    | nil => exact absurd ends more
    | cons token before => exact ⟨before, rfl, rfl⟩

/-- An error before an end of input, or at it, does not depend on what is behind. -/
theorem readBody_error_upTo (standard : setting.grammar = .standard)
    (ends : last.kind = .endOfInput) {d : Diagnostic}
    (failed : setting.readBody (before ++ [last]) = .error d rest) (line : UInt32)
    (behind : List Token) :
    ∃ left, (setting.endingOn line).readBody (before ++ last :: behind) = .error d left := by
  obtain ⟨passed, start, split, passes, first, more, step⟩ := readBody_error_cases standard failed
  obtain rfl | ⟨front, token, rfl⟩ := List.eq_nil_or_concat start
  · exact absurd rfl more
  · rw [List.concat_eq_append] at step first more split
    rw [← List.append_assoc] at split
    obtain ⟨rfl, same⟩ := List.append_inj' split rfl
    cases same
    have related : UpTo last behind (front ++ [last]) (front ++ last :: behind) := ⟨front, rfl, rfl⟩
    have alike := upTo_looksAlike setting line ends behind
    have step' := readStmt_alike alike (standard ▸ Grammar.standard_sealed) nestingLimit related
    have kind := alike.nextKind_eq related
    rw [step] at step'
    generalize read : (setting.endingOn line).readStmt nestingLimit (front ++ last :: behind) =
      outcome at step'
    cases step'
    rw [List.append_assoc]
    exact ⟨_, passes.readBody_error (kind ▸ first) (kind ▸ more) read⟩

end Behind

end Setting

/-- No statement is left without its separator at the end of the tokens. -/
def isEnded (tokens : List Token) : Bool := tokens.getLast?.all Token.isSeparator

theorem isEnded_append {tokens : List Token} (some : tokens ≠ []) (before : List Token) :
    isEnded (before ++ tokens) = isEnded tokens := by
  rw [isEnded, List.getLast?_append, List.getLast?_eq_some_getLast some, isEnded,
    List.getLast?_eq_some_getLast some, Option.some_or]

theorem isEnded_eq {tokens : List Token} {separates : Bool} (some : tokens ≠ [])
    (all : ∀ token ∈ tokens, token.isSeparator = separates) : isEnded tokens = separates := by
  rw [isEnded, List.getLast?_eq_some_getLast some]
  exact all _ (List.getLast_mem some)

theorem isEnded_blank {blank : List Token} (blanks : Blank blank) : isEnded blank := by
  cases blank with
  | nil => rfl
  | cons token blank =>
    apply isEnded_eq (List.cons_ne_nil _ _)
    intro token member
    rw [Token.isSeparator, blanks token member]
    rfl

namespace Statements

variable {setting : Setting} {tokens : List Token} {body : List Stmt} {last : Token}

/-- Behind whole statements an end of input stops the statement loop. Behind one without
separator it is read in place of that, and the loop goes on. -/
theorem readBody_behind (statements : Statements tokens body)
    (standard : setting.grammar = .standard) (ends : last.kind = .endOfInput)
    (behind : List Token) :
    (setting.readBody (tokens ++ last :: behind)).result =
      if isEnded tokens then .ok body else (setting.readBody behind).result.map (body ++ ·) := by
  have kind : nextKind (last :: behind) = .endOfInput := ends
  induction statements with
  | @none blank blanks =>
    have skipped : skipNewLines (blank ++ last :: behind) = last :: behind :=
      skipNewLines_blank blanks (by rw [kind]; decide)
    rw [if_pos (isEnded_blank blanks), Setting.readBody_of_end (by rw [skipped, kind])]
    rfl
  | last blanks derived fits =>
    have unended : isEnded (_ :: _) = false :=
      isEnded_eq (List.cons_ne_nil _ _) derived.not_separator
    rw [isEnded_append (List.cons_ne_nil _ _), unended,
      Setting.readBody_statement standard blanks derived fits (by rw [kind]; rfl),
      Outcome.result_map]
    rfl
  | @next blank first tokens expr separator rest body blanks derived fits separates _ ih =>
    have next : (nextKind (separator :: (rest ++ last :: behind))).isSeparator :=
      TokenKind.isSeparator_iff.mpr (separates.imp_right .inl)
    have same : isEnded (blank ++ first :: tokens ++ separator :: rest) = isEnded rest := by
      rw [isEnded_append (List.cons_ne_nil _ _)]
      cases rest with
      | nil => exact TokenKind.isSeparator_iff.mpr (separates.imp_right .inl)
      | cons token rest => exact isEnded_append (List.cons_ne_nil _ _) [separator]
    rw [List.append_assoc, List.cons_append,
      Setting.readBody_statement standard blanks derived fits next, List.tail_cons,
      Outcome.result_map, ih, same]
    split
    · rfl
    · cases (setting.readBody behind).result <;> rfl

end Statements

/-- The line of the last token, or the first line. -/
def lastLine (tokens : List Token) : UInt32 := (tokens.getLast?.map Token.line).getD 1

/-- The end of input behind the last token cannot be told from ends of input among the tokens:
with any number of them added, on the line of the last token, programs and expressions are
parsed to the same trees or the same errors. -/
theorem parse_append_endTokens (tokens : List Token) (count : Nat) (file : String) :
    parse (tokens ++ List.replicate count (.bare .endOfInput (lastLine tokens))) file =
        parse tokens file ∧
      parseExpression (tokens ++ List.replicate count (.bare .endOfInput (lastLine tokens))) file =
        parseExpression tokens file := by
  let setting := Setting.ofTokens .standard file tokens
  have same : Setting.ofTokens .standard file
      (tokens ++ List.replicate count (.bare .endOfInput (lastLine tokens))) = setting := by
    cases count with
    | zero => rw [List.replicate_zero, List.append_nil]
    | succ count =>
      rw [List.replicate_succ', ← List.append_assoc, Setting.ofTokens, List.getLast?_concat]
      rfl
  have padded : setting.Padded tokens
      (tokens ++ List.replicate count (.bare .endOfInput (lastLine tokens))) := ⟨count, rfl⟩
  have closed : setting.grammar.Sealed := Grammar.standard_sealed
  constructor
  · rw [parse, parse, same, (Setting.readBody_padded closed padded).result_eq]
  · have alike := Setting.level_alike setting.padded_looksAlike closed nestingLimit .default padded
    rw [parseExpression, parseExpression, same]
    exact alike.result_eq

section Behind

variable {before : List Token} {last : Token}

theorem parse_error_behind {file : String} {d : Diagnostic} (ends : last.kind = .endOfInput)
    (failed : parse (before ++ [last]) file = .error d) (behind : List Token) :
    parse (before ++ last :: behind) file = .error d := by
  obtain ⟨rest, read⟩ := parse_eq_error.mp failed
  exact parse_eq_error.mpr (Setting.readBody_error_upTo rfl ends read _ behind)

theorem parse_ok_behind {file : String} {program : Program}
    (clean : ∀ token ∈ before, token.kind ≠ .endOfInput) (ends : last.kind = .endOfInput)
    (parsed : parse (before ++ [last]) file = .ok program) (behind : List Token) :
    parse (before ++ last :: behind) file =
      if isEnded before then .ok program
      else (parse behind file).map fun more => ⟨program.body ++ more.body⟩ := by
  have statements : Statements before program.body :=
    (parse_eq_ok_iff before [last] file program clean (.inr ⟨last, ends, rfl⟩)).mp parsed
  -- The line of the end of input behind the last token is that of the tokens behind, if any.
  have alone :
      ((Setting.ofTokens .standard file (before ++ last :: behind)).readBody behind).result =
      ((Setting.ofTokens .standard file behind).readBody behind).result := by
    cases behind with
    | nil => rw [Setting.readBody_nil, Setting.readBody_nil]
    | cons token behind =>
      rw [← List.singleton_append, ← List.append_assoc,
        Setting.ofTokens_append _ _ _ (List.cons_ne_nil token behind)]
  rw [parse, parse, statements.readBody_behind rfl ends, alone]
  split
  · rfl
  · cases (Setting.readBody _ behind).result <;> rfl

end Behind

/-- What is parsed behind an end of input. Where that stands behind an error or behind whole
statements, nothing is; where it stands in place of a separator, the statements behind it
follow those before. -/
theorem parse_behind_endOfInput (before behind : List Token) (last : Token) (file : String)
    (clean : ∀ token ∈ before, token.kind ≠ .endOfInput) (ends : last.kind = .endOfInput) :
    parse (before ++ last :: behind) file =
        (parse (before ++ [last]) file).bind (fun program =>
          if isEnded before then .ok program
          else (parse behind file).map fun more => ⟨program.body ++ more.body⟩) ∧
      (parse (before ++ last :: behind) file = parse (before ++ [last]) file ↔
        (∃ d, parse (before ++ [last]) file = .error d) ∨ isEnded before ∨
          parse behind file = .ok ⟨[]⟩) := by
  cases parsed : parse (before ++ [last]) file with
  | error d =>
    have whole := parse_error_behind ends parsed behind
    exact ⟨whole, fun _ => .inl ⟨d, rfl⟩, fun _ => whole⟩
  | ok program =>
    have whole := parse_ok_behind clean ends parsed behind
    refine ⟨whole, ?_⟩
    rw [whole]
    by_cases ended : isEnded before
    · simp [ended]
    · cases parse behind file with
      | error d => simp [ended, Except.map]
      | ok more =>
        obtain ⟨body⟩ := program
        obtain ⟨body'⟩ := more
        simp [ended, Except.map]

/-- Two names, an end of input behind each. -/
def twoEnds : List Token :=
  [.identifier "a" 1, .bare .endOfInput 1, .identifier "b" 2, .bare .endOfInput 2]

/-- The second name is a statement too, as the first end of input is read in place of its
separator. Behind a semicolon the end of input stops the loop, whatever follows it. -/
theorem parse_twoEnds :
    parse twoEnds "shell" =
        .ok ⟨[⟨.name ⟨.identifier "a" 1, "a"⟩, 1⟩, ⟨.name ⟨.identifier "b" 2, "b"⟩, 2⟩]⟩ ∧
      parse ([.identifier "a" 1, .bare .semicolon 1] ++ .bare .endOfInput 1 ::
          [.bare .closeParen 2]) "shell" =
        .ok ⟨[⟨.name ⟨.identifier "a" 1, "a"⟩, 1⟩]⟩ := by
  constructor
  · have first : parse ([.identifier "a" 1] ++ [.bare .endOfInput 1]) "shell" =
        .ok ⟨[⟨.name ⟨.identifier "a" 1, "a"⟩, 1⟩]⟩ := by decide +kernel
    have second : parse [.identifier "b" 2, .bare .endOfInput 2] "shell" =
        .ok ⟨[⟨.name ⟨.identifier "b" 2, "b"⟩, 2⟩]⟩ := by decide +kernel
    obtain ⟨whole, _⟩ := parse_behind_endOfInput [.identifier "a" 1]
      [.identifier "b" 2, .bare .endOfInput 2] (.bare .endOfInput 1) "shell" (by decide) rfl
    rw [first, second] at whole
    exact whole
  · have first : parse ([.identifier "a" 1, .bare .semicolon 1] ++ [.bare .endOfInput 1]) "shell" =
        .ok ⟨[⟨.name ⟨.identifier "a" 1, "a"⟩, 1⟩]⟩ := by decide +kernel
    obtain ⟨_, same⟩ := parse_behind_endOfInput [.identifier "a" 1, .bare .semicolon 1]
      [.bare .closeParen 2] (.bare .endOfInput 1) "shell" (by decide) rfl
    exact (same.mpr (.inr (.inl rfl))).trans first

/-- An end of input does not end the program where it follows a name. -/
theorem parse_twoEnds_ne : parse twoEnds "shell" ≠ parse (twoEnds.take 2) "shell" := by
  decide +kernel

end ScriptFront
