import ScriptFront.Proofs.LexicalGrammar
import ScriptFront.Proofs.ProgramGrammar

/-! Moving a source to other lines. Reading looks at no line: tokens that stand on other
lines are read to the same expressions, and fail by the same faults, on other lines.
Scanning only counts lines on from where it starts. -/
namespace ScriptFront

variable {f : UInt32 → UInt32}

def Token.reline (f : UInt32 → UInt32) (token : Token) : Token :=
  { token with line := f token.line }

def NameUse.reline (f : UInt32 → UInt32) (use : NameUse) : NameUse :=
  ⟨use.token.reline f, use.name⟩

/-- The expression with the line of every node and token changed. -/
def Expr.reline (f : UInt32 → UInt32) : Expr → Expr
  | .name use => .name (use.reline f)
  | .literal value line => .literal value (f line)
  | .unary operator right => .unary (operator.reline f) (right.reline f)
  | .grouping inner line => .grouping (inner.reline f) (f line)
  | .binary left operator right => .binary (left.reline f) (operator.reline f) (right.reline f)
  | .assign target value => .assign (target.reline f) (value.reline f)

def Stmt.reline (f : UInt32 → UInt32) (stmt : Stmt) : Stmt :=
  ⟨stmt.expression.reline f, f stmt.line⟩

def Program.reline (f : UInt32 → UInt32) (program : Program) : Program :=
  ⟨program.body.map (Stmt.reline f)⟩

def Diagnostic.reline (f : UInt32 → UInt32) (d : Diagnostic) : Diagnostic :=
  ⟨d.fault, f d.position.line, d.position.file⟩

def Setting.reline (f : UInt32 → UInt32) (setting : Setting) : Setting :=
  { setting with lastLine := f setting.lastLine }

def Outcome.reline {α : Type} (move : α → α) (f : UInt32 → UInt32) : Outcome α → Outcome α
  | .ok value rest => .ok (move value) (rest.map (Token.reline f))
  | .error d rest => .error (d.reline f) (rest.map (Token.reline f))

@[simp] theorem Token.kind_reline (token : Token) : (token.reline f).kind = token.kind := rfl

@[simp] theorem Token.render_reline (token : Token) : (token.reline f).render = token.render := rfl

@[simp] theorem Token.text?_reline (token : Token) : (token.reline f).text? = token.text? := rfl

@[simp] theorem Token.literal?_reline (token : Token) :
    (token.reline f).literal? = token.literal? := rfl

@[simp] theorem Token.isSeparator_reline (token : Token) :
    (token.reline f).isSeparator = token.isSeparator := rfl

@[simp] theorem Setting.grammar_reline (setting : Setting) :
    (setting.reline f).grammar = setting.grammar := rfl

@[simp] theorem Expr.line_reline (expr : Expr) : (expr.reline f).line = f expr.line := by
  induction expr with
  | binary left operator right ih => exact ih
  | _ => rfl

@[simp] theorem Outcome.reline_ok {α : Type} (move : α → α) (value : α) (rest : List Token) :
    (Outcome.ok value rest).reline move f = .ok (move value) (rest.map (Token.reline f)) := rfl

theorem Outcome.reline_map {α β : Type} {move : α → α} {move' : β → β} {g g' : α → β}
    (commutes : ∀ value, g' (move value) = move' (g value)) (outcome : Outcome α) :
    (outcome.reline move f).map g' = (outcome.map g).reline move' f := by
  cases outcome with
  | ok value rest => exact congrArg (Outcome.ok · _) (commutes value)
  | error d rest => rfl

/-- One reader does on the changed lines what another does on the given ones. -/
def Operand.Relines (f : UInt32 → UInt32) (moved operand : Operand) : Prop :=
  ∀ power tokens, moved.read power (tokens.map (Token.reline f)) =
    (operand.read power tokens).reline (Expr.reline f) f

namespace Setting

variable {setting : Setting} {moved operand : Operand}

@[simp] theorem current_reline (tokens : List Token) :
    (setting.reline f).current (tokens.map (Token.reline f)) =
      (setting.current tokens).reline f := by
  cases tokens <;> rfl

theorem closeGroup_reline (inner : Expr) (line : UInt32) (tokens : List Token) :
    (setting.reline f).closeGroup (inner.reline f) (f line) (tokens.map (Token.reline f)) =
      (setting.closeGroup inner line tokens).reline (Expr.reline f) f := by
  simp only [closeGroup, current_reline, Token.kind_reline, Token.render_reline, ← List.map_tail]
  split
  · rfl
  · split <;> rfl

theorem startWith_reline (relines : moved.Relines f operand) (rule : StartRule) (token : Token)
    (tokens : List Token) :
    (setting.reline f).startWith moved rule (token.reline f) (tokens.map (Token.reline f)) =
      (setting.startWith operand rule token tokens).reline (Expr.reline f) f := by
  cases rule with
  | name =>
    simp only [startWith, Token.text?_reline]
    split <;> rfl
  | literal =>
    simp only [startWith, Token.literal?_reline]
    split <;> rfl
  | unary =>
    simp only [startWith, relines .unary tokens]
    apply Outcome.reline_map
    exact fun _ => rfl
  | grouping =>
    simp only [startWith, relines .default tokens]
    cases operand.read .default tokens with
    | ok inner rest => exact closeGroup_reline inner token.line rest
    | error d rest => rfl

theorem joinWith_reline (relines : moved.Relines f operand) (rule : JoinRule) (left : Expr)
    (operator : Token) (power : Power) (tokens : List Token) :
    (setting.reline f).joinWith moved rule (left.reline f) (operator.reline f) power
        (tokens.map (Token.reline f)) =
      (setting.joinWith operand rule left operator power tokens).reline (Expr.reline f) f := by
  cases rule with
  | binary =>
    simp only [joinWith, relines power tokens]
    apply Outcome.reline_map
    exact fun _ => rfl
  | assignment =>
    cases left with
    | name target =>
      simp only [joinWith, Expr.reline, relines power.lower tokens]
      apply Outcome.reline_map
      exact fun _ => rfl
    | _ => rfl

theorem extend_reline (relines : moved.Relines f operand) (power : Power) (left : Expr)
    (tokens : List Token) :
    (setting.reline f).extend moved power (left.reline f) (tokens.map (Token.reline f)) =
      (setting.extend operand power left tokens).reline (Expr.reline f) f := by
  induction size : tokens.length using Nat.strongRecOn generalizing left tokens with
  | ind size ih =>
    rw [extend_eq, setting.extend_eq, current_reline, Token.kind_reline, grammar_reline,
      ← List.map_tail]
    cases setting.grammar.join? (setting.current tokens).kind with
    | none => rfl
    | some join =>
      dsimp only
      split
      · rfl
      · rw [joinWith_reline relines]
        cases read : setting.joinWith operand join.rule left (setting.current tokens) join.power
            tokens.tail with
        | error d rest => rfl
        | ok expr rest => exact ih _ (size ▸ joinWith_tail_shorter read) expr rest rfl

theorem readNested_reline (relines : moved.Relines f operand) (power : Power)
    (tokens : List Token) :
    (setting.reline f).readNested moved power (tokens.map (Token.reline f)) =
      (setting.readNested operand power tokens).reline (Expr.reline f) f := by
  simp only [readNested, current_reline, Token.kind_reline, grammar_reline, ← List.map_tail]
  cases setting.grammar.start? (setting.current tokens).kind with
  | none => rfl
  | some rule =>
    dsimp only
    rw [startWith_reline relines]
    cases setting.startWith operand rule (setting.current tokens) tokens.tail with
    | error d rest => rfl
    | ok left rest => exact extend_reline relines power left rest

theorem level_reline (setting : Setting) (f : UInt32 → UInt32) (room : Nat) :
    ((setting.reline f).level room).Relines f (setting.level room) := by
  induction room with
  | zero =>
    intro power tokens
    simp only [level, tooDeep, current_reline]
    rfl
  | succ room below => exact readNested_reline below

theorem readStmt_reline (room : Nat) (tokens : List Token) :
    (setting.reline f).readStmt room (tokens.map (Token.reline f)) =
      (setting.readStmt room tokens).reline (Stmt.reline f) f := by
  simp only [readStmt, setting.level_reline f room .default tokens]
  cases (setting.level room).read .default tokens with
  | error d rest => rfl
  | ok expr rest =>
    simp only [Outcome.reline_ok, current_reline, Token.isSeparator_reline]
    by_cases separates : (setting.current rest).isSeparator
    · simp only [if_pos separates, Outcome.reline_ok, ← List.map_tail, Stmt.reline, Stmt.ofExpr,
        Expr.line_reline]
    · simp only [if_neg separates]
      rfl

end Setting

theorem skipNewLines_reline (tokens : List Token) :
    skipNewLines (tokens.map (Token.reline f)) = (skipNewLines tokens).map (Token.reline f) :=
  List.dropWhile_map

theorem nextKind_reline (tokens : List Token) :
    nextKind (tokens.map (Token.reline f)) = nextKind tokens := by
  cases tokens <;> rfl

namespace Setting

variable {setting : Setting}

theorem readBody_reline (tokens : List Token) :
    (setting.reline f).readBody (tokens.map (Token.reline f)) =
      (setting.readBody tokens).reline (List.map (Stmt.reline f)) f := by
  induction size : tokens.length using Nat.strongRecOn generalizing tokens with
  | ind size ih =>
    have skipped : skipNewLines (tokens.map (Token.reline f)) = _ := skipNewLines_reline tokens
    have kind : nextKind (skipNewLines (tokens.map (Token.reline f))) =
        nextKind (skipNewLines tokens) := by rw [skipped, nextKind_reline]
    have moved : (setting.reline f).readStmt nestingLimit
        (skipNewLines (tokens.map (Token.reline f))) =
        (setting.readStmt nestingLimit (skipNewLines tokens)).reline (Stmt.reline f) f := by
      rw [skipped, readStmt_reline]
    by_cases ends : nextKind (skipNewLines tokens) = .endOfInput
    · rw [readBody_of_end (kind.trans ends), readBody_of_end ends, skipped]
      rfl
    · cases step : setting.readStmt nestingLimit (skipNewLines tokens) with
      | error d rest =>
        rw [step] at moved
        rw [readBody_of_error (kind ▸ ends) moved, readBody_of_error ends step]
        rfl
      | ok stmt rest =>
        rw [step] at moved
        have shorter := Nat.lt_of_lt_of_le (readStmt_shorter step) (skipNewLines_length tokens)
        rw [readBody_of_readStmt (kind ▸ ends) moved, readBody_of_readStmt ends step,
          ih _ (size ▸ shorter) rest rfl]
        apply Outcome.reline_map
        exact fun _ => rfl

/-- A list of tokens ends on the changed line of its last token. -/
theorem ofTokens_reline (grammar : Grammar) (file : String) {tokens : List Token}
    (some : tokens ≠ []) :
    ofTokens grammar file (tokens.map (Token.reline f)) =
      (ofTokens grammar file tokens).reline f := by
  obtain ⟨front, last, rfl⟩ := List.eq_nil_or_concat tokens |>.resolve_left some
  simp [ofTokens, reline, Token.reline]

end Setting

/-- A result with every line in it changed. -/
def relineResult {α : Type} (move : α → α) (f : UInt32 → UInt32) :
    Except Diagnostic α → Except Diagnostic α
  | .ok value => .ok (move value)
  | .error d => .error (d.reline f)

namespace Lexer

/-- The lexer a number of lines further down. -/
def raise (lines : UInt32) (lexer : Lexer) : Lexer := { lexer with line := lexer.line + lines }

theorem step_raise (lexer : Lexer) (lines : UInt32) :
    (lexer.raise lines).step =
      (relineResult (Token.reline (· + lines)) (· + lines) lexer.step.1,
        lexer.step.2.raise lines) := by
  have moved (text : List Char) :
      lexer.line + lines + newlines text = lexer.line + newlines text + lines := by
    rw [UInt32.add_assoc, UInt32.add_comm lines, UInt32.add_assoc]
  unfold step
  simp only [raise]
  cases Lexeme.skipTrivia lexer.rest with
  | nil => rfl
  | cons c cs =>
    simp only [locate, pass, moved]
    split <;> rfl

theorem scanAll_raise (lexer : Lexer) (lines : UInt32) :
    (lexer.raise lines).scanAll.1 =
      relineResult (List.map (Token.reline (· + lines))) (· + lines) lexer.scanAll.1 := by
  induction size : lexer.rest.length using Nat.strongRecOn generalizing lexer with
  | ind size ih =>
    have moved := lexer.step_raise lines
    cases step : lexer.step with
    | mk result next =>
      rw [step] at moved
      cases result with
      | error d =>
        rw [Lexical.scanAll_of_error (congrArg Prod.fst step),
          Lexical.scanAll_of_error (congrArg Prod.fst moved)]
        rfl
      | ok token =>
        by_cases last : token.kind = .endOfInput
        · rw [Lexical.scanAll_of_end step last, Lexical.scanAll_of_end moved last]
          rfl
        · rw [Lexical.scanAll_of_step step last, Lexical.scanAll_of_step moved last,
            ih _ (size ▸ step_shorter step last) next rfl]
          cases next.scanAll.1 <;> rfl

end Lexer
end ScriptFront
