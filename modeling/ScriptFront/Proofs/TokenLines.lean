import ScriptFront.Proofs.EarliestError
import ScriptFront.Proofs.IllegalLexeme

/-! Which lines there can be. Scanning stays between the line it starts on and the last
line of its text, with tokens and with errors, and parsing takes every line from one of
its tokens. -/
namespace ScriptFront

/-- Every line in a node or a token of the expression. -/
def Expr.lines : Expr → List UInt32
  | .name use => [use.token.line]
  | .literal _ line => [line]
  | .unary operator right => operator.line :: right.lines
  | .grouping inner line => line :: inner.lines
  | .binary left operator right => left.lines ++ operator.line :: right.lines
  | .assign target value => target.token.line :: value.lines

def Stmt.lines (stmt : Stmt) : List UInt32 := stmt.line :: stmt.expression.lines

def Program.lines (program : Program) : List UInt32 := program.body.flatMap Stmt.lines

/-- The line is one of those from one number up to another. -/
def Between (low high : Nat) (line : UInt32) : Prop :=
  ∃ n, low ≤ n ∧ n ≤ high ∧ line = UInt32.ofNat n

theorem Between.mono {low high low' high' : Nat} {line : UInt32} (between : Between low high line)
    (below : low' ≤ low) (above : high ≤ high') : Between low' high' line := by
  obtain ⟨n, enough, few, same⟩ := between
  exact ⟨n, Nat.le_trans below enough, Nat.le_trans few above, same⟩

namespace Lexical

theorem Splits.lines {line : Nat} {text : List Char} {tokens : List Token}
    (splits : Splits line text tokens) :
    ∀ token ∈ tokens, Between line (line + text.count '\n') token.line := by
  induction splits with
  | @done line run _ =>
    intro token member
    cases List.mem_singleton.mp member
    exact ⟨line, Nat.le_refl line, Nat.le_add_right line _, rfl⟩
  | @next line run text rest kind payload tokens trivia _ _ ih =>
    intro token member
    have total : (run ++ (text ++ rest)).count '\n' = text.count '\n' + rest.count '\n' := by
      rw [List.count_append, List.count_append, trivia.count_newline, Nat.zero_add]
    rw [total]
    rcases List.mem_cons.mp member with rfl | member
    · have inside : text.dropLast.count '\n' ≤ text.count '\n' :=
        (List.dropLast_sublist text).count_le '\n'
      exact ⟨line + text.dropLast.count '\n', Nat.le_add_right line _, by omega, rfl⟩
    · exact (ih token member).mono (Nat.le_add_right line _) (by omega)

/-- An error is on a line of the text that was left. -/
theorem scanAll_error_line {lexer : Lexer} {line : Nat} {d : Diagnostic}
    (start : lexer.line = UInt32.ofNat line) (failed : lexer.scanAll.1 = .error d) :
    Between line (line + lexer.rest.count '\n') d.position.line := by
  obtain ⟨passed, rest, front, _, _, position⟩ := (scanAll_eq_error_iff start).mp failed
  rw [front, position]
  exact ⟨_, Nat.le_add_right line _, Nat.add_le_add_left (newlinesBefore_le _ passed rest) line,
    rfl⟩

end Lexical

theorem Derives.lines {stratum : Stratum} {used : List Token} {expr : Expr}
    (derived : Derives stratum used expr) : ∀ line ∈ expr.lines, line ∈ used.map Token.line := by
  induction derived with
  | ofSum _ ih | ofProduct _ ih | ofUnary _ ih | ofPrimary _ ih => exact ih
  | name | text | int | float =>
    intro line member
    exact member
  | assign _ _ _ _ ih =>
    intro line member
    rcases List.mem_cons.mp member with rfl | member
    · exact List.mem_cons_self
    · exact List.mem_cons_of_mem _ (List.mem_cons_of_mem _ (ih line member))
  | negate _ _ ih =>
    intro line member
    rcases List.mem_cons.mp member with rfl | member
    · exact List.mem_cons_self
    · exact List.mem_cons_of_mem _ (ih line member)
  | add _ _ _ ihLeft ihRight | multiply _ _ _ ihLeft ihRight =>
    intro line member
    rw [List.map_append, List.map_cons]
    rcases List.mem_append.mp member with member | member
    · exact List.mem_append_left _ (ihLeft line member)
    · apply List.mem_append_right
      rcases List.mem_cons.mp member with rfl | member
      · exact List.mem_cons_self
      · exact List.mem_cons_of_mem _ (ihRight line member)
  | grouping _ _ _ ih =>
    intro line member
    rw [List.map_append, List.map_cons]
    apply List.mem_append_left
    rcases List.mem_cons.mp member with rfl | member
    · exact List.mem_cons_self
    · exact List.mem_cons_of_mem _ (ih line member)

theorem Statements.lines {tokens : List Token} {body : List Stmt}
    (statements : Statements tokens body) :
    ∀ line ∈ body.flatMap Stmt.lines, line ∈ tokens.map Token.line := by
  induction statements with
  | none => exact nofun
  | @last blank first tokens expr _ derived _ =>
    intro line member
    rw [List.map_append]
    apply List.mem_append_right
    simp only [List.flatMap_singleton, Stmt.lines] at member
    rcases List.mem_cons.mp member with rfl | member
    · exact List.mem_cons_self
    · exact derived.lines line member
  | @next blank first tokens expr separator rest body _ derived _ _ _ ih =>
    intro line member
    rw [List.map_append, List.map_append]
    rw [List.flatMap_cons, Stmt.lines] at member
    rcases List.mem_append.mp member with member | member
    · apply List.mem_append_left
      apply List.mem_append_right
      rcases List.mem_cons.mp member with rfl | member
      · exact List.mem_cons_self
      · exact derived.lines line member
    · exact List.mem_append_right _ (List.mem_cons_of_mem _ (ih line member))

theorem Setting.ofTokens_current_line (grammar : Grammar) (file : String)
    {before after : List Token} (some : before ++ after ≠ []) :
    ((ofTokens grammar file (before ++ after)).current after).line ∈
      (before ++ after).map Token.line := by
  cases after with
  | cons token after => simp [current]
  | nil =>
    obtain ⟨front, last, same⟩ := List.eq_nil_or_concat (before ++ []) |>.resolve_left some
    rw [same]
    simp [ofTokens, current, endToken, Token.bare]

/-- A parse error is on the line of a token. -/
theorem parse_error_line {tokens : List Token} {file : String} {d : Diagnostic}
    (some : tokens ≠ []) (failed : parse tokens file = .error d) :
    d.position.line ∈ tokens.map Token.line := by
  obtain ⟨rest, read⟩ := parse_eq_error.mp failed
  obtain ⟨before, after, rfl, fails⟩ := Setting.readBody_fails rfl read
  obtain ⟨same, _⟩ := Outcome.error.inj (read.symm.trans (fails.reported _ rfl))
  rw [same]
  exact Setting.ofTokens_current_line .standard file some

end ScriptFront
