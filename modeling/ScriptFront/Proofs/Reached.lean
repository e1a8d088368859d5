import ScriptFront.Parser

/-! Parsers as they come about: from a list of tokens by any operations in any order, going
on after errors. Whatever was done, a parser has an end of its tokens left to read, and
the tokens before that end are those it has passed. -/
namespace ScriptFront

/-- A reader leaves an end of the tokens it is given, whether or not it succeeds. -/
def Operand.LeavesEnd (operand : Operand) : Prop :=
  ∀ power tokens, (operand.read power tokens).rest <:+ tokens

@[simp] theorem Outcome.rest_map {α β : Type} (f : α → β) (outcome : Outcome α) :
    (outcome.map f).rest = outcome.rest := by
  cases outcome <;> rfl

namespace Setting

variable (setting : Setting) {operand : Operand}

theorem closeGroup_rest (inner : Expr) (line : UInt32) (tokens : List Token) :
    (setting.closeGroup inner line tokens).rest = tokens.tail := by
  unfold closeGroup
  dsimp only
  split
  · rfl
  · split <;> rfl

theorem startWith_rest (ends : operand.LeavesEnd) (rule : StartRule) (token : Token)
    (tokens : List Token) : (setting.startWith operand rule token tokens).rest <:+ tokens := by
  cases rule with
  | name =>
    simp only [startWith]
    split <;> exact List.suffix_refl tokens
  | literal =>
    simp only [startWith]
    split <;> exact List.suffix_refl tokens
  | unary =>
    simp only [startWith, Outcome.rest_map]
    exact ends .unary tokens
  | grouping =>
    have inner := ends .default tokens
    simp only [startWith]
    split
    · rename_i read
      rw [read] at inner
      rw [closeGroup_rest]
      exact (List.tail_suffix _).trans inner
    · rename_i read
      rw [read] at inner
      exact inner

theorem joinWith_rest (ends : operand.LeavesEnd) (rule : JoinRule) (left : Expr) (operator : Token)
    (power : Power) (tokens : List Token) :
    (setting.joinWith operand rule left operator power tokens).rest <:+ tokens := by
  cases rule with
  | binary =>
    simp only [joinWith, Outcome.rest_map]
    exact ends power tokens
  | assignment =>
    simp only [joinWith]
    split
    · rw [Outcome.rest_map]
      exact ends power.lower tokens
    · exact List.suffix_refl tokens

theorem extend_rest (ends : operand.LeavesEnd) (power : Power) (left : Expr)
    (tokens : List Token) : (setting.extend operand power left tokens).rest <:+ tokens := by
  fun_induction setting.extend operand power left tokens with
  | case1 | case2 => exact List.suffix_refl _
  | case3 => exact List.tail_suffix _
  | case4 left tokens strength _ _ rule _ d rest read =>
    have joined := setting.joinWith_rest ends rule left (setting.current tokens)
      strength tokens.tail
    rw [read] at joined
    exact joined.trans (List.tail_suffix tokens)
  | case5 left tokens strength _ _ rule _ expr rest read _ ih =>
    have joined := setting.joinWith_rest ends rule left (setting.current tokens)
      strength tokens.tail
    rw [read] at joined
    exact ih.trans (joined.trans (List.tail_suffix tokens))

theorem readNested_rest (ends : operand.LeavesEnd) (power : Power) (tokens : List Token) :
    (setting.readNested operand power tokens).rest <:+ tokens := by
  unfold readNested
  dsimp only
  split
  · exact List.tail_suffix tokens
  · rename_i rule _
    have start := setting.startWith_rest ends rule (setting.current tokens) tokens.tail
    split
    · rename_i read
      rw [read] at start
      exact start.trans (List.tail_suffix tokens)
    · rename_i left rest read
      rw [read] at start
      exact (setting.extend_rest ends power left rest).trans (start.trans (List.tail_suffix tokens))

theorem level_leavesEnd (room : Nat) : (setting.level room).LeavesEnd := by
  induction room with
  | zero => exact fun _ tokens => List.suffix_refl tokens
  | succ room below => exact setting.readNested_rest below

theorem readStmt_rest (room : Nat) (tokens : List Token) :
    (setting.readStmt room tokens).rest <:+ tokens := by
  have inner := setting.level_leavesEnd room .default tokens
  unfold readStmt
  split
  · rename_i read
    rw [read] at inner
    exact inner
  · rename_i read
    rw [read] at inner
    dsimp only
    split
    · exact (List.tail_suffix _).trans inner
    · exact inner

end Setting

namespace Parser

/-- One operation on a parser, with whatever result. -/
inductive Step (parser : Parser) : Parser → Prop where
  | addStart (kind : TokenKind) (rule : StartRule) : Step parser (parser.addStart kind rule)
  | addJoin (kind : TokenKind) (power : Power) (rule : JoinRule) :
      Step parser (parser.addJoin kind power rule)
  | addStandard : Step parser parser.addStandard
  | consume : Step parser parser.consume.2
  | skipNewLines : Step parser parser.skipNewLines
  | enter {inner : Parser} : parser.enter = .ok inner → Step parser inner
  | leave : Step parser parser.leave
  | readExpr (power : Power) : Step parser (parser.readExpr power).2
  | readStmt : Step parser parser.readStmt.2
  | startWith (rule : StartRule) (token : Token) : Step parser (parser.startWith rule token).2
  | joinWith (rule : JoinRule) (left : Expr) (operator : Token) (power : Power) :
      Step parser (parser.joinWith rule left operator power).2

/-- The parsers that any operations make of the one at the first of the tokens. -/
inductive Reached (tokens : List Token) (file : String) : Parser → Prop where
  | start : Reached tokens file (.ofTokens tokens file)
  | step {parser next : Parser} :
      Reached tokens file parser → parser.Step next → Reached tokens file next

variable {parser next : Parser} {tokens : List Token} {file : String}

theorem enter_eq_ok (entered : parser.enter = .ok next) :
    parser.depth < nestingLimit ∧ next = { parser with depth := parser.depth + 1 } := by
  unfold enter at entered
  split at entered
  · cases entered
  · rename_i room
    cases entered
    exact ⟨Nat.lt_of_not_le room, rfl⟩

theorem Step.rest (step : parser.Step next) : next.rest <:+ parser.rest := by
  cases step with
  | addStart | addJoin | addStandard | leave => exact List.suffix_refl parser.rest
  | consume => exact List.tail_suffix parser.rest
  | skipNewLines => exact List.dropWhile_suffix _
  | enter entered =>
    obtain ⟨_, rfl⟩ := enter_eq_ok entered
    exact List.suffix_refl parser.rest
  | readExpr power => exact parser.setting.level_leavesEnd parser.room power parser.rest
  | readStmt => exact parser.setting.readStmt_rest parser.room parser.rest
  | startWith rule token =>
    exact parser.setting.startWith_rest (parser.setting.level_leavesEnd parser.room) rule token
      parser.rest
  | joinWith rule left operator power =>
    exact parser.setting.joinWith_rest (parser.setting.level_leavesEnd parser.room) rule left
      operator power parser.rest

theorem Reached.rest (reached : Reached tokens file parser) : parser.rest <:+ tokens := by
  induction reached with
  | start => exact List.suffix_refl tokens
  | step _ step ih => exact step.rest.trans ih

theorem Step.depth (step : parser.Step next) (bounded : parser.depth ≤ nestingLimit) :
    next.depth ≤ nestingLimit := by
  cases step with
  | enter entered =>
    obtain ⟨room, rfl⟩ := enter_eq_ok entered
    exact room
  | leave => exact Nat.le_trans (Nat.sub_le _ _) bounded
  | _ => exact bounded

/-- No operations make a parser deeper than the limit. -/
theorem Reached.depth (reached : Reached tokens file parser) : parser.depth ≤ nestingLimit := by
  induction reached with
  | start => exact Nat.zero_le _
  | step _ step ih => exact step.depth ih

/-- How many of the tokens a parser has passed. -/
def cursor (tokens : List Token) (parser : Parser) : Nat := tokens.length - parser.rest.length

theorem cursor_lt (rest : parser.rest <:+ tokens)
    (shorter : next.rest.length < parser.rest.length) :
    parser.cursor tokens < next.cursor tokens :=
  Nat.sub_lt_sub_left (Nat.lt_of_lt_of_le shorter rest.length_le) shorter

theorem cursor_le (rest : next.rest <:+ parser.rest) :
    parser.cursor tokens ≤ next.cursor tokens :=
  Nat.sub_le_sub_left rest.length_le tokens.length

theorem Reached.rest_eq_drop (reached : Reached tokens file parser) :
    parser.rest = tokens.drop (parser.cursor tokens) :=
  List.suffix_iff_eq_drop.mp reached.rest

end Parser
end ScriptFront
