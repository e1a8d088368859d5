import ScriptFront.Proofs.Phrase

/-! The nesting limit changes no result. A reader with more levels answers as one with fewer
does, unless that one has stopped at the limit; and how many levels an expression takes is
read off the expression alone. -/
namespace ScriptFront

namespace Outcome

variable {shallow deep : Outcome Expr}

/-- Reading has stopped for want of levels. -/
def TooDeep (outcome : Outcome Expr) : Prop :=
  ∃ d rest, outcome = .error d rest ∧ d.fault = .nestingTooDeep nestingLimit

/-- With fewer levels there is the same outcome, or none for want of levels. -/
def Limits (shallow deep : Outcome Expr) : Prop := shallow = deep ∨ shallow.TooDeep

theorem Limits.map (limits : shallow.Limits deep) (f : Expr → Expr) :
    (shallow.map f).Limits (deep.map f) := by
  obtain rfl | ⟨d, rest, rfl, fault⟩ := limits
  · exact .inl rfl
  · exact .inr ⟨d, rest, rfl, fault⟩

end Outcome

/-- A reader with fewer levels, beside one with more. -/
def Operand.Limits (shallow deep : Operand) : Prop :=
  ∀ power tokens, (shallow.read power tokens).Limits (deep.read power tokens)

namespace Setting

variable {setting : Setting} {shallow deep : Operand}

theorem startWith_limits (limits : shallow.Limits deep) (rule : StartRule) (token : Token)
    (tokens : List Token) :
    (setting.startWith shallow rule token tokens).Limits
      (setting.startWith deep rule token tokens) := by
  cases rule with
  | name | literal => exact .inl rfl
  | unary => exact (limits .unary tokens).map _
  | grouping =>
    obtain same | ⟨d, rest, stopped, fault⟩ := limits .default tokens
    · simp only [startWith, same]
      exact .inl rfl
    · simp only [startWith, stopped]
      exact .inr ⟨d, rest, rfl, fault⟩

theorem joinWith_limits (limits : shallow.Limits deep) (rule : JoinRule) (left : Expr)
    (operator : Token) (power : Power) (tokens : List Token) :
    (setting.joinWith shallow rule left operator power tokens).Limits
      (setting.joinWith deep rule left operator power tokens) := by
  cases rule with
  | binary => exact (limits power tokens).map _
  | assignment =>
    cases left with
    | name target => exact (limits power.lower tokens).map _
    | _ => exact .inl rfl

theorem extend_limits (limits : shallow.Limits deep) (power : Power) (left : Expr)
    (tokens : List Token) :
    (setting.extend shallow power left tokens).Limits
      (setting.extend deep power left tokens) := by
  -- The rounds of the two loops go together up to the first that stops at the limit.
  induction size : tokens.length using Nat.strongRecOn generalizing left tokens with
  | ind size ih =>
    rw [setting.extend_eq shallow, setting.extend_eq deep]
    cases setting.grammar.join? (setting.current tokens).kind with
    | none => exact .inl rfl
    | some join =>
      dsimp only
      split
      · exact .inl rfl
      · obtain same | ⟨d, rest, stopped, fault⟩ :=
          setting.joinWith_limits limits join.rule left (setting.current tokens)
            join.power tokens.tail
        · rw [same]
          cases read : setting.joinWith deep join.rule left (setting.current tokens) join.power
              tokens.tail with
          | error d rest => exact .inl rfl
          | ok expr rest => exact ih _ (size ▸ joinWith_tail_shorter read) expr rest rfl
        · rw [stopped]
          exact .inr ⟨d, rest, rfl, fault⟩

theorem readNested_limits (limits : shallow.Limits deep) (power : Power) (tokens : List Token) :
    (setting.readNested shallow power tokens).Limits (setting.readNested deep power tokens) := by
  simp only [readNested]
  cases setting.grammar.start? (setting.current tokens).kind with
  | none => exact .inl rfl
  | some rule =>
    dsimp only
    obtain same | ⟨d, rest, stopped, fault⟩ :=
      setting.startWith_limits limits rule (setting.current tokens) tokens.tail
    · rw [same]
      cases setting.startWith deep rule (setting.current tokens) tokens.tail with
      | error d rest => exact .inl rfl
      | ok left rest => exact extend_limits limits power left rest
    · rw [stopped]
      exact .inr ⟨d, rest, rfl, fault⟩

theorem level_limits (setting : Setting) {room room' : Nat} (fewer : room ≤ room') :
    (setting.level room).Limits (setting.level room') := by
  induction room generalizing room' with
  | zero =>
    intro power tokens
    exact .inr ⟨setting.tooDeep tokens, tokens, rfl, rfl⟩
  | succ room ih =>
    cases room' with
    | zero => exact absurd fewer (Nat.not_succ_le_zero room)
    | succ room' => exact readNested_limits (ih (Nat.le_of_succ_le_succ fewer))

section Answer

variable {power : Power} {tokens rest : List Token} {expr : Expr} {room room' : Nat}

theorem need_le_of_level_read (read : (setting.level room).read power tokens = .ok expr rest) :
    expr.need ≤ room := by
  obtain ⟨_, _, _, _, fits, _, _⟩ := level_read_eq_ok_iff.mp read
  exact fits

/-- What one level reads, every level reads that has what it needs. -/
theorem level_read_of_need (read : (setting.level room).read power tokens = .ok expr rest)
    (fits : expr.need ≤ room') : (setting.level room').read power tokens = .ok expr rest := by
  obtain ⟨used, edge, rfl, spelled, _, below, stops⟩ := level_read_eq_ok_iff.mp read
  exact spelled.level_read fits below stops

/-- All other levels stop at the limit. -/
theorem level_read_tooDeep (read : (setting.level room).read power tokens = .ok expr rest)
    (short : room' < expr.need) : ((setting.level room').read power tokens).TooDeep := by
  have fits := need_le_of_level_read read
  obtain same | stopped := setting.level_limits (show room' ≤ room by omega) power tokens
  · exact absurd (need_le_of_level_read (same.trans read)) (Nat.not_le_of_lt short)
  · exact stopped

/-- A failure for another reason than the limit stays with more levels. -/
theorem level_read_of_error {d : Diagnostic}
    (read : (setting.level room).read power tokens = .error d rest)
    (other : d.fault ≠ .nestingTooDeep nestingLimit) (fewer : room ≤ room') :
    (setting.level room').read power tokens = .error d rest := by
  obtain same | ⟨_, _, stopped, fault⟩ := setting.level_limits fewer power tokens
  · exact same.symm.trans read
  · cases read.symm.trans stopped
    exact absurd fault other

end Answer

end Setting

namespace Parser

/-- The same parser, so many levels deep. -/
def atDepth (parser : Parser) (depth : Nat) : Parser := { parser with depth := depth }

theorem readExpr_atDepth {parser : Parser} {power : Power} {depth : Nat} {outcome : Outcome Expr}
    (read : (parser.setting.level (nestingLimit - depth)).read power parser.rest = outcome) :
    (parser.atDepth depth).readExpr power =
      (outcome.result, { parser with rest := outcome.rest, depth := depth }) := by
  subst read
  rfl

/-- The nesting limit changes no result. An expression is read exactly at the depths that leave
the levels it needs, the same at each, and at all others reading stops at the limit; a failure
of any other kind is the same at every lesser depth. -/
theorem readExpr_depth (parser : Parser) (power : Power) (depth depth' : Nat) :
    (∀ expr next, (parser.atDepth depth).readExpr power = (.ok expr, next) →
      expr.need + depth ≤ nestingLimit ∧
      (expr.need + depth' ≤ nestingLimit →
        (parser.atDepth depth').readExpr power = (.ok expr, next.atDepth depth')) ∧
      (nestingLimit < expr.need + depth' →
        ∃ d stop, (parser.atDepth depth').readExpr power = (.error d, stop) ∧
          d.fault = .nestingTooDeep nestingLimit)) ∧
    ∀ d next, (parser.atDepth depth).readExpr power = (.error d, next) →
      d.fault ≠ .nestingTooDeep nestingLimit → depth' ≤ depth →
      (parser.atDepth depth').readExpr power = (.error d, next.atDepth depth') := by
  cases read : (parser.setting.level (nestingLimit - depth)).read power parser.rest with
  | ok expr rest =>
    rw [readExpr_atDepth read]
    refine ⟨?_, nofun⟩
    rintro _ _ ⟨⟩
    have positive := expr.need_pos
    have fits := Setting.need_le_of_level_read read
    refine ⟨by omega, ?_, ?_⟩
    · intro enough
      exact readExpr_atDepth (Setting.level_read_of_need read (by omega))
    · intro deeper
      obtain ⟨d, left, stopped, fault⟩ :=
        Setting.level_read_tooDeep read (show nestingLimit - depth' < expr.need by omega)
      exact ⟨d, _, readExpr_atDepth stopped, fault⟩
  | error d rest =>
    rw [readExpr_atDepth read]
    refine ⟨nofun, ?_⟩
    rintro _ _ ⟨⟩ other shallower
    have fewer := Nat.sub_le_sub_left shallower nestingLimit
    exact readExpr_atDepth (Setting.level_read_of_error read other fewer)

/-- A parser at `a + -b` before a closing parenthesis. -/
def signedSum : Parser :=
  (ofTokens [.identifier "a" 1, .bare .plus 1, .bare .dash 1, .identifier "b" 1,
    .bare .closeParen 1] "shell").addStandard

/-- A parser at a sign without an operand. -/
def bareSign : Parser := (ofTokens [.bare .dash 1, .bare .closeParen 1] "shell").addStandard

/-- The sum takes three levels, which are left at depth 253 and not one deeper; the sign fails
on its second level, at any depth that leaves two. -/
theorem signedSum_depth :
    (∃ expr next, (signedSum.atDepth 253).readExpr .default = (.ok expr, next) ∧
      expr.need = 3 ∧ next.rest = [.bare .closeParen 1] ∧
      (signedSum.atDepth 0).readExpr .default = (.ok expr, next.atDepth 0) ∧
      ∃ d stop, (signedSum.atDepth 254).readExpr .default = (.error d, stop) ∧
        d.fault = .nestingTooDeep nestingLimit) ∧
    ∃ d next, (bareSign.atDepth 254).readExpr .default = (.error d, next) ∧
      d.fault = .unexpectedToken ")" ∧
      (bareSign.atDepth 0).readExpr .default = (.error d, next.atDepth 0) := by
  constructor
  · have spelled : signedSum.grammar.Spells .default
        ([.identifier "a" 1] ++ .bare .plus 1 :: .bare .dash 1 :: [.identifier "b" 1]) _ _ :=
      .binary (.name rfl rfl) rfl (by decide) (by decide) (.unary rfl (.name rfl rfl))
    have stops (edge : Nat) : signedSum.setting.Stops edge [.bare .closeParen 1] := nofun
    have read : (signedSum.atDepth 253).readExpr .default = _ :=
      readExpr_of_spells spelled (by decide) (stops _) (stops _) rfl
    obtain ⟨_, shallow, _⟩ := (readExpr_depth signedSum .default 253 0).1 _ _ read
    obtain ⟨_, _, deep⟩ := (readExpr_depth signedSum .default 253 254).1 _ _ read
    exact ⟨_, _, read, rfl, rfl, shallow (by decide), deep (by decide)⟩
  · have read : (bareSign.atDepth 254).readExpr .default = (.error _, _) := rfl
    refine ⟨_, _, read, rfl, ?_⟩
    exact (readExpr_depth bareSign .default 254 0).2 _ _ read nofun (by decide)

end Parser
end ScriptFront
