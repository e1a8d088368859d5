import ScriptFront.Proofs.ExpressionGrammar
import ScriptFront.Proofs.Reached

/-! Phrases: expressions together with all the tokens they were read from. Whatever rules
a parser was given, the tokens it passes while it reads an expression are those of a
phrase of that expression, and the powers of the operators in the phrase decide its
shape: an operator takes what is on its left only if it binds no tighter than the
operands that end there were read, and on its right it takes what binds tighter. -/
namespace ScriptFront

inductive Phrase where
  | name (use : NameUse)
  | literal (token : Token) (value : Literal)
  | unary (operator : Token) (right : Phrase)
  | grouping (opening : Token) (inner : Phrase) (closing : Token)
  | binary (left : Phrase) (operator : Token) (right : Phrase)
  | assign (target : NameUse) (operator : Token) (value : Phrase)

/-- The token of a name starts an expression as a name and has the name as its payload. -/
def Grammar.Names (grammar : Grammar) (use : NameUse) : Prop :=
  grammar.start? use.token.kind = some .name ∧ use.token.text? = some use.name

namespace Phrase

/-- The expression, which keeps of a group only its line and of an assignment not the
operator. -/
def expr : Phrase → Expr
  | .name use => .name use
  | .literal token value => .literal value token.line
  | .unary operator right => .unary operator right.expr
  | .grouping opening inner _ => .grouping inner.expr opening.line
  | .binary left operator right => .binary left.expr operator right.expr
  | .assign target _ value => .assign target value.expr

/-- The tokens in the order in which they are written. -/
def tokens : Phrase → List Token
  | .name use => [use.token]
  | .literal token _ => [token]
  | .unary operator right => operator :: right.tokens
  | .grouping opening inner closing => opening :: inner.tokens ++ [closing]
  | .binary left operator right => left.tokens ++ operator :: right.tokens
  | .assign target operator value => target.token :: operator :: value.tokens

/-- Each token is there by a rule of its kind and has the payload that the rule asks
for. -/
def Follows (grammar : Grammar) : Phrase → Prop
  | .name use => grammar.Names use
  | .literal token value =>
    grammar.start? token.kind = some .literal ∧ token.literal? = some value
  | .unary operator right =>
    grammar.start? operator.kind = some .unary ∧ right.Follows grammar
  | .grouping opening inner closing =>
    grammar.start? opening.kind = some .grouping ∧ inner.Follows grammar ∧
      closing.kind = .closeParen
  | .binary left operator right =>
    left.Follows grammar ∧ grammar.rule? operator.kind = some .binary ∧ right.Follows grammar
  | .assign target operator value =>
    grammar.Names target ∧ grammar.rule? operator.kind = some .assignment ∧ value.Follows grammar

/-- The powers at which the operands that end with the last token were read. -/
def levels (grammar : Grammar) : Phrase → List Power
  | .name _ | .literal _ _ | .grouping _ _ _ => []
  | .unary _ right => .unary :: right.levels grammar
  | .binary _ operator right =>
    (grammar.power? operator.kind).toList ++ right.levels grammar
  | .assign _ operator value =>
    ((grammar.power? operator.kind).map Power.lower).toList ++ value.levels grammar

/-- The powers of the operators agree with how they are nested in an operand that is read
at the given power. -/
def Shape (grammar : Grammar) (power : Power) : Phrase → Prop
  | .name _ | .literal _ _ => True
  | .unary _ right => right.Shape grammar .unary
  | .grouping _ inner _ => inner.Shape grammar .default
  | .binary left operator right =>
    ∃ strength, grammar.power? operator.kind = some strength ∧ power < strength ∧
      left.Shape grammar power ∧ right.Shape grammar strength ∧
      ∀ level ∈ left.levels grammar, strength ≤ level
  | .assign _ operator value =>
    ∃ strength, grammar.power? operator.kind = some strength ∧ power < strength ∧
      value.Shape grammar strength.lower

/-- The phrase and the phrases inside it. -/
def parts : Phrase → List Phrase
  | .name use => [.name use]
  | .literal token value => [.literal token value]
  | .unary operator right => .unary operator right :: right.parts
  | .grouping opening inner closing => .grouping opening inner closing :: inner.parts
  | .binary left operator right => .binary left operator right :: (left.parts ++ right.parts)
  | .assign target operator value => .assign target operator value :: value.parts

variable {grammar : Grammar} {power strength : Power} {phrase : Phrase}

/-- Every part has the shape of an operand read at some power. -/
theorem Shape.part (shape : phrase.Shape grammar power) :
    ∀ part ∈ phrase.parts, ∃ level, part.Shape grammar level := by
  induction phrase generalizing power with
  | name | literal =>
    intro part member
    cases List.mem_singleton.mp member
    exact ⟨power, shape⟩
  | unary operator right ih =>
    intro part member
    rcases List.mem_cons.mp member with rfl | member
    · exact ⟨power, shape⟩
    · exact ih shape part member
  | grouping opening inner closing ih =>
    intro part member
    rcases List.mem_cons.mp member with rfl | member
    · exact ⟨power, shape⟩
    · exact ih shape part member
  | binary left operator right ihLeft ihRight =>
    intro part member
    rcases List.mem_cons.mp member with rfl | member
    · exact ⟨power, shape⟩
    · obtain ⟨strength, _, _, leftShape, rightShape, _⟩ := shape
      rcases List.mem_append.mp member with member | member
      · exact ihLeft leftShape part member
      · exact ihRight rightShape part member
  | assign target operator value ih =>
    intro part member
    rcases List.mem_cons.mp member with rfl | member
    · exact ⟨power, shape⟩
    · obtain ⟨strength, _, _, valueShape⟩ := shape
      exact ih valueShape part member

/-- No operation is the right operand of one of the same power. -/
theorem Shape.right_power_ne {left inner right : Phrase} {operator second : Token}
    (shape : (binary left operator (binary inner second right)).Shape grammar power) :
    grammar.power? operator.kind ≠ grammar.power? second.kind := by
  obtain ⟨strength, has, _, _, ⟨higher, more, above, _⟩, _⟩ := shape
  rw [has, more]
  rintro ⟨⟩
  exact absurd above (Nat.lt_irrefl _)

/-- An operator of the same power behind an assignment belongs to the assigned value. -/
theorem Shape.assigned_power_ne {target : NameUse} {value right : Phrase}
    {operator second : Token}
    (shape : (binary (assign target operator value) second right).Shape grammar power) :
    grammar.power? operator.kind ≠ grammar.power? second.kind := by
  obtain ⟨strength, has, _, ⟨higher, more, above, _⟩, _, within⟩ := shape
  have below : strength ≤ higher.lower := within _ (by simp [levels, more])
  have ranks : strength.rank ≤ higher.rank - 1 := higher.rank_lower ▸ below
  rw [has, more]
  rintro ⟨⟩
  have positive := Power.lt_iff_rank.mp above
  omega

end Phrase

/-- A spelling is the text of a phrase, and its edge is the least of the levels at the
right end. -/
theorem Grammar.Spells.phrase {grammar : Grammar} {power : Power} {used : List Token}
    {expr : Expr} {edge : Nat} (spelled : grammar.Spells power used expr edge) :
    ∃ phrase : Phrase, phrase.expr = expr ∧ phrase.tokens = used ∧ phrase.Follows grammar ∧
      phrase.Shape grammar power ∧
      ∀ strength : Power, strength.rank ≤ edge →
        ∀ level ∈ phrase.levels grammar, strength ≤ level := by
  induction spelled with
  | @name power token name starts named =>
    exact ⟨.name ⟨token, name⟩, rfl, rfl, ⟨starts, named⟩, trivial, fun _ _ _ => nofun⟩
  | @literal power token value starts valued =>
    exact ⟨.literal token value, rfl, rfl, ⟨starts, valued⟩, trivial, fun _ _ _ => nofun⟩
  | @unary power operator tokens right edge starts _ ih =>
    obtain ⟨right, rfl, rfl, follows, shape, within⟩ := ih
    refine ⟨.unary operator right, rfl, rfl, ⟨starts, follows⟩, shape, ?_⟩
    intro strength bound level member
    obtain ⟨own, inner⟩ := Nat.le_min.mp bound
    rcases List.mem_cons.mp member with rfl | member
    · exact own
    · exact within strength inner level member
  | @grouping power opening tokens inner edge closing starts _ closes _ ih =>
    obtain ⟨inner, rfl, rfl, follows, shape, _⟩ := ih
    exact ⟨.grouping opening inner closing, rfl, rfl, ⟨starts, follows, closes⟩, shape,
      fun _ _ _ => nofun⟩
  | @binary power before left edge operator strength tokens right edge' _ joined above reach _
      ihLeft ihRight =>
    obtain ⟨left, rfl, rfl, followsLeft, shapeLeft, withinLeft⟩ := ihLeft
    obtain ⟨right, rfl, rfl, followsRight, shapeRight, withinRight⟩ := ihRight
    obtain ⟨has, ruled⟩ := Grammar.join?_eq_some.mp joined
    refine ⟨.binary left operator right, rfl, rfl, ⟨followsLeft, ruled, followsRight⟩,
      ⟨strength, has, above, shapeLeft, shapeRight, withinLeft strength reach⟩, ?_⟩
    intro other bound level member
    obtain ⟨own, inner⟩ := Nat.le_min.mp bound
    simp only [Phrase.levels, has, Option.toList_some, List.singleton_append] at member
    rcases List.mem_cons.mp member with rfl | member
    · exact own
    · exact withinRight other inner level member
  | @assign power before target edge operator strength tokens value edge' spelled joined above _ _
      _ ihValue =>
    obtain ⟨rfl, starts, named⟩ := spelled.name_inv
    obtain ⟨value, rfl, rfl, follows, shape, within⟩ := ihValue
    obtain ⟨has, ruled⟩ := Grammar.join?_eq_some.mp joined
    refine ⟨.assign target operator value, rfl, rfl, ⟨⟨starts, named⟩, ruled, follows⟩,
      ⟨strength, has, above, shape⟩, ?_⟩
    intro other bound level member
    obtain ⟨own, inner⟩ := Nat.le_min.mp bound
    simp only [Phrase.levels, has, Option.map_some, Option.toList_some, List.singleton_append]
      at member
    rcases List.mem_cons.mp member with rfl | member
    · exact own
    · exact within other inner level member

namespace Parser

variable {parser next : Parser} {power : Power} {expr : Expr}

theorem readExpr_eq_ok (read : parser.readExpr power = (.ok expr, next)) :
    (parser.setting.level parser.room).read power parser.rest = .ok expr next.rest ∧
      next.setting = parser.setting := by
  unfold readExpr settle at read
  cases outcome : parser.operand.read power parser.rest with
  | ok value rest =>
    rw [outcome] at read
    cases read
    exact ⟨outcome, rfl⟩
  | error d rest =>
    rw [outcome] at read
    cases read

/-- An expression that is read has a phrase of the right shape in front of the tokens left,
and what is left starts with no operator above the power. -/
theorem readExpr_front (read : parser.readExpr power = (.ok expr, next)) :
    ∃ phrase : Phrase, phrase.expr = expr ∧ parser.rest = phrase.tokens ++ next.rest ∧
      phrase.Follows parser.grammar ∧ phrase.Shape parser.grammar power ∧
      ∀ strength, parser.grammar.power? next.current.kind = some strength → strength ≤ power := by
  obtain ⟨level, same⟩ := readExpr_eq_ok read
  obtain ⟨used, edge, front, spelled, _, stops, _⟩ := Setting.level_read_eq_ok_iff.mp level
  obtain ⟨phrase, rfl, rfl, follows, shape, _⟩ := spelled.phrase
  refine ⟨phrase, rfl, front, follows, shape, ?_⟩
  intro strength has
  obtain ⟨rule, ruled⟩ := Grammar.exists_rule has
  have current : next.current = parser.setting.current next.rest := by rw [current, same]
  rw [current] at has ruled
  exact stops ⟨strength, rule⟩ (Grammar.join?_eq_some.mpr ⟨has, ruled⟩)

theorem readExpr_of_spells {used rest : List Token} {edge : Nat}
    (spelled : parser.grammar.Spells power used expr edge) (fits : expr.need ≤ parser.room)
    (below : parser.setting.Stops power.rank rest) (stops : parser.setting.Stops edge rest)
    (front : parser.rest = used ++ rest) :
    parser.readExpr power = (.ok expr, { parser with rest := rest }) := by
  have read := spelled.level_read fits below stops
  simp only [readExpr, settle, operand, front, read]
  rfl

/-- Operators nest by their powers, whatever powers and rules the kinds were given. So no operation
is the right operand of another of the same power, none takes an assignment of the same power
for its left, and reading stops before an operator no stronger than it was asked for. -/
theorem readExpr_shape (parser : Parser) (power : Power) (expr : Expr) (next : Parser)
    (read : parser.readExpr power = (.ok expr, next)) :
    (∀ strength, parser.grammar.power? next.current.kind = some strength → strength ≤ power) ∧
    ∃ phrase : Phrase, phrase.expr = expr ∧ parser.rest = phrase.tokens ++ next.rest ∧
      phrase.Follows parser.grammar ∧ phrase.Shape parser.grammar power ∧
      ∀ part ∈ phrase.parts,
        (∀ left operator inner second right,
          part = .binary left operator (.binary inner second right) →
          parser.grammar.power? operator.kind ≠ parser.grammar.power? second.kind) ∧
        ∀ target operator value second right,
          part = .binary (.assign target operator value) second right →
          parser.grammar.power? operator.kind ≠ parser.grammar.power? second.kind := by
  obtain ⟨phrase, whole, front, follows, shape, weaker⟩ := readExpr_front read
  refine ⟨weaker, phrase, whole, front, follows, shape, ?_⟩
  intro part member
  obtain ⟨level, partShape⟩ := shape.part part member
  constructor
  · rintro left operator inner second right rfl
    exact partShape.right_power_ne
  · rintro target operator value second right rfl
    exact partShape.assigned_power_ne

/-- The tokens of `- a < b + c` and a newline. -/
def negatedComparison : List Token :=
  [.bare .dash 1, .identifier "a" 1, .bare .less 1, .identifier "b" 1, .bare .plus 1,
   .identifier "c" 1, .bare .newLine 1]

/-- The standard operators, with `<` above negation. -/
def comparingFirst : Parser :=
  (ofTokens negatedComparison "shell").addStandard.addJoin .less .call .binary

/-- An operator stronger than negation is read into the operand of the negation. -/
theorem comparingFirst_readExpr :
    ∃ left right next, comparingFirst.readExpr .default =
        (.ok (.binary (.unary (.bare .dash 1) left) (.bare .plus 1) right), next) ∧
      left = .binary (.name ⟨.identifier "a" 1, "a"⟩) (.bare .less 1)
        (.name ⟨.identifier "b" 1, "b"⟩) ∧
      ∃ phrase : Phrase, phrase.Shape comparingFirst.grammar .default ∧
        phrase.expr = .binary (.unary (.bare .dash 1) left) (.bare .plus 1) right := by
  have comparison : comparingFirst.grammar.Spells .unary
      ([.identifier "a" 1] ++ .bare .less 1 :: [.identifier "b" 1]) _ _ :=
    .binary (.name rfl rfl) rfl (by decide) (by decide) (.name rfl rfl)
  have sum : comparingFirst.grammar.Spells .default
      (.bare .dash 1 :: ([.identifier "a" 1] ++ .bare .less 1 :: [.identifier "b" 1]) ++
        .bare .plus 1 :: [.identifier "c" 1]) _ _ :=
    .binary (.unary rfl comparison) rfl (by decide) (by decide) (.name rfl rfl)
  have stops (edge : Nat) : comparingFirst.setting.Stops edge [.bare .newLine 1] := nofun
  have read := readExpr_of_spells sum (by decide) (stops _) (stops _) rfl
  obtain ⟨_, phrase, whole, _, _, shape, _⟩ := readExpr_shape comparingFirst .default _ _ read
  exact ⟨_, _, _, read, rfl, phrase, shape, whole⟩

end Parser
end ScriptFront
