import ScriptFront.Proofs.Climbing

/-! The expression grammar of the language, in strata from the loosest to the
tightest. For the standard operators the spellings at a power are the derivations
of one stratum, so reading an expression accepts exactly what the grammar derives
within the nesting limit. -/
namespace ScriptFront

inductive Stratum where
  | expr | sum | product | unary | primary

/-- The tokens derive the expression in a stratum. The arithmetic operators nest to
the left, assignment to the right; lines and payloads are those of the tokens. -/
inductive Derives : Stratum → List Token → Expr → Prop where
  | assign {target name operator tokens value} :
      target.kind = .identifier → target.payload = .text name → operator.kind = .assignment →
      Derives .expr tokens value →
      Derives .expr (target :: operator :: tokens) (.assign ⟨target, name⟩ value)
  | ofSum {tokens expr} : Derives .sum tokens expr → Derives .expr tokens expr
  | add {before left operator tokens right} :
      Derives .sum before left → operator.kind = .plus ∨ operator.kind = .dash →
      Derives .product tokens right →
      Derives .sum (before ++ operator :: tokens) (.binary left operator right)
  | ofProduct {tokens expr} : Derives .product tokens expr → Derives .sum tokens expr
  | multiply {before left operator tokens right} :
      Derives .product before left → operator.kind = .star ∨ operator.kind = .slash →
      Derives .unary tokens right →
      Derives .product (before ++ operator :: tokens) (.binary left operator right)
  | ofUnary {tokens expr} : Derives .unary tokens expr → Derives .product tokens expr
  | negate {operator tokens right} :
      operator.kind = .dash → Derives .unary tokens right →
      Derives .unary (operator :: tokens) (.unary operator right)
  | ofPrimary {tokens expr} : Derives .primary tokens expr → Derives .unary tokens expr
  | name {token name} :
      token.kind = .identifier → token.payload = .text name →
      Derives .primary [token] (.name ⟨token, name⟩)
  | text {token value} :
      token.kind = .string → token.payload = .text value →
      Derives .primary [token] (.literal (.text value) token.line)
  | int {token value} :
      token.kind = .int → token.payload = .int value →
      Derives .primary [token] (.literal (.int value) token.line)
  | float {token value} :
      token.kind = .float → token.payload = .float value →
      Derives .primary [token] (.literal (.float value) token.line)
  | grouping {opening tokens inner closing} :
      opening.kind = .openParen → Derives .expr tokens inner → closing.kind = .closeParen →
      Derives .primary (opening :: tokens ++ [closing]) (.grouping inner opening.line)

/-- The kinds of the operators that stand between two expressions. -/
def operatorKinds : List TokenKind := [.plus, .dash, .star, .slash, .assignment]

/-- The kind of the first token; after the last there is the end of input. -/
def nextKind (tokens : List Token) : TokenKind := (tokens.head?.map Token.kind).getD .endOfInput

theorem Setting.current_kind (setting : Setting) (tokens : List Token) :
    (setting.current tokens).kind = nextKind tokens := by
  cases tokens <;> rfl

namespace Grammar

theorem standard_start?_name {kind : TokenKind} :
    standard.start? kind = some .name ↔ kind = .identifier := by
  cases kind <;> simp [standard, addStandard]

theorem standard_start?_literal {kind : TokenKind} :
    standard.start? kind = some .literal ↔ kind = .string ∨ kind = .int ∨ kind = .float := by
  cases kind <;> simp [standard, addStandard]

theorem standard_start?_unary {kind : TokenKind} :
    standard.start? kind = some .unary ↔ kind = .dash := by
  cases kind <;> simp [standard, addStandard]

theorem standard_start?_grouping {kind : TokenKind} :
    standard.start? kind = some .grouping ↔ kind = .openParen := by
  cases kind <;> simp [standard, addStandard]

theorem standard_join?_binary {kind : TokenKind} {power : Power} :
    standard.join? kind = some ⟨power, .binary⟩ ↔
      power = .sum ∧ (kind = .plus ∨ kind = .dash) ∨
      power = .product ∧ (kind = .star ∨ kind = .slash) := by
  cases kind <;> simp [standard, addStandard, eq_comm]

theorem standard_join?_assignment {kind : TokenKind} {power : Power} :
    standard.join? kind = some ⟨power, .assignment⟩ ↔
      power = .assignment ∧ kind = .assignment := by
  cases kind <;> simp [standard, addStandard, eq_comm]

/-- The operators are the only kinds that join, and each ranks above the lowest power. -/
theorem standard_join?_loose {kind : TokenKind} :
    (∀ join, standard.join? kind = some join → join.power.rank ≤ 0) ↔ kind ∉ operatorKinds := by
  cases kind <;> simp [standard, addStandard, operatorKinds, Power.rank]

end Grammar

theorem Token.text?_eq_some {token : Token} {name : String} :
    token.text? = some name ↔ token.payload = .text name := by
  cases same : token.payload <;> simp [text?, same]

namespace Stratum

/-- The stratum of the expressions whose outermost operators rank above the given rank. -/
def above : Nat → Stratum
  | 0 => .expr
  | 1 | 2 => .sum
  | 3 => .product
  | _ => .unary

/-- The rank of the strongest power at which the expressions of a stratum are read whole. -/
def reach : Stratum → Nat
  | .expr => 0
  | .sum => Power.sum.rank - 1
  | .product => Power.product.rank - 1
  | .unary | .primary => Power.call.rank

/-- The least edge of a spelling in the stratum. -/
def edge : Stratum → Nat
  | .expr => 0
  | .sum => Power.sum.rank
  | .product => Power.product.rank
  | .unary | .primary => Power.unary.rank

end Stratum

namespace Derives

variable {tokens : List Token} {expr : Expr} {low high : Nat}

theorem loosen_one (derived : Derives (.above (low + 1)) tokens expr) :
    Derives (.above low) tokens expr := by
  match low, derived with
  | 0, derived => exact .ofSum derived
  | 1, derived => exact derived
  | 2, derived => exact .ofProduct derived
  | 3, derived => exact .ofUnary derived
  | _ + 4, derived => exact derived

theorem loosen (derived : Derives (.above high) tokens expr) (le : low ≤ high) :
    Derives (.above low) tokens expr := by
  induction le with
  | refl => exact derived
  | step _ ih => exact ih derived.loosen_one

theorem above_of_unary (derived : Derives .unary tokens expr) (low : Nat) :
    Derives (.above low) tokens expr := by
  have tightest : Derives (.above (low + 4)) tokens expr := derived
  exact tightest.loosen (Nat.le_add_right low 4)

theorem above_of_primary (derived : Derives .primary tokens expr) (low : Nat) :
    Derives (.above low) tokens expr :=
  derived.ofPrimary.above_of_unary low

end Derives

namespace Grammar.Spells

variable {power : Power} {used : List Token} {expr : Expr} {edge : Nat}

theorem name_inv {grammar : Grammar} {use : NameUse}
    (spelled : grammar.Spells power used (.name use) edge) :
    used = [use.token] ∧ grammar.start? use.token.kind = some .name ∧
      use.token.text? = some use.name := by
  cases spelled with
  | name starts named => exact ⟨rfl, starts, named⟩

theorem derives_literal {token : Token} {value : Literal} (valued : token.literal? = some value) :
    Derives .primary [token] (.literal value token.line) := by
  unfold Token.literal? at valued
  split at valued
  · rename_i kind payload
    cases valued
    exact .text kind payload
  · rename_i kind payload
    cases valued
    exact .int kind payload
  · rename_i kind payload
    cases valued
    exact .float kind payload
  · cases valued

/-- A spelling derives its expression above the power it is read at, and, seen from
the operators that may follow it, in the stratum up to its edge. -/
theorem derives (spelled : standard.Spells power used expr edge) :
    Derives (.above power.rank) used expr ∧
      (0 < edge → Derives (.above (edge - 1)) used expr) := by
  induction spelled with
  | name starts named =>
    have primary := Derives.name (standard_start?_name.mp starts) (Token.text?_eq_some.mp named)
    exact ⟨primary.above_of_primary _, fun _ => primary.above_of_primary _⟩
  | literal _ valued =>
    have primary := derives_literal valued
    exact ⟨primary.above_of_primary _, fun _ => primary.above_of_primary _⟩
  | unary starts _ ih =>
    have unary := Derives.negate (standard_start?_unary.mp starts) ih.1
    exact ⟨unary.above_of_unary _, fun _ => unary.above_of_unary _⟩
  | grouping starts _ closes _ ih =>
    have primary := Derives.grouping (standard_start?_grouping.mp starts) ih.1 closes
    exact ⟨primary.above_of_primary _, fun _ => primary.above_of_primary _⟩
  | @binary power before left edge operator strength tokens right edge' _ joined above within _
      ihLeft ihRight =>
    rw [Power.lt_iff_rank] at above
    -- The left operand reaches up to the operator, since the operator is within its edge.
    have leftDerived := (ihLeft.2 (by omega)).loosen (Nat.sub_le_sub_right within 1)
    have rightDerived := ihRight.1
    obtain ⟨rfl, kind⟩ | ⟨rfl, kind⟩ := standard_join?_binary.mp joined
    · have sum : Derives (.above 2) _ _ := Derives.add leftDerived kind rightDerived
      exact ⟨sum.loosen (Nat.le_of_lt_succ above),
        fun _ => sum.loosen (Nat.sub_le_sub_right (Nat.min_le_left _ _) 1)⟩
    · have product : Derives (.above 3) _ _ := Derives.multiply leftDerived kind rightDerived
      exact ⟨product.loosen (Nat.le_of_lt_succ above),
        fun _ => product.loosen (Nat.sub_le_sub_right (Nat.min_le_left _ _) 1)⟩
  | @assign power before target edge operator strength tokens value edge' spelled joined above _ _
      _ ihValue =>
    obtain ⟨rfl, starts, named⟩ := spelled.name_inv
    obtain ⟨rfl, kind⟩ := standard_join?_assignment.mp joined
    have lowest : power.rank = 0 := Nat.lt_one_iff.mp above
    have expr := Derives.assign (standard_start?_name.mp starts) (Token.text?_eq_some.mp named)
      kind ihValue.1
    constructor
    · rw [lowest]
      exact expr
    · intro positive
      exact absurd positive (Nat.not_lt_of_le (Nat.min_le_left _ _))

end Grammar.Spells

namespace Derives

variable {stratum : Stratum} {used : List Token} {expr : Expr}

theorem spells (derived : Derives stratum used expr) :
    ∀ power : Power, power.rank ≤ stratum.reach →
      ∃ edge, stratum.edge ≤ edge ∧ Grammar.standard.Spells power used expr edge := by
  induction derived with
  | @assign target name operator tokens value kind payload operatorKind _ ih =>
    intro power weak
    obtain ⟨edge, _, value⟩ := ih Power.assignment.lower (Nat.le_refl 0)
    have spelled : Grammar.standard.Spells power [target] (.name ⟨target, name⟩) _ :=
      .name (Grammar.standard_start?_name.mpr kind) (Token.text?_eq_some.mpr payload)
    exact ⟨_, Nat.zero_le _, spelled.assign
      (Grammar.standard_join?_assignment.mpr ⟨rfl, operatorKind⟩)
      (Nat.lt_succ_of_le weak) (Power.rank_le_call _) value⟩
  | ofSum _ ih =>
    intro power weak
    obtain ⟨edge, _, spelled⟩ := ih power (Nat.le_trans weak (Nat.zero_le _))
    exact ⟨edge, Nat.zero_le _, spelled⟩
  | add _ kind _ ihLeft ihRight =>
    intro power weak
    obtain ⟨edge, enough, left⟩ := ihLeft power weak
    obtain ⟨edge', more, right⟩ := ihRight .sum (Nat.le_refl 3)
    have joined := Grammar.standard_join?_binary.mpr (.inl ⟨rfl, kind⟩)
    exact ⟨_, Nat.le_min.mpr ⟨Nat.le_refl 3, Nat.le_of_succ_le more⟩,
      left.binary joined (Nat.lt_succ_of_le weak) enough right⟩
  | ofProduct _ ih =>
    intro power weak
    obtain ⟨edge, enough, spelled⟩ := ih power (Nat.le_succ_of_le weak)
    exact ⟨edge, Nat.le_of_succ_le enough, spelled⟩
  | multiply _ kind _ ihLeft ihRight =>
    intro power weak
    obtain ⟨edge, enough, left⟩ := ihLeft power weak
    obtain ⟨edge', more, right⟩ := ihRight .product (by decide)
    have joined := Grammar.standard_join?_binary.mpr (.inr ⟨rfl, kind⟩)
    exact ⟨_, Nat.le_min.mpr ⟨Nat.le_refl 4, Nat.le_trans (by decide) more⟩,
      left.binary joined (Nat.lt_succ_of_le weak) enough right⟩
  | ofUnary _ ih =>
    intro power weak
    obtain ⟨edge, enough, spelled⟩ := ih power (Nat.le_trans weak (by decide))
    exact ⟨edge, Nat.le_trans (by decide) enough, spelled⟩
  | negate kind _ ih =>
    intro power _
    obtain ⟨edge, enough, right⟩ := ih .unary (by decide)
    exact ⟨_, Nat.le_min.mpr ⟨Nat.le_refl 6, enough⟩,
      .unary (Grammar.standard_start?_unary.mpr kind) right⟩
  | ofPrimary _ ih => exact ih
  | name kind payload =>
    intro power _
    exact ⟨_, by decide,
      .name (Grammar.standard_start?_name.mpr kind) (Token.text?_eq_some.mpr payload)⟩
  | text kind payload =>
    intro power _
    exact ⟨_, by decide, .literal (Grammar.standard_start?_literal.mpr (.inl kind))
      (by simp only [Token.literal?, kind, payload])⟩
  | int kind payload =>
    intro power _
    exact ⟨_, by decide, .literal (Grammar.standard_start?_literal.mpr (.inr (.inl kind)))
      (by simp only [Token.literal?, kind, payload])⟩
  | float kind payload =>
    intro power _
    exact ⟨_, by decide, .literal (Grammar.standard_start?_literal.mpr (.inr (.inr kind)))
      (by simp only [Token.literal?, kind, payload])⟩
  | grouping kind _ closes ih =>
    intro power _
    obtain ⟨edge, _, inner⟩ := ih .default (Nat.le_refl 0)
    exact ⟨_, by decide, .grouping (Grammar.standard_start?_grouping.mpr kind) inner closes
      (fun join joined => by cases joined)⟩

theorem iff_spells :
    Derives .expr used expr ↔ ∃ edge, Grammar.standard.Spells .default used expr edge := by
  constructor
  · intro derived
    obtain ⟨edge, _, spelled⟩ := derived.spells .default (Nat.le_refl 0)
    exact ⟨edge, spelled⟩
  · rintro ⟨edge, spelled⟩
    exact spelled.derives.1

end Derives

namespace Setting

variable {setting : Setting} {tokens rest : List Token} {expr : Expr} {room : Nat}

theorem stops_standard (standard : setting.grammar = .standard) :
    setting.Stops 0 tokens ↔ nextKind tokens ∉ operatorKinds := by
  rw [Stops, standard, setting.current_kind]
  exact Grammar.standard_join?_loose

/-- With the standard operators a level reads exactly what the grammar derives, as far
as no operator follows and the level has room. -/
theorem level_read_standard (standard : setting.grammar = .standard) :
    (setting.level room).read .default tokens = .ok expr rest ↔
      ∃ used, tokens = used ++ rest ∧ Derives .expr used expr ∧
        nextKind rest ∉ operatorKinds ∧ expr.need ≤ room := by
  rw [level_read_eq_ok_iff, standard]
  constructor
  · rintro ⟨used, edge, rfl, spelled, fits, loose, _⟩
    exact ⟨used, rfl, Derives.iff_spells.mpr ⟨edge, spelled⟩, (stops_standard standard).mp loose,
      fits⟩
  · rintro ⟨used, rfl, derived, loose, fits⟩
    obtain ⟨edge, spelled⟩ := Derives.iff_spells.mp derived
    have stops := (stops_standard standard).mpr loose
    exact ⟨used, edge, rfl, spelled, fits, stops, stops.mono (Nat.zero_le edge)⟩

end Setting

/-- Reading an expression accepts exactly the expression grammar: a prefix of the
tokens derives the expression, no operator follows the prefix, and the expression
stays within the nesting limit. -/
theorem parseExpression_eq_ok_iff (tokens : List Token) (file : String) (expr : Expr) :
    parseExpression tokens file = .ok expr ↔
      ∃ used rest, tokens = used ++ rest ∧ Derives .expr used expr ∧
        nextKind rest ∉ operatorKinds ∧ expr.need ≤ 256 := by
  rw [parseExpression, Outcome.result_eq_ok]
  constructor
  · rintro ⟨rest, read⟩
    obtain ⟨used, same, derived⟩ := (Setting.level_read_standard rfl).mp read
    exact ⟨used, rest, same, derived⟩
  · rintro ⟨used, rest, same, derived⟩
    exact ⟨rest, (Setting.level_read_standard rfl).mpr ⟨used, same, derived⟩⟩

end ScriptFront
