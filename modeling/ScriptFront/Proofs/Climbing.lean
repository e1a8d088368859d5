import ScriptFront.Parser.Reading

/-! What precedence climbing reads, said without the reader and for every operator
grammar. Tokens spell an expression at a power; the edge of a spelling is the
rank up to which an operator may follow without being taken by an operand at the
right end. The reader accepts exactly the spellings that need no more nesting
levels than it has, followed by no operator above its power or the edge. -/
namespace ScriptFront

/-- The nesting levels that reading an expression takes. A right operand is read
one level below its operator, a left operand on the level of the operator. -/
def Expr.need : Expr → Nat
  | .name _ | .literal _ _ => 1
  | .unary _ right => 1 + right.need
  | .grouping inner _ => 1 + inner.need
  | .binary left _ right => max left.need (1 + right.need)
  | .assign _ value => 1 + value.need

theorem Expr.need_pos (expr : Expr) : 0 < expr.need := by
  cases expr with
  | name | literal => exact Nat.one_pos
  | unary | grouping | assign => simp only [need]; omega
  | binary => simp only [need]; omega

theorem Power.rank_le_call (power : Power) : power.rank ≤ Power.call.rank := by
  cases power <;> decide

theorem Power.lt_iff_rank {a b : Power} : a < b ↔ a.rank < b.rank := Iff.rfl

/-- The tokens spell the expression at a power, with the given edge. An operator
extends what stands before it only up to the edge of that, and an expression that
ends in a token of its own has the highest edge. -/
inductive Grammar.Spells (grammar : Grammar) : Power → List Token → Expr → Nat → Prop where
  | name {power token name} :
      grammar.start? token.kind = some .name → token.text? = some name →
      Spells grammar power [token] (.name ⟨token, name⟩) Power.call.rank
  | literal {power token value} :
      grammar.start? token.kind = some .literal → token.literal? = some value →
      Spells grammar power [token] (.literal value token.line) Power.call.rank
  | unary {power operator tokens right edge} :
      grammar.start? operator.kind = some .unary →
      Spells grammar .unary tokens right edge →
      Spells grammar power (operator :: tokens) (.unary operator right)
        (min Power.unary.rank edge)
  | grouping {power opening tokens inner edge closing} :
      grammar.start? opening.kind = some .grouping →
      Spells grammar .default tokens inner edge → closing.kind = .closeParen →
      (∀ join, grammar.join? .closeParen = some join → join.power.rank = 0) →
      Spells grammar power (opening :: tokens ++ [closing]) (.grouping inner opening.line)
        Power.call.rank
  | binary {power before left edge operator strength tokens right edge'} :
      Spells grammar power before left edge →
      grammar.join? operator.kind = some ⟨strength, .binary⟩ →
      power < strength → strength.rank ≤ edge →
      Spells grammar strength tokens right edge' →
      Spells grammar power (before ++ operator :: tokens) (.binary left operator right)
        (min strength.rank edge')
  | assign {power before target edge operator strength tokens value edge'} :
      Spells grammar power before (.name target) edge →
      grammar.join? operator.kind = some ⟨strength, .assignment⟩ →
      power < strength → strength.rank ≤ edge →
      Spells grammar strength.lower tokens value edge' →
      Spells grammar power (before ++ operator :: tokens) (.assign target value)
        (min strength.lower.rank edge')

namespace Setting

variable {setting : Setting} {operand : Operand} {power : Power} {left expr : Expr}
  {tokens rest : List Token} {room edge : Nat}

/-- An operator at the front of the tokens ranks no higher than the given edge. -/
def Stops (setting : Setting) (edge : Nat) (tokens : List Token) : Prop :=
  ∀ join, setting.grammar.join? (setting.current tokens).kind = some join →
    join.power.rank ≤ edge

theorem Stops.mono {edge' : Nat} (stops : setting.Stops edge tokens) (le : edge ≤ edge') :
    setting.Stops edge' tokens := by
  intro join joined
  exact Nat.le_trans (stops join joined) le

theorem Stops.min {edge' : Nat} (stops : setting.Stops edge tokens)
    (stops' : setting.Stops edge' tokens) : setting.Stops (min edge edge') tokens := by
  intro join joined
  exact Nat.le_min.mpr ⟨stops join joined, stops' join joined⟩

theorem stops_call (tokens : List Token) : setting.Stops Power.call.rank tokens := by
  intro join _
  exact join.power.rank_le_call

theorem stops_operator {join : Join} {operator : Token}
    (joined : setting.grammar.join? operator.kind = some join) (within : join.power.rank ≤ edge)
    (tokens : List Token) : setting.Stops edge (operator :: tokens) := by
  intro other again
  cases Option.some.inj (joined.symm.trans again)
  exact within

theorem extend_of_stops (stops : setting.Stops power.rank tokens) :
    setting.extend operand power left tokens = .ok left tokens := by
  rw [extend_eq]
  split
  · rfl
  · rename_i join joined
    have below : join.power ≤ power := stops join joined
    rw [if_pos below]

theorem extend_of_joinWith {join : Join} {operator : Token}
    (joined : setting.grammar.join? operator.kind = some join) (above : power < join.power)
    (read : setting.joinWith operand join.rule left operator join.power tokens = .ok expr rest) :
    setting.extend operand power left (operator :: tokens) =
      setting.extend operand power expr rest := by
  have notBelow : ¬ join.power ≤ power := Nat.not_le_of_lt above
  rw [extend_eq]
  simp only [current, joined, if_neg notBelow, List.tail_cons, read]

theorem readNested_of_startWith {token : Token} {rule : StartRule}
    (starts : setting.grammar.start? token.kind = some rule)
    (read : setting.startWith operand rule token tokens = .ok left rest) :
    setting.readNested operand power (token :: tokens) =
      setting.extend operand power left rest := by
  simp only [readNested, current, starts, List.tail_cons, read]

/-- An expression that would be extended by the operators beyond its edge is read whole
where none of them follows and none above the power. -/
theorem level_read_of_extend
    (nested : ∀ {room rest}, expr.need ≤ room + 1 → setting.Stops edge rest →
      setting.readNested (setting.level room) power (tokens ++ rest) =
        setting.extend (setting.level room) power expr rest)
    (fits : expr.need ≤ room) (stops : setting.Stops (min power.rank edge) rest) :
    (setting.level room).read power (tokens ++ rest) = .ok expr rest := by
  obtain ⟨below, rfl⟩ : ∃ below, room = below + 1 :=
    ⟨room - 1, by have := expr.need_pos; omega⟩
  have extended := nested fits (stops.mono (Nat.min_le_right _ _))
  exact extended.trans (extend_of_stops (stops.mono (Nat.min_le_left _ _)))

end Setting

namespace Grammar.Spells

variable {setting : Setting} {power : Power} {used rest : List Token} {expr : Expr}
  {room edge : Nat}

/-- Reading a spelling comes to the point where its expression may be extended. -/
theorem readNested_eq_extend (spelled : setting.grammar.Spells power used expr edge)
    (fits : expr.need ≤ room + 1) (stops : setting.Stops edge rest) :
    setting.readNested (setting.level room) power (used ++ rest) =
      setting.extend (setting.level room) power expr rest := by
  -- The levels and what follows vary: a right operand is read one level below.
  induction spelled generalizing room rest with
  | name starts named =>
    rw [List.singleton_append]
    exact Setting.readNested_of_startWith starts (by simp only [Setting.startWith, named])
  | literal starts valued =>
    rw [List.singleton_append]
    exact Setting.readNested_of_startWith starts (by simp only [Setting.startWith, valued])
  | @unary power operator tokens right edge starts _ ih =>
    simp only [Expr.need] at fits
    have operand : (setting.level room).read .unary (tokens ++ rest) = .ok right rest :=
      Setting.level_read_of_extend ih (by omega) stops
    rw [List.cons_append]
    apply Setting.readNested_of_startWith starts
    simp only [Setting.startWith, operand, Outcome.map]
  | @grouping power opening tokens inner edge closing starts _ closes loose ih =>
    simp only [Expr.need] at fits
    have none : setting.Stops 0 (closing :: rest) := by
      intro join joined
      exact Nat.le_of_eq (loose join (closes ▸ joined))
    have content : (setting.level room).read .default (tokens ++ closing :: rest) =
        .ok inner (closing :: rest) :=
      Setting.level_read_of_extend ih (by omega) (none.mono (Nat.zero_le _))
    simp only [List.cons_append, List.append_assoc, List.nil_append]
    apply Setting.readNested_of_startWith starts
    simp [Setting.startWith, content, Setting.closeGroup, Setting.current, closes]
  | @binary power before left edge operator strength tokens right edge' _ joined above within _
      ihLeft ihRight =>
    simp only [Expr.need] at fits
    have operand : (setting.level room).read strength (tokens ++ rest) = .ok right rest :=
      Setting.level_read_of_extend ihRight (by omega) stops
    rw [List.append_assoc, List.cons_append,
      ihLeft (by omega) (Setting.stops_operator joined within (tokens ++ rest))]
    apply Setting.extend_of_joinWith joined above
    simp only [Setting.joinWith, operand, Outcome.map]
  | @assign power before target edge operator strength tokens value edge' _ joined above within _
      ihTarget ihValue =>
    simp only [Expr.need] at fits
    have operand : (setting.level room).read strength.lower (tokens ++ rest) = .ok value rest :=
      Setting.level_read_of_extend ihValue (by omega) stops
    rw [List.append_assoc, List.cons_append,
      ihTarget (Nat.succ_le_succ (Nat.zero_le room))
        (Setting.stops_operator joined within (tokens ++ rest))]
    apply Setting.extend_of_joinWith joined above
    simp only [Setting.joinWith, operand, Outcome.map]

theorem level_read (spelled : setting.grammar.Spells power used expr edge)
    (fits : expr.need ≤ room) (below : setting.Stops power.rank rest)
    (stops : setting.Stops edge rest) :
    (setting.level room).read power (used ++ rest) = .ok expr rest := by
  apply Setting.level_read_of_extend _ fits (below.min stops)
  exact spelled.readNested_eq_extend

end Grammar.Spells

namespace Setting

variable {setting : Setting} {power : Power} {left expr : Expr} {done tokens rest : List Token}
  {room edge : Nat}

/-- The tokens, as far as they are read, complete a spelling of the expression that
began with the tokens done before, and no operator below its edge follows. -/
def Spelled (setting : Setting) (room : Nat) (power : Power) (done tokens : List Token)
    (expr : Expr) (rest : List Token) : Prop :=
  ∃ used edge, tokens = used ++ rest ∧ setting.grammar.Spells power (done ++ used) expr edge ∧
    expr.need ≤ room ∧ setting.Stops edge rest

/-- What the reader of one level gives is spelled by the tokens it has read. -/
def LevelSpelled (setting : Setting) (room : Nat) : Prop :=
  ∀ {power tokens expr rest}, (setting.level room).read power tokens = .ok expr rest →
    setting.Spelled room power [] tokens expr rest ∧ setting.Stops power.rank rest

theorem startWith_spelled (below : setting.LevelSpelled room) {rule : StartRule} {token : Token}
    (starts : setting.grammar.start? token.kind = some rule)
    (read : setting.startWith (setting.level room) rule token tokens = .ok expr rest) :
    setting.Spelled (room + 1) power [token] tokens expr rest := by
  cases rule with
  | name =>
    simp only [startWith] at read
    split at read
    · rename_i named
      cases read
      exact ⟨[], _, rfl, .name starts named, by simp only [Expr.need]; omega, stops_call _⟩
    · cases read
  | literal =>
    simp only [startWith] at read
    split at read
    · rename_i valued
      cases read
      exact ⟨[], _, rfl, .literal starts valued, by simp only [Expr.need]; omega, stops_call _⟩
    · cases read
  | unary =>
    obtain ⟨right, operand, rfl⟩ := Outcome.map_eq_ok read
    obtain ⟨⟨used, edge, rfl, spelled, fits, stops⟩, last⟩ := below operand
    exact ⟨used, _, rfl, .unary starts spelled, by simp only [Expr.need]; omega, last.min stops⟩
  | grouping =>
    simp only [startWith] at read
    split at read
    · rename_i inner middle operand
      obtain ⟨⟨used, edge, rfl, spelled, fits, stops⟩, last⟩ := below operand
      simp only [closeGroup] at read
      split at read
      · rename_i closes
        cases read
        cases middle with
        | nil => cases closes
        | cons closing rest =>
          have loose : ∀ join, setting.grammar.join? .closeParen = some join →
              join.power.rank = 0 := by
            intro join joined
            exact Nat.le_zero.mp (last join (closes.symm ▸ joined))
          refine ⟨used ++ [closing], _, by simp, ?_, by simp only [Expr.need]; omega, stops_call _⟩
          exact .grouping starts spelled closes loose
      · split at read <;> cases read
    · cases read

/-- One round of extending: what a joining operator makes is spelled too. -/
theorem joinWith_spelled (below : setting.LevelSpelled room) {join : Join} {operator : Token}
    (spelled : setting.grammar.Spells power done left edge) (fits : left.need ≤ room + 1)
    (joined : setting.grammar.join? operator.kind = some join) (above : power < join.power)
    (within : join.power.rank ≤ edge)
    (read : setting.joinWith (setting.level room) join.rule left operator join.power tokens =
      .ok expr rest) :
    setting.Spelled (room + 1) power (done ++ [operator]) tokens expr rest := by
  obtain ⟨strength, rule⟩ := join
  cases rule with
  | binary =>
    obtain ⟨right, operand, rfl⟩ := Outcome.map_eq_ok read
    obtain ⟨⟨used, edge', rfl, right, fewer, stops⟩, last⟩ := below operand
    refine ⟨used, min strength.rank edge', rfl, ?_, by simp only [Expr.need]; omega,
      last.min stops⟩
    simpa using spelled.binary joined above within right
  | assignment =>
    simp only [joinWith] at read
    split at read
    · rename_i target
      obtain ⟨value, operand, rfl⟩ := Outcome.map_eq_ok read
      obtain ⟨⟨used, edge', rfl, value, fewer, stops⟩, last⟩ := below operand
      refine ⟨used, min strength.lower.rank edge', rfl, ?_, by simp only [Expr.need]; omega,
        last.min stops⟩
      simpa using spelled.assign joined above within value
    · cases read

theorem extend_spelled (below : setting.LevelSpelled room)
    (spelled : setting.grammar.Spells power done left edge) (fits : left.need ≤ room + 1)
    (stops : setting.Stops edge tokens)
    (read : setting.extend (setting.level room) power left tokens = .ok expr rest) :
    setting.Spelled (room + 1) power done tokens expr rest ∧ setting.Stops power.rank rest := by
  -- The invariant of the loop: what stands on the left is spelled by the tokens done,
  -- and the operator in front, if any, is within its edge.
  generalize same : setting.level room = operand at read
  fun_induction setting.extend operand power left tokens generalizing done edge with
  | case1 left tokens none =>
    cases read
    refine ⟨⟨[], edge, rfl, by simpa using spelled, fits, stops⟩, ?_⟩
    intro join joined
    cases none.symm.trans (Grammar.join?_eq_some.mp joined).1
  | case2 left tokens strength has weaker =>
    cases read
    refine ⟨⟨[], edge, rfl, by simpa using spelled, fits, stops⟩, ?_⟩
    intro join joined
    cases Option.some.inj (has.symm.trans (Grammar.join?_eq_some.mp joined).1)
    exact weaker
  | case3 left tokens strength has _ unruled =>
    obtain ⟨rule, ruled⟩ := Grammar.exists_rule has
    cases unruled.symm.trans ruled
  | case4 => cases read
  | case5 left tokens strength has stronger rule ruled next middle step shorter ih =>
    subst same
    cases tokens with
    | nil => exact absurd shorter (Nat.not_lt_zero _)
    | cons operator tokens =>
      have joined : setting.grammar.join? operator.kind = some ⟨strength, rule⟩ :=
        Grammar.join?_eq_some.mpr ⟨has, ruled⟩
      obtain ⟨used, edge', rfl, nextSpelled, nextFits, nextStops⟩ :=
        joinWith_spelled below spelled fits joined (Nat.lt_of_not_le stronger)
          (stops _ joined) step
      obtain ⟨⟨more, last, rfl, whole, enough, ends⟩, weaker⟩ :=
        ih nextSpelled nextFits nextStops read
      refine ⟨⟨operator :: (used ++ more), last, by simp, ?_, enough, ends⟩, weaker⟩
      simpa [current] using whole

theorem level_spelled (setting : Setting) (room : Nat) : setting.LevelSpelled room := by
  induction room with
  | zero =>
    intro power tokens expr rest read
    cases read
  | succ room below =>
    intro power tokens expr rest read
    change setting.readNested (setting.level room) power tokens = .ok expr rest at read
    unfold readNested at read
    dsimp only at read
    split at read
    · cases read
    · rename_i rule starts
      split at read
      · cases read
      · rename_i left middle start
        cases tokens with
        | nil => exact absurd (startWith_shorter start) (Nat.not_lt_zero _)
        | cons token tokens =>
          obtain ⟨used, edge, rfl, spelled, fits, stops⟩ :=
            startWith_spelled below starts start
          obtain ⟨⟨more, last, rfl, whole, enough, ends⟩, weaker⟩ :=
            extend_spelled below spelled fits stops read
          refine ⟨⟨token :: (used ++ more), last, by simp, ?_, enough, ends⟩, weaker⟩
          simpa [current] using whole

/-- Reading is exact: it accepts the spellings that its levels have room for and
that no operator continues. -/
theorem level_read_eq_ok_iff :
    (setting.level room).read power tokens = .ok expr rest ↔
      ∃ used edge, tokens = used ++ rest ∧ setting.grammar.Spells power used expr edge ∧
        expr.need ≤ room ∧ setting.Stops power.rank rest ∧ setting.Stops edge rest := by
  constructor
  · intro read
    obtain ⟨⟨used, edge, same, spelled, fits, stops⟩, last⟩ := setting.level_spelled room read
    exact ⟨used, edge, same, spelled, fits, last, stops⟩
  · rintro ⟨used, edge, rfl, spelled, fits, last, stops⟩
    exact spelled.level_read fits last stops

end Setting
end ScriptFront
