import ScriptFront.Proofs.Climbing

/-! Where reading an expression fails. A reader that fails has gone down from operand
to operand and stopped at one of them; the way down and the fault at its end
account for every token read. The way depends on the tokens passed alone, so what
follows the fault never matters. -/
namespace ScriptFront

/-- The way from an expression read at a power, with a number of nesting levels to go,
down to an operand read at another power with fewer levels left. -/
inductive Grammar.Descends (grammar : Grammar) :
    Nat → Power → List Token → Nat → Power → Prop where
  | here {room power} : Descends grammar room power [] room power
  | unary {room power operator way low target} :
      grammar.start? operator.kind = some .unary →
      Descends grammar room .unary way low target →
      Descends grammar (room + 1) power (operator :: way) low target
  | grouping {room power opening way low target} :
      grammar.start? opening.kind = some .grouping →
      Descends grammar room .default way low target →
      Descends grammar (room + 1) power (opening :: way) low target
  | binary {room power before left edge operator strength way low target} :
      grammar.Spells power before left edge → left.need ≤ room + 1 →
      grammar.join? operator.kind = some ⟨strength, .binary⟩ →
      power < strength → strength.rank ≤ edge →
      Descends grammar room strength way low target →
      Descends grammar (room + 1) power (before ++ operator :: way) low target
  | assign {room power before use edge operator strength way low target} :
      grammar.Spells power before (.name use) edge →
      grammar.join? operator.kind = some ⟨strength, .assignment⟩ →
      power < strength → strength.rank ≤ edge →
      Descends grammar room strength.lower way low target →
      Descends grammar (room + 1) power (before ++ operator :: way) low target

/-- No expression starts with the token, by its kind or for want of a payload. -/
def Grammar.Refuses (grammar : Grammar) (token : Token) : Prop :=
  match grammar.start? token.kind with
  | none => True
  | some .name => token.text? = none
  | some .literal => token.literal? = none
  | some .unary | some .grouping => False

/-- The end of input, which may be met any number of times, is no operator. -/
structure Grammar.Sealed (grammar : Grammar) : Prop where
  start : grammar.start? .endOfInput = none
  join : grammar.join? .endOfInput = none

/-- The fault of a token in place of a closing parenthesis. -/
def Token.unclosed (token : Token) : Fault :=
  if token.kind = .endOfInput then .unterminatedGrouping else .expectedCloseParen token.render

namespace Setting

/-- How reading an operand fails on its own level: having read the tokens used, at the
first of those after them. -/
inductive Faults (setting : Setting) :
    Nat → Power → List Token → List Token → Diagnostic → List Token → Prop where
  | tooDeep {power after} : Faults setting 0 power [] after (setting.tooDeep after) after
  | unexpected {room power after} :
      setting.grammar.Refuses (setting.current after) →
      Faults setting (room + 1) power [] after (setting.unexpected (setting.current after))
        after.tail
  | unclosed {room power opening tokens inner edge after} :
      setting.grammar.start? opening.kind = some .grouping →
      setting.grammar.Spells .default tokens inner edge → inner.need ≤ room →
      setting.Stops 0 after → (setting.current after).kind ≠ .closeParen →
      Faults setting (room + 1) power (opening :: tokens) after
        (setting.diagnose (setting.current after).unclosed (setting.current after)) after.tail
  | target {room power before left edge operator strength after} :
      setting.grammar.Spells power before left edge → left.need ≤ room + 1 →
      (∀ use, left ≠ .name use) →
      setting.grammar.join? operator.kind = some ⟨strength, .assignment⟩ →
      power < strength → strength.rank ≤ edge →
      Faults setting (room + 1) power before (operator :: after)
        (setting.diagnose .invalidAssignmentTarget operator) after

/-- Reading the tokens fails at the end of some way down. -/
def FailsBelow (setting : Setting) (room : Nat) (power : Power) (tokens : List Token)
    (d : Diagnostic) (rest : List Token) : Prop :=
  ∃ way used after low target, tokens = way ++ (used ++ after) ∧
    setting.grammar.Descends room power way low target ∧
    setting.Faults low target used after d rest

def LevelFailsBelow (setting : Setting) (room : Nat) : Prop :=
  ∀ {power tokens d rest}, (setting.level room).read power tokens = .error d rest →
    setting.FailsBelow room power tokens d rest

variable {setting : Setting} {power : Power} {left : Expr} {done tokens rest : List Token}
  {room edge : Nat} {d : Diagnostic}

theorem FailsBelow.unary {operator : Token}
    (starts : setting.grammar.start? operator.kind = some .unary)
    (fails : setting.FailsBelow room .unary tokens d rest) :
    setting.FailsBelow (room + 1) power (operator :: tokens) d rest := by
  obtain ⟨way, used, after, low, target, rfl, descends, faults⟩ := fails
  exact ⟨_, used, after, low, target, rfl, .unary starts descends, faults⟩

theorem FailsBelow.grouping {opening : Token}
    (starts : setting.grammar.start? opening.kind = some .grouping)
    (fails : setting.FailsBelow room .default tokens d rest) :
    setting.FailsBelow (room + 1) power (opening :: tokens) d rest := by
  obtain ⟨way, used, after, low, target, rfl, descends, faults⟩ := fails
  exact ⟨_, used, after, low, target, rfl, .grouping starts descends, faults⟩

theorem startWith_failsBelow (closed : setting.grammar.Sealed)
    (below : setting.LevelFailsBelow room) {rule : StartRule}
    (starts : setting.grammar.start? (setting.current tokens).kind = some rule)
    (failed : setting.startWith (setting.level room) rule (setting.current tokens) tokens.tail =
      .error d rest) :
    setting.FailsBelow (room + 1) power tokens d rest := by
  cases tokens with
  | nil => cases closed.start.symm.trans starts
  | cons token tokens =>
    simp only [current, List.tail_cons] at starts failed
    have refused (refuses : setting.grammar.Refuses token) :
        setting.FailsBelow (room + 1) power (token :: tokens) (setting.unexpected token) tokens :=
      ⟨[], [], token :: tokens, _, _, rfl, .here, .unexpected refuses⟩
    cases rule with
    | name =>
      simp only [startWith] at failed
      split at failed
      · cases failed
      · rename_i absent
        cases failed
        exact refused (by simpa only [Grammar.Refuses, starts] using absent)
    | literal =>
      simp only [startWith] at failed
      split at failed
      · cases failed
      · rename_i absent
        cases failed
        exact refused (by simpa only [Grammar.Refuses, starts] using absent)
    | unary =>
      exact .unary starts (below (Outcome.map_eq_error failed))
    | grouping =>
      simp only [startWith] at failed
      split at failed
      · rename_i inner middle read
        obtain ⟨⟨used, edge, rfl, spelled, fits, _⟩, stops⟩ := setting.level_spelled room read
        have unclosed (notClosed : (setting.current middle).kind ≠ .closeParen) :
            setting.FailsBelow (room + 1) power (token :: (used ++ middle))
              (setting.diagnose (setting.current middle).unclosed (setting.current middle))
              middle.tail :=
          ⟨[], token :: used, middle, _, _, rfl, .here,
            .unclosed starts spelled fits stops notClosed⟩
        simp only [closeGroup] at failed
        split at failed
        · cases failed
        · rename_i notClosed
          split at failed
          · rename_i ends
            cases failed
            simpa only [Token.unclosed, if_pos ends] using unclosed notClosed
          · rename_i more
            cases failed
            simpa only [Token.unclosed, if_neg more] using unclosed notClosed
      · rename_i inner
        cases failed
        exact .grouping starts (below inner)

/-- A joining operator fails by its right operand or by what it would assign to. -/
theorem joinWith_failsBelow (below : setting.LevelFailsBelow room) {join : Join} {operator : Token}
    (spelled : setting.grammar.Spells power done left edge) (fits : left.need ≤ room + 1)
    (joined : setting.grammar.join? operator.kind = some join) (above : power < join.power)
    (within : join.power.rank ≤ edge)
    (failed : setting.joinWith (setting.level room) join.rule left operator join.power tokens =
      .error d rest) :
    setting.FailsBelow (room + 1) power (done ++ operator :: tokens) d rest := by
  obtain ⟨strength, rule⟩ := join
  cases rule with
  | binary =>
    obtain ⟨way, used, after, low, target, rfl, descends, faults⟩ :=
      below (Outcome.map_eq_error failed)
    exact ⟨done ++ operator :: way, used, after, low, target, by simp,
      .binary spelled fits joined above within descends, faults⟩
  | assignment =>
    simp only [joinWith] at failed
    split at failed
    · obtain ⟨way, used, after, low, target, rfl, descends, faults⟩ :=
        below (Outcome.map_eq_error failed)
      exact ⟨done ++ operator :: way, used, after, low, target, by simp,
        .assign spelled joined above within descends, faults⟩
    · rename_i notName
      cases failed
      exact ⟨[], done, operator :: tokens, _, _, rfl, .here,
        .target spelled fits notName joined above within⟩

theorem extend_failsBelow (closed : setting.grammar.Sealed) (below : setting.LevelFailsBelow room)
    (spelled : setting.grammar.Spells power done left edge) (fits : left.need ≤ room + 1)
    (stops : setting.Stops edge tokens)
    (failed : setting.extend (setting.level room) power left tokens = .error d rest) :
    setting.FailsBelow (room + 1) power (done ++ tokens) d rest := by
  -- As long as the rounds succeed, what stands on the left stays spelled by the tokens done.
  generalize same : setting.level room = operand at failed
  fun_induction setting.extend operand power left tokens generalizing done edge with
  | case1 => cases failed
  | case2 => cases failed
  | case3 => cases failed
  | case4 left tokens strength has stronger rule ruled d rest step =>
    subst same
    cases failed
    have joined : setting.grammar.join? (setting.current tokens).kind = some ⟨strength, rule⟩ :=
      Grammar.join?_eq_some.mpr ⟨has, ruled⟩
    cases tokens with
    | nil => cases closed.join.symm.trans joined
    | cons operator tokens =>
      exact joinWith_failsBelow below spelled fits joined (Nat.lt_of_not_le stronger)
        (stops _ joined) step
  | case5 left tokens strength has stronger rule ruled next middle step shorter ih =>
    subst same
    cases tokens with
    | nil => exact absurd shorter (Nat.not_lt_zero _)
    | cons operator tokens =>
      have joined : setting.grammar.join? operator.kind = some ⟨strength, rule⟩ :=
        Grammar.join?_eq_some.mpr ⟨has, ruled⟩
      obtain ⟨used, edge', rfl, nextSpelled, nextFits, nextStops⟩ :=
        joinWith_spelled (setting.level_spelled room) spelled fits joined
          (Nat.lt_of_not_le stronger) (stops _ joined) step
      simpa [current] using ih nextSpelled nextFits nextStops failed

theorem level_failsBelow (closed : setting.grammar.Sealed) (room : Nat) :
    setting.LevelFailsBelow room := by
  induction room with
  | zero =>
    intro power tokens d rest failed
    cases failed
    exact ⟨[], [], tokens, 0, power, rfl, .here, .tooDeep⟩
  | succ room below =>
    intro power tokens d rest failed
    change setting.readNested (setting.level room) power tokens = .error d rest at failed
    unfold readNested at failed
    dsimp only at failed
    split at failed
    · rename_i none
      cases failed
      exact ⟨[], [], tokens, _, _, rfl, .here, .unexpected (by simp only [Grammar.Refuses, none])⟩
    · rename_i rule starts
      split at failed
      · rename_i start
        cases failed
        exact startWith_failsBelow closed below starts start
      · rename_i left middle start
        cases tokens with
        | nil => exact absurd (startWith_shorter start) (Nat.not_lt_zero _)
        | cons token tokens =>
          obtain ⟨used, edge, rfl, spelled, fits, stops⟩ :=
            startWith_spelled (setting.level_spelled room) starts start
          simpa [current] using extend_failsBelow closed below spelled fits stops failed

theorem readNested_of_startWith_error {operand : Operand} {token : Token} {rule : StartRule}
    (starts : setting.grammar.start? token.kind = some rule)
    (failed : setting.startWith operand rule token tokens = .error d rest) :
    setting.readNested operand power (token :: tokens) = .error d rest := by
  simp only [readNested, current, starts, List.tail_cons, failed]

theorem extend_of_joinWith_error {operand : Operand} {join : Join} {operator : Token}
    (joined : setting.grammar.join? operator.kind = some join) (above : power < join.power)
    (failed : setting.joinWith operand join.rule left operator join.power tokens =
      .error d rest) :
    setting.extend operand power left (operator :: tokens) = .error d rest := by
  have notBelow : ¬ join.power ≤ power := Nat.not_le_of_lt above
  rw [extend_eq]
  simp only [current, joined, if_neg notBelow, List.tail_cons, failed]

/-- Reading fails where an operator that may extend what is spelled before it fails. -/
theorem readNested_of_joinWith_error {join : Join} {operator : Token}
    (spelled : setting.grammar.Spells power done left edge) (fits : left.need ≤ room + 1)
    (joined : setting.grammar.join? operator.kind = some join) (above : power < join.power)
    (within : join.power.rank ≤ edge)
    (failed : setting.joinWith (setting.level room) join.rule left operator join.power tokens =
      .error d rest) :
    setting.readNested (setting.level room) power (done ++ operator :: tokens) =
      .error d rest := by
  rw [spelled.readNested_eq_extend fits (stops_operator joined within tokens)]
  exact extend_of_joinWith_error joined above failed

end Setting

namespace Grammar.Descends

variable {setting : Setting} {power target : Power} {way tokens rest : List Token}
  {room low : Nat} {d : Diagnostic}

/-- Whatever stands at the end of the way, an error there is an error of the whole. -/
theorem level_read_error (descends : setting.grammar.Descends room power way low target)
    (failed : (setting.level low).read target tokens = .error d rest) :
    (setting.level room).read power (way ++ tokens) = .error d rest := by
  induction descends with
  | here => exact failed
  | unary starts _ ih =>
    rw [List.cons_append]
    apply Setting.readNested_of_startWith_error starts
    simp only [Setting.startWith, ih failed, Outcome.map]
  | grouping starts _ ih =>
    rw [List.cons_append]
    apply Setting.readNested_of_startWith_error starts
    simp only [Setting.startWith, ih failed]
  | @binary room power before left edge operator strength way low target spelled fits joined
      above within _ ih =>
    rw [List.append_assoc, List.cons_append]
    apply Setting.readNested_of_joinWith_error spelled fits joined above within
    simp only [Setting.joinWith, ih failed, Outcome.map]
  | @assign room power before use edge operator strength way low target spelled joined
      above within _ ih =>
    have fits : (Expr.name use).need ≤ room + 1 := Nat.succ_le_succ (Nat.zero_le room)
    rw [List.append_assoc, List.cons_append]
    apply Setting.readNested_of_joinWith_error spelled fits joined above within
    simp only [Setting.joinWith, ih failed, Outcome.map]

end Grammar.Descends

namespace Setting.Faults

variable {setting : Setting} {power : Power} {used after rest : List Token} {room : Nat}
  {d : Diagnostic}

theorem level_read_error (faults : setting.Faults room power used after d rest) :
    (setting.level room).read power (used ++ after) = .error d rest := by
  cases faults with
  | tooDeep => rfl
  | @unexpected room _ _ refuses =>
    change setting.readNested (setting.level room) power after = _
    unfold readNested
    dsimp only
    unfold Grammar.Refuses at refuses
    split at refuses
    · rename_i none
      rw [none]
    · rename_i starts
      simp only [starts, startWith, refuses]
    · rename_i starts
      simp only [starts, startWith, refuses]
    · cases refuses
    · cases refuses
  | @unclosed room _ opening tokens inner edge _ starts spelled fits stops notClosed =>
    have read := spelled.level_read fits stops (stops.mono (Nat.zero_le edge))
    rw [List.cons_append]
    apply readNested_of_startWith_error starts
    simp only [startWith, read, closeGroup, if_neg notClosed, Token.unclosed]
    split <;> rfl
  | @target _ _ _ left _ _ _ _ spelled fits notName joined above within =>
    apply readNested_of_joinWith_error spelled fits joined above within
    cases left with
    | name use => exact absurd rfl (notName use)
    | _ => rfl

end Setting.Faults
end ScriptFront
