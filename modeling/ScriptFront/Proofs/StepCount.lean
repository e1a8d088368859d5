import Mathlib.Logic.Function.Iterate
import ScriptFront.Proofs.CallStack
import ScriptFront.Proofs.Phrase

/-! Reading comes to an end. The machine that reads step by step comes to what the readers
give, whatever tokens and rules there are, in a number of steps that is linear in the tokens
and the levels left. A call that succeeds has passed a token, so what it took is paid for by
that token; a call at the end of the tokens can only fail, and what it took is paid for by
the levels it could still enter. -/
namespace ScriptFront
namespace Machine

/-- The second machine comes after no more than the given number of steps. -/
def Within (bound : Nat) (machine stop : Machine) : Prop :=
  ∃ steps ≤ bound, Steps steps machine stop

namespace Within

variable {machine middle stop : Machine} {bound more : Nat}

theorem refl (machine : Machine) : Within 0 machine machine := ⟨0, Nat.le_refl 0, .refl machine⟩

theorem next (stepped : machine.step = some middle) (run : Within bound middle stop) :
    Within (bound + 1) machine stop := by
  obtain ⟨steps, few, run⟩ := run
  exact ⟨steps + 1, Nat.succ_le_succ few, .next stepped run⟩

theorem trans (run : Within bound machine middle) (after : Within more middle stop) :
    Within (bound + more) machine stop := by
  obtain ⟨first, few, run⟩ := run
  obtain ⟨second, fewer, after⟩ := after
  exact ⟨first + second, Nat.add_le_add few fewer, run.trans after⟩

theorem mono (run : Within bound machine stop) (le : bound ≤ more) : Within more machine stop := by
  obtain ⟨steps, few, run⟩ := run
  exact ⟨steps, Nat.le_trans few le, run⟩

end Within

end Machine

/-- A bound on the steps to an outcome of reading the tokens: eight for each that was passed,
or for each token and level if it fails. -/
def Outcome.cost {α : Type} (tokens : List Token) (room : Nat) : Outcome α → Nat
  | .ok _ rest => 8 * (tokens.length - rest.length)
  | .error _ _ => 8 * (tokens.length + room) + 1

@[simp] theorem Outcome.cost_map {α β : Type} (f : α → β) (tokens : List Token) (room : Nat)
    (outcome : Outcome α) : (outcome.map f).cost tokens room = outcome.cost tokens room := by
  cases outcome <;> rfl

/-- To close a group costs no less than to read what is in it. -/
theorem Setting.closeGroup_cost {setting : Setting} {inner : Expr} {line : UInt32}
    {rest : List Token} {outcome : Outcome Expr}
    (closed : setting.closeGroup inner line rest = outcome) (tokens : List Token) (room : Nat) :
    (Outcome.ok inner rest).cost tokens room ≤ outcome.cost tokens room := by
  have shorter := setting.closeGroup_rest inner line rest
  rw [closed] at shorter
  cases outcome with
  | ok expr left =>
    have fewer : left.length = rest.length - 1 := by
      rw [← List.length_tail]
      exact congrArg List.length shorter
    simp only [Outcome.cost]
    omega
  | error d left =>
    simp only [Outcome.cost]
    omega

namespace Machine

/-- The machine that has come to an outcome. -/
def given (parser : Parser) (outcome : Outcome Expr) (stack : List Frame) : Machine :=
  ⟨(parser.settle outcome).2, .give (parser.settle outcome).1, stack⟩

/-- The machine comes to what the reader of one level gives. -/
def LevelRuns (room : Nat) : Prop :=
  ∀ (parser : Parser) (stack : List Frame) {power : Power} {outcome : Outcome Expr},
    parser.depth + room = nestingLimit →
    (parser.setting.level room).read power parser.rest = outcome →
    Within (outcome.cost parser.rest room) ⟨parser, .read power, stack⟩ (given parser outcome stack)

/-- A frame that only builds on its operand. -/
def Frame.Builds (frame : Frame) (build : Expr → Expr) : Prop :=
  ∀ parser result stack,
    resume parser result stack frame = some ⟨parser, .give (result.map build), stack⟩

theorem Frame.Builds.step {frame : Frame} {build : Expr → Expr} (builds : frame.Builds build)
    (parser : Parser) (outcome : Outcome Expr) (stack : List Frame) :
    (given parser outcome (frame :: stack)).step =
      some (given parser (outcome.map build) stack) := by
  cases outcome with
  | ok expr rest => exact builds { parser with rest := rest } (.ok expr) stack
  | error d rest => exact builds { parser with rest := rest } (.error d) stack

section Run

variable (parser : Parser) (stack : List Frame) {room : Nat} {outcome : Outcome Expr}

theorem within_operand (below : LevelRuns room) (left : parser.depth + room = nestingLimit)
    {build : Expr → Expr} {frame : Frame} (builds : frame.Builds build) {power : Power}
    (read : ((parser.setting.level room).read power parser.rest).map build = outcome) :
    Within (outcome.cost parser.rest room + 1) ⟨parser, .read power, frame :: stack⟩
      (given parser outcome stack) := by
  subst read
  rw [Outcome.cost_map]
  exact (below parser (frame :: stack) left rfl).trans (.next (builds.step parser _ stack) (.refl _))

theorem within_start (below : LevelRuns room) (left : parser.depth + room = nestingLimit)
    {rule : StartRule} {token : Token}
    (read : parser.setting.startWith (parser.setting.level room) rule token parser.rest =
      outcome) :
    Within (outcome.cost parser.rest room + 2) ⟨parser, .start rule token, stack⟩
      (given parser outcome stack) := by
  cases rule with
  | name =>
    have gives : (Machine.mk parser (.start .name token) stack).step =
        some (given parser outcome stack) := by
      subst read
      simp only [step, start, Setting.startWith]
      cases token.text? <;> rfl
    exact (Within.next gives (.refl _)).mono (by omega)
  | literal =>
    have gives : (Machine.mk parser (.start .literal token) stack).step =
        some (given parser outcome stack) := by
      subst read
      simp only [step, start, Setting.startWith]
      cases token.literal? <;> rfl
    exact (Within.next gives (.refl _)).mono (by omega)
  | unary => exact .next rfl (within_operand parser stack below left (fun _ _ _ => rfl) read)
  | grouping =>
    simp only [Setting.startWith] at read
    split at read
    · rename_i inner rest operand
      have closes := below parser (.grouping token.line :: stack) left operand
      have closed : (given parser (.ok inner rest) (.grouping token.line :: stack)).step =
          some (given parser outcome stack) := by
        subst read
        rfl
      have dearer := Setting.closeGroup_cost read parser.rest room
      exact (Within.next rfl (closes.trans (.next closed (.refl _)))).mono (by omega)
    · rename_i operand
      subst read
      have fails := below parser (.grouping token.line :: stack) left operand
      exact .next rfl (fails.trans (.next rfl (.refl _)))

theorem within_join (below : LevelRuns room) (left : parser.depth + room = nestingLimit)
    {rule : JoinRule} {before : Expr} {operator : Token} {power : Power}
    (read : parser.setting.joinWith (parser.setting.level room) rule before operator power
      parser.rest = outcome) :
    Within (outcome.cost parser.rest room + 2) ⟨parser, .join rule before operator power, stack⟩
      (given parser outcome stack) := by
  cases rule with
  | binary => exact .next rfl (within_operand parser stack below left (fun _ _ _ => rfl) read)
  | assignment =>
    cases before with
    | name target => exact .next rfl (within_operand parser stack below left (fun _ _ _ => rfl) read)
    | _ =>
      subst read
      exact (Within.next rfl (.refl _)).mono (by omega)

/-- What was passed with its first token, and what is passed after it, cost no more than the
whole. -/
theorem cost_append {setting : Setting} {operand : Operand} {power : Power} {next : Expr}
    (expr : Expr) {tokens rest : List Token} {room' : Nat} (shorter : rest.length < tokens.length)
    (read : setting.extend operand power next rest = outcome) (le : room ≤ room') :
    (Outcome.ok expr rest).cost tokens.tail room + outcome.cost rest room + 8 ≤
      outcome.cost tokens room' := by
  have tail : tokens.tail.length = tokens.length - 1 := List.length_tail
  cases outcome with
  | ok last left =>
    have fewer := Setting.extend_length read
    simp only [Outcome.cost]
    omega
  | error d left =>
    simp only [Outcome.cost]
    omega

theorem within_extend (below : LevelRuns room) {setting : Setting} {depth : Nat}
    (left : depth + 1 + room = nestingLimit) {power : Power} {expr : Expr} {tokens : List Token}
    (read : setting.extend (setting.level room) power expr tokens = outcome) :
    Within (outcome.cost tokens room + 4) ⟨⟨setting, tokens, depth + 1⟩, .extend power expr, stack⟩
      (given ⟨setting, tokens, depth⟩ outcome stack) := by
  generalize same : setting.level room = operand at read
  fun_induction setting.extend operand power expr tokens with
  | case1 expr tokens absent =>
    subst read
    have leaves := step_extend_of_none ⟨setting, tokens, depth + 1⟩ stack absent power expr
    exact (Within.next leaves (.refl _)).mono (by omega)
  | case2 expr tokens strength has weaker =>
    subst read
    have leaves := step_extend_of_le ⟨setting, tokens, depth + 1⟩ stack has weaker expr
    exact (Within.next leaves (.refl _)).mono (by omega)
  | case3 expr tokens strength has stronger none =>
    obtain ⟨rule, ruled⟩ := Grammar.exists_rule has
    cases none.symm.trans ruled
  | case4 expr tokens strength has stronger rule ruled d rest failed =>
    subst same read
    have joins := step_extend_of_rule ⟨setting, tokens, depth + 1⟩ stack has stronger ruled expr
    have fails := within_join ⟨setting, tokens.tail, depth + 1⟩
      (.nested power :: stack) below left failed
    have tail : tokens.tail.length = tokens.length - 1 := List.length_tail
    refine (Within.next joins (fails.trans (.next rfl (.refl _)))).mono ?_
    simp only [Outcome.cost]
    omega
  | case5 expr tokens strength has stronger rule ruled next rest joined shorter ih =>
    subst same
    have joins := step_extend_of_rule ⟨setting, tokens, depth + 1⟩ stack has stronger ruled expr
    have goesOn := within_join ⟨setting, tokens.tail, depth + 1⟩
      (.nested power :: stack) below left joined
    have cost := cost_append next shorter read (Nat.le_refl room)
    dsimp only at goesOn
    exact (Within.next joins (goesOn.trans (.next rfl (ih read)))).mono (by omega)

theorem levelRuns_zero : LevelRuns 0 := by
  intro parser stack power outcome left read
  subst read
  have full : nestingLimit ≤ parser.depth := Nat.le_of_eq left.symm
  have deep : (Machine.mk parser (.read power) stack).step =
      some (given parser (.error (parser.setting.tooDeep parser.rest) parser.rest) stack) := by
    rw [step, read_of_full parser stack full]
    rfl
  exact (Within.next deep (.refl _)).mono (Nat.le_add_left 1 _)

/-- A call reads what a rule makes of the first token, and extends it. -/
theorem levelRuns_succ (below : LevelRuns room) : LevelRuns (room + 1) := by
  intro parser stack power outcome left read
  obtain ⟨setting, tokens, depth⟩ := parser
  have enough : depth < nestingLimit := by dsimp only at left; omega
  have inner : depth + 1 + room = nestingLimit := by dsimp only at left; omega
  have tail : tokens.tail.length = tokens.length - 1 := List.length_tail
  change setting.readNested (setting.level room) power tokens = outcome at read
  unfold Setting.readNested at read
  dsimp only at read
  split at read
  · rename_i none
    subst read
    have refuses := step_read_of_none ⟨setting, tokens, depth⟩ stack enough none power
    refine (Within.next refuses (.next rfl (.refl _))).mono ?_
    simp only [Outcome.cost]
    omega
  · rename_i rule starts
    have enters := step_read_of_rule ⟨setting, tokens, depth⟩ stack enough starts power
    split at read
    · rename_i d rest failed
      subst read
      have fails := within_start ⟨setting, tokens.tail, depth + 1⟩
        (.nested power :: stack) below inner failed
      refine (Within.next enters (fails.trans (.next rfl (.refl _)))).mono ?_
      simp only [Outcome.cost]
      omega
    · rename_i first rest started
      have begins := within_start ⟨setting, tokens.tail, depth + 1⟩
        (.nested power :: stack) below inner started
      have goesOn := within_extend stack below inner read
      have shorter := Setting.startWith_shorter started
      have cost := cost_append first shorter read (Nat.le_add_right room 1)
      dsimp only at begins
      exact (Within.next enters (begins.trans (.next rfl goesOn))).mono (by dsimp only; omega)

theorem levelRuns (room : Nat) : LevelRuns room := by
  induction room with
  | zero => exact levelRuns_zero
  | succ room below => exact levelRuns_succ below

/-- A statement takes two steps more than its expression. -/
theorem within_stmt (left : parser.depth + room = nestingLimit) {outcome : Outcome Stmt}
    (read : parser.setting.readStmt room parser.rest = outcome) :
    Within (outcome.cost parser.rest room + 2) ⟨parser, .readStmt, stack⟩
      ⟨(parser.settle outcome).2, .giveStmt (parser.settle outcome).1, stack⟩ := by
  unfold Setting.readStmt at read
  split at read
  · rename_i d rest failed
    subst read
    have fails := levelRuns room parser (.stmt :: stack) left failed
    exact .next rfl (fails.trans (.next rfl (.refl _)))
  · rename_i expr rest inner
    have reads := levelRuns room parser (.stmt :: stack) left inner
    have tail : rest.tail.length = rest.length - 1 := List.length_tail
    have ends : (given parser (.ok expr rest) (.stmt :: stack)).step =
        if (parser.setting.current rest).isSeparator then _ else _ := rfl
    dsimp only at read
    split at read
    · rename_i separates
      subst read
      rw [if_pos separates] at ends
      refine (Within.next rfl (reads.trans (.next ends (.refl _)))).mono ?_
      simp only [Outcome.cost]
      omega
    · rename_i goesOn
      subst read
      rw [if_neg goesOn] at ends
      refine (Within.next rfl (reads.trans (.next ends (.refl _)))).mono ?_
      simp only [Outcome.cost]
      omega

/-- Blank lines take a step each. -/
theorem within_skip (setting : Setting) (depth : Nat) (done : List Stmt) (tokens : List Token) :
    Within (tokens.length - (skipNewLines tokens).length)
      ⟨⟨setting, tokens, depth⟩, .readBody done, stack⟩
      ⟨⟨setting, skipNewLines tokens, depth⟩, .readBody done, stack⟩ := by
  induction tokens with
  | nil => exact .refl _
  | cons token tokens ih =>
    by_cases blank : token.kind = .newLine
    · have skips : skipNewLines (token :: tokens) = skipNewLines tokens := by
        simp [skipNewLines, blank]
      have passes : (Machine.mk ⟨setting, token :: tokens, depth⟩ (.readBody done) stack).step =
          some ⟨⟨setting, tokens, depth⟩, .readBody done, stack⟩ := if_pos blank
      have fewer := skipNewLines_length tokens
      rw [skips]
      refine (Within.next passes ih).mono ?_
      simp only [List.length_cons]
      omega
    · have stays : skipNewLines (token :: tokens) = token :: tokens := by
        simp [skipNewLines, blank]
      rw [stays]
      exact (Within.refl _).mono (Nat.zero_le _)

theorem step_body_of_end (setting : Setting) (depth : Nat) {tokens : List Token}
    (ends : nextKind tokens = .endOfInput) (done : List Stmt) :
    (Machine.mk ⟨setting, tokens, depth⟩ (.readBody done) stack).step =
      some ⟨⟨setting, tokens, depth⟩, .giveBody (.ok done), stack⟩ := by
  rw [← setting.current_kind tokens] at ends
  simp [step, Parser.current, Parser.hasTokens, ends]

theorem step_body_of_statement (setting : Setting) (depth : Nat) {tokens : List Token}
    (blank : nextKind tokens ≠ .newLine) (more : nextKind tokens ≠ .endOfInput)
    (done : List Stmt) :
    (Machine.mk ⟨setting, tokens, depth⟩ (.readBody done) stack).step =
      some ⟨⟨setting, tokens, depth⟩, .readStmt, .body done :: stack⟩ := by
  rw [← setting.current_kind tokens] at blank more
  simp [step, Parser.current, Parser.hasTokens, blank, more]

/-- A program takes no more steps than twelve for each token and, if a statement of it fails,
eight for each level. -/
theorem within_body (setting : Setting) (done : List Stmt) (tokens : List Token) :
    Within (12 * tokens.length + 8 * nestingLimit + 5)
      ⟨⟨setting, tokens, 0⟩, .readBody done, stack⟩
      ⟨⟨setting, (setting.readBody tokens).rest, 0⟩,
        .giveBody ((setting.readBody tokens).result.map (done ++ ·)), stack⟩ := by
  induction size : tokens.length using Nat.strongRecOn generalizing tokens done with
  | ind size ih =>
    have skips := within_skip stack setting 0 done tokens
    have fewer := skipNewLines_length tokens
    obtain ⟨_, _, _, blank⟩ := skipNewLines_split tokens
    by_cases ends : nextKind (skipNewLines tokens) = .endOfInput
    · have last := step_body_of_end stack setting 0 ends done
      rw [Setting.readBody_of_end ends, Outcome.result, Except.map, List.append_nil]
      exact (skips.trans (.next last (.refl _))).mono (by omega)
    · have begins := step_body_of_statement stack setting 0 blank ends done
      cases read : setting.readStmt nestingLimit (skipNewLines tokens) with
      | error d rest =>
        have fails := within_stmt ⟨setting, skipNewLines tokens, 0⟩
          (.body done :: stack) (Nat.zero_add nestingLimit) read
        rw [Setting.readBody_of_error ends read]
        refine (skips.trans (.next begins (fails.trans (.next rfl (.refl _))))).mono ?_
        simp only [Outcome.cost]
        omega
      | ok stmt rest =>
        have reads := within_stmt ⟨setting, skipNewLines tokens, 0⟩
          (.body done :: stack) (Nat.zero_add nestingLimit) read
        have shorter := Setting.readStmt_shorter read
        have goesOn := ih rest.length (by omega) (done ++ [stmt]) rest rfl
        have same : (setting.readBody tokens).result.map (done ++ ·) =
            (setting.readBody rest).result.map (done ++ [stmt] ++ ·) := by
          rw [Setting.readBody_of_readStmt ends read]
          cases setting.readBody rest <;> simp [Outcome.map, Outcome.result, Except.map]
        have left : (setting.readBody tokens).rest = (setting.readBody rest).rest := by
          rw [Setting.readBody_of_readStmt ends read, Outcome.rest_map]
        rw [same, left]
        refine (skips.trans (.next begins (reads.trans (.next rfl goesOn)))).mono ?_
        simp only [Outcome.cost]
        omega

end Run

/-- What a parser can be asked to read. -/
inductive Request where
  | expr (power : Power)
  | start (rule : StartRule) (token : Token)
  | join (rule : JoinRule) (left : Expr) (operator : Token) (power : Power)
  | stmt

def Request.task : Request → Task
  | .expr power => .read power
  | .start rule token => .start rule token
  | .join rule left operator power => .join rule left operator power
  | .stmt => .readStmt

/-- The machine that has come to what the parser gives when asked. -/
def answered (parser : Parser) (stack : List Frame) : Request → Machine
  | .expr power => ⟨(parser.readExpr power).2, .give (parser.readExpr power).1, stack⟩
  | .start rule token =>
    ⟨(parser.startWith rule token).2, .give (parser.startWith rule token).1, stack⟩
  | .join rule left operator power =>
    ⟨(parser.joinWith rule left operator power).2,
      .give (parser.joinWith rule left operator power).1, stack⟩
  | .stmt => ⟨parser.readStmt.2, .giveStmt parser.readStmt.1, stack⟩

/-- The machine stops as the second one, after no more than the given number of steps. -/
def Halts (bound : Nat) (machine stop : Machine) : Prop :=
  Within bound machine stop ∧ stop.step = none

theorem cost_le {α : Type} (outcome : Outcome α) (tokens : List Token) (room : Nat) :
    outcome.cost tokens room ≤ 8 * (tokens.length + room) + 1 := by
  cases outcome <;> simp only [Outcome.cost] <;> omega

section Answer

variable {parser : Parser}

/-- The machine comes to what the parser gives, whatever waits for it. -/
theorem within_answered (bounded : parser.depth ≤ nestingLimit) (stack : List Frame)
    (request : Request) :
    Within (8 * (parser.rest.length + parser.room) + 3) ⟨parser, request.task, stack⟩
      (answered parser stack request) := by
  have left : parser.depth + parser.room = nestingLimit := Nat.add_sub_cancel' bounded
  cases request with
  | expr power =>
    apply (levelRuns parser.room parser stack left rfl).mono
    exact Nat.le_trans (cost_le _ _ _) (Nat.add_le_add_left (by decide) _)
  | start rule token =>
    apply (within_start parser stack (levelRuns _) left rfl).mono
    exact Nat.add_le_add_right (cost_le _ _ _) 2
  | join rule before operator power =>
    apply (within_join parser stack (levelRuns _) left rfl).mono
    exact Nat.add_le_add_right (cost_le _ _ _) 2
  | stmt =>
    apply (within_stmt parser stack left rfl).mono
    exact Nat.add_le_add_right (cost_le _ _ _) 2

theorem halts_answered (bounded : parser.depth ≤ nestingLimit) (request : Request) :
    Halts (8 * (parser.rest.length + parser.room) + 3) ⟨parser, request.task, []⟩
      (answered parser [] request) := by
  refine ⟨within_answered bounded [] request, ?_⟩
  cases request <;> rfl

theorem halts_parse (tokens : List Token) (file : String) :
    ∃ stop result, Halts (12 * tokens.length + 8 * nestingLimit + 5)
        ⟨(Parser.ofTokens tokens file).addStandard, .readBody [], []⟩
        ⟨stop, .giveBody result, []⟩ ∧
      parse tokens file = result.map Program.mk := by
  have body := within_body [] (.ofTokens .standard file tokens) [] tokens
  refine ⟨_, _, ⟨body, rfl⟩, ?_⟩
  rw [parse]
  cases (Setting.ofTokens .standard file tokens).readBody tokens <;> rfl

end Answer

/-- What holds of a call for an expression, wherever it is made: it runs one level deeper than
its caller or, at the limit, is refused; it comes to what the parser gives; and if that is
an expression, the parser has passed a token. -/
structure SoundCall (tokens : List Token) (machine : Machine) (power : Power) : Prop where
  enters :
    (machine.parser.depth = nestingLimit ∧
      machine.step = some ⟨machine.parser,
        .give (.error (machine.parser.setting.tooDeep machine.parser.rest)), machine.stack⟩) ∨
    ∃ next, machine.step = some next ∧ next.parser.depth = machine.parser.depth + 1 ∧
      next.parser.depth ≤ nestingLimit ∧ next.stack = .nested power :: machine.stack
  ends : Within (8 * (machine.parser.rest.length + machine.parser.room) + 3) machine
    (answered machine.parser machine.stack (.expr power))
  progress : ∀ expr next, machine.parser.readExpr power = (.ok expr, next) →
    machine.parser.cursor tokens < next.cursor tokens ∧ next.cursor tokens ≤ tokens.length

theorem soundCall {tokens : List Token} {machine : Machine} {power : Power}
    (rest : machine.parser.rest <:+ tokens) (bounded : machine.parser.depth ≤ nestingLimit)
    (task : machine.task = .read power) : SoundCall tokens machine power := by
  obtain ⟨parser, _, stack⟩ := machine
  subst task
  refine ⟨?_, within_answered bounded stack (.expr power), ?_⟩
  · obtain room | full := Nat.lt_or_ge parser.depth nestingLimit
    · refine .inr ⟨read parser power stack, rfl, ?_⟩
      rw [read_of_room parser stack room]
      split <;> exact ⟨rfl, room, rfl⟩
    · exact .inl ⟨Nat.le_antisymm bounded full, congrArg some (read_of_full parser stack full power)⟩
  · intro expr next read
    obtain ⟨level, _⟩ := Parser.readExpr_eq_ok read
    have shorter := (parser.setting.level parser.room).shorter level
    exact ⟨Parser.cursor_lt rest shorter, Nat.sub_le _ _⟩

end Machine

namespace Parser

/-- Skipping blank lines takes a round for each, and stops before anything else. -/
theorem skipNewLines_rounds (parser : Parser) :
    ∃ rounds ≤ parser.rest.length,
      parser.skipNewLines = (fun parser => parser.consume.2)^[rounds] parser ∧
      (∀ i < rounds, ((fun parser => parser.consume.2)^[i] parser).current.kind = .newLine) ∧
      parser.skipNewLines.current.kind ≠ .newLine := by
  obtain ⟨setting, tokens, depth⟩ := parser
  induction tokens with
  | nil => exact ⟨0, Nat.le_refl 0, rfl, nofun, nofun⟩
  | cons token tokens ih =>
    by_cases blank : token.kind = .newLine
    · obtain ⟨rounds, few, same, blanks, stops⟩ := ih
      have skips : skipNewLines ⟨setting, token :: tokens, depth⟩ =
          skipNewLines ⟨setting, tokens, depth⟩ := by
        simp [skipNewLines, ScriptFront.skipNewLines, blank]
      refine ⟨rounds + 1, Nat.succ_le_succ few, skips.trans same, ?_, by rwa [skips]⟩
      intro i below
      cases i with
      | zero => exact blank
      | succ i => exact blanks i (Nat.lt_of_succ_lt_succ below)
    · have stays : skipNewLines ⟨setting, token :: tokens, depth⟩ =
          ⟨setting, token :: tokens, depth⟩ := by
        simp [skipNewLines, ScriptFront.skipNewLines, blank]
      exact ⟨0, Nat.zero_le _, stays, nofun, by rw [stays]; exact blank⟩

/-- Reading ends within a number of steps that is linear in the tokens and the levels left, for any
tokens and rules. On the way the depth is that of the open calls and within the limit, and
every call runs one level below its caller and has passed a token if it succeeds. -/
theorem reading_ends (tokens : List Token) (file : String) (parser : Parser)
    (reached : Reached tokens file parser) :
    (∀ (task : Machine.Task) (steps : Nat) (machine : Machine), task.calls = 0 →
      Machine.Steps steps ⟨parser, task, []⟩ machine →
      machine.parser.depth = parser.depth + machine.openCalls ∧
      machine.parser.depth ≤ nestingLimit ∧
      ∀ power, machine.task = .read power → machine.SoundCall tokens power) ∧
    (∀ request, Machine.Halts (8 * (parser.rest.length + parser.room) + 3)
      ⟨parser, request.task, []⟩ (Machine.answered parser [] request)) ∧
    (∃ rounds ≤ parser.rest.length,
      parser.skipNewLines = (fun parser => parser.consume.2)^[rounds] parser ∧
      (∀ i < rounds, ((fun parser => parser.consume.2)^[i] parser).current.kind = .newLine) ∧
      parser.skipNewLines.current.kind ≠ .newLine) ∧
    ∃ stop result, Machine.Halts (12 * tokens.length + 8 * nestingLimit + 5)
        ⟨(ofTokens tokens file).addStandard, .readBody [], []⟩ ⟨stop, .giveBody result, []⟩ ∧
      parse tokens file = result.map Program.mk := by
  refine ⟨?_, Machine.halts_answered reached.depth, parser.skipNewLines_rounds,
    Machine.halts_parse tokens file⟩
  intro task steps machine fresh run
  have counts := run.counts (.start reached.depth fresh)
  refine ⟨counts.depth, counts.bounded, ?_⟩
  intro power task
  exact Machine.soundCall (run.rest.trans reached.rest) counts.bounded task

/-- A parser at the end of no tokens, for which the end of input is a sign and an operator. -/
def signAtEnd : Parser :=
  ((ofTokens [] "shell").addStart .endOfInput .unary).addJoin .endOfInput .sum .binary

theorem signAtEnd_level (room : Nat) (power : Power) :
    (signAtEnd.setting.level room).read power [] =
      .error ⟨.nestingTooDeep nestingLimit, ⟨1, "shell"⟩⟩ [] := by
  induction room generalizing power with
  | zero => rfl
  | succ room ih =>
    have starts : signAtEnd.setting.grammar.start? (signAtEnd.setting.current []).kind =
        some .unary := rfl
    change signAtEnd.setting.readNested (signAtEnd.setting.level room) power [] = _
    simp only [Setting.readNested, starts, Setting.startWith, List.tail_nil, ih, Outcome.map]

/-- The sign is read again and again, one level deeper each time, until no level is left. -/
theorem signAtEnd_readExpr :
    Reached [] "shell" signAtEnd ∧
    Machine.Halts 2051 ⟨signAtEnd, .read .default, []⟩
      (Machine.answered signAtEnd [] (.expr .default)) ∧
    (signAtEnd.readExpr .default).1 = .error ⟨.nestingTooDeep 256, ⟨1, "shell"⟩⟩ := by
  have reached : Reached [] "shell" signAtEnd :=
    (Reached.start.step (.addStart .endOfInput .unary)).step (.addJoin .endOfInput .sum .binary)
  obtain ⟨_, halts, _⟩ := reading_ends [] "shell" signAtEnd reached
  refine ⟨reached, halts (.expr .default), ?_⟩
  have rest : signAtEnd.rest = [] := rfl
  rw [readExpr, operand, rest, signAtEnd_level]
  rfl

end Parser
end ScriptFront
