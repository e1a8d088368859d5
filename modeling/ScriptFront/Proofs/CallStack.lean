import ScriptFront.Proofs.ProgramGrammar
import ScriptFront.Proofs.Reached

/-! Reading with its calls laid open. The readers are functions that call one another and end
because each level is built from the one below it. Here a machine does the same work one
step at a time, with a stack of what waits for a result: it counts the depth up where an
expression is entered and down where it is left, on every path, and nothing in it makes it
end. At every step the depth is that at the start and one more for each open call. -/
namespace ScriptFront
namespace Machine

/-- What waits for a result: an expression for the part a rule makes, a rule for its operand,
a statement for its expression, a program for its next statement. -/
inductive Frame where
  | nested (power : Power)
  | unary (operator : Token)
  | grouping (line : UInt32)
  | binary (left : Expr) (operator : Token)
  | assign (target : NameUse)
  | stmt
  | body (done : List Stmt)

/-- What is to be done next. -/
inductive Task where
  | read (power : Power)
  | start (rule : StartRule) (token : Token)
  | join (rule : JoinRule) (left : Expr) (operator : Token) (power : Power)
  | extend (power : Power) (left : Expr)
  | give (result : Except Diagnostic Expr)
  | readStmt
  | giveStmt (result : Except Diagnostic Stmt)
  | readBody (done : List Stmt)
  | giveBody (result : Except Diagnostic (List Stmt))

end Machine

structure Machine where
  parser : Parser
  task : Machine.Task
  stack : List Machine.Frame

namespace Machine

/-- A call enters a level, unless there is none left, and looks up the rule for a token. -/
def read (parser : Parser) (power : Power) (stack : List Frame) : Machine :=
  match parser.enter with
  | .error d => ⟨parser, .give (.error d), stack⟩
  | .ok inner =>
    let (token, next) := inner.consume
    match next.grammar.start? token.kind with
    | none => ⟨next, .give (.error (next.setting.unexpected token)), .nested power :: stack⟩
    | some rule => ⟨next, .start rule token, .nested power :: stack⟩

/-- A rule makes an expression of its token, or calls for an operand. -/
def start (parser : Parser) (rule : StartRule) (token : Token) (stack : List Frame) : Machine :=
  match rule with
  | .name =>
    match token.text? with
    | some name => ⟨parser, .give (.ok (.name ⟨token, name⟩)), stack⟩
    | none => ⟨parser, .give (.error (parser.setting.unexpected token)), stack⟩
  | .literal =>
    match token.literal? with
    | some value => ⟨parser, .give (.ok (.literal value token.line)), stack⟩
    | none => ⟨parser, .give (.error (parser.setting.unexpected token)), stack⟩
  | .unary => ⟨parser, .read .unary, .unary token :: stack⟩
  | .grouping => ⟨parser, .read .default, .grouping token.line :: stack⟩

def join (parser : Parser) (rule : JoinRule) (left : Expr) (operator : Token) (power : Power)
    (stack : List Frame) : Machine :=
  match rule with
  | .binary => ⟨parser, .read power, .binary left operator :: stack⟩
  | .assignment =>
    match left with
    | .name target => ⟨parser, .read power.lower, .assign target :: stack⟩
    | _ =>
      ⟨parser, .give (.error (parser.setting.diagnose .invalidAssignmentTarget operator)), stack⟩

/-- A call leaves its level with what it has, unless an operator above its power follows. -/
def extend (parser : Parser) (power : Power) (left : Expr) (stack : List Frame) : Machine :=
  match parser.grammar.power? parser.current.kind with
  | none => ⟨parser.leave, .give (.ok left), stack⟩
  | some strength =>
    if strength ≤ power then ⟨parser.leave, .give (.ok left), stack⟩
    else
      let (operator, next) := parser.consume
      match next.grammar.rule? operator.kind with
      | none => ⟨next.leave, .give (.ok left), stack⟩
      | some rule => ⟨next, .join rule left operator strength, .nested power :: stack⟩

/-- An expression, or the error in its place, comes to the frame that waits for it. An error
closes the frame, and a call that it closes leaves its level. -/
def resume (parser : Parser) (result : Except Diagnostic Expr) (stack : List Frame) :
    Frame → Option Machine
  | .nested power =>
    match result with
    | .ok left => some ⟨parser, .extend power left, stack⟩
    | .error d => some ⟨parser.leave, .give (.error d), stack⟩
  | .unary operator => some ⟨parser, .give (result.map (.unary operator)), stack⟩
  | .grouping line =>
    match result with
    | .ok inner =>
      let (closed, next) := parser.settle (parser.setting.closeGroup inner line parser.rest)
      some ⟨next, .give closed, stack⟩
    | .error d => some ⟨parser, .give (.error d), stack⟩
  | .binary left operator => some ⟨parser, .give (result.map (.binary left operator)), stack⟩
  | .assign target => some ⟨parser, .give (result.map (.assign target)), stack⟩
  | .stmt =>
    match result with
    | .ok expr =>
      if parser.current.isSeparator then
        some ⟨parser.consume.2, .giveStmt (.ok (.ofExpr expr)), stack⟩
      else
        let fault := Fault.expectedSeparator parser.current.render
        some ⟨parser, .giveStmt (.error (parser.setting.diagnose fault parser.current)), stack⟩
    | .error d => some ⟨parser, .giveStmt (.error d), stack⟩
  | .body _ => none

def resumeStmt (parser : Parser) (result : Except Diagnostic Stmt) (stack : List Frame) :
    Frame → Option Machine
  | .body done =>
    match result with
    | .ok stmt => some ⟨parser, .readBody (done ++ [stmt]), stack⟩
    | .error d => some ⟨parser, .giveBody (.error d), stack⟩
  | _ => none

/-- One step. There is none where a result has come to the end of the stack. -/
def step : Machine → Option Machine
  | ⟨parser, .read power, stack⟩ => some (read parser power stack)
  | ⟨parser, .start rule token, stack⟩ => some (start parser rule token stack)
  | ⟨parser, .join rule left operator power, stack⟩ =>
    some (join parser rule left operator power stack)
  | ⟨parser, .extend power left, stack⟩ => some (extend parser power left stack)
  | ⟨parser, .give result, frame :: stack⟩ => resume parser result stack frame
  | ⟨_, .give _, []⟩ => none
  | ⟨parser, .readStmt, stack⟩ => some ⟨parser, .read .default, .stmt :: stack⟩
  | ⟨parser, .giveStmt result, frame :: stack⟩ => resumeStmt parser result stack frame
  | ⟨_, .giveStmt _, []⟩ => none
  | ⟨parser, .readBody done, stack⟩ =>
    if parser.current.kind = .newLine then some ⟨parser.consume.2, .readBody done, stack⟩
    else if parser.hasTokens then some ⟨parser, .readStmt, .body done :: stack⟩
    else some ⟨parser, .giveBody (.ok done), stack⟩
  | ⟨_, .giveBody _, _⟩ => none

/-- The second machine comes after a number of steps of the first. -/
inductive Steps : Nat → Machine → Machine → Prop where
  | refl (machine : Machine) : Steps 0 machine machine
  | next {machine next stop : Machine} {steps : Nat} :
      machine.step = some next → Steps steps next stop → Steps (steps + 1) machine stop

/-- Whether an expression is being read and was not left. -/
@[simp] def Frame.calls : Frame → Nat
  | .nested _ => 1
  | _ => 0

@[simp] def Task.calls : Task → Nat
  | .extend _ _ => 1
  | _ => 0

@[simp] def callsIn : List Frame → Nat
  | [] => 0
  | frame :: stack => frame.calls + callsIn stack

/-- How many of the expressions that were entered are not left. -/
def openCalls (machine : Machine) : Nat :=
  machine.task.calls + callsIn machine.stack

/-- What a step does to the parser: the tokens left are an end of those before, the rules stay,
and the depth changes with the open calls, to one more only below the limit. -/
structure Moves (machine next : Machine) : Prop where
  setting : next.parser.setting = machine.parser.setting
  rest : next.parser.rest <:+ machine.parser.rest
  depth :
    (next.parser.depth = machine.parser.depth ∧ next.openCalls = machine.openCalls) ∨
    (machine.parser.depth < nestingLimit ∧ next.parser.depth = machine.parser.depth + 1 ∧
      next.openCalls = machine.openCalls + 1) ∨
    (next.parser.depth = machine.parser.depth - 1 ∧ machine.openCalls = next.openCalls + 1)

section Equations

variable (parser : Parser) (stack : List Frame)

theorem read_of_full (full : nestingLimit ≤ parser.depth) (power : Power) :
    read parser power stack =
      ⟨parser, .give (.error (parser.setting.tooDeep parser.rest)), stack⟩ := by
  rw [read, Parser.enter, if_pos full]

theorem read_of_room (room : parser.depth < nestingLimit) (power : Power) :
    read parser power stack =
      match parser.grammar.start? parser.current.kind with
      | none => ⟨⟨parser.setting, parser.rest.tail, parser.depth + 1⟩,
          .give (.error (parser.setting.unexpected parser.current)), .nested power :: stack⟩
      | some rule => ⟨⟨parser.setting, parser.rest.tail, parser.depth + 1⟩,
          .start rule parser.current, .nested power :: stack⟩ := by
  rw [read, Parser.enter, if_neg (Nat.not_le_of_lt room)]
  rfl

theorem step_read_of_none (room : parser.depth < nestingLimit)
    (none : parser.grammar.start? parser.current.kind = none) (power : Power) :
    (Machine.mk parser (.read power) stack).step =
      some ⟨⟨parser.setting, parser.rest.tail, parser.depth + 1⟩,
        .give (.error (parser.setting.unexpected parser.current)), .nested power :: stack⟩ := by
  rw [step, read_of_room parser stack room, none]

theorem step_read_of_rule (room : parser.depth < nestingLimit) {rule : StartRule}
    (starts : parser.grammar.start? parser.current.kind = some rule) (power : Power) :
    (Machine.mk parser (.read power) stack).step =
      some ⟨⟨parser.setting, parser.rest.tail, parser.depth + 1⟩, .start rule parser.current,
        .nested power :: stack⟩ := by
  rw [step, read_of_room parser stack room, starts]

theorem step_extend_of_none (absent : parser.grammar.power? parser.current.kind = none)
    (power : Power) (left : Expr) :
    (Machine.mk parser (.extend power left) stack).step =
      some ⟨parser.leave, .give (.ok left), stack⟩ := by
  rw [step, extend, absent]

theorem step_extend_of_le {power strength : Power}
    (has : parser.grammar.power? parser.current.kind = some strength)
    (weaker : strength ≤ power) (left : Expr) :
    (Machine.mk parser (.extend power left) stack).step =
      some ⟨parser.leave, .give (.ok left), stack⟩ := by
  rw [step, extend, has]
  dsimp only
  rw [if_pos weaker]

theorem step_extend_of_rule {power strength : Power}
    (has : parser.grammar.power? parser.current.kind = some strength)
    (stronger : ¬ strength ≤ power) {rule : JoinRule}
    (ruled : parser.grammar.rule? parser.current.kind = some rule) (left : Expr) :
    (Machine.mk parser (.extend power left) stack).step =
      some ⟨{ parser with rest := parser.rest.tail }, .join rule left parser.current strength,
        .nested power :: stack⟩ := by
  have later : parser.consume.2.grammar.rule? parser.consume.1.kind = some rule := ruled
  rw [step, extend, has]
  dsimp only
  rw [if_neg stronger, later]
  rfl

end Equations

section Step

variable {machine next : Machine} {parser : Parser} {stack : List Frame}

/-- A step on the level that the parser is on. -/
theorem Moves.stay {task task' : Task} {stack stack' : List Frame} {rest : List Token}
    (ends : rest <:+ parser.rest)
    (calls : task'.calls + callsIn stack' = task.calls + callsIn stack) :
    Moves ⟨parser, task, stack⟩ ⟨{ parser with rest := rest }, task', stack'⟩ :=
  ⟨rfl, ends, .inl ⟨rfl, calls⟩⟩

theorem Moves.leave {task task' : Task} {stack stack' : List Frame} {rest : List Token}
    (ends : rest <:+ parser.rest)
    (calls : task.calls + callsIn stack = task'.calls + callsIn stack' + 1) :
    Moves ⟨parser, task, stack⟩
      ⟨{ parser with rest := rest, depth := parser.depth - 1 }, task', stack'⟩ :=
  ⟨rfl, ends, .inr (.inr ⟨rfl, calls⟩)⟩

theorem Moves.enter {task task' : Task} {stack stack' : List Frame} {rest : List Token}
    (room : parser.depth < nestingLimit) (ends : rest <:+ parser.rest)
    (calls : task'.calls + callsIn stack' = task.calls + callsIn stack + 1) :
    Moves ⟨parser, task, stack⟩ ⟨⟨parser.setting, rest, parser.depth + 1⟩, task', stack'⟩ :=
  ⟨rfl, ends, .inr (.inl ⟨room, rfl, calls⟩)⟩

theorem moves_read (power : Power) :
    Moves ⟨parser, .read power, stack⟩ (read parser power stack) := by
  obtain room | full := Nat.lt_or_ge parser.depth nestingLimit
  · rw [read_of_room parser stack room]
    split <;> exact .enter room (List.tail_suffix _) (by simp [Nat.add_comm])
  · rw [read_of_full parser stack full]
    exact .stay (List.suffix_refl _) rfl

theorem moves_start (rule : StartRule) (token : Token) :
    Moves ⟨parser, .start rule token, stack⟩ (start parser rule token stack) := by
  cases rule with
  | name =>
    simp only [start]
    split <;> exact .stay (List.suffix_refl _) rfl
  | literal =>
    simp only [start]
    split <;> exact .stay (List.suffix_refl _) rfl
  | unary => exact .stay (List.suffix_refl _) (by simp)
  | grouping => exact .stay (List.suffix_refl _) (by simp)

theorem moves_join (rule : JoinRule) (left : Expr) (operator : Token) (power : Power) :
    Moves ⟨parser, .join rule left operator power, stack⟩
      (join parser rule left operator power stack) := by
  cases rule with
  | binary => exact .stay (List.suffix_refl _) (by simp)
  | assignment =>
    simp only [join]
    split
    · exact .stay (List.suffix_refl _) (by simp)
    · exact .stay (List.suffix_refl _) rfl

theorem moves_extend (power : Power) (left : Expr) :
    Moves ⟨parser, .extend power left, stack⟩ (extend parser power left stack) := by
  unfold extend
  split
  · exact .leave (List.suffix_refl _) (by simp [Nat.add_comm])
  · split
    · exact .leave (List.suffix_refl _) (by simp [Nat.add_comm])
    · dsimp only
      split
      · exact .leave (List.tail_suffix _) (by simp [Nat.add_comm])
      · exact .stay (List.tail_suffix _) (by simp)

theorem moves_resume {result : Except Diagnostic Expr} {frame : Frame}
    (resumed : resume parser result stack frame = some next) :
    Moves ⟨parser, .give result, frame :: stack⟩ next := by
  cases frame with
  | nested power =>
    cases result with
    | ok left => cases resumed; exact .stay (List.suffix_refl _) (by simp)
    | error d => cases resumed; exact .leave (List.suffix_refl _) (by simp [Nat.add_comm])
  | unary | binary | assign => cases resumed; exact .stay (List.suffix_refl _) (by simp)
  | grouping line =>
    cases result with
    | ok inner =>
      cases resumed
      refine .stay ?_ (by simp)
      rw [Setting.closeGroup_rest]
      exact List.tail_suffix _
    | error d => cases resumed; exact .stay (List.suffix_refl _) (by simp)
  | stmt =>
    cases result with
    | ok expr =>
      simp only [resume] at resumed
      split at resumed
      · cases resumed; exact .stay (List.tail_suffix _) (by simp)
      · cases resumed; exact .stay (List.suffix_refl _) (by simp)
    | error d => cases resumed; exact .stay (List.suffix_refl _) (by simp)
  | body => cases resumed

theorem moves_resumeStmt {result : Except Diagnostic Stmt} {frame : Frame}
    (resumed : resumeStmt parser result stack frame = some next) :
    Moves ⟨parser, .giveStmt result, frame :: stack⟩ next := by
  cases frame with
  | body done => cases result <;> cases resumed <;> exact .stay (List.suffix_refl _) (by simp)
  | _ => cases resumed

theorem moves_of_step (stepped : machine.step = some next) : machine.Moves next := by
  obtain ⟨parser, task, stack⟩ := machine
  cases task with
  | read power => cases stepped; exact moves_read power
  | start rule token => cases stepped; exact moves_start rule token
  | join rule left operator power => cases stepped; exact moves_join rule left operator power
  | extend power left => cases stepped; exact moves_extend power left
  | give result =>
    cases stack with
    | nil => cases stepped
    | cons frame stack => exact moves_resume stepped
  | readStmt => cases stepped; exact .stay (List.suffix_refl _) (by simp)
  | giveStmt result =>
    cases stack with
    | nil => cases stepped
    | cons frame stack => exact moves_resumeStmt stepped
  | readBody done =>
    simp only [step] at stepped
    split at stepped
    · cases stepped; exact .stay (List.tail_suffix _) rfl
    · split at stepped <;> cases stepped
      · exact .stay (List.suffix_refl _) (by simp)
      · exact .stay (List.suffix_refl _) rfl
  | giveBody result => cases stepped

end Step

section Way

variable {machine middle stop : Machine} {steps : Nat}

theorem Steps.trans {more : Nat} (run : Steps steps machine middle)
    (later : Steps more middle stop) : Steps (steps + more) machine stop := by
  induction run with
  | refl => rwa [Nat.zero_add]
  | next stepped _ ih =>
    rw [Nat.add_right_comm]
    exact .next stepped (ih later)

theorem Steps.setting (run : Steps steps machine stop) :
    stop.parser.setting = machine.parser.setting := by
  induction run with
  | refl => rfl
  | next stepped _ ih => exact ih.trans (moves_of_step stepped).setting

theorem Steps.rest (run : Steps steps machine stop) :
    stop.parser.rest <:+ machine.parser.rest := by
  induction run with
  | refl => exact List.suffix_refl _
  | next stepped _ ih => exact ih.trans (moves_of_step stepped).rest

/-- The depth of the parser is a base and one more for each open call, and within the limit. -/
structure Counts (base : Nat) (machine : Machine) : Prop where
  depth : machine.parser.depth = base + machine.openCalls
  bounded : machine.parser.depth ≤ nestingLimit

theorem Counts.start {parser : Parser} {task : Task} (bounded : parser.depth ≤ nestingLimit)
    (fresh : task.calls = 0) : Counts parser.depth ⟨parser, task, []⟩ := by
  refine ⟨?_, bounded⟩
  rw [openCalls, fresh]
  rfl

theorem Counts.step {base : Nat} (counts : machine.Counts base)
    (stepped : machine.step = some middle) : middle.Counts base := by
  have depth := counts.depth
  have bounded := counts.bounded
  constructor <;>
    obtain ⟨same, calls⟩ | ⟨room, more, calls⟩ | ⟨fewer, calls⟩ := (moves_of_step stepped).depth <;>
    omega

theorem Steps.counts {base : Nat} (run : Steps steps machine stop)
    (counts : machine.Counts base) : stop.Counts base := by
  induction run with
  | refl => exact counts
  | next stepped _ ih => exact ih (counts.step stepped)

end Way
end Machine
end ScriptFront
