import ScriptFront.Proofs.CallStack
import ScriptFront.Proofs.EarliestError
import ScriptFront.Proofs.FrontEnd
import ScriptFront.Proofs.TokenPayload

/-! The rules for names and literals look for the payload of their token, and have an error
for a token without one. Such tokens can be built, but no source holds one: wherever a rule
is applied while the tokens of a source are read, the payload is there. What is reported as
unexpected is then of a kind that starts no expression. -/
namespace ScriptFront

/-- The kinds of the tokens that start an expression. -/
def startingKinds : List TokenKind := [.identifier, .string, .int, .float, .dash, .openParen]

theorem Grammar.standard_start?_none {kind : TokenKind} (none : standard.start? kind = none) :
    kind ∉ startingKinds := by
  intro member
  simp only [startingKinds, List.mem_cons, List.not_mem_nil, or_false] at member
  rcases member with rfl | rfl | rfl | rfl | rfl | rfl <;> cases none

namespace Token.Fits

variable {token : Token}

theorem text?_eq_some (fits : token.Fits)
    (starts : Grammar.standard.start? token.kind = some .name) :
    ∃ name, token.text? = some name := by
  obtain ⟨kind, payload, line⟩ := token
  obtain rfl : kind = .identifier := Grammar.standard_start?_name.mp starts
  cases payload with
  | text name => exact ⟨name, rfl⟩
  | _ => exact fits.elim

theorem literal?_eq_some (fits : token.Fits)
    (starts : Grammar.standard.start? token.kind = some .literal) :
    ∃ value, token.literal? = some value := by
  obtain ⟨kind, payload, line⟩ := token
  obtain rfl | rfl | rfl : kind = .string ∨ kind = .int ∨ kind = .float :=
    Grammar.standard_start?_literal.mp starts
  · cases payload with
    | text value => exact ⟨.text value, rfl⟩
    | _ => exact fits.elim
  · cases payload with
    | int value => exact ⟨.int value, rfl⟩
    | _ => exact fits.elim
  · cases payload with
    | float value => exact ⟨.float value, rfl⟩
    | _ => exact fits.elim

/-- A token that fits is refused for its kind alone. -/
theorem kind_of_refuses (fits : token.Fits) (refuses : Grammar.standard.Refuses token) :
    token.kind ∉ startingKinds := by
  apply Grammar.standard_start?_none
  unfold Grammar.Refuses at refuses
  split at refuses
  · assumption
  · rename_i starts
    obtain ⟨name, has⟩ := fits.text?_eq_some starts
    cases refuses.symm.trans has
  · rename_i starts
    obtain ⟨value, has⟩ := fits.literal?_eq_some starts
    cases refuses.symm.trans has
  · exact refuses.elim
  · exact refuses.elim

end Token.Fits

theorem Setting.current_fits {setting : Setting} {tokens after : List Token}
    (fits : ∀ token ∈ tokens, token.Fits) (ends : after <:+ tokens) :
    (setting.current after).Fits := by
  cases after with
  | nil => rfl
  | cons token after => exact fits token (ends.mem List.mem_cons_self)

namespace Machine

variable {machine next stop : Machine} {steps : Nat} {parser : Parser} {stack : List Frame}
  {rule : StartRule} {token : Token}

/-- The rule that is to be applied next, with its token. -/
def Task.applied? : Task → Option (StartRule × Token)
  | .start rule token => some (rule, token)
  | _ => none

theorem applied?_start (parser : Parser) (rule : StartRule) (token : Token) (stack : List Frame) :
    (start parser rule token stack).task.applied? = none := by
  cases rule with
  | name | literal =>
    simp only [start]
    split <;> rfl
  | unary | grouping => rfl

theorem applied?_join (parser : Parser) (rule : JoinRule) (left : Expr) (operator : Token)
    (power : Power) (stack : List Frame) :
    (join parser rule left operator power stack).task.applied? = none := by
  cases rule with
  | binary => rfl
  | assignment =>
    simp only [join]
    split <;> rfl

theorem applied?_extend (parser : Parser) (power : Power) (left : Expr) (stack : List Frame) :
    (extend parser power left stack).task.applied? = none := by
  unfold extend
  split
  · rfl
  · split
    · rfl
    · dsimp only
      split <;> rfl

theorem applied?_resume {result : Except Diagnostic Expr} {frame : Frame}
    (resumed : resume parser result stack frame = some next) : next.task.applied? = none := by
  cases frame with
  | nested | grouping => cases result <;> cases resumed <;> rfl
  | unary | binary | assign => cases resumed; rfl
  | stmt =>
    cases result with
    | ok expr =>
      simp only [resume] at resumed
      split at resumed <;> cases resumed <;> rfl
    | error d => cases resumed; rfl
  | body => cases resumed

theorem applied?_resumeStmt {result : Except Diagnostic Stmt} {frame : Frame}
    (resumed : resumeStmt parser result stack frame = some next) :
    next.task.applied? = none := by
  cases frame with
  | body done => cases result <;> cases resumed <;> rfl
  | _ => cases resumed

/-- An expression applies the rule that the kind of its first token calls for. -/
theorem applied?_read {power : Power}
    (applied : (read parser power stack).task.applied? = some (rule, token)) :
    parser.grammar.start? token.kind = some rule ∧ token = parser.current := by
  obtain room | full := Nat.lt_or_ge parser.depth nestingLimit
  · rw [read_of_room parser stack room] at applied
    split at applied
    · cases applied
    · rename_i starts
      cases applied
      exact ⟨starts, rfl⟩
  · rw [read_of_full parser stack full] at applied
    cases applied

/-- Rules are applied by the step into an expression and by no other. -/
theorem applied?_of_step (stepped : machine.step = some next)
    (applied : next.task.applied? = some (rule, token)) :
    machine.parser.grammar.start? token.kind = some rule ∧ token = machine.parser.current := by
  have other (none : next.task.applied? = none) :
      machine.parser.grammar.start? token.kind = some rule ∧ token = machine.parser.current := by
    cases none.symm.trans applied
  obtain ⟨parser, task, stack⟩ := machine
  cases task with
  | read power => cases stepped; exact applied?_read applied
  | start rule token => cases stepped; exact other (applied?_start parser rule token stack)
  | join rule left operator power =>
    cases stepped
    exact other (applied?_join parser rule left operator power stack)
  | extend power left => cases stepped; exact other (applied?_extend parser power left stack)
  | give result =>
    cases stack with
    | nil => cases stepped
    | cons frame stack => exact other (applied?_resume stepped)
  | readStmt => cases stepped; exact other rfl
  | giveStmt result =>
    cases stack with
    | nil => cases stepped
    | cons frame stack => exact other (applied?_resumeStmt stepped)
  | readBody done =>
    simp only [step] at stepped
    split at stepped
    · cases stepped; exact other rfl
    · split at stepped <;> cases stepped <;> exact other rfl
  | giveBody result => cases stepped

/-- On the way from a machine a rule is only applied, unless it is the first thing done, to
one of the tokens left. -/
theorem Steps.applied? (run : Steps steps machine stop)
    (applied : stop.task.applied? = some (rule, token)) :
    machine.task.applied? = some (rule, token) ∨
      machine.parser.grammar.start? token.kind = some rule ∧
        ∃ after, after <:+ machine.parser.rest ∧ token = machine.parser.setting.current after := by
  induction run with
  | refl => exact .inl applied
  | next stepped _ ih =>
    obtain first | ⟨starts, after, ends, current⟩ := ih applied
    · obtain ⟨starts, current⟩ := applied?_of_step stepped first
      exact .inr ⟨starts, _, List.suffix_refl _, current⟩
    · have moves := moves_of_step stepped
      rw [Parser.grammar, moves.setting] at starts
      rw [moves.setting] at current
      exact .inr ⟨starts, after, ends.trans moves.rest, current⟩

/-- On tokens that fit, the rules for names and literals have no error. -/
theorem start_of_fits (fits : token.Fits)
    (starts : Grammar.standard.start? token.kind = some rule)
    (payload : rule = .name ∨ rule = .literal) :
    ∃ expr, (Machine.mk parser (.start rule token) stack).step =
      some ⟨parser, .give (.ok expr), stack⟩ := by
  obtain rfl | rfl := payload
  · obtain ⟨name, has⟩ := fits.text?_eq_some starts
    exact ⟨.name ⟨token, name⟩, by simp only [step, Machine.start, has]⟩
  · obtain ⟨value, has⟩ := fits.literal?_eq_some starts
    exact ⟨.literal value token.line, by simp only [step, Machine.start, has]⟩

end Machine

namespace Setting

variable {setting : Setting} {tokens rest : List Token} {d : Diagnostic} {text : String}

/-- The diagnostic is that one of the tokens is not expected, and with that token the outcome
has used up all it has read. -/
def StopsAt {α : Type} (setting : Setting) (tokens : List Token) (outcome : Outcome α)
    (d : Diagnostic) (token : Token) : Prop :=
  d = setting.unexpected token ∧
    ∃ after, after <:+ tokens ∧ token = setting.current after ∧ outcome = .error d after.tail

theorem FailsBelow.stopsAt {room : Nat} {power : Power}
    (fails : setting.FailsBelow room power tokens d rest)
    (fault : d.fault = .unexpectedToken text) (α : Type) :
    ∃ token, setting.StopsAt tokens (.error d rest : Outcome α) d token ∧
      setting.grammar.Refuses token := by
  obtain ⟨way, used, after, low, target, rfl, _, faults⟩ := fails
  cases faults with
  | tooDeep | target => cases fault
  | unexpected refuses =>
    have ends : after <:+ way ++ ([] ++ after) := List.suffix_append way after
    exact ⟨_, ⟨rfl, after, ends, rfl, rfl⟩, refuses⟩
  | unclosed =>
    unfold diagnose Token.unclosed at fault
    split at fault <;> cases fault

theorem readBody_stopsAt (standard : setting.grammar = .standard)
    (failed : setting.readBody tokens = .error d rest)
    (fault : d.fault = .unexpectedToken text) :
    ∃ token, setting.StopsAt tokens (setting.readBody tokens) d token ∧
      setting.grammar.Refuses token := by
  obtain ⟨passed, start, rfl, _, _, _, step⟩ := readBody_error_cases standard failed
  rw [failed]
  obtain fails | ⟨_, _, _, _, _, _, _, rfl⟩ := readStmt_error_cases standard step
  · obtain ⟨token, ⟨unexpected, after, ends, current, stops⟩, refuses⟩ := fails.stopsAt fault _
    have ends := ends.trans (List.suffix_append passed start)
    exact ⟨token, ⟨unexpected, after, ends, current, stops⟩, refuses⟩
  · cases fault

end Setting

/-- A source gives each kind of token the payload it calls for, and the end of input once, at the
end. So no name or literal rule is ever applied to a token that it has an error for, and a
token that is reported as unexpected is of a kind that starts no expression. -/
theorem tokenize_rules_apply (source : String) (file : Option String) (tokens : List Token)
    (read : tokenize source file = .ok tokens) :
    (∀ token ∈ tokens, token.Fits) ∧
    (∃ before line, tokens = before ++ [.bare .endOfInput line] ∧
      ∀ token ∈ before, token.kind ≠ .endOfInput) ∧
    ∀ label : String,
      (∀ task : Machine.Task, task = .readBody [] ∨ task = .read .default →
        ∀ steps machine rule token,
          Machine.Steps steps ⟨(Parser.ofTokens tokens label).addStandard, task, []⟩ machine →
          machine.task = .start rule token → rule = .name ∨ rule = .literal →
          ∃ expr, machine.step = some ⟨machine.parser, .give (.ok expr), machine.stack⟩) ∧
      ∀ d text, d.fault = .unexpectedToken text →
        (parse tokens label = .error d → ∃ token, token.kind ∉ startingKinds ∧
          (Setting.ofTokens .standard label tokens).StopsAt tokens
            ((Setting.ofTokens .standard label tokens).readBody tokens) d token) ∧
        (parseExpression tokens label = .error d → ∃ token, token.kind ∉ startingKinds ∧
          (Setting.ofTokens .standard label tokens).StopsAt tokens
            (((Setting.ofTokens .standard label tokens).level nestingLimit).read .default tokens)
            d token) := by
  have fits := tokenize_fits read
  obtain ⟨before, ends, clean, _⟩ := tokenize_before_newline read ""
  refine ⟨fits, ⟨before, _, ends, clean⟩, ?_⟩
  intro label
  let setting := Setting.ofTokens .standard label tokens
  constructor
  · intro task first steps machine rule token run applied payload
    obtain ⟨parser, _, stack⟩ := machine
    obtain rfl : _ = Machine.Task.start rule token := applied
    obtain at_once | ⟨starts, after, suffix, rfl⟩ := run.applied? rfl
    · obtain rfl | rfl := first <;> cases at_once
    · exact Machine.start_of_fits (Setting.current_fits fits suffix) starts payload
  · intro d text fault
    have kind {α : Type} {outcome : Outcome α} {token : Token}
        (stops : setting.StopsAt tokens outcome d token)
        (refuses : setting.grammar.Refuses token) : token.kind ∉ startingKinds := by
      obtain ⟨_, after, suffix, rfl, _⟩ := stops
      exact (Setting.current_fits fits suffix).kind_of_refuses refuses
    constructor
    · intro failed
      obtain ⟨rest, failed⟩ := parse_eq_error.mp failed
      obtain ⟨token, stops, refuses⟩ := Setting.readBody_stopsAt rfl failed fault
      exact ⟨token, kind stops refuses, stops⟩
    · intro failed
      obtain ⟨rest, failed⟩ := parseExpression_eq_error.mp failed
      have fails := Setting.level_failsBelow Grammar.standard_sealed nestingLimit failed
      obtain ⟨token, stops, refuses⟩ := fails.stopsAt fault Expr
      exact ⟨token, kind stops refuses, failed ▸ stops⟩

/-- A sum that is closed before its last operand. -/
def openSum : String := "total + \"x\" * )"

/-- Behind a name, a text and two operators the parenthesis is reported. -/
theorem tokenize_openSum :
    ∃ (tokens : List Token) (token : Token), tokenize openSum none = .ok tokens ∧
      parse tokens "shell" = .error ⟨.unexpectedToken ")", ⟨1, "shell"⟩⟩ ∧
      parseExpression tokens "shell" = .error ⟨.unexpectedToken ")", ⟨1, "shell"⟩⟩ ∧
      token.render = ")" ∧ token.kind ∉ startingKinds := by
  have read : tokenize openSum none = .ok [.identifier "total" 1, .bare .plus 1, .string "x" 1,
      .bare .star 1, .bare .closeParen 1, .bare .endOfInput 1] := by
    decide +kernel
  obtain ⟨_, _, parses⟩ := tokenize_rules_apply openSum none _ read
  obtain ⟨_, reports⟩ := parses "shell"
  have failed : parse [.identifier "total" 1, .bare .plus 1, .string "x" 1,
      .bare .star 1, .bare .closeParen 1, .bare .endOfInput 1] "shell" =
      .error ⟨.unexpectedToken ")", ⟨1, "shell"⟩⟩ := by
    decide +kernel
  obtain ⟨token, kind, named, _⟩ := (reports _ ")" rfl).1 failed
  have text : token.render = ")" :=
    (Fault.unexpectedToken.inj (congrArg Diagnostic.fault named)).symm
  exact ⟨_, token, read, failed, by decide +kernel, text, kind⟩

end ScriptFront
