import ScriptFront.Diagnostic
import ScriptFront.Expr
import ScriptFront.Grammar

/-! Reading expressions by precedence climbing. An operand reader is a function
that gives back fewer tokens than it got whenever it succeeds; each nesting level
is built from the reader of the level below it, so reading ends for every grammar
and every list of tokens. -/
namespace ScriptFront

/-- The result of reading, with the tokens left: an error too has used up some. -/
inductive Outcome (α : Type) where
  | ok (value : α) (rest : List Token)
  | error (diagnostic : Diagnostic) (rest : List Token)

namespace Outcome

variable {α β : Type}

def rest : Outcome α → List Token
  | .ok _ rest => rest
  | .error _ rest => rest

def result : Outcome α → Except Diagnostic α
  | .ok value _ => .ok value
  | .error diagnostic _ => .error diagnostic

def map (f : α → β) : Outcome α → Outcome β
  | .ok value rest => .ok (f value) rest
  | .error diagnostic rest => .error diagnostic rest

theorem map_eq_ok {f : α → β} {outcome : Outcome α} {value : β} {rest : List Token}
    (mapped : outcome.map f = .ok value rest) : ∃ a, outcome = .ok a rest ∧ f a = value := by
  cases outcome with
  | ok a left => cases mapped; exact ⟨a, rfl, rfl⟩
  | error d left => cases mapped

theorem map_eq_error {f : α → β} {outcome : Outcome α} {d : Diagnostic} {rest : List Token}
    (mapped : outcome.map f = .error d rest) : outcome = .error d rest := by
  cases outcome with
  | ok a left => cases mapped
  | error d left => cases mapped; rfl

theorem result_eq_ok {outcome : Outcome α} {value : α} :
    outcome.result = .ok value ↔ ∃ rest, outcome = .ok value rest := by
  cases outcome <;> simp [result]

end Outcome

/-- Levels of nesting an expression may have. -/
def nestingLimit : Nat := 256

/-- What stays fixed while tokens are read. -/
structure Setting where
  grammar : Grammar
  file : String
  /-- The line of the end of input that follows the last token. -/
  lastLine : UInt32

namespace Setting

/-- The end of input stands on the line of the last token, or on the first line. -/
def ofTokens (grammar : Grammar) (file : String) (tokens : List Token) : Setting :=
  ⟨grammar, file, (tokens.getLast?.map Token.line).getD 1⟩

def endToken (setting : Setting) : Token := .bare .endOfInput setting.lastLine

/-- The next token; after the last there is always the end of input. -/
def current (setting : Setting) : List Token → Token
  | [] => setting.endToken
  | token :: _ => token

def positionOf (setting : Setting) (token : Token) : Position := ⟨token.line, setting.file⟩

def diagnose (setting : Setting) (fault : Fault) (token : Token) : Diagnostic :=
  ⟨fault, setting.positionOf token⟩

def unexpected (setting : Setting) (token : Token) : Diagnostic :=
  setting.diagnose (.unexpectedToken token.render) token

def tooDeep (setting : Setting) (tokens : List Token) : Diagnostic :=
  setting.diagnose (.nestingTooDeep nestingLimit) (setting.current tokens)

end Setting

/-- The literal that a token stands for, if its payload is of its kind. -/
def Token.literal? (token : Token) : Option Literal :=
  match token.kind, token.payload with
  | .string, .text value => some (.text value)
  | .int, .int value => some (.int value)
  | .float, .float value => some (.float value)
  | _, _ => none

/-- A reader of operands that bind more tightly than a given power. -/
structure Operand where
  read : Power → List Token → Outcome Expr
  shorter : ∀ {power tokens expr rest},
    read power tokens = .ok expr rest → rest.length < tokens.length

namespace Setting

/-- The parenthesis that closes a group, read in any case. -/
def closeGroup (setting : Setting) (inner : Expr) (line : UInt32) (tokens : List Token) :
    Outcome Expr :=
  let close := setting.current tokens
  if close.kind = .closeParen then .ok (.grouping inner line) tokens.tail
  else if close.kind = .endOfInput then
    .error (setting.diagnose .unterminatedGrouping close) tokens.tail
  else .error (setting.diagnose (.expectedCloseParen close.render) close) tokens.tail

/-- The expression that a token starts by a rule, the token being read already. -/
def startWith (setting : Setting) (operand : Operand) (rule : StartRule) (token : Token)
    (tokens : List Token) : Outcome Expr :=
  match rule with
  | .name =>
    match token.text? with
    | some name => .ok (.name ⟨token, name⟩) tokens
    | none => .error (setting.unexpected token) tokens
  | .literal =>
    match token.literal? with
    | some value => .ok (.literal value token.line) tokens
    | none => .error (setting.unexpected token) tokens
  | .unary => (operand.read .unary tokens).map (.unary token)
  | .grouping =>
    match operand.read .default tokens with
    | .ok inner rest => setting.closeGroup inner token.line rest
    | .error d rest => .error d rest

/-- The expression that an operator makes of the one before it, the operator being
read already. Only a name can be assigned to, and the value may hold another
assignment. -/
def joinWith (setting : Setting) (operand : Operand) (rule : JoinRule) (left : Expr)
    (operator : Token) (power : Power) (tokens : List Token) : Outcome Expr :=
  match rule with
  | .binary => (operand.read power tokens).map (.binary left operator)
  | .assignment =>
    match left with
    | .name target => (operand.read power.lower tokens).map (.assign target)
    | _ => .error (setting.diagnose .invalidAssignmentTarget operator) tokens

theorem joinWith_shorter {setting : Setting} {operand : Operand} {rule : JoinRule}
    {left expr : Expr} {operator : Token} {power : Power} {tokens rest : List Token}
    (read : setting.joinWith operand rule left operator power tokens = .ok expr rest) :
    rest.length < tokens.length := by
  unfold joinWith at read
  split at read
  · obtain ⟨_, right, _⟩ := Outcome.map_eq_ok read
    exact operand.shorter right
  · split at read
    · obtain ⟨_, value, _⟩ := Outcome.map_eq_ok read
      exact operand.shorter value
    · cases read

theorem joinWith_tail_shorter {setting : Setting} {operand : Operand} {rule : JoinRule}
    {left expr : Expr} {operator : Token} {power : Power} {tokens rest : List Token}
    (read : setting.joinWith operand rule left operator power tokens.tail = .ok expr rest) :
    rest.length < tokens.length := by
  have shorter := joinWith_shorter read
  rw [List.length_tail] at shorter
  omega

/-- Extends an expression while the next token joins at a power above the given one. A
power without a rule would end the expression behind its token. -/
def extend (setting : Setting) (operand : Operand) (power : Power) (left : Expr)
    (tokens : List Token) : Outcome Expr :=
  match setting.grammar.power? (setting.current tokens).kind with
  | none => .ok left tokens
  | some strength =>
    if strength ≤ power then .ok left tokens
    else
      match setting.grammar.rule? (setting.current tokens).kind with
      | none => .ok left tokens.tail
      | some rule =>
        match read : setting.joinWith operand rule left (setting.current tokens) strength
            tokens.tail with
        | .error d rest => .error d rest
        | .ok expr rest =>
          have : rest.length < tokens.length := joinWith_tail_shorter read
          setting.extend operand power expr rest
termination_by tokens.length

/-- A round of extending by what the tables say of the next kind together: since no power
is without a rule, the expression never ends behind an operator. -/
theorem extend_eq (setting : Setting) (operand : Operand) (power : Power) (left : Expr)
    (tokens : List Token) :
    setting.extend operand power left tokens =
      match setting.grammar.join? (setting.current tokens).kind with
      | none => .ok left tokens
      | some join =>
        if join.power ≤ power then .ok left tokens
        else
          match setting.joinWith operand join.rule left (setting.current tokens) join.power
              tokens.tail with
          | .error d rest => .error d rest
          | .ok expr rest => setting.extend operand power expr rest := by
  rw [extend]
  split
  · rename_i absent
    have joinless : setting.grammar.join? (setting.current tokens).kind = none := by
      simp only [Grammar.join?, absent]
    rw [joinless]
  · rename_i strength has
    obtain ⟨rule, ruled⟩ := Grammar.exists_rule has
    have joined : setting.grammar.join? (setting.current tokens).kind = some ⟨strength, rule⟩ :=
      Grammar.join?_eq_some.mpr ⟨has, ruled⟩
    rw [joined]
    dsimp only
    split
    · rfl
    · split
      · rename_i none
        cases none.symm.trans ruled
      · rename_i again
        cases Option.some.inj (ruled.symm.trans again)
        split <;> rename_i read <;> rw [read]

/-- An expression whose operands are read by the given reader. -/
def readNested (setting : Setting) (operand : Operand) (power : Power) (tokens : List Token) :
    Outcome Expr :=
  let token := setting.current tokens
  match setting.grammar.start? token.kind with
  | none => .error (setting.unexpected token) tokens.tail
  | some rule =>
    match setting.startWith operand rule token tokens.tail with
    | .error d rest => .error d rest
    | .ok left rest => setting.extend operand power left rest

theorem closeGroup_length {setting : Setting} {inner expr : Expr} {line : UInt32}
    {tokens rest : List Token} (read : setting.closeGroup inner line tokens = .ok expr rest) :
    rest.length ≤ tokens.length := by
  unfold closeGroup at read
  dsimp only at read
  split at read
  · cases read
    rw [List.length_tail]
    omega
  · split at read <;> cases read

/-- The end of input after the last token starts no expression by itself. -/
theorem startWith_shorter {setting : Setting} {operand : Operand} {rule : StartRule}
    {expr : Expr} {tokens rest : List Token}
    (read : setting.startWith operand rule (setting.current tokens) tokens.tail = .ok expr rest) :
    rest.length < tokens.length := by
  cases tokens with
  | nil =>
    cases rule with
    | name => cases read
    | literal => cases read
    | unary =>
      obtain ⟨_, right, _⟩ := Outcome.map_eq_ok read
      exact operand.shorter right
    | grouping =>
      simp only [startWith] at read
      split at read
      · rename_i inner
        exact Nat.lt_of_le_of_lt (closeGroup_length read) (operand.shorter inner)
      · cases read
  | cons token tokens =>
    refine Nat.lt_succ_of_le ?_
    cases rule with
    | name =>
      simp only [startWith, List.tail_cons] at read
      split at read <;> cases read
      exact Nat.le_refl _
    | literal =>
      simp only [startWith, List.tail_cons] at read
      split at read <;> cases read
      exact Nat.le_refl _
    | unary =>
      obtain ⟨_, right, _⟩ := Outcome.map_eq_ok read
      exact Nat.le_of_lt (operand.shorter right)
    | grouping =>
      simp only [startWith, List.tail_cons] at read
      split at read
      · rename_i inner
        exact Nat.le_trans (closeGroup_length read) (Nat.le_of_lt (operand.shorter inner))
      · cases read

theorem extend_length {setting : Setting} {operand : Operand} {power : Power} {left expr : Expr}
    {tokens rest : List Token} (read : setting.extend operand power left tokens = .ok expr rest) :
    rest.length ≤ tokens.length := by
  fun_induction setting.extend operand power left tokens with
  | case1 => cases read; exact Nat.le_refl _
  | case2 => cases read; exact Nat.le_refl _
  | case3 => cases read; exact (List.tail_sublist _).length_le
  | case4 => cases read
  | case5 left tokens strength _ _ rule _ next rest' _ shorter ih =>
    exact Nat.le_trans (ih read) (Nat.le_of_lt shorter)

theorem readNested_shorter {setting : Setting} {operand : Operand} {power : Power} {expr : Expr}
    {tokens rest : List Token} (read : setting.readNested operand power tokens = .ok expr rest) :
    rest.length < tokens.length := by
  unfold readNested at read
  dsimp only at read
  split at read
  · cases read
  · split at read
    · cases read
    · rename_i start
      exact Nat.lt_of_le_of_lt (extend_length read) (startWith_shorter start)

/-- The reader of expressions that may nest a given number of levels. -/
def level (setting : Setting) : Nat → Operand
  | 0 => ⟨fun _ tokens => .error (setting.tooDeep tokens) tokens, by intros; contradiction⟩
  | room + 1 => ⟨setting.readNested (setting.level room), readNested_shorter⟩

/-- An expression and the separator that ends it. A token that is no separator is
left unread. -/
def readStmt (setting : Setting) (room : Nat) (tokens : List Token) : Outcome Stmt :=
  match (setting.level room).read .default tokens with
  | .error d rest => .error d rest
  | .ok expr rest =>
    let token := setting.current rest
    if token.isSeparator then .ok (.ofExpr expr) rest.tail
    else .error (setting.diagnose (.expectedSeparator token.render) token) rest

theorem readStmt_shorter {setting : Setting} {room : Nat} {stmt : Stmt}
    {tokens rest : List Token} (read : setting.readStmt room tokens = .ok stmt rest) :
    rest.length < tokens.length := by
  unfold readStmt at read
  split at read
  · cases read
  · rename_i inner
    have shorter := (setting.level room).shorter inner
    dsimp only at read
    split at read
    · cases read
      rw [List.length_tail]
      omega
    · cases read

end Setting

/-- The tokens after the newlines they begin with. -/
def skipNewLines (tokens : List Token) : List Token :=
  tokens.dropWhile fun token => token.kind = .newLine

theorem skipNewLines_length (tokens : List Token) : (skipNewLines tokens).length ≤ tokens.length :=
  (List.dropWhile_sublist _).length_le

/-- The statements up to the end of input, blank lines between them skipped. -/
def Setting.readBody (setting : Setting) (tokens : List Token) : Outcome (List Stmt) :=
  let start := skipNewLines tokens
  if (setting.current start).kind = .endOfInput then .ok [] start
  else
    match read : setting.readStmt nestingLimit start with
    | .error d rest => .error d rest
    | .ok stmt rest =>
      have : rest.length < tokens.length :=
        Nat.lt_of_lt_of_le (readStmt_shorter read) (skipNewLines_length tokens)
      (setting.readBody rest).map (stmt :: ·)
termination_by tokens.length

/-- The program that the tokens make up. -/
def parse (tokens : List Token) (file : String) : Except Diagnostic Program :=
  ((Setting.ofTokens .standard file tokens).readBody tokens).result.map Program.mk

/-- The expression at the front of the tokens; what follows it is not looked at. -/
def parseExpression (tokens : List Token) (file : String) : Except Diagnostic Expr :=
  (((Setting.ofTokens .standard file tokens).level nestingLimit).read .default tokens).result

end ScriptFront
