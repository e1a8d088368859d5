import ScriptFront.Token.Kind

/-! Operator grammars. A token kind may start an expression by one rule and may
join the expression before it with what follows by another; a joining rule is
always given together with the power at which it binds. -/
namespace ScriptFront

/-- How strongly an operator holds its operands, weakest first. -/
inductive Power where
  | default | assignment | conditional | sum | product | exponent | unary | suffix | call
  deriving DecidableEq

namespace Power

def all : List Power :=
  [.default, .assignment, .conditional, .sum, .product, .exponent, .unary, .suffix, .call]

def rank : Power → Nat
  | .default => 0
  | .assignment => 1
  | .conditional => 2
  | .sum => 3
  | .product => 4
  | .exponent => 5
  | .unary => 6
  | .suffix => 7
  | .call => 8

instance : LE Power := ⟨fun a b => a.rank ≤ b.rank⟩

instance : LT Power := ⟨fun a b => a.rank < b.rank⟩

instance (a b : Power) : Decidable (a ≤ b) := inferInstanceAs (Decidable (a.rank ≤ b.rank))

instance (a b : Power) : Decidable (a < b) := inferInstanceAs (Decidable (a.rank < b.rank))

/-- The power one step weaker. An operator that reads its right operand at this
power groups to the right. -/
def lower : Power → Power
  | .default | .assignment => .default
  | .conditional => .assignment
  | .sum => .conditional
  | .product => .sum
  | .exponent => .product
  | .unary => .exponent
  | .suffix => .unary
  | .call => .suffix

def name : Power → String
  | .default => "Default"
  | .assignment => "Assignment"
  | .conditional => "Conditional"
  | .sum => "Sum"
  | .product => "Product"
  | .exponent => "Exponent"
  | .unary => "Prefix"
  | .suffix => "Postfix"
  | .call => "Call"

def ofName? (name : String) : Option Power := all.find? (·.name == name)

theorem ofName?_name (power : Power) : ofName? power.name = some power := by
  cases power <;> decide

theorem rank_injective {a b : Power} (same : a.rank = b.rank) : a = b := by
  cases a <;> cases b <;> first | rfl | cases same

theorem rank_lower (power : Power) : power.lower.rank = power.rank - 1 := by
  cases power <;> rfl

end Power

/-- What a token that starts an expression stands for. -/
inductive StartRule where
  | name | literal | unary | grouping
  deriving DecidableEq

/-- What a token makes of the expression before it and the one after it. -/
inductive JoinRule where
  | binary | assignment
  deriving DecidableEq

structure Join where
  power : Power
  rule : JoinRule
  deriving DecidableEq

/-- Three tables by token kind. The powers and the rules of the joining kinds stand
apart, but a kind has the one exactly if it has the other. -/
structure Grammar where
  start? : TokenKind → Option StartRule
  power? : TokenKind → Option Power
  rule? : TokenKind → Option JoinRule
  paired : ∀ kind, (power? kind).isSome = (rule? kind).isSome

namespace Grammar

/-- The grammar without rules. -/
def empty : Grammar := ⟨fun _ => none, fun _ => none, fun _ => none, fun _ => rfl⟩

/-- The grammar in which tokens of the kind start an expression by the rule. -/
def start (grammar : Grammar) (kind : TokenKind) (rule : StartRule) : Grammar :=
  { grammar with start? := fun k => if k = kind then some rule else grammar.start? k }

/-- The grammar in which tokens of the kind join expressions at the power by the rule. -/
def join (grammar : Grammar) (kind : TokenKind) (power : Power) (rule : JoinRule) : Grammar where
  start? := grammar.start?
  power? k := if k = kind then some power else grammar.power? k
  rule? k := if k = kind then some rule else grammar.rule? k
  paired k := by
    split
    · rfl
    · exact grammar.paired k

/-- How tokens of a kind join expressions. -/
def join? (grammar : Grammar) (kind : TokenKind) : Option Join :=
  match grammar.power? kind, grammar.rule? kind with
  | some power, some rule => some ⟨power, rule⟩
  | _, _ => none

/-- Adds the operators of the language: assignment, the four arithmetic
operators, negation, grouping, names and literals. -/
def addStandard (grammar : Grammar) : Grammar :=
  grammar
    |>.join .assignment .assignment .assignment
    |>.join .plus .sum .binary
    |>.join .dash .sum .binary
    |>.join .star .product .binary
    |>.join .slash .product .binary
    |>.start .identifier .name
    |>.start .string .literal
    |>.start .int .literal
    |>.start .float .literal
    |>.start .dash .unary
    |>.start .openParen .grouping

def standard : Grammar := empty.addStandard

/-- The kinds that can start an expression. -/
def startKinds (grammar : Grammar) : List TokenKind :=
  TokenKind.all.filter fun kind => (grammar.start? kind).isSome

/-- The kinds that can join two expressions, with their rules. -/
def joins (grammar : Grammar) : List (TokenKind × Join) :=
  TokenKind.all.filterMap fun kind => (grammar.join? kind).map (kind, ·)

@[simp] theorem start?_start (grammar : Grammar) (kind k : TokenKind) (rule : StartRule) :
    (grammar.start kind rule).start? k = if k = kind then some rule else grammar.start? k := rfl

@[simp] theorem join?_start (grammar : Grammar) (kind k : TokenKind) (rule : StartRule) :
    (grammar.start kind rule).join? k = grammar.join? k := rfl

@[simp] theorem start?_join (grammar : Grammar) (kind k : TokenKind) (power : Power)
    (rule : JoinRule) : (grammar.join kind power rule).start? k = grammar.start? k := rfl

@[simp] theorem join?_join (grammar : Grammar) (kind k : TokenKind) (power : Power)
    (rule : JoinRule) : (grammar.join kind power rule).join? k =
      if k = kind then some ⟨power, rule⟩ else grammar.join? k := by
  by_cases same : k = kind <;> simp [join?, join, same]

@[simp] theorem start?_empty (kind : TokenKind) : empty.start? kind = none := rfl

@[simp] theorem join?_empty (kind : TokenKind) : empty.join? kind = none := rfl

theorem join?_eq_some {grammar : Grammar} {kind : TokenKind} {join : Join} :
    grammar.join? kind = some join ↔
      grammar.power? kind = some join.power ∧ grammar.rule? kind = some join.rule := by
  obtain ⟨power, rule⟩ := join
  unfold join?
  split
  · rename_i left right
    simp [left, right]
  · rename_i absent
    constructor
    · exact nofun
    · rintro ⟨left, right⟩
      exact absurd right (absent power rule left)

/-- No power stands in the tables without a rule. -/
theorem exists_rule {grammar : Grammar} {kind : TokenKind} {power : Power}
    (has : grammar.power? kind = some power) : ∃ rule, grammar.rule? kind = some rule := by
  apply Option.isSome_iff_exists.mp
  rw [← grammar.paired, has]
  rfl

end Grammar
end ScriptFront
