import ScriptFront.Token

/-! Expressions and their canonical text. Operators are written before their
operands and every node but a name or a literal stands in parentheses, so the
text shows how the operands were grouped. -/
namespace ScriptFront

/-- A name where it is used, with the token it was read from. -/
structure NameUse where
  token : Token
  name : String
  deriving DecidableEq

inductive Literal where
  | text (value : String)
  | int (value : Int64)
  | float (value : Binary64)
  deriving DecidableEq

def Literal.render : Literal → String
  | .text value => "\"" ++ value ++ "\""
  | .int value => toString value.toInt
  | .float value => value.render

inductive Expr where
  | name (use : NameUse)
  | literal (value : Literal) (line : UInt32)
  | unary (operator : Token) (right : Expr)
  | grouping (inner : Expr) (line : UInt32)
  | binary (left : Expr) (operator : Token) (right : Expr)
  | assign (target : NameUse) (value : Expr)
  deriving DecidableEq

namespace Expr

/-- The line an expression starts on. -/
def line : Expr → UInt32
  | .name use => use.token.line
  | .literal _ line => line
  | .unary operator _ => operator.line
  | .grouping _ line => line
  | .binary left _ _ => left.line
  | .assign target _ => target.token.line

def render : Expr → String
  | .name use => use.name
  | .literal value _ => value.render
  | .unary operator right => "(" ++ operator.render ++ " " ++ right.render ++ ")"
  | .grouping inner _ => "(group " ++ inner.render ++ ")"
  | .binary left operator right =>
    "(" ++ operator.render ++ " " ++ left.render ++ " " ++ right.render ++ ")"
  | .assign target value => "(= " ++ target.name ++ " " ++ value.render ++ ")"

end Expr

/-- An expression statement, marked with a line. -/
structure Stmt where
  expression : Expr
  line : UInt32
  deriving DecidableEq

namespace Stmt

/-- The statement that starts where its expression does. -/
def ofExpr (expression : Expr) : Stmt := ⟨expression, expression.line⟩

def render (stmt : Stmt) : String := stmt.expression.render

end Stmt

structure Program where
  body : List Stmt
  deriving DecidableEq

/-- One statement a line. -/
def Program.render (program : Program) : String :=
  program.body.foldr (fun stmt text => stmt.render ++ "\n" ++ text) ""

end ScriptFront
