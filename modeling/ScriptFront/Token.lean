import ScriptFront.Token.Kind
import ScriptFront.Binary64.Render

/-! Tokens: a kind, a payload and the line the token ends on. The lexer gives
each kind the payload it calls for, but a token may be built with any. -/
namespace ScriptFront

inductive Payload where
  | absent
  | text (value : String)
  | int (value : Int64)
  | float (value : Binary64)
  deriving DecidableEq

/-- Equality of payloads, floats being compared by value. -/
def Payload.equals : Payload → Payload → Bool
  | .absent, .absent => true
  | .text a, .text b => a = b
  | .int a, .int b => a = b
  | .float a, .float b => a.equals b
  | _, _ => false

structure Token where
  kind : TokenKind
  payload : Payload
  line : UInt32
  deriving DecidableEq

namespace Token

def bare (kind : TokenKind) (line : UInt32) : Token := ⟨kind, .absent, line⟩

def identifier (name : String) (line : UInt32) : Token := ⟨.identifier, .text name, line⟩

def string (contents : String) (line : UInt32) : Token := ⟨.string, .text contents, line⟩

def int (value : Int64) (line : UInt32) : Token := ⟨.int, .int value, line⟩

def float (value : Binary64) (line : UInt32) : Token := ⟨.float, .float value, line⟩

/-- The token as it would be written, a string with its quotes. A token without
payload shows the lexeme of its kind. -/
def render (token : Token) : String :=
  match token.payload with
  | .absent => token.kind.lexeme
  | .text value => if token.kind = .string then "\"" ++ value ++ "\"" else value
  | .int value => toString value.toInt
  | .float value => value.render

def text? (token : Token) : Option String :=
  match token.payload with
  | .text value => some value
  | _ => none

def isSeparator (token : Token) : Bool := token.kind.isSeparator

def equals (a b : Token) : Bool :=
  a.kind = b.kind && a.payload.equals b.payload && a.line = b.line

end Token
end ScriptFront
