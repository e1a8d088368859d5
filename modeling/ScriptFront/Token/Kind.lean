/-! The kinds of token. Every kind has a name and a lexeme: the spelling of a
token that is always written alike, a description for one that is not. -/
namespace ScriptFront

/-- The reserved words. -/
inductive Keyword where
  | letWord | ifWord | elseWord | funWord | forWord | returnWord | endWord
  | trueWord | falseWord | nilWord | printWord | inWord
  deriving DecidableEq

namespace Keyword

def all : List Keyword :=
  [.letWord, .ifWord, .elseWord, .funWord, .forWord, .returnWord, .endWord,
   .trueWord, .falseWord, .nilWord, .printWord, .inWord]

def spelling : Keyword → String
  | .letWord => "let"
  | .ifWord => "if"
  | .elseWord => "else"
  | .funWord => "fun"
  | .forWord => "for"
  | .returnWord => "return"
  | .endWord => "end"
  | .trueWord => "true"
  | .falseWord => "false"
  | .nilWord => "nil"
  | .printWord => "print"
  | .inWord => "in"

def name : Keyword → String
  | .letWord => "Let"
  | .ifWord => "If"
  | .elseWord => "Else"
  | .funWord => "Fun"
  | .forWord => "For"
  | .returnWord => "Return"
  | .endWord => "End"
  | .trueWord => "True"
  | .falseWord => "False"
  | .nilWord => "Nil"
  | .printWord => "Print"
  | .inWord => "In"

def ofWord? (word : String) : Option Keyword := all.find? (·.spelling == word)

theorem mem_all (keyword : Keyword) : keyword ∈ all := by cases keyword <;> decide

theorem ofWord?_spelling (keyword : Keyword) : ofWord? keyword.spelling = some keyword := by
  cases keyword <;> decide

end Keyword

inductive TokenKind where
  | endOfInput | newLine
  | openParen | closeParen | colon | comma | semicolon
  | keyword (word : Keyword)
  | identifier | int | float | string
  | assignment | equals | plus | dash | slash | star
  | not | notEquals | less | lessEquals | greater | greaterEquals
  deriving DecidableEq

namespace TokenKind

def all : List TokenKind :=
  [.endOfInput, .newLine, .openParen, .closeParen, .colon, .comma, .semicolon] ++
  Keyword.all.map .keyword ++
  [.identifier, .int, .float, .string, .assignment, .equals, .plus, .dash, .slash, .star,
   .not, .notEquals, .less, .lessEquals, .greater, .greaterEquals]

def name : TokenKind → String
  | .endOfInput => "EOF"
  | .newLine => "NewLine"
  | .openParen => "OpenParen"
  | .closeParen => "CloseParen"
  | .colon => "Colon"
  | .comma => "Comma"
  | .semicolon => "Semicolon"
  | .keyword word => word.name
  | .identifier => "Identifier"
  | .int => "Int"
  | .float => "Float"
  | .string => "String"
  | .assignment => "Assignment"
  | .equals => "Equals"
  | .plus => "Plus"
  | .dash => "Dash"
  | .slash => "Slash"
  | .star => "Star"
  | .not => "Not"
  | .notEquals => "NotEquals"
  | .less => "Less"
  | .lessEquals => "LessEquals"
  | .greater => "Greater"
  | .greaterEquals => "GreaterEquals"

def lexeme : TokenKind → String
  | .endOfInput => "end of input"
  | .newLine => "newline"
  | .openParen => "("
  | .closeParen => ")"
  | .colon => ":"
  | .comma => ","
  | .semicolon => ";"
  | .keyword word => word.spelling
  | .identifier => "identifier"
  | .int => "integer"
  | .float => "float"
  | .string => "string"
  | .assignment => "="
  | .equals => "=="
  | .plus => "+"
  | .dash => "-"
  | .slash => "/"
  | .star => "*"
  | .not => "!"
  | .notEquals => "!="
  | .less => "<"
  | .lessEquals => "<="
  | .greater => ">"
  | .greaterEquals => ">="

def ofName? (name : String) : Option TokenKind := all.find? (·.name == name)

/-- Whether a token of this kind may end a statement. -/
def isSeparator (kind : TokenKind) : Bool :=
  kind = .newLine || kind = .semicolon || kind = .endOfInput

theorem mem_all (kind : TokenKind) : kind ∈ all := by
  cases kind with
  | keyword word => cases word <;> decide
  | _ => decide

theorem ofName?_name (kind : TokenKind) : ofName? kind.name = some kind := by
  cases kind with
  | keyword word => cases word <;> decide
  | _ => decide

end TokenKind
end ScriptFront
