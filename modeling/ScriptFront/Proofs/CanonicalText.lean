import ScriptFront.Proofs.FrontEnd
import ScriptFront.Proofs.NumberText
import ScriptFront.Proofs.TokenPayload

/-! The canonical text of a program determines it up to lines. A text is first cut into a
tree of atoms, which is unique since every atom ends at a stop or at its closing quote; the
nodes are then read back from the shape of the tree and the characters of its atoms. -/
namespace ScriptFront

open Lexical

/-- Atoms, and in parentheses a head before one or two operands. -/
inductive SExpr where
  | atom (text : List Char)
  | one (head : List Char) (operand : SExpr)
  | two (head : List Char) (left right : SExpr)

/-- The characters that can follow an operand. -/
def Stop (c : Char) : Prop := c = ' ' ∨ c = ')' ∨ c = '\n'

def Stopped (rest : List Char) : Prop := ∃ c more, rest = c :: more ∧ Stop c

/-- Texts that end at the first stop, and quoted ones that may hold any number of them. -/
inductive Atom : List Char → Prop where
  | plain {c more} : c ≠ '(' → c ≠ '"' → (∀ c' ∈ c :: more, ¬ Stop c') → Atom (c :: more)
  | quoted {contents} : '"' ∉ contents → Atom ('"' :: contents ++ ['"'])

namespace SExpr

def text : SExpr → List Char
  | .atom text => text
  | .one head operand => '(' :: head ++ ' ' :: (operand.text ++ [')'])
  | .two head left right => '(' :: head ++ ' ' :: (left.text ++ ' ' :: (right.text ++ [')']))

def Delimited : SExpr → Prop
  | .atom text => Atom text
  | .one head operand => ' ' ∉ head ∧ operand.Delimited
  | .two head left right => ' ' ∉ head ∧ left.Delimited ∧ right.Delimited

end SExpr

/-- Two texts up to the first character of some class are cut alike. -/
theorem append_cons_inj {p : Char → Prop} {text text' rest rest' : List Char} {c c' : Char}
    (clear : ∀ d ∈ text, ¬ p d) (clear' : ∀ d ∈ text', ¬ p d) (ends : p c) (ends' : p c')
    (same : text ++ c :: rest = text' ++ c' :: rest') :
    text = text' ∧ c :: rest = c' :: rest' := by
  induction text generalizing text' with
  | nil =>
    cases text' with
    | nil => exact ⟨rfl, same⟩
    | cons d text' =>
      obtain ⟨rfl, _⟩ := List.cons.inj same
      exact absurd ends (clear' c List.mem_cons_self)
  | cons d text ih =>
    cases text' with
    | nil =>
      obtain ⟨rfl, _⟩ := List.cons.inj same
      exact absurd ends' (clear d List.mem_cons_self)
    | cons d' text' =>
      obtain ⟨rfl, after⟩ := List.cons.inj same
      obtain ⟨rfl, left⟩ := ih (fun d member => clear d (List.mem_cons_of_mem _ member))
        (fun d member => clear' d (List.mem_cons_of_mem _ member)) after
      exact ⟨rfl, left⟩

namespace Atom

variable {text text' rest rest' : List Char}

theorem head_ne (atom : Atom text) (more : List Char) : text ++ rest ≠ '(' :: more := by
  intro same
  cases atom with
  | plain open' _ _ => exact open' (List.cons.inj same).1
  | quoted _ => exact absurd (List.cons.inj same).1 (by decide)

theorem append_inj (atom : Atom text) (atom' : Atom text') (stopped : Stopped rest)
    (stopped' : Stopped rest') (same : text ++ rest = text' ++ rest') :
    text = text' ∧ rest = rest' := by
  obtain ⟨c, more, rfl, stop⟩ := stopped
  obtain ⟨c', more', rfl, stop'⟩ := stopped'
  cases atom with
  | plain _ quote clear =>
    cases atom' with
    | plain _ _ clear' => exact append_cons_inj clear clear' stop stop' same
    | quoted _ => exact absurd (List.cons.inj same).1 quote
  | @quoted contents clear =>
    cases atom' with
    | plain _ quote _ => exact absurd (List.cons.inj same).1.symm quote
    | @quoted contents' clear' =>
      have inside : contents ++ '"' :: c :: more = contents' ++ '"' :: c' :: more' := by
        simpa using same
      obtain ⟨rfl, after⟩ := append_cons_inj (p := (· = '"'))
        (fun d member quote => clear (quote ▸ member))
        (fun d member quote => clear' (quote ▸ member)) rfl rfl inside
      exact ⟨rfl, (List.cons.inj after).2⟩

end Atom

theorem stopped_space (rest : List Char) : Stopped (' ' :: rest) := ⟨' ', rest, rfl, .inl rfl⟩

theorem stopped_close (rest : List Char) : Stopped (')' :: rest) :=
  ⟨')', rest, rfl, .inr (.inl rfl)⟩

theorem stopped_newline (rest : List Char) : Stopped ('\n' :: rest) :=
  ⟨'\n', rest, rfl, .inr (.inr rfl)⟩

namespace SExpr

theorem text_one_append (head : List Char) (operand : SExpr) (rest : List Char) :
    (one head operand).text ++ rest = '(' :: head ++ ' ' :: (operand.text ++ ')' :: rest) := by
  simp [text]

theorem text_two_append (head : List Char) (left right : SExpr) (rest : List Char) :
    (two head left right).text ++ rest =
      '(' :: head ++ ' ' :: (left.text ++ ' ' :: (right.text ++ ')' :: rest)) := by
  simp [text]

theorem head_append_inj {head head' rest rest' : List Char} (clear : ' ' ∉ head)
    (clear' : ' ' ∉ head') (same : '(' :: head ++ ' ' :: rest = '(' :: head' ++ ' ' :: rest') :
    head = head' ∧ rest = rest' := by
  obtain ⟨rfl, after⟩ := append_cons_inj (p := (· = ' '))
    (fun d member space => clear (space ▸ member))
    (fun d member space => clear' (space ▸ member)) rfl rfl (List.cons.inj same).2
  exact ⟨rfl, (List.cons.inj after).2⟩

/-- A tree is determined by any text that it starts and a stop ends. -/
theorem text_append_inj {s t : SExpr} {rest rest' : List Char} (delimited : s.Delimited)
    (delimited' : t.Delimited) (stopped : Stopped rest) (stopped' : Stopped rest')
    (same : s.text ++ rest = t.text ++ rest') : s = t ∧ rest = rest' := by
  induction s generalizing t rest rest' with
  | atom text =>
    cases t with
    | atom text' =>
      obtain ⟨rfl, after⟩ := delimited.append_inj delimited' stopped stopped' same
      exact ⟨rfl, after⟩
    | one | two => exact absurd same (delimited.head_ne _)
  | one head operand ih =>
    cases t with
    | atom text' => exact absurd same.symm (delimited'.head_ne _)
    | one head' operand' =>
      rw [text_one_append, text_one_append] at same
      obtain ⟨rfl, inside⟩ := head_append_inj delimited.1 delimited'.1 same
      obtain ⟨rfl, after⟩ := ih delimited.2 delimited'.2 (stopped_close _) (stopped_close _) inside
      exact ⟨rfl, (List.cons.inj after).2⟩
    | two head' left right =>
      -- A parenthesis closes behind the only operand, a space follows the first of two.
      rw [text_one_append, text_two_append] at same
      obtain ⟨_, inside⟩ := head_append_inj delimited.1 delimited'.1 same
      obtain ⟨_, after⟩ := ih delimited.2 delimited'.2.1 (stopped_close _) (stopped_space _) inside
      exact absurd (List.cons.inj after).1 (by decide)
  | two head left right ihLeft ihRight =>
    cases t with
    | atom text' => exact absurd same.symm (delimited'.head_ne _)
    | one head' operand' =>
      rw [text_two_append, text_one_append] at same
      obtain ⟨_, inside⟩ := head_append_inj delimited.1 delimited'.1 same
      obtain ⟨_, after⟩ :=
        ihLeft delimited.2.1 delimited'.2 (stopped_space _) (stopped_close _) inside
      exact absurd (List.cons.inj after).1 (by decide)
    | two head' left' right' =>
      rw [text_two_append, text_two_append] at same
      obtain ⟨rfl, inside⟩ := head_append_inj delimited.1 delimited'.1 same
      obtain ⟨rfl, second⟩ :=
        ihLeft delimited.2.1 delimited'.2.1 (stopped_space _) (stopped_space _) inside
      obtain ⟨rfl, after⟩ := ihRight delimited.2.2 delimited'.2.2 (stopped_close _)
        (stopped_close _) (List.cons.inj second).2
      exact ⟨rfl, (List.cons.inj after).2⟩

end SExpr

/-- A use of a name as a token makes it. -/
def NameUse.Canonical (use : NameUse) : Prop :=
  use.token.kind = .identifier ∧ use.token.payload = .text use.name ∧ Word use.name.toList

def Literal.Canonical : Literal → Prop
  | .text value => '"' ∉ value.toList
  | .int value => 0 ≤ value.toInt
  | .float value => ∃ magnitude < Binary64.infinite, value = .ofMagnitude magnitude

def Token.Operator (token : Token) (kinds : List TokenKind) : Prop :=
  token.payload = .absent ∧ token.kind ∈ kinds

namespace Expr

/-- Names, operators and literals are as the tokens of a source make them, and every number
is finite. -/
def Canonical : Expr → Prop
  | .name use => use.Canonical
  | .literal value _ => value.Canonical
  | .unary operator right => operator.Operator [.dash] ∧ right.Canonical
  | .grouping inner _ => inner.Canonical
  | .binary left operator right =>
    operator.Operator [.plus, .dash, .star, .slash] ∧ left.Canonical ∧ right.Canonical
  | .assign target value => target.Canonical ∧ value.Canonical

def sexpr : Expr → SExpr
  | .name use => .atom use.name.toList
  | .literal value _ => .atom value.render.toList
  | .unary operator right => .one operator.render.toList right.sexpr
  | .grouping inner _ => .one ['g', 'r', 'o', 'u', 'p'] inner.sexpr
  | .binary left operator right => .two operator.render.toList left.sexpr right.sexpr
  | .assign target value => .two ['='] (.atom target.name.toList) value.sexpr

theorem toList_render (expr : Expr) : expr.render.toList = expr.sexpr.text := by
  induction expr with
  | name | literal => rfl
  | unary operator right ih => simp [render, sexpr, SExpr.text, ih]
  | grouping inner line ih => simp [render, sexpr, SExpr.text, ih]
  | binary left operator right ihLeft ihRight =>
    simp [render, sexpr, SExpr.text, ihLeft, ihRight]
  | assign target value ih => simp [render, sexpr, SExpr.text, ih]

end Expr

namespace SExpr

/-- The name or literal that an atom writes, on line zero. -/
def leaf (text : List Char) : Expr :=
  if text.head? = some '"' then .literal (.text (String.ofList text.tail.dropLast)) 0
  else if text.all Char.isDigit then .literal (.int (Int64.ofInt (readInt text))) 0
  else if text.head?.any Char.isDigit then .literal (.float (Binary64.read text)) 0
  else .name ⟨.identifier (String.ofList text) 0, String.ofList text⟩

def operatorKind (head : List Char) : TokenKind :=
  (head.head?.bind Lexeme.single?).getD .endOfInput

/-- The expression that a tree writes, on line zero. -/
def expr : SExpr → Expr
  | .atom text => leaf text
  | .one ['-'] operand => .unary (.bare .dash 0) operand.expr
  | .one _ operand => .grouping operand.expr 0
  | .two ['='] (.atom name) value =>
    .assign ⟨.identifier (String.ofList name) 0, String.ofList name⟩ value.expr
  | .two head left right => .binary left.expr (.bare (operatorKind head) 0) right.expr

end SExpr

/-- The characters of names and numbers. -/
def Plain (c : Char) : Prop := Letter c ∨ Digit c ∨ c = '.' ∨ c = '-'

theorem not_plain {c : Char} (member : c ∈ ['(', '"', ' ', ')', '\n']) : ¬ Plain c := by
  unfold Plain
  simp only [List.mem_cons, List.not_mem_nil, or_false] at member
  rcases member with rfl | rfl | rfl | rfl | rfl <;> decide

theorem Stop.not_plain {c : Char} (stop : Stop c) : ¬ Plain c := by
  rcases stop with rfl | rfl | rfl <;> exact ScriptFront.not_plain (by decide)

theorem Atom.of_plain {text : List Char} (some : text ≠ []) (plain : ∀ c ∈ text, Plain c) :
    Atom text := by
  obtain ⟨c, more, rfl⟩ := List.exists_cons_of_ne_nil some
  refine .plain ?_ ?_ fun d member stop => stop.not_plain (plain d member)
  · rintro rfl
    exact not_plain (by decide) (plain _ List.mem_cons_self)
  · rintro rfl
    exact not_plain (by decide) (plain _ List.mem_cons_self)

namespace NameUse.Canonical

variable {use : NameUse}

theorem atom (canonical : use.Canonical) : Atom use.name.toList := by
  obtain ⟨_, _, c, more, same, letter, others⟩ := canonical
  rw [same]
  apply Atom.of_plain (List.cons_ne_nil c more)
  intro d member
  rcases List.mem_cons.mp member with rfl | member
  · exact .inl letter
  · exact (others d member).elim .inl (.inr ∘ .inl)

theorem reline_eq (canonical : use.Canonical) :
    use.reline (fun _ => 0) = ⟨.identifier use.name 0, use.name⟩ := by
  rw [NameUse.reline, Token.reline, canonical.1, canonical.2.1, Token.identifier]

theorem leaf_eq (canonical : use.Canonical) :
    SExpr.leaf use.name.toList = .name (use.reline fun _ => 0) := by
  obtain ⟨c, more, same, letter, _⟩ := canonical.2.2
  have quote : c ≠ '"' := by
    rintro rfl
    exact absurd letter (by decide)
  have digit : c.isDigit = false := by
    rw [Bool.eq_false_iff]
    exact fun digit => (digit_iff.mp digit).not_letter letter
  rw [canonical.reline_eq, SExpr.leaf, if_neg, if_neg, if_neg, String.ofList_toList]
  · simp [same, digit]
  · simp [same, digit]
  · simp [same, quote]

end NameUse.Canonical

namespace Literal.Canonical

variable {value : Literal}

theorem int_text {i : Int64} (nonnegative : 0 ≤ i.toInt) :
    Digits (Literal.int i).render.toList := by
  rw [Literal.render, toList_toString_int, if_pos nonnegative]
  exact digits_toDigits _

theorem float_writes {magnitude : Nat} (finite : magnitude < Binary64.infinite) :
    Binary64.Writes (Literal.float (.ofMagnitude magnitude)).render.toList
      (.ofMagnitude magnitude) := by
  rw [Literal.render, Binary64.toList_render_ofMagnitude finite]
  exact Binary64.renderMagnitude_writes finite

theorem atom (canonical : value.Canonical) : Atom value.render.toList := by
  cases value with
  | text contents =>
    simpa [Literal.render] using Atom.quoted canonical
  | int i =>
    have digits := int_text canonical
    exact .of_plain digits.1 fun c member => .inr (.inl (digits.2 c member))
  | float x =>
    obtain ⟨magnitude, finite, rfl⟩ := canonical
    have writes := float_writes finite
    obtain ⟨c, more, same, _⟩ := writes.head
    refine .of_plain (same ▸ List.cons_ne_nil c more) fun d member => ?_
    rcases writes.chars d member with digit | mark
    · exact .inr (.inl digit)
    · simp only [List.mem_cons, List.not_mem_nil, or_false] at mark
      rcases mark with rfl | rfl | rfl
      · exact .inr (.inr (.inl rfl))
      · exact .inl (by decide)
      · exact .inr (.inr (.inr rfl))

theorem leaf_of_number {text : List Char} (head : ∃ c more, text = c :: more ∧ Digit c) :
    SExpr.leaf text =
      if text.all Char.isDigit then .literal (.int (Int64.ofInt (readInt text))) 0
      else .literal (.float (Binary64.read text)) 0 := by
  obtain ⟨c, more, rfl, digit⟩ := head
  have quote : c ≠ '"' := by
    rintro rfl
    exact absurd digit (by decide)
  have starts : (c :: more).head?.any Char.isDigit := digit_iff.mpr digit
  rw [SExpr.leaf, if_neg (by simpa using quote)]
  simp only [starts, if_true]

theorem leaf_eq (canonical : value.Canonical) :
    SExpr.leaf value.render.toList = .literal value 0 := by
  cases value with
  | text contents => simp [SExpr.leaf, Literal.render]
  | int i =>
    have digits := int_text canonical
    have all : (Literal.int i).render.toList.all Char.isDigit :=
      List.all_eq_true.mpr fun c member => digit_iff.mpr (digits.2 c member)
    rw [leaf_of_number digits.head, if_pos all, Literal.render, readInt_toString,
      Int64.ofInt_toInt]
  | float x =>
    obtain ⟨magnitude, finite, rfl⟩ := canonical
    have writes := float_writes finite
    have marked : ¬ (Literal.float (.ofMagnitude magnitude)).render.toList.all Char.isDigit := by
      intro all
      rcases writes.marked with point | mark
      · exact absurd (List.all_eq_true.mp all '.' point) (by decide)
      · exact absurd (List.all_eq_true.mp all 'e' mark) (by decide)
    rw [leaf_of_number writes.head, if_neg marked, writes.read_eq]

end Literal.Canonical

namespace Token.Operator

variable {operator : Token} {kinds : List TokenKind}

theorem render_eq (isOperator : operator.Operator kinds) :
    operator.render = operator.kind.lexeme := by
  rw [Token.render, isOperator.1]

theorem reline_eq (isOperator : operator.Operator kinds) :
    operator.reline (fun _ => 0) = .bare operator.kind 0 := by
  rw [Token.reline, isOperator.1, Token.bare]

end Token.Operator

namespace Expr.Canonical

variable {e : Expr}

/-- The spelling of a binary operator has no space, is no equals sign, and gives the kind. -/
theorem binary_head {kind : TokenKind}
    (member : kind ∈ [TokenKind.plus, .dash, .star, .slash]) :
    ' ' ∉ kind.lexeme.toList ∧ kind.lexeme.toList ≠ ['='] ∧
      SExpr.operatorKind kind.lexeme.toList = kind := by
  simp only [List.mem_cons, List.not_mem_nil, or_false] at member
  rcases member with rfl | rfl | rfl | rfl <;> decide

theorem delimited (canonical : e.Canonical) : e.sexpr.Delimited := by
  induction e with
  | name use => exact canonical.atom
  | literal value line => exact canonical.atom
  | unary operator right ih =>
    obtain ⟨dash, canonical⟩ := canonical
    refine ⟨?_, ih canonical⟩
    rw [dash.render_eq, List.mem_singleton.mp dash.2]
    decide
  | grouping inner line ih => exact ⟨by decide, ih canonical⟩
  | binary left operator right ihLeft ihRight =>
    obtain ⟨isOperator, canonical, canonical'⟩ := canonical
    refine ⟨?_, ihLeft canonical, ihRight canonical'⟩
    rw [isOperator.render_eq]
    exact (binary_head isOperator.2).1
  | assign target value ih =>
    exact ⟨by decide, canonical.1.atom, ih canonical.2⟩

theorem expr_sexpr (canonical : e.Canonical) : e.sexpr.expr = e.reline fun _ => 0 := by
  induction e with
  | name use => exact canonical.leaf_eq
  | literal value line => exact canonical.leaf_eq
  | unary operator right ih =>
    obtain ⟨dash, canonical⟩ := canonical
    have kind := List.mem_singleton.mp dash.2
    have head : operator.render.toList = ['-'] := by
      rw [dash.render_eq, kind]
      decide
    rw [sexpr, head, SExpr.expr, ih canonical, reline, dash.reline_eq, kind]
  | grouping inner line ih =>
    rw [sexpr, SExpr.expr, ih canonical, reline]
    decide
  | binary left operator right ihLeft ihRight =>
    obtain ⟨isOperator, canonical, canonical'⟩ := canonical
    obtain ⟨_, equals, kind⟩ := binary_head isOperator.2
    rw [sexpr, isOperator.render_eq, SExpr.expr, ihLeft canonical, ihRight canonical', kind,
      reline, isOperator.reline_eq]
    exact fun _ same _ => equals same
  | assign target value ih =>
    rw [sexpr, SExpr.expr, ih canonical.2, reline, canonical.1.reline_eq, String.ofList_toList]

end Expr.Canonical

/-- The token is of a number beyond the finite ones. -/
def Token.overflows (token : Token) : Bool :=
  match token.payload with
  | .float value => value.isInfinite
  | _ => false

namespace Token.Fits

variable {token : Token}

theorem isOperator {kinds : List TokenKind} (fits : token.Fits) (member : token.kind ∈ kinds)
    (among : kinds ⊆ [.plus, .dash, .star, .slash]) : token.Operator kinds := by
  refine ⟨?_, member⟩
  have kind := among member
  simp only [List.mem_cons, List.not_mem_nil, or_false] at kind
  rcases kind with kind | kind | kind | kind <;> simpa only [Fits, kind] using fits

theorem finite_float {value : Binary64} (fits : token.Fits) (kind : token.kind = .float)
    (payload : token.payload = .float value) (finite : token.overflows = false) :
    (Literal.float value).Canonical := by
  obtain ⟨magnitude, bound, rfl⟩ := fits.float kind payload
  refine ⟨magnitude, Nat.lt_of_le_of_ne bound ?_, rfl⟩
  rintro rfl
  simp [overflows, payload, Binary64.isInfinite, Binary64.magnitude_ofMagnitude bound] at finite

end Token.Fits

theorem Derives.canonical {stratum : Stratum} {used : List Token} {e : Expr}
    (derived : Derives stratum used e)
    (sound : ∀ token ∈ used, token.Fits ∧ token.overflows = false) : e.Canonical := by
  induction derived with
  | ofSum _ ih | ofProduct _ ih | ofUnary _ ih | ofPrimary _ ih => exact ih sound
  | assign kind payload _ _ ih =>
    obtain ⟨⟨fits, _⟩, others⟩ := List.forall_mem_cons.mp sound
    obtain ⟨_, inside⟩ := List.forall_mem_cons.mp others
    exact ⟨⟨kind, payload, fits.name kind payload⟩, ih inside⟩
  | add _ kind _ ihLeft ihRight | multiply _ kind _ ihLeft ihRight =>
    obtain ⟨before, others⟩ := List.forall_mem_append.mp sound
    obtain ⟨⟨fits, _⟩, behind⟩ := List.forall_mem_cons.mp others
    refine ⟨fits.isOperator ?_ (List.Subset.refl _), ihLeft before, ihRight behind⟩
    rcases kind with kind | kind <;> simp [kind]
  | negate kind _ ih =>
    obtain ⟨⟨fits, _⟩, others⟩ := List.forall_mem_cons.mp sound
    exact ⟨fits.isOperator (by simp [kind]) (by simp), ih others⟩
  | name kind payload =>
    exact ⟨kind, payload, (sound _ List.mem_cons_self).1.name kind payload⟩
  | text kind payload => exact (sound _ List.mem_cons_self).1.contents kind payload
  | int kind payload => exact (sound _ List.mem_cons_self).1.int kind payload
  | float kind payload =>
    obtain ⟨fits, finite⟩ := sound _ List.mem_cons_self
    exact fits.finite_float kind payload finite
  | grouping _ _ _ ih =>
    obtain ⟨front, _⟩ := List.forall_mem_append.mp sound
    exact ih (List.forall_mem_cons.mp front).2

theorem Statements.canonical {tokens : List Token} {body : List Stmt}
    (statements : Statements tokens body)
    (sound : ∀ token ∈ tokens, token.Fits ∧ token.overflows = false) :
    ∀ stmt ∈ body, stmt.expression.Canonical := by
  induction statements with
  | none => exact nofun
  | last _ derived _ =>
    intro stmt member
    cases List.mem_singleton.mp member
    exact derived.canonical (List.forall_mem_append.mp sound).2
  | next _ derived _ _ _ ih =>
    obtain ⟨front, others⟩ := List.forall_mem_append.mp sound
    intro stmt member
    rcases List.mem_cons.mp member with rfl | member
    · exact derived.canonical (List.forall_mem_append.mp front).2
    · exact ih (List.forall_mem_cons.mp others).2 stmt member

namespace Expr

theorem render_reline (f : UInt32 → UInt32) (expr : Expr) :
    (expr.reline f).render = expr.render := by
  induction expr with
  | name | literal => rfl
  | unary operator right ih => simp [reline, render, ih]
  | grouping inner line ih => simp [reline, render, ih]
  | binary left operator right ihLeft ihRight => simp [reline, render, ihLeft, ihRight]
  | assign target value ih => simp [reline, render, ih, NameUse.reline]

end Expr

namespace Program

theorem render_reline (f : UInt32 → UInt32) (program : Program) :
    (program.reline f).render = program.render := by
  rw [render, render, reline, List.foldr_map]
  simp only [Stmt.render, Stmt.reline, Expr.render_reline]

theorem toList_render (body : List Stmt) :
    (render ⟨body⟩).toList = body.flatMap fun stmt => stmt.expression.sexpr.text ++ ['\n'] := by
  induction body with
  | nil => rfl
  | cons stmt body ih =>
    rw [List.flatMap_cons, ← ih]
    simp [render, Stmt.render, Expr.toList_render]

/-- Statement by statement, a text is cut into the same trees. -/
theorem sexprs_eq {body body' : List Stmt} (canonical : ∀ stmt ∈ body, stmt.expression.Canonical)
    (canonical' : ∀ stmt ∈ body', stmt.expression.Canonical)
    (same : render ⟨body⟩ = render ⟨body'⟩) :
    body.map (·.expression.sexpr) = body'.map (·.expression.sexpr) := by
  rw [← String.toList_inj, toList_render, toList_render] at same
  induction body generalizing body' with
  | nil =>
    cases body' with
    | nil => rfl
    | cons stmt' body' => simp at same
  | cons stmt body ih =>
    cases body' with
    | nil => simp at same
    | cons stmt' body' =>
      obtain ⟨first, others⟩ := List.forall_mem_cons.mp canonical
      obtain ⟨first', others'⟩ := List.forall_mem_cons.mp canonical'
      simp only [List.flatMap_cons, List.append_assoc, List.singleton_append] at same
      obtain ⟨tree, after⟩ := SExpr.text_append_inj first.delimited first'.delimited
        (stopped_newline _) (stopped_newline _) same
      rw [List.map_cons, List.map_cons, tree, ih others others' (List.cons.inj after).2]

theorem reline_eq_of_sexprs {body : List Stmt}
    (canonical : ∀ stmt ∈ body, stmt.expression.Canonical) :
    reline (fun _ => 0) ⟨body⟩ =
      ⟨(body.map (·.expression.sexpr)).map fun tree => ⟨tree.expr, 0⟩⟩ := by
  rw [reline, List.map_map]
  congr 1
  apply List.map_congr_left
  intro stmt member
  rw [Stmt.reline, Function.comp, (canonical stmt member).expr_sexpr]

end Program

/-- The canonical text of a program is the same text exactly for programs that are the same
but for their lines. A number beyond the finite ones is excepted: it is written as a name. -/
theorem render_eq_iff_reline_eq (source source' : String) (file file' : Option String)
    (label label' : String) (tokens tokens' : List Token) (program program' : Program)
    (read : tokenize source file = .ok tokens) (read' : tokenize source' file' = .ok tokens')
    (parsed : parse tokens label = .ok program) (parsed' : parse tokens' label' = .ok program')
    (finite : ∀ token ∈ tokens, token.overflows = false)
    (finite' : ∀ token ∈ tokens', token.overflows = false) :
    program.render = program'.render ↔
      program.body.length = program'.body.length ∧
      program.reline (fun _ => 0) = program'.reline (fun _ => 0) := by
  obtain ⟨front, rfl, statements⟩ := tokenize_statements read parsed
  obtain ⟨front', rfl, statements'⟩ := tokenize_statements read' parsed'
  have canonical := statements.canonical fun token member =>
    ⟨tokenize_fits read token (List.mem_append_left _ member),
      finite token (List.mem_append_left _ member)⟩
  have canonical' := statements'.canonical fun token member =>
    ⟨tokenize_fits read' token (List.mem_append_left _ member),
      finite' token (List.mem_append_left _ member)⟩
  constructor
  · intro same
    have trees := Program.sexprs_eq canonical canonical' same
    constructor
    · simpa using congrArg List.length trees
    · exact (Program.reline_eq_of_sexprs canonical).trans
        (trees ▸ (Program.reline_eq_of_sexprs canonical').symm)
  · rintro ⟨_, same⟩
    rw [← Program.render_reline (fun _ => 0) program, same, Program.render_reline]

/-- The tokens of a negated group and a string that ends on the given line. -/
def groupThenText (separator : TokenKind) (line : UInt32) : List Token :=
  [.bare .dash 1, .bare .openParen 1, .float ⟨0x3FF8000000000000⟩ 1, .bare .closeParen 1,
    .bare separator 1, .string "a)\n" line, .bare .endOfInput line]

def groupThenTextProgram (line : UInt32) : Program :=
  ⟨[⟨.unary (.bare .dash 1) (.grouping (.literal (.float ⟨0x3FF8000000000000⟩) 1) 1), 1⟩,
    ⟨.literal (.text "a)\n") line, line⟩]⟩

/-- One more zero, a semicolon for the newline and a comment make other tokens on other
lines, but the text is the same and so are the programs but for their lines. -/
theorem render_groupThenText :
    tokenize "-(1.50)\n\"a)\n\"" none = .ok (groupThenText .newLine 3) ∧
    tokenize "- ( 1.5 ) ; \"a)\n\" // end" none = .ok (groupThenText .semicolon 2) ∧
    parse (groupThenText .newLine 3) "shell" = .ok (groupThenTextProgram 3) ∧
    parse (groupThenText .semicolon 2) "shell" = .ok (groupThenTextProgram 2) ∧
    (groupThenTextProgram 3).render = "(- (group 1.5))\n\"a)\n\"\n" ∧
    (groupThenTextProgram 2).render = "(- (group 1.5))\n\"a)\n\"\n" ∧
    (groupThenTextProgram 3).reline (fun _ => 0) =
      (groupThenTextProgram 2).reline (fun _ => 0) := by
  have read : tokenize "-(1.50)\n\"a)\n\"" none = .ok (groupThenText .newLine 3) := by
    decide +kernel
  have read' : tokenize "- ( 1.5 ) ; \"a)\n\" // end" none =
      .ok (groupThenText .semicolon 2) := by
    decide +kernel
  have parsed : parse (groupThenText .newLine 3) "shell" = .ok (groupThenTextProgram 3) := by
    decide +kernel
  have parsed' : parse (groupThenText .semicolon 2) "shell" = .ok (groupThenTextProgram 2) := by
    decide +kernel
  have text : (groupThenTextProgram 3).render = "(- (group 1.5))\n\"a)\n\"\n" := by
    decide +kernel
  have text' : (groupThenTextProgram 2).render = "(- (group 1.5))\n\"a)\n\"\n" := by
    decide +kernel
  have same := render_eq_iff_reline_eq _ _ none none _ _ _ _ _ _ read read' parsed parsed'
    (by decide +kernel) (by decide +kernel)
  exact ⟨read, read', parsed, parsed', text, text', (same.mp (text.trans text'.symm)).2⟩

end ScriptFront
