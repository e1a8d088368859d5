import ScriptFront.Proofs.FrontEnd
import ScriptFront.Proofs.Phrase

/-! Every node has the line of its first token. The expressions inside one that was read stand
at places among its tokens, in one way only, and each is on the line of the token at its place;
a statement is on the line of the token that it was read from first. So the statements of a
source follow its lines, as long as these can be counted. -/
namespace ScriptFront

/-- The expression and those inside it, each before its own. The target of an assignment is
one of them. -/
def Expr.parts : Expr → List Expr
  | .name use => [.name use]
  | .literal value line => [.literal value line]
  | .unary operator right => .unary operator right :: right.parts
  | .grouping inner line => .grouping inner line :: inner.parts
  | .binary left operator right => .binary left operator right :: (left.parts ++ right.parts)
  | .assign target value => .assign target value :: .name target :: value.parts

namespace Phrase

/-- The phrases of the parts of an expression, each with the place of its first token, if the
tokens of the whole begin at the given place. -/
def places (start : Nat) : Phrase → List (Nat × Phrase)
  | .name use => [(start, .name use)]
  | .literal token value => [(start, .literal token value)]
  | .unary operator right => (start, .unary operator right) :: right.places (start + 1)
  | .grouping opening inner closing =>
    (start, .grouping opening inner closing) :: inner.places (start + 1)
  | .binary left operator right =>
    (start, .binary left operator right) ::
      (left.places start ++ right.places (start + (left.tokens.length + 1)))
  | .assign target operator value =>
    (start, .assign target operator value) :: (start, .name target) :: value.places (start + 2)

theorem map_places (phrase : Phrase) (start : Nat) :
    (phrase.places start).map (fun place => place.2.expr) = phrase.expr.parts := by
  induction phrase generalizing start with
  | name | literal => rfl
  | unary _ _ ih | grouping _ _ _ ih => exact congrArg _ (ih _)
  | binary _ _ _ ihLeft ihRight =>
    simp only [places, List.map_cons, List.map_append, ihLeft, ihRight, expr, Expr.parts]
  | assign _ _ _ ih => exact congrArg _ (congrArg _ (ih _))

theorem mem_places (phrase : Phrase) {start : Nat} : (start, phrase) ∈ phrase.places start := by
  cases phrase <;> exact List.mem_cons_self

/-- A phrase starts with a token, on whose line its expression is. -/
theorem head (phrase : Phrase) :
    ∃ first more, phrase.tokens = first :: more ∧ phrase.expr.line = first.line := by
  induction phrase with
  | name | literal | unary | grouping | assign => exact ⟨_, _, rfl, rfl⟩
  | binary left operator right ih =>
    obtain ⟨first, more, tokens, line⟩ := ih
    exact ⟨first, more ++ operator :: right.tokens, by rw [Phrase.tokens, tokens]; rfl, line⟩

/-- The tokens of a part stand together, where its place says. -/
theorem places_tokens {phrase part : Phrase} {start place : Nat}
    (member : (place, part) ∈ phrase.places start) :
    ∃ before after, phrase.tokens = before ++ (part.tokens ++ after) ∧
      place = start + before.length := by
  induction phrase generalizing start with
  | name | literal =>
    cases List.mem_singleton.mp member
    exact ⟨[], [], rfl, rfl⟩
  | unary operator right ih =>
    rcases List.mem_cons.mp member with same | member
    · cases same
      exact ⟨[], [], by simp, rfl⟩
    · obtain ⟨before, after, split, rfl⟩ := ih member
      refine ⟨operator :: before, after, by rw [tokens, split]; rfl, ?_⟩
      rw [List.length_cons]
      omega
  | grouping opening inner closing ih =>
    rcases List.mem_cons.mp member with same | member
    · cases same
      exact ⟨[], [], by simp, rfl⟩
    · obtain ⟨before, after, split, rfl⟩ := ih member
      refine ⟨opening :: before, after ++ [closing], by rw [tokens, split]; simp, ?_⟩
      rw [List.length_cons]
      omega
  | binary left operator right ihLeft ihRight =>
    rcases List.mem_cons.mp member with same | member
    · cases same
      exact ⟨[], [], by simp, rfl⟩
    · rcases List.mem_append.mp member with member | member
      · obtain ⟨before, after, split, rfl⟩ := ihLeft member
        exact ⟨before, after ++ operator :: right.tokens, by rw [tokens, split]; simp, rfl⟩
      · obtain ⟨before, after, split, rfl⟩ := ihRight member
        refine ⟨left.tokens ++ operator :: before, after, by rw [tokens, split]; simp, ?_⟩
        rw [List.length_append, List.length_cons]
        omega
  | assign target operator value ih =>
    rcases List.mem_cons.mp member with same | member
    · cases same
      exact ⟨[], [], by simp, rfl⟩
    · rcases List.mem_cons.mp member with same | member
      · cases same
        exact ⟨[], operator :: value.tokens, rfl, rfl⟩
      · obtain ⟨before, after, split, rfl⟩ := ih member
        refine ⟨target.token :: operator :: before, after, by rw [tokens, split]; rfl, ?_⟩
        rw [List.length_cons, List.length_cons]
        omega

/-- An expression is laid over tokens in one way only: it fixes how many each part has. -/
theorem eq_of_tokens {phrase other : Phrase} {rest rest' : List Token}
    (same : phrase.expr = other.expr) (split : phrase.tokens ++ rest = other.tokens ++ rest') :
    phrase = other ∧ rest = rest' := by
  induction phrase generalizing other rest rest' with
  | name use =>
    cases other with
    | name =>
      cases Expr.name.inj same
      exact ⟨rfl, (List.cons.inj split).2⟩
    | _ => cases same
  | literal token value =>
    cases other with
    | literal token' value' =>
      obtain ⟨rfl, _⟩ := Expr.literal.inj same
      obtain ⟨rfl, rfl⟩ := List.cons.inj split
      exact ⟨rfl, rfl⟩
    | _ => cases same
  | unary operator right ih =>
    cases other with
    | unary operator' right' =>
      obtain ⟨rfl, inner⟩ := Expr.unary.inj same
      obtain ⟨rfl, rfl⟩ := ih inner (List.cons.inj split).2
      exact ⟨rfl, rfl⟩
    | _ => cases same
  | grouping opening inner closing ih =>
    cases other with
    | grouping opening' inner' closing' =>
      obtain ⟨content, _⟩ := Expr.grouping.inj same
      simp only [tokens, List.cons_append, List.append_assoc] at split
      obtain ⟨rfl, behind⟩ := List.cons.inj split
      obtain ⟨rfl, last⟩ := ih content behind
      obtain ⟨rfl, rfl⟩ := List.cons.inj last
      exact ⟨rfl, rfl⟩
    | _ => cases same
  | binary left operator right ihLeft ihRight =>
    cases other with
    | binary left' operator' right' =>
      obtain ⟨first, rfl, second⟩ := Expr.binary.inj same
      simp only [tokens, List.append_assoc] at split
      obtain ⟨rfl, behind⟩ := ihLeft first split
      obtain ⟨rfl, rfl⟩ := ihRight second (List.cons.inj behind).2
      exact ⟨rfl, rfl⟩
    | _ => cases same
  | assign target operator value ih =>
    cases other with
    | assign target' operator' value' =>
      obtain ⟨rfl, content⟩ := Expr.assign.inj same
      obtain ⟨rfl, behind⟩ := List.cons.inj (List.cons.inj split).2
      obtain ⟨rfl, rfl⟩ := ih content behind
      exact ⟨rfl, rfl⟩
    | _ => cases same

end Phrase

/-- The lines are those of numbers that never go down, none below or above the given ones. -/
def Climbs (low high : Nat) (lines : List UInt32) : Prop :=
  ∃ numbers : List Nat, lines = numbers.map UInt32.ofNat ∧ numbers.Pairwise (· ≤ ·) ∧
    ∀ n ∈ numbers, low ≤ n ∧ n ≤ high

namespace Climbs

variable {low high : Nat} {lines : List UInt32}

theorem sublist {some : List UInt32} (climbs : Climbs low high lines) (part : some.Sublist lines) :
    Climbs low high some := by
  obtain ⟨numbers, rfl, ordered, within⟩ := climbs
  obtain ⟨fewer, inside, rfl⟩ := List.sublist_map_iff.mp part
  exact ⟨fewer, rfl, ordered.sublist inside, fun n member => within n (inside.subset member)⟩

/-- Where the numbers fit a word, the lines themselves go up. -/
theorem of_fits (climbs : Climbs low high lines) (fits : high < 2 ^ 32) :
    lines.Pairwise (· ≤ ·) ∧ ∀ line ∈ lines, low ≤ line.toNat ∧ line.toNat ≤ high := by
  obtain ⟨numbers, rfl, ordered, within⟩ := climbs
  have exact : ∀ n ∈ numbers, (UInt32.ofNat n).toNat = n := by
    intro n member
    have bound := (within n member).2
    rw [UInt32.toNat_ofNat', Nat.mod_eq_of_lt (by omega)]
  constructor
  · apply List.pairwise_map.mpr
    refine ordered.imp_of_mem ?_
    intro a b memberA memberB le
    rw [UInt32.le_iff_toNat_le, exact a memberA, exact b memberB]
    exact le
  · intro line member
    obtain ⟨n, inside, rfl⟩ := List.mem_map.mp member
    rw [exact n inside]
    exact within n inside

end Climbs

theorem Lexical.Splits.climbs {line : Nat} {text : List Char} {tokens : List Token}
    (splits : Splits line text tokens) :
    Climbs line (line + text.count '\n') (tokens.map Token.line) := by
  induction splits with
  | @done line run trivia =>
    refine ⟨[line], rfl, List.pairwise_singleton _ _, ?_⟩
    intro n member
    cases List.mem_singleton.mp member
    omega
  | @next line run text rest kind payload tokens trivia _ _ ih =>
    obtain ⟨numbers, same, ordered, within⟩ := ih
    have inside : text.dropLast.count '\n' ≤ text.count '\n' :=
      (List.dropLast_sublist text).count_le '\n'
    have total : (run ++ (text ++ rest)).count '\n' = text.count '\n' + rest.count '\n' := by
      rw [List.count_append, List.count_append, trivia.count_newline, Nat.zero_add]
    rw [total]
    refine ⟨(line + text.dropLast.count '\n') :: numbers, ?_, ?_, ?_⟩
    · rw [List.map_cons, List.map_cons, same]
    · refine .cons ?_ ordered
      intro n member
      have bounds := within n member
      omega
    · intro n member
      rcases List.mem_cons.mp member with rfl | member
      · omega
      · have bounds := within n member
        omega

theorem Statements.lines_sublist {tokens : List Token} {body : List Stmt}
    (statements : Statements tokens body) :
    (body.map Stmt.line).Sublist (tokens.map Token.line) := by
  induction statements with
  | none => exact List.nil_sublist _
  | @last blank first tokens _ _ _ _ =>
    rw [List.map_append, List.map_cons]
    exact (List.singleton_sublist.mpr List.mem_cons_self).trans (List.sublist_append_right _ _)
  | @next blank first tokens expr separator rest body _ _ _ _ _ ih =>
    have one : [first.line].Sublist ((blank ++ first :: tokens).map Token.line) :=
      List.singleton_sublist.mpr (List.mem_map.mpr ⟨first, by simp, rfl⟩)
    rw [List.map_append]
    exact one.append (ih.cons separator.line)

/-- The statements of a source follow its lines. -/
theorem statements_climb {source label : String} {file : Option String} {tokens : List Token}
    {program : Program} (scanned : tokenize source file = .ok tokens)
    (parsed : parse tokens label = .ok program) :
    Climbs 1 (1 + newlineCount source) (program.body.map Stmt.line) := by
  obtain ⟨front, rfl, statements⟩ := tokenize_statements scanned parsed
  have splits : Lexical.Splits 1 source.toList _ := .of_scanAll rfl scanned
  refine splits.climbs.sublist ?_
  rw [List.map_append]
  exact statements.lines_sublist.trans (List.sublist_append_left _ _)

/-- Every part of the phrase, the first token of which is at the given place of the list, is
spelled by the tokens from its own place on and is on the line of the first of them. -/
def Phrase.Located (tokens : List Token) (start : Nat) (phrase : Phrase) : Prop :=
  ∀ place part, (place, part) ∈ phrase.places start →
    part.tokens = tokens.extract place (place + part.tokens.length) ∧
    ∃ first, tokens[place]? = some first ∧ part.expr.line = first.line

theorem Phrase.located (phrase : Phrase) (passed rest : List Token) :
    phrase.Located (passed ++ (phrase.tokens ++ rest)) passed.length := by
  intro place part member
  obtain ⟨before, after, split, rfl⟩ := places_tokens member
  obtain ⟨first, more, front, line⟩ := part.head
  have whole : passed ++ (phrase.tokens ++ rest) =
      (passed ++ before) ++ (part.tokens ++ (after ++ rest)) := by
    rw [split]
    simp
  rw [whole, ← List.length_append]
  constructor
  · rw [List.extract_eq_take_drop, List.drop_left, Nat.add_sub_cancel_left, List.take_left]
  · refine ⟨first, ?_, line⟩
    rw [List.getElem?_append_right (Nat.le_refl _), Nat.sub_self, front]
    rfl

namespace Parser

variable {tokens : List Token} {file : String} {parser next : Parser}

/-- What was read is laid over the tokens that the parser has passed by reading it. -/
theorem Reached.readExpr_located (reached : Reached tokens file parser) {power : Power}
    {expr : Expr} (read : parser.readExpr power = (.ok expr, next)) :
    ∃ phrase : Phrase, phrase.expr = expr ∧ phrase.Follows parser.grammar ∧
      next.cursor tokens = parser.cursor tokens + phrase.tokens.length ∧
      phrase.Located tokens (parser.cursor tokens) := by
  obtain ⟨phrase, whole, front, follows, _, _⟩ := readExpr_front read
  obtain ⟨passed, split⟩ := reached.rest
  have count := congrArg List.length front
  have total := congrArg List.length split
  rw [List.length_append] at count total
  have place : parser.cursor tokens = passed.length := by
    rw [cursor]
    omega
  have located := phrase.located passed next.rest
  rw [← front, split, ← place] at located
  refine ⟨phrase, whole, follows, ?_, located⟩
  rw [cursor, cursor]
  omega

/-- A statement is that of the expression which is read where the parser stands. -/
theorem readStmt_eq_ok {stmt : Stmt} (read : parser.readStmt = (.ok stmt, next)) :
    ∃ expr middle, parser.readExpr .default = (.ok expr, middle) ∧ stmt = .ofExpr expr := by
  unfold readStmt settle Setting.readStmt at read
  unfold readExpr settle
  cases level : (parser.setting.level parser.room).read .default parser.rest with
  | error d rest =>
    rw [level] at read
    cases read
  | ok expr rest =>
    rw [level] at read
    dsimp only at read
    refine ⟨expr, { parser with rest := rest }, by rw [operand, level]; rfl, ?_⟩
    split at read
    · cases read
      rfl
    · cases read

theorem Reached.readStmt_line (reached : Reached tokens file parser) {stmt : Stmt}
    (read : parser.readStmt = (.ok stmt, next)) :
    ∃ first, tokens[parser.cursor tokens]? = some first ∧ stmt.line = first.line := by
  obtain ⟨expr, middle, inner, rfl⟩ := readStmt_eq_ok read
  obtain ⟨phrase, rfl, _, _, located⟩ := reached.readExpr_located inner
  obtain ⟨_, first, found, line⟩ := located _ phrase phrase.mem_places
  exact ⟨first, found, line⟩

/-- Every node has the line of the first token it was read from, in the one way that an
expression is laid over tokens. So the statements of a source never go back and are on lines
of the source, unless it has so many that the line counter comes back to 0. -/
theorem readExpr_lines :
    (∀ tokens file parser, Reached tokens file parser →
      (∀ power expr next, parser.readExpr power = (.ok expr, next) →
        ∃ phrase : Phrase, phrase.expr = expr ∧ phrase.Follows parser.grammar ∧
          next.cursor tokens = parser.cursor tokens + phrase.tokens.length ∧
          (∀ other : Phrase, other.expr = expr → other.tokens = phrase.tokens → other = phrase) ∧
          (phrase.places (parser.cursor tokens)).map (fun place => place.2.expr) = expr.parts ∧
          phrase.Located tokens (parser.cursor tokens)) ∧
      ∀ stmt next, parser.readStmt = (.ok stmt, next) →
        ∃ first, tokens[parser.cursor tokens]? = some first ∧ stmt.line = first.line) ∧
    ∀ source file tokens label program, tokenize source file = .ok tokens →
      parse tokens label = .ok program →
      Climbs 1 (1 + newlineCount source) (program.body.map Stmt.line) ∧
      (1 + newlineCount source < 2 ^ 32 →
        (program.body.map Stmt.line).Pairwise (· ≤ ·) ∧
        ∀ line ∈ program.body.map Stmt.line,
          1 ≤ line.toNat ∧ line.toNat ≤ 1 + newlineCount source) := by
  constructor
  · intro tokens file parser reached
    refine ⟨?_, fun stmt next => reached.readStmt_line⟩
    intro power expr next read
    obtain ⟨phrase, rfl, follows, cursor, located⟩ := reached.readExpr_located read
    refine ⟨phrase, rfl, follows, cursor, ?_, phrase.map_places _, located⟩
    intro other same spelled
    have split : other.tokens ++ [] = phrase.tokens ++ [] := by rw [spelled]
    exact (Phrase.eq_of_tokens same split).1
  · intro source file tokens label program scanned parsed
    have climbs := statements_climb scanned parsed
    exact ⟨climbs, climbs.of_fits⟩

/-- The tokens of `- a + b`, each on a line of its own. -/
def sumOverLines : List Token :=
  [.bare .dash 2, .identifier "a" 3, .bare .plus 4, .identifier "b" 5, .bare .newLine 5]

/-- The sum is on the line of the sign, its first token, and so is the statement; in a source
with a blank line the second statement is two lines below the first. -/
theorem sumOverLines_lines :
    (∃ phrase : Phrase,
      ((ofTokens sumOverLines "shell").addStandard.readExpr .default).1 = .ok phrase.expr ∧
      phrase.expr.parts.map Expr.line = [2, 2, 3, 5] ∧ phrase.Located sumOverLines 0) ∧
    (∃ stmt first, (ofTokens sumOverLines "shell").addStandard.readStmt.1 = .ok stmt ∧
      sumOverLines[0]? = some first ∧ stmt.line = first.line) ∧
    ∃ tokens program, tokenize "x\n\ny = (1)" none = .ok tokens ∧
      parse tokens "shell" = .ok program ∧ program.body.map Stmt.line = [1, 3] ∧
      (program.body.map Stmt.line).Pairwise (· ≤ ·) := by
  let parser := (ofTokens sumOverLines "shell").addStandard
  have reached : Reached sumOverLines "shell" parser := Reached.start.step .addStandard
  let sum : Expr := .binary (.unary (.bare .dash 2) (.name ⟨.identifier "a" 3, "a"⟩))
    (.bare .plus 4) (.name ⟨.identifier "b" 5, "b"⟩)
  obtain ⟨nodes, sources⟩ := readExpr_lines
  obtain ⟨exprs, stmts⟩ := nodes sumOverLines "shell" parser reached
  refine ⟨?_, ?_, ?_⟩
  · have read : (parser.readExpr .default).1 = .ok sum := by decide +kernel
    obtain ⟨phrase, whole, _, _, _, _, located⟩ := exprs .default _ _ (Prod.ext read rfl)
    rw [← whole] at read
    exact ⟨phrase, read, by rw [whole]; decide, located⟩
  · have read : parser.readStmt.1 = .ok ⟨sum, 2⟩ := by decide +kernel
    obtain ⟨first, found, line⟩ := stmts _ _ (Prod.ext read rfl)
    exact ⟨_, first, read, found, line⟩
  · have scanned : tokenize "x\n\ny = (1)" none =
        .ok [.identifier "x" 1, .bare .newLine 1, .bare .newLine 2, .identifier "y" 3,
          .bare .assignment 3, .bare .openParen 3, .int 1 3, .bare .closeParen 3,
          .bare .endOfInput 3] := by
      decide +kernel
    have parsed : parse [.identifier "x" 1, .bare .newLine 1, .bare .newLine 2, .identifier "y" 3,
        .bare .assignment 3, .bare .openParen 3, .int 1 3, .bare .closeParen 3,
        .bare .endOfInput 3] "shell" =
        .ok ⟨[⟨.name ⟨.identifier "x" 1, "x"⟩, 1⟩,
          ⟨.assign ⟨.identifier "y" 3, "y"⟩ (.grouping (.literal (.int 1) 3) 3), 3⟩]⟩ := by
      decide +kernel
    obtain ⟨_, ordered⟩ := sources _ none _ "shell" _ scanned parsed
    exact ⟨_, _, scanned, parsed, rfl, (ordered (by decide)).1⟩

end Parser

/-- A name below blank lines. -/
def nameBelow (blank : Nat) : String := String.ofList (List.replicate blank '\n' ++ ['x'])

namespace Lexical

theorem splits_nameBelow (blank line : Nat) :
    ∃ newLines, Blank newLines ∧ Splits line (List.replicate blank '\n' ++ ['x'])
      (newLines ++ [.identifier "x" (UInt32.ofNat (line + blank))] ++
        [.bare .endOfInput (UInt32.ofNat (line + blank))]) := by
  induction blank generalizing line with
  | zero =>
    have longest : Longest Word ['x'] [] := @longest_word 'x' [] (by decide)
    have lexes : Lexes ['x'] [] .identifier (.text "x") :=
      .identifier longest fun word => by cases word <;> decide
    have trivia : Trivia [] (['x'] ++ []) := .of_cons (by simp [Gap]) (by decide) []
    exact ⟨[], blank_nil, .next trivia lexes (.done (.none (by simp) (by simp)))⟩
  | succ blank ih =>
    obtain ⟨newLines, blanks, splits⟩ := ih (line + 1)
    rw [Nat.add_right_comm] at splits
    have lexes : Lexes ['\n'] (List.replicate blank '\n' ++ ['x']) .newLine .absent :=
      .single (by decide)
    have trivia : Trivia [] (['\n'] ++ (List.replicate blank '\n' ++ ['x'])) :=
      .of_cons (by simp [Gap]) (by decide) _
    refine ⟨.bare .newLine (UInt32.ofNat line) :: newLines, ?_, .next trivia lexes splits⟩
    intro token member
    rcases List.mem_cons.mp member with rfl | member
    · rfl
    · exact blanks token member

end Lexical

/-- The line of the name is counted modulo `2 ^ 32`. -/
theorem nameBelow_line (blank : Nat) (file : Option String) (label : String) :
    ∃ tokens program, tokenize (nameBelow blank) file = .ok tokens ∧
      parse tokens label = .ok program ∧
      program.body.map Stmt.line = [UInt32.ofNat (1 + blank)] := by
  obtain ⟨newLines, blanks, splits⟩ := Lexical.splits_nameBelow blank 1
  have front : (Lexer.ofSource (nameBelow blank) file).rest =
      List.replicate blank '\n' ++ ['x'] := String.toList_ofList
  have name : Derives .expr [.identifier "x" (UInt32.ofNat (1 + blank))]
      (.name ⟨.identifier "x" (UInt32.ofNat (1 + blank)), "x"⟩) :=
    .ofSum (.ofProduct (.ofUnary (.ofPrimary (.name rfl rfl))))
  have statements := Statements.last blanks name (by simp [Expr.need])
  have ends : Ending [.bare .endOfInput (UInt32.ofNat (1 + blank))] := .inr ⟨_, rfl, rfl⟩
  exact ⟨_, _, splits.scanAll front rfl, parse_eq_ok.mpr (statements.readBody ends rfl), rfl⟩

/-- A string has the line on which it is closed, not the one on which it starts, and behind
`2 ^ 32 - 1` newlines a statement is on line 0. -/
theorem spreadString_wrappedName_lines :
    (∃ tokens program, tokenize "\"a\nb\"" none = .ok tokens ∧
      parse tokens "shell" = .ok program ∧
      program.body = [⟨.literal (.text "a\nb") 2, 2⟩]) ∧
    ∃ tokens program, tokenize (nameBelow (2 ^ 32 - 1)) none = .ok tokens ∧
      parse tokens "shell" = .ok program ∧ program.body.map Stmt.line = [0] := by
  constructor
  · have scanned : tokenize "\"a\nb\"" none =
        .ok [.string "a\nb" 2, .bare .endOfInput 2] := by
      decide +kernel
    have parsed : parse [.string "a\nb" 2, .bare .endOfInput 2] "shell" =
        .ok ⟨[⟨.literal (.text "a\nb") 2, 2⟩]⟩ := by
      decide +kernel
    exact ⟨_, _, scanned, parsed, rfl⟩
  · obtain ⟨tokens, program, scanned, parsed, line⟩ := nameBelow_line (2 ^ 32 - 1) none "shell"
    have wraps : UInt32.ofNat (1 + (2 ^ 32 - 1)) = 0 := by decide
    rw [wraps] at line
    exact ⟨tokens, program, scanned, parsed, line⟩

end ScriptFront
