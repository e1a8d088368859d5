import Mathlib.Data.List.DropRight
import ScriptFront.Proofs.Draining
import ScriptFront.Proofs.ErrorLine

/-! The line counter of a lexer is exact. Whatever calls were made, and whether they gave
tokens or errors, the lexer is on the line behind the newlines it has passed; so a token is on
the line that its lexeme ends on, and that line shows the end of the lexeme. -/
namespace ScriptFront

/-- No lexeme but that of a newline ends in what ends a line. -/
theorem Lexical.Lexes.ends {text rest : List Char} {kind : TokenKind} {payload : Payload}
    (lexes : Lexes text rest kind payload) (inside : kind ≠ .newLine) :
    text.getLast? ≠ some '\n' ∧ text.getLast? ≠ some '\r' := by
  cases lexes with
  | keyword _ longest _ | identifier longest _ =>
    exact ⟨getLast?_ne_of_notMem (longest.1.notMem apart_newline),
      getLast?_ne_of_notMem (longest.1.notMem apart_return)⟩
  | int longest _ _ _ _ | float longest _ _ _ _ =>
    exact ⟨getLast?_ne_of_notMem (longest.1.notMem apart_newline),
      getLast?_ne_of_notMem (longest.1.notMem apart_return)⟩
  | string _ =>
    rw [List.getLast?_concat]
    decide
  | joined _ | slash _ =>
    constructor <;> simp
  | alone member _ =>
    simpa using joinables_inline _ member
  | single member =>
    simpa using singles_inline _ member inside

namespace Text

/-- A text that ends in no newline has a last line, which is not empty. -/
theorem exists_lastLine {piece : List Char} (full : piece ≠ [])
    (newline : piece.getLast? ≠ some '\n') :
    ∃ above last, piece = above ++ last ∧ piece.rtakeWhile (· != '\n') = last ∧
      '\n' ∉ last ∧ last ≠ [] := by
  refine ⟨_, _, List.rdropWhile_append_rtakeWhile.symm, rfl, ?_, ?_⟩
  · intro member
    exact absurd (List.mem_rtakeWhile_imp member) (by decide)
  · intro none
    have ends := List.rtakeWhile_eq_nil_iff.mp none full
    rw [List.getLast?_eq_some_getLast full] at newline
    exact newline (congrArg some (by simpa using ends))

/-- The last line of a piece of a source that does not end in what ends a line is part of the
line that the piece ends on. -/
theorem lastLine_infix {source : String} {line : UInt32} {before piece after : List Char}
    (split : source.toList = before ++ (piece ++ after)) (full : piece ≠ [])
    (newline : piece.getLast? ≠ some '\n') (carriage : piece.getLast? ≠ some '\r')
    (number : line.toNat = 1 + (before ++ piece.dropLast).count '\n') :
    ∃ text, lineAt? source line = some text ∧
      piece.rtakeWhile (· != '\n') <:+: text.toList := by
  obtain ⟨above, last, rfl, same, clear, some⟩ := exists_lastLine full newline
  have single : last.dropLast.count '\n' = 0 := by
    apply List.count_eq_zero_of_not_mem
    exact fun member => clear (List.dropLast_subset last member)
  rw [List.getLast?_append_of_ne_nil _ some] at carriage
  rw [List.dropLast_append_of_ne_nil some, ← List.append_assoc, List.count_append, single,
    Nat.add_zero] at number
  rw [List.append_assoc, ← List.append_assoc before] at split
  have within : (before ++ above).count '\n' ≤ newlineCount source := by
    rw [newlineCount, split]
    exact (List.sublist_append_left (before ++ above) _).count_le '\n'
  obtain ⟨text, found⟩ : ∃ text, lineAt? source line = Option.some text :=
    exists_lineAt? (by omega) (by omega)
  refine ⟨text, found, ?_⟩
  rw [same]
  exact infix_lineAt? split clear carriage number found

end Text

namespace Lexer

/-- What a step reads: trivia, and behind it the text of a token or of an error. At the end of
the source there is no text. -/
structure Reads (lexer : Lexer) (run text : List Char) : Prop where
  split : lexer.rest = run ++ (text ++ lexer.step.2.rest)
  trivia : Lexical.Trivia run (text ++ lexer.step.2.rest)
  line : lexer.step.2.line = lexer.line + newlines text
  token : ∀ token, lexer.step.1 = .ok token →
    token.line = lexer.line + newlines text.dropLast ∧
    (token.kind = .endOfInput → text ++ lexer.step.2.rest = []) ∧
    (token.kind ≠ .endOfInput →
      Lexical.Lexes text lexer.step.2.rest token.kind token.payload)

theorem exists_reads (lexer : Lexer) : ∃ run text, lexer.Reads run text := by
  obtain ⟨run, split, trivia⟩ := Lexical.Trivia.of_skipTrivia lexer.rest
  cases front : Lexeme.skipTrivia lexer.rest with
  | nil =>
    rw [front] at split trivia
    have step : lexer.step = (.ok (.bare .endOfInput lexer.line), { lexer with rest := [] }) := by
      simp only [step, front]
    refine ⟨run, [], ?_⟩
    constructor <;> rw [step]
    · exact split
    · exact trivia
    · exact (UInt32.add_zero lexer.line).symm
    · rintro _ ⟨⟩
      exact ⟨(UInt32.add_zero lexer.line).symm, fun _ => rfl, fun other => absurd rfl other⟩
  | cons c cs =>
    rw [front] at split trivia
    have step : lexer.step = (lexer.locate (Lexeme.first c cs),
        lexer.pass (Lexeme.first c cs).text (Lexeme.first c cs).rest) := by
      simp only [step, front]
    refine ⟨run, (Lexeme.first c cs).text, ?_⟩
    constructor <;> rw [step]
    · rwa [← Lexeme.first_split c cs] at split
    · rwa [← Lexeme.first_split c cs] at trivia
    · rfl
    · intro token found
      simp only [locate] at found
      split at found
      · rename_i kind payload content
        cases found
        have lexes := Lexical.first_lexes trivia.noComment content
        exact ⟨rfl, fun last => absurd last lexes.kind_ne, fun _ => lexes⟩
      · cases found

/-- The lexer has passed the front of the source, and its line is that of the cursor. -/
structure CountsLines (source : String) (passed : List Char) (lexer : Lexer) : Prop where
  front : source.toList = passed ++ lexer.rest
  line : lexer.line.toNat = 1 + passed.count '\n'

section Counting

variable {source : String} {lexer : Lexer} {passed run text : List Char}

theorem toNat_add_newlines {line : UInt32} (small : line.toNat + text.count '\n' < 2 ^ 32) :
    (line + newlines text).toNat = line.toNat + text.count '\n' := by
  rw [newlines, UInt32.toNat_add, UInt32.toNat_ofNat']
  omega

theorem CountsLines.start (source : String) (file : Option String) :
    CountsLines source [] (ofSource source file) := ⟨rfl, rfl⟩

/-- Up to the end of a step there are no more newlines than in the source. -/
theorem CountsLines.count_le (counts : CountsLines source passed lexer)
    (reads : lexer.Reads run text) : passed.count '\n' + text.count '\n' ≤ newlineCount source := by
  rw [newlineCount, counts.front, reads.split]
  simp only [List.count_append]
  omega

theorem CountsLines.step (counts : CountsLines source passed lexer)
    (few : newlineCount source < 2 ^ 32 - 1) (reads : lexer.Reads run text) :
    CountsLines source (passed ++ (run ++ text)) lexer.step.2 := by
  have within := counts.count_le reads
  constructor
  · rw [counts.front, reads.split]
    simp only [List.append_assoc]
  · rw [reads.line, toNat_add_newlines (by rw [counts.line]; omega), counts.line]
    simp only [List.count_append, reads.trivia.count_newline]
    omega

theorem CountsLines.token (counts : CountsLines source passed lexer)
    (few : newlineCount source < 2 ^ 32 - 1) (reads : lexer.Reads run text) {token : Token}
    (found : lexer.step.1 = .ok token) :
    token.line.toNat = 1 + (passed ++ run ++ text.dropLast).count '\n' := by
  have within := counts.count_le reads
  have inside : text.dropLast.count '\n' ≤ text.count '\n' :=
    (List.dropLast_sublist text).count_le '\n'
  rw [(reads.token token found).1, toNat_add_newlines (by rw [counts.line]; omega), counts.line]
  simp only [List.count_append, reads.trivia.count_newline]
  omega

theorem CountsLines.token_end (counts : CountsLines source passed lexer)
    (few : newlineCount source < 2 ^ 32 - 1) (reads : lexer.Reads run text) {token : Token}
    (found : lexer.step.1 = .ok token) (last : token.kind = .endOfInput) :
    token.line.toNat = 1 + newlineCount source := by
  obtain ⟨_, nothing, _⟩ := reads.token token found
  obtain ⟨rfl, done⟩ := List.append_eq_nil_iff.mp (nothing last)
  rw [counts.token few reads found, newlineCount, counts.front, reads.split, done]
  simp

/-- The line of a token shows the last line of its lexeme. -/
theorem CountsLines.token_shown (counts : CountsLines source passed lexer)
    (few : newlineCount source < 2 ^ 32 - 1) (reads : lexer.Reads run text) {token : Token}
    (found : lexer.step.1 = .ok token) (notEnd : token.kind ≠ .endOfInput)
    (inside : token.kind ≠ .newLine) :
    ∃ line, Text.lineAt? source token.line = some line ∧
      text.rtakeWhile (· != '\n') <:+: line.toList := by
  obtain ⟨_, _, lexes⟩ := reads.token token found
  obtain ⟨newline, carriage⟩ := (lexes notEnd).ends inside
  have split : source.toList = passed ++ run ++ (text ++ lexer.step.2.rest) := by
    rw [counts.front, reads.split, List.append_assoc]
  exact Text.lastLine_infix split (lexes notEnd).text_ne_nil newline carriage
    (counts.token few reads found)

/-- What a lexer has passed stays passed, however many steps follow. -/
theorem CountsLines.after (counts : CountsLines source passed lexer)
    (few : newlineCount source < 2 ^ 32 - 1) (steps : Nat) :
    ∃ read, CountsLines source (passed ++ read) (lexer.after steps) := by
  induction steps generalizing lexer passed with
  | zero => exact ⟨[], by rwa [List.append_nil]⟩
  | succ steps ih =>
    obtain ⟨run, text, reads⟩ := lexer.exists_reads
    obtain ⟨read, later⟩ := ih (counts.step few reads)
    exact ⟨run ++ text ++ read, by rwa [← List.append_assoc]⟩

theorem CountsLines.line_after (counts : CountsLines source passed lexer)
    (few : newlineCount source < 2 ^ 32 - 1) (steps : Nat) :
    lexer.line.toNat ≤ (lexer.after steps).line.toNat := by
  obtain ⟨read, later⟩ := counts.after few steps
  rw [counts.line, later.line, List.count_append]
  omega

/-- A token is on a line between those of the lexer before and after it. -/
theorem CountsLines.token_between (counts : CountsLines source passed lexer)
    (few : newlineCount source < 2 ^ 32 - 1) {token : Token} (found : lexer.step.1 = .ok token) :
    lexer.line.toNat ≤ token.line.toNat ∧ token.line.toNat ≤ lexer.step.2.line.toNat := by
  obtain ⟨run, text, reads⟩ := lexer.exists_reads
  have inside : text.dropLast.count '\n' ≤ text.count '\n' :=
    (List.dropLast_sublist text).count_le '\n'
  rw [counts.token few reads found, counts.line, (counts.step few reads).line]
  simp only [List.count_append]
  omega

/-- Behind a token the stream has no token on an earlier line. -/
theorem CountsLines.line_le (counts : CountsLines source passed lexer)
    (few : newlineCount source < 2 ^ 32 - 1) {token later : Token} {steps : Nat}
    (found : lexer.step.1 = .ok token) (foundLater : lexer.step.2.item steps = .ok later) :
    token.line ≤ later.line := by
  obtain ⟨run, text, reads⟩ := lexer.exists_reads
  have next := counts.step few reads
  obtain ⟨read, there⟩ := next.after few steps
  have up := (counts.token_between few found).2
  have on := next.line_after few steps
  have down := (there.token_between few foundLater).1
  exact UInt32.le_iff_toNat_le.mpr (up.trans (on.trans down))

end Counting

/-- The tokens on a stream never go back to an earlier line. -/
def Ascends (items : Nat → Except Diagnostic Token) : Prop :=
  ∀ {i j token later}, i < j → items i = .ok token → items j = .ok later → token.line ≤ later.line

theorem item_ascends {source : String} (few : newlineCount source < 2 ^ 32 - 1)
    (file : Option String) : Ascends (ofSource source file).item := by
  intro i j token later before found foundLater
  obtain ⟨more, rfl⟩ := Nat.exists_eq_add_of_lt before
  obtain ⟨_, counts⟩ := (CountsLines.start source file).after few i
  rw [Nat.add_assoc, item_add] at foundLater
  exact counts.line_le few found foundLater

/-- The tokens that an answer brings. -/
def Answer.tokens : Answer → List Token
  | .step result => result.toOption.toList
  | .next result => (result.bind Except.toOption).toList
  | .scanAll result => result.toOption.getD []

/-- The tokens are items of the stream, none on an earlier line than those before it. -/
def InOrder (items : Nat → Except Diagnostic Token) (tokens : List Token) : Prop :=
  (∀ token ∈ tokens, ∃ index, items index = .ok token) ∧
  tokens.Pairwise fun a b => a.line ≤ b.line

section Stream

variable {items : Nat → Except Diagnostic Token}

theorem mapM_range'_inOrder (ascends : Ascends items) {index count : Nat} {tokens : List Token}
    (read : (List.range' index count).mapM items = .ok tokens) :
    (∀ token ∈ tokens, ∃ i ≥ index, items i = .ok token) ∧
      tokens.Pairwise fun a b => a.line ≤ b.line := by
  induction count generalizing index tokens with
  | zero =>
    cases read
    exact ⟨List.forall_mem_nil _, .nil⟩
  | succ count ih =>
    rw [List.range'_succ] at read
    cases found : items index with
    | error d =>
      rw [List.mapM_cons, found] at read
      cases read
    | ok token =>
      rw [mapM_cons_of_ok found] at read
      cases more : (List.range' (index + 1) count).mapM items with
      | error d =>
        rw [more] at read
        cases read
      | ok others =>
        rw [more] at read
        cases read
        obtain ⟨members, ordered⟩ := ih more
        constructor
        · intro other member
          rcases List.mem_cons.mp member with rfl | member
          · exact ⟨index, Nat.le_refl index, found⟩
          · obtain ⟨i, behind, there⟩ := members other member
            exact ⟨i, Nat.le_of_succ_le behind, there⟩
        · refine .cons ?_ ordered
          intro other member
          obtain ⟨i, behind, there⟩ := members other member
          exact ascends behind found there

theorem inOrder_nil : InOrder items [] := ⟨List.forall_mem_nil _, .nil⟩

theorem inOrder_item (index : Nat) : InOrder items (items index).toOption.toList := by
  cases found : items index with
  | error d => exact inOrder_nil
  | ok token =>
    refine ⟨?_, List.pairwise_singleton _ _⟩
    intro other member
    cases List.mem_singleton.mp member
    exact ⟨index, found⟩

theorem Takes.inOrder (ascends : Ascends items) {start stop : Place} {call : Call}
    {answer : Answer} (takes : Takes items start call answer stop) :
    InOrder items answer.tokens := by
  cases takes with
  | step => exact inOrder_item _
  | next => exact inOrder_item _
  | ended => exact inOrder_nil
  | @scanAll index _ more _ _ =>
    cases read : (List.range' index (more + 1)).mapM items with
    | error d => exact inOrder_nil
    | ok tokens =>
      obtain ⟨members, ordered⟩ := mapM_range'_inOrder ascends read
      refine ⟨?_, ordered⟩
      intro token member
      obtain ⟨i, _, found⟩ := members token member
      exact ⟨i, found⟩

theorem TakesAll.inOrder (ascends : Ascends items) {start stop : Place} {calls : List Call}
    {answers : List Answer} (takes : TakesAll items start calls answers stop) :
    ∀ answer ∈ answers, InOrder items answer.tokens := by
  induction takes with
  | done => exact List.forall_mem_nil _
  | next first _ ih =>
    intro answer member
    rcases List.mem_cons.mp member with rfl | member
    · exact first.inOrder ascends
    · exact ih answer member

end Stream

/-- After any calls the lexer is on the line behind the newlines it has passed. Scanning gives
tokens on lines that never go back, and the token of any item is on the line that its lexeme
ends on, or on the last line of the source if it is the end. -/
theorem lines_exact (source : String) (file : Option String)
    (few : newlineCount source < 2 ^ 32 - 1) :
    (∀ calls,
      (∃ passed, CountsLines source passed ((ofSource source file).answers calls).2) ∧
      (∃ stop, TakesAll (ofSource source file).item ⟨0, false⟩ calls
        ((ofSource source file).answers calls).1 stop) ∧
      ∀ answer ∈ ((ofSource source file).answers calls).1,
        InOrder (ofSource source file).item answer.tokens) ∧
    ∀ index token, (ofSource source file).item index = .ok token →
      (token.kind = .endOfInput → token.line.toNat = 1 + newlineCount source) ∧
      ∃ passed run lexeme, CountsLines source passed ((ofSource source file).after index) ∧
        ((ofSource source file).after index).Reads run lexeme ∧
        token.line.toNat = 1 + (passed ++ run ++ lexeme.dropLast).count '\n' ∧
        (token.kind ≠ .endOfInput → token.kind ≠ .newLine →
          ∃ text, Text.lineAt? source token.line = some text ∧
            lexeme.rtakeWhile (· != '\n') <:+: text.toList) := by
  constructor
  · intro calls
    obtain ⟨stop, takes, same⟩ := (ofSource source file).answers_takesAll ⟨0, false⟩ calls
    obtain ⟨passed, counts⟩ := (CountsLines.start source file).after few stop.index
    refine ⟨⟨passed, ?_⟩, ⟨stop, takes⟩, takes.inOrder (item_ascends few file)⟩
    change CountsLines source passed ((ofSource source file).atPlace ⟨0, false⟩ |>.answers calls).2
    rw [same]
    exact ⟨counts.front, counts.line⟩
  · intro index token found
    obtain ⟨passed, counts⟩ := (CountsLines.start source file).after few index
    obtain ⟨run, lexeme, reads⟩ := ((ofSource source file).after index).exists_reads
    exact ⟨counts.token_end few reads found, passed, run, lexeme, counts, reads,
      counts.token few reads found, counts.token_shown few reads found⟩

/-- A string over two lines, a number that a letter touches, and a string that is never closed. -/
def brokenLines : String := "\"x\ny\" 1z\n\"open\n"

/-- The errors leave the counter exact: the string is on the line of its closing quote, and the
end of input on the last line, behind all three newlines. -/
theorem brokenLines_exact :
    newlineCount brokenLines = 3 ∧
    ((ofSource brokenLines none).answers [.next, .scanAll, .step, .scanAll, .scanAll]).1 =
      [.next (some (.ok (.string "x\ny" 2))),
        .scanAll (.error ⟨.malformedNumber "1z", ⟨2, "shell"⟩⟩),
        .step (.ok (.identifier "z" 2)),
        .scanAll (.error ⟨.unterminatedString, ⟨4, "shell"⟩⟩),
        .scanAll (.ok [.bare .endOfInput 4])] ∧
    (∃ passed, CountsLines brokenLines passed
      ((ofSource brokenLines none).answers [.next, .scanAll, .step, .scanAll, .scanAll]).2) ∧
    ∃ run lexeme, (ofSource brokenLines none).Reads run lexeme ∧
      lexeme.dropLast.count '\n' = 1 ∧ lexeme.rtakeWhile (· != '\n') <:+: "y\" 1z".toList := by
  obtain ⟨states, items⟩ := lines_exact brokenLines none (by decide +kernel)
  refine ⟨by decide +kernel, by decide +kernel, (states _).1, ?_⟩
  have found : (ofSource brokenLines none).item 0 = .ok (.string "x\ny" 2) := by decide +kernel
  obtain ⟨_, passed, run, lexeme, counts, reads, line, shown⟩ := items 0 _ found
  obtain ⟨text, onLine, part⟩ := shown nofun nofun
  have middle : Text.lineAt? brokenLines 2 = some "y\" 1z" := by decide +kernel
  cases Option.some.inj (onLine.symm.trans middle)
  refine ⟨run, lexeme, reads, ?_, part⟩
  have first : 1 = 1 + passed.count '\n' := counts.line
  have second : 2 = 1 + (passed ++ run ++ lexeme.dropLast).count '\n' := line
  simp only [List.count_append, reads.trivia.count_newline] at second
  omega

end Lexer
end ScriptFront
