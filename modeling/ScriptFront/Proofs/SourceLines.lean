import ScriptFront.Proofs.FrontEnd

/-! The lines of a source and what stands on them. A text has as many lines as it has newlines,
and one more; a piece of it without newlines stands on the line after those before it, and
the carriage return that a line may end in is no part of a lexeme. -/
namespace ScriptFront
namespace Text

theorem lineAfter?_newline (skipped : Nat) (text : List Char) :
    lineAfter? (skipped + 1) ('\n' :: text) = lineAfter? skipped text := by
  simp [lineAfter?]

theorem lineAfter?_cons {c : Char} (inside : c ≠ '\n') (skipped : Nat) (text : List Char) :
    lineAfter? (skipped + 1) (c :: text) = lineAfter? (skipped + 1) text := by
  simp [lineAfter?, inside]

/-- What stands behind a text is on the line that the text stops on. -/
theorem lineAfter?_count (before rest : List Char) :
    ∃ start, lineAfter? (before.count '\n') (before ++ rest) =
      some (start ++ rest.takeWhile (· != '\n')) := by
  induction before with
  | nil => exact ⟨[], rfl⟩
  | cons c before ih =>
    obtain ⟨start, line⟩ := ih
    by_cases newline : c = '\n'
    · subst newline
      rw [List.count_cons_self, List.cons_append, lineAfter?_newline]
      exact ⟨start, line⟩
    · rw [List.count_cons_of_ne newline, List.cons_append]
      cases skipped : before.count '\n' with
      | zero =>
        rw [skipped] at line
        refine ⟨c :: start, ?_⟩
        rw [lineAfter?, List.takeWhile_cons_of_pos (p := (· != '\n')) (bne_iff_ne.mpr newline),
          List.cons_append, ← Option.some.inj line]
      | succ skipped =>
        rw [skipped] at line
        rw [lineAfter?_cons newline]
        exact ⟨start, line⟩

theorem exists_lineAfter? {skipped : Nat} {text : List Char} (enough : skipped ≤ text.count '\n') :
    ∃ line, lineAfter? skipped text = some line := by
  induction text generalizing skipped with
  | nil =>
    obtain rfl : skipped = 0 := Nat.eq_zero_of_le_zero enough
    exact ⟨[], rfl⟩
  | cons c text ih =>
    cases skipped with
    | zero => exact ⟨_, rfl⟩
    | succ skipped =>
      by_cases newline : c = '\n'
      · subst newline
        rw [lineAfter?_newline]
        exact ih (by simpa using enough)
      · rw [lineAfter?_cons newline]
        exact ih (by simpa [List.count_cons_of_ne newline] using enough)

/-- Only what stands behind a text that ends in no carriage return can be dropped. -/
theorem prefix_dropCarriageReturn {text : List Char} (ends : text.getLast? ≠ some '\r')
    (rest : List Char) : text <+: dropCarriageReturn (text ++ rest) := by
  unfold dropCarriageReturn
  split
  · rename_i returns
    have some : rest ≠ [] := by
      rintro rfl
      rw [List.append_nil] at returns
      exact ends returns
    rw [List.dropLast_append_of_ne_nil some]
    exact List.prefix_append text _
  · exact List.prefix_append text rest

section Source

variable {source : String} {line : UInt32}

/-- Every line from the first to the last one can be asked for. -/
theorem exists_lineAt? (first : 1 ≤ line.toNat) (last : line.toNat ≤ 1 + newlineCount source) :
    ∃ text, lineAt? source line = some text := by
  have nonzero : line ≠ 0 := by
    rintro rfl
    exact absurd first (by decide)
  have enough : line.toNat - 1 ≤ source.toList.count '\n' := by
    rw [newlineCount] at last
    omega
  obtain ⟨text, found⟩ := exists_lineAfter? enough
  refine ⟨String.ofList (dropCarriageReturn text), ?_⟩
  rw [lineAt?, if_neg nonzero, found, Option.map_some]

/-- A piece of a source that has no newline and ends in no carriage return is part of the line
that it stands on. -/
theorem infix_lineAt? {before piece after : List Char} {text : String}
    (split : source.toList = before ++ (piece ++ after)) (clear : '\n' ∉ piece)
    (ends : piece.getLast? ≠ some '\r') (number : line.toNat = 1 + before.count '\n')
    (found : lineAt? source line = some text) : piece <:+: text.toList := by
  -- An empty piece may stand behind the carriage return that its line drops.
  by_cases none : piece = []
  · rw [none]
    exact List.nil_infix
  obtain ⟨start, whole⟩ := lineAfter?_count before (piece ++ after)
  rw [List.takeWhile_append_of_pos (Lexical.bne_of_notMem clear),
    ← List.append_assoc start] at whole
  have nonzero : line ≠ 0 := by
    rintro rfl
    exact absurd number (by simp [Nat.add_comm 1])
  have skipped : line.toNat - 1 = before.count '\n' := by omega
  rw [lineAt?, if_neg nonzero, skipped, split, whole, Option.map_some] at found
  have last : (start ++ piece).getLast? ≠ some '\r' := by
    rw [List.getLast?_append, List.getLast?_eq_some_getLast none, Option.some_or]
    rwa [List.getLast?_eq_some_getLast none] at ends
  rw [← Option.some.inj found, String.toList_ofList]
  exact (List.suffix_append start piece).isInfix.trans (prefix_dropCarriageReturn last _).isInfix

end Source
end Text

namespace Lexical

/-- Every token but the end of input comes from a lexeme of the text, and is on the line of the
last character of it. -/
theorem Splits.lexeme {line : Nat} {text : List Char} {tokens : List Token}
    (splits : Splits line text tokens) {token : Token} (member : token ∈ tokens)
    (notEnd : token.kind ≠ .endOfInput) :
    ∃ before lexeme after, text = before ++ (lexeme ++ after) ∧
      Lexes lexeme after token.kind token.payload ∧
      token.line = UInt32.ofNat (line + (before ++ lexeme.dropLast).count '\n') := by
  induction splits with
  | done =>
    cases List.mem_singleton.mp member
    exact absurd rfl notEnd
  | @next line run text rest kind payload tokens trivia lexes _ ih =>
    rcases List.mem_cons.mp member with rfl | member
    · refine ⟨run, text, rest, rfl, lexes, ?_⟩
      rw [List.count_append, trivia.count_newline, Nat.zero_add]
    · obtain ⟨before, lexeme, after, rfl, lexes', onLine⟩ := ih member
      have lines : (run ++ (text ++ before) ++ lexeme.dropLast).count '\n' =
          text.count '\n' + (before ++ lexeme.dropLast).count '\n' := by
        simp only [List.count_append, trivia.count_newline]
        omega
      refine ⟨run ++ (text ++ before), lexeme, after, by simp, lexes', ?_⟩
      rw [onLine, lines, Nat.add_assoc]

end Lexical
end ScriptFront
