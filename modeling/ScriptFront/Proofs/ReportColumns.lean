import Mathlib.Data.List.DropRight
import ScriptFront.Diagnostic

/-! The layout of a report. It is made of whole lines: the headline and the label, a bar, and for
a line that the source has its trimmed text behind the number, with a row of carets below.
The bars stand in one column, whatever the number, and the carets under the text, one for
each of its characters. -/
namespace ScriptFront
namespace Text

/-- Spelled out as a list, a long literal is searched without being decoded. -/
theorem notMem_literal {c : Char} {text : List Char} (absent : c ∉ text) :
    c ∉ (String.ofList text).toList := by
  rwa [String.toList_ofList]

/-- The pieces of a text between its newlines, the last of them empty where the text ends in one. -/
def lines (text : String) : List String := (text.toList.splitOn '\n').map String.ofList

theorem lines_append (before after : String) :
    lines (before ++ "\n" ++ after) = lines before ++ lines after := by
  have split : (before ++ "\n" ++ after).toList = before.toList ++ '\n' :: after.toList := by
    simp
  rw [lines, split, List.splitOn_append_cons_self, List.map_append]
  rfl

theorem lines_of_notMem {line : String} (clear : '\n' ∉ line.toList) : lines line = [line] := by
  rw [lines, List.splitOn_eq_singleton clear, List.map_singleton, String.ofList_toList]

/-- The column, counted from one, that a character first stands in. -/
def column? (c : Char) (line : String) : Option Nat := (line.toList.idxOf? c).map (· + 1)

theorem column?_of_split {c : Char} {line : String} {before after : List Char}
    (split : line.toList = before ++ c :: after) (first : c ∉ before) :
    column? c line = some (before.length + 1) := by
  have index : line.toList.idxOf? c = some before.length := by
    refine List.idxOf?_eq_some_iff.mpr ⟨by simp [split], by simp [split], ?_⟩
    intro j inside same
    apply first
    rw [← same]
    simp [split, List.getElem_append_left inside]
  rw [column?, index]
  rfl

/-- The text is what a line leaves without the spaces and tabs before it and the blanks behind. -/
structure Trims (line text : String) : Prop where
  split : ∃ margin tail, line.toList = margin ++ (text.toList ++ tail) ∧
    (∀ c ∈ margin, c = ' ' ∨ c = '\t') ∧ ∀ c ∈ tail, isBlank c
  first : ∀ c, text.toList.head? = some c → c ≠ ' ' ∧ c ≠ '\t'
  last : ∀ c, text.toList.getLast? = some c → ¬ isBlank c

theorem Trims.subset {line text : String} (trims : Trims line text) :
    text.toList ⊆ line.toList := by
  obtain ⟨margin, tail, split, _⟩ := trims.split
  intro c member
  rw [split]
  exact List.mem_append_right margin (List.mem_append_left tail member)

theorem trims_shownText (line : String) : Trims line (Diagnostic.shownText line) := by
  let isMargin : Char → Bool := fun c => c == ' ' || c == '\t'
  let rest := line.toList.dropWhile isMargin
  have shown : (Diagnostic.shownText line).toList = rest.rdropWhile isBlank :=
    String.toList_ofList
  constructor
  · refine ⟨line.toList.takeWhile isMargin, rest.rtakeWhile isBlank, ?_, ?_, ?_⟩
    · rw [shown, List.rdropWhile_append_rtakeWhile, List.takeWhile_append_dropWhile]
    · intro c member
      simpa [isMargin] using List.mem_takeWhile_imp member
    · exact fun c member => List.mem_rtakeWhile_imp member
  · intro c first
    rw [shown] at first
    -- What is kept is a front of what stands behind the margin.
    obtain ⟨tail, whole⟩ := List.rdropWhile_prefix isBlank rest
    have front : rest.head? = some c := by
      rw [← whole, List.head?_append, first, Option.some_or]
    have outside := List.head?_dropWhile_not isMargin line.toList
    rw [front] at outside
    simpa [isMargin] using outside
  · intro c last
    rw [shown] at last
    have some : rest.rdropWhile isBlank ≠ [] := by
      intro none
      rw [none] at last
      cases last
    rw [List.getLast?_eq_some_getLast some] at last
    rw [← Option.some.inj last]
    exact List.rdropWhile_last_not isBlank rest some

theorem newline_notMem_lineAfter? {skipped : Nat} {text line : List Char}
    (found : lineAfter? skipped text = some line) : '\n' ∉ line := by
  induction skipped generalizing text with
  | zero =>
    rw [← Option.some.inj found]
    intro member
    exact absurd (List.mem_takeWhile_imp member) (by decide)
  | succ skipped ih =>
    rw [lineAfter?] at found
    split at found
    · cases found
    · exact ih found

theorem newline_notMem_lineAt? {source line : String} {number : UInt32}
    (found : lineAt? source number = some line) : '\n' ∉ line.toList := by
  unfold lineAt? at found
  split at found
  · cases found
  · obtain ⟨text, whole, rfl⟩ := Option.map_eq_some_iff.mp found
    rw [String.toList_ofList]
    intro member
    apply newline_notMem_lineAfter? whole
    unfold dropCarriageReturn at member
    split at member
    · exact List.dropLast_subset text member
    · exact member

end Text

/-- The number of decimal digits of a line number. -/
def digitCount (number : UInt32) : Nat := (Nat.toDigits 10 number.toNat).length

theorem toList_toString_line (number : UInt32) :
    (toString number).toList = Nat.toDigits 10 number.toNat := by
  change (toString number.toNat).toList = _
  rw [Nat.toString_eq_ofList_toDigits, String.toList_ofList]

theorem length_toString_line (number : UInt32) : (toString number).length = digitCount number := by
  rw [← String.length_toList, toList_toString_line, digitCount]

theorem notMem_toDigits {c : Char} (other : ¬ c.isDigit) (n : Nat) : c ∉ Nat.toDigits 10 n :=
  fun member => other (Nat.isDigit_of_mem_toDigits (by decide) (by decide) member)

theorem notMem_toString_line {c : Char} (other : ¬ c.isDigit) (number : UInt32) :
    c ∉ (toString number).toList := by
  rw [toList_toString_line]
  exact notMem_toDigits other _

namespace Diagnostic

/-- A line that is blank up to a bar, one blank behind the place of the number. -/
def IsBar (number : UInt32) (line : String) : Prop :=
  line.toList = List.replicate (digitCount number + 1) ' ' ++ ['|']

/-- A caret for each character of a text, and one for the empty text. -/
def carets (text : String) : String :=
  String.ofList (List.replicate (if text = "" then 1 else text.length) '^')

/-- Three lines that show a text: a bar, the text behind its number, and carets below. -/
structure Excerpt (number : UInt32) (text bar numbered pointer : String) : Prop where
  isBar : IsBar number bar
  numbering : numbered = toString number ++ " | " ++ text
  pointing : pointer = bar ++ " " ++ carets text
  /-- The first bars of the three lines stand in one column. -/
  bars : ∀ line ∈ [bar, numbered, pointer], Text.column? '|' line = some (digitCount number + 2)
  /-- The text starts in the column that the carets start in. -/
  start : numbered.toList.drop (digitCount number + 3) = text.toList ∧
    Text.column? '^' pointer = some (digitCount number + 4)

theorem carets_eq (text : String) :
    carets text = String.ofList (List.replicate (max text.length 1) '^') := by
  rw [carets]
  split
  · rename_i none
    subst none
    rfl
  · rename_i some
    have positive : text.length ≠ 0 := fun zero => some (String.length_eq_zero_iff.mp zero)
    rw [Nat.max_eq_left (by omega)]

section Layout

variable {number : UInt32} {bar text : String}

theorem isBar_gutter (number : UInt32) : IsBar number (gutter (toString number)) := by
  rw [IsBar, gutter, length_toString_line, String.toList_append, String.toList_ofList]
  rfl

theorem IsBar.newline_notMem (isBar : IsBar number bar) : '\n' ∉ bar.toList := by
  rw [isBar]
  simp

theorem IsBar.column (isBar : IsBar number bar) (behind : String) :
    Text.column? '|' (bar ++ behind) = some (digitCount number + 2) := by
  have split : (bar ++ behind).toList =
      List.replicate (digitCount number + 1) ' ' ++ '|' :: behind.toList := by
    rw [String.toList_append, isBar, List.append_assoc]
    rfl
  have blank : '|' ∉ List.replicate (digitCount number + 1) ' ' := by simp
  rw [Text.column?_of_split split blank, List.length_replicate]

theorem numbered_toList (number : UInt32) (text : String) :
    (toString number ++ " | " ++ text).toList =
      (toString number).toList ++ [' '] ++ '|' :: ' ' :: text.toList := by
  simp

theorem numbered_column (number : UInt32) (text : String) :
    Text.column? '|' (toString number ++ " | " ++ text) = some (digitCount number + 2) := by
  have first : '|' ∉ (toString number).toList ++ [' '] := by
    simp [notMem_toString_line (show ¬ '|'.isDigit by decide)]
  rw [Text.column?_of_split (numbered_toList number text) first, List.length_append,
    String.length_toList, length_toString_line, List.length_singleton]

theorem IsBar.caret_column (isBar : IsBar number bar) (text : String) :
    Text.column? '^' (bar ++ " " ++ carets text) = some (digitCount number + 4) := by
  -- There is always a first caret.
  obtain ⟨count, row⟩ : ∃ count, (carets text).toList = '^' :: List.replicate count '^' := by
    refine ⟨max text.length 1 - 1, ?_⟩
    rw [carets_eq, String.toList_ofList, ← List.replicate_succ, Nat.sub_add_cancel (by omega)]
  have split : (bar ++ " " ++ carets text).toList =
      (bar.toList ++ [' ']) ++ '^' :: List.replicate count '^' := by
    rw [String.toList_append, row, String.toList_append]
    rfl
  have first : '^' ∉ bar.toList ++ [' '] := by
    rw [isBar]
    simp
  rw [Text.column?_of_split split first, isBar]
  simp

/-- A bar, a text behind its number and the bar again with carets are aligned. -/
theorem IsBar.excerpt (isBar : IsBar number bar) (text : String) :
    Excerpt number text bar (toString number ++ " | " ++ text) (bar ++ " " ++ carets text) := by
  refine ⟨isBar, rfl, rfl, ?_, ?_, isBar.caret_column text⟩
  · intro line member
    simp only [List.mem_cons, List.not_mem_nil, or_false] at member
    rcases member with rfl | rfl | rfl
    · simpa using isBar.column ""
    · exact numbered_column number text
    · rw [String.append_assoc]
      exact isBar.column _
  · rw [String.toList_append]
    apply List.drop_left'
    rw [String.length_toList, String.length_append, length_toString_line]
    rfl

end Layout

section Report

variable {d : Diagnostic} {source line : String}

/-- The lines that every report starts with. -/
def heading (d : Diagnostic) : List String :=
  Text.lines d.headline ++ Text.lines ("-> " ++ d.position.file)

theorem lines_heading (d : Diagnostic) (bar rest : String) :
    Text.lines (d.headline ++ "\n-> " ++ d.position.file ++ "\n" ++ bar ++ "\n" ++ rest) =
      d.heading ++ Text.lines bar ++ Text.lines rest := by
  have arrow : "\n-> " = "\n" ++ "-> " := rfl
  have front : d.headline ++ "\n-> " ++ d.position.file =
      d.headline ++ "\n" ++ ("-> " ++ d.position.file) := by
    simp only [arrow, String.append_assoc]
  rw [Text.lines_append, Text.lines_append, front, Text.lines_append, heading]

theorem lines_gutter (number : UInt32) :
    Text.lines (gutter (toString number)) = [gutter (toString number)] :=
  Text.lines_of_notMem (isBar_gutter number).newline_notMem

theorem newline_notMem_shownText {number : UInt32}
    (found : Text.lineAt? source number = some line) : '\n' ∉ (shownText line).toList :=
  fun member => Text.newline_notMem_lineAt? found ((Text.trims_shownText line).subset member)

theorem lines_report_of_none (missing : Text.lineAt? source d.line = none) :
    Text.lines (d.report source) = d.heading ++ [gutter (toString d.line), ""] := by
  have whole : d.report source = d.headline ++ "\n-> " ++ d.position.file ++ "\n" ++
      gutter (toString d.line) ++ "\n" ++ "" := by
    simp only [report, missing, String.append_empty]
  rw [whole, lines_heading, lines_gutter, List.append_assoc]
  rfl

theorem lines_report_of_some (found : Text.lineAt? source d.line = some line) :
    Text.lines (d.report source) = d.heading ++ [gutter (toString d.line),
      toString d.line ++ " | " ++ shownText line,
      gutter (toString d.line) ++ " " ++ carets (shownText line), ""] := by
  have whole : d.report source = d.headline ++ "\n-> " ++ d.position.file ++ "\n" ++
      gutter (toString d.line) ++ "\n" ++
        (toString d.line ++ " | " ++ shownText line ++ "\n" ++
          (gutter (toString d.line) ++ " " ++ carets (shownText line) ++ "\n" ++ "")) := by
    simp only [report, found, carets_eq, String.append_assoc, String.append_empty]
  have text := newline_notMem_shownText found
  have numbered : '\n' ∉ (toString d.line ++ " | " ++ shownText line).toList := by
    simp [text, notMem_toString_line (show ¬ '\n'.isDigit by decide)]
  have pointer : '\n' ∉ (gutter (toString d.line) ++ " " ++ carets (shownText line)).toList := by
    simp [(isBar_gutter d.line).newline_notMem, carets]
  rw [whole, lines_heading, lines_gutter, Text.lines_append, Text.lines_append,
    Text.lines_of_notMem numbered, Text.lines_of_notMem pointer, List.append_assoc]
  rfl

end Report

/-- Where the source has the line, a report ends with a bar, the trimmed line behind its number,
and a caret for each character of it, or one in all; the bars stand in one column, and the
carets below the text. Where the source has no such line, the report ends with the bar. -/
theorem report_aligned (d : Diagnostic) (source : String) :
    (∀ line, Text.lineAt? source d.line = some line →
      ∃ text bar numbered pointer,
        Text.lines (d.report source) = d.heading ++ [bar, numbered, pointer, ""] ∧
        Text.Trims line text ∧ '\n' ∉ text.toList ∧
        Excerpt d.line text bar numbered pointer) ∧
    (Text.lineAt? source d.line = none →
      ∃ bar, Text.lines (d.report source) = d.heading ++ [bar, ""] ∧ IsBar d.line bar) := by
  have isBar := isBar_gutter d.line
  constructor
  · intro line found
    exact ⟨_, _, _, _, lines_report_of_some found, Text.trims_shownText line,
      newline_notMem_shownText found, isBar.excerpt _⟩
  · intro missing
    exact ⟨_, lines_report_of_none missing, isBar⟩

/-- An error on the tenth line of ten, which has a tab before its text, a letter of two bytes
in it and blanks behind it. -/
def tenthLine : String := "\n\n\n\n\n\n\n\n\n\t x = (\u00e9 \u00a0\r"

/-- The text shown is `x = (é`, with six carets; on an eleventh line there is nothing to show. -/
theorem report_tenthLine :
    Text.lineAt? tenthLine 10 = some "\t x = (\u00e9 \u00a0" ∧
    (∃ text bar numbered pointer,
      Text.lines ((⟨.unterminatedGrouping, 10, "main"⟩ : Diagnostic).report tenthLine) =
        (⟨.unterminatedGrouping, 10, "main"⟩ : Diagnostic).heading ++
          [bar, numbered, pointer, ""] ∧
      Text.Trims "\t x = (\u00e9 \u00a0" text ∧ '\n' ∉ text.toList ∧
      Excerpt 10 text bar numbered pointer) ∧
    Text.lineAt? tenthLine 11 = none ∧
    ∃ bar, Text.lines ((⟨.unterminatedGrouping, 11, "main"⟩ : Diagnostic).report tenthLine) =
      (⟨.unterminatedGrouping, 11, "main"⟩ : Diagnostic).heading ++ [bar, ""] ∧ IsBar 11 bar := by
  have shown : Text.lineAt? tenthLine 10 = some "\t x = (\u00e9 \u00a0" := by
    decide +kernel
  have missing : Text.lineAt? tenthLine 11 = none := by
    decide +kernel
  exact ⟨shown, (report_aligned ⟨.unterminatedGrouping, 10, "main"⟩ tenthLine).1 _ shown, missing,
    (report_aligned ⟨.unterminatedGrouping, 11, "main"⟩ tenthLine).2 missing⟩

end Diagnostic
end ScriptFront
