import ScriptFront.Proofs.ErrorLine
import ScriptFront.Proofs.FloatSpelling
import ScriptFront.Proofs.ReportColumns
import ScriptFront.Proofs.StartTokens

/-! Which reports have five lines. A report shows the line of the source unless the line counter
has come round to zero. The tip shows the token it is about as it is written, and a string may
be written on several lines: the headline then takes as many. Such a string is named only
where it stands in place of a closing parenthesis or of a separator. -/
namespace ScriptFront

namespace Text

/-- A text has one line more than newlines. -/
theorem length_lines (text : String) : (lines text).length = text.toList.count '\n' + 1 := by
  rw [lines, List.length_map]
  induction text.toList with
  | nil => rfl
  | cons c cs ih =>
    rw [List.splitOn_cons_eq_if_modifyHead]
    split
    · rename_i newline
      rw [beq_iff_eq.mp newline, List.length_cons, ih, List.count_cons_self]
    · rename_i inside
      rw [List.length_modifyHead, ih, List.count_cons_of_ne (by simpa using inside)]

variable {source : String} {line : UInt32}

/-- A line that was counted in the source is shown, unless the counter has come round to zero. -/
theorem exists_lineAt?_iff (between : Between 1 (1 + newlineCount source) line) :
    (∃ text, lineAt? source line = some text) ↔ line ≠ 0 := by
  constructor
  · rintro ⟨text, found⟩ rfl
    cases found
  · intro nonzero
    obtain ⟨n, _, high, rfl⟩ := between
    have first : (UInt32.ofNat n).toNat ≠ 0 := fun zero => nonzero (UInt32.toNat_inj.mp zero)
    have wrapped : (UInt32.ofNat n).toNat ≤ n := by
      rw [UInt32.toNat_ofNat']
      exact Nat.mod_le n _
    exact exists_lineAt? (Nat.pos_of_ne_zero first) (Nat.le_trans wrapped high)

end Text

theorem Between.ne_zero {source : String} {line : UInt32}
    (between : Between 1 (1 + newlineCount source) line) (few : newlineCount source < 2 ^ 32 - 1) :
    line ≠ 0 := by
  obtain ⟨n, low, high, rfl⟩ := between
  intro zero
  have same := congrArg UInt32.toNat zero
  rw [UInt32.toNat_ofNat', Nat.mod_eq_of_lt (by omega)] at same
  exact absurd same (Nat.ne_of_gt low)

namespace Fault

theorem newline_notMem_name (fault : Fault) : '\n' ∉ fault.name.toList := by
  cases fault <;> exact Text.notMem_literal (by decide)

/-- A tip is one line, apart from the token that it may show. -/
theorem newline_tip_iff {fault : Fault} {tip : String} (given : fault.tip? = some tip) :
    '\n' ∈ tip.toList ↔ ∃ shown, fault.token? = some shown ∧ '\n' ∈ shown.toList := by
  have digits (n : Nat) : '\n' ∉ Nat.toDigits 10 n := notMem_toDigits (by decide) n
  have around {before shown after : String} (first : '\n' ∉ before.toList)
      (last : '\n' ∉ after.toList) :
      '\n' ∈ (before ++ shown ++ after).toList ↔ '\n' ∈ shown.toList := by
    simp [first, last]
  cases fault with
  | unrecognisedToken => cases given
  | malformedNumber text | numberOutOfRange text | unexpectedToken text
  | expectedCloseParen text | expectedSeparator text =>
    cases given
    simp only [token?, Option.some.injEq, exists_eq_left']
    exact around (Text.notMem_literal (by decide)) (Text.notMem_literal (by decide))
  | nestingTooDeep limit =>
    cases given
    refine iff_of_false ?_ (by simp [token?])
    rw [around (Text.notMem_literal (by decide)) (Text.notMem_literal (by decide))]
    simp [digits]
  | _ =>
    cases given
    exact iff_of_false (Text.notMem_literal (by decide)) (by simp [token?])

end Fault

namespace Diagnostic

variable {d : Diagnostic} {source label : String}

/-- The report is five lines: a headline, the label, and the line of the source between a bar and
a row of carets. -/
def InFiveLines (d : Diagnostic) (source label : String) : Prop :=
  ∃ headline line text bar numbered pointer,
    Text.lines (d.report source) = [headline, "-> " ++ label, bar, numbered, pointer, ""] ∧
    "Error: ".toList <+: headline.toList ∧
    Text.lineAt? source d.line = some line ∧ Text.Trims line text ∧
    Excerpt d.line text bar numbered pointer

theorem headline_prefix (d : Diagnostic) : "Error: ".toList <+: d.headline.toList := by
  unfold headline
  split <;> simp [String.toList_append, List.append_assoc]

/-- The headline goes over a line only with the token that its tip shows. -/
theorem newline_headline_iff (d : Diagnostic) :
    '\n' ∈ d.headline.toList ↔
      d.fault.tip? ≠ none ∧ ∃ shown, d.fault.token? = some shown ∧ '\n' ∈ shown.toList := by
  have name := d.fault.newline_notMem_name
  unfold headline
  split
  · rename_i none
    simp [name, none]
  · rename_i tip given
    simp [name, given, Fault.newline_tip_iff given]

/-- With a label of one line, the headline and the line of the source decide. -/
theorem inFiveLines_iff (file : d.position.file = label) (oneLine : '\n' ∉ label.toList) :
    d.InFiveLines source label ↔
      (∃ line, Text.lineAt? source d.line = some line) ∧ '\n' ∉ d.headline.toList := by
  have labelled : Text.lines ("-> " ++ d.position.file) = ["-> " ++ label] := by
    rw [file]
    exact Text.lines_of_notMem (by simp [oneLine])
  constructor
  · rintro ⟨_, line, _, _, _, _, layout, _, found, _, _⟩
    refine ⟨⟨line, found⟩, ?_⟩
    have count := congrArg List.length layout
    rw [lines_report_of_some found, heading, labelled] at count
    simp only [List.length_append, List.length_cons, List.length_nil, Text.length_lines] at count
    exact List.count_eq_zero.mp (by omega)
  · rintro ⟨⟨line, found⟩, clear⟩
    refine ⟨d.headline, line, _, _, _, _, ?_, headline_prefix d, found,
      Text.trims_shownText line, (isBar_gutter d.line).excerpt _⟩
    rw [lines_report_of_some found, heading, labelled, Text.lines_of_notMem clear]
    rfl

end Diagnostic

theorem TokenKind.newline_notMem_lexeme (kind : TokenKind) : '\n' ∉ kind.lexeme.toList := by
  cases kind with
  | keyword word => cases word <;> exact Text.notMem_literal (by decide)
  | _ => exact Text.notMem_literal (by decide)

theorem Binary64.newline_notMem_render {magnitude : Nat} (bound : magnitude ≤ infinite) :
    '\n' ∉ (ofMagnitude magnitude).render.toList := by
  obtain finite | rfl := Nat.lt_or_eq_of_le bound
  · rw [toList_render_ofMagnitude finite]
    intro member
    obtain digit | mark := (renderMagnitude_writes finite).chars _ member
    · exact absurd digit (by decide)
    · exact absurd mark (by decide)
  · rw [render_infinite]
    exact Text.notMem_literal (by decide)

namespace Token.Fits

variable {token : Token}

theorem text_kind {text : String} (fits : token.Fits) (payload : token.payload = .text text) :
    token.kind = .identifier ∨ token.kind = .string := by
  obtain ⟨kind, _, line⟩ := token
  cases payload
  cases kind with
  | identifier => exact .inl rfl
  | string => exact .inr rfl
  | _ => cases fits

theorem float_magnitude {value : Binary64} (fits : token.Fits)
    (payload : token.payload = .float value) :
    ∃ magnitude ≤ Binary64.infinite, value = .ofMagnitude magnitude := by
  obtain ⟨kind, _, line⟩ := token
  cases payload
  cases kind with
  | float => exact fits
  | _ => cases fits

/-- Of the tokens of a source only a string is ever shown with a newline. -/
theorem kind_of_newline (fits : token.Fits) (newline : '\n' ∈ token.render.toList) :
    token.kind = .string := by
  obtain ⟨kind, payload, line⟩ := token
  cases payload with
  | absent => exact absurd newline kind.newline_notMem_lexeme
  | text value =>
    obtain named | string := fits.text_kind rfl
    · obtain rfl : kind = .identifier := named
      exact absurd newline ((fits.name rfl rfl).notMem Lexical.apart_newline)
    · exact string
  | int value =>
    obtain digit | sign := mem_toString_int newline
    · exact absurd digit (by decide)
    · cases sign
  | float value =>
    obtain ⟨magnitude, bound, rfl⟩ := fits.float_magnitude rfl
    exact absurd newline (Binary64.newline_notMem_render bound)

end Token.Fits

/-- Three of the faults of parsing name a token. -/
theorem Fault.parsing_cases {fault : Fault} {shown : String} (parsing : fault.phase = .parsing)
    (named : fault.token? = some shown) :
    fault = .unexpectedToken shown ∨
      fault = .expectedCloseParen shown ∨ fault = .expectedSeparator shown := by
  cases fault with
  | unexpectedToken =>
    cases named
    exact .inl rfl
  | expectedCloseParen =>
    cases named
    exact .inr (.inl rfl)
  | expectedSeparator =>
    cases named
    exact .inr (.inr rfl)
  | unrecognisedToken | malformedNumber | numberOutOfRange => cases parsing
  | _ => cases named

/-- A string that is written on several lines is found in place of a closing parenthesis or of a
separator. -/
def Diagnostic.NamesSpreadString (d : Diagnostic) (tokens : List Token) : Prop :=
  ∃ token ∈ tokens, token.kind = .string ∧ '\n' ∈ token.render.toList ∧ token.line = d.line ∧
    (d.fault = .expectedCloseParen token.render ∨ d.fault = .expectedSeparator token.render)

section FrontEnd

variable {source label : String} {file : Option String} {tokens : List Token} {d : Diagnostic}

/-- What a lexical error names is on one line. -/
theorem tokenize_error_headline (failed : tokenize source file = .error d) :
    '\n' ∉ d.headline.toList := by
  intro newline
  obtain ⟨_, shown, named, inside⟩ := d.newline_headline_iff.mp newline
  have start : (Lexer.ofSource source file).line = UInt32.ofNat 1 := rfl
  obtain ⟨_, _, _, _, illegal, _⟩ := (Lexical.scanAll_eq_error_iff start).mp failed
  obtain ⟨_, clear, _⟩ := illegal.named named
  exact clear inside

/-- What is reported as unexpected starts no expression, so it is no string. -/
theorem parse_unexpected_clear (read : tokenize source file = .ok tokens)
    (failed : parse tokens label = .error d) {shown : String}
    (fault : d.fault = .unexpectedToken shown) : '\n' ∉ shown.toList := by
  obtain ⟨rest, failed⟩ := parse_eq_error.mp failed
  obtain ⟨token, ⟨same, after, suffix, current, _⟩, refuses⟩ :=
    Setting.readBody_stopsAt rfl failed fault
  have fits : token.Fits := current ▸ Setting.current_fits (tokenize_fits read) suffix
  rw [same] at fault
  rw [← Fault.unexpectedToken.inj fault]
  intro newline
  apply fits.kind_of_refuses refuses
  rw [fits.kind_of_newline newline]
  decide

/-- The headline of a parse error goes over a line exactly with such a string. -/
theorem parse_error_headline (read : tokenize source file = .ok tokens)
    (failed : parse tokens label = .error d) :
    '\n' ∈ d.headline.toList ↔ d.NamesSpreadString tokens := by
  rw [d.newline_headline_iff]
  constructor
  · rintro ⟨_, shown, named, newline⟩
    obtain ⟨index, token, _, current, position, names⟩ := parse_error_reported failed
    obtain rfl := names shown named
    have fits : token.Fits :=
      current ▸ Setting.current_fits (tokenize_fits read) (List.drop_suffix index tokens)
    have string := fits.kind_of_newline newline
    have member := Setting.current_mem current (by rw [string]; decide)
    refine ⟨token, member, string, newline, (congrArg Position.line position).symm, ?_⟩
    obtain fault | missing := Fault.parsing_cases (parse_error_phase failed) named
    · exact absurd newline (parse_unexpected_clear read failed fault)
    · exact missing
  · rintro ⟨token, _, _, newline, _, fault | fault⟩ <;> rw [fault]
    · exact ⟨nofun, _, rfl, newline⟩
    · exact ⟨nofun, _, rfl, newline⟩

end FrontEnd

/-- With a label of one line, every error of the front end is reported in five lines but for two
cases: the line counter has come round to zero, which takes `2 ^ 32 - 1` newlines, or a string
over several lines stands where a closing parenthesis or a separator should. -/
theorem frontEnd_report_lines (source : String) (file : Option String) (d : Diagnostic) :
    (tokenize source file = .error d → '\n' ∉ (file.getD shellLabel).toList →
      (d.InFiveLines source (file.getD shellLabel) ↔ d.line ≠ 0) ∧
      (newlineCount source < 2 ^ 32 - 1 → d.line ≠ 0)) ∧
    ∀ tokens label, tokenize source file = .ok tokens → parse tokens label = .error d →
      '\n' ∉ label.toList →
      (d.InFiveLines source label ↔ d.line ≠ 0 ∧ ¬ d.NamesSpreadString tokens) ∧
      (newlineCount source < 2 ^ 32 - 1 → d.line ≠ 0) := by
  constructor
  · intro failed oneLine
    obtain ⟨_, label⟩ := tokenize_error_position failed
    have between := tokenize_error_line failed
    rw [Diagnostic.inFiveLines_iff label oneLine, Text.exists_lineAt?_iff between]
    exact ⟨and_iff_left (tokenize_error_headline failed), between.ne_zero⟩
  · intro tokens label read failed oneLine
    obtain ⟨_, _, _, _, position, _⟩ := parse_error_reported failed
    have between := parse_error_between read failed
    rw [Diagnostic.inFiveLines_iff (congrArg Position.file position) oneLine,
      Text.exists_lineAt?_iff between, parse_error_headline read failed]
    exact ⟨Iff.rfl, between.ne_zero⟩

/-- A number that a letter touches, and a group that is left open on an indented second line. -/
theorem report_inFiveLines :
    (∃ d, tokenize "a = 1\nb = 123num" (some "main.fz") = .error d ∧
      d.InFiveLines "a = 1\nb = 123num" "main.fz") ∧
    ∃ tokens d, tokenize "a\n  (x" none = .ok tokens ∧ parse tokens "main.fz" = .error d ∧
      '\n' ∉ "main.fz".toList ∧ ¬ d.NamesSpreadString tokens ∧
      d.InFiveLines "a\n  (x" "main.fz" := by
  have label : '\n' ∉ "main.fz".toList := by decide
  constructor
  · have failed : tokenize "a = 1\nb = 123num" (some "main.fz") =
        .error ⟨.malformedNumber "123n", ⟨2, "main.fz"⟩⟩ := by
      decide +kernel
    obtain ⟨lexing, _⟩ := frontEnd_report_lines "a = 1\nb = 123num" (some "main.fz") _
    obtain ⟨laidOut, nonzero⟩ := lexing failed label
    exact ⟨_, failed, laidOut.mpr (nonzero (by decide))⟩
  · have read : tokenize "a\n  (x" none =
        .ok [.identifier "a" 1, .bare .newLine 1, .bare .openParen 2, .identifier "x" 2,
          .bare .endOfInput 2] := by
      decide +kernel
    have failed : parse [.identifier "a" 1, .bare .newLine 1, .bare .openParen 2,
        .identifier "x" 2, .bare .endOfInput 2] "main.fz" =
        .error ⟨.unterminatedGrouping, ⟨2, "main.fz"⟩⟩ := by
      decide +kernel
    have tokenless (tokens : List Token) :
        ¬ (⟨.unterminatedGrouping, ⟨2, "main.fz"⟩⟩ : Diagnostic).NamesSpreadString tokens := by
      rintro ⟨_, _, _, _, _, fault | fault⟩ <;> cases fault
    obtain ⟨_, parsing⟩ := frontEnd_report_lines "a\n  (x" none _
    obtain ⟨laidOut, nonzero⟩ := parsing _ _ read failed label
    exact ⟨_, _, read, failed, label, tokenless _,
      laidOut.mpr ⟨nonzero (by decide), tokenless _⟩⟩

/-- A statement, and behind it, without a separator, a string that is written on two lines. -/
def spreadString : String := "1 \"a\nb\""

/-- The headline is torn where the string is, and the report has six lines. -/
theorem report_spreadString :
    ∃ tokens d, tokenize spreadString none = .ok tokens ∧ parse tokens "main.fz" = .error d ∧
      '\n' ∉ "main.fz".toList ∧
      Text.lines (d.report spreadString) =
        ["Error: ExpectedSeparator (Unexpected token: `\"a", "b\"`, did you miss a semicolon?)",
          "-> main.fz", "  |", "2 | b\"", "  | ^^", ""] ∧
      ¬ d.InFiveLines spreadString "main.fz" := by
  have read : tokenize spreadString none =
      .ok [.int 1 1, .string "a\nb" 2, .bare .endOfInput 2] := by
    decide +kernel
  have failed : parse [.int 1 1, .string "a\nb" 2, .bare .endOfInput 2] "main.fz" =
      .error ⟨.expectedSeparator "\"a\nb\"", ⟨2, "main.fz"⟩⟩ := by
    decide +kernel
  have torn : Text.lines
      ((⟨.expectedSeparator "\"a\nb\"", ⟨2, "main.fz"⟩⟩ : Diagnostic).report spreadString) =
      ["Error: ExpectedSeparator (Unexpected token: `\"a", "b\"`, did you miss a semicolon?)",
        "-> main.fz", "  |", "2 | b\"", "  | ^^", ""] := by
    decide +kernel
  refine ⟨_, _, read, failed, by decide, torn, ?_⟩
  rintro ⟨_, _, _, _, _, _, layout, _⟩
  have count := congrArg List.length (torn.symm.trans layout)
  exact absurd count (by simp)

end ScriptFront
