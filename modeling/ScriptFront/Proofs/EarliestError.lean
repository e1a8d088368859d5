import ScriptFront.Proofs.Descent
import ScriptFront.Proofs.ProgramGrammar

/-! Errors are reported at the earliest token possible. What stands before the token
can be completed to a program, and with the token nothing can: whatever follows,
the error is the same. Where the nesting limit is hit, no continuation of the
tokens read avoids it. -/
namespace ScriptFront

/-- The text of the token that a fault names. -/
def Fault.token? : Fault → Option String
  | .unrecognisedToken text | .malformedNumber text | .numberOutOfRange text
  | .unexpectedToken text | .expectedCloseParen text | .expectedSeparator text => some text
  | .unterminatedString | .unterminatedGrouping | .invalidAssignmentTarget
  | .nestingTooDeep _ => none

/-- What is left to read once a fault is reported at the first of the tokens. A token in
place of a separator, or beyond the nesting limit, stays unread. -/
def Fault.leaves (fault : Fault) (tokens : List Token) : List Token :=
  match fault with
  | .expectedSeparator _ | .nestingTooDeep _ => tokens
  | _ => tokens.tail

theorem Fault.leaves_length (fault : Fault) :
    ∃ read, read ≤ 1 ∧ ∀ tokens, (fault.leaves tokens).length = tokens.length - read := by
  cases fault with
  | expectedSeparator | nestingTooDeep => exact ⟨0, Nat.zero_le 1, fun _ => rfl⟩
  | _ => exact ⟨1, Nat.le_refl 1, fun tokens => List.length_tail⟩

namespace Grammar

variable {power target : Power} {way used : List Token} {expr : Expr} {room low edge : Nat}

theorem standard_sealed : standard.Sealed := ⟨rfl, rfl⟩

/-- At the end of a way down any expression that fits will do: what is pending above
only needs its groups closed. -/
theorem Descends.completes (descends : standard.Descends room power way low target)
    (spelled : standard.Spells target used expr edge) (fits : expr.need ≤ low) :
    ∃ more whole edge', standard.Spells power (way ++ (used ++ more)) whole edge' ∧
      whole.need ≤ room := by
  induction descends with
  | here => exact ⟨[], expr, edge, by simpa using spelled, fits⟩
  | unary starts _ ih =>
    obtain ⟨more, right, edge', spelled, enough⟩ := ih spelled fits
    exact ⟨more, .unary _ right, _, .unary starts spelled, by simp only [Expr.need]; omega⟩
  | @grouping room power opening way low target starts _ ih =>
    obtain ⟨more, inner, edge', spelled, enough⟩ := ih spelled fits
    have closed : standard.Spells power
        (opening :: (way ++ (used ++ more)) ++ [.bare .closeParen opening.line])
        (.grouping inner opening.line) Power.call.rank :=
      .grouping starts spelled rfl (fun join joined => by cases joined)
    exact ⟨more ++ [.bare .closeParen opening.line], .grouping inner opening.line, _,
      by simpa using closed, by simp only [Expr.need]; omega⟩
  | binary before few joined above within _ ih =>
    obtain ⟨more, right, edge', spelled, enough⟩ := ih spelled fits
    exact ⟨more, .binary _ _ right, _,
      by simpa using before.binary joined above within spelled, by simp only [Expr.need]; omega⟩
  | assign before joined above within _ ih =>
    obtain ⟨more, value, edge', spelled, enough⟩ := ih spelled fits
    exact ⟨more, .assign _ value, _,
      by simpa using before.assign joined above within spelled, by simp only [Expr.need]; omega⟩

theorem Descends.room_eq {grammar : Grammar}
    (descends : grammar.Descends room power [] low target) : low = room := by
  generalize none : ([] : List Token) = way at descends
  cases descends with
  | here => rfl
  | unary | grouping => cases none
  | binary | assign => simp at none

end Grammar

namespace Setting

variable {setting : Setting} {power : Power} {used after tokens rest : List Token} {room : Nat}
  {d : Diagnostic} {line : UInt32}

/-- The setting of tokens that end on another line. -/
def endingOn (setting : Setting) (line : UInt32) : Setting := { setting with lastLine := line }

/-- The end of input is written alike on every line. -/
theorem render_endingOn {other : List Token} (line : UInt32) (same : other.head? = tokens.head?) :
    ((setting.endingOn line).current other).render = (setting.current tokens).render := by
  cases tokens with
  | nil =>
    obtain rfl : other = [] := by simpa using same
    rfl
  | cons token tokens =>
    obtain ⟨others, rfl⟩ : ∃ others, other = token :: others := List.head?_eq_some_iff.mp same
    rfl

namespace Faults

theorem completes (faults : setting.Faults (room + 1) power used after d rest)
    (standard : setting.grammar = .standard) :
    ∃ more expr edge, Grammar.standard.Spells power (used ++ more) expr edge ∧
      expr.need ≤ room + 1 := by
  cases faults with
  | unexpected _ =>
    exact ⟨[.identifier "x" 1], .name ⟨.identifier "x" 1, "x"⟩, _, .name rfl rfl,
      Nat.succ_le_succ (Nat.zero_le room)⟩
  | @unclosed _ _ opening tokens inner _ _ starts spelled fits _ _ =>
    rw [standard] at starts spelled
    exact ⟨[.bare .closeParen 1], .grouping inner opening.line, _,
      .grouping starts spelled rfl (fun join joined => by cases joined),
      by simp only [Expr.need]; omega⟩
  | @target _ _ before left edge _ _ _ spelled fits _ _ _ _ =>
    rw [standard] at spelled
    exact ⟨[], left, edge, by simpa using spelled, fits⟩

/-- A fault that names a token names the first after those used. -/
theorem text (faults : setting.Faults room power used after d rest) :
    ∀ text, d.fault.token? = some text → text = (setting.current after).render := by
  intro text named
  cases faults with
  | tooDeep | target => cases named
  | unexpected _ => exact (Option.some.inj named).symm
  | unclosed =>
    unfold diagnose Token.unclosed at named
    split at named
    · cases named
    · exact (Option.some.inj named).symm

/-- Nothing behind the token at fault is looked at, and the last line matters only where
the end of input is at fault. -/
theorem endingOn (faults : setting.Faults room power used after d rest) (line : UInt32)
    {other : List Token} (same : other.head? = after.head?) :
    (setting.endingOn line).Faults room power used other
      ((setting.endingOn line).diagnose d.fault ((setting.endingOn line).current other))
      (d.fault.leaves other) := by
  cases after with
  | nil =>
    obtain rfl : other = [] := by simpa using same
    cases faults with
    | tooDeep => exact .tooDeep
    | unexpected refuses => exact .unexpected refuses
    | unclosed starts spelled fits stops notClosed =>
      exact .unclosed starts spelled fits stops notClosed
  | cons token after =>
    obtain ⟨others, rfl⟩ : ∃ others, other = token :: others := List.head?_eq_some_iff.mp same
    cases faults with
    | tooDeep => exact .tooDeep
    | unexpected refuses => exact .unexpected refuses
    | unclosed starts spelled fits stops notClosed =>
      have left : token.unclosed.leaves (token :: others) = others := by
        unfold Token.unclosed
        split <;> rfl
      change (setting.endingOn line).Faults _ power _ (token :: others) _
        (token.unclosed.leaves (token :: others))
      rw [left]
      exact .unclosed starts spelled fits stops notClosed
    | target spelled fits notName joined above within =>
      exact .target spelled fits notName joined above within

end Faults

/-- The tokens are whole statements and blank lines: the statement loop goes on behind
them with whatever follows. -/
def Passes (setting : Setting) (passed : List Token) : Prop :=
  ∀ line tokens, ∃ f, (setting.endingOn line).readBody (passed ++ tokens) =
    ((setting.endingOn line).readBody tokens).map f

theorem Passes.append {passed more : List Token} (first : setting.Passes passed)
    (second : setting.Passes more) : setting.Passes (passed ++ more) := by
  intro line tokens
  obtain ⟨f, outer⟩ := first line (more ++ tokens)
  obtain ⟨g, inner⟩ := second line tokens
  refine ⟨f ∘ g, ?_⟩
  rw [List.append_assoc, outer, inner]
  cases (setting.endingOn line).readBody tokens <;> rfl

theorem passes_blank {blank : List Token} (blanks : Blank blank) : setting.Passes blank := by
  intro line tokens
  refine ⟨id, ?_⟩
  rw [readBody_congr (skipNewLines_blank_append blanks tokens)]
  cases (setting.endingOn line).readBody tokens <;> rfl

theorem passes_statement (standard : setting.grammar = .standard) {separator : Token} {expr : Expr}
    (derived : Derives .expr used expr) (fits : expr.need ≤ nestingLimit)
    (separates : separator.kind.isSeparator) : setting.Passes (used ++ [separator]) := by
  intro line tokens
  obtain ⟨first, more, rfl, _⟩ := derived.head
  have standard : (setting.endingOn line).grammar = .standard := standard
  have next : (nextKind (separator :: tokens)).isSeparator := separates
  have round : (setting.endingOn line).readBody ([] ++ first :: more ++ separator :: tokens) =
      ((setting.endingOn line).readBody tokens).map (⟨expr, first.line⟩ :: ·) :=
    readBody_statement standard blank_nil derived fits next
  exact ⟨_, by simpa using round⟩

/-- An error of the statement loop is an error of the first statement behind the tokens
that it has passed. -/
theorem readBody_error_cases (standard : setting.grammar = .standard)
    (failed : setting.readBody tokens = .error d rest) :
    ∃ passed start, tokens = passed ++ start ∧ setting.Passes passed ∧
      nextKind start ≠ .newLine ∧ nextKind start ≠ .endOfInput ∧
      setting.readStmt nestingLimit start = .error d rest := by
  induction size : tokens.length using Nat.strongRecOn generalizing tokens with
  | ind size ih =>
    obtain ⟨blank, blanks, split, starts⟩ := skipNewLines_split tokens
    obtain ⟨_, all⟩ | ⟨_, _, more, step, all⟩ | ⟨stmt, next, step, shorter, round⟩ :=
      setting.readBody_cases tokens
    · cases all.symm.trans failed
    · cases all.symm.trans failed
      exact ⟨blank, skipNewLines tokens, split, passes_blank blanks, starts, more, step⟩
    · obtain ⟨used, middle, expr, same, derived, fits, separates, rfl, rfl⟩ :=
        (readStmt_standard standard).mp step
      have inner := Outcome.map_eq_error (round.symm.trans failed)
      cases middle with
      | nil => cases readBody_nil.symm.trans inner
      | cons separator middle =>
        obtain ⟨passed, start, rfl, passes, first, more, fails⟩ := ih _ (size ▸ shorter) inner rfl
        refine ⟨blank ++ (used ++ [separator] ++ passed), start, ?_, ?_, first, more, fails⟩
        · rw [split, same]
          simp
        · have statement := passes_statement standard derived fits separates
          exact (passes_blank blanks).append (statement.append passes)

theorem readStmt_error_cases (standard : setting.grammar = .standard)
    (failed : setting.readStmt room tokens = .error d rest) :
    setting.FailsBelow room .default tokens d rest ∨
    ∃ used expr, tokens = used ++ rest ∧ Derives .expr used expr ∧ expr.need ≤ room ∧
      nextKind rest ∉ operatorKinds ∧ ¬ (setting.current rest).isSeparator ∧
      d = setting.diagnose (.expectedSeparator (setting.current rest).render)
        (setting.current rest) := by
  unfold readStmt at failed
  split at failed
  · rename_i inner
    cases failed
    exact .inl (level_failsBelow (standard ▸ Grammar.standard_sealed) room inner)
  · rename_i expr middle inner
    obtain ⟨used, rfl, derived, loose, fits⟩ := (level_read_standard standard).mp inner
    dsimp only at failed
    split at failed
    · cases failed
    · rename_i missing
      cases failed
      exact .inr ⟨used, expr, rfl, derived, fits, loose, missing, rfl⟩

theorem readStmt_of_level_error
    (failed : (setting.level room).read .default tokens = .error d rest) :
    setting.readStmt room tokens = .error d rest := by
  simp only [readStmt, failed]

/-- Reading a statement fails at the first of the tokens after, wherever the end of input
is said to stand and whatever follows that token. Below the nesting limit the tokens
before can be completed, beyond it they decide the failure by themselves. -/
structure StmtFails (setting : Setting) (room : Nat) (before after : List Token)
    (d : Diagnostic) : Prop where
  text : ∀ text, d.fault.token? = some text → text = (setting.current after).render
  reported : ∀ line {other : List Token}, other.head? = after.head? →
    (setting.endingOn line).readStmt room (before ++ other) =
      .error ((setting.endingOn line).diagnose d.fault ((setting.endingOn line).current other))
        (d.fault.leaves other)
  viable : (∀ limit, d.fault ≠ .nestingTooDeep limit) →
    ∃ more expr, Derives .expr (before ++ more) expr ∧ expr.need ≤ room
  tooDeep : ∀ {limit}, d.fault = .nestingTooDeep limit → before ≠ [] ∧ ∀ line other, ∃ d' left,
    (setting.endingOn line).readStmt room (before ++ other) = .error d' left ∧
      d'.fault = .nestingTooDeep limit

theorem FailsBelow.stmtFails (fails : setting.FailsBelow room .default tokens d rest)
    (standard : setting.grammar = .standard) (positive : 0 < room) :
    ∃ before after, tokens = before ++ after ∧ setting.StmtFails room before after d := by
  obtain ⟨way, used, after, low, target, rfl, descends, faults⟩ := fails
  have stuck (line : UInt32) {tokens : List Token} {d' : Diagnostic} {left : List Token}
      (failed : ((setting.endingOn line).level low).read target tokens = .error d' left) :
      (setting.endingOn line).readStmt room (way ++ tokens) = .error d' left := by
    have descends : (setting.endingOn line).grammar.Descends room .default way low target :=
      descends
    exact readStmt_of_level_error (descends.level_read_error failed)
  refine ⟨way ++ used, after, by simp, faults.text, ?_, ?_, ?_⟩
  · intro line other same
    rw [List.append_assoc]
    exact stuck line (faults.endingOn line same).level_read_error
  · intro shallow
    cases low with
    | zero =>
      cases faults
      exact absurd rfl (shallow nestingLimit)
    | succ low =>
      rw [standard] at descends
      obtain ⟨more, operand, edge, spelled, fits⟩ := faults.completes standard
      obtain ⟨closing, whole, edge', spelled, fits⟩ := descends.completes spelled fits
      exact ⟨more ++ closing, whole, Derives.iff_spells.mpr ⟨edge', by simpa using spelled⟩, fits⟩
  · intro limit deep
    cases faults with
    | tooDeep =>
      rw [List.append_nil]
      constructor
      · rintro rfl
        have same := descends.room_eq
        omega
      · intro line other
        exact ⟨_, _, stuck line rfl, deep⟩
    | unexpected | target => cases deep
    | unclosed =>
      unfold diagnose Token.unclosed at deep
      split at deep <;> cases deep

theorem readStmt_fails (standard : setting.grammar = .standard) (positive : 0 < room)
    (failed : setting.readStmt room tokens = .error d rest) :
    ∃ before after, tokens = before ++ after ∧ setting.StmtFails room before after d := by
  obtain fails | ⟨used, expr, rfl, derived, fits, loose, missing, rfl⟩ :=
    readStmt_error_cases standard failed
  · exact fails.stmtFails standard positive
  · refine ⟨used, rest, rfl, fun _ named => (Option.some.inj named).symm, ?_, ?_, nofun⟩
    · intro line other same
      have standard : (setting.endingOn line).grammar = .standard := standard
      have kind : nextKind other = nextKind rest := by rw [nextKind, nextKind, same]
      have read : ((setting.endingOn line).level room).read .default (used ++ other) =
          .ok expr other :=
        (level_read_standard standard).mpr ⟨used, rfl, derived, kind ▸ loose, fits⟩
      have missing : ¬ ((setting.endingOn line).current other).isSeparator := by
        rwa [Token.isSeparator, current_kind, kind, ← setting.current_kind]
      simp only [readStmt, read, if_neg missing, render_endingOn line same]
      rfl
    · exact fun _ => ⟨[], expr, by simpa using derived, fits⟩

namespace Passes

variable {passed : List Token}

theorem readBody_ok (passes : setting.Passes passed) (standard : setting.grammar = .standard)
    {body : List Stmt} (statements : Statements tokens body) (line : UInt32) :
    ∃ whole rest, (setting.endingOn line).readBody (passed ++ tokens) = .ok whole rest := by
  have standard : (setting.endingOn line).grammar = .standard := standard
  obtain ⟨rest, read⟩ := statements.readBody (.inl rfl) standard
  obtain ⟨f, round⟩ := passes line tokens
  rw [List.append_nil] at read
  rw [read] at round
  exact ⟨f body, rest, round⟩

theorem readBody_error (passes : setting.Passes passed) (first : nextKind tokens ≠ .newLine)
    (more : nextKind tokens ≠ .endOfInput)
    (failed : (setting.endingOn line).readStmt nestingLimit tokens = .error d rest) :
    (setting.endingOn line).readBody (passed ++ tokens) = .error d rest := by
  have skipped : skipNewLines tokens = tokens := skipNewLines_blank blank_nil first
  obtain ⟨f, round⟩ := passes line tokens
  rw [round, readBody_of_error (by rwa [skipped]) (by rwa [skipped])]
  rfl

end Passes

/-- As for a statement, behind the statements passed. -/
structure BodyFails (setting : Setting) (before after : List Token) (d : Diagnostic) : Prop where
  text : ∀ text, d.fault.token? = some text → text = (setting.current after).render
  reported : ∀ line {other : List Token}, other.head? = after.head? →
    (setting.endingOn line).readBody (before ++ other) =
      .error ((setting.endingOn line).diagnose d.fault ((setting.endingOn line).current other))
        (d.fault.leaves other)
  viable : (∀ limit, d.fault ≠ .nestingTooDeep limit) →
    ∃ more, ∀ line, ∃ body left, (setting.endingOn line).readBody (before ++ more) = .ok body left
  tooDeep : ∀ {limit}, d.fault = .nestingTooDeep limit → ∀ line other, ∃ d' left,
    (setting.endingOn line).readBody (before ++ other) = .error d' left ∧
      d'.fault = .nestingTooDeep limit

theorem readBody_fails (standard : setting.grammar = .standard)
    (failed : setting.readBody tokens = .error d rest) :
    ∃ before after, tokens = before ++ after ∧ setting.BodyFails before after d := by
  obtain ⟨passed, start, rfl, passes, first, some, step⟩ := readBody_error_cases standard failed
  obtain ⟨before, after, rfl, fails⟩ := readStmt_fails standard (by decide) step
  refine ⟨passed ++ before, after, by simp, fails.text, ?_, ?_, ?_⟩
  · intro line other same
    -- The statement still starts with the token that it started with.
    have kind : nextKind (before ++ other) = nextKind (before ++ after) := by
      rw [nextKind, nextKind, List.head?_append, List.head?_append, same]
    rw [List.append_assoc]
    exact passes.readBody_error (kind ▸ first) (kind ▸ some) (fails.reported line same)
  · intro shallow
    obtain ⟨more, expr, derived, fits⟩ := fails.viable shallow
    refine ⟨more, ?_⟩
    intro line
    rw [List.append_assoc]
    exact passes.readBody_ok standard (.single derived fits) line
  · intro limit deep line other
    obtain ⟨nonempty, stuck⟩ := fails.tooDeep deep
    obtain ⟨d', left, again, deep⟩ := stuck line other
    have kind : nextKind (before ++ other) = nextKind (before ++ after) := by
      cases before with
      | nil => exact absurd rfl nonempty
      | cons => rfl
    rw [List.append_assoc]
    exact ⟨d', left, passes.readBody_error (kind ▸ first) (kind ▸ some) again, deep⟩

end Setting

/-- Parsing stops with the diagnostic reported at the token with the given index: on
whichever line the end of input is said to stand, the report is the one about that
token. The index after the last token is that of the end of input. -/
def ReportedAt (tokens : List Token) (file : String) (d : Diagnostic) (index : Nat) : Prop :=
  index ≤ tokens.length ∧ ∀ line, (Setting.mk .standard file line).readBody tokens =
    .error ((Setting.mk .standard file line).diagnose d.fault
      ((Setting.mk .standard file line).current (tokens.drop index)))
      (d.fault.leaves (tokens.drop index))

namespace ReportedAt

variable {tokens : List Token} {file : String} {d : Diagnostic} {index other : Nat}

theorem not_lt (here : ReportedAt tokens file d index) (there : ReportedAt tokens file d other) :
    ¬ index < other := by
  intro before
  have same (line : UInt32) := Outcome.error.inj ((here.2 line).symm.trans (there.2 line))
  obtain ⟨read, few, left⟩ := d.fault.leaves_length
  have lengths := congrArg List.length (same 0).2
  rw [left, left, List.length_drop, List.length_drop] at lengths
  have bound := there.1
  -- Only the last token and the end of input leave equally much unread; their lines differ
  -- as soon as the end of input is moved.
  obtain rfl : other = tokens.length := by omega
  have inside : index < tokens.length := before
  have lines (line : UInt32) : tokens[index].line = line := by
    have position := congrArg (fun d => d.position.line) (same line).1
    rw [List.drop_eq_getElem_cons inside, List.drop_length] at position
    exact position
  exact absurd ((lines 0).symm.trans (lines 1)) (by decide)

theorem unique (here : ReportedAt tokens file d index) (there : ReportedAt tokens file d other) :
    index = other :=
  Nat.le_antisymm (Nat.le_of_not_lt (there.not_lt here)) (Nat.le_of_not_lt (here.not_lt there))

end ReportedAt

/-- An error is reported at the earliest token possible, with its line and text: up to it there
is a program to complete, and behind it the error is the same whatever follows. An error of the
nesting limit stays one. -/
theorem parse_error_earliest (tokens : List Token) (file : String) (d : Diagnostic)
    (failed : parse tokens file = .error d) :
    (∃ index, ReportedAt tokens file d index) ∧ ∀ index, ReportedAt tokens file d index →
      ((∀ limit, d.fault ≠ .nestingTooDeep limit) →
        (∃ more program, parse (tokens.take index ++ more) file = .ok program) ∧
        ∀ token, tokens[index]? = some token →
          (∀ more, parse (tokens.take (index + 1) ++ more) file = .error d) ∧
          d.position.line = token.line ∧
          ∀ text, d.fault.token? = some text → text = token.render) ∧
      ∀ limit, d.fault = .nestingTooDeep limit →
        ∀ more, ∃ d', parse (tokens.take index ++ more) file = .error d' ∧
          d'.fault = .nestingTooDeep limit := by
  obtain ⟨rest, read⟩ := parse_eq_error.mp failed
  obtain ⟨before, after, rfl, fails⟩ := Setting.readBody_fails rfl read
  have reported : ReportedAt (before ++ after) file d before.length := by
    refine ⟨by simp, ?_⟩
    intro line
    rw [List.drop_left]
    exact fails.reported line rfl
  refine ⟨⟨_, reported⟩, ?_⟩
  intro index here
  obtain rfl := here.unique reported
  rw [List.take_left]
  refine ⟨fun shallow => ⟨?_, ?_⟩, ?_⟩
  · obtain ⟨more, viable⟩ := fails.viable shallow
    obtain ⟨body, left, read⟩ := viable _
    exact ⟨more, ⟨body⟩, parse_eq_ok.mpr ⟨left, read⟩⟩
  · intro token found
    rw [← List.head?_drop, List.drop_left] at found
    obtain ⟨others, rfl⟩ := List.head?_eq_some_iff.mp found
    have whole := read.symm.trans (fails.reported _ rfl)
    obtain ⟨same, _⟩ := Outcome.error.inj whole
    have upTo : (before ++ token :: others).take (before.length + 1) = before ++ [token] :=
      List.take_length_add_append 1
    refine ⟨?_, by rw [same]; rfl, fails.text⟩
    intro more
    rw [upTo, List.append_assoc, parse_eq_error, same]
    exact ⟨_, fails.reported _ rfl⟩
  · intro limit deep more
    obtain ⟨d', left, again, fault⟩ := fails.tooDeep deep _ more
    exact ⟨d', parse_eq_error.mpr ⟨left, again⟩, fault⟩

/-- The tokens of `a + b =`. -/
def sumTarget : List Token :=
  [.identifier "a" 1, .bare .plus 1, .identifier "b" 1, .bare .assignment 2]

/-- A sum is complete on its own, but whatever is assigned to it, the assignment is at fault. -/
theorem parse_sumTarget :
    parse sumTarget "shell" = .error ⟨.invalidAssignmentTarget, ⟨2, "shell"⟩⟩ ∧
      (∃ more program, parse (sumTarget.take 3 ++ more) "shell" = .ok program) ∧
      ∀ more, parse (sumTarget ++ more) "shell" =
        .error ⟨.invalidAssignmentTarget, ⟨2, "shell"⟩⟩ := by
  have spelled : Grammar.standard.Spells .default
      ([.identifier "a" 1] ++ .bare .plus 1 :: [.identifier "b" 1]) _ _ :=
    .binary (.name rfl rfl) rfl (by decide) (by decide) (.name rfl rfl)
  have read (line : UInt32) : (Setting.mk .standard "shell" line).readBody sumTarget =
      .error ⟨.invalidAssignmentTarget, ⟨2, "shell"⟩⟩ [] := by
    have faults : (Setting.mk .standard "shell" line).Faults nestingLimit .default
        (sumTarget.take 3) (sumTarget.drop 3) ⟨.invalidAssignmentTarget, ⟨2, "shell"⟩⟩ [] :=
      .target spelled (by decide) nofun rfl (by decide) (by decide)
    apply Setting.readBody_of_error (by decide)
    exact Setting.readStmt_of_level_error faults.level_read_error
  have failed : parse sumTarget "shell" = .error ⟨.invalidAssignmentTarget, ⟨2, "shell"⟩⟩ :=
    parse_eq_error.mpr ⟨[], read 2⟩
  obtain ⟨_, earliest⟩ := parse_error_earliest sumTarget "shell" _ failed
  obtain ⟨shallow, _⟩ := earliest 3 ⟨by decide, read⟩
  obtain ⟨viable, stuck⟩ := shallow nofun
  obtain ⟨same, _⟩ := stuck (.bare .assignment 2) rfl
  exact ⟨failed, viable, same⟩

end ScriptFront
