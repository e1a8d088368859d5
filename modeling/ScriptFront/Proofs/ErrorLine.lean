import ScriptFront.Proofs.NormalText
import ScriptFront.Proofs.SourceLines

/-! Errors of the front end point at the source. The line of an error is one of its lines, so
that the report shows it, and the text that the error names stands on that line; only a
token that is not written on one line, or not as it is shown, is excepted. -/
namespace ScriptFront

/-- The token is written on one line, and shown as it is written. -/
structure Token.Inline (token : Token) : Prop where
  notNewLine : token.kind ≠ .newLine
  notEnd : token.kind ≠ .endOfInput
  notFloat : token.kind ≠ .float
  clear : ∀ contents, token.kind = .string → token.payload = .text contents →
    '\n' ∉ contents.toList

namespace Lexical

variable {text rest : List Char} {kind : TokenKind} {payload : Payload}

theorem getLast?_ne_of_notMem {c : Char} (absent : c ∉ text) : text.getLast? ≠ some c :=
  fun last => absent (List.mem_of_getLast? last)

theorem apart_return : Apart '\r' := Gap.apart (.inr (.inr rfl))

theorem joinables_inline :
    ∀ entry ∈ joinables, entry.1 ≠ '\n' ∧ entry.1 ≠ '\r' := by decide

theorem singles_inline :
    ∀ entry ∈ singles, entry.2 ≠ .newLine → entry.1 ≠ '\n' ∧ entry.1 ≠ '\r' := by decide

/-- The lexeme of such a token has no newline, and does not end in what a line may drop. -/
theorem Lexes.inline {line : UInt32} (lexes : Lexes text rest kind payload)
    (inline : (Token.mk kind payload line).Inline) :
    '\n' ∉ text ∧ text.getLast? ≠ some '\r' := by
  cases lexes with
  | keyword word longest _ =>
    exact ⟨longest.1.notMem apart_newline, getLast?_ne_of_notMem (longest.1.notMem apart_return)⟩
  | identifier longest _ =>
    exact ⟨longest.1.notMem apart_newline, getLast?_ne_of_notMem (longest.1.notMem apart_return)⟩
  | int longest _ _ _ _ =>
    exact ⟨longest.1.notMem apart_newline, getLast?_ne_of_notMem (longest.1.notMem apart_return)⟩
  | float => exact absurd rfl inline.notFloat
  | @string contents _ _ =>
    have clear := inline.clear _ rfl rfl
    rw [String.toList_ofList] at clear
    constructor
    · simpa using clear
    · rw [List.getLast?_concat]
      decide
  | joined member =>
    obtain ⟨newline, carriage⟩ := joinables_inline _ member
    constructor
    · simpa using newline.symm
    · simp
  | alone member _ =>
    obtain ⟨newline, carriage⟩ := joinables_inline _ member
    constructor
    · simpa using newline.symm
    · simpa using carriage
  | single member =>
    obtain ⟨newline, carriage⟩ := singles_inline _ member inline.notNewLine
    constructor
    · simpa using newline.symm
    · simpa using carriage
  | slash _ =>
    constructor <;> simp

/-- The text that a fault names is at the front of the illegal piece, without newlines. -/
theorem Illegal.named {fault : Fault} (illegal : Illegal text fault) {shown : String}
    (named : fault.token? = some shown) :
    (∃ rest, text = shown.toList ++ rest) ∧ '\n' ∉ shown.toList ∧
      shown.toList.getLast? ≠ some '\r' ∧ fault ≠ .unterminatedString := by
  cases illegal with
  | @unrecognised c rest _ _ gap newline _ _ =>
    cases Option.some.inj named
    have carriage : c ≠ '\r' := fun same => gap (.inr (.inr same))
    refine ⟨⟨rest, ?_⟩, ?_, ?_, nofun⟩
    · simp
    · simpa using newline.symm
    · simpa using carriage
  | unterminated => cases named
  | @malformed number c rest longest letter =>
    cases Option.some.inj named
    rw [String.toList_ofList]
    refine ⟨⟨rest, by simp⟩, ?_, ?_, nofun⟩
    · intro member
      rcases List.mem_append.mp member with member | member
      · exact longest.1.notMem apart_newline member
      · rw [← List.mem_singleton.mp member] at letter
        exact apart_newline.1 letter
    · intro last
      rw [List.getLast?_concat] at last
      rw [Option.some.inj last] at letter
      exact apart_return.1 letter
  | @outOfRange digits rest longest _ _ _ =>
    cases Option.some.inj named
    rw [String.toList_ofList]
    exact ⟨⟨rest, rfl⟩, longest.1.notMem apart_newline,
      getLast?_ne_of_notMem (longest.1.notMem apart_return), nofun⟩

theorem Illegal.phase {fault : Fault} (illegal : Illegal text fault) : fault.phase = .lexing := by
  cases illegal <;> rfl

end Lexical

section Tokenizing

variable {source : String} {file : Option String} {tokens : List Token} {d : Diagnostic}
  {text : String}

theorem tokenize_error_position (failed : tokenize source file = .error d) :
    d.phase = .lexing ∧ d.position.file = file.getD shellLabel := by
  have start : (Lexer.ofSource source file).line = UInt32.ofNat 1 := rfl
  obtain ⟨passed, rest, _, _, illegal, position⟩ := (Lexical.scanAll_eq_error_iff start).mp failed
  exact ⟨illegal.phase, by rw [position]; rfl⟩

end Tokenizing

section Parsing

variable {tokens : List Token} {file : String} {d : Diagnostic}

theorem Setting.Faults.phase {setting : Setting} {room : Nat} {power : Power}
    {used after rest : List Token} (faults : setting.Faults room power used after d rest) :
    d.phase = .parsing := by
  cases faults with
  | unclosed =>
    unfold diagnose Token.unclosed
    split <;> rfl
  | _ => rfl

theorem parse_error_phase (failed : parse tokens file = .error d) : d.phase = .parsing := by
  obtain ⟨rest, read⟩ := parse_eq_error.mp failed
  obtain ⟨_, _, _, _, _, _, step⟩ := Setting.readBody_error_cases rfl read
  obtain ⟨_, _, _, _, _, _, _, faults⟩ | ⟨_, _, _, _, _, _, _, rfl⟩ :=
    Setting.readStmt_error_cases rfl step
  · exact faults.phase
  · rfl

/-- A parse error is about the token that it is reported at. -/
theorem parse_error_reported (failed : parse tokens file = .error d) :
    ∃ index token, ReportedAt tokens file d index ∧
      (Setting.ofTokens .standard file tokens).current (tokens.drop index) = token ∧
      d.position = ⟨token.line, file⟩ ∧
      ∀ shown, d.fault.token? = some shown → shown = token.render := by
  obtain ⟨rest, read⟩ := parse_eq_error.mp failed
  obtain ⟨before, after, rfl, fails⟩ := Setting.readBody_fails rfl read
  obtain ⟨same, _⟩ := Outcome.error.inj (read.symm.trans (fails.reported _ rfl))
  refine ⟨before.length, _, ⟨by simp, ?_⟩, rfl, ?_, ?_⟩
  · intro line
    rw [List.drop_left]
    exact fails.reported line rfl
  · rw [List.drop_left, same]
    rfl
  · rw [List.drop_left]
    exact fails.text

theorem Setting.current_mem {setting : Setting} {index : Nat} {token : Token}
    (same : setting.current (tokens.drop index) = token) (notEnd : token.kind ≠ .endOfInput) :
    token ∈ tokens := by
  cases left : tokens.drop index with
  | nil =>
    rw [left] at same
    rw [← same] at notEnd
    exact absurd rfl notEnd
  | cons first others =>
    rw [left] at same
    rw [← same]
    exact List.mem_of_mem_drop (left ▸ List.mem_cons_self)

end Parsing

end ScriptFront
