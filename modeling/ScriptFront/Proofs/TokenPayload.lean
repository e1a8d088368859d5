import ScriptFront.Proofs.LexicalGrammar

/-! A token may be built with any payload, but tokenizing gives each kind the payload it
calls for: a name its word, a string its contents, a number its value, and any other kind
none. -/
namespace ScriptFront

open Lexical

/-- The payload is one that a lexeme of the kind can have. -/
def Token.Fits (token : Token) : Prop :=
  match token.kind, token.payload with
  | .identifier, .text name => Word name.toList ∧ ∀ word : Keyword, name ≠ word.spelling
  | .string, .text contents => '"' ∉ contents.toList
  | .int, .int value => 0 ≤ value.toInt
  | .float, .float value => ∃ magnitude ≤ Binary64.infinite, value = .ofMagnitude magnitude
  | .identifier, _ | .string, _ | .int, _ | .float, _ => False
  | _, payload => payload = .absent

namespace Token.Fits

variable {token : Token}

theorem name {text : String} (fits : token.Fits) (kind : token.kind = .identifier)
    (payload : token.payload = .text text) : Word text.toList := by
  simp only [Fits, kind, payload] at fits
  exact fits.1

theorem contents {text : String} (fits : token.Fits) (kind : token.kind = .string)
    (payload : token.payload = .text text) : '"' ∉ text.toList := by
  simpa only [Fits, kind, payload] using fits

theorem int {value : Int64} (fits : token.Fits) (kind : token.kind = .int)
    (payload : token.payload = .int value) : 0 ≤ value.toInt := by
  simpa only [Fits, kind, payload] using fits

theorem float {value : Binary64} (fits : token.Fits) (kind : token.kind = .float)
    (payload : token.payload = .float value) :
    ∃ magnitude ≤ Binary64.infinite, value = .ofMagnitude magnitude := by
  simpa only [Fits, kind, payload] using fits

end Token.Fits

namespace Lexical

theorem joinables_absent {c : Char} {alone joined : TokenKind} (line : UInt32)
    (member : (c, alone, joined) ∈ joinables) :
    (Token.bare alone line).Fits ∧ (Token.bare joined line).Fits := by
  simp only [joinables, List.mem_cons, Prod.mk.injEq, List.not_mem_nil, or_false] at member
  rcases member with ⟨_, rfl, rfl⟩ | ⟨_, rfl, rfl⟩ | ⟨_, rfl, rfl⟩ | ⟨_, rfl, rfl⟩ <;>
    exact ⟨rfl, rfl⟩

theorem singles_absent {c : Char} {kind : TokenKind} (line : UInt32)
    (member : (c, kind) ∈ singles) : (Token.bare kind line).Fits := by
  simp only [singles, List.mem_cons, Prod.mk.injEq, List.not_mem_nil, or_false] at member
  rcases member with ⟨_, rfl⟩ | ⟨_, rfl⟩ | ⟨_, rfl⟩ | ⟨_, rfl⟩ | ⟨_, rfl⟩ | ⟨_, rfl⟩ | ⟨_, rfl⟩ |
    ⟨_, rfl⟩ | ⟨_, rfl⟩ <;> rfl

theorem Lexes.fits {text rest : List Char} {kind : TokenKind} {payload : Payload}
    (lexes : Lexes text rest kind payload) (line : UInt32) :
    (Token.mk kind payload line).Fits := by
  cases lexes with
  | keyword | slash => rfl
  | identifier longest free =>
    constructor
    · rw [String.toList_ofList]
      exact longest.1
    · rintro word same
      apply free word
      rw [← same, String.toList_ofList]
  | int _ _ _ _ value =>
    simp only [Token.Fits, value]
    exact Int.natCast_nonneg _
  | float _ _ _ _ nearest => exact ⟨_, nearest.magnitude_le, nearest.eq_ofMagnitude⟩
  | string clear => simpa only [Token.Fits, String.toList_ofList] using clear
  | joined member => exact (joinables_absent line member).2
  | alone member => exact (joinables_absent line member).1
  | single member => exact singles_absent line member

theorem Splits.fits {line : Nat} {text : List Char} {tokens : List Token}
    (splits : Splits line text tokens) : ∀ token ∈ tokens, token.Fits := by
  induction splits with
  | done =>
    intro token member
    cases List.mem_singleton.mp member
    rfl
  | next _ lexes _ ih =>
    intro token member
    rcases List.mem_cons.mp member with rfl | member
    · exact lexes.fits _
    · exact ih token member

end Lexical

/-- Every token of a source fits. -/
theorem tokenize_fits {source : String} {file : Option String} {tokens : List Token}
    (read : tokenize source file = .ok tokens) : ∀ token ∈ tokens, token.Fits :=
  (Splits.of_scanAll rfl read).fits

end ScriptFront
