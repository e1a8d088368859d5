import ScriptFront.Proofs.IntegerBound
import ScriptFront.Proofs.NumberText
import ScriptFront.Proofs.RoundingOrder
import ScriptFront.Proofs.TokenPayload

/-! Which floats are displayed as the language writes them. The text of a finite number is
digits with a point, or a number with an exponent; the lexer reads the first back as the
same token and takes the exponent for a letter that touches a number. So numbers from
`0.0001` up to below `10 ^ 16`, and zero, are read back, and no others. -/
namespace ScriptFront

open Lexical

section Reading

variable {whole fraction text : List Char} {x : Binary64}

theorem Lexical.e_notMem {digits : List Char} (all : ∀ c ∈ digits, Digit c) : 'e' ∉ digits :=
  fun member => absurd (all 'e' member) (by decide)

theorem Lexical.e_notMem_fraction (digits : Digits whole) (parts : Digits fraction) :
    'e' ∉ whole ++ '.' :: fraction := by
  simp [e_notMem digits.2, e_notMem parts.2]

theorem tokenize_fraction (digits : Digits whole) (parts : Digits fraction)
    (file : Option String) :
    tokenize (String.ofList (whole ++ '.' :: fraction)) file =
      .ok [.float (.ofDecimal (decimalValue (whole ++ fraction)) (-(fraction.length : Int))) 1,
        .bare .endOfInput 1] := by
  let lexer := Lexer.ofSource (String.ofList (whole ++ '.' :: fraction)) file
  have front : lexer.rest = whole ++ ('.' :: fraction ++ []) := by
    rw [List.append_nil]
    exact String.toList_ofList
  have digitless : ∀ c, ([] : List Char).head? = some c → ¬ Digit c := nofun
  have unlettered : Unlettered [] := nofun
  have step := step_float digits parts digitless unlettered front
  have last : ({ lexer with rest := [] } : Lexer).step =
      (.ok (.bare .endOfInput 1), { lexer with rest := [] }) :=
    step_eq_end (.none nofun (by simp))
  rw [tokenize, scanAll_of_step step nofun, scanAll_of_end last rfl]
  rfl

theorem Lexical.longest_before_exponent (digits : Digits whole) (parts : ∀ c ∈ fraction, Digit c)
    (exponent : List Char) :
    Longest Number (Lexeme.numberText whole fraction) ('e' :: exponent) := by
  have next : ∀ c, ('e' :: exponent).head? = some c → ¬ Digit c := by
    rintro _ ⟨⟩
    decide
  -- The point goes with the fraction, so without one the whole part touches the letter.
  cases fraction with
  | nil => exact longest_numberText digits next rfl
  | cons c fraction => exact longest_fraction digits ⟨List.cons_ne_nil c fraction, parts⟩ next

namespace Binary64.Writes

variable {file : Option String}

/-- A text without an exponent is read as the number it writes. -/
theorem tokenize_unmarked (writes : Writes text x) (unmarked : 'e' ∉ text) :
    tokenize (String.ofList text) file = .ok [.float x 1, .bare .endOfInput 1] := by
  cases writes with
  | positional whole fraction digits parts =>
    rw [← decimalValue_eq]
    exact tokenize_fraction digits parts file
  | scientific => simp at unmarked

/-- The letter of an exponent touches the number before it. -/
theorem tokenize_marked (writes : Writes text x) (marked : 'e' ∈ text) :
    ∃ d, tokenize (String.ofList text) file = .error d := by
  cases writes with
  | positional whole fraction digits parts => exact absurd marked (e_notMem_fraction digits parts)
  | scientific whole fraction exponent digits parts =>
    have longest := longest_before_exponent digits parts (toString exponent).toList
    have illegal := Illegal.malformed longest (.inr (.inl (by decide)))
    have trivia : Trivia [] (Lexeme.numberText whole fraction ++
        'e' :: (toString exponent).toList) := by
      rw [numberText_eq, List.append_assoc]
      exact trivia_digits digits _
    exact ⟨_, scanAll_of_error (step_eq_error trivia illegal (String.toList_ofList))⟩

end Binary64.Writes
end Reading

namespace Binary64

/-- The number is zero, or from `0.0001` up to below `10 ^ 16`. -/
def InPositionalRange (x : Binary64) : Prop :=
  x.magnitude = 0 ∨ powerMagnitude (-4) ≤ x.magnitude ∧ x.magnitude < powerMagnitude 16

instance (x : Binary64) : Decidable x.InPositionalRange := inferInstanceAs (Decidable (_ ∨ _))

theorem e_notMem_positional {digits : List Char} (all : ∀ c ∈ digits, Digit c) (exponent : Int) :
    'e' ∉ positional digits exponent := by
  have taken (n : Nat) : 'e' ∉ digits.take n :=
    fun member => e_notMem all (List.mem_of_mem_take member)
  have dropped (n : Nat) : 'e' ∉ digits.drop n :=
    fun member => e_notMem all (List.mem_of_mem_drop member)
  unfold positional
  split
  · simp [e_notMem all]
  · dsimp only
    split <;> simp [taken, dropped]

theorem Decimal.e_mem_render (d : Decimal) : 'e' ∈ d.render ↔ ¬ isPositional d.leading := by
  have digits := digit_dropTrailingZeros (digits_toDigits d.digits).2
  unfold render leading
  dsimp only
  split
  · rename_i positional
    simp [positional, e_notMem_positional digits]
  · rename_i scientific
    simp [scientific, Binary64.scientific]

theorem isPositional_shortest {magnitude : Nat} (positive : 0 < magnitude)
    (finite : magnitude < infinite) :
    isPositional (shortest magnitude).leading ↔
      powerMagnitude (-4) ≤ magnitude ∧ magnitude < powerMagnitude 16 := by
  have low : (-4 : Int) ≤ (shortest (powerMagnitude (-4))).leading := by decide +kernel
  have high : (16 : Int) ≤ (shortest (powerMagnitude 16)).leading := by decide +kernel
  rw [isPositional, decide_eq_true_iff, le_leading_shortest positive finite low, ← Int.not_le,
    le_leading_shortest positive finite high, Nat.not_le]

theorem e_notMem_renderMagnitude {magnitude : Nat} (finite : magnitude < infinite) :
    'e' ∉ renderMagnitude magnitude ↔ (ofMagnitude magnitude).InPositionalRange := by
  rw [InPositionalRange, magnitude_ofMagnitude (Nat.le_of_lt finite)]
  unfold renderMagnitude
  split
  · rename_i zero
    simp [zero]
  · rename_i nonzero
    rw [if_neg (Nat.ne_of_lt finite), Decimal.e_mem_render, not_not,
      isPositional_shortest (Nat.pos_of_ne_zero nonzero) finite]
    simp [nonzero]

theorem render_ofMagnitude {magnitude : Nat} (finite : magnitude < infinite) :
    (ofMagnitude magnitude).render = String.ofList (renderMagnitude magnitude) := by
  rw [← toList_render_ofMagnitude finite, String.ofList_toList]

theorem render_infinite : (ofMagnitude infinite).render = "inf" := by
  decide +kernel

theorem not_positionalRange_infinite : ¬ (ofMagnitude infinite).InPositionalRange := by
  rw [InPositionalRange, magnitude_ofMagnitude (Nat.le_refl _)]
  rintro (zero | ⟨_, below⟩)
  · exact absurd zero (by decide)
  · exact absurd below (Nat.not_lt_of_le (powerMagnitude_le_infinite 16))

end Binary64

/-- The infinite is displayed as a name. -/
theorem tokenize_inf (file : Option String) :
    tokenize "inf" file = .ok [.identifier "inf" 1, .bare .endOfInput 1] := by
  have splits := (tokenize_eq_ok_iff "inf" none _).mp (show tokenize "inf" none = .ok
    [.identifier "inf" 1, .bare .endOfInput 1] by decide +kernel)
  exact (tokenize_eq_ok_iff "inf" file _).mpr splits

/-- Digits with a point are always read as a float. The text that the float is displayed as is
read as it again exactly if it is zero or from `0.0001` up to below `10 ^ 16`, where the
display writes no exponent. -/
theorem tokenize_render_float (whole fraction : List Char) (file : Option String)
    (digits : Digits whole) (parts : Digits fraction) :
    ∃ value, tokenize (String.ofList (whole ++ '.' :: fraction)) file =
        .ok [.float value 1, .bare .endOfInput 1] ∧
      (tokenize (Token.float value 1).render file = .ok [.float value 1, .bare .endOfInput 1] ↔
        value.InPositionalRange) := by
  obtain ⟨magnitude, bound, same⟩ := Binary64.ofDecimal_eq
    (Nat.ofDigitChars 10 (whole ++ fraction) 0) (-(fraction.length : Int))
  have writes := Binary64.Writes.positional whole fraction digits parts
  rw [same] at writes
  refine ⟨_, writes.tokenize_unmarked (e_notMem_fraction digits parts), ?_⟩
  change tokenize (Binary64.ofMagnitude magnitude).render file = _ ↔ _
  obtain finite | rfl := Nat.lt_or_eq_of_le bound
  · rw [Binary64.render_ofMagnitude finite, ← Binary64.e_notMem_renderMagnitude finite]
    have writes := Binary64.renderMagnitude_writes finite
    constructor
    · intro read marked
      obtain ⟨d, failed⟩ := writes.tokenize_marked marked
      cases failed.symm.trans read
    · exact writes.tokenize_unmarked
  · rw [Binary64.render_infinite, tokenize_inf]
    refine iff_of_false ?_ Binary64.not_positionalRange_infinite
    intro same
    cases same

/-- Of `0.0700` the zeros behind are lost, and the float stays. -/
theorem tokenize_render_sevenHundredths :
    ∃ value, tokenize "0.0700" none = .ok [.float value 1, .bare .endOfInput 1] ∧
      (Token.float value 1).render = "0.07" ∧
      tokenize "0.07" none = .ok [.float value 1, .bare .endOfInput 1] := by
  have read : tokenize "0.0700" none =
      .ok [.float (.ofDecimal 700 (-4)) 1, .bare .endOfInput 1] := by
    decide +kernel
  have text : (Token.float (.ofDecimal 700 (-4)) 1).render = "0.07" := by
    decide +kernel
  obtain ⟨value, again, back⟩ := tokenize_render_float ['0'] ['0', '7', '0', '0'] none
    (.of_all (by decide) (by decide)) (.of_all (by decide) (by decide))
  obtain ⟨same, _⟩ := List.cons.inj (Except.ok.inj (again.symm.trans read))
  obtain rfl : value = .ofDecimal 700 (-4) := Payload.float.inj (congrArg Token.payload same)
  rw [text] at back
  exact ⟨_, read, text, back.mpr (by decide +kernel)⟩

/-- Ten to the sixteenth power is displayed with an exponent, which no number can have. -/
theorem tokenize_render_exponent :
    tokenize "10000000000000000.0" none =
        .ok [.float (.ofDecimal 1 16) 1, .bare .endOfInput 1] ∧
      (Token.float (.ofDecimal 1 16) 1).render = "1e16" ∧
      tokenize "1e16" none = .error ⟨.malformedNumber "1e", ⟨1, "shell"⟩⟩ := by
  refine ⟨?_, ?_, ?_⟩ <;> decide +kernel

end ScriptFront
