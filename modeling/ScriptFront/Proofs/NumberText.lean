import ScriptFront.Proofs.Binary64ReadBack
import ScriptFront.Proofs.LexicalGrammar

/-! The texts of numbers read back. An integer is written by its digits, after a dash the
negative ones. A finite binary64 number is written by the digits of its shortest decimal,
with zeros dropped or added and a point or an exponent put in so that the value stays; so
no two of them are written alike, and none is written like an integer. -/
namespace ScriptFront

open Lexical

theorem Lexical.Digits.head {text : List Char} (digits : Digits text) :
    ∃ c more, text = c :: more ∧ Digit c := by
  obtain ⟨c, more, rfl⟩ := List.exists_cons_of_ne_nil digits.1
  exact ⟨c, more, rfl, digits.2 c List.mem_cons_self⟩

theorem digits_toDigits (n : Nat) : Digits (Nat.toDigits 10 n) :=
  ⟨Nat.toDigits_ne_nil, fun _ member =>
    digit_iff.mp (Nat.isDigit_of_mem_toDigits (by decide) (by decide) member)⟩

theorem toList_toString_int (i : Int) :
    (toString i).toList =
      if 0 ≤ i then Nat.toDigits 10 i.toNat else '-' :: Nat.toDigits 10 (-i).toNat := by
  rw [Int.toString_eq_repr, Int.repr_eq_if]
  split <;> simp [Nat.repr_eq_ofList_toDigits]

theorem mem_toString_int {i : Int} {c : Char} (member : c ∈ (toString i).toList) :
    Digit c ∨ c = '-' := by
  rw [toList_toString_int] at member
  split at member
  · exact .inl ((digits_toDigits _).2 c member)
  · rcases List.mem_cons.mp member with rfl | member
    · exact .inr rfl
    · exact .inl ((digits_toDigits _).2 c member)

/-- The integer that a text writes. -/
def readInt : List Char → Int
  | '-' :: digits => -(Nat.ofDigitChars 10 digits 0 : Int)
  | digits => Nat.ofDigitChars 10 digits 0

theorem readInt_digits {digits : List Char} (all : ∀ c ∈ digits, Digit c) :
    readInt digits = Nat.ofDigitChars 10 digits 0 := by
  unfold readInt
  split
  · exact absurd (all '-' List.mem_cons_self) (by decide)
  · rfl

theorem readInt_toString (i : Int) : readInt (toString i).toList = i := by
  rw [toList_toString_int]
  split
  · rw [readInt_digits (digits_toDigits _).2, Nat.ofDigitChars_ten_toDigits]
    omega
  · rw [readInt, Nat.ofDigitChars_ten_toDigits]
    omega

namespace Binary64

def readExponent : List Char → Int
  | 'e' :: text => readInt text
  | _ => 0

/-- The number that a text writes: digits, a fraction if there is one, an exponent if
there is one. -/
def read (text : List Char) : Binary64 :=
  let rest := text.dropWhile Char.isDigit
  let fraction := Lexeme.fractionDigits rest
  ofDecimal (Nat.ofDigitChars 10 (text.takeWhile Char.isDigit ++ fraction) 0)
    (readExponent (rest.dropWhile (· != 'e')) - fraction.length)

theorem takeWhile_digits {text : List Char} (digits : ∀ c ∈ text, Digit c) (more : List Char) :
    (text ++ more).takeWhile Char.isDigit = text ++ more.takeWhile Char.isDigit :=
  List.takeWhile_append_of_pos fun c member => digit_iff.mpr (digits c member)

theorem dropWhile_digits {text : List Char} (digits : ∀ c ∈ text, Digit c) (more : List Char) :
    (text ++ more).dropWhile Char.isDigit = more.dropWhile Char.isDigit :=
  List.dropWhile_append_of_pos fun c member => digit_iff.mpr (digits c member)

theorem digits_stop {rest : List Char} (next : ∀ c, rest.head? = some c → ¬ Digit c) :
    rest.takeWhile Char.isDigit = [] ∧ rest.dropWhile Char.isDigit = rest := by
  cases rest with
  | nil => exact ⟨rfl, rfl⟩
  | cons c rest =>
    have other : ¬ c.isDigit := fun digit => next c rfl (digit_iff.mp digit)
    exact ⟨List.takeWhile_cons_of_neg other, List.dropWhile_cons_of_neg other⟩

theorem dropWhile_fraction {fraction : List Char} (digits : ∀ c ∈ fraction, Digit c)
    (more : List Char) :
    ('.' :: fraction ++ more).dropWhile (· != 'e') = more.dropWhile (· != 'e') := by
  apply List.dropWhile_append_of_pos
  intro c member
  rw [bne_iff_ne]
  rintro rfl
  rcases List.mem_cons.mp member with same | member
  · exact absurd same (by decide)
  · exact absurd (digits 'e' member) (by decide)

theorem fractionDigits_append {fraction : List Char} (digits : ∀ c ∈ fraction, Digit c)
    (tail : List Char) (next : tail.takeWhile Char.isDigit = []) :
    Lexeme.fractionDigits ('.' :: fraction ++ tail) = fraction :=
  (takeWhile_digits digits tail).trans (by rw [next, List.append_nil])

theorem read_append {whole fraction rest : List Char} {exponent : Int}
    (digits : ∀ c ∈ whole, Digit c) (next : ∀ c, rest.head? = some c → ¬ Digit c)
    (point : Lexeme.fractionDigits rest = fraction)
    (mark : readExponent (rest.dropWhile (· != 'e')) = exponent) :
    read (whole ++ rest) =
      ofDecimal (Nat.ofDigitChars 10 (whole ++ fraction) 0) (exponent - fraction.length) := by
  simp only [read, takeWhile_digits digits, dropWhile_digits digits, digits_stop next,
    List.append_nil, point, mark]

/-- The text writes the number, with a fraction or with an exponent. -/
inductive Writes : List Char → Binary64 → Prop where
  | positional (whole fraction) : Digits whole → Digits fraction →
      Writes (whole ++ '.' :: fraction)
        (ofDecimal (Nat.ofDigitChars 10 (whole ++ fraction) 0) (-(fraction.length : Int)))
  | scientific (whole fraction) (exponent : Int) : Digits whole → (∀ c ∈ fraction, Digit c) →
      Writes (Lexeme.numberText whole fraction ++ 'e' :: (toString exponent).toList)
        (ofDecimal (Nat.ofDigitChars 10 (whole ++ fraction) 0) (exponent - fraction.length))

theorem numberText_eq (whole fraction : List Char) :
    Lexeme.numberText whole fraction =
      whole ++ if fraction.isEmpty then [] else '.' :: fraction := by
  unfold Lexeme.numberText
  split <;> simp

namespace Writes

variable {text : List Char} {x : Binary64}

/-- A text writes at most one number. -/
theorem read_eq (writes : Writes text x) : read text = x := by
  have point (rest : List Char) : ∀ c, ('.' :: rest).head? = some c → ¬ Digit c := by
    rintro _ ⟨⟩
    decide
  have mark (rest : List Char) : ∀ c, ('e' :: rest).head? = some c → ¬ Digit c := by
    rintro _ ⟨⟩
    decide
  cases writes with
  | positional whole fraction digits digits' =>
    have fraction_eq := fractionDigits_append digits'.2 [] rfl
    have exponent_eq := congrArg readExponent (dropWhile_fraction digits'.2 [])
    rw [List.append_nil] at fraction_eq exponent_eq
    rw [read_append digits.2 (point fraction) fraction_eq exponent_eq]
    exact congrArg (ofDecimal _) (Int.zero_sub _)
  | scientific whole fraction exponent digits digits' =>
    have exponent_eq := readInt_toString exponent
    cases fraction with
    | nil => exact read_append digits.2 (mark _) rfl exponent_eq
    | cons c fraction =>
      rw [numberText_eq, List.append_assoc]
      refine read_append digits.2 (point _) (fractionDigits_append digits' _ rfl) ?_
      exact (congrArg readExponent (dropWhile_fraction digits' _)).trans exponent_eq

theorem head (writes : Writes text x) : ∃ c more, text = c :: more ∧ Digit c := by
  obtain ⟨whole, more, rfl, digits⟩ : ∃ whole more, text = whole ++ more ∧ Digits whole := by
    cases writes with
    | positional whole fraction digits _ => exact ⟨_, _, rfl, digits⟩
    | scientific whole fraction exponent digits _ =>
      rw [numberText_eq, List.append_assoc]
      exact ⟨_, _, rfl, digits⟩
  obtain ⟨c, rest, rfl, digit⟩ := digits.head
  exact ⟨c, rest ++ more, rfl, digit⟩

theorem chars (writes : Writes text x) : ∀ c ∈ text, Digit c ∨ c ∈ ['.', 'e', '-'] := by
  intro c member
  cases writes with
  | positional whole fraction digits digits' =>
    rcases List.mem_append.mp member with member | member
    · exact .inl (digits.2 c member)
    · rcases List.mem_cons.mp member with rfl | member
      · exact .inr (by decide)
      · exact .inl (digits'.2 c member)
  | scientific whole fraction exponent digits digits' =>
    rw [numberText_eq, List.append_assoc] at member
    rcases List.mem_append.mp member with member | member
    · exact .inl (digits.2 c member)
    rcases List.mem_append.mp member with member | member
    · split at member
      · cases member
      · rcases List.mem_cons.mp member with rfl | member
        · exact .inr (by decide)
        · exact .inl (digits' c member)
    · rcases List.mem_cons.mp member with rfl | member
      · exact .inr (by decide)
      · rcases mem_toString_int member with digit | rfl
        · exact .inl digit
        · exact .inr (by decide)

theorem marked (writes : Writes text x) : '.' ∈ text ∨ 'e' ∈ text := by
  cases writes with
  | positional => exact .inl (by simp)
  | scientific => exact .inr (by simp)

end Writes

theorem dropTrailingZeros_append (digits : List Char) :
    ∃ zeros, dropTrailingZeros digits ++ List.replicate zeros '0' = digits := by
  have zeros : ∀ c ∈ digits.reverse.takeWhile (· == '0'), c = '0' := by
    intro c member
    have held := List.mem_takeWhile_imp member
    exact eq_of_beq held
  have split := congrArg List.reverse
    (List.takeWhile_append_dropWhile (p := (· == '0')) (l := digits.reverse))
  rw [List.reverse_append, List.reverse_reverse, List.eq_replicate_iff.mpr ⟨rfl, zeros⟩,
    List.reverse_replicate] at split
  exact ⟨_, split⟩

theorem digit_dropTrailingZeros {digits : List Char} (all : ∀ c ∈ digits, Digit c) :
    ∀ c ∈ dropTrailingZeros digits, Digit c := by
  intro c member
  obtain ⟨zeros, split⟩ := dropTrailingZeros_append digits
  apply all
  rw [← split]
  exact List.mem_append_left _ member

theorem ofDigitChars_append_zeros (digits : List Char) (zeros : Nat) :
    Nat.ofDigitChars 10 (digits ++ List.replicate zeros '0') 0 =
      Nat.ofDigitChars 10 digits 0 * 10 ^ zeros := by
  rw [Nat.ofDigitChars_append, Nat.ofDigitChars_replicate_zero, Nat.mul_comm]

theorem ofDigitChars_zeros_append (digits : List Char) (zeros : Nat) :
    Nat.ofDigitChars 10 (List.replicate zeros '0' ++ digits) 0 = Nat.ofDigitChars 10 digits 0 := by
  rw [Nat.ofDigitChars_append, Nat.ofDigitChars_replicate_zero, Nat.mul_zero]

theorem digit_zeros (n : Nat) : ∀ c ∈ List.replicate n '0', Digit c := by
  intro c member
  rw [List.eq_of_mem_replicate member]
  decide

/-- Zeros stand before the digits. -/
theorem positional_writes_of_neg {digits : List Char} (some : Digits digits) {exponent : Int}
    (negative : exponent < 0) :
    Writes (positional digits exponent)
      (ofDecimal (Nat.ofDigitChars 10 digits 0) (exponent + 1 - digits.length)) := by
  have fraction : Digits (List.replicate (-exponent - 1).toNat '0' ++ digits) := by
    refine ⟨by simp [some.1], ?_⟩
    intro c member
    exact (List.mem_append.mp member).elim (digit_zeros _ c) (some.2 c)
  have writes := Writes.positional (List.replicate 1 '0') _ ⟨by simp, digit_zeros 1⟩ fraction
  have place : exponent + 1 - (digits.length : Int) =
      -((List.replicate (-exponent - 1).toNat '0' ++ digits).length : Int) := by
    rw [List.length_append, List.length_replicate]
    omega
  rw [ofDigitChars_zeros_append, ofDigitChars_zeros_append, ← place] at writes
  rw [positional, if_pos negative]
  exact writes

/-- The point stands between the digits, or behind them and the zeros they lack. -/
theorem positional_writes_of_nonneg {digits : List Char} (some : Digits digits) {exponent : Int}
    (nonnegative : ¬ exponent < 0) :
    Writes (positional digits exponent)
      (ofDecimal (Nat.ofDigitChars 10 digits 0) (exponent + 1 - digits.length)) := by
  obtain ⟨places, rfl⟩ := Int.eq_ofNat_of_zero_le (Int.not_lt.mp nonnegative)
  simp only [positional, if_neg nonnegative, Int.toNat_natCast]
  by_cases within : places + 1 < digits.length
  · have inside : digits.drop (places + 1) ≠ [] := by simpa using within
    have first : digits.take (places + 1) ≠ [] := by simpa using some.1
    have writes := Writes.positional (digits.take (places + 1)) (digits.drop (places + 1))
      ⟨first, fun c member => some.2 c (List.mem_of_mem_take member)⟩
      ⟨inside, fun c member => some.2 c (List.mem_of_mem_drop member)⟩
    have place : (places : Int) + 1 - digits.length =
        -((digits.drop (places + 1)).length : Int) := by
      rw [List.length_drop]
      omega
    rw [List.take_append_drop, ← place] at writes
    simpa [inside, Nat.sub_eq_zero_of_le (Nat.le_of_lt within)] using writes
  · have behind : digits.drop (places + 1) = [] := List.drop_eq_nil_of_le (Nat.le_of_not_lt within)
    have whole : Digits (digits ++ List.replicate (places + 1 - digits.length) '0') := by
      refine ⟨by simp [some.1], ?_⟩
      intro c member
      exact (List.mem_append.mp member).elim (some.2 c) (digit_zeros _ c)
    have writes := Writes.positional _ (List.replicate 1 '0') whole ⟨by simp, digit_zeros 1⟩
    have place : (places : Int) + 1 - digits.length =
        -((List.replicate 1 '0').length : Int) +
          ((places + 1 - digits.length + 1 : Nat) : Int) := by
      rw [List.length_replicate]
      omega
    rw [List.append_assoc digits _ (List.replicate 1 '0'), List.replicate_append_replicate,
      ofDigitChars_append_zeros, ofDecimal_mul_pow, ← place] at writes
    simpa [behind, List.take_of_length_le (Nat.le_of_not_lt within)] using writes

theorem scientific_writes {digits : List Char} (some : Digits digits) (exponent : Int) :
    Writes (scientific digits exponent)
      (ofDecimal (Nat.ofDigitChars 10 digits 0) (exponent + 1 - digits.length)) := by
  obtain ⟨c, fraction, rfl⟩ := List.exists_cons_of_ne_nil some.1
  obtain ⟨first, others⟩ := List.forall_mem_cons.mp some.2
  have writes := Writes.scientific [c] fraction exponent ⟨by simp, by simpa using first⟩ others
  have place : exponent + 1 - ((c :: fraction).length : Int) = exponent - fraction.length := by
    rw [List.length_cons]
    omega
  rw [numberText_eq] at writes
  rw [place]
  exact writes

theorem Decimal.render_writes (d : Decimal) (positive : 0 < d.digits) :
    Writes d.render (ofDecimal d.digits d.exponent) := by
  obtain ⟨zeros, split⟩ := dropTrailingZeros_append (Nat.toDigits 10 d.digits)
  have value : Nat.ofDigitChars 10 (dropTrailingZeros (Nat.toDigits 10 d.digits)) 0 * 10 ^ zeros =
      d.digits := by
    rw [← ofDigitChars_append_zeros, split, Nat.ofDigitChars_ten_toDigits]
  have some : Digits (dropTrailingZeros (Nat.toDigits 10 d.digits)) := by
    constructor
    · intro none
      rw [none, Nat.ofDigitChars_nil, Nat.zero_mul] at value
      omega
    · exact digit_dropTrailingZeros (digits_toDigits d.digits).2
  have place : d.exponent + ((Nat.toDigits 10 d.digits).length : Int) - 1 + 1 -
      ((dropTrailingZeros (Nat.toDigits 10 d.digits)).length : Int) = d.exponent + zeros := by
    have length := congrArg List.length split
    rw [List.length_append, List.length_replicate] at length
    omega
  have read : ofDecimal d.digits d.exponent =
      ofDecimal (Nat.ofDigitChars 10 (dropTrailingZeros (Nat.toDigits 10 d.digits)) 0)
        (d.exponent + zeros) := by
    rw [← ofDecimal_mul_pow, value]
  rw [read, ← place, render]
  split
  · by_cases negative : d.exponent + ((Nat.toDigits 10 d.digits).length : Int) - 1 < 0
    · exact positional_writes_of_neg some negative
    · exact positional_writes_of_nonneg some negative
  · exact scientific_writes some _

/-- The text of a finite number writes it. -/
theorem renderMagnitude_writes {magnitude : Nat} (finite : magnitude < infinite) :
    Writes (renderMagnitude magnitude) (ofMagnitude magnitude) := by
  unfold renderMagnitude
  split
  · rename_i zero
    rw [zero, ← ofDecimal_zero (-1)]
    exact .positional ['0'] ['0'] ⟨by simp, digit_zeros 1⟩ ⟨by simp, digit_zeros 1⟩
  · rename_i nonzero
    rw [if_neg (Nat.ne_of_lt finite), ← ofDecimal_of_magnitude (shortest_magnitude finite)]
    have positive := shortest_digits_pos (Nat.pos_of_ne_zero nonzero) finite
    exact (shortest magnitude).render_writes positive

theorem toList_render_ofMagnitude {magnitude : Nat} (finite : magnitude < infinite) :
    (ofMagnitude magnitude).render.toList = renderMagnitude magnitude := by
  have same := magnitude_ofMagnitude (Nat.le_of_lt finite)
  have number : (ofMagnitude magnitude).isNaN = false := by
    simp [isNaN, same, Nat.le_of_lt finite]
  have positive : (ofMagnitude magnitude).isNegative = false := by
    have small := infinite_lt
    rw [isNegative, toNat_ofMagnitude (Nat.le_of_lt finite), signPlace, Nat.pow_eq,
      decide_eq_false_iff_not]
    omega
  simp [render, number, positive, same]

end Binary64
end ScriptFront
