import ScriptFront.Proofs.ByteLexer

/-! The byte offsets of a lexer stay between the characters of its source, and every step but
the last moves them on. A byte lexer tracks a lexer through any calls: it gives the same
answers, so none of its slices fails and none of its loops takes more rounds than there are
characters, with one more. -/
namespace ScriptFront

open Lexical

namespace ByteLexer

variable {lexer : Lexer}

/-- The byte lexer is where the lexer is in the source. -/
def Tracks (source : String) (lexer : Lexer) (cursor : ByteLexer) : Prop :=
  ∃ before text, source.toList = before ++ (text ++ lexer.rest) ∧
    cursor = ofSplit before text lexer.rest lexer

/-- The offsets are in order, within the source and between its characters. -/
structure InBounds (cursor : ByteLexer) : Prop where
  order : cursor.start ≤ cursor.current
  within : cursor.current ≤ cursor.source.utf8ByteSize
  start : (⟨cursor.start⟩ : String.Pos.Raw).IsValid cursor.source
  current : (⟨cursor.current⟩ : String.Pos.Raw).IsValid cursor.source

namespace Tracks

variable {source : String} {cursor : ByteLexer}

theorem start (source : String) (file : Option String) :
    Tracks source (Lexer.ofSource source file) (ofSource source file) := by
  refine ⟨[], [], rfl, ?_⟩
  simp only [ofSplit, Lexer.ofSource, List.nil_append, String.ofList_toList]
  rfl

theorem source_eq (tracks : Tracks source lexer cursor) : cursor.source = source := by
  obtain ⟨before, text, split, rfl⟩ := tracks
  exact (congrArg String.ofList split.symm).trans String.ofList_toList

theorem finished_eq (tracks : Tracks source lexer cursor) : cursor.finished = lexer.finished := by
  obtain ⟨before, text, split, rfl⟩ := tracks
  rfl

theorem withFinished (tracks : Tracks source lexer cursor) (ended : Bool) :
    Tracks source { lexer with finished := ended } { cursor with finished := ended } := by
  obtain ⟨before, text, split, rfl⟩ := tracks
  exact ⟨before, text, split, rfl⟩

theorem textFrom? (tracks : Tracks source lexer cursor) :
    cursor.textFrom? cursor.current = some lexer.rest := by
  obtain ⟨before, text, split, rfl⟩ := tracks
  exact textFrom?_current before text lexer.rest lexer

/-- What is read and what is left make up the source. -/
theorem current_add (tracks : Tracks source lexer cursor) :
    cursor.current + bytes lexer.rest = source.utf8ByteSize := by
  obtain ⟨before, text, split, rfl⟩ := tracks
  rw [← source.ofList_toList, split, ← List.append_assoc]
  exact (bytes_append (before ++ text) lexer.rest).symm

theorem inBounds (tracks : Tracks source lexer cursor) : cursor.InBounds := by
  have whole := tracks.current_add
  have same := tracks.source_eq
  obtain ⟨before, text, split, rfl⟩ := tracks
  constructor
  · rw [ofSplit, bytes_append]
    exact Nat.le_add_right _ _
  · rw [same, ← whole]
    exact Nat.le_add_right _ _
  · exact isValid_bytes before (text ++ lexer.rest)
  · rw [ofSplit, ← List.append_assoc]
    exact isValid_bytes (before ++ text) lexer.rest

theorem rest_le (tracks : Tracks source lexer cursor) : lexer.rest.length ≤ source.length := by
  obtain ⟨before, text, split, _⟩ := tracks
  rw [← String.length_toList, split, List.length_append, List.length_append]
  omega

theorem step (tracks : Tracks source lexer cursor) {rounds : Nat}
    (enough : lexer.rest.length ≤ rounds) :
    ∃ next, cursor.step (rounds + 1) = some (lexer.step.1, next) ∧
      Tracks source lexer.step.2 next := by
  obtain ⟨before, text, split, rfl⟩ := tracks
  obtain ⟨run, front, trivia⟩ := Trivia.of_skipTrivia lexer.rest
  cases behind : Lexeme.skipTrivia lexer.rest with
  | nil =>
    rw [behind, List.append_nil] at front
    rw [behind] at trivia
    rw [step_eq_end (front ▸ trivia)]
    refine ⟨_, step_end (front ▸ trivia) enough, _, _, ?_, rfl⟩
    rw [List.append_nil, List.append_nil]
    exact split
  | cons c cs =>
    rw [behind] at front trivia
    have read : lexer.step = (lexer.locate (Lexeme.first c cs),
        lexer.pass (Lexeme.first c cs).text (Lexeme.first c cs).rest) := by
      simp only [Lexer.step, behind]
    rw [front] at enough
    rw [read, front, step_lexeme trivia enough]
    refine ⟨_, rfl, _, _, ?_, rfl⟩
    rw [split, front, ← Lexeme.first_split c cs]
    simp [Lexer.pass]

theorem scanAll (tracks : Tracks source lexer cursor) {rounds : Nat}
    (enough : lexer.rest.length ≤ rounds) :
    ∃ next, cursor.scanAll (rounds + 1) = some (lexer.scanAll.1, next) ∧
      Tracks source lexer.scanAll.2 next := by
  induction size : lexer.rest.length using Nat.strongRecOn generalizing lexer cursor rounds with
  | ind size ih =>
    subst size
    obtain ⟨next, step, after⟩ := tracks.step enough
    obtain ⟨result, left, read⟩ : ∃ result left, lexer.step = (result, left) := ⟨_, _, rfl⟩
    rw [read] at step after
    rw [ByteLexer.scanAll, step, Option.bind_eq_bind, Option.bind_some]
    cases result with
    | error d =>
      rw [scanAll_eq_of_error read]
      exact ⟨next, rfl, after⟩
    | ok token =>
      by_cases last : token.kind = .endOfInput
      · rw [scanAll_of_end read last]
        exact ⟨next, if_pos last, after⟩
      · -- A round is spent, but a character is read as well.
        have shorter := Nat.lt_of_lt_of_le (Lexer.step_shorter read last) enough
        obtain ⟨fewer, rfl⟩ := Nat.exists_eq_succ_of_ne_zero (Nat.ne_zero_of_lt shorter)
        obtain ⟨stop, scanned, still⟩ :=
          ih _ (Lexer.step_shorter read last) after (Nat.le_of_lt_succ shorter) rfl
        rw [scanAll_eq_of_step read last]
        refine ⟨stop, ?_, still⟩
        simp only [if_neg last, scanned, Option.bind_eq_bind, Option.bind_some]
        rfl

theorem next? (tracks : Tracks source lexer cursor) {rounds : Nat}
    (enough : lexer.rest.length ≤ rounds) :
    ∃ next, cursor.next? (rounds + 1) = some (lexer.next?.1, next) ∧
      Tracks source lexer.next?.2 next := by
  obtain ⟨next, step, after⟩ := tracks.step enough
  rw [ByteLexer.next?, Lexer.next?, tracks.finished_eq]
  split
  · exact ⟨cursor, rfl, tracks⟩
  · rw [step]
    exact ⟨_, rfl, after.withFinished _⟩

theorem answer (tracks : Tracks source lexer cursor) (call : Lexer.Call) :
    ∃ next, cursor.answer (source.length + 1) call = some ((lexer.answer call).1, next) ∧
      Tracks source (lexer.answer call).2 next := by
  cases call with
  | step =>
    obtain ⟨next, read, after⟩ := tracks.step tracks.rest_le
    exact ⟨next, by rw [ByteLexer.answer, read]; rfl, after⟩
  | next =>
    obtain ⟨next, read, after⟩ := tracks.next? tracks.rest_le
    exact ⟨next, by rw [ByteLexer.answer, read]; rfl, after⟩
  | scanAll =>
    obtain ⟨next, read, after⟩ := tracks.scanAll tracks.rest_le
    exact ⟨next, by rw [ByteLexer.answer, read]; rfl, after⟩

theorem answers (tracks : Tracks source lexer cursor) (calls : List Lexer.Call) :
    ∃ next, cursor.answers (source.length + 1) calls = some ((lexer.answers calls).1, next) ∧
      Tracks source (lexer.answers calls).2 next := by
  induction calls generalizing lexer cursor with
  | nil => exact ⟨cursor, rfl, tracks⟩
  | cons call calls ih =>
    obtain ⟨next, first, after⟩ := tracks.answer call
    obtain ⟨stop, more, last⟩ := ih after
    refine ⟨stop, ?_, last⟩
    simp only [ByteLexer.answers, first, more, Option.bind_eq_bind, Option.bind_some]
    rfl

end Tracks
end ByteLexer

namespace Lexer

variable (lexer : Lexer)

/-- The result is the end of input. -/
def GivesEnd (result : Except Diagnostic Token) : Prop :=
  ∃ token, result = .ok token ∧ token.kind = .endOfInput

/-- A step finds the end and leaves nothing, or it reads some text. -/
theorem step_progress :
    GivesEnd lexer.step.1 ∧ lexer.step.2.rest = [] ∨
      ¬ GivesEnd lexer.step.1 ∧ ∃ text, text ≠ [] ∧ lexer.rest = text ++ lexer.step.2.rest := by
  obtain ⟨run, split, trivia⟩ := Trivia.of_skipTrivia lexer.rest
  unfold step
  split
  · exact .inl ⟨⟨_, rfl, rfl⟩, rfl⟩
  · rename_i c cs front
    rw [front] at split trivia
    refine .inr ⟨?_, run ++ (Lexeme.first c cs).text, ?_, ?_⟩
    · rintro ⟨token, found, last⟩
      simp only [locate] at found
      split at found
      · rename_i content
        cases found
        exact (first_lexes trivia.noComment content).kind_ne last
      · cases found
    · exact List.append_ne_nil_of_right_ne_nil _ (Lexeme.first_text_ne_nil c cs)
    · rw [split, ← Lexeme.first_split c cs, List.append_assoc]
      rfl

variable {lexer}

/-- As many steps as characters are left, and one more, come to the end. -/
theorem answers_steps {steps : Nat} (few : lexer.rest.length ≤ steps) :
    ∃ result, (lexer.answers (List.replicate (steps + 1) .step)).1.getLast? = some (.step result) ∧
      GivesEnd result := by
  induction steps generalizing lexer with
  | zero =>
    refine ⟨lexer.step.1, rfl, ?_⟩
    obtain ⟨ended, _⟩ | ⟨_, text, some, split⟩ := lexer.step_progress
    · exact ended
    · rw [List.eq_nil_of_length_eq_zero (Nat.le_zero.mp few)] at split
      exact absurd (List.append_eq_nil_iff.mp split.symm).1 some
  | succ steps ih =>
    have shorter : lexer.step.2.rest.length ≤ steps := by
      obtain ⟨_, none⟩ | ⟨_, text, some, split⟩ := lexer.step_progress
      · rw [none]
        exact Nat.zero_le _
      · have sum := congrArg List.length split
        have positive := List.length_pos_iff.mpr some
        rw [List.length_append] at sum
        omega
    obtain ⟨result, last, ended⟩ := ih shorter
    refine ⟨result, ?_, ended⟩
    rw [List.replicate_succ, answers, List.getLast?_cons, answer, last]
    rfl

end Lexer

namespace ByteLexer

/-- After any calls, errors included, the byte lexer has given the answers of the lexer: no slice
was out of range or split a character, and no loop went on without end. Its offsets are in
order, and a step moves the cursor on unless it finds the end of input. -/
theorem answers_inBounds (source : String) (file : Option String) (calls : List Lexer.Call) :
    ∃ cursor, (ofSource source file).answers (source.length + 1) calls =
        some (((Lexer.ofSource source file).answers calls).1, cursor) ∧
      cursor.textFrom? cursor.current = some ((Lexer.ofSource source file).answers calls).2.rest ∧
      cursor.source = source ∧ cursor.InBounds ∧
      (∃ result next, cursor.step (source.length + 1) = some (result, next) ∧
        (Lexer.GivesEnd result ∧ next.current = source.utf8ByteSize ∨
          ¬ Lexer.GivesEnd result ∧ cursor.current < next.current)) ∧
      ∃ given result stop,
        cursor.answers (source.length + 1) (List.replicate (source.length + 1) .step) =
            some (given, stop) ∧
          given.getLast? = some (.step result) ∧ Lexer.GivesEnd result := by
  obtain ⟨cursor, given, tracks⟩ := (Tracks.start source file).answers calls
  refine ⟨cursor, given, tracks.textFrom?, tracks.source_eq, tracks.inBounds, ?_, ?_⟩
  · obtain ⟨next, step, after⟩ := tracks.step tracks.rest_le
    refine ⟨_, next, step, ?_⟩
    have before := tracks.current_add
    have behind := after.current_add
    obtain ⟨ended, none⟩ | ⟨going, text, some, split⟩ :=
      ((Lexer.ofSource source file).answers calls).2.step_progress
    · rw [none] at behind
      exact .inl ⟨ended, behind⟩
    · have positive := bytes_pos some
      rw [split, bytes_append] at before
      exact .inr ⟨going, by omega⟩
  · obtain ⟨result, last, ended⟩ := Lexer.answers_steps tracks.rest_le
    obtain ⟨stop, more, _⟩ := tracks.answers (List.replicate (source.length + 1) .step)
    exact ⟨_, result, stop, more, last, ended⟩

-- Offsets count bytes: the error has two of them and the string behind it four.
example : ((ofSource "é\"ü\"" none).answers 5 [.step, .step]).map
    (fun (given, cursor) => (given, cursor.start, cursor.current)) =
      some ([.step (.error ⟨.unrecognisedToken "é", ⟨1, "shell"⟩⟩), .step (.ok (.string "ü" 1))],
        2, 6) := by
  decide +kernel

end ByteLexer
end ScriptFront
