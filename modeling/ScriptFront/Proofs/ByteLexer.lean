import ScriptFront.Proofs.Draining
import ScriptFront.Proofs.IllegalLexeme

/-! Lexing by byte offsets. A byte lexer keeps the whole source and two offsets into it, the
start of the token under construction and the next byte, and takes each piece of text as a
slice. An operation has no answer where an offset is out of range or inside a character, or
where a loop goes on for more than a number of rounds. On a source that is split into
characters read and characters left, with a round for each of the latter and one more, a step
has an answer, and it is that of the lexer. -/
namespace ScriptFront

open Lexical

/-- The piece of a source between two byte offsets, if they are in order and stand between
characters. -/
def slice? (source : String) (start stop : Nat) : Option String := do
  let first ← source.pos? ⟨start⟩
  let last ← source.pos? ⟨stop⟩
  if start ≤ stop then some (source.extract first last) else none

/-- The length of a text in bytes. -/
def bytes (text : List Char) : Nat := (String.ofList text).utf8ByteSize

structure ByteLexer where
  source : String
  /-- Where the token under construction starts. -/
  start : Nat
  /-- The next byte to be read. -/
  current : Nat
  line : UInt32
  file : String
  finished : Bool
  deriving DecidableEq

namespace ByteLexer

def ofSource (source : String) (file : Option String) : ByteLexer :=
  ⟨source, 0, 0, 1, file.getD shellLabel, false⟩

/-- The text from an offset on. -/
def textFrom? (cursor : ByteLexer) (offset : Nat) : Option (List Char) :=
  (slice? cursor.source offset cursor.source.utf8ByteSize).map String.toList

def peek (cursor : ByteLexer) : Option (Option Char) := do
  return (← cursor.textFrom? cursor.current).head?

def peekNext (cursor : ByteLexer) : Option (Option Char) := do
  return (← cursor.textFrom? cursor.current).tail.head?

def advance (cursor : ByteLexer) : Option (Option Char × ByteLexer) := do
  match ← cursor.peek with
  | none => return (none, cursor)
  | some c => return (some c, { cursor with current := cursor.current + c.utf8Size })

/-- To the end of the line, or of the source. -/
def skipComment (cursor : ByteLexer) : Nat → Option ByteLexer
  | 0 => none
  | rounds + 1 => do
    match ← cursor.peek with
    | none => return cursor
    | some c => if c = '\n' then return cursor else (← cursor.advance).2.skipComment rounds

def skipTrivia (cursor : ByteLexer) : Nat → Option ByteLexer
  | 0 => none
  | rounds + 1 => do
    match ← cursor.peek with
    | none => return cursor
    | some c =>
      if Lexeme.isGap c then (← cursor.advance).2.skipTrivia rounds
      else if c = '/' ∧ (← cursor.peekNext) = some '/' then
        (← cursor.skipComment (rounds + 1)).skipTrivia rounds
      else return cursor

/-- What a content becomes on the line that was reached. -/
def locate (cursor : ByteLexer) : Except Fault (TokenKind × Payload) → Except Diagnostic Token
  | .ok (kind, payload) => .ok ⟨kind, payload, cursor.line⟩
  | .error fault => .error ⟨fault, ⟨cursor.line, cursor.file⟩⟩

/-- Back to the start of the token, and from there over the longest piece of a pattern that
the text starts with. -/
def retake (cursor : ByteLexer) (begins : Char → Bool) (longest : List Char → List Char) :
    Option ByteLexer := do
  let text ← cursor.textFrom? cursor.start
  if text.head?.any begins then
    return { cursor with current := cursor.start + bytes (longest text) }
  else return cursor

def word (cursor : ByteLexer) : Option (Except Diagnostic Token × ByteLexer) := do
  let cursor ← cursor.retake Lexeme.isLetter (List.takeWhile Lexeme.isWordChar)
  let value ← slice? cursor.source cursor.start cursor.current
  return (cursor.locate (.ok (Lexeme.wordContent value)), cursor)

/-- The number that its text and the character behind it make. -/
def numberContent (text : List Char) (next : Option Char) : Except Fault (TokenKind × Payload) :=
  Lexeme.numberContent (text.takeWhile Char.isDigit)
    (Lexeme.fractionDigits (text.dropWhile Char.isDigit)) next

def number (cursor : ByteLexer) : Option (Except Diagnostic Token × ByteLexer) := do
  let cursor ← cursor.retake Char.isDigit fun text => (Lexeme.ofNumber text).text
  let text ← slice? cursor.source cursor.start cursor.current
  return (cursor.locate (numberContent text.toList (← cursor.peek)), cursor)

def lineAfter (line : UInt32) (c : Char) : UInt32 := if c = '\n' then line + 1 else line

/-- Behind the next quote, or to the end of the source; whether a quote was there. -/
def passString (cursor : ByteLexer) : Nat → Option (Bool × ByteLexer)
  | 0 => none
  | rounds + 1 => do
    match ← cursor.advance with
    | (none, next) => return (false, next)
    | (some c, next) =>
      if c = '"' then return (true, next)
      else passString { next with line := lineAfter next.line c } rounds

def string (cursor : ByteLexer) (rounds : Nat) :
    Option (Except Diagnostic Token × ByteLexer) := do
  let (closed, cursor) ← cursor.passString rounds
  if closed then
    let contents ← slice? cursor.source (cursor.start + 1) (cursor.current - 1)
    return (cursor.locate (.ok (.string, .text contents)), cursor)
  else return (cursor.locate (.error .unterminatedString), cursor)

def either (cursor : ByteLexer) (expected : Char) (matched otherwise : TokenKind) :
    Option (TokenKind × ByteLexer) := do
  if (← cursor.peek) = some expected then return (matched, (← cursor.advance).2)
  else return (otherwise, cursor)

/-- The token of a character that starts no word, number or string. -/
def symbol (cursor : ByteLexer) (c : Char) : Option (Except Diagnostic Token × ByteLexer) := do
  match Lexeme.single? c, Lexeme.joinable? c with
  | some kind, _ =>
    return (cursor.locate (.ok (kind, .absent)),
      { cursor with line := lineAfter cursor.line c })
  | none, some (alone, joined) =>
    let (kind, next) ← cursor.either '=' joined alone
    return (next.locate (.ok (kind, .absent)), next)
  | none, none =>
    return (cursor.locate (.error (.unrecognisedToken (String.singleton c))), cursor)

def step (cursor : ByteLexer) (rounds : Nat) :
    Option (Except Diagnostic Token × ByteLexer) := do
  let cursor ← cursor.skipTrivia rounds
  match ← { cursor with start := cursor.current }.advance with
  | (none, next) => return (next.locate (.ok (.endOfInput, .absent)), next)
  | (some c, next) =>
    if Lexeme.isLetter c then next.word
    else if c.isDigit then next.number
    else if c = '"' then next.string rounds
    else next.symbol c

def scanAll (cursor : ByteLexer) : Nat → Option (Except Diagnostic (List Token) × ByteLexer)
  | 0 => none
  | rounds + 1 => do
    match ← cursor.step (rounds + 1) with
    | (.error d, next) => return (.error d, next)
    | (.ok token, next) =>
      if token.kind = .endOfInput then return (.ok [token], next)
      else
        let (rest, stop) ← next.scanAll rounds
        return (rest.map (token :: ·), stop)

def next? (cursor : ByteLexer) (rounds : Nat) :
    Option (Option (Except Diagnostic Token) × ByteLexer) := do
  if cursor.finished then return (none, cursor)
  else
    let (result, next) ← cursor.step rounds
    return (some result, { next with finished := Lexer.isLast result })

def answer (cursor : ByteLexer) (rounds : Nat) :
    Lexer.Call → Option (Lexer.Answer × ByteLexer)
  | .step => do
    let (result, next) ← cursor.step rounds
    return (.step result, next)
  | .next => do
    let (result, next) ← cursor.next? rounds
    return (.next result, next)
  | .scanAll => do
    let (result, next) ← cursor.scanAll rounds
    return (.scanAll result, next)

/-- The answers to calls made one after the other, with the same number of rounds for each
loop, and the byte lexer after them. -/
def answers (cursor : ByteLexer) (rounds : Nat) :
    List Lexer.Call → Option (List Lexer.Answer × ByteLexer)
  | [] => some ([], cursor)
  | call :: calls => do
    let (first, next) ← cursor.answer rounds call
    let (rest, stop) ← next.answers rounds calls
    return (first :: rest, stop)

end ByteLexer

theorem bytes_append (text more : List Char) : bytes (text ++ more) = bytes text + bytes more := by
  rw [bytes, String.ofList_append, String.utf8ByteSize_append]
  rfl

theorem bytes_singleton (c : Char) : bytes [c] = c.utf8Size := String.utf8ByteSize_singleton

theorem bytes_pos {text : List Char} (some : text ≠ []) : 0 < bytes text := by
  apply Nat.pos_of_ne_zero
  intro zero
  have empty := String.utf8ByteSize_eq_zero_iff.mp zero
  exact some (by simpa using empty)

theorem isValid_bytes (before rest : List Char) :
    (⟨bytes before⟩ : String.Pos.Raw).IsValid (String.ofList (before ++ rest)) :=
  String.Pos.Raw.isValid_iff_exists_append.mpr ⟨_, _, String.ofList_append, rfl⟩

theorem pos?_of_isValid {source : String} {offset : String.Pos.Raw}
    (valid : offset.IsValid source) : source.pos? offset = some (source.pos offset valid) := by
  have within : offset.isValidForSlice source.toSlice = true := by simp [valid]
  rw [String.pos?, String.Slice.pos?, dif_pos within]
  rfl

/-- The slice between two places of a split source is the text between them. -/
theorem slice?_split (before text rest : List Char) :
    slice? (String.ofList (before ++ (text ++ rest))) (bytes before) (bytes (before ++ text)) =
      some (String.ofList text) := by
  have first := isValid_bytes before (text ++ rest)
  have last := isValid_bytes (before ++ text) rest
  rw [List.append_assoc] at last
  have order : bytes before ≤ bytes (before ++ text) := by
    rw [bytes_append]
    exact Nat.le_add_right _ _
  rw [slice?, pos?_of_isValid first, pos?_of_isValid last]
  simp only [Option.bind_eq_bind, Option.bind_some, if_pos order, Option.some.injEq]
  apply String.toByteArray_inj.mp
  calc (String.extract (String.pos _ _ first) (String.pos _ _ last)).toByteArray
      = (String.ofList (before ++ (text ++ rest))).toByteArray.extract (bytes before)
          (bytes (before ++ text)) := rfl
    _ = (String.ofList (text ++ rest)).toByteArray.extract 0 (bytes text) := by
      rw [String.ofList_append, String.toByteArray_append, bytes_append]
      exact ByteArray.extract_append_size_add' (i := 0) rfl
    _ = (String.ofList text).toByteArray := by
      rw [String.ofList_append, String.toByteArray_append]
      exact ByteArray.extract_append_eq_left rfl

namespace ByteLexer

/-- The byte lexer of a source that is split into the text before the token under construction,
what is read of that token, and the rest; all else is as in the lexer. -/
def ofSplit (before text rest : List Char) (lexer : Lexer) : ByteLexer :=
  ⟨String.ofList (before ++ (text ++ rest)), bytes before, bytes (before ++ text),
    lexer.line, lexer.file, lexer.finished⟩

variable (before text rest : List Char) (lexer : Lexer)

theorem slice?_ofSplit :
    slice? (ofSplit before text rest lexer).source (ofSplit before text rest lexer).start
      (ofSplit before text rest lexer).current = some (String.ofList text) :=
  slice?_split before text rest

theorem textFrom?_start :
    (ofSplit before text rest lexer).textFrom? (ofSplit before text rest lexer).start =
      some (text ++ rest) := by
  have slice := slice?_split before (text ++ rest) []
  rw [List.append_nil] at slice
  exact (congrArg (Option.map String.toList) slice).trans (congrArg some String.toList_ofList)

theorem mark_ofSplit :
    { ofSplit before text rest lexer with start := (ofSplit before text rest lexer).current } =
      ofSplit (before ++ text) [] rest lexer := by
  simp [ofSplit]

theorem textFrom?_current :
    (ofSplit before text rest lexer).textFrom? (ofSplit before text rest lexer).current =
      some rest := by
  have slice := textFrom?_start (before ++ text) [] rest lexer
  rwa [← mark_ofSplit] at slice

@[simp] theorem peek_ofSplit : (ofSplit before text rest lexer).peek = some rest.head? := by
  rw [peek, textFrom?_current]
  rfl

@[simp] theorem peekNext_ofSplit :
    (ofSplit before text rest lexer).peekNext = some rest.tail.head? := by
  rw [peekNext, textFrom?_current]
  rfl

@[simp] theorem advance_nil :
    (ofSplit before text [] lexer).advance = some (none, ofSplit before text [] lexer) := by
  rw [advance, peek_ofSplit]
  rfl

@[simp] theorem advance_cons (c : Char) :
    (ofSplit before text (c :: rest) lexer).advance =
      some (some c, ofSplit before (text ++ [c]) rest lexer) := by
  rw [advance, peek_ofSplit]
  simp [ofSplit, bytes_append, bytes_singleton, Nat.add_assoc]

variable {rest}

theorem skipComment_ofSplit {body : List Char} (clear : '\n' ∉ body)
    (stop : ∀ c, rest.head? = some c → c = '\n') {rounds : Nat} (enough : body.length ≤ rounds) :
    (ofSplit before text (body ++ rest) lexer).skipComment (rounds + 1) =
      some (ofSplit before (text ++ body) rest lexer) := by
  induction body generalizing text rounds with
  | nil =>
    rw [skipComment]
    cases rest with
    | nil => simp
    | cons c rest => simp [stop c rfl]
  | cons c body ih =>
    obtain ⟨newline, clear⟩ := not_or.mp (List.mem_cons.not.mp clear)
    cases rounds with
    | zero => cases enough
    | succ rounds =>
      have passed := ih (text ++ [c]) clear (Nat.le_of_succ_le_succ enough)
      rw [skipComment]
      simp [Ne.symm newline, passed]

/-- Where no trivia stands, none is skipped. -/
theorem skipTrivia_none (gap : ∀ c, rest.head? = some c → ¬ Gap c)
    (comment : ¬ ['/', '/'] <+: rest) (rounds : Nat) :
    (ofSplit before text rest lexer).skipTrivia (rounds + 1) =
      some (ofSplit before text rest lexer) := by
  rw [skipTrivia]
  cases rest with
  | nil => simp
  | cons c cs =>
    have notGap : ¬ Lexeme.isGap c := gap_iff.not.mpr (gap c rfl)
    have notComment : ¬ (c = '/' ∧ cs.head? = some '/') := by
      rintro ⟨rfl, next⟩
      obtain ⟨more, rfl⟩ := List.head?_eq_some_iff.mp next
      exact comment ⟨more, rfl⟩
    simp [notGap, notComment]

theorem skipTrivia_ofSplit {run : List Char} (trivia : Trivia run rest) {rounds : Nat}
    (enough : run.length ≤ rounds) :
    (ofSplit before text (run ++ rest) lexer).skipTrivia (rounds + 1) =
      some (ofSplit before (text ++ run) rest lexer) := by
  induction trivia generalizing text rounds with
  | none gap comment =>
    rw [List.append_nil]
    exact skipTrivia_none before text lexer gap comment rounds
  | @gap c run rest gap _ ih =>
    cases rounds with
    | zero => cases enough
    | succ rounds =>
      have passed := ih (text ++ [c]) (Nat.le_of_succ_le_succ enough)
      rw [skipTrivia]
      simp [gap_iff.mpr gap, passed]
  | @comment body rest clear stop =>
    cases rounds with
    | zero => cases enough
    | succ rounds =>
      -- Behind a comment stands a newline or nothing, so the next round is the last.
      have comment : Trivia ('/' :: '/' :: body) rest := .comment clear stop
      have ended := skipTrivia_none before (text ++ '/' :: '/' :: body) lexer
        comment.noGap comment.noComment rounds
      have inside : '\n' ∉ '/' :: '/' :: body := by simpa using clear
      rw [skipTrivia, skipComment_ofSplit before text lexer inside stop enough]
      simp [ended, Lexeme.isGap]

/-- What a step over a lexeme gives. -/
def found (lexeme : Lexeme) : Except Diagnostic Token × ByteLexer :=
  (lexer.locate lexeme, ofSplit before lexeme.text lexeme.rest (lexer.pass lexeme.text lexeme.rest))

/-- A lexeme without newlines is found on the line of the lexer. -/
theorem found_inline {lexeme : Lexeme} (clear : '\n' ∉ lexeme.text) :
    found before lexer lexeme =
      ((ofSplit before lexeme.text lexeme.rest lexer).locate lexeme.content,
        ofSplit before lexeme.text lexeme.rest lexer) := by
  have inside : '\n' ∉ lexeme.text.dropLast :=
    fun member => clear (List.dropLast_subset _ member)
  simp only [found, Lexer.locate, Lexer.pass, newlines_eq_zero clear, newlines_eq_zero inside,
    UInt32.add_zero]
  cases lexeme.content <;> rfl

variable {before text lexer}

/-- The longest piece from the start of the token on is taken as that token, however much of
it was read before. -/
theorem retake_ofSplit {begins : Char → Bool} {longest : List Char → List Char} {c : Char}
    {cs more : List Char} (whole : text ++ rest = c :: cs) (first : begins c = true)
    (split : longest (c :: cs) ++ more = c :: cs) :
    (ofSplit before text rest lexer).retake begins longest =
      some (ofSplit before (longest (c :: cs)) more lexer) := by
  rw [retake, textFrom?_start, whole]
  simp [first, ofSplit, whole, split, bytes_append]

theorem word_ofSplit {c : Char} (letter : Lexeme.isLetter c) (cs : List Char) :
    (ofSplit before [c] cs lexer).word = some (found before lexer (Lexeme.ofWord (c :: cs))) := by
  have spelled : Word (Lexeme.ofWord (c :: cs)).text := (longest_word (letter_iff.mp letter)).1
  rw [word, retake_ofSplit rfl letter (Lexeme.ofWord_split (c :: cs)),
    found_inline before lexer (spelled.notMem apart_newline), Option.bind_eq_bind, Option.bind_some,
    slice?_ofSplit]
  rfl

theorem number_ofSplit {c : Char} (digit : c.isDigit) (cs : List Char) :
    (ofSplit before [c] cs lexer).number =
      some (found before lexer (Lexeme.ofNumber (c :: cs))) := by
  have spelled : Number (Lexeme.ofNumber (c :: cs)).text :=
    (longest_number (digit_iff.mp digit)).1
  -- The parts of a number can be read off its text.
  have content : numberContent (Lexeme.ofNumber (c :: cs)).text
      (Lexeme.ofNumber (c :: cs)).rest.head? = (Lexeme.ofNumber (c :: cs)).content := by
    obtain ⟨whole, fraction⟩ := numberText_parts (digits_takeWhile (digit_iff.mp digit) cs).2
      (fractionDigits_digit ((c :: cs).dropWhile Char.isDigit))
    simp only [numberContent, Lexeme.ofNumber, whole, fraction]
  rw [number, retake_ofSplit rfl digit (Lexeme.ofNumber_split (c :: cs)),
    found_inline before lexer (spelled.notMem apart_newline), Option.bind_eq_bind, Option.bind_some,
    slice?_ofSplit, peek_ofSplit, ← content]
  simp

theorem lineAfter_eq (line : UInt32) (c : Char) : lineAfter line c = line + Lexer.newlines [c] := by
  unfold lineAfter
  split
  · rename_i newline
    rw [newline]
    rfl
  · rename_i other
    rw [newlines_eq_zero (by simpa using Ne.symm other), UInt32.add_zero]

/-- Text without quotes is passed, a character a round, and its newlines counted. -/
theorem passString_raw {contents : List Char} (clear : '"' ∉ contents) (rounds : Nat) :
    (ofSplit before text (contents ++ rest) lexer).passString (contents.length + rounds) =
      (ofSplit before (text ++ contents) rest (lexer.pass contents rest)).passString rounds := by
  induction contents generalizing text lexer with
  | nil =>
    rw [List.append_nil, Lexer.pass, newlines_eq_zero List.not_mem_nil, UInt32.add_zero,
      List.length_nil, Nat.zero_add]
    rfl
  | cons c contents ih =>
    obtain ⟨quote, clear⟩ := not_or.mp (List.mem_cons.not.mp clear)
    have line : lineAfter lexer.line c + Lexer.newlines contents =
        lexer.line + Lexer.newlines (c :: contents) := by
      rw [lineAfter_eq, UInt32.add_assoc, ← newlines_append]
      rfl
    calc (ofSplit before text (c :: contents ++ rest) lexer).passString
          ((c :: contents).length + rounds)
        = (ofSplit before (text ++ [c]) (contents ++ rest)
            { lexer with line := lineAfter lexer.line c }).passString
              (contents.length + rounds) := by
          rw [List.length_cons, Nat.succ_add, passString, List.cons_append, advance_cons,
            Option.bind_eq_bind, Option.bind_some]
          exact if_neg (Ne.symm quote)
      _ = (ofSplit before (text ++ c :: contents) rest
            (lexer.pass (c :: contents) rest)).passString rounds := by
          rw [ih clear, List.append_assoc, Lexer.pass, Lexer.pass, line]
          rfl

theorem passString_quote (rounds : Nat) :
    (ofSplit before text ('"' :: rest) lexer).passString (rounds + 1) =
      some (true, ofSplit before (text ++ ['"']) rest lexer) := by
  rw [passString, advance_cons]
  rfl

theorem passString_nil (rounds : Nat) :
    (ofSplit before text [] lexer).passString (rounds + 1) =
      some (false, ofSplit before text [] lexer) := by
  rw [passString, advance_nil]
  rfl

/-- Quotes are one byte long, so the offsets inside them stand between characters. -/
theorem slice?_quoted (contents : List Char) :
    slice? (ofSplit before ('"' :: contents ++ ['"']) rest lexer).source
      ((ofSplit before ('"' :: contents ++ ['"']) rest lexer).start + 1)
      ((ofSplit before ('"' :: contents ++ ['"']) rest lexer).current - 1) =
        some (String.ofList contents) := by
  have quote : bytes ['"'] = 1 := rfl
  have first : bytes (before ++ ['"']) = bytes before + 1 := by rw [bytes_append, quote]
  have last : bytes (before ++ ['"'] ++ contents) =
      bytes (before ++ ('"' :: contents ++ ['"'])) - 1 := by
    have split : before ++ ('"' :: contents ++ ['"']) = before ++ ['"'] ++ contents ++ ['"'] := by
      simp
    rw [split, bytes_append _ ['"'], quote, Nat.add_sub_cancel]
  have slice := slice?_split (before ++ ['"']) contents ('"' :: rest)
  rw [first, last] at slice
  simpa [ofSplit] using slice

theorem string_ofSplit {cs : List Char} {rounds : Nat} (enough : cs.length ≤ rounds) :
    (ofSplit before ['"'] cs lexer).string (rounds + 1) =
      some (found before lexer (Lexeme.ofString cs)) := by
  have opening (contents : List Char) :
      Lexer.newlines ('"' :: contents) = Lexer.newlines contents :=
    (newlines_append ['"'] contents).trans (UInt32.zero_add _)
  by_cases closed : '"' ∈ cs
  · obtain ⟨contents, rest, rfl, clear⟩ := List.eq_append_cons_of_mem closed
    have closing : Lexer.newlines ('"' :: contents ++ ['"']) = Lexer.newlines contents := by
      rw [newlines_append, opening]
      exact UInt32.add_zero _
    have inside := (List.sublist_append_left contents ('"' :: rest)).length_le
    obtain ⟨more, rfl⟩ := Nat.exists_eq_add_of_le (Nat.le_trans inside enough)
    rw [ofString_eq clear, string, Nat.add_assoc, passString_raw clear, passString_quote,
      Option.bind_eq_bind, Option.bind_some]
    simp only [if_true, List.singleton_append]
    rw [slice?_quoted]
    simp only [found, Lexer.locate, Lexer.pass, List.dropLast_concat, opening, closing]
    rfl
  · obtain ⟨more, rfl⟩ := Nat.exists_eq_add_of_le enough
    have passed : (ofSplit before ['"'] (cs ++ []) lexer).passString (cs.length + (more + 1)) = _ :=
      passString_raw closed (more + 1)
    rw [List.append_nil, passString_nil] at passed
    rw [ofString_unterminated closed, string, Nat.add_assoc, passed]
    simp only [found, Lexer.locate, Lexer.pass, opening]
    rfl

theorem symbol_ofSplit (c : Char) (cs : List Char) :
    (ofSplit before [c] cs lexer).symbol c = some (found before lexer (Lexeme.ofSymbol c cs)) := by
  cases single : Lexeme.single? c with
  | some kind =>
    rw [ofSymbol_single single, symbol, single]
    simp only [found, Lexer.locate, Lexer.pass, ← lineAfter_eq]
    rw [List.dropLast_singleton, newlines_eq_zero List.not_mem_nil, UInt32.add_zero]
    rfl
  | none =>
    -- A newline stands alone, so no other symbol counts a line.
    have inline : '\n' ∉ [c] := by
      intro member
      rw [← List.mem_singleton.mp member] at single
      cases single
    cases joinable : Lexeme.joinable? c with
    | some kinds =>
      obtain ⟨alone, joined⟩ := kinds
      rw [symbol, single, joinable]
      by_cases next : cs.head? = some '='
      · obtain ⟨rest, rfl⟩ := List.head?_eq_some_iff.mp next
        rw [ofSymbol_joined single joinable, found_inline _ _ (by simpa using inline)]
        simp [either]
      · rw [ofSymbol_alone single joinable next, found_inline _ _ inline]
        simp [either, next]
    | none =>
      have unknown : Lexeme.ofSymbol c cs =
          ⟨[c], cs, .error (.unrecognisedToken (String.singleton c))⟩ := by
        simp only [Lexeme.ofSymbol, single, joinable]
      rw [symbol, single, joinable, unknown, found_inline _ _ inline]
      rfl

/-- A step over the lexeme behind trivia. -/
theorem step_lexeme {run : List Char} {c : Char} {cs : List Char} (trivia : Trivia run (c :: cs))
    {rounds : Nat} (enough : (run ++ c :: cs).length ≤ rounds) :
    (ofSplit before text (run ++ c :: cs) lexer).step (rounds + 1) =
      some (found (before ++ (text ++ run)) lexer (Lexeme.first c cs)) := by
  rw [List.length_append, List.length_cons] at enough
  have skipped := skipTrivia_ofSplit before text lexer trivia (Nat.le_of_add_right_le enough)
  rw [step, skipped, Option.bind_eq_bind, Option.bind_some, mark_ofSplit, advance_cons,
    Option.bind_eq_bind, Option.bind_some]
  simp only [Lexeme.first]
  split
  · rename_i letter
    exact word_ofSplit letter cs
  · split
    · rename_i digit
      exact number_ofSplit digit cs
    · split
      · rename_i quote
        rw [quote]
        exact string_ofSplit (by omega)
      · exact symbol_ofSplit c cs

theorem step_end {run : List Char} (trivia : Trivia run []) {rounds : Nat}
    (enough : run.length ≤ rounds) :
    (ofSplit before text run lexer).step (rounds + 1) =
      some (.ok (.bare .endOfInput lexer.line), ofSplit (before ++ (text ++ run)) [] [] lexer) := by
  have skipped := skipTrivia_ofSplit before text lexer trivia enough
  rw [List.append_nil] at skipped
  rw [step, skipped, Option.bind_eq_bind, Option.bind_some, mark_ofSplit, advance_nil]
  rfl

end ByteLexer
end ScriptFront
