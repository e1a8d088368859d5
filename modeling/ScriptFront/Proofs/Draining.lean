import ScriptFront.Proofs.LexicalGrammar

/-! Ways to drain a lexer. Its steps give a stream of items, errors passed over; whichever
calls are made on it, in whatever order, each takes the next items of that stream. Only
iteration comes to an end, for itself alone. -/
namespace ScriptFront.Lexer

/-- The lexer after a number of steps. -/
def after (lexer : Lexer) : Nat → Lexer
  | 0 => lexer
  | steps + 1 => lexer.step.2.after steps

/-- The stream of what the steps give. -/
def item (lexer : Lexer) (index : Nat) : Except Diagnostic Token := (lexer.after index).step.1

/-- The ways to ask a lexer for more. -/
inductive Call where
  | step
  | next
  | scanAll

inductive Answer where
  | step (result : Except Diagnostic Token)
  | next (result : Option (Except Diagnostic Token))
  | scanAll (result : Except Diagnostic (List Token))
  deriving DecidableEq

def answer (lexer : Lexer) : Call → Answer × Lexer
  | .step => (.step lexer.step.1, lexer.step.2)
  | .next => (.next lexer.next?.1, lexer.next?.2)
  | .scanAll => (.scanAll lexer.scanAll.1, lexer.scanAll.2)

/-- The answers to calls made one after the other, and the lexer after them. -/
def answers (lexer : Lexer) : List Call → List Answer × Lexer
  | [] => ([], lexer)
  | call :: calls =>
    let rest := (lexer.answer call).2.answers calls
    ((lexer.answer call).1 :: rest.1, rest.2)

/-- How many items of a stream are taken, and whether iteration is over. -/
structure Place where
  index : Nat
  ended : Bool

/-- What a call takes of a stream, and where it stops. Iteration is over once it has given
the end of input or an error, and then takes nothing. Scanning takes items up to the first
of these. -/
inductive Takes (items : Nat → Except Diagnostic Token) :
    Place → Call → Answer → Place → Prop where
  | step {index ended} :
      Takes items ⟨index, ended⟩ .step (.step (items index)) ⟨index + 1, ended⟩
  | next {index} :
      Takes items ⟨index, false⟩ .next (.next (some (items index)))
        ⟨index + 1, isLast (items index)⟩
  | ended {index} : Takes items ⟨index, true⟩ .next (.next none) ⟨index, true⟩
  | scanAll {index ended} (more : Nat) :
      (∀ i < more, isLast (items (index + i)) = false) → isLast (items (index + more)) = true →
      Takes items ⟨index, ended⟩ .scanAll
        (.scanAll ((List.range' index (more + 1)).mapM items)) ⟨index + (more + 1), ended⟩

/-- The calls, one after the other, take what they answer of the stream. -/
inductive TakesAll (items : Nat → Except Diagnostic Token) :
    Place → List Call → List Answer → Place → Prop where
  | done {place} : TakesAll items place [] [] place
  | next {start call answer place calls answers stop} :
      Takes items start call answer place → TakesAll items place calls answers stop →
      TakesAll items start (call :: calls) (answer :: answers) stop

/-- The lexer at a place of its own stream. -/
def atPlace (lexer : Lexer) (place : Place) : Lexer :=
  { lexer.after place.index with finished := place.ended }

variable (lexer : Lexer)

theorem after_add (m n : Nat) : lexer.after (m + n) = (lexer.after m).after n := by
  induction m generalizing lexer with
  | zero => rw [Nat.zero_add]; rfl
  | succ m ih =>
    rw [Nat.succ_add]
    exact ih lexer.step.2

theorem item_add (m n : Nat) : lexer.item (m + n) = (lexer.after m).item n := by
  rw [item, after_add]
  rfl

theorem step_withFinished (ended : Bool) :
    { lexer with finished := ended }.step =
      (lexer.step.1, { lexer.step.2 with finished := ended }) := by
  unfold step
  dsimp only
  split <;> rfl

theorem step_atPlace (place : Place) :
    (lexer.atPlace place).step =
      (lexer.item place.index, lexer.atPlace ⟨place.index + 1, place.ended⟩) := by
  rw [atPlace, step_withFinished, atPlace, after_add]
  rfl

theorem scanAll_of_last {lexer next : Lexer} {result : Except Diagnostic Token}
    (step : lexer.step = (result, next)) (last : isLast result = true) :
    lexer.scanAll = (result.map ([·]), next) := by
  cases result with
  | error d => exact Lexical.scanAll_eq_of_error step
  | ok token => exact Lexical.scanAll_of_end step (of_decide_eq_true last)

theorem exists_of_not_isLast {result : Except Diagnostic Token} (more : isLast result = false) :
    ∃ token, result = .ok token ∧ token.kind ≠ .endOfInput := by
  cases result with
  | error d => cases more
  | ok token => exact ⟨token, rfl, of_decide_eq_false more⟩

/-- Collecting results, behind one that is good. -/
theorem mapM_cons_of_ok {α : Type} {f : α → Except Diagnostic Token} {a : α} {token : Token}
    (good : f a = .ok token) (more : List α) :
    (a :: more).mapM f = (more.mapM f).map (token :: ·) := by
  rw [List.mapM_cons, good]
  cases more.mapM f <;> rfl

/-- Scanning stops right behind the first error or end of input. -/
theorem scanAll_atPlace (index : Nat) (ended : Bool) :
    ∃ more, (∀ i < more, isLast (lexer.item (index + i)) = false) ∧
      isLast (lexer.item (index + more)) = true ∧
      (lexer.atPlace ⟨index, ended⟩).scanAll =
        ((List.range' index (more + 1)).mapM lexer.item,
          lexer.atPlace ⟨index + (more + 1), ended⟩) := by
  -- A step that is not the last shortens the rest, so the length of it carries the induction.
  induction size : (lexer.atPlace ⟨index, ended⟩).rest.length using Nat.strongRecOn
      generalizing index with
  | ind size ih =>
    have step := lexer.step_atPlace ⟨index, ended⟩
    cases last : isLast (lexer.item index) with
    | true =>
      refine ⟨0, nofun, last, ?_⟩
      rw [scanAll_of_last step last]
      cases found : lexer.item index <;> simp [found, Except.map]
    | false =>
      obtain ⟨token, found, kind⟩ := exists_of_not_isLast last
      rw [found] at step
      obtain ⟨more, before, stop, scanned⟩ := ih _ (size ▸ step_shorter step kind) (index + 1) rfl
      refine ⟨more + 1, ?_, ?_, ?_⟩
      · intro i below
        cases i with
        | zero => exact last
        | succ i =>
          have later := before i (Nat.lt_of_succ_lt_succ below)
          rwa [Nat.add_right_comm] at later
      · rwa [Nat.add_right_comm] at stop
      · have collected := mapM_cons_of_ok found (List.range' (index + 1) (more + 1))
        rw [Lexical.scanAll_eq_of_step step kind, scanned, ← collected, Nat.add_right_comm]
        rfl

/-- Every call takes the items of the stream from where the lexer is. -/
theorem answer_takes (place : Place) (call : Call) :
    ∃ stop, Takes lexer.item place call ((lexer.atPlace place).answer call).1 stop ∧
      ((lexer.atPlace place).answer call).2 = lexer.atPlace stop := by
  obtain ⟨index, ended⟩ := place
  have step := lexer.step_atPlace ⟨index, ended⟩
  cases call with
  | step =>
    refine ⟨⟨index + 1, ended⟩, ?_⟩
    rw [answer, step]
    exact ⟨.step, rfl⟩
  | next =>
    cases ended with
    | true => exact ⟨⟨index, true⟩, .ended, rfl⟩
    | false =>
      refine ⟨⟨index + 1, isLast (lexer.item index)⟩, ?_⟩
      have next : (lexer.atPlace ⟨index, false⟩).next? =
          (some (lexer.item index), lexer.atPlace ⟨index + 1, isLast (lexer.item index)⟩) := by
        rw [next?, step]
        rfl
      rw [answer, next]
      exact ⟨.next, rfl⟩
  | scanAll =>
    obtain ⟨more, before, last, scanned⟩ := lexer.scanAll_atPlace index ended
    refine ⟨⟨index + (more + 1), ended⟩, ?_⟩
    rw [answer, scanned]
    exact ⟨.scanAll more before last, rfl⟩

theorem answers_takesAll (place : Place) (calls : List Call) :
    ∃ stop, TakesAll lexer.item place calls ((lexer.atPlace place).answers calls).1 stop ∧
      ((lexer.atPlace place).answers calls).2 = lexer.atPlace stop := by
  induction calls generalizing place with
  | nil => exact ⟨place, .done, rfl⟩
  | cons call calls ih =>
    obtain ⟨next, takes, same⟩ := lexer.answer_takes place call
    obtain ⟨stop, all, last⟩ := ih next
    refine ⟨stop, ?_⟩
    rw [answers, same]
    exact ⟨.next takes all, last⟩

theorem step_finished : lexer.step.2.finished = lexer.finished := by
  unfold step
  split <;> rfl

theorem drain_of_finished (ended : lexer.finished = true) : lexer.drain.1 = [] := by
  have next : lexer.next? = (none, lexer) := by rw [next?, if_pos ended]
  rw [drain]
  split
  · rfl
  · rename_i read
    rw [next] at read
    cases read

theorem drain_of_step {next : Lexer} {result : Except Diagnostic Token}
    (going : lexer.finished = false) (step : lexer.step = (result, next)) :
    lexer.drain.1 = result :: { next with finished := isLast result }.drain.1 := by
  have given : lexer.next? = (some result, { next with finished := isLast result }) := by
    rw [next?, going, if_neg Bool.false_ne_true, step]
  rw [drain]
  split
  · rename_i read
    rw [given] at read
    cases read
  · rename_i read
    rw [given] at read
    cases read
    rfl

/-- The iteration of a lexer that is not over collects to what scanning gives. -/
theorem mapM_drain (going : lexer.finished = false) :
    lexer.drain.1.mapM id = lexer.scanAll.1 := by
  induction size : lexer.rest.length using Nat.strongRecOn generalizing lexer with
  | ind size ih =>
    obtain ⟨result, next, step⟩ : ∃ result next, lexer.step = (result, next) := ⟨_, _, rfl⟩
    rw [lexer.drain_of_step going step]
    cases last : isLast result with
    | true =>
      rw [drain_of_finished _ rfl, scanAll_of_last step last]
      cases result <;> rfl
    | false =>
      obtain ⟨token, rfl, kind⟩ := exists_of_not_isLast last
      have still : next.finished = false := by rw [← going, ← lexer.step_finished, step]
      have same : { next with finished := false } = next := by rw [← still]
      rw [same, Lexical.scanAll_of_step step kind, mapM_cons_of_ok (f := id) rfl,
        ih _ (size ▸ step_shorter step kind) next still rfl]

/-- The end of input is given again and again. -/
theorem step_of_end {next : Lexer} {token : Token} (step : lexer.step = (.ok token, next))
    (last : token.kind = .endOfInput) : next.step = (.ok token, next) := by
  obtain trivia | ⟨run, text, rest, kind, payload, front, trivia, lexes⟩ :=
    Lexical.step_cases (congrArg Prod.fst step)
  · cases (Lexical.step_eq_end trivia).symm.trans step
    rfl
  · cases (Lexical.step_eq trivia lexes front).symm.trans step
    exact absurd last lexes.kind_ne

theorem after_of_step {result : Except Diagnostic Token} (step : lexer.step = (result, lexer))
    (steps : Nat) : lexer.after steps = lexer := by
  induction steps with
  | zero => rfl
  | succ steps ih => rw [after, step, ih]

theorem item_of_end {index : Nat} {token : Token} (found : lexer.item index = .ok token)
    (last : token.kind = .endOfInput) (more : Nat) : lexer.item (index + more) = .ok token := by
  have again := (lexer.after index).step_of_end (Prod.ext found rfl) last
  cases more with
  | zero => exact found
  | succ more =>
    rw [item_add, item, after, after_of_step _ again, again]

/-- Each call on the lexer of a source takes the next items of the stream that stepping gives. So
all ways of draining agree, and behind the end of input there is nothing but the same end. -/
theorem answers_take_stream (source : String) (file : Option String) :
    (∀ calls, ∃ stop,
      TakesAll (ofSource source file).item ⟨0, false⟩ calls
        ((ofSource source file).answers calls).1 stop ∧
      ((ofSource source file).answers calls).2 = (ofSource source file).atPlace stop) ∧
    (ofSource source file).drain.1.mapM id = tokenize source file ∧
    (ofSource source file).scanAll.1 = tokenize source file ∧
    ∀ index token, (ofSource source file).item index = .ok token → token.kind = .endOfInput →
      ∀ later ≥ index, (ofSource source file).item later = .ok token := by
  refine ⟨?_, mapM_drain _ rfl, rfl, ?_⟩
  · exact (ofSource source file).answers_takesAll ⟨0, false⟩
  · intro index token found last later behind
    obtain ⟨more, rfl⟩ := Nat.exists_eq_add_of_le behind
    exact item_of_end _ found last more

-- Iteration is over with the error, but the lexer goes on at the letter that caused it.
example : ((ofSource "1x" none).answers [.next, .next, .step, .scanAll]).1 =
    [.next (some (.error ⟨.malformedNumber "1x", ⟨1, "shell"⟩⟩)), .next none,
      .step (.ok (.identifier "x" 1)), .scanAll (.ok [.bare .endOfInput 1])] := by
  decide +kernel

end ScriptFront.Lexer
