import ScriptFront.Proofs.StepCount

/-! The bookkeeping of a parser is balanced. Whatever was done to it before, a call that reads
gives the parser back with the rules, the label and the depth it had, only further in its
tokens; so does every call made inside it, whether it ends with an expression or with an
error from any level below. -/
namespace ScriptFront

/-- All but the tokens passed is as it was. -/
structure Parser.Keeps (parser next : Parser) : Prop where
  setting : next.setting = parser.setting
  depth : next.depth = parser.depth
  rest : next.rest <:+ parser.rest

namespace Machine

theorem Request.calls_task (request : Request) : request.task.calls = 0 := by
  cases request <;> rfl

/-- The calls that are open when an answer comes are those that were when it was asked for. -/
theorem openCalls_answered (parser : Parser) (stack : List Frame) (request : Request) :
    (answered parser stack request).openCalls =
      (Machine.mk parser request.task stack).openCalls := by
  cases request <;> rfl

/-- The depth follows the open calls all the way, so it comes back with them. -/
theorem Counts.keeps {base : Nat} {machine : Machine} {request : Request}
    (counts : machine.Counts base) (task : machine.task = request.task) :
    ∃ steps, Steps steps machine (answered machine.parser machine.stack request) ∧
      machine.parser.Keeps (answered machine.parser machine.stack request).parser := by
  obtain ⟨parser, _, stack⟩ := machine
  subst task
  obtain ⟨steps, _, run⟩ := within_answered counts.bounded stack request
  refine ⟨steps, run, run.setting, ?_, run.rest⟩
  rw [(run.counts counts).depth, openCalls_answered]
  exact counts.depth.symm

end Machine

namespace Parser

/-- Every parser that any operations make is balanced: it has the tokens behind its cursor left,
the cursor does not go back, the depth follows the open calls, and each call comes to its end
with the parser as it was but for the tokens passed, whatever the result is. -/
theorem reached_balanced (tokens : List Token) (file : String) (parser : Parser)
    (reached : Reached tokens file parser) :
    parser.depth ≤ nestingLimit ∧
    parser.cursor tokens ≤ tokens.length ∧ parser.rest = tokens.drop (parser.cursor tokens) ∧
    (∀ next, parser.Step next → parser.cursor tokens ≤ next.cursor tokens) ∧
    ∀ (request : Machine.Request) (steps : Nat) (machine : Machine),
      Machine.Steps steps ⟨parser, request.task, []⟩ machine →
      machine.parser.setting = parser.setting ∧
      machine.parser.rest <:+ parser.rest ∧
      machine.parser.depth = parser.depth + machine.openCalls ∧
      machine.parser.depth ≤ nestingLimit ∧
      ∀ inner : Machine.Request, machine.task = inner.task →
        ∃ more, Machine.Steps more machine
            (Machine.answered machine.parser machine.stack inner) ∧
          machine.parser.Keeps (Machine.answered machine.parser machine.stack inner).parser := by
  refine ⟨reached.depth, Nat.sub_le _ _, reached.rest_eq_drop, ?_, ?_⟩
  · intro next step
    exact cursor_le step.rest
  · intro request steps machine run
    have counts := run.counts (.start reached.depth request.calls_task)
    refine ⟨run.setting, run.rest, counts.depth, counts.bounded, ?_⟩
    intro inner task
    exact counts.keeps task

/-- A statement that fails at the limit, far below, leaves the depth it was asked for at. -/
theorem signAtEnd_balanced :
    ∃ inner, signAtEnd.enter = .ok inner ∧ Reached [] "shell" inner ∧
      inner.readStmt.1 = .error ⟨.nestingTooDeep 256, ⟨1, "shell"⟩⟩ ∧
      inner.Keeps inner.readStmt.2 ∧ inner.readStmt.2.depth = 1 := by
  let inner : Parser := { signAtEnd with depth := 1 }
  have reached : Reached [] "shell" inner :=
    ((Reached.start.step (.addStart .endOfInput .unary)).step
      (.addJoin .endOfInput .sum .binary)).step (.enter rfl)
  obtain ⟨_, _, _, _, calls⟩ := reached_balanced [] "shell" inner reached
  obtain ⟨_, _, _, _, answers⟩ := calls .stmt 0 _ (.refl _)
  obtain ⟨_, _, keeps⟩ := answers .stmt rfl
  refine ⟨inner, rfl, reached, ?_, keeps, keeps.depth⟩
  have failed : inner.setting.readStmt inner.room [] =
      .error ⟨.nestingTooDeep nestingLimit, ⟨1, "shell"⟩⟩ [] := by
    rw [Setting.readStmt, signAtEnd_level]
  have rest : inner.rest = [] := rfl
  rw [readStmt, rest, failed]
  rfl

end Parser
end ScriptFront
