import ContractHost.Boundary.Query

/-!
# Scripts

What an interpreter does, seen from outside, is a script: it asks questions, each time going on in a
way that depends on the answer, and ends at last. A script says nothing about who answers.

* `Script.answerWith`: the end of a script and the state of whoever answered it.
-/

namespace ContractHost.Interpreter

/-- A course of questions that ends in a value. -/
inductive Script (α : Type) : Type
  /-- The end. -/
  | done (value : α)
  /-- A question, and how to go on with each answer. -/
  | ask (q : Query) (next : q.Answer → Script α)

/-- Plays a script against someone who answers and changes with each question. -/
def Script.answerWith {α σ : Type} (answer : (q : Query) → σ → q.Answer × σ) :
    Script α → σ → α × σ
  | .done value, s => (value, s)
  | .ask q next, s => (next (answer q s).1).answerWith answer (answer q s).2

end ContractHost.Interpreter
