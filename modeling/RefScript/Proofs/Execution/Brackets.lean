import RefScript.Proofs.Execution.Recursion

namespace RefScript

/-!
# Bodies between two requests

Blocks, frames and calls do the same thing: a request opens a scope or a frame,
the body is executed, and another request closes what has been opened. What is
shown of all three is shown once, of a body between two requests.
-/

/-- The pairs of requests between which bodies are executed. -/
inductive Bracket where
  | scope
  | frame
  | call (function : String) (formals actuals : List String)

namespace Bracket

/-- The request before the body. -/
def opens : Bracket → Operation (List Command)
  | scope => .pushScope
  | frame => .pushFrame
  | call function formals actuals => .pushCallFrame function formals actuals

/-- The request after the body. -/
def closes : Bracket → Operation (List Command)
  | scope => .popScope
  | frame | call .. => .popFrame

/-- The action before the body. -/
def push : Bracket → Store.Action (List Command) Unit
  | scope => Store.pushScope
  | frame => Store.pushFrame
  | call function formals actuals => Store.pushCallFrame function formals actuals

/-- The action after the body. -/
def pop : Bracket → Store.Action (List Command) Unit
  | scope => Store.popScope
  | frame | call .. => Store.popFrame

theorem requests_push (bracket : Bracket) :
    Store.Requests bracket.push bracket.opens fun _ => .done := by
  cases bracket with
  | scope => exact Store.requests_pushScope
  | frame => exact Store.requests_pushFrame
  | call function formals actuals => exact Store.requests_pushCallFrame function formals actuals

theorem requests_pop (bracket : Bracket) :
    Store.Requests bracket.pop bracket.closes fun _ => .done := by
  cases bracket with
  | scope => exact Store.requests_popScope
  | frame | call => exact Store.requests_popFrame

theorem closes_eq (bracket : Bracket) :
    bracket.closes = .popScope ∨ bracket.closes = .popFrame := by
  cases bracket with
  | scope => exact Or.inl rfl
  | frame | call => exact Or.inr rfl

/-- The step that has a body between the two requests. -/
def around (bracket : Bracket) (body : Execution Unit) : Execution Unit := do
  onStore bracket.push
  body
  onStore bracket.pop

end Bracket

/-- The body that a command executes on a machine, and the requests between which it does. -/
inductive Encloses (machine : Machine) : Command → Bracket → List Command → Prop where
  | block
      {body : List Command} {position : Position} :
      Encloses machine (.block body position) .scope body
  | frame
      {body : List Command} {position : Position} :
      Encloses machine (.frame body position) .frame body
  | call
      {name : String} {actuals : List String} {position : Position}
      {definition : FunctionDef (List Command)}
      (found : machine.store.functions.find? name = some definition) :
      Encloses machine (.call name actuals position)
        (.call name definition.formals actuals) definition.body

theorem Encloses.execute_eq
    {machine : Machine} {command : Command} {bracket : Bracket} {body : List Command}
    (encloses : Encloses machine command bracket body) :
    execute [command] machine = bracket.around (execute body) machine := by
  cases encloses with
  | block => rw [execute_block]; rfl
  | frame => rw [execute_frame]; rfl
  | call found => exact execute_call_of_found found _ _

/-- Induction on a run, in which bodies between two requests are one case. -/
theorem execute_bracketInduction
    {holds : List Command → Machine → Prop}
    (nil : ∀ machine, holds [] machine)
    (cons :
      ∀ command rest machine,
        holds [command] machine →
        (∀ next, execute [command] machine = .ok () next → holds rest next) →
        holds (command :: rest) machine)
    (simple :
      ∀ command machine, command.isSimple = true → holds [command] machine)
    (unknown :
      ∀ name actuals position machine,
        machine.store.functions.find? name = none →
        holds [.call name actuals position] machine)
    (bracket :
      ∀ command bracket body machine,
        Encloses machine command bracket body →
        (∀ entered, onStore bracket.push machine = .ok () entered → holds body entered) →
        holds [command] machine) :
    ∀ commands machine, holds commands machine := by
  apply execute_induction nil cons simple
  · exact fun body position machine inside => bracket _ _ body machine .block inside
  · exact fun body position machine inside => bracket _ _ body machine .frame inside
  · intro name actuals position machine inside
    cases found : machine.store.functions.find? name with
    | none =>
        exact unknown name actuals position machine found
    | some definition =>
        exact bracket _ _ definition.body machine (.call found)
          fun entered pushed => inside definition entered found pushed

end RefScript
