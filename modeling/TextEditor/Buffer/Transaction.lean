import TextEditor.Buffer.Command
import TextEditor.Fault

/-!
# Transactions

A transaction groups whatever steps a caller takes on a buffer into one undo step.  When one of
them fails the edits made so far stay in the text but are not remembered, and the failure goes on.
-/

namespace TextEditor.Desk

/-- A step on the buffer alone, which does not fail. -/
def alter (change : Buffer → Buffer) : Step Desk Unit :=
  modify fun d => d.onBuffer change

/-- An operation as a step. -/
def commanded (command : Command) : Step Desk Reply :=
  Step.ofRun fun d =>
    let (outcome, d) := d.perform command
    (outcome.mapError .coordinate, d)

/-- Take steps as one operation, or as part of the one that is going on. -/
def transaction {α : Type} (label : String) (body : Step Desk α) : Step Desk α := do
  if (← get).buffer.grouping.isSome then body
  else
    alter (Buffer.beginGroup · label)
    match ← Step.attempt body with
    | .ok a =>
      alter Buffer.endGroup
      return a
    | .error fault =>
      alter (Buffer.abandonGroup · fault.reported)
      throw fault

end TextEditor.Desk
