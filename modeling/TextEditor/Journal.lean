import TextEditor.Json.Basic

/-!
# Journal

What the editor reports about its own work: events at a level with named data, and spans, which
mark the beginning and the end of an operation.  The journal keeps them in order; turning them
into the calls of a log is left to `TextEditor.Telemetry`.
-/

namespace TextEditor

/-- How important an event is. -/
inductive Level where
  | debug
  | info
  | warning
  | error
  | critical
  deriving DecidableEq, Repr

def Level.name : Level → String
  | .debug => "debug"
  | .info => "info"
  | .warning => "warning"
  | .error => "error"
  | .critical => "critical"

/-- Named texts in order. -/
abbrev Pairs := List (String × String)

/-- An operation that takes time, with the component it is counted under and what is known of it
while it lasts. -/
structure Activity where
  name : String
  component : Option String := none
  metadata : Pairs := []
  deriving DecidableEq, Repr

namespace Journal

/-- One report. -/
inductive Entry where
  | event (level : Level) (name : String) (data : Pairs)
  /-- The activity begins. -/
  | started (activity : Activity)
  /-- The activity fails; `added` was learnt while it lasted. -/
  | failed (activity : Activity) (added : Pairs) (reason : String)
  /-- The activity ends, failed or not. -/
  | ended (activity : Activity)
  deriving DecidableEq, Repr

end Journal

/-- Reports in the order in which they were made. -/
abbrev Journal := List Journal.Entry

namespace Journal

/-- Report an activity that has nothing to report in between. -/
def brief (activity : Activity) : Journal :=
  [.started activity, .ended activity]

end Journal

end TextEditor
