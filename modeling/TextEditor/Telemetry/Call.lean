import TextEditor.Journal

/-!
# Calls on a log

What the editor asks of a log: to be set up in some way, to open a logger of some name, and to
write events and mark spans on a logger.  A report of the journal becomes calls on one logger; a
span adds its data as context while it lasts, and a failed one is written as an error.
-/

namespace TextEditor

/-- One choice in the set-up of a log. -/
inductive LogChoice where
  | minLevel (level : Level)
  | console (on : Bool)
  | colored (on : Bool)
  | json (on : Bool)
  | file (path : String)
  | buffering (on : Bool)
  | bufferSize (size : Int)
  | profiling (on : Bool)
  deriving DecidableEq, Repr

/-- What is done with a logger. -/
inductive LoggerCall where
  | write (level : Level) (message : String) (data : Pairs)
  | addContext (key value : String)
  | removeContext (key : String)
  | startComponent (name : String)
  | endComponent (name : String)
  | startProfile (name : String)
  | endProfile (name : String)
  deriving DecidableEq, Repr

/-- One call on a log. -/
inductive LogCall where
  | choose (choice : LogChoice)
  | openLogger (name : String)
  | on (logger : String) (call : LoggerCall)
  deriving DecidableEq, Repr

namespace Activity

/-- The component that the activity is counted under, if it has a name. -/
def components (a : Activity) : List String :=
  a.component.toList.filter fun name => !name.isEmpty

/-- The data of the activity, each key once. -/
def context (a : Activity) : Pairs :=
  Table.putAll [] a.metadata

/-- What is known of the activity once `added` was learnt. -/
def known (a : Activity) (added : Pairs) : Pairs :=
  Table.putAll a.context added

/-- What is written of the activity when it fails. -/
def failure (a : Activity) (added : Pairs) (reason : String) : Pairs :=
  let own := Table.putAll [("span", a.name)] (a.known added)
  let own := Table.putAll own (a.components.map fun name => ("component", name))
  Table.put own "reason" reason

end Activity

/-- The data of an event, whose name comes first. -/
def eventData (name : String) (data : Pairs) : Pairs :=
  Table.putAll [("event", name)] data

/-- What a report asks of a logger. -/
def Journal.Entry.calls : Journal.Entry → List LoggerCall
  | .event level name data => [.write level ("event::" ++ name) (eventData name data)]
  | .started activity =>
    activity.context.map (fun (key, value) => .addContext key value) ++
      activity.components.map .startComponent ++ [.startProfile activity.name]
  | .failed activity added reason =>
    [.write .error "span::fail" (activity.failure added reason)]
  | .ended activity =>
    activity.context.map (fun (key, _) => .removeContext key) ++ [.endProfile activity.name] ++
      activity.components.map .endComponent

/-- The logger that reports go to. -/
def mainLogger : String := "keen"

/-- The calls that the reports of a journal become. -/
def Journal.calls (journal : Journal) : List LogCall :=
  (journal.flatMap Entry.calls).map (.on mainLogger)

end TextEditor
