import TextEditor.Telemetry.Config

/-!
# Logs

A log is set up once and may be set up anew; a logger is opened the first time that it is used
after that.  Events and spans go to the main logger unless they name another one.
-/

namespace TextEditor

/-- A log: what it is set up from, the loggers that are open, and the calls made so far. -/
structure Log where
  environment : Environment := []
  openLoggers : List String := [mainLogger]
  calls : List LogCall := []

namespace Log

def call (log : Log) (c : LogCall) : Log :=
  { log with calls := log.calls ++ [c] }

/-- The log after choices were made for it. -/
def choosing (step : Step (List LogChoice) Unit) : Step Log Unit :=
  Step.zoom (fun _ => [])
    (fun log made => { log with calls := log.calls ++ made.map .choose }) step

/-- Put a set-up to use: all loggers have to be opened anew. -/
def settle : Step Log Unit := do
  choosing (LogChoice.make (.profiling true))
  modify fun log => { log with openLoggers := [] }

/-- Set up the log, by a preset if one is named and otherwise from the environment. -/
def configure (preset : Option String := none) : Step Log Unit := do
  let env := (← get).environment
  match preset.filter (!·.isEmpty) with
  | some preset => choosing (LogChoice.fromPreset env preset)
  | none => choosing (LogChoice.fromEnvironment env)
  settle

/-- Take over a set-up that was made elsewhere, which leaves no room for a preset. -/
def adopt (preset : Option String := none) : Step Log Unit := do
  if (preset.filter (!·.isEmpty)).isSome then throw .logConfigTwice
  settle

/-- The name of a logger, which is open from then on. -/
def getLogger (name : Option String := none) : Step Log String := do
  let name := (name.filter (!·.isEmpty)).getD mainLogger
  modify fun log =>
    if log.openLoggers.contains name then log
    else { log.call (.openLogger name) with openLoggers := name :: log.openLoggers }
  return name

/-- Give a report to a logger. -/
def report (logger : String) (entry : Journal.Entry) : Step Log Unit :=
  modify fun log => (entry.calls.map (LogCall.on logger)).foldl call log

/-- The level of a name in upper or lower case. -/
def levelOf (name : String) : Except Fault Level :=
  let level := Level.ofUpperName? (String.ofList (Text.lowercase name.toList)).toUpper
  level.elim (.error (.unsupportedLogLevel name)) .ok

/-- Write an event. -/
def record (name : String) (level : String := "info") (data : Pairs := [])
    (logger : Option String := none) : Step Log Unit := do
  let logger ← getLogger logger
  let level ← Step.ofExcept id (levelOf level)
  report logger (.event level name data)

/-- Run a step as an activity during which `added` is learnt; what is known of the activity in the
end is the answer. -/
def span (activity : Activity) (added : Pairs) (body : Step Log Unit)
    (logger : Option String := none) : Step Log Pairs := do
  let logger ← getLogger logger
  report logger (.started activity)
  let outcome ← Step.attempt body
  if let .error fault := outcome then
    report logger (.failed activity added fault.reported)
  report logger (.ended activity)
  Step.ofExcept id outcome
  return activity.known added

end Log

end TextEditor
