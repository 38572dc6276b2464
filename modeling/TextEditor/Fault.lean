import TextEditor.Files
import TextEditor.Keymap.Stroke
import TextEditor.Layout.Coordinate
import TextEditor.Server.Client
import TextEditor.Server.Frame
import TextEditor.Json.Shape
import TextEditor.Settings

/-!
# Faults

Everything that can go wrong in the editor, and steps that may fail.  A step that fails keeps what
it did before it failed, so the state goes on beside the fault.
-/

namespace TextEditor

/-- Why an operation fails. -/
inductive Fault where
  | coordinate (fault : CoordinateFault)
  | cellSize
  | load (fault : LoadFault)
  | frame (fault : Server.FrameFault)
  | write (fault : Server.WriteFault)
  | pipe (fault : Server.PipeFault)
  | shape (fault : ShapeFault)
  /-- Values are nested more deeply than there is room for. -/
  | nesting
  /-- Half of a pair of UTF-16 units, which has no bytes, was to be written. -/
  | halves
  | settings (fault : SettingsFault)
  | keymap (fault : KeymapFault)
  | integer (defect : Text.IntegerDefect)
  | unknownInput (name : String)
  | unknownLanguage (name : String)
  | unknownMotion (name : String)
  | logLevel (name : String)
  | unsupportedLogLevel (name : String)
  | logPreset (name : String)
  | logConfigTwice
  /-- Something that a caller of the editor raised inside one of its operations. -/
  | raised (message : String)
  deriving DecidableEq, Repr

namespace Fault

/-- What is said of a name that is not one of a kind. -/
def noMember (name kind : String) : String :=
  String.ofList (Text.Quoted.encode name.toList) ++ s!" is not a valid {kind}"

/-- What is said of a fault, as far as anything is. -/
def message? : Fault → Option String
  | .coordinate fault => some fault.message
  | .cellSize => some "cell dimensions must be positive"
  | .load fault => some fault.message
  | .frame fault => some fault.message
  | .write fault => some fault.message
  | .pipe fault => some fault.message
  | .shape .overflow => some "int too large to convert to float"
  | .shape _ | .nesting | .halves => none
  | .settings fault => some fault.message
  | .keymap fault => some fault.message
  | .integer defect => some defect.message
  | .unknownInput name => some (noMember name "EditorCommand")
  | .unknownLanguage name => some (noMember name "Language")
  | .unknownMotion name => some (noMember name "SelectionMode")
  | .logLevel name => some s!"Invalid log level: {name}"
  | .unsupportedLogLevel name => some s!"Unsupported log level '{name}'."
  | .logPreset name => some s!"Unknown preset '{name}'."
  | .logConfigTwice => some "Provide either `config` or `preset`, not both."
  | .raised message => some message

/-- The message as a report of a failed activity gives it. -/
def reported : Fault → String
  | .keymap fault => fault.reported
  | fault => fault.message?.getD ""

end Fault

/-- A step on a state that may fail. -/
abbrev Step (σ α : Type) := ExceptT Fault (StateM σ) α

namespace Step

variable {σ τ α : Type}

/-- The outcome of a step and the state after it. -/
def start (step : Step σ α) (state : σ) : Except Fault α × σ :=
  step.run.run state

/-- A step from its outcome and the state after it. -/
def ofRun (run : σ → Except Fault α × σ) : Step σ α :=
  ExceptT.mk fun state => run state

/-- A step on a part of the state. -/
def zoom (get : σ → τ) (set : σ → τ → σ) (step : Step τ α) : Step σ α :=
  ofRun fun state =>
    let (outcome, part) := step.start (get state)
    (outcome, set state part)

/-- The value of a computation that may fail for a reason of its own. -/
def ofExcept {ε : Type} (fault : ε → Fault) (value : Except ε α) : Step σ α :=
  match value with
  | .ok a => pure a
  | .error e => throw (fault e)

/-- The outcome of a step, which itself does not fail. -/
def attempt (step : Step σ α) : Step σ (Except Fault α) :=
  ofRun fun state =>
    let (outcome, state) := step.start state
    (.ok outcome, state)

theorem start_attempt (step : Step σ α) (state : σ) :
    (attempt step).start state = (.ok (step.start state).1, (step.start state).2) := rfl

end Step

end TextEditor
