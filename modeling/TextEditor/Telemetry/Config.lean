import TextEditor.Fault
import TextEditor.Telemetry.Call
import TextEditor.Text.Uppercase

/-!
# Setting up a log

A log is set up by a preset, or from the variables of the environment.  The choices are made one
after the other, so that one that is refused leaves those before it made.
-/

namespace TextEditor

/-- The usual ways to set up a log. -/
inductive LogPreset where
  | development
  | production
  | performance
  deriving DecidableEq, Repr

namespace LogPreset

def name : LogPreset → String
  | .development => "development"
  | .production => "production"
  | .performance => "performance"

def all : List LogPreset :=
  [.development, .production, .performance]

/-- The preset of a name in upper or lower case. -/
def ofName? (name : String) : Option LogPreset :=
  match String.ofList (Text.lowercase name.toList) with
  | "development" => some .development
  | "production" => some .production
  | "performance" | "performance_analysis" => some .performance
  | _ => none

/-- The choices of a preset; the environment may name the file. -/
def choices (env : Environment) (preset : LogPreset) : List LogChoice :=
  let file (usual : String) : LogChoice :=
    .file (((env.editor? "LOG_FILE").filter (!·.isEmpty)).getD usual)
  match preset with
  | .development => [.minLevel .debug, .console true, .colored true, .json false]
  | .production => [.minLevel .info, .console false, file "keen.log", .buffering true]
  | .performance =>
    [.minLevel .debug, .console false, .buffering true, .json true, file "keen-performance.log"]

end LogPreset

/-- The level of a name in upper case. -/
def Level.ofUpperName? (name : String) : Option Level :=
  [.debug, .info, .warning, .error, .critical].find? fun level => level.name.toUpper = name

namespace LogChoice

/-- Make a choice. -/
def make (choice : LogChoice) : Step (List LogChoice) Unit :=
  modify fun made => made ++ [choice]

/-- The value of a variable that is set to something. -/
def given? (env : Environment) (name : String) : Option String :=
  (env.editor? name).filter (!·.isEmpty)

/-- Make the choices that the environment asks for. -/
def fromEnvironment (env : Environment) : Step (List LogChoice) Unit := do
  let raw := (given? env "LOG_LEVEL").getD "INFO"
  let level := String.ofList (Text.uppercase raw.toList)
  match Level.ofUpperName? level with
  | none => throw (.logLevel level)
  | some level => make (.minLevel level)
  let console := !env.flag "DISABLE_CONSOLE" false
  make (.console console)
  if console then make (.colored (!env.flag "NO_COLOR" false))
  if env.flag "LOG_JSON" false then make (.json true)
  match given? env "LOG_FILE" with
  | none => pure ()
  | some path => make (.file path)
  if env.flag "LOG_BUFFERED" false then
    make (.buffering true)
    let size := (given? env "LOG_BUFFER_SIZE").getD "2048"
    make (.bufferSize (← Step.ofExcept .integer (Text.readInteger size.toList)))
  make (.profiling true)

/-- Make the choices of a preset. -/
def fromPreset (env : Environment) (name : String) : Step (List LogChoice) Unit := do
  match LogPreset.ofName? name with
  | none => throw (.logPreset name)
  | some preset =>
    (preset.choices env).forM make
    make (.profiling true)

end LogChoice

end TextEditor
