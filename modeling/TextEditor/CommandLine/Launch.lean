import TextEditor.CommandLine.Options
import TextEditor.Telemetry.Log

/-!
# Launching the editor

What the command line and the environment together say of the documents to open and the settings to
open them with.
-/

namespace TextEditor.CommandLine

/-- The documents to open, and the settings. -/
structure Launch where
  paths : List String
  settings : Settings

namespace Options

/-- The settings of the environment as far as the options leave them. -/
def settings (o : Options) (env : Environment) : Except SettingsFault Settings :=
  let settings := Settings.ofEnvironment env
  let settings := if o.withoutServers then { settings with serversEnabled := false } else settings
  match o.indentWidth with
  | none => .ok settings
  | some width => settings.withIndentWidth width

/-- Set up the log and the settings.  The log does not write to the terminal unless it is asked
to. -/
def launch (o : Options) : Step Log Launch := do
  Log.configure (some (o.logPreset.getD .production).name)
  let settings ← Step.ofExcept .settings (o.settings (← get).environment)
  return { paths := o.paths, settings }

end Options

end TextEditor.CommandLine
