import TextEditor.CommandLine.Launch
import TextEditor.Terminal.App

/-!
# The program

Reads the command line, the environment and the named files, and runs the application on the
standard input: each line is the name of a key, such as `ctrl+z`, and after each key the screen is
written out.  Language servers are not started from here.
-/

namespace TextEditor.Program

open CommandLine Terminal

/-- The variables that the editor looks at. -/
def variableNames : List String :=
  ["INDENT_WIDTH", "MOUSEWHEEL_LINES", "CARET_BLINK_MS", "LINE_ENDING", "LSP_ENABLED",
    "LSP_QUEUE_SIZE", "LSP_MAX_MESSAGE_SIZE", "LSP_CPP", "LSP_RUST", "LOG_FILE"]

/-- Those variables that are set. -/
def readEnvironment : IO Environment := do
  let found ← variableNames.mapM fun name => do
    let value ← IO.getEnv ("KEEN_" ++ name)
    return value.toList.map fun value => ("KEEN_" ++ name, value)
  return found.flatten

/-- What there is at a path. -/
def readEntry (path : String) : IO (List (String × Option Bytes)) := do
  try
    let contents ← IO.FS.readBinFile path
    return [(path, some contents.toList)]
  catch
    | .inappropriateType .. => return [(path, none)]
    | _ => return []

/-- The last frame and the last status. -/
def screen (a : App) : String :=
  let frame := (a.frames.getLast?.map fun frame => String.ofList frame.plain).getD ""
  frame ++ "\n" ++ (a.statuses.getLast?).getD "" ++ "\n"

/-- Write the screen, and do as the next key says until there is none. -/
partial def run (input output : IO.FS.Stream) (a : App) : IO Unit := do
  output.putStr (screen a)
  let line ← input.getLine
  if line.isEmpty then return ()
  let name := String.ofList (line.toList.filter (· ≠ '\n'))
  let (_, a) := (App.pressKey name none).start { a with frames := [], statuses := [] }
  let (_, a) := (App.onSession Session.refresh).start a
  run input output a

/-- The application for the documents and settings asked for. -/
def application (launch : Launch) (files : Folder) : App :=
  let settings := { launch.settings with serversEnabled := false }
  let hub : Server.Hub :=
    { settings, root := none, fleet := { capacity := settings.queueSize } }
  { paths := launch.paths
    workspace := { hub, keymap := (Keymap.load {}).2, folder := files }
    laidOut := true
    width := 80
    height := 24 }

/-- Open the documents and run. -/
def edit (launch : Launch) : IO Unit := do
  let entries ← launch.paths.mapM readEntry
  let (_, a) := App.mount.start (application launch ⟨entries.flatten⟩)
  run (← IO.getStdin) (← IO.getStdout) a

end TextEditor.Program

open TextEditor CommandLine Program in
def main (arguments : List String) : IO UInt32 := do
  match readOptions arguments with
  | .error ending =>
    IO.print ending.output
    IO.eprint ending.complaint
    return ending.exitCode.toUInt32
  | .ok options =>
    match (options.launch.start { environment := ← readEnvironment }).1 with
    | .error fault =>
      IO.eprintln ((fault.message?).getD "")
      return 1
    | .ok launch =>
      edit launch
      return 0
