import TextEditor.Workspace.Input

/-!
# Terminal sessions

A session shows a workspace on a terminal.  Keys, the mouse, the wheel, the size of the screen and
the passing of time come in; after each that was handled a frame and a status line go out, and
each key leaves a line that accounts for it.
-/

namespace TextEditor.Terminal

/-- What a session puts out. -/
inductive Output where
  | frame (snapshot : Option Snapshot)
  | status (text : String)
  | line (text : String)
  deriving DecidableEq, Repr

/-- Where the lines that account for keys go. -/
inductive LineOutlet where
  | dropped
  | shown
  /-- They are reported as events. -/
  | reported
  deriving DecidableEq, Repr

/-- A workspace on a terminal, and what was put out and not fetched yet. -/
structure Session where
  workspace : Workspace
  showsStatus : Bool := true
  lines : LineOutlet := .shown
  outputs : List Output := []

namespace Session

/-- A step on the workspace. -/
def onWorkspace {α : Type} (step : Step Workspace α) : Step Session α :=
  Step.zoom Session.workspace (fun s workspace => { s with workspace }) step

def put (s : Session) (output : Output) : Session :=
  { s with outputs := s.outputs ++ [output] }

/-- Account for a key. -/
def account (s : Session) (line : String) : Session :=
  match s.lines with
  | .dropped => s
  | .shown => s.put (.line line)
  | .reported =>
    { s with
      workspace :=
        s.workspace.collect [.event .debug "ui.input" [("line", line)]] }

/-- Name, caret and language of the active buffer, and the status of the workspace if it has
one. -/
def statusText (w : Workspace) : String :=
  match w.activeBuffer? with
  | none => if w.status.isEmpty then "no file" else w.status
  | some b =>
    let (line, column) := b.document.positionOf b.caret.absolute
    let place := s!"Ln {line + 1}, Col {column + 1}"
    "  ".intercalate
      ([b.name, place, b.language] ++ if w.status.isEmpty then [] else [w.status])

/-- Show the present state. -/
def refresh : Step Session Unit := do
  let snapshot ← onWorkspace Workspace.renderSnapshot
  modify fun s => s.put (.frame snapshot)
  modify fun s => if s.showsStatus then s.put (.status (statusText s.workspace)) else s

/-- Show the present state if something was handled. -/
def refreshIf (handled : Bool) : Step Session Bool := do
  if handled then refresh
  return handled

/-! ## Keys -/

/-- A text in quotes. -/
def inQuotes (text : String) : String :=
  String.ofList (Text.Quoted.encode text.toList)

/-- The name, caret, selection and number of lines of a buffer. -/
def describeBuffer : Option Buffer → List (String × String)
  | none => [("buffer", "None")]
  | some b =>
    let selection :=
      match b.caret.selection? with
      | none => "None"
      | some (start, stop) => s!"({start}, {stop})"
    [("buffer", inQuotes b.name), ("caret", toString b.caret.absolute), ("selection", selection),
      ("lines", toString b.document.lineCount)]

/-- The line that accounts for a key. -/
def keyLine (w : Workspace) (token : String) (handled : Bool) : String :=
  let outcome := if handled then "True" else "False"
  let fields :=
    describeBuffer w.activeBuffer? ++ [("token", inQuotes token), ("handled", outcome)]
  " ".intercalate ("key ->" :: fields.map fun (key, value) => key ++ "=" ++ value)

/-- A key was pressed; whether it did something. -/
def pressKey (key : String) (modifiers : List String := []) (text : Option String := none) :
    Step Session Bool := do
  let stroke ← Step.ofExcept .keymap (Stroke.make key modifiers text)
  let handled ← onWorkspace (Workspace.execute .keyPressed { stroke := some stroke })
  modify fun s => s.account (keyLine s.workspace stroke.token handled)
  refreshIf handled

/-! ## Mouse -/

/-- The point of the text that is shown at a point of the screen, right of the margin. -/
def textPoint? (w : Workspace) (x y : Float) : Option (Float × Float) :=
  w.activeBuffer?.map fun b => (x - Float.ofInt b.viewport.marginWidth, y)

/-- The mouse button went down, for the `chain`-th time in short order; whether that did
something. -/
def pressMouse (x y : Float) (extending : Bool := false) (chain : Int := 1) :
    Step Session Bool := do
  match textPoint? (← get).workspace x y with
  | none => return false
  | some point =>
    let input := if 2 ≤ chain then Input.doubleClick else Input.leftClick
    refreshIf (← onWorkspace (Workspace.execute input { point := some point, extending }))

/-- The mouse button went up. -/
def releaseMouse : Step Session Bool := do
  refreshIf (← onWorkspace (Workspace.execute .leftRelease))

/-- The mouse moved, which only means something while it extends a selection. -/
def moveMouse (x y : Float) : Step Session Bool := do
  let w := (← get).workspace
  if w.isSelecting then
    refreshIf (← onWorkspace (Workspace.execute .mouseMove { point := textPoint? w x y }))
  else return false

/-- The wheel turned: up for a negative direction, otherwise down. -/
def turnWheel (direction : Int) : Step Session Bool := do
  let input := if direction < 0 then Input.scrollUp else Input.scrollDown
  refreshIf (← onWorkspace (Workspace.execute input))

/-! ## Size and time -/

/-- The screen has another size. -/
def resize (rows columns : Int) : Step Session Unit := do
  modify fun s => { s with workspace := s.workspace.resize rows columns }
  refresh

/-- Time went on; whether the frame had to be drawn again. -/
def tick (now : Option Float := none) : Step Session Bool := do
  refreshIf (← onWorkspace (Workspace.tick now))

end Session

end TextEditor.Terminal
