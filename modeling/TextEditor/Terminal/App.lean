import TextEditor.Terminal.Render
import TextEditor.Terminal.Session

/-!
# The application

The application runs a session in a terminal: a view of the buffer and a status line, both of
which are there once the host has laid them out.  The host passes on what happens as events, and
the application asks it to capture the mouse and to call back.
-/

namespace TextEditor.Terminal

/-- What the host calls back. -/
inductive Callback where
  | fitSize
  | tick
  deriving DecidableEq, Repr

/-- What the application asks of its host. -/
inductive Request where
  | captureMouse (on : Bool)
  | afterRefresh (callback : Callback)
  | everySeconds (seconds : Float) (callback : Callback)

/-- A part of the layout: its kind and its name. -/
structure Widget where
  kind : String
  name : Option String
  deriving DecidableEq, Repr

/-- The application with the session it runs, once that has begun. -/
structure App where
  paths : List String
  workspace : Workspace
  /-- Whether the session has begun. -/
  running : Bool := false
  /-- Whether view and status line are there. -/
  laidOut : Bool := false
  width : Int := 40
  height : Int := 5
  /-- The frames that the view was given. -/
  frames : List StyledText := []
  /-- The texts that the status line was given. -/
  statuses : List String := []
  requests : List Request := []

namespace App

/-- The parts of the layout from top to bottom. -/
def layout : List Widget :=
  [⟨"Static", some "buffer-view"⟩, ⟨"Static", some "status-line"⟩, ⟨"Footer", none⟩]

/-- Ask something of the host. -/
def request (a : App) (r : Request) : App :=
  { a with requests := a.requests ++ [r] }

/-- Pass on what the session puts out, as far as there is something to show it. -/
def receive (a : App) : Output → App
  | .frame snapshot =>
    if a.laidOut then { a with frames := a.frames ++ [render snapshot (max a.width 1)] } else a
  | .status text => if a.laidOut then { a with statuses := a.statuses ++ [text] } else a
  | .line _ => a

/-- A step on the session. -/
def onSession {α : Type} (step : Step Session α) : Step App α :=
  Step.ofRun fun a =>
    let (outcome, s) := step.start { workspace := a.workspace, lines := .reported }
    (outcome, s.outputs.foldl receive { a with workspace := s.workspace })

/-- A step on the session if that has begun. -/
def whileRunning {α : Type} (fallback : α) (step : Step Session α) : Step App α := do
  if (← get).running then onSession step else return fallback

/-- Give the session the size of the view. -/
def fitSize : Step App Unit := do
  let a ← get
  if a.running && a.laidOut then
    onSession (Session.resize (max a.height 1) (max a.width 1))

/-- Time went on. -/
def tick : Step App Unit := do
  let _ ← whileRunning false (Session.tick)
  return ()

/-- Do what the host calls back. -/
def call : Callback → Step App Unit
  | .fitSize => fitSize
  | .tick => tick

/-- Have the host call back after it drew, which it does at once. -/
def callAfterRefresh (callback : Callback) : Step App Unit := do
  modify fun a => a.request (.afterRefresh callback)
  call callback

/-- Open a document; the status tells of one that cannot be loaded. -/
def openPath (path : String) : Step App Unit := do
  let opening : Step Workspace Unit := do
    match ← Step.attempt (Workspace.openFile path) with
    | .ok _ => return ()
    | .error (.load fault) => modify fun w => { w with status := fault.message }
    | .error fault => throw fault
  Step.zoom App.workspace (fun a workspace => { a with workspace }) opening

/-- The seconds between two ticks: those between two blinks, but a twentieth at most. -/
def tickInterval (w : Workspace) : Except CoordinateFault Float := do
  let blink ← w.blinkInterval
  return if 0.05 < blink then 0.05 else blink

/-- The host is up: open the documents and begin the session. -/
def mount : Step App Unit := do
  (← get).paths.forM openPath
  onSession Session.refresh
  modify fun a => { a with running := true }
  callAfterRefresh .fitSize
  let seconds ← Step.ofExcept .coordinate (tickInterval (← get).workspace)
  modify fun a => a.request (.everySeconds seconds .tick)

/-- The host goes down. -/
def unmount (a : App) : App :=
  { a with workspace := a.workspace.shutdown }

/-- The view has another size. -/
def resizeView (width height : Int) : Step App Unit := do
  modify fun a => { a with width, height }
  callAfterRefresh .fitSize

/-! ## Keys -/

/-- A key as the session takes it. -/
structure KeyPress where
  key : String
  text : Option String
  modifiers : List String
  deriving DecidableEq, Repr

/-- The character of a key event: the one that came with it, or that of a name that is one
character. -/
def characterOf (name : String) (character : Option String) : Option String :=
  character.or (if name.length = 1 then some name else none)

/-- The key of an event, from its name with modifiers in front and its character.  Only what prints
is text, and the shift that a single character already shows is left out. -/
def readKey (name : String) (character : Option String) : KeyPress :=
  let parts := (Text.splitOn '+' name.toList).map String.ofList
  let key := parts.getLast?.getD ""
  let modifiers := parts.dropLast
  let text := (characterOf name character).filter fun t => t.toList.all Text.isPrintable
  let single := text.any fun t => t.length = 1
  { key, text, modifiers := if single then modifiers.filter (· ≠ "shift") else modifiers }

/-- A key was pressed; whether it did something. -/
def pressKey (name : String) (character : Option String) : Step App Bool :=
  let press := readKey name character
  whileRunning false (Session.pressKey press.key press.modifiers press.text)

/-! ## Mouse -/

/-- Where the mouse is within the view, if the view is there. -/
def placeInView (a : App) (place : Option (Float × Float)) : Option (Float × Float) :=
  if a.laidOut then place else none

/-- The mouse button went down somewhere. -/
def pressMouse (place : Option (Float × Float)) (extending : Bool) (chain : Int) :
    Step App Unit := do
  let a ← get
  match a.placeInView place with
  | none => return ()
  | some (x, y) =>
    if a.running then
      let _ ← onSession (Session.pressMouse x y extending chain)
      modify fun a => a.request (.captureMouse true)

/-- The mouse button went up. -/
def releaseMouse : Step App Unit := do
  let _ ← whileRunning false Session.releaseMouse
  modify fun a => a.request (.captureMouse false)

/-- The mouse moved. -/
def moveMouse (place : Option (Float × Float)) : Step App Unit := do
  match (← get).placeInView place with
  | none => return ()
  | some (x, y) =>
    let _ ← whileRunning false (Session.moveMouse x y)

/-- The wheel turned. -/
def turnWheel (direction : Int) : Step App Unit := do
  let _ ← whileRunning false (Session.turnWheel direction)

end App

end TextEditor.Terminal
