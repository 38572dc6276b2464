import TextEditor.Buffer.Transaction
import TextEditor.Keymap.Defaults
import TextEditor.Server.Hub

/-!
# Workspaces

A workspace holds the open buffers, one of which is active, and everything whose life is that of
the session: keys, clipboard, language servers, the blinking caret and a status line.  The host
drives time forward and draws what a snapshot shows.
-/

namespace TextEditor

open Server (Hub)

/-- The open buffers and what they share. -/
structure Workspace where
  hub : Hub
  keymap : Registry
  host : Host := { clipboard := some {} }
  rows : Int := 24
  columns : Int := 80
  /-- The numbers of the open buffers, in order. -/
  opened : List Nat := []
  /-- The place of the active buffer among the open ones. -/
  active : Nat := 0
  caretVisible : Bool := true
  /-- When the caret blinks next. -/
  deadline : Option Float := none
  status : String := ""
  /-- The time in seconds. -/
  clock : Float := 0.0
  /-- Where paths lead. -/
  folder : Folder := {}

namespace Workspace

def settings (w : Workspace) : Settings :=
  w.hub.settings

/-- The number of the active buffer, if one is open. -/
def activeNumber? (w : Workspace) : Option Nat :=
  w.opened[w.active]?

/-- The active buffer, if one is open. -/
def activeBuffer? (w : Workspace) : Option Buffer :=
  w.activeNumber?.bind fun id => w.hub.buffers[id]?

/-- Add reports. -/
def collect (w : Workspace) (entries : Journal) : Workspace :=
  { w with hub := w.hub.collect entries }

/-- The workspace with the caret shown and its blinking begun afresh. -/
def resetBlink (w : Workspace) : Workspace :=
  { w with caretVisible := true, deadline := none }

/-- The status line tells of the last server that crashed. -/
def noticeCrashes (w : Workspace) : Workspace :=
  let status :=
    match w.hub.crashes.getLast? with
    | some (client, reason) => s!"{client} stopped: {reason}"
    | none => w.status
  { w with status, hub := { w.hub with crashes := [] } }

/-- A step on the sessions of servers. -/
def onHub {α : Type} (step : Step Hub α) : Step Workspace α :=
  Step.zoom Workspace.hub (fun w hub => { w with hub }.noticeCrashes) step

/-- A step on a buffer and the host; what the buffer reports is collected. -/
def onBuffer {α : Type} (id : Nat) (step : Step Desk α) : Step Workspace α :=
  Step.ofRun fun w =>
    match w.hub.buffers[id]? with
    | none => (.error (.raised "no such buffer"), w)
    | some buffer =>
      let (outcome, desk) := step.start { buffer, host := w.host }
      let hub := w.hub.alterBuffer id fun _ => { desk.buffer with journal := [] }
      (outcome, { w with hub, host := desk.host }.collect desk.buffer.journal)

/-- Do an operation on a buffer. -/
def performOn (id : Nat) (command : Command) : Step Workspace Reply :=
  onBuffer id (Desk.commanded command)

/-- Do an operation on the active buffer, if there is one. -/
def performActive (command : Command) : Step Workspace Unit := do
  match (← get).activeNumber? with
  | none => return ()
  | some id =>
    let _ ← performOn id command

/-- A step that is reported as an activity, whether it fails or not. -/
def reportedAs {α : Type} (activity : Activity) (step : Step Workspace α) : Step Workspace α :=
  Step.ofRun fun w =>
    let (outcome, w) := step.start (w.collect [.started activity])
    match outcome with
    | .ok a => (.ok a, w.collect [.ended activity])
    | .error fault =>
      (.error fault, w.collect [.failed activity [] fault.reported, .ended activity])

/-- Change the keymap; what it reports is collected. -/
def onKeymap (change : Registry → Except KeymapFault Unit × Registry) : Step Workspace Unit :=
  Step.ofRun fun w =>
    let (outcome, keymap) := change w.keymap
    (outcome.mapError .keymap,
      { w with keymap := { keymap with journal := [] } }.collect keymap.journal)

/-! ## Buffers -/

/-- Open a buffer in the size of the workspace and make it the active one; its number is the
answer. -/
def addBuffer (b : Buffer) : Step Workspace Nat := do
  let w ← get
  let id := w.hub.buffers.length
  let b := b.resize w.rows w.columns
  set
    { w with
      hub := { w.hub with buffers := w.hub.buffers ++ [b] }
      opened := w.opened ++ [id]
      active := w.opened.length }
  let _ ← onHub (Hub.openDocument id)
  modify resetBlink
  return id

/-- Load the document at a path into a new active buffer. -/
def openFile (path : String) : Step Workspace Nat :=
  reportedAs
    { name := "editor::open_file", component := some "editor", metadata := [("path", path)] } do
    let w ← get
    let text ← Step.ofExcept .load (w.folder.load path)
    addBuffer (Buffer.create path text w.rows w.columns w.settings)

/-- The place of the active buffer after the one at `index` was closed, where `count` are left. -/
def activeAfterClose (active index count : Nat) : Nat :=
  if count ≤ active then count - 1
  else if index < active then active - 1
  else active

/-- Close the open buffer at a place, or the active one; its number is the answer.  A place where
there is none changes nothing. -/
def closeFile (w : Workspace) (index : Option Int) : Option Nat × Workspace :=
  let place := index.getD w.active
  if place < 0 then (none, w)
  else
    match w.opened[place.toNat]? with
    | none => (none, w)
    | some id =>
      let opened := w.opened.eraseIdx place.toNat
      let active := activeAfterClose w.active place.toNat opened.length
      (some id, { w with hub := w.hub.closeDocument id, opened, active })

/-- Make the open buffer at a place the active one, if there is one there. -/
def focus (w : Workspace) (index : Int) : Workspace :=
  if index < 0 then w
  else
    match w.opened[index.toNat]? with
    | none => w
    | some id =>
      { w with
        active := index.toNat
        hub := w.hub.alterBuffer id fun b => { b with dirty := true } }

/-- Whether the mouse extends a selection of the active buffer. -/
def isSelecting (w : Workspace) : Bool :=
  w.activeBuffer?.any Buffer.selecting

/-- Give the workspace and all open buffers a size. -/
def resize (w : Workspace) (rows columns : Int) : Workspace :=
  let rows := max 1 rows
  let columns := max 1 columns
  let hub := w.opened.foldl (fun hub id => hub.alterBuffer id (·.resize rows columns)) w.hub
  { w with rows, columns, hub }

/-! ## Time and servers -/

/-- The seconds between two blinks. -/
def blinkInterval (w : Workspace) : Except CoordinateFault Float := do
  return (← floatOfInt w.settings.blinkMilliseconds) / 1000.0

/-- Let the caret blink if it is time; whether it did. -/
def blink (w : Workspace) (now interval : Float) : Bool × Workspace :=
  match w.deadline with
  | none => (false, { w with deadline := some (now + interval) })
  | some deadline =>
    if now >= deadline then
      (true, { w with caretVisible := !w.caretVisible, deadline := some (now + interval) })
    else (false, w)

/-- Let time go on: the caret blinks, servers are heard and told.  Whether the active buffer has to
be drawn again. -/
def tick (now : Option Float) : Step Workspace Bool := do
  let w ← get
  let interval ← Step.ofExcept .coordinate w.blinkInterval
  let (repaint, w) := w.blink (now.getD w.clock) interval
  set w
  let _ ← onHub Hub.drain
  let _ ← onHub Hub.syncChanges
  return repaint || ((← get).activeBuffer?.any Buffer.dirty)

/-- Replace the server of a language, or of that of the active buffer. -/
def restartServer (language : Option String) : Step Workspace Bool := do
  match language.or ((← get).activeBuffer?.map Buffer.language) with
  | none => return false
  | some language => onHub (Hub.restart language)

def shutdown (w : Workspace) : Workspace :=
  { w with hub := w.hub.shutdown }

/-- The frame of the active buffer, where lexical spans follow semantic ones.  The buffer is drawn
with that. -/
def renderSnapshot : Step Workspace (Option Snapshot) := do
  let w ← get
  match w.activeNumber?, w.activeBuffer? with
  | some id, some b =>
    modify fun w => w.collect b.reportHighlight.journal
    let semantic ← Step.ofExcept .shape (w.hub.semanticSpans b)
    modify fun w => { w with hub := w.hub.alterBuffer id fun b => { b with dirty := false } }
    let snapshot := b.snapshot
    return some
      { snapshot with
        spans := semantic ++ snapshot.spans
        caretVisible := w.caretVisible }
  | _, _ => return none

end Workspace

end TextEditor
