import TextEditor.Buffer.Basic

/-!
# Edits of a buffer

Every change of the text is a splice: a range is replaced, and whoever follows the buffer is told.
The splices of one operation are grouped into one undo step; an operation inside another one joins
its group.  Undo replaces what an operation inserted by what it removed, last edit first, and redo
does its edits again.
-/

namespace TextEditor.Buffer

/-- Replace the characters between two offsets and note the change for the server. -/
def splice (b : Buffer) (start stop : Int) (new : Text) (label : String) : Buffer :=
  let before := b.document
  let document := (before.remove start stop).insert start new
  let change : Delta :=
    { start := before.position start
      stop := before.position stop
      start16 := before.position16 start
      stop16 := before.position16 stop
      text := new
      version := document.version
      label }
  { b with
    document
    changes := if b.tracking then b.changes ++ [change] else b.changes
    dirty := true }

/-- The activity under which an operation is reported. -/
def activity (b : Buffer) (label : String) : Activity :=
  { name := "buffer::" ++ label
    component := some ("buffer::" ++ label)
    metadata := [("buffer", b.name)] }

/-- Begin a group of edits. -/
def beginGroup (b : Buffer) (label : String) : Buffer :=
  { b.report [.started (b.activity label)] with
    grouping := some ⟨label, [], b.caret.absolute, b.caret.anchor⟩ }

/-- End the group; if it has edits they become one undo step. -/
def endGroup (b : Buffer) : Buffer :=
  match b.grouping with
  | none => b
  | some group =>
    let timeline :=
      if group.edits.isEmpty then b.timeline
      else
        b.timeline.push
          ⟨group.label, group.edits, group.caretBefore, group.anchorBefore, b.caret.absolute⟩
    { b.report [.ended (b.activity group.label)] with grouping := none, timeline }

/-- End the group after a failure: its edits stay in the text and are not remembered. -/
def abandonGroup (b : Buffer) (reason : String) : Buffer :=
  match b.grouping with
  | none => b
  | some group =>
    let activity := b.activity group.label
    { b.report [.failed activity [] reason, .ended activity] with grouping := none }

/-- Do an operation as one undo step, or as part of the one that is going on. -/
def grouped (label : String) (operation : Buffer → Buffer) (b : Buffer) : Buffer :=
  match b.grouping with
  | some _ => operation b
  | none => (operation (b.beginGroup label)).endGroup

/-- Add an edit to the group that is going on. -/
def recordEdit (b : Buffer) (edit : Edit) : Buffer :=
  { b with
    grouping := b.grouping.map fun group => { group with edits := group.edits ++ [edit] } }

/-- Replace the characters between two offsets, which saturate at the bounds of the document, as an
undo step.  To replace nothing by nothing is no edit. -/
def replaceRange (b : Buffer) (start stop : Int) (new : Text) (label : String) : Buffer :=
  let first := min (b.document.clamp start) (b.document.clamp stop)
  let last := max (b.document.clamp start) (b.document.clamp stop)
  if first = last && new.isEmpty then b
  else
    b.grouped label fun b =>
      let removed := Text.slice b.text first last
      (b.splice first last new label).recordEdit ⟨first, removed, new⟩

/-- Take one edit back. -/
def revertEdit (b : Buffer) (edit : Edit) : Buffer :=
  b.splice edit.offset (edit.offset + edit.inserted.length) edit.removed "undo"

/-- Do one edit again. -/
def repeatEdit (b : Buffer) (edit : Edit) : Buffer :=
  b.splice edit.offset (edit.offset + edit.removed.length) edit.inserted "redo"

/-- The activity under which an undo or a redo is reported. -/
def replayActivity (label : String) (entry : UndoEntry) : Activity :=
  { name := "buffer::" ++ label
    component := some ("buffer::" ++ label)
    metadata := [("label", entry.label)] }

/-- Take the latest operation back, if there is one: text, caret and anchor are as before it. -/
def undo (b : Buffer) : Buffer × Bool :=
  match b.timeline.undo? with
  | none => (b, false)
  | some (entry, timeline) =>
    let activity := replayActivity "undo" entry
    let b := { b.report [.started activity] with timeline }
    let b := (entry.edits.reverse.foldl revertEdit b).collapse entry.caretBefore
    let b := { b with caret := { b.caret with anchor := entry.anchorBefore } }
    ((b.report [.ended activity]).reconcile, true)

/-- Do the operation undone last again, if there is one. -/
def redo (b : Buffer) : Buffer × Bool :=
  match b.timeline.redo? with
  | none => (b, false)
  | some (entry, timeline) =>
    let activity := replayActivity "redo" entry
    let b := { b.report [.started activity] with timeline }
    let b := (entry.edits.foldl repeatEdit b).collapse entry.caretAfter
    ((b.report [.ended activity]).reconcile, true)

end TextEditor.Buffer
