import TextEditor.Caret
import TextEditor.History.Delta
import TextEditor.History.Timeline
import TextEditor.Json.Reader
import TextEditor.Json.Writer

/-!
# Edits for other programs

The JSON form of edits as a history remembers them, and of deltas as a program that follows a
document gets them.
-/

namespace TextEditor

open Json (item)

instance : OfJson Position := ⟨fun j => ⟨item j.items 0, item j.items 1⟩⟩

instance : ToJson Position := ⟨fun p => json (p.line, p.column)⟩

instance : OfJson Delta :=
  ⟨fun j =>
    { start := item j.items 0
      stop := item j.items 1
      start16 := item j.items 2
      stop16 := item j.items 3
      text := item j.items 4
      version := item j.items 5
      label := item j.items 6 }⟩

instance : ToJson Delta :=
  ⟨fun d =>
    .arr
      [json d.start, json d.stop, json d.start16, json d.stop16, json d.text, json d.version,
        json d.label]⟩

/-- Columns are counted in characters unless UTF-16 is asked for. -/
instance : OfJson Encoding :=
  ⟨fun j => if j.text = Encoding.utf16.name then .utf16 else .utf32⟩

instance : OfJson Edit := ⟨fun j => ⟨item j.items 0, item j.items 1, item j.items 2⟩⟩

instance : ToJson Edit := ⟨fun e => .arr [json e.offset, json e.removed, json e.inserted]⟩

instance : OfJson UndoEntry :=
  ⟨fun j =>
    { label := item j.items 0
      edits := item j.items 1
      caretBefore := item j.items 2
      anchorBefore := item j.items 3
      caretAfter := item j.items 4 }⟩

instance : ToJson UndoEntry :=
  ⟨fun e =>
    .arr
      [json e.label, json e.edits, json e.caretBefore, json e.anchorBefore, json e.caretAfter]⟩

/-- A history is told by how much it remembers and what can be done with it. -/
instance : ToJson Timeline := ⟨fun t => .arr [json t.length, json t.canUndo, json t.canRedo]⟩

instance : OfJson Caret :=
  ⟨fun j => ⟨item j.items 0, item j.items 1, item j.items 2, item j.items 3⟩⟩

instance : ToJson Caret := ⟨fun c => json [c.anchor, c.position, c.trailing, c.desiredColumn]⟩

end TextEditor
