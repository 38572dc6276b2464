import TextEditor.Buffer.Snapshot
import TextEditor.Json.Reader
import TextEditor.Json.Writer
import TextEditor.Layout.CellGrid
import TextEditor.Terminal.Styled

/-!
# Frames for other front ends

The JSON form of what a front end needs to draw a buffer and to tell where things are: spans,
rectangles, snapshots and styled rows.
-/

namespace TextEditor

open Json (item)

instance : OfJson Span :=
  ⟨fun j => ⟨item j.items 0, item j.items 1, (Category.ofName? (item j.items 2)).getD .unstyled⟩⟩

instance : ToJson Span := ⟨fun s => .arr [json s.start, json s.length, json s.category.name]⟩

instance : OfJson Hit := ⟨fun j => ⟨item j.items 0, item j.items 1⟩⟩

instance : ToJson Hit := ⟨fun hit => json (hit.offset, hit.trailing)⟩

instance : ToJson (Rect Float) := ⟨fun r => json [r.left, r.top, r.width, r.height]⟩

instance : OfJson Snapshot :=
  ⟨fun j =>
    { text := j.key "text"
      viewStart := j.key "view_start"
      lineOffset := j.key "line_offset"
      columnOffset := j.key "column_offset"
      lineNumbers := j.key "line_numbers"
      marginWidth := j.key "margin_width"
      caret := j.key "caret"
      caretTrailing := j.key "caret_trailing"
      selection := j.key "selection"
      spans := j.key "spans"
      brackets := j.key "brackets"
      caretVisible := j.key "caret_visible" (.bool true) }⟩

instance : ToJson Snapshot :=
  ⟨fun s =>
    .obj
      [("text", json s.text),
        ("view_start", json s.viewStart),
        ("line_offset", json s.lineOffset),
        ("column_offset", json s.columnOffset),
        ("line_numbers", json s.lineNumbers),
        ("margin_width", json s.marginWidth),
        ("caret", json s.caret),
        ("caret_trailing", json s.caretTrailing),
        ("selection", json s.selection),
        ("spans", json s.spans),
        ("brackets", json s.brackets),
        ("caret_visible", json s.caretVisible)]⟩

instance : ToJson StyleSpan := ⟨fun s => .arr [json s.start, json s.stop, json s.style]⟩

/-- A styled text by its characters and its spans. -/
def StyledText.jsonFields (t : StyledText) : List (Json.Literal × Json) :=
  [("plain", json t.plain), ("spans", json t.spans)]

instance : ToJson StyledText := ⟨fun t => .obj t.jsonFields⟩

end TextEditor
