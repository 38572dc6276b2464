import TextEditor.Keymap.Registry

/-!
# The usual keys

The actions that the editor comes with and the strokes they are bound to.
-/

namespace TextEditor.Keymap

/-- The directions of the caret by name, with the command that each stands for. -/
def directions : List (String × (Bool → Command)) :=
  [("left", .move .left 1), ("right", .move .right 1), ("up", .move .up 1),
    ("down", .move .down 1), ("word_left", .move .leftWord 1), ("word_right", .move .rightWord 1),
    ("page_up", .page .up), ("page_down", .page .down)]

/-- An action under its own name. -/
def action (id : String) (command : Command) (description : String) : Action :=
  ⟨id, some command, id, description⟩

/-- Each direction moves the caret or extends the selection. -/
def movementActions : List Action :=
  directions.flatMap fun (name, command) =>
    let label := String.ofList (name.toList.map fun c => if c = '_' then ' ' else c)
    [action ("cursor." ++ name) (command false) ("Move caret " ++ label),
      action ("cursor." ++ name ++ "_select") (command true) ("Extend selection " ++ label)]

/-- The actions that the editor comes with. -/
def actions : List Action :=
  movementActions ++
    [action "edit.delete_left" .deleteLeft "Delete before the caret",
      action "edit.delete_right" .deleteRight "Delete after the caret",
      action "edit.delete_word_left" .deleteWordLeft "Delete the word before the caret",
      action "edit.delete_word_right" .deleteWordRight "Delete the word after the caret",
      action "edit.newline" .insertNewline "Insert a line break with indentation",
      action "edit.indent" (.insertTyped ['\t']) "Insert one indent unit",
      action "clipboard.copy" .copy "Copy the selection",
      action "clipboard.cut" .cut "Cut the selection or the current line",
      action "clipboard.paste" .paste "Paste clipboard text",
      action "history.undo" .undo "Undo the last edit",
      action "history.redo" .redo "Redo the last undone edit"]

/-- The strokes that the editor comes with, by modifiers and key, and their actions. -/
def strokes : List (List String × String × String) :=
  [([], "left", "cursor.left"), ([], "right", "cursor.right"), ([], "up", "cursor.up"),
    ([], "down", "cursor.down"),
    (["shift"], "left", "cursor.left_select"), (["shift"], "right", "cursor.right_select"),
    (["shift"], "up", "cursor.up_select"), (["shift"], "down", "cursor.down_select"),
    (["ctrl"], "left", "cursor.word_left"), (["ctrl"], "right", "cursor.word_right"),
    (["ctrl", "shift"], "left", "cursor.word_left_select"),
    (["ctrl", "shift"], "right", "cursor.word_right_select"),
    ([], "pageup", "cursor.page_up"), ([], "pagedown", "cursor.page_down"),
    (["shift"], "pageup", "cursor.page_up_select"),
    (["shift"], "pagedown", "cursor.page_down_select"),
    ([], "backspace", "edit.delete_left"), ([], "delete", "edit.delete_right"),
    (["ctrl"], "backspace", "edit.delete_word_left"),
    (["ctrl"], "delete", "edit.delete_word_right"),
    ([], "enter", "edit.newline"), ([], "tab", "edit.indent"),
    (["ctrl"], "c", "clipboard.copy"), (["ctrl"], "x", "clipboard.cut"),
    (["ctrl"], "v", "clipboard.paste"), (["ctrl"], "z", "history.undo"),
    (["ctrl"], "y", "history.redo")]

/-- The bindings that the editor comes with. -/
def bindings : List Binding :=
  strokes.map fun (modifiers, key, actionId) =>
    let stroke : Stroke := ⟨key, modifiers, none⟩
    { id := "default." ++ stroke.token
      stroke
      actionId
      source := some "defaults" }

/-- Which of the usual bindings to load, and what else. -/
structure Selection where
  replacing : Bool := false
  extra : List Binding := []
  /-- Only these, unless there are none. -/
  included : List String := []
  excluded : List String := []

/-- Whether a binding is to be loaded. -/
def Selection.selects (s : Selection) (b : Binding) : Bool :=
  (s.included.isEmpty || s.included.contains b.id) && !s.excluded.contains b.id

/-- Register the usual actions and bindings, and then the extra ones. -/
def load (r : Registry) (s : Selection := {}) : Except KeymapFault Unit × Registry :=
  match r.registerAll (fun r action => r.registerAction action s.replacing) actions with
  | (.error fault, r) => (.error fault, r)
  | (.ok (), r) =>
    r.registerAll (fun r binding => r.registerBinding binding s.replacing)
      (bindings.filter s.selects ++ s.extra)

end TextEditor.Keymap
