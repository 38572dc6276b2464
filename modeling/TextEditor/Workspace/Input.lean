import TextEditor.Workspace.Basic

/-!
# Input

What keys and mouse do to a workspace.  A key that is bound runs its action; otherwise the text
that it types is inserted.
-/

namespace TextEditor

/-- The kinds of input. -/
inductive Input where
  | scrollUp
  | scrollDown
  | leftClick
  | leftRelease
  | mouseMove
  | doubleClick
  | insertChar
  | keyPressed
  deriving DecidableEq, Repr

namespace Input

/-- The input of that name. -/
def ofName (name : String) : Except Fault Input :=
  match name with
  | "scroll_up" => .ok .scrollUp
  | "scroll_down" => .ok .scrollDown
  | "left_click" => .ok .leftClick
  | "left_release" => .ok .leftRelease
  | "mouse_move" => .ok .mouseMove
  | "double_click" => .ok .doubleClick
  | "char_insert" => .ok .insertChar
  | "key_pressed" => .ok .keyPressed
  | _ => .error (.unknownInput name)

/-- Whether the caret is shown again after the input. -/
def showsCaret : Input → Bool
  | .leftClick | .doubleClick | .insertChar | .keyPressed => true
  | _ => false

end Input

/-- What comes with an input; each kind uses its own part. -/
structure InputData where
  point : Option (Float × Float) := none
  extending : Bool := false
  char : Text := []
  stroke : Option Stroke := none

namespace Workspace

/-- Whether a text is one character that typing inserts: no control other than the tab. -/
def isTypable (t : Text) : Bool :=
  match t with
  | [c] => 0x20 ≤ c.toNat || c = '\t'
  | _ => false

/-- Type a text that is one character into a buffer; whether it was. -/
def typeChar (id : Nat) (t : Text) : Step Workspace Bool := do
  if isTypable t then
    let _ ← performOn id (.insertTyped t)
    return true
  else return false

/-- Run the action that a stroke is bound to, or type its text; whether it did either. -/
def handleKey (stroke : Stroke) : Step Workspace Bool := do
  let w ← get
  match w.keymap.resolve stroke.token with
  | some action =>
    reportedAs
      { name := "keymaps::" ++ action.telemetryName
        component := some "keymaps"
        metadata := [("token", stroke.token)] } do
      match action.command with
      | some command => performActive command
      | none => return ()
    modify resetBlink
    return true
  | none =>
    match w.activeNumber?, stroke.text with
    | some id, some text =>
      if stroke.isPrintable then
        text.toList.forM fun c => do
          let _ ← typeChar id [c]
        modify resetBlink
        return true
      else return false
    | _, _ => return false

/-- Do an operation on a buffer and take the input as handled. -/
def handledBy (id : Nat) (command : Command) : Step Workspace Bool := do
  let _ ← performOn id command
  return true

/-- What an input does to the active buffer; whether it was handled. -/
def applyInput (id : Nat) (input : Input) (data : InputData) : Step Workspace Bool := do
  let lines := (← get).settings.wheelLines
  match input, data.point, data.stroke with
  | .scrollUp, _, _ => handledBy id (.scrollUp lines)
  | .scrollDown, _, _ => handledBy id (.scrollDown lines)
  | .leftClick, some (x, y), _ => handledBy id (.click x y data.extending)
  | .leftRelease, _, _ => handledBy id .release
  | .mouseMove, some (x, y), _ => handledBy id (.drag x y)
  | .doubleClick, some (x, y), _ => handledBy id (.doubleClick x y)
  | .insertChar, _, _ => typeChar id data.char
  | .keyPressed, _, some stroke => handleKey stroke
  | _, _, _ => return false

/-- Give an input to the active buffer; whether it was handled. -/
def execute (input : Input) (data : InputData := {}) : Step Workspace Bool := do
  match (← get).activeNumber? with
  | none => return false
  | some id =>
    let handled ← applyInput id input data
    if handled && input.showsCaret then modify resetBlink
    return handled

end Workspace

end TextEditor
