import TextEditor.Text.Basic
import TextEditor.Text.Lowercase
import TextEditor.Text.Printable
import TextEditor.Text.Quoted
import TextEditor.Text.Whitespace

/-!
# Key strokes

A stroke is a key with its modifiers, and the character it types, if any.  Key and modifiers are
kept in one form: lower case, aliases resolved, each modifier once, the known ones first in their
order and the others sorted.  The token joins them with plus signs.
-/

namespace TextEditor

/-- What is wrong with a stroke, an action, a binding, or the change of a keymap. -/
inductive KeymapFault where
  | emptyKey
  | emptyToken
  | emptyActionId
  | inertHandler
  | emptyBindingId
  | emptyBindingAction
  | duplicateAction (id : String)
  | duplicateBinding (id : String)
  | unregisteredAction (id : String)
  | unregisteredBinding (id : String)
  | unknownAction (binding action : String)
  | conflict (binding token : String) (conflicts : List String)
  deriving DecidableEq, Repr

namespace KeymapFault

def message : KeymapFault → String
  | .emptyKey => "key cannot be empty"
  | .emptyToken => "token cannot be empty"
  | .emptyActionId => "ActionRef id cannot be empty"
  | .inertHandler => "handler must be callable"
  | .emptyBindingId => "binding id cannot be empty"
  | .emptyBindingAction => "binding action_id cannot be empty"
  | .duplicateAction id => s!"Action '{id}' already registered"
  | .duplicateBinding id => s!"Binding id '{id}' already registered"
  | .unregisteredAction id => s!"Action '{id}' is not registered"
  | .unregisteredBinding id => s!"Binding '{id}' is not registered"
  | .unknownAction binding action => s!"Binding '{binding}' references unknown action '{action}'"
  | .conflict binding token conflicts =>
    s!"Binding '{binding}' ({token}) conflicts with " ++
      String.ofList (Text.Quoted.encodeNames conflicts)

/-- Whether something that was looked up by its name is not there. -/
def isLookup : KeymapFault → Bool
  | .unregisteredAction _ | .unregisteredBinding _ | .unknownAction _ _ => true
  | _ => false

/-- The message as a report gives it: that of a failed lookup stands in quotes. -/
def reported (f : KeymapFault) : String :=
  if f.isLookup then String.ofList (Text.Quoted.encode f.message.toList) else f.message

end KeymapFault

/-- A key with modifiers in normal form, and the text that it types. -/
structure Stroke where
  key : String
  modifiers : List String := []
  text : Option String := none
  deriving DecidableEq, Repr

namespace Stroke

/-- The known modifiers in the order in which a token lists them. -/
def modifierOrder : List String :=
  ["ctrl", "alt", "shift", "meta"]

/-- Other names of known modifiers. -/
def modifierAliases : List (String × String) :=
  [("control", "ctrl"), ("option", "alt"), ("super", "meta"), ("cmd", "meta")]

/-- The name of one modifier in normal form; a blank one has none. -/
def modifierName? (raw : String) : Option String :=
  let name := String.ofList (Text.lowercase (Text.trim raw.toList))
  if name.isEmpty then none else some ((modifierAliases.lookup name).getD name)

/-- Modifiers in normal form. -/
def normalModifiers (raw : List String) : List String :=
  let names := (raw.filterMap modifierName?).eraseDups
  let known := modifierOrder.filter names.contains
  let others := names.filter fun name => !modifierOrder.contains name
  known ++ others.mergeSort fun a b => a ≤ b

/-- The stroke of a key with modifiers in whatever form. -/
def make (key : String) (modifiers : List String := []) (text : Option String := none) :
    Except KeymapFault Stroke :=
  if key.isEmpty then .error .emptyKey
  else .ok ⟨String.ofList (Text.lowercase key.toList), normalModifiers modifiers, text⟩

/-- Modifiers and key joined with plus signs. -/
def token (s : Stroke) : String :=
  "+".intercalate (s.modifiers ++ [s.key])

/-- Whether the stroke types its text: it has one that prints, and no modifier makes it a
command. -/
def isPrintable (s : Stroke) : Bool :=
  match s.text with
  | none => false
  | some text =>
    !text.isEmpty && !s.modifiers.any (["ctrl", "alt", "meta"].contains ·) &&
      text.toList.all Text.isPrintable

/-- The stroke that a token writes; empty parts between plus signs do not count. -/
def parse (token : String) : Except KeymapFault Stroke :=
  let parts := (Text.splitOn '+' (Text.trim token.toList)).filter fun part => !part.isEmpty
  match (parts.map String.ofList).reverse with
  | [] => .error .emptyToken
  | key :: modifiers => make key modifiers.reverse

end Stroke

end TextEditor
