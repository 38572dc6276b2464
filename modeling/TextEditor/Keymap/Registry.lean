import TextEditor.Buffer.Command
import TextEditor.Keymap.Stroke
import TextEditor.Table

/-!
# Keymaps

A registry holds actions and the bindings of key strokes to them, with an index from tokens to
bindings.  A token belongs to one binding at most.  A change that fails leaves the registry as it
was and is reported.
-/

namespace TextEditor

/-- What a key can be bound to.  An action without a command is the business of the host and does
nothing to the editor. -/
structure Action where
  id : String
  command : Option Command
  telemetryName : String
  description : String

namespace Action

/-- An action with an identifier, which is its name in reports unless it has another one. -/
def make (id : String) (command : Option Command) (telemetryName : Option String := none)
    (description : String := "") (callable : Bool := true) : Except KeymapFault Action :=
  if id.isEmpty then .error .emptyActionId
  else if !callable then .error .inertHandler
  else .ok ⟨id, command, telemetryName.getD id, description⟩

end Action

/-- A stroke that is bound to an action. -/
structure Binding where
  id : String
  stroke : Stroke
  actionId : String
  description : String := ""
  source : Option String := none
  deriving DecidableEq, Repr

namespace Binding

def token (b : Binding) : String :=
  b.stroke.token

/-- A binding; its stroke is looked at when its identifiers are in order. -/
def make (id : String) (stroke : Except KeymapFault Stroke) (actionId : String)
    (description : String := "") (source : Option String := none) : Except KeymapFault Binding :=
  if id.isEmpty then .error .emptyBindingId
  else if actionId.isEmpty then .error .emptyBindingAction
  else stroke.map fun stroke => ⟨id, stroke, actionId, description, source⟩

end Binding

/-- Actions, bindings, and the binding of each token. -/
structure Registry where
  actions : Table Action := []
  bindings : Table Binding := []
  byToken : Table String := []
  revision : Nat := 0
  /-- What was reported and not collected yet. -/
  journal : Journal := []

namespace Registry

def getAction (r : Registry) (id : String) : Except KeymapFault Action :=
  match r.actions.find? id with
  | some action => .ok action
  | none => .error (.unregisteredAction id)

def getBinding (r : Registry) (id : String) : Except KeymapFault Binding :=
  match r.bindings.find? id with
  | some binding => .ok binding
  | none => .error (.unregisteredBinding id)

/-- The registry without a binding. -/
def drop (r : Registry) (b : Binding) : Registry :=
  { r with
    bindings := r.bindings.erase b.id
    byToken := if r.byToken.find? b.token = some b.id then r.byToken.erase b.token else r.byToken }

/-- The other bindings that hold the token of a binding. -/
def conflicts (r : Registry) (b : Binding) : List Binding :=
  match r.byToken.find? b.token with
  | none => []
  | some id => if id = b.id then [] else (r.bindings.find? id).toList

/-- The action that a token is bound to. -/
def resolve (r : Registry) (token : String) : Option Action :=
  match r.byToken.find? token with
  | none => none
  | some id => (r.bindings.find? id).bind fun b => r.actions.find? b.actionId

/-- The registry with an action. -/
def withAction (r : Registry) (action : Action) (replacing : Bool) : Except KeymapFault Registry :=
  if !replacing && (r.actions.find? action.id).isSome then .error (.duplicateAction action.id)
  else .ok { r with actions := r.actions.put action.id action }

/-- The registry with a binding.  Replacing drops the binding of the same token and the one of the
same identifier first. -/
def withBinding (r : Registry) (b : Binding) (replacing : Bool) : Except KeymapFault Registry :=
  if (r.actions.find? b.actionId).isNone then .error (.unknownAction b.id b.actionId)
  else
    let conflicts := r.conflicts b
    if !conflicts.isEmpty && !replacing then
      .error (.conflict b.id b.token (conflicts.map Binding.id))
    else if !replacing && (r.bindings.find? b.id).isSome then .error (.duplicateBinding b.id)
    else
      let cleared := conflicts.foldl drop r
      let cleared := ((cleared.bindings.find? b.id).toList).foldl drop cleared
      .ok
        { cleared with
          bindings := cleared.bindings.put b.id b
          byToken := cleared.byToken.put b.token b.id
          revision := cleared.revision + 1 }

/-- The registry without the binding of that identifier, and whether there was one. -/
def unregister (r : Registry) (id : String) : Option (Binding × Registry) :=
  (r.bindings.find? id).map fun b =>
    let dropped := r.drop b
    (b, { dropped with revision := dropped.revision + 1 })

/-- What a failed change learnt, apart from its reason. -/
def learnt : KeymapFault → Pairs
  | .unknownAction _ action => [("missing_action", action)]
  | .conflict _ _ conflicts => [("conflicts", ",".intercalate conflicts)]
  | _ => []

/-- Take a change or leave the registry as it was, and report either. -/
def settleChange (r : Registry) (activity : Activity) (change : Except KeymapFault Registry) :
    Except KeymapFault Unit × Registry :=
  match change with
  | .ok changed => (.ok (), { changed with journal := r.journal ++ Journal.brief activity })
  | .error fault =>
    let entries : Journal :=
      [.started activity, .failed activity (learnt fault) fault.reported, .ended activity]
    (.error fault, { r with journal := r.journal ++ entries })

/-- Register an action. -/
def registerAction (r : Registry) (action : Action) (replacing : Bool := false) :
    Except KeymapFault Unit × Registry :=
  r.settleChange
    { name := "keymaps::register_action"
      component := some "keymaps"
      metadata := [("action_id", action.id)] }
    (r.withAction action replacing)

/-- Register a binding. -/
def registerBinding (r : Registry) (b : Binding) (replacing : Bool := false) :
    Except KeymapFault Unit × Registry :=
  r.settleChange
    { name := "keymaps::register_binding"
      component := some "keymaps"
      metadata := [("binding_id", b.id), ("token", b.token)] }
    (r.withBinding b replacing)

/-- Make changes one after the other, up to the first that fails. -/
def registerAll {α : Type u} (register : Registry → α → Except KeymapFault Unit × Registry)
    (r : Registry) : List α → Except KeymapFault Unit × Registry
  | [] => (.ok (), r)
  | item :: rest =>
    match register r item with
    | (.error fault, r) => (.error fault, r)
    | (.ok (), r) => registerAll register r rest

end Registry

end TextEditor
