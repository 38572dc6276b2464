import TextEditor.Text.Basic

/-!
# Undo and redo

A timeline holds the operations that can be undone, the latest first, and those that were undone
and can be done again.  A new operation forgets the undone ones, and beyond the limit the oldest
one is forgotten.
-/

namespace TextEditor

/-- `removed` was replaced by `inserted` at `offset`. -/
structure Edit where
  offset : Nat
  removed : Text
  inserted : Text
  deriving DecidableEq, Repr

/-- The edits of one operation in their order, with the caret around them. -/
structure UndoEntry where
  label : String
  edits : List Edit
  caretBefore : Int
  anchorBefore : Int
  caretAfter : Int
  deriving DecidableEq, Repr

/-- Operations done, the latest first, and operations undone, the next to redo first. -/
structure Timeline where
  done : List UndoEntry := []
  undone : List UndoEntry := []
  limit : Nat := 1000
  deriving DecidableEq, Repr, Inhabited

namespace Timeline

/-- The number of operations that are remembered. -/
def length (t : Timeline) : Nat :=
  t.done.length + t.undone.length

def canUndo (t : Timeline) : Bool :=
  !t.done.isEmpty

def canRedo (t : Timeline) : Bool :=
  !t.undone.isEmpty

/-- The operation that the next undo would take back. -/
def last? (t : Timeline) : Option UndoEntry :=
  t.done.head?

/-- Record an operation. -/
def push (t : Timeline) (entry : UndoEntry) : Timeline :=
  { t with done := (entry :: t.done).take t.limit, undone := [] }

/-- Step back over the latest operation. -/
def undo? (t : Timeline) : Option (UndoEntry × Timeline) :=
  match t.done with
  | [] => none
  | entry :: rest => some (entry, { t with done := rest, undone := entry :: t.undone })

/-- Step forward over the operation undone last. -/
def redo? (t : Timeline) : Option (UndoEntry × Timeline) :=
  match t.undone with
  | [] => none
  | entry :: rest => some (entry, { t with done := entry :: t.done, undone := rest })

/-- Forget everything. -/
def clear (t : Timeline) : Timeline :=
  { t with done := [], undone := [] }

theorem undo?_eq_none_iff (t : Timeline) : t.undo? = none ↔ t.canUndo = false := by
  cases h : t.done <;> simp [undo?, canUndo, h]

theorem redo?_eq_none_iff (t : Timeline) : t.redo? = none ↔ t.canRedo = false := by
  cases h : t.undone <;> simp [redo?, canRedo, h]

theorem redo?_of_undo? {t u : Timeline} {entry : UndoEntry} (h : t.undo? = some (entry, u)) :
    u.redo? = some (entry, t) := by
  cases hdone : t.done with
  | nil => simp [undo?, hdone] at h
  | cons e rest =>
    simp only [undo?, hdone, Option.some.injEq, Prod.mk.injEq] at h
    obtain ⟨rfl, rfl⟩ := h
    simp [redo?, ← hdone]

end Timeline

end TextEditor
