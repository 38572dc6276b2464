import TextEditor.Buffer.Basic

/-!
# Motion

Where the caret goes: one character left or right, where CR LF counts as one; one word; or a number
of lines up or down, at the column that was last chosen by other means.
-/

namespace TextEditor

namespace Document

/-- The offset one step to the left. -/
def stepLeft (d : Document) (offset : Int) : Int :=
  if offset ≤ 0 then 0
  else if d.slice (offset - 2) offset = ['\r', '\n'] then offset - 2
  else offset - 1

/-- The offset one step to the right. -/
def stepRight (d : Document) (offset : Int) : Int :=
  if (d.length : Int) ≤ offset then d.length
  else if d.slice offset (offset + 2) = ['\r', '\n'] then offset + 2
  else offset + 1

/-- The end of the run of one kind of characters that starts at an offset. -/
def wordRight (d : Document) (offset : Int) : Int :=
  offset + CharKind.leadingRun (d.charsFrom offset)

/-- The start of the run of one kind of characters that the step to the left leads into. -/
def wordLeft (d : Document) (offset : Int) : Int :=
  let start := d.stepLeft offset
  if start = offset then offset
  else start - CharKind.runLength (.ofChar? (d.charAt? start)) (d.charsBefore start)

/-- The nearest offset within the document that is not inside a CR LF pair. -/
def settle (d : Document) (offset : Int) : Int :=
  let place : Int := d.clamp offset
  if d.slice (place - 1) (place + 1) = ['\r', '\n'] then place - 1 else place

/-- Take a step `count` times, or until it leads nowhere. -/
def walk (step : Int → Int) : (count : Nat) → Int → Int
  | 0, offset => offset
  | count + 1, offset =>
    let next := step offset
    if next = offset then offset else walk step count next

theorem walk_eq_iterate (step : Int → Int) (count : Nat) (offset : Int) :
    walk step count offset = Nat.repeat step count offset := by
  have hstill : ∀ (n : Nat) (x : Int), step x = x → Nat.repeat step n x = x := by
    intro n x hx
    induction n with
    | zero => rfl
    | succ n ih => rw [Nat.repeat, ih, hx]
  have hshift : ∀ (n : Nat) (x : Int),
      Nat.repeat step n (step x) = step (Nat.repeat step n x) := by
    intro n x
    induction n with
    | zero => rfl
    | succ n ih => rw [Nat.repeat, ih, Nat.repeat]
  induction count generalizing offset with
  | zero => rfl
  | succ n ih =>
    simp only [walk]
    split
    · next h => rw [hstill _ _ h]
    · rw [ih, hshift, Nat.repeat]

end Document

/-- The directions in which keys move the caret. -/
inductive Motion where
  | left
  | right
  | leftWord
  | rightWord
  | up
  | down
  deriving DecidableEq, Repr, Inhabited

namespace Motion

/-- The motion of that name. -/
def ofName? : String → Option Motion
  | "left" => some .left
  | "right" => some .right
  | "left_word" => some .leftWord
  | "right_word" => some .rightWord
  | "up" => some .up
  | "down" => some .down
  | _ => none

end Motion

namespace Buffer

/-- Put the caret at an edge of a character. -/
def place (b : Buffer) (offset : Int) (trailing : Int := 0) (extending : Bool := false) : Buffer :=
  { b with caret := b.caret.place offset trailing extending }

/-- Move the caret by lines.  The column it returns to on long lines is the greater of the one it
has and the one it last returned to; the view follows. -/
def moveLines (b : Buffer) (delta : Int) (extending : Bool) : Buffer :=
  let d := b.document
  let offset := b.caret.absolute
  let line : Int := d.lineOf offset
  let target := max 0 (min (line + delta) ((d.lineCount : Int) - 1))
  if target = line then b
  else
    let column := max b.caret.desiredColumn (offset - d.lineStart line)
    let caret := { b.caret with desiredColumn := column }
    let caret :=
      caret.place (d.lineStart target + min column (d.contentLength target)) 0 extending
    let v := b.viewport
    let lineOffset :=
      if target < v.lineOffset then target
      else if v.lastLine < target then target - v.rows + 1
      else v.lineOffset
    { b with caret, viewport := { v with lineOffset } }

/-- Move the caret by single steps of a kind. -/
def moveSteps (b : Buffer) (step : Int → Int) (count : Nat) (extending : Bool) : Buffer :=
  let target := Document.walk step count b.caret.absolute
  (b.place (b.document.settle target) 0 extending).forgetColumn

/-- Move the caret `count` times; a negative count is none.  Extending keeps the anchor. -/
def move (b : Buffer) (motion : Motion) (count : Int := 1) (extending : Bool := false) : Buffer :=
  let moved :=
    match motion with
    | .up => b.moveLines (-(count.toNat : Int)) extending
    | .down => b.moveLines count.toNat extending
    | .left => b.moveSteps b.document.stepLeft count.toNat extending
    | .right => b.moveSteps b.document.stepRight count.toNat extending
    | .leftWord => b.moveSteps b.document.wordLeft count.toNat extending
    | .rightWord => b.moveSteps b.document.wordRight count.toNat extending
  moved.reconcile

end Buffer

end TextEditor
