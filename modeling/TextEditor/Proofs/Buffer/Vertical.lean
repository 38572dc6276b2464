import TextEditor.Proofs.Buffer.View
import TextEditor.Proofs.Document.Lines

/-!
# Motion up and down

A motion up or down leads to a line, clamped to the document, at the column that the caret aims at:
the greater of its own column and the one that it last returned to.  A short line cuts the column
off but not the aim, and a motion that changes no line changes nothing at all.  So the aim is the
same after any run of such motions, and the line in which the run ends decides the column.
-/

namespace TextEditor

/-- A call that moves the caret up or down by a number of lines; a negative number is none. -/
structure Climb where
  down : Bool
  count : Int
  extending : Bool
  deriving DecidableEq, Repr

/-- How many lines down the call leads, where nothing is in the way. -/
def Climb.delta (m : Climb) : Int :=
  if m.down then m.count.toNat else -(m.count.toNat : Int)

namespace Document

/-- The line of the document that is nearest to the given one. -/
def nearestLine (d : Document) (line : Int) : Int :=
  max 0 (min line ((d.lineCount : Int) - 1))

/-- The line to which steps lead from a line, each of them clamped to the document. -/
def climbed (d : Document) (line : Int) (moves : List Climb) : Int :=
  moves.foldl (fun line m => d.nearestLine (line + m.delta)) line

/-- One of the steps from a line changes the line. -/
def Climbs (d : Document) : Int → List Climb → Prop
  | _, [] => False
  | line, m :: rest =>
    d.nearestLine (line + m.delta) ≠ line ∨ d.Climbs (d.nearestLine (line + m.delta)) rest

variable {d : Document}

theorem exists_row_of_nearestLine (h : d.Indexed) (line : Int) :
    ∃ row : Nat, d.nearestLine line = row ∧ row < d.lineCount := by
  have hpos := lineCount_pos h
  refine ⟨(d.nearestLine line).toNat, ?_, ?_⟩ <;> unfold nearestLine <;> omega

end Document

namespace Buffer

/-- The column at which motion up and down leaves the caret where the line is long enough. -/
def aimedColumn (b : Buffer) : Int :=
  max b.caret.desiredColumn b.caretColumn

/-- The buffer after a motion up or down. -/
def climb (b : Buffer) (m : Climb) : Buffer :=
  b.move (if m.down then .down else .up) m.count m.extending

variable {b : Buffer}

theorem climb_eq (b : Buffer) (m : Climb) :
    b.climb m = (b.moveLines m.delta m.extending).reconcile := by
  unfold climb Climb.delta
  cases m.down <;> rfl

theorem document_climb (b : Buffer) (m : Climb) : (b.climb m).document = b.document :=
  (quiet_move b _ _ _).document

theorem inside_climb (h : b.Inside) (m : Climb) : (b.climb m).Inside :=
  inside_move h _ _ _

/-! ## One motion -/

/-- Where no line changes, nothing does. -/
theorem caret_climb_of_eq (hinside : b.Inside) {m : Climb}
    (hsame : b.document.nearestLine (b.caretLine + m.delta) = b.caretLine) :
    (b.climb m).caret = b.caret := by
  have hstill : b.moveLines m.delta m.extending = b := if_pos hsame
  rw [climb_eq, hstill, caret_reconcile hinside]

theorem caret_moveLines {delta : Int} {row : Int}
    (hrow : b.document.nearestLine (b.caretLine + delta) = row) (hne : row ≠ b.caretLine)
    (extending : Bool) :
    (b.moveLines delta extending).caret =
      { b.caret with desiredColumn := b.aimedColumn }.place
        (b.document.lineStart row + min b.aimedColumn (b.document.contentLength row))
        0 extending := by
  subst hrow
  exact congrArg Buffer.caret (if_neg hne)

/-- Where the line changes, the caret is put on it at the column that it aims at, or at the end of
the line, and goes on aiming there. -/
theorem caret_climb_of_ne (h : b.document.Indexed) (hinside : b.Inside) {m : Climb} {row : Nat}
    (hrow : b.document.nearestLine (b.caretLine + m.delta) = row)
    (hlast : row < b.document.lineCount) (hne : (row : Int) ≠ b.caretLine) :
    (b.climb m).caretLine = row ∧ (b.climb m).caret.desiredColumn = b.aimedColumn ∧
      (b.climb m).caretColumn = min b.aimedColumn (b.document.contentLength row) := by
  have haim : 0 ≤ b.aimedColumn :=
    Int.le_trans (caretColumn_nonneg h hinside.absolute) (Int.le_max_right _ _)
  obtain ⟨column, hcolumn⟩ : ∃ column : Nat,
      min b.aimedColumn (b.document.contentLength row) = column :=
    ⟨(min b.aimedColumn (b.document.contentLength row)).toNat, by omega⟩
  have hend : b.document.lineStart row + b.document.contentLength row ≤ b.document.length :=
    Document.lineStart_add_contentLength_le h hlast
  have hplaced := caret_moveLines hrow hne m.extending
  rw [hcolumn] at hplaced ⊢
  have habsolute : (b.climb m).caret.absolute = (b.document.lineStart row + column : Nat) := by
    have htrailing : (b.moveLines m.delta m.extending).caret.trailing = 0 := by rw [hplaced]; rfl
    rw [climb_eq, absolute_reconcile htrailing, (quiet_moveLines b _ _).document, hplaced]
    exact congrArg Nat.cast (Document.clamp_of_le (by omega))
  have hline : (b.climb m).caretLine = row := by
    rw [caretLine, document_climb, habsolute]
    exact congrArg Nat.cast (Document.lineOf_lineStart_add h hlast (by omega))
  refine ⟨hline, ?_, ?_⟩
  · rw [climb_eq]
    exact congrArg Caret.desiredColumn hplaced
  · rw [caretColumn, hline, document_climb, habsolute]
    omega

theorem caretLine_climb (h : b.document.Indexed) (hinside : b.Inside) (m : Climb) :
    (b.climb m).caretLine = b.document.nearestLine (b.caretLine + m.delta) := by
  obtain ⟨row, hrow, hlast⟩ := Document.exists_row_of_nearestLine h (b.caretLine + m.delta)
  by_cases hsame : (row : Int) = b.caretLine
  · have hcaret := caret_climb_of_eq hinside (hrow.trans hsame)
    rw [(place_congr (document_climb b m) hcaret).1, hrow, hsame]
  · rw [(caret_climb_of_ne h hinside hrow hlast hsame).1, hrow]

/-- A motion up or down takes nothing from the aim. -/
theorem aimedColumn_climb (h : b.document.Indexed) (hinside : b.Inside) (m : Climb) :
    (b.climb m).aimedColumn = b.aimedColumn := by
  obtain ⟨row, hrow, hlast⟩ := Document.exists_row_of_nearestLine h (b.caretLine + m.delta)
  by_cases hsame : (row : Int) = b.caretLine
  · have hcaret := caret_climb_of_eq hinside (hrow.trans hsame)
    rw [aimedColumn, aimedColumn, hcaret, (place_congr (document_climb b m) hcaret).2]
  · obtain ⟨-, hdesired, hcolumn⟩ := caret_climb_of_ne h hinside hrow hlast hsame
    rw [aimedColumn, hdesired, hcolumn]
    omega

/-- Where the line changes, the column is the one aimed at or the end of the line. -/
theorem caretColumn_climb (h : b.document.Indexed) (hinside : b.Inside) {m : Climb}
    (hne : (b.climb m).caretLine ≠ b.caretLine) :
    (b.climb m).caretColumn =
      min b.aimedColumn (b.document.contentLength (b.climb m).caretLine) := by
  obtain ⟨row, hrow, hlast⟩ := Document.exists_row_of_nearestLine h (b.caretLine + m.delta)
  have hline : (b.climb m).caretLine = row := (caretLine_climb h hinside m).trans hrow
  rw [hline] at hne ⊢
  exact (caret_climb_of_ne h hinside hrow hlast hne).2.2

/-! ## Runs of motions -/

/-- However the caret is moved up and down, it ends on the line to which the steps lead, each
clamped to the document.  Unless no step changed the line, which leaves the caret where it was, it is
at the greater of the column that it had and the one that it returns to, or at the end of the
line. -/
theorem caret_foldl_climb (h : b.document.Indexed) (hinside : b.Inside) (moves : List Climb) :
    let c := moves.foldl climb b
    let line := b.document.climbed b.caretLine moves
    c.document = b.document ∧ c.caretLine = line ∧
      (b.document.Climbs b.caretLine moves →
        c.caretColumn =
          min (max b.caret.desiredColumn b.caretColumn) (b.document.contentLength line)) ∧
      (¬ b.document.Climbs b.caretLine moves → c.caret = b.caret) := by
  induction moves generalizing b with
  | nil => exact ⟨rfl, rfl, False.elim, fun _ => rfl⟩
  | cons m rest ih =>
    have hdocument := document_climb b m
    have hline := caretLine_climb h hinside m
    obtain ⟨hrest, hend, hcolumn, hstill⟩ := ih (hdocument ▸ h) (inside_climb hinside m)
    rw [hdocument, hline] at hend hcolumn hstill
    refine ⟨hrest.trans hdocument, hend, fun hclimbs => ?_, fun hclimbs => ?_⟩
    · by_cases hlater : b.document.Climbs (b.document.nearestLine (b.caretLine + m.delta)) rest
      · have haim := aimedColumn_climb h hinside m
        rw [aimedColumn, aimedColumn] at haim
        rw [← haim]
        exact hcolumn hlater
      · -- This step changed the line, and no later one did.
        have hmoved : (b.climb m).caretLine ≠ b.caretLine :=
          hline ▸ hclimbs.resolve_right hlater
        obtain ⟨hlineEnd, hcolumnEnd⟩ := place_congr hrest (hstill hlater)
        rw [List.foldl_cons, hcolumnEnd, caretColumn_climb h hinside hmoved, ← hlineEnd]
        exact congrArg (fun line => min _ ((b.document.contentLength line : Nat) : Int)) hend
    · obtain ⟨hsame, hlater⟩ := not_or.1 hclimbs
      rw [List.foldl_cons, hstill hlater]
      exact caret_climb_of_eq hinside (Decidable.not_not.1 hsame)

/-- Down across a short line, past the last one, and up to where it began. -/
theorem caret_foldl_climb_short_line :
    let b := (create "a.txt" "abcdef\nab\nabcdefgh".toList 24 80 {}).collapse 5
    let down : List Climb := [⟨true, 1, false⟩, ⟨true, 3, true⟩]
    let back : List Climb := down ++ [⟨false, 1, false⟩, ⟨false, 1, false⟩, ⟨false, 1, false⟩]
    (b.document.Indexed ∧ b.Inside) ∧
      (down.foldl climb b).caretLine = 2 ∧ (down.foldl climb b).caretColumn = 5 ∧
        (back.foldl climb b).caretLine = 0 ∧ (back.foldl climb b).caretColumn = 5 := by
  intro b down back
  have hindexed : b.document.Indexed := Document.indexed_ofText _
  have hwithin : b.document.Within 5 := ⟨by decide, by decide +kernel⟩
  have hinside : b.Inside := ⟨hwithin, hwithin, hwithin⟩
  obtain ⟨-, hline, hcolumn, -⟩ := caret_foldl_climb hindexed hinside down
  obtain ⟨-, hline', hcolumn', -⟩ := caret_foldl_climb hindexed hinside back
  have hclimbs : b.document.Climbs b.caretLine down := .inl (by decide +kernel)
  have hclimbs' : b.document.Climbs b.caretLine back := .inl (by decide +kernel)
  exact ⟨⟨hindexed, hinside⟩, hline.trans (by decide +kernel),
    (hcolumn hclimbs).trans (by decide +kernel), hline'.trans (by decide +kernel),
    (hcolumn' hclimbs').trans (by decide +kernel)⟩

end Buffer

end TextEditor
