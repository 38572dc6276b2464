import Mathlib.Data.List.TakeWhile
import TextEditor.Proofs.Buffer.Between
import TextEditor.Proofs.Document.Breaks

/-!
# Breaking a line

A line break goes in with the indentation of the line before the caret, one level deeper behind an
opening bracket; and between a bracket and its partner with only blanks inside, the blanks give way
to two breaks.  So the text has one line more, or two, and the caret is at the end of the
indentation on the next line, unless the break runs into another one: a return before a line feed
makes one break with it, whichever of the two was there first.
-/

namespace TextEditor

namespace Text

/-- The text without the blanks at its end. -/
def dropBlanksRight (t : Text) : Text :=
  (t.reverse.dropWhile isBlank).reverse

theorem blank_takeWhile (t : Text) : Blank (t.takeWhile isBlank) :=
  fun c hc => List.all_eq_true.1 List.all_takeWhile c hc

theorem exists_eq_dropBlanksRight_append (t : Text) :
    ∃ blanks, Blank blanks ∧ t = dropBlanksRight t ++ blanks := by
  refine ⟨(t.reverse.takeWhile isBlank).reverse, fun c hc => ?_, ?_⟩
  · exact blank_takeWhile t.reverse c (List.mem_reverse.1 hc)
  · rw [dropBlanksRight, ← List.reverse_append, List.takeWhile_append_dropWhile,
      List.reverse_reverse]

theorem drop_length_takeWhile (t : Text) :
    t.drop (t.takeWhile isBlank).length = t.dropWhile isBlank :=
  calc t.drop (t.takeWhile isBlank).length
      = (t.takeWhile isBlank ++ t.dropWhile isBlank).drop (t.takeWhile isBlank).length := by
        rw [List.takeWhile_append_dropWhile]
    _ = t.dropWhile isBlank := List.drop_left

end Text

namespace BracketPair

/-- The pair that the last character opens, blanks aside. -/
def openedLast? (pairs : List BracketPair) (front : Text) : Option BracketPair :=
  (front.reverse.find? fun c => !Text.isBlank c).bind fun c => opened? pairs [c]

/-- The first character closes the pair, blanks aside. -/
def closedFirst (pair : BracketPair) (back : Text) : Bool :=
  (back.find? fun c => !Text.isBlank c).any fun c => [c] = pair.closing

end BracketPair

/-- What a line break leaves on either side, what it puts before the caret behind the break itself,
and what it puts behind the caret. -/
structure LineBreak where
  before : Text
  carried : Text
  beyond : Text
  after : Text

/-- The break makes one break with what stands beside it. -/
def LineBreak.Joins (l : LineBreak) (ending : Text) : Prop :=
  let new := ending ++ l.carried ++ l.beyond
  Text.CutsPair l.before new ∨ Text.CutsPair new l.after

instance (l : LineBreak) (ending : Text) : Decidable (l.Joins ending) :=
  inferInstanceAs (Decidable (_ ∨ _))

namespace LineBreak

variable {l : LineBreak} {ending front back : Text}

/-- Blanks alone give way, and the caret ends behind blanks. -/
structure Fits (l : LineBreak) (ending front back : Text) : Prop where
  before : ∃ blanks, Text.Blank blanks ∧ front = l.before ++ blanks
  after : ∃ blanks, Text.Blank blanks ∧ back = blanks ++ l.after
  carried : Text.Blank l.carried
  beyond : l.beyond = [] ∨
    l.carried ≠ [] ∧ ∃ indent, Text.Blank indent ∧ l.beyond = ending ++ indent

/-- What goes in has one break, or two. -/
theorem Fits.breakCount (h : l.Fits ending front back) (hending : Text.IsBreak ending) :
    Text.breakCount (ending ++ l.carried ++ l.beyond) = if l.beyond.isEmpty then 1 else 2 := by
  have hfirst : Text.breakCount (ending ++ l.carried) = 1 :=
    hending.breakCount_append_blank h.carried
  rcases h.beyond with hnil | ⟨hcarried, indent, hindent, hbeyond⟩
  · rw [hnil, List.append_nil, hfirst]
    rfl
  · have hnone : l.beyond.isEmpty = false := by
      rw [hbeyond, List.isEmpty_eq_false_iff]
      exact List.append_ne_nil_of_left_ne_nil hending.ne_nil _
    have hcut : ¬ Text.CutsPair (ending ++ l.carried) l.beyond := by
      rw [Text.cutsPair_append_iff hcarried]
      exact h.carried.not_cutsPair_left
    rw [Text.breakCount_of_not_cutsPair hcut, hfirst, hbeyond,
      hending.breakCount_append_blank hindent, ← hbeyond, hnone]
    rfl

/-- The text before has the breaks of what is kept of it. -/
theorem Fits.breakCount_text (h : l.Fits ending front back) (hcut : ¬ Text.CutsPair front back) :
    Text.breakCount front = Text.breakCount l.before ∧
      Text.breakCount (front ++ back) = Text.breakCount l.before + Text.breakCount l.after := by
  obtain ⟨blanks, hblanks, hfront⟩ := h.before
  obtain ⟨blanks', hblanks', hback⟩ := h.after
  have hleft : Text.breakCount front = Text.breakCount l.before := by
    rw [hfront, Text.breakCount_of_not_cutsPair hblanks.not_cutsPair_right, hblanks.breakCount,
      Nat.add_zero]
  refine ⟨hleft, ?_⟩
  rw [Text.breakCount_of_not_cutsPair hcut, hleft, hback,
    Text.breakCount_of_not_cutsPair hblanks'.not_cutsPair_left, hblanks'.breakCount, Nat.zero_add]

/-- Every break that goes in is a new one, less those that are joined to others. -/
theorem breakCount_joined (l : LineBreak) (hending : ending ≠ []) :
    let new := ending ++ l.carried ++ l.beyond
    Text.breakCount (l.before ++ new ++ l.after) + (if Text.CutsPair l.before new then 1 else 0) +
        (if Text.CutsPair new l.after then 1 else 0) =
      Text.breakCount l.before + Text.breakCount new + Text.breakCount l.after := by
  intro new
  have hnew : new ≠ [] :=
    List.append_ne_nil_of_left_ne_nil (List.append_ne_nil_of_left_ne_nil hending _) _
  have hfirst := Text.breakCount_append l.before new
  have hsecond := Text.breakCount_append (l.before ++ new) l.after
  simp only [Text.cutsPair_append_iff hnew] at hsecond
  omega

end LineBreak

namespace Buffer

/-- The blanks with which the line of the caret begins, up to the caret. -/
def indent (b : Buffer) : Text :=
  Text.indentation (b.document.slice (b.document.lineStart b.caretLine) b.caret.absolute)

/-- The line break between two texts. -/
def lineBreak (b : Buffer) (front back : Text) : LineBreak :=
  match BracketPair.openedLast? b.settings.brackets front with
  | none => ⟨front, b.indent, [], back⟩
  | some pair =>
    let carried := b.indent ++ b.settings.indentUnit
    if pair.closedFirst back then
      ⟨Text.dropBlanksRight front, carried, b.lineEnding ++ b.indent, back.dropWhile Text.isBlank⟩
    else ⟨front, carried, [], back⟩

/-- A line was broken between two texts: there is one line more, or two if a pair was opened up, and
the caret is behind the indentation of the next line. -/
structure BreaksLine (front back : Text) (b c : Buffer) : Prop where
  lineCount : c.document.lineCount = b.document.lineCount +
    if (BracketPair.openedLast? b.settings.brackets front).any (·.closedFirst back) then 2 else 1
  caretLine : c.caretLine = b.caretLine + 1
  caretColumn : c.caretColumn = b.indent.length +
    if (BracketPair.openedLast? b.settings.brackets front).isSome then b.settings.indentWidth else 0

variable {b c : Buffer} {front back : Text}

/-! ## What is looked for -/

theorem Between.openerBefore?_eq (h : b.Between front back) :
    b.openerBefore? b.caret.absolute =
      (BracketPair.openedLast? b.settings.brackets front).map fun pair =>
        (((Text.dropBlanksRight front).length : Int) - 1, pair) := by
  have hchars := h.charsBefore
  have hlength := congrArg List.length (List.takeWhile_append_dropWhile
    (p := Text.isBlank) (l := front.reverse))
  rw [List.length_append, List.length_reverse] at hlength
  rw [BracketPair.openedLast?, List.find?_not_eq_head?_dropWhile, Text.dropBlanksRight,
    List.length_reverse]
  rw [h.absolute] at hchars ⊢
  simp only [openerBefore?, hchars, Text.drop_length_takeWhile]
  cases hrest : front.reverse.dropWhile Text.isBlank with
  | nil => rfl
  | cons c rest =>
    rw [hrest, List.length_cons] at hlength
    have hplace : (front.length : Int) - (front.reverse.takeWhile Text.isBlank).length - 1 =
        (c :: rest).length - 1 := by
      rw [List.length_cons]
      omega
    rw [← hplace]
    rfl

theorem Between.closerAfter?_eq (h : b.Between front back) (pair : BracketPair) :
    b.closerAfter? b.caret.absolute pair.closing =
      if pair.closedFirst back then
        some (b.caret.absolute + (back.takeWhile Text.isBlank).length)
      else none := by
  rw [BracketPair.closedFirst, List.find?_not_eq_head?_dropWhile]
  simp only [closerAfter?, h.charsFrom, Text.drop_length_takeWhile]
  cases back.dropWhile Text.isBlank with
  | nil => rfl
  | cons c rest => simp only [List.head?_cons, Option.any_some, decide_eq_true_eq]

/-! ## What goes in -/

theorem Between.breakLine (h : b.Between front back) :
    let l := b.lineBreak front back
    b.breakLine.Between (l.before ++ (b.lineEnding ++ l.carried)) (l.beyond ++ l.after) := by
  intro l
  have hstop : b.caret.absolute = b.caret.absolute + ([] : Text).length := (Int.add_zero _).symm
  have hbefore : b.text = front ++ [] ++ back := by rw [List.append_nil, h.text]
  simp only [Buffer.breakLine, h.removeSelection, h.openerBefore?_eq]
  unfold l lineBreak
  cases hopened : BracketPair.openedLast? b.settings.brackets front with
  | none =>
    have hafter := between_replaceRange h.absolute hstop "insert_newline" hbefore
      (b.lineEnding ++ b.indent) []
    rwa [List.append_nil] at hafter
  | some pair =>
    simp only [Option.map_some, h.closerAfter?_eq]
    cases hclosed : pair.closedFirst back with
    | false =>
      have hafter := between_replaceRange h.absolute hstop "insert_newline" hbefore
        (b.lineEnding ++ (b.indent ++ b.settings.indentUnit)) []
      simp only [List.append_nil, List.append_assoc] at hafter ⊢
      exact hafter
    | true =>
      -- The blanks on both sides give way.
      obtain ⟨blanks, -, hfront⟩ := Text.exists_eq_dropBlanksRight_append front
      have hback := List.takeWhile_append_dropWhile (p := Text.isBlank) (l := back)
      have hstart : ((Text.dropBlanksRight front).length : Int) - 1 + 1 =
          (Text.dropBlanksRight front).length := Int.sub_add_cancel _ _
      have hstop : b.caret.absolute + (back.takeWhile Text.isBlank).length =
          (Text.dropBlanksRight front).length - 1 + 1 +
            (blanks ++ back.takeWhile Text.isBlank).length := by
        have hlength := congrArg List.length hfront
        rw [List.length_append] at hlength ⊢
        rw [h.absolute]
        omega
      have hbefore : b.text = Text.dropBlanksRight front ++
          (blanks ++ back.takeWhile Text.isBlank) ++ back.dropWhile Text.isBlank := by
        rw [← List.append_assoc, ← hfront, List.append_assoc, hback, h.text]
      have hafter := between_replaceRange hstart hstop "insert_newline" hbefore
        (b.lineEnding ++ (b.indent ++ b.settings.indentUnit)) (b.lineEnding ++ b.indent)
      simp only [List.append_assoc, if_true] at hafter ⊢
      exact hafter

theorem lineEnding_congr (h : b.Rests c) : c.lineEnding = b.lineEnding := by
  rw [lineEnding, lineEnding, h.document, h.settings]

theorem Between.insertNewline (h : b.Between front back) :
    let l := b.lineBreak front back
    b.insertNewline.Between (l.before ++ (b.lineEnding ++ l.carried)) (l.beyond ++ l.after) := by
  intro l
  refine (Between.forgetColumn ?_).reconcile
  refine grouped_induction_rests
    (motive := fun c => c.Between (l.before ++ (b.lineEnding ++ l.carried)) (l.beyond ++ l.after))
    b _ (fun c hc hcaret => ?_) fun c hc => hc.endGroup
  have hending : c.lineEnding = b.lineEnding := lineEnding_congr hc
  have hindent : c.indent = b.indent := by
    rw [indent, indent, (place_congr hc.document hcaret).1, hc.document, hcaret]
  have hbreak : c.lineBreak front back = l := by
    unfold l lineBreak
    rw [hc.settings, hindent, hending]
  have hafter := (h.of_eq hc.document hcaret).breakLine
  rwa [hbreak, hending] at hafter

/-! ## What comes of it -/

theorem isBreak_lineEnding
    (hending : b.settings.lineEnding ∈ [['\r', '\n'], ['\n'], ['\r']]) :
    Text.IsBreak b.lineEnding := by
  rw [lineEnding]
  cases hfirst : b.document.lineEnding? with
  | some ending => exact Text.isBreak_of_firstBreak? hfirst
  | none =>
    rw [Option.getD_none]
    simp only [List.mem_cons, List.not_mem_nil, or_false] at hending
    rcases hending with h | h | h
    · exact .inl h
    · exact .inr ⟨'\n', by decide, h⟩
    · exact .inr ⟨'\r', by decide, h⟩

theorem blank_indent (b : Buffer) : Text.Blank b.indent :=
  Text.blank_takeWhile _

theorem fits_lineBreak (b : Buffer) (front back : Text) :
    (b.lineBreak front back).Fits b.lineEnding front back := by
  have hunit : Text.Blank b.settings.indentUnit := Text.blank_replicate _
  have hdeeper := (blank_indent b).append hunit
  have hwhole : ∃ blanks, Text.Blank blanks ∧ front = front ++ blanks :=
    ⟨[], Text.blank_nil, (List.append_nil _).symm⟩
  have hwhole' : ∃ blanks, Text.Blank blanks ∧ back = blanks ++ back := ⟨[], Text.blank_nil, rfl⟩
  unfold lineBreak
  split
  · exact ⟨hwhole, hwhole', blank_indent b, .inl rfl⟩
  · dsimp only
    split
    · refine ⟨Text.exists_eq_dropBlanksRight_append front, ⟨_, Text.blank_takeWhile back, ?_⟩,
        hdeeper, .inr ⟨?_, b.indent, blank_indent b, rfl⟩⟩
      · rw [List.takeWhile_append_dropWhile]
      · refine List.append_ne_nil_of_right_ne_nil _ (List.ne_nil_of_length_pos ?_)
        rw [Settings.length_indentUnit]
        exact b.settings.indentWidth_pos
    · exact ⟨hwhole, hwhole', hdeeper, .inl rfl⟩

theorem length_carried_lineBreak (b : Buffer) (front back : Text) :
    (b.lineBreak front back).carried.length = b.indent.length +
      if (BracketPair.openedLast? b.settings.brackets front).isSome then b.settings.indentWidth
      else 0 := by
  unfold lineBreak
  split
  · next hopened => rw [hopened]; rfl
  · next pair hopened =>
    rw [hopened, Option.isSome_some, if_pos rfl, ← Settings.length_indentUnit,
      ← List.length_append]
    dsimp only
    split <;> rfl

/-- A second break goes in where a pair is opened up. -/
theorem isEmpty_beyond_lineBreak (hending : b.lineEnding ≠ []) (front back : Text) :
    (b.lineBreak front back).beyond.isEmpty =
      !(BracketPair.openedLast? b.settings.brackets front).any (·.closedFirst back) := by
  unfold lineBreak
  split
  · next hopened => rw [hopened]; rfl
  · next pair hopened =>
    rw [hopened, Option.any_some]
    dsimp only
    split
    · next hclosed =>
      rw [hclosed, Bool.not_true, List.isEmpty_eq_false_iff]
      exact List.append_ne_nil_of_left_ne_nil hending _
    · next hclosed => simp [hclosed]

/-- The line of a caret that is not inside a pair is the number of breaks before it. -/
theorem Between.caretLine_eq (h : b.Between front back) (hindexed : b.document.Indexed)
    (hcut : ¬ Text.CutsPair front back) : b.caretLine = Text.breakCount front := by
  rw [caretLine, h.absolute, Document.lineOf_eq_breakCount hindexed h.text hcut]

/-- A caret behind a break and blanks is on the line that the break begins, behind the blanks. -/
theorem Between.caretColumn_eq {ending blanks : Text}
    (h : b.Between (front ++ (ending ++ blanks)) back) (hindexed : b.document.Indexed)
    (hending : Text.IsBreak ending) (hblanks : Text.Blank blanks)
    (hfront : ¬ Text.CutsPair front ending)
    (hcut : ¬ Text.CutsPair (front ++ (ending ++ blanks)) back) :
    b.caretLine = Text.breakCount front + 1 ∧ b.caretColumn = blanks.length := by
  have hnew : ¬ Text.CutsPair front (ending ++ blanks) := by
    rwa [Text.cutsPair_iff_append hending.ne_nil]
  have hline : b.caretLine = Text.breakCount front + 1 := by
    rw [h.caretLine_eq hindexed hcut, Text.breakCount_of_not_cutsPair hnew,
      hending.breakCount_append_blank hblanks]
    rfl
  refine ⟨hline, ?_⟩
  have htext : b.document.text = front ++ ending ++ (blanks ++ back) := by
    rw [← List.append_assoc, List.append_assoc front]
    exact h.text
  have hback : ¬ Text.CutsPair (front ++ ending) (blanks ++ back) := by
    rcases List.eq_nil_or_concat' blanks with rfl | ⟨some, last, rfl⟩
    · rwa [List.append_nil] at hcut
    · rw [Text.cutsPair_iff_append (by simp)]
      exact hblanks.not_cutsPair_right
  have hstart := Document.lineStart_of_isBreak hindexed htext hending hfront hback
  have hcount : Text.breakCount (front ++ ending) = Text.breakCount front + 1 := by
    have hone := hending.breakCount_append_blank Text.blank_nil
    rw [List.append_nil] at hone
    rw [Text.breakCount_of_not_cutsPair hfront, hone]
  rw [hcount, Int.natCast_add, Int.natCast_one, ← hline] at hstart
  rw [caretColumn, hstart, h.absolute]
  simp only [List.length_append]
  omega

/-- Breaking the line makes a new one, or two where a pair is opened up, with the caret at the end
of the indentation of the next line, unless the break joins another one. -/
theorem breaksLine_insertNewline_iff (hindexed : b.document.Indexed) (h : b.Between front back)
    (hcut : ¬ Text.CutsPair front back)
    (hending : b.settings.lineEnding ∈ [['\r', '\n'], ['\n'], ['\r']]) :
    BreaksLine front back b b.insertNewline ↔
      ¬ (b.lineBreak front back).Joins b.lineEnding := by
  obtain ⟨edits, hamends, -⟩ := undoable_insertNewline b
  have hindexed' : b.insertNewline.document.Indexed := hamends.indexed hindexed
  have hbreak := isBreak_lineEnding hending
  have hfits := fits_lineBreak b front back
  have hafter := h.insertNewline
  have hsecond := isEmpty_beyond_lineBreak hbreak.ne_nil front back
  have hcarried := length_carried_lineBreak b front back
  generalize b.lineBreak front back = l at *
  obtain ⟨hfront, htext⟩ := hfits.breakCount_text hcut
  have hnew := hfits.breakCount hbreak
  have hjoined := l.breakCount_joined hbreak.ne_nil
  dsimp only at hjoined hafter
  have htext' : b.insertNewline.text =
      l.before ++ (b.lineEnding ++ l.carried ++ l.beyond) ++ l.after := by
    rw [hafter.text]
    simp only [List.append_assoc]
  -- The lines that come in are the breaks that go in, less those that are joined.
  have hcount : b.document.lineCount = Text.breakCount l.before + Text.breakCount l.after + 1 := by
    rw [Document.lineCount_eq_breakCount hindexed, ← htext, ← h.text]
    rfl
  have hcount' : b.insertNewline.document.lineCount = Text.breakCount (l.before ++
      (b.lineEnding ++ l.carried ++ l.beyond) ++ l.after) + 1 := by
    rw [Document.lineCount_eq_breakCount hindexed', ← htext']
    rfl
  have hgrowth : (if (BracketPair.openedLast? b.settings.brackets front).any (·.closedFirst back)
      then 2 else 1) = Text.breakCount (b.lineEnding ++ l.carried ++ l.beyond) := by
    rw [hnew, hsecond]
    cases (BracketPair.openedLast? b.settings.brackets front).any (·.closedFirst back) <;> rfl
  constructor
  · intro hbreaks hjoins
    have hlines := hbreaks.lineCount
    rw [hgrowth] at hlines
    rcases hjoins with hcuts | hcuts <;> rw [if_pos hcuts] at hjoined <;> omega
  · intro hjoins
    obtain ⟨hbefore, hbehind⟩ := not_or.1 hjoins
    rw [if_neg hbefore, if_neg hbehind] at hjoined
    have hleft : ¬ Text.CutsPair l.before b.lineEnding := by
      rwa [List.append_assoc, Text.cutsPair_iff_append hbreak.ne_nil] at hbefore
    have hcaret :
        ¬ Text.CutsPair (l.before ++ (b.lineEnding ++ l.carried)) (l.beyond ++ l.after) := by
      rcases hfits.beyond with hnil | ⟨hdeeper, -⟩
      · rw [hnil, List.append_nil] at hbehind
        rwa [hnil, List.nil_append, Text.cutsPair_append_iff
          (List.append_ne_nil_of_left_ne_nil hbreak.ne_nil _)]
      · rw [← List.append_assoc, Text.cutsPair_append_iff hdeeper]
        exact hfits.carried.not_cutsPair_left
    obtain ⟨hline, hcolumn⟩ := hafter.caretColumn_eq hindexed' hbreak hfits.carried hleft hcaret
    refine ⟨?_, ?_, ?_⟩
    · rw [hgrowth]
      omega
    · rw [hline, h.caretLine_eq hindexed hcut, hfront]
    · rw [hcolumn, hcarried]
      split <;> rfl

/-- Between brackets with blanks inside, on a line that is indented. -/
theorem breaksLine_insertNewline_brackets :
    let front := "  f(\t".toList
    let back := " )\n".toList
    let b := (create "a.txt" (front ++ back) 24 80 .usual).collapse front.length
    (b.document.Indexed ∧ b.Between front back ∧ ¬ Text.CutsPair front back ∧
        b.settings.lineEnding ∈ [['\r', '\n'], ['\n'], ['\r']]) ∧
      BreaksLine front back b b.insertNewline ∧
        b.insertNewline.text = "  f(\n      \n  )\n".toList := by
  intro front back b
  have hindexed : b.document.Indexed := Document.indexed_ofText _
  have hbetween : b.Between front back :=
    between_collapse (b := create "a.txt" (front ++ back) 24 80 .usual) rfl
  have hcut : ¬ Text.CutsPair front back := by decide
  have hending : b.settings.lineEnding ∈ [['\r', '\n'], ['\n'], ['\r']] := by decide
  have hjoins : ¬ (b.lineBreak front back).Joins b.lineEnding := by decide +kernel
  exact ⟨⟨hindexed, hbetween, hcut, hending⟩,
    (breaksLine_insertNewline_iff hindexed hbetween hcut hending).2 hjoins, by decide +kernel⟩

/-- The first break of the text is a line feed, and the caret is behind a return. -/
theorem feed_joins_return :
    let b := (create "a.txt" ['\n', '\r'] 24 80 .usual).collapse 2
    b.caret.hasSelection = false ∧ b.insertNewline.text = ['\n', '\r', '\n'] ∧
      b.insertNewline.document.lineCount = b.document.lineCount ∧
        b.insertNewline.caretLine = b.caretLine := by
  decide +kernel

end Buffer

end TextEditor
