import TextEditor.Proofs.Document.Position

/-!
# Lines as a receiver counts them

A receiver of changes ends a line at a line feed, at a carriage return and at a pair of both, and
nowhere else, and takes a column behind the end of a line for the end of its content.  The editor
has more line breaks, and can stand inside a pair.  Up to the first of the other breaks, and where
no pair is cut, both find the same offset for a position; behind one, and inside a pair, they never
do, the end of the text aside.
-/

namespace TextEditor

namespace Receiver

open Text

/-- Whether a receiver ends a line at the character. -/
def breaks (c : Char) : Bool :=
  c = '\n' || c = '\r'

/-- The characters of the first line without its break. -/
def content (t : Text) : Text :=
  t.takeWhile fun c => !breaks c

/-- How many characters of a line a column takes, the end of the line at most. -/
def column (e : Encoding) (line : Text) (character : Int) : Nat :=
  match e with
  | .utf32 => min character.toNat line.length
  | .utf16 => indexOfUnits line character

/-- The offset at which a receiver finds the beginning of a line; the end of the text, if there are
fewer lines. -/
def lineStart : (line : Nat) → Text → Nat
  | 0, _ => 0
  | _ + 1, [] => 0
  | line + 1, '\r' :: '\n' :: rest => 2 + lineStart line rest
  | line + 1, c :: rest => 1 + lineStart (if breaks c then line else line + 1) rest

/-- The offset that a receiver finds for a position. -/
def offset (e : Encoding) (p : Position) (t : Text) : Nat :=
  let start := lineStart p.line.toNat t
  start + column e (content (t.drop start)) p.column

/-- All line breaks are such for a receiver too. -/
def Plain (t : Text) : Prop :=
  ∀ c ∈ t, isLineBreak c = true → breaks c = true

instance (t : Text) : Decidable (Plain t) :=
  decidable_of_iff ((t.all fun c => !isLineBreak c || breaks c) = true)
    (by simp [Plain, ← Bool.not_eq_true, imp_iff_not_or])

theorem Plain.mono {t u : Text} (h : Plain t) (hsub : u ⊆ t) : Plain u :=
  fun c hc => h c (hsub hc)

theorem plain_nil : Plain [] :=
  fun _ hc => absurd hc List.not_mem_nil

theorem plain_cons {c : Char} {t : Text} :
    Plain (c :: t) ↔ (isLineBreak c = true → breaks c = true) ∧ Plain t :=
  List.forall_mem_cons

theorem isLineBreak_of_breaks {c : Char} (h : breaks c = true) : isLineBreak c = true := by
  have hboth : c = '\n' ∨ c = '\r' := by simpa [breaks] using h
  rcases hboth with rfl | rfl <;> decide

/-! ## Finding the line -/

theorem le_of_getElem?_breakEnds {t : Text} {k line s : Nat}
    (h : (k :: breakEnds k t)[line]? = some s) : k ≤ s := by
  rcases List.mem_cons.1 (List.mem_of_getElem? h) with hfirst | hlater
  · omega
  · have := (bounds_of_mem_breakEnds hlater).1
    omega

theorem start_eq_zero {k start : Nat} {ends : List Nat}
    (h : (k :: ends)[0]? = some (k + start)) : start = 0 := by
  simpa using h

/-- A receiver comes to the same line, if it knows all the breaks before it. -/
theorem lineStart_of_starts {t : Text} {line start k : Nat}
    (hline : (k :: breakEnds k t)[line]? = some (k + start)) (hplain : Plain (t.take start)) :
    lineStart line t = start := by
  rcases line with _ | line
  · rw [start_eq_zero hline, lineStart]
  fun_induction breakEnds k t generalizing line start with
  | case1 => simp at hline
  | case2 k rest ih =>
    rw [List.getElem?_cons_succ] at hline
    obtain ⟨start, rfl⟩ := Nat.exists_eq_add_of_le
      (Nat.le_of_add_le_add_left (le_of_getElem?_breakEnds hline))
    rw [← Nat.add_assoc] at hline
    rw [Nat.add_comm 2, List.take_succ_cons, List.take_succ_cons, plain_cons, plain_cons] at hplain
    rw [lineStart]
    rcases line with _ | line
    · rw [start_eq_zero hline, lineStart]
    · rw [ih hplain.2.2 line hline]
  | case3 k c rest hpair hbreak ih =>
    rw [List.getElem?_cons_succ] at hline
    obtain ⟨start, rfl⟩ := Nat.exists_eq_add_of_le
      (Nat.le_of_add_le_add_left (le_of_getElem?_breakEnds hline))
    rw [← Nat.add_assoc] at hline
    rw [Nat.add_comm 1, List.take_succ_cons, plain_cons] at hplain
    rw [lineStart, if_pos (hplain.1 hbreak)]
    · rcases line with _ | line
      · rw [start_eq_zero hline, lineStart]
      · rw [ih hplain.2 line hline]
    · exact hpair
  | case4 k c rest hpair hbreak ih =>
    have hrest : ((k + 1) :: breakEnds (k + 1) rest)[line + 1]? = some (k + start) := hline
    obtain ⟨start, rfl⟩ := Nat.exists_eq_add_of_le
      (Nat.le_of_add_le_add_left (le_of_getElem?_breakEnds hrest))
    rw [← Nat.add_assoc] at hrest
    rw [Nat.add_comm 1, List.take_succ_cons, plain_cons] at hplain
    rw [lineStart, if_neg fun h => hbreak (isLineBreak_of_breaks h), ih hplain.2 line hrest]
    exact hpair

theorem pairwise_starts (k : Nat) (t : Text) : (k :: breakEnds k t).Pairwise (· < ·) :=
  List.Pairwise.cons (fun _ hs => (bounds_of_mem_breakEnds hs).1) (pairwise_breakEnds t k)

theorem exists_lt_of_getElem?_succ {k line s : Nat} {t : Text}
    (h : (k :: breakEnds k t)[line + 1]? = some s) :
    ∃ r, (k :: breakEnds k t)[line]? = some r ∧ r < s := by
  obtain ⟨hinside, rfl⟩ := List.getElem?_eq_some_iff.1 h
  have hbefore : line < (k :: breakEnds k t).length := Nat.lt_of_succ_lt hinside
  exact ⟨_, List.getElem?_eq_getElem hbefore,
    List.pairwise_iff_getElem.1 (pairwise_starts k t) _ _ hbefore hinside (Nat.lt_succ_self line)⟩

/-- A receiver's lines begin no earlier than those of the editor. -/
theorem le_lineStart {t : Text} {line place k : Nat} (hplace : place ≤ t.length)
    (hnext : ∀ s, (k :: breakEnds k t)[line]? = some s → k + place ≤ s) :
    place ≤ lineStart line t := by
  fun_induction breakEnds k t generalizing line place with
  | case1 => exact Nat.le_trans hplace (Nat.zero_le _)
  | case2 k rest ih =>
    rcases line with _ | line
    · have := hnext k rfl
      omega
    have hrest : place - 2 ≤ lineStart line rest := by
      refine ih (by simp only [List.length_cons] at hplace; omega) fun s hs => ?_
      have := hnext s hs
      have := le_of_getElem?_breakEnds hs
      omega
    rw [lineStart]
    omega
  | case3 k c rest hpair hbreak ih =>
    rcases line with _ | line
    · have := hnext k rfl
      omega
    have hplace : place - 1 ≤ rest.length := by
      simp only [List.length_cons] at hplace
      omega
    rw [lineStart]
    · have hrest : place - 1 ≤ lineStart (if breaks c then line else line + 1) rest := by
        refine ih hplace fun s hs => ?_
        have := le_of_getElem?_breakEnds hs
        -- a break that the receiver does not know leaves it a line behind
        split at hs
        · have := hnext s hs
          omega
        · obtain ⟨r, hr, hlt⟩ := exists_lt_of_getElem?_succ hs
          have := hnext r hr
          omega
      omega
    · exact hpair
  | case4 k c rest hpair hbreak ih =>
    rcases line with _ | line
    · have := hnext k rfl
      omega
    have hrest : place - 1 ≤ lineStart (line + 1) rest := by
      refine ih (by simp only [List.length_cons] at hplace; omega) fun s hs => ?_
      have := le_of_getElem?_breakEnds hs
      have := hnext s hs
      omega
    rw [lineStart, if_neg fun h => hbreak (isLineBreak_of_breaks h)]
    · omega
    · exact hpair

/-- Behind a break that a receiver does not know, it takes a line to begin where the next one does,
or later. -/
theorem le_lineStart_of_not_plain {t : Text} {line start place k : Nat}
    (hline : (k :: breakEnds k t)[line]? = some (k + start)) (hforeign : ¬ Plain (t.take start))
    (hplace : place ≤ t.length)
    (hnext : ∀ s, (k :: breakEnds k t)[line + 1]? = some s → k + place ≤ s) :
    place ≤ lineStart line t := by
  fun_induction breakEnds k t generalizing line start place with
  | case1 => exact Nat.le_trans hplace (Nat.zero_le _)
  | case2 k rest ih =>
    rcases line with _ | line
    · rw [start_eq_zero hline] at hforeign
      exact absurd plain_nil hforeign
    rw [List.getElem?_cons_succ] at hline
    obtain ⟨start, rfl⟩ := Nat.exists_eq_add_of_le
      (Nat.le_of_add_le_add_left (le_of_getElem?_breakEnds hline))
    rw [← Nat.add_assoc] at hline
    rw [Nat.add_comm 2, List.take_succ_cons, List.take_succ_cons, plain_cons, plain_cons] at hforeign
    have hrest : place - 2 ≤ lineStart line rest := by
      refine ih hline (fun h => hforeign ⟨fun _ => rfl, fun _ => rfl, h⟩)
        (by simp only [List.length_cons] at hplace; omega) fun s hs => ?_
      have := hnext s hs
      have := le_of_getElem?_breakEnds hs
      omega
    rw [lineStart]
    omega
  | case3 k c rest hpair hbreak ih =>
    rcases line with _ | line
    · rw [start_eq_zero hline] at hforeign
      exact absurd plain_nil hforeign
    rw [List.getElem?_cons_succ] at hline
    obtain ⟨start, rfl⟩ := Nat.exists_eq_add_of_le
      (Nat.le_of_add_le_add_left (le_of_getElem?_breakEnds hline))
    rw [← Nat.add_assoc] at hline
    rw [Nat.add_comm 1, List.take_succ_cons, plain_cons] at hforeign
    have hplace : place - 1 ≤ rest.length := by
      simp only [List.length_cons] at hplace
      omega
    have hlater : ∀ s, ((k + 1) :: breakEnds (k + 1) rest)[line + 1]? = some s →
        k + 1 + (place - 1) ≤ s := fun s hs => by
      have := hnext s hs
      have := le_of_getElem?_breakEnds hs
      omega
    rw [lineStart]
    · split
      · next hbreaks =>
        have := ih hline (fun h => hforeign ⟨fun _ => hbreaks, h⟩) hplace hlater
        omega
      · have := le_lineStart hplace hlater
        omega
    · exact hpair
  | case4 k c rest hpair hbreak ih =>
    rcases line with _ | line
    · rw [start_eq_zero hline] at hforeign
      exact absurd plain_nil hforeign
    have hrest : ((k + 1) :: breakEnds (k + 1) rest)[line + 1]? = some (k + start) := hline
    obtain ⟨start, rfl⟩ := Nat.exists_eq_add_of_le
      (Nat.le_of_add_le_add_left (le_of_getElem?_breakEnds hrest))
    rw [← Nat.add_assoc] at hrest
    rw [Nat.add_comm 1, List.take_succ_cons, plain_cons] at hforeign
    have hplace : place - 1 ≤ lineStart (line + 1) rest := by
      refine ih hrest (fun h => hforeign ⟨fun h => absurd h hbreak, h⟩)
        (by simp only [List.length_cons] at hplace; omega) fun s hs => ?_
      have := hnext s hs
      have := le_of_getElem?_breakEnds hs
      omega
    rw [lineStart, if_neg fun h => hbreak (isLineBreak_of_breaks h)]
    · omega
    · exact hpair

/-! ## Finding the column -/

theorem isLineBreak_eq_false_of_breakEnds {t : Text} {k : Nat} (h : breakEnds k t = []) :
    ∀ c ∈ t, isLineBreak c = false := by
  fun_induction breakEnds k t with
  | case1 => exact fun c hc => absurd hc List.not_mem_nil
  | case2 => cases h
  | case3 => cases h
  | case4 k c rest _ hbreak ih =>
    intro d hd
    rcases List.mem_cons.1 hd with rfl | hrest
    · exact Bool.eq_false_iff.2 hbreak
    · exact ih h d hrest

/-- Between the beginning of its line and an offset there is no break, unless the offset is inside
a pair. -/
theorem isLineBreak_eq_false_of_mem_slice {t : Text} {place start : Nat} (hplace : place ≤ t.length)
    (hcut : ¬ CutsPair (t.take place) (t.drop place))
    (hstart : (lineStarts t)[((lineStarts t).takeWhile (· ≤ place)).length - 1]? = some start) :
    ∀ c ∈ slice t start place, isLineBreak c = false := by
  have hlines := takeWhile_lineStarts hplace hcut
  have hlength : 0 < (lineStarts (t.take place)).length :=
    List.length_pos_iff.2 (lineStarts_ne_nil _)
  rw [hlines] at hstart
  -- the line of the offset is the last one of the text up to it
  have hsame : lineStarts (t.take start) = lineStarts (t.take place) := by
    rw [← take_lineStarts hstart, Nat.sub_add_cancel hlength, lineStarts_eq_append hplace hcut,
      List.take_left]
  have hmem : start ∈ lineStarts (t.take place) := by
    rw [lineStarts_eq_append hplace hcut, List.getElem?_append_left (by omega)] at hstart
    exact List.mem_of_getElem? hstart
  have hbefore := le_length_of_mem_lineStarts hmem
  have hsplit := lineStarts_eq_append hbefore (not_cutsPair_of_mem_lineStarts hmem)
  rw [List.take_take, Nat.min_eq_left (by rw [List.length_take] at hbefore; omega), hsame,
    List.drop_take] at hsplit
  exact isLineBreak_eq_false_of_breakEnds (List.self_eq_append_right.1 hsplit)

/-- The content of a line goes on at least to an offset on it. -/
theorem content_drop {t : Text} {start place : Nat} (hstart : start ≤ place)
    (hslice : ∀ c ∈ slice t start place, isLineBreak c = false) :
    ∃ more, content (t.drop start) = slice t start place ++ more := by
  have hsplit : t.drop start = slice t start place ++ t.drop place := by
    rw [slice, show t.drop place = (t.drop start).drop (place - start) by
      rw [List.drop_drop, Nat.add_sub_cancel' hstart], List.take_append_drop]
  refine ⟨content (t.drop place), ?_⟩
  rw [content, hsplit, List.takeWhile_append_of_pos, content]
  intro c hc
  cases hbreaks : breaks c with
  | false => rfl
  | true => exact absurd (isLineBreak_of_breaks hbreaks) (by simp [hslice c hc])

/-! ## Where a receiver can stand -/

/-- No line of a receiver begins inside a pair. -/
theorem not_cutsPair_lineStart (line : Nat) (t : Text) :
    ¬ CutsPair (t.take (lineStart line t)) (t.drop (lineStart line t)) := by
  fun_induction lineStart line t with
  | case1 => exact not_cutsPair_nil _
  | case2 => exact not_cutsPair_nil _
  | case3 line rest ih =>
    rw [Nat.add_comm]
    rcases Nat.eq_zero_or_pos (lineStart line rest) with hzero | hpos
    · rw [hzero]
      simp [CutsPair]
    · exact not_cutsPair_succ (by omega) (not_cutsPair_succ hpos ih)
  | case4 line c rest hpair ih =>
    rw [Nat.add_comm]
    rcases Nat.eq_zero_or_pos (lineStart (if breaks c then line else line + 1) rest) with
      hzero | hpos
    · rw [hzero]
      rintro ⟨hc, hrest⟩
      obtain ⟨tail, htail⟩ := List.head?_eq_some_iff.1 (by simpa using hrest)
      exact hpair tail (by simpa using hc) htail
    · exact not_cutsPair_succ hpos ih

theorem column_le (e : Encoding) (line : Text) (character : Int) :
    column e line character ≤ line.length := by
  cases e with
  | utf32 => exact Nat.min_le_right _ _
  | utf16 => exact indexOfUnits_le_length line character

/-- A receiver never stands inside a pair. -/
theorem not_cutsPair_offset (e : Encoding) (p : Position) (t : Text) :
    ¬ CutsPair (t.take (offset e p t)) (t.drop (offset e p t)) := by
  have hcolumn := column_le e (content (t.drop (lineStart p.line.toNat t))) p.column
  dsimp only [offset]
  generalize column e _ p.column = width at hcolumn ⊢
  rcases Nat.eq_zero_or_pos width with rfl | hpos
  · exact not_cutsPair_lineStart _ t
  · -- the character before it belongs to the content of a line
    rintro ⟨hlast, -⟩
    obtain ⟨more, hmore⟩ := List.takeWhile_prefix (fun c => !breaks c)
      (l := t.drop (lineStart p.line.toNat t))
    rw [← content] at hmore
    have hfront : (content (t.drop (lineStart p.line.toNat t))).take width ≠ [] := by
      rw [ne_eq, List.take_eq_nil_iff]
      rintro (hzero | hnil)
      · omega
      · rw [hnil, List.length_nil] at hcolumn
        omega
    rw [List.take_add, ← hmore, List.take_append_of_le_length hcolumn,
      List.getLast?_append_of_ne_nil _ hfront] at hlast
    have hmem := List.mem_of_mem_take (List.mem_of_getLast? hlast)
    have hplain := List.all_eq_true.1 List.all_takeWhile '\r' hmem
    simp [breaks] at hplain

end Receiver

namespace Document

variable {d : Document} {o : Int}

theorem starts_lineOf (h : d.Indexed) (o : Int) :
    (Text.lineStarts d.text)[d.lineOf o]? = some (d.lineStart (d.lineOf o)) := by
  obtain ⟨s, hs, -⟩ := starts_le_clamp h (Nat.le_refl (d.lineOf o))
  rw [← h, hs, lineStart]
  split
  · next hzero =>
    obtain hfirst : d.lineOf o = 0 := by omega
    rw [hfirst, h] at hs
    exact hs.symm
  · rw [Int.toNat_natCast, hs, Option.getD_some]

theorem line_positionIn (d : Document) (e : Encoding) (o : Int) :
    (d.positionIn e o).line = d.lineOf o := by
  cases e <;> rfl

/-- An offset that is not inside a pair is on one line with the beginning of its line. -/
theorem isLineBreak_eq_false_of_mem_line (h : d.Indexed)
    (hcut : ¬ Text.CutsPair (d.text.take (d.clamp o)) (d.text.drop (d.clamp o))) :
    ∀ c ∈ Text.slice d.text (d.lineStart (d.lineOf o)) (d.clamp o), Text.isLineBreak c = false := by
  have hlineOf : d.lineOf o =
      ((Text.lineStarts d.text).takeWhile (· ≤ d.clamp o)).length - 1 := by
    rw [lineOf, h]
  refine Receiver.isLineBreak_eq_false_of_mem_slice (d.clamp_le_length o) hcut ?_
  rw [← hlineOf]
  exact starts_lineOf h o

end Document

namespace Receiver

open Text

variable {d : Document} {o : Int}

/-- A receiver finds the offset of which it is told the position, if it knows all the breaks before
it and the offset is not inside a pair. -/
theorem offset_positionIn (h : d.Indexed) (e : Encoding)
    (hplain : Plain (d.text.take (d.clamp o)))
    (hcut : ¬ CutsPair (d.text.take (d.clamp o)) (d.text.drop (d.clamp o))) :
    offset e (d.positionIn e o) d.text = d.clamp o := by
  have hbefore := Document.lineStart_lineOf h o
  have hline : lineStart (d.lineOf o) d.text = d.lineStart (d.lineOf o) := by
    refine lineStart_of_starts (k := 0) ?_
      (hplain.mono (List.take_prefix_take_left hbefore).subset)
    rw [Nat.zero_add]
    exact Document.starts_lineOf h o
  obtain ⟨more, hmore⟩ := content_drop hbefore (Document.isLineBreak_eq_false_of_mem_line h hcut)
  have hlength : (slice d.text (d.lineStart (d.lineOf o)) (d.clamp o)).length = _ :=
    Document.length_slice (d.clamp_le_length o)
  rw [offset, Document.line_positionIn, Int.toNat_natCast, hline, hmore]
  suffices hcolumn : column e (slice d.text _ _ ++ more) (d.positionIn e o).column =
      (slice d.text (d.lineStart (d.lineOf o)) (d.clamp o)).length by
    rw [hcolumn, hlength, Nat.add_sub_cancel' hbefore]
  cases e with
  | utf16 =>
    rw [Document.positionIn, Document.column_position16 h]
    exact indexOfUnits_units_append _ more
  | utf32 =>
    -- the column may lie before the text or behind it
    have hclamp : d.clamp o = min o.toNat d.text.length := rfl
    have hcolumn : (d.positionIn .utf32 o).column = o - d.lineStart (d.lineOf o) := rfl
    have hcontent : (content (d.text.drop (d.lineStart (d.lineOf o)))).length ≤ _ :=
      (List.takeWhile_sublist _).length_le
    rw [hmore, List.length_append, List.length_drop] at hcontent
    rw [column, List.length_append, hcolumn]
    omega

/-- Before the end of the text, a receiver finds the offset of which it is told the position just if
it knows all the breaks before it and the offset is not inside a pair. -/
theorem offset_positionIn_iff (h : d.Indexed) (e : Encoding) (hinside : d.clamp o < d.text.length) :
    offset e (d.positionIn e o) d.text = d.clamp o ↔
      Plain (d.text.take (d.clamp o)) ∧
        ¬ CutsPair (d.text.take (d.clamp o)) (d.text.drop (d.clamp o)) := by
  refine ⟨fun hfound => ?_, fun ⟨hplain, hcut⟩ => offset_positionIn h e hplain hcut⟩
  have hcut := hfound ▸ not_cutsPair_offset e (d.positionIn e o) d.text
  refine ⟨?_, hcut⟩
  by_contra hforeign
  have hstart : ¬ Plain (d.text.take (d.lineStart (d.lineOf o))) := by
    intro hplain
    refine hforeign fun c hc hbreak => ?_
    have hsplit : d.text.take (d.clamp o) = d.text.take (d.lineStart (d.lineOf o)) ++
        slice d.text (d.lineStart (d.lineOf o)) (d.clamp o) := by
      rw [slice, ← List.take_add, Nat.add_sub_cancel' (Document.lineStart_lineOf h o)]
    rw [hsplit] at hc
    rcases List.mem_append.1 hc with hfront | hline
    · exact hplain c hfront hbreak
    · rw [Document.isLineBreak_eq_false_of_mem_line h hcut c hline] at hbreak
      cases hbreak
  -- the receiver takes the line to begin behind the offset
  have hbehind : d.clamp o + 1 ≤ lineStart (d.lineOf o) d.text := by
    refine le_lineStart_of_not_plain (k := 0) ?_ hstart hinside fun s hs => ?_
    · rw [Nat.zero_add]
      exact Document.starts_lineOf h o
    · rw [Nat.zero_add]
      exact Document.clamp_lt_starts h (h ▸ hs)
  rw [offset, Document.line_positionIn, Int.toNat_natCast] at hfound
  omega

/-- The second line of a text with a pair and an astral character. -/
example : offset .utf16 ⟨1, 2⟩ ['a', '\r', '\n', '😀', 'b'] = 4 := by decide

end Receiver

end TextEditor
