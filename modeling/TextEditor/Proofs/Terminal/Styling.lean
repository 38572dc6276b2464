import TextEditor.Proofs.Terminal.Marks
import TextEditor.Proofs.Terminal.Pointing

/-!
# What the styles of a frame cover

Each range of a snapshot is to colour the characters of the frame that stand for its offsets.  It
does so as long as a terminal leaves nothing out: a segment reckons with one cell for each of its
offsets.  A bell or a backspace takes none, and from there on the styles of its row fall behind by
one, so that a character gets the style of its neighbour, and the last of the row that of a
separator.
-/

namespace TextEditor.Terminal

open StyledText (isDropped)

/-! ## What a style covers -/

/-- One of the styles covers the character. -/
def Covered (spans : List StyleSpan) (i : Nat) : Prop :=
  ∃ span ∈ spans, span.start ≤ i ∧ (i : Int) < span.stop

theorem covered_append {spans spans' : List StyleSpan} {i : Nat} :
    Covered (spans ++ spans') i ↔ Covered spans i ∨ Covered spans' i := by
  simp only [Covered, List.mem_append, or_and_right, exists_or]

theorem not_covered_nil (i : Nat) : ¬ Covered [] i := by
  rintro ⟨span, hspan, -⟩
  cases hspan

/-- What was added for a style covers the characters in some places and no others. -/
structure Paints (style : String) (place : Nat → Prop) (added : List StyleSpan) : Prop where
  style {span : StyleSpan} : span ∈ added → span.style = style
  covered_iff (i : Nat) : Covered added i ↔ place i

section Paints

variable {style : String} {place place' : Nat → Prop} {added added' : List StyleSpan}

theorem Paints.nil (h : ∀ i, ¬ place i) : Paints style place [] where
  style := nofun
  covered_iff i := iff_of_false (not_covered_nil i) (h i)

theorem Paints.append (h : Paints style place added) (h' : Paints style place' added') :
    Paints style (fun i => place i ∨ place' i) (added ++ added') where
  style hspan := (List.mem_append.1 hspan).elim h.style h'.style
  covered_iff i := by rw [covered_append, h.covered_iff, h'.covered_iff]

theorem Paints.congr (h : Paints style place added) (heq : ∀ i, place i ↔ place' i) :
    Paints style place' added where
  style := h.style
  covered_iff i := (h.covered_iff i).trans (heq i)

end Paints

/-- The segment gives the offset this place in the text of the frame, as if all of its offsets were
shown. -/
def Segment.Places (segment : Segment) (o : Int) (i : Nat) : Prop :=
  (segment.first ≤ o ∧ o < segment.last) ∧ (i : Int) = segment.index + (o - segment.first)

/-- One of the segments gives this place to an offset of the range. -/
def Placed (segments : List Segment) (range : StyleSpan) (i : Nat) : Prop :=
  ∃ segment ∈ segments, ∃ o, (range.start ≤ o ∧ o < range.stop) ∧ segment.Places o i

section Drawing

variable {output : StyledText} {segments : List Segment} {start stop : Int}

theorem exists_stylize (hstart : 0 ≤ start) (hstop : start < stop) (style : String) :
    ∃ added, (output.stylize style start stop).spans = output.spans ++ added ∧
      Paints style (fun i => i < output.plain.length ∧ start ≤ i ∧ (i : Int) < stop) added := by
  simp only [StyledText.stylize, if_neg (Int.not_lt.2 hstart)]
  rw [if_neg (by omega : ¬ stop < 0)]
  split
  · next hempty =>
    simp only [Bool.or_eq_true, decide_eq_true_eq] at hempty
    exact ⟨[], (List.append_nil _).symm, .nil fun i => by omega⟩
  · refine ⟨_, rfl, by simp, fun i => ?_⟩
    simp [Covered]
    omega

theorem exists_stylizeRange_singleton {segment : Segment} (hindex : 0 ≤ segment.index)
    (range : StyleSpan) (output : StyledText) :
    ∃ added, (stylizeRange [segment] range.start range.stop range.style output).spans =
        output.spans ++ added ∧
      Paints range.style (fun i => i < output.plain.length ∧
        ∃ o, (range.start ≤ o ∧ o < range.stop) ∧ segment.Places o i) added := by
  have hoffset : ∀ i : Nat,
      (segment.index + max range.start segment.first - segment.first ≤ i ∧
        (i : Int) < segment.index + min range.stop segment.last - segment.first) ↔
      ∃ o, (range.start ≤ o ∧ o < range.stop) ∧ segment.Places o i := by
    intro i
    simp only [Segment.Places]
    constructor
    · intro hi
      exact ⟨i - segment.index + segment.first, by omega⟩
    · rintro ⟨o, hrange, hsegment, heq⟩
      omega
  simp only [stylizeRange, List.foldl_cons, List.foldl_nil, ← hoffset]
  split
  · exact exists_stylize (by omega) (by omega) range.style
  · exact ⟨[], (List.append_nil _).symm, .nil fun i => by omega⟩

/-- A range is given its style where the segments place its offsets. -/
theorem exists_stylizeRange (hindex : ∀ segment ∈ segments, 0 ≤ segment.index)
    (range : StyleSpan) (output : StyledText) :
    ∃ added, (stylizeRange segments range.start range.stop range.style output).spans =
        output.spans ++ added ∧
      Paints range.style (fun i => i < output.plain.length ∧ Placed segments range i) added := by
  induction segments generalizing output with
  | nil =>
    refine ⟨[], (List.append_nil _).symm, .nil fun i => ?_⟩
    rintro ⟨-, segment, hsegment, -⟩
    cases hsegment
  | cons segment segments ih =>
    obtain ⟨hfirst, hrest⟩ := List.forall_mem_cons.1 hindex
    obtain ⟨added, hspans, hpaints⟩ := exists_stylizeRange_singleton hfirst range output
    obtain ⟨more, hspans', hpaints'⟩ :=
      ih hrest (stylizeRange [segment] range.start range.stop range.style output)
    refine ⟨added ++ more, ?_, (hpaints.append hpaints').congr fun i => ?_⟩
    · rw [← List.append_assoc, ← hspans, ← hspans']
      rfl
    · rw [plain_stylizeRange, ← and_or_left, Placed, Placed, List.exists_mem_cons_iff]

/-- Ranges are given their styles one after the other. -/
theorem exists_foldl_stylizeRange (hindex : ∀ segment ∈ segments, 0 ≤ segment.index)
    (ranges : List StyleSpan) (output : StyledText) :
    ∃ added, (ranges.foldl (fun output range =>
        stylizeRange segments range.start range.stop range.style output) output).spans =
          output.spans ++ added.flatten ∧
      List.Forall₂ (fun range => Paints range.style fun i =>
        i < output.plain.length ∧ Placed segments range i) ranges added := by
  induction ranges generalizing output with
  | nil => exact ⟨[], (List.append_nil _).symm, .nil⟩
  | cons range ranges ih =>
    obtain ⟨first, hspans, hfirst⟩ := exists_stylizeRange hindex range output
    obtain ⟨added, hspans', hadded⟩ :=
      ih (stylizeRange segments range.start range.stop range.style output)
    refine ⟨first :: added, ?_, .cons hfirst ?_⟩
    · rw [List.foldl_cons, hspans', hspans, List.flatten_cons, List.append_assoc]
    · rwa [plain_stylizeRange] at hadded

end Drawing

/-! ## Frames -/

/-- The ranges that get a style in a frame, in their order. -/
def ranges (s : Snapshot) : List StyleSpan :=
  let caret := s.caret + s.caretTrailing
  (s.spans.filterMap fun span =>
      (categoryStyle? span.category).map fun style => ⟨span.start, span.stop, style⟩) ++
    (match s.brackets with
      | none => []
      | some (opener, closer) =>
        [⟨opener, opener + 1, bracketStyle⟩, ⟨closer, closer + 1, bracketStyle⟩]) ++
    (match s.selection with
      | none => []
      | some (start, length) => [⟨start, start + length, selectionStyle⟩]) ++
    if s.caretVisible then [⟨caret, caret + 1, caretStyle⟩] else []

/-- A frame is drawn first, and then its ranges get their styles. -/
theorem render_eq_foldl (s : Snapshot) (columns : Int) :
    render (some s) columns =
      (ranges s).foldl (fun output range => stylizeRange (unstyled s columns).2
        range.start range.stop range.style output) (unstyled s columns).1 := by
  have hspans : ∀ (segments : List Segment) {draw : StyledText → Span → StyledText},
      (∀ output span, draw output span = (categoryStyle? span.category).elim output fun style =>
        stylizeRange segments span.start span.stop style output) → ∀ output : StyledText,
      s.spans.foldl draw output =
        (s.spans.filterMap fun span => (categoryStyle? span.category).map fun style =>
            (⟨span.start, span.stop, style⟩ : StyleSpan)).foldl
          (fun output range => stylizeRange segments range.start range.stop range.style output)
          output := by
    intro segments draw hdraw output
    rw [List.foldl_filterMap]
    congr 1
    funext output span
    rw [hdraw]
    cases categoryStyle? span.category <;> rfl
  simp only [render, ranges, List.foldl_append, unstyled]
  generalize drawRows s _ _ = drawn
  rw [hspans drawn.2]
  · cases s.brackets <;> cases s.selection <;> cases s.caretVisible <;> rfl
  · intro output span
    cases categoryStyle? span.category <;> rfl

/-- The character is one that stands for an offset in the range. -/
def StandsIn (shown : List Mark) (range : StyleSpan) (i : Nat) : Prop :=
  ∃ mark o, shown[i]? = some mark ∧ mark.offset? = some o ∧ range.start ≤ o ∧ o < range.stop

/-- The frame shows its marks.  Apart from the margins, its styles are those of the ranges, one
after the other, and each range colours the characters that stand for its offsets and no others. -/
def Styled (s : Snapshot) (columns : Int) : Prop :=
  (render (some s) columns).plain = (shown s columns).map Mark.char ∧
    ∃ margins added, (render (some s) columns).spans = margins ++ added.flatten ∧
      (∀ span ∈ margins, span.style = gutterStyle) ∧
      List.Forall₂ (fun range => Paints range.style (StandsIn (shown s columns) range))
        (ranges s) added

section Frames

variable {s : Snapshot} {columns : Int} {range span : StyleSpan} {i : Nat}

theorem plain_render_eq_unstyled (s : Snapshot) (columns : Int) :
    (render (some s) columns).plain = (unstyled s columns).1.plain := by
  rw [render_eq_foldl]
  exact plain_foldl (fun output _ => plain_stylizeRange _ _ _ _ output) _ _

/-- What the styles of a frame are, whether or not something is missing. -/
theorem exists_spans_render (hshift : 0 ≤ s.columnOffset) (columns : Int) :
    ∃ margins added, (render (some s) columns).spans = margins ++ added.flatten ∧
      (∀ span ∈ margins, span.style = gutterStyle) ∧
      List.Forall₂ (fun range => Paints range.style fun i =>
        i < (shown s columns).length ∧ Placed (unstyled s columns).2 range i) (ranges s) added := by
  have htells := tells_unstyled hshift columns
  have hindex : ∀ segment ∈ (unstyled s columns).2, 0 ≤ segment.index := by
    intro segment hsegment
    obtain ⟨front, hbegins⟩ := htells.begins hsegment
    rw [hbegins.index]
    exact Int.natCast_nonneg _
  have hlength := congrArg List.length htells.plain
  rw [List.length_map] at hlength
  obtain ⟨added, hspans, hadded⟩ := exists_foldl_stylizeRange hindex (ranges s)
    (unstyled s columns).1
  rw [hlength] at hadded
  exact ⟨_, added, render_eq_foldl s columns ▸ hspans, fun span hspan => htells.style hspan, hadded⟩

/-- A style of a styled frame is that of a margin or of a range. -/
theorem Styled.exists_range (h : Styled s columns)
    (hspan : span ∈ (render (some s) columns).spans) (hstyle : span.style ≠ gutterStyle)
    (hstart : span.start ≤ i) (hstop : (i : Int) < span.stop) :
    ∃ range ∈ ranges s, range.style = span.style ∧ StandsIn (shown s columns) range i := by
  obtain ⟨-, margins, added, hspans, hmargins, hadded⟩ := h
  rw [hspans] at hspan
  rcases List.mem_append.1 hspan with hmargin | hrange
  · exact absurd (hmargins span hmargin) hstyle
  · obtain ⟨spans, hspans, hmem⟩ := List.mem_flatten.1 hrange
    obtain ⟨k, hk, rfl⟩ := List.mem_iff_getElem.1 hspans
    have hk' : k < (ranges s).length := hadded.length_eq ▸ hk
    have hpaints := hadded.get hk' hk
    exact ⟨_, List.getElem_mem hk', (hpaints.style hmem).symm,
      (hpaints.covered_iff i).1 ⟨span, hmem, hstart, hstop⟩⟩

/-- A range colours whatever stands where the segments place its offsets. -/
theorem exists_covering (hshift : 0 ≤ s.columnOffset) (hrange : range ∈ ranges s)
    (hinside : i < (shown s columns).length) (hplaced : Placed (unstyled s columns).2 range i) :
    ∃ span ∈ (render (some s) columns).spans, span.style = range.style ∧
      span.start ≤ i ∧ (i : Int) < span.stop := by
  obtain ⟨margins, added, hspans, -, hadded⟩ := exists_spans_render hshift columns
  obtain ⟨k, hk, rfl⟩ := List.mem_iff_getElem.1 hrange
  have hk' : k < added.length := hadded.length_eq ▸ hk
  have hpaints := hadded.get hk hk'
  obtain ⟨span, hspan, hcovers⟩ := (hpaints.covered_iff i).2 ⟨hinside, hplaced⟩
  rw [hspans]
  exact ⟨span, List.mem_append_right _ (List.mem_flatten_of_mem (List.getElem_mem hk') hspan),
    hpaints.style hspan, hcovers⟩

/-- So a styled frame has there what stands for an offset of a range of that style. -/
theorem Styled.exists_standsIn (h : Styled s columns) (hshift : 0 ≤ s.columnOffset)
    (hrange : range ∈ ranges s) (hstyle : range.style ≠ gutterStyle)
    (hinside : i < (shown s columns).length) (hplaced : Placed (unstyled s columns).2 range i) :
    ∃ range' ∈ ranges s, range'.style = range.style ∧ StandsIn (shown s columns) range' i := by
  obtain ⟨span, hspan, hsame, hstart, hstop⟩ := exists_covering hshift hrange hinside hplaced
  obtain ⟨range', hrange', hsame', hstands⟩ :=
    h.exists_range hspan (by rwa [hsame]) hstart hstop
  exact ⟨range', hrange', hsame'.trans hsame, hstands⟩

end Frames

/-! ## Where nothing is missing -/

/-- What a terminal leaves out comes behind all that it shows. -/
def Unbroken (marks : List Mark) : Prop :=
  ∃ front back, marks = front ++ back ∧ (∀ mark ∈ front, mark.isKept = true) ∧
    ∀ mark ∈ back, mark.isKept = false

section Places

variable {marks front kept left : List Mark} {segment : Segment} {drawn : StyledText × List Segment}

theorem filter_kept_append (hkept : ∀ mark ∈ kept, mark.isKept = true)
    (hleft : ∀ mark ∈ left, mark.isKept = false) :
    (kept ++ left).filter Mark.isKept = kept := by
  rw [List.filter_append, List.filter_eq_self.2 hkept,
    List.filter_eq_nil_iff.2 (by simpa using hleft), List.append_nil]

/-- A segment that begins before the first mark that is left out begins where it says. -/
theorem Begins.index_eq (h : Begins (kept ++ left) front segment)
    (hkept : ∀ mark ∈ kept, mark.isKept = true) (hlength : front.length ≤ kept.length) :
    segment.index = front.length := by
  have hfront : front <+: kept :=
    List.prefix_of_prefix_length_le h.ahead (List.prefix_append _ _) hlength
  rw [h.index, List.filter_eq_self.2 fun mark hmark => hkept mark (hfront.subset hmark)]

/-- A segment that begins behind the first mark that is left out begins behind all that is shown
before that mark. -/
theorem Begins.le_index (h : Begins (kept ++ left) front segment)
    (hkept : ∀ mark ∈ kept, mark.isKept = true) (hlength : kept.length ≤ front.length) :
    (kept.length : Int) ≤ segment.index := by
  have hfront : kept <+: front :=
    List.prefix_of_prefix_length_le (List.prefix_append _ _) h.ahead hlength
  have hcount := (hfront.filter Mark.isKept).length_le
  rw [List.filter_eq_self.2 hkept] at hcount
  rw [h.index]
  omega

/-- If nothing is missing, the places that segments give to offsets are those of their marks. -/
theorem place_iff_of_unbroken (h : Tells drawn marks) (hunbroken : Unbroken marks) (i : Nat)
    (o : Int) :
    (i < (marks.filter Mark.isKept).length ∧ ∃ segment ∈ drawn.2, segment.Places o i) ↔
      (marks.filter Mark.isKept)[i]?.map Mark.offset? = some (some o) := by
  obtain ⟨kept, left, rfl, hkept, hleft⟩ := hunbroken
  rw [filter_kept_append hkept hleft]
  constructor
  · rintro ⟨hinside, segment, hsegment, hrange, hi⟩
    obtain ⟨front, hbegins⟩ := h.begins hsegment
    have hshort : front.length ≤ kept.length := by
      by_contra hlong
      have := hbegins.le_index hkept (by omega)
      omega
    rw [hbegins.index_eq hkept hshort] at hi
    have hmark := hbegins.offset hrange.1 hrange.2
    have hplace : front.length + (o - segment.first).toNat = i := by omega
    rwa [hplace, List.getElem?_append_left hinside] at hmark
  · intro hmark
    have hinside : i < kept.length := by
      by_contra hout
      rw [List.getElem?_eq_none (by omega)] at hmark
      cases hmark
    have hsame : (kept ++ left)[i]? = kept[i]? := List.getElem?_append_left hinside
    rw [← hsame] at hmark
    obtain ⟨segment, hsegment, front, hbegins, hrange, hi⟩ := h.segment hmark
    rw [← hbegins.index_eq hkept (by omega)] at hi
    exact ⟨hinside, segment, hsegment, hrange, hi⟩

end Places

/-- Where nothing is missing, every style covers what it is meant for. -/
theorem styled_of_unbroken {s : Snapshot} (hshift : 0 ≤ s.columnOffset) {columns : Int}
    (hunbroken : Unbroken (marks s columns)) : Styled s columns := by
  have htells := tells_unstyled hshift columns
  obtain ⟨margins, added, hspans, hmargins, hadded⟩ := exists_spans_render hshift columns
  refine ⟨(plain_render_eq_unstyled s columns).trans htells.plain, margins, added, hspans,
    hmargins, hadded.imp fun range added hpaints => hpaints.congr fun i => ?_⟩
  have hplace := place_iff_of_unbroken htells hunbroken i
  constructor
  · rintro ⟨hinside, segment, hsegment, o, hrange, hplaces⟩
    obtain ⟨mark, hmark, hoffset⟩ :=
      Option.map_eq_some_iff.1 ((hplace o).1 ⟨hinside, segment, hsegment, hplaces⟩)
    exact ⟨mark, o, hmark, hoffset, hrange⟩
  · rintro ⟨mark, o, hmark, hoffset, hrange⟩
    obtain ⟨hinside, segment, hsegment, hplaces⟩ :=
      (hplace o).2 (Option.map_eq_some_iff.2 ⟨mark, hmark, hoffset⟩)
    exact ⟨hinside, segment, hsegment, o, hrange, hplaces⟩

/-! ## Where something is missing -/

theorem mem_ranges {s : Snapshot} {range : StyleSpan} (h : range ∈ ranges s) :
    (∃ category, categoryStyle? category = some range.style) ∨ range.style = bracketStyle ∨
      (range.style = selectionStyle ∧
        s.selection = some (range.start, range.stop - range.start)) ∨
      range = ⟨s.caret + s.caretTrailing, s.caret + s.caretTrailing + 1, caretStyle⟩ := by
  simp only [ranges, List.mem_append, List.mem_filterMap, Option.map_eq_some_iff] at h
  rcases h with ((⟨span, -, style, hcategory, rfl⟩ | hbrackets) | hselection) | hcaret
  · exact .inl ⟨_, hcategory⟩
  · cases hpair : s.brackets with
    | none => simp [hpair] at hbrackets
    | some pair =>
      simp only [hpair, List.mem_cons, List.not_mem_nil, or_false] at hbrackets
      rcases hbrackets with rfl | rfl
      · exact .inr (.inl rfl)
      · exact .inr (.inl rfl)
  · cases hpair : s.selection with
    | none => simp [hpair] at hselection
    | some pair =>
      simp only [hpair, List.mem_singleton] at hselection
      subst hselection
      exact .inr (.inr (.inl ⟨rfl, by simp⟩))
  · split at hcaret
    · exact .inr (.inr (.inr (List.mem_singleton.1 hcaret)))
    · cases hcaret

/-- Only the selection has its style. -/
theorem selection_of_range {s : Snapshot} {range : StyleSpan} (h : range ∈ ranges s)
    (hstyle : range.style = selectionStyle) :
    s.selection = some (range.start, range.stop - range.start) := by
  have hcategories : ∀ category, categoryStyle? category ≠ some selectionStyle := by
    intro category
    cases category <;> decide
  rcases mem_ranges h with ⟨category, hcategory⟩ | hbracket | ⟨-, hselection⟩ | rfl
  · exact absurd (hstyle ▸ hcategory) (hcategories category)
  · exact absurd (hbracket.symm.trans hstyle) (by decide)
  · exact hselection
  · exact absurd hstyle (by decide : caretStyle ≠ selectionStyle)

theorem caret_mem_ranges {s : Snapshot} (h : s.caretVisible = true) :
    ⟨s.caret + s.caretTrailing, s.caret + s.caretTrailing + 1, caretStyle⟩ ∈ ranges s := by
  refine List.mem_append_right _ ?_
  rw [if_pos h]
  exact List.mem_singleton_self _

/-- Only the caret has its style. -/
theorem caret_of_range {s : Snapshot} {range : StyleSpan} (h : range ∈ ranges s)
    (hstyle : range.style = caretStyle) :
    range = ⟨s.caret + s.caretTrailing, s.caret + s.caretTrailing + 1, caretStyle⟩ := by
  have hcategories : ∀ category, categoryStyle? category ≠ some caretStyle := by
    intro category
    cases category <;> decide
  rcases mem_ranges h with ⟨category, hcategory⟩ | hbracket | ⟨hselection, -⟩ | hcaret
  · exact absurd (hstyle ▸ hcategory) (hcategories category)
  · exact absurd (hbracket.symm.trans hstyle) (by decide)
  · exact absurd (hselection.symm.trans hstyle) (by decide)
  · exact hcaret

/-- Where something is missing, something behind it is shown. -/
theorem exists_lost {marks : List Mark} (h : ¬ Unbroken marks) :
    ∃ kept lost later, marks = kept ++ lost :: later ∧ (∀ mark ∈ kept, mark.isKept = true) ∧
      lost.isKept = false ∧ ∃ mark ∈ later, mark.isKept = true := by
  have hkept : ∀ mark ∈ marks.takeWhile Mark.isKept, mark.isKept = true :=
    fun mark hmark => List.mem_takeWhile_imp hmark
  have hsplit : marks = marks.takeWhile Mark.isKept ++ marks.dropWhile Mark.isKept :=
    List.takeWhile_append_dropWhile.symm
  have hhead := List.head?_dropWhile_not Mark.isKept marks
  cases hdrop : marks.dropWhile Mark.isKept with
  | nil => exact absurd ⟨_, _, hsplit, hkept, hdrop ▸ nofun⟩ h
  | cons lost later =>
    have hlost : lost.isKept = false := by simpa [hdrop] using hhead
    refine ⟨_, lost, later, hdrop ▸ hsplit, hkept, hlost, ?_⟩
    by_contra hnone
    refine h ⟨_, _, hsplit, hkept, fun mark hmark => ?_⟩
    rw [hdrop] at hmark
    rcases List.mem_cons.1 hmark with rfl | hlater
    · exact hlost
    · exact Bool.eq_false_iff.2 fun hshown => hnone ⟨mark, hlater, hshown⟩

/-- Where something is missing, a selection of just that colours something else. -/
theorem exists_not_styled {s : Snapshot} (hshift : 0 ≤ s.columnOffset)
    (hmargin : ∀ number ∈ s.lineNumbers, ∀ c ∈ gutter s.marginWidth number, isDropped c = false)
    {columns : Int} (hbroken : ¬ Unbroken (marks s columns)) :
    ∃ selection, ¬ Styled { s with selection } columns := by
  obtain ⟨kept, lost, later, hmarks, hkept, hlost, mark, hmark, hmarkKept⟩ := exists_lost hbroken
  obtain ⟨o, ho⟩ := exists_offset_of_not_kept hmargin
    (hmarks ▸ List.mem_append_right _ List.mem_cons_self) hlost
  have hshown : shown s columns = kept ++ later.filter Mark.isKept := by
    rw [shown, hmarks, List.filter_append, List.filter_eq_self.2 hkept,
      List.filter_cons_of_neg (by simp [hlost])]
  have hinside : kept.length < (shown s columns).length := by
    have := List.length_pos_of_mem (List.mem_filter.2 ⟨hmark, hmarkKept⟩)
    rw [hshown, List.length_append]
    omega
  obtain ⟨segment, hsegment, front, hbegins, ho', hplace⟩ :=
    (tells_unstyled hshift columns).segment (i := kept.length) (o := o) (by
      rw [hmarks, List.getElem?_append_right (Nat.le_refl _), Nat.sub_self]
      exact congrArg some ho)
  rw [hmarks] at hbegins
  have hindex := hbegins.index_eq hkept (by omega)
  refine ⟨some (o, 1), fun hstyled => ?_⟩
  have hrange : (⟨o, o + 1, selectionStyle⟩ : StyleSpan) ∈
      ranges { s with selection := some (o, 1) } :=
    List.mem_append_left _ (List.mem_append_right _ (List.mem_singleton_self _))
  obtain ⟨range, hrange', hstyle, other, p, hother, hp, hfirst, hlast⟩ :=
    hstyled.exists_standsIn hshift hrange (by decide : selectionStyle ≠ gutterStyle) hinside
      ⟨segment, hsegment, o, ⟨Int.le_refl o, Int.lt_succ o⟩, ho', hindex ▸ hplace⟩
  have hselection := Option.some.inj (selection_of_range hrange' hstyle)
  obtain ⟨hbegin, hlength⟩ := Prod.mk.inj hselection
  -- The character that is coloured stands for a later offset.
  have hlater : other ∈ later := by
    change (shown s columns)[kept.length]? = some other at hother
    rw [hshown, List.getElem?_append_right (Nat.le_refl _)] at hother
    exact List.mem_of_mem_filter (List.mem_of_getElem? hother)
  have hpairwise := hmarks ▸ pairwise_marks hshift columns
  have := (List.pairwise_cons.1 (List.pairwise_append.1 hpairwise).2.1).1 other hlater o ho p hp
  omega

/-! ## Frames of a workspace -/

/-- In whatever state a workspace is drawn, as long as nothing is shown behind what a terminal
leaves out, every style covers just what it is meant for.  That is so where the text on screen has
no bell and no backspace.  Otherwise it is not: whoever selects what is left out colours something
else. -/
theorem styled_of_drawn {w : Workspace} (hfresh : w.hub.Fresh) (acts : List Workspace.Act)
    {snapshot : Snapshot}
    (hdrawn : (Workspace.renderSnapshot.start (acts.foldl Workspace.act w)).1 = .ok (some snapshot))
    (columns : Int) :
    (∀ mark ∈ marks snapshot columns, ∀ o, mark.offset? = some o →
      (∃ p : Nat, o = p ∧ snapshot.text[p]? = some mark.char) ∨
        (mark.char = ' ' ∧ ∃ row < (Document.ofText snapshot.text).lineCount,
          o = (Document.ofText snapshot.text).lineStart row +
            (Document.ofText snapshot.text).contentLength row)) ∧
      ((∀ c ∈ snapshot.text, c ≠ '\x07' ∧ c ≠ '\x08') → Unbroken (marks snapshot columns)) ∧
      (Unbroken (marks snapshot columns) → Styled snapshot columns) ∧
      (¬ Unbroken (marks snapshot columns) →
        ∃ selection, ¬ Styled { snapshot with selection } columns) := by
  have hkept := Workspace.kept_foldl_act (Server.Hub.kept_fresh hfresh) acts
  obtain ⟨id, b, semantic, hb, rfl⟩ := Workspace.exists_frame hdrawn
  have hframed : b.Framed := (Server.Hub.Kept.buffer hkept hb).toFramed
  generalize hsnapshot : (acts.foldl Workspace.act w).frame b semantic = snapshot
  have hshift : 0 ≤ snapshot.columnOffset := hsnapshot ▸ hframed.columnOffset
  have hmargin : ∀ number ∈ snapshot.lineNumbers,
      ∀ c ∈ gutter snapshot.marginWidth number, isDropped c = false := by
    rw [← hsnapshot]
    intro number hnumber c hc
    obtain ⟨row, hrow⟩ := List.mem_iff_getElem?.1 hnumber
    obtain ⟨n, rfl, -⟩ := gutter_of_framed hframed hrow
    exact isDropped_eq_false_of_mem_gutter hc
  refine ⟨fun mark hmark o ho => char_of_mark hshift hmark ho, fun hplain => ?_,
    styled_of_unbroken hshift, exists_not_styled hshift hmargin⟩
  exact ⟨_, [], (List.append_nil _).symm,
    fun mark hmark => isKept_of_plain hshift hmargin hplain hmark, nofun⟩

/-- Two rows that are scrolled down by one, with a CR LF pair before them. -/
theorem styled_of_drawn_scrolled :
    let settings : Settings := { wheelLines := 1 }
    let hub : Server.Hub := { settings, root := none, fleet := { capacity := 4 } }
    let w : Workspace := { hub, keymap := {}, rows := 2, columns := 8 }
    let acts : List Workspace.Act :=
      [.add "a.txt" "a\r\nbc\r\nd".toList 2 8 settings {} [], .execute .scrollDown {}]
    w.hub.Fresh ∧ ∃ snapshot,
      (Workspace.renderSnapshot.start (acts.foldl Workspace.act w)).1 = .ok (some snapshot) ∧
        shown snapshot 8 = [⟨'2', none⟩, ⟨' ', none⟩, ⟨'b', some 0⟩, ⟨'c', some 1⟩, ⟨'\n', none⟩,
          ⟨'3', none⟩, ⟨' ', none⟩, ⟨'d', some 4⟩] ∧
        Unbroken (marks snapshot 8) ∧ Styled snapshot 8 := by
  intro settings hub w acts
  have hfresh : w.hub.Fresh := ⟨rfl, rfl, rfl⟩
  have hactive : (acts.foldl Workspace.act w).activeNumber? = some 0 := rfl
  have hbuffer : ((acts.foldl Workspace.act w).hub.buffers[0]?.any fun b =>
      ((acts.foldl Workspace.act w).hub.semanticSpans b).isOk &&
        (shown b.snapshot 8 = [⟨'2', none⟩, ⟨' ', none⟩, ⟨'b', some 0⟩, ⟨'c', some 1⟩,
          ⟨'\n', none⟩, ⟨'3', none⟩, ⟨' ', none⟩, ⟨'d', some 4⟩] &&
        b.viewText.all fun c => c ≠ '\x07' && c ≠ '\x08')) = true := by
    decide +kernel
  obtain ⟨b, hb, hfacts⟩ := (Option.any_eq_true _ _).1 hbuffer
  simp only [Bool.and_eq_true, decide_eq_true_eq, List.all_eq_true] at hfacts
  obtain ⟨hsemantic, hshown, hplain⟩ := hfacts
  obtain ⟨semantic, hdrawn⟩ := Workspace.renderSnapshot_of_isOk hactive hb hsemantic
  have hdrawn' := congrArg Prod.fst hdrawn
  obtain ⟨-, hunbroken, hstyled, -⟩ := styled_of_drawn hfresh acts hdrawn' 8
  exact ⟨hfresh, _, hdrawn', hshown, hunbroken hplain, hstyled (hunbroken hplain)⟩

/-- A bell at the caret has no cell, and the letter behind it gets the style of the caret. -/
theorem not_styled_bell :
    let settings : Settings := {}
    let hub : Server.Hub := { settings, root := none, fleet := { capacity := 4 } }
    let w : Workspace := { hub, keymap := {}, rows := 5, columns := 40 }
    let acts : List Workspace.Act := [.add "a.txt" "\x07x".toList 5 40 settings {} []]
    w.hub.Fresh ∧ ∃ snapshot,
      (Workspace.renderSnapshot.start (acts.foldl Workspace.act w)).1 = .ok (some snapshot) ∧
        snapshot.caret + snapshot.caretTrailing = 0 ∧
        (shown snapshot 40)[2]? = some ⟨'x', some 1⟩ ∧
        (∃ span ∈ (render (some snapshot) 40).spans, span.style = caretStyle ∧
          span.start ≤ 2 ∧ 2 < span.stop) ∧
        ¬ Styled snapshot 40 := by
  intro settings hub w acts
  have hfresh : w.hub.Fresh := ⟨rfl, rfl, rfl⟩
  have hactive : (acts.foldl Workspace.act w).activeNumber? = some 0 := rfl
  have hvisible : (acts.foldl Workspace.act w).caretVisible = true := rfl
  have hbuffer : ((acts.foldl Workspace.act w).hub.buffers[0]?.any fun b =>
      ((acts.foldl Workspace.act w).hub.semanticSpans b).isOk &&
        ((b.snapshot.caret + b.snapshot.caretTrailing = 0 && b.viewport.columnOffset = 0) &&
        (shown b.snapshot 40 = [⟨'1', none⟩, ⟨' ', none⟩, ⟨'x', some 1⟩] &&
        (unstyled b.snapshot 40).2 = [⟨0, 2, 2⟩]))) = true := by
    decide +kernel
  obtain ⟨b, hb, hfacts⟩ := (Option.any_eq_true _ _).1 hbuffer
  simp only [Bool.and_eq_true, decide_eq_true_eq] at hfacts
  obtain ⟨hsemantic, ⟨hcaret, hcolumns⟩, hshown, hsegments⟩ := hfacts
  obtain ⟨semantic, hdrawn⟩ := Workspace.renderSnapshot_of_isOk hactive hb hsemantic
  generalize hsnapshot : (acts.foldl Workspace.act w).frame b semantic = snapshot at hdrawn
  have hshift : 0 ≤ snapshot.columnOffset := by
    rw [← hsnapshot]
    exact Int.le_of_eq hcolumns.symm
  have hvisible : snapshot.caretVisible = true := hsnapshot ▸ hvisible
  have hcaret : snapshot.caret + snapshot.caretTrailing = 0 := hsnapshot ▸ hcaret
  have hshown : shown snapshot 40 = [⟨'1', none⟩, ⟨' ', none⟩, ⟨'x', some 1⟩] :=
    hsnapshot ▸ hshown
  have hsegments : (unstyled snapshot 40).2 = [⟨0, 2, 2⟩] := hsnapshot ▸ hsegments
  have hplaced : Placed (unstyled snapshot 40).2 ⟨snapshot.caret + snapshot.caretTrailing,
      snapshot.caret + snapshot.caretTrailing + 1, caretStyle⟩ 2 := by
    rw [hcaret, hsegments]
    exact ⟨_, List.mem_singleton_self _, 0, by decide, by decide, by decide⟩
  have hinside : 2 < (shown snapshot 40).length := by
    rw [hshown]
    decide
  obtain ⟨span, hspan, hstyle, hstart, hstop⟩ :=
    exists_covering hshift (caret_mem_ranges hvisible) hinside hplaced
  refine ⟨hfresh, snapshot, congrArg Prod.fst hdrawn, hcaret, by rw [hshown]; rfl,
    ⟨span, hspan, hstyle, hstart, hstop⟩, fun hstyled => ?_⟩
  obtain ⟨range, hrange, hsame, mark, o, hmark, ho, -, hlast⟩ :=
    hstyled.exists_standsIn hshift (caret_mem_ranges hvisible)
      (by decide : caretStyle ≠ gutterStyle) hinside hplaced
  rw [hshown] at hmark
  obtain rfl := Option.some.inj hmark
  obtain rfl := Option.some.inj ho
  rw [caret_of_range hrange hsame, hcaret] at hlast
  exact absurd hlast (by decide)

end TextEditor.Terminal
