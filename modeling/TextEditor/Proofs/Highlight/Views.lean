import Mathlib.Data.Nat.Find
import TextEditor.Proofs.Highlight.Comments
import TextEditor.Proofs.Highlight.Locality
import TextEditor.Proofs.Highlight.Order

/-!
# Views of one text

A view that begins with a line shows its characters as a scan of the whole text does, if the walk
backward tells rightly whether it opens inside a block comment.  The scan of the whole is followed
to where the view takes over: to the end of the text ahead if all comments in it are closed, else
to the end of the comment that goes over into the view.
-/

namespace TextEditor.Highlight

open Text

variable {p : Profile} {a t u v : Text} {s : Scan}

/-! ## What a character is shown as -/

/-- The category of the span that covers a character, if one does. -/
def categoryAt (spans : List Span) (offset : Int) : Category :=
  ((spans.find? fun s => s.covers offset).map Span.category).getD .unstyled

variable {front behind spans : List Span} {offset : Int}

theorem categoryAt_append_of_uncovered (h : ∀ s ∈ front, s.covers offset = false) :
    categoryAt (front ++ behind) offset = categoryAt behind offset := by
  have hnone : front.find? (fun s => s.covers offset) = none :=
    List.find?_eq_none.2 fun s hs => by simp [h s hs]
  rw [categoryAt, List.find?_append, hnone, Option.none_or, categoryAt]

theorem categoryAt_append_of_styled (h : categoryAt front offset ≠ .unstyled) :
    categoryAt (front ++ behind) offset = categoryAt front offset := by
  cases hfound : front.find? fun s => s.covers offset with
  | none => simp [categoryAt, hfound] at h
  | some s => simp [categoryAt, List.find?_append, hfound]

theorem categoryAt_map_shift (spans : List Span) (offset shift : Int) :
    categoryAt (spans.map (Span.shift shift)) (shift + offset) = categoryAt spans offset := by
  have hcovers : (fun s : Span => (s.shift shift).covers (shift + offset)) =
      fun s => s.covers offset := by
    funext s
    simp only [Span.covers, Span.shift, Span.stop]
    congr 1 <;> exact decide_eq_decide.2 (by omega)
  rw [categoryAt, List.find?_map, Option.map_map]
  simp only [Function.comp_def, hcovers]
  rfl

theorem categoryAt_spanOf {first length n : Nat} {category : Category} (hfirst : first ≤ n)
    (hlast : n < first + length) : categoryAt (spanOf first length category) n = category := by
  have hcovers : Span.covers ⟨first, length, category⟩ n = true := by
    rw [Span.covers_iff]
    dsimp only
    omega
  simp [categoryAt, spanOf, show length ≠ 0 by omega, hcovers]

theorem covers_of_laid {first last : Int} (h : Laid first last spans) (hlast : last ≤ offset) :
    ∀ s ∈ spans, s.covers offset = false := by
  intro s hs
  have hstop := (h.within s hs).2
  simp only [Span.covers, Bool.and_eq_false_iff, decide_eq_false_iff_not]
  omega

/-! ## A view that opens inside a comment -/

/-- How much of a view that opens inside a comment is comment. -/
def resume (closer : Text) (v : Text) : Nat :=
  ((findFrom closer v 0).map fun found => found + closer.length).getD v.length

theorem lexical_spans_of_code {preceding : Text} (pairs : List BracketPair) (caret : Int)
    (h : startsInsideComment preceding p.blockComment = false) :
    (lexical p pairs preceding v caret).spans = scan p v := by
  simp [lexical, h]

theorem lexical_spans_of_comment {preceding opener closer : Text} (pairs : List BracketPair)
    (caret : Int) (hblock : p.blockComment = some (opener, closer))
    (h : startsInsideComment preceding p.blockComment = true) :
    (lexical p pairs preceding v caret).spans =
      spanOf 0 (resume closer v) .comment ++
        scanFrom p 0 (resume closer v) [] (v.drop (resume closer v)) := by
  rw [lexical, if_pos h, scanInside, hblock, resume]
  cases hfound : findFrom closer v 0 with
  | none => simp [hfound, scanFrom, wordSpans]
  | some found => simp [hfound, Scan.scanFrom_skip p _ 0 v]

theorem findFrom_add (pattern t : Text) (offset shift : Nat) :
    findFrom pattern t (offset + shift) = (findFrom pattern t offset).map (· + shift) := by
  induction t generalizing offset with
  | nil => simp only [findFrom]; split <;> rfl
  | cons c rest ih =>
    rw [findFrom, findFrom, Nat.add_right_comm, ih]
    split <;> rfl

/-- A pattern on one line that does not stand in the first lines is found behind them. -/
theorem findFrom_append_of_not_infix {pattern : Text} (hpattern : pattern.OneLine)
    (hu : u = [] ∨ u.EndsLine) (h : ¬ pattern <:+: u) (v : Text) (offset : Nat) :
    findFrom pattern (u ++ v) offset = findFrom pattern v (offset + u.length) := by
  induction u generalizing offset with
  | nil => rfl
  | cons c rest ih =>
    have hline := hu.resolve_left (List.cons_ne_nil c rest)
    have hprefix : pattern.isPrefixOf (c :: rest ++ v) = false := by
      rw [isPrefixOf_append hpattern hline, Bool.eq_false_iff, ne_eq, List.isPrefixOf_iff_prefix]
      exact fun hprefix => h hprefix.isInfix
    have hrest : rest = [] ∨ EndsLine rest :=
      or_iff_not_imp_left.2 (endsLine_of_append [c] hline)
    rw [List.cons_append] at hprefix ⊢
    rw [findFrom, hprefix, if_neg Bool.false_ne_true,
      ih hrest (fun hinfix => h (List.infix_cons hinfix)), List.length_cons, Nat.add_assoc,
      Nat.add_comm 1]

/-- A comment that no closer ends in its lines takes them all, and the view as far as the comment
goes there. -/
theorem blockCommentLength?_of_open (hp : p.Inline) {opener closer : Text}
    (hblock : p.blockComment = some (opener, closer)) (hu : u.EndsLine) (hopener : opener <+: u)
    (hcloser : ¬ closer <:+: u.drop opener.length) (v : Text) :
    blockCommentLength? p (u ++ v) = some (u.length + resume closer v) := by
  obtain ⟨hopens, hcloses⟩ := hp.block opener closer hblock
  have hfind : findFrom closer ((u ++ v).drop opener.length) opener.length =
      (findFrom closer v 0).map (· + u.length) := by
    rw [List.drop_append_of_le_length hopener.length_le,
      findFrom_append_of_not_infix hcloses.2 (.inr (endsLine_drop hopens.2 hu hopener)) hcloser,
      List.length_drop, Nat.add_sub_cancel' hopener.length_le, ← findFrom_add, Nat.zero_add]
  rw [blockCommentLength?, hblock]
  dsimp only
  rw [if_pos (List.isPrefixOf_iff_prefix.2 (hopener.trans (List.prefix_append u v))), hfind, resume]
  cases findFrom closer v 0 with
  | none => simp
  | some found =>
    simp only [Option.map_some, Option.getD_some]
    congr 1
    omega

/-! ## Where the view takes over -/

namespace Scan

theorem inside_step (h : s.inside = false) : (s.step p t).inside = false := by
  rcases Nat.lt_or_ge s.offset t.length with hlt | hge
  · exact (step_of_code h hlt).1
  · rwa [step_of_length_le hge]

theorem inside_after (p : Profile) (t : Text) (rounds : Nat) :
    (after p t false rounds).inside = false := by
  induction rounds with
  | zero => rfl
  | succ rounds ih =>
    rw [after_succ]
    exact inside_step ih

theorem step_of_delimited (h : s.inside = false) {length : Nat} {category : Category}
    (hopened : delimited? p (t.drop s.offset) = some (length, category))
    (hlt : s.offset < t.length) :
    s.step p t =
      { s with
        offset := s.offset + length
        word := none
        spans := s.flushed p t ++ spanOf s.offset length category } := by
  obtain ⟨c, rest, hrest⟩ := List.exists_cons_of_ne_nil (l := t.drop s.offset) (by simpa using hlt)
  rw [hrest] at hopened
  simp [step, hrest, h, hopened]

end Scan

/-- The scan of a text and a view behind it has come to the view and taken as much of it as belongs
to a comment. -/
structure Seam (p : Profile) (a v : Text) (taken : Nat) (s : Scan) : Prop where
  reached : ∃ rounds, Scan.after p (a ++ v) false rounds = s
  offset : s.offset = a.length + taken
  word : s.word = none
  comment : ∀ n < taken, categoryAt s.spans (a.length + n : Nat) = .comment

/-- From the seam on, the whole is classified like the view alone. -/
theorem Seam.categoryAt_scan (hp : p.Delimits) {taken : Nat} (h : Seam p a v taken s) (n : Nat) :
    categoryAt (scan p (a ++ v)) (a.length + n : Nat) =
      categoryAt (spanOf 0 taken .comment ++ scanFrom p 0 taken [] (v.drop taken)) n := by
  obtain ⟨rounds, hreached⟩ := h.reached
  have hinside : s.inside = false := hreached ▸ Scan.inside_after p (a ++ v) rounds
  have hwhole : scan p (a ++ v) =
      s.spans ++ (scanFrom p 0 taken [] (v.drop taken)).map (Span.shift a.length) := by
    have houtlook : s.outlook p (a ++ v) = (scan p (a ++ v), false) := by
      rw [← hreached, Scan.outlook_after hp]
      exact Scan.outlook_start p (a ++ v) nofun
    rw [Scan.outlook, hinside, h.offset, Scan.wordText, h.word, ← List.drop_drop,
      List.drop_left, Nat.add_comm, scanFrom_shift] at houtlook
    exact (congrArg Prod.fst houtlook).symm
  rcases Nat.lt_or_ge n taken with hlt | hge
  · have hcomment := h.comment n hlt
    have hview : categoryAt (spanOf 0 taken .comment) n = .comment :=
      categoryAt_spanOf (Nat.zero_le n) (by omega)
    rw [hwhole, categoryAt_append_of_styled (by rw [hcomment]; decide), hcomment,
      categoryAt_append_of_styled (by rw [hview]; decide), hview]
  · have hlaid := Scan.laid_after hp (a ++ v) false rounds
    rw [hreached, Scan.bound, h.word, Option.getD_none, h.offset] at hlaid
    rw [hwhole, categoryAt_append_of_uncovered (covers_of_laid hlaid (by omega)),
      Int.natCast_add, categoryAt_map_shift,
      categoryAt_append_of_uncovered (covers_of_laid (laid_spanOf 0 taken .comment) (by omega))]

/-- If no comment stays open ahead of the view, it takes over where it begins. -/
theorem exists_seam_of_closed (hp : p.Inline) (ha : a = [] ∨ a.EndsLine) (h : ¬ LeavesOpen p a)
    (v : Text) : ∃ s, Seam p a v 0 s := by
  obtain rfl | ha := ha
  · exact ⟨_, ⟨0, rfl⟩, rfl, rfl, nofun⟩
  have hclosed : ∀ k opener closer, p.blockComment = some (opener, closer) →
      opener <+: a.drop (Scan.after p a false k).offset →
      closer <:+: a.drop ((Scan.after p a false k).offset + opener.length) :=
    fun k opener closer hblock hopener => by_contra fun hcloser =>
      h ⟨k, opener, closer, hblock, hopener, hcloser⟩
  have hreached := Scan.exists_after_append_of_lt hp ha v a.length
    fun k _ opener closer hblock _ => hclosed k opener closer hblock
  have hend := Scan.offset_after hp.delimits a false (Nat.le_refl a.length)
  exact ⟨_, hreached, hend,
    Scan.word_eq_none ha (Scan.wordy_after hp.delimits a false a.length) hend, nofun⟩

/-- A comment that stays open ahead of the view takes what belongs to it there in one round. -/
theorem exists_seam_of_open (hp : p.Inline) (ha : a.EndsLine) (h : LeavesOpen p a) (v : Text) :
    ∃ s opener closer, p.blockComment = some (opener, closer) ∧
      Seam p a v (resume closer v) s := by
  classical
  obtain ⟨k, ⟨opener, closer, hblock, hopener, hcloser⟩, hleast⟩ :
      ∃ k, (Scan.after p a false k).Opens p a ∧ ∀ m < k, ¬ (Scan.after p a false m).Opens p a :=
    ⟨Nat.find h, Nat.find_spec h, fun m hm => Nat.find_min h hm⟩
  obtain ⟨others, hothers⟩ := Scan.exists_after_append_of_lt hp ha v k
    fun m hm opener closer hblock _ hopener => by_contra fun hcloser =>
      hleast m hm ⟨opener, closer, hblock, hopener, hcloser⟩
  have hplaced := Scan.placed_after hp.delimits (a ++ v) false others
  have hlaid := Scan.laid_flushed (p := p) hplaced
    (Scan.laid_after hp.delimits (a ++ v) false others)
  have hinside := Scan.inside_after p (a ++ v) others
  rw [hothers] at hplaced hlaid hinside
  generalize Scan.after p a false k = s at *
  -- the opener stands in the first text, so the comment has the rest of it
  have hne : a.drop s.offset ≠ [] := fun hnil =>
    (hp.delimits.block opener closer hblock).1 (List.prefix_nil.1 (hnil ▸ hopener))
  have hlt : s.offset < a.length := by
    simpa using hne
  have hline : EndsLine (a.drop s.offset) :=
    endsLine_of_append (a.take s.offset) (by rwa [List.take_append_drop]) hne
  have hopened : delimited? p ((a ++ v).drop s.offset) =
      some ((a.drop s.offset).length + resume closer v, .comment) := by
    rw [List.drop_append_of_le_length hlt.le, delimited?,
      blockCommentLength?_of_open hp hblock hline hopener (by rwa [List.drop_drop])]
  have hoffset : s.offset + ((a.drop s.offset).length + resume closer v) =
      a.length + resume closer v := by
    rw [List.length_drop]
    omega
  have hstep := Scan.step_of_delimited hinside hopened (by rw [List.length_append]; omega)
  refine ⟨s.step p (a ++ v), opener, closer, hblock, ⟨others + 1, ?_⟩, ?_, ?_, fun n hn => ?_⟩
  · rw [Scan.after_succ, hothers]
  · rw [hstep, hoffset]
  · rw [hstep]
  · rw [hstep]
    dsimp only
    rw [categoryAt_append_of_uncovered (covers_of_laid hlaid (by omega))]
    exact categoryAt_spanOf (by omega) (by omega)

/-- A view that begins with a line, and of which it is told rightly whether it opens inside a
comment, shows its characters as a scan of the whole text does. -/
theorem categoryAt_lexical (hp : p.Inline) (ha : a = [] ∨ a.EndsLine)
    (hagree : startsInsideComment a.reverse p.blockComment = true ↔ LeavesOpen p a)
    (pairs : List BracketPair) (v : Text) (caret : Int) (n : Nat) :
    categoryAt (lexical p pairs a.reverse v caret).spans n =
      categoryAt (scan p (a ++ v)) (a.length + n : Nat) := by
  by_cases hopen : LeavesOpen p a
  · have hline : a.EndsLine := ha.resolve_left fun hnil => by
      rw [hnil] at hagree hopen
      have hinside := hagree.2 hopen
      cases hblock : p.blockComment <;> simp [hblock, startsInsideComment, opensFirst] at hinside
    obtain ⟨s, opener, closer, hblock, hseam⟩ := exists_seam_of_open hp hline hopen v
    rw [hseam.categoryAt_scan hp.delimits,
      lexical_spans_of_comment pairs caret hblock (hagree.2 hopen)]
  · obtain ⟨s, hseam⟩ := exists_seam_of_closed hp ha hopen v
    have hcode : startsInsideComment a.reverse p.blockComment = false :=
      Bool.eq_false_iff.2 fun hinside => hopen (hagree.1 hinside)
    rw [hseam.categoryAt_scan hp.delimits, lexical_spans_of_code pairs caret hcode]
    rfl

/-- In a text without strings and line comments the walk backward says what the scan says, unless
the delimiter nearest to the end begins with the character that completed another one.  Else it does
not matter for the categories with which line the view begins. -/
theorem views_agree (hp : p.Inline) (h : OnlyComments p a) :
    ((startsInsideComment a.reverse p.blockComment = true ↔ LeavesOpen p a) ↔ ¬ Straddled p a) ∧
    (¬ Straddled p a → a = [] ∨ a.EndsLine → ∀ pairs v caret (n : Nat),
      categoryAt (lexical p pairs a.reverse v caret).spans n =
        categoryAt (scan p (a ++ v)) (a.length + n : Nat)) :=
  ⟨agree_iff h, fun hstraddled ha pairs v caret n =>
    categoryAt_lexical hp ha ((agree_iff h).2 hstraddled) pairs v caret n⟩

/-- A closer without an opener ahead of a comment that goes over into the view. -/
theorem views_agree_cpp :
    (Profile.cpp.Inline ∧ OnlyComments .cpp "a */ b /* c\n".toList) ∧
    (¬ Straddled .cpp "a */ b /* c\n".toList ∧ EndsLine "a */ b /* c\n".toList) ∧
    startsInsideComment "a */ b /* c\n".toList.reverse Profile.cpp.blockComment = true ∧
    ∀ n : Nat,
      categoryAt (lexical .cpp [] "a */ b /* c\n".toList.reverse "d */ int".toList 0).spans n =
        categoryAt (scan .cpp "a */ b /* c\nd */ int".toList) (12 + n : Nat) := by
  have hcpp : Profile.cpp.Inline := Profile.inline_ofLanguage .cpp
  have hcomments : OnlyComments .cpp "a */ b /* c\n".toList :=
    ⟨rfl, by decide, by rintro _ ⟨⟩; decide⟩
  have hline : EndsLine "a */ b /* c\n".toList := ⟨'\n', by decide, by decide⟩
  have hbackward :
      startsInsideComment "a */ b /* c\n".toList.reverse Profile.cpp.blockComment = true := by
    decide
  have hforward : LeavesOpen .cpp "a */ b /* c\n".toList :=
    ⟨7, _, _, rfl, by decide +kernel, by decide +kernel⟩
  have hstraddled :=
    (views_agree hcpp hcomments).1.1 (iff_of_true hbackward hforward)
  exact ⟨⟨hcpp, hcomments⟩, ⟨hstraddled, hline⟩, hbackward,
    (views_agree hcpp hcomments).2 hstraddled (.inr hline) [] _ 0⟩

/-- A star that opens a comment is taken for the end of one, because a slash follows it. -/
theorem slash_star_slash :
    OnlyComments .cpp "/*/\n".toList ∧ LeavesOpen .cpp "/*/\n".toList ∧
    startsInsideComment "/*/\n".toList.reverse Profile.cpp.blockComment = false ∧
    categoryAt (scan .cpp "/*/\nint".toList) 4 = .comment ∧
    categoryAt (lexical .cpp [] "/*/\n".toList.reverse "int".toList 0).spans 0 = .keyword :=
  ⟨⟨rfl, by decide, by rintro _ ⟨⟩; decide⟩, ⟨0, _, _, rfl, by decide, by decide⟩, by decide,
    by decide +kernel, by decide +kernel⟩

end TextEditor.Highlight
