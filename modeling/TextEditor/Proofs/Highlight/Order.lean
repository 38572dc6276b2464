import TextEditor.Highlight.Lexical
import TextEditor.Proofs.Highlight.Scanning

/-!
# The order of the spans

The spans of the text on screen follow one another from left to right without overlap, none of them
is empty, and all lie in the text.  The loop lays each new span behind those it has: a word that is
classified late ends where the loop stands, and everything before it ended where the word began.
-/

namespace TextEditor.Highlight

open Text

variable {p : Profile} {t : Text} {first middle last : Int} {spans : List Span}

/-- The spans follow one another without overlap, none is empty, and all lie between two
offsets. -/
structure Laid (first last : Int) (spans : List Span) : Prop where
  ordered : spans.Pairwise fun a b => a.stop ≤ b.start
  filled : ∀ s ∈ spans, 0 < s.length
  within : ∀ s ∈ spans, first ≤ s.start ∧ s.stop ≤ last

theorem laid_nil (first last : Int) : Laid first last [] :=
  ⟨List.Pairwise.nil, nofun, nofun⟩

theorem Laid.mono {first' last' : Int} (h : Laid first last spans) (hfirst : first' ≤ first)
    (hlast : last ≤ last') : Laid first' last' spans :=
  ⟨h.ordered, h.filled, fun s hs =>
    ⟨Int.le_trans hfirst (h.within s hs).1, Int.le_trans (h.within s hs).2 hlast⟩⟩

/-- Spans up to an offset, and spans from there on. -/
theorem Laid.append {behind : List Span} (h : Laid first middle spans)
    (hbehind : Laid middle last behind) (hfirst : first ≤ middle) (hlast : middle ≤ last) :
    Laid first last (spans ++ behind) where
  ordered := List.pairwise_append.2 ⟨h.ordered, hbehind.ordered, fun a ha b hb =>
    Int.le_trans (h.within a ha).2 (hbehind.within b hb).1⟩
  filled s hs := (List.mem_append.1 hs).elim (h.filled s) (hbehind.filled s)
  within s hs := by
    rcases List.mem_append.1 hs with hs | hs
    · exact (h.mono (Int.le_refl _) hlast).within s hs
    · exact (hbehind.mono hfirst (Int.le_refl _)).within s hs

theorem laid_singleton {s : Span} (h : 0 < s.length) : Laid s.start s.stop [s] where
  ordered := List.pairwise_singleton _ s
  filled a ha := by rwa [List.mem_singleton.1 ha]
  within a ha := by
    rw [List.mem_singleton.1 ha]
    exact ⟨Int.le_refl _, Int.le_refl _⟩

theorem laid_spanOf (offset length : Nat) (category : Category) :
    Laid offset ((offset + length : Nat) : Int) (spanOf offset length category) := by
  unfold spanOf
  split
  · exact laid_nil _ _
  · next hlength =>
    have hspan := laid_singleton (s := ⟨offset, length, category⟩) (by dsimp only; omega)
    rwa [Int.natCast_add]

theorem laid_wordSpans (p : Profile) (word : Text) (offset : Nat) :
    Laid (offset - word.length) offset (wordSpans p word offset) := by
  unfold wordSpans
  split
  · exact laid_nil _ _
  · next hword =>
    have hlength : 0 < word.length := List.length_pos_iff.2 fun h => hword (by rw [h]; rfl)
    split
    · next category _ =>
      have hspan := laid_singleton
        (s := ⟨(offset : Int) - word.length, word.length, category⟩) (by dsimp only; omega)
      rwa [Span.stop, Int.sub_add_cancel] at hspan
    · exact laid_nil _ _

namespace Scan

/-- Where the spans so far end at the latest: where the word began that is going on, if one is. -/
def bound (s : Scan) : Nat :=
  s.word.getD s.offset

theorem bound_le {s : Scan} (h : s.Placed t) : s.bound ≤ s.offset := by
  cases hword : s.word with
  | none => simp [bound, hword]
  | some start => simpa [bound, hword] using (h.word start hword).le

theorem length_wordText {s : Scan} (h : s.Placed t) :
    (s.wordText t).length = s.offset - s.bound := by
  cases hword : s.word with
  | none => simp [wordText, bound, hword]
  | some start =>
    have hoffset := h.offset
    simp only [wordText, hword, slice, List.length_take, List.length_drop, bound, Option.getD_some]
    omega

theorem laid_flushed {s : Scan} (h : s.Placed t) (hlaid : Laid 0 s.bound s.spans) :
    Laid 0 s.offset (s.flushed p t) := by
  have hword := laid_wordSpans p (s.wordText t).reverse s.offset
  have hbound := bound_le h
  have hstart : (s.offset : Int) - (s.wordText t).reverse.length = s.bound := by
    rw [List.length_reverse, length_wordText h]
    omega
  rw [hstart] at hword
  exact hlaid.append hword (by omega) (by omega)

theorem laid_step {s : Scan} (h : s.Placed t) (hlaid : Laid 0 s.bound s.spans) :
    Laid 0 (s.step p t).bound (s.step p t).spans := by
  obtain ⟨-, hstep⟩ | ⟨c, rest, hrest, hcase⟩ := step_cases p t s
  · rwa [hstep]
  obtain ⟨hinside, length, -, hstep⟩ | ⟨hinside, -, hstep⟩ |
    ⟨-, length, category, -, hstep⟩ | ⟨-, -, -, hstep⟩ | ⟨-, -, -, hstep⟩ := hcase <;> rw [hstep]
  · -- the span from the beginning is the first one
    obtain ⟨hword, hspans⟩ := h.inside hinside
    simpa [bound, hword, hspans] using laid_spanOf 0 (s.offset + length) .comment
  · obtain ⟨hword, hspans⟩ := h.inside hinside
    simpa [bound, hword, hspans] using laid_nil 0 (s.offset + 1)
  · exact (laid_flushed h hlaid).append (laid_spanOf s.offset length category) (by omega)
      (by dsimp only [bound, Option.getD_none]; omega)
  · exact hlaid
  · refine (laid_flushed h hlaid).mono (Int.le_refl _) ?_
    dsimp only [bound, Option.getD_none]
    omega

theorem laid_after (hp : p.Delimits) (t : Text) (inside : Bool) (rounds : Nat) :
    Laid 0 (after p t inside rounds).bound (after p t inside rounds).spans := by
  induction rounds with
  | zero => exact laid_nil _ _
  | succ rounds ih =>
    rw [after_succ]
    exact laid_step (placed_after hp t inside rounds) ih

/-- What is shown when the loop is over: all of the text is comment if it has not left the comment
that it began in. -/
def shown (p : Profile) (t : Text) (s : Scan) : List Span :=
  if s.inside then spanOf 0 t.length .comment else s.flushed p t

end Scan

theorem lexical_spans (p : Profile) (pairs : List BracketPair) (preceding text : Text)
    (caret : Int) {s : Scan}
    (h : s.outcome p text = scanned p (startsInsideComment preceding p.blockComment) text) :
    (lexical p pairs preceding text caret).spans = s.shown p text := by
  unfold lexical Scan.shown
  rw [scanned] at h
  rw [← h]
  cases hinside : s.inside <;> simp [Scan.outcome, hinside]

/-- The scan comes to the end of the text, after no more rounds than the text has characters, and
the spans shown are what it has found there: in increasing order, without overlap, none of them
empty, and all in the text. -/
theorem laid_lexical (hp : p.Delimits) (pairs : List BracketPair) (preceding text : Text)
    (caret : Int) :
    (∃ rounds ≤ text.length,
      let s := Scan.after p text (startsInsideComment preceding p.blockComment) rounds
      s.offset = text.length ∧ (lexical p pairs preceding text caret).spans = s.shown p text) ∧
    Laid 0 text.length (lexical p pairs preceding text caret).spans := by
  have hblock : startsInsideComment preceding p.blockComment = true → p.blockComment ≠ none := by
    intro hinside hnone
    rw [hnone] at hinside
    cases hinside
  have hend := Scan.offset_after hp text (startsInsideComment preceding p.blockComment)
    (Nat.le_refl text.length)
  have hspans := lexical_spans p pairs preceding text caret
    (Scan.outcome_after hp text hblock (Nat.le_refl text.length))
  refine ⟨⟨text.length, Nat.le_refl _, hend, hspans⟩, ?_⟩
  rw [hspans, Scan.shown]
  split
  · simpa using laid_spanOf 0 text.length .comment
  · have hplaced := Scan.placed_after hp text (startsInsideComment preceding p.blockComment)
      text.length
    have hlaid := Scan.laid_flushed (p := p) hplaced (Scan.laid_after hp text _ _)
    rwa [hend] at hlaid

/-- A view of two lines that opens inside a comment. -/
theorem laid_lexical_cpp :
    Profile.cpp.Delimits ∧
    (lexical .cpp [] "*/".toList "x*/ int \"a\\\"\n// #if".toList 0).spans =
      [⟨0, 3, .comment⟩, ⟨4, 3, .keyword⟩, ⟨8, 4, .literal⟩, ⟨13, 6, .comment⟩] ∧
    Laid 0 19 (lexical .cpp [] "*/".toList "x*/ int \"a\\\"\n// #if".toList 0).spans :=
  have hcpp : Profile.cpp.Delimits := (Profile.inline_ofLanguage .cpp).delimits
  ⟨hcpp, by decide +kernel,
    (laid_lexical hcpp [] "*/".toList "x*/ int \"a\\\"\n// #if".toList 0).2⟩

end TextEditor.Highlight
