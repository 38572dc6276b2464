import Mathlib.Data.List.Forall2
import TextEditor.Highlight.Semantic
import TextEditor.Proofs.Document.Lines
import TextEditor.Proofs.Text.Units

/-!
# Tokens in either encoding

A token whose columns count characters has a twin whose columns count UTF-16 units.  Both are
projected to the same span: the characters of the content of their line that lie between the
columns and in the view, if there are any.
-/

namespace TextEditor

namespace SemanticToken

variable {d : Document} {viewStart viewStop : Int}

theorem extent_utf16 (line start length : Int) (tokenType : String) (category : Category) :
    (⟨.int line, .int start, .int length, tokenType, category⟩ : SemanticToken).extent d .utf16 =
      .ok (d.lineStart line + Text.indexOfUnits (d.content line) start,
        d.lineStart line + Text.indexOfUnits (d.content line) (start + length)) := rfl

theorem extent_utf32 (line start length : Int) (tokenType : String) (category : Category) :
    (⟨.int line, .int start, .int length, tokenType, category⟩ : SemanticToken).extent d .utf32 =
      .ok (min (d.lineStart line + start) (d.lineStart line + d.contentLength line),
        min (min (d.lineStart line + start) (d.lineStart line + d.contentLength line) + length)
          (d.lineStart line + d.contentLength line)) := rfl

/-- A token with its columns in characters. -/
structure Stretch where
  line : Nat
  start : Nat
  length : Nat
  tokenType : String
  category : Category
  deriving DecidableEq, Repr

namespace Stretch

variable {t : Stretch}

/-- A column of a line as an encoding counts it. -/
def column (d : Document) (line : Nat) : Encoding → Nat → Nat
  | .utf16, column => Text.unitColumn (d.content line) column
  | .utf32, column => column

/-- The token with its columns as an encoding counts them. -/
def token (d : Document) (encoding : Encoding) (t : Stretch) : SemanticToken :=
  let start : Int := column d t.line encoding t.start
  let stop : Int := column d t.line encoding (t.start + t.length)
  ⟨.int t.line, .int start, .int (stop - start), t.tokenType, t.category⟩

/-- The column of the content at which the token begins. -/
def first (d : Document) (t : Stretch) : Nat :=
  min t.start (d.contentLength t.line)

/-- The column of the content behind the token. -/
def last (d : Document) (t : Stretch) : Nat :=
  min (t.start + t.length) (d.contentLength t.line)

/-- Either encoding leads to the characters between the columns, as far as the content goes. -/
theorem extent_token (h : d.Indexed) (hline : t.line < d.lineCount) (encoding : Encoding) :
    (t.token d encoding).extent d encoding =
      .ok (d.lineStart t.line + t.first d, d.lineStart t.line + t.last d) := by
  have hstop : ∀ start stop : Nat, (start : Int) + (stop - start) = stop := by omega
  cases encoding with
  | utf16 =>
    simp only [token, column]
    rw [extent_utf16, hstop, Text.indexOfUnits_unitColumn, Text.indexOfUnits_unitColumn,
      Document.length_content h hline, first, last]
  | utf32 =>
    simp only [token, column]
    rw [extent_utf32, first, last, Except.ok.injEq, Prod.mk.injEq]
    omega

/-- The span of the token in the text between two offsets. -/
def span? (d : Document) (viewStart viewStop : Int) (t : Stretch) : Option Span :=
  let start := max (d.lineStart t.line + t.first d : Int) viewStart
  let stop := min (d.lineStart t.line + t.last d : Int) viewStop
  if t.category = .unstyled ∨ d.lineCount ≤ t.line ∨ stop ≤ start then none
  else some ⟨start - viewStart, stop - start, t.category⟩

theorem span?_token (h : d.Indexed) (encoding : Encoding) :
    (t.token d encoding).span? d viewStart viewStop encoding =
      .ok (t.span? d viewStart viewStop) := by
  have hleast : (t.token d encoding).line.atLeast d.lineCount =
      .ok (decide ((d.lineCount : Int) ≤ t.line)) := rfl
  have hcategory : (t.token d encoding).category = t.category := rfl
  rw [SemanticToken.span?, hleast, hcategory, span?]
  by_cases hstyle : t.category = .unstyled
  · rw [if_pos hstyle, if_pos (.inl hstyle)]
    rfl
  rw [if_neg hstyle]
  dsimp only [bind, Except.bind, pure, Except.pure]
  by_cases hline : t.line < d.lineCount
  · rw [if_neg (by simp; omega), extent_token h hline]
    dsimp only
    split
    · next hless => rw [if_neg (by simp only [hstyle, false_or]; omega)]
    · next hempty => rw [if_pos (.inr (.inr (Int.not_lt.1 hempty)))]
  · rw [if_pos (by simp; omega), if_pos (.inr (.inl (Nat.not_lt.1 hline)))]

/-- A token shows at an offset: it has a category, and the offset lies in the view and is that of a
character of the content of its line between its columns. -/
structure Shows (d : Document) (viewStart viewStop : Int) (t : Stretch) (offset : Int) : Prop where
  styled : t.category ≠ .unstyled
  line : t.line < d.lineCount
  view : viewStart ≤ offset ∧ offset < viewStop
  column : ∃ column, t.start ≤ column ∧ column < t.start + t.length ∧
    column < d.contentLength t.line ∧ offset = d.lineStart t.line + column

/-- The span of a token, if it has one, covers exactly the offsets at which it shows. -/
def Covered (d : Document) (viewStart viewStop : Int) (t : Stretch) : Option Span → Prop
  | none => ∀ offset, ¬ t.Shows d viewStart viewStop offset
  | some span => span.category = t.category ∧
      ∀ offset, span.covers (offset - viewStart) = true ↔ t.Shows d viewStart viewStop offset

theorem covered_span? (d : Document) (viewStart viewStop : Int) (t : Stretch) :
    t.Covered d viewStart viewStop (t.span? d viewStart viewStop) := by
  have hfirst : t.first d = min t.start (d.contentLength t.line) := rfl
  have hlast : t.last d = min (t.start + t.length) (d.contentLength t.line) := rfl
  unfold span?
  dsimp only
  split
  · next hnone =>
    rintro offset ⟨hstyle, hline, hview, column, hstart, hstop, hinside, rfl⟩
    rcases hnone with hunstyled | houtside | hempty
    · exact hstyle hunstyled
    · omega
    · omega
  · next hsome =>
    rw [not_or, not_or] at hsome
    obtain ⟨hstyle, hline, -⟩ := hsome
    refine ⟨rfl, fun offset => ?_⟩
    have hcovers : ∀ start stop : Int, start - viewStart ≤ offset - viewStart ∧
        offset - viewStart < start - viewStart + (stop - start) ↔
          start ≤ offset ∧ offset < stop := by omega
    rw [Span.covers_iff]
    dsimp only
    rw [hcovers, Int.max_le, Int.lt_min]
    constructor
    · rintro ⟨⟨hstart, hview⟩, hstop, hview'⟩
      exact ⟨hstyle, by omega, ⟨hview, hview'⟩, (offset - d.lineStart t.line).toNat, by omega⟩
    · rintro ⟨-, -, hview, column, hstart, hstop, hinside, rfl⟩
      omega

/-- The tokens of a list have the spans of each of them, in either encoding. -/
theorem spans_token (h : d.Indexed) (encoding : Encoding) (tokens : List Stretch) :
    spans (tokens.map (·.token d encoding)) d viewStart viewStop encoding =
      .ok ((tokens.map (·.span? d viewStart viewStop)).filterMap id) := by
  have hfound : (tokens.map (·.token d encoding)).mapM
      (fun t => t.span? d viewStart viewStop encoding) =
        .ok (tokens.map (·.span? d viewStart viewStop)) := by
    induction tokens with
    | nil => rfl
    | cons t rest ih =>
      rw [List.map_cons, List.mapM_cons, span?_token h, ih]
      rfl
  rw [spans, hfound]
  rfl

/-- Tokens are projected to the same spans whether their columns count characters or UTF-16 units,
in every document that edits make; each token has at most one span, which covers the characters of
the content of its line that lie between its columns and in the view. -/
theorem spans_of_columns (text : Text) (changes : List Document.Change) (viewStart viewStop : Int)
    (tokens : List Stretch) :
    let d := changes.foldl Document.change (Document.ofText text)
    spans (tokens.map (·.token d .utf16)) d viewStart viewStop .utf16 =
      spans (tokens.map (·.token d .utf32)) d viewStart viewStop .utf32 ∧
    ∃ found, spans (tokens.map (·.token d .utf32)) d viewStart viewStop .utf32 =
        .ok (found.filterMap id) ∧
      List.Forall₂ (Covered d viewStart viewStop) tokens found := by
  intro d
  have h : d.Indexed := (Document.starts_foldl_change text changes).2
  refine ⟨by rw [spans_token h, spans_token h], tokens.map (·.span? d viewStart viewStop),
    spans_token h .utf32 tokens, ?_⟩
  exact List.forall₂_map_right_iff.2 (List.forall₂_same.2 fun t _ => covered_span? d _ _ t)

end Stretch

end SemanticToken

end TextEditor
