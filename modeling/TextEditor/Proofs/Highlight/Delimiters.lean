import TextEditor.Highlight.Scanner
import TextEditor.Proofs.Text.Find

/-!
# Comments and strings that open a text

What a delimiter opens is not empty and lies within the text, if no delimiter is empty.  It ends
with its line at the latest, block comments apart, if no delimiter has a line break in it: so the
lines that follow do not matter, unless a block comment is left open.
-/

namespace TextEditor

open Text

/-- No line break in it. -/
def Text.OneLine (t : Text) : Prop :=
  ∀ c ∈ t, isLineBreak c = false

instance (t : Text) : Decidable t.OneLine :=
  decidable_of_iff ((t.all fun c => !isLineBreak c) = true) (by simp [OneLine])

/-- Not empty, and on one line. -/
def Text.Solid (t : Text) : Prop :=
  t ≠ [] ∧ t.OneLine

instance (t : Text) : Decidable t.Solid :=
  inferInstanceAs (Decidable (t ≠ [] ∧ t.OneLine))

/-- The text ends with a line break. -/
def Text.EndsLine (t : Text) : Prop :=
  ∃ c, t.getLast? = some c ∧ isLineBreak c = true

namespace Profile

/-- No delimiter is empty, and a line comment does not begin with a line break. -/
structure Delimits (p : Profile) : Prop where
  quote : p.stringQuote ≠ []
  block : ∀ opener closer, p.blockComment = some (opener, closer) → opener ≠ [] ∧ closer ≠ []
  line : ∀ opener, p.lineComment = some opener →
    ∃ c rest, opener = c :: rest ∧ isLineBreak c = false

/-- No delimiter is empty or has a line break in it, nor has the escape character. -/
structure Inline (p : Profile) : Prop where
  quote : p.stringQuote.Solid
  escape : p.escapeChar.OneLine
  block : ∀ opener closer, p.blockComment = some (opener, closer) → opener.Solid ∧ closer.Solid
  line : ∀ opener, p.lineComment = some opener → opener.Solid

theorem Inline.delimits {p : Profile} (h : p.Inline) : p.Delimits where
  quote := h.quote.1
  block opener closer hblock := (h.block opener closer hblock).imp And.left And.left
  line opener hline := by
    obtain ⟨hne, hsolid⟩ := h.line opener hline
    obtain ⟨c, rest, rfl⟩ := List.exists_cons_of_ne_nil hne
    exact ⟨c, rest, rfl, hsolid c List.mem_cons_self⟩

/-- The editor's own languages have such delimiters. -/
theorem inline_ofLanguage (l : Language) : (ofLanguage l).Inline := by
  cases l with
  | cpp => exact ⟨by decide, by decide, by rintro _ _ ⟨⟩; decide, by rintro _ ⟨⟩; decide⟩
  | rust => exact ⟨by decide, by decide, by rintro _ _ ⟨⟩; decide, by rintro _ ⟨⟩; decide⟩
  | plain => exact ⟨by decide, by decide, nofun, nofun⟩

end Profile

namespace Highlight

variable {p : Profile} {t : Text} {length : Nat} {category : Category}

/-! ## Bounds -/

theorem stringLength_le (p : Profile) (t : Text) : stringLength p t ≤ t.length := by
  fun_induction stringLength p t with
  | case1 => exact Nat.le_refl _
  | case2 c hquote => exact (List.isPrefixOf_iff_prefix.1 hquote).length_le
  | case3 => exact Nat.zero_le _
  | case4 => exact Nat.le_refl _
  | case5 c d rest _ ih =>
    simp only [List.length_cons]
    omega
  | case6 c d rest _ hquote => exact (List.isPrefixOf_iff_prefix.1 hquote).length_le
  | case7 => exact Nat.zero_le _
  | case8 c d rest _ _ _ ih =>
    simp only [List.length_cons] at ih ⊢
    omega

theorem blockCommentLength?_bounds (hp : p.Delimits) (h : blockCommentLength? p t = some length) :
    0 < length ∧ length ≤ t.length := by
  unfold blockCommentLength? at h
  split at h
  · cases h
  · next opener closer hblock =>
    obtain ⟨hopener, -⟩ := hp.block opener closer hblock
    have hpos : 0 < opener.length := List.length_pos_iff.2 hopener
    split at h
    · next hprefix =>
      have hinside := (List.isPrefixOf_iff_prefix.1 hprefix).length_le
      split at h
      · next found hfound =>
        obtain ⟨n, hn, rfl, hcloser, -⟩ := findFrom_eq_some_iff.1 hfound
        have hwithin := hcloser.length_le
        rw [List.length_drop, List.length_drop] at hwithin
        rw [List.length_drop] at hn
        obtain rfl := Option.some.inj h
        omega
      · obtain rfl := Option.some.inj h
        omega
    · cases h

theorem lineCommentLength?_bounds (hp : p.Delimits) (h : lineCommentLength? p t = some length) :
    0 < length ∧ length ≤ t.length := by
  unfold lineCommentLength? at h
  split at h
  · cases h
  · next opener hline =>
    obtain ⟨c, rest, rfl, hc⟩ := hp.line opener hline
    split at h
    · next hprefix =>
      obtain ⟨behind, rfl⟩ := List.isPrefixOf_iff_prefix.1 hprefix
      obtain rfl := Option.some.inj h
      refine ⟨?_, (List.takeWhile_sublist _).length_le⟩
      rw [List.cons_append, List.takeWhile_cons_of_pos (by simp [hc])]
      exact Nat.succ_pos _
    · cases h

/-- What a delimiter opens takes something, and no more than there is. -/
theorem delimited?_bounds (hp : p.Delimits) (h : delimited? p t = some (length, category)) :
    0 < length ∧ length ≤ t.length := by
  unfold delimited? at h
  split at h
  · next hblock =>
    obtain ⟨rfl, -⟩ := Prod.mk.inj (Option.some.inj h)
    exact blockCommentLength?_bounds hp hblock
  · split at h
    · next hprefix =>
      obtain ⟨rfl, -⟩ := Prod.mk.inj (Option.some.inj h)
      have hinside := (List.isPrefixOf_iff_prefix.1 hprefix).length_le
      have hpos : 0 < p.stringQuote.length := List.length_pos_iff.2 hp.quote
      have hstring := stringLength_le p (t.drop p.stringQuote.length)
      rw [List.length_drop] at hstring
      omega
    · obtain ⟨n, hline, hn⟩ := Option.map_eq_some_iff.1 h
      obtain ⟨rfl, -⟩ := Prod.mk.inj hn
      exact lineCommentLength?_bounds hp hline

/-! ## More lines behind -/

variable {u more : Text}

theorem exists_mem_of_endsLine (h : u.EndsLine) : ∃ c ∈ u, isLineBreak c = true := by
  obtain ⟨c, hlast, hbreak⟩ := h
  exact ⟨c, List.mem_of_getLast? hlast, hbreak⟩

theorem endsLine_of_append (front : Text) (h : (front ++ u).EndsLine) (hu : u ≠ []) :
    u.EndsLine := by
  obtain ⟨c, hlast, hbreak⟩ := h
  refine ⟨c, ?_, hbreak⟩
  rwa [List.getLast?_append_of_ne_nil front hu] at hlast

/-- A text on one line does not reach over a line break. -/
theorem prefix_append_iff {front : Text} (hfront : front.OneLine)
    (hu : u.EndsLine) (more : Text) : front <+: u ++ more ↔ front <+: u := by
  refine ⟨fun h => ?_, fun h => h.trans (List.prefix_append u more)⟩
  rcases List.prefix_or_prefix_of_prefix h (List.prefix_append u more) with hinside | hover
  · exact hinside
  · obtain ⟨c, hc, hbreak⟩ := exists_mem_of_endsLine hu
    exact absurd (hfront c (hover.subset hc)) (by simp [hbreak])

/-- What follows a text on one line still ends its line. -/
theorem endsLine_drop {front : Text} (hfront : front.OneLine)
    (hu : u.EndsLine) (h : front <+: u) : EndsLine (u.drop front.length) := by
  obtain ⟨behind, rfl⟩ := h
  rw [List.drop_left]
  refine endsLine_of_append front hu fun hnil => ?_
  rw [hnil, List.append_nil] at hu
  obtain ⟨c, hc, hbreak⟩ := exists_mem_of_endsLine hu
  exact absurd (hfront c hc) (by simp [hbreak])

theorem isPrefixOf_append {front : Text} (hfront : front.OneLine)
    (hu : u.EndsLine) (more : Text) : front.isPrefixOf (u ++ more) = front.isPrefixOf u := by
  rw [Bool.eq_iff_iff, List.isPrefixOf_iff_prefix, List.isPrefixOf_iff_prefix]
  exact prefix_append_iff hfront hu more

theorem stringLength_of_isLineBreak (hp : p.Inline) {c : Char} (hc : isLineBreak c = true)
    (rest : Text) : stringLength p (c :: rest) = 0 := by
  have hquote : ∀ behind, p.stringQuote.isPrefixOf (c :: behind) = false := by
    intro behind
    rw [Bool.eq_false_iff, ne_eq, List.isPrefixOf_iff_prefix]
    intro hprefix
    obtain ⟨d, quote, hd⟩ := List.exists_cons_of_ne_nil hp.quote.1
    have hsolid := hp.quote.2
    rw [hd] at hprefix hsolid
    obtain ⟨rfl, -⟩ := List.cons_prefix_cons.1 hprefix
    exact absurd (hsolid d List.mem_cons_self) (by simp [hc])
  have hescape : [c] ≠ p.escapeChar := fun h =>
    absurd (hp.escape c (h ▸ List.mem_singleton_self c)) (by simp [hc])
  cases rest with
  | nil => simp [stringLength, hquote, hc]
  | cons d rest => simp [stringLength, hquote, hc, hescape]

/-- A string ends with its line. -/
theorem stringLength_append (hp : p.Inline) (hu : u.EndsLine) (more : Text) :
    stringLength p (u ++ more) = stringLength p u := by
  fun_induction stringLength p u with
  | case1 => exact absurd hu (by simp [EndsLine])
  | case2 c hquote =>
    -- the last character is a break, and no quote has one
    have hc : isLineBreak c = true := by simpa [EndsLine] using hu
    have hnone := stringLength_of_isLineBreak hp hc []
    rw [stringLength, if_pos hquote] at hnone
    rw [List.singleton_append, stringLength_of_isLineBreak hp hc, hnone]
  | case3 c _ hc => exact stringLength_of_isLineBreak hp hc more
  | case4 c _ hc => exact absurd hu (by simp [EndsLine, hc])
  | case5 c d rest hescaped ih =>
    have hd : isLineBreak d = false := by simp at hescaped; exact hescaped.2
    have hrest : EndsLine rest := by
      refine endsLine_of_append [c, d] hu ?_
      rintro rfl
      exact absurd hu (by simp [EndsLine, hd])
    rw [List.cons_append, List.cons_append, stringLength, if_pos hescaped, ih hrest]
  | case6 c d rest hescaped hquote =>
    have hmore := isPrefixOf_append hp.quote.2 hu more
    rw [List.cons_append, List.cons_append] at hmore
    rw [List.cons_append, List.cons_append, stringLength, if_neg hescaped, hmore, if_pos hquote]
  | case7 c d rest _ _ hc => exact stringLength_of_isLineBreak hp hc _
  | case8 c d rest hescaped hquote hc ih =>
    have hmore := isPrefixOf_append hp.quote.2 hu more
    have hrest : EndsLine (d :: rest) := endsLine_of_append [c] hu (by simp)
    rw [List.cons_append, List.cons_append] at hmore ⊢
    rw [stringLength, if_neg hescaped, hmore, if_neg hquote, if_neg hc,
      ← List.cons_append, ih hrest]

theorem takeWhile_append_of_endsLine (hu : u.EndsLine) (more : Text) :
    ((u ++ more).takeWhile fun c => !isLineBreak c) = u.takeWhile fun c => !isLineBreak c := by
  rw [List.takeWhile_append, if_neg]
  intro hlength
  obtain ⟨c, hc, hbreak⟩ := exists_mem_of_endsLine hu
  rw [← (List.takeWhile_prefix _).eq_of_length hlength] at hc
  have hplain := List.all_eq_true.1 List.all_takeWhile c hc
  simp [hbreak] at hplain

theorem lineCommentLength?_append (hp : p.Inline) (hu : u.EndsLine) (more : Text) :
    lineCommentLength? p (u ++ more) = lineCommentLength? p u := by
  unfold lineCommentLength?
  split
  · rfl
  · next opener hline =>
    rw [isPrefixOf_append (hp.line opener hline).2 hu, takeWhile_append_of_endsLine hu]

theorem blockCommentLength?_append (hp : p.Inline) (hu : u.EndsLine)
    (hclosed : ∀ opener closer, p.blockComment = some (opener, closer) → opener <+: u →
      closer <:+: u.drop opener.length) (more : Text) :
    blockCommentLength? p (u ++ more) = blockCommentLength? p u := by
  unfold blockCommentLength?
  split
  · rfl
  · next opener closer hblock =>
    rw [isPrefixOf_append (hp.block opener closer hblock).1.2 hu]
    split
    · next hprefix =>
      have hopened := List.isPrefixOf_iff_prefix.1 hprefix
      obtain ⟨found, hfound⟩ := exists_findFrom (hclosed opener closer hblock hopened) opener.length
      rw [List.drop_append_of_le_length hopened.length_le, findFrom_append hfound, hfound]
    · rfl

/-- What opens a text that ends its line does not depend on the lines behind, if a block comment
that opens it is closed in it. -/
theorem delimited?_append (hp : p.Inline) (hu : u.EndsLine)
    (hclosed : ∀ opener closer, p.blockComment = some (opener, closer) → opener <+: u →
      closer <:+: u.drop opener.length) (more : Text) :
    delimited? p (u ++ more) = delimited? p u := by
  unfold delimited?
  rw [blockCommentLength?_append hp hu hclosed]
  split
  · rfl
  · rw [isPrefixOf_append hp.quote.2 hu, lineCommentLength?_append hp hu]
    split
    · next hprefix =>
      have hopened := List.isPrefixOf_iff_prefix.1 hprefix
      dsimp only
      rw [List.drop_append_of_le_length hopened.length_le,
        stringLength_append hp (endsLine_drop hp.quote.2 hu hopened)]
    · rfl

end Highlight

end TextEditor
