import TextEditor.Proofs.Highlight.Order

/-!
# Words that are shown

Of the characters that no comment and no string covers, those of identifiers stand in runs, each as
long as can be.  A run that is a keyword is shown as one, any other that begins as directives do is
shown as a directive, and nothing else is.  The scan classifies a run when it ends: it keeps in mind
where the run that is going on began, and has told of all runs before it.
-/

namespace TextEditor.Highlight

open Text

variable {p : Profile} {t : Text} {spans spans' : List Span} {a b bound offset offset' : Nat}

/-! ## Runs -/

/-- The character at an offset is one of identifiers, and no comment or string covers it. -/
def InWord (t : Text) (spans : List Span) (i : Nat) : Prop :=
  t[i]?.any isIdentifier = true ∧ ∀ s ∈ spans, s.hidesBrackets = true → s.covers i = false

/-- The offsets from `a` to before `b` have a property, and it goes no further on either side. -/
structure IsRun (inside : Nat → Prop) (a b : Nat) : Prop where
  lt : a < b
  holds : ∀ i, a ≤ i → i < b → inside i
  ahead : ∀ i, i + 1 = a → ¬ inside i
  behind : ¬ inside b

namespace IsRun

variable {inside inside' : Nat → Prop}

/-- A run depends on the offsets up to its end only. -/
theorem congr (h : IsRun inside a b) (hsame : ∀ i ≤ b, inside' i ↔ inside i) :
    IsRun inside' a b where
  lt := h.lt
  holds i ha hb := (hsame i (Nat.le_of_lt hb)).2 (h.holds i ha hb)
  ahead i hi := (hsame i (by have := h.lt; omega)).not.2 (h.ahead i hi)
  behind := (hsame b (Nat.le_refl b)).not.2 h.behind

/-- No run ends where the property does not hold just before. -/
theorem lt_of_le (h : IsRun inside a b) (hle : b ≤ bound)
    (hahead : ∀ i, i + 1 = bound → ¬ inside i) : b < bound := by
  refine Nat.lt_of_le_of_ne hle fun heq => ?_
  have hlt := h.lt
  exact hahead (b - 1) (by omega) (h.holds (b - 1) (by omega) (by omega))

/-- A run up to an offset ends before the stretch that goes on there, or is that stretch. -/
theorem cases_of_le (h : IsRun inside a b) (hle : b ≤ offset)
    (hgoing : ∀ i, bound ≤ i → i < offset → inside i)
    (hahead : ∀ i, i + 1 = bound → ¬ inside i) :
    b < bound ∨ a = bound ∧ b = offset := by
  have hlt := h.lt
  rcases Nat.lt_or_ge b bound with hbefore | hbehind
  · exact .inl hbefore
  have hb : b = offset := by
    refine Nat.le_antisymm hle (Nat.le_of_not_lt fun hb => ?_)
    exact h.behind (hgoing b hbehind hb)
  rcases Nat.lt_trichotomy a bound with hfirst | heq | hlast
  · exact absurd (h.holds (bound - 1) (by omega) (by omega)) (hahead (bound - 1) (by omega))
  · exact .inr ⟨heq, hb⟩
  · exact absurd (hgoing (a - 1) (by omega) (by omega)) (h.ahead (a - 1) (by omega))

end IsRun

theorem hidesBrackets_of_mem_wordSpans {word : Text} {s : Span}
    (h : s ∈ wordSpans p word offset) : s.hidesBrackets = false := by
  rcases category_of_mem_wordSpans h with hcategory | hcategory <;>
    simp [Span.hidesBrackets, hcategory]

/-- Spans that hide nothing at an offset do not count there. -/
theorem inWord_append_iff {more : List Span} {i : Nat}
    (h : ∀ s ∈ more, s.hidesBrackets = true → s.covers i = false) :
    InWord t (spans ++ more) i ↔ InWord t spans i := by
  unfold InWord
  refine and_congr_right fun _ => ⟨fun hall s hs => hall s (List.mem_append_left _ hs), ?_⟩
  intro hall s hs
  exact (List.mem_append.1 hs).elim (hall s) (h s)

theorem lt_length_of_inWord {i : Nat} (h : InWord t spans i) : i < t.length := by
  by_contra houtside
  have hnone : t[i]? = none := List.getElem?_eq_none (Nat.le_of_not_lt houtside)
  simp [InWord, hnone] at h

theorem IsRun.le_length (h : IsRun (InWord t spans) a b) : b ≤ t.length := by
  have hlt := h.lt
  have hlast := lt_length_of_inWord (h.holds (b - 1) (by omega) (by omega))
  omega

theorem category_of_delimited? {length : Nat} {category : Category}
    (h : delimited? p t = some (length, category)) :
    category = .comment ∨ category = .literal := by
  unfold delimited? at h
  split at h
  · exact .inl (Prod.mk.inj (Option.some.inj h)).2.symm
  · split at h
    · exact .inr (Prod.mk.inj (Option.some.inj h)).2.symm
    · obtain ⟨n, -, hn⟩ := Option.map_eq_some_iff.1 h
      exact .inl (Prod.mk.inj hn).2.symm

theorem covers_of_mem_spanOf {length : Nat} {category : Category} {s : Span}
    (h : s ∈ spanOf offset length category) (i : Nat) :
    s.covers i = true ↔ offset ≤ i ∧ i < offset + length := by
  unfold spanOf at h
  split at h
  · cases h
  · rw [List.mem_singleton.1 h, Span.covers_iff]
    dsimp only
    omega

/-- What a delimiter opens is in no word. -/
theorem not_inWord_of_spanOf {length i : Nat} {category : Category}
    (hcategory : category = .comment ∨ category = .literal)
    (hspans : spanOf offset length category ⊆ spans) (hfirst : offset ≤ i)
    (hlast : i < offset + length) : ¬ InWord t spans i := by
  rintro ⟨-, hall⟩
  have hmem : ⟨offset, length, category⟩ ∈ spanOf offset length category := by
    rw [spanOf, if_neg (by omega)]
    exact List.mem_cons_self
  have hfree := hall _ (hspans hmem) (by simp [Span.hidesBrackets, hcategory])
  rw [(covers_of_mem_spanOf hmem i).2 ⟨hfirst, hlast⟩] at hfree
  cases hfree

/-! ## What the scan has told -/

/-- The scan has come to an offset, a run goes on there from `bound`, and the words among the spans
are those of the runs before. -/
structure Told (p : Profile) (t : Text) (spans : List Span) (bound offset : Nat) : Prop where
  going : ∀ i, bound ≤ i → i < offset → InWord t spans i
  ahead : ∀ i, i + 1 = bound → ¬ InWord t spans i
  told : ∀ s : Span, s.hidesBrackets = false → (s ∈ spans ↔
    ∃ a b, IsRun (InWord t spans) a b ∧ b ≤ bound ∧ s ∈ wordSpans p (slice t a b).reverse b)

theorem told_nil (p : Profile) (t : Text) : Told p t [] 0 0 where
  going i _ hi := absurd hi (Nat.not_lt_zero i)
  ahead i hi := absurd hi (Nat.succ_ne_zero i)
  told s _ := by
    refine iff_of_false List.not_mem_nil ?_
    rintro ⟨a, b, hrun, hb, -⟩
    have := hrun.lt
    omega

/-- Nothing is told where one comment covers everything. -/
theorem told_spanOf (p : Profile) (t : Text) (close : Nat) :
    Told p t (spanOf 0 close .comment) close close := by
  have hcovered : ∀ i < close, ¬ InWord t (spanOf 0 close .comment) i := fun i hi =>
    not_inWord_of_spanOf (.inl rfl) (List.Subset.refl _) (Nat.zero_le i) (by omega)
  refine ⟨fun i hfirst hlast => by omega, fun i hi => hcovered i (by omega), fun s hs => ?_⟩
  refine iff_of_false (fun hmem => ?_) ?_
  · simp [Span.hidesBrackets, category_of_mem_spanOf hmem] at hs
  · rintro ⟨a, b, hrun, hb, -⟩
    have hlt := hrun.lt
    exact hcovered a (by omega) (hrun.holds a (Nat.le_refl a) hlt)

/-- The run that goes on ends where the next character is not one of it, and is told of then. -/
theorem Told.close (h : Told p t spans bound offset) (hbound : bound ≤ offset)
    (hoffset : offset < offset') (hsame : ∀ i < offset, InWord t spans' i ↔ InWord t spans i)
    (hstop : ∀ i, offset ≤ i → i < offset' → ¬ InWord t spans' i)
    (hmem : ∀ s : Span, s.hidesBrackets = false → (s ∈ spans' ↔
      s ∈ spans ∨ s ∈ wordSpans p (slice t bound offset).reverse offset)) :
    Told p t spans' offset' offset' := by
  have hgoing : ∀ i, bound ≤ i → i < offset → InWord t spans' i := fun i hfirst hlast =>
    (hsame i hlast).2 (h.going i hfirst hlast)
  have hahead : ∀ i, i + 1 = bound → ¬ InWord t spans' i := fun i hi =>
    (hsame i (by omega)).not.2 (h.ahead i hi)
  refine ⟨fun i hfirst hlast => by omega, fun i hi => hstop i (by omega) (by omega),
    fun s hs => ?_⟩
  rw [hmem s hs, h.told s hs]
  constructor
  · rintro (⟨a, b, hrun, hb, hword⟩ | hword)
    · have hbefore := hrun.lt_of_le hb h.ahead
      exact ⟨a, b, hrun.congr fun i hi => hsame i (by omega), by omega, hword⟩
    · -- The run is not empty, or there is no word.
      have hlt : bound < offset := by
        refine Nat.lt_of_le_of_ne hbound fun heq => ?_
        simp [heq, slice, wordSpans] at hword
      exact ⟨bound, offset, ⟨hlt, hgoing, hahead, hstop offset (Nat.le_refl _) hoffset⟩, by omega,
        hword⟩
  · rintro ⟨a, b, hrun, hb, hword⟩
    have hle : b ≤ offset := by
      by_contra hbehind
      have hlt := hrun.lt
      exact hstop (b - 1) (by omega) (by omega) (hrun.holds (b - 1) (by omega) (by omega))
    rcases hrun.cases_of_le hle hgoing hahead with hbefore | ⟨rfl, rfl⟩
    · refine .inl ⟨a, b, hrun.congr fun i hi => (hsame i (by omega)).symm, by omega, hword⟩
    · exact .inr hword

/-! ## Step by step -/

namespace Scan

theorem wordText_eq (t : Text) (s : Scan) : s.wordText t = slice t s.bound s.offset := by
  cases hword : s.word with
  | none => simp [wordText, bound, hword, slice]
  | some start => simp [wordText, bound, hword]

/-- Words hide nothing. -/
theorem inWord_flushed_iff {s : Scan} {i : Nat} :
    InWord t (s.flushed p t) i ↔ InWord t s.spans i :=
  inWord_append_iff fun a ha hhides => by
    rw [hidesBrackets_of_mem_wordSpans ha] at hhides
    cases hhides

theorem mem_flushed_iff {s : Scan} {a : Span} :
    a ∈ s.flushed p t ↔
      a ∈ s.spans ∨ a ∈ wordSpans p (slice t s.bound s.offset).reverse s.offset := by
  rw [flushed, List.mem_append, wordText_eq]

theorem getElem?_offset {s : Scan} {c : Char} {rest : Text} (h : t.drop s.offset = c :: rest) :
    t[s.offset]? = some c := by
  rw [← Nat.add_zero s.offset, ← List.getElem?_drop, h, List.getElem?_cons_zero]

/-- A round that ends a run tells of it, and no other round tells of anything. -/
theorem told_step (hp : p.Delimits) {s : Scan} (h : s.Placed t) (hlaid : Laid 0 s.bound s.spans)
    (htold : s.inside = false → Told p t s.spans s.bound s.offset) :
    (s.step p t).inside = false →
      Told p t (s.step p t).spans (s.step p t).bound (s.step p t).offset := by
  obtain ⟨-, hstep⟩ | ⟨c, rest, hrest, hcase⟩ := step_cases p t s
  · rwa [hstep]
  have hc := getElem?_offset hrest
  have hbound := bound_le h
  obtain ⟨hinside, length, -, hstep⟩ | ⟨hinside, -, hstep⟩ |
    ⟨hinside, length, category, hopened, hstep⟩ | ⟨hinside, -, hword, hstep⟩ |
    ⟨hinside, -, hword, hstep⟩ := hcase <;> rw [hstep]
  · -- the comment from before the text is all there is
    intro _
    obtain ⟨hnone, hspans⟩ := h.inside hinside
    simpa [bound, hnone, hspans] using told_spanOf p t (s.offset + length)
  · intro hleft
    rw [hinside] at hleft
    cases hleft
  · intro _
    have hcategory := category_of_delimited? hopened
    have hopens : ∀ a ∈ spanOf s.offset length category, a.hidesBrackets = true := by
      intro a ha
      simp [Span.hidesBrackets, category_of_mem_spanOf ha, hcategory]
    refine (htold hinside).close hbound
      (Nat.lt_add_of_pos_right (delimited?_bounds hp hopened).1) (fun i hi => ?_)
      (fun i => not_inWord_of_spanOf hcategory (List.subset_append_right _ _)) fun a ha => ?_
    · rw [inWord_append_iff, inWord_flushed_iff]
      intro a ha _
      rw [← Bool.not_eq_true, covers_of_mem_spanOf ha]
      omega
    · have hnot : a ∉ spanOf s.offset length category := fun hmem => by
        rw [hopens a hmem] at ha
        cases ha
      rw [List.mem_append, or_iff_left hnot, mem_flushed_iff]
  · intro _
    refine ⟨fun i hfirst hlast => ?_, (htold hinside).ahead, (htold hinside).told⟩
    rcases Nat.lt_succ_iff_lt_or_eq.1 hlast with hi | rfl
    · exact (htold hinside).going i hfirst hi
    · -- all that is told of ended where the run began
      refine ⟨by simp [hc, hword], fun a ha _ => ?_⟩
      have hstop := (hlaid.within a ha).2
      rw [← Bool.not_eq_true, Span.covers, Bool.and_eq_true, decide_eq_true_eq,
        decide_eq_true_eq]
      omega
  · intro _
    refine (htold hinside).close hbound (Nat.lt_succ_self _) (fun _ _ => inWord_flushed_iff)
      (fun i hfirst hlast => ?_) fun _ _ => mem_flushed_iff
    obtain rfl : i = s.offset := Nat.le_antisymm (Nat.le_of_lt_succ hlast) hfirst
    rintro ⟨hin, -⟩
    simp [hc, hword] at hin

theorem told_after (hp : p.Delimits) (t : Text) (inside : Bool) (rounds : Nat) :
    (after p t inside rounds).inside = false →
      Told p t (after p t inside rounds).spans (after p t inside rounds).bound
        (after p t inside rounds).offset := by
  induction rounds with
  | zero => exact fun _ => told_nil p t
  | succ rounds ih =>
    rw [after_succ]
    exact told_step hp (placed_after hp t inside rounds) (laid_after hp t inside rounds) ih

/-- At the end of the text all runs are told of. -/
theorem mem_shown_iff {s : Scan} (h : s.Placed t) (hend : s.offset = t.length)
    (htold : s.inside = false → Told p t s.spans s.bound s.offset) {a : Span}
    (ha : a.hidesBrackets = false) :
    a ∈ s.shown p t ↔
      ∃ first last, IsRun (InWord t (s.shown p t)) first last ∧
        a ∈ wordSpans p (slice t first last).reverse last := by
  -- No run goes beyond the text.
  have hall : ∀ {spans bound}, t.length ≤ bound → Told p t spans bound bound → (a ∈ spans ↔
      ∃ first last, IsRun (InWord t spans) first last ∧
        a ∈ wordSpans p (slice t first last).reverse last) := by
    intro spans bound hbound h
    rw [h.told a ha]
    refine exists₂_congr fun first last => ⟨fun ⟨hrun, _, hmem⟩ => ⟨hrun, hmem⟩, ?_⟩
    rintro ⟨hrun, hmem⟩
    exact ⟨hrun, Nat.le_trans hrun.le_length hbound, hmem⟩
  unfold shown
  split
  · exact hall (Nat.le_refl _) (told_spanOf p t t.length)
  · next hinside =>
    have hbehind : ∀ i, s.offset ≤ i → ∀ {spans}, ¬ InWord t spans i := fun i hi spans hin => by
      have := lt_length_of_inWord hin
      omega
    have htold := htold (Bool.eq_false_iff.2 hinside)
    exact hall (Nat.le_succ_of_le hend.ge) (htold.close (bound_le h) (Nat.lt_succ_self _)
      (fun _ _ => inWord_flushed_iff) (fun i hi _ => hbehind i hi) fun _ _ => mem_flushed_iff)

end Scan

/-! ## The words that are shown -/

theorem wordCategory?_eq_keyword_iff {word : Text} :
    wordCategory? p word = some .keyword ↔ word ∈ p.keywords := by
  rw [← List.contains_iff_mem, ← Profile.isKeyword]
  unfold wordCategory?
  split
  · next hword => simp [hword]
  · next hword =>
    refine iff_of_false ?_ hword
    grind

theorem wordCategory?_eq_directive_iff {word : Text} :
    wordCategory? p word = some .directive ↔
      word ∉ p.keywords ∧ ∃ opening, p.directiveStart = some opening ∧ opening ≠ [] ∧
        opening <+: word := by
  rw [← List.contains_iff_mem, ← Profile.isKeyword]
  unfold wordCategory?
  split
  · next hword => simp [hword]
  · next hword =>
    rw [and_iff_right hword]
    cases hstart : p.directiveStart with
    | none => simp
    | some opening => simp

/-- A run that is a word of some category is shown from its first character to its last. -/
theorem IsRun.mem_wordSpans_iff (h : IsRun (InWord t spans) a b) {start length : Int}
    {category : Category} :
    ⟨start, length, category⟩ ∈ wordSpans p (slice t a b).reverse b ↔
      start = a ∧ start + length = b ∧ wordCategory? p (slice t a b) = some category := by
  have hlt := h.lt
  have hlength : (slice t a b).length = b - a := by
    have := h.le_length
    rw [slice, List.length_take, List.length_drop]
    omega
  have hne : (slice t a b).reverse.isEmpty = false := by
    rw [List.isEmpty_eq_false_iff, ← List.length_pos_iff, List.length_reverse]
    omega
  unfold wordSpans
  rw [hne, List.reverse_reverse, List.length_reverse, hlength]
  cases wordCategory? p (slice t a b) with
  | none => simp
  | some found =>
    simp only [Bool.false_eq_true, if_false, List.mem_singleton, Span.mk.injEq, Option.some.injEq]
    constructor
    · rintro ⟨rfl, rfl, rfl⟩
      exact ⟨by omega, by omega, rfl⟩
    · rintro ⟨rfl, hstop, rfl⟩
      exact ⟨by omega, by omega, rfl⟩

/-- The spans shown are those of a scan that has come to the end and has told of all runs. -/
theorem exists_told (hp : p.Delimits) (pairs : List BracketPair) (preceding text : Text)
    (caret : Int) : ∃ s : Scan, s.Placed text ∧ s.offset = text.length ∧
      (s.inside = false → Told p text s.spans s.bound s.offset) ∧
      (lexical p pairs preceding text caret).spans = s.shown p text := by
  let inside := startsInsideComment preceding p.blockComment
  have hblock : inside = true → p.blockComment ≠ none := by
    intro hinside hnone
    dsimp only [inside] at hinside
    rw [hnone] at hinside
    cases hinside
  exact ⟨Scan.after p text inside text.length, Scan.placed_after hp text inside _,
    Scan.offset_after hp text inside (Nat.le_refl _), Scan.told_after hp text inside _,
    lexical_spans p pairs preceding text caret
      (Scan.outcome_after hp text hblock (Nat.le_refl _))⟩

/-- Which runs of identifier characters outside comments and strings are shown, and as what: those
that are keywords as keywords, of the others those that begin as directives do as directives. -/
theorem words_shown (hp : p.Delimits) (pairs : List BracketPair) (preceding text : Text)
    (caret start length : Int) :
    let spans := (lexical p pairs preceding text caret).spans
    (⟨start, length, .keyword⟩ ∈ spans ↔
      ∃ first last : Nat, IsRun (InWord text spans) first last ∧
        start = first ∧ start + length = last ∧ slice text first last ∈ p.keywords) ∧
    (⟨start, length, .directive⟩ ∈ spans ↔
      ∃ first last : Nat, IsRun (InWord text spans) first last ∧
        start = first ∧ start + length = last ∧ slice text first last ∉ p.keywords ∧
        ∃ opening, p.directiveStart = some opening ∧ opening ≠ [] ∧
          opening <+: slice text first last) := by
  have hfound : ∀ category : Category, category = .keyword ∨ category = .directive →
      let spans := (lexical p pairs preceding text caret).spans
      (⟨start, length, category⟩ ∈ spans ↔
        ∃ first last : Nat, IsRun (InWord text spans) first last ∧
          start = first ∧ start + length = last ∧
          wordCategory? p (slice text first last) = some category) := by
    intro category hcategory
    have hhides : (⟨start, length, category⟩ : Span).hidesBrackets = false := by
      rcases hcategory with rfl | rfl <;> rfl
    obtain ⟨s, hs, hend, htold, hspans⟩ := exists_told hp pairs preceding text caret
    dsimp only
    rw [hspans, Scan.mem_shown_iff hs hend htold hhides]
    exact exists₂_congr fun first last => and_congr_right fun hrun => hrun.mem_wordSpans_iff
  refine ⟨?_, ?_⟩
  · simpa only [wordCategory?_eq_keyword_iff] using hfound .keyword (.inl rfl)
  · simpa only [wordCategory?_eq_directive_iff] using hfound .directive (.inr rfl)

/-- A directive up to a string, and a keyword that a comment ends. -/
theorem words_shown_cpp :
    Profile.cpp.Delimits ∧
    (lexical .cpp [] [] "#if\"x\"int/*y*/z".toList 0).spans =
      [⟨0, 3, .directive⟩, ⟨3, 3, .literal⟩, ⟨6, 3, .keyword⟩, ⟨9, 5, .comment⟩] ∧
    ∃ first last : Nat,
      IsRun (InWord "#if\"x\"int/*y*/z".toList
        (lexical .cpp [] [] "#if\"x\"int/*y*/z".toList 0).spans) first last ∧
      (6 : Int) = first ∧ (6 : Int) + 3 = last ∧
      slice "#if\"x\"int/*y*/z".toList first last ∈ Profile.cpp.keywords :=
  have hcpp : Profile.cpp.Delimits := (Profile.inline_ofLanguage .cpp).delimits
  have hspans : (lexical .cpp [] [] "#if\"x\"int/*y*/z".toList 0).spans =
      [⟨0, 3, .directive⟩, ⟨3, 3, .literal⟩, ⟨6, 3, .keyword⟩, ⟨9, 5, .comment⟩] := by
    decide +kernel
  ⟨hcpp, hspans, (words_shown hcpp [] [] "#if\"x\"int/*y*/z".toList 0 6 3).1.1
    (by rw [hspans]; decide)⟩

end TextEditor.Highlight
