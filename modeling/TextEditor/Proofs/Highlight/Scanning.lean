import TextEditor.Proofs.Highlight.Delimiters

/-!
# The scan as a loop

The scan is taken apart into single steps over an offset into the text.  A step keeps what the scan
will say in the end, and moves on as long as there is text: so the loop comes to the end of the
text, and what it has found there is what the scan says.
-/

namespace TextEditor.Highlight

open Text

variable {p : Profile} {t : Text}

/-- What the scan says of a text that opens inside a block comment, or does not: its spans, and
whether the comment is still open at its end. -/
def scanned (p : Profile) (inside : Bool) (t : Text) : List Span × Bool :=
  if inside then scanInside p t else (scan p t, false)

/-- A scan under way: where it stands, where the identifier that is going on began, whether it is
inside a block comment from before the text, and the spans so far. -/
structure Scan where
  offset : Nat := 0
  word : Option Nat := none
  inside : Bool := false
  spans : List Span := []
  deriving DecidableEq, Repr

namespace Scan

/-- The characters of the identifier that is going on. -/
def wordText (t : Text) (s : Scan) : Text :=
  match s.word with
  | none => []
  | some start => slice t start s.offset

/-- The spans with that of the identifier that ends here. -/
def flushed (p : Profile) (t : Text) (s : Scan) : List Span :=
  s.spans ++ wordSpans p (s.wordText t).reverse s.offset

/-- The length of the closer of a block comment, if one stands at the front of the text. -/
def closerLength? (p : Profile) (t : Text) : Option Nat :=
  match p.blockComment with
  | none => none
  | some (_, closer) => if closer.isPrefixOf t then some closer.length else none

/-- One round of the loop; nothing happens at the end of the text. -/
def step (p : Profile) (t : Text) (s : Scan) : Scan :=
  match t.drop s.offset with
  | [] => s
  | c :: rest =>
    if s.inside then
      match closerLength? p (c :: rest) with
      | some length =>
        let close := s.offset + length
        { s with offset := close, inside := false, spans := s.spans ++ spanOf 0 close .comment }
      | none => { s with offset := s.offset + 1 }
    else
      match delimited? p (c :: rest) with
      | some (length, category) =>
        { s with
          offset := s.offset + length
          word := none
          spans := s.flushed p t ++ spanOf s.offset length category }
      | none =>
        if isIdentifier c then
          { s with offset := s.offset + 1, word := some (s.word.getD s.offset) }
        else { s with offset := s.offset + 1, word := none, spans := s.flushed p t }

/-- Where the loop begins. -/
def start (inside : Bool) : Scan :=
  { inside }

/-- The loop after some rounds. -/
def after (p : Profile) (t : Text) (inside : Bool) (rounds : Nat) : Scan :=
  (step p t)^[rounds] (start inside)

/-- What the loop gives where it stands: the spans, and whether a comment is still open. -/
def outcome (p : Profile) (t : Text) (s : Scan) : List Span × Bool :=
  (s.flushed p t, s.inside)

/-! ## What a state may be -/

/-- The loop stands in the text, an identifier that goes on is not empty, and there is nothing
yet while a comment from before the text is open. -/
structure Placed (t : Text) (s : Scan) : Prop where
  offset : s.offset ≤ t.length
  word : ∀ start, s.word = some start → start < s.offset
  inside : s.inside = true → s.word = none ∧ s.spans = []

theorem placed_start (t : Text) (inside : Bool) : (start inside).Placed t :=
  ⟨Nat.zero_le _, by simp [start], fun _ => ⟨rfl, rfl⟩⟩

theorem closerLength?_bounds (hp : p.Delimits) {length : Nat}
    (h : closerLength? p t = some length) : 0 < length ∧ length ≤ t.length := by
  unfold closerLength? at h
  split at h
  · cases h
  · next opener closer hblock =>
    split at h
    · next hprefix =>
      obtain rfl := Option.some.inj h
      exact ⟨List.length_pos_iff.2 (hp.block opener closer hblock).2,
        (List.isPrefixOf_iff_prefix.1 hprefix).length_le⟩
    · cases h

/-- All that a round can do. -/
theorem step_cases (p : Profile) (t : Text) (s : Scan) :
    (t.drop s.offset = [] ∧ s.step p t = s) ∨
    ∃ c rest, t.drop s.offset = c :: rest ∧
      ((s.inside = true ∧ ∃ length, closerLength? p (c :: rest) = some length ∧
          s.step p t =
            { s with
              offset := s.offset + length
              inside := false
              spans := s.spans ++ spanOf 0 (s.offset + length) .comment }) ∨
        (s.inside = true ∧ closerLength? p (c :: rest) = none ∧
          s.step p t = { s with offset := s.offset + 1 }) ∨
        (s.inside = false ∧ ∃ length category,
          delimited? p (c :: rest) = some (length, category) ∧
          s.step p t =
            { s with
              offset := s.offset + length
              word := none
              spans := s.flushed p t ++ spanOf s.offset length category }) ∨
        (s.inside = false ∧ delimited? p (c :: rest) = none ∧ isIdentifier c = true ∧
          s.step p t = { s with offset := s.offset + 1, word := some (s.word.getD s.offset) }) ∨
        (s.inside = false ∧ delimited? p (c :: rest) = none ∧ isIdentifier c = false ∧
          s.step p t =
            { s with offset := s.offset + 1, word := none, spans := s.flushed p t })) := by
  cases hrest : t.drop s.offset with
  | nil => exact .inl ⟨rfl, by simp only [step, hrest]⟩
  | cons c rest =>
    refine .inr ⟨c, rest, rfl, ?_⟩
    cases hinside : s.inside with
    | true =>
      cases hcloser : closerLength? p (c :: rest) with
      | some length => exact .inl ⟨rfl, length, rfl, by simp [step, hrest, hinside, hcloser]⟩
      | none => exact .inr (.inl ⟨rfl, rfl, by simp [step, hrest, hinside, hcloser]⟩)
    | false =>
      cases hopened : delimited? p (c :: rest) with
      | some opened =>
        obtain ⟨length, category⟩ := opened
        exact .inr (.inr (.inl ⟨rfl, length, category, rfl,
          by simp [step, hrest, hinside, hopened]⟩))
      | none =>
        cases hc : isIdentifier c with
        | true => exact .inr (.inr (.inr (.inl ⟨rfl, rfl, rfl,
            by simp [step, hrest, hinside, hopened, hc]⟩)))
        | false => exact .inr (.inr (.inr (.inr ⟨rfl, rfl, rfl,
            by simp [step, hrest, hinside, hopened, hc]⟩)))

/-- What is left of the text is as long as the offset says. -/
theorem offset_add_length_of_drop {s : Scan} {c : Char} {rest : Text}
    (h : t.drop s.offset = c :: rest) : s.offset + (c :: rest).length = t.length := by
  have hlength := congrArg List.length h
  rw [List.length_drop] at hlength
  simp only [List.length_cons] at hlength ⊢
  omega

theorem placed_step (hp : p.Delimits) {s : Scan} (h : s.Placed t) : (s.step p t).Placed t := by
  obtain ⟨-, hstep⟩ | ⟨c, rest, hrest, hcase⟩ := step_cases p t s
  · rwa [hstep]
  have hlength := offset_add_length_of_drop hrest
  have hpos : 0 < (c :: rest).length := Nat.succ_pos _
  obtain ⟨hinside, length, hcloser, hstep⟩ | ⟨hinside, -, hstep⟩ |
    ⟨hinside, length, category, hopened, hstep⟩ | ⟨hinside, -, -, hstep⟩ |
    ⟨hinside, -, -, hstep⟩ := hcase <;> rw [hstep]
  · have hbounds := closerLength?_bounds hp hcloser
    refine ⟨by dsimp only; omega, fun start hword => ?_, nofun⟩
    simp [(h.inside hinside).1] at hword
  · refine ⟨by dsimp only; omega, fun start hword => ?_, h.inside⟩
    simp [(h.inside hinside).1] at hword
  · have hbounds := delimited?_bounds hp hopened
    exact ⟨by dsimp only; omega, nofun, fun h => by simp [hinside] at h⟩
  · refine ⟨by dsimp only; omega, fun start hword => ?_, fun h => by simp [hinside] at h⟩
    obtain rfl := Option.some.inj hword
    cases hbegan : s.word with
    | none => exact Nat.lt_succ_self _
    | some start => exact Nat.lt_succ_of_lt (h.word start hbegan)
  · exact ⟨by dsimp only; omega, nofun, fun h => by simp [hinside] at h⟩

theorem after_succ (p : Profile) (t : Text) (inside : Bool) (rounds : Nat) :
    after p t inside (rounds + 1) = (after p t inside rounds).step p t :=
  Function.iterate_succ_apply' _ _ _

theorem placed_after (hp : p.Delimits) (t : Text) (inside : Bool) (rounds : Nat) :
    (after p t inside rounds).Placed t := by
  induction rounds with
  | zero => exact placed_start t inside
  | succ rounds ih =>
    rw [after_succ]
    exact placed_step hp ih

/-! ## Progress -/

theorem step_of_length_le {s : Scan} (h : t.length ≤ s.offset) : s.step p t = s := by
  have hnil := List.drop_eq_nil_iff.2 h
  simp only [step, hnil]

theorem offset_lt_step (hp : p.Delimits) {s : Scan} (h : s.offset < t.length) :
    s.offset < (s.step p t).offset := by
  obtain ⟨hend, -⟩ | ⟨c, rest, hrest, hcase⟩ := step_cases p t s
  · exact absurd (List.drop_eq_nil_iff.1 hend) (by omega)
  obtain ⟨-, length, hcloser, hstep⟩ | ⟨-, -, hstep⟩ | ⟨-, length, category, hopened, hstep⟩ |
    ⟨-, -, -, hstep⟩ | ⟨-, -, -, hstep⟩ := hcase <;> rw [hstep]
  · exact Nat.lt_add_of_pos_right (closerLength?_bounds hp hcloser).1
  · exact Nat.lt_succ_self _
  · exact Nat.lt_add_of_pos_right (delimited?_bounds hp hopened).1
  · exact Nat.lt_succ_self _
  · exact Nat.lt_succ_self _

/-- The loop comes to the end of the text, after as many rounds as there are characters at the
latest. -/
theorem offset_after (hp : p.Delimits) (t : Text) (inside : Bool) {rounds : Nat}
    (h : t.length ≤ rounds) : (after p t inside rounds).offset = t.length := by
  have hreach : ∀ rounds, min rounds t.length ≤ (after p t inside rounds).offset := by
    intro rounds
    induction rounds with
    | zero => simp
    | succ rounds ih =>
      rw [after_succ]
      have hplaced := placed_step hp (placed_after hp t inside rounds)
      rcases Nat.lt_or_ge (after p t inside rounds).offset t.length with hbefore | hend
      · have := offset_lt_step hp hbefore
        omega
      · rw [step_of_length_le hend]
        omega
  have hmost := (placed_after hp t inside rounds).offset
  have hleast := hreach rounds
  omega

/-! ## What the scan says -/

/-- What the scan says in the end, seen from where the loop stands. -/
def outlook (p : Profile) (t : Text) (s : Scan) : List Span × Bool :=
  if s.inside then
    match p.blockComment with
    | none => ([], true)
    | some (_, closer) =>
      match findFrom closer (t.drop s.offset) s.offset with
      | none => ([], true)
      | some found =>
        let close := found + closer.length
        (spanOf 0 close .comment ++ scanFrom p 0 close [] (t.drop close), false)
  else (s.spans ++ scanFrom p 0 s.offset (s.wordText t).reverse (t.drop s.offset), false)

theorem scanFrom_skip (p : Profile) (skip offset : Nat) (t : Text) :
    scanFrom p skip offset [] t = scanFrom p 0 (offset + skip) [] (t.drop skip) := by
  induction t generalizing skip offset with
  | nil => cases skip <;> simp [scanFrom, wordSpans]
  | cons c rest ih =>
    cases skip with
    | zero => rfl
    | succ skip =>
      rw [scanFrom, ih, List.drop_succ_cons]
      congr 1
      omega

theorem drop_offset_succ {s : Scan} {c : Char} {rest : Text} (h : t.drop s.offset = c :: rest) :
    t.drop (s.offset + 1) = rest := by
  rw [← List.drop_drop, h, List.drop_one, List.tail_cons]

theorem slice_succ {start offset : Nat} {c : Char} {rest : Text} (hstart : start ≤ offset)
    (h : t.drop offset = c :: rest) : slice t start (offset + 1) = slice t start offset ++ [c] := by
  rw [← slice_append_slice t hstart (Nat.le_succ offset)]
  congr 1
  simp [slice, h]

/-- A character that belongs to an identifier makes it longer, or begins it. -/
theorem wordText_succ {s : Scan} {c : Char} {rest : Text} {inside : Bool} {spans : List Span}
    (hword : ∀ start, s.word = some start → start ≤ s.offset) (h : t.drop s.offset = c :: rest) :
    wordText t ⟨s.offset + 1, some (s.word.getD s.offset), inside, spans⟩ =
      s.wordText t ++ [c] := by
  cases hbegan : s.word with
  | none => simp [wordText, hbegan, slice, h]
  | some start => simpa [wordText, hbegan] using slice_succ (hword start hbegan) h

theorem outlook_step (hp : p.Delimits) {s : Scan} (h : s.Placed t) :
    (s.step p t).outlook p t = s.outlook p t := by
  obtain ⟨-, hstep⟩ | ⟨c, rest, hrest, hcase⟩ := step_cases p t s
  · rw [hstep]
  have htail := drop_offset_succ hrest
  obtain ⟨hinside, length, hcloser, hstep⟩ | ⟨hinside, hcloser, hstep⟩ |
    ⟨hinside, length, category, hopened, hstep⟩ | ⟨hinside, hopened, hc, hstep⟩ |
    ⟨hinside, hopened, hc, hstep⟩ := hcase <;> rw [hstep]
  · -- the comment from before the text is closed here
    obtain ⟨hword, hspans⟩ := h.inside hinside
    unfold closerLength? at hcloser
    split at hcloser
    · cases hcloser
    · next opener closer hblock =>
      split at hcloser
      · next hprefix =>
        obtain rfl := Option.some.inj hcloser
        simp [outlook, hinside, hblock, hrest, findFrom, hprefix, hspans, wordText, hword]
      · cases hcloser
  · -- and here it is not
    unfold closerLength? at hcloser
    split at hcloser
    · next hblock => simp [outlook, hinside, hblock]
    · next opener closer hblock =>
      split at hcloser
      · cases hcloser
      · next hprefix => simp [outlook, hinside, hblock, hrest, htail, findFrom, hprefix]
  · have hskip : (c :: rest).drop length = rest.drop (length - 1) := by
      obtain ⟨n, rfl⟩ := Nat.exists_eq_succ_of_ne_zero (delimited?_bounds hp hopened).1.ne'
      rfl
    have hoffset : s.offset + 1 + (length - 1) = s.offset + length := by
      have := (delimited?_bounds hp hopened).1
      omega
    simp [outlook, hinside, hrest, scanFrom, hopened, scanFrom_skip p (length - 1), hoffset,
      ← hskip, ← List.drop_drop, flushed, wordText]
  · simp [outlook, hinside, hrest, htail, scanFrom, hopened, hc,
      wordText_succ (fun start hword => (h.word start hword).le) hrest]
  · simp [outlook, hinside, hrest, htail, scanFrom, hopened, hc, flushed, wordText]

theorem outlook_after (hp : p.Delimits) (t : Text) (inside : Bool) (rounds : Nat) :
    (after p t inside rounds).outlook p t = (start inside).outlook p t := by
  induction rounds with
  | zero => rfl
  | succ rounds ih => rw [after_succ, outlook_step hp (placed_after hp t inside rounds), ih]

theorem outlook_start (p : Profile) (t : Text) {inside : Bool}
    (h : inside = true → p.blockComment ≠ none) :
    (start inside).outlook p t = scanned p inside t := by
  cases inside with
  | false => rfl
  | true =>
    obtain ⟨⟨opener, closer⟩, hblock⟩ := Option.ne_none_iff_exists'.1 (h rfl)
    simp only [outlook, start, scanned, scanInside, hblock, List.drop_zero, if_true]
    cases findFrom closer t 0 with
    | none => rfl
    | some found => simp only [scanFrom_skip p _ 0 t, Nat.zero_add]

/-- At the end of the text nothing is left to say. -/
theorem outlook_end (hp : p.Delimits) {s : Scan} (h : s.Placed t) (hend : s.offset = t.length) :
    s.outlook p t = s.outcome p t := by
  have hnil : t.drop s.offset = [] := List.drop_eq_nil_iff.2 hend.ge
  cases hinside : s.inside with
  | false => simp [outlook, outcome, hinside, hnil, scanFrom, flushed]
  | true =>
    obtain ⟨hword, hspans⟩ := h.inside hinside
    have hnothing : s.outcome p t = ([], true) := by
      simp [outcome, flushed, hspans, wordText, hword, wordSpans, hinside]
    cases hblock : p.blockComment with
    | none => simp [outlook, hinside, hblock, hnothing]
    | some block =>
      obtain ⟨opener, closer⟩ := block
      have hcloser := (hp.block opener closer hblock).2
      simp [outlook, hinside, hblock, hnil, findFrom, hcloser, hnothing]

/-- What the loop has found at the end of the text is what the scan says. -/
theorem outcome_after (hp : p.Delimits) (t : Text) {inside : Bool}
    (h : inside = true → p.blockComment ≠ none) {rounds : Nat} (hrounds : t.length ≤ rounds) :
    (after p t inside rounds).outcome p t = scanned p inside t := by
  rw [← outlook_end hp (placed_after hp t inside rounds) (offset_after hp t inside hrounds),
    outlook_after hp, outlook_start p t h]

end Scan

/-! ## Categories -/

theorem category_of_mem_spanOf {offset length : Nat} {category : Category} {s : Span}
    (h : s ∈ spanOf offset length category) : s.category = category := by
  unfold spanOf at h
  split at h
  · cases h
  · rw [List.mem_singleton.1 h]

theorem wordCategory?_cases {word : Text} {category : Category}
    (h : wordCategory? p word = some category) : category = .keyword ∨ category = .directive := by
  unfold wordCategory? at h
  split at h
  · exact .inl (Option.some.inj h).symm
  · split at h
    · split at h
      · exact .inr (Option.some.inj h).symm
      · cases h
    · cases h

theorem category_of_mem_wordSpans {word : Text} {offset : Nat} {s : Span}
    (h : s ∈ wordSpans p word offset) : s.category = .keyword ∨ s.category = .directive := by
  unfold wordSpans at h
  split at h
  · cases h
  · split at h
    · next category hcategory =>
      rw [List.mem_singleton.1 h]
      exact wordCategory?_cases hcategory
    · cases h

end TextEditor.Highlight
