import Mathlib.Algebra.Group.Nat.Even
import TextEditor.Highlight.Lexical
import TextEditor.Proofs.Highlight.Scanning

/-!
# Where strings end

With the usual quote and the backslash for escapes, a string begins at a quote and does not leave
its line.  It is closed by the first quote behind it that follows an even number of backslashes, and
if its line or the text ends before, there it ends too.  The scan takes an escaped character along
with its backslash, so two backslashes are passed at a time: how many of them stand in a row decides
by parity alone.
-/

namespace TextEditor.Highlight

open Text

variable {p : Profile} {t u w front : Text} {n : Nat}

/-! ## Backslashes in a row -/

/-- The number of backslashes with which the text ends. -/
def trailingEscapes (t : Text) : Nat :=
  (t.reverse.takeWhile fun c => c = '\\').length

/-- What ends with an even number of backslashes does not count for what follows. -/
theorem even_trailingEscapes_append (h : Even (trailingEscapes front)) (w : Text) :
    Even (trailingEscapes (front ++ w)) ↔ Even (trailingEscapes w) := by
  rw [trailingEscapes, List.reverse_append, List.takeWhile_append]
  split
  · next hall =>
    rw [List.length_append, List.length_reverse, ← List.length_reverse, ← hall]
    exact Nat.even_add.trans (iff_true_right h)
  · rfl

/-! ## The closing quote -/

/-- Behind an opening quote, the character at an offset is a quote that closes the string. -/
def ClosesAt (u : Text) (n : Nat) : Prop :=
  u[n]? = some '"' ∧ Even (trailingEscapes (u.take n))

/-- Where a string ends, of which the text is what follows the opening quote. -/
inductive StringEnd (u : Text) : Nat → Prop
  /-- Just behind the first quote that closes it. -/
  | closed {n : Nat} (hcloses : ClosesAt u n) (hfirst : ∀ k < n, ¬ ClosesAt u k) :
    StringEnd u (n + 1)
  /-- At the end of the line. -/
  | atBreak {n : Nat} {c : Char} (hc : u[n]? = some c) (hbreak : isLineBreak c = true)
    (hopen : ∀ k < n, ¬ ClosesAt u k) : StringEnd u n
  /-- At the end of the text. -/
  | atEnd (hopen : ∀ k < u.length, ¬ ClosesAt u k) : StringEnd u u.length

theorem closesAt_append (h : Even (trailingEscapes front)) (u : Text) (n : Nat) :
    ClosesAt (front ++ u) (front.length + n) ↔ ClosesAt u n := by
  rw [ClosesAt, ClosesAt, List.getElem?_append_right (Nat.le_add_right _ _),
    Nat.add_sub_cancel_left, List.take_length_add_append, even_trailingEscapes_append h]

/-- A string goes on behind what closes nothing. -/
theorem StringEnd.append (h : StringEnd u n) (heven : Even (trailingEscapes front))
    (hfront : ∀ k < front.length, ¬ ClosesAt (front ++ u) k) :
    StringEnd (front ++ u) (front.length + n) := by
  have hopen : ∀ {m}, (∀ k < m, ¬ ClosesAt u k) →
      ∀ k < front.length + m, ¬ ClosesAt (front ++ u) k := by
    intro m hm k hk
    rcases Nat.lt_or_ge k front.length with hbefore | hbehind
    · exact hfront k hbefore
    · obtain ⟨i, rfl⟩ := Nat.exists_eq_add_of_le hbehind
      rw [closesAt_append heven]
      exact hm i (by omega)
  cases h with
  | closed hcloses hfirst =>
    exact .closed ((closesAt_append heven u _).2 hcloses) (hopen hfirst)
  | atBreak hc hbreak hnone =>
    refine .atBreak ?_ hbreak (hopen hnone)
    rwa [List.getElem?_append_right (Nat.le_add_right _ _), Nat.add_sub_cancel_left]
  | atEnd hnone =>
    rw [← List.length_append]
    refine .atEnd ?_
    rw [List.length_append]
    exact hopen hnone

/-! ## The scan of a string -/

theorem isPrefixOf_quote_iff {c : Char} {rest : Text} :
    ['"'].isPrefixOf (c :: rest) = true ↔ c = '"' := by
  rw [List.isPrefixOf_iff_prefix, List.cons_prefix_cons]
  exact ⟨fun h => h.1.symm, fun h => ⟨h.symm, List.nil_prefix⟩⟩

theorem closesAt_zero_iff {c : Char} {rest : Text} : ClosesAt (c :: rest) 0 ↔ c = '"' := by
  simp [ClosesAt, trailingEscapes]

theorem not_closesAt_lt_one {c : Char} {rest : Text} (h : c ≠ '"') :
    ∀ k < 1, ¬ ClosesAt (c :: rest) k := by
  intro k hk
  obtain rfl : k = 0 := Nat.lt_one_iff.1 hk
  exact closesAt_zero_iff.not.2 h

theorem not_closesAt_escaped (d : Char) (rest : Text) :
    ∀ k < 2, ¬ ClosesAt ('\\' :: d :: rest) k := by
  intro k hk
  obtain rfl | rfl : k = 0 ∨ k = 1 := by omega
  · exact closesAt_zero_iff.not.2 (by decide)
  · rintro ⟨-, heven⟩
    rw [List.take_succ_cons, List.take_zero] at heven
    exact absurd heven (by decide)

theorem even_trailingEscapes_pair (d : Char) : Even (trailingEscapes ['\\', d]) := by
  by_cases hd : d = '\\'
  · subst hd
    decide
  · simp [trailingEscapes, hd]

theorem oneLine_singleton {c : Char} (hc : isLineBreak c = false) : OneLine [c] := by
  intro d hd
  rwa [List.mem_singleton.1 hd]

theorem oneLine_take_append (hfront : OneLine front) (hu : OneLine (u.take n)) :
    OneLine ((front ++ u).take (front.length + n)) := by
  rw [List.take_length_add_append]
  exact fun c hc => (List.mem_append.1 hc).elim (hfront c) (hu c)

/-- The scan of a string stays on its line and comes to where it ends. -/
theorem stringEnd_stringLength (hquote : p.stringQuote = ['"']) (hescape : p.escapeChar = ['\\'])
    (u : Text) : OneLine (u.take (stringLength p u)) ∧ StringEnd u (stringLength p u) := by
  have hnothing : ∀ v : Text, OneLine (v.take 0) := fun v c hc => absurd hc List.not_mem_nil
  have hnone : ∀ {v : Text}, ∀ k < 0, ¬ ClosesAt v k := fun k hk => absurd hk (Nat.not_lt_zero k)
  fun_induction stringLength p u with
  | case1 => exact ⟨hnothing [], .atEnd hnone⟩
  | case2 c hprefix =>
    rw [hquote, isPrefixOf_quote_iff] at hprefix
    subst hprefix
    rw [hquote]
    exact ⟨oneLine_singleton (by decide), .closed (closesAt_zero_iff.2 rfl) hnone⟩
  | case3 c hprefix hc => exact ⟨hnothing [c], .atBreak rfl hc hnone⟩
  | case4 c hprefix hc =>
    rw [hquote, isPrefixOf_quote_iff] at hprefix
    exact ⟨oneLine_singleton (by simpa using hc), .atEnd (not_closesAt_lt_one hprefix)⟩
  | case5 c d rest hescaped ih =>
    -- The escaped character is passed over, whatever it is.
    rw [hescape, Bool.and_eq_true, decide_eq_true_eq, Bool.not_eq_true'] at hescaped
    obtain ⟨hc, hd⟩ := hescaped
    obtain rfl : c = '\\' := List.singleton_inj.1 hc
    have hpair : OneLine ['\\', d] := by
      intro e he
      obtain rfl | rfl : e = '\\' ∨ e = d := by simpa using he
      · decide
      · exact hd
    exact ⟨oneLine_take_append hpair ih.1,
      ih.2.append (even_trailingEscapes_pair d) (not_closesAt_escaped d rest)⟩
  | case6 c d rest hescaped hprefix =>
    rw [hquote, isPrefixOf_quote_iff] at hprefix
    subst hprefix
    rw [hquote]
    exact ⟨oneLine_singleton (by decide), .closed (closesAt_zero_iff.2 rfl) hnone⟩
  | case7 c d rest hescaped hprefix hc => exact ⟨hnothing _, .atBreak rfl hc hnone⟩
  | case8 c d rest hescaped hprefix hc ih =>
    rw [hquote, isPrefixOf_quote_iff] at hprefix
    have hfirst : ∀ k < 1, ¬ ClosesAt (c :: d :: rest) k := not_closesAt_lt_one hprefix
    have hc : isLineBreak c = false := by simpa using hc
    refine ⟨oneLine_take_append (oneLine_singleton hc) ih.1, ?_⟩
    by_cases hbackslash : c = '\\'
    · -- A backslash that escapes nothing is the last character of its line.
      have hd : isLineBreak d = true := by simpa [hescape, hbackslash] using hescaped
      have hstays : stringLength p (d :: rest) = 0 := by
        by_contra hpos
        obtain ⟨m, hm⟩ := Nat.exists_eq_succ_of_ne_zero hpos
        have hplain := ih.1 d (by rw [hm, List.take_succ_cons]; exact List.mem_cons_self)
        rw [hd] at hplain
        cases hplain
      rw [hstays]
      exact .atBreak rfl hd hfirst
    · refine ih.2.append (?_ : Even (trailingEscapes [c])) hfirst
      simp [trailingEscapes, hbackslash]

/-! ## The strings that are shown -/

theorem delimited?_eq_literal (h : delimited? p t = some (n, .literal)) :
    p.stringQuote <+: t ∧
      n = p.stringQuote.length + stringLength p (t.drop p.stringQuote.length) := by
  unfold delimited? at h
  split at h
  · cases h
  · split at h
    · next hprefix =>
      obtain ⟨rfl, -⟩ := Prod.mk.inj (Option.some.inj h)
      exact ⟨List.isPrefixOf_iff_prefix.1 hprefix, rfl⟩
    · obtain ⟨length, -, hline⟩ := Option.map_eq_some_iff.1 h
      cases hline

/-- What the scan calls a string begins with a quote in the text and is as long as the scan of the
string says. -/
theorem exists_of_mem_scanFrom {skip offset : Nat} {word : Text} {s : Span}
    (h : s ∈ scanFrom p skip offset word t) (hliteral : s.category = .literal) :
    ∃ front rest n, t = front ++ rest ∧ delimited? p rest = some (n, .literal) ∧
      s ∈ spanOf (offset + front.length) n .literal := by
  have hword : ∀ {word offset}, s ∉ wordSpans p word offset := by
    intro word offset hmem
    rcases category_of_mem_wordSpans hmem with hcategory | hcategory <;>
      · rw [hliteral] at hcategory
        cases hcategory
  induction t generalizing skip offset word with
  | nil => cases skip <;> exact absurd h hword
  | cons c rest ih =>
    -- What stands behind the first character is found with that character in front.
    have hbehind : ∀ {skip word}, s ∈ scanFrom p skip (offset + 1) word rest →
        ∃ front back n, c :: rest = front ++ back ∧ delimited? p back = some (n, .literal) ∧
          s ∈ spanOf (offset + front.length) n .literal := by
      intro skip word hmem
      obtain ⟨front, back, n, rfl, hopened, hspan⟩ := ih hmem
      refine ⟨c :: front, back, n, rfl, hopened, ?_⟩
      rwa [List.length_cons, Nat.add_comm front.length, ← Nat.add_assoc]
    cases skip with
    | succ skip => exact hbehind h
    | zero =>
      rw [scanFrom] at h
      split at h
      · next length category hopened =>
        rcases List.mem_append.1 h with hmem | hmem
        · exact absurd hmem hword
        rcases List.mem_append.1 hmem with hmem | hmem
        · obtain rfl : category = .literal := (category_of_mem_spanOf hmem).symm.trans hliteral
          exact ⟨[], c :: rest, length, rfl, hopened, hmem⟩
        · exact hbehind hmem
      · split at h
        · exact hbehind h
        · rcases List.mem_append.1 h with hmem | hmem
          · exact absurd hmem hword
          · exact hbehind hmem

theorem exists_of_mem_lexical {pairs : List BracketPair} {preceding text : Text} {caret : Int}
    {s : Span} (h : s ∈ (lexical p pairs preceding text caret).spans)
    (hliteral : s.category = .literal) :
    ∃ front rest n, text = front ++ rest ∧ delimited? p rest = some (n, .literal) ∧
      s ∈ spanOf front.length n .literal := by
  have hcomment : ∀ {offset length}, s ∉ spanOf offset length .comment := by
    intro offset length hmem
    rw [category_of_mem_spanOf hmem] at hliteral
    cases hliteral
  have hscan : ∃ skip, s ∈ scanFrom p skip 0 [] text := by
    unfold lexical at h
    split at h
    · next spans unclosed hspans =>
      split at h
      · exact absurd h hcomment
      split at hspans
      · unfold scanInside at hspans
        split at hspans
        · obtain ⟨rfl, -⟩ := Prod.mk.inj hspans
          exact ⟨0, h⟩
        · split at hspans
          · obtain ⟨rfl, -⟩ := Prod.mk.inj hspans
            cases h
          · obtain ⟨rfl, -⟩ := Prod.mk.inj hspans
            exact ⟨_, (List.mem_append.1 h).resolve_left hcomment⟩
      · obtain ⟨rfl, -⟩ := Prod.mk.inj hspans
        exact ⟨0, h⟩
  obtain ⟨skip, hscan⟩ := hscan
  obtain ⟨front, rest, n, htext, hopened, hspan⟩ := exists_of_mem_scanFrom hscan hliteral
  exact ⟨front, rest, n, htext, hopened, by rwa [Nat.zero_add] at hspan⟩

/-- With the usual quote and the backslash for escapes, everything that is shown as a string begins
at a quote, stays on its line, and ends just behind the first quote that closes it, or where the
line or the text ends if there is none before. -/
theorem literal_spans (hquote : p.stringQuote = ['"']) (hescape : p.escapeChar = ['\\'])
    (pairs : List BracketPair) (preceding text : Text) (caret : Int) {s : Span}
    (h : s ∈ (lexical p pairs preceding text caret).spans) (hliteral : s.category = .literal) :
    ∃ front u n, text = front ++ '"' :: u ∧ s = ⟨front.length, (n + 1 : Nat), .literal⟩ ∧
      n ≤ u.length ∧ OneLine ('"' :: u.take n) ∧ StringEnd u n := by
  obtain ⟨front, rest, length, rfl, hopened, hspan⟩ := exists_of_mem_lexical h hliteral
  obtain ⟨hfront, rfl⟩ := delimited?_eq_literal hopened
  rw [hquote] at hfront hspan
  obtain ⟨u, rfl⟩ := hfront
  obtain ⟨hline, hend⟩ := stringEnd_stringLength hquote hescape u
  refine ⟨front, u, stringLength p u, rfl, ?_, stringLength_le p u, ?_, hend⟩
  · rw [List.drop_left, spanOf, if_neg (by simp)] at hspan
    rw [List.mem_singleton.1 hspan, List.length_singleton, Nat.add_comm]
  · intro c hc
    rcases List.mem_cons.1 hc with rfl | hc
    · decide
    · exact hline c hc

/-- Three backslashes escape the quote behind them, two do not. -/
theorem literal_spans_backslashes :
    (Profile.cpp.stringQuote = ['"'] ∧ Profile.cpp.escapeChar = ['\\'] ∧
      ⟨0, 8, .literal⟩ ∈
        (lexical .cpp [] [] ['"', '\\', '\\', '\\', '"', '\\', '\\', '"', 'x'] 0).spans) ∧
    ∃ front u n, ['"', '\\', '\\', '\\', '"', '\\', '\\', '"', 'x'] = front ++ '"' :: u ∧
      (⟨0, 8, .literal⟩ : Span) = ⟨front.length, (n + 1 : Nat), .literal⟩ ∧ n ≤ u.length ∧
      OneLine ('"' :: u.take n) ∧ StringEnd u n :=
  have hspan : ⟨0, 8, .literal⟩ ∈
      (lexical .cpp [] [] ['"', '\\', '\\', '\\', '"', '\\', '\\', '"', 'x'] 0).spans := by
    decide +kernel
  ⟨⟨rfl, rfl, hspan⟩, literal_spans rfl rfl [] [] _ 0 hspan rfl⟩

end TextEditor.Highlight
