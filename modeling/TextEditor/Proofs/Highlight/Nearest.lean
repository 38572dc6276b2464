import Mathlib.Data.List.Infix
import Mathlib.Data.Nat.Find
import TextEditor.Highlight.BlockComment

/-!
# The nearest delimiter behind the view

The walk backward follows opener and closer with one cursor each.  Where a character does not go on
with what is matched so far, the cursor keeps that character at most: whatever else of the token
ended there is forgotten.  That loses no delimiter just if each of its beginnings that ends with its
last character is an end of it too.  The walk then says which of the two delimiters begins last in
the text ahead of the view.
-/

namespace TextEditor.Highlight

variable {token delimiter opener closer p t : Text} {n j m : Nat}

/-! ## One cursor -/

/-- How much of the token is matched after some characters. -/
def matched (token t : Text) : Nat :=
  t.foldl (advance token) 0

theorem matched_concat (token t : Text) (c : Char) :
    matched token (t ++ [c]) = advance token (matched token t) c :=
  List.foldl_concat (advance token) 0 c t

theorem advance_le_succ (token : Text) (n : Nat) (c : Char) : advance token n c ≤ n + 1 := by
  unfold advance
  split
  · exact Nat.le_refl _
  · split <;> omega

theorem advance_le_length (token : Text) (n : Nat) (c : Char) :
    advance token n c ≤ token.length := by
  unfold advance
  split
  · next hnext => exact (List.getElem?_eq_some_iff.1 hnext).1
  · split
    · next hhead =>
      obtain ⟨rest, rfl⟩ := List.head?_eq_some_iff.1 hhead
      exact Nat.succ_pos _
    · exact Nat.zero_le _

theorem matched_le_length (token t : Text) : matched token t ≤ token.length := by
  rcases List.eq_nil_or_concat t with rfl | ⟨t, c, rfl⟩
  · exact Nat.zero_le _
  · rw [List.concat_eq_append, matched_concat]
    exact advance_le_length token _ c

/-- A cursor moves on by one character at a time. -/
theorem matched_append_le (token t u : Text) :
    matched token (t ++ u) ≤ matched token t + u.length := by
  induction u using List.reverseRecOn with
  | nil => rw [List.append_nil, List.length_nil, Nat.add_zero]
  | append_singleton u c ih =>
    have hstep := advance_le_succ token (matched token (t ++ u)) c
    rw [← List.append_assoc, matched_concat, List.length_append, List.length_singleton]
    omega

/-- What is matched is what was read last. -/
theorem take_matched_suffix (token t : Text) : token.take (matched token t) <:+ t := by
  induction t using List.reverseRecOn with
  | nil => exact List.suffix_refl _
  | append_singleton t c ih =>
    rw [matched_concat, advance]
    split
    · next hnext =>
      obtain ⟨front, hfront⟩ := ih
      refine ⟨front, ?_⟩
      rw [List.take_add_one, hnext, ← List.append_assoc, hfront]
      rfl
    · split
      · next hhead =>
        obtain ⟨rest, rfl⟩ := List.head?_eq_some_iff.1 hhead
        exact List.suffix_append t [c]
      · exact List.nil_suffix

theorem suffix_of_matched (h : matched token t = token.length) : token <:+ t := by
  have hsuffix := take_matched_suffix token t
  rwa [h, List.take_length] at hsuffix

/-- The token itself is followed all along. -/
theorem matched_take (h : n ≤ token.length) : matched token (token.take n) = n := by
  induction n with
  | zero => rfl
  | succ n ih =>
    have hnext : token[n]? = some token[n] := List.getElem?_eq_getElem h
    rw [List.take_add_one, hnext, Option.toList_some, matched_concat, ih (Nat.le_of_succ_le h),
      advance, if_pos hnext]

/-! ## Delimiters of which none is missed -/

/-- Each beginning of the delimiter that ends with its last character is an end of it too. -/
def Restarts (delimiter : Text) : Prop :=
  ∀ u, u <+: delimiter → u.getLast? = delimiter.getLast? → u <:+ delimiter

instance (delimiter : Text) : Decidable (Restarts delimiter) :=
  decidable_of_iff
    (∀ u ∈ delimiter.inits, u.getLast? = delimiter.getLast? → u <:+ delimiter)
    (by simp only [List.mem_inits, Restarts])

theorem restarts_reverse_iff :
    Restarts token.reverse ↔ ∀ u, u <:+ token → u.head? = token.head? → u <+: token := by
  constructor
  · intro h u hu hhead
    refine List.reverse_suffix.1 (h u.reverse (List.reverse_prefix.2 hu) ?_)
    rw [List.getLast?_reverse, List.getLast?_reverse, hhead]
  · intro h u hu hlast
    have hprefix := h u.reverse (by rwa [← List.reverse_prefix, List.reverse_reverse])
      (by rw [List.head?_reverse, hlast, List.getLast?_reverse])
    rwa [← List.reverse_suffix, List.reverse_reverse] at hprefix

/-- Where a beginning of the token ends within it, both go on with the same character. -/
theorem next_of_border (h : Restarts token.reverse) (hm : m < token.length) (hj : 0 < j)
    (hle : j ≤ m) (hborder : token.take j <:+ token.take m) : token[j]? = token[m]? := by
  have hsame : token.take j = (token.take m).drop (m - j) := by
    rw [List.suffix_iff_eq_drop.1 hborder, List.length_take_of_le (by omega),
      List.length_take_of_le (by omega)]
  have hhead : (token.drop (m - j)).head? = token.head? := by
    have hfirst := congrArg (·[0]?) hsame
    simp only [List.getElem?_drop, List.getElem?_take] at hfirst
    rw [if_pos hj, if_pos (by omega)] at hfirst
    rw [List.head?_drop, List.head?_eq_getElem?, hfirst, Nat.add_zero]
  obtain ⟨back, hback⟩ := restarts_reverse_iff.1 h _ (List.drop_suffix _ _) hhead
  calc token[j]? = (token.drop (m - j) ++ back)[j]? := by rw [hback]
    _ = (token.drop (m - j))[j]? :=
      List.getElem?_append_left (by rw [List.length_drop]; omega)
    _ = token[m]? := by rw [List.getElem?_drop, Nat.sub_add_cancel hle]

/-- Until the token is complete the cursor forgets none of its beginnings. -/
theorem le_matched (h : Restarts token.reverse)
    (hopen : ∀ k < t.length, matched token (t.take k) < token.length) (hn : n ≤ token.length)
    (hsuffix : token.take n <:+ t) : n ≤ matched token t := by
  induction t using List.reverseRecOn generalizing n with
  | nil =>
    have hlength := congrArg List.length (List.suffix_nil.1 hsuffix)
    rw [List.length_take_of_le hn] at hlength
    exact Nat.le_of_eq hlength
  | append_singleton t c ih =>
    cases n with
    | zero => exact Nat.zero_le _
    | succ j =>
    have hlast : token[j]? = some token[j] := List.getElem?_eq_getElem hn
    rw [List.take_add_one, hlast, Option.toList_some] at hsuffix
    obtain ⟨front, hfront⟩ := hsuffix
    rw [← List.append_assoc] at hfront
    obtain ⟨hbefore, hc⟩ := List.append_inj' hfront rfl
    obtain rfl : token[j] = c := by simpa using hc
    have hborder : token.take j <:+ t := ⟨front, hbefore⟩
    have hopen' : ∀ k < t.length + 1, matched token (t.take k) < token.length := by
      intro k hk
      have hshort := hopen k (by simpa using hk)
      rwa [List.take_append_of_le_length (by omega)] at hshort
    have hle : j ≤ matched token t :=
      ih (fun k hk => hopen' k (by omega)) (by omega) hborder
    have hm : matched token t < token.length := by
      have hwhole := hopen' t.length (by omega)
      rwa [List.take_length] at hwhole
    -- The cursor goes on, or there was nothing to go on with.
    have hgoes : j = 0 ∨ token[matched token t]? = some token[j] := by
      rcases Nat.eq_zero_or_pos j with hzero | hpos
      · exact .inl hzero
      · refine .inr ?_
        rw [← hlast]
        refine (next_of_border h hm hpos hle ?_).symm
        refine List.suffix_of_suffix_length_le hborder (take_matched_suffix token t) ?_
        rw [List.length_take_of_le (by omega), List.length_take_of_le (by omega)]
        exact hle
    rw [matched_concat, advance]
    split
    · omega
    · next hstops =>
      obtain rfl : j = 0 := hgoes.resolve_right hstops
      rw [if_pos (by rw [List.head?_eq_getElem?, hlast])]

/-- Where the token ends, the cursor has had all of it, there or before. -/
theorem exists_matched (h : Restarts token.reverse) (hn : token <:+ t.take n) :
    ∃ k ≤ n, matched token (t.take k) = token.length := by
  by_contra hnone
  push Not at hnone
  refine hnone n (Nat.le_refl n) (Nat.le_antisymm (matched_le_length _ _) ?_)
  refine le_matched h (fun k hk => ?_) (Nat.le_refl _) (by rwa [List.take_length])
  have hbefore : k ≤ n := by
    rw [List.length_take] at hk
    omega
  rw [List.take_take, Nat.min_eq_left hbefore]
  exact Nat.lt_of_le_of_ne (matched_le_length _ _) (hnone k hbefore)

/-- A text that does not go on as the token does parts from it at some first character. -/
theorem exists_parting {u : Text} (h : ¬ u <+: token) :
    ∃ j < u.length, u.take j = token.take j ∧ token[j]? ≠ u[j]? := by
  have hexists : ∃ j, j < u.length ∧ token[j]? ≠ u[j]? := by
    by_contra hnone
    push Not at hnone
    refine h (List.prefix_iff_getElem?.2 fun i hi => ?_)
    rw [hnone i hi, List.getElem?_eq_getElem hi]
  classical
  obtain ⟨hj, hdiffer⟩ := Nat.find_spec hexists
  refine ⟨Nat.find hexists, hj, List.ext_getElem? fun i => ?_, hdiffer⟩
  rw [List.getElem?_take, List.getElem?_take]
  split
  · next hi =>
    by_contra hne
    exact Nat.find_min hexists hi ⟨Nat.lt_trans hi hj, Ne.symm hne⟩
  · rfl

/-- Some delimiter is missed of which a beginning ends with the last character and is no end: it
stands behind that beginning, the walk goes on with the wrong one and keeps too little of it. -/
theorem exists_missed (h : ¬ Restarts token.reverse) :
    ∃ front, ∀ n, matched token ((front ++ token).take n) < token.length := by
  rw [restarts_reverse_iff] at h
  push Not at h
  obtain ⟨u, ⟨front, htoken⟩, hhead, hprefix⟩ := h
  obtain ⟨j, hj, hsame, hdiffer⟩ := exists_parting hprefix
  have hlength := congrArg List.length htoken
  rw [List.length_append] at hlength
  have hpos : 0 < j := by
    refine Nat.pos_of_ne_zero fun hzero => hdiffer ?_
    rw [hzero, ← List.head?_eq_getElem?, ← List.head?_eq_getElem?, hhead]
  have hinside : j < token.length := by omega
  -- As far as the cursor is misled, what it reads is the token once.
  have hread : front ++ token.take j = token.take (front.length + j) := by
    rw [← hsame, ← htoken, List.take_length_add_append]
  have hsplit : front ++ token =
      token.take (front.length + j) ++ [token[j]] ++ token.drop (j + 1) := by
    rw [← hread, List.append_assoc, List.append_assoc, List.singleton_append,
      ← List.drop_eq_getElem_cons hinside, List.take_append_drop]
  have hmisled : (token.take (front.length + j)).length = front.length + j :=
    List.length_take_of_le (by omega)
  refine ⟨front, fun n => ?_⟩
  rcases Nat.lt_or_ge (front.length + j) n with hbehind | hbefore
  · have hstop : token[front.length + j]? ≠ some token[j] := by
      rw [← List.getElem?_eq_getElem hinside, ← htoken, List.getElem?_append_right (by omega),
        Nat.add_sub_cancel_left, htoken]
      exact Ne.symm hdiffer
    have hkept : matched token (token.take (front.length + j) ++ [token[j]]) ≤ 1 := by
      rw [matched_concat, matched_take (by omega), advance, if_neg hstop]
      split <;> omega
    have hrest := matched_append_le token (token.take (front.length + j) ++ [token[j]])
      ((token.drop (j + 1)).take (n - (front.length + j + 1)))
    have hfew := List.length_take_le' (n - (front.length + j + 1)) (token.drop (j + 1))
    rw [List.length_drop] at hfew
    rw [hsplit, List.take_append, List.take_of_length_le (by simp [hmisled]; omega),
      List.length_append, hmisled, List.length_singleton]
    omega
  · rw [hsplit, List.append_assoc, List.take_append_of_le_length (by omega), List.take_take,
      Nat.min_eq_left hbefore, matched_take (by omega)]
    omega

/-! ## From the end of a text -/

/-- The walk backward from the end of the text comes upon the whole delimiter. -/
def Met (delimiter p : Text) : Prop :=
  ∃ n, matched delimiter.reverse (p.reverse.take n) = delimiter.length

/-- The opener stands in the text, and its last occurrence begins at or behind the beginning of
every occurrence of the closer. -/
def OpensLast (opener closer p : Text) : Prop :=
  ∃ n ≤ p.length, opener <+: p.drop n ∧ ∀ m ≤ p.length, closer <+: p.drop m → m ≤ n

instance (opener closer p : Text) : Decidable (OpensLast opener closer p) :=
  inferInstanceAs (Decidable (∃ n ≤ p.length, _ ∧ _))

/-- What ends a stretch of the text read backward begins where that stretch does. -/
theorem reverse_suffix_take_iff :
    delimiter.reverse <:+ p.reverse.take n ↔ delimiter <+: p.drop (p.length - n) := by
  rw [List.take_reverse, List.reverse_suffix]

theorem suffix_take_of_prefix_drop (hn : n ≤ p.length) (h : delimiter <+: p.drop n) :
    delimiter.reverse <:+ p.reverse.take (p.length - n) := by
  rwa [reverse_suffix_take_iff, Nat.sub_sub_self hn]

theorem infix_of_prefix_drop (h : delimiter <+: p.drop n) : delimiter <:+: p :=
  h.isInfix.trans (List.drop_suffix n p).isInfix

/-- No occurrence of the delimiter is missed in any text just if each beginning that ends with its
last character is an end of it. -/
theorem met_iff_infix_iff :
    (∀ p, Met delimiter p ↔ delimiter <:+: p) ↔ Restarts delimiter := by
  constructor
  · intro h
    by_contra hrestarts
    rw [← List.reverse_reverse delimiter] at hrestarts
    obtain ⟨front, hmissed⟩ := exists_missed hrestarts
    obtain ⟨n, hn⟩ := (h (delimiter ++ front.reverse)).2 (List.prefix_append _ _).isInfix
    have hshort := hmissed n
    rw [List.reverse_append, List.reverse_reverse] at hn
    rw [hn, List.length_reverse] at hshort
    exact Nat.lt_irrefl _ hshort
  · intro h p
    constructor
    · rintro ⟨n, hn⟩
      have hwhole : matched delimiter.reverse (p.reverse.take n) = delimiter.reverse.length := by
        rw [hn, List.length_reverse]
      exact infix_of_prefix_drop (reverse_suffix_take_iff.1 (suffix_of_matched hwhole))
    · rintro ⟨front, back, rfl⟩
      have hends : ∃ n, delimiter.reverse <:+ (front ++ delimiter ++ back).reverse.take n := by
        refine ⟨(delimiter ++ back).length, reverse_suffix_take_iff.2 ?_⟩
        rw [List.append_assoc, List.length_append, Nat.add_sub_cancel, List.drop_left]
        exact List.prefix_append delimiter back
      obtain ⟨n, hn⟩ := hends
      obtain ⟨k, -, hk⟩ := exists_matched (by rwa [List.reverse_reverse]) hn
      exact ⟨k, by rw [hk, List.length_reverse]⟩

example : ¬ Restarts "<!--".toList := by decide

/-! ## Both cursors -/

/-- The walk stops where a cursor has all of its token; if both have, the opener's counts. -/
theorem opensFirst_iff (front rest : Text) :
    opensFirst opener closer (matched opener front) (matched closer front) rest = true ↔
      ∃ n < rest.length, matched opener (front ++ rest.take (n + 1)) = opener.length ∧
        ∀ k < n, matched closer (front ++ rest.take (k + 1)) ≠ closer.length := by
  induction rest generalizing front with
  | nil => simp [opensFirst]
  | cons c rest ih =>
    have hnext : ∀ n, front ++ (c :: rest).take (n + 1) = front ++ [c] ++ rest.take n := fun n => by
      rw [List.take_succ_cons, List.append_assoc, List.singleton_append]
    have hone : front ++ (c :: rest).take 1 = front ++ [c] := by
      rw [List.take_succ_cons, List.take_zero]
    rw [opensFirst, ← matched_concat, ← matched_concat]
    dsimp only
    split
    · next hopened =>
      exact iff_of_true rfl ⟨0, Nat.succ_pos _, hone ▸ hopened, fun k hk => absurd hk (by omega)⟩
    next hopened =>
    split
    · next hclosed =>
      refine iff_of_false Bool.false_ne_true ?_
      rintro ⟨n, -, hn, hfirst⟩
      cases n with
      | zero => exact hopened (hone ▸ hn)
      | succ n => exact hfirst 0 (Nat.succ_pos n) (hone ▸ hclosed)
    next hclosed =>
    rw [ih]
    constructor
    · rintro ⟨n, hle, hn, hfirst⟩
      refine ⟨n + 1, Nat.succ_lt_succ hle, by rw [hnext, hn], fun k hk => ?_⟩
      cases k with
      | zero => exact hone ▸ hclosed
      | succ k =>
        rw [hnext]
        exact hfirst k (Nat.lt_of_succ_lt_succ hk)
    · rintro ⟨n, hle, hn, hfirst⟩
      cases n with
      | zero => exact absurd (hone ▸ hn) hopened
      | succ n =>
        refine ⟨n, Nat.lt_of_succ_lt_succ hle, by rw [← hnext, hn], fun k hk => ?_⟩
        rw [← hnext]
        exact hfirst (k + 1) (Nat.succ_lt_succ hk)

theorem startsInsideComment_iff_matched (hopener : opener ≠ []) (hcloser : closer ≠ []) (t : Text) :
    startsInsideComment t (some (opener, closer)) = true ↔
      ∃ n ≤ t.length, matched opener.reverse (t.take n) = opener.reverse.length ∧
        ∀ k < n, matched closer.reverse (t.take k) ≠ closer.reverse.length := by
  have hnothing : ∀ {token : Text}, token ≠ [] →
      matched token.reverse (t.take 0) ≠ token.reverse.length := by
    intro token htoken hwhole
    rw [List.length_reverse] at hwhole
    exact htoken (List.eq_nil_of_length_eq_zero hwhole.symm)
  have hwalk : startsInsideComment t (some (opener, closer)) = true ↔ _ := opensFirst_iff [] t
  simp only [List.nil_append] at hwalk
  rw [hwalk]
  constructor
  · rintro ⟨n, hn, hopened, hfirst⟩
    refine ⟨n + 1, hn, hopened, fun k hk => ?_⟩
    cases k with
    | zero => exact hnothing hcloser
    | succ k => exact hfirst k (Nat.lt_of_succ_lt_succ hk)
  · rintro ⟨n, hn, hopened, hfirst⟩
    cases n with
    | zero => exact absurd hopened (hnothing hopener)
    | succ n => exact ⟨n, hn, hopened, fun k hk => hfirst (k + 1) (Nat.succ_lt_succ hk)⟩

/-- The walk says which delimiter begins last in the text, if it misses none. -/
theorem startsInsideComment_iff_opensLast (hopener : opener ≠ []) (hcloser : closer ≠ [])
    (ho : Restarts opener) (hc : Restarts closer) (p : Text) :
    startsInsideComment p.reverse (some (opener, closer)) = true ↔ OpensLast opener closer p := by
  rw [← List.reverse_reverse opener] at ho
  rw [← List.reverse_reverse closer] at hc
  rw [startsInsideComment_iff_matched hopener hcloser]
  constructor
  · rintro ⟨n, hn, hopened, hfirst⟩
    rw [List.length_reverse] at hn
    refine ⟨p.length - n, Nat.sub_le _ _,
      reverse_suffix_take_iff.1 (suffix_of_matched hopened), fun m hm hcloses => ?_⟩
    by_contra hbehind
    obtain ⟨k, hk, hclosed⟩ := exists_matched hc (suffix_take_of_prefix_drop hm hcloses)
    exact hfirst k (by omega) hclosed
  · rintro ⟨m, hm, hopens, hlast⟩
    obtain ⟨n, hn, hopened⟩ := exists_matched ho (suffix_take_of_prefix_drop hm hopens)
    refine ⟨n, by rw [List.length_reverse]; omega, hopened, fun k hk hclosed => ?_⟩
    have hcloses := hlast _ (Nat.sub_le _ _)
      (reverse_suffix_take_iff.1 (suffix_of_matched hclosed))
    omega

/-- A delimiter is never missed in any text just if each of its beginnings that ends with its last
character is an end of it too.  If this holds of both, the walk backward says that the opener stands
in the text and begins last in it. -/
theorem nearest_delimiter (hopener : opener ≠ []) (hcloser : closer ≠ []) :
    (∀ delimiter ∈ [opener, closer],
      (∀ p, Met delimiter p ↔ delimiter <:+: p) ↔ Restarts delimiter) ∧
    (Restarts opener → Restarts closer → ∀ p,
      startsInsideComment p.reverse (some (opener, closer)) = true ↔ OpensLast opener closer p) :=
  ⟨fun _ _ => met_iff_infix_iff, startsInsideComment_iff_opensLast hopener hcloser⟩

/-- A comment that is open behind one that is closed. -/
theorem nearest_delimiter_slash :
    (['/', '*'] ≠ [] ∧ ['*', '/'] ≠ []) ∧ Restarts ['/', '*'] ∧ Restarts ['*', '/'] ∧
    startsInsideComment "/* x */ y /* *".toList.reverse (some (['/', '*'], ['*', '/'])) = true :=
  have hopener : Restarts ['/', '*'] := by decide
  have hcloser : Restarts ['*', '/'] := by decide
  ⟨⟨by decide, by decide⟩, hopener, hcloser,
    ((nearest_delimiter (by decide) (by decide)).2 hopener hcloser "/* x */ y /* *".toList).2
      (by decide)⟩

/-- Of the three dashes read backward the walk takes the first two for those of the opener, and
forgets the second one when the third is no exclamation mark. -/
theorem dashes_missed :
    OpensLast "<!--".toList "-->".toList "<!---".toList ∧
      startsInsideComment "<!---".toList.reverse (some ("<!--".toList, "-->".toList)) = false := by
  decide

end TextEditor.Highlight
