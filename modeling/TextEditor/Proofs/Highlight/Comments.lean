import Mathlib.Data.List.Chain
import Mathlib.Data.List.Infix
import TextEditor.Proofs.Highlight.Scanning

/-!
# Block comments from both sides

In a text without strings and line comments, a forward scan is followed character by character: it
is in code or in a comment, and what it has just read may or may not begin the next delimiter.  The
walk backward only sees which delimiter stands nearest to the end.  Both say the same unless that
delimiter begins with the character that completed another one.
-/

namespace TextEditor.Highlight

open Text

variable {p : Profile} {t : Text}

/-- Block comments have the usual delimiters, and no string or line comment begins anywhere. -/
structure OnlyComments (p : Profile) (t : Text) : Prop where
  block : p.blockComment = some (['/', '*'], ['*', '/'])
  quote : ¬ p.stringQuote <:+: t
  line : ∀ opener, p.lineComment = some opener → ¬ opener <:+: t

theorem OnlyComments.of_infix {u : Text} (h : OnlyComments p t) (hu : u <:+: t) :
    OnlyComments p u :=
  ⟨h.block, fun hquote => h.quote (hquote.trans hu),
    fun opener hopener hline => h.line opener hopener (hline.trans hu)⟩

/-- The loop stands at the opener of a block comment that nothing closes. -/
def Scan.Opens (p : Profile) (t : Text) (s : Scan) : Prop :=
  ∃ opener closer, p.blockComment = some (opener, closer) ∧ opener <+: t.drop s.offset ∧
    ¬ closer <:+: t.drop (s.offset + opener.length)

/-- The scan comes upon a block comment that it finds no closer for. -/
def LeavesOpen (p : Profile) (t : Text) : Prop :=
  ∃ rounds, (Scan.after p t false rounds).Opens p t

/-! ## Forward, one character at a time -/

/-- Where a scan is: in code, behind a slash that may begin a comment or not, or in a comment,
behind a star that may end it or not. -/
inductive Place where
  | code (slash : Bool)
  | comment (star : Bool)
  deriving DecidableEq

namespace Place

def next : Place → Char → Place
  | code slash, c => if slash && c = '*' then comment false else code (c = '/')
  | comment star, c => if star && c = '/' then code false else comment (c = '*')

def inside : Place → Bool
  | code _ => false
  | comment _ => true

/-- Where the scan is after some text. -/
def after (s : Place) (t : Text) : Place :=
  t.foldl next s

@[simp] theorem after_nil (s : Place) : s.after [] = s := rfl

@[simp] theorem after_cons (s : Place) (c : Char) (t : Text) :
    s.after (c :: t) = (s.next c).after t := rfl

theorem after_append (s : Place) (t u : Text) : s.after (t ++ u) = (s.after t).after u :=
  List.foldl_append

/-- A slash is forgotten unless a star follows. -/
theorem inside_code (h : t.head? ≠ some '*') (slash slash' : Bool) :
    ((code slash).after t).inside = ((code slash').after t).inside := by
  cases t with
  | nil => rfl
  | cons c rest =>
    have hc : c ≠ '*' := by simpa using h
    simp [next, hc]

/-- A star is forgotten unless a slash follows. -/
theorem inside_comment (h : t.head? ≠ some '/') (star star' : Bool) :
    ((comment star).after t).inside = ((comment star').after t).inside := by
  cases t with
  | nil => rfl
  | cons c rest =>
    have hc : c ≠ '/' := by simpa using h
    simp [next, hc]

theorem inside_comment_cons {c : Char} {rest : Text} (h : ¬ ['*', '/'] <+: c :: rest) :
    ((comment false).after (c :: rest)).inside = ((comment false).after rest).inside := by
  by_cases hc : c = '*'
  · subst hc
    refine inside_comment (fun hhead => h ?_) true false
    obtain ⟨rest, rfl⟩ := List.head?_eq_some_iff.1 hhead
    exact List.prefix_append ['*', '/'] rest
  · simp [next, hc]

theorem inside_code_cons {c : Char} {rest : Text} (h : ¬ ['/', '*'] <+: c :: rest) :
    ((code false).after (c :: rest)).inside = ((code false).after rest).inside := by
  by_cases hc : c = '/'
  · subst hc
    refine inside_code (fun hhead => h ?_) true false
    obtain ⟨rest, rfl⟩ := List.head?_eq_some_iff.1 hhead
    exact List.prefix_append ['/', '*'] rest
  · simp [next, hc]

/-- A comment goes on up to its first closer. -/
theorem inside_comment_of_closer {n : Nat} (h : ['*', '/'] <+: t.drop n)
    (hfirst : ∀ k < n, ¬ ['*', '/'] <+: t.drop k) :
    ((comment false).after t).inside = ((code false).after (t.drop (n + 2))).inside := by
  induction n generalizing t with
  | zero =>
    obtain ⟨rest, rfl⟩ := h
    rfl
  | succ n ih =>
    cases t with
    | nil => simp at h
    | cons c rest =>
      rw [inside_comment_cons (hfirst 0 (Nat.succ_pos n))]
      exact ih h fun k hk => hfirst (k + 1) (Nat.succ_lt_succ hk)

/-- A comment without a closer stays open. -/
theorem inside_comment_of_not_infix (h : ¬ ['*', '/'] <:+: t) :
    ((comment false).after t).inside = true := by
  induction t with
  | nil => rfl
  | cons c rest ih =>
    rw [inside_comment_cons fun hprefix => h hprefix.isInfix]
    exact ih fun hrest => h (List.infix_cons hrest)

end Place

/-! ## What the scan takes -/

/-- Only block comments are told apart. -/
theorem delimited?_of_onlyComments (h : OnlyComments p t) (offset : Nat) :
    delimited? p (t.drop offset) =
      (blockCommentLength? p (t.drop offset)).map fun length => (length, .comment) := by
  have hsuffix := (List.drop_suffix offset t).isInfix
  have hquote : p.stringQuote.isPrefixOf (t.drop offset) = false := by
    rw [Bool.eq_false_iff, ne_eq, List.isPrefixOf_iff_prefix]
    exact fun hquote => h.quote (hquote.isInfix.trans hsuffix)
  have hline : lineCommentLength? p (t.drop offset) = none := by
    unfold lineCommentLength?
    split
    · rfl
    · next opener hopener =>
      rw [if_neg]
      rw [List.isPrefixOf_iff_prefix]
      exact fun hopens => h.line opener hopener (hopens.isInfix.trans hsuffix)
  unfold delimited?
  cases blockCommentLength? p (t.drop offset) with
  | some length => rfl
  | none => simp [hquote, hline]

namespace Scan

variable {s : Scan}

/-- Outside of comments from before the text, the loop goes over what a delimiter opens or over one
character. -/
theorem step_of_code (hs : s.inside = false) (hlt : s.offset < t.length) :
    (s.step p t).inside = false ∧
      (s.step p t).offset =
        s.offset + ((delimited? p (t.drop s.offset)).map Prod.fst).getD 1 := by
  obtain ⟨hend, -⟩ | ⟨c, rest, hrest, hcase⟩ := step_cases p t s
  · exact absurd (List.drop_eq_nil_iff.1 hend) (by omega)
  rw [hrest]
  obtain ⟨hinside, -⟩ | ⟨hinside, -⟩ | ⟨-, length, category, hopened, hstep⟩ |
    ⟨-, hopened, -, hstep⟩ | ⟨-, hopened, -, hstep⟩ := hcase
  · simp [hs] at hinside
  · simp [hs] at hinside
  all_goals rw [hstep, hopened]; exact ⟨hs, rfl⟩

theorem offset_step_of_opener (h : OnlyComments p t) (hs : s.inside = false) {rest : Text}
    (hrest : t.drop s.offset = '/' :: '*' :: rest) {n : Nat}
    (hfound : findFrom ['*', '/'] rest 2 = some (2 + n)) :
    (s.step p t).offset = s.offset + 2 + (n + 2) := by
  have hlt : s.offset < t.length := by
    rw [← List.drop_eq_nil_iff.not.trans Nat.not_le, hrest]
    exact List.cons_ne_nil _ _
  rw [(step_of_code hs hlt).2, delimited?_of_onlyComments h, hrest, blockCommentLength?, h.block]
  simp [List.isPrefixOf, hfound]
  omega

theorem offset_step_of_not_opener (h : OnlyComments p t) (hs : s.inside = false)
    (hlt : s.offset < t.length) (hopener : ¬ ['/', '*'] <+: t.drop s.offset) :
    (s.step p t).offset = s.offset + 1 := by
  have hnone : blockCommentLength? p (t.drop s.offset) = none := by
    rw [blockCommentLength?, h.block]
    exact if_neg fun hprefix => hopener (List.isPrefixOf_iff_prefix.1 hprefix)
  rw [(step_of_code hs hlt).2, delimited?_of_onlyComments h, hnone]
  rfl

theorem opens_iff (h : OnlyComments p t) :
    s.Opens p t ↔ ['/', '*'] <+: t.drop s.offset ∧ ¬ ['*', '/'] <:+: t.drop (s.offset + 2) := by
  rw [Opens, h.block]
  constructor
  · rintro ⟨opener, closer, ⟨⟩, hopens⟩
    exact hopens
  · exact fun hopens => ⟨_, _, rfl, hopens⟩

/-- Where no comment stays open the loop moves on, and what is left of the text says all. -/
theorem inside_after_step (h : OnlyComments p t) (hs : s.inside = false)
    (hlt : s.offset < t.length) (hopen : ¬ s.Opens p t) :
    s.offset < (s.step p t).offset ∧
      ((Place.code false).after (t.drop (s.step p t).offset)).inside =
        ((Place.code false).after (t.drop s.offset)).inside := by
  by_cases hopener : ['/', '*'] <+: t.drop s.offset
  · obtain ⟨rest, hrest⟩ := hopener
    have hbody : t.drop (s.offset + 2) = rest := by
      rw [← List.drop_drop, ← hrest]
      rfl
    have hclosed : ['*', '/'] <:+: t.drop (s.offset + 2) := by_contra fun hcloser =>
      hopen ((opens_iff h).2 ⟨⟨rest, hrest⟩, hcloser⟩)
    obtain ⟨found, hfound⟩ := exists_findFrom hclosed 2
    obtain ⟨n, -, rfl, hcloser, hfirst⟩ := findFrom_eq_some_iff.1 hfound
    rw [hbody] at hfound hcloser hfirst
    rw [offset_step_of_opener h hs hrest.symm hfound, ← List.drop_drop, hbody, ← hrest]
    exact ⟨by omega, (Place.inside_comment_of_closer hcloser hfirst).symm⟩
  · rw [offset_step_of_not_opener h hs hlt hopener]
    obtain ⟨c, rest, hrest⟩ := List.exists_cons_of_ne_nil fun hnil =>
      Nat.not_le.2 hlt (List.drop_eq_nil_iff.1 hnil)
    rw [drop_offset_succ hrest, hrest]
    rw [hrest] at hopener
    exact ⟨Nat.lt_succ_self _, (Place.inside_code_cons hopener).symm⟩

/-- From where the loop stands, it comes upon a comment that nothing closes just if the text that is
left leads into a comment. -/
theorem exists_opens_iff (h : OnlyComments p t) (hs : s.inside = false) :
    (∃ rounds, ((step p t)^[rounds] s).Opens p t) ↔
      ((Place.code false).after (t.drop s.offset)).inside = true := by
  induction hleft : t.length - s.offset using Nat.strongRecOn generalizing s with
  | ind left ih =>
    subst hleft
    rcases Nat.lt_or_ge s.offset t.length with hlt | hge
    · by_cases hopen : s.Opens p t
      · refine iff_of_true ⟨0, hopen⟩ ?_
        obtain ⟨⟨behind, hbehind⟩, hcloser⟩ := (opens_iff h).1 hopen
        rw [← List.drop_drop, ← hbehind] at hcloser
        rw [← hbehind]
        exact Place.inside_comment_of_not_infix hcloser
      · obtain ⟨hmoves, hsame⟩ := inside_after_step h hs hlt hopen
        rw [← hsame, ← ih _ (by omega) (step_of_code hs hlt).1 rfl]
        constructor
        · rintro ⟨rounds, hrounds⟩
          cases rounds with
          | zero => exact absurd hrounds hopen
          | succ rounds => exact ⟨rounds, hrounds⟩
        · rintro ⟨rounds, hrounds⟩
          exact ⟨rounds + 1, hrounds⟩
    · have hstay : ∀ rounds, (step p t)^[rounds] s = s := fun rounds =>
        Function.iterate_fixed (step_of_length_le hge) rounds
      have hnil := List.drop_eq_nil_iff.2 hge
      simp [hstay, opens_iff h, hnil, Place.inside]

end Scan

theorem leavesOpen_iff (h : OnlyComments p t) :
    LeavesOpen p t ↔ ((Place.code false).after t).inside = true := by
  have hscan := Scan.exists_opens_iff h (s := Scan.start false) rfl
  rwa [Scan.start, List.drop_zero] at hscan

/-! ## Backward from the end -/

/-- Whether two neighbouring characters open or close a comment. -/
def IsDelimiter (x y : Char) : Prop :=
  x = '/' ∧ y = '*' ∨ x = '*' ∧ y = '/'

/-- No comment is opened or closed in it. -/
def Clear (t : Text) : Prop :=
  t.IsChain fun x y => ¬ IsDelimiter x y

/-- The last delimiter of a text, with what is ahead of it and behind it. -/
structure LastDelimiter (t a : Text) (x y : Char) (b : Text) : Prop where
  text : t = a ++ x :: y :: b
  delimiter : IsDelimiter x y
  clear : Clear (y :: b)

theorem LastDelimiter.not_clear {a b : Text} {x y : Char} (h : LastDelimiter t a x y b) :
    ¬ Clear t := by
  intro hclear
  rw [h.text] at hclear
  obtain ⟨-, hpair, -⟩ := List.isChain_append.1 hclear
  exact (List.isChain_cons_cons.1 hpair).1 h.delimiter

theorem clear_or_lastDelimiter (t : Text) : Clear t ∨ ∃ a x y b, LastDelimiter t a x y b := by
  induction t with
  | nil => exact .inl .nil
  | cons c rest ih =>
    obtain hclear | ⟨a, x, y, b, hlast⟩ := ih
    · cases rest with
      | nil => exact .inl (.singleton c)
      | cons d rest =>
        by_cases hdelimiter : IsDelimiter c d
        · exact .inr ⟨[], c, d, rest, rfl, hdelimiter, hclear⟩
        · exact .inl (.cons_cons hdelimiter hclear)
    · exact .inr ⟨c :: a, x, y, b, by rw [hlast.text, List.cons_append], hlast.delimiter,
        hlast.clear⟩

/-- Of a delimiter of two characters as much is matched as ends with the character read last. -/
theorem advance_pair (first second y x : Char) :
    advance [first, second] (if y = first then 1 else 0) x =
      if y = first ∧ x = second then 2 else if x = first then 1 else 0 := by
  by_cases hy : y = first
  · by_cases hx : x = second
    · simp [advance, hy, hx]
    · simp [advance, hy, hx, Ne.symm hx, eq_comm]
  · by_cases hx : x = first
    · simp [advance, hy, hx]
    · simp [advance, hy, hx, Ne.symm hx]

/-- The backward walk ahead of a character, all but which is forgotten. -/
def walk (y : Char) (rest : Text) : Bool :=
  opensFirst ['*', '/'] ['/', '*'] (if y = '*' then 1 else 0) (if y = '/' then 1 else 0) rest

theorem startsInsideComment_cons (y : Char) (rest : Text) :
    startsInsideComment (y :: rest) (some (['/', '*'], ['*', '/'])) = walk y rest := by
  have hopener := advance_pair '*' '/' ' ' y
  have hcloser := advance_pair '/' '*' ' ' y
  rw [if_neg (by decide), if_neg (fun h => absurd h.1 (by decide))] at hopener hcloser
  change opensFirst ['*', '/'] ['/', '*'] 0 0 (y :: rest) = walk y rest
  rw [opensFirst, hopener, hcloser, walk]
  by_cases hstar : y = '*' <;> by_cases hslash : y = '/' <;> simp [hstar, hslash]

/-- Two characters decide if they are a delimiter; else the one nearer to the end is forgotten. -/
theorem walk_cons (x y : Char) (rest : Text) :
    walk y (x :: rest) =
      if y = '*' ∧ x = '/' then true else if y = '/' ∧ x = '*' then false else walk x rest := by
  rw [walk, opensFirst, advance_pair, advance_pair]
  by_cases hopener : y = '*' ∧ x = '/'
  · simp [hopener]
  · by_cases hcloser : y = '/' ∧ x = '*'
    · simp [hcloser]
    · rw [if_neg hopener, if_neg hcloser, if_neg hopener, if_neg hcloser, walk]
      by_cases hstar : x = '*' <;> by_cases hslash : x = '/' <;> simp [hstar, hslash]

/-- Behind a delimiter nothing changes. -/
theorem startsInsideComment_append_of_clear (front : Text) (c : Char) {u : Text}
    (h : Clear (c :: u)) :
    startsInsideComment (front ++ c :: u).reverse (some (['/', '*'], ['*', '/'])) =
      walk c front.reverse := by
  induction u using List.reverseRecOn with
  | nil => rw [List.reverse_append, List.reverse_singleton, List.singleton_append,
      startsInsideComment_cons]
  | append_singleton u y ih =>
    obtain ⟨hleft, -, hpair⟩ := List.isChain_append.1 (List.cons_append ▸ h)
    obtain ⟨rest, x, hrest⟩ := (List.eq_nil_or_concat' (c :: u)).resolve_left (List.cons_ne_nil c u)
    have hxy : ¬ IsDelimiter x y := hpair x (by simp [hrest]) y rfl
    rw [← ih hleft, ← List.cons_append, hrest, ← List.append_assoc, ← List.append_assoc,
      List.reverse_concat, List.reverse_concat, startsInsideComment_cons, walk_cons,
      startsInsideComment_cons, if_neg fun hopener => hxy (.inl hopener.symm),
      if_neg fun hcloser => hxy (.inr hcloser.symm)]

theorem startsInsideComment_of_clear (h : Clear t) :
    startsInsideComment t.reverse (some (['/', '*'], ['*', '/'])) = false := by
  cases t with
  | nil => rfl
  | cons c rest =>
    have hwalk := startsInsideComment_append_of_clear [] c h
    rw [List.nil_append] at hwalk
    rw [hwalk]
    rfl

/-- The walk stops at the last delimiter. -/
theorem startsInsideComment_of_last {a b : Text} {x y : Char} (h : LastDelimiter t a x y b) :
    startsInsideComment t.reverse (some (['/', '*'], ['*', '/'])) = decide (x = '/') := by
  have hwalk := startsInsideComment_append_of_clear (a ++ [x]) y h.clear
  rw [List.append_assoc, List.singleton_append, ← h.text] at hwalk
  rw [hwalk, List.reverse_append, List.reverse_singleton, List.singleton_append, walk_cons]
  obtain ⟨rfl, rfl⟩ | ⟨rfl, rfl⟩ := h.delimiter <;> rfl

/-! ## Both -/

namespace Place

/-- Only a delimiter leads into a comment or out of one. -/
theorem inside_next_next {c d : Char} (h : ¬ IsDelimiter c d) (s : Place) :
    ((s.next c).next d).inside = (s.next c).inside := by
  by_cases hslash : c = '/'
  · have hd : d ≠ '*' := fun hd => h (.inl ⟨hslash, hd⟩)
    cases s with
    | code slash => simp [next, hslash, hd, inside]
    | comment star => cases star <;> simp [next, hslash, hd, inside]
  · by_cases hstar : c = '*'
    · have hd : d ≠ '/' := fun hd => h (.inr ⟨hstar, hd⟩)
      cases s with
      | code slash => cases slash <;> simp [next, hstar, hd, inside]
      | comment star => simp [next, hstar, hd, inside]
    · cases s <;> simp [next, hslash, hstar, inside]

theorem inside_after_of_clear {c : Char} {u : Text} (h : Clear (c :: u)) (s : Place) :
    ((s.next c).after u).inside = (s.next c).inside := by
  induction u generalizing c s with
  | nil => rfl
  | cons d rest ih =>
    obtain ⟨hpair, hrest⟩ := List.isChain_cons_cons.1 h
    rw [after_cons, ih hrest, inside_next_next hpair]

/-- The last delimiter does what it says, unless its first character has done something else. -/
theorem inside_eq_iff {x y : Char} (h : IsDelimiter x y) (s : Place) :
    (decide (x = '/') = ((s.next x).next y).inside) ↔ s.inside = (s.next x).inside := by
  obtain ⟨rfl, rfl⟩ | ⟨rfl, rfl⟩ := h
  · rcases s with (_ | _) | (_ | _) <;> decide
  · rcases s with (_ | _) | (_ | _) <;> decide

end Place

/-- The last delimiter begins with the character with which the scan came into a comment or out of
one. -/
def Straddled (p : Profile) (t : Text) : Prop :=
  ∃ a x y b, LastDelimiter t a x y b ∧ ¬ (LeavesOpen p a ↔ LeavesOpen p (a ++ [x]))

/-- With a last delimiter, both sides agree just if it does not begin with the end of another. -/
theorem startsInsideComment_iff_of_last (h : OnlyComments p t) {a b : Text} {x y : Char}
    (hlast : LastDelimiter t a x y b) :
    (startsInsideComment t.reverse p.blockComment = true ↔ LeavesOpen p t) ↔
      (LeavesOpen p a ↔ LeavesOpen p (a ++ [x])) := by
  have ha : a <:+: t := ⟨[], x :: y :: b, by rw [hlast.text, List.nil_append]⟩
  have hax : a ++ [x] <:+: t := ⟨[], y :: b, by rw [hlast.text]; simp⟩
  have hinside : ((Place.code false).after t).inside =
      ((((Place.code false).after a).next x).next y).inside := by
    rw [hlast.text, Place.after_append, Place.after_cons, Place.after_cons,
      Place.inside_after_of_clear hlast.clear]
  rw [leavesOpen_iff h, leavesOpen_iff (h.of_infix ha), leavesOpen_iff (h.of_infix hax), h.block,
    startsInsideComment_of_last hlast, hinside, Place.after_append, ← Bool.eq_iff_iff,
    ← Bool.eq_iff_iff]
  exact Place.inside_eq_iff hlast.delimiter _

theorem agree_of_clear (h : OnlyComments p t) (hclear : Clear t) :
    startsInsideComment t.reverse p.blockComment = true ↔ LeavesOpen p t := by
  rw [leavesOpen_iff h, h.block, startsInsideComment_of_clear hclear]
  cases t with
  | nil => decide
  | cons c rest =>
    have hinside : ((Place.code false).next c).inside = false := by simp [Place.next, Place.inside]
    rw [Place.after_cons, Place.inside_after_of_clear hclear, hinside]

/-- The walk backward says what the scan says, unless the delimiter nearest to the end begins with
the character that completed another one. -/
theorem agree_iff (h : OnlyComments p t) :
    (startsInsideComment t.reverse p.blockComment = true ↔ LeavesOpen p t) ↔
      ¬ Straddled p t := by
  obtain hclear | ⟨a, x, y, b, hlast⟩ := clear_or_lastDelimiter t
  · refine iff_of_true (agree_of_clear h hclear) ?_
    rintro ⟨a, x, y, b, hlast, -⟩
    exact hlast.not_clear hclear
  · constructor
    · rintro hagree ⟨a, x, y, b, hlast, hdiffer⟩
      exact hdiffer ((startsInsideComment_iff_of_last h hlast).1 hagree)
    · intro hstraddled
      rw [startsInsideComment_iff_of_last h hlast]
      exact not_not.1 fun hdiffer => hstraddled ⟨a, x, y, b, hlast, hdiffer⟩

end TextEditor.Highlight
