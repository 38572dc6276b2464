import Mathlib.Order.Bounds.Basic
import TextEditor.Proofs.Buffer.Stops

/-!
# Motion by words

A boundary lies between two characters of different kinds, or at an end of the text.  Between two
neighbouring boundaries all characters are of one kind.  Both motions find the next boundary from a
stretch of one kind that holds the offset: to the right the run that begins there, to the left the
step that is taken first, which is one character or a pair, and the run behind it.
-/

namespace TextEditor

namespace CharKind

variable {kind : CharKind} {t : Text} {i : Nat} {c : Char}

theorem kind_of_lt_runLength (hi : i < runLength kind t) (hc : t[i]? = some c) :
    ofChar c = kind := by
  induction t generalizing i with
  | nil => cases hc
  | cons e rest ih =>
    by_cases he : ofChar e = kind
    · cases i with
      | zero => exact Option.some.inj hc ▸ he
      | succ i =>
        simp only [runLength, List.takeWhile_cons, he, decide_true, if_true,
          List.length_cons] at hi
        exact ih (Nat.lt_of_succ_lt_succ hi) hc
    · simp only [runLength, List.takeWhile_cons, he, decide_false] at hi
      cases hi

theorem kind_at_runLength (hc : t[runLength kind t]? = some c) : ofChar c ≠ kind := by
  induction t with
  | nil => cases hc
  | cons e rest ih =>
    by_cases he : ofChar e = kind
    · simp only [runLength, List.takeWhile_cons, he, decide_true, if_true, List.length_cons,
        List.getElem?_cons_succ] at hc
      exact ih hc
    · simp only [runLength, List.takeWhile_cons, he, decide_false] at hc
      exact Option.some.inj hc ▸ he

theorem runLength_le_length (kind : CharKind) (t : Text) : runLength kind t ≤ t.length :=
  (List.takeWhile_sublist _).length_le

end CharKind

namespace Text

/-- An end of the text, or an offset between two characters of different kinds. -/
def Boundary (t : Text) (o : Nat) : Prop :=
  o = 0 ∨ o = t.length ∨
    ∃ k c e, o = k + 1 ∧ t[k]? = some c ∧ t[k + 1]? = some e ∧
      CharKind.ofChar c ≠ CharKind.ofChar e

/-- The characters between two offsets are all of one kind. -/
def Uniform (t : Text) (kind : CharKind) (start stop : Nat) : Prop :=
  ∀ k c, start ≤ k → k < stop → t[k]? = some c → CharKind.ofChar c = kind

variable {t : Text} {kind : CharKind} {start stop o k : Nat}

/-- No boundary is inside a pair, whose characters are both line breaks. -/
theorem Boundary.mem_stops (h : t.Boundary o) : o ∈ t.stops := by
  have hbreaks : CharKind.ofChar '\r' = CharKind.ofChar '\n' := by decide
  rcases h with rfl | rfl | ⟨k, c, e, rfl, hc, he, hne⟩
  · exact List.mem_of_getElem? (stops_zero t)
  · exact List.mem_of_getElem? (stops_last t)
  · have hinside : k + 1 < t.length := (List.getElem?_eq_some_iff.1 he).1
    refine Text.mem_stops.2 ⟨Nat.le_of_lt hinside, fun k' hk hpair => hne ?_⟩
    obtain rfl : k = k' := Nat.succ.inj hk
    obtain rfl : c = '\r' := Option.some.inj (hc.symm.trans hpair.1)
    obtain rfl : e = '\n' := Option.some.inj (he.symm.trans hpair.2)
    exact hbreaks

theorem Uniform.not_boundary (h : t.Uniform kind start stop) (hstop : stop ≤ t.length)
    (hstart : start < o) (hless : o < stop) : ¬ t.Boundary o := by
  rintro (rfl | rfl | ⟨k, c, e, rfl, hc, he, hne⟩)
  · omega
  · omega
  · have hfirst : CharKind.ofChar c = kind := h k c (by omega) (by omega) hc
    have hsecond : CharKind.ofChar e = kind := h (k + 1) e (by omega) hless he
    exact hne (hfirst.trans hsecond.symm)

/-- Where a stretch of one kind cannot be made longer to the right is a boundary. -/
theorem Uniform.boundary_stop (h : t.Uniform kind start stop) (hless : start < stop)
    (hstop : stop ≤ t.length) (hend : ∀ c, t[stop]? = some c → CharKind.ofChar c ≠ kind) :
    t.Boundary stop := by
  rcases Nat.lt_or_eq_of_le hstop with hinside | hlast
  · right; right
    obtain ⟨k, rfl⟩ := Nat.exists_eq_succ_of_ne_zero (Nat.ne_zero_of_lt hless)
    have hc : t[k]? = some t[k] := List.getElem?_eq_getElem (by omega)
    have he : t[k + 1]? = some t[k + 1] := List.getElem?_eq_getElem hinside
    have hkind := h k _ (by omega) (Nat.lt_succ_self k) hc
    exact ⟨k, _, _, rfl, hc, he, fun heq => hend _ he (heq.symm.trans hkind)⟩
  · exact .inr (.inl hlast)

/-- Where a stretch of one kind cannot be made longer to the left is a boundary. -/
theorem Uniform.boundary_start (h : t.Uniform kind start stop) (hless : start < stop)
    (hstop : stop ≤ t.length)
    (hend : ∀ k c, start = k + 1 → t[k]? = some c → CharKind.ofChar c ≠ kind) :
    t.Boundary start := by
  cases start with
  | zero => exact .inl rfl
  | succ k =>
    right; right
    have hc : t[k]? = some t[k] := List.getElem?_eq_getElem (by omega)
    have he : t[k + 1]? = some t[k + 1] := List.getElem?_eq_getElem (by omega)
    have hkind := h (k + 1) _ (Nat.le_refl _) hless he
    exact ⟨k, _, _, rfl, hc, he, fun heq => hend k _ rfl hc (heq.trans hkind)⟩

/-- The boundary before the one that is next to a boundary is this one. -/
theorem isGreatest_of_isLeast {p : Nat} (hboundary : t.Boundary o)
    (hnext : IsLeast {q | t.Boundary q ∧ o < q} p) : IsGreatest {q | t.Boundary q ∧ q < p} o := by
  refine ⟨⟨hboundary, hnext.1.2⟩, fun q hq => ?_⟩
  by_contra hmore
  have hle : p ≤ q := hnext.2 ⟨hq.1, Nat.lt_of_not_le hmore⟩
  exact absurd hq.2 (Nat.not_lt.2 hle)

theorem isLeast_of_isGreatest {p : Nat} (hboundary : t.Boundary o)
    (hlast : IsGreatest {q | t.Boundary q ∧ q < o} p) : IsLeast {q | t.Boundary q ∧ p < q} o := by
  refine ⟨⟨hboundary, hlast.1.2⟩, fun q hq => ?_⟩
  by_contra hless
  have hle : q ≤ p := hlast.2 ⟨hq.1, Nat.lt_of_not_le hless⟩
  exact absurd hq.2 (Nat.not_lt.2 hle)

end Text

namespace Document

variable {d : Document} {o : Nat}

/-! ## Words -/

/-- To the right the run that begins at the offset ends at the next boundary. -/
theorem isLeast_wordRight (ho : o < d.text.length) :
    ∃ p : Nat, d.wordRight o = p ∧ IsLeast {q | d.text.Boundary q ∧ o < q} p := by
  have hclamp : d.clamp o = o := clamp_of_le (Nat.le_of_lt ho)
  have hfirst : d.text.drop o = d.text[o] :: d.text.drop (o + 1) := List.drop_eq_getElem_cons ho
  have hpos := CharKind.leadingRun_pos (hfirst ▸ List.cons_ne_nil _ _ : d.text.drop o ≠ [])
  have hrun : CharKind.leadingRun (d.text.drop o) =
      CharKind.runLength (CharKind.ofChar d.text[o]) (d.text.drop o) := by
    rw [hfirst, CharKind.leadingRun]
  generalize CharKind.ofChar d.text[o] = kind at hrun
  have hle := CharKind.leadingRun_le_length (d.text.drop o)
  rw [List.length_drop] at hle
  refine ⟨o + CharKind.leadingRun (d.text.drop o), by rw [wordRight, charsFrom, hclamp]; rfl, ?_⟩
  generalize CharKind.leadingRun (d.text.drop o) = run at hpos hrun hle
  have huniform : d.text.Uniform kind o (o + run) := by
    intro k c hlow hhigh hc
    have hindex : (d.text.drop o)[k - o]? = some c := by
      rw [List.getElem?_drop, Nat.add_sub_cancel' hlow, hc]
    exact CharKind.kind_of_lt_runLength (by omega) hindex
  have hend : ∀ c, d.text[o + run]? = some c → CharKind.ofChar c ≠ kind := by
    intro c hc
    rw [← List.getElem?_drop, hrun] at hc
    exact CharKind.kind_at_runLength hc
  refine ⟨⟨huniform.boundary_stop (by omega) (by omega) hend, by omega⟩, ?_⟩
  rintro q ⟨hq, hbehind⟩
  by_contra hless
  exact huniform.not_boundary (by omega) hbehind (by omega) hq

/-- What a step to the left passes is of one kind: one character, or a pair of line breaks. -/
theorem uniform_stepLeft (hpos : 0 < o) (ho : o ≤ d.text.length) :
    ∃ (s : Nat) (c : Char), d.stepLeft o = s ∧ s < o ∧ d.text[s]? = some c ∧
      d.text.Uniform (CharKind.ofChar c) s o := by
  have hslice := slice_eq_pair_iff d ((o : Int) - 2)
  rw [Int.sub_add_cancel] at hslice
  rw [stepLeft, if_neg (by omega)]
  by_cases hfound : d.slice ((o : Int) - 2) o = ['\r', '\n']
  · obtain ⟨k, hk, hreturn, hfeed⟩ := hslice.1 hfound
    have hbreaks : CharKind.ofChar '\n' = CharKind.ofChar '\r' := by decide
    rw [if_pos hfound]
    refine ⟨k, '\r', hk, by omega, hreturn, fun j c hlow hhigh hc => ?_⟩
    obtain rfl | rfl : j = k ∨ j = k + 1 := by omega
    · rw [Option.some.inj (hreturn.symm.trans hc)]
    · rw [← hbreaks, Option.some.inj (hfeed.symm.trans hc)]
  · have hc : d.text[o - 1]? = some d.text[o - 1] := List.getElem?_eq_getElem (by omega)
    rw [if_neg hfound]
    refine ⟨o - 1, _, by omega, by omega, hc, fun j c hlow hhigh hj => ?_⟩
    obtain rfl : j = o - 1 := by omega
    rw [Option.some.inj (hc.symm.trans hj)]

/-- To the left the step and the run behind it begin at the boundary before. -/
theorem isGreatest_wordLeft (hpos : 0 < o) (ho : o ≤ d.text.length) :
    ∃ p : Nat, d.wordLeft o = p ∧ IsGreatest {q | d.text.Boundary q ∧ q < o} p := by
  obtain ⟨s, c, hstep, hless, hc, hpassed⟩ := uniform_stepLeft hpos ho
  generalize hkind : CharKind.ofChar c = kind at hpassed
  have hclamp : d.clamp s = s := clamp_of_le (by simp only [length]; omega)
  have hlength : (d.text.take s).reverse.length = s := by
    rw [List.length_reverse, List.length_take_of_le (by omega)]
  have hle := CharKind.runLength_le_length kind (d.text.take s).reverse
  rw [hlength] at hle
  have hback : ∀ k, k < s → (d.text.take s).reverse[s - 1 - k]? = d.text[k]? := by
    intro k hk
    rw [List.getElem?_reverse (by rw [List.length_take]; omega), List.length_take_of_le (by omega),
      List.getElem?_take_of_lt (by omega)]
    congr 1
    omega
  have hword : d.wordLeft o = (s - CharKind.runLength kind (d.text.take s).reverse : Nat) := by
    have hkindAt : CharKind.ofChar? (d.charAt? s) = kind := by
      rw [charAt?, if_neg (by omega), Int.toNat_natCast, hc, ← hkind]
      rfl
    simp only [wordLeft, hstep, charsBefore, hclamp, hkindAt]
    rw [if_neg (by omega)]
    omega
  refine ⟨_, hword, ?_⟩
  generalize hrun : CharKind.runLength kind (d.text.take s).reverse = run at hle
  have huniform : d.text.Uniform kind (s - run) o := by
    intro k e hlow hhigh he
    rcases Nat.lt_or_ge k s with hbefore | hpast
    · rw [← hback k hbefore] at he
      exact CharKind.kind_of_lt_runLength (by omega) he
    · exact hpassed k e hpast hhigh he
  have hend : ∀ k e, s - run = k + 1 → d.text[k]? = some e → CharKind.ofChar e ≠ kind := by
    intro k e hk he
    have hindex : s - 1 - k = CharKind.runLength kind (d.text.take s).reverse := by omega
    rw [← hback k (by omega), hindex] at he
    exact CharKind.kind_at_runLength he
  refine ⟨⟨huniform.boundary_start (by omega) ho hend, by omega⟩, ?_⟩
  rintro q ⟨hq, hbefore⟩
  by_contra hmore
  exact huniform.not_boundary ho (by omega) hbefore hq

/-- One step of a walk, also if it leads nowhere. -/
theorem walk_one (step : Int → Int) (offset : Int) : walk step 1 offset = step offset := by
  simp only [walk]
  split
  · next h => exact h.symm
  · rfl

end Document

namespace Buffer

variable {b : Buffer} {o : Nat}

/-- One word leaves the caret at the stop where it ends. -/
theorem absolute_moveWord_stop {word : Int → Int} {p : Nat} (hcaret : b.caret.absolute = o)
    (hword : word o = p) (hp : p ∈ b.text.stops) (extending : Bool) :
    (b.moveSteps word 1 extending).reconcile.caret.absolute = p :=
  absolute_moveSteps_stop hcaret ((Document.walk_one word o).trans hword) hp extending

theorem absolute_move_rightWord (hcaret : b.caret.absolute = o) (ho : o < b.text.length)
    (extending : Bool) :
    ∃ p : Nat, (b.move .rightWord 1 extending).caret.absolute = p ∧
      IsLeast {q | b.text.Boundary q ∧ o < q} p := by
  obtain ⟨p, hword, hleast⟩ := Document.isLeast_wordRight ho
  exact ⟨p, absolute_moveWord_stop hcaret hword (Text.Boundary.mem_stops hleast.1.1) extending,
    hleast⟩

theorem absolute_move_leftWord (hcaret : b.caret.absolute = o) (hpos : 0 < o)
    (ho : o ≤ b.text.length) (extending : Bool) :
    ∃ p : Nat, (b.move .leftWord 1 extending).caret.absolute = p ∧
      IsGreatest {q | b.text.Boundary q ∧ q < o} p := by
  obtain ⟨p, hword, hgreatest⟩ := Document.isGreatest_wordLeft hpos ho
  exact ⟨p, absolute_moveWord_stop hcaret hword (Text.Boundary.mem_stops hgreatest.1.1) extending,
    hgreatest⟩

theorem absolute_move_rightWord_end (hcaret : b.caret.absolute = b.text.length)
    (extending : Bool) : (b.move .rightWord 1 extending).caret.absolute = b.text.length := by
  have hclamp : b.document.clamp b.text.length = b.text.length :=
    Document.clamp_of_le (Nat.le_refl _)
  have hnone : b.document.text.drop b.text.length = [] := List.drop_length
  have hword : b.document.wordRight b.text.length = b.text.length := by
    rw [Document.wordRight, Document.charsFrom, hclamp, hnone]
    exact Int.add_zero _
  have hend := List.mem_of_getElem? (Text.stops_last b.text)
  exact absolute_moveWord_stop hcaret hword hend extending

theorem absolute_move_leftWord_start (hcaret : b.caret.absolute = (0 : Nat)) (extending : Bool) :
    (b.move .leftWord 1 extending).caret.absolute = (0 : Nat) := by
  have hword : b.document.wordLeft (0 : Nat) = (0 : Nat) := rfl
  have hstart := List.mem_of_getElem? (Text.stops_zero b.text)
  exact absolute_moveWord_stop hcaret hword hstart extending

/-- A word to the right is a way to the least boundary behind the caret and one to the left a way to
the greatest before it, while there is one; at the end and at the start of the text the caret stays.
It never stops inside a pair, and from a boundary each way leads back on the other. -/
theorem absolute_move_words (hcaret : b.caret.absolute = o) (ho : o ≤ b.text.length)
    (extending back : Bool) :
    let right := b.move .rightWord 1 extending
    let left := b.move .leftWord 1 extending
    (∃ p : Nat, right.caret.absolute = p ∧ p ∈ b.text.stops ∧
      (o < b.text.length → IsLeast {q | b.text.Boundary q ∧ o < q} p) ∧
      (o = b.text.length → p = b.text.length)) ∧
    (∃ p : Nat, left.caret.absolute = p ∧ p ∈ b.text.stops ∧
      (0 < o → IsGreatest {q | b.text.Boundary q ∧ q < o} p) ∧ (o = 0 → p = 0)) ∧
    (b.text.Boundary o →
      (o < b.text.length → (right.move .leftWord 1 back).caret.absolute = o) ∧
      (0 < o → (left.move .rightWord 1 back).caret.absolute = o)) := by
  intro right left
  have hright : right.text = b.text :=
    congrArg Document.text (quiet_move b .rightWord 1 extending).document
  have hleft : left.text = b.text :=
    congrArg Document.text (quiet_move b .leftWord 1 extending).document
  refine ⟨?_, ?_, fun hboundary => ⟨fun hless => ?_, fun hpos => ?_⟩⟩
  · rcases Nat.lt_or_eq_of_le ho with hless | rfl
    · obtain ⟨p, hp, hleast⟩ := absolute_move_rightWord hcaret hless extending
      exact ⟨p, hp, Text.Boundary.mem_stops hleast.1.1, fun _ => hleast, by omega⟩
    · exact ⟨_, absolute_move_rightWord_end hcaret extending,
        List.mem_of_getElem? (Text.stops_last b.text), fun h => absurd h (Nat.lt_irrefl _),
        fun _ => rfl⟩
  · rcases Nat.eq_zero_or_pos o with rfl | hpos
    · exact ⟨0, absolute_move_leftWord_start hcaret extending,
        List.mem_of_getElem? (Text.stops_zero b.text), fun h => absurd h (Nat.lt_irrefl _),
        fun _ => rfl⟩
    · obtain ⟨p, hp, hgreatest⟩ := absolute_move_leftWord hcaret hpos ho extending
      exact ⟨p, hp, Text.Boundary.mem_stops hgreatest.1.1, fun _ => hgreatest, by omega⟩
  · obtain ⟨p, hp, hleast⟩ := absolute_move_rightWord hcaret hless extending
    have hinside : p ≤ right.text.length := by
      rw [hright]
      exact (Text.mem_stops.1 (Text.Boundary.mem_stops hleast.1.1)).1
    obtain ⟨q, hq, hgreatest⟩ :=
      absolute_move_leftWord hp (Nat.zero_lt_of_lt hleast.1.2) hinside back
    rw [hright] at hgreatest
    rw [hq, hgreatest.unique (Text.isGreatest_of_isLeast hboundary hleast)]
  · obtain ⟨p, hp, hgreatest⟩ := absolute_move_leftWord hcaret hpos ho extending
    have hinside : p < left.text.length := by
      rw [hleft]
      exact Nat.lt_of_lt_of_le hgreatest.1.2 ho
    obtain ⟨q, hq, hleast⟩ := absolute_move_rightWord hp hinside back
    rw [hleft] at hleast
    rw [hq, hleast.unique (Text.isLeast_of_isGreatest hboundary hgreatest)]

/-- From a word to the end of a run of line breaks and back, past a pair inside it. -/
theorem absolute_move_words_pair :
    let b := (create "a.txt" ['a', '\n', '\r', '\n', 'b'] 24 80 {}).collapse 1
    (b.caret.absolute = (1 : Nat) ∧ 1 ≤ b.text.length) ∧
      ((b.move .rightWord 1 false).move .leftWord 1 true).caret.absolute = 1 ∧
        (b.move .leftWord 1 false).caret.absolute = 0 := by
  intro b
  have hcaret : b.caret.absolute = (1 : Nat) := rfl
  have hinside : 1 ≤ b.text.length := by decide
  have hboundary : b.text.Boundary 1 :=
    .inr (.inr ⟨0, 'a', '\n', rfl, rfl, rfl, by decide⟩)
  obtain ⟨-, ⟨p, hleft, -, hgreatest, -⟩, hback⟩ := absolute_move_words hcaret hinside false true
  obtain rfl : p = 0 := Nat.lt_one_iff.1 (hgreatest Nat.one_pos).1.2
  exact ⟨⟨hcaret, hinside⟩, (hback hboundary).1 (by decide), hleft⟩

end Buffer

end TextEditor
