import Mathlib.Data.List.Basic
import TextEditor.Document.Basic

/-!
# The line index under edits

An edit rebuilds the line index from the line before it on.  The part that is kept stays right
because a cut at a line start never goes through a CR LF pair, and an edit behind that cut does not
change the characters on its two sides.  So after any edits the index is the one that a scan of the
whole text finds.
-/

namespace TextEditor

namespace Text

/-! ## Scanning a text in two parts -/

/-- The cut between two texts goes through a CR LF pair. -/
def CutsPair (front back : Text) : Prop :=
  front.getLast? = some '\r' ∧ back.head? = some '\n'

instance (front back : Text) : Decidable (CutsPair front back) :=
  inferInstanceAs (Decidable (_ ∧ _))

theorem not_cutsPair_nil (back : Text) : ¬ CutsPair [] back := by
  simp [CutsPair]

theorem cutsPair_cons {c : Char} {front back : Text} (hfront : front ≠ []) :
    CutsPair (c :: front) back ↔ CutsPair front back := by
  obtain ⟨d, rest, rfl⟩ := List.exists_cons_of_ne_nil hfront
  simp [CutsPair, List.getLast?_cons_cons]

/-- One character that does not begin a pair is scanned by itself. -/
theorem breakEnds_cons {c : Char} {rest : Text} (hpair : ¬ CutsPair [c] rest) (offset : Nat) :
    breakEnds offset (c :: rest) =
      (if isLineBreak c then [offset + 1] else []) ++ breakEnds (offset + 1) rest := by
  rw [breakEnds]
  · split <;> simp
  · rintro tail rfl rfl
    exact hpair ⟨rfl, rfl⟩

/-- A scan of two texts side by side is the scan of each, unless the cut goes through a pair. -/
theorem breakEnds_append (front back : Text) (hcut : ¬ CutsPair front back) (offset : Nat) :
    breakEnds offset (front ++ back) =
      breakEnds offset front ++ breakEnds (offset + front.length) back := by
  induction hlength : front.length using Nat.strongRecOn generalizing front offset with
  | _ n ih =>
    subst hlength
    rcases front with _ | ⟨c, rest⟩
    · simp [breakEnds]
    have hrest : ¬ CutsPair rest back := by
      by_cases hnil : rest = []
      · exact hnil ▸ not_cutsPair_nil back
      · exact fun h => hcut ((cutsPair_cons hnil).2 h)
    by_cases hpair : CutsPair [c] rest
    · -- The two characters of a pair are scanned in one step.
      obtain ⟨tail, rfl⟩ : ∃ tail, rest = '\n' :: tail := List.head?_eq_some_iff.1 hpair.2
      obtain rfl : c = '\r' := by simpa using hpair.1
      have htail : ¬ CutsPair tail back := by
        by_cases hnil : tail = []
        · exact hnil ▸ not_cutsPair_nil back
        · exact fun h => hrest ((cutsPair_cons hnil).2 h)
      have hoffset : offset + 2 + tail.length = offset + ('\r' :: '\n' :: tail).length := by
        simp only [List.length_cons]
        omega
      have hscan := ih tail.length (by simp only [List.length_cons]; omega) tail htail
        (offset + 2) rfl
      rw [List.cons_append, List.cons_append, breakEnds, hscan, breakEnds, hoffset,
        List.cons_append]
    · have hjoined : ¬ CutsPair [c] (rest ++ back) := by
        rcases rest with _ | ⟨d, tail⟩
        · simpa using hcut
        · simpa [CutsPair] using hpair
      have hoffset : offset + 1 + rest.length = offset + (c :: rest).length := by
        simp only [List.length_cons]
        omega
      have hscan := ih rest.length (by simp) rest hrest (offset + 1) rfl
      rw [List.cons_append, breakEnds_cons hjoined, breakEnds_cons hpair, hscan, hoffset,
        List.append_assoc]

/-- Breaks end behind the offset where the scan begins and within the text. -/
theorem bounds_of_mem_breakEnds {t : Text} {offset e : Nat} (he : e ∈ breakEnds offset t) :
    offset < e ∧ e ≤ offset + t.length := by
  fun_induction breakEnds offset t with
  | case1 => simp at he
  | case2 offset rest ih =>
    rcases List.mem_cons.1 he with rfl | h
    · simp only [List.length_cons]
      omega
    · have := ih h
      simp only [List.length_cons]
      omega
  | case3 offset c rest _ _ ih =>
    rcases List.mem_cons.1 he with rfl | h
    · simp only [List.length_cons]
      omega
    · have := ih h
      simp only [List.length_cons]
      omega
  | case4 offset c rest _ _ ih =>
    have := ih he
    simp only [List.length_cons]
    omega

theorem pairwise_breakEnds (t : Text) (offset : Nat) :
    (breakEnds offset t).Pairwise (· < ·) := by
  fun_induction breakEnds offset t with
  | case1 => exact List.Pairwise.nil
  | case2 offset rest ih =>
    exact List.Pairwise.cons (fun e he => (bounds_of_mem_breakEnds he).1) ih
  | case3 offset c rest _ _ ih =>
    exact List.Pairwise.cons (fun e he => (bounds_of_mem_breakEnds he).1) ih
  | case4 offset c rest _ _ ih => exact ih

/-! ## Line starts -/

theorem pairwise_lineStarts (t : Text) : (lineStarts t).Pairwise (· < ·) :=
  List.Pairwise.cons (fun _ he => (bounds_of_mem_breakEnds he).1) (pairwise_breakEnds t 0)

theorem le_length_of_mem_lineStarts {t : Text} {s : Nat} (hs : s ∈ lineStarts t) :
    s ≤ t.length := by
  rcases List.mem_cons.1 hs with rfl | h
  · exact Nat.zero_le _
  · simpa using (bounds_of_mem_breakEnds h).2

/-- A cut that goes through no pair of a text goes through none with a character in front, unless
it comes right after that character. -/
theorem not_cutsPair_succ {c : Char} {t : Text} {k : Nat} (hk : 0 < k)
    (hcut : ¬ CutsPair (t.take k) (t.drop k)) :
    ¬ CutsPair ((c :: t).take (k + 1)) ((c :: t).drop (k + 1)) := by
  rcases t with _ | ⟨d, rest⟩
  · simp [CutsPair]
  · have hne : (d :: rest).take k ≠ [] := by simp; omega
    rwa [List.take_succ_cons, List.drop_succ_cons, cutsPair_cons hne]

/-- The text is not cut through a pair where a break ends. -/
theorem not_cutsPair_of_mem_breakEnds {t : Text} {offset e : Nat}
    (he : e ∈ breakEnds offset t) :
    ¬ CutsPair (t.take (e - offset)) (t.drop (e - offset)) := by
  fun_induction breakEnds offset t with
  | case1 => simp at he
  | case2 offset rest ih =>
    rcases List.mem_cons.1 he with rfl | h
    · simp [CutsPair]
    · have hbehind := (bounds_of_mem_breakEnds h).1
      have hindex : e - offset = e - (offset + 2) + 1 + 1 := by omega
      rw [hindex]
      exact not_cutsPair_succ (by omega) (not_cutsPair_succ (by omega) (ih h))
  | case3 offset c rest hpair _ ih =>
    rcases List.mem_cons.1 he with rfl | h
    · rintro ⟨hc, hrest⟩
      obtain ⟨tail, htail⟩ := List.head?_eq_some_iff.1 (by simpa using hrest)
      exact hpair tail (by simpa using hc) htail
    · have hbehind := (bounds_of_mem_breakEnds h).1
      have hindex : e - offset = e - (offset + 1) + 1 := by omega
      rw [hindex]
      exact not_cutsPair_succ (by omega) (ih h)
  | case4 offset c rest _ _ ih =>
    have hbehind := (bounds_of_mem_breakEnds he).1
    have hindex : e - offset = e - (offset + 1) + 1 := by omega
    rw [hindex]
    exact not_cutsPair_succ (by omega) (ih he)

theorem not_cutsPair_of_mem_lineStarts {t : Text} {s : Nat} (hs : s ∈ lineStarts t) :
    ¬ CutsPair (t.take s) (t.drop s) := by
  rcases List.mem_cons.1 hs with rfl | h
  · simpa using not_cutsPair_nil t
  · simpa using not_cutsPair_of_mem_breakEnds h

/-- A text is scanned in two parts where no pair is cut. -/
theorem lineStarts_eq_append {t : Text} {s : Nat} (hs : s ≤ t.length)
    (hcut : ¬ CutsPair (t.take s) (t.drop s)) :
    lineStarts t = lineStarts (t.take s) ++ breakEnds s (t.drop s) := by
  have hlength : (t.take s).length = s := List.length_take_of_le hs
  calc lineStarts t = 0 :: breakEnds 0 (t.take s ++ t.drop s) := by
        rw [List.take_append_drop, lineStarts]
    _ = lineStarts (t.take s) ++ breakEnds s (t.drop s) := by
        rw [breakEnds_append _ _ hcut, hlength, Nat.zero_add, lineStarts, List.cons_append]

/-- The lines of a text up to an offset, unless this is inside a pair, are those up to the line of
the offset. -/
theorem takeWhile_lineStarts {t : Text} {place : Nat} (hplace : place ≤ t.length)
    (hcut : ¬ CutsPair (t.take place) (t.drop place)) :
    (lineStarts t).takeWhile (· ≤ place) = lineStarts (t.take place) := by
  rw [lineStarts_eq_append hplace hcut, List.takeWhile_append_of_pos]
  · have hnone : (breakEnds place (t.drop place)).takeWhile (· ≤ place) = [] := by
      cases hends : breakEnds place (t.drop place) with
      | nil => rfl
      | cons s ends =>
        have hbehind := (bounds_of_mem_breakEnds (hends ▸ List.mem_cons_self)).1
        exact List.takeWhile_cons_of_neg (by simpa using hbehind)
    rw [hnone, List.append_nil]
  · intro s hs
    have hbound := le_length_of_mem_lineStarts hs
    rw [List.length_take] at hbound
    exact decide_eq_true (by omega)

/-- The line starts up to one of them are those of the text up to there. -/
theorem take_lineStarts {t : Text} {line s : Nat} (hline : (lineStarts t)[line]? = some s) :
    (lineStarts t).take (line + 1) = lineStarts (t.take s) := by
  have hmem : s ∈ lineStarts t := List.mem_of_getElem? hline
  have hsplit := lineStarts_eq_append (le_length_of_mem_lineStarts hmem)
    (not_cutsPair_of_mem_lineStarts hmem)
  have hfront : ∀ x ∈ lineStarts (t.take s), x ≤ s := fun x hx =>
    Nat.le_trans (le_length_of_mem_lineStarts hx) (List.length_take_le _ _)
  have hinside : line < (lineStarts (t.take s)).length := by
    by_contra houtside
    rw [hsplit, List.getElem?_append_right (by omega)] at hline
    exact absurd (bounds_of_mem_breakEnds (List.mem_of_getElem? hline)).1 (Nat.lt_irrefl s)
  have hvalue : (lineStarts (t.take s))[line] = s := by
    rw [hsplit, List.getElem?_append_left hinside] at hline
    exact (List.getElem?_eq_some_iff.1 hline).2
  have hlast : (lineStarts (t.take s)).length = line + 1 := by
    by_contra hne
    have hnext : line + 1 < (lineStarts (t.take s)).length := by omega
    have hless := List.pairwise_iff_getElem.1 (pairwise_lineStarts (t.take s)) line (line + 1)
      hinside hnext (Nat.lt_succ_self line)
    have hbound := hfront _ (List.getElem_mem hnext)
    omega
  rw [hsplit, List.take_left' hlast]

end Text

namespace Document

/-! ## Documents whose index is right -/

/-- The index is the one that a scan of the whole text finds. -/
def Indexed (d : Document) : Prop :=
  d.starts = Text.lineStarts d.text

theorem indexed_ofText (t : Text) : (ofText t).Indexed := rfl

/-- The place between two parts of the text is one of the document. -/
theorem clamp_length_left {d : Document} {front back : Text} (h : d.text = front ++ back) :
    d.clamp front.length = front.length := by
  refine clamp_of_le ?_
  rw [length, h, List.length_append]
  exact Nat.le_add_right _ _

/-- Counting up to the line of an offset is counting the lines that begin at or before it. -/
theorem lineOf_succ {d : Document} (h : d.Indexed) (offset : Int) :
    d.lineOf offset + 1 = d.starts.findIdx fun s => !decide (s ≤ d.clamp offset) := by
  have hpos : 0 < d.starts.findIdx fun s => !decide (s ≤ d.clamp offset) := by
    rw [h, Text.lineStarts, List.findIdx_cons]
    simp
  have hlength : (d.starts.takeWhile (· ≤ d.clamp offset)).length =
      d.starts.findIdx fun s => !decide (s ≤ d.clamp offset) := by
    rw [List.takeWhile_eq_take_findIdx_not, List.length_take_of_le List.findIdx_le_length]
  simp only [lineOf, hlength]
  omega

/-- The lines up to the one of an offset begin at or before it. -/
theorem starts_le_clamp {d : Document} (h : d.Indexed) {offset : Int} {line : Nat}
    (hline : line ≤ d.lineOf offset) :
    ∃ s, d.starts[line]? = some s ∧ s ≤ d.clamp offset := by
  have hbefore : line < d.starts.findIdx fun s => !decide (s ≤ d.clamp offset) := by
    have := lineOf_succ h offset
    omega
  have hinside : line < d.starts.length := Nat.lt_of_lt_of_le hbefore List.findIdx_le_length
  exact ⟨d.starts[line], List.getElem?_eq_getElem hinside,
    by simpa using List.not_of_lt_findIdx hbefore⟩

theorem lineOf_lt_lineCount {d : Document} (h : d.Indexed) (offset : Int) :
    d.lineOf offset < d.lineCount := by
  obtain ⟨s, hs, -⟩ := starts_le_clamp h (Nat.le_refl (d.lineOf offset))
  exact (List.getElem?_eq_some_iff.1 hs).1

/-- The line after the one of an offset begins behind it. -/
theorem clamp_lt_starts {d : Document} (h : d.Indexed) {offset : Int} {s : Nat}
    (hs : d.starts[d.lineOf offset + 1]? = some s) : d.clamp offset < s := by
  rw [lineOf_succ h offset] at hs
  simpa using List.findIdx_of_getElem?_eq_some hs

/-! ## Edits -/

/-- An edit behind a line start leaves the text up to there as it was and cuts no pair there. -/
theorem cut_replace {t : Text} {resume start : Nat} (stop : Nat) (new : Text)
    (hstart : start ≤ t.length) (hmem : resume ∈ Text.lineStarts t)
    (hbehind : resume = 0 ∨ resume < start) :
    let edited := t.take start ++ new ++ t.drop stop
    edited.take resume = t.take resume ∧
      ¬ Text.CutsPair (edited.take resume) (edited.drop resume) := by
  intro edited
  rcases hbehind with rfl | hless
  · exact ⟨by simp, by simpa using Text.not_cutsPair_nil edited⟩
  have hlength : (t.take start).length = start := List.length_take_of_le hstart
  have hedited : edited = t.take start ++ (new ++ t.drop stop) := List.append_assoc _ _ _
  have htake : edited.take resume = t.take resume := by
    rw [hedited, List.take_append_of_le_length (by omega), List.take_take,
      Nat.min_eq_left (by omega)]
  have hhead : (edited.drop resume).head? = (t.drop resume).head? := by
    rw [hedited, List.head?_drop, List.head?_drop, List.getElem?_append_left (by omega),
      List.getElem?_take_of_lt hless]
  refine ⟨htake, ?_⟩
  rw [Text.CutsPair, htake, hhead]
  exact Text.not_cutsPair_of_mem_lineStarts hmem

theorem indexed_replace {d : Document} (h : d.Indexed) {start : Nat} (stop : Nat) (new : Text)
    (hstart : start ≤ d.length) : (d.replace start stop new).Indexed := by
  obtain ⟨resume, hresume, -⟩ := starts_le_clamp h (Nat.sub_le (d.lineOf start) 1)
  have hmem : resume ∈ Text.lineStarts d.text := h ▸ List.mem_of_getElem? hresume
  -- The scan goes on from a line that begins in front of the edit, or from the very beginning.
  have hbehind : resume = 0 ∨ resume < start := by
    rcases Nat.eq_zero_or_pos (d.lineOf start) with hzero | hpos
    · left
      rw [hzero, h] at hresume
      simpa [Text.lineStarts] using hresume.symm
    · right
      obtain ⟨s, hs, hle⟩ := starts_le_clamp h (Nat.le_refl (d.lineOf start))
      rw [clamp_of_le hstart] at hle
      obtain ⟨hfirst, rfl⟩ := List.getElem?_eq_some_iff.1 hresume
      obtain ⟨hsecond, rfl⟩ := List.getElem?_eq_some_iff.1 hs
      have hsorted : d.starts.Pairwise (· < ·) := h ▸ Text.pairwise_lineStarts d.text
      have := List.pairwise_iff_getElem.1 hsorted _ _ hfirst hsecond (by omega)
      omega
  obtain ⟨htake, hcut⟩ := cut_replace stop new hstart hmem hbehind
  have hlength : resume ≤ (d.text.take start ++ new ++ d.text.drop stop).length := by
    have := congrArg List.length htake
    have := Text.le_length_of_mem_lineStarts hmem
    simp only [List.length_take] at *
    omega
  have hkept : d.starts.take (d.lineOf start - 1 + 1) = Text.lineStarts (d.text.take resume) := by
    rw [h] at hresume ⊢
    exact Text.take_lineStarts hresume
  simp only [Indexed, replace, hresume, Option.getD_some, hkept]
  rw [← htake]
  exact (Text.lineStarts_eq_append hlength hcut).symm

theorem indexed_insert {d : Document} (h : d.Indexed) (offset : Int) (new : Text) :
    (d.insert offset new).Indexed := by
  unfold insert
  split
  · exact h
  · exact indexed_replace h _ new (d.clamp_le_length offset)

theorem indexed_remove {d : Document} (h : d.Indexed) (start stop : Int) :
    (d.remove start stop).Indexed := by
  simp only [remove]
  split
  · exact h
  · apply indexed_replace h _ []
    have := d.clamp_le_length start
    omega

/-! ## Runs of edits -/

@[simp]
theorem text_insert (d : Document) (offset : Int) (new : Text) :
    (d.insert offset new).text =
      d.text.take (d.clamp offset) ++ new ++ d.text.drop (d.clamp offset) := by
  unfold insert
  split
  · next hempty => simp [List.isEmpty_iff.1 hempty]
  · rfl

@[simp]
theorem text_remove (d : Document) (start stop : Int) :
    (d.remove start stop).text =
      d.text.take (min (d.clamp start) (d.clamp stop)) ++
        d.text.drop (max (d.clamp start) (d.clamp stop)) := by
  simp only [remove]
  split
  · next heq => rw [heq, List.take_append_drop]
  · simp [replace]

/-- The edits that a caller can ask of a document. -/
inductive Change where
  | insert (offset : Int) (new : Text)
  | remove (start stop : Int)
  deriving DecidableEq, Repr

/-- The document after an edit. -/
def change (d : Document) : Change → Document
  | .insert offset new => d.insert offset new
  | .remove start stop => d.remove start stop

/-- What an edit makes of a text, where an offset outside is the nearest one inside. -/
def Change.applyTo (t : Text) : Change → Text
  | .insert offset new =>
    let place := min offset.toNat t.length
    t.take place ++ new ++ t.drop place
  | .remove start stop =>
    let first := min start.toNat t.length
    let last := min stop.toNat t.length
    t.take (min first last) ++ t.drop (max first last)

theorem text_change (d : Document) (c : Change) : (d.change c).text = c.applyTo d.text := by
  cases c with
  | insert offset new => exact d.text_insert offset new
  | remove start stop => exact d.text_remove start stop

theorem indexed_change {d : Document} (h : d.Indexed) (c : Change) : (d.change c).Indexed := by
  cases c with
  | insert offset new => exact indexed_insert h offset new
  | remove start stop => exact indexed_remove h start stop

/-- After any edits the document holds the edited text, and its line index, of which every edit
rebuilt only a part, is the one that a scan of that whole text finds. -/
theorem starts_foldl_change (t : Text) (changes : List Change) :
    let d := changes.foldl change (ofText t)
    d.text = changes.foldl Change.applyTo t ∧ d.starts = Text.lineStarts d.text := by
  suffices hrun : ∀ (d : Document), d.Indexed →
      (changes.foldl change d).text = changes.foldl Change.applyTo d.text ∧
        (changes.foldl change d).Indexed from hrun (ofText t) (indexed_ofText t)
  induction changes with
  | nil => exact fun d h => ⟨rfl, h⟩
  | cons c rest ih =>
    intro d h
    rw [List.foldl_cons, List.foldl_cons, ← text_change]
    exact ih (d.change c) (indexed_change h c)

/-- A line feed typed behind a carriage return joins it to one break. -/
example : ((ofText ['a', '\r', 'b']).change (.insert 2 ['\n'])).starts = [0, 3] := by decide

end Document

end TextEditor
