import Mathlib.Data.List.DropRight
import TextEditor.Text.Whitespace

/-!
# Trimming and splitting

A trimmed text is one that neither begins nor ends with white space, and trimming it again changes
nothing.  Pieces that do not hold the separator come back when the text that joins them is split.
-/

namespace TextEditor.Text

variable {t : Text} {c : Char}

/-! ## Trimming -/

theorem trimRight_eq (t : Text) : trimRight t = t.rdropWhile isWhitespace := rfl

theorem trimRight_concat_of_pos (t : Text) (h : isWhitespace c = true) :
    trimRight (t ++ [c]) = trimRight t :=
  List.rdropWhile_concat_pos _ _ _ h

/-- A text that ends in characters other than white space has nothing to lose at its end. -/
theorem trimRight_append {last : Text} (t : Text) (hlast : last ≠ [])
    (h : ∀ c ∈ last, isWhitespace c = false) : trimRight (t ++ last) = t ++ last := by
  rw [trimRight_eq, List.rdropWhile_eq_self_iff]
  intro hne
  rw [List.getLast_append_of_ne_nil hne hlast, h _ (List.getLast_mem hlast)]
  exact Bool.false_ne_true

/-- The text does not begin with white space, and does not end with it. -/
structure Tight (t : Text) : Prop where
  head : ∀ c ∈ t.head?, isWhitespace c = false
  last : ∀ c ∈ t.getLast?, isWhitespace c = false

theorem Tight.trim_eq (h : t.Tight) : trim t = t := by
  have hhead : t.dropWhile isWhitespace = t := by
    cases t with
    | nil => rfl
    | cons c rest =>
      rw [List.dropWhile_cons_of_neg]
      rw [h.head c rfl]
      exact Bool.false_ne_true
  rw [trim, hhead, trimRight_eq, List.rdropWhile_eq_self_iff]
  intro hne
  rw [h.last _ (List.getLast?_eq_some_getLast hne)]
  exact Bool.false_ne_true

theorem tight_trim (t : Text) : (trim t).Tight := by
  have hsplit : trim t <+: t.dropWhile isWhitespace := List.rdropWhile_prefix _ _
  refine ⟨fun c hc => ?_, fun c hc => ?_⟩
  · -- What is left of the text begins where the white space in front ended.
    obtain ⟨rest, hrest⟩ := hsplit
    have hhead : (t.dropWhile isWhitespace).head? = some c := by
      rw [← hrest, List.head?_append, hc]
      rfl
    have hnot := List.head?_dropWhile_not isWhitespace t
    rw [hhead] at hnot
    exact hnot
  · obtain ⟨hne, rfl⟩ := List.mem_getLast?_eq_getLast hc
    exact eq_false_of_ne_true (List.rdropWhile_last_not _ _ hne)

theorem tight_iff : t.Tight ↔ trim t = t :=
  ⟨Tight.trim_eq, fun h => h ▸ tight_trim t⟩

theorem trim_trim (t : Text) : trim (trim t) = trim t :=
  (tight_trim t).trim_eq

theorem mem_of_mem_trim (h : c ∈ trim t) : c ∈ t :=
  List.dropWhile_subset _ ((List.rdropWhile_prefix _ _).subset h)

theorem trim_concat_of_pos (t : Text) (h : isWhitespace c = true) : trim (t ++ [c]) = trim t := by
  rw [trim, trim, List.dropWhile_append]
  split
  · next hempty =>
    rw [List.isEmpty_iff.1 hempty, List.dropWhile_cons_of_pos h, List.dropWhile_nil]
  · exact trimRight_concat_of_pos _ h

/-- White space on either side of a text is trimmed away with its own. -/
theorem trim_append {front back : Text} (hfront : ∀ c ∈ front, isWhitespace c = true)
    (hback : ∀ c ∈ back, isWhitespace c = true) (t : Text) :
    trim (front ++ t ++ back) = trim t := by
  induction back using List.reverseRecOn with
  | nil => rw [List.append_nil, trim, trim, List.dropWhile_append_of_pos hfront]
  | append_singleton back c ih =>
    rw [List.forall_mem_append] at hback
    rw [← List.append_assoc, trim_concat_of_pos _ (hback.2 c List.mem_cons_self), ih hback.1]

/-- Whatever stands between two texts, the first decides how it all begins and the second how it
ends. -/
theorem Tight.append {last : Text} (h : t.Tight) (hlast : last.Tight) (hne : t ≠ [])
    (hlastne : last ≠ []) (middle : Text) : (t ++ middle ++ last).Tight := by
  refine ⟨fun c hc => h.head c ?_, fun c hc => hlast.last c ?_⟩
  · rwa [List.append_assoc, List.head?_append_of_ne_nil _ hne] at hc
  · rwa [List.getLast?_append_of_ne_nil _ hlastne] at hc

/-! ## Splitting -/

theorem splitOn_of_not_mem {separator : Char} (h : separator ∉ t) : splitOn separator t = [t] := by
  induction t with
  | nil => rfl
  | cons c rest ih =>
    rw [List.mem_cons, not_or] at h
    rw [splitOn, if_neg (Ne.symm h.1), ih h.2]

theorem splitOn_append {separator : Char} (h : separator ∉ t) (rest : Text) :
    splitOn separator (t ++ separator :: rest) = t :: splitOn separator rest := by
  induction t with
  | nil => rw [List.nil_append, splitOn, if_pos rfl]
  | cons c t ih =>
    rw [List.mem_cons, not_or] at h
    rw [List.cons_append, splitOn, if_neg (Ne.symm h.1), ih h.2]

/-- Pieces without the separator come back from the text that joins them. -/
theorem splitOn_intercalate {separator : Char} {pieces : List Text} (hne : pieces ≠ [])
    (h : ∀ piece ∈ pieces, separator ∉ piece) :
    splitOn separator ([separator].intercalate pieces) = pieces := by
  induction pieces with
  | nil => exact absurd rfl hne
  | cons piece rest ih =>
    have hpiece := h piece List.mem_cons_self
    cases rest with
    | nil => rw [List.intercalate_singleton, splitOn_of_not_mem hpiece]
    | cons next rest =>
      have hrest := ih (List.cons_ne_nil _ _) fun p hp => h p (List.mem_cons_of_mem _ hp)
      rw [List.intercalate_cons_cons, List.append_assoc, List.singleton_append,
        splitOn_append hpiece, hrest]

/-- Pieces without white space at their ends are joined to a text without it. -/
theorem tight_intercalate (between : Text) {pieces : List Text} (hne : pieces ≠ [])
    (h : ∀ piece ∈ pieces, piece ≠ [] ∧ piece.Tight) :
    between.intercalate pieces ≠ [] ∧ Tight (between.intercalate pieces) := by
  induction pieces with
  | nil => exact absurd rfl hne
  | cons piece rest ih =>
    have hpiece := h piece List.mem_cons_self
    cases rest with
    | nil => rwa [List.intercalate_singleton]
    | cons next rest =>
      have hrest := ih (List.cons_ne_nil _ _) fun p hp => h p (List.mem_cons_of_mem _ hp)
      rw [List.intercalate_cons_cons]
      exact ⟨List.append_ne_nil_of_right_ne_nil _ hrest.1,
        hpiece.2.append hrest.2 hpiece.1 hrest.1 between⟩

end TextEditor.Text
