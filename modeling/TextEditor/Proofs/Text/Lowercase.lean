import TextEditor.Proofs.Text.Trim
import TextEditor.Text.Lowercase

/-!
# Lower case is a normal form

No character of a text in lower case has a lower case of its own, so lowering a text twice is
lowering it once.  White space has no case and ends every context that a final sigma looks at: what
lies on one side of it is lowered without regard to the other side, and trimming a text commutes
with lowering it.

What has to be known of the table of lower case letters, that no target is the member of a run and
that neither is white space, is a matter of two sets of code points having nothing in common.  Each
set is made into one number, with a bit for each of its members.
-/

namespace TextEditor.Text

/-! ## Sets of code points -/

/-- The number whose bits are the members of a list. -/
def bits (codes : List Nat) : Nat :=
  codes.foldr (fun n rest => 1 <<< n ||| rest) 0

theorem testBit_bits (codes : List Nat) (n : Nat) : (bits codes).testBit n = true ↔ n ∈ codes := by
  induction codes with
  | nil => simp [bits]
  | cons first rest ih =>
    have hcons : bits (first :: rest) = 1 <<< first ||| bits rest := rfl
    rw [hcons, Nat.testBit_or, Bool.or_eq_true, ih, Nat.one_shiftLeft, Nat.testBit_two_pow,
      decide_eq_true_iff, List.mem_cons, eq_comm]

theorem not_mem_of_bits {codes others : List Nat} (h : bits codes &&& bits others = 0) {n : Nat}
    (hn : n ∈ codes) : n ∉ others := by
  intro hother
  have hboth : (bits codes &&& bits others).testBit n = true := by
    rw [Nat.testBit_and, (testBit_bits codes n).2 hn, (testBit_bits others n).2 hother]
    rfl
  rw [h, Nat.zero_testBit] at hboth
  cases hboth

/-- The code points of the characters above ASCII that have one lower case letter. -/
def upperCodes : List Nat :=
  lowercaseRuns.flatMap fun (first, last, stride, _) =>
    (List.range ((last - first) / stride + 1)).map fun k => first + k * stride

/-- The code points of their lower case letters. -/
def lowerCodes : List Nat :=
  lowercaseRuns.flatMap fun (first, last, stride, target) =>
    (List.range ((last - first) / stride + 1)).map fun k => target + k * stride

/-- The code points of white space. -/
def whitespaceCodes : List Nat :=
  [9, 10, 11, 12, 13, 28, 29, 30, 31, 32, 0x85, 0xA0, 0x1680, 0x2000, 0x2001, 0x2002, 0x2003,
    0x2004, 0x2005, 0x2006, 0x2007, 0x2008, 0x2009, 0x200A, 0x2028, 0x2029, 0x202F, 0x205F, 0x3000]

theorem isWhitespace_iff {c : Char} : isWhitespace c = true ↔ c.toNat ∈ whitespaceCodes := by
  simp only [isWhitespace, whitespaceCodes, Bool.or_eq_true, Bool.and_eq_true, decide_eq_true_eq,
    beq_iff_eq, List.mem_cons, List.not_mem_nil, or_false]
  omega

/-- The code points of the capital letters of ASCII. -/
def capitalCodes : List Nat :=
  (List.range 26).map ('A'.toNat + ·)

/-- The code points of the plus sign and of white space, which have no case. -/
def markCodes : List Nat :=
  '+'.toNat :: whitespaceCodes

theorem upperCodes_disjoint : bits upperCodes &&& bits markCodes = 0 := by
  decide +kernel

/-- No lower case letter has a lower case of its own, in ASCII or above. -/
theorem lowerCodes_disjoint :
    bits lowerCodes &&&
      bits (markCodes ++ 'Σ'.toNat :: 'İ'.toNat :: upperCodes ++ capitalCodes) = 0 := by
  decide +kernel

theorem isValidChar_of_mem_lowerCodes : ∀ n ∈ lowerCodes, n.isValidChar := by
  decide +kernel

/-! ## Characters in lower case -/

/-- The character is its own lower case, wherever it stands. -/
def IsLower (c : Char) : Prop :=
  lowercaseChar c = c ∧ c ≠ 'Σ' ∧ c ≠ 'İ'

instance : DecidablePred IsLower :=
  fun _ => inferInstanceAs (Decidable (_ ∧ _))

variable {c : Char} {before rest s t : List Char}

theorem toNat_ofNat {n : Nat} (h : n.isValidChar) : (Char.ofNat n).toNat = n := by
  rw [Char.ofNat, dif_pos h]
  rfl

/-- What holds of the ASCII characters one by one holds of every character among them. -/
theorem forall_ascii {p : Char → Prop} (h : ∀ n < 128, p (Char.ofNat n)) (hc : c.toNat < 128) :
    p c :=
  Char.ofNat_toNat c ▸ h c.toNat hc

/-- Above ASCII a character is its own lower case, or has one in the table. -/
theorem lowercaseChar_above (h : 128 ≤ c.toNat) :
    lowercaseChar c = c ∨ c.toNat ∈ upperCodes ∧ (lowercaseChar c).toNat ∈ lowerCodes := by
  rw [lowercaseChar, if_neg (Nat.not_lt.2 h)]
  cases hrun : lowercaseRuns.find? fun (first, last, stride, _) =>
      first ≤ c.toNat && c.toNat ≤ last && (c.toNat - first) % stride == 0 with
  | none => exact .inl rfl
  | some run =>
    obtain ⟨first, last, stride, target⟩ := run
    have hmem := List.mem_of_find?_eq_some hrun
    have hin := List.find?_some hrun
    simp only [Bool.and_eq_true, decide_eq_true_eq, beq_iff_eq] at hin
    obtain ⟨⟨hfirst, hlast⟩, hstride⟩ := hin
    -- The number of the character in its run.
    have hk : (c.toNat - first) / stride * stride = c.toNat - first :=
      Nat.div_mul_cancel (Nat.dvd_of_mod_eq_zero hstride)
    have hrange : (c.toNat - first) / stride ∈ List.range ((last - first) / stride + 1) :=
      List.mem_range.2 (Nat.lt_succ_of_le (Nat.div_le_div_right (Nat.sub_le_sub_right hlast first)))
    have hlower : target + (c.toNat - first) ∈ lowerCodes :=
      List.mem_flatMap.2 ⟨_, hmem, List.mem_map.2 ⟨_, hrange, by rw [hk]⟩⟩
    refine .inr ⟨List.mem_flatMap.2 ⟨_, hmem, List.mem_map.2 ⟨_, hrange, ?_⟩⟩, ?_⟩
    · rw [hk, Nat.add_sub_cancel' hfirst]
    · dsimp only
      rw [Nat.add_comm, toNat_ofNat (isValidChar_of_mem_lowerCodes _ hlower)]
      exact hlower

theorem isLower_of_mem_lowerCodes (h : c.toNat ∈ lowerCodes) : IsLower c := by
  have hforbidden := not_mem_of_bits lowerCodes_disjoint h
  simp only [List.mem_append, List.mem_cons, not_or] at hforbidden
  obtain ⟨⟨-, hsigma, hdotted, hupper⟩, hcapital⟩ := hforbidden
  refine ⟨?_, fun heq => hsigma (congrArg Char.toNat heq), fun heq =>
    hdotted (congrArg Char.toNat heq)⟩
  rcases Nat.lt_or_ge c.toNat 128 with hascii | habove
  · refine forall_ascii (p := fun c => c.toNat ∉ capitalCodes → lowercaseChar c = c) ?_ hascii
      hcapital
    decide
  · exact (lowercaseChar_above habove).resolve_right fun hc => hupper hc.1

theorem isLower_lowercaseChar (hsigma : c ≠ 'Σ') (hdotted : c ≠ 'İ') :
    IsLower (lowercaseChar c) := by
  rcases Nat.lt_or_ge c.toNat 128 with hascii | habove
  · exact forall_ascii (p := fun c => IsLower (lowercaseChar c)) (by decide) hascii
  · rcases lowercaseChar_above habove with heq | ⟨-, hlower⟩
    · rw [heq]
      exact ⟨heq, hsigma, hdotted⟩
    · exact isLower_of_mem_lowerCodes hlower

/-- The plus sign and white space have no case, and are the lower case of nothing else. -/
theorem lowercaseChar_of_mark (h : c.toNat ∈ markCodes ∨ (lowercaseChar c).toNat ∈ markCodes) :
    lowercaseChar c = c := by
  rcases Nat.lt_or_ge c.toNat 128 with hascii | habove
  · revert h
    exact forall_ascii (p := fun c => c.toNat ∈ markCodes ∨ (lowercaseChar c).toNat ∈ markCodes →
      lowercaseChar c = c) (by decide) hascii
  · rcases lowercaseChar_above habove with heq | ⟨hupper, hlower⟩
    · exact heq
    · refine absurd h (not_or.2 ⟨not_mem_of_bits upperCodes_disjoint hupper, fun hmark => ?_⟩)
      exact not_mem_of_bits lowerCodes_disjoint hlower (List.mem_append_left _
        (List.mem_append_left _ hmark))

theorem isWhitespace_lowercaseChar (c : Char) :
    isWhitespace (lowercaseChar c) = isWhitespace c := by
  rw [Bool.eq_iff_iff]
  constructor <;> intro h
  · rwa [lowercaseChar_of_mark (.inr (List.mem_cons_of_mem _ (isWhitespace_iff.1 h)))] at h
  · rwa [lowercaseChar_of_mark (.inl (List.mem_cons_of_mem _ (isWhitespace_iff.1 h)))]

theorem eq_plus_of_lowercaseChar (h : lowercaseChar c = '+') : c = '+' :=
  (lowercaseChar_of_mark (.inr (h ▸ List.mem_cons_self))).symm.trans h

/-! ## Texts in lower case -/

/-- The lower case of one character between others. -/
def lowered (before : List Char) (c : Char) (rest : List Char) : List Char :=
  if c = 'Σ' then [if hasCasedNeighbour before && !hasCasedNeighbour rest then 'ς' else 'σ']
  else if c = 'İ' then ['i', '\u0307']
  else [lowercaseChar c]

theorem lowercaseAfter_cons (before : List Char) (c : Char) (rest : List Char) :
    lowercaseAfter before (c :: rest) =
      lowered before c rest ++ lowercaseAfter (c :: before) rest := rfl

/-- What the lower case of a character can be. -/
theorem lowered_cases (before : List Char) (c : Char) (rest : List Char) :
    lowered before c rest = [lowercaseChar c] ∧ c ≠ 'Σ' ∧ c ≠ 'İ' ∨
      c = 'Σ' ∧ (lowered before c rest = ['ς'] ∨ lowered before c rest = ['σ']) ∨
      c = 'İ' ∧ lowered before c rest = ['i', '\u0307'] := by
  unfold lowered
  by_cases hsigma : c = 'Σ'
  · rw [if_pos hsigma]
    refine .inr (.inl ⟨hsigma, ?_⟩)
    split
    · exact .inl rfl
    · exact .inr rfl
  · rw [if_neg hsigma]
    by_cases hdotted : c = 'İ'
    · rw [if_pos hdotted]
      exact .inr (.inr ⟨hdotted, rfl⟩)
    · rw [if_neg hdotted]
      exact .inl ⟨rfl, hsigma, hdotted⟩

theorem mem_lowered_cases {d : Char} (h : d ∈ lowered before c rest) :
    d = lowercaseChar c ∧ c ≠ 'Σ' ∧ c ≠ 'İ' ∨ c = 'Σ' ∧ (d = 'ς' ∨ d = 'σ') ∨
      c = 'İ' ∧ (d = 'i' ∨ d = '\u0307') := by
  rcases lowered_cases before c rest with ⟨heq, hplain⟩ | ⟨hsigma, heq | heq⟩ | ⟨hdotted, heq⟩
  · exact .inl ⟨List.mem_singleton.1 (heq ▸ h), hplain⟩
  · exact .inr (.inl ⟨hsigma, .inl (List.mem_singleton.1 (heq ▸ h))⟩)
  · exact .inr (.inl ⟨hsigma, .inr (List.mem_singleton.1 (heq ▸ h))⟩)
  · exact .inr (.inr ⟨hdotted, List.mem_pair.1 (heq ▸ h)⟩)

theorem isLower_of_mem_lowered {d : Char} (h : d ∈ lowered before c rest) : IsLower d := by
  rcases mem_lowered_cases h with ⟨rfl, hsigma, hdotted⟩ | ⟨-, rfl | rfl⟩ | ⟨-, rfl | rfl⟩
  · exact isLower_lowercaseChar hsigma hdotted
  all_goals decide

/-- Lowering a character that is in lower case changes nothing, whatever stands beside it. -/
theorem lowered_of_isLower (h : IsLower c) : lowered before c rest = [c] := by
  rw [lowered, if_neg h.2.1, if_neg h.2.2, h.1]

theorem isLower_of_mem_lowercaseAfter {d : Char} (h : d ∈ lowercaseAfter before s) :
    IsLower d := by
  induction s generalizing before with
  | nil => cases h
  | cons c rest ih =>
    rw [lowercaseAfter_cons, List.mem_append] at h
    exact h.elim isLower_of_mem_lowered ih

theorem lowercaseAfter_of_isLower (h : ∀ c ∈ s, IsLower c) : lowercaseAfter before s = s := by
  induction s generalizing before with
  | nil => rfl
  | cons c rest ih =>
    rw [lowercaseAfter_cons, lowered_of_isLower (h c List.mem_cons_self),
      ih fun d hd => h d (List.mem_cons_of_mem _ hd), List.singleton_append]

/-- Lowering a text twice is lowering it once. -/
theorem lowercase_lowercase (s : List Char) : lowercase (lowercase s) = lowercase s :=
  lowercaseAfter_of_isLower fun _ hd => isLower_of_mem_lowercaseAfter hd

/-- No plus sign comes of lowering. -/
theorem plus_not_mem_lowercaseAfter (h : '+' ∉ s) : '+' ∉ lowercaseAfter before s := by
  induction s generalizing before with
  | nil => exact h
  | cons c rest ih =>
    rw [List.mem_cons, not_or] at h
    rw [lowercaseAfter_cons, List.mem_append, not_or]
    refine ⟨fun hplus => ?_, ih h.2⟩
    rcases mem_lowered_cases hplus with ⟨heq, -⟩ | ⟨-, heq | heq⟩ | ⟨-, heq | heq⟩
    · exact h.1 (eq_plus_of_lowercaseChar heq.symm).symm
    all_goals exact absurd heq (by decide)

/-! ## White space -/

/-- The lower case of white space is white space, and that of anything else is not. -/
theorem isWhitespace_of_mem_lowered {d : Char} (h : d ∈ lowered before c rest) :
    isWhitespace d = isWhitespace c := by
  rcases mem_lowered_cases h with ⟨rfl, -⟩ | ⟨rfl, rfl | rfl⟩ | ⟨rfl, rfl | rfl⟩
  · exact isWhitespace_lowercaseChar c
  all_goals decide

theorem lowered_of_isWhitespace (h : isWhitespace c = true) : lowered before c rest = [c] := by
  refine lowered_of_isLower ⟨?_, ?_, ?_⟩
  · exact lowercaseChar_of_mark (.inl (List.mem_cons_of_mem _ (isWhitespace_iff.1 h)))
  all_goals
    rintro rfl
    exact absurd h (by decide)

theorem lowered_ne_nil (before : List Char) (c : Char) (rest : List Char) :
    lowered before c rest ≠ [] := by
  rcases lowered_cases before c rest with ⟨heq, -⟩ | ⟨-, heq | heq⟩ | ⟨-, heq⟩ <;> simp [heq]

theorem lowercase_ne_nil (h : s ≠ []) : lowercase s ≠ [] := by
  cases s with
  | nil => exact absurd rfl h
  | cons c rest => exact List.append_ne_nil_of_left_ne_nil (lowered_ne_nil _ _ _) _

/-- White space is neither cased nor passed over in the search for a neighbour. -/
theorem isCased_of_isWhitespace (h : isWhitespace c = true) :
    isCased c = false ∧ isCaseIgnorable c = false := by
  have hcodes : ∀ n ∈ whitespaceCodes,
      isCased (Char.ofNat n) = false ∧ isCaseIgnorable (Char.ofNat n) = false := by
    decide +kernel
  exact Char.ofNat_toNat c ▸ hcodes c.toNat (isWhitespace_iff.1 h)

/-- A neighbour is not looked for beyond white space. -/
theorem hasCasedNeighbour_append (h : isWhitespace c = true) (near far : List Char) :
    hasCasedNeighbour (near ++ c :: far) = hasCasedNeighbour near := by
  obtain ⟨hcased, hignorable⟩ := isCased_of_isWhitespace h
  rw [hasCasedNeighbour, hasCasedNeighbour, List.dropWhile_append]
  cases near.dropWhile isCaseIgnorable with
  | nil =>
    rw [List.isEmpty_nil, if_pos rfl,
      List.dropWhile_cons_of_neg (by rw [hignorable]; exact Bool.false_ne_true)]
    exact hcased
  | cons => rfl

theorem lowercaseAfter_before (h : isWhitespace c = true) (near far s : List Char) :
    lowercaseAfter (near ++ c :: far) s = lowercaseAfter near s := by
  induction s generalizing near with
  | nil => rfl
  | cons d rest ih =>
    have hrest := ih (d :: near)
    rw [List.cons_append] at hrest
    rw [lowercaseAfter_cons, lowercaseAfter_cons, hrest, lowered, lowered,
      hasCasedNeighbour_append h]

/-- White space parts a text: each side is lowered without regard to the other. -/
theorem lowercaseAfter_append (h : isWhitespace c = true) (before s t : List Char) :
    lowercaseAfter before (s ++ c :: t) = lowercaseAfter before s ++ c :: lowercase t := by
  induction s generalizing before with
  | nil =>
    rw [List.nil_append, lowercaseAfter_cons, lowered_of_isWhitespace h]
    exact congrArg (c :: ·) (lowercaseAfter_before h [] before t)
  | cons d rest ih =>
    rw [List.cons_append, lowercaseAfter_cons, lowercaseAfter_cons, ih, lowered, lowered,
      hasCasedNeighbour_append h, List.append_assoc]

theorem lowercase_append (h : isWhitespace c = true) (s t : List Char) :
    lowercase (s ++ c :: t) = lowercase s ++ c :: lowercase t :=
  lowercaseAfter_append h [] s t

/-- The end of a text is lowered last. -/
theorem exists_lowercaseAfter_concat (before s : List Char) (c : Char) :
    ∃ front nearer, lowercaseAfter before (s ++ [c]) = front ++ lowered nearer c [] := by
  induction s generalizing before with
  | nil => exact ⟨[], before, List.append_nil _⟩
  | cons d rest ih =>
    obtain ⟨front, nearer, heq⟩ := ih (d :: before)
    refine ⟨lowered before d (rest ++ [c]) ++ front, nearer, ?_⟩
    rw [List.cons_append, lowercaseAfter_cons, heq, List.append_assoc]

theorem lowercase_dropWhile (s : List Char) :
    lowercase (s.dropWhile isWhitespace) = (lowercase s).dropWhile isWhitespace := by
  induction s with
  | nil => rfl
  | cons c rest ih =>
    cases hspace : isWhitespace c with
    | true =>
      have hsplit := lowercase_append hspace [] rest
      rw [List.nil_append] at hsplit
      rw [List.dropWhile_cons_of_pos hspace, ih, hsplit]
      exact (List.dropWhile_cons_of_pos hspace).symm
    | false =>
      rw [List.dropWhile_cons_of_neg (by rw [hspace]; exact Bool.false_ne_true), lowercase,
        lowercaseAfter_cons]
      cases hlowered : lowered [] c rest with
      | nil => exact absurd hlowered (lowered_ne_nil _ _ _)
      | cons d more =>
        have hd := isWhitespace_of_mem_lowered (hlowered ▸ List.mem_cons_self)
        rw [List.cons_append, List.dropWhile_cons_of_neg]
        rw [hd, hspace]
        exact Bool.false_ne_true

theorem lowercase_trimRight (s : List Char) :
    lowercase (trimRight s) = trimRight (lowercase s) := by
  induction s using List.reverseRecOn with
  | nil => rfl
  | append_singleton s c ih =>
    cases hspace : isWhitespace c with
    | true =>
      have hsplit : lowercase (s ++ [c]) = lowercase s ++ [c] := lowercase_append hspace s []
      rw [hsplit, trimRight_concat_of_pos _ hspace, trimRight_concat_of_pos _ hspace, ih]
    | false =>
      obtain ⟨front, nearer, heq⟩ := exists_lowercaseAfter_concat [] s c
      rw [trimRight_append s (List.cons_ne_nil c []) (by simpa using hspace), lowercase, heq,
        trimRight_append _ (lowered_ne_nil _ _ _)]
      exact fun d hd => (isWhitespace_of_mem_lowered hd).trans hspace

/-- Trimming and lowering go in either order. -/
theorem lowercase_trim (s : List Char) : lowercase (trim s) = trim (lowercase s) := by
  rw [trim, trim, lowercase_trimRight, lowercase_dropWhile]

end TextEditor.Text
