import Mathlib.Data.List.Basic
import TextEditor.Server.Frame

/-!
# Frames in a stream that goes on

What a reader makes of bytes while more may come is what it makes of them whatever comes: it either
waits, or has found a body or a fault that no later byte and no end of the stream can change.  So
the bodies of a stream are found in the same order and with the same bytes however it is cut into
pieces.
-/

namespace TextEditor.Server.Frame

variable {α : Type} {bytes line rest body : Bytes} {ending : Ending} {limit : Option Int}

/-- The same with more bytes behind those that were read. -/
def Reading.append : Reading α → Bytes → Reading α
  | .waits, _ => .waits
  | .gives value rest, more => .gives value (rest ++ more)
  | .refuses fault rest, more => .refuses fault (rest ++ more)
  | .breaks fault, _ => .breaks fault

/-! ## Patterns -/

section Patterns

variable {b c : UInt8} {pattern front : Bytes}

/-- The bytes ahead of a pattern are those up to the first place at which it stands. -/
theorem before?_eq_some_iff :
    before? (c :: pattern) bytes = some front ↔
      (∃ rest, bytes = front ++ c :: pattern ++ rest) ∧
        ∀ k < front.length, ¬ c :: pattern <+: bytes.drop k := by
  induction bytes generalizing front with
  | nil => simp [before?]
  | cons b rest ih =>
    rw [before?]
    by_cases hprefix : c :: pattern <+: b :: rest
    · rw [if_pos (List.isPrefixOf_iff_prefix.2 hprefix)]
      constructor
      · rintro ⟨⟩
        obtain ⟨behind, hbehind⟩ := hprefix
        exact ⟨⟨behind, hbehind.symm⟩, nofun⟩
      · rintro ⟨-, hfirst⟩
        cases front with
        | nil => rfl
        | cons d front => exact absurd hprefix (hfirst 0 (Nat.succ_pos _))
    · rw [if_neg fun h => hprefix (List.isPrefixOf_iff_prefix.1 h)]
      constructor
      · intro h
        obtain ⟨front, hfront, rfl⟩ := Option.map_eq_some_iff.1 h
        obtain ⟨⟨behind, rfl⟩, hfirst⟩ := ih.1 hfront
        refine ⟨⟨behind, rfl⟩, fun k hk => ?_⟩
        cases k with
        | zero => exact hprefix
        | succ k => exact hfirst k (Nat.lt_of_succ_lt_succ hk)
      · rintro ⟨⟨behind, hbehind⟩, hfirst⟩
        cases front with
        | nil => exact absurd ⟨behind, hbehind.symm⟩ hprefix
        | cons d front =>
          obtain ⟨rfl, hrest⟩ := List.cons.inj hbehind
          rw [ih.2 ⟨⟨behind, hrest⟩, fun k hk => hfirst (k + 1) (Nat.succ_lt_succ hk)⟩]
          rfl

/-- A pattern that stands somewhere is found. -/
theorem exists_before? (h : c :: pattern <:+: bytes) :
    ∃ front, before? (c :: pattern) bytes = some front := by
  induction bytes with
  | nil => cases List.infix_nil.1 h
  | cons b rest ih =>
    rw [before?]
    split
    · exact ⟨[], rfl⟩
    · next hprefix =>
      have hrest := (List.infix_cons_iff.1 h).resolve_left fun hfront =>
        hprefix (List.isPrefixOf_iff_prefix.2 hfront)
      obtain ⟨front, hfront⟩ := ih hrest
      exact ⟨b :: front, by rw [hfront]; rfl⟩

/-- A pattern that was found stays where it was. -/
theorem before?_append (h : before? (c :: pattern) bytes = some front) (more : Bytes) :
    before? (c :: pattern) (bytes ++ more) = some front := by
  obtain ⟨⟨rest, rfl⟩, hfirst⟩ := before?_eq_some_iff.1 h
  refine before?_eq_some_iff.2 ⟨⟨rest ++ more, by simp⟩, fun k hk hprefix => hfirst k hk ?_⟩
  rw [List.drop_append_of_le_length (by simp; omega)] at hprefix
  refine List.prefix_of_prefix_length_le hprefix (List.prefix_append _ _) ?_
  simp only [List.length_drop, List.length_append, List.length_cons]
  omega

theorem before?_eq_none_iff :
    before? (c :: pattern) bytes = none ↔ ¬ c :: pattern <:+: bytes := by
  constructor
  · intro h hinfix
    obtain ⟨front, hfront⟩ := exists_before? hinfix
    rw [h] at hfront
    cases hfront
  · intro h
    cases hfound : before? (c :: pattern) bytes with
    | none => rfl
    | some front =>
      obtain ⟨⟨rest, hrest⟩, -⟩ := before?_eq_some_iff.1 hfound
      exact absurd ⟨front, rest, hrest.symm⟩ h

/-- A byte with which the pattern does not begin is passed over. -/
theorem before?_cons_of_not_prefix (h : ¬ c :: pattern <+: b :: bytes) :
    before? (c :: pattern) (b :: bytes) = (before? (c :: pattern) bytes).map (b :: ·) := by
  rw [before?, if_neg fun hprefix => h (List.isPrefixOf_iff_prefix.1 hprefix)]

theorem before?_append_of_not_mem (h : c ∉ front) (pattern bytes : Bytes) :
    before? (c :: pattern) (front ++ bytes) =
      (before? (c :: pattern) bytes).map (front ++ ·) := by
  induction front with
  | nil => simp
  | cons d front ih =>
    rw [List.mem_cons, not_or] at h
    rw [List.cons_append, before?_cons_of_not_prefix fun hprefix =>
      h.1 (List.cons_prefix_cons.1 hprefix).1, ih h.2, Option.map_map]
    rfl

theorem before?_of_not_mem (h : c ∉ front) (pattern rest : Bytes) :
    before? (c :: pattern) (front ++ c :: pattern ++ rest) = some front := by
  have hfound : before? (c :: pattern) (c :: pattern ++ rest) = some [] :=
    before?_eq_some_iff.2 ⟨⟨rest, rfl⟩, nofun⟩
  rw [List.append_assoc, before?_append_of_not_mem h, hfound, Option.map_some, List.append_nil]

/-- If the first place of a pattern is behind a certain byte, it is the first place of the pattern
with that byte in front. -/
theorem before?_cons_of_concat (h : before? (c :: pattern) bytes = some (front ++ [b])) :
    before? (b :: c :: pattern) bytes = some front := by
  obtain ⟨⟨rest, hrest⟩, hfirst⟩ := before?_eq_some_iff.1 h
  refine before?_eq_some_iff.2 ⟨⟨rest, by simp [hrest]⟩, fun k hk hprefix => ?_⟩
  obtain ⟨behind, hbehind⟩ := hprefix
  refine hfirst (k + 1) (by simpa using Nat.succ_lt_succ hk) ⟨behind, ?_⟩
  rw [← List.drop_drop, ← hbehind]
  rfl

/-- Where a pattern always follows a certain byte, it is found with that byte in front. -/
theorem before?_concat_iff (h : ∀ front ∈ before? (c :: pattern) bytes, front.getLast? = some b) :
    before? (c :: pattern) bytes = some (front ++ [b]) ↔
      before? (b :: c :: pattern) bytes = some front := by
  refine ⟨before?_cons_of_concat, fun hfront => ?_⟩
  obtain ⟨⟨behind, hbehind⟩, -⟩ := before?_eq_some_iff.1 hfront
  have hinfix : c :: pattern <:+: bytes := ⟨front ++ [b], behind, by simp [hbehind]⟩
  obtain ⟨found, hfound⟩ := exists_before? hinfix
  obtain ⟨start, rfl⟩ := List.getLast?_eq_some_iff.1 (h found hfound)
  have hstart := before?_cons_of_concat hfound
  rw [hfront] at hstart
  rw [hfound, Option.some.inj hstart]

/-- No byte that is looked for stands ahead of where it is found. -/
theorem not_mem_of_before? (h : before? [c] bytes = some front) : c ∉ front := by
  intro hmem
  obtain ⟨⟨rest, rfl⟩, hfirst⟩ := before?_eq_some_iff.1 h
  obtain ⟨ahead, behind, rfl⟩ := List.append_of_mem hmem
  refine hfirst ahead.length (by simp) ⟨behind ++ [c] ++ rest, ?_⟩
  simp

end Patterns

/-! ## Lines -/

theorem length_before?_lt (h : before? [10] bytes = some line) : line.length < bytes.length := by
  obtain ⟨⟨rest, rfl⟩, -⟩ := before?_eq_some_iff.1 h
  simp only [List.length_append, List.length_cons]
  omega

theorem readLine_of_not_mem (h : 10 ∉ line) (ending : Ending) (rest : Bytes) :
    readLine ending (line ++ 10 :: rest) = .gives (line ++ [10]) rest := by
  have hbefore := before?_of_not_mem h [] rest
  rw [List.append_assoc, List.singleton_append] at hbefore
  have hdrop : (line ++ 10 :: rest).drop (line.length + 1) = rest := by
    rw [← List.drop_drop, List.drop_left]
    rfl
  unfold readLine
  rw [hbefore]
  dsimp only
  rw [hdrop]

theorem readLine_closed_of_not_mem (h : 10 ∉ bytes) :
    readLine .closed bytes = .gives bytes [] := by
  have hbefore := before?_append_of_not_mem h [] []
  rw [List.append_nil] at hbefore
  unfold readLine
  rw [hbefore]
  rfl

theorem readLine_append (h : readLine .awaited bytes = .gives line rest) (ending : Ending)
    (more : Bytes) : readLine ending (bytes ++ more) = .gives line (rest ++ more) := by
  unfold readLine at h ⊢
  cases hbefore : before? [10] bytes with
  | none => simp [hbefore] at h
  | some start =>
    have hlt := length_before?_lt hbefore
    simp only [hbefore, Reading.gives.injEq] at h
    obtain ⟨rfl, rfl⟩ := h
    rw [before?_append hbefore more]
    dsimp only
    rw [List.drop_append_of_le_length hlt]

/-- A line has its end, and takes bytes. -/
theorem readLine_awaited (h : readLine .awaited bytes = .gives line rest) :
    line.isEmpty = false ∧ rest.length < bytes.length := by
  unfold readLine at h
  cases hbefore : before? [10] bytes with
  | none => simp [hbefore] at h
  | some start =>
    have hlt := length_before?_lt hbefore
    simp only [hbefore, Reading.gives.injEq] at h
    obtain ⟨rfl, rfl⟩ := h
    refine ⟨by simp, ?_⟩
    rw [List.length_drop]
    omega

/-- A line that is given has its end, or is the last of a stream that is closed. -/
theorem readLine_eq_gives (h : readLine ending bytes = .gives line rest) :
    readLine .awaited bytes = .gives line rest ∨
      ending = .closed ∧ before? [10] bytes = none ∧ line = bytes ∧ rest = [] := by
  unfold readLine at h ⊢
  cases hbefore : before? [10] bytes with
  | some start =>
    rw [hbefore] at h
    exact .inl h
  | none =>
    rw [hbefore] at h
    cases ending with
    | awaited => cases h
    | broken fault => cases h
    | closed =>
      obtain ⟨rfl, rfl⟩ := Reading.gives.inj h
      exact .inr ⟨rfl, rfl, rfl, rfl⟩

theorem readLine_awaited_ne_refuses {fault : FrameFault} :
    readLine .awaited bytes ≠ .refuses fault rest := by
  unfold readLine
  split <;> simp

theorem readLine_awaited_ne_breaks {fault : PipeFault} :
    readLine .awaited bytes ≠ .breaks fault := by
  unfold readLine
  split <;> simp

/-! ## The header -/

theorem le_toNat_of_mem_lengthField : ∀ b ∈ lengthField, 32 ≤ b.toNat := by
  decide +kernel

/-- The length of a body is read from between the name of its field and the end of the line. -/
theorem lengthOfLine_append (limit : Option Int) (value : Bytes) :
    lengthOfLine limit (lengthField ++ value ++ lineEnd) =
      match readLength value (lengthField ++ value ++ lineEnd) with
      | .error fault => .error fault
      | .ok length =>
        match limit with
        | some limit =>
          if limit < length then .error (.tooLong length limit (lengthField ++ value ++ lineEnd))
          else .ok length
        | none => .ok length := by
  have hname : lengthField.isPrefixOf (lengthField ++ value ++ lineEnd) = true := by
    rw [List.isPrefixOf_iff_prefix, List.append_assoc]
    exact List.prefix_append _ _
  have hend : lineEnd.isSuffixOf (lengthField ++ value ++ lineEnd) = true :=
    List.isSuffixOf_iff_suffix.2 (List.suffix_append _ _)
  have hwidth : (lengthField ++ value ++ lineEnd).length - lengthField.length - 2 =
      value.length := by
    simp [lineEnd]
  rw [lengthOfLine, hname, hend, hwidth, List.append_assoc, List.drop_left, List.take_left]
  rfl

theorem skipFields_append {header : Bytes} {fuel fuel' : Nat}
    (h : skipFields .awaited header fuel bytes = .gives () rest) (hfuel : fuel ≤ fuel')
    (ending : Ending) (more : Bytes) :
    skipFields ending header fuel' (bytes ++ more) = .gives () (rest ++ more) := by
  induction fuel generalizing bytes fuel' with
  | zero => cases h
  | succ fuel ih =>
    obtain ⟨fuel'', rfl⟩ := Nat.exists_eq_add_of_lt hfuel
    rw [show fuel + fuel'' + 1 = (fuel + fuel'') + 1 from rfl, skipFields]
    rw [skipFields] at h
    cases hline : readLine .awaited bytes with
    | waits => simp [hline] at h
    | breaks fault => exact absurd hline readLine_awaited_ne_breaks
    | refuses fault rest => exact absurd hline readLine_awaited_ne_refuses
    | gives line after =>
      rw [readLine_append hline ending more]
      simp only [hline, (readLine_awaited hline).1, Bool.false_eq_true, if_false] at h ⊢
      split at h
      · next hend =>
        obtain ⟨-, rfl⟩ := Reading.gives.inj h
        rw [if_pos hend]
      · next hend =>
        rw [if_neg hend]
        exact ih h (Nat.le_add_right _ _)

/-- With fuel for every byte no header is taken for unfinished while more may come. -/
theorem skipFields_awaited_ne_refuses {header : Bytes} {fuel : Nat} (hfuel : bytes.length < fuel)
    {fault : FrameFault} : skipFields .awaited header fuel bytes ≠ .refuses fault rest := by
  induction fuel generalizing bytes with
  | zero => omega
  | succ fuel ih =>
    intro h
    rw [skipFields] at h
    cases hline : readLine .awaited bytes with
    | waits => simp [hline] at h
    | breaks fault => exact readLine_awaited_ne_breaks hline
    | refuses fault rest => exact readLine_awaited_ne_refuses hline
    | gives line after =>
      obtain ⟨hnonempty, hlt⟩ := readLine_awaited hline
      simp only [hline, hnonempty, Bool.false_eq_true, if_false] at h
      split at h
      · cases h
      · exact ih (by omega) h

theorem skipFields_awaited_ne_breaks {header : Bytes} {fuel : Nat} {fault : PipeFault} :
    skipFields .awaited header fuel bytes ≠ .breaks fault := by
  induction fuel generalizing bytes with
  | zero => simp [skipFields]
  | succ fuel ih =>
    intro h
    rw [skipFields] at h
    cases hline : readLine .awaited bytes with
    | waits => simp [hline] at h
    | breaks fault => exact readLine_awaited_ne_breaks hline
    | refuses fault rest => exact readLine_awaited_ne_refuses hline
    | gives line after =>
      simp only [hline, (readLine_awaited hline).1, Bool.false_eq_true, if_false] at h
      split at h
      · cases h
      · exact ih h

/-- Behind a last line without its end nothing comes that ends a header. -/
theorem skipFields_closed_nil {header : Bytes} {fuel : Nat} :
    skipFields .closed header fuel [] ≠ .gives () rest := by
  cases fuel with
  | zero => simp [skipFields]
  | succ fuel => simp [skipFields, readLine, before?]

/-- A header that ends does so whatever comes. -/
theorem skipFields_awaited {header : Bytes} {fuel : Nat}
    (h : skipFields ending header fuel bytes = .gives () rest) :
    skipFields .awaited header fuel bytes = .gives () rest ∧ rest.length ≤ bytes.length := by
  induction fuel generalizing bytes with
  | zero => cases h
  | succ fuel ih =>
    rw [skipFields] at h ⊢
    cases hline : readLine ending bytes with
    | waits => simp [hline] at h
    | breaks fault => simp [hline] at h
    | refuses fault rest => simp [hline] at h
    | gives line after =>
      rw [hline] at h
      dsimp only at h
      rcases readLine_eq_gives hline with hwhole | ⟨rfl, hnone, rfl, rfl⟩
      · obtain ⟨hnonempty, hlt⟩ := readLine_awaited hwhole
        rw [hwhole]
        simp only [hnonempty, Bool.false_eq_true, if_false] at h ⊢
        split at h
        · next hend =>
          obtain ⟨-, rfl⟩ := Reading.gives.inj h
          rw [if_pos hend]
          exact ⟨rfl, by omega⟩
        · next hend =>
          rw [if_neg hend]
          obtain ⟨hgives, hle⟩ := ih h
          exact ⟨hgives, by omega⟩
      · split at h
        · cases h
        · split at h
          · next hend =>
            rw [hend] at hnone
            exact absurd hnone (by decide)
          · exact absurd h skipFields_closed_nil

/-! ## Bodies -/

theorem readExact_append {count : Nat} (h : readExact .awaited count bytes = .gives body rest)
    (ending : Ending) (more : Bytes) :
    readExact ending count (bytes ++ more) = .gives body (rest ++ more) ∧ body.length = count := by
  unfold readExact at h ⊢
  split at h
  · next hle =>
    obtain ⟨rfl, rfl⟩ := Reading.gives.inj h
    rw [if_pos (by rw [List.length_append]; omega), List.take_append_of_le_length hle,
      List.drop_append_of_le_length hle]
    exact ⟨rfl, List.length_take_of_le hle⟩
  · cases h

theorem readExact_awaited {count : Nat} (h : readExact ending count bytes = .gives body rest)
    (hlength : count ≤ body.length) :
    readExact .awaited count bytes = .gives body rest ∧ rest.length ≤ bytes.length := by
  unfold readExact at h ⊢
  split at h
  · next hle =>
    obtain ⟨rfl, rfl⟩ := Reading.gives.inj h
    rw [if_pos hle]
    exact ⟨rfl, by rw [List.length_drop]; omega⟩
  · next hgt =>
    cases ending with
    | awaited => cases h
    | broken fault => cases h
    | closed =>
      obtain ⟨rfl, rfl⟩ := Reading.gives.inj h
      exact absurd hlength hgt

/-- A number of bytes is some of them and then the others. -/
theorem readExact_split {first count : Nat} (hcount : first ≤ count)
    (hbytes : first ≤ bytes.length) (ending : Ending) :
    readExact ending count bytes =
      match readExact ending (count - first) (bytes.drop first) with
      | .waits => .waits
      | .breaks fault => .breaks fault
      | .refuses fault rest => .refuses fault rest
      | .gives more rest => .gives (bytes.take first ++ more) rest := by
  obtain ⟨more, rfl⟩ := Nat.exists_eq_add_of_le hcount
  unfold readExact
  rw [Nat.add_sub_cancel_left, List.length_drop]
  by_cases henough : first + more ≤ bytes.length
  · rw [if_pos henough, if_pos (by omega), List.take_add, List.drop_drop]
  · rw [if_neg henough, if_neg (by omega)]
    cases ending with
    | awaited | broken => rfl
    | closed => dsimp only; rw [List.take_append_drop]

/-- It does not matter in which portions the bytes come. -/
theorem gather_eq_readExact (portions : Portions) (ending : Ending) (count : Nat)
    (bytes : Bytes) : gather portions ending count bytes = readExact ending count bytes := by
  induction count using Nat.strongRecOn generalizing bytes with
  | ind count ih =>
    cases count with
    | zero => simp [gather, readExact]
    | succ count =>
      cases bytes with
      | nil => cases ending <;> simp [gather, readExact]
      | cons b bytes =>
        rw [gather]
        generalize hgiven : min (max 1 (portions (count + 1) (bytes.length + 1)))
          (min (count + 1) (bytes.length + 1)) = given
        have hthere : given ≤ (b :: bytes).length := by
          rw [List.length_cons]
          omega
        rw [ih _ (by omega)]
        exact (readExact_split (by omega) hthere ending).symm

theorem readIn_eq_read (portions : Portions) (limit : Option Int) (ending : Ending)
    (bytes : Bytes) : readIn portions limit ending bytes = read limit ending bytes := by
  rw [readIn, read, funext₂ (gather_eq_readExact portions ending)]

/-! ## Messages -/

/-- What becomes of a message once its first line is there. -/
theorem read_of_line (hline : readLine ending bytes = .gives line rest)
    (hnonempty : line.isEmpty = false) :
    read limit ending bytes =
      match lengthOfLine limit line with
      | .error fault => .refuses fault rest
      | .ok length =>
        match skipFields ending line (rest.length + 1) rest with
        | .waits => .waits
        | .breaks fault => .breaks fault
        | .refuses fault rest => .refuses fault rest
        | .gives () afterHeader =>
          match readExact ending length afterHeader with
          | .waits => .waits
          | .breaks fault => .breaks fault
          | .refuses fault rest => .refuses fault rest
          | .gives body rest =>
            if body.length < length then .refuses (.shortBody length body.length line) rest
            else .gives (some body) rest := by
  rw [read, readBy, hline]
  exact if_neg (by rw [hnonempty]; exact Bool.false_ne_true)

/-- What comes of a message while more may come stays, however the stream goes on. -/
theorem read_append (h : read limit .awaited bytes ≠ .waits) (ending : Ending) (more : Bytes) :
    read limit ending (bytes ++ more) = (read limit .awaited bytes).append more := by
  cases hline : readLine .awaited bytes with
  | waits => simp [read, readBy, hline] at h
  | breaks fault => exact absurd hline readLine_awaited_ne_breaks
  | refuses fault rest => exact absurd hline readLine_awaited_ne_refuses
  | gives line rest =>
  have hnonempty := (readLine_awaited hline).1
  rw [read_of_line hline hnonempty] at h ⊢
  rw [read_of_line (readLine_append hline ending more) hnonempty]
  cases hlength : lengthOfLine limit line with
  | error fault => rfl
  | ok length =>
  simp only [hlength] at h ⊢
  cases hfields : skipFields .awaited line (rest.length + 1) rest with
  | waits => simp [hfields] at h
  | breaks fault => exact absurd hfields skipFields_awaited_ne_breaks
  | refuses fault after => exact absurd hfields (skipFields_awaited_ne_refuses (Nat.lt_succ_self _))
  | gives done after =>
  have hfuel : rest.length + 1 ≤ (rest ++ more).length + 1 := by
    rw [List.length_append]
    omega
  rw [skipFields_append hfields hfuel ending more]
  simp only [hfields] at h ⊢
  cases hbody : readExact .awaited length after with
  | waits => simp [hbody] at h
  | breaks fault =>
    unfold readExact at hbody
    split at hbody <;> cases hbody
  | refuses fault after' =>
    unfold readExact at hbody
    split at hbody <;> cases hbody
  | gives body after' =>
    obtain ⟨hexact, hcount⟩ := readExact_append hbody ending more
    have hwhole : ¬body.length < length := by omega
    simp only [hexact, if_neg hwhole]
    rfl

/-- A body is found whether or not more may come, and takes bytes. -/
theorem read_awaited_of_some (h : read limit ending bytes = .gives (some body) rest) :
    read limit .awaited bytes = .gives (some body) rest ∧ rest.length < bytes.length := by
  cases hline : readLine ending bytes with
  | waits => simp [read, readBy, hline] at h
  | breaks fault => simp [read, readBy, hline] at h
  | refuses fault rest => simp [read, readBy, hline] at h
  | gives line after =>
  cases hnonempty : line.isEmpty with
  | true => simp [read, readBy, hline, hnonempty] at h
  | false =>
  rw [read_of_line hline hnonempty] at h
  cases hlength : lengthOfLine limit line with
  | error fault => simp [hlength] at h
  | ok length =>
  simp only [hlength] at h
  cases hfields : skipFields ending line (after.length + 1) after with
  | waits => simp [hfields] at h
  | breaks fault => simp [hfields] at h
  | refuses fault rest => simp [hfields] at h
  | gives done afterHeader =>
  simp only [hfields] at h
  cases hbody : readExact ending length afterHeader with
  | waits => simp [hbody] at h
  | breaks fault => simp [hbody] at h
  | refuses fault rest => simp [hbody] at h
  | gives body' rest' =>
  simp only [hbody] at h
  split at h
  · cases h
  · next hshort =>
    simp only [Reading.gives.injEq, Option.some.injEq] at h
    obtain ⟨rfl, rfl⟩ := h
    obtain ⟨hfields', hle⟩ := skipFields_awaited hfields
    obtain ⟨hbody', hle'⟩ := readExact_awaited hbody (by omega)
    rcases readLine_eq_gives hline with hwhole | ⟨-, hnone, rfl, rfl⟩
    · have hlt := (readLine_awaited hwhole).2
      rw [read_of_line hwhole hnonempty, hlength]
      simp only [hfields', hbody', if_neg hshort, true_and]
      omega
    · -- A line without its end is no header, so that nothing is read behind it.
      rw [skipFields, readLine] at hfields'
      cases hfields'

/-! ## Streams -/

/-- The bodies that are read from a stream, one after the other. -/
def bodies (limit : Option Int) (bytes : Bytes) : List Bytes :=
  (readAll limit bytes).bodies

theorem readMany_fuel {fuel fuel' : Nat} (hfuel : bytes.length < fuel)
    (hfuel' : bytes.length < fuel') :
    readMany (read limit .closed) fuel bytes = readMany (read limit .closed) fuel' bytes := by
  induction fuel generalizing bytes fuel' with
  | zero => omega
  | succ fuel ih =>
    cases fuel' with
    | zero => omega
    | succ fuel' =>
      rw [readMany, readMany]
      cases hread : read limit .closed bytes with
      | waits | breaks | refuses => rfl
      | gives value rest =>
        cases value with
        | none => rfl
        | some body =>
          have hlt := (read_awaited_of_some hread).2
          have hrest : readMany (read limit .closed) fuel rest =
              readMany (read limit .closed) fuel' rest := ih (by omega) (by omega)
          dsimp only
          rw [hrest]

/-- The first body that is read of a stream is its first for good. -/
theorem bodies_of_some (h : read limit ending bytes = .gives (some body) rest) (more : Bytes) :
    bodies limit (bytes ++ more) = body :: bodies limit (rest ++ more) := by
  obtain ⟨hread, hlt⟩ := read_awaited_of_some h
  have hclosed : read limit .closed (bytes ++ more) = .gives (some body) (rest ++ more) := by
    rw [read_append (by rw [hread]; simp) .closed more, hread]
    rfl
  have hfuel : readMany (read limit .closed) (bytes ++ more).length (rest ++ more) =
      readMany (read limit .closed) ((rest ++ more).length + 1) (rest ++ more) :=
    readMany_fuel (by simpa using hlt) (Nat.lt_succ_self _)
  rw [bodies, readAll, readMany, hclosed]
  dsimp only
  rw [hfuel]
  rfl

theorem bodies_eq_nil
    (h : ∀ body rest, read limit .awaited bytes ≠ .gives (some body) rest) :
    bodies limit bytes = [] := by
  rw [bodies, readAll, readMany]
  cases hread : read limit .closed bytes with
  | waits | breaks | refuses => rfl
  | gives value rest =>
    cases value with
    | none => rfl
    | some body => exact absurd (read_awaited_of_some hread).1 (h body rest)

/-- Where reading ends without a body there is none, and if bytes may still come they bring none. -/
theorem bodies_of_end (hwaits : read limit ending bytes ≠ .waits)
    (hsome : ∀ body rest, read limit ending bytes ≠ .gives (some body) rest) {more : Bytes}
    (hmore : more = [] ∨ ending = .awaited) : bodies limit (bytes ++ more) = [] := by
  apply bodies_eq_nil
  intro body rest hread
  cases hfirst : read limit .awaited bytes with
  | waits =>
    rcases hmore with rfl | rfl
    · rw [List.append_nil, hfirst] at hread
      cases hread
    · exact hwaits hfirst
  | breaks | refuses =>
    rw [read_append (by rw [hfirst]; simp) .awaited more, hfirst] at hread
    cases hread
  | gives value after =>
    rw [read_append (by rw [hfirst]; simp) .awaited more, hfirst] at hread
    simp only [Reading.append, Reading.gives.injEq] at hread
    obtain ⟨rfl, -⟩ := hread
    have hnow : read limit ending (bytes ++ []) = (read limit .awaited bytes).append [] :=
      read_append (by rw [hfirst]; simp) ending []
    rw [hfirst, List.append_nil] at hnow
    exact hsome _ _ hnow

/-- The first of the bodies that are read of a stream is there to be read, however the stream ends,
and the others are read behind it. -/
theorem read_of_bodies {later : List Bytes} (h : bodies limit bytes = body :: later)
    (ending : Ending) :
    ∃ rest, read limit ending bytes = .gives (some body) rest ∧ bodies limit rest = later := by
  have hbody : ∃ found rest, read limit .awaited bytes = .gives (some found) rest := by
    by_contra hnone
    rw [bodies_eq_nil fun found rest hread => hnone ⟨found, rest, hread⟩] at h
    cases h
  obtain ⟨found, rest, hread⟩ := hbody
  have hbodies := bodies_of_some hread []
  rw [List.append_nil, List.append_nil, h] at hbodies
  obtain ⟨rfl, rfl⟩ := List.cons.inj hbodies
  have hnow := read_append (by rw [hread]; simp) ending []
  rw [hread, List.append_nil] at hnow
  exact ⟨rest ++ [], hnow, by rw [List.append_nil]⟩

/-! ## Streams that cannot be read on -/

theorem readLine_ne_waits (hending : ending ≠ .awaited) : readLine ending bytes ≠ .waits := by
  unfold readLine
  cases before? [10] bytes with
  | some line => simp
  | none => cases ending <;> simp_all

theorem readExact_ne_waits (hending : ending ≠ .awaited) (count : Nat) :
    readExact ending count bytes ≠ .waits := by
  unfold readExact
  split
  · simp
  · cases ending <;> simp_all

theorem skipFields_ne_waits (hending : ending ≠ .awaited) (header : Bytes) (fuel : Nat) :
    skipFields ending header fuel bytes ≠ .waits := by
  induction fuel generalizing bytes with
  | zero => simp [skipFields]
  | succ fuel ih =>
    rw [skipFields]
    cases hline : readLine ending bytes with
    | waits => exact absurd hline (readLine_ne_waits hending)
    | breaks fault | refuses fault rest => simp
    | gives line rest =>
      dsimp only
      split
      · simp
      · split
        · simp
        · exact ih

/-- Nothing is waited for once a stream has ended. -/
theorem read_ne_waits (hending : ending ≠ .awaited) : read limit ending bytes ≠ .waits := by
  cases hline : readLine ending bytes with
  | waits => exact absurd hline (readLine_ne_waits hending)
  | breaks fault | refuses fault rest => simp [read, readBy, hline]
  | gives line rest =>
  cases hnonempty : line.isEmpty with
  | true => simp [read, readBy, hline, hnonempty]
  | false =>
  rw [read_of_line hline hnonempty]
  cases lengthOfLine limit line with
  | error fault => simp
  | ok length =>
  dsimp only
  cases hfields : skipFields ending line (rest.length + 1) rest with
  | waits => exact absurd hfields (skipFields_ne_waits hending _ _)
  | breaks fault | refuses fault rest => simp
  | gives done afterHeader =>
  dsimp only
  cases hbody : readExact ending length afterHeader with
  | waits => exact absurd hbody (readExact_ne_waits hending _)
  | breaks fault | refuses fault rest => simp
  | gives body rest =>
    dsimp only
    split <;> simp

/-- Behind the messages at the front there are bytes that are refused, whatever may still come. -/
inductive Malformed (limit : Option Int) : Bytes → Prop
  | refused {bytes rest : Bytes} {fault : FrameFault}
    (hread : read limit .awaited bytes = .refuses fault rest) : Malformed limit bytes
  | behind {bytes body rest : Bytes} (hread : read limit .awaited bytes = .gives (some body) rest)
    (hrest : Malformed limit rest) : Malformed limit bytes

namespace Malformed

theorem append (h : Malformed limit bytes) (more : Bytes) : Malformed limit (bytes ++ more) := by
  induction h with
  | refused hread =>
    have hmore := read_append (by rw [hread]; simp) .awaited more
    rw [hread] at hmore
    exact .refused hmore
  | behind hread hrest ih =>
    have hmore := read_append (by rw [hread]; simp) .awaited more
    rw [hread] at hmore
    exact .behind hmore ih

/-- What comes behind bytes that are refused brings no message. -/
theorem bodies_append (h : Malformed limit bytes) (more : Bytes) :
    bodies limit (bytes ++ more) = bodies limit bytes := by
  induction h with
  | @refused bytes rest fault hread =>
    have hnone (more : Bytes) : bodies limit (bytes ++ more) = [] :=
      bodies_of_end (by rw [hread]; simp) (by rw [hread]; simp) (.inr rfl)
    have hnow := hnone []
    rw [List.append_nil] at hnow
    rw [hnone, hnow]
  | @behind bytes body rest hread hrest ih =>
    have hnow := bodies_of_some hread []
    rw [List.append_nil, List.append_nil] at hnow
    rw [bodies_of_some hread, ih, hnow]

theorem read_ne_waits (h : Malformed limit bytes) (ending : Ending) :
    read limit ending bytes ≠ .waits := by
  cases h with
  | refused hread | behind hread =>
    have hnow := read_append (by rw [hread]; simp) ending []
    rw [hread, List.append_nil] at hnow
    rw [hnow]
    simp [Reading.append]

/-- A message that is read of it leaves the bytes behind it, which are refused. -/
theorem of_some (h : Malformed limit bytes)
    (hread : read limit ending bytes = .gives (some body) rest) : Malformed limit rest := by
  have hnow := (read_awaited_of_some hread).1
  cases h with
  | refused hrefused => simp [hnow] at hrefused
  | behind hbehind hrest =>
    rw [hnow] at hbehind
    obtain ⟨-, rfl⟩ := Reading.gives.inj hbehind
    exact hrest

end Malformed

end TextEditor.Server.Frame
