import TextEditor.Proofs.Server.Frames

/-!
# Two readers of one frame

The reader of bytes that are all there looks for line ends and for the blank line as patterns; the
reader of a stream goes by lines, which end with a newline whether or not a carriage return comes
before it.  What each takes for a frame is stated in the same terms, so that they can be compared:
they give the same body and leave the same bytes as long as the first newline, and the first one
with a line end behind it, belong to line ends themselves.
-/

namespace TextEditor.Server.Frame

variable {bytes body rest line value after header : Bytes} {n : Nat}

/-! ## What both look at -/

/-- The first line of a header, which gives a length, and the bytes after its end. -/
structure Header (bytes line after : Bytes) (n : Nat) : Prop where
  split : bytes = line ++ lineEnd ++ after
  name : lengthField <+: line
  length : ∀ header, readLength (line.drop lengthField.length) header = .ok n

/-- A length is the same whatever shows a fault in it. -/
theorem readLength_of_ok {value : Bytes} (h : readLength value header = .ok n) :
    ∀ header, readLength value header = .ok n := by
  intro header
  unfold readLength at h ⊢
  dsimp only at h ⊢
  split at h
  · cases h
  · next hdigits =>
    split at h
    · cases h
    · next hlength => rw [if_neg hdigits, if_neg hlength, h]

/-- A line that begins as the field with the length does begins with all of its name. -/
theorem prefix_of_take (h : (line ++ lineEnd ++ after).take lengthField.length <+: lengthField) :
    lengthField <+: line := by
  have hlong : lengthField.length ≤ line.length := by
    by_contra hshort
    have hreturn : line ++ [13] <+: (line ++ lineEnd ++ after).take lengthField.length :=
      List.prefix_take_iff.2 ⟨⟨10 :: after, by simp [lineEnd]⟩, by simp; omega⟩
    have hmem := h.subset (hreturn.subset (List.mem_append_right line (List.mem_singleton_self 13)))
    exact absurd (le_toNat_of_mem_lengthField 13 hmem) (by decide)
  rw [List.append_assoc, List.take_append_of_le_length hlong] at h
  rw [← h.eq_of_length (List.length_take_of_le hlong)]
  exact List.take_prefix _ _

/-! ## Bytes that are all there -/

theorem parseHeader_of_foreign (h : ¬ bytes.take lengthField.length <+: lengthField) :
    parseHeader bytes = .error (.missingLength (bytes.take lengthField.length)) := by
  rw [← List.isPrefixOf_iff_prefix, Bool.not_eq_true] at h
  simp only [parseHeader, h]
  rfl

theorem parseHeader_of_unended (hname : bytes.take lengthField.length <+: lengthField)
    (hline : before? lineEnd bytes = none) : parseHeader bytes = .ok none := by
  rw [← List.isPrefixOf_iff_prefix] at hname
  simp only [parseHeader, hname, hline]
  rfl

theorem take_lengthField (value after : Bytes) :
    (lengthField ++ value ++ lineEnd ++ after).take lengthField.length = lengthField := by
  rw [List.append_assoc, List.append_assoc, List.take_left]

/-- What comes of a first line that has ended. -/
theorem parseHeader_of_line
    (hline : before? lineEnd (lengthField ++ value ++ lineEnd ++ after) =
      some (lengthField ++ value)) :
    parseHeader (lengthField ++ value ++ lineEnd ++ after) =
      match readLength value (lengthField ++ value) with
      | .error fault => .error fault
      | .ok length =>
        match before? (lineEnd ++ lineEnd) (lineEnd ++ after) with
        | none => .ok none
        | some fields => .ok (some (length, (lengthField ++ value).length + fields.length + 4)) := by
  have hname : lengthField.isPrefixOf lengthField = true := by decide +kernel
  have hdrop : (lengthField ++ value ++ lineEnd ++ after).drop (lengthField ++ value).length =
      lineEnd ++ after := by
    rw [List.append_assoc, List.drop_left]
  simp only [parseHeader, take_lengthField, hname, hline, List.drop_left, hdrop]
  rfl

/-- The first line is not that of a header, has not ended, or has ended. -/
theorem front_cases (bytes : Bytes) :
    ¬ bytes.take lengthField.length <+: lengthField ∨
      bytes.take lengthField.length <+: lengthField ∧ before? lineEnd bytes = none ∨
      ∃ value after, bytes = lengthField ++ value ++ lineEnd ++ after ∧
        before? lineEnd bytes = some (lengthField ++ value) := by
  by_cases hname : bytes.take lengthField.length <+: lengthField
  · cases hline : before? lineEnd bytes with
    | none => exact .inr (.inl ⟨hname, rfl⟩)
    | some line =>
      obtain ⟨⟨after, hsplit⟩, -⟩ := before?_eq_some_iff.1 hline
      rw [hsplit] at hname
      obtain ⟨value, rfl⟩ := prefix_of_take hname
      exact .inr (.inr ⟨value, after, hsplit, rfl⟩)
  · exact .inl hname

theorem parseHeader_eq_some_iff {headerLength : Nat} :
    parseHeader bytes = .ok (some (n, headerLength)) ↔
      ∃ line after fields, Header bytes line after n ∧ before? lineEnd bytes = some line ∧
        before? (lineEnd ++ lineEnd) (lineEnd ++ after) = some fields ∧
        headerLength = line.length + fields.length + 4 := by
  constructor
  · intro h
    rcases front_cases bytes with hname | ⟨hname, hline⟩ | ⟨value, after, rfl, hline⟩
    · rw [parseHeader_of_foreign hname] at h
      cases h
    · rw [parseHeader_of_unended hname hline] at h
      cases h
    · rw [parseHeader_of_line hline] at h
      cases hlength : readLength value (lengthField ++ value) with
      | error fault => simp [hlength] at h
      | ok length =>
        cases hfields : before? (lineEnd ++ lineEnd) (lineEnd ++ after) with
        | none => simp [hlength, hfields] at h
        | some fields =>
          simp only [hlength, hfields] at h
          cases h
          refine ⟨_, after, fields, ⟨rfl, List.prefix_append _ _, ?_⟩, hline, hfields, rfl⟩
          rw [List.drop_left]
          exact readLength_of_ok hlength
  · rintro ⟨line, after, fields, ⟨rfl, ⟨value, rfl⟩, hlength⟩, hline, hfields, rfl⟩
    rw [List.drop_left] at hlength
    rw [parseHeader_of_line hline, hlength]
    simp only [hfields]

/-- Behind the header there is a body if there are bytes enough for it. -/
theorem decode_of_parseHeader {front behind : Bytes} (hsplit : bytes = front ++ behind)
    (h : parseHeader bytes = .ok (some (n, front.length))) :
    decode bytes =
      if behind.length < n then .ok none else .ok (some (behind.take n, behind.drop n)) := by
  have hlength : bytes.length < front.length + n ↔ behind.length < n := by
    rw [hsplit, List.length_append]
    omega
  simp only [decode, h, hlength, ← List.drop_drop]
  rw [hsplit, List.drop_left]

/-- What the reader of bytes that are all there takes for a frame. -/
theorem decode_eq_some_iff :
    decode bytes = .ok (some (body, rest)) ↔
      ∃ line after, Header bytes line after body.length ∧ before? lineEnd bytes = some line ∧
        ∃ fields, before? (lineEnd ++ lineEnd) (lineEnd ++ after) = some fields ∧
          lineEnd ++ after = fields ++ (lineEnd ++ lineEnd) ++ (body ++ rest) := by
  have hfront : ∀ line after fields behind : Bytes,
      lineEnd ++ after = fields ++ (lineEnd ++ lineEnd) ++ behind →
      line ++ lineEnd ++ after = line ++ fields ++ (lineEnd ++ lineEnd) ++ behind := by
    intro line after fields behind hsplit
    rw [List.append_assoc, hsplit]
    simp only [List.append_assoc]
  have hlength : ∀ line fields : Bytes,
      line.length + fields.length + 4 = (line ++ fields ++ (lineEnd ++ lineEnd)).length := by
    intro line fields
    simp [lineEnd]
    omega
  constructor
  · intro h
    cases hparse : parseHeader bytes with
    | error fault => simp [decode, hparse] at h
    | ok lengths =>
    obtain - | ⟨n, headerLength⟩ := lengths
    · simp [decode, hparse] at h
    obtain ⟨line, after, fields, hheader, hline, hfields, rfl⟩ := parseHeader_eq_some_iff.1 hparse
    obtain ⟨⟨behind, hsplit⟩, -⟩ := before?_eq_some_iff.1 hfields
    rw [hlength] at hparse
    rw [decode_of_parseHeader (hheader.split.trans (hfront line after fields behind hsplit))
      hparse] at h
    split at h
    · cases h
    next hlong =>
    cases h
    rw [List.length_take_of_le (Nat.not_lt.1 hlong), List.take_append_drop]
    exact ⟨line, after, hheader, hline, fields, hfields, hsplit⟩
  · rintro ⟨line, after, hheader, hline, fields, hfields, hsplit⟩
    have hparse := parseHeader_eq_some_iff.2 ⟨line, after, fields, hheader, hline, hfields, rfl⟩
    rw [hlength] at hparse
    rw [decode_of_parseHeader (hheader.split.trans (hfront line after fields _ hsplit)) hparse,
      if_neg (by simp), List.take_left, List.drop_left]

/-! ## A stream that ends -/

/-- A line that is not blank is passed over. -/
theorem before?_lineEnd_append (h : 10 ∉ line) (hblank : line ≠ [13]) (after : Bytes) :
    before? (10 :: lineEnd) (10 :: line ++ 10 :: after) =
      (before? (10 :: lineEnd) (10 :: after)).map (10 :: line ++ ·) := by
  have hprefix : ¬ 10 :: lineEnd <+: 10 :: (line ++ 10 :: after) := by
    intro hprefix
    have hend := (List.cons_prefix_cons.1 hprefix).2
    match line with
    | [] => exact absurd (List.cons_prefix_cons.1 hend).1 (by decide)
    | [b] => exact hblank (by rw [(List.cons_prefix_cons.1 hend).1])
    | b :: c :: line =>
      have hnewline := (List.cons_prefix_cons.1 (List.cons_prefix_cons.1 hend).2).1
      exact h (by simp [hnewline])
  rw [List.cons_append, before?_cons_of_not_prefix hprefix, before?_append_of_not_mem h,
    Option.map_map]
  rfl

/-- Fields are skipped up to a newline with a line end behind it; the first newline is the one
ahead of them. -/
theorem skipFields_eq_gives_iff {fuel : Nat} (hfuel : bytes.length < fuel) :
    skipFields .closed header fuel bytes = .gives () rest ↔
      ∃ front, before? (10 :: lineEnd) (10 :: bytes) = some front ∧
        10 :: bytes = front ++ 10 :: lineEnd ++ rest := by
  induction fuel generalizing bytes with
  | zero => omega
  | succ fuel ih =>
    by_cases hnewline : 10 ∈ bytes
    · obtain ⟨line, after, rfl, hline⟩ := List.eq_append_cons_of_mem hnewline
      have hsome : (line ++ [10]).isEmpty = false := by simp
      rw [skipFields, readLine_of_not_mem hline]
      simp only [hsome, Bool.false_eq_true, if_false]
      by_cases hblank : line = [13]
      · subst hblank
        have hfound : before? (10 :: lineEnd) (10 :: ([13] ++ 10 :: after)) = some [] :=
          before?_of_not_mem List.not_mem_nil lineEnd after
        have hend : [13] ++ [10] = lineEnd := rfl
        rw [if_pos hend, hfound]
        constructor
        · rintro ⟨⟩
          exact ⟨[], rfl, rfl⟩
        · rintro ⟨front, ⟨⟩, hsplit⟩
          cases hsplit
          rfl
      · have hother : line ++ [10] ≠ lineEnd := fun hend =>
          hblank (List.append_inj_left' (hend.trans rfl : line ++ [10] = [13] ++ [10]) rfl)
        rw [if_neg hother, ih (by simp at hfuel; omega), ← List.cons_append,
          before?_lineEnd_append hline hblank]
        constructor
        · rintro ⟨front, hfront, hsplit⟩
          exact ⟨10 :: line ++ front, by rw [hfront]; rfl, by rw [hsplit]; simp⟩
        · rintro ⟨front, hfront, hsplit⟩
          obtain ⟨between, hbetween, rfl⟩ := Option.map_eq_some_iff.1 hfront
          refine ⟨between, hbetween, ?_⟩
          rw [List.append_assoc, List.append_assoc] at hsplit
          rw [List.append_cancel_left hsplit, List.append_assoc]
    · refine iff_of_false (fun h => ?_) ?_
      · rw [skipFields, readLine_closed_of_not_mem hnewline] at h
        dsimp only at h
        split at h
        · cases h
        · split at h
          · next hend => exact hnewline (hend ▸ by decide)
          · exact skipFields_closed_nil h
      · rintro ⟨front, -, hsplit⟩
        cases front with
        | nil => exact hnewline ((List.cons.inj hsplit).2 ▸ by simp [lineEnd])
        | cons d front => exact hnewline ((List.cons.inj hsplit).2 ▸ by simp)

theorem lengthOfLine_eq_ok_iff :
    lengthOfLine none bytes = .ok n ↔
      ∃ line, bytes = line ++ lineEnd ∧ lengthField <+: line ∧
        ∀ header, readLength (line.drop lengthField.length) header = .ok n := by
  have hvalue : ∀ value, lengthOfLine none (lengthField ++ value ++ lineEnd) = .ok n ↔
      readLength value (lengthField ++ value ++ lineEnd) = .ok n := by
    intro value
    rw [lengthOfLine_append]
    cases readLength value (lengthField ++ value ++ lineEnd) <;> rfl
  constructor
  · intro h
    have hparts : lengthField <+: bytes ∧ lineEnd <:+ bytes := by
      unfold lengthOfLine at h
      split at h
      · cases h
      next hname =>
      split at h
      · cases h
      next hend =>
      exact ⟨List.isPrefixOf_iff_prefix.1 (by simpa using hname),
        List.isSuffixOf_iff_suffix.1 (by simpa using hend)⟩
    obtain ⟨hname, line, rfl⟩ := hparts
    have hprefix : lengthField <+: line := by
      have htake : (line ++ lineEnd ++ []).take lengthField.length <+: lengthField := by
        obtain ⟨behind, hbehind⟩ := hname
        exact ⟨[], by rw [List.append_nil, List.append_nil, ← hbehind, List.take_left]⟩
      exact prefix_of_take htake
    obtain ⟨value, rfl⟩ := hprefix
    refine ⟨_, rfl, List.prefix_append _ _, ?_⟩
    rw [List.drop_left]
    exact readLength_of_ok ((hvalue value).1 h)
  · rintro ⟨line, rfl, ⟨value, rfl⟩, hlength⟩
    rw [List.drop_left] at hlength
    exact (hvalue value).2 (hlength _)

/-- A body is whole if all its bytes are there. -/
theorem readExact_eq_gives_iff :
    readExact .closed n bytes = .gives body rest ∧ ¬ body.length < n ↔
      bytes = body ++ rest ∧ body.length = n := by
  unfold readExact
  by_cases henough : n ≤ bytes.length
  · rw [if_pos henough]
    constructor
    · rintro ⟨⟨⟩, -⟩
      exact ⟨(List.take_append_drop n bytes).symm, List.length_take_of_le henough⟩
    · rintro ⟨rfl, rfl⟩
      rw [List.take_left, List.drop_left]
      exact ⟨rfl, Nat.lt_irrefl _⟩
  · rw [if_neg henough]
    refine iff_of_false ?_ ?_
    · rintro ⟨⟨⟩, hlength⟩
      exact henough (Nat.not_lt.1 hlength)
    · rintro ⟨rfl, rfl⟩
      exact henough (by simp)

/-- What comes of a first line once it is there. -/
theorem read_of_start {start : Bytes} (hline : readLine .closed bytes = .gives start after)
    (hstart : start.isEmpty = false) :
    read none .closed bytes = .gives (some body) rest ↔
      lengthOfLine none start = .ok body.length ∧
        skipFields .closed start (after.length + 1) after = .gives () (body ++ rest) := by
  rw [read_of_line hline hstart]
  constructor
  · intro h
    cases hlength : lengthOfLine none start with
    | error fault => simp [hlength] at h
    | ok n =>
    cases hfields : skipFields .closed start (after.length + 1) after with
    | waits => simp [hlength, hfields] at h
    | breaks fault => simp [hlength, hfields] at h
    | refuses fault behind => simp [hlength, hfields] at h
    | gives done behind =>
    cases hbody : readExact .closed n behind with
    | waits => simp [hlength, hfields, hbody] at h
    | breaks fault => simp [hlength, hfields, hbody] at h
    | refuses fault rest => simp [hlength, hfields, hbody] at h
    | gives whole left =>
    simp only [hlength, hfields, hbody] at h
    split at h
    · cases h
    next hwhole =>
    cases h
    obtain ⟨rfl, rfl⟩ := readExact_eq_gives_iff.1 ⟨hbody, hwhole⟩
    exact ⟨rfl, rfl⟩
  · rintro ⟨hlength, hfields⟩
    have hbody := (readExact_eq_gives_iff (n := body.length)).2
      ⟨(rfl : body ++ rest = body ++ rest), rfl⟩
    simp only [hlength, hfields, hbody.1, if_neg hbody.2]

/-- What the reader of a stream takes for a frame. -/
theorem read_eq_some_iff :
    read none .closed bytes = .gives (some body) rest ↔
      ∃ line after, Header bytes line after body.length ∧
        before? [10] bytes = some (line ++ [13]) ∧
        ∃ front, before? (10 :: lineEnd) (lineEnd ++ after) = some front ∧
          lineEnd ++ after = front ++ 10 :: lineEnd ++ (body ++ rest) := by
  have hnot : (10 : UInt8) ∉ [13] := by decide
  by_cases hnewline : 10 ∈ bytes
  · obtain ⟨start, after, rfl, hstart⟩ := List.eq_append_cons_of_mem hnewline
    have hbefore : before? [10] (start ++ 10 :: after) = some start := by
      simpa using before?_of_not_mem hstart [] after
    have hblank : before? (10 :: lineEnd) (lineEnd ++ after) =
        (before? (10 :: lineEnd) (10 :: after)).map ([13] ++ ·) :=
      before?_append_of_not_mem hnot lineEnd (10 :: after)
    rw [read_of_start (readLine_of_not_mem hstart .closed after) (by simp),
      lengthOfLine_eq_ok_iff, skipFields_eq_gives_iff (Nat.lt_succ_self _), hbefore]
    constructor
    · rintro ⟨⟨line, hline, hname, hlength⟩, front, hfront, hsplit⟩
      have hends : start ++ [10] = line ++ [13] ++ [10] := by simpa [lineEnd] using hline
      obtain rfl := List.append_cancel_right hends
      refine ⟨line, after, ⟨by simp [lineEnd], hname, hlength⟩, rfl, [13] ++ front, ?_, ?_⟩
      · rw [hblank, hfront]
        rfl
      · rw [List.append_assoc, List.append_assoc, ← List.append_assoc front, ← hsplit]
        rfl
    · rintro ⟨line, after', ⟨hsplit, hname, hlength⟩, hstart', front, hfront, hbody⟩
      obtain rfl := Option.some.inj hstart'
      obtain rfl : after = after' := by simpa [lineEnd] using hsplit
      rw [hblank] at hfront
      obtain ⟨between, hbetween, rfl⟩ := Option.map_eq_some_iff.1 hfront
      refine ⟨⟨line, by simp [lineEnd], hname, hlength⟩, between, hbetween, ?_⟩
      rw [List.append_assoc, List.append_assoc] at hbody
      rw [List.append_assoc]
      exact (List.cons.inj hbody).2
  · refine iff_of_false (fun h => ?_) ?_
    · cases hempty : bytes.isEmpty with
      | true =>
        rw [List.isEmpty_iff.1 hempty] at h
        cases h
      | false =>
        have hlength := ((read_of_start (readLine_closed_of_not_mem hnewline) hempty).1 h).1
        obtain ⟨line, rfl, -, -⟩ := lengthOfLine_eq_ok_iff.1 hlength
        exact hnewline (by simp [lineEnd])
    · rintro ⟨line, after, hheader, -⟩
      exact hnewline (hheader.split ▸ by simp [lineEnd])

/-! ## Both -/

/-- The first newline, and the first one with a line end behind it, follow a carriage return. -/
structure Plain (bytes : Bytes) : Prop where
  newline : ∀ front ∈ before? [10] bytes, front.getLast? = some 13
  blank : ∀ front ∈ before? (10 :: lineEnd) bytes, front.getLast? = some 13

instance (bytes : Bytes) : Decidable (Plain bytes) :=
  decidable_of_iff ((∀ front ∈ before? [10] bytes, front.getLast? = some 13) ∧
      ∀ front ∈ before? (10 :: lineEnd) bytes, front.getLast? = some 13)
    ⟨fun h => ⟨h.1, h.2⟩, fun h => ⟨h.newline, h.blank⟩⟩

/-- The first newline with a line end behind it is looked for behind the first line. -/
theorem before?_blank (h : 10 ∉ line) (after : Bytes) :
    before? (10 :: lineEnd) (line ++ lineEnd ++ after) =
      (before? (10 :: lineEnd) (lineEnd ++ after)).map (line ++ ·) := by
  rw [List.append_assoc, before?_append_of_not_mem h]

theorem Plain.after_line (h : Plain (line ++ lineEnd ++ after)) (hline : 10 ∉ line) :
    ∀ front ∈ before? (10 :: lineEnd) (lineEnd ++ after), front.getLast? = some 13 := by
  intro front hfront
  have hne : front ≠ [] := by
    rintro rfl
    obtain ⟨⟨behind, hbehind⟩, -⟩ := before?_eq_some_iff.1 hfront
    cases hbehind
  have hwhole := before?_blank hline after
  rw [hfront] at hwhole
  have hlast := h.blank _ hwhole
  rwa [List.getLast?_append_of_ne_nil _ hne] at hlast

/-- The readers of bytes and of a stream give the same body and leave the same bytes, or both give
none, if the first newline and the first one with a line end behind it belong to line ends.  Else
there is no frame of which both give the same. -/
theorem readers_agree (bytes : Bytes) :
    (Plain bytes → ∀ body rest, decode bytes = .ok (some (body, rest)) ↔
      read none .closed bytes = .gives (some body) rest) ∧
    ∀ body rest, decode bytes = .ok (some (body, rest)) →
      read none .closed bytes = .gives (some body) rest → Plain bytes := by
  constructor
  · intro h body rest
    rw [decode_eq_some_iff, read_eq_some_iff]
    refine exists_congr fun line => exists_congr fun after => and_congr_right fun hheader => ?_
    obtain rfl := hheader.split
    have hlines : before? [10] (line ++ lineEnd ++ after) = some (line ++ [13]) ↔
        before? lineEnd (line ++ lineEnd ++ after) = some line := before?_concat_iff h.newline
    rw [hlines]
    refine and_congr_right fun hline => ?_
    have hnewline : 10 ∉ line := fun hmem =>
      not_mem_of_before? (hlines.2 hline) (List.mem_append_left _ hmem)
    have hplain := h.after_line hnewline
    constructor
    · rintro ⟨fields, hfields, hsplit⟩
      exact ⟨fields ++ [13], (before?_concat_iff hplain).2 hfields, by rw [hsplit]; simp [lineEnd]⟩
    · rintro ⟨front, hfront, hsplit⟩
      obtain ⟨fields, rfl⟩ := List.getLast?_eq_some_iff.1 (hplain front hfront)
      exact ⟨fields, before?_cons_of_concat hfront, by rw [hsplit]; simp [lineEnd]⟩
  · intro body rest hdecode hread
    obtain ⟨line, after, hheader, hline, fields, -, hsplit⟩ := decode_eq_some_iff.1 hdecode
    obtain ⟨line', after', hheader', hline', front, hfront, hsplit'⟩ := read_eq_some_iff.1 hread
    obtain rfl : line = line' := Option.some.inj (hline.symm.trans (before?_cons_of_concat hline'))
    obtain rfl := hheader.split
    obtain rfl := List.append_cancel_left hheader'.split
    have hnewline : 10 ∉ line := fun hmem =>
      not_mem_of_before? hline' (List.mem_append_left _ hmem)
    -- the same bytes are left, so both headers end at the same place
    have hends : fields ++ [13] ++ (10 :: lineEnd ++ (body ++ rest)) =
        front ++ (10 :: lineEnd ++ (body ++ rest)) := by
      rw [← List.append_assoc front, ← hsplit', hsplit]
      simp [lineEnd]
    obtain rfl := List.append_cancel_right hends
    refine ⟨fun found hfound => ?_, fun found hfound => ?_⟩
    · rw [hline'] at hfound
      obtain rfl := Option.some.inj hfound
      exact List.getLast?_concat
    · rw [before?_blank hnewline, hfront] at hfound
      obtain rfl := Option.some.inj hfound
      change (line ++ (fields ++ [13])).getLast? = some 13
      rw [← List.append_assoc]
      exact List.getLast?_concat

/-- A header with a second field, and a byte behind the body. -/
theorem readers_agree_fields :
    Plain (Bytes.ofString "Content-Length: 3\r\nX: y\r\n\r\ntwo!") ∧
    decode (Bytes.ofString "Content-Length: 3\r\nX: y\r\n\r\ntwo!") =
      .ok (some (Bytes.ofString "two", Bytes.ofString "!")) ∧
    read none .closed (Bytes.ofString "Content-Length: 3\r\nX: y\r\n\r\ntwo!") =
      .gives (some (Bytes.ofString "two")) (Bytes.ofString "!") := by
  have hplain : Plain (Bytes.ofString "Content-Length: 3\r\nX: y\r\n\r\ntwo!") := by
    decide +kernel
  have hdecode : decode (Bytes.ofString "Content-Length: 3\r\nX: y\r\n\r\ntwo!") =
      .ok (some (Bytes.ofString "two", Bytes.ofString "!")) := by
    decide +kernel
  exact ⟨hplain, hdecode, ((readers_agree _).1 hplain _ _).1 hdecode⟩

/-- Behind a field that ends with a newline alone, the reader of a stream takes the next line end
for the blank line, and what ends the header for the front of the body. -/
theorem readers_differ :
    decode (Bytes.ofString "Content-Length: 3\r\nX: y\n\r\n\r\ntwo") =
      .ok (some (Bytes.ofString "two", [])) ∧
    read none .closed (Bytes.ofString "Content-Length: 3\r\nX: y\n\r\n\r\ntwo") =
      .gives (some (Bytes.ofString "\r\nt")) (Bytes.ofString "wo") := by
  decide +kernel

end TextEditor.Server.Frame
