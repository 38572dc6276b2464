import Mathlib.Data.List.Infix
import TextEditor.Proofs.Server.RoundTrip

/-!
# Headers that are not complete

The bytes that are there decide whether a header is refused, complete, or waited for.  A refusal is
final, and so is what a complete header says.  While the first line has not ended its value is not
looked at, so that a line of which nothing can become a header is waited for as well; as soon as it
has ended, more bytes are waited for exactly if some of them complete the header.
-/

namespace TextEditor.Server.Frame

variable {bytes line value after : Bytes} {n : Nat}

/-! ## What more bytes leave alone -/

theorem Header.append (h : Header bytes line after n) (more : Bytes) :
    Header (bytes ++ more) line (after ++ more) n where
  split := by rw [h.split, List.append_assoc]
  name := h.name
  length := h.length

/-! ## What is settled -/

theorem header_cases (bytes : Bytes) : parseHeader bytes = .ok none ∨
    (∃ lengths, parseHeader bytes = .ok (some lengths)) ∨
    ∃ fault, parseHeader bytes = .error fault := by
  match parseHeader bytes with
  | .ok none => exact .inl rfl
  | .ok (some lengths) => exact .inr (.inl ⟨lengths, rfl⟩)
  | .error fault => exact .inr (.inr ⟨fault, rfl⟩)

/-- A refusal stays one, with the same message, whatever comes. -/
theorem parseHeader_append_of_error {fault : FrameFault} (h : parseHeader bytes = .error fault)
    (more : Bytes) :
    ∃ fault', parseHeader (bytes ++ more) = .error fault' ∧ fault'.message = fault.message := by
  rcases front_cases bytes with hname | ⟨hname, hline⟩ | ⟨value, after, rfl, hline⟩
  · rw [parseHeader_of_foreign hname] at h
    cases h
    refine ⟨_, parseHeader_of_foreign fun hmore => hname ?_, rfl⟩
    exact (List.IsPrefix.take (List.prefix_append bytes more) _).trans hmore
  · rw [parseHeader_of_unended hname hline] at h
    cases h
  · have hmore := before?_append hline more
    rw [List.append_assoc] at hmore ⊢
    rw [parseHeader_of_line hmore]
    rw [parseHeader_of_line hline] at h
    cases hlength : readLength value (lengthField ++ value) with
    | error fault' =>
      rw [hlength] at h
      cases h
      exact ⟨_, rfl, rfl⟩
    | ok length =>
      rw [hlength] at h
      dsimp only at h
      split at h <;> cases h

/-- What a complete header says stays. -/
theorem parseHeader_append_of_some {lengths : Nat × Nat}
    (h : parseHeader bytes = .ok (some lengths)) (more : Bytes) :
    parseHeader (bytes ++ more) = .ok (some lengths) := by
  obtain ⟨n, headerLength⟩ := lengths
  obtain ⟨line, after, fields, hheader, hline, hfields, hlength⟩ := parseHeader_eq_some_iff.1 h
  refine parseHeader_eq_some_iff.2 ⟨line, after ++ more, fields, hheader.append more,
    before?_append hline more, ?_, hlength⟩
  rw [← List.append_assoc]
  exact before?_append hfields more

/-! ## Values that may become a length -/

/-- Only white space is taken off. -/
theorem exists_eq_trim (bytes : Bytes) :
    ∃ front back, bytes = front ++ trim bytes ++ back ∧
      (∀ b ∈ front, isHeaderSpace b = true) ∧ ∀ b ∈ back, isHeaderSpace b = true := by
  refine ⟨bytes.takeWhile isHeaderSpace,
    (((bytes.dropWhile isHeaderSpace).reverse.takeWhile isHeaderSpace)).reverse, ?_, ?_, ?_⟩
  · rw [trim, List.append_assoc, ← List.reverse_append, List.takeWhile_append_dropWhile,
      List.reverse_reverse, List.takeWhile_append_dropWhile]
  · exact fun b hb => List.mem_takeWhile_imp hb
  · exact fun b hb => List.mem_takeWhile_imp (List.mem_reverse.1 hb)

/-- What may still become the value of the field: white space, digits that are not too many, and
white space again, each of which may be missing. -/
def IsStem (value : Bytes) : Prop :=
  (∀ b ∈ trim value, isDigit b = true) ∧ (trim value).length ≤ Text.integerDigitLimit

instance (value : Bytes) : Decidable (IsStem value) :=
  inferInstanceAs (Decidable (_ ∧ _))

theorem isStem_append {front digits back : Bytes} (hfront : ∀ b ∈ front, isHeaderSpace b = true)
    (hdigits : ∀ b ∈ digits, isDigit b = true) (hback : ∀ b ∈ back, isHeaderSpace b = true)
    (hlength : digits.length ≤ Text.integerDigitLimit) : IsStem (front ++ digits ++ back) := by
  rw [IsStem, trim_append_append hfront (fun b hb => isHeaderSpace_of_isDigit (hdigits b hb)) hback]
  exact ⟨hdigits, hlength⟩

/-- The front of what may become a value may become one. -/
theorem IsStem.mono (h : IsStem value) (hstart : bytes <+: value) : IsStem bytes := by
  obtain ⟨front, back, hvalue, hfront, hback⟩ := exists_eq_trim value
  rw [List.prefix_iff_eq_take.1 hstart, hvalue, List.take_append, List.take_append]
  refine isStem_append (fun b hb => hfront b (List.mem_of_mem_take hb))
    (fun b hb => h.1 b (List.mem_of_mem_take hb)) (fun b hb => hback b (List.mem_of_mem_take hb)) ?_
  exact Nat.le_trans (List.length_take_le' _ _) h.2

/-- White space behind a value changes nothing. -/
theorem IsStem.concat (h : IsStem value) {b : UInt8} (hb : isHeaderSpace b = true) :
    IsStem (value ++ [b]) := by
  obtain ⟨front, back, hvalue, hfront, hback⟩ := exists_eq_trim value
  rw [hvalue, List.append_assoc]
  refine isStem_append hfront h.1 (fun c hc => ?_) h.2
  rcases List.mem_append.1 hc with hc | hc
  · exact hback c hc
  · rw [List.mem_singleton.1 hc]
    exact hb

/-- One digit or more, between white space. -/
def IsNumber (value : Bytes) : Prop :=
  trim value ≠ [] ∧ ∀ b ∈ trim value, isDigit b = true

theorem isNumber_iff :
    IsNumber value ↔ ((trim value).isEmpty || !(trim value).all isDigit) = false := by
  rw [IsNumber, Bool.or_eq_false_iff, List.isEmpty_eq_false_iff, Bool.not_eq_false',
    List.all_eq_true]

theorem readLength_of_not_isNumber (h : ¬ IsNumber value) (header : Bytes) :
    readLength value header = .error (.invalidLength (trim value) header) := by
  rw [isNumber_iff, Bool.not_eq_false] at h
  simp only [readLength, h]
  rfl

theorem readLength_of_many (h : IsNumber value)
    (hmany : Text.integerDigitLimit < (trim value).length) (header : Bytes) :
    readLength value header = .error (.endlessLength (trim value).length) := by
  rw [isNumber_iff] at h
  simp only [readLength, h, gt_iff_lt, hmany, if_true]
  rfl

theorem readLength_of_few (h : IsNumber value)
    (hfew : (trim value).length ≤ Text.integerDigitLimit) (header : Bytes) :
    ∃ n, readLength value header = .ok n := by
  rw [isNumber_iff] at h
  simp only [readLength, h, gt_iff_lt, Nat.not_lt.2 hfew, if_false]
  exact ⟨_, rfl⟩

/-- What is read as a length is a stem that has a digit. -/
theorem exists_readLength_iff (header : Bytes) :
    (∃ n, readLength value header = .ok n) ↔ IsStem value ∧ trim value ≠ [] := by
  by_cases hnumber : IsNumber value
  · by_cases hfew : (trim value).length ≤ Text.integerDigitLimit
    · exact iff_of_true (readLength_of_few hnumber hfew header) ⟨⟨hnumber.2, hfew⟩, hnumber.1⟩
    · rw [readLength_of_many hnumber (Nat.not_le.1 hfew)]
      exact iff_of_false nofun fun h => hfew h.1.2
  · rw [readLength_of_not_isNumber hnumber]
    exact iff_of_false nofun fun h => hnumber ⟨h.2, h.1.1⟩

theorem readLength_eq_endless_iff {header : Bytes} {count : Nat} :
    readLength value header = .error (.endlessLength count) ↔
      IsNumber value ∧ (trim value).length = count ∧ Text.integerDigitLimit < count := by
  by_cases hnumber : IsNumber value
  · by_cases hfew : (trim value).length ≤ Text.integerDigitLimit
    · obtain ⟨n, hn⟩ := readLength_of_few hnumber hfew header
      rw [hn]
      refine iff_of_false nofun ?_
      rintro ⟨-, rfl, hmany⟩
      exact Nat.not_le.2 hmany hfew
    · rw [readLength_of_many hnumber (Nat.not_le.1 hfew)]
      constructor
      · rintro ⟨⟩
        exact ⟨hnumber, rfl, Nat.not_le.1 hfew⟩
      · rintro ⟨-, rfl, -⟩
        rfl
  · rw [readLength_of_not_isNumber hnumber]
    exact iff_of_false nofun fun h => hnumber h.1

/-! ## Bytes that some others complete -/

/-- With some bytes behind them the bytes begin with a header. -/
def Completable (bytes : Bytes) : Prop :=
  ∃ more lengths, parseHeader (bytes ++ more) = .ok (some lengths)

/-- A first line without a line break of its own ends where a line end stands behind it. -/
theorem before?_lineEnd (h : before? lineEnd line = none) (after : Bytes) :
    before? lineEnd (line ++ lineEnd ++ after) = some line := by
  refine before?_eq_some_iff.2 ⟨⟨after, rfl⟩, fun k hk hprefix => ?_⟩
  rw [List.append_assoc, List.drop_append_of_le_length (Nat.le_of_lt hk)] at hprefix
  have hlast : line.drop k ≠ [] := by simpa using hk
  match hdrop : line.drop k with
  | [] => exact hlast hdrop
  | [b] =>
    rw [hdrop] at hprefix
    exact absurd (List.cons_prefix_cons.1 (List.cons_prefix_cons.1 hprefix).2).1 (by decide)
  | b :: c :: rest =>
    have hinfix : lineEnd <:+: line := by
      refine List.IsInfix.trans (List.IsPrefix.isInfix ?_) (List.drop_suffix k line).isInfix
      rw [hdrop] at hprefix ⊢
      exact List.prefix_of_prefix_length_le hprefix (List.prefix_append _ _) (by simp [lineEnd])
    exact before?_eq_none_iff.1 h hinfix

/-- A first line that gives a length is that of a header. -/
theorem exists_parseHeader (hline : before? lineEnd (lengthField ++ value) = none)
    (hvalue : IsStem value) (hsome : trim value ≠ []) :
    ∃ lengths, parseHeader (lengthField ++ value ++ lineEnd ++ lineEnd) = .ok (some lengths) := by
  obtain ⟨n, hn⟩ := (exists_readLength_iff (lengthField ++ value)).2 ⟨hvalue, hsome⟩
  rw [parseHeader_of_line (before?_lineEnd hline lineEnd), hn]
  exact ⟨_, rfl⟩

/-- White space becomes a length by a digit behind it. -/
theorem exists_parseHeader_digit (hline : before? lineEnd (lengthField ++ value) = none)
    (hvalue : trim value = []) :
    ∃ lengths, parseHeader (lengthField ++ (value ++ [48]) ++ lineEnd ++ lineEnd) =
      .ok (some lengths) := by
  have hspace : ∀ b ∈ value, isHeaderSpace b = true := by
    obtain ⟨front, back, hsplit, hfront, hback⟩ := exists_eq_trim value
    rw [hsplit, hvalue, List.append_nil]
    exact List.forall_mem_append.2 ⟨hfront, hback⟩
  have hdigit : ∀ b ∈ [(48 : UInt8)], isDigit b = true := fun b hb => by
    rw [List.mem_singleton.1 hb]
    rfl
  have hnone : ∀ b ∈ ([] : Bytes), isHeaderSpace b = true := nofun
  have hstem := isStem_append hspace hdigit hnone (by decide)
  have htrim := trim_append_append hspace (fun b hb => isHeaderSpace_of_isDigit (hdigit b hb)) hnone
  rw [List.append_nil] at hstem htrim
  refine exists_parseHeader (before?_eq_none_iff.2 fun hinfix => ?_) hstem (by simp [htrim])
  rw [← List.append_assoc] at hinfix
  rcases List.infix_concat_iff.1 hinfix with hend | hinside
  · obtain ⟨front, hfront⟩ := hend
    have hlast := congrArg List.getLast? hfront
    simp at hlast
  · exact before?_eq_none_iff.1 hline hinside

/-- A first line that has not ended is completed exactly if its value may become a length. -/
theorem completable_iff_of_unended (hname : bytes.take lengthField.length <+: lengthField)
    (hline : before? lineEnd bytes = none) :
    Completable bytes ↔ IsStem (bytes.drop lengthField.length) := by
  constructor
  · rintro ⟨more, ⟨n, headerLength⟩, hparse⟩
    obtain ⟨line, after, -, hheader, -⟩ := parseHeader_eq_some_iff.1 hparse
    have hline' : line ++ [13] <+: bytes ++ more := ⟨10 :: after, by simp [hheader.split, lineEnd]⟩
    -- the bytes break off ahead of the newline that ends the line
    have hprefix : bytes <+: line ++ [13] := by
      by_contra hnot
      have hlong : (line ++ lineEnd).length ≤ bytes.length := by
        by_contra hshort
        refine hnot (List.prefix_of_prefix_length_le (List.prefix_append _ _) hline' ?_)
        simp [lineEnd] at hshort ⊢
        omega
      have hwhole : line ++ lineEnd <+: bytes :=
        List.prefix_of_prefix_length_le ⟨after, hheader.split.symm⟩ (List.prefix_append _ _) hlong
      exact before?_eq_none_iff.1 hline
        ((List.suffix_append line lineEnd).isInfix.trans hwhole.isInfix)
    obtain ⟨value, rfl⟩ := hheader.name
    have hvalue := ((exists_readLength_iff []).1 ⟨n, hheader.length []⟩).1
    have hdrop := hprefix.drop lengthField.length
    rw [List.append_assoc, List.drop_left] at hdrop
    rw [List.drop_left] at hvalue
    exact (hvalue.concat (by decide)).mono hdrop
  · intro hstem
    by_cases hlong : lengthField <+: bytes
    · obtain ⟨value, rfl⟩ := hlong
      rw [List.drop_left] at hstem
      by_cases hempty : trim value = []
      · obtain ⟨lengths, hlengths⟩ := exists_parseHeader_digit hline hempty
        exact ⟨[48] ++ lineEnd ++ lineEnd, lengths, by rw [← hlengths]; simp⟩
      · obtain ⟨lengths, hlengths⟩ := exists_parseHeader hline hstem hempty
        exact ⟨lineEnd ++ lineEnd, lengths, by rw [← hlengths]; simp⟩
    · have hshort : bytes.length < lengthField.length := by
        by_contra hnot
        rw [← hname.eq_of_length (List.length_take_of_le (Nat.not_lt.1 hnot))] at hlong
        exact hlong (List.take_prefix _ _)
      rw [List.take_of_length_le (Nat.le_of_lt hshort)] at hname
      obtain ⟨back, hback⟩ := hname
      have hnone : before? lineEnd (lengthField ++ []) = none := by decide +kernel
      obtain ⟨lengths, hlengths⟩ := exists_parseHeader_digit hnone rfl
      exact ⟨back ++ [48] ++ lineEnd ++ lineEnd, lengths, by rw [← hlengths, ← hback]; simp⟩

/-- A first line that has ended and gives a length is completed by the blank line. -/
theorem completable_of_line (hline : before? lineEnd (lengthField ++ value ++ lineEnd ++ after) =
      some (lengthField ++ value)) (hlength : ∃ n, readLength value (lengthField ++ value) = .ok n) :
    Completable (lengthField ++ value ++ lineEnd ++ after) := by
  obtain ⟨n, hn⟩ := hlength
  have hmore := before?_append hline (lineEnd ++ lineEnd)
  rw [List.append_assoc] at hmore
  have hblank : lineEnd ++ lineEnd <:+: lineEnd ++ (after ++ (lineEnd ++ lineEnd)) :=
    ⟨lineEnd ++ after, [], by simp⟩
  obtain ⟨fields, hfields⟩ := exists_before? hblank
  refine ⟨lineEnd ++ lineEnd, (n, (lengthField ++ value).length + fields.length + 4), ?_⟩
  rw [List.append_assoc, parseHeader_of_line hmore, hn]
  dsimp only
  rw [show before? (lineEnd ++ lineEnd) (lineEnd ++ (after ++ (lineEnd ++ lineEnd))) = some fields
    from hfields]

/-! ## The verdict -/

/-- The first line begins with the field and has not ended, and its value can become no length. -/
structure Spoiled (bytes : Bytes) : Prop where
  name : bytes.take lengthField.length <+: lengthField
  unended : before? lineEnd bytes = none
  value : ¬ IsStem (bytes.drop lengthField.length)

/-- The first line gives a length of so many digits, which is more than are read. -/
def Endless (bytes : Bytes) (count : Nat) : Prop :=
  ∃ value, before? lineEnd bytes = some (lengthField ++ value) ∧ IsNumber value ∧
    (trim value).length = count ∧ Text.integerDigitLimit < count

theorem not_completable_of_error {fault : FrameFault} (h : parseHeader bytes = .error fault) :
    ¬ Completable bytes := by
  rintro ⟨more, lengths, hlengths⟩
  obtain ⟨fault', hfault, -⟩ := parseHeader_append_of_error h more
  rw [hlengths] at hfault
  cases hfault

/-- What more bytes are waited for completes the header, or the first line is spoiled. -/
theorem completable_or_spoiled (h : parseHeader bytes = .ok none) :
    Completable bytes ∨ Spoiled bytes := by
  rcases front_cases bytes with hname | ⟨hname, hline⟩ | ⟨value, after, rfl, hline⟩
  · rw [parseHeader_of_foreign hname] at h
    cases h
  · by_cases hstem : IsStem (bytes.drop lengthField.length)
    · exact .inl ((completable_iff_of_unended hname hline).2 hstem)
    · exact .inr ⟨hname, hline, hstem⟩
  · refine .inl (completable_of_line hline ?_)
    rw [parseHeader_of_line hline] at h
    cases hlength : readLength value (lengthField ++ value) with
    | error fault =>
      rw [hlength] at h
      cases h
    | ok n => exact ⟨n, rfl⟩

theorem Spoiled.parseHeader (h : Spoiled bytes) : parseHeader bytes = .ok none :=
  parseHeader_of_unended h.name h.unended

theorem Spoiled.not_completable (h : Spoiled bytes) : ¬ Completable bytes := fun hmore =>
  h.value ((completable_iff_of_unended h.name h.unended).1 hmore)

/-- A length is refused for the number of its digits only. -/
theorem parseHeader_eq_endless_iff {count : Nat} :
    parseHeader bytes = .error (.endlessLength count) ↔ Endless bytes count := by
  rcases front_cases bytes with hname | ⟨hname, hline⟩ | ⟨value, after, rfl, hline⟩
  · rw [parseHeader_of_foreign hname]
    refine iff_of_false nofun ?_
    rintro ⟨value, hline, -⟩
    obtain ⟨⟨after, hsplit⟩, -⟩ := before?_eq_some_iff.1 hline
    have hfield : bytes.take lengthField.length = lengthField :=
      (congrArg (List.take lengthField.length) hsplit).trans (take_lengthField value after)
    exact hname ⟨[], by rw [List.append_nil, hfield]⟩
  · rw [parseHeader_of_unended hname hline]
    refine iff_of_false nofun ?_
    rintro ⟨value, hvalue, -⟩
    rw [hline] at hvalue
    cases hvalue
  · have hendless : Endless (lengthField ++ value ++ lineEnd ++ after) count ↔
        readLength value (lengthField ++ value) = .error (.endlessLength count) := by
      rw [readLength_eq_endless_iff]
      constructor
      · rintro ⟨value', hline', hnumber⟩
        rw [hline] at hline'
        obtain rfl := List.append_cancel_left (Option.some.inj hline')
        exact hnumber
      · exact fun hnumber => ⟨value, hline, hnumber⟩
    rw [hendless, parseHeader_of_line hline]
    cases readLength value (lengthField ++ value) with
    | error fault => exact ⟨fun h => by cases h; rfl, fun h => by cases h; rfl⟩
    | ok length =>
      refine iff_of_false (fun h => ?_) nofun
      dsimp only at h
      split at h <;> cases h

/-- Bytes are refused exactly if no others complete them to a header, and more are waited for
exactly if they are no header but some others complete them; but while the first line has not ended
more are waited for even if it is spoiled.  A length of too many digits is refused for their number
and every other fault is one of the frame. -/
theorem verdicts (bytes : Bytes) :
    ((∃ fault, parseHeader bytes = .error fault) ↔ ¬ Completable bytes ∧ ¬ Spoiled bytes) ∧
    (parseHeader bytes = .ok none ↔
      (∀ lengths, parseHeader bytes ≠ .ok (some lengths)) ∧ (Completable bytes ∨ Spoiled bytes)) ∧
    ¬ (Completable bytes ∧ Spoiled bytes) ∧
    ∀ count, parseHeader bytes = .error (.endlessLength count) ↔ Endless bytes count := by
  refine ⟨?_, ?_, fun h => h.2.not_completable h.1, fun count => parseHeader_eq_endless_iff⟩
  · constructor
    · rintro ⟨fault, hfault⟩
      refine ⟨not_completable_of_error hfault, fun hspoiled => ?_⟩
      rw [hspoiled.parseHeader] at hfault
      cases hfault
    · rintro ⟨hnone, hsound⟩
      rcases header_cases bytes with hwaits | ⟨lengths, hlengths⟩ | hfault
      · exact absurd (completable_or_spoiled hwaits) (not_or.2 ⟨hnone, hsound⟩)
      · exact absurd ⟨[], lengths, by rw [List.append_nil, hlengths]⟩ hnone
      · exact hfault
  · constructor
    · intro hwaits
      refine ⟨fun lengths h => ?_, completable_or_spoiled hwaits⟩
      rw [hwaits] at h
      cases h
    · rintro ⟨hnot, hmore⟩
      rcases header_cases bytes with hwaits | ⟨lengths, hlengths⟩ | ⟨fault, hfault⟩
      · exact hwaits
      · exact absurd hlengths (hnot lengths)
      · rcases hmore with hcompletable | hspoiled
        · exact absurd hcompletable (not_completable_of_error hfault)
        · exact hspoiled.parseHeader

/-- Nothing completes a letter in place of a length, and yet more is waited for; one digit more than
are read is refused for their number. -/
theorem spoiled_letter :
    (parseHeader (Bytes.ofString "Content-Length: x") = .ok none ∧
      ¬ Completable (Bytes.ofString "Content-Length: x")) ∧
    parseHeader (lengthField ++ List.replicate 4301 48 ++ lineEnd) =
      .error (.endlessLength 4301) := by
  have hspoiled : Spoiled (Bytes.ofString "Content-Length: x") :=
    ⟨by decide +kernel, by decide +kernel, by decide +kernel⟩
  have hdigits : ∀ b ∈ List.replicate 4301 (48 : UInt8), isDigit b = true := fun b hb => by
    rw [List.eq_of_mem_replicate hb]
    rfl
  have htrim : trim (List.replicate 4301 48) = List.replicate 4301 48 :=
    trim_of_not_isHeaderSpace fun b hb => isHeaderSpace_of_isDigit (hdigits b hb)
  have hreturn : (13 : UInt8) ∉ lengthField ++ List.replicate 4301 48 := by
    rw [List.mem_append, not_or, List.mem_replicate]
    exact ⟨fun h => absurd (le_toNat_of_mem_lengthField 13 h) (by decide), by decide⟩
  have hline : before? lineEnd (lengthField ++ List.replicate 4301 48 ++ lineEnd) =
      some (lengthField ++ List.replicate 4301 48) := by
    have hfound := before?_of_not_mem hreturn [10] []
    rwa [List.append_nil] at hfound
  refine ⟨⟨hspoiled.parseHeader, hspoiled.not_completable⟩, parseHeader_eq_endless_iff.2 ?_⟩
  have hnumber : IsNumber (List.replicate 4301 48) := ⟨by rw [htrim]; decide, by rwa [htrim]⟩
  exact ⟨_, hline, hnumber, by rw [htrim, List.length_replicate], by decide⟩

end TextEditor.Server.Frame
