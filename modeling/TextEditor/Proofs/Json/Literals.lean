import Mathlib.Algebra.Order.Group.Nat
import Mathlib.Data.List.Basic
import Mathlib.Data.List.TakeWhile
import TextEditor.Json.Parser
import TextEditor.Json.Printer

/-!
# Reading back strings and whole numbers

A text is printed character by character, and each character is read back from its own form,
whether it stands for itself, follows a backslash or is written in hexadecimal digits.  A whole
number is read back wherever the text ends behind it or goes on as it does behind a value.
-/

namespace TextEditor.Json

open Text.Quoted (hexDigits)

/-! ## Strings -/

section Strings

variable {start : Nat} {c : Char} {p : Point} {rest after : Text} {points : List Point}

theorem Literal.ofPoints_chars (s : String) : ofPoints (s.toList.map .char) = .whole s := by
  have hchars : ∀ p ∈ s.toList.map Point.char, p.char?.isSome = true := by
    simp [Point.char?]
  have hall : (s.toList.map Point.char).takeWhile (·.char?.isSome) = s.toList.map .char :=
    List.takeWhile_eq_self_iff.2 hchars
  have hrest : (s.toList.map Point.char).dropWhile (·.char?.isSome) = [] :=
    List.dropWhile_eq_nil_iff.2 hchars
  have hback : (s.toList.map Point.char).filterMap Point.char? = s.toList := by
    rw [List.filterMap_map]
    exact List.filterMap_some
  rw [ofPoints, hall, hrest, hback]
  simp only [String.ofList_toList]

theorem Literal.exists_whole {l : Literal} (h : l.isWhole = true) : ∃ s, l = .whole s := by
  cases l with
  | whole s => exact ⟨s, rfl⟩
  | halved ahead half rest => cases h

/-- A character stands for itself, or follows a backslash as it is or as a letter, or is a control
character in hexadecimal digits. -/
theorem printChar_cases (c : Char) :
    (∃ mark, printChar c = ['\\', mark] ∧ ∀ rest, escape (mark :: rest) = .ok (.char c, 1)) ∨
      (c.toNat < 0x20 ∧ printChar c = '\\' :: 'u' :: hexDigits 4 c.toNat) ∨
      (c ≠ '"' ∧ c ≠ '\\' ∧ 0x20 ≤ c.toNat ∧ printChar c = [c]) := by
  unfold printChar
  split
  · next hc => subst hc; exact .inl ⟨'"', rfl, fun _ => rfl⟩
  split
  · next hc => subst hc; exact .inl ⟨'\\', rfl, fun _ => rfl⟩
  split
  · next hc => subst hc; exact .inl ⟨'n', rfl, fun _ => rfl⟩
  split
  · next hc => subst hc; exact .inl ⟨'r', rfl, fun _ => rfl⟩
  split
  · next hc => subst hc; exact .inl ⟨'t', rfl, fun _ => rfl⟩
  split
  · next hc => subst hc; exact .inl ⟨'b', rfl, fun _ => rfl⟩
  split
  · next hc => subst hc; exact .inl ⟨'f', rfl, fun _ => rfl⟩
  split
  · next hcode => exact .inr (.inl ⟨hcode, rfl⟩)
  · next hquote hslash _ _ _ _ _ hcode =>
    exact .inr (.inr ⟨hquote, hslash, Nat.not_lt.1 hcode, rfl⟩)

/-- The digits of a control character write its number. -/
theorem unit?_hexDigits {n : Nat} (hn : n < 0x20) :
    (hexDigits 4 n).length = 4 ∧ unit? (hexDigits 4 n) = some n := by
  have hall : ∀ n < 0x20,
      (hexDigits 4 n).length = 4 ∧ unit? (hexDigits 4 n) = some n := by decide
  exact hall n hn

theorem unit?_append {digits : Text} (h : digits.length = 4) (rest : Text) :
    unit? (digits ++ rest) = unit? digits := by
  match digits, h with
  | [_, _, _, _], _ => rfl

/-- The reader of escapes asks for one character more than the digits: a string goes on behind. -/
theorem escape_hexDigits {n : Nat} (hn : n < 0x20) (hrest : rest ≠ []) :
    escape ('u' :: hexDigits 4 n ++ rest) = .ok (.char (Char.ofNat n), 5) := by
  obtain ⟨hlength, hunit⟩ := unit?_hexDigits hn
  have hpos := List.length_pos_iff.2 hrest
  have hlong : ¬ (hexDigits 4 n ++ rest).length < 5 := by
    rw [List.length_append]
    omega
  have hlow : decide (0xD800 ≤ n) = false := decide_eq_false (by omega)
  have hchar : Point.ofUnit n = .char (Char.ofNat n) := dif_neg (by omega)
  rw [List.cons_append, escape, if_neg hlong, unit?_append hlength, hunit]
  simp only [hlow, hchar, Bool.false_and, Bool.false_eq_true, if_false]

theorem stringFrom_append (start : Nat) (more rest : Text) :
    stringFrom start more.length (more ++ rest) = stringFrom start 0 rest := by
  induction more with
  | nil => rfl
  | cons c more ih => rw [List.length_cons, List.cons_append, stringFrom, ih]

theorem stringFrom_escaped {more : Text} (hmore : more ≠ [])
    (hescape : escape (more ++ rest) = .ok (p, more.length))
    (hrest : stringFrom start 0 rest = .ok (points, after)) :
    stringFrom start 0 ('\\' :: (more ++ rest)) = .ok (p :: points, after) := by
  rw [stringFrom, if_neg (by simp [hmore]), hescape]
  simp only [stringFrom_append, hrest]

theorem stringFrom_cons (hquote : c ≠ '"') (hslash : c ≠ '\\') (hcode : 0x20 ≤ c.toNat)
    (hrest : stringFrom start 0 rest = .ok (points, after)) :
    stringFrom start 0 (c :: rest) = .ok (.char c :: points, after) := by
  rw [stringFrom]
  · rw [if_neg (Nat.not_lt.2 hcode), hrest]
  · exact hquote
  · exact hslash

/-- Whatever is read from the rest, a character that is printed in front of it is read before. -/
theorem stringFrom_printChar (c : Char) (hrest : stringFrom start 0 rest = .ok (points, after)) :
    stringFrom start 0 (printChar c ++ rest) = .ok (.char c :: points, after) := by
  rcases printChar_cases c with ⟨mark, hprint, hescape⟩ | ⟨hcode, hprint⟩ |
    ⟨hquote, hslash, hcode, hprint⟩
  · rw [hprint]
    exact stringFrom_escaped (List.cons_ne_nil mark []) (hescape rest) hrest
  · have hne : rest ≠ [] := by
      rintro rfl
      cases hrest
    have hescape := escape_hexDigits hcode hne
    have hwidth : 5 = ('u' :: hexDigits 4 c.toNat).length := by
      rw [List.length_cons, (unit?_hexDigits hcode).1]
    rw [Char.ofNat_toNat, hwidth] at hescape
    rw [hprint]
    exact stringFrom_escaped (List.cons_ne_nil _ _) hescape hrest
  · rw [hprint]
    exact stringFrom_cons hquote hslash hcode hrest

theorem stringFrom_flatMap_printChar (start : Nat) (t after : Text) :
    stringFrom start 0 (t.flatMap printChar ++ '"' :: after) = .ok (t.map .char, after) := by
  induction t with
  | nil => rfl
  | cons c t ih =>
    rw [List.flatMap_cons, List.append_assoc]
    exact stringFrom_printChar c ih

theorem printString_append (s : String) (rest : Text) :
    printString printChar s ++ rest = '"' :: (s.toList.flatMap printChar ++ '"' :: rest) := by
  simp [printString, Literal.points, printPoint, List.flatMap_map]

end Strings

/-! ## What follows a value -/

/-- A text that is at its end or goes on as one does behind a value. -/
def Ends (rest : Text) : Prop :=
  ∀ c ∈ rest.head?, c = ',' ∨ c = ']' ∨ c = '}'

theorem Ends.nil : Ends [] := by
  rintro c ⟨⟩

theorem Ends.comma (rest : Text) : Ends (',' :: rest) := by
  rintro c ⟨⟩
  exact .inl rfl

theorem Ends.bracket (rest : Text) : Ends (']' :: rest) := by
  rintro c ⟨⟩
  exact .inr (.inl rfl)

theorem Ends.brace (rest : Text) : Ends ('}' :: rest) := by
  rintro c ⟨⟩
  exact .inr (.inr rfl)

/-! ## Whole numbers -/

section Numbers

variable {n : Nat} {c : Char} {rest : Text}

theorem natOfDigits_toDigits (n : Nat) : natOfDigits (Nat.toDigits 10 n) = n := by
  have hvalue := Nat.ofDigitChars_toDigits (b := 10) (n := n) (by decide) (by decide)
  rw [Nat.ofDigitChars_eq_foldl] at hvalue
  refine Eq.trans (List.foldl_ext _ _ 0 fun total c _ => ?_) hvalue
  rw [Nat.mul_comm]

theorem isDigit_of_mem_toDigits (hc : c ∈ Nat.toDigits 10 n) : c.isDigit = true :=
  Nat.isDigit_of_mem_toDigits (by decide) (by decide) hc

/-- Only zero begins with a zero. -/
theorem eq_zero_of_head?_toDigits (h : (Nat.toDigits 10 n).head? = some '0') : n = 0 := by
  induction n using Nat.strongRecOn with
  | _ n ih =>
    rcases Nat.lt_or_ge n 10 with hlt | hge
    · rw [Nat.toDigits_of_lt_base hlt] at h
      have hall : ∀ n < 10, n.digitChar = '0' → n = 0 := by decide
      exact hall n hlt (Option.some.inj h)
    · rw [Nat.toDigits_of_base_le (by decide) hge,
        List.head?_append_of_ne_nil _ Nat.toDigits_ne_nil] at h
      have hfront := ih (n / 10) (Nat.div_lt_self (by omega) (by decide)) h
      omega

theorem takeWhile_toDigits (n : Nat) (hrest : Ends rest) :
    (Nat.toDigits 10 n ++ rest).takeWhile Char.isDigit = Nat.toDigits 10 n := by
  rw [List.takeWhile_append_of_pos fun c hc => isDigit_of_mem_toDigits hc]
  cases rest with
  | nil => simp
  | cons c rest =>
    have hc : c.isDigit = false := by rcases hrest c rfl with rfl | rfl | rfl <;> rfl
    rw [List.takeWhile_cons_of_neg (by simp [hc]), List.append_nil]

theorem fractionPart_of_ends (hrest : Ends rest) : fractionPart rest = ([], rest) := by
  unfold fractionPart
  split
  · rcases hrest '.' rfl with h | h | h <;> exact absurd h (by decide)
  · rfl

theorem exponentPart_of_ends (hrest : Ends rest) : exponentPart rest = (none, rest) := by
  unfold exponentPart
  split
  · next mark rest =>
    rw [if_neg]
    rcases hrest mark rfl with rfl | rfl | rfl <;> decide
  · rfl

theorem number_zero (hrest : Ends rest) : number ('0' :: rest) = .ok (.int 0, rest) := by
  rw [number]
  simp only [List.length_singleton, List.drop_succ_cons, List.drop_zero,
    fractionPart_of_ends hrest, exponentPart_of_ends hrest]
  rfl

/-- The digits of a number other than zero, with and without a sign. -/
theorem number_toDigits (hpos : n ≠ 0) (hn : n < 10 ^ Text.integerDigitLimit)
    (hrest : Ends rest) :
    number (Nat.toDigits 10 n ++ rest) = .ok (.int n, rest) ∧
      number ('-' :: (Nat.toDigits 10 n ++ rest)) = .ok (.int (-n), rest) := by
  have hsome : (Nat.toDigits 10 n).isEmpty = false :=
    List.isEmpty_eq_false_iff.2 Nat.toDigits_ne_nil
  have hlength : (Nat.toDigits 10 n).length ≤ Text.integerDigitLimit :=
    (Nat.length_toDigits_le_iff (by decide) (by decide)).2 hn
  have hhead : ∀ {c : Char} {body : Text}, Nat.toDigits 10 n ++ rest = c :: body →
      c.isDigit = true ∧ c ≠ '0' := by
    intro c body hbody
    have hfirst := congrArg List.head? hbody
    rw [List.head?_append_of_ne_nil _ Nat.toDigits_ne_nil] at hfirst
    refine ⟨isDigit_of_mem_toDigits (List.mem_of_head? hfirst), ?_⟩
    rintro rfl
    exact hpos (eq_zero_of_head?_toDigits hfirst)
  have hzero : ∀ tail : Text, Nat.toDigits 10 n ++ rest = '0' :: tail → False :=
    fun _ htail => (hhead htail).2 rfl
  have hsign : ∀ body : Text, Nat.toDigits 10 n ++ rest = '-' :: body → False :=
    fun _ hbody => absurd (hhead hbody).1 (by decide)
  constructor
  · rw [number.eq_4 _ hsign hzero, takeWhile_toDigits n hrest, List.drop_left,
      fractionPart_of_ends hrest]
    simp only [exponentPart_of_ends hrest, hsome, natOfDigits_toDigits]
    exact if_neg (Nat.not_lt.2 hlength)
  · rw [number.eq_2 _ hzero, takeWhile_toDigits n hrest, List.drop_left,
      fractionPart_of_ends hrest]
    simp only [exponentPart_of_ends hrest, hsome, natOfDigits_toDigits]
    exact if_neg (Nat.not_lt.2 hlength)

theorem toList_ofNat (n : Nat) : (toString (Int.ofNat n)).toList = Nat.toDigits 10 n :=
  Nat.toList_repr

theorem toList_negSucc (n : Nat) :
    (toString (Int.negSucc n)).toList = '-' :: Nat.toDigits 10 (n + 1) := by
  have htext : toString (Int.negSucc n) = "-" ++ Nat.repr (n + 1) := rfl
  rw [htext, String.toList_append, Nat.toList_repr]
  rfl

theorem number_toString {n : Int} (hn : n.natAbs < 10 ^ Text.integerDigitLimit)
    (hrest : Ends rest) : number ((toString n).toList ++ rest) = .ok (.int n, rest) := by
  match n with
  | .ofNat 0 => exact number_zero hrest
  | .ofNat (n + 1) =>
    rw [toList_ofNat]
    exact (number_toDigits (Nat.succ_ne_zero n) hn hrest).1
  | .negSucc n =>
    rw [toList_negSucc]
    exact (number_toDigits (Nat.succ_ne_zero n) hn hrest).2

/-- No word stands where a number begins. -/
theorem scalar_eq_number {t : Text}
    (hc : c.isDigit = true ∨ c = '-' ∧ ∃ d ∈ t.head?, d.isDigit = true) :
    scalar (c :: t) = number (c :: t) := by
  have hwords : ∀ word ∈ words, ∃ a b more, word.1 = a :: b :: more ∧
      ¬ (a.isDigit = true ∨ a = '-' ∧ b.isDigit = true) := by
    simp [words]
  have hnone : (words.find? fun word => word.1.isPrefixOf (c :: t)) = none := by
    refine List.find?_eq_none.2 fun word hword hprefix => ?_
    obtain ⟨a, b, more, htext, hno⟩ := hwords word hword
    rw [htext, List.isPrefixOf_iff_prefix, List.cons_prefix_cons] at hprefix
    obtain ⟨rfl, tail, rfl⟩ := hprefix
    refine hno (hc.imp_right fun ⟨hminus, d, hd, hdigit⟩ => ⟨hminus, ?_⟩)
    cases hd
    exact hdigit
  rw [scalar, hnone]

/-- A whole number begins with a digit, or with a sign and a digit. -/
theorem exists_toList_toString (n : Int) : ∃ c t, (toString n).toList = c :: t ∧
    (c.isDigit = true ∨ c = '-' ∧ ∃ d ∈ t.head?, d.isDigit = true) := by
  have hdigits : ∀ n : Nat, ∃ c t, Nat.toDigits 10 n = c :: t ∧ c.isDigit = true := by
    intro n
    obtain ⟨c, t, ht⟩ := List.exists_cons_of_ne_nil (Nat.toDigits_ne_nil (b := 10) (n := n))
    exact ⟨c, t, ht, isDigit_of_mem_toDigits (ht ▸ List.mem_cons_self)⟩
  match n with
  | .ofNat n =>
    obtain ⟨c, t, ht, hc⟩ := hdigits n
    exact ⟨c, t, (toList_ofNat n).trans ht, .inl hc⟩
  | .negSucc n =>
    obtain ⟨c, t, ht, hc⟩ := hdigits (n + 1)
    exact ⟨'-', c :: t, (toList_negSucc n).trans (congrArg _ ht), .inr ⟨rfl, c, rfl, hc⟩⟩

/-- A whole number is read back, its sign included. -/
theorem scalar_toString {n : Int} (hn : n.natAbs < 10 ^ Text.integerDigitLimit)
    (hrest : Ends rest) : scalar ((toString n).toList ++ rest) = .ok (.int n, rest) := by
  obtain ⟨c, t, ht, hc⟩ := exists_toList_toString n
  refine Eq.trans ?_ (number_toString hn hrest)
  rw [ht, List.cons_append]
  refine scalar_eq_number (hc.imp_right fun ⟨hminus, d, hd, hdigit⟩ => ⟨hminus, d, ?_, hdigit⟩)
  rw [List.head?_append, Option.mem_def.1 hd]
  rfl

end Numbers

end TextEditor.Json
