import TextEditor.Proofs.Buffer.Between
import TextEditor.Proofs.Buffer.Stops
import TextEditor.Proofs.Highlight.Nesting

/-!
# Typing balanced brackets

An opening bracket that is typed brings its partner along, and a closing one that stands at the
caret is stepped over.  So while a word is typed, the brackets that close what is open stand behind
the caret, the innermost first; and when a word is typed whose brackets are balanced, the text has
just that word more, as if nothing had been completed.
-/

namespace TextEditor

namespace BracketPair

/-- The character is typed as it is; a tab and the ends of lines stand for something else. -/
def TypedAsIs (c : Char) : Prop :=
  c ≠ '\t' ∧ c ≠ '\r' ∧ c ≠ '\n'

instance (c : Char) : Decidable (TypedAsIs c) :=
  inferInstanceAs (Decidable (_ ∧ _))

/-- All that opens or closes a pair is different, and its characters are typed as they are. -/
structure Plain (pairs : List BracketPair) : Prop where
  distinct : Distinct pairs
  typed : ∀ pair ∈ pairs, ∀ c ∈ pair.opening ++ pair.closing, TypedAsIs c

/-- The pairs that are open after a character, the innermost first, if it closes none but the
innermost. -/
def await? (pairs waiting : List BracketPair) (c : Char) : Option (List BracketPair) :=
  match opened? pairs [c] with
  | some pair => some (pair :: waiting)
  | none =>
    match closed? pairs [c] with
    | none => if TypedAsIs c then some waiting else none
    | some pair =>
      match waiting with
      | [] => none
      | innermost :: rest => if innermost = pair then some rest else none

/-- The brackets of the word are nested and matched by kind, and everything is closed in the end. -/
def Nested (pairs : List BracketPair) (w : Text) : Prop :=
  w.foldlM (await? pairs) [] = some []

instance (pairs : List BracketPair) (w : Text) : Decidable (Nested pairs w) :=
  inferInstanceAs (Decidable (_ = _))

/-- The brackets that close the pairs, in the order in which they are waited for. -/
def closings (waiting : List BracketPair) : Text :=
  waiting.flatMap closing

theorem closings_cons (pair : BracketPair) (waiting : List BracketPair) :
    closings (pair :: waiting) = pair.closing ++ closings waiting :=
  List.flatMap_cons

variable {pairs : List BracketPair} {pair : BracketPair} {t : Text}

theorem opened?_spec (h : opened? pairs t = some pair) : pair ∈ pairs ∧ t = pair.opening :=
  ⟨List.mem_of_find?_eq_some h, by simpa using List.find?_some h⟩

theorem closed?_spec (h : closed? pairs t = some pair) : pair ∈ pairs ∧ t = pair.closing :=
  ⟨List.mem_of_find?_eq_some h, by simpa using List.find?_some h⟩

/-- What opens a pair closes none. -/
theorem closed?_eq_none (hpairs : Distinct pairs) (h : opened? pairs t = some pair) :
    closed? pairs t = none := by
  obtain ⟨hpair, hopens⟩ := opened?_spec h
  cases hclosed : closed? pairs t with
  | none => rfl
  | some other =>
    obtain ⟨hother, hcloses⟩ := closed?_spec hclosed
    have hsame : pair = other :=
      Highlight.eq_of_mem hpairs hpair hother (t := t) (by simp [hopens]) (by simp [hcloses])
    subst hsame
    exact absurd (hopens.symm.trans hcloses) (Highlight.opening_ne_closing hpairs hpair)

/-- Round, square and curly brackets are typed as they are. -/
theorem plain_standard : Plain standard where
  distinct := by decide
  typed := by
    intro pair hpair c hc
    simp only [standard, List.mem_cons, List.not_mem_nil, or_false] at hpair
    rcases hpair with rfl | rfl | rfl <;>
      · obtain rfl | rfl : c = _ ∨ c = _ := by simpa using hc
        all_goals decide

/-- What a character can do to the pairs that are open. -/
theorem await?_cases {waiting waiting' : List BracketPair} {c : Char}
    (h : await? pairs waiting c = some waiting') :
    (∃ pair, opened? pairs [c] = some pair ∧ waiting' = pair :: waiting) ∨
      (∃ pair, closed? pairs [c] = some pair ∧ waiting = pair :: waiting') ∨
        opened? pairs [c] = none ∧ closed? pairs [c] = none ∧ TypedAsIs c ∧ waiting' = waiting := by
  unfold await? at h
  split at h
  · next pair hopened => exact .inl ⟨pair, hopened, (Option.some.inj h).symm⟩
  next hopened =>
  split at h
  · next hclosed =>
    split at h
    · next htyped => exact .inr (.inr ⟨hopened, hclosed, htyped, (Option.some.inj h).symm⟩)
    · cases h
  next pair hclosed =>
  split at h
  · cases h
  · split at h
    · next hsame => exact .inr (.inl ⟨pair, hclosed, by rw [hsame, Option.some.inj h]⟩)
    · cases h

theorem typedAsIs_of_await? (hpairs : Plain pairs) {waiting waiting' : List BracketPair} {c : Char}
    (h : await? pairs waiting c = some waiting') : TypedAsIs c := by
  rcases await?_cases h with ⟨pair, hopened, -⟩ | ⟨pair, hclosed, -⟩ | ⟨-, -, htyped, -⟩
  · obtain ⟨hpair, hopens⟩ := opened?_spec hopened
    exact hpairs.typed pair hpair c (by simp [← hopens])
  · obtain ⟨hpair, hcloses⟩ := closed?_spec hclosed
    exact hpairs.typed pair hpair c (by simp [← hcloses])
  · exact htyped

end BracketPair

namespace Document

variable {d : Document} {front back : Text} {c : Char}

/-! ## A step over one character -/

theorem slice_ne_pair_of_char (h : d.text = front ++ c :: back) (hc : c ≠ '\r') :
    d.slice front.length (front.length + 2) ≠ ['\r', '\n'] := by
  rw [Ne, slice_eq_pair_iff]
  rintro ⟨k, hk, hreturn, -⟩
  obtain rfl := Int.ofNat_inj.1 hk
  have hchar : d.text[front.length]? = some c := by
    rw [h, List.getElem?_append_right (Nat.le_refl _), Nat.sub_self]
    rfl
  exact hc (Option.some.inj (hchar.symm.trans hreturn))

theorem length_of_char (h : d.text = front ++ c :: back) :
    d.length = front.length + 1 + back.length := by
  rw [length, h, List.length_append, List.length_cons]
  omega

theorem stepRight_char (h : d.text = front ++ c :: back) (hc : c ≠ '\r') :
    d.stepRight front.length = front.length + 1 := by
  have hlength := length_of_char h
  rw [stepRight, if_neg (by omega), if_neg (slice_ne_pair_of_char h hc)]

theorem settle_char (h : d.text = front ++ c :: back) (hc : c ≠ '\r') :
    d.settle (front.length + 1) = front.length + 1 := by
  have hlength := length_of_char h
  have hclamp : d.clamp ((front.length : Int) + 1) = front.length + 1 := by
    simp only [clamp]
    omega
  have hbehind : (((front.length + 1 : Nat) : Int) + 1) = front.length + 2 := by omega
  have hbefore : (((front.length + 1 : Nat) : Int) - 1) = front.length := by omega
  simp only [settle, hclamp, hbehind, hbefore, if_neg (slice_ne_pair_of_char h hc)]
  omega

end Document

namespace Buffer

variable {b : Buffer} {front back : Text} {c : Char}

/-! ## One character -/

/-- What is no bracket is inserted. -/
theorem Between.insertOpener_of_none (h : b.Between front back) {t : Text}
    (ht : BracketPair.opened? b.settings.brackets t = none) :
    (b.insertOpener t).Between (front ++ t) back := by
  refine Between.reconcile ?_
  refine grouped_induction_rests (motive := fun c => c.Between (front ++ t) back) b _
    (fun c hc hcaret => ?_) fun c hc => hc.endGroup
  rw [hc.settings, ht]
  exact (h.of_eq hc.document hcaret).insertText t

/-- An opening bracket is inserted with its partner, and the caret stands between the two. -/
theorem Between.insertOpener_of_some (h : b.Between front back) {t : Text} {pair : BracketPair}
    (ht : BracketPair.opened? b.settings.brackets t = some pair) :
    (b.insertOpener t).Between (front ++ pair.opening) (pair.closing ++ back) := by
  refine Between.reconcile ?_
  refine grouped_induction_rests
    (motive := fun c => c.Between (front ++ pair.opening) (pair.closing ++ back)) b _
    (fun c hc hcaret => ?_) fun c hc => hc.endGroup
  rw [hc.settings, ht]
  have hboth := (h.of_eq hc.document hcaret).insertText (pair.opening ++ pair.closing)
  have hback : (c.insertText (pair.opening ++ pair.closing)).caret.absolute -
      (pair.closing.length : Int) = (front ++ pair.opening).length := by
    rw [hboth.absolute]
    simp only [List.length_append]
    omega
  dsimp only
  rw [hback]
  refine between_collapse ?_
  rw [hboth.text]
  simp only [List.append_assoc]

/-- A step to the right leads behind the character at the caret, unless a pair begins there. -/
theorem Between.move_right (h : b.Between front (c :: back)) (hc : c ≠ '\r') :
    (b.move .right).Between (front ++ [c]) back := by
  have htext : b.text = front ++ [c] ++ back := by
    rw [h.text]
    simp only [List.append_assoc, List.singleton_append]
  have hend : ((front ++ [c]).length : Int) = front.length + 1 := by
    rw [List.length_append, List.length_singleton, Int.natCast_add, Int.natCast_one]
  have hwalk : Document.walk b.document.stepRight 1 front.length = front.length + 1 := by
    rw [Document.walk_eq_iterate]
    exact Document.stepRight_char h.text hc
  have hplace : b.moveSteps b.document.stepRight 1 false =
      (b.collapse (front ++ [c]).length).forgetColumn := by
    simp only [moveSteps, h.absolute, hwalk, Document.settle_char h.text hc, hend, place, collapse,
      Caret.place, Caret.collapse, Int.add_zero, Bool.false_eq_true, if_false]
  have hmove : b.move .right = (b.moveSteps b.document.stepRight 1 false).reconcile := rfl
  rw [hmove, hplace]
  exact (Between.forgetColumn (between_collapse htext)).reconcile

/-- A character typed as it is steps over a bracket, closes one or goes in. -/
theorem insertTyped_of_typedAsIs (hc : BracketPair.TypedAsIs c) :
    b.insertTyped [c] =
      if !b.caret.hasSelection && (BracketPair.closed? b.settings.brackets [c]).isSome then
        if (b.document.charAt? b.caret.absolute).any fun e => [e] = [c] then b.move .right
        else b.insertCloser [c]
      else b.insertOpener [c] := by
  obtain ⟨htab, hreturn, hfeed⟩ := hc
  simp [insertTyped, htab, hreturn, hfeed]

/-- After each character the brackets that are waited for stand behind the caret. -/
theorem Between.insertTyped {waiting waiting' : List BracketPair}
    (h : b.Between front (BracketPair.closings waiting ++ back))
    (hpairs : BracketPair.Plain b.settings.brackets)
    (hawait : BracketPair.await? b.settings.brackets waiting c = some waiting') :
    (b.insertTyped [c]).Between (front ++ [c]) (BracketPair.closings waiting' ++ back) := by
  rw [insertTyped_of_typedAsIs (BracketPair.typedAsIs_of_await? hpairs hawait)]
  rcases BracketPair.await?_cases hawait with
    ⟨pair, hopened, rfl⟩ | ⟨pair, hclosed, rfl⟩ | ⟨hopened, hclosed, -, rfl⟩
  · -- The bracket goes in, and its partner is the first that is waited for.
    have hclosed := BracketPair.closed?_eq_none hpairs.distinct hopened
    have hafter := h.insertOpener_of_some hopened
    rw [hclosed, Option.isSome_none, Bool.and_false, if_neg Bool.false_ne_true,
      BracketPair.closings_cons, List.append_assoc]
    rwa [← (BracketPair.opened?_spec hopened).2] at hafter
  · -- The bracket is the one that stands at the caret.
    have hcloses := (BracketPair.closed?_spec hclosed).2
    rw [BracketPair.closings_cons, ← hcloses, List.append_assoc, List.singleton_append] at h
    have hreturn := (BracketPair.typedAsIs_of_await? hpairs hawait).2.1
    have hstands : (b.document.charAt? b.caret.absolute).any (fun e => [e] = [c]) = true := by
      rw [h.charAt?]
      exact decide_eq_true rfl
    rw [h.unselected, hclosed, Bool.not_false, Option.isSome_some, Bool.and_true, if_pos rfl,
      if_pos hstands]
    exact h.move_right hreturn
  · have hafter := h.insertOpener_of_none hopened
    rwa [hclosed, Option.isSome_none, Bool.and_false, if_neg Bool.false_ne_true]

/-! ## Whole words -/

/-- The buffer after the characters of a word were typed one by one. -/
def typeEach (b : Buffer) (w : Text) : Buffer :=
  w.foldl (fun b c => b.insertTyped [c]) b

theorem settings_insertTyped (b : Buffer) (t : Text) :
    (b.insertTyped t).settings = b.settings := by
  obtain ⟨edits, hamends, -⟩ := undoable_insertTyped b t
  exact hamends.settings

/-- What was typed stands before the caret, and what it waits for behind it. -/
theorem Between.typeEach {waiting waiting' : List BracketPair}
    (h : b.Between front (BracketPair.closings waiting ++ back))
    (hpairs : BracketPair.Plain b.settings.brackets) {w : Text}
    (hawait : w.foldlM (BracketPair.await? b.settings.brackets) waiting = some waiting') :
    (b.typeEach w).Between (front ++ w) (BracketPair.closings waiting' ++ back) := by
  induction w generalizing b front waiting with
  | nil =>
    obtain rfl := Option.some.inj hawait
    rwa [List.append_nil]
  | cons c rest ih =>
    rw [List.foldlM_cons] at hawait
    obtain ⟨next, hnext, hrest⟩ := Option.bind_eq_some_iff.1 hawait
    have hsettings := settings_insertTyped b [c]
    have hafter := ih (h.insertTyped hpairs hnext) (hsettings ▸ hpairs) (hsettings ▸ hrest)
    rwa [List.append_assoc, List.singleton_append] at hafter

/-- A word whose brackets are balanced, typed character by character where nothing is selected, goes
into the text as it is, and the caret behind it. -/
theorem typeEach_of_nested (hpairs : BracketPair.Plain b.settings.brackets) (hinside : b.Inside)
    (hselection : b.caret.hasSelection = false) {w : Text}
    (hw : BracketPair.Nested b.settings.brackets w) :
    let o := b.caret.absolute
    let c := b.typeEach w
    c.text = b.text.take o.toNat ++ w ++ b.text.drop o.toNat ∧
      c.caret.absolute = o + w.length ∧ c.caret.hasSelection = false := by
  intro o c
  have hbefore := between_take_drop hinside hselection
  have hnothing : b.Between (b.text.take o.toNat)
      (BracketPair.closings [] ++ b.text.drop o.toNat) := hbefore
  have hafter : c.Between (b.text.take o.toNat ++ w) (b.text.drop o.toNat) :=
    hnothing.typeEach hpairs hw
  refine ⟨hafter.text, ?_, hafter.unselected⟩
  have hstart : o = (b.text.take o.toNat).length := hbefore.absolute
  rw [hafter.absolute, List.length_append, Int.natCast_add, ← hstart]

/-- A call with an index, typed before a closing bracket of its own kind. -/
theorem typeEach_of_nested_call :
    let b := (create "a.txt" "x = ();".toList 24 80 {}).collapse 5
    (BracketPair.Plain b.settings.brackets ∧ b.Inside ∧ b.caret.hasSelection = false ∧
        BracketPair.Nested b.settings.brackets "f(a[{0}], ())".toList) ∧
      (b.typeEach "f(a[{0}], ())".toList).text = "x = (f(a[{0}], ()));".toList ∧
        (b.typeEach "f(a[{0}], ())".toList).caret.absolute = 18 := by
  intro b
  have hpairs : BracketPair.Plain b.settings.brackets := BracketPair.plain_standard
  have hwithin : b.document.Within 5 := ⟨by decide, by decide +kernel⟩
  have hinside : b.Inside := ⟨hwithin, hwithin, hwithin⟩
  have hw : BracketPair.Nested b.settings.brackets "f(a[{0}], ())".toList := by decide +kernel
  obtain ⟨htext, hcaret, -⟩ := typeEach_of_nested hpairs hinside rfl hw
  exact ⟨⟨hpairs, hinside, rfl, hw⟩, htext.trans (by decide +kernel),
    hcaret.trans (by decide +kernel)⟩

end Buffer

end TextEditor
