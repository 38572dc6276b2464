import TextEditor.Proofs.Keymap.Registry
import TextEditor.Proofs.Text.Lowercase

/-!
# A token stands for a key and a set of modifiers

Modifiers are brought into a form in which each of them has one name, and the names stand in one
order.  The form is a normal form: it depends on the set of names alone, and bringing it into the
form again changes nothing.  None of the names holds a plus sign or white space at its ends, and so
a token can be taken apart again.  Two strokes have one token only if they are one stroke.
-/

namespace TextEditor.Stroke

variable {raw raw' : List String} {modifier name key : String}

/-! ## The name of a modifier -/

/-- A name that a modifier can have in normal form. -/
structure IsName (name : String) : Prop where
  ne_nil : name.toList ≠ []
  tight : Text.Tight name.toList
  /-- It is its own normal form. -/
  modifierName? : modifierName? name = some name

theorem modifierName?_eq_some (h : modifierName? modifier = some name) :
    (∃ other, (other, name) ∈ modifierAliases) ∨
      name.toList = Text.lowercase (Text.trim modifier.toList) ∧ name ≠ "" ∧
        modifierAliases.lookup name = none := by
  simp only [Stroke.modifierName?, Option.ite_none_left_eq_some, Option.some.injEq] at h
  obtain ⟨hne, heq⟩ := h
  cases hlookup : modifierAliases.lookup
      (String.ofList (Text.lowercase (Text.trim modifier.toList))) with
  | some known =>
    obtain ⟨front, back, hsplit, -⟩ := List.lookup_eq_some_iff.1 hlookup
    rw [hlookup, Option.getD_some] at heq
    subst heq
    exact .inl ⟨_, hsplit ▸ List.mem_append_right _ List.mem_cons_self⟩
  | none =>
    rw [hlookup, Option.getD_none] at heq
    subst heq
    exact .inr ⟨String.toList_ofList, by simpa using hne, hlookup⟩

theorem isName_of_mem_modifierAliases {entry : String × String} (h : entry ∈ modifierAliases) :
    IsName entry.2 := by
  have hall : ∀ entry ∈ modifierAliases, entry.2.toList ≠ [] ∧
      Text.trim entry.2.toList = entry.2.toList ∧
        Stroke.modifierName? entry.2 = some entry.2 := by
    decide
  obtain ⟨hne, htrim, hname⟩ := hall entry h
  exact ⟨hne, Text.tight_iff.2 htrim, hname⟩

theorem isName_of_modifierName? (h : modifierName? modifier = some name) : IsName name := by
  rcases modifierName?_eq_some h with ⟨other, hmem⟩ | ⟨heq, hne, hlookup⟩
  · exact isName_of_mem_modifierAliases hmem
  · -- The name is trimmed and in lower case, and so it is its own lower case after trimming.
    have htrim : Text.trim name.toList = name.toList := by
      rw [heq, ← Text.lowercase_trim, Text.trim_trim]
    have hlower : Text.lowercase name.toList = name.toList := by
      rw [heq, Text.lowercase_lowercase]
    refine ⟨fun hnil => hne (String.toList_eq_nil_iff.1 hnil), Text.tight_iff.2 htrim, ?_⟩
    simp only [Stroke.modifierName?, htrim, hlower, String.ofList_toList, hlookup,
      Option.getD_none, String.isEmpty_iff, hne, if_false]

theorem plus_not_mem_of_modifierName? (h : modifierName? modifier = some name)
    (hplus : '+' ∉ modifier.toList) : '+' ∉ name.toList := by
  rcases modifierName?_eq_some h with ⟨other, hmem⟩ | ⟨heq, -, -⟩
  · have hall : ∀ entry ∈ modifierAliases, '+' ∉ entry.2.toList := by decide
    exact hall _ hmem
  · rw [heq]
    exact Text.plus_not_mem_lowercaseAfter fun hmem => hplus (Text.mem_of_mem_trim hmem)

/-! ## Spellings -/

/-- Two ways to write a modifier that make no difference: white space around it, its case, and the
other names of the known ones. -/
inductive Rewords : String → String → Prop
  | padded {modifier : String} {front back : Text}
      (hfront : ∀ c ∈ front, Text.isWhitespace c = true)
      (hback : ∀ c ∈ back, Text.isWhitespace c = true) :
      Rewords modifier (String.ofList (front ++ modifier.toList ++ back))
  | cased {modifier modifier' : String}
      (h : Text.lowercase modifier.toList = Text.lowercase modifier'.toList) :
      Rewords modifier modifier'
  | renamed {other name : String} (h : (other, name) ∈ modifierAliases) : Rewords name other
  | symm {modifier modifier' : String} (h : Rewords modifier modifier') :
      Rewords modifier' modifier
  | trans {modifier modifier' modifier'' : String} (h : Rewords modifier modifier')
      (h' : Rewords modifier' modifier'') : Rewords modifier modifier''

theorem modifierName?_congr {modifier' : String}
    (h : Text.lowercase (Text.trim modifier.toList) = Text.lowercase (Text.trim modifier'.toList)) :
    modifierName? modifier = modifierName? modifier' := by
  simp only [modifierName?, h]

theorem Rewords.modifierName?_eq {modifier' : String} (h : Rewords modifier modifier') :
    modifierName? modifier = modifierName? modifier' := by
  induction h with
  | padded hfront hback =>
    exact modifierName?_congr (by rw [String.toList_ofList, Text.trim_append hfront hback])
  | cased h => exact modifierName?_congr (by rw [Text.lowercase_trim, h, Text.lowercase_trim])
  | @renamed other name h =>
    have hall : ∀ entry ∈ modifierAliases, modifierName? entry.2 = modifierName? entry.1 := by
      decide
    exact hall (other, name) h
  | symm _ ih => exact ih.symm
  | trans _ _ ih ih' => exact ih.trans ih'

/-- The same names come of both. -/
def SameNames (raw raw' : List String) : Prop :=
  ∀ name, name ∈ raw.filterMap modifierName? ↔ name ∈ raw'.filterMap modifierName?

/-- Every modifier of one list that is not blank stands in the other one too, in some spelling;
their order and how often they stand there do not matter. -/
def Reworded (raw raw' : List String) : Prop :=
  (∀ modifier ∈ raw, Text.trim modifier.toList = [] ∨ ∃ other ∈ raw', Rewords modifier other) ∧
    ∀ modifier ∈ raw', Text.trim modifier.toList = [] ∨ ∃ other ∈ raw, Rewords modifier other

theorem names_subset_of_rewords (h : ∀ modifier ∈ raw, Text.trim modifier.toList = [] ∨
      ∃ other ∈ raw', Rewords modifier other)
    (hname : name ∈ raw.filterMap modifierName?) : name ∈ raw'.filterMap modifierName? := by
  obtain ⟨modifier, hmem, hname⟩ := List.mem_filterMap.1 hname
  rcases h modifier hmem with hblank | ⟨other, hother, hrewords⟩
  · rw [modifierName?, hblank] at hname
    cases hname
  · exact List.mem_filterMap.2 ⟨other, hother, hrewords.modifierName?_eq ▸ hname⟩

theorem Reworded.sameNames (h : Reworded raw raw') : SameNames raw raw' :=
  fun _ => ⟨names_subset_of_rewords h.1, names_subset_of_rewords h.2⟩

/-! ## Modifiers in normal form -/

theorem mem_normalModifiers :
    name ∈ normalModifiers raw ↔ name ∈ raw.filterMap modifierName? := by
  simp only [normalModifiers, List.mem_append, List.mem_filter, List.mem_mergeSort,
    List.contains_iff_mem, List.mem_eraseDups, Bool.not_eq_true']
  by_cases hknown : name ∈ modifierOrder <;> simp [hknown]

theorem nodup_eraseDups (names : List String) : names.eraseDups.Nodup := by
  match names with
  | [] => exact List.nodup_nil
  | first :: rest =>
    rw [List.eraseDups_cons, List.nodup_cons]
    refine ⟨fun hmem => ?_, nodup_eraseDups _⟩
    simp [List.mem_eraseDups] at hmem
termination_by names.length
decreasing_by exact Nat.lt_succ_of_le (List.length_filter_le _ _)

theorem perm_eraseDups (h : SameNames raw raw') :
    (raw.filterMap modifierName?).eraseDups.Perm (raw'.filterMap modifierName?).eraseDups := by
  rw [List.perm_ext_iff_of_nodup (nodup_eraseDups _) (nodup_eraseDups _)]
  intro name
  rw [List.mem_eraseDups, List.mem_eraseDups, h name]

/-- Names that are sorted stand in one order only. -/
theorem mergeSort_eq_of_perm {names names' : List String} (h : names.Perm names') :
    names.mergeSort (fun a b => decide (a ≤ b)) = names'.mergeSort fun a b => decide (a ≤ b) := by
  have htrans : ∀ a b c : String, decide (a ≤ b) = true → decide (b ≤ c) = true →
      decide (a ≤ c) = true := by
    simp only [decide_eq_true_eq]
    exact fun _ _ _ => String.le_trans
  have htotal : ∀ a b : String, (decide (a ≤ b) || decide (b ≤ a)) = true := by
    simpa using String.le_total
  have hsorted := List.pairwise_mergeSort htrans htotal
  refine List.Perm.eq_of_pairwise (fun a b _ _ hab hba => ?_) (hsorted names) (hsorted names')
    (((List.mergeSort_perm _ _).trans h).trans (List.mergeSort_perm _ _).symm)
  rw [decide_eq_true_eq] at hab hba
  exact String.le_antisymm hab hba

/-- The normal form depends on the names alone. -/
theorem normalModifiers_congr (h : SameNames raw raw') :
    normalModifiers raw = normalModifiers raw' := by
  have hperm := perm_eraseDups h
  have hcontains : (raw.filterMap modifierName?).eraseDups.contains =
      (raw'.filterMap modifierName?).eraseDups.contains :=
    funext fun name => hperm.contains_eq
  rw [normalModifiers, normalModifiers, hcontains, mergeSort_eq_of_perm (hperm.filter _)]

theorem sameNames_iff : SameNames raw raw' ↔ normalModifiers raw = normalModifiers raw' := by
  refine ⟨normalModifiers_congr, fun h name => ?_⟩
  rw [← mem_normalModifiers, h, mem_normalModifiers]

theorem isName_of_mem_normalModifiers (h : name ∈ normalModifiers raw) : IsName name := by
  obtain ⟨modifier, -, hname⟩ := List.mem_filterMap.1 (mem_normalModifiers.1 h)
  exact isName_of_modifierName? hname

theorem plus_not_mem_of_mem_normalModifiers (hplus : ∀ modifier ∈ raw, '+' ∉ modifier.toList)
    (h : name ∈ normalModifiers raw) : '+' ∉ name.toList := by
  obtain ⟨modifier, hmem, hname⟩ := List.mem_filterMap.1 (mem_normalModifiers.1 h)
  exact plus_not_mem_of_modifierName? hname (hplus modifier hmem)

/-- Bringing modifiers into normal form again changes nothing. -/
theorem normalModifiers_normalModifiers (raw : List String) :
    normalModifiers (normalModifiers raw) = normalModifiers raw := by
  refine normalModifiers_congr fun name => Iff.trans ?_ mem_normalModifiers
  rw [List.mem_filterMap]
  constructor
  · rintro ⟨modifier, hmem, hname⟩
    rw [(isName_of_mem_normalModifiers hmem).modifierName?, Option.some.injEq] at hname
    exact hname ▸ hmem
  · exact fun hmem => ⟨name, hmem, (isName_of_mem_normalModifiers hmem).modifierName?⟩

/-! ## Tokens -/

/-- A key and modifiers whose token can be taken apart: the key is there, has no white space around
it, and there is no plus sign. -/
structure Plain (key : String) (modifiers : List String) : Prop where
  key_ne : key ≠ ""
  key_trim : Text.trim key.toList = key.toList
  key_plus : '+' ∉ key.toList
  modifiers_plus : ∀ modifier ∈ modifiers, '+' ∉ modifier.toList

theorem make_eq_ok (hkey : key ≠ "") (raw : List String) (text : Option String) :
    make key raw text =
      .ok ⟨String.ofList (Text.lowercase key.toList), normalModifiers raw, text⟩ := by
  rw [make, if_neg]
  rwa [String.isEmpty_iff]

/-- A token is taken apart at its plus signs. -/
theorem parse_token {s : Stroke} (h : ∀ part ∈ s.modifiers ++ [s.key],
      part.toList ≠ [] ∧ Text.Tight part.toList ∧ '+' ∉ part.toList) :
    parse s.token = make s.key s.modifiers := by
  have htoken : s.token.toList = ['+'].intercalate ((s.modifiers ++ [s.key]).map String.toList) :=
    String.toList_intercalate
  have hne : (s.modifiers ++ [s.key]).map String.toList ≠ [] := by simp
  have hpieces : ∀ piece ∈ (s.modifiers ++ [s.key]).map String.toList,
      piece ≠ [] ∧ Text.Tight piece ∧ '+' ∉ piece := List.forall_mem_map.2 h
  have htrim := (Text.tight_intercalate ['+'] hne fun piece hpiece =>
    ⟨(hpieces piece hpiece).1, (hpieces piece hpiece).2.1⟩).2.trim_eq
  have hsplit := Text.splitOn_intercalate hne fun piece hpiece => (hpieces piece hpiece).2.2
  have hkept : ((s.modifiers ++ [s.key]).map String.toList).filter (fun part => !part.isEmpty) =
      (s.modifiers ++ [s.key]).map String.toList := by
    rw [List.filter_eq_self]
    intro piece hpiece
    simpa using (hpieces piece hpiece).1
  have hback : ((s.modifiers ++ [s.key]).map String.toList).map String.ofList =
      s.modifiers ++ [s.key] := by
    rw [List.map_map]
    exact List.map_id'' (fun _ => String.ofList_toList) _
  simp only [parse, htoken, htrim, hsplit, hkept, hback, List.reverse_append, List.reverse_cons,
    List.reverse_nil, List.nil_append, List.singleton_append, List.reverse_reverse]

/-- The stroke that a token of a plain key and plain modifiers writes is the one that it is the
token of. -/
theorem Plain.parse_token {modifiers : List String} (h : Plain key modifiers) {s : Stroke}
    {text : Option String} (hs : make key modifiers text = .ok s) :
    parse s.token = .ok { s with text := none } := by
  rw [make_eq_ok h.key_ne, Except.ok.injEq] at hs
  subst hs
  have hlower := Text.lowercase_lowercase key.toList
  have hnil : Text.lowercase key.toList ≠ [] :=
    Text.lowercase_ne_nil fun hnil => h.key_ne (String.toList_eq_nil_iff.1 hnil)
  rw [Stroke.parse_token, make_eq_ok]
  · dsimp only
    rw [String.toList_ofList, hlower, normalModifiers_normalModifiers]
  · simpa using hnil
  · intro part hpart
    rcases List.mem_append.1 hpart with hmem | hmem
    · have hname := isName_of_mem_normalModifiers hmem
      exact ⟨hname.ne_nil, hname.tight,
        plus_not_mem_of_mem_normalModifiers h.modifiers_plus hmem⟩
    · rw [List.mem_singleton] at hmem
      subst hmem
      dsimp only
      rw [String.toList_ofList, Text.tight_iff, ← Text.lowercase_trim, h.key_trim]
      exact ⟨hnil, rfl, Text.plus_not_mem_lowercaseAfter h.key_plus⟩

/-- Two plain strokes have one token just if their keys are one but for their case and their
modifiers have the same names. -/
theorem Plain.token_eq_iff {key' : String} {modifiers modifiers' : List String}
    (h : Plain key modifiers) (h' : Plain key' modifiers') {s s' : Stroke}
    {text text' : Option String} (hs : make key modifiers text = .ok s)
    (hs' : make key' modifiers' text' = .ok s') :
    s.token = s'.token ↔
      Text.lowercase key.toList = Text.lowercase key'.toList ∧ SameNames modifiers modifiers' := by
  have hparse := h.parse_token hs
  have hparse' := h'.parse_token hs'
  rw [make_eq_ok h.key_ne, Except.ok.injEq] at hs
  rw [make_eq_ok h'.key_ne, Except.ok.injEq] at hs'
  subst hs hs'
  constructor
  · intro heq
    rw [heq, hparse', Except.ok.injEq] at hparse
    simp only [Stroke.mk.injEq, String.ofList_inj, and_true] at hparse
    exact ⟨hparse.1.symm, sameNames_iff.2 hparse.2.symm⟩
  · rintro ⟨hkey, hnames⟩
    rw [token, token, hkey, normalModifiers_congr hnames]

/-- In a keymap to which anything was done, the index leads from the token of a stroke to a binding
of a plain stroke just if they are one stroke. -/
theorem Plain.find?_token {key' : String} {modifiers modifiers' : List String}
    (h : Plain key modifiers) (h' : Plain key' modifiers') {s : Stroke} {text text' : Option String}
    (hs : make key modifiers text = .ok s) {requests : List Registry.Request} {id : String}
    {b : Binding} (hb : (requests.foldl Registry.request {}).bindings.find? id = some b)
    (hs' : make key' modifiers' text' = .ok b.stroke) :
    (requests.foldl Registry.request {}).byToken.find? s.token = some id ↔
      Text.lowercase key.toList = Text.lowercase key'.toList ∧ SameNames modifiers modifiers' := by
  have hlinked := Registry.linked_foldl_request Registry.linked_empty requests
  rw [← h.token_eq_iff h' hs hs']
  constructor
  · intro hfound
    obtain ⟨b', hb', htoken⟩ := hlinked.stored _ _ hfound
    rw [hb, Option.some.injEq] at hb'
    exact hb' ▸ htoken.symm
  · intro heq
    rw [heq]
    exact (hlinked.indexed id b hb).2

/-- A stroke of a key without plus sign or white space around it, and of modifiers without plus
sign, is there.  Its token writes its key and its modifiers, and is the token of such another stroke
just if the keys in lower case and the sets of the modifiers' names are equal.  Order, repetition,
case, padding and other names of modifiers make no difference to the stroke; and in a keymap, after
any requests, its token leads to a binding of a plain stroke just if that is the same key with
modifiers of the same names. -/
theorem token_faithful {key : String} {modifiers : List String} (h : Plain key modifiers)
    (text : Option String) :
    ∃ s, make key modifiers text = .ok s ∧
      parse s.token = .ok { s with text := none } ∧
      (∀ modifiers', Reworded modifiers modifiers' → make key modifiers' text = .ok s) ∧
      ∀ {key' : String} {modifiers' : List String} {text' : Option String} {s' : Stroke},
        Plain key' modifiers' → make key' modifiers' text' = .ok s' →
        (s.token = s'.token ↔
          Text.lowercase key.toList = Text.lowercase key'.toList ∧ SameNames modifiers modifiers') ∧
        ∀ (requests : List Registry.Request) (id : String) (b : Binding), b.stroke = s' →
          let r := requests.foldl Registry.request {}
          r.bindings.find? id = some b →
            (r.byToken.find? s.token = some id ↔
              Text.lowercase key.toList = Text.lowercase key'.toList ∧
                SameNames modifiers modifiers') := by
  have hs := make_eq_ok h.key_ne modifiers text
  refine ⟨_, hs, h.parse_token hs, fun modifiers' hreworded => ?_, fun h' hs' => ⟨?_, ?_⟩⟩
  · rw [make_eq_ok h.key_ne, normalModifiers_congr hreworded.sameNames]
  · exact h.token_eq_iff h' hs hs'
  · rintro requests id b rfl
    exact fun hb => h.find?_token h' hs hb hs'

theorem token_faithful_control_shift :
    Plain "K" [" Control", "shift", "CTRL"] ∧ Plain "k" ["Option"] ∧
      ∃ s s', make "K" [" Control", "shift", "CTRL"] = .ok s ∧ make "k" ["Option"] = .ok s' ∧
        s.token = "ctrl+shift+k" ∧ parse "ctrl+shift+k" = .ok s ∧ s.token ≠ s'.token := by
  have h : Plain "K" [" Control", "shift", "CTRL"] := ⟨by decide, by decide, by decide, by decide⟩
  have h' : Plain "k" ["Option"] := ⟨by decide, by decide, by decide, by decide⟩
  obtain ⟨s, hs, hparse, -, hother⟩ := token_faithful h none
  have hmake : make "K" [" Control", "shift", "CTRL"] = .ok ⟨"k", ["ctrl", "shift"], none⟩ := by
    decide +kernel
  obtain rfl := Except.ok.inj (hmake.symm.trans hs)
  have hs' := make_eq_ok h'.key_ne ["Option"] none
  refine ⟨h, h', _, _, hs, hs', by decide, hparse, ?_⟩
  rw [Ne, (hother h' hs').1]
  rintro ⟨-, hnames⟩
  exact absurd ((hnames "alt").2 (by decide)) (by decide)

end TextEditor.Stroke
