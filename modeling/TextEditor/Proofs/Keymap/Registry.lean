import TextEditor.Keymap.Registry
import TextEditor.Proofs.Table

/-!
# Index and bindings of a keymap

The index of a registry leads from a token to a binding, and the token of a binding leads back to
the index.  Registering a binding clears the way first: whatever holds its token goes, and so does
whatever holds its identifier, which may be two bindings, one, or the same one twice.  After that
neither is taken, and putting the binding in keeps both ways in step.
-/

namespace TextEditor.Registry

/-- Index and bindings lead back to each other, and every binding names an action that is there. -/
structure Linked (r : Registry) : Prop where
  bindingKeys : (r.bindings.map Prod.fst).Nodup
  tokenKeys : (r.byToken.map Prod.fst).Nodup
  indexed : ∀ id b, r.bindings.find? id = some b → b.id = id ∧ r.byToken.find? b.token = some id
  stored : ∀ token id, r.byToken.find? token = some id →
    ∃ b, r.bindings.find? id = some b ∧ b.token = token
  registered : ∀ id b, r.bindings.find? id = some b → (r.actions.find? b.actionId).isSome

variable {r : Registry} {b old : Binding} {token : String}

theorem linked_empty : ({} : Registry).Linked where
  bindingKeys := List.nodup_nil
  tokenKeys := List.nodup_nil
  indexed := fun _ _ h => by cases h
  stored := fun _ _ h => by cases h
  registered := fun _ _ h => by cases h

/-- A token that is bound resolves to the action of its binding. -/
theorem Linked.resolve_eq (h : r.Linked) {id : String} (htoken : r.byToken.find? token = some id) :
    ∃ b action, r.bindings.find? id = some b ∧ r.actions.find? b.actionId = some action ∧
      r.resolve token = some action := by
  obtain ⟨b, hb, -⟩ := h.stored token id htoken
  obtain ⟨action, haction⟩ := Option.isSome_iff_exists.1 (h.registered id b hb)
  have hresolve : r.resolve token = some action := by simp [resolve, htoken, hb, haction]
  exact ⟨b, action, hb, haction, hresolve⟩

/-! ## Dropping a binding -/

theorem find?_bindings_drop (r : Registry) (old : Binding) (id : String) :
    (r.drop old).bindings.find? id = if id = old.id then none else r.bindings.find? id := by
  simp only [drop]
  split
  · next hid =>
    subst hid
    exact Table.find?_erase_self _ _
  · next hid => exact Table.find?_erase_of_ne _ hid

/-- The binding that is dropped is the one that its token leads to. -/
theorem find?_byToken_drop (htoken : r.byToken.find? old.token = some old.id) (token : String) :
    (r.drop old).byToken.find? token =
      if token = old.token then none else r.byToken.find? token := by
  simp only [drop, if_pos htoken]
  split
  · next heq =>
    subst heq
    exact Table.find?_erase_self _ _
  · next hne => exact Table.find?_erase_of_ne _ hne

theorem Linked.drop (h : r.Linked) (hold : r.bindings.find? old.id = some old) :
    (r.drop old).Linked := by
  have htoken : r.byToken.find? old.token = some old.id := (h.indexed _ _ hold).2
  have hbytoken := find?_byToken_drop htoken
  refine ⟨Table.keys_erase h.bindingKeys old.id, ?_, ?_, ?_, ?_⟩
  · simp only [Registry.drop, if_pos htoken]
    exact Table.keys_erase h.tokenKeys old.token
  · intro id b hb
    rw [find?_bindings_drop] at hb
    split at hb
    · cases hb
    · next hid =>
      obtain ⟨hname, hindexed⟩ := h.indexed id b hb
      -- The token of the binding that goes leads to no other binding.
      have hne : b.token ≠ old.token := by
        intro heq
        rw [heq, htoken] at hindexed
        exact hid (Option.some.inj hindexed).symm
      rw [hbytoken, if_neg hne]
      exact ⟨hname, hindexed⟩
  · intro token id hid
    rw [hbytoken] at hid
    split at hid
    · cases hid
    · next hne =>
      obtain ⟨b, hb, heq⟩ := h.stored token id hid
      have hother : id ≠ old.id := by
        rintro rfl
        rw [hold] at hb
        exact hne (Option.some.inj hb ▸ heq.symm)
      rw [find?_bindings_drop, if_neg hother]
      exact ⟨b, hb, heq⟩
  · intro id b hb
    rw [find?_bindings_drop] at hb
    split at hb
    · cases hb
    · exact h.registered id b hb

/-- Dropping a binding unbinds its token and no other. -/
theorem Linked.resolve_drop (h : r.Linked) (hold : r.bindings.find? old.id = some old)
    (token : String) :
    (r.drop old).resolve token = if token = old.token then none else r.resolve token := by
  have htoken : r.byToken.find? old.token = some old.id := (h.indexed _ _ hold).2
  have hbytoken := find?_byToken_drop htoken token
  by_cases heq : token = old.token
  · rw [if_pos heq] at hbytoken ⊢
    simp only [resolve, hbytoken]
  rw [if_neg heq] at hbytoken ⊢
  simp only [resolve, hbytoken]
  cases hid : r.byToken.find? token with
  | none => rfl
  | some id =>
    obtain ⟨b, hb, hb'⟩ := h.stored token id hid
    have hother : id ≠ old.id := by
      rintro rfl
      rw [hold] at hb
      exact heq (Option.some.inj hb ▸ hb'.symm)
    dsimp only
    rw [find?_bindings_drop, if_neg hother]
    rfl

/-! ## Clearing the way for a binding -/

/-- The registry without the other binding of the same token. -/
def withoutConflicts (r : Registry) (b : Binding) : Registry :=
  (r.conflicts b).foldl drop r

/-- The registry without whatever holds the token or the identifier of a binding. -/
def cleared (r : Registry) (b : Binding) : Registry :=
  ((r.withoutConflicts b).bindings.find? b.id).toList.foldl drop (r.withoutConflicts b)

/-- The other binding that holds the token, if there is one, is the one that the index has. -/
theorem Linked.conflicts_cases (h : r.Linked) (b : Binding) :
    (r.conflicts b = [] ∧ (r.byToken.find? b.token = none ∨
      r.byToken.find? b.token = some b.id)) ∨
    ∃ old, r.conflicts b = [old] ∧ r.bindings.find? old.id = some old ∧ old.token = b.token ∧
      old.id ≠ b.id := by
  cases hid : r.byToken.find? b.token with
  | none => exact .inl ⟨by simp [conflicts, hid], .inl rfl⟩
  | some id =>
    by_cases hsame : id = b.id
    · exact .inl ⟨by simp [conflicts, hid, hsame], .inr (congrArg some hsame)⟩
    · obtain ⟨old, hold, htoken⟩ := h.stored b.token id hid
      obtain rfl : old.id = id := (h.indexed id old hold).1
      exact .inr ⟨old, by simp [conflicts, hid, hsame, hold], hold, htoken, hsame⟩

/-- Without conflicts no other binding holds the token, and what another token or the identifier
leads to is as it was. -/
theorem Linked.withoutConflicts (h : r.Linked) (b : Binding) :
    (r.withoutConflicts b).Linked ∧ (r.withoutConflicts b).actions = r.actions ∧
      (∀ id, (r.withoutConflicts b).byToken.find? b.token = some id → id = b.id) ∧
        (r.withoutConflicts b).bindings.find? b.id = r.bindings.find? b.id ∧
          ∀ token, token ≠ b.token → (r.withoutConflicts b).resolve token = r.resolve token := by
  rcases h.conflicts_cases b with ⟨hnone, htoken⟩ | ⟨old, hold, hstored, htoken, hother⟩
  · have hsame : r.withoutConflicts b = r := by
      rw [Registry.withoutConflicts, hnone, List.foldl_nil]
    rw [hsame]
    refine ⟨h, rfl, fun id hid => ?_, rfl, fun _ _ => rfl⟩
    rcases htoken with hfree | hown
    · rw [hfree] at hid
      cases hid
    · exact (Option.some.inj (hown.symm.trans hid)).symm
  · have hdrop : r.withoutConflicts b = r.drop old := by
      rw [Registry.withoutConflicts, hold, List.foldl_cons, List.foldl_nil]
    rw [hdrop]
    refine ⟨h.drop hstored, rfl, fun id hid => ?_, ?_, fun token hne => ?_⟩
    · rw [find?_byToken_drop (h.indexed _ _ hstored).2, if_pos htoken.symm] at hid
      cases hid
    · rw [find?_bindings_drop, if_neg (Ne.symm hother)]
    · rw [h.resolve_drop hstored, if_neg (htoken ▸ hne)]

/-- The way is clear: neither token nor identifier is taken, and every other token resolves as it
did, unless it was that of the binding with the same identifier. -/
theorem Linked.cleared (h : r.Linked) (b : Binding) :
    (r.cleared b).Linked ∧ (r.cleared b).actions = r.actions ∧
      (r.cleared b).byToken.find? b.token = none ∧ (r.cleared b).bindings.find? b.id = none ∧
        ∀ token, token ≠ b.token → (∀ old, r.bindings.find? b.id = some old → old.token ≠ token) →
          (r.cleared b).resolve token = r.resolve token := by
  obtain ⟨hlinked, hactions, htoken, hsame, hresolve⟩ := h.withoutConflicts b
  generalize hr : r.withoutConflicts b = r' at hlinked hactions htoken hsame hresolve
  cases hold : r'.bindings.find? b.id with
  | none =>
    have hcleared : r.cleared b = r' := by
      rw [Registry.cleared, hr, hold, Option.toList_none, List.foldl_nil]
    have hfree : r'.byToken.find? b.token = none := by
      refine Option.eq_none_iff_forall_ne_some.2 fun id hid => ?_
      obtain ⟨other, hother, -⟩ := hlinked.stored _ _ hid
      rw [htoken id hid, hold] at hother
      cases hother
    rw [hcleared]
    exact ⟨hlinked, hactions, hfree, hold, fun token hne _ => hresolve token hne⟩
  | some old =>
    obtain ⟨hid, hindexed⟩ := hlinked.indexed _ _ hold
    have hcleared : r.cleared b = r'.drop old := by
      rw [Registry.cleared, hr, hold, Option.toList_some, List.foldl_cons, List.foldl_nil]
    have hstored : r'.bindings.find? old.id = some old := hid ▸ hold
    have hbytoken := find?_byToken_drop (hid ▸ hindexed)
    rw [hcleared]
    refine ⟨hlinked.drop hstored, hactions, ?_, ?_, fun token hne hkept => ?_⟩
    · -- What holds the token can only be the binding that has just gone.
      rw [hbytoken]
      split
      · rfl
      · next hne =>
        refine Option.eq_none_iff_forall_ne_some.2 fun id hfound => ?_
        obtain ⟨other, hother, heq⟩ := hlinked.stored _ _ hfound
        rw [htoken id hfound, hold] at hother
        exact hne (Option.some.inj hother ▸ heq.symm)
    · rw [find?_bindings_drop, if_pos hid.symm]
    · rw [hlinked.resolve_drop hstored, if_neg (hkept old (hsame ▸ hold)).symm, hresolve token hne]

/-! ## Putting a binding in -/

/-- The registry with a binding for which the way is clear. -/
def install (r : Registry) (b : Binding) : Registry :=
  { r with
    bindings := r.bindings.put b.id b
    byToken := r.byToken.put b.token b.id
    revision := r.revision + 1 }

theorem find?_bindings_install (r : Registry) (b : Binding) (id : String) :
    (r.install b).bindings.find? id = if id = b.id then some b else r.bindings.find? id := by
  split
  · next hid =>
    subst hid
    exact Table.find?_put_self _ _ _
  · next hid => exact Table.find?_put_of_ne _ _ hid

theorem find?_byToken_install (r : Registry) (b : Binding) (token : String) :
    (r.install b).byToken.find? token =
      if token = b.token then some b.id else r.byToken.find? token := by
  split
  · next heq =>
    subst heq
    exact Table.find?_put_self _ _ _
  · next hne => exact Table.find?_put_of_ne _ _ hne

section Install

variable (h : r.Linked) (htoken : r.byToken.find? b.token = none)
  (hid : r.bindings.find? b.id = none)

include h htoken hid

theorem Linked.install (haction : (r.actions.find? b.actionId).isSome) : (r.install b).Linked := by
  refine ⟨Table.keys_put h.bindingKeys _ _, Table.keys_put h.tokenKeys _ _, ?_, ?_, ?_⟩
  · intro id c hc
    rw [find?_bindings_install] at hc
    split at hc
    · next heq =>
      obtain rfl := Option.some.inj hc
      rw [find?_byToken_install, if_pos rfl, heq]
      exact ⟨rfl, rfl⟩
    · obtain ⟨hname, hindexed⟩ := h.indexed id c hc
      have hne : c.token ≠ b.token := by
        intro heq
        rw [heq, htoken] at hindexed
        cases hindexed
      rw [find?_byToken_install, if_neg hne]
      exact ⟨hname, hindexed⟩
  · intro token id hfound
    rw [find?_byToken_install] at hfound
    split at hfound
    · next heq =>
      obtain rfl := Option.some.inj hfound
      rw [find?_bindings_install, if_pos rfl]
      exact ⟨b, rfl, heq.symm⟩
    · obtain ⟨c, hc, heq⟩ := h.stored token id hfound
      have hne : id ≠ b.id := by
        rintro rfl
        rw [hid] at hc
        cases hc
      rw [find?_bindings_install, if_neg hne]
      exact ⟨c, hc, heq⟩
  · intro id c hc
    rw [find?_bindings_install] at hc
    split at hc
    · obtain rfl := Option.some.inj hc
      exact haction
    · exact h.registered id c hc

end Install

/-- The token of the new binding resolves to its action, and every other one as before. -/
theorem Linked.resolve_install (h : r.Linked) (hid : r.bindings.find? b.id = none)
    (token : String) :
    (r.install b).resolve token =
      if token = b.token then r.actions.find? b.actionId else r.resolve token := by
  simp only [resolve, find?_byToken_install]
  by_cases heq : token = b.token
  · simp only [if_pos heq, find?_bindings_install, if_true, Option.bind_some]
    rfl
  simp only [if_neg heq]
  cases hfound : r.byToken.find? token with
  | none => rfl
  | some id =>
    obtain ⟨c, hc, -⟩ := h.stored token id hfound
    have hne : id ≠ b.id := by
      rintro rfl
      rw [hid] at hc
      cases hc
    simp only [find?_bindings_install, if_neg hne]
    rfl

/-! ## Changes of a registry -/

/-- What is reported is no part of the links. -/
theorem Linked.of_eq {r' : Registry} (h : r.Linked) (hactions : r'.actions = r.actions)
    (hbindings : r'.bindings = r.bindings) (hbytoken : r'.byToken = r.byToken) : r'.Linked := by
  refine ⟨?_, ?_, ?_, ?_, ?_⟩
  · rw [hbindings]
    exact h.bindingKeys
  · rw [hbytoken]
    exact h.tokenKeys
  · rw [hbindings, hbytoken]
    exact h.indexed
  · rw [hbindings, hbytoken]
    exact h.stored
  · rw [hbindings, hactions]
    exact h.registered

/-- A binding is taken if its action is there, and, unless it replaces others, neither its token
nor its identifier is taken. -/
def Admits (r : Registry) (b : Binding) (replacing : Bool) : Prop :=
  (r.actions.find? b.actionId).isSome ∧
    (replacing = true ∨ r.byToken.find? b.token = none ∧ r.bindings.find? b.id = none)

theorem withBinding_of_admits {replacing : Bool}
    (hadmits : r.Admits b replacing) :
    r.withBinding b replacing = .ok ((r.cleared b).install b) := by
  obtain ⟨haction, hfree⟩ := hadmits
  have hsome : (r.actions.find? b.actionId).isNone = false := by
    rw [Option.isNone_eq_false_iff]
    exact haction
  rcases hfree with rfl | ⟨htoken, hid⟩
  · simp only [withBinding, hsome, Bool.false_eq_true, if_false, Bool.not_true, Bool.and_false,
      Bool.false_and]
    rfl
  · have hnone : r.conflicts b = [] := by simp [conflicts, htoken]
    simp only [withBinding, hsome, Bool.false_eq_true, if_false, hnone, List.isEmpty_nil,
      Bool.not_true, Bool.false_and, hid, Option.isSome_none, Bool.and_false]
    rw [Registry.cleared, Registry.withoutConflicts, hnone]
    simp only [List.foldl_nil, hid, Option.toList_none]
    rfl

theorem Linked.withBinding_of_not_admits (h : r.Linked) {replacing : Bool}
    (hrefused : ¬ r.Admits b replacing) : ∃ fault, r.withBinding b replacing = .error fault := by
  unfold withBinding
  by_cases haction : (r.actions.find? b.actionId).isNone
  · rw [if_pos haction]
    exact ⟨_, rfl⟩
  have hsome : (r.actions.find? b.actionId).isSome := by
    rw [← Option.not_isNone, Bool.not_eq_true']
    exact eq_false_of_ne_true haction
  cases replacing with
  | true => exact absurd ⟨hsome, .inl rfl⟩ hrefused
  | false =>
    rw [if_neg haction]
    rcases h.conflicts_cases b with ⟨hnone, htoken⟩ | ⟨old, hold, -⟩
    · -- Nothing else holds the token, so the identifier must be taken.
      have htaken : (r.bindings.find? b.id).isSome := by
        rcases htoken with hfree | hown
        · by_contra hid
          exact hrefused ⟨hsome, .inr ⟨hfree, by simpa using hid⟩⟩
        · obtain ⟨c, hc, -⟩ := h.stored _ _ hown
          rw [hc]
          rfl
      simp [hnone, htaken]
    · simp [hold]

/-- What is asked of a registry. -/
inductive Request where
  | action (action : Action) (replacing : Bool)
  | bind (binding : Binding) (replacing : Bool)
  | unbind (id : String)

/-- The registry after a request, whether it is met or not. -/
def request (r : Registry) : Request → Registry
  | .action action replacing => (r.registerAction action replacing).2
  | .bind binding replacing => (r.registerBinding binding replacing).2
  | .unbind id => ((r.unregister id).map Prod.snd).getD r

theorem Linked.registerAction (h : r.Linked) (action : Action) (replacing : Bool) :
    (r.registerAction action replacing).2.Linked := by
  unfold Registry.registerAction withAction
  split
  · exact h.of_eq rfl rfl rfl
  · refine ⟨h.bindingKeys, h.tokenKeys, h.indexed, h.stored, fun id b hb => ?_⟩
    -- A binding keeps its action, or has it replaced by one of the same name.
    change ((r.actions.put action.id action).find? b.actionId).isSome
    by_cases hname : b.actionId = action.id
    · rw [hname, Table.find?_put_self]
      rfl
    · rw [Table.find?_put_of_ne _ _ hname]
      exact h.registered id b hb

theorem Linked.registerBinding (h : r.Linked) (b : Binding) (replacing : Bool) :
    (r.registerBinding b replacing).2.Linked := by
  unfold Registry.registerBinding
  by_cases hadmits : r.Admits b replacing
  · obtain ⟨hcleared, hactions, htoken, hid, -⟩ := h.cleared b
    rw [withBinding_of_admits hadmits]
    exact (hcleared.install htoken hid (hactions ▸ hadmits.1)).of_eq rfl rfl rfl
  · obtain ⟨fault, hfault⟩ := h.withBinding_of_not_admits hadmits
    rw [hfault]
    exact h.of_eq rfl rfl rfl

theorem Linked.request (h : r.Linked) (request : Request) : (r.request request).Linked := by
  cases request with
  | action action replacing => exact h.registerAction action replacing
  | bind b replacing => exact h.registerBinding b replacing
  | unbind id =>
    simp only [Registry.request, unregister]
    cases hold : r.bindings.find? id with
    | none => exact h
    | some old =>
      obtain rfl := (h.indexed id old hold).1
      exact (h.drop hold).of_eq rfl rfl rfl

theorem linked_foldl_request (h : r.Linked) (requests : List Request) :
    (requests.foldl request r).Linked := by
  induction requests generalizing r with
  | nil => exact h
  | cons first rest ih => exact ih (h.request first)

/-- After any requests, met or not, the bindings and the index of tokens are inverse to each other,
and every binding names an action, so that a token that the index knows resolves to one.  A further
binding is refused, and then leaves bindings, index and revision as they are, or it is taken: its
token resolves to its action, and any other token as before, unless it was that of the binding that
had its identifier. -/
theorem resolves_of_requests (requests : List Request) :
    let r := requests.foldl request {}
    (∀ id b, (id, b) ∈ r.bindings → b.id = id ∧ r.byToken.find? b.token = some id ∧
      ∃ action, r.actions.find? b.actionId = some action) ∧
    (∀ token id, (token, id) ∈ r.byToken → ∃ b action, r.bindings.find? id = some b ∧
      b.token = token ∧ r.actions.find? b.actionId = some action ∧
        r.resolve token = some action) ∧
    ∀ (b : Binding) (replacing : Bool),
      ((r.registerBinding b replacing).1 = .ok () ↔ r.Admits b replacing) ∧
      match r.registerBinding b replacing with
      | (.error _, r') =>
        r'.bindings = r.bindings ∧ r'.byToken = r.byToken ∧ r'.revision = r.revision
      | (.ok (), r') =>
        (∃ action, r.actions.find? b.actionId = some action ∧
          r'.resolve b.token = some action) ∧
        ∀ token, token ≠ b.token →
          (∀ old, r.bindings.find? b.id = some old → old.token ≠ token) →
            r'.resolve token = r.resolve token := by
  intro r
  have h : r.Linked := linked_foldl_request linked_empty requests
  refine ⟨fun id b hmem => ?_, fun token id hmem => ?_, fun b replacing => ?_⟩
  · have hb := Table.find?_of_mem h.bindingKeys hmem
    obtain ⟨hname, htoken⟩ := h.indexed id b hb
    exact ⟨hname, htoken, Option.isSome_iff_exists.1 (h.registered id b hb)⟩
  · have htoken := Table.find?_of_mem h.tokenKeys hmem
    obtain ⟨b, hb, heq⟩ := h.stored token id htoken
    obtain ⟨b', action, hb', haction, hresolve⟩ := h.resolve_eq htoken
    obtain rfl : b = b' := Option.some.inj (hb.symm.trans hb')
    exact ⟨b, action, hb, heq, haction, hresolve⟩
  · unfold Registry.registerBinding
    by_cases hadmits : r.Admits b replacing
    · obtain ⟨hcleared, hactions, -, hid, hresolve⟩ := h.cleared b
      have hinstall := hcleared.resolve_install hid
      obtain ⟨action, haction⟩ := Option.isSome_iff_exists.1 hadmits.1
      rw [withBinding_of_admits hadmits]
      refine ⟨iff_of_true rfl hadmits, ⟨action, haction, ?_⟩, fun token hne hkept => ?_⟩
      · refine (hinstall b.token).trans ?_
        rw [if_pos rfl, hactions, haction]
      · refine (hinstall token).trans ?_
        rw [if_neg hne, hresolve token hne hkept]
    · obtain ⟨fault, hfault⟩ := h.withBinding_of_not_admits hadmits
      rw [hfault]
      exact ⟨iff_of_false nofun hadmits, rfl, rfl, rfl⟩

end TextEditor.Registry
