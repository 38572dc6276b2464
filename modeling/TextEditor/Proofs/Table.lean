import Mathlib.Data.List.Basic
import TextEditor.Table

/-!
# Tables with one entry for each name

What look-up finds after a change of a table, and where an entry of it comes from.
-/

namespace TextEditor.Table

universe u

variable {α β : Type u} {t : Table α} {key other : String} {value : α}

theorem mem_of_find? (h : t.find? key = some value) : (key, value) ∈ t := by
  induction t with
  | nil => simp [find?] at h
  | cons entry rest ih =>
    obtain ⟨k, v⟩ := entry
    by_cases hk : (key == k) = true
    · obtain rfl : key = k := by simpa using hk
      obtain rfl : v = value := by simpa [find?, List.lookup_cons] using h
      exact List.mem_cons_self
    · simp only [find?, List.lookup_cons, hk] at h
      exact List.mem_cons_of_mem _ (ih h)

theorem find?_of_mem (hkeys : (t.map Prod.fst).Nodup) (h : (key, value) ∈ t) :
    t.find? key = some value := by
  induction t with
  | nil => simp at h
  | cons entry rest ih =>
    obtain ⟨k, v⟩ := entry
    obtain ⟨hnew, hrest⟩ := List.nodup_cons.1 hkeys
    rcases List.mem_cons.1 h with heq | hmem
    · obtain ⟨rfl, rfl⟩ := Prod.mk.inj heq
      simp [find?]
    · have hne : (key == k) = false := by
        refine beq_eq_false_iff_ne.2 fun hkey => hnew ?_
        exact List.mem_map.2 ⟨_, hmem, hkey⟩
      simp only [find?, List.lookup_cons, hne]
      exact ih hrest hmem

theorem mem_put {entry : String × α} (h : entry ∈ t.put key value) :
    entry = (key, value) ∨ entry ∈ t := by
  induction t with
  | nil => exact .inl (List.mem_singleton.1 h)
  | cons first rest ih =>
    obtain ⟨k, v⟩ := first
    rw [put] at h
    split at h
    · exact (List.mem_cons.1 h).imp_right (List.mem_cons_of_mem _)
    · rcases List.mem_cons.1 h with rfl | hrest
      · exact .inr List.mem_cons_self
      · exact (ih hrest).imp_right (List.mem_cons_of_mem _)

theorem keys_put (hkeys : (t.map Prod.fst).Nodup) (key : String) (value : α) :
    ((t.put key value).map Prod.fst).Nodup := by
  induction t with
  | nil => simp [put]
  | cons first rest ih =>
    obtain ⟨k, v⟩ := first
    obtain ⟨hnew, hrest⟩ := List.nodup_cons.1 hkeys
    rw [put]
    split
    · next hk =>
      subst hk
      exact List.nodup_cons.2 ⟨hnew, hrest⟩
    · next hk =>
      refine List.nodup_cons.2 ⟨fun hmem => ?_, ih hrest⟩
      obtain ⟨entry, hentry, hkey⟩ := List.mem_map.1 hmem
      rcases mem_put hentry with rfl | hold
      · exact hk hkey.symm
      · exact hnew (List.mem_map.2 ⟨entry, hold, hkey⟩)

theorem find?_erase_self (t : Table α) (key : String) : (t.erase key).find? key = none := by
  cases h : (t.erase key).find? key with
  | none => rfl
  | some value =>
    have hmem := (List.mem_filter.1 (mem_of_find? h)).2
    simp at hmem

theorem find?_erase_of_ne (t : Table α) (hne : other ≠ key) :
    (t.erase key).find? other = t.find? other := by
  induction t with
  | nil => rfl
  | cons entry rest ih =>
    obtain ⟨k, v⟩ := entry
    simp only [erase, find?] at ih ⊢
    by_cases hk : k = key
    · have hbeq : (other == k) = false := by simpa [hk] using hne
      simp only [hk, ne_eq, not_true, decide_false, Bool.false_eq_true, not_false_iff,
        List.filter_cons_of_neg, List.lookup_cons]
      rw [ih, ← hk, hbeq]
    · simp only [hk, ne_eq, not_false_iff, decide_true, List.filter_cons_of_pos, List.lookup_cons,
        ih]

/-- What is found after an entry was erased was there before, under another key. -/
theorem of_find?_erase {value : α} (h : (t.erase key).find? other = some value) :
    other ≠ key ∧ t.find? other = some value := by
  have hne : other ≠ key := by
    rintro rfl
    rw [find?_erase_self] at h
    cases h
  exact ⟨hne, (find?_erase_of_ne t hne).symm.trans h⟩

theorem keys_erase (hkeys : (t.map Prod.fst).Nodup) (key : String) :
    ((t.erase key).map Prod.fst).Nodup :=
  hkeys.sublist (List.filter_sublist.map _)

/-- Values that are changed in their places are found changed. -/
theorem find?_map (t : Table α) (f : α → β) (key : String) :
    find? (t.map fun entry => (entry.1, f entry.2)) key = (t.find? key).map f := by
  induction t with
  | nil => rfl
  | cons entry rest ih =>
    obtain ⟨k, v⟩ := entry
    simp only [find?, List.map_cons, List.lookup_cons] at ih ⊢
    split
    · rfl
    · exact ih

theorem mem_putAll {entries : Table α} {entry : String × α} (h : entry ∈ t.putAll entries) :
    entry ∈ t ∨ entry ∈ entries := by
  induction entries generalizing t with
  | nil => exact .inl h
  | cons first rest ih =>
    rcases ih h with hput | hrest
    · rcases mem_put hput with rfl | hold
      · exact .inr List.mem_cons_self
      · exact .inl hold
    · exact .inr (List.mem_cons_of_mem _ hrest)

theorem keys_putAll (hkeys : (t.map Prod.fst).Nodup) (entries : Table α) :
    ((t.putAll entries).map Prod.fst).Nodup := by
  induction entries generalizing t with
  | nil => exact hkeys
  | cons first rest ih => exact ih (keys_put hkeys first.1 first.2)

/-- The entries that are put are found, and of the others those that were there. -/
theorem find?_putAll {entries : Table α} (hkeys : (entries.map Prod.fst).Nodup) (key : String) :
    (t.putAll entries).find? key = (entries.find? key).or (t.find? key) := by
  induction entries generalizing t with
  | nil => rfl
  | cons first rest ih =>
    obtain ⟨k, v⟩ := first
    obtain ⟨hnew, hrest⟩ := List.nodup_cons.1 hkeys
    refine (ih hrest).trans ?_
    by_cases hk : key = k
    · subst hk
      have hnone : find? rest key = none := by
        refine Option.eq_none_iff_forall_ne_some.2 fun value hvalue => hnew ?_
        exact List.mem_map.2 ⟨_, mem_of_find? hvalue, rfl⟩
      rw [find?_put_self, hnone]
      simp [find?]
    · have hbeq : (key == k) = false := beq_eq_false_iff_ne.2 hk
      rw [find?_put_of_ne _ _ hk]
      simp [find?, List.lookup_cons, hbeq]

theorem put_of_not_mem {κ : Type} [DecidableEq κ] {t : Table α κ} {key : κ}
    (h : key ∉ t.map Prod.fst) (value : α) : t.put key value = t ++ [(key, value)] := by
  induction t with
  | nil => rfl
  | cons first rest ih =>
    obtain ⟨hne, hrest⟩ := not_or.1 (mt List.mem_cons.2 h)
    rw [put, if_neg (Ne.symm hne), ih hrest, List.cons_append]

theorem putAll_of_nodup {κ : Type} [DecidableEq κ] {t entries : Table α κ}
    (h : ((t ++ entries).map Prod.fst).Nodup) : t.putAll entries = t ++ entries := by
  induction entries generalizing t with
  | nil => exact (List.append_nil t).symm
  | cons first rest ih =>
    have hnew : first.1 ∉ t.map Prod.fst := by
      rw [List.map_append, List.nodup_append] at h
      exact fun hmem => h.2.2 _ hmem _ List.mem_cons_self rfl
    have hput := put_of_not_mem hnew first.2
    have hrest : ((t.put first.1 first.2 ++ rest).map Prod.fst).Nodup := by
      rwa [hput, List.append_assoc]
    refine (ih hrest).trans ?_
    rw [hput, List.append_assoc, List.singleton_append]

/-- Entries of different names make a table as they are. -/
theorem putAll_nil {κ : Type} [DecidableEq κ] {entries : Table α κ}
    (h : (entries.map Prod.fst).Nodup) : putAll [] entries = entries :=
  putAll_of_nodup h

/-! ## Changing one value -/

/-- The table with one value changed, if it is there. -/
def alter (t : Table α) (key : String) (change : α → α) : Table α :=
  match t.find? key with
  | none => t
  | some value => t.put key (change value)

theorem find?_alter (t : Table α) (key : String) (change : α → α) (other : String) :
    (t.alter key change).find? other =
      if other = key then (t.find? key).map change else t.find? other := by
  unfold alter
  by_cases hother : other = key
  · subst hother
    cases h : t.find? other with
    | none => simp [h]
    | some value => simp [find?_put_self]
  · rw [if_neg hother]
    cases t.find? key with
    | none => rfl
    | some value => exact find?_put_of_ne t _ hother

theorem mem_alter {change : α → α} {entry : String × α} (h : entry ∈ t.alter key change) :
    entry ∈ t ∨ ∃ value, t.find? key = some value ∧ entry = (key, change value) := by
  unfold alter at h
  cases hfind : t.find? key with
  | none =>
    rw [hfind] at h
    exact .inl h
  | some value =>
    rw [hfind] at h
    rcases mem_put h with rfl | hold
    · exact .inr ⟨value, rfl, rfl⟩
    · exact .inl hold

theorem keys_alter (hkeys : (t.map Prod.fst).Nodup) (key : String) (change : α → α) :
    ((t.alter key change).map Prod.fst).Nodup := by
  unfold alter
  cases t.find? key with
  | none => exact hkeys
  | some value => exact keys_put hkeys key _

end TextEditor.Table
