/-!
# Tables

A table maps names to values and keeps its entries in the order in which they first came.
-/

namespace TextEditor

/-- Entries by name, in order. -/
abbrev Table (α : Type u) (κ : Type := String) := List (κ × α)

namespace Table

variable {α : Type u} {κ : Type} [DecidableEq κ]

/-- The value of a name. -/
def find? (t : Table α) (key : String) : Option α :=
  t.lookup key

/-- The table with a value for a name: in its place if the name is there, at the end otherwise. -/
def put (t : Table α κ) (key : κ) (value : α) : Table α κ :=
  match t with
  | [] => [(key, value)]
  | (k, v) :: rest => if k = key then (key, value) :: rest else (k, v) :: put rest key value

/-- The table without a name. -/
def erase (t : Table α) (key : String) : Table α :=
  t.filter fun entry => entry.1 ≠ key

/-- The values in order. -/
def values (t : Table α) : List α :=
  t.map Prod.snd

/-- The table with the entries of another one put into it. -/
def putAll (t entries : Table α κ) : Table α κ :=
  entries.foldl (fun done entry => put done entry.1 entry.2) t

theorem find?_put_self (t : Table α) (key : String) (value : α) :
    find? (put t key value) key = some value := by
  induction t with
  | nil => simp [put, find?]
  | cons entry rest ih =>
    obtain ⟨k, v⟩ := entry
    by_cases h : k = key
    · simp [put, find?, h]
    · have hne : (key == k) = false := by simpa using fun heq => h heq.symm
      simpa [put, find?, h, List.lookup_cons, hne] using ih

theorem find?_put_of_ne (t : Table α) {key other : String} (value : α) (hother : other ≠ key) :
    find? (put t key value) other = find? t other := by
  induction t with
  | nil => simp [put, find?, hother]
  | cons entry rest ih =>
    obtain ⟨k, v⟩ := entry
    by_cases h : k = key
    · have hne : (other == key) = false := by simpa using hother
      simp [put, find?, h, List.lookup_cons, hne]
    · by_cases hk : (other == k) = true
      · simp [put, find?, h, List.lookup_cons, hk]
      · simp only [put, find?, h, if_false, List.lookup_cons, hk]
        simpa [find?] using ih

end Table

end TextEditor
