/-!
# Dictionaries

Values under text keys, kept in ascending order of the keys. The order of texts is that of their
code points, which is also that of their UTF-8 bytes.

## Main Definitions

* `Dictionary` — the entries, and `Dictionary.find?`, the value under a key
* `insert`, `erase`, `modify` — changes at one key
* `keys` — the keys, ascending

## Design Notes

What a key holds after a change does not depend on the order of the entries. The order decides only
how a dictionary is listed, and that two dictionaries with the same values are equal.
-/

namespace ConfigBinding

/-- Entries under text keys. -/
structure Dictionary (α : Type) where
  entries : List (String × α)

namespace Dictionary

variable {α : Type}

/-- No entries. -/
def empty : Dictionary α :=
  ⟨[]⟩

/-- The value under a key. -/
def find? (d : Dictionary α) (key : String) : Option α :=
  d.entries.lookup key

/-- Puts an entry in its place among ascending entries, instead of the entry of the same key. -/
def insertEntry (key : String) (value : α) : List (String × α) → List (String × α)
  | [] => [(key, value)]
  | (other, old) :: rest =>
    if key = other then (key, value) :: rest
    else if key < other then (key, value) :: (other, old) :: rest
    else (other, old) :: insertEntry key value rest

/-- Puts a value under a key, instead of what the key held. -/
def insert (d : Dictionary α) (key : String) (value : α) : Dictionary α :=
  ⟨insertEntry key value d.entries⟩

/-- Takes a key out. -/
def erase (d : Dictionary α) (key : String) : Dictionary α :=
  ⟨d.entries.filter (·.1 != key)⟩

/-- Changes the value under a key, if it holds one. -/
def modify (d : Dictionary α) (key : String) (change : α → α) : Dictionary α :=
  ⟨d.entries.map fun entry => if entry.1 = key then (entry.1, change entry.2) else entry⟩

/-- The keys in ascending order. -/
def keys (d : Dictionary α) : List String :=
  d.entries.map (·.1)

/-- The dictionary of a list of entries, of which later ones replace earlier ones. -/
def ofList (entries : List (String × α)) : Dictionary α :=
  entries.foldl (fun d entry => d.insert entry.1 entry.2) empty

/-- The last entry is put in after all others. -/
theorem ofList_concat (entries : List (String × α)) (last : String × α) :
    ofList (entries ++ [last]) = (ofList entries).insert last.1 last.2 :=
  List.foldl_append

/-! ### What a key holds after a change -/

@[simp] theorem find?_empty (key : String) : (empty : Dictionary α).find? key = none := rfl

theorem lookup_insertEntry (key other : String) (value : α) (entries : List (String × α)) :
    (insertEntry key value entries).lookup other =
      if other = key then some value else entries.lookup other := by
  induction entries with
  | nil => grind [insertEntry]
  | cons entry rest ih => grind [insertEntry]

/-- A key holds what was put under it last, and the other keys what they held before. -/
@[simp] theorem find?_insert (d : Dictionary α) (key other : String) (value : α) :
    (d.insert key value).find? other = if other = key then some value else d.find? other :=
  lookup_insertEntry key other value d.entries

/-- A key that was taken out holds nothing, and the other keys what they held before. -/
@[simp] theorem find?_erase (d : Dictionary α) (key other : String) :
    (d.erase key).find? other = if other = key then none else d.find? other := by
  obtain ⟨entries⟩ := d
  simp only [erase, find?]
  induction entries with
  | nil => simp
  | cons entry rest ih =>
    by_cases taken : entry.1 = key
    · have dropped : (entry.1 != key) = false := by simp [taken]
      rw [List.filter_cons_of_neg (by simp [dropped]), ih]
      split
      · rfl
      · next hne => rw [List.lookup_cons, beq_false_of_ne (by rw [taken]; exact hne)]
    · rw [List.filter_cons_of_pos (by simp [taken]), List.lookup_cons, List.lookup_cons, ih]
      by_cases same : other = entry.1
      · subst same; simp [taken]
      · simp [beq_false_of_ne same]

/-- A change at one key changes what that key holds, and nothing else. -/
@[simp] theorem find?_modify (d : Dictionary α) (key other : String) (change : α → α) :
    (d.modify key change).find? other =
      if other = key then (d.find? other).map change else d.find? other := by
  obtain ⟨entries⟩ := d
  simp only [modify, find?]
  induction entries with
  | nil => simp
  | cons entry rest ih =>
    obtain ⟨name, value⟩ := entry
    rw [List.map_cons, List.lookup_cons, List.lookup_cons]
    by_cases taken : name = key
    · by_cases same : other = name
      · simp [taken, same]
      · simp [taken, ih, beq_false_of_ne (by rw [← taken]; exact same : other ≠ key)]
    · by_cases same : other = name
      · simp [taken, same]
      · simp [taken, ih, beq_false_of_ne same]

end Dictionary

end ConfigBinding
