import ConfigBinding.Proofs.Value.Merging

/-!
# Erasing, path by path

What is found at every path of a table, once the value at some path was taken out.

## Main Definitions

* `Value.eraseBelow` — a value without what is at a path below it

## Main Statements

* `Dictionary.takeAt_fst` — what is taken out is what was found at the path
* `Dictionary.at?_takeAt_append_self`, `Dictionary.at?_takeAt_of_apart`,
  `Dictionary.at?_takeAt_above` — at the path and below it there is nothing left, beside it all is
  as before, and on the way to it nothing is missing but what was taken out
* `Dictionary.takeAt_of_at?_eq_none` — where nothing was found, nothing changes
* `Dictionary.takeAt_mergeAt` — a value that was laid where nothing was can be taken out again

## Design Notes

Taking out goes down the path as long as it meets tables, and does nothing once it meets anything
else.  That is said once for each of the two, in `Dictionary.takeAt_cons_of_table` and
`Dictionary.takeAt_cons_of_notTable`, and the lemmas about one step of a path follow from them.  The
path that ends after one key is a case of its own.

A table in the place of another leaves no trace if the same table is put back, as far as what is
found is concerned.  For the tables to be the same they must list their keys in order.
-/

namespace ConfigBinding

/-- A value from which the value at a path below it was taken out.  Only tables have any. -/
def Value.eraseBelow (path : Path) : Value → Value
  | .table inner => .table (inner.takeAt path).2
  | other => other

/-- A value is of the same sort after something below it was taken out. -/
@[simp] theorem Place.of_eraseBelow (found : Option Value) (path : Path) :
    Place.of (found.map (·.eraseBelow path)) = .of found := by
  rcases found with _ | value
  · rfl
  · cases value <;> rfl

namespace Dictionary

variable {t inner : Table} {path other : Path} {key next : String} {value : Value}

/-! ### One step -/

theorem at?_cons_of_find? (found : t.find? key = some value) (rest : Path) :
    t.at? (key :: rest) = value.at? rest := by
  rw [at?, Value.at?_table_cons, found, Option.bind_some]

/-- Taking out goes down into a table. -/
theorem takeAt_cons_of_table (found : t.find? key = some (.table inner)) (next : String)
    (rest : Path) :
    t.takeAt (key :: next :: rest) =
      ((inner.takeAt (next :: rest)).1,
        t.modify key fun _ => .table (inner.takeAt (next :: rest)).2) := by
  rw [takeAt, found]
  exact List.cons_ne_nil next rest

/-- Taking out ends at anything but a table. -/
theorem takeAt_cons_of_notTable (notTable : ∀ inner, t.find? key ≠ some (.table inner))
    (next : String) (rest : Path) : t.takeAt (key :: next :: rest) = (none, t) := by
  rw [takeAt]
  · split
    · next inner found => exact absurd found (notTable inner)
    · rfl
  · exact List.cons_ne_nil next rest

/-- One step of a path below a table from which a key was taken out. -/
theorem at?_erase_cons (t : Table) (key otherKey : String) (other : Path) :
    (t.erase key).at? (otherKey :: other) =
      if otherKey = key then none else t.at? (otherKey :: other) := by
  rw [at?, Value.at?_table_cons, find?_erase]
  by_cases same : otherKey = key
  · rw [if_pos same, if_pos same]
    rfl
  · rw [if_neg same, if_neg same]
    rfl

/-- One step of a path below a table from which the value at a longer path was taken out. -/
theorem at?_takeAt_cons_cons (t : Table) (key next : String) (rest : Path) (otherKey : String)
    (other : Path) :
    (t.takeAt (key :: next :: rest)).2.at? (otherKey :: other) =
      if otherKey = key then
        (t.find? key).bind fun value => (value.eraseBelow (next :: rest)).at? other
      else t.at? (otherKey :: other) := by
  rcases exists_or_forall_not fun inner => t.find? key = some (.table inner) with
    ⟨inner, found⟩ | notTable
  · rw [takeAt_cons_of_table found, at?, Value.at?_table_cons, find?_modify]
    by_cases same : otherKey = key
    · rw [if_pos same, if_pos same, same, found]
      rfl
    · rw [if_neg same, if_neg same]
      rfl
  · rw [takeAt_cons_of_notTable notTable]
    by_cases same : otherKey = key
    · -- a leaf has nothing below it that could be missing
      subst same
      rw [if_pos rfl, at?, Value.at?_table_cons]
      cases found : t.find? otherKey with
      | none => rfl
      | some value =>
        cases value with
        | table inner => exact absurd found (notTable inner)
        | _ => rfl
    · rw [if_neg same]

/-! ### What is found afterwards -/

/-- **What is taken out is what was found at the path.** -/
theorem takeAt_fst (nonempty : path ≠ []) (t : Table) : (t.takeAt path).1 = t.at? path := by
  induction path generalizing t with
  | nil => exact absurd rfl nonempty
  | cons key rest ih =>
    cases rest with
    | nil => exact (Value.at?_table_singleton t key).symm
    | cons next rest =>
      rcases exists_or_forall_not fun inner => t.find? key = some (.table inner) with
        ⟨inner, found⟩ | notTable
      · rw [takeAt_cons_of_table found, at?_cons_of_find? found]
        exact ih (List.cons_ne_nil next rest) inner
      · rw [takeAt_cons_of_notTable notTable]
        cases found : t.find? key with
        | none =>
          rw [at?, Value.at?_table_cons, found]
          rfl
        | some value =>
          have isLeaf : value.IsLeaf := fun inner same => notTable inner (same ▸ found)
          rw [at?_cons_of_find? found, isLeaf.at?_cons]

/-- **At the path and below it there is nothing left.** -/
theorem at?_takeAt_append_self (nonempty : path ≠ []) (t : Table) (below : Path) :
    (t.takeAt path).2.at? (path ++ below) = none := by
  induction path generalizing t with
  | nil => exact absurd rfl nonempty
  | cons key rest ih =>
    cases rest with
    | nil => exact (at?_erase_cons t key key below).trans (if_pos rfl)
    | cons next rest =>
      rw [List.cons_append, at?_takeAt_cons_cons, if_pos rfl, Option.bind_eq_none_iff]
      intro value _
      cases value with
      | table inner => exact ih (List.cons_ne_nil next rest) inner
      | _ => rfl

/-- **Beside the path all is as before.** -/
theorem at?_takeAt_of_apart (apart : Path.Apart path other) (t : Table) :
    (t.takeAt path).2.at? other = t.at? other := by
  induction path generalizing t other with
  | nil => exact absurd List.nil_prefix apart.1
  | cons key rest ih =>
    cases other with
    | nil => exact absurd List.nil_prefix apart.2
    | cons otherKey otherRest =>
      by_cases same : otherKey = key
      · subst same
        -- a path that ends here would lead to the other one
        cases rest with
        | nil => exact absurd List.nil_prefix apart.of_cons.1
        | cons next rest =>
          rw [at?_takeAt_cons_cons, if_pos rfl, at?, Value.at?_table_cons]
          refine congrArg (t.find? otherKey).bind (funext fun value => ?_)
          cases value with
          | table inner => exact ih apart.of_cons inner
          | _ => rfl
      · cases rest with
        | nil => exact (at?_erase_cons t key otherKey otherRest).trans (if_neg same)
        | cons next rest => rw [at?_takeAt_cons_cons, if_neg same]

/-- **On the way to the path** there is what was there before, without what was taken out. -/
theorem at?_takeAt_above (t : Table) (other : Path) (key : String) (rest : Path) :
    (t.takeAt (other ++ key :: rest)).2.at? other =
      (t.at? other).map (·.eraseBelow (key :: rest)) := by
  induction other generalizing t with
  | nil => rfl
  | cons first further ih =>
    obtain ⟨next, between, longer⟩ : ∃ next between, further ++ key :: rest = next :: between :=
      List.exists_cons_of_ne_nil (List.append_ne_nil_of_right_ne_nil _ (List.cons_ne_nil _ _))
    rw [List.cons_append, longer, at?_takeAt_cons_cons, if_pos rfl, at?, Value.at?_table_cons,
      Option.map_bind]
    refine congrArg (t.find? first).bind (funext fun value => ?_)
    rcases value.isLeaf_or_table with isLeaf | ⟨inner, rfl⟩
    · have same : value.eraseBelow (next :: between) = value := by
        cases value with
        | table inner => exact absurd rfl (isLeaf inner)
        | _ => rfl
      rw [same]
      cases further with
      | nil =>
        cases longer
        exact congrArg some same.symm
      | cons _ _ => rw [Function.comp_apply, isLeaf.at?_cons]; rfl
    · rw [← longer]
      exact ih inner

/-- Anywhere but at the path and below it, what was there is there still: nothing, the same leaf or
a table. -/
theorem place_takeAt (elsewhere : ¬ path <+: other) (t : Table) :
    (t.takeAt path).2.place other = t.place other := by
  by_cases above : other <+: path
  · obtain ⟨below, rfl⟩ := above
    cases below with
    | nil => exact absurd (by simp) elsewhere
    | cons key rest => rw [place, at?_takeAt_above, Place.of_eraseBelow, place]
  · rw [place, at?_takeAt_of_apart ⟨elsewhere, above⟩, place]

/-! ### Tables that are the same -/

section

variable (ordered : (Value.table t).Ordered)
include ordered

/-- Taking out a key that holds nothing is doing nothing. -/
theorem erase_of_find?_eq_none (missing : t.find? key = none) : t.erase key = t := by
  refine eq_of_find?_eq (ascending_erase ordered.ascending key) ordered.ascending fun other => ?_
  rw [find?_erase]
  split
  · next here => rw [here, missing]
  · rfl

/-- Putting back what a key held is doing nothing. -/
theorem modify_of_find? (found : t.find? key = some value) : (t.modify key fun _ => value) = t := by
  have ascending : (t.modify key fun _ => value).keys.Pairwise (· < ·) := by
    rw [keys_modify]
    exact ordered.ascending
  refine eq_of_find?_eq ascending ordered.ascending fun other => ?_
  rw [find?_modify]
  by_cases same : other = key
  · rw [if_pos same, same, found]
    rfl
  · rw [if_neg same]

/-- A new key is gone once it is taken out. -/
theorem erase_insert (missing : t.find? key = none) (new : Value) :
    (t.insert key new).erase key = t := by
  have ascending := ascending_insert ordered.ascending key new
  refine eq_of_find?_eq (ascending_erase ascending key) ordered.ascending fun other => ?_
  rw [find?_erase, find?_insert]
  split
  · next here => rw [here, missing]
  · rfl

/-- A key that was changed is as before once its value is put back. -/
theorem modify_insert (found : t.find? key = some value) (new : Value) :
    ((t.insert key new).modify key fun _ => value) = t := by
  have ascending : ((t.insert key new).modify key fun _ => value).keys.Pairwise (· < ·) := by
    rw [keys_modify]
    exact ascending_insert ordered.ascending key new
  refine eq_of_find?_eq ascending ordered.ascending fun other => ?_
  rw [find?_modify, find?_insert]
  by_cases same : other = key
  · rw [if_pos same, if_pos same, same, found]
    rfl
  · rw [if_neg same, if_neg same]

theorem ordered_takeAt (path : Path) : (Value.table (t.takeAt path).2).Ordered := by
  induction path generalizing t with
  | nil => exact ordered
  | cons key rest ih =>
    cases rest with
    | nil => exact ordered_erase ordered key
    | cons next rest =>
      rcases exists_or_forall_not fun inner => t.find? key = some (.table inner) with
        ⟨inner, found⟩ | notTable
      · rw [takeAt_cons_of_table found]
        exact ordered_modify ordered key fun _ _ => ih (ordered.of_find? found)
      · rw [takeAt_cons_of_notTable notTable]
        exact ordered

/-- **Where nothing was found, nothing changes.** -/
theorem takeAt_of_at?_eq_none (absent : t.at? path = none) : t.takeAt path = (none, t) := by
  induction path generalizing t with
  | nil => rfl
  | cons key rest ih =>
    cases rest with
    | nil =>
      have missing : t.find? key = none := (Value.at?_table_singleton t key).symm.trans absent
      rw [takeAt, missing, erase_of_find?_eq_none ordered missing]
    | cons next rest =>
      rcases exists_or_forall_not fun inner => t.find? key = some (.table inner) with
        ⟨inner, found⟩ | notTable
      · rw [at?_cons_of_find? found] at absent
        rw [takeAt_cons_of_table found, ih (ordered.of_find? found) absent,
          modify_of_find? ordered found]
      · exact takeAt_cons_of_notTable notTable next rest

end

/-- A path that leads to a table leads through one. -/
theorem exists_find?_of_at?_table {entries : Table} {rest : Path}
    (leads : t.at? (key :: rest) = some (.table entries)) :
    ∃ inner, t.find? key = some (.table inner) ∧ inner.at? rest = some (.table entries) := by
  obtain ⟨first, found, further⟩ := Option.bind_eq_some_iff.mp leads
  rcases first.isLeaf_or_table with isLeaf | ⟨inner, rfl⟩
  · cases rest with
    | nil => exact absurd (Option.some.inj further) (isLeaf entries)
    | cons _ _ =>
      rw [isLeaf.at?_cons] at further
      cases further
  · exact ⟨inner, found, further⟩

/-- Laying a value at a path that goes through a table lays it into that table. -/
theorem mergeAt_cons_of_table (found : t.find? key = some (.table inner)) (next : String)
    (rest : Path) (value : Value) :
    t.mergeAt (key :: next :: rest) value =
      t.insert key (.table (inner.mergeAt (next :: rest) value)) := by
  have placed : t.mergeAt (key :: next :: rest) value =
      t.insert key ((value.under (next :: rest)).over (t.find? key)) := rfl
  rw [placed, found, ← table_mergeAt_cons]

/-- **A value that was laid where nothing was can be taken out again**, if it was laid into a table
that was there, and everything is as before. -/
theorem takeAt_mergeAt (ordered : (Value.table t).Ordered) (nonempty : path ≠ [])
    (absent : t.at? path = none)
    (parent : ∃ entries, t.at? path.dropLast = some (.table entries)) (value : Value) :
    (t.mergeAt path value).takeAt path = (some value, t) := by
  induction path generalizing t with
  | nil => exact absurd rfl nonempty
  | cons key rest ih =>
    cases rest with
    | nil =>
      have missing : t.find? key = none := (Value.at?_table_singleton t key).symm.trans absent
      have placed : t.mergeAt [key] value = t.insert key (value.over (t.find? key)) := rfl
      rw [placed, missing, Value.over_none, takeAt, find?_insert, if_pos rfl,
        erase_insert ordered missing]
    | cons next rest =>
      obtain ⟨entries, above⟩ := parent
      rw [List.dropLast_cons_cons] at above
      obtain ⟨inner, found, further⟩ := exists_find?_of_at?_table above
      rw [at?_cons_of_find? found] at absent
      have restored := ih (ordered.of_find? found) (List.cons_ne_nil next rest) absent
        ⟨entries, further⟩
      have changed : (t.insert key (.table (inner.mergeAt (next :: rest) value))).find? key =
          some (.table (inner.mergeAt (next :: rest) value)) := by
        rw [find?_insert, if_pos rfl]
      rw [mergeAt_cons_of_table found, takeAt_cons_of_table changed, restored,
        modify_insert ordered found]

end Dictionary

end ConfigBinding
