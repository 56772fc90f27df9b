import ConfigBinding.Value.Merge
import Mathlib.Data.List.Infix
import Mathlib.Data.List.Nodup

/-!
# Ordered values

A table lists its keys in ascending order, and so does every table inside it.  Whatever makes tables
sees to that.

## Main Definitions

* `Value.IsLeaf` — values that are not tables
* `Value.Ordered` — values whose tables list every key once, in ascending order

## Main Statements

* `Dictionary.eq_of_find?_eq` — an ascending dictionary is what it holds under every key
* `Dictionary.ascending_ofList`, `Dictionary.find?_ofList_eq_some_iff` — dictionaries of lists
* `Dictionary.ordered_ofList` — a table of ordered values is ordered, however its entries came

## Design Notes

The tables in an array count as part of the array, which is a leaf: they are never merged, and no
path leads into them.
-/

namespace ConfigBinding

/-- What is found under a key is listed with it. -/
theorem Dictionary.mem_of_lookup {α : Type} {entries : List (String × α)} {key : String} {value : α}
    (found : entries.lookup key = some value) : (key, value) ∈ entries := by
  obtain ⟨before, after, split, -⟩ := List.lookup_eq_some_iff.mp found
  rw [split]
  exact List.mem_append_right before List.mem_cons_self

namespace Value

/-- A value that is not a table, and so has nothing below it. -/
def IsLeaf (value : Value) : Prop :=
  ∀ entries, value ≠ .table entries

theorem isLeaf_string (text : String) : (Value.string text).IsLeaf := by
  rintro entries ⟨⟩

theorem isLeaf_or_table (value : Value) : value.IsLeaf ∨ ∃ entries, value = .table entries := by
  cases value with
  | table entries => exact .inr ⟨entries, rfl⟩
  | _ => exact .inl nofun

/-- **A value is ordered** if its table, and every table inside that one, lists its keys in
ascending order, so that none is listed twice. -/
inductive Ordered : Value → Prop
  | leaf {value : Value} (isLeaf : value.IsLeaf) : Ordered value
  | table {entries : Table} (ascending : entries.keys.Pairwise (· < ·))
      (inner : ∀ key value, (key, value) ∈ entries.entries → Ordered value) :
      Ordered (.table entries)

variable {entries : Table} {key : String} {value : Value}

theorem Ordered.of_entries {entries : List (String × Value)}
    (ascending : (entries.map (·.1)).Pairwise (· < ·))
    (inner : ∀ entry ∈ entries, entry.2.Ordered) : (Value.table ⟨entries⟩).Ordered :=
  .table ascending fun key value listed => inner (key, value) listed

theorem Ordered.ascending (ordered : Ordered (.table entries)) :
    entries.keys.Pairwise (· < ·) := by
  cases ordered with
  | leaf isLeaf => exact absurd rfl (isLeaf entries)
  | table ascending _ => exact ascending

theorem Ordered.of_mem (ordered : Ordered (.table entries))
    (listed : (key, value) ∈ entries.entries) : value.Ordered := by
  cases ordered with
  | leaf isLeaf => exact absurd rfl (isLeaf entries)
  | table _ inner => exact inner key value listed

theorem Ordered.keys_nodup (ordered : Ordered (.table entries)) : entries.keys.Nodup := by
  refine ordered.ascending.imp fun {a b} less => ?_
  rintro rfl
  exact String.lt_irrefl a less

theorem Ordered.of_find? (ordered : Ordered (.table entries))
    (found : entries.find? key = some value) : value.Ordered :=
  ordered.of_mem (Dictionary.mem_of_lookup found)

/-- Placing a value under a path makes tables of one entry each. -/
theorem Ordered.under (ordered : value.Ordered) (path : Path) : (value.under path).Ordered := by
  induction path with
  | nil => exact ordered
  | cons key rest ih =>
    refine .table (List.pairwise_singleton _ _) fun other inner listed => ?_
    obtain ⟨-, rfl⟩ := Prod.mk.inj (List.mem_singleton.mp listed)
    exact ih

end Value

namespace Dictionary

variable {α : Type} {key : String} {value : α} {entries : List (String × α)}

/-- After an entry was put in its place, it is there, and what else is there was there before. -/
theorem eq_or_mem_of_mem_insertEntry {entry : String × α}
    (listed : entry ∈ insertEntry key value entries) : entry = (key, value) ∨ entry ∈ entries := by
  induction entries with
  | nil => exact .inl (List.mem_singleton.mp listed)
  | cons first rest ih =>
    unfold insertEntry at listed
    split at listed
    · rcases List.mem_cons.mp listed with rfl | inRest
      · exact .inl rfl
      · exact .inr (List.mem_cons_of_mem _ inRest)
    · split at listed
      · exact List.mem_cons.mp listed
      · rcases List.mem_cons.mp listed with rfl | inRest
        · exact .inr List.mem_cons_self
        · exact (ih inRest).imp id (List.mem_cons_of_mem _)

/-- Putting an entry in its place keeps the keys ascending. -/
theorem ascending_insertEntry (ascending : entries.Pairwise (·.1 < ·.1)) (key : String)
    (value : α) : (insertEntry key value entries).Pairwise (·.1 < ·.1) := by
  induction entries with
  | nil => exact List.pairwise_singleton _ _
  | cons first rest ih =>
    obtain ⟨least, ascendingRest⟩ := List.pairwise_cons.mp ascending
    unfold insertEntry
    split
    · next same =>
      subst same
      exact List.pairwise_cons.mpr ⟨least, ascendingRest⟩
    · next differs =>
      split
      · next less =>
        refine List.pairwise_cons.mpr ⟨fun entry listed => ?_, ascending⟩
        rcases List.mem_cons.mp listed with rfl | inRest
        · exact less
        · exact String.lt_trans less (least entry inRest)
      · next notLess =>
        have greater : first.1 < key := by
          by_contra notGreater
          have le := String.not_lt.mp notGreater
          exact differs (String.le_antisymm le (String.not_lt.mp notLess))
        refine List.pairwise_cons.mpr ⟨fun entry listed => ?_, ih ascendingRest⟩
        rcases eq_or_mem_of_mem_insertEntry listed with rfl | inRest
        · exact greater
        · exact least entry inRest

/-- A dictionary stays ascending when a value is put under a key. -/
theorem ascending_insert {d : Dictionary α} (ascending : d.keys.Pairwise (· < ·)) (key : String)
    (value : α) : (d.insert key value).keys.Pairwise (· < ·) :=
  List.pairwise_map.mpr (ascending_insertEntry (List.pairwise_map.mp ascending) key value)

/-- A dictionary stays ascending when a key is taken out. -/
theorem ascending_erase {d : Dictionary α} (ascending : d.keys.Pairwise (· < ·)) (key : String) :
    (d.erase key).keys.Pairwise (· < ·) :=
  List.pairwise_map.mpr ((List.pairwise_map.mp ascending).filter _)

/-- A change at one key leaves the keys as they are. -/
@[simp] theorem keys_modify (d : Dictionary α) (key : String) (change : α → α) :
    (d.modify key change).keys = d.keys := by
  rw [keys, modify, List.map_map]
  refine List.map_congr_left fun entry _ => ?_
  show (if entry.1 = key then (entry.1, change entry.2) else entry).1 = entry.1
  split <;> rfl

/-- A key below all that are listed holds nothing. -/
theorem lookup_eq_none_of_lt (below : ∀ entry ∈ entries, key < entry.1) :
    entries.lookup key = none := by
  refine List.lookup_eq_none_iff.mpr fun entry listed => bne_iff_ne.mpr ?_
  rintro rfl
  exact String.lt_irrefl _ (below entry listed)

/-- Of two ascending lists with the same values under all keys, neither begins with a key below that
of the other. -/
theorem not_lt_of_lookup_eq {first first' : String × α} {rest rest' : List (String × α)}
    (ascending' : (first' :: rest').Pairwise (·.1 < ·.1))
    (same : (first :: rest).lookup first.1 = (first' :: rest').lookup first.1) :
    ¬ first.1 < first'.1 := by
  intro less
  have absent : (first' :: rest').lookup first.1 = none := by
    refine lookup_eq_none_of_lt fun entry listed => ?_
    rcases List.mem_cons.mp listed with rfl | inRest
    · exact less
    · exact String.lt_trans less ((List.pairwise_cons.mp ascending').1 entry inRest)
  rw [absent, List.lookup_cons_self] at same
  cases same

/-- Ascending entries are determined by what they hold under every key. -/
theorem eq_of_lookup_eq {entries' : List (String × α)} (ascending : entries.Pairwise (·.1 < ·.1))
    (ascending' : entries'.Pairwise (·.1 < ·.1))
    (same : ∀ key, entries.lookup key = entries'.lookup key) : entries = entries' := by
  induction entries generalizing entries' with
  | nil =>
    cases entries' with
    | nil => rfl
    | cons first' rest' =>
      have held := same first'.1
      rw [List.lookup_cons_self] at held
      cases held
  | cons first rest ih =>
    cases entries' with
    | nil =>
      have held := same first.1
      rw [List.lookup_cons_self] at held
      cases held
    | cons first' rest' =>
      have notLess := not_lt_of_lookup_eq ascending' (same first.1)
      have notGreater := not_lt_of_lookup_eq ascending (same first'.1).symm
      obtain ⟨key, value⟩ := first
      obtain ⟨key', value'⟩ := first'
      obtain rfl : key = key' :=
        String.le_antisymm (String.not_lt.mp notGreater) (String.not_lt.mp notLess)
      have sameValue := same key
      rw [List.lookup_cons_self, List.lookup_cons_self] at sameValue
      obtain rfl := Option.some.inj sameValue
      obtain ⟨least, ascendingRest⟩ := List.pairwise_cons.mp ascending
      obtain ⟨least', ascendingRest'⟩ := List.pairwise_cons.mp ascending'
      refine congrArg _ (ih ascendingRest ascendingRest' fun other => ?_)
      by_cases here : other = key
      · rw [here, lookup_eq_none_of_lt least, lookup_eq_none_of_lt least']
      · have further := same other
        rw [List.lookup_cons, List.lookup_cons, beq_false_of_ne here] at further
        exact further

/-- **An ascending dictionary is what it holds under every key.** -/
theorem eq_of_find?_eq {d d' : Dictionary α} (ascending : d.keys.Pairwise (· < ·))
    (ascending' : d'.keys.Pairwise (· < ·)) (same : ∀ key, d.find? key = d'.find? key) :
    d = d' :=
  congrArg mk (eq_of_lookup_eq (List.pairwise_map.mp ascending) (List.pairwise_map.mp ascending')
    same)

/-- The keys of a dictionary are those that hold a value. -/
theorem mem_keys_iff {d : Dictionary α} : key ∈ d.keys ↔ ∃ value, d.find? key = some value := by
  rw [← Option.isSome_iff_exists, find?, List.lookup_isSome_iff, keys, List.mem_map]
  simp only [beq_iff_eq, eq_comm (a := key)]

theorem ordered_empty : (Value.table empty).Ordered :=
  .table .nil nofun

/-- A table stays ordered when an ordered value is put under a key. -/
theorem ordered_insert {t : Table} {new : Value} (ordered : (Value.table t).Ordered)
    (orderedNew : new.Ordered) (key : String) : (Value.table (t.insert key new)).Ordered := by
  refine .table (ascending_insert ordered.ascending key new) ?_
  intro other value listed
  rcases eq_or_mem_of_mem_insertEntry listed with same | before
  · obtain ⟨-, rfl⟩ := Prod.mk.inj same
    exact orderedNew
  · exact ordered.of_mem before

/-- A table stays ordered when a key is taken out. -/
theorem ordered_erase {t : Table} (ordered : (Value.table t).Ordered) (key : String) :
    (Value.table (t.erase key)).Ordered := by
  refine .table (ascending_erase ordered.ascending key) fun other inner listed => ?_
  exact ordered.of_mem (List.mem_filter.mp listed).1

/-- A table stays ordered when an ordered value takes the place of another. -/
theorem ordered_modify {t : Table} {change : Value → Value} (ordered : (Value.table t).Ordered)
    (key : String) (orderedNew : ∀ value : Value, value.Ordered → (change value).Ordered) :
    (Value.table (t.modify key change)).Ordered := by
  have ascending : (t.modify key change).keys.Pairwise (· < ·) := by
    rw [keys_modify]
    exact ordered.ascending
  refine .table ascending fun other inner listed => ?_
  obtain ⟨⟨before, value⟩, listedBefore, same⟩ := List.mem_map.mp listed
  have orderedBefore := ordered.of_mem listedBefore
  split at same
  · obtain ⟨-, rfl⟩ := Prod.mk.inj same
    exact orderedNew value orderedBefore
  · obtain ⟨-, rfl⟩ := Prod.mk.inj same
    exact orderedBefore

/-! ### Dictionaries of lists -/

/-- The dictionary of a list is ascending, however the entries came. -/
theorem ascending_ofList (entries : List (String × α)) :
    (ofList entries).keys.Pairwise (· < ·) := by
  induction entries using List.reverseRecOn with
  | nil => exact .nil
  | append_singleton earlier last ih =>
    rw [ofList_concat]
    exact ascending_insert ih last.1 last.2

/-- The dictionary of a list without repetitions holds what is listed. -/
theorem find?_ofList_eq_some_iff (distinct : (entries.map (·.1)).Nodup) :
    (ofList entries).find? key = some value ↔ (key, value) ∈ entries := by
  induction entries using List.reverseRecOn with
  | nil => exact iff_of_false nofun List.not_mem_nil
  | append_singleton earlier last ih =>
    rw [List.map_append, List.nodup_append] at distinct
    obtain ⟨distinct, -, apart⟩ := distinct
    rw [ofList_concat, find?_insert, List.mem_append, List.mem_singleton]
    by_cases here : key = last.1
    · have before : (key, value) ∉ earlier := fun listed =>
        apart key (List.mem_map_of_mem listed) last.1 List.mem_cons_self here
      rw [if_pos here, Option.some_inj, or_iff_right before, Prod.ext_iff]
      exact ⟨fun same => ⟨here, same.symm⟩, fun same => same.2.symm⟩
    · have other : (key, value) ≠ last := fun same => here (congrArg Prod.fst same)
      rw [if_neg here, ih distinct]
      exact (or_iff_left other).symm

/-- **A table of ordered values is ordered**, however its entries came. -/
theorem ordered_ofList {entries : List (String × Value)}
    (ordered : ∀ entry ∈ entries, entry.2.Ordered) : (Value.table (ofList entries)).Ordered := by
  induction entries using List.reverseRecOn with
  | nil => exact ordered_empty
  | append_singleton earlier last ih =>
    obtain ⟨before, orderedLast⟩ := List.forall_mem_append.mp ordered
    rw [ofList_concat]
    exact ordered_insert (ih before) (orderedLast last List.mem_cons_self) last.1

end Dictionary

end ConfigBinding
