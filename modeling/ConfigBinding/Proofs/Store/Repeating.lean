import ConfigBinding.Proofs.Store.Ordered

/-!
# Entries that are merged again

Entries that are merged into a store a second time change nothing.  Neither do they if other entries
were merged in between: the store is as if only the last of the two had taken place.

## Main Statements

* `Dictionary.DecidedBy.place_eq` — what entries make of a path does not depend on what was there
* `Dictionary.mergeAll_overridden` — an earlier merge of the same entries has no say
* `Store.merge_again` — merging the same entries twice in a row

## Design Notes

Entries may contradict one another, and then the second merge does change the store for a while: it
takes away what the last of them had put there, and puts it there again in the end.  So nothing can
be said of one entry after the other.  It is the path that is followed instead: the entry that
decides about it is the same in both merges.
-/

namespace ConfigBinding

/-- Either there is a last element with a property, or none has it. -/
theorem exists_last_or_forall_not {α : Type} (p : α → Prop) (l : List α) :
    (∃ earlier a later, l = earlier ++ a :: later ∧ p a ∧ ∀ b ∈ later, ¬ p b) ∨
      ∀ a ∈ l, ¬ p a := by
  induction l with
  | nil => exact .inr nofun
  | cons first rest ih =>
    rcases ih with ⟨earlier, a, later, rfl, has, last⟩ | none
    · exact .inl ⟨first :: earlier, a, later, rfl, has, last⟩
    · by_cases has : p first
      · exact .inl ⟨[], first, rest, rfl, has, none⟩
      · exact .inr (List.forall_mem_cons.mpr ⟨has, none⟩)

namespace Dictionary

variable {t t' before before' after after' : Table} {path : Path} {entries more : List Entry}

/-- Ordered tables with the same at every path that is not empty are the same. -/
theorem eq_of_place_eq (ordered : (Value.table t).Ordered) (ordered' : (Value.table t').Ordered)
    (same : ∀ path, path ≠ [] → t.place path = t'.place path) : t = t' := by
  apply Value.table.inj
  apply Value.eq_of_place_eq ordered ordered'
  intro path
  cases path with
  | nil => rfl
  | cons key rest => exact same (key :: rest) (List.cons_ne_nil key rest)

/-- **What entries make of a path does not depend on what was there**, unless none of them touches
the path. -/
theorem DecidedBy.place_eq (decided : before.DecidedBy entries after)
    (decided' : before'.DecidedBy entries after') (nonempty : path ≠ [])
    (same : (∀ entry ∈ entries, ¬ entry.Touches path) → before.place path = before'.place path) :
    after.place path = after'.place path := by
  obtain ⟨touched, left⟩ := decided path nonempty
  obtain ⟨touched', left'⟩ := decided' path nonempty
  rcases exists_last_or_forall_not (Entry.Touches · path) entries with
    ⟨earlier, entry, later, split, ⟨place, makes⟩, last⟩ | untouched
  · rw [touched earlier entry later place split makes last,
      touched' earlier entry later place split makes last]
  · rw [left untouched, left' untouched, same untouched]

/-- **An earlier merge of the same entries has no say**, whatever was merged in between. -/
theorem mergeAll_overridden (ordered : (Value.table t).Ordered)
    (orderedNew : ∀ entry ∈ entries, entry.value.Ordered)
    (orderedMore : ∀ entry ∈ more, entry.value.Ordered) :
    ((t.mergeAll entries).mergeAll more).mergeAll entries = (t.mergeAll more).mergeAll entries := by
  have orderedFirst := ordered_mergeAll ordered orderedNew
  apply eq_of_place_eq
  · exact ordered_mergeAll (ordered_mergeAll orderedFirst orderedMore) orderedNew
  · exact ordered_mergeAll (ordered_mergeAll ordered orderedMore) orderedNew
  intro path nonempty
  have more_decide (t : Table) := mergeAll_decidedBy orderedMore t
  have entries_decide (t : Table) := mergeAll_decidedBy orderedNew t
  refine (entries_decide _).place_eq (entries_decide _) nonempty fun untouched => ?_
  -- the entries leave the path alone, so the first merge of them cannot be seen here either
  refine (more_decide _).place_eq (more_decide _) nonempty fun _ => ?_
  exact (entries_decide t path nonempty).2 untouched

end Dictionary

namespace Store

variable {store : Store} {entries : List Entry}

/-- **Merging the same entries twice in a row** is merging them once.  They may have any paths, and
override or contradict one another in any way. -/
theorem merge_again (ordered : store.Ordered)
    (orderedNew : ∀ entry ∈ entries, entry.value.Ordered) :
    (store.merge entries).merge entries = store.merge entries := by
  have overridden : ((store.contents.mergeAll entries).mergeAll []).mergeAll entries =
      (store.contents.mergeAll []).mergeAll entries :=
    Dictionary.mergeAll_overridden ordered orderedNew (List.forall_mem_nil _)
  exact congrArg Store.mk overridden

/-- The mode is given a level and is cut off again, and the server makes way for a word and the word
for another server. -/
def serverContradictions : List Entry :=
  [⟨["mode", "level"], .integer 2⟩, ⟨["mode"], .string "test"⟩, ⟨["server"], .string "off"⟩,
    .root ⟨[("server", .table ⟨[("host", .string "b")]⟩)]⟩]

/-- Contradictions that are merged again come to the same. -/
theorem serverContradictions_merged_again :
    serverDefaults.Ordered ∧ (∀ entry ∈ serverContradictions, entry.value.Ordered) ∧
      (serverDefaults.merge serverContradictions).merge serverContradictions =
        serverDefaults.merge serverContradictions := by
  have orderedServer : (Value.table ⟨[("host", .string "b")]⟩).Ordered :=
    .of_entries (by decide) (List.forall_mem_singleton.mpr (.leaf nofun))
  have orderedNew : ∀ entry ∈ serverContradictions, entry.value.Ordered := by
    intro entry listed
    simp only [serverContradictions, List.mem_cons, List.not_mem_nil, or_false] at listed
    rcases listed with rfl | rfl | rfl | rfl
    · exact .leaf nofun
    · exact .leaf nofun
    · exact .leaf nofun
    · exact .of_entries (by decide) (List.forall_mem_singleton.mpr orderedServer)
  exact ⟨serverDefaults_ordered, orderedNew, merge_again serverDefaults_ordered orderedNew⟩

end Store

end ConfigBinding
