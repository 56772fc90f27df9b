import ConfigBinding.Proofs.Reference.Frame
import ConfigBinding.Proofs.Store.LastWriter
import ConfigBinding.Proofs.Value.Comparing

/-!
# Ordered stores

The table of a store, and every table inside it, lists its keys in ascending order.  Stores that
sources make are so, and no change of a store does away with it.

## Main Definitions

* `Store.Ordered` — the table of a store is ordered
* `Change.Ordered` — what a change brings into a store is ordered

## Main Statements

* `Store.ordered_of_ofSources` — stores that sources make
* `Store.Ordered.change`, `Store.Ordered.changeAll` — what changes preserve

## Design Notes

It is always taken that values which are given from outside are ordered themselves.
-/

namespace ConfigBinding

/-- The values that a change brings into a store are ordered. -/
def Change.Ordered : Change → Prop
  | .set _ value => value.Ordered
  | .remove _ => True
  | .merge entries => ∀ entry ∈ entries, entry.value.Ordered

namespace Store

/-- **A store is ordered** if its table is, and every table inside it. -/
def Ordered (store : Store) : Prop :=
  (Value.table store.contents).Ordered

variable {store : Store} {key : String} {value : Value}

theorem ordered_empty : empty.Ordered :=
  Dictionary.ordered_empty

/-- What is stored under a key is ordered. -/
theorem Ordered.of_raw? (ordered : store.Ordered) (found : store.raw? key = some value) :
    value.Ordered :=
  Value.Ordered.of_at? ordered found

/-- **A store that sources make is ordered.** -/
theorem ordered_of_ofSources {env : Environment} {sources : List Source}
    (given : ∀ fixed, .fixed fixed ∈ sources → ∀ entry ∈ fixed, entry.value.Ordered)
    (made : ofSources env sources = .ok store) : store.Ordered := by
  obtain ⟨contributions, contribute, contents⟩ := exists_contributions_of_addSources made
  rw [Ordered, contents]
  exact Dictionary.ordered_mergeAll ordered_empty (ordered_of_contribute contribute given)

/-- **One change** leaves a store ordered. -/
theorem Ordered.change (ordered : store.Ordered) {change : Change} (orderedNew : change.Ordered) :
    (store.change change).Ordered := by
  cases change with
  | set key value => exact Dictionary.ordered_mergeAt ordered orderedNew _
  | remove key => exact Dictionary.ordered_takeAt ordered _
  | merge entries => exact Dictionary.ordered_mergeAll ordered orderedNew

/-- **Changes in order** leave a store ordered, by induction on the changes. -/
theorem Ordered.changeAll (ordered : store.Ordered) {changes : List Change}
    (orderedNew : ∀ change ∈ changes, change.Ordered) : (store.changeAll changes).Ordered := by
  induction changes generalizing store with
  | nil => exact ordered
  | cons first rest ih =>
    have next := ordered.change (orderedNew first List.mem_cons_self)
    exact ih next fun other inRest => orderedNew other (List.mem_cons_of_mem _ inRest)

theorem serverDefaults_ordered : serverDefaults.Ordered := by
  refine .of_entries (by decide) (List.forall_mem_cons.mpr ⟨.leaf nofun, ?_⟩)
  refine List.forall_mem_singleton.mpr (.of_entries (by decide) ?_)
  exact List.forall_mem_cons.mpr ⟨.leaf nofun, List.forall_mem_singleton.mpr (.leaf nofun)⟩

end Store

end ConfigBinding
