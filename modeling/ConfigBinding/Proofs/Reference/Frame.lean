import ConfigBinding.Proofs.Reference.Locality
import ConfigBinding.Proofs.Value.Erasing

/-!
# Changes beside a lookup

A store changes by setting a property, by taking one out and by merging entries.  Each of these
reaches the paths on the way to its own and below them, and no others.  A lookup therefore does not
notice any change whose paths are apart from the keys that the lookup can reach.

## Main Definitions

* `Change`, `Store.change`, `Store.changeAll` — changes of a store, and changes in order
* `Change.Beside` — all that a change is about is apart from a key

## Main Statements

* `Store.raw?_change_of_beside`, `Store.raw?_changeAll_of_beside` — what is stored beside changes
* `Store.lookup_unchanged_beside` — what is looked up beside changes

## Design Notes

What is within reach of a key is asked of the store before the changes only.  It need not be asked
again between them: as long as nothing within reach is changed, the same keys are within reach.
-/

namespace ConfigBinding

/-- A change of a store. -/
inductive Change where
  | set (key : String) (value : Value)
  | remove (key : String)
  | merge (entries : List Entry)

/-- The paths that a change is about. -/
def Change.paths : Change → List Path
  | .set key _ | .remove key => [Text.splitDots key]
  | .merge entries => entries.map (·.path)

/-- No path that a change is about leads to a key, or the other way about. -/
def Change.Beside (change : Change) (key : String) : Prop :=
  ∀ path ∈ change.paths, Path.Apart path (Text.splitDots key)

namespace Store

/-- The store after a change. -/
def change (store : Store) : Change → Store
  | .set key value => store.set key value
  | .remove key => (store.remove key).2
  | .merge entries => store.merge entries

/-- The store after changes in order. -/
def changeAll (store : Store) (changes : List Change) : Store :=
  changes.foldl change store

variable {store other : Store} {k j : String}

/-! ### What is stored -/

/-- Taking one key out leaves the keys apart from it as they were. -/
theorem raw?_remove_of_apart (apart : Apart k j) (store : Store) :
    (store.remove k).2.raw? j = store.raw? j :=
  Dictionary.at?_takeAt_of_apart apart store.contents

/-- Merging entries leaves the keys apart from their paths as they were. -/
theorem raw?_merge_of_apart {entries : List Entry}
    (apart : ∀ entry ∈ entries, Path.Apart entry.path (Text.splitDots j)) (store : Store) :
    (store.merge entries).raw? j = store.raw? j := by
  induction entries generalizing store with
  | nil => rfl
  | cons entry rest ih =>
    have first : (store.merge [entry]).raw? j = store.raw? j :=
      Dictionary.at?_mergeAt_of_apart (apart entry List.mem_cons_self) entry.value store.contents
    rw [← first]
    exact ih (fun later inRest => apart later (List.mem_cons_of_mem _ inRest)) _

/-- **One change** leaves the keys beside it as they were. -/
theorem raw?_change_of_beside {change : Change} (beside : change.Beside j) (store : Store) :
    (store.change change).raw? j = store.raw? j := by
  cases change with
  | set key value => exact raw?_set_of_apart (beside _ List.mem_cons_self) value store
  | remove key => exact raw?_remove_of_apart (beside _ List.mem_cons_self) store
  | merge entries =>
    exact raw?_merge_of_apart (fun entry listed => beside _ (List.mem_map_of_mem listed)) store

/-- **Changes in order** leave the keys beside all of them as they were. -/
theorem raw?_changeAll_of_beside {changes : List Change}
    (beside : ∀ change ∈ changes, change.Beside j) (store : Store) :
    (store.changeAll changes).raw? j = store.raw? j := by
  induction changes generalizing store with
  | nil => rfl
  | cons change rest ih =>
    rw [← raw?_change_of_beside (beside change List.mem_cons_self) store]
    exact ih (fun later inRest => beside later (List.mem_cons_of_mem _ inRest)) _

/-! ### What is looked up -/

/-- **A lookup depends only on what it can reach.**  Any two stores that hold the same under the
key, and under every key that references lead to from there, give the same result, value or error.
So do a store and what becomes of it by changes that are beside all those keys. -/
theorem lookup_unchanged_beside (store : Store) (k : String) :
    (∀ other : Store, (∀ j, store.LeadsTo k j → other.raw? j = store.raw? j) →
      other.lookup k = store.lookup k) ∧
    ∀ changes, (∀ change ∈ changes, ∀ j, store.LeadsTo k j → change.Beside j) →
      (store.changeAll changes).lookup k = store.lookup k := by
  have agree (other : Store) (same : ∀ j, store.LeadsTo k j → other.raw? j = store.raw? j) :
      other.lookup k = store.lookup k := lookupWithin_congr same (maxLinks + 1)
  refine ⟨agree, fun changes beside => agree _ fun j leads => ?_⟩
  exact raw?_changeAll_of_beside (fun change listed => beside change listed j leads) store

/-- A title that refers to the name of a site, and to a heading that is not there. -/
def titles : Store :=
  ⟨⟨[("mode", .string "dev"), ("site", .table ⟨[("name", .string "home"), ("port", .integer 80)]⟩),
    ("title", .string "${site.name}: ${heading}")]⟩⟩

/-- A level in the place of the mode, no port, and a table of pages. -/
def titlesApart : List Change :=
  [.set "mode.level" (.integer 2), .remove "site.port",
    .merge [⟨["pages"], .table ⟨[("first", .string "${title}")]⟩⟩]]

/-- The changes come close to the title, whose heading is missed after them as before. -/
theorem titles_lookup_unchanged :
    (∀ change ∈ titlesApart, ∀ j, titles.LeadsTo "title" j → change.Beside j) ∧
      (titles.changeAll titlesApart).lookup "title" = .error (.referenceNotFound "heading") := by
  have reached : ∀ j, titles.LeadsTo "title" j → j ∈ ["title", "site.name", "heading"] := by
    intro j leads
    induction leads with
    | refl => exact List.mem_cons_self
    | tail _ refers ih =>
      obtain ⟨text, raw, hole, -⟩ := refers
      simp only [List.mem_cons, List.not_mem_nil, or_false] at ih
      rcases ih with rfl | rfl | rfl
      · cases raw
        have toEither : Placeholder.Piece.hole _ ∈
            [.hole "site.name", .char ':', .char ' ', .hole "heading"] := hole
        simp at toEither
        simp [toEither]
      · cases raw
        have nowhere : Placeholder.Piece.hole _ ∈ "home".toList.map Placeholder.Piece.char := hole
        simp at nowhere
      · cases raw
  have apart : ∀ change ∈ titlesApart, ∀ path ∈ change.paths,
      ∀ j ∈ ["title", "site.name", "heading"], Path.Apart path (Text.splitDots j) := by
    unfold Path.Apart
    decide
  have beside : ∀ change ∈ titlesApart, ∀ j, titles.LeadsTo "title" j → change.Beside j :=
    fun change listed j leads path about => apart change listed path about j (reached j leads)
  have before : titles.lookup "title" = .error (.referenceNotFound "heading") := rfl
  exact ⟨beside, ((lookup_unchanged_beside titles "title").2 titlesApart beside).trans before⟩

end Store

end ConfigBinding
