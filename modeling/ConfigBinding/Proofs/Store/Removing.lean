import ConfigBinding.Proofs.Store.Ordered

/-!
# Removing a property

A property that is removed is returned and is gone, with everything below it, and nothing else has
changed.

## Main Statements

* `Store.remove_takes_out_what_was_found` — what is returned and what is left

## Design Notes

A store is looked into, changed and searched for what to remove by three recursions of their own.
They agree on every key, also where segments are empty or where a path runs into a value that has
nothing below it, as `Dictionary.takeAt_fst` and `Dictionary.takeAt_mergeAt` say.

Setting a property may make tables on the way to it, or replace a leaf there.  Removing the property
does not undo that, and so what was set is removed without a trace only if nothing stood in its way.
-/

namespace ConfigBinding

namespace Store

/-- **A property that is removed is returned, and nothing but it is gone.**  What is returned is the
stored value that was found under the key.  Afterwards there is nothing at the path of the key or
below it, and at any other path there is what was there before: nothing, the same leaf or a table.
If nothing was found, the store is as before.  And if nothing was found under a key, and the key has
one segment or all but its last segment lead to a table, then a value that is set there is returned
by removing it, and the store is as it was before both. -/
theorem remove_takes_out_what_was_found (store : Store) (key : String) :
    let path := Text.splitDots key
    let after := (store.remove key).2
    (store.remove key).1 = store.raw? key ∧
      (∀ below, path <+: below → after.contents.at? below = none) ∧
      (∀ other, ¬ path <+: other → after.contents.place other = store.contents.place other) ∧
      (store.Ordered → store.raw? key = none → after = store) ∧
      ∀ value, store.Ordered → store.raw? key = none →
        (path.length = 1 ∨ ∃ parent, store.contents.at? path.dropLast = some (.table parent)) →
          (store.set key value).remove key = (some value, store) := by
  intro path after
  have nonempty : path ≠ [] := splitDots_ne_nil key
  refine ⟨?_, ?_, ?_, ?_, ?_⟩
  · exact Dictionary.takeAt_fst nonempty store.contents
  · rintro _ ⟨below, rfl⟩
    exact Dictionary.at?_takeAt_append_self nonempty store.contents below
  · intro other elsewhere
    exact Dictionary.place_takeAt elsewhere store.contents
  · intro ordered absent
    have unchanged : store.contents.takeAt path = (none, store.contents) :=
      Dictionary.takeAt_of_at?_eq_none ordered absent
    exact congrArg (Store.mk ·.2) unchanged
  · intro value ordered absent whole
    have parent : ∃ parent, store.contents.at? path.dropLast = some (.table parent) := by
      rcases whole with single | parent
      · obtain ⟨segment, is⟩ := List.length_eq_one_iff.mp single
        exact ⟨store.contents, by rw [is]; rfl⟩
      · exact parent
    have restored : (store.set key value).contents.takeAt path = (some value, store.contents) :=
      Dictionary.takeAt_mergeAt ordered nonempty absent parent value
    exact congrArg (fun outcome => (outcome.1, Store.mk outcome.2)) restored

/-- The host of the server is returned and is gone, while its ports stay.  A timeout that is set
beside them is returned as well, and without it all is as before. -/
theorem server_host_removed :
    let after := (serverDefaults.remove "server.host").2
    serverDefaults.Ordered ∧
      (serverDefaults.remove "server.host").1 = some (.string "a") ∧
      after.contents.at? ["server", "host"] = none ∧
      after.contents.place ["server"] = .table ∧
      after.contents.place ["server", "ports"] = .leaf (.array [.integer 80, .integer 81]) ∧
      serverDefaults.raw? "server.timeout" = none ∧
      ∀ value, (serverDefaults.set "server.timeout" value).remove "server.timeout" =
        (some value, serverDefaults) := by
  intro after
  have path : Text.splitDots "server.host" = ["server", "host"] := by decide
  have absent : serverDefaults.raw? "server.timeout" = none := rfl
  obtain ⟨returned, gone, stays, -, -⟩ :=
    remove_takes_out_what_was_found serverDefaults "server.host"
  obtain ⟨-, -, -, -, undone⟩ := remove_takes_out_what_was_found serverDefaults "server.timeout"
  rw [path] at gone stays
  refine ⟨serverDefaults_ordered, returned.trans rfl, gone _ (by decide), ?_, ?_, absent, ?_⟩
  · exact (stays ["server"] (by decide)).trans rfl
  · exact (stays ["server", "ports"] (by decide)).trans rfl
  · exact fun value => undone value serverDefaults_ordered absent (.inr ⟨_, rfl⟩)

end Store

end ConfigBinding
