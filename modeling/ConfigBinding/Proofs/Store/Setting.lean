import ConfigBinding.Proofs.Store.Ordered

/-!
# Setting a property

A value that is set stands under its key as it is, unless a table is set where there is a table.
Then the two are merged, and the old one may leave something over.

## Main Statements

* `Store.raw?_set` — what is found under a key that was set
* `Store.found_as_set_iff` — when that is the value itself, and what it is otherwise

## Design Notes

What the new value touches is a matter of that value alone: what it has itself, and everything below
its leaves.  Elsewhere the old value stays.  So the new one is found as it is exactly if the old one
has nothing elsewhere, for which it is enough that either of them is not a table.
-/

namespace ConfigBinding

namespace Store

variable {store : Store} {key : String} {value : Value}

/-- A value that was set is found under its key, laid over what was found there before. -/
theorem raw?_set (store : Store) (key : String) (value : Value) :
    (store.set key value).raw? key = some (value.over (store.raw? key)) :=
  Dictionary.at?_mergeAt (splitDots_ne_nil key) value store.contents

/-- Below a key that was set, there is what is below the value that is found. -/
theorem at?_set_append (store : Store) (key : String) (value : Value) (below : Path) :
    (store.set key value).contents.at? (Text.splitDots key ++ below) =
      (value.over (store.raw? key)).at? below := by
  rw [Dictionary.at?, Value.at?_append]
  exact congrArg (Option.bind · (·.at? below)) (raw?_set store key value)

/-- **When a value is found as it was set.**  It is so if and only if at every path below the key
that the value does not touch there was nothing before; in particular if the value is not a table,
or if there was no table under the key.  In any case, what the value touches is there as in the
value, and what it does not touch is left over as it was: nothing, the same leaf or a table. -/
theorem found_as_set_iff (ordered : store.Ordered) (orderedNew : value.Ordered) (key : String) :
    let path := Text.splitDots key
    let after := store.set key value
    (after.raw? key = some value ↔
        ∀ below, ¬ value.Touches below → store.contents.at? (path ++ below) = none) ∧
      (∀ below, value.Touches below →
        after.contents.place (path ++ below) = .of (value.at? below)) ∧
      (∀ below, ¬ value.Touches below →
        after.contents.place (path ++ below) = store.contents.place (path ++ below)) ∧
      (value.IsLeaf ∨ (∀ base, store.raw? key ≠ some (.table base)) →
        after.raw? key = some value) := by
  intro path after
  have before (below : Path) :
      store.contents.at? (path ++ below) = (store.raw? key).bind (·.at? below) :=
    Value.at?_append (.table store.contents) path below
  have found : after.raw? key = some (value.over (store.raw? key)) := raw?_set store key value
  refine ⟨?_, ?_, ?_, ?_⟩
  · rw [found, Option.some.injEq, Value.over_eq_self_iff orderedNew fun _ => ordered.of_raw?]
    simp only [before]
  · intro below touches
    rw [Dictionary.place, at?_set_append]
    exact (Value.place_over_of_touches orderedNew (store.raw? key) below).1 touches
  · intro below leaves
    rw [Dictionary.place, at?_set_append, Dictionary.place, before]
    exact (Value.place_over_of_touches orderedNew (store.raw? key) below).2 leaves
  · rintro (isLeaf | notTable)
    · rw [found, Value.over_of_isLeaf isLeaf]
    · rw [found, Value.over_of_notTable notTable]

/-- A table of ports is found as it was set, in the place of the ports that there were. -/
theorem server_ports_found_as_set :
    let ports : Value := .table ⟨[("http", .integer 80)]⟩
    serverDefaults.Ordered ∧ ports.Ordered ∧
      (serverDefaults.set "server.ports" ports).raw? "server.ports" = some ports := by
  intro ports
  have orderedNew : ports.Ordered :=
    .of_entries (by decide) (List.forall_mem_singleton.mpr (.leaf nofun))
  have noTable : ∀ base, serverDefaults.raw? "server.ports" ≠ some (.table base) := nofun
  obtain ⟨-, -, -, found⟩ := found_as_set_iff serverDefaults_ordered orderedNew "server.ports"
  exact ⟨serverDefaults_ordered, orderedNew, found (.inr noTable)⟩

/-- The host of a server is left over from before when the server is set to a table with a port, and
so the table is not found as it was set. -/
theorem host_is_left_over :
    let before := Store.empty.set "server" (.table ⟨[("host", .string "a")]⟩)
    let value : Value := .table ⟨[("port", .integer 1)]⟩
    let after := before.set "server" value
    after.raw? "server" ≠ some value ∧ after.raw? "server.host" = some (.string "a") := by
  intro before value after
  have path : Text.splitDots "server.host" = Text.splitDots "server" ++ ["host"] := by decide
  have below : after.raw? "server.host" = (after.raw? "server").bind (·.at? ["host"]) := by
    rw [raw?, path]
    exact Value.at?_append (.table after.contents) _ _
  have kept : after.raw? "server.host" = some (.string "a") := by
    have merged : after.raw? "server" =
        some (.table (.insert ⟨[("host", .string "a")]⟩ "port" (.integer 1))) :=
      raw?_set before "server" value
    rw [below, merged, Option.bind_some, Value.at?_table_cons, Dictionary.find?_insert,
      if_neg (by decide)]
    rfl
  refine ⟨fun same => ?_, kept⟩
  rw [below, same] at kept
  cases kept

end Store

end ConfigBinding
