import ConfigBinding.Proofs.Value.Ordered

/-!
# Merging, path by path

What is found at a path once a value was laid over another.  The two are compared at every path
below them, and not as wholes: at most paths only one of the two has a say.

## Main Definitions

* `Path.Apart` — paths of which neither leads to the other
* `Place` — nothing, a leaf or a table: what merging makes of a path
* `Value.Makes` — what a value makes of a path below it

## Main Statements

* `Dictionary.find?_mergeEntries` — what a key holds after a merge
* `Value.at?_over_table_cons` — one step of a path below a merged value
* `Dictionary.at?_mergeAt_of_apart` — a value that is laid at a path changes nothing beside it
* `Value.place_over` — a value decides the paths that it makes something of, and no others

## Design Notes

Of a table only that it is one is compared, not what it holds; for that there are longer paths.
`Value.at?_over_table_cons` is the only lemma here that looks into merging.  All that is said
of longer paths follows from it by induction on the path.
-/

namespace ConfigBinding

namespace Value

variable {entries : Table} {key : String} {value new : Value}

/-! ### Paths below a value -/

theorem IsLeaf.at?_cons (isLeaf : value.IsLeaf) (key : String) (rest : Path) :
    value.at? (key :: rest) = none := by
  cases value with
  | table entries => exact absurd rfl (isLeaf entries)
  | _ => rfl

theorem at?_table_singleton (entries : Table) (key : String) :
    (table entries).at? [key] = entries.find? key := by
  rw [at?_table_cons]
  cases entries.find? key <;> rfl

theorem at?_cons (value : Value) (key : String) (rest : Path) :
    value.at? (key :: rest) = (value.at? [key]).bind (·.at? rest) := by
  rcases value.isLeaf_or_table with isLeaf | ⟨entries, rfl⟩
  · rw [isLeaf.at?_cons, isLeaf.at?_cons]
    rfl
  · rw [at?_table_cons, at?_table_singleton]

theorem at?_append (value : Value) (path below : Path) :
    value.at? (path ++ below) = (value.at? path).bind (·.at? below) := by
  induction path generalizing value with
  | nil => rfl
  | cons key rest ih =>
    rw [List.cons_append, at?_cons, at?_cons value key rest, Option.bind_assoc]
    exact congrArg (value.at? [key]).bind (funext fun inner => ih inner)

/-- Below the path under which a value was placed, there is what was below the value. -/
@[simp] theorem at?_under_append (value : Value) (path below : Path) :
    (value.under path).at? (path ++ below) = value.at? below := by
  induction path with
  | nil => rfl
  | cons key rest ih =>
    show (List.lookup key [(key, value.under rest)]).bind (·.at? (rest ++ below)) = _
    rw [List.lookup_cons_self]
    exact ih

/-- On the way to the path under which a value was placed there are tables. -/
theorem exists_at?_under (value : Value) {path upper : Path} (above : upper <+: path)
    (differs : upper ≠ path) :
    ∃ entries, (value.under path).at? upper = some (.table entries) := by
  obtain ⟨between, rfl⟩ := above
  induction upper with
  | nil =>
    cases between with
    | nil => exact absurd rfl differs
    | cons key rest => exact ⟨_, rfl⟩
  | cons key rest ih =>
    have further : rest ≠ rest ++ between := fun same => differs (congrArg (key :: ·) same)
    obtain ⟨entries, found⟩ := ih further
    refine ⟨entries, ?_⟩
    show (List.lookup key [(key, value.under (rest ++ between))]).bind (·.at? rest) = _
    rw [List.lookup_cons_self]
    exact found

/-- Nothing is found beside the path under which a value was placed. -/
theorem comparable_of_at?_under {path other : Path} {there : Value}
    (found : (value.under path).at? other = some there) : path <+: other ∨ other <+: path := by
  induction path generalizing other with
  | nil => exact .inl List.nil_prefix
  | cons key rest ih =>
    cases other with
    | nil => exact .inr List.nil_prefix
    | cons otherKey otherRest =>
      obtain ⟨inner, listed, further⟩ := Option.bind_eq_some_iff.mp found
      have single : List.lookup otherKey [(key, value.under rest)] = some inner := listed
      rw [List.lookup_cons] at single
      by_cases same : otherKey = key
      · subst same
        rw [beq_self_eq_true] at single
        cases single
        rcases ih further with below | above
        · exact .inl (List.cons_prefix_cons.mpr ⟨rfl, below⟩)
        · exact .inr (List.cons_prefix_cons.mpr ⟨rfl, above⟩)
      · rw [beq_false_of_ne same] at single
        cases single

end Value

/-! ### One step of a path -/

/-- A leaf stands in the place of whatever was there. -/
theorem Value.over_of_isLeaf {new : Value} (isLeaf : new.IsLeaf) (old : Option Value) :
    new.over old = new := by
  cases new with
  | table entries => exact absurd rfl (isLeaf entries)
  | _ => rw [Value.over]; nofun

/-- Over anything that is not a table a table stays as it is. -/
theorem Value.over_of_notTable {old : Option Value}
    (notTable : ∀ base, old ≠ some (.table base)) (new : Value) : new.over old = new := by
  cases new with
  | table overlay =>
    obtain ⟨entries⟩ := overlay
    rw [Value.over]
    exact notTable
  | _ => rw [Value.over]; nofun

@[simp] theorem Value.over_none (new : Value) : new.over none = new := by
  refine over_of_notTable (fun base same => ?_) new
  cases same

theorem Value.table_over_table (base overlay : Table) :
    (Value.table overlay).over (some (.table base)) = .table (base.merge overlay) := by
  obtain ⟨entries⟩ := overlay
  rw [Value.over]
  rfl

/-- **What a key holds after a merge.**  If the overlay has the key, its value is laid over the old
one; otherwise the key holds what it held. -/
theorem Dictionary.find?_mergeEntries {entries : List (String × Value)}
    (distinct : (entries.map (·.1)).Nodup) (base : Table) (key : String) :
    (base.mergeEntries entries).find? key =
      match entries.lookup key with
      | some new => some (new.over (base.find? key))
      | none => base.find? key := by
  induction entries generalizing base with
  | nil => rw [mergeEntries, List.lookup_nil]
  | cons entry rest ih =>
    obtain ⟨first, new⟩ := entry
    obtain ⟨fresh, distinct⟩ := List.nodup_cons.mp distinct
    rw [mergeEntries, ih distinct, find?_insert, List.lookup_cons]
    by_cases same : key = first
    · subst same
      -- the key is not listed again, so nothing is laid over the new value
      have listed : rest.lookup key = none := by
        refine List.lookup_eq_none_iff.mpr fun entry inRest => bne_iff_ne.mpr fun same => ?_
        exact fresh (List.mem_map.mpr ⟨entry, inRest, same.symm⟩)
      rw [listed, if_pos rfl, beq_self_eq_true]
    · rw [if_neg same, beq_false_of_ne same]

/-- **One step of a path below a merged value**: on along what the new table has there, or along
what was there before. -/
theorem Value.at?_over_table_cons {overlay : Table} (distinct : overlay.keys.Nodup)
    (old : Option Value) (key : String) (rest : Path) :
    ((Value.table overlay).over old).at? (key :: rest) =
      match overlay.find? key with
      | some new => (new.over (old.bind (·.at? [key]))).at? rest
      | none => old.bind (·.at? (key :: rest)) := by
  rcases exists_or_forall_not fun base => old = some (.table base) with ⟨base, rfl⟩ | notTable
  · have after : (base.merge overlay).find? key =
        match overlay.find? key with
        | some new => some (new.over (base.find? key))
        | none => base.find? key := Dictionary.find?_mergeEntries distinct base key
    rw [table_over_table, at?_table_cons, after, Option.bind_some, Option.bind_some,
      at?_table_singleton, at?_table_cons]
    cases overlay.find? key <;> rfl
  · -- below a leaf, or nothing, there was nothing before
    have nothing : ∀ rest, old.bind (·.at? (key :: rest)) = none := by
      intro rest
      cases old with
      | none => rfl
      | some value =>
        have isLeaf : value.IsLeaf := fun entries same => notTable entries (congrArg some same)
        exact isLeaf.at?_cons key rest
    rw [over_of_notTable notTable, at?_table_cons, nothing, nothing]
    cases overlay.find? key with
    | none => rfl
    | some new =>
      show new.at? rest = (new.over none).at? rest
      rw [over_none]

/-! ### The path of a placed value -/

/-- Neither path leads through the end of the other. -/
def Path.Apart (path other : Path) : Prop :=
  ¬ path <+: other ∧ ¬ other <+: path

/-- Paths that are apart and begin with the same key are apart after it. -/
theorem Path.Apart.of_cons {key : String} {path other : Path}
    (apart : Path.Apart (key :: path) (key :: other)) : Path.Apart path other :=
  ⟨fun below => apart.1 (List.cons_prefix_cons.mpr ⟨rfl, below⟩),
    fun above => apart.2 (List.cons_prefix_cons.mpr ⟨rfl, above⟩)⟩

namespace Value

variable {value : Value} {path other : Path}

/-- One step of the path under which a value was placed. -/
theorem at?_under_cons_over (value : Value) (key : String) (path : Path) (old : Option Value)
    (otherKey : String) (other : Path) :
    ((value.under (key :: path)).over old).at? (otherKey :: other) =
      if otherKey = key then ((value.under path).over (old.bind (·.at? [key]))).at? other
      else old.bind (·.at? (otherKey :: other)) := by
  have distinct : Dictionary.keys ⟨[(key, value.under path)]⟩ |>.Nodup := List.nodup_singleton key
  have listed : Dictionary.find? ⟨[(key, value.under path)]⟩ otherKey =
      if otherKey = key then some (value.under path) else none := by
    show List.lookup otherKey [(key, value.under path)] = _
    rw [List.lookup_cons]
    by_cases same : otherKey = key
    · rw [if_pos same, beq_iff_eq.mpr same]
    · rw [if_neg same, beq_false_of_ne same, List.lookup_nil]
  rw [under, at?_over_table_cons distinct, listed]
  by_cases same : otherKey = key
  · rw [if_pos same, if_pos same, same]
  · rw [if_neg same, if_neg same]

/-- Where a value was placed, it is laid over what was there. -/
theorem at?_under_over_self (value : Value) (path : Path) (old : Option Value) :
    ((value.under path).over old).at? path = some (value.over (old.bind (·.at? path))) := by
  induction path generalizing old with
  | nil =>
    have here : old.bind (·.at? []) = old := by cases old <;> rfl
    rw [here]
    rfl
  | cons key rest ih =>
    rw [at?_under_cons_over, if_pos rfl, ih, Option.bind_assoc]
    exact congrArg (fun find => some (value.over (old.bind find)))
      (funext fun before => (before.at?_cons key rest).symm)

/-- **Beside the path under which a value was placed nothing changes.** -/
theorem at?_under_over_of_apart (apart : Path.Apart path other) (value : Value)
    (old : Option Value) : ((value.under path).over old).at? other = old.bind (·.at? other) := by
  induction path generalizing other old with
  | nil => exact absurd List.nil_prefix apart.1
  | cons key rest ih =>
    cases other with
    | nil => exact absurd List.nil_prefix apart.2
    | cons otherKey otherRest =>
      rw [at?_under_cons_over]
      by_cases same : otherKey = key
      · subst same
        rw [if_pos rfl, ih apart.of_cons, Option.bind_assoc]
        exact congrArg old.bind (funext fun before => (before.at?_cons otherKey otherRest).symm)
      · rw [if_neg same]

end Value

namespace Dictionary

variable {t : Table} {path other : Path} {value : Value}

/-- Laying a value at a path is laying the table that leads to it over the whole. -/
theorem table_mergeAt {overlay : Table} (placed : value.under path = .table overlay) (t : Table) :
    Value.table (t.mergeAt path value) = (value.under path).over (some (.table t)) := by
  rw [mergeAt, placed, Value.table_over_table]

theorem table_mergeAt_cons (t : Table) (key : String) (path : Path) (value : Value) :
    Value.table (t.mergeAt (key :: path) value) =
      (value.under (key :: path)).over (some (.table t)) :=
  table_mergeAt rfl t

/-- A value that was laid at a path is found there, laid over what was found there before. -/
theorem at?_mergeAt (nonempty : path ≠ []) (value : Value) (t : Table) :
    (t.mergeAt path value).at? path = some (value.over (t.at? path)) := by
  cases path with
  | nil => exact absurd rfl nonempty
  | cons key rest =>
    rw [at?, table_mergeAt_cons, Value.at?_under_over_self]
    rfl

/-- A leaf that was laid at a path is found there. -/
theorem at?_mergeAt_self (nonempty : path ≠ []) (isLeaf : value.IsLeaf) (t : Table) :
    (t.mergeAt path value).at? path = some value := by
  rw [at?_mergeAt nonempty, Value.over_of_isLeaf isLeaf]

/-- **A value that is laid at a path changes nothing beside the path.** -/
theorem at?_mergeAt_of_apart (apart : Path.Apart path other) (value : Value) (t : Table) :
    (t.mergeAt path value).at? other = t.at? other := by
  cases path with
  | nil => exact absurd List.nil_prefix apart.1
  | cons key rest =>
    rw [at?, table_mergeAt_cons, Value.at?_under_over_of_apart apart]
    rfl

end Dictionary

/-! ### Places -/

/-- What is at a path: nothing, a value that is not a table, or a table. -/
inductive Place where
  | absent
  | leaf (value : Value)
  | table

/-- The place of what was found. -/
def Place.of : Option Value → Place
  | none => .absent
  | some (.table _) => .table
  | some value => .leaf value

/-- The place at a path of a table. -/
def Dictionary.place (t : Table) (path : Path) : Place :=
  .of (t.at? path)

@[simp] theorem Place.of_leaf {value : Value} (isLeaf : value.IsLeaf) :
    Place.of (some value) = .leaf value := by
  cases value with
  | table entries => exact absurd rfl (isLeaf entries)
  | _ => rfl

theorem Place.eq_of_of_eq_leaf {there value : Value} (same : Place.of (some there) = .leaf value) :
    there = value ∧ there.IsLeaf := by
  rcases there.isLeaf_or_table with isLeaf | ⟨entries, rfl⟩
  · rw [of_leaf isLeaf] at same
    cases same
    exact ⟨rfl, isLeaf⟩
  · cases same

/-- Laid over anything, a table is a table and a leaf the same leaf. -/
theorem Place.of_over (new : Value) (old : Option Value) :
    Place.of (some (new.over old)) = .of (some new) := by
  rcases new.isLeaf_or_table with isLeaf | ⟨overlay, rfl⟩
  · rw [Value.over_of_isLeaf isLeaf]
  · rcases exists_or_forall_not fun base => old = some (.table base) with ⟨base, rfl⟩ | notTable
    · rw [Value.table_over_table]
      rfl
    · rw [Value.over_of_notTable notTable]

namespace Value

/-- What a value makes of a path below it: what it has there, and nothing below its leaves. -/
inductive Makes (value : Value) (path : Path) : Place → Prop
  | found {there : Value} (found : value.at? path = some there) :
      Makes value path (.of (some there))
  | cut {upper : Path} {leaf : Value} (found : value.at? upper = some leaf) (isLeaf : leaf.IsLeaf)
      (above : upper <+: path) (differs : upper ≠ path) : Makes value path .absent

variable {value : Value} {entries : Table} {key : String} {rest : Path} {place : Place}

theorem makes_nil (value : Value) : value.Makes [] (.of (some value)) :=
  .found rfl

theorem Makes.eq_of_nil (makes : value.Makes [] place) : place = .of (some value) := by
  cases makes with
  | found found =>
    cases found
    rfl
  | cut _ _ above differs => exact absurd (List.prefix_nil.mp above) differs

theorem IsLeaf.makes_cons (isLeaf : value.IsLeaf) (key : String) (rest : Path) :
    value.Makes (key :: rest) .absent :=
  .cut value.at?_nil isLeaf List.nil_prefix nofun

theorem Makes.eq_of_leaf_cons (makes : value.Makes (key :: rest) place) (isLeaf : value.IsLeaf) :
    place = .absent := by
  cases makes with
  | found found =>
    rw [isLeaf.at?_cons] at found
    cases found
  | cut _ _ _ _ => rfl

/-- A table makes of a path what the value under its first key makes of the rest. -/
theorem makes_table_cons :
    (table entries).Makes (key :: rest) place ↔
      ∃ inner, entries.find? key = some inner ∧ inner.Makes rest place := by
  constructor
  · intro makes
    cases makes with
    | found found =>
      obtain ⟨inner, listed, further⟩ := Option.bind_eq_some_iff.mp found
      exact ⟨inner, listed, .found further⟩
    | @cut upper leaf found isLeaf above differs =>
      cases upper with
      | nil =>
        cases found
        exact absurd rfl (isLeaf entries)
      | cons upperKey upperRest =>
        obtain ⟨rfl, aboveRest⟩ := List.cons_prefix_cons.mp above
        obtain ⟨inner, listed, further⟩ := Option.bind_eq_some_iff.mp found
        exact ⟨inner, listed, .cut further isLeaf aboveRest fun same => differs (by rw [same])⟩
  · rintro ⟨inner, listed, makes⟩
    have step (path : Path) : (table entries).at? (key :: path) = inner.at? path := by
      rw [at?_table_cons, listed, Option.bind_some]
    cases makes with
    | found found => exact .found ((step rest).trans found)
    | cut found isLeaf above differs =>
      exact .cut ((step _).trans found) isLeaf (List.cons_prefix_cons.mpr ⟨rfl, above⟩)
        fun same => differs (List.cons.inj same).2

/-- **Merging, path by path.**  What the new value makes of a path is what is there afterwards, and
a path that it makes nothing of is left as it was. -/
theorem place_over {new : Value} (ordered : new.Ordered) (old : Option Value) (path : Path) :
    (∀ place, new.Makes path place → Place.of ((new.over old).at? path) = place) ∧
    ((∀ place, ¬ new.Makes path place) →
      Place.of ((new.over old).at? path) = .of (old.bind (·.at? path))) := by
  induction path generalizing new old with
  | nil =>
    constructor
    · intro place makes
      rw [makes.eq_of_nil, at?_nil, Place.of_over]
    · intro untouched
      exact absurd new.makes_nil (untouched _)
  | cons key rest ih =>
    rcases new.isLeaf_or_table with isLeaf | ⟨overlay, rfl⟩
    · constructor
      · intro place makes
        rw [makes.eq_of_leaf_cons isLeaf, over_of_isLeaf isLeaf, isLeaf.at?_cons]
        rfl
      · intro untouched
        exact absurd (isLeaf.makes_cons key rest) (untouched _)
    · rw [at?_over_table_cons ordered.keys_nodup]
      simp only [makes_table_cons]
      cases listed : overlay.find? key with
      | none =>
        constructor
        · rintro place ⟨inner, found, -⟩
          cases found
        · intro _
          rfl
      | some inner =>
        have further := ih (ordered.of_find? listed) (old.bind (·.at? [key]))
        constructor
        · rintro place ⟨_, ⟨⟩, makes⟩
          exact further.1 place makes
        · intro untouched
          have before : (old.bind (·.at? [key])).bind (·.at? rest) =
              old.bind (·.at? (key :: rest)) := by
            rw [Option.bind_assoc]
            exact congrArg old.bind (funext fun value => (value.at?_cons key rest).symm)
          rw [← before]
          exact further.2 fun place makes => untouched place ⟨inner, rfl, makes⟩

end Value

end ConfigBinding
