import ConfigBinding.Context
import Mathlib.Data.List.Induction
import Mathlib.Data.List.Nodup

/-!
# Merges of libraries

Loading libraries merges the entries of some of them into the store.  What is merged depends on the
libraries alone, and not on the store.

## Main Definitions

* `Merge` — the entries of a library are added to a store
* `Libraries.merges` — the merges of a load
* `Libraries.LoadedBy` — libraries come to be loaded by merges, each of them once

## Main Statements

* `Libraries.store_load` — a load does nothing to the store but its merges
* `Libraries.loadedBy_load` — the libraries that a load merges are those that it marks as loaded
* `Libraries.load_of_isLoaded` — a load of libraries that are loaded does nothing

## Design Notes

A load may end with an error half way.  The libraries before stay loaded, and their merges are those
of the load all the same.
-/

namespace ConfigBinding

/-- The entries of a library are added to a store. -/
structure Merge where
  name : String
  entries : List Entry

/-- A store after merges, in order. -/
def Store.afterMerges (store : Store) (merges : List Merge) : Store :=
  merges.foldl (fun store merge => store.merge merge.entries) store

theorem Store.afterMerges_append (store : Store) (merges later : List Merge) :
    store.afterMerges (merges ++ later) = (store.afterMerges merges).afterMerges later :=
  List.foldl_append

namespace Libraries

/-- The source that is registered under a name. -/
def source? (libraries : Libraries) (name : String) : Option Source :=
  (libraries.registered.find? name).map (·.source)

/-- The libraries once a library among them has been loaded. -/
def mark (libraries : Libraries) (name : String) (library : Library) : Libraries :=
  ⟨libraries.registered.insert name { library with loaded := true }⟩

/-- The merges of a load, in order. -/
def merges (env : Environment) : List String → Libraries → List Merge
  | [], _ => []
  | name :: rest, libraries =>
    match libraries.registered.find? name with
    | none => []
    | some library =>
      if library.loaded then merges env rest libraries
      else
        match library.source.entries env with
        | .error _ => []
        | .ok entries => ⟨name, entries⟩ :: merges env rest (libraries.mark name library)

/-- **Libraries come to be loaded by merges.**  What is merged are the entries of the registered
sources, of libraries that were not loaded and of none of them twice.  Those libraries are loaded
afterwards, as are those that were before, and no others. -/
structure LoadedBy (env : Environment) (libraries : Libraries) (merges : List Merge)
    (after : Libraries) : Prop where
  once : (merges.map (·.name)).Nodup
  first : ∀ merge ∈ merges, libraries.isLoaded merge.name = false
  entries : ∀ merge ∈ merges, ∃ source, libraries.source? merge.name = some source ∧
    source.entries env = .ok merge.entries
  sources : ∀ name, after.source? name = libraries.source? name
  isLoaded_iff : ∀ name, after.isLoaded name = true ↔
    libraries.isLoaded name = true ∨ name ∈ merges.map (·.name)

variable {env : Environment} {libraries between after : Libraries} {store : Store}
variable {merges later : List Merge} {name : String} {names : List String} {library : Library}

/-! ### Registered sources -/

theorem isLoaded_of_find? (found : libraries.registered.find? name = some library) :
    libraries.isLoaded name = library.loaded := by
  rw [isLoaded, found]

theorem exists_of_isLoaded (loaded : libraries.isLoaded name = true) :
    ∃ library, libraries.registered.find? name = some library ∧ library.loaded = true := by
  rw [isLoaded] at loaded
  cases found : libraries.registered.find? name with
  | none => simp [found] at loaded
  | some library =>
    rw [found] at loaded
    exact ⟨library, rfl, loaded⟩

/-- No library is loaded under a name that nothing is registered under. -/
theorem isLoaded_of_source?_eq_none (unknown : libraries.source? name = none) :
    libraries.isLoaded name = false := by
  rw [source?, Option.map_eq_none_iff] at unknown
  rw [isLoaded, unknown]

/-- Under a name there is the last source of that name, and it is not loaded. -/
theorem find?_ofList (sources : List (String × Source)) (name : String) :
    (ofList sources).registered.find? name =
      (sources.reverse.lookup name).map fun source => ⟨source, false⟩ := by
  induction sources using List.reverseRecOn with
  | nil => rfl
  | append_singleton earlier last ih =>
    have step : ofList (earlier ++ [last]) = (ofList earlier).register last.1 last.2 := by
      rw [ofList, List.foldl_append]
      rfl
    rw [step, register, Dictionary.find?_insert, ih, List.reverse_append, List.reverse_singleton,
      List.singleton_append, List.lookup_cons]
    by_cases same : name = last.1
    · simp [same]
    · simp [same, beq_false_of_ne same]

theorem source?_ofList (sources : List (String × Source)) (name : String) :
    (ofList sources).source? name = sources.reverse.lookup name := by
  rw [source?, find?_ofList, Option.map_map]
  exact Option.map_id'

/-- Under any other name there is no source. -/
theorem source?_ofList_of_notMem {sources : List (String × Source)}
    (unknown : name ∉ sources.map (·.1)) : (ofList sources).source? name = none := by
  rw [source?_ofList, List.lookup_eq_none_iff]
  intro named listed
  rw [bne_iff_ne]
  rintro rfl
  exact unknown (List.mem_map_of_mem (List.mem_reverse.mp listed))

/-- Nothing is loaded in the beginning. -/
theorem isLoaded_ofList (sources : List (String × Source)) (name : String) :
    (ofList sources).isLoaded name = false := by
  rw [isLoaded, find?_ofList]
  cases sources.reverse.lookup name <;> rfl

/-! ### Libraries that come to be loaded -/

namespace LoadedBy

theorem refl (env : Environment) (libraries : Libraries) : LoadedBy env libraries [] libraries where
  once := .nil
  first := nofun
  entries := nofun
  sources _ := rfl
  isLoaded_iff name := by simp

/-- What was loaded stays loaded. -/
theorem isLoaded (loaded : LoadedBy env libraries merges after)
    (before : libraries.isLoaded name = true) : after.isLoaded name = true :=
  (loaded.isLoaded_iff name).mpr (.inl before)

/-- **One load after another.**  What the first has merged is loaded by then, so the second merges
other libraries. -/
theorem trans (earlier : LoadedBy env libraries merges between)
    (further : LoadedBy env between later after) :
    LoadedBy env libraries (merges ++ later) after where
  once := by
    rw [List.map_append, List.nodup_append]
    refine ⟨earlier.once, further.once, ?_⟩
    rintro name merged other mergedLater rfl
    obtain ⟨merge, new, rfl⟩ := List.mem_map.mp mergedLater
    have loaded := (earlier.isLoaded_iff merge.name).mpr (.inr merged)
    rw [further.first merge new] at loaded
    cases loaded
  first := by
    intro merge merged
    rcases List.mem_append.mp merged with before | new
    · exact earlier.first merge before
    · apply Bool.eq_false_iff.mpr
      intro loaded
      have still := earlier.isLoaded loaded
      rw [further.first merge new] at still
      cases still
  entries := by
    intro merge merged
    rcases List.mem_append.mp merged with before | new
    · exact earlier.entries merge before
    · rw [← earlier.sources]
      exact further.entries merge new
  sources name := by rw [further.sources, earlier.sources]
  isLoaded_iff name := by
    rw [further.isLoaded_iff, earlier.isLoaded_iff, List.map_append, List.mem_append, or_assoc]

/-- A library is loaded whose source has given entries. -/
theorem single (found : libraries.registered.find? name = some library)
    (new : library.loaded = false) {entries : List Entry}
    (gives : library.source.entries env = .ok entries) :
    LoadedBy env libraries [⟨name, entries⟩] (libraries.mark name library) where
  once := List.nodup_singleton _
  first := by
    simp only [List.mem_singleton, forall_eq]
    rw [isLoaded_of_find? found, new]
  entries := by
    simp only [List.mem_singleton, forall_eq]
    refine ⟨library.source, ?_, gives⟩
    rw [source?, found, Option.map_some]
  sources other := by
    rw [source?, source?, mark, Dictionary.find?_insert]
    by_cases same : other = name
    · rw [if_pos same, same, found]
      rfl
    · rw [if_neg same]
  isLoaded_iff other := by
    rw [Libraries.isLoaded, mark, Dictionary.find?_insert, List.map_singleton, List.mem_singleton]
    by_cases same : other = name
    · simp [same]
    · rw [if_neg same, Libraries.isLoaded]
      simp only [same, or_false]

end LoadedBy

/-! ### Loading -/

/-- **A load does nothing to the store but its merges**, in order, whether or not it succeeds. -/
theorem store_load (env : Environment) (names : List String) (store : Store)
    (libraries : Libraries) :
    (libraries.load env names store).2.1 = store.afterMerges (libraries.merges env names) := by
  induction names generalizing store libraries with
  | nil => rfl
  | cons name rest ih =>
    rw [load, loadOne, Libraries.merges]
    cases libraries.registered.find? name with
    | none => rfl
    | some library =>
      by_cases loaded : library.loaded = true
      · simp only [if_pos loaded]
        exact ih store libraries
      · simp only [if_neg loaded]
        cases library.source.entries env with
        | error e => rfl
        | ok entries => exact ih (store.merge entries) (libraries.mark name library)

/-- **The libraries that a load merges are those that it marks as loaded.** -/
theorem loadedBy_load (env : Environment) (names : List String) (store : Store)
    (libraries : Libraries) :
    LoadedBy env libraries (libraries.merges env names) (libraries.load env names store).2.2 := by
  induction names generalizing store libraries with
  | nil => exact .refl env libraries
  | cons name rest ih =>
    rw [load, loadOne, Libraries.merges]
    cases found : libraries.registered.find? name with
    | none => exact .refl env libraries
    | some library =>
      by_cases loaded : library.loaded = true
      · simp only [if_pos loaded]
        exact ih store libraries
      · simp only [if_neg loaded]
        cases gives : library.source.entries env with
        | error e => exact .refl env libraries
        | ok entries =>
          have one := LoadedBy.single found (Bool.eq_false_iff.mpr loaded) gives
          exact one.trans (ih (store.merge entries) (libraries.mark name library))

theorem loadOne_of_isLoaded (loaded : libraries.isLoaded name = true) (env : Environment)
    (store : Store) : libraries.loadOne env name store = (.ok (), store, libraries) := by
  obtain ⟨library, found, loaded⟩ := exists_of_isLoaded loaded
  rw [loadOne, found]
  simp only [if_pos loaded]

/-- **A load of libraries that are loaded does nothing**, and succeeds. -/
theorem load_of_isLoaded (loaded : ∀ name ∈ names, libraries.isLoaded name = true)
    (env : Environment) (store : Store) :
    libraries.load env names store = (.ok (), store, libraries) := by
  induction names with
  | nil => rfl
  | cons name rest ih =>
    obtain ⟨here, others⟩ := List.forall_mem_cons.mp loaded
    rw [load, loadOne_of_isLoaded here]
    exact ih others

end Libraries

end ConfigBinding
