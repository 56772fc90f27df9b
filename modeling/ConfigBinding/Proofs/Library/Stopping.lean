import ConfigBinding.Proofs.Library.Merges

/-!
# Loads that stop

A load takes its libraries one after the other and stops at the first one that cannot be loaded.
Which one that is depends on the libraries as they are before the load, and what the load has done
by then is not undone.

## Main Definitions

* `Libraries.Refuses` — why a library cannot be loaded
* `Libraries.StopsAt` — the first library among names that cannot be loaded, and the names before it
* `Libraries.newNames` — the names that a load merges

## Main Statements

* `Libraries.load_append` — a load of names and further names is a load after a load
* `Libraries.LoadedBy.refuses_iff` — libraries that come to be loaded do not make others fail
* `Libraries.load_eq_error_iff` — a load fails with the error of the library that it stops at
* `Libraries.load_stops_at_first_refused` — where a load stops, what it leaves there, and that it
  stops there again

## Design Notes

A name may stand several times in a load.  Only a name that comes before the one where the load
stops is loaded, so that a name after it stays as it was unless it also stands before.
-/

namespace ConfigBinding

namespace Libraries

/-- **A library cannot be loaded**: nothing is registered under its name, or it has not been loaded
and its source fails. -/
inductive Refuses (env : Environment) (libraries : Libraries) (name : String) :
    PropertyError → Prop
  | unknown (missing : libraries.source? name = none) :
    Refuses env libraries name (.unknownSource name)
  | failing {source : Source} {e : PropertyError} (new : libraries.isLoaded name = false)
    (registered : libraries.source? name = some source) (fails : source.entries env = .error e) :
    Refuses env libraries name e

/-- **The first library among names that cannot be loaded**, and the names before it. -/
structure StopsAt (env : Environment) (libraries : Libraries) (names before : List String)
    (name : String) (e : PropertyError) : Prop where
  splits : ∃ rest, names = before ++ name :: rest
  passes : ∀ earlier ∈ before, ∀ e, ¬ Refuses env libraries earlier e
  refuses : Refuses env libraries name e

/-- The names among names that a load merges: those that are not loaded, each where it stands
first. -/
def newNames (libraries : Libraries) (names : List String) : List String :=
  (names.filter fun name => !libraries.isLoaded name).eraseDups

variable {env env' : Environment} {libraries between after : Libraries} {store : Store}
variable {merges : List Merge} {name : String} {names before : List String} {e : PropertyError}

/-! ### One library -/

/-- A library that cannot be loaded leaves everything as it is. -/
theorem loadOne_of_refuses (refuses : Refuses env libraries name e) (store : Store) :
    libraries.loadOne env name store = (.error e, store, libraries) := by
  cases refuses with
  | unknown missing =>
    rw [source?, Option.map_eq_none_iff] at missing
    rw [loadOne, missing]
  | failing new registered fails =>
    obtain ⟨library, found, rfl⟩ := Option.map_eq_some_iff.mp registered
    rw [isLoaded_of_find? found] at new
    rw [loadOne, found]
    simp only [new, Bool.false_eq_true, if_false, fails]

theorem loadOne_of_gives {library : Library}
    (found : libraries.registered.find? name = some library) (new : library.loaded = false)
    {entries : List Entry} (gives : library.source.entries env = .ok entries) (store : Store) :
    libraries.loadOne env name store =
      (.ok (), store.merge entries, libraries.mark name library) := by
  rw [loadOne, found]
  simp only [new, Bool.false_eq_true, if_false, gives]
  rfl

/-- A library that can be loaded is loaded, or its source gives entries. -/
theorem isLoaded_or_of_not_refuses (passes : ∀ e, ¬ Refuses env libraries name e) :
    libraries.isLoaded name = true ∨ ∃ library entries,
      libraries.registered.find? name = some library ∧ library.loaded = false ∧
        library.source.entries env = .ok entries := by
  cases found : libraries.registered.find? name with
  | none => exact absurd (.unknown (by rw [source?, found, Option.map_none])) (passes _)
  | some library =>
    cases loaded : library.loaded with
    | true => exact .inl ((isLoaded_of_find? found).trans loaded)
    | false =>
      refine .inr ⟨library, ?_⟩
      cases gives : library.source.entries env with
      | ok entries => exact ⟨entries, rfl, loaded, rfl⟩
      | error e =>
        have new := (isLoaded_of_find? found).trans loaded
        have registered : libraries.source? name = some library.source := by
          rw [source?, found, Option.map_some]
        exact absurd (.failing new registered gives) (passes e)

/-- **Libraries that come to be loaded do not make others fail**, nor do they help them.  One that
has been merged has a source that gives entries, so it had not failed before either. -/
theorem LoadedBy.refuses_iff (loaded : LoadedBy env libraries merges after) :
    Refuses env after name e ↔ Refuses env libraries name e := by
  constructor
  · rintro (missing | ⟨new, registered, fails⟩)
    · exact .unknown (loaded.sources name ▸ missing)
    · refine .failing ?_ (loaded.sources name ▸ registered) fails
      apply Bool.eq_false_iff.mpr
      intro before
      rw [loaded.isLoaded before] at new
      cases new
  · rintro (missing | ⟨new, registered, fails⟩)
    · exact .unknown ((loaded.sources name).trans missing)
    · refine .failing ?_ ((loaded.sources name).trans registered) fails
      apply Bool.eq_false_iff.mpr
      intro since
      rcases (loaded.isLoaded_iff name).mp since with before | merged
      · rw [new] at before
        cases before
      · obtain ⟨merge, member, rfl⟩ := List.mem_map.mp merged
        obtain ⟨source, registered', gives⟩ := loaded.entries merge member
        obtain rfl := Option.some.inj (registered.symm.trans registered')
        rw [fails] at gives
        cases gives

theorem LoadedBy.passes (loaded : LoadedBy env libraries merges after)
    (passes : ∀ name ∈ names, ∀ e, ¬ Refuses env libraries name e) :
    ∀ name ∈ names, ∀ e, ¬ Refuses env after name e :=
  fun name listed e refuses => passes name listed e (loaded.refuses_iff.mp refuses)

/-- A source that fails as before is refused as before. -/
theorem Refuses.of_same (refuses : Refuses env libraries name e)
    (same : ∀ source, libraries.source? name = some source →
      source.entries env' = source.entries env) : Refuses env' libraries name e := by
  cases refuses with
  | unknown missing => exact .unknown missing
  | failing new registered fails =>
    exact .failing new registered ((same _ registered).trans fails)

/-! ### Libraries in order -/

/-- **A load of names and further names is a load after a load**, if the first one succeeds. -/
theorem load_append (env : Environment) (names more : List String) (store : Store)
    (libraries : Libraries) :
    libraries.load env (names ++ more) store =
      match libraries.load env names store with
      | (.error e, stopped) => (.error e, stopped)
      | (.ok (), store, libraries) => libraries.load env more store := by
  induction names generalizing store libraries with
  | nil => rfl
  | cons name rest ih =>
    rw [List.cons_append, load, load]
    rcases libraries.loadOne env name store with ⟨_ | ⟨⟩, store, libraries⟩
    · rfl
    · exact ih store libraries

/-- A load succeeds if no library of it is refused. -/
theorem load_fst_of_passes (passes : ∀ name ∈ names, ∀ e, ¬ Refuses env libraries name e)
    (store : Store) : (libraries.load env names store).1 = .ok () := by
  induction names generalizing store libraries with
  | nil => rfl
  | cons name rest ih =>
    obtain ⟨here, others⟩ := List.forall_mem_cons.mp passes
    rw [load]
    rcases isLoaded_or_of_not_refuses here with loaded | ⟨library, entries, found, new, gives⟩
    · rw [loadOne_of_isLoaded loaded]
      exact ih others store
    · have merged := LoadedBy.single found new gives
      rw [loadOne_of_gives found new gives]
      exact ih (merged.passes others) (store.merge entries)

/-- **A load stops at the first library that cannot be loaded**, and leaves what a load of the names
before it leaves. -/
theorem StopsAt.load_eq (stops : StopsAt env libraries names before name e) (store : Store) :
    libraries.load env names store = (.error e, (libraries.load env before store).2) := by
  obtain ⟨⟨rest, rfl⟩, passes, refuses⟩ := stops
  have loaded := loadedBy_load env before store libraries
  have succeeds := load_fst_of_passes passes store
  rw [load_append]
  rcases outcome : libraries.load env before store with ⟨_ | ⟨⟩, state, between⟩
  · rw [outcome] at succeeds
    cases succeeds
  · rw [outcome] at loaded
    simp only
    rw [load, loadOne_of_refuses (loaded.refuses_iff.mpr refuses)]

/-- Names of which one is refused have a first one that is. -/
theorem exists_stopsAt (listed : name ∈ names) (refuses : Refuses env libraries name e) :
    ∃ before first e, StopsAt env libraries names before first e := by
  induction names with
  | nil => cases listed
  | cons other rest ih =>
    by_cases here : ∃ e, Refuses env libraries other e
    · obtain ⟨e, refuses⟩ := here
      exact ⟨[], other, e, ⟨rest, rfl⟩, nofun, refuses⟩
    · rcases List.mem_cons.mp listed with rfl | later
      · exact absurd ⟨e, refuses⟩ here
      · obtain ⟨before, first, e, ⟨after, rfl⟩, passes, refuses⟩ := ih later
        refine ⟨other :: before, first, e, ⟨after, rfl⟩, ?_, refuses⟩
        exact List.forall_mem_cons.mpr ⟨not_exists.mp here, passes⟩

theorem load_eq_ok_iff :
    (libraries.load env names store).1 = .ok () ↔
      ∀ name ∈ names, ∀ e, ¬ Refuses env libraries name e := by
  constructor
  · intro succeeds name listed e refuses
    obtain ⟨before, first, e, stops⟩ := exists_stopsAt listed refuses
    rw [stops.load_eq] at succeeds
    cases succeeds
  · exact fun passes => load_fst_of_passes passes store

/-- **A load fails with the error of the library that it stops at.** -/
theorem load_eq_error_iff :
    (libraries.load env names store).1 = .error e ↔
      ∃ before name, StopsAt env libraries names before name e := by
  constructor
  · intro fails
    have refused : ¬ ∀ name ∈ names, ∀ e, ¬ Refuses env libraries name e := by
      intro passes
      rw [load_fst_of_passes passes store] at fails
      cases fails
    push Not at refused
    obtain ⟨name, listed, e', refuses⟩ := refused
    obtain ⟨before, first, e', stops⟩ := exists_stopsAt listed refuses
    rw [stops.load_eq] at fails
    obtain rfl := Except.error.inj fails
    exact ⟨before, first, stops⟩
  · rintro ⟨before, name, stops⟩
    rw [stops.load_eq]

/-! ### What is merged -/

theorem newNames_cons_of_isLoaded (loaded : libraries.isLoaded name = true) (names : List String) :
    newNames libraries (name :: names) = newNames libraries names := by
  rw [newNames, newNames, List.filter_cons_of_neg]
  simp [loaded]

/-- A name that is merged first is not merged again. -/
theorem newNames_cons_of_merged {entries : List Entry}
    (merged : LoadedBy env libraries [⟨name, entries⟩] after) (names : List String) :
    newNames libraries (name :: names) = name :: newNames after names := by
  have new := merged.first _ (List.mem_singleton_self _)
  rw [newNames, List.filter_cons_of_pos (by simp [new]), List.eraseDups_cons, List.filter_filter,
    newNames]
  congr 2
  apply List.filter_congr
  intro other _
  rw [← Bool.not_or, Bool.not_inj_iff, Bool.eq_iff_iff, Bool.or_eq_true, beq_iff_eq,
    merged.isLoaded_iff, List.map_singleton, List.mem_singleton, or_comm]

theorem merges_cons_of_isLoaded (loaded : libraries.isLoaded name = true) (names : List String) :
    libraries.merges env (name :: names) = libraries.merges env names := by
  obtain ⟨library, found, loaded⟩ := exists_of_isLoaded loaded
  rw [Libraries.merges, found]
  simp only [if_pos loaded]

theorem merges_cons_of_gives {library : Library}
    (found : libraries.registered.find? name = some library) (new : library.loaded = false)
    {entries : List Entry} (gives : library.source.entries env = .ok entries)
    (names : List String) :
    libraries.merges env (name :: names) =
      ⟨name, entries⟩ :: (libraries.mark name library).merges env names := by
  rw [Libraries.merges, found]
  simp only [new, Bool.false_eq_true, if_false, gives]

/-- **A load merges the names that are not loaded**, in order and each of them once. -/
theorem map_name_merges (passes : ∀ name ∈ names, ∀ e, ¬ Refuses env libraries name e) :
    (libraries.merges env names).map (·.name) = libraries.newNames names := by
  induction names generalizing libraries with
  | nil => rfl
  | cons name rest ih =>
    obtain ⟨here, others⟩ := List.forall_mem_cons.mp passes
    rcases isLoaded_or_of_not_refuses here with loaded | ⟨library, entries, found, new, gives⟩
    · rw [merges_cons_of_isLoaded loaded, newNames_cons_of_isLoaded loaded]
      exact ih others
    · have merged := LoadedBy.single found new gives
      rw [merges_cons_of_gives found new gives, newNames_cons_of_merged merged, List.map_cons]
      congr 1
      exact ih (merged.passes others)

/-! ### Where a load stops -/

/-- What is loaded after the names among names were merged that had not been: these, and what was
before. -/
theorem LoadedBy.isLoaded_eq (loaded : LoadedBy env libraries merges after)
    (merged : merges.map (·.name) = libraries.newNames names) (name : String) :
    after.isLoaded name = (libraries.isLoaded name || decide (name ∈ names)) := by
  have new : name ∈ libraries.newNames names ↔ name ∈ names ∧ libraries.isLoaded name = false := by
    rw [newNames, List.mem_eraseDups, List.mem_filter, Bool.not_eq_true']
  rw [Bool.eq_iff_iff, loaded.isLoaded_iff, merged, new, Bool.or_eq_true, decide_eq_true_eq]
  cases libraries.isLoaded name <;> simp

/-- **A load that has stopped stops again**, wherever the store is by then, and does nothing. -/
theorem StopsAt.load_again (stops : StopsAt env libraries names before name e)
    (loaded : LoadedBy env libraries merges after)
    (all : ∀ earlier ∈ before, after.isLoaded earlier = true)
    (same : ∀ source, libraries.source? name = some source →
      source.entries env' = source.entries env) (store : Store) :
    after.load env' names store = (.error e, store, after) := by
  obtain ⟨⟨rest, rfl⟩, -, refuses⟩ := stops
  have again : Refuses env' after name e := by
    apply (loaded.refuses_iff.mpr refuses).of_same
    intro source registered
    rw [loaded.sources] at registered
    exact same source registered
  rw [load_append, load_of_isLoaded all]
  simp only
  rw [load, loadOne_of_refuses again]

/-- **A load stops at the first library that cannot be loaded.**  Loads of names in order are one
load, up to the first that fails.  A load succeeds if and only if none of its libraries is refused
as the libraries are before it, and otherwise its error is that of the first one that is.  The
libraries before that one are loaded then, and those among them that were not are merged, in order
and each of them once, as after a load of just their names; nothing else is merged, and no other
library is loaded that was not.  The same load, if the source that has failed does as before, fails
with the same error and does nothing, whatever has become of the store. -/
theorem load_stops_at_first_refused (env : Environment) (names : List String) (store : Store)
    (libraries : Libraries) :
    (∀ more, libraries.load env (names ++ more) store =
      match libraries.load env names store with
      | (.error e, stopped) => (.error e, stopped)
      | (.ok (), store, libraries) => libraries.load env more store) ∧
    ((libraries.load env names store).1 = .ok () ↔
      ∀ name ∈ names, ∀ e, ¬ Refuses env libraries name e) ∧
    (∀ e, (libraries.load env names store).1 = .error e ↔
      ∃ before name, StopsAt env libraries names before name e) ∧
    ∀ before name e, StopsAt env libraries names before name e → ∃ merges after,
      libraries.load env names store = (.error e, store.afterMerges merges, after) ∧
      libraries.load env before store = (.ok (), store.afterMerges merges, after) ∧
      merges.map (·.name) = libraries.newNames before ∧
      (∀ merge ∈ merges, ∃ source, libraries.source? merge.name = some source ∧
        source.entries env = .ok merge.entries) ∧
      (∀ other, after.source? other = libraries.source? other) ∧
      (∀ earlier ∈ before, after.isLoaded earlier = true) ∧
      (∀ other, other ∉ before → after.isLoaded other = libraries.isLoaded other) ∧
      name ∉ before ∧
      ∀ env', (∀ source, libraries.source? name = some source →
          source.entries env' = source.entries env) →
        ∀ store, after.load env' names store = (.error e, store, after) := by
  refine ⟨fun more => load_append env names more store libraries, load_eq_ok_iff,
    fun e => load_eq_error_iff, ?_⟩
  intro before name e stops
  have loaded := loadedBy_load env before store libraries
  have merged := map_name_merges stops.passes
  have isLoaded_eq := loaded.isLoaded_eq merged
  have all : ∀ earlier ∈ before, (libraries.load env before store).2.2.isLoaded earlier = true := by
    intro earlier listed
    rw [isLoaded_eq, decide_eq_true listed, Bool.or_true]
  have succeeds : libraries.load env before store =
      (.ok (), store.afterMerges (libraries.merges env before),
        (libraries.load env before store).2.2) := by
    rw [← store_load env before store libraries, ← load_fst_of_passes stops.passes store]
  refine ⟨libraries.merges env before, (libraries.load env before store).2.2, ?_, succeeds, merged,
    loaded.entries, loaded.sources, all, ?_, ?_, ?_⟩
  · rw [stops.load_eq, ← store_load env before store libraries]
  · intro other notBefore
    rw [isLoaded_eq, decide_eq_false notBefore, Bool.or_false]
  · exact fun listed => stops.passes name listed e stops.refuses
  · exact fun env' same store => stops.load_again loaded all same store

/-- Libraries of which one has a text that cannot be read. -/
def withBrokenTheme : Libraries :=
  .ofList [("settings", .fixed [.atKey "text" (.string "blue")]), ("theme", .toml "theme" "= red"),
    ("fonts", .fixed [.atKey "font" (.string "serif")])]

/-- The settings are loaded, and once though they are named twice; the theme fails, and fails again;
the fonts after it are not loaded. -/
theorem theme_stops :
    let names := ["settings", "settings", "theme", "fonts"]
    ∃ after, withBrokenTheme.load [] names .empty = (.error (.malformedSource "theme"),
        Store.empty.merge [.atKey "text" (.string "blue")], after) ∧
      after.isLoaded "settings" = true ∧ after.isLoaded "theme" = false ∧
      after.isLoaded "fonts" = false ∧
      ∀ store, after.load [] names store = (.error (.malformedSource "theme"), store, after) := by
  intro names
  have stops : StopsAt [] withBrokenTheme names ["settings", "settings"] "theme"
      (.malformedSource "theme") := by
    refine ⟨⟨["fonts"], rfl⟩, ?_, .failing rfl rfl rfl⟩
    have succeeds : (withBrokenTheme.load [] ["settings", "settings"] .empty).1 = .ok () := rfl
    exact load_eq_ok_iff.mp succeeds
  have state : (withBrokenTheme.load [] names .empty).2.1 =
      Store.empty.merge [.atKey "text" (.string "blue")] := rfl
  obtain ⟨-, -, -, leaves⟩ := load_stops_at_first_refused [] names .empty withBrokenTheme
  obtain ⟨merges, after, outcome, -, -, -, -, loaded, others, -, again⟩ := leaves _ _ _ stops
  rw [outcome] at state
  refine ⟨after, ?_, loaded _ (by simp), others _ (by simp), others _ (by simp), ?_⟩
  · rw [outcome, ← state]
  · exact again [] fun source _ => rfl

end Libraries

end ConfigBinding
