import ConfigBinding.Proofs.Library.Merges
import ConfigBinding.Proofs.Run.LoaderCalls

/-!
# Libraries in a run

Where sources are libraries, many things may load them: a bind, the first request for an entry of a
map, and whoever asks for them directly.  However these are mixed, every library is merged into the
store once at most.

## Main Definitions

* `mergesOf` — the merges of calls

## Main Statements

* `Client.loadedBy_doesAll` — in a run libraries come to be loaded by merges, each of them once
* `Client.libraries_merged_once` — what becomes of libraries and of the store

## Design Notes

The store may be changed between loads in any way, so that nothing can be read off from it about
which libraries were loaded.  The merges of a run are therefore listed beside it, and what every
single step does to the store is said in terms of the list.
-/

namespace ConfigBinding

/-- The merges of calls, in order. -/
def mergesOf (env : Environment) (calls : List (LoaderCall Libraries)) : List Merge :=
  calls.flatMap fun call => call.state.merges env call.names

/-! ### Calls in a row -/

section InRow

variable {env : Environment} {before after : Store × Libraries}
variable {calls : List (LoaderCall Libraries)}

theorem mergesOf_append (env : Environment) (calls others : List (LoaderCall Libraries)) :
    mergesOf env (calls ++ others) = mergesOf env calls ++ mergesOf env others :=
  List.flatMap_append

/-- **Calls in a row do nothing to the store but their merges.** -/
theorem Loader.InRow.store_eq (inRow : (Loader.ofLibraries env).InRow before calls after) :
    after.1 = before.1.afterMerges (mergesOf env calls) := by
  induction inRow with
  | nil => rfl
  | @cons names store libraries _ _ _ ih =>
    have first := Libraries.store_load env names store libraries
    rw [mergesOf, List.flatMap_cons, Store.afterMerges_append, ← first]
    exact ih

/-- **Calls in a row load libraries by their merges.** -/
theorem Loader.InRow.loadedBy (inRow : (Loader.ofLibraries env).InRow before calls after) :
    before.2.LoadedBy env (mergesOf env calls) after.2 := by
  induction inRow with
  | nil => exact .refl env _
  | @cons names store libraries _ _ _ ih =>
    exact (Libraries.loadedBy_load env names store libraries).trans ih

/-- Calls for libraries that are loaded do nothing at all. -/
theorem Loader.InRow.eq_of_isLoaded (inRow : (Loader.ofLibraries env).InRow before calls after)
    (loaded : ∀ call ∈ calls, ∀ name ∈ call.names, before.2.isLoaded name = true) :
    after = before := by
  induction inRow with
  | nil => rfl
  | @cons names store libraries _ _ _ ih =>
    obtain ⟨here, others⟩ := List.forall_mem_cons.mp loaded
    have nothing : ((Loader.ofLibraries env).load names store libraries).2 = (store, libraries) :=
      congrArg Prod.snd (Libraries.load_of_isLoaded here env store)
    rw [nothing] at ih
    exact ih others

end InRow

/-! ### Runs -/

variable {app : Application Libraries} {env : Environment}

namespace Application

/-- An attempt changes neither the store nor the libraries if all that it asks for is loaded. -/
theorem unchanged_of_isLoaded (ofLibraries : app.loader = .ofLibraries env)
    {demands : List (Demand app.schema.size)} {attempt : app.Attempt BindError app.Bound}
    {seen : app.watched.Attempt BindError app.Bound} {w : app.State}
    (loads : app.LoadsInOrder demands attempt seen w)
    (loaded : ∀ demand ∈ demands, ∀ name ∈ demand.names, w.loader.isLoaded name = true) :
    (attempt w).2.store = w.store ∧ (attempt w).2.loader = w.loader := by
  obtain ⟨made, -, heeds, inRow⟩ := loads []
  rw [ofLibraries] at inRow
  have asked : ∀ call ∈ made, ∀ name ∈ call.names, w.loader.isLoaded name = true := by
    intro call called
    obtain ⟨demand, demanded, names⟩ := heeds.demanded called
    rw [names]
    exact loaded demand demanded
  exact Prod.ext_iff.mp (inRow.eq_of_isLoaded asked)

/-- A bind of what is loaded leaves the store as it is. -/
theorem bind_store_of_isLoaded (ofLibraries : app.loader = .ofLibraries env)
    {i : Fin app.schema.size} {w : app.State}
    (loaded : ∀ demand ∈ app.schema.demands i, ∀ name ∈ demand.names,
      w.loader.isLoaded name = true) (keyPrefix? : Option String) (immutable? : Option Bool) :
    (app.bind i keyPrefix? immutable? w).2.store = w.store := by
  cases accepted : app.schema.check i with
  | error e => rw [bind_of_refused accepted]
  | ok =>
    have loads := bind_loadsInOrder accepted keyPrefix? immutable? w
    exact (unchanged_of_isLoaded ofLibraries loads loaded).1

/-- A request for an entry of what is loaded leaves the store as it is. -/
theorem entry_store_of_isLoaded (ofLibraries : app.loader = .ofLibraries env)
    {m : ProxyMap app.schema.size} (sound : app.schema.Admissible m.valueType) {w : app.State}
    (loaded : ∀ demand ∈ app.schema.demands m.valueType, ∀ name ∈ demand.names,
      w.loader.isLoaded name = true) (key : String) :
    (app.entry m key w).2.store = w.store := by
  cases found : (w.entries m.serial).find? key with
  | some p => rw [entry_of_found found]
  | none =>
    have loads := entry_loadsInOrder sound found
    exact (unchanged_of_isLoaded ofLibraries loads loaded).1

end Application

namespace Client

variable {c : Client app}

/-- The merges of a deed. -/
def merges (env : Environment) (c : Client app) (deed : Deed app.schema.size) : List Merge :=
  mergesOf env (c.calls deed)

/-- The merges of a run, in order. -/
def mergesIn (env : Environment) (c : Client app) (deeds : List (Deed app.schema.size)) :
    List Merge :=
  mergesOf env (c.callsIn deeds)

section

variable (ofLibraries : app.loader = .ofLibraries env)
include ofLibraries

/-- **A deed does nothing to the store but its merges**, if it is not itself a change. -/
theorem store_does (sound : c.Sound) (deed : Deed app.schema.size) :
    (c.does deed).session.store =
      (deed.changed c.session.store).afterMerges (c.merges env deed) := by
  have inRow := calls_inRow sound deed
  rw [ofLibraries] at inRow
  exact inRow.store_eq

/-- A deed loads libraries by its merges. -/
theorem loadedBy_does (sound : c.Sound) (deed : Deed app.schema.size) :
    c.session.loader.LoadedBy env (c.merges env deed) (c.does deed).session.loader := by
  have inRow := calls_inRow sound deed
  rw [ofLibraries] at inRow
  exact inRow.loadedBy

/-- **In a run libraries come to be loaded by merges**, each of them once, by induction on the
deeds. -/
theorem loadedBy_doesAll (sound : c.Sound) (deeds : List (Deed app.schema.size)) :
    c.session.loader.LoadedBy env (c.mergesIn env deeds) (c.doesAll deeds).session.loader := by
  induction deeds generalizing c with
  | nil => exact .refl env _
  | cons deed rest ih =>
    have first := loadedBy_does ofLibraries sound deed
    rw [mergesIn, callsIn, mergesOf_append]
    exact first.trans (ih (sound.does deed))

end

/-- **Every library is merged once at most.**  In a run in which libraries are loaded directly, by
binds and by requests for entries, in any order, and in which the store is changed in between, there
is for every library at most one merge, which is of the entries of its source.  A library counts as
loaded exactly if there is one, and from then on; without a source it never does.  Every step
changes the store as somebody changes it from outside, or by its merges and in no other way, and
they are of libraries that were not loaded.  A load of libraries that are all loaded does nothing;
and so a bind, or a request for an entry, leaves the store as it is if all that it asks for was
loaded before. -/
theorem libraries_merged_once (app : Application Libraries) (env : Environment)
    (ofLibraries : app.loader = .ofLibraries env) (sources : List (String × Source)) (store : Store)
    (deeds : List (Deed app.schema.size)) :
    let begins : Client app := start app store (.ofList sources)
    let c := begins.doesAll deeds
    let isLoaded := c.session.loader.isLoaded
    ((begins.mergesIn env deeds).map (·.name)).Nodup ∧
      (∀ merge ∈ begins.mergesIn env deeds, ∃ source,
        sources.reverse.lookup merge.name = some source ∧
          source.entries env = .ok merge.entries) ∧
      (∀ name, isLoaded name = true ↔ name ∈ (begins.mergesIn env deeds).map (·.name)) ∧
      (∀ name, name ∉ sources.map (·.1) → isLoaded name = false) ∧
      (∀ more name, isLoaded name = true →
        (c.doesAll more).session.loader.isLoaded name = true) ∧
      (∀ deed, (c.does deed).session.store =
          (deed.changed c.session.store).afterMerges (c.merges env deed) ∧
        ∀ merge ∈ c.merges env deed, isLoaded merge.name = false) ∧
      (∀ names, (∀ name ∈ names, isLoaded name = true) → ∀ store,
        app.loader.load names store c.session.loader = (.ok (), store, c.session.loader)) ∧
      (∀ i, (∀ demand ∈ app.schema.demands i, ∀ name ∈ demand.names, isLoaded name = true) →
        (∀ keyPrefix? immutable?, (app.bind i keyPrefix? immutable? c.session).2.store =
          c.session.store) ∧
        ∀ h ∈ c.held, ∀ m, h.given = .map m → m.valueType = i → ∀ key,
          (app.entry m key c.session).2.store = c.session.store) := by
  intro begins c isLoaded
  have soundBegins : begins.Sound := start_sound store _
  have sound : c.Sound := soundBegins.doesAll deeds
  have loads := loadedBy_doesAll ofLibraries soundBegins deeds
  have before : ∀ name, begins.session.loader.isLoaded name = false :=
    Libraries.isLoaded_ofList sources
  refine ⟨loads.once, ?_, ?_, ?_, ?_, ?_, ?_, fun i loaded => ⟨?_, ?_⟩⟩
  · intro merge merged
    rw [← Libraries.source?_ofList]
    exact loads.entries merge merged
  · intro name
    rw [loads.isLoaded_iff, before]
    simp only [Bool.false_eq_true, false_or]
  · intro name unknown
    apply Libraries.isLoaded_of_source?_eq_none
    rw [loads.sources]
    exact Libraries.source?_ofList_of_notMem unknown
  · intro more name loaded
    exact (loadedBy_doesAll ofLibraries sound more).isLoaded loaded
  · intro deed
    exact ⟨store_does ofLibraries sound deed, (loadedBy_does ofLibraries sound deed).first⟩
  · intro names loaded store
    rw [ofLibraries]
    exact Libraries.load_of_isLoaded loaded env store
  · exact Application.bind_store_of_isLoaded ofLibraries loaded
  · intro h held m given type key
    subst type
    have admissible := sound.held h held m (given ▸ .map)
    exact Application.entry_store_of_isLoaded ofLibraries admissible loaded key

/-- Texts in colors that a library of settings has. -/
def colored : Application Libraries :=
  .ofLibraries (.ofVector #v[
    { name := "Colors", keyPrefix? := none, immutable := false, sources? := some ["settings"],
      methods := [⟨"getText", .value .string, 0, none, none⟩] }]) .standard []

/-- The settings are loaded together with fonts that nobody knows, and then the color is changed. -/
def changedColor : List (Deed colored.schema.size) :=
  [.load ["settings", "fonts"], .edit (·.set "text" (.string "red"))]

/-- The load fails for the fonts, but the settings are loaded, and so a bind that names them leaves
the color as it was changed. -/
theorem color_stays_changed :
    let begins := start colored .empty
      (.ofList [("settings", .fixed [.atKey "text" (.string "blue")])])
    let c := begins.doesAll changedColor
    (begins.mergesIn [] changedColor).map (·.name) = ["settings"] ∧
      c.session.loader.isLoaded "settings" = true ∧ c.session.loader.isLoaded "fonts" = false ∧
      (colored.bind (0 : Fin 1) none none c.session).2.store = c.session.store ∧
      c.session.store.raw? "text" = some (.string "red") := by
  intro begins c
  have merged : (begins.mergesIn [] changedColor).map (·.name) = ["settings"] := rfl
  obtain ⟨-, -, loaded_iff, unknown, -, -, -, unchanged⟩ := libraries_merged_once colored [] rfl
    [("settings", .fixed [.atKey "text" (.string "blue")])] .empty changedColor
  have loaded : c.session.loader.isLoaded "settings" = true := by
    rw [loaded_iff, merged]
    exact List.mem_singleton_self _
  refine ⟨merged, loaded, unknown "fonts" (by simp), ?_, rfl⟩
  refine (unchanged (0 : Fin 1) ?_).1 none none
  intro demand demanded name named
  obtain rfl := List.mem_singleton.mp demanded
  obtain rfl := List.mem_singleton.mp named
  exact loaded

end Client

end ConfigBinding
