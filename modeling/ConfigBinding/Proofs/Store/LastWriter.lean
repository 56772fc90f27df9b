import ConfigBinding.Proofs.Toml.Plain
import ConfigBinding.Proofs.Value.Merging
import ConfigBinding.Source

/-!
# The last writer wins

Entries are laid over a table in order.  At every path the last entry that touches the path decides
what is there, and what no entry touches stays as it was.

## Main Definitions

* `Entry.Holds` — what an entry has at a path, when its value stands at its own path
* `Entry.Makes`, `Entry.Touches` — what an entry makes of a path of the table it is laid over
* `Dictionary.DecidedBy` — at every path the last entry that touches it has decided

## Main Statements

* `Dictionary.place_mergeAt` — one entry
* `Dictionary.mergeAll_decidedBy` — entries in order
* `Store.merge_last_writer_wins` — stores, and stores that sources make

## Design Notes

What an entry makes of a path is said by paths alone, without merging.  An entry is a leaf or a
table at its path, whatever is inside its value lies below, and there are tables on the way.  A
leaf takes away what was below it.

The empty path is left out: there is always the whole table.  An entry without a path and with a
leaf for its value would stand there, and so touches nothing.

A table that lists a key twice would have two things to say of one path.  What is read from a text
or from the environment never does, and of entries that are given as they are it is asked.
-/

namespace ConfigBinding

/-! ### What an entry makes of a path -/

namespace Entry

/-- What an entry has at a path, if its value is seen as standing at its own path. -/
inductive Holds (entry : Entry) : Path → Place → Prop
  | value {below : Path} {there : Value} (found : entry.value.at? below = some there) :
      Holds entry (entry.path ++ below) (.of (some there))
  | way {path : Path} (above : path <+: entry.path) (differs : path ≠ entry.path) :
      Holds entry path .table

/-- **What an entry makes of a path**: what it has there itself, and nothing below one of its
leaves. -/
inductive Makes (entry : Entry) (path : Path) : Place → Prop
  | held {place : Place} (holds : entry.Holds path place) : Makes entry path place
  | cut {upper : Path} {leaf : Value} (holds : entry.Holds upper (.leaf leaf))
      (above : upper <+: path) (differs : upper ≠ path) (proper : upper ≠ []) :
      Makes entry path .absent

/-- An entry touches the paths that it makes something of. -/
def Touches (entry : Entry) (path : Path) : Prop :=
  ∃ place, entry.Makes path place

variable {entry : Entry} {path : Path} {place : Place}

/-- What an entry has at a path is what is found there in its placed value. -/
theorem holds_iff :
    entry.Holds path place ↔
      ∃ there, (entry.value.under entry.path).at? path = some there ∧
        place = .of (some there) := by
  constructor
  · intro holds
    cases holds with
    | value found => exact ⟨_, (Value.at?_under_append _ _ _).trans found, rfl⟩
    | way above differs =>
      obtain ⟨entries, found⟩ := entry.value.exists_at?_under above differs
      exact ⟨.table entries, found, rfl⟩
  · rintro ⟨there, found, rfl⟩
    by_cases below : entry.path <+: path
    · obtain ⟨rest, rfl⟩ := below
      rw [Value.at?_under_append] at found
      exact .value found
    · have above := (Value.comparable_of_at?_under found).resolve_left below
      have differs : path ≠ entry.path := fun same => below (same ▸ List.prefix_rfl)
      obtain ⟨entries, found'⟩ := entry.value.exists_at?_under above differs
      obtain rfl : there = .table entries := Option.some.inj (found.symm.trans found')
      exact .way above differs

/-- Only a table has anything at a path that is not empty. -/
theorem exists_table_of_at? {value there : Value} (found : value.at? path = some there)
    (nonempty : path ≠ []) : ∃ entries, value = .table entries := by
  refine value.isLeaf_or_table.resolve_left fun isLeaf => ?_
  cases path with
  | nil => exact nonempty rfl
  | cons key rest =>
    rw [isLeaf.at?_cons] at found
    cases found

/-- An entry makes of a path what its placed value makes of it, which must be a table. -/
theorem makes_iff (nonempty : path ≠ []) :
    entry.Makes path place ↔
      ∃ overlay, entry.value.under entry.path = .table overlay ∧
        (Value.table overlay).Makes path place := by
  constructor
  · intro makes
    cases makes with
    | held holds =>
      obtain ⟨there, found, rfl⟩ := holds_iff.mp holds
      obtain ⟨overlay, placed⟩ := exists_table_of_at? found nonempty
      exact ⟨overlay, placed, .found (placed ▸ found)⟩
    | cut holds above differs proper =>
      obtain ⟨there, found, same⟩ := holds_iff.mp holds
      obtain ⟨rfl, isLeaf⟩ := Place.eq_of_of_eq_leaf same.symm
      obtain ⟨overlay, placed⟩ := exists_table_of_at? found proper
      exact ⟨overlay, placed, .cut (placed ▸ found) isLeaf above differs⟩
  · rintro ⟨overlay, placed, makes⟩
    cases makes with
    | found found => exact .held (holds_iff.mpr ⟨_, placed ▸ found, rfl⟩)
    | @cut upper leaf found isLeaf above differs =>
      have holds : entry.Holds upper (.leaf leaf) :=
        holds_iff.mpr ⟨leaf, placed ▸ found, (Place.of_leaf isLeaf).symm⟩
      refine .cut holds above differs ?_
      -- at the empty path there is the overlay, which is no leaf
      rintro rfl
      cases found
      exact isLeaf overlay rfl

/-- At its own path an entry has its value. -/
theorem holds_path (entry : Entry) : entry.Holds entry.path (.of (some entry.value)) :=
  holds_iff.mpr ⟨entry.value, by simpa using Value.at?_under_append entry.value entry.path [], rfl⟩

/-- **An entry with a leaf** touches what is on the way to it and below it, and nothing else. -/
theorem touches_iff_of_isLeaf (isLeaf : entry.value.IsLeaf) (somewhere : entry.path ≠ []) :
    entry.Touches path ↔ path <+: entry.path ∨ entry.path <+: path := by
  constructor
  · rintro ⟨place, makes⟩
    cases makes with
    | held holds =>
      obtain ⟨there, found, -⟩ := holds_iff.mp holds
      exact (Value.comparable_of_at?_under found).symm
    | cut holds above _ _ =>
      generalize same : Place.leaf _ = place at holds
      cases holds with
      | value _ => exact .inr ((List.prefix_append _ _).trans above)
      | way _ _ => cases same
  · intro comparable
    by_cases same : path = entry.path
    · subst same
      exact ⟨_, .held entry.holds_path⟩
    · rcases comparable with above | below
      · exact ⟨_, .held (.way above same)⟩
      · have holds := entry.holds_path
        rw [Place.of_leaf isLeaf] at holds
        exact ⟨_, .cut holds below (Ne.symm same) somewhere⟩

/-- An entry without a path and with a leaf touches nothing. -/
theorem not_touches_of_nil {value : Value} (isLeaf : value.IsLeaf) (nonempty : path ≠ []) :
    ¬ (⟨[], value⟩ : Entry).Touches path := by
  rintro ⟨place, makes⟩
  obtain ⟨overlay, placed, -⟩ := (makes_iff nonempty).mp makes
  exact isLeaf overlay placed

end Entry

/-! ### Tables -/

namespace Dictionary

variable {t : Table} {path : Path} {entry : Entry} {entries : List Entry}

/-- **One entry** decides the paths that it touches, and leaves the others as they were. -/
theorem place_mergeAt (ordered : entry.value.Ordered) (nonempty : path ≠ []) (t : Table) :
    (∀ place, entry.Makes path place → (t.mergeAt entry.path entry.value).place path = place) ∧
    (¬ entry.Touches path → (t.mergeAt entry.path entry.value).place path = t.place path) := by
  rcases (entry.value.under entry.path).isLeaf_or_table with isLeaf | ⟨overlay, placed⟩
  · -- such an entry has neither a path nor a table
    have untouched : ∀ place, ¬ entry.Makes path place := by
      intro place makes
      obtain ⟨overlay, placed, -⟩ := (Entry.makes_iff nonempty).mp makes
      exact isLeaf overlay placed
    constructor
    · intro place makes
      exact absurd makes (untouched place)
    · intro _
      unfold mergeAt
      split
      · next overlay placed => exact absurd placed (isLeaf overlay)
      · rfl
  · have merged : ∀ place, (Value.table overlay).Makes path place ↔ entry.Makes path place := by
      intro place
      rw [Entry.makes_iff nonempty, placed]
      constructor
      · intro makes
        exact ⟨overlay, rfl, makes⟩
      · rintro ⟨_, ⟨⟩, makes⟩
        exact makes
    obtain ⟨touched, untouched⟩ :=
      Value.place_over (placed ▸ ordered.under entry.path) (some (.table t)) path
    rw [place, at?, table_mergeAt placed, placed]
    constructor
    · intro place makes
      exact touched place ((merged place).mpr makes)
    · intro leaves
      exact untouched fun place makes => leaves ⟨place, (merged place).mp makes⟩

/-- Entries were laid over a table in order: at every path the last one that touches it has decided,
and where none does there is what was there before. -/
def DecidedBy (before : Table) (entries : List Entry) (after : Table) : Prop :=
  ∀ path, path ≠ [] →
    (∀ earlier entry later place, entries = earlier ++ entry :: later → entry.Makes path place →
      (∀ other ∈ later, ¬ other.Touches path) → after.place path = place) ∧
    ((∀ entry ∈ entries, ¬ entry.Touches path) → after.place path = before.place path)

theorem place_mergeAll_of_untouched (ordered : ∀ entry ∈ entries, entry.value.Ordered)
    (nonempty : path ≠ []) (untouched : ∀ entry ∈ entries, ¬ entry.Touches path) (t : Table) :
    (t.mergeAll entries).place path = t.place path := by
  induction entries generalizing t with
  | nil => rfl
  | cons entry rest ih =>
    have first := (place_mergeAt (ordered entry List.mem_cons_self) nonempty t).2
      (untouched entry List.mem_cons_self)
    rw [← first]
    exact ih (fun other inRest => ordered other (List.mem_cons_of_mem _ inRest))
      (fun other inRest => untouched other (List.mem_cons_of_mem _ inRest)) _

/-- **Entries in order**: the last one that touches a path decides. -/
theorem mergeAll_decidedBy (ordered : ∀ entry ∈ entries, entry.value.Ordered) (t : Table) :
    t.DecidedBy entries (t.mergeAll entries) := by
  intro path nonempty
  constructor
  · rintro earlier entry later place rfl makes untouched
    have here : entry ∈ earlier ++ entry :: later :=
      List.mem_append_right earlier List.mem_cons_self
    have orderedLater : ∀ other ∈ later, other.value.Ordered := fun other inLater =>
      ordered other (List.mem_append_right earlier (List.mem_cons_of_mem entry inLater))
    rw [mergeAll, List.foldl_append, List.foldl_cons]
    -- what comes later leaves the path alone, so the entry itself has the last word
    refine (place_mergeAll_of_untouched orderedLater nonempty untouched _).trans ?_
    exact (place_mergeAt (ordered entry here) nonempty _).1 place makes
  · intro untouched
    exact place_mergeAll_of_untouched ordered nonempty untouched t

theorem mergeAll_append (t : Table) (entries more : List Entry) :
    t.mergeAll (entries ++ more) = (t.mergeAll entries).mergeAll more :=
  List.foldl_append

end Dictionary

/-! ### Stores -/

/-- What a source contributes is ordered, if it is when the entries are given as they are. -/
theorem Source.ordered_of_entries {env : Environment} {source : Source} {entries : List Entry}
    (given : ∀ fixed, source = .fixed fixed → ∀ entry ∈ fixed, entry.value.Ordered)
    (read : source.entries env = .ok entries) : ∀ entry ∈ entries, entry.value.Ordered := by
  cases source with
  | toml name text =>
    simp only [Source.entries] at read
    split at read
    · next t readText =>
      cases read
      intro entry listed
      obtain rfl := List.mem_singleton.mp listed
      exact Toml.ordered_of_read? readText
    · cases read
  | environment selection =>
    cases read
    intro entry listed
    obtain ⟨⟨name, text⟩, _, rfl⟩ := List.mem_map.mp listed
    exact .leaf (Value.isLeaf_string text)
  | fixed fixed =>
    cases read
    exact given entries rfl

namespace Store

/-- What sources contribute to a store, one list of entries for each. -/
def Contribute (env : Environment) : List Source → List (List Entry) → Prop :=
  List.Forall₂ fun source entries => source.entries env = .ok entries

/-- Adding sources is laying what they contribute over the store, in order. -/
theorem exists_contributions_of_addSources {env : Environment} {sources : List Source}
    {store built : Store} (added : Store.addSources env store sources = .ok built) :
    ∃ contributions, Contribute env sources contributions ∧
      built.contents = store.contents.mergeAll contributions.flatten := by
  induction sources generalizing store with
  | nil =>
    cases added
    exact ⟨[], .nil, rfl⟩
  | cons source rest ih =>
    unfold addSources at added
    cases read : source.entries env with
    | error e =>
      rw [read] at added
      cases added
    | ok entries =>
      rw [read] at added
      obtain ⟨contributions, contribute, contents⟩ := ih added
      refine ⟨entries :: contributions, .cons read contribute, ?_⟩
      rw [contents, List.flatten_cons, Dictionary.mergeAll_append]
      rfl

theorem ordered_of_contribute {env : Environment} {sources : List Source}
    {contributions : List (List Entry)} (contribute : Contribute env sources contributions)
    (given : ∀ fixed, .fixed fixed ∈ sources → ∀ entry ∈ fixed, entry.value.Ordered) :
    ∀ entry ∈ contributions.flatten, entry.value.Ordered := by
  induction contribute with
  | nil => exact nofun
  | @cons source entries rest _ read _ ih =>
    intro entry listed
    rw [List.flatten_cons] at listed
    rcases List.mem_append.mp listed with here | later
    · refine source.ordered_of_entries (fun fixed same => ?_) read entry here
      exact given fixed (same ▸ List.mem_cons_self)
    · exact ih (fun fixed inRest => given fixed (List.mem_cons_of_mem _ inRest)) entry later

/-- **The last writer wins, path by path.**  It is so for entries that are merged into a store, and
for a store that sources make, where the entries are those that the sources contribute in their
order.  Values are taken to be ordered, where a source does not see to that itself.  An entry
without a path has a say only if it is a table. -/
theorem merge_last_writer_wins :
    (∀ (store : Store) (entries : List Entry), (∀ entry ∈ entries, entry.value.Ordered) →
      store.contents.DecidedBy entries (store.merge entries).contents) ∧
    (∀ (env : Environment) (sources : List Source) (built : Store),
      (∀ fixed, .fixed fixed ∈ sources → ∀ entry ∈ fixed, entry.value.Ordered) →
      Store.ofSources env sources = .ok built →
        ∃ contributions, Contribute env sources contributions ∧
          Dictionary.DecidedBy .empty contributions.flatten built.contents) ∧
    (∀ (value : Value) (path : Path), value.IsLeaf → path ≠ [] →
      ¬ (⟨[], value⟩ : Entry).Touches path) := by
  refine ⟨?_, ?_, ?_⟩
  · intro store entries ordered
    exact Dictionary.mergeAll_decidedBy ordered store.contents
  · intro env sources built given added
    obtain ⟨contributions, contribute, contents⟩ := exists_contributions_of_addSources added
    refine ⟨contributions, contribute, ?_⟩
    rw [contents]
    exact Dictionary.mergeAll_decidedBy (ordered_of_contribute contribute given) _
  · intro value path isLeaf nonempty
    exact Entry.not_touches_of_nil isLeaf nonempty

/-- The properties of a server, before they are changed. -/
def serverDefaults : Store :=
  ⟨⟨[("mode", .string "dev"),
    ("server", .table ⟨[("host", .string "a"), ("ports", .array [.integer 80, .integer 81])]⟩)]⟩⟩

/-- Other ports, and a level in the place of the mode. -/
def serverChanges : List Entry :=
  [⟨["server", "ports"], .array [.integer 443]⟩, ⟨["mode", "level"], .integer 2⟩]

/-- The array is replaced whole, its sibling stays, and the mode makes way for a table. -/
theorem server_last_writer_wins :
    let after := (serverDefaults.merge serverChanges).contents
    (∀ entry ∈ serverChanges, entry.value.Ordered) ∧
      after.place ["server", "ports"] = .leaf (.array [.integer 443]) ∧
      after.place ["server", "host"] = .leaf (.string "a") ∧ after.place ["mode"] = .table := by
  intro after
  have leaves : ∀ entry ∈ serverChanges, entry.value.IsLeaf ∧ entry.path ≠ [] := by
    intro entry listed
    simp only [serverChanges, List.mem_cons, List.not_mem_nil, or_false] at listed
    rcases listed with rfl | rfl
    · exact ⟨nofun, nofun⟩
    · exact ⟨nofun, nofun⟩
  have ordered : ∀ entry ∈ serverChanges, entry.value.Ordered :=
    fun entry listed => .leaf (leaves entry listed).1
  have decided := merge_last_writer_wins.1 serverDefaults serverChanges ordered
  have untouched : ∀ entry ∈ serverChanges, ∀ path,
      ¬ (path <+: entry.path ∨ entry.path <+: path) → ¬ entry.Touches path := by
    intro entry listed path apart touches
    obtain ⟨isLeaf, somewhere⟩ := leaves entry listed
    exact apart ((Entry.touches_iff_of_isLeaf isLeaf somewhere).mp touches)
  refine ⟨ordered, ?_, ?_, ?_⟩
  · refine (decided ["server", "ports"] (List.cons_ne_nil _ _)).1 [] _ _ _ rfl
      (.held (Entry.holds_path _)) fun other later => ?_
    obtain rfl := List.mem_singleton.mp later
    exact untouched _ (List.mem_cons_of_mem _ later) _ (by decide)
  · have apart : ∀ entry ∈ serverChanges,
        ¬ (["server", "host"] <+: entry.path ∨ entry.path <+: ["server", "host"]) := by decide
    refine (decided ["server", "host"] (List.cons_ne_nil _ _)).2 fun entry listed => ?_
    exact untouched entry listed _ (apart entry listed)
  · refine (decided ["mode"] (List.cons_ne_nil _ _)).1 [_] _ [] _ rfl (.held (.way ?_ ?_)) nofun
    · decide
    · decide

end Store

end ConfigBinding
