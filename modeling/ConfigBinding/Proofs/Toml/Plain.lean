import ConfigBinding.Proofs.Value.Ordered
import ConfigBinding.Toml.Document

/-!
# What a TOML text can stand for

A text is read into a tree, which is then turned into a table.  The leaves of the tree are scalars,
and every table is put together key by key, so the table of a text is ordered.

## Main Definitions

* `Node.Plain`, `PlainEntries` — trees without tables in their leaves
* `Yields` — what holds of all that a scan reads

## Main Statements

* `plain_of_value` — values are read as plain trees
* `plainEntries_of_alter` — changes inside a tree keep it plain
* `ordered_of_read?` — the table of a text is ordered

## Design Notes

A leaf could hold any value, and a table in a leaf would be taken over as it is.  That no scan makes
such a leaf is all that has to be known of the scans, so `Yields` leaves out what they make of the
text and where they stop.
-/

namespace ConfigBinding.Toml

/-! ### Plain trees -/

/-- **A tree is plain** if its leaves hold no tables. -/
inductive Node.Plain : Node → Prop
  | leaf {value : Value} (isLeaf : value.IsLeaf) : Plain (.leaf value)
  | array {items : List Node} (all : ∀ item ∈ items, Plain item) : Plain (.array items)
  | inline {entries : Entries} (all : ∀ key node, (key, node) ∈ entries → Plain node) :
      Plain (.inline entries)
  | table {origin : Origin} {entries : Entries}
      (all : ∀ key node, (key, node) ∈ entries → Plain node) : Plain (.table origin entries)
  | tables {newestFirst : List Entries}
      (all : ∀ entries ∈ newestFirst, ∀ key node, (key, node) ∈ entries → Plain node) :
      Plain (.tables newestFirst)

/-- The trees under all keys are plain. -/
def PlainEntries (entries : Entries) : Prop :=
  ∀ key node, (key, node) ∈ entries → node.Plain

variable {entries after : Entries} {key : String} {node : Node}

theorem PlainEntries.of_lookup (plain : PlainEntries entries)
    (found : entries.lookup key = some node) : node.Plain :=
  plain key node (Dictionary.mem_of_lookup found)

theorem PlainEntries.snoc (plain : PlainEntries entries) (new : node.Plain) (key : String) :
    PlainEntries (entries ++ [(key, node)]) := by
  intro other node listed
  rcases List.mem_append.mp listed with before | last
  · exact plain other node before
  · obtain ⟨-, rfl⟩ := Prod.mk.inj (List.mem_singleton.mp last)
    exact new

theorem PlainEntries.replace (plain : PlainEntries entries) (new : node.Plain) (key : String) :
    PlainEntries (replace entries key node) := by
  intro other node listed
  obtain ⟨entry, before, same⟩ := List.mem_map.mp listed
  split at same
  · obtain ⟨-, rfl⟩ := Prod.mk.inj same
    exact new
  · subst same
    exact plain _ _ before

theorem PlainEntries.filter (plain : PlainEntries entries) (keep : String × Node → Bool) :
    PlainEntries (entries.filter keep) :=
  fun key node listed => plain key node (List.mem_filter.mp listed).1

theorem PlainEntries.of_cons {entry : String × Node} (plain : PlainEntries (entry :: entries)) :
    PlainEntries entries :=
  fun key node listed => plain key node (List.mem_cons_of_mem _ listed)

theorem plainEntries_nil : PlainEntries [] :=
  nofun

/-- **A change inside a tree keeps it plain**, if the change itself does. -/
theorem plainEntries_of_alter {made origin : Origin}
    {change : Origin → Entries → Option Entries} {path : List String}
    (plain : PlainEntries entries)
    (changes : ∀ origin inner after, PlainEntries inner → change origin inner = some after →
      PlainEntries after)
    (altered : alter made change path origin entries = some after) : PlainEntries after := by
  induction path generalizing origin entries after with
  | nil => exact changes origin entries after plain altered
  | cons key rest ih =>
    unfold alter at altered
    split at altered
    · next missing =>
      obtain ⟨inner, alteredInner, rfl⟩ := Option.map_eq_some_iff.mp altered
      exact plain.snoc (.table (ih plainEntries_nil alteredInner)) key
    · next origin inner found =>
      split at altered
      · cases altered
      · obtain ⟨innerAfter, alteredInner, rfl⟩ := Option.map_eq_some_iff.mp altered
        cases plain.of_lookup found with
        | table plainInner => exact plain.replace (.table (ih plainInner alteredInner)) key
    · next newest earlier found =>
      obtain ⟨newestAfter, alteredNewest, rfl⟩ := Option.map_eq_some_iff.mp altered
      cases plain.of_lookup found with
      | tables plainAll =>
        have plainNewest := ih (plainAll newest List.mem_cons_self) alteredNewest
        refine plain.replace (.tables fun entries listed => ?_) key
        rcases List.mem_cons.mp listed with rfl | before
        · exact plainNewest
        · exact plainAll entries (List.mem_cons_of_mem _ before)
    · cases altered

theorem plainEntries_of_addEntry {path : KeyPath} (plain : PlainEntries entries)
    (new : node.Plain) (added : addEntry entries path node = some after) : PlainEntries after := by
  refine plainEntries_of_alter plain (fun origin inner after plainInner changed => ?_) added
  split at changed
  · cases changed
  · unfold addNew at changed
    split at changed
    · cases changed
      exact plainInner.snoc new path.last
    · cases changed

/-! ### Scans -/

/-- Whatever a scan reads has a property. -/
def Yields {α : Type} (scan : Scan α) (P : α → Prop) : Prop :=
  ∀ input item rest, scan input = some (item, rest) → P item

section Scans

variable {α : Type} {P : α → Prop} {scan : Scan α}

theorem Yields.many (yields : Yields scan P) (text : List Char) :
    ∀ item ∈ (Toml.many scan text).1, P item := by
  have within : ∀ limit text, ∀ item ∈ (manyWithin scan limit text).1, P item := by
    intro limit
    induction limit with
    | nil => exact fun text item listed => nomatch listed
    | cons _ limit ih =>
      intro text item listed
      unfold manyWithin at listed
      cases read : scan text with
      | none => simp [read] at listed
      | some result =>
        obtain ⟨first, rest⟩ := result
        simp only [read] at listed
        rcases List.mem_cons.mp listed with rfl | later
        · exact yields text item rest read
        · exact ih rest item later
  exact within text text

theorem Yields.listed (yields : Yields scan P) :
    Yields (listed scan) fun items => ∀ item ∈ items, P item := by
  intro input items rest read
  unfold Toml.listed at read
  split at read
  · cases read
    exact nofun
  · simp only [Option.bind_eq_bind, Option.bind_eq_some_iff] at read
    obtain ⟨⟨first, afterFirst⟩, readFirst, read⟩ := read
    obtain ⟨_, _, read⟩ := read
    cases read
    have further : Yields (fun input => do
        let rest ← literally [','] (skipFiller input)
        scan (skipFiller rest)) P := by
      intro input item rest read
      obtain ⟨_, _, read⟩ := Option.bind_eq_some_iff.mp read
      exact yields _ item rest read
    intro item listed
    rcases List.mem_cons.mp listed with rfl | later
    · exact yields _ item _ readFirst
    · exact further.many _ item later

end Scans

theorem yields_assignment {scan : Scan Node} {P : Node → Prop} (yields : Yields scan P) :
    Yields (assignment scan) fun pair => P pair.2 := by
  intro input pair rest read
  unfold assignment at read
  simp only [Option.bind_eq_bind, Option.bind_eq_some_iff] at read
  obtain ⟨_, _, _, _, ⟨node, _⟩, readNode, same⟩ := read
  cases same
  exact yields _ node _ readNode

theorem yields_assignments {scan : Scan Node} {P : Node → Prop} (yields : Yields scan P) :
    Yields (assignments scan) fun pairs => ∀ pair ∈ pairs, P pair.2 := by
  intro input pairs rest read
  unfold assignments at read
  split at read
  · cases read
    exact nofun
  · simp only [Option.bind_eq_bind, Option.bind_eq_some_iff] at read
    obtain ⟨⟨first, afterFirst⟩, readFirst, read⟩ := read
    obtain ⟨_, _, read⟩ := read
    cases read
    have further : Yields (fun input => do
        let rest ← literally [','] (skipBlanks input)
        assignment scan rest) fun pair => P pair.2 := by
      intro input pair rest read
      obtain ⟨_, _, read⟩ := Option.bind_eq_some_iff.mp read
      exact yields_assignment yields _ pair rest read
    intro pair listed
    rcases List.mem_cons.mp listed with rfl | later
    · exact yields_assignment yields _ pair _ readFirst
    · exact further.many _ pair later

/-! ### Values -/

theorem isLeaf_of_integer? {i : Int} {value : Value} (is : integer? i = some value) :
    value.IsLeaf := by
  obtain ⟨_, -, rfl⟩ := Option.map_eq_some_iff.mp is
  exact nofun

theorem isLeaf_of_float? {x : Decimal.Scientific} {value : Value} (is : float? x = some value) :
    value.IsLeaf := by
  simp only [float?] at is
  split at is
  · cases is
  · cases is
    exact nofun

theorem yields_inBase (base : Nat) : Yields (inBase base) Value.IsLeaf := by
  intro input value rest read
  unfold inBase at read
  simp only [Option.bind_eq_bind, Option.bind_eq_some_iff] at read
  obtain ⟨_, _, value, is, same⟩ := read
  cases same
  exact isLeaf_of_integer? is

theorem yields_number : Yields number Value.IsLeaf := by
  intro input value rest read
  unfold number at read
  rcases Option.or_eq_some_iff.mp read with based | ⟨-, read⟩
  · unfold basedInteger at based
    split at based
    · exact yields_inBase 16 _ value rest based
    · exact yields_inBase 8 _ value rest based
    · exact yields_inBase 2 _ value rest based
    · cases based
  rcases Option.or_eq_some_iff.mp read with special | ⟨-, read⟩
  · simp only [specialFloat] at special
    split at special
    · cases special
      exact nofun
    · cases special
      exact nofun
    · cases special
  · unfold decimalNumber at read
    simp only [Option.bind_eq_bind, Option.bind_eq_some_iff] at read
    obtain ⟨_, _, read⟩ := read
    split at read
    · obtain ⟨value, is, same⟩ := Option.bind_eq_some_iff.mp read
      cases same
      exact isLeaf_of_float? is
    · obtain ⟨value, is, same⟩ := Option.bind_eq_some_iff.mp read
      cases same
      exact isLeaf_of_float? is
    · obtain ⟨value, is, same⟩ := Option.bind_eq_some_iff.mp read
      cases same
      exact isLeaf_of_integer? is

theorem yields_plainScalar : Yields plainScalar Value.IsLeaf := by
  intro input value rest read
  unfold plainScalar at read
  split at read
  · cases read
    exact nofun
  · cases read
    exact nofun
  · split at read
    · cases read
      exact nofun
    · exact yields_number _ value rest read

/-- The entries of an inline table are put together from plain values. -/
theorem plainEntries_of_inlineEntries? {pairs : List (KeyPath × Node)} {entries : Entries}
    (plain : ∀ pair ∈ pairs, pair.2.Plain) (put : inlineEntries? pairs = some entries) :
    PlainEntries entries := by
  unfold inlineEntries? at put
  have plainBefore := plainEntries_nil
  generalize ([] : Entries) = before at put plainBefore
  induction pairs generalizing before with
  | nil =>
    cases put
    exact plainBefore
  | cons first rest ih =>
    rw [List.foldlM_cons] at put
    obtain ⟨between, added, put⟩ := Option.bind_eq_some_iff.mp put
    refine ih (fun pair inRest => plain pair (List.mem_cons_of_mem _ inRest)) between put ?_
    exact plainEntries_of_addEntry plainBefore (plain first List.mem_cons_self) added

/-- **Values are read as plain trees**, at every depth. -/
theorem plain_of_value (depth : Nat) : Yields (value depth) Node.Plain := by
  induction depth using Nat.strong_induction_on with
  | _ depth ih =>
    intro input node rest read
    unfold value at read
    split at read
    · split at read
      · cases read
      · next depth =>
        obtain ⟨⟨items, _⟩, readItems, same⟩ := Option.map_eq_some_iff.mp read
        cases same
        exact .array ((ih depth (Nat.lt_succ_self depth)).listed _ items _ readItems)
    · split at read
      · cases read
      · next depth =>
        simp only [Option.bind_eq_bind, Option.bind_eq_some_iff] at read
        obtain ⟨⟨pairs, _⟩, readPairs, entries, put, same⟩ := read
        cases same
        have plain := yields_assignments (ih depth (Nat.lt_succ_self depth)) _ pairs _ readPairs
        exact .inline (plainEntries_of_inlineEntries? plain put)
    · obtain ⟨_, _, same⟩ := Option.map_eq_some_iff.mp read
      cases same
      exact .leaf (Value.isLeaf_string _)
    · obtain ⟨_, _, same⟩ := Option.map_eq_some_iff.mp read
      cases same
      exact .leaf (Value.isLeaf_string _)
    · obtain ⟨⟨scalar, _⟩, readScalar, same⟩ := Option.map_eq_some_iff.mp read
      cases same
      exact .leaf (yields_plainScalar _ scalar _ readScalar)

/-! ### Documents -/

/-- A line adds a plain tree, if it adds one. -/
def Line.Plain : Line → Prop
  | .entry _ node => node.Plain
  | _ => True

theorem yields_line : Yields line Line.Plain := by
  intro input content rest read
  unfold line at read
  simp only [Option.bind_eq_bind, Option.bind_eq_some_iff] at read
  obtain ⟨⟨content, _⟩, readContent, _, _, same⟩ := read
  cases same
  unfold lineContent at readContent
  split at readContent
  · obtain ⟨_, _, same⟩ := Option.map_eq_some_iff.mp readContent
    cases same
    exact trivial
  · obtain ⟨_, _, same⟩ := Option.map_eq_some_iff.mp readContent
    cases same
    exact trivial
  · obtain ⟨⟨⟨path, node⟩, _⟩, readEntry, same⟩ := Option.map_eq_some_iff.mp readContent
    cases same
    exact yields_assignment (plain_of_value maxDepth) _ (path, node) _ readEntry

/-- A document is plain, in the tables that are finished and in the current one. -/
structure Document.Plain (d : Document) : Prop where
  root : PlainEntries d.root
  current : PlainEntries d.current

namespace Document

variable {d next : Document} {root entries : Entries} {path : KeyPath}

theorem Plain.finish (plain : d.Plain) (finished : d.finish = some entries) :
    PlainEntries entries := by
  unfold Document.finish at finished
  split at finished
  · cases finished
    exact plain.current
  · next path isElement header =>
    clear header
    refine plainEntries_of_alter plain.root ?_ finished
    intro origin inner after plainInner placed
    split at placed
    · cases placed
      refine plainInner.snoc (.tables fun entries listed => ?_) path.last
      obtain rfl := List.mem_singleton.mp listed
      exact plain.current
    · next earlier found =>
      cases placed
      cases plainInner.of_lookup found with
      | tables plainEarlier =>
        refine plainInner.replace (.tables fun entries listed => ?_) path.last
        rcases List.mem_cons.mp listed with rfl | before
        · exact plain.current
        · exact plainEarlier entries before
    · cases placed
    · cases placed
      exact plainInner.snoc (.table plain.current) path.last
    · cases placed
    · cases placed
      exact plainInner.replace (.table plain.current) path.last
    · cases placed

theorem plainEntries_of_tableAt? {path : List String} (plain : PlainEntries root)
    (found : tableAt? path root = some entries) : PlainEntries entries := by
  induction path generalizing root with
  | nil =>
    cases found
    exact plain
  | cons key rest ih =>
    unfold tableAt? at found
    split at found
    · next inner listed =>
      cases plain.of_lookup listed with
      | table plainInner => exact ih plainInner found
    · next newest earlier listed =>
      cases plain.of_lookup listed with
      | tables plainAll => exact ih (plainAll newest List.mem_cons_self) found
    · cases found

theorem plain_of_beginTable (plain : PlainEntries root)
    (begun : beginTable root path = some next) : next.Plain := by
  unfold beginTable at begun
  dsimp only at begun
  split at begun
  · obtain ⟨rootAfter, altered, same⟩ := Option.bind_eq_some_iff.mp begun
    cases same
    refine ⟨plainEntries_of_alter plain (fun origin inner after plainInner same => ?_) altered,
      plainEntries_nil⟩
    cases same
    exact plainInner
  · next inner existing =>
    obtain ⟨rootAfter, altered, same⟩ := Option.bind_eq_some_iff.mp begun
    cases same
    constructor
    · refine plainEntries_of_alter plain (fun origin inner after plainInner same => ?_) altered
      cases same
      exact plainInner.filter _
    · obtain ⟨parent, found, listed⟩ := Option.bind_eq_some_iff.mp existing
      cases (plainEntries_of_tableAt? plain found).of_lookup listed with
      | table plainInner => exact plainInner
  · cases begun

theorem plain_of_beginElement (plain : PlainEntries root)
    (begun : beginElement root path = some next) : next.Plain := by
  unfold beginElement at begun
  obtain ⟨rootAfter, altered, same⟩ := Option.bind_eq_some_iff.mp begun
  cases same
  refine ⟨plainEntries_of_alter plain (fun origin inner after plainInner opened => ?_) altered,
    plainEntries_nil⟩
  split at opened
  · cases opened
    have noElements : (Node.tables []).Plain := .tables (by simp)
    exact plainInner.snoc noElements path.last
  · cases opened
    exact plainInner
  · cases opened

/-- **Every line keeps a document plain.** -/
theorem Plain.add (plain : d.Plain) {content : Line} (plainLine : content.Plain)
    (added : d.add content = some next) : next.Plain := by
  cases content with
  | entry path node =>
    obtain ⟨current, put, rfl⟩ := Option.map_eq_some_iff.mp added
    exact ⟨plain.root, plainEntries_of_addEntry plain.current plainLine put⟩
  | table path =>
    obtain ⟨root, finished, begun⟩ := Option.bind_eq_some_iff.mp added
    exact plain_of_beginTable (plain.finish finished) begun
  | element path =>
    obtain ⟨root, finished, begun⟩ := Option.bind_eq_some_iff.mp added
    exact plain_of_beginElement (plain.finish finished) begun

/-- Lines in order, by induction. -/
theorem Plain.addAll {lines : List Line} (plain : d.Plain)
    (plainLines : ∀ content ∈ lines, content.Plain)
    (added : lines.foldlM Document.add d = some next) : next.Plain := by
  induction lines generalizing d with
  | nil =>
    cases added
    exact plain
  | cons content rest ih =>
    rw [List.foldlM_cons] at added
    obtain ⟨between, first, added⟩ := Option.bind_eq_some_iff.mp added
    refine ih (plain.add (plainLines content List.mem_cons_self) first) ?_ added
    exact fun content inRest => plainLines content (List.mem_cons_of_mem _ inRest)

end Document

/-! ### Tables -/

mutual

/-- The value of a plain tree is ordered. -/
theorem Node.ordered_of_value? :
    ∀ {node : Node} {value : Value}, node.Plain → node.value? = some value → value.Ordered
  | .leaf _, _, plain, is => by
    cases plain with
    | leaf isLeaf =>
      cases is
      exact .leaf isLeaf
  | .array _, _, _, is => by
    obtain ⟨_, _, rfl⟩ := Option.map_eq_some_iff.mp is
    exact .leaf nofun
  | .inline entries, _, plain, is => by
    cases plain with
    | inline all => exact Node.ordered_of_tableValue? all is
  | .table _ entries, _, plain, is => by
    cases plain with
    | table all => exact Node.ordered_of_tableValue? all is
  | .tables _, _, _, is => by
    obtain ⟨_, _, rfl⟩ := Option.map_eq_some_iff.mp is
    exact .leaf nofun

theorem Node.ordered_of_tableValue? :
    ∀ {entries : Entries} {value : Value}, PlainEntries entries →
      Node.tableValue? entries = some value → value.Ordered
  | [], _, _, is => by
    cases is
    exact Dictionary.ordered_empty
  | (key, node) :: rest, _, plain, is => by
    unfold Node.tableValue? at is
    split at is
    · unfold Node.datetime? at is
      split at is
      · obtain ⟨_, _, rfl⟩ := Option.map_eq_some_iff.mp is
        exact .leaf nofun
      · cases is
    · split at is
      · next value values first others =>
        cases is
        refine Dictionary.ordered_ofList fun entry listed => ?_
        rcases List.mem_cons.mp listed with rfl | later
        · exact Node.ordered_of_value? (plain key node List.mem_cons_self) first
        · exact Node.ordered_of_entryValues? plain.of_cons others entry later
      · cases is

theorem Node.ordered_of_entryValues? :
    ∀ {entries : Entries} {values : List (String × Value)}, PlainEntries entries →
      Node.entryValues? entries = some values → ∀ entry ∈ values, entry.2.Ordered
  | [], _, _, is => by
    cases is
    exact nofun
  | (key, node) :: rest, _, plain, is => by
    unfold Node.entryValues? at is
    split at is
    · next value values first others =>
      cases is
      intro entry listed
      rcases List.mem_cons.mp listed with rfl | later
      · exact Node.ordered_of_value? (plain key node List.mem_cons_self) first
      · exact Node.ordered_of_entryValues? plain.of_cons others entry later
    · cases is

end

/-- **The table of a text is ordered.** -/
theorem ordered_of_read? {text : String} {t : Table} (read : read? text = some t) :
    (Value.table t).Ordered := by
  unfold read? at read
  simp only [Option.bind_eq_bind, Option.bind_eq_some_iff] at read
  obtain ⟨lines, readLines, d, added, entries, finished, values, are, same⟩ := read
  cases same
  have plainLines : ∀ content ∈ lines, content.Plain := by
    unfold lines? at readLines
    dsimp only at readLines
    split at readLines
    · cases readLines
      exact yields_line.many _
    · cases readLines
  have start : Document.empty.Plain := ⟨plainEntries_nil, plainEntries_nil⟩
  have plain := (start.addAll plainLines added).finish finished
  exact Dictionary.ordered_ofList (Node.ordered_of_entryValues? plain are)

end ConfigBinding.Toml
