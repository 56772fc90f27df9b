import ConfigBinding.Source
import ConfigBinding.Proofs.Text.Splitting
import Mathlib.Data.List.Nodup
import Mathlib.Data.List.Perm.Basic
import Mathlib.Data.Prod.Lex
import Mathlib.Data.String.Basic

/-!
# Variables as properties

Which environment variables become properties, at which paths, and that it does not matter in which
order the environment lists them.

## Main Definitions

* `VariableSelection.Covers` — a name goes on after the prefix and a separator
* `VariableSelection.keeping` — the same selection, with the case of the names kept

## Main Statements

* `VariableSelection.intercalate_path` — the path, joined by the separator, is the rest of the name
* `VariableSelection.selected_eq_of_perm` — the order of the environment has no say
* `VariableSelection.entries_as_named` — all of this, about the entries of an environment

## Design Notes

Variables are put in the order of their names.  As the names are distinct, there is only one such
order, and what is merged in it is merged in the same way every time, also where names that differ
in case only lead to one path.
-/

namespace ConfigBinding

/-- A text in lower case. -/
def Text.lowered (text : String) : String :=
  .ofList (Text.lowerCase text.toList)

/-! ### The names of variables -/

/-- An environment that was assigned has one variable of a name. -/
theorem Environment.nodup_ofAssignments (assignments : List (String × String)) :
    ((ofAssignments assignments).map (·.1)).Nodup := by
  induction assignments using List.reverseRecOn with
  | nil => exact List.nodup_nil
  | append_singleton earlier last ih =>
    rw [ofAssignments, List.foldl_append]
    show (((ofAssignments earlier).filter (·.1 != last.1) ++ [last]).map (·.1)).Nodup
    rw [List.map_append, List.map_singleton, ← List.concat_eq_append]
    refine List.Nodup.concat ?_ (ih.sublist (List.filter_sublist.map _))
    simp

namespace VariableSelection

variable (selection : VariableSelection)

/-- **A name is that of a property**: it begins with the prefix and a separator, and goes on. -/
def Covers (name : String) : Prop :=
  ∃ rest, rest ≠ "" ∧ name = selection.namePrefix ++ selection.separator ++ rest

/-- The same selection, with the case of the names kept. -/
def keeping : VariableSelection :=
  { selection with keepCase := true }

variable {selection} {env env' : Environment} {name : String}

theorem toList_separator_ne_nil : selection.separator.toList ≠ [] := by
  simpa using selection.separator_ne

theorem toList_name (rest : String) :
    (selection.namePrefix ++ selection.separator ++ rest).toList =
      selection.opening ++ rest.toList := by
  rw [opening, String.toList_append, String.toList_append]

/-- The variables that are selected are those whose names are covered. -/
theorem selects_iff : selection.selects name = true ↔ selection.Covers name := by
  rw [selects, Bool.and_eq_true, decide_eq_true_iff, List.isPrefixOf_iff_prefix]
  constructor
  · rintro ⟨⟨rest, begins⟩, longer⟩
    refine ⟨.ofList rest, ?_, ?_⟩
    · intro nothing
      obtain rfl : rest = [] := by simpa using nothing
      rw [List.append_nil] at begins
      exact longer.ne (congrArg List.length begins)
    · rw [← String.toList_inj, toList_name, String.toList_ofList, begins]
  · rintro ⟨rest, goesOn, rfl⟩
    rw [toList_name, List.length_append]
    refine ⟨List.prefix_append _ _, Nat.lt_add_of_pos_right (List.length_pos_of_ne_nil ?_)⟩
    simpa using goesOn

/-! ### Paths -/

theorem path_append (rest : String) :
    selection.path (selection.namePrefix ++ selection.separator ++ rest) =
      (Text.splitAtText selection.separator.toList rest.toList).map selection.segment := by
  rw [path, toList_name, List.drop_left]

theorem segment_of_keepCase (keeps : selection.keepCase = true) :
    selection.segment = String.ofList := by
  funext text
  rw [segment, if_pos keeps]

theorem segment_of_not_keepCase (lowers : selection.keepCase = false) :
    selection.segment = Text.lowered ∘ String.ofList := by
  funext text
  rw [segment, lowers, Function.comp_apply, Text.lowered, String.toList_ofList]
  rfl

/-- **The path of a name, joined by the separator and put after the prefix and a separator, is the
name**, if the case is kept. -/
theorem intercalate_path (keeps : selection.keepCase = true) (covers : selection.Covers name) :
    selection.namePrefix ++ selection.separator ++
      selection.separator.intercalate (selection.path name) = name := by
  obtain ⟨rest, -, rfl⟩ := covers
  rw [path_append, segment_of_keepCase keeps, Text.intercalate_map_ofList,
    Text.intercalate_splitAtText toList_separator_ne_nil, String.ofList_toList]

/-- No segment of a path has the separator in it, if the case is kept. -/
theorem not_infix_of_mem_path (keeps : selection.keepCase = true) {segment : String}
    (listed : segment ∈ selection.path name) :
    ¬ selection.separator.toList <:+: segment.toList := by
  rw [path, segment_of_keepCase keeps] at listed
  obtain ⟨piece, cut, rfl⟩ := List.mem_map.mp listed
  rw [String.toList_ofList]
  exact Text.not_infix_of_mem_splitAtText toList_separator_ne_nil cut

/-- Names with one path are the same, if the case is kept. -/
theorem eq_of_path_eq (keeps : selection.keepCase = true) {other : String}
    (covers : selection.Covers name) (covers' : selection.Covers other)
    (same : selection.path name = selection.path other) : name = other := by
  rw [← intercalate_path keeps covers, same, intercalate_path keeps covers']

/-- **If the case is not kept**, the path is what it would be otherwise, with each segment in lower
case. -/
theorem path_of_not_keepCase (lowers : selection.keepCase = false) (name : String) :
    selection.path name = (selection.keeping.path name).map Text.lowered := by
  have keeps : selection.keeping.keepCase = true := rfl
  rw [path, path, segment_of_not_keepCase lowers, segment_of_keepCase keeps, List.map_map]
  rfl

/-! ### Variables in order -/

/-- The variables that are properties, in the order in which they are merged. -/
def selected (selection : VariableSelection) (env : Environment) : List (String × String) :=
  (env.filter (selection.selects ·.1)).mergeSort inOrder

theorem entries_eq_map_selected :
    selection.entries env =
      (selection.selected env).map fun v => ⟨selection.path v.1, .string v.2⟩ :=
  rfl

theorem mem_selected_iff {v : String × String} :
    v ∈ selection.selected env ↔ v ∈ env ∧ selection.Covers v.1 := by
  rw [selected, List.mem_mergeSort, List.mem_filter, selects_iff]

theorem inOrder_iff {a b : String × String} : inOrder a b = true ↔ toLex a ≤ toLex b := by
  rw [inOrder, Bool.or_eq_true, Bool.and_eq_true, decide_eq_true_iff, decide_eq_true_iff,
    beq_iff_eq, Prod.Lex.toLex_le_toLex]

/-- Variables of distinct names are selected in the order of their names. -/
theorem pairwise_selected (distinct : (env.map (·.1)).Nodup) :
    (selection.selected env).Pairwise (·.1 < ·.1) := by
  have sorted : (selection.selected env).Pairwise (inOrder · · = true) := by
    refine List.pairwise_mergeSort (fun a b c => ?_) (fun a b => ?_) _
    · rw [inOrder_iff, inOrder_iff, inOrder_iff]
      exact le_trans
    · rw [Bool.or_eq_true, inOrder_iff, inOrder_iff]
      exact le_total _ _
  have apart : (selection.selected env).Pairwise (·.1 ≠ ·.1) := by
    rw [← List.pairwise_map]
    have among : ((env.filter (selection.selects ·.1)).map (·.1)).Nodup :=
      distinct.sublist (List.filter_sublist.map _)
    exact ((List.mergeSort_perm _ _).map _).nodup_iff.mpr among
  refine sorted.imp₂ (fun a b ordered other => ?_) apart
  rcases Prod.Lex.toLex_le_toLex.mp (inOrder_iff.mp ordered) with before | ⟨same, -⟩
  · exact before
  · exact absurd same other

/-- **The order in which the environment lists its variables has no say.** -/
theorem selected_eq_of_perm (distinct : (env.map (·.1)).Nodup) (shuffled : env.Perm env') :
    selection.selected env' = selection.selected env := by
  have distinct' : (env'.map (·.1)).Nodup := (shuffled.map _).nodup_iff.mp distinct
  have same : (selection.selected env').Perm (selection.selected env) :=
    (List.mergeSort_perm _ _).trans
      ((shuffled.symm.filter _).trans (List.mergeSort_perm _ _).symm)
  refine same.eq_of_pairwise ?_ (pairwise_selected distinct') (pairwise_selected distinct)
  intro a b _ _ before after
  exact absurd after before.asymm

theorem entries_eq_of_perm (distinct : (env.map (·.1)).Nodup) (shuffled : env.Perm env') :
    selection.entries env' = selection.entries env := by
  rw [entries_eq_map_selected, entries_eq_map_selected, selected_eq_of_perm distinct shuffled]

end VariableSelection

/-! ### Stores -/

variable {env env' : Environment}

/-- A store that is made from sources is the same whatever the order of the environment is. -/
theorem Store.addSources_eq_of_perm (distinct : (env.map (·.1)).Nodup) (shuffled : env.Perm env')
    (sources : List Source) (store : Store) :
    store.addSources env' sources = store.addSources env sources := by
  induction sources generalizing store with
  | nil => rfl
  | cons source rest ih =>
    have same : source.entries env' = source.entries env := by
      cases source with
      | environment selection =>
        exact congrArg Except.ok (VariableSelection.entries_eq_of_perm distinct shuffled)
      | toml name text => rfl
      | fixed entries => rfl
    rw [addSources, addSources, same]
    cases source.entries env with
    | error e => rfl
    | ok entries => exact ih (store.merge entries)

namespace VariableSelection

/-- **Variables become properties as they are named.**  There is one entry for each variable whose
name begins with the prefix and a separator and goes on, and no other, in the order of the names.
If the case is kept, the path of an entry, joined by the separator and put after the prefix and a
separator, is the name; no segment has the separator in it, and different variables have different
paths.  Otherwise the path is that one with each segment in lower case.  The order in which the
environment lists its variables has no say in the entries, nor in what is merged from them. -/
theorem entries_as_named (selection : VariableSelection) {env env' : Environment}
    (distinct : (env.map (·.1)).Nodup) (shuffled : env.Perm env') :
    (∃ chosen : List (String × String),
      (∀ v, v ∈ chosen ↔ v ∈ env ∧ selection.Covers v.1) ∧
      chosen.Pairwise (·.1 < ·.1) ∧
      selection.entries env = chosen.map fun v => ⟨selection.path v.1, .string v.2⟩) ∧
    (selection.keepCase = true →
      (∀ name, selection.Covers name →
        selection.namePrefix ++ selection.separator ++
            selection.separator.intercalate (selection.path name) = name ∧
          ∀ segment ∈ selection.path name, ¬ selection.separator.toList <:+: segment.toList) ∧
      ((selection.entries env).map (·.path)).Nodup) ∧
    (selection.keepCase = false → ∀ name,
      selection.path name = (selection.keeping.path name).map Text.lowered) ∧
    selection.entries env' = selection.entries env ∧
    (∀ store : Store,
      store.merge (selection.entries env') = store.merge (selection.entries env)) ∧
    ∀ sources, Store.ofSources env' sources = Store.ofSources env sources := by
  have same : selection.entries env' = selection.entries env := entries_eq_of_perm distinct shuffled
  refine ⟨?_, fun keeps => ⟨fun name covers => ?_, ?_⟩, path_of_not_keepCase, same,
    fun store => congrArg store.merge same, fun sources => ?_⟩
  · exact ⟨selection.selected env, fun _ => mem_selected_iff, pairwise_selected distinct,
      entries_eq_map_selected⟩
  · exact ⟨intercalate_path keeps covers, fun _ => not_infix_of_mem_path keeps⟩
  · rw [entries_eq_map_selected, List.map_map, List.nodup_iff_pairwise_ne, List.pairwise_map]
    refine (pairwise_selected distinct).imp_of_mem ?_
    intro a b listed listed' before samePath
    have sameName := eq_of_path_eq keeps (mem_selected_iff.mp listed).2
      (mem_selected_iff.mp listed').2 samePath
    exact before.ne sameName
  · exact Store.addSources_eq_of_perm distinct shuffled sources .empty

/-- Variables of a server, among others.  Where there are three underscores in a row, the first two
are the separator. -/
def serverVariables : Environment :=
  .ofAssignments [("PATH", "/bin"), ("APP__server___port", "80"), ("APP__", "nothing"),
    ("APP__server___port", "8080"), ("APP__server__host", "alpha")]

/-- The port is at a path of two segments, of which the second one begins with an underscore. -/
theorem server_port_as_named :
    let selection : VariableSelection := ⟨"APP", "__", true, by decide⟩
    selection.entries serverVariables.reverse = selection.entries serverVariables ∧
      selection.path "APP__server___port" = ["server", "_port"] ∧
      "APP" ++ "__" ++ "__".intercalate (selection.path "APP__server___port") =
        "APP__server___port" := by
  intro selection
  obtain ⟨-, named, -, same, -⟩ := entries_as_named selection
    (Environment.nodup_ofAssignments _) serverVariables.reverse_perm.symm
  refine ⟨same, by decide, ((named rfl).1 "APP__server___port" ?_).1⟩
  exact ⟨"server___port", by decide, by decide⟩

end VariableSelection

end ConfigBinding
