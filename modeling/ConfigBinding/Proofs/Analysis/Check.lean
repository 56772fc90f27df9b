import ConfigBinding.Proofs.Analysis.Depth
import ConfigBinding.Proofs.Analysis.Faults

/-!
# What a check decides

The analysis of a schema accepts an interface exactly if the schema is admissible for it.  So a
circle of nested interfaces is found wherever it lies, also behind maps, and a circle through a map
is not taken for one.

## Main Statements

* `Schema.check_accepts_iff` — acceptance, and what a reported circle is
* `Schema.admissible_of_check`, `Schema.check_of_admissible` — the two directions
* `Schema.blames_of_check` — an error of a check holds of the interface
-/

namespace ConfigBinding.Schema

variable {s : Schema} {root : Fin s.size}

/-- What is finished when nothing is open is closed under references. -/
theorem Trusted.finished_of_leadsTo {w : Walk s.size} (trusted : s.Trusted w)
    (closed : w.opened = []) {i j : Fin s.size} (finished : i ∈ w.finished)
    (leads : s.LeadsTo i j) : j ∈ w.finished := by
  induction leads with
  | refl => exact finished
  | tail _ refers ih =>
    rcases refers with nests | maps
    · exact trusted.nested _ ih _ nests
    · have known := trusted.mapped _ ih _ maps
      simpa [closed] using known

/-- An interface in which interfaces nest only finitely deep does not nest in itself. -/
theorem not_circle_of_acc {i : Fin s.size}
    (grounded : Acc (fun inner outer => s.Nests outer inner) i) :
    ¬ Relation.TransGen s.Nests i i := by
  have descends : Acc (Relation.TransGen (Function.swap s.Nests)) i := grounded.transGen
  clear grounded
  induction descends with
  | intro i _ ih =>
    intro circle
    exact ih i (Relation.transGen_swap.mpr circle) circle

/-- **Whatever an accepted interface leads to is sound.** -/
theorem admissible_of_check (accepted : s.check root = .ok ()) : s.Admissible root := by
  have walk := check_walks s root
  obtain ⟨trusted, finished⟩ := walk.accomplishes accepted trusted_start
  have closed := walk.restores.opened
  exact {
    wellDeclared := fun i leads =>
      trusted.wellDeclared i (trusted.finished_of_leadsTo closed finished leads)
    acyclic := fun i leads =>
      not_circle_of_acc (trusted.grounded i (trusted.finished_of_leadsTo closed finished leads)) }

/-- An error of a check holds of the interface. -/
theorem blames_of_check {e : BindError} (refused : s.check root = .error e) :
    s.Blames [] root e :=
  (check_walks s root).blames refused

/-- **An interface is accepted if whatever it leads to is sound.** -/
theorem check_of_admissible (sound : s.Admissible root) : s.check root = .ok () := by
  cases refused : s.check root with
  | ok => rfl
  | error e =>
    have blamed := blames_of_check refused
    exact absurd sound (blamed.not_admissible (List.isChain_singleton _))

/-- **The analysis accepts exactly the interfaces that a schema is admissible for.**  And where it
reports a circle, some interface that the checked one leads to nests in itself. -/
theorem check_accepts_iff (s : Schema) (root : Fin s.size) :
    (s.check root = .ok () ↔ s.Admissible root) ∧
      ∀ e interfaceName methodName names, s.check root = .error e →
        e.innermost = .method interfaceName methodName (.cyclicInterface names) →
        ∃ i, s.LeadsTo root i ∧ Relation.TransGen s.Nests i i := by
  refine ⟨⟨admissible_of_check, check_of_admissible⟩, ?_⟩
  intro e interfaceName methodName names refused circle
  exact (blames_of_check refused).exists_circle (List.isChain_singleton _) circle

/-- A root that returns a map of branches, and a branch; every branch returns a root. -/
def rootAndBranch : Schema :=
  .ofVector #v[
    { name := "Root", keyPrefix? := none, immutable := false, sources? := none,
      methods := [⟨"getItems", .map 1, 0, none, none⟩,
        ⟨"getBranch", .interface 1, 0, none, none⟩] },
    { name := "Branch", keyPrefix? := none, immutable := false, sources? := none,
      methods := [⟨"getRoot", .interface 0, 0, none, none⟩] }]

/-- What is found when a root is checked: the circle of a branch, behind the map. -/
def circleBehindMap : BindError :=
  .method "Root" "getItems" (.nested (.method "Branch" "getRoot" (.nested
    (.method "Root" "getBranch" (.cyclicInterface ["Branch", "Root", "Branch"])))))

/-- The circle of root and branch is found behind the map, and is one. -/
theorem rootAndBranch_refused :
    rootAndBranch.check (0 : Fin 2) = .error circleBehindMap ∧
      ∃ i, rootAndBranch.LeadsTo (0 : Fin 2) i ∧ Relation.TransGen rootAndBranch.Nests i i := by
  have refused : rootAndBranch.check (0 : Fin 2) = .error circleBehindMap := rfl
  exact ⟨refused, (check_accepts_iff rootAndBranch (0 : Fin 2)).2 _ _ _ _ refused rfl⟩

end ConfigBinding.Schema
