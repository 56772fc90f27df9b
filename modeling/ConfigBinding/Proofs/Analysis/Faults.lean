import ConfigBinding.Proofs.Analysis.Course
import ConfigBinding.Proofs.Template.Arguments
import Mathlib.Data.List.Chain

/-!
# The faults that a walk reports

An error of the analysis is a truth about the schema.  The error is followed from the interface that
was checked to the method at fault, and what it says of that method holds of the declaration, or of
the way to it.

## Main Definitions

* `BindError.innermost` — an error without the layers for the interfaces on the way to it
* `BindFault.OfDeclaration` — the faults that concern a method alone
* `Schema.Nested` — interfaces that nest in one another, innermost first
* `Schema.Blames` — an error holds of an interface, given the interfaces around it

## Main Statements

* `Schema.Walks.blames` — every error of a walk holds
* `Schema.Blames.not_admissible` — a schema of which an error holds is not admissible
* `Schema.Blames.exists_circle` — a circle that is reported is one of nested interfaces
-/

namespace ConfigBinding

/-- An error without the layers that only lead to it: the error in binding the innermost of the
interfaces that return one another. -/
def BindError.innermost : BindError → BindError
  | .method _ _ (.nested e) => e.innermost
  | e => e

/-- The faults that concern the declaration of one method, without regard to other methods and to
what the method returns. -/
def BindFault.OfDeclaration : BindFault → Prop
  | .emptyPropertyName | .missingNameTemplate | .templateArgumentOutOfRange _ _ _
  | .malformedTemplate _ | .parameterizedInterface => True
  | .duplicateMethod | .cyclicInterface _ | .nested _ => False

theorem BindError.innermost_ofDeclaration {interfaceName methodName : String} {fault : BindFault}
    (local_ : fault.OfDeclaration) :
    (BindError.method interfaceName methodName fault).innermost =
      .method interfaceName methodName fault := by
  cases fault <;> first | rfl | cases local_

/-- A template that does not suit its method is a fault of the declaration. -/
theorem Template.check_ofDeclaration {template : String} {params : Nat} {fault : BindFault}
    (refused : check template params = .error fault) : fault.OfDeclaration := by
  obtain ⟨part, -, found⟩ := List.exists_of_findSome?_eq_some (check_eq_error_iff.mp refused)
  rcases Placeholder.Piece.fault?_eq_some_iff.mp found with ⟨name, -, outOfRange⟩ | ⟨-, rfl⟩
  · obtain ⟨index, -, -, rfl⟩ := parameter_eq_error_iff.mp outOfRange
    trivial
  · trivial

/-- Classification finds faults of the declaration only. -/
theorem Method.classify_ofDeclaration {n : Nat} {method : Method n} {immutable : Bool}
    {fault : BindFault} (refused : method.classify immutable = .error fault) :
    fault.OfDeclaration := by
  have plain {strategy : Strategy} (refused : method.classifyPlain strategy = .error fault) :
      fault.OfDeclaration := by
    unfold classifyPlain at refused
    by_cases unnamed : method.ownName = ""
    · rw [key_of_ownName_eq unnamed] at refused
      cases refused; trivial
    · rw [key_of_ownName_ne unnamed] at refused
      cases refused
  unfold classify at refused
  split at refused
  · split at refused
    · exact plain refused
    · split at refused
      · cases refused; trivial
      · exact Template.check_ofDeclaration (Placeholder.map_eq_error_iff.mp refused)
  · split at refused
    · exact plain refused
    · cases refused; trivial
  · split at refused
    · exact plain refused
    · cases refused; trivial

namespace Schema

variable (s : Schema)

/-- Interfaces that nest in one another, the innermost first. -/
def Nested : List (Fin s.size) → Prop :=
  List.IsChain fun inner outer => s.Nests outer inner

/-- **An error holds of an interface**, around which the interfaces of `outer` nest in one another,
the innermost first.  For a nested interface there is one more interface around it; around the value
interface of a map there is none. -/
inductive Blames : List (Fin s.size) → Fin s.size → BindError → Prop
  | duplicate {outer i method before rest}
      (declared : (s.interface i).methods = before ++ method :: rest)
      (known : method.name ∈ before.map (·.name)) :
      Blames outer i (.method (s.name i) method.name .duplicateMethod)
  | malformed {outer i method fault} (declared : method ∈ (s.interface i).methods)
      (refused : method.classify false = .error fault) :
      Blames outer i (.method (s.name i) method.name fault)
  | cyclic {outer i method child} {w : Walk s.size} (declared : method ∈ (s.interface i).methods)
      (returns : method.returns = .interface child) (path : w.path = i :: outer)
      (onPath : child ∈ w.path) :
      Blames outer i
        (.method (s.name i) method.name (.cyclicInterface ((w.cycle child).map s.name)))
  | nested {outer i method child e} (declared : method ∈ (s.interface i).methods)
      (returns : method.returns = .interface child) (inner : Blames (i :: outer) child e) :
      Blames outer i (.method (s.name i) method.name (.nested e))
  | mapped {outer i method child e} (declared : method ∈ (s.interface i).methods)
      (returns : method.returns = .map child) (inner : Blames [] child e) :
      Blames outer i (.method (s.name i) method.name (.nested e))

/-- An error holds of what a task is about.  For the methods of an interface that means: given the
interfaces on the path, and the names of the methods before. -/
def BlamesIn (w : Walk s.size) (e : BindError) : Task s.size → Prop
  | .interface i => s.Blames w.path i e
  | .method i earlier method => ∀ outer before rest, w.path = i :: outer →
      (s.interface i).methods = before ++ method :: rest →
      earlier = (before.map (·.name)).reverse → s.Blames outer i e
  | .methods i earlier rest => ∀ outer before, w.path = i :: outer →
      (s.interface i).methods = before ++ rest →
      earlier = (before.map (·.name)).reverse → s.Blames outer i e

variable {s}

theorem outcomeUnder_eq_error {i : Fin s.size} {method : Method s.size}
    {result : Except BindError Unit} {e : BindError}
    (failed : s.outcomeUnder i method result = .error e) :
    ∃ inner, result = .error inner ∧ e = .method (s.name i) method.name (.nested inner) := by
  cases result with
  | ok => simp [outcomeUnder] at failed
  | error inner => exact ⟨inner, rfl, by simpa [outcomeUnder] using failed.symm⟩

/-- **Every error of a walk holds** of what was walked. -/
theorem Walks.blames {task : Task s.size} {w after : Walk s.size}
    {result : Except BindError Unit} (walk : s.Walks task w result after) {e : BindError}
    (failed : result = .error e) : s.BlamesIn w e task := by
  induction walk generalizing e with
  | interface _ _ => cases failed
  | @interfaceFailed i w e' after _ ih =>
    exact ih failed w.path [] rfl rfl rfl
  | nil => cases failed
  | @cons i earlier method rest w between result after first _ _ ihOthers =>
    intro outer before path declared names
    -- the method joins those before it, whose names are kept last one first
    refine ihOthers failed outer (before ++ [method]) (first.restores.path.trans path) ?_ ?_
    · simpa using declared
    · simp [names]
  | @consFailed i earlier method rest w e' after _ ih =>
    intro outer before path declared names
    exact ih failed outer before rest path declared names
  | @duplicate i earlier method w known =>
    intro outer before rest _ declared names
    cases failed
    exact .duplicate declared (by simpa [names] using known)
  | @malformed i earlier method w fault _ refused =>
    intro outer before rest _ declared _
    cases failed
    exact .malformed (by simp [declared]) refused
  | @cyclic i earlier method w child _ _ returns onPath =>
    intro outer before rest path declared _
    cases failed
    exact .cyclic (by simp [declared]) returns path onPath
  | passed _ _ _ => cases failed
  | @nested i earlier method w child result after _ _ returns _ _ _ ih =>
    intro outer before rest path declared _
    obtain ⟨inner, innerFailed, rfl⟩ := outcomeUnder_eq_error failed
    have blamed : s.Blames w.path child inner := ih innerFailed
    exact .nested (by simp [declared]) returns (path ▸ blamed)
  | @mapped i earlier method w child result after _ _ returns _ _ _ ih =>
    intro outer before rest _ declared _
    obtain ⟨inner, innerFailed, rfl⟩ := outcomeUnder_eq_error failed
    exact .mapped (by simp [declared]) returns (ih innerFailed)

/-! ### What an error means for the schema -/

/-- The innermost of nested interfaces is reached from each of them. -/
theorem Nested.reaches {outer : List (Fin s.size)} {i j : Fin s.size}
    (nested : s.Nested (i :: outer)) (around : j ∈ i :: outer) :
    Relation.ReflTransGen s.Nests j i := by
  induction outer generalizing i with
  | nil =>
    rw [List.mem_singleton.mp around]
  | cons next outer ih =>
    rcases List.mem_cons.mp around with rfl | further
    · exact .refl
    · have step : s.Nests next i := (List.isChain_cons_cons.mp nested).1
      exact (ih (List.isChain_cons_cons.mp nested).2 further).tail step

/-- An interface that returns one of those around it nests in itself. -/
theorem Nested.circle {outer : List (Fin s.size)} {i child : Fin s.size}
    (nested : s.Nested (i :: outer)) (around : child ∈ i :: outer) (nests : s.Nests i child) :
    Relation.TransGen s.Nests child child :=
  Relation.TransGen.tail' (nested.reaches around) nests

/-- **A schema of which an error holds is not admissible.** -/
theorem Blames.not_admissible {outer : List (Fin s.size)} {i : Fin s.size} {e : BindError}
    (blamed : s.Blames outer i e) (nested : s.Nested (i :: outer)) : ¬ s.Admissible i := by
  induction blamed with
  | @duplicate outer i method before rest declared known =>
    intro sound
    have distinct := (sound.wellDeclared i .refl).names_nodup
    rw [declared, List.map_append, List.nodup_append] at distinct
    exact distinct.2.2 _ known _ (by simp) rfl
  | malformed declared refused =>
    intro sound
    exact Method.not_wellFormed_of_classify refused
      ((sound.wellDeclared _ .refl).wellFormed _ declared)
  | @cyclic outer i method child w declared returns path onPath =>
    intro sound
    have nests : s.Nests i child := ⟨method, declared, returns⟩
    -- the path is what the interface nests in, so the child is one of the interfaces around it
    exact sound.acyclic child nests.leadsTo (nested.circle (path ▸ onPath) nests)
  | @nested outer i method child e declared returns _ ih =>
    have nests : s.Nests i child := ⟨method, declared, returns⟩
    intro sound
    exact ih (List.isChain_cons_cons.mpr ⟨nests, nested⟩) (sound.of_leadsTo nests.leadsTo)
  | @mapped outer i method child e declared returns _ ih =>
    intro sound
    have maps : s.Maps i child := ⟨method, declared, returns⟩
    exact ih (List.isChain_singleton _) (sound.of_leadsTo maps.leadsTo)

/-- **A circle that is reported is one of nested interfaces**: no circle through a map is taken for
a fault, and the circle is among the interfaces that were checked. -/
theorem Blames.exists_circle {outer : List (Fin s.size)} {i : Fin s.size} {e : BindError}
    (blamed : s.Blames outer i e) (nested : s.Nested (i :: outer))
    {interfaceName methodName : String} {names : List String}
    (circle : e.innermost = .method interfaceName methodName (.cyclicInterface names)) :
    ∃ j, s.LeadsTo i j ∧ Relation.TransGen s.Nests j j := by
  induction blamed with
  | duplicate _ _ => cases circle
  | malformed declared refused =>
    have local_ := Method.classify_ofDeclaration refused
    rw [BindError.innermost_ofDeclaration local_] at circle
    cases circle
    cases local_
  | @cyclic outer i method child w declared returns path onPath =>
    have nests : s.Nests i child := ⟨method, declared, returns⟩
    exact ⟨child, nests.leadsTo, nested.circle (path ▸ onPath) nests⟩
  | @nested outer i method child e declared returns _ ih =>
    have nests : s.Nests i child := ⟨method, declared, returns⟩
    obtain ⟨j, leads, loop⟩ := ih (List.isChain_cons_cons.mpr ⟨nests, nested⟩) circle
    exact ⟨j, nests.leadsTo.trans leads, loop⟩
  | @mapped outer i method child e declared returns _ ih =>
    have maps : s.Maps i child := ⟨method, declared, returns⟩
    obtain ⟨j, leads, loop⟩ := ih (List.isChain_singleton _) circle
    exact ⟨j, maps.leadsTo.trans leads, loop⟩

/-- No error that holds of an interface is about the depth of a walk. -/
theorem Blames.innermost_ne_tooDeep {outer : List (Fin s.size)} {i : Fin s.size} {e : BindError}
    (blamed : s.Blames outer i e) (interfaceName : String) :
    e.innermost ≠ .tooDeep interfaceName := by
  induction blamed with
  | duplicate _ _ => intro same; cases same
  | malformed _ refused =>
    rw [BindError.innermost_ofDeclaration (Method.classify_ofDeclaration refused)]
    intro same; cases same
  | cyclic _ _ _ _ => intro same; cases same
  | nested _ _ _ ih => exact ih
  | mapped _ _ _ ih => exact ih

end Schema

end ConfigBinding
