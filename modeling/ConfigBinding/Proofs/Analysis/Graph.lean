import ConfigBinding.Analysis
import Mathlib.Logic.Relation

/-!
# The graph of a schema

What makes a schema sound for an interface, said without a walk: which interfaces the methods of an
interface refer to, when a method is well formed, and when everything that an interface leads to is
well declared and free of circles.

## Main Definitions

* `Schema.Nests`, `Schema.Maps` — the two sorts of references between interfaces
* `Schema.LeadsTo` — references in a row, of both sorts
* `Method.WellFormed`, `Interface.WellDeclared` — sound declarations
* `Schema.Admissible` — everything an interface leads to is sound

## Design Notes

`Method.WellFormed` is stated by the cases of the declaration and not through `Method.classify`;
`Method.exists_classify_iff` shows that the two agree, for either value of the flag.  The flag only
chooses between two strategies, so a method that was classified once is sound for every bind.
-/

namespace ConfigBinding

/-! ### Sound declarations -/

namespace Method

variable {n : Nat} {method : Method n}

/-- The name of the property that a method reads, without a prefix. -/
def ownName (method : Method n) : String :=
  Key.propertyName method.name method.propertyName?

/-- The key of a method that has no parameters, under a prefix. -/
def keyUnder (method : Method n) (keyPrefix : String) : String :=
  keyPrefix ++ method.ownName

/-- **A method is well formed**: it takes parameters only if it returns a value, for which it then
has a template that suits their number; and without parameters there is a property name. -/
def WellFormed (method : Method n) : Prop :=
  match method.returns with
  | .value _ =>
    if method.params = 0 then method.ownName ≠ ""
    else ∃ template, method.propertyName? = some template ∧
      Template.check template method.params = .ok ()
  | .interface _ | .map _ => method.params = 0 ∧ method.ownName ≠ ""

/-- A method with a property name has a key under every prefix. -/
theorem key_of_ownName_ne (named : method.ownName ≠ "") (keyPrefix : String) :
    method.key keyPrefix = .ok (method.keyUnder keyPrefix) := by
  unfold key Key.derive
  exact if_neg named

/-- Without a property name there is no key, whatever the prefix. -/
theorem key_of_ownName_eq (unnamed : method.ownName = "") (keyPrefix : String) :
    method.key keyPrefix = .error .emptyPropertyName := by
  unfold key Key.derive
  exact if_pos unnamed

theorem exists_classifyPlain_iff {strategy : Strategy} :
    (∃ chosen, method.classifyPlain strategy = .ok chosen) ↔ method.ownName ≠ "" := by
  unfold classifyPlain
  by_cases unnamed : method.ownName = ""
  · simp [key_of_ownName_eq unnamed, unnamed, Except.map]
  · simp [key_of_ownName_ne unnamed, unnamed, Except.map]

/-- **Classification accepts the well-formed methods**, whichever values are kept. -/
theorem exists_classify_iff (immutable : Bool) :
    (∃ strategy, method.classify immutable = .ok strategy) ↔ method.WellFormed := by
  unfold classify WellFormed
  cases method.returns with
  | value kind =>
    by_cases plain : method.params = 0
    · simp only [if_pos plain]
      exact exists_classifyPlain_iff
    · simp only [if_neg plain]
      cases method.propertyName? with
      | none => simp
      | some template => cases h : Template.check template method.params <;> simp [h, Except.map]
  | interface child =>
    by_cases plain : method.params = 0
    · simpa [plain] using exists_classifyPlain_iff
    · simp [plain]
  | map child =>
    by_cases plain : method.params = 0
    · simpa [plain] using exists_classifyPlain_iff
    · simp [plain]

/-- A method that classification refuses is not well formed. -/
theorem not_wellFormed_of_classify {immutable : Bool} {fault : BindFault}
    (refused : method.classify immutable = .error fault) : ¬ method.WellFormed := by
  rw [← exists_classify_iff immutable, refused]
  simp

end Method

/-- An interface is well declared: no two methods share a name, and every method is well formed. -/
structure Interface.WellDeclared {n : Nat} (declared : Interface n) : Prop where
  names_nodup : (declared.methods.map (·.name)).Nodup
  wellFormed : ∀ method ∈ declared.methods, method.WellFormed

/-! ### References between interfaces -/

namespace Schema

variable (s : Schema)

/-- A method of `i` returns the interface `j`, which is bound together with `i`. -/
def Nests (i j : Fin s.size) : Prop :=
  ∃ method ∈ (s.interface i).methods, method.returns = .interface j

/-- A method of `i` returns a map of the interface `j`, which is bound on demand. -/
def Maps (i j : Fin s.size) : Prop :=
  ∃ method ∈ (s.interface i).methods, method.returns = .map j

/-- A method of `i` refers to `j` in either way. -/
def Refers (i j : Fin s.size) : Prop :=
  s.Nests i j ∨ s.Maps i j

/-- References in a row lead from `i` to `j`. -/
def LeadsTo : Fin s.size → Fin s.size → Prop :=
  Relation.ReflTransGen s.Refers

/-- **A schema is admissible for an interface**: whatever the interface leads to is well declared,
and does not nest in itself.  A circle through a map is no obstacle. -/
structure Admissible (root : Fin s.size) : Prop where
  wellDeclared : ∀ i, s.LeadsTo root i → (s.interface i).WellDeclared
  acyclic : ∀ i, s.LeadsTo root i → ¬ Relation.TransGen s.Nests i i

variable {s} {root i j : Fin s.size}

theorem Nests.leadsTo (nests : s.Nests i j) : s.LeadsTo i j :=
  Relation.ReflTransGen.single (.inl nests)

theorem Maps.leadsTo (maps : s.Maps i j) : s.LeadsTo i j :=
  Relation.ReflTransGen.single (.inr maps)

/-- What a sound interface leads to is sound as well. -/
theorem Admissible.of_leadsTo (sound : s.Admissible root) (leads : s.LeadsTo root i) :
    s.Admissible i where
  wellDeclared _ further := sound.wellDeclared _ (Relation.ReflTransGen.trans leads further)
  acyclic _ further := sound.acyclic _ (Relation.ReflTransGen.trans leads further)

end Schema

end ConfigBinding
