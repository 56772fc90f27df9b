import ConfigBinding.Bind
import ConfigBinding.Proofs.Analysis.Check

/-!
# Building proxies

What building a proxy comes to when the interface was checked before.  The methods are classified
and their keys derived once more, now with the prefix and the flag of the bind; nothing that was
sound before can be at fault then.

## Main Definitions

* `Application.Binds` — the ways in which binding a well-formed method can go
* `Application.BindsAll` — binding well-formed methods in order
* `Application.Builds` — building a well-declared interface

## Main Statements

* `Application.buildMethod_binds`, `Application.buildMethods_bindsAll`,
  `Application.buildWithin_builds` — the relations hold

## Design Notes

The relations are about one level of nesting; what is built for the nested interfaces is a parameter
of theirs, as it is of the functions. They say what can happen to a declaration without faults, so
that no later proof has to classify a method or derive a key again.
-/

namespace ConfigBinding

/-! ### The depth of nesting -/

namespace Schema

variable {s : Schema} {i j : Fin s.size}

open Classical in
/-- The interfaces that nest in an interface at any depth. -/
noncomputable def nestedBelow (s : Schema) (i : Fin s.size) : Finset (Fin s.size) :=
  Finset.univ.filter (Relation.TransGen s.Nests i ·)

theorem mem_nestedBelow : j ∈ s.nestedBelow i ↔ Relation.TransGen s.Nests i j := by
  simp [nestedBelow]

/-- Fewer interfaces nest in a nested interface than in the one around it. -/
theorem card_nestedBelow_lt (nests : s.Nests i j) (acyclic : ¬ Relation.TransGen s.Nests j j) :
    (s.nestedBelow j).card < (s.nestedBelow i).card := by
  refine Finset.card_lt_card ⟨fun k below => ?_, fun subset => ?_⟩
  · exact mem_nestedBelow.mpr (Relation.TransGen.head nests (mem_nestedBelow.mp below))
  · exact acyclic (mem_nestedBelow.mp (subset (mem_nestedBelow.mpr (.single nests))))

/-- Not all interfaces nest in one that does not nest in itself. -/
theorem card_nestedBelow_lt_size (acyclic : ¬ Relation.TransGen s.Nests i i) :
    (s.nestedBelow i).card < s.size := by
  have smaller := Finset.card_lt_univ_of_notMem fun within => acyclic (mem_nestedBelow.mp within)
  rwa [Fintype.card_fin] at smaller

end Schema

/-! ### One method -/

namespace Method

variable {n : Nat}

/-- The property that a method without parameters reads, under a prefix. -/
def propertyUnder (method : Method n) (keyPrefix : String) (kind : Kind) : Property :=
  ⟨method.keyUnder keyPrefix, kind, method.default?⟩

end Method

namespace Application

variable {σ : Type} (app : Application σ)

/-- **How binding a well-formed method can go.**  Only a nested interface can make it fail. -/
inductive Binds (child : Fin app.schema.size → String → app.Attempt BindError app.Bound)
    (immutable : Bool) (keyPrefix : String) (method : Method app.schema.size) (w : app.State) :
    Except BindFault (Binding app.schema.size app.Bound) → app.State → Prop
  | kept {kind} (returns : method.returns = .value kind) (plain : method.params = 0)
      (keeps : immutable = true) :
      Binds child immutable keyPrefix method w
        (.ok ⟨method.name, method.keyUnder keyPrefix, method.default?,
          .leaf (.immutable (method.propertyUnder keyPrefix kind) w.nextSerial)⟩) w.issue.2
  | dynamic {kind} (returns : method.returns = .value kind) (plain : method.params = 0)
      (forgets : immutable = false) :
      Binds child immutable keyPrefix method w
        (.ok ⟨method.name, method.keyUnder keyPrefix, method.default?,
          .leaf (.dynamic (method.propertyUnder keyPrefix kind))⟩) w
  | parameterized {kind template} (returns : method.returns = .value kind)
      (parameters : method.params ≠ 0) (named : method.propertyName? = some template) :
      Binds child immutable keyPrefix method w
        (.ok ⟨method.name, keyPrefix ++ template, method.default?,
          .leaf (.parameterized template kind method.default?)⟩) w
  | map {i} (returns : method.returns = .map i) :
      Binds child immutable keyPrefix method w
        (.ok ⟨method.name, method.keyUnder keyPrefix, method.default?,
          .map ⟨w.nextSerial, i, method.keyUnder keyPrefix, immutable⟩⟩) w.issue.2
  | nested {i p after} (returns : method.returns = .interface i)
      (built : child i (Key.dotted (method.keyUnder keyPrefix)) w = (.ok p, after)) :
      Binds child immutable keyPrefix method w
        (.ok ⟨method.name, method.keyUnder keyPrefix, method.default?, .nested p⟩) after
  | nestedFailed {i e after} (returns : method.returns = .interface i)
      (failed : child i (Key.dotted (method.keyUnder keyPrefix)) w = (.error e, after)) :
      Binds child immutable keyPrefix method w (.error (.nested e)) after

variable {app}
variable {child : Fin app.schema.size → String → app.Attempt BindError app.Bound}
variable {immutable : Bool} {keyPrefix : String}

/-- **Binding a well-formed method** goes one of those ways, whatever the prefix and the flag. -/
theorem buildMethod_binds (child : Fin app.schema.size → String → app.Attempt BindError app.Bound)
    (immutable : Bool) (keyPrefix : String) {method : Method app.schema.size}
    (wellFormed : method.WellFormed) (w : app.State) :
    app.Binds child immutable keyPrefix method w
      (app.buildMethod child immutable keyPrefix method w).1
      (app.buildMethod child immutable keyPrefix method w).2 := by
  obtain ⟨strategy, classified⟩ := (Method.exists_classify_iff immutable).mpr wellFormed
  unfold Method.WellFormed at wellFormed
  unfold buildMethod resolve
  cases returns : method.returns with
  | value kind =>
    rw [returns] at wellFormed
    by_cases plain : method.params = 0
    · simp only [if_pos plain] at wellFormed
      -- the property name that classification asked for also gives a key under the prefix
      have key := Method.key_of_ownName_ne wellFormed keyPrefix
      cases immutable with
      | true =>
        simp only [classified, resolveValue, if_pos plain, key]
        exact .kept returns plain rfl
      | false =>
        simp only [classified, resolveValue, if_pos plain, key]
        exact .dynamic returns plain rfl
    · simp only [if_neg plain] at wellFormed
      obtain ⟨template, named, -⟩ := wellFormed
      simp only [classified, resolveValue, if_neg plain, named]
      exact .parameterized returns plain named
  | interface i =>
    rw [returns] at wellFormed
    have key := Method.key_of_ownName_ne wellFormed.2 keyPrefix
    cases built : child i (Key.dotted (method.keyUnder keyPrefix)) w with
    | mk result after =>
      simp only [classified, resolveNested, key, built]
      cases result with
      | error e => exact .nestedFailed returns built
      | ok p => exact .nested returns built
  | map i =>
    rw [returns] at wellFormed
    have key := Method.key_of_ownName_ne wellFormed.2 keyPrefix
    simp only [classified, resolveMap, key]
    exact .map returns

/-! ### The methods of an interface -/

variable (app) in
/-- **Binding well-formed methods in order.**  The first that fails ends it. -/
inductive BindsAll (child : Fin app.schema.size → String → app.Attempt BindError app.Bound)
    (immutable : Bool) (interfaceName keyPrefix : String) :
    List (Method app.schema.size) → app.State →
      Except BindError (List (Binding app.schema.size app.Bound)) → app.State → Prop
  | nil {w} : BindsAll child immutable interfaceName keyPrefix [] w (.ok []) w
  | cons {method rest w binding between bindings after}
      (first : app.Binds child immutable keyPrefix method w (.ok binding) between)
      (others : BindsAll child immutable interfaceName keyPrefix rest between (.ok bindings)
        after) :
      BindsAll child immutable interfaceName keyPrefix (method :: rest) w
        (.ok (binding :: bindings)) after
  | restFailed {method rest w binding between e after}
      (first : app.Binds child immutable keyPrefix method w (.ok binding) between)
      (others : BindsAll child immutable interfaceName keyPrefix rest between (.error e) after) :
      BindsAll child immutable interfaceName keyPrefix (method :: rest) w (.error e) after
  | failed {method rest w fault after}
      (first : app.Binds child immutable keyPrefix method w (.error fault) after) :
      BindsAll child immutable interfaceName keyPrefix (method :: rest) w
        (.error (.method interfaceName method.name fault)) after

variable {interfaceName : String} {methods : List (Method app.schema.size)}

theorem buildMethods_bindsAll
    (child : Fin app.schema.size → String → app.Attempt BindError app.Bound) (immutable : Bool)
    (interfaceName keyPrefix : String) (wellFormed : ∀ method ∈ methods, method.WellFormed)
    (w : app.State) :
    app.BindsAll child immutable interfaceName keyPrefix methods w
      (app.buildMethods child immutable interfaceName keyPrefix methods w).1
      (app.buildMethods child immutable interfaceName keyPrefix methods w).2 := by
  induction methods generalizing w with
  | nil => exact .nil
  | cons method rest ih =>
    have first := buildMethod_binds child immutable keyPrefix
      (wellFormed method List.mem_cons_self) w
    unfold buildMethods
    cases bound : app.buildMethod child immutable keyPrefix method w with
    | mk result between =>
      rw [bound] at first
      cases result with
      | error fault => exact .failed first
      | ok binding =>
        have others := ih (fun other declared =>
          wellFormed other (List.mem_cons_of_mem _ declared)) between
        cases boundRest : app.buildMethods child immutable interfaceName keyPrefix rest between with
        | mk resultRest after =>
          rw [boundRest] at others
          cases resultRest with
          | error e => simpa only [boundRest] using .restFailed first others
          | ok bindings => simpa only [boundRest] using .cons first others

/-- Every binding is that of a method, bound at some moment on the way. -/
theorem BindsAll.of_mem {w after : app.State}
    {bindings : List (Binding app.schema.size app.Bound)}
    (all : app.BindsAll child immutable interfaceName keyPrefix methods w (.ok bindings) after)
    {binding : Binding app.schema.size app.Bound} (bound : binding ∈ bindings) :
    ∃ method ∈ methods, ∃ before between,
      app.Binds child immutable keyPrefix method before (.ok binding) between := by
  generalize outcome : Except.ok bindings = result at all
  induction all generalizing bindings with
  | nil =>
    cases outcome
    simp at bound
  | cons first _ ih =>
    cases outcome
    rcases List.mem_cons.mp bound with rfl | later
    · exact ⟨_, List.mem_cons_self, _, _, first⟩
    · obtain ⟨method, declared, before, between, binds⟩ := ih later rfl
      exact ⟨method, List.mem_cons_of_mem _ declared, before, between, binds⟩
  | restFailed _ _ _ => cases outcome
  | failed _ => cases outcome

/-! ### One interface -/

variable (app) in
/-- **How building an interface can go**: its sources are loaded, and then its methods are bound. -/
inductive Builds (child : Fin app.schema.size → String → app.Attempt BindError app.Bound)
    (immutable : Bool) (i : Fin app.schema.size) (keyPrefix : String) (w : app.State) :
    Except BindError app.Bound → app.State → Prop
  | notLoaded {e after} (load : app.loadSources i w = (.error e, after)) :
      Builds child immutable i keyPrefix w (.error e) after
  | notBound {loaded e after} (load : app.loadSources i w = (.ok (), loaded))
      (all : app.BindsAll child immutable (app.schema.name i) keyPrefix
        (app.schema.interface i).methods loaded.issue.2 (.error e) after) :
      Builds child immutable i keyPrefix w (.error e) after
  | built {loaded bindings after} (load : app.loadSources i w = (.ok (), loaded))
      (all : app.BindsAll child immutable (app.schema.name i) keyPrefix
        (app.schema.interface i).methods loaded.issue.2 (.ok bindings) after) :
      Builds child immutable i keyPrefix w
        (.ok ⟨loaded.nextSerial, i, app.schema.name i, keyPrefix, bindings⟩) after

variable {i : Fin app.schema.size}

/-- **Building a well-declared interface** goes one of those ways. -/
theorem buildWithin_builds (declared : (app.schema.interface i).WellDeclared) (immutable : Bool)
    (limit : Nat) (keyPrefix : String) (w : app.State) :
    app.Builds (app.buildWithin immutable limit) immutable i keyPrefix w
      (app.buildWithin immutable (limit + 1) i keyPrefix w).1
      (app.buildWithin immutable (limit + 1) i keyPrefix w).2 := by
  unfold buildWithin
  cases load : app.loadSources i w with
  | mk result loaded =>
    cases result with
    | error e => exact .notLoaded load
    | ok =>
      have all := buildMethods_bindsAll (app.buildWithin immutable limit) immutable
        (app.schema.name i) keyPrefix declared.wellFormed loaded.issue.2
      simp only [Session.issue] at all ⊢
      cases bound : app.buildMethods (app.buildWithin immutable limit) immutable
          (app.schema.name i) keyPrefix (app.schema.interface i).methods
          { loaded with nextSerial := loaded.nextSerial + 1 } with
      | mk outcome after =>
        rw [bound] at all
        cases outcome with
        | error e => exact .notBound load all
        | ok bindings => exact .built load all

/-- The bindings of a proxy are those of the methods of its interface. -/
theorem Builds.of_ok {w after : app.State} {p : app.Bound}
    (goes : app.Builds child immutable i keyPrefix w (.ok p) after) :
    ∃ before, app.BindsAll child immutable (app.schema.name i) keyPrefix
      (app.schema.interface i).methods before (.ok p.bindings) after := by
  cases goes with
  | built _ all => exact ⟨_, all⟩

end Application

end ConfigBinding
