import ConfigBinding.Access
import ConfigBinding.Proofs.Binding.Build

/-!
# Proxies as declared

A proxy that was built says of every method of its interface how it answers, and under which key.
All of that is fixed by the declaration, the prefix of the proxy and the flag of the bind.

## Main Definitions

* `Method.strategyUnder` — the strategy of a method, by what it returns and by the flag
* `Method.BoundBy` — a binding is that of a method, under a prefix and a flag
* `Proxy.Follows` — the bindings of a proxy are those of its interface, in order
* `Application.Built` — a proxy was built of a sound interface

## Main Statements

* `Application.Built.follows` — a proxy that was built follows its declaration
* `Application.Built.invoke_eq` — a call of a method asks the binding of that name
* `Application.Built.invoke_dynamic` — a call of a method that keeps nothing reads the property
  under the key of the method

## Design Notes

`Application.Built` speaks of any limit of the depth, so that it holds of the nested proxies too.  A
nested proxy shows its interface and its prefix itself; neither is a parameter of the predicate.
-/

namespace ConfigBinding

/-! ### Bindings -/

namespace Method

variable {n : Nat} {immutable : Bool} {keyPrefix : String} {method : Method n}
variable {binding : Binding n (Proxy n)}

/-- The strategy of a well-formed method: by what it returns, and for a value by its parameters and
by the flag. -/
def strategyUnder (immutable : Bool) (method : Method n) : Strategy :=
  match method.returns with
  | .map _ => .map
  | .interface _ => .nested
  | .value _ =>
    if method.params ≠ 0 then .parameterized
    else if immutable then .immutable
    else .dynamic

/-- **A binding is that of a method.**  The key begins with the prefix and goes on with the name
that the method declares, which may be a template, or else with the name derived from its own.  What
is behind a nested interface or a map is found under the same key, and has the same flag. -/
structure BoundBy (immutable : Bool) (keyPrefix : String) (method : Method n)
    (binding : Binding n (Proxy n)) : Prop where
  name : binding.method = method.name
  key : binding.key = keyPrefix ++ method.ownName
  default? : binding.default? = method.default?
  strategy : binding.resolver.strategy = method.strategyUnder immutable
  dynamic : ∀ property, binding.resolver = .leaf (.dynamic property) →
    method.returns = .value property.kind ∧ property = ⟨binding.key, property.kind, method.default?⟩
  nested : ∀ child, binding.resolver = .nested child →
    method.returns = .interface child.type ∧ child.keyPrefix = Key.dotted binding.key
  map : ∀ m, binding.resolver = .map m →
    method.returns = .map m.valueType ∧ m.key = binding.key ∧ m.immutable = immutable

namespace BoundBy

variable {i : Fin n}

/-- A method that returns a value has a leaf. -/
theorem exists_leaf (boundBy : method.BoundBy immutable keyPrefix binding) {kind : Kind}
    (returns : method.returns = .value kind) : ∃ leaf, binding.resolver = .leaf leaf := by
  cases answers : binding.resolver with
  | leaf leaf => exact ⟨leaf, rfl⟩
  | nested child => cases returns.symm.trans (boundBy.nested child answers).1
  | map m => cases returns.symm.trans (boundBy.map m answers).1

/-- A method that has a leaf returns a value. -/
theorem exists_kind (boundBy : method.BoundBy immutable keyPrefix binding) {leaf : Leaf}
    (answers : binding.resolver = .leaf leaf) : ∃ kind, method.returns = .value kind := by
  have strategy := boundBy.strategy
  rw [answers, strategyUnder] at strategy
  cases returns : method.returns with
  | value kind => exact ⟨kind, rfl⟩
  | interface i | map i =>
    rw [returns] at strategy
    cases leaf <;> cases strategy

/-- A method that returns an interface answers with a proxy of it. -/
theorem exists_nested (boundBy : method.BoundBy immutable keyPrefix binding)
    (returns : method.returns = .interface i) :
    ∃ child, binding.resolver = .nested child ∧ child.type = i := by
  cases answers : binding.resolver with
  | leaf leaf =>
    obtain ⟨kind, returnsValue⟩ := boundBy.exists_kind answers
    cases returns.symm.trans returnsValue
  | nested child =>
    have same := returns.symm.trans (boundBy.nested child answers).1
    exact ⟨child, rfl, (Returns.interface.inj same).symm⟩
  | map m => cases returns.symm.trans (boundBy.map m answers).1

/-- A method that returns a map answers with a map of the interface. -/
theorem exists_map (boundBy : method.BoundBy immutable keyPrefix binding)
    (returns : method.returns = .map i) :
    ∃ m, binding.resolver = .map m ∧ m.valueType = i := by
  cases answers : binding.resolver with
  | leaf leaf =>
    obtain ⟨kind, returnsValue⟩ := boundBy.exists_kind answers
    cases returns.symm.trans returnsValue
  | nested child => cases returns.symm.trans (boundBy.nested child answers).1
  | map m =>
    have same := returns.symm.trans (boundBy.map m answers).1
    exact ⟨m, rfl, (Returns.map.inj same).symm⟩

end BoundBy

end Method

/-- **A proxy follows its declaration**: its bindings are those of the methods of its interface, one
for each and in the same order. -/
structure Proxy.Follows (s : Schema) (immutable : Bool) (p : Proxy s.size) : Prop where
  interfaceName : p.interfaceName = s.name p.type
  bindings : List.Forall₂ (Method.BoundBy immutable p.keyPrefix) (s.interface p.type).methods
    p.bindings

/-! ### Proxies that were built -/

namespace Application

variable {σ : Type} {app : Application σ} {immutable : Bool} {keyPrefix interfaceName : String}
variable {child : Fin app.schema.size → String → app.Attempt BindError app.Bound}
variable {method : Method app.schema.size} {methods : List (Method app.schema.size)}
variable {binding : Binding app.schema.size app.Bound}
variable {bindings : List (Binding app.schema.size app.Bound)}
variable {i : Fin app.schema.size} {w after : app.State} {p q : app.Bound}

/-- A proxy was built of a sound interface, with some limit of the depth. -/
structure Built (app : Application σ) (immutable : Bool) (p : app.Bound) : Prop where
  sound : app.schema.Admissible p.type
  built : ∃ limit w, (app.buildWithin immutable limit p.type p.keyPrefix w).1 = .ok p

/-- A proxy has the interface and the prefix that it was built for. -/
theorem type_of_buildWithin {limit : Nat} (sound : app.schema.Admissible i)
    (built : (app.buildWithin immutable limit i keyPrefix w).1 = .ok p) :
    p.type = i ∧ p.keyPrefix = keyPrefix ∧ p.interfaceName = app.schema.name i := by
  cases limit with
  | zero => cases built
  | succ limit =>
    have goes := buildWithin_builds (sound.wellDeclared i .refl) immutable limit keyPrefix w
    rw [built] at goes
    cases goes
    exact ⟨rfl, rfl, rfl⟩

theorem built_of_buildWithin {limit : Nat} (sound : app.schema.Admissible i)
    (built : (app.buildWithin immutable limit i keyPrefix w).1 = .ok p) :
    app.Built immutable p := by
  obtain ⟨rfl, rfl, -⟩ := type_of_buildWithin sound built
  exact ⟨sound, limit, w, built⟩

/-- Binding a method gives the binding of the method, if nested interfaces are built as asked. -/
theorem Binds.boundBy
    (binds : app.Binds child immutable keyPrefix method w (.ok binding) after)
    (nested : ∀ i keyPrefix (w : app.State) q, method.returns = .interface i →
      (child i keyPrefix w).1 = .ok q → q.type = i ∧ q.keyPrefix = keyPrefix) :
    method.BoundBy immutable keyPrefix binding := by
  cases binds with
  | kept returns plain keeps =>
    refine ⟨rfl, rfl, rfl, ?_, nofun, nofun, nofun⟩
    simp [Method.strategyUnder, returns, plain, keeps, Resolver.strategy, Leaf.strategy]
  | dynamic returns plain forgets =>
    refine ⟨rfl, rfl, rfl, ?_, ?_, nofun, nofun⟩
    · simp [Method.strategyUnder, returns, plain, forgets, Resolver.strategy, Leaf.strategy]
    · rintro property ⟨⟩
      exact ⟨returns, rfl⟩
  | @parameterized kind template returns parameters named =>
    -- the name that is declared is the template
    have own : method.ownName = template := by rw [Method.ownName, named]; rfl
    refine ⟨rfl, by rw [own], rfl, ?_, nofun, nofun, nofun⟩
    simp [Method.strategyUnder, returns, parameters, Resolver.strategy, Leaf.strategy]
  | map returns =>
    refine ⟨rfl, rfl, rfl, ?_, nofun, nofun, ?_⟩
    · simp [Method.strategyUnder, returns, Resolver.strategy]
    · rintro m ⟨⟩
      exact ⟨returns, rfl, rfl⟩
  | @nested j q _ returns built =>
    obtain ⟨rfl, inside⟩ := nested j _ _ q returns (congrArg Prod.fst built)
    refine ⟨rfl, rfl, rfl, ?_, nofun, ?_, nofun⟩
    · simp [Method.strategyUnder, returns, Resolver.strategy]
    · rintro other ⟨⟩
      exact ⟨returns, inside⟩

/-- What holds of every binding of a method holds of the bindings of all, in order. -/
theorem BindsAll.forall₂ {R : Method app.schema.size → Binding app.schema.size app.Bound → Prop}
    (all : app.BindsAll child immutable interfaceName keyPrefix methods w (.ok bindings) after)
    (each : ∀ method ∈ methods, ∀ before binding between,
      app.Binds child immutable keyPrefix method before (.ok binding) between → R method binding) :
    List.Forall₂ R methods bindings := by
  generalize outcome : Except.ok bindings = result at all
  induction all generalizing bindings with
  | nil =>
    cases outcome
    exact .nil
  | cons first _ ih =>
    cases outcome
    refine .cons (each _ List.mem_cons_self _ _ _ first) (ih ?_ rfl)
    exact fun method declared => each method (List.mem_cons_of_mem _ declared)
  | restFailed _ _ _ => cases outcome
  | failed _ => cases outcome

/-- How a proxy that was built came to be: its bindings are those of the methods of its interface,
and its nested proxies were built. -/
theorem Built.bindsAll (built : app.Built immutable p) :
    ∃ child interfaceName before after,
      app.BindsAll child immutable interfaceName p.keyPrefix (app.schema.interface p.type).methods
        before (.ok p.bindings) after ∧
      ∀ j keyPrefix (w : app.State) q, app.schema.Nests p.type j →
        (child j keyPrefix w).1 = .ok q →
          app.Built immutable q ∧ q.type = j ∧ q.keyPrefix = keyPrefix := by
  obtain ⟨sound, limit, w, built⟩ := built
  cases limit with
  | zero => cases built
  | succ limit =>
    have goes := buildWithin_builds (sound.wellDeclared _ .refl) immutable limit p.keyPrefix w
    rw [built] at goes
    obtain ⟨before, all⟩ := goes.of_ok
    refine ⟨_, _, before, _, all, fun j keyPrefix w q nests childBuilt => ?_⟩
    have soundBelow := sound.of_leadsTo nests.leadsTo
    obtain ⟨type, inside, -⟩ := type_of_buildWithin soundBelow childBuilt
    exact ⟨built_of_buildWithin soundBelow childBuilt, type, inside⟩

/-- **A proxy that was built follows its declaration.** -/
theorem Built.follows (built : app.Built immutable p) : p.Follows app.schema immutable := by
  obtain ⟨limit, w, made⟩ := built.built
  obtain ⟨child, _, _, _, all, nested⟩ := built.bindsAll
  refine ⟨(type_of_buildWithin built.sound made).2.2, all.forall₂ ?_⟩
  intro method declared before binding between binds
  refine binds.boundBy fun j keyPrefix w q returns childBuilt => ?_
  exact (nested j keyPrefix w q ⟨method, declared, returns⟩ childBuilt).2

/-- A proxy that nests in one that was built was itself built, with the same flag. -/
theorem Built.of_nested (built : app.Built immutable p) (bound : binding ∈ p.bindings)
    (answers : binding.resolver = .nested q) : app.Built immutable q := by
  obtain ⟨child, _, _, _, all, nested⟩ := built.bindsAll
  obtain ⟨method, declared, before, between, binds⟩ := all.of_mem bound
  cases binds with
  | nested returns childBuilt =>
    cases answers
    exact (nested _ _ _ _ ⟨method, declared, returns⟩ (congrArg Prod.fst childBuilt)).1
  | _ => cases answers

/-- What stands in one of two lists in step has a counterpart at its position in the other. -/
theorem exists_getElem?_of_forall₂ {α β : Type} {R : α → β → Prop} {l : List α} {l' : List β}
    {position : Nat} {a : α} (both : List.Forall₂ R l l') (found : l[position]? = some a) :
    ∃ b, l'[position]? = some b ∧ R a b := by
  obtain ⟨below, rfl⟩ := List.getElem?_eq_some_iff.mp found
  have below' : position < l'.length := by
    rw [← both.length_eq]
    exact below
  exact ⟨_, List.getElem?_eq_getElem below', both.get below below'⟩

theorem exists_of_mem_forall₂ {α β : Type} {R : α → β → Prop} {l : List α} {l' : List β} {a : α}
    (both : List.Forall₂ R l l') (listed : a ∈ l) : ∃ b ∈ l', R a b := by
  obtain ⟨position, found⟩ := List.getElem?_of_mem listed
  obtain ⟨b, found', related⟩ := exists_getElem?_of_forall₂ both found
  exact ⟨b, List.mem_of_getElem? found', related⟩

/-- Every method of the interface has a binding. -/
theorem Built.exists_binding (built : app.Built immutable p)
    (declared : method ∈ (app.schema.interface p.type).methods) :
    ∃ binding ∈ p.bindings, method.BoundBy immutable p.keyPrefix binding :=
  exists_of_mem_forall₂ built.follows.bindings declared

/-- Every binding is that of a method of the interface. -/
theorem Built.exists_boundBy (built : app.Built immutable p) (bound : binding ∈ p.bindings) :
    ∃ method ∈ (app.schema.interface p.type).methods,
      method.BoundBy immutable p.keyPrefix binding := by
  have turned : List.Forall₂ (flip (Method.BoundBy immutable p.keyPrefix)) p.bindings
      (app.schema.interface p.type).methods := .flip built.follows.bindings
  exact exists_of_mem_forall₂ turned bound

/-- What is told alike of two lists in step is the same list. -/
theorem map_eq_of_forall₂ {α β γ : Type} {R : α → β → Prop} {l : List α} {l' : List β} {f : α → γ}
    {g : β → γ} (both : List.Forall₂ R l l') (alike : ∀ a b, R a b → g b = f a) :
    l'.map g = l.map f := by
  induction both with
  | nil => rfl
  | cons first _ ih => rw [List.map_cons, List.map_cons, alike _ _ first, ih]

/-- The bindings have the names of the methods that are declared, in order. -/
theorem Built.names_eq (built : app.Built immutable p) :
    p.bindings.map (·.method) = (app.schema.interface p.type).methods.map (·.name) :=
  map_eq_of_forall₂ built.follows.bindings fun _ _ boundBy => boundBy.name

theorem Built.names_nodup (built : app.Built immutable p) :
    (p.bindings.map (·.method)).Nodup := by
  rw [built.names_eq]
  exact (built.sound.wellDeclared _ .refl).names_nodup

/-- Two bindings of one proxy have different names. -/
theorem Built.binding_eq (built : app.Built immutable p)
    {other : Binding app.schema.size app.Bound} (bound : binding ∈ p.bindings)
    (otherBound : other ∈ p.bindings) (sameName : binding.method = other.method) :
    binding = other :=
  List.inj_on_of_nodup_map built.names_nodup bound otherBound sameName

/-! ### Calls -/

/-- A binding is found under its name. -/
theorem Built.binding?_eq (built : app.Built immutable p) (bound : binding ∈ p.bindings) :
    p.binding? binding.method = some binding := by
  unfold Proxy.binding?
  cases found : p.bindings.find? (·.method == binding.method) with
  | none =>
    have absent := List.find?_eq_none.mp found binding bound
    simp at absent
  | some other =>
    have sameName : other.method = binding.method := by simpa using List.find?_some found
    rw [built.binding_eq (List.mem_of_find?_eq_some found) bound sameName]

/-- **A call of a method** asks the binding of that name. -/
theorem Built.invoke_eq (built : app.Built immutable p) (bound : binding ∈ p.bindings)
    (arguments : List String) (w : app.State) :
    app.invoke p binding.method arguments w = app.answer arguments binding.resolver w := by
  unfold invoke
  rw [built.binding?_eq bound]

/-- **A call of a method that keeps nothing** reads the property under the key of the method, as the
store is at the time of the call. -/
theorem Built.invoke_dynamic (built : app.Built false p)
    (declared : method ∈ (app.schema.interface p.type).methods) {kind : Kind}
    (returns : method.returns = .value kind) (plain : method.params = 0) (arguments : List String)
    (w : app.State) :
    app.invoke p method.name arguments w =
      (((Property.read ⟨p.keyPrefix ++ method.ownName, kind, method.default?⟩ app.decoder
        w.store).mapError .property).map .value, w) := by
  obtain ⟨binding, bound, boundBy⟩ := built.exists_binding declared
  have isDynamic : binding.resolver.strategy = .dynamic := by
    rw [boundBy.strategy, Method.strategyUnder, returns]
    simp [plain]
  rw [← boundBy.name, built.invoke_eq bound]
  -- only one sort of answer has the strategy
  cases answers : binding.resolver with
  | leaf leaf =>
    cases leaf with
    | dynamic property =>
      obtain ⟨sameReturns, is⟩ := boundBy.dynamic property answers
      obtain rfl : kind = property.kind := by
        rw [returns] at sameReturns
        exact Returns.value.inj sameReturns
      rw [is, boundBy.key]
      rfl
    | _ => exact absurd (answers ▸ isDynamic) nofun
  | _ => exact absurd (answers ▸ isDynamic) nofun

end Application

end ConfigBinding
