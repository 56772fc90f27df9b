import ConfigBinding.Proofs.Run.Identity

/-!
# Which binding a call runs

A call names its method.  A proxy may look the name up among its bindings one after the other, or in
an index of the positions that was made together with the proxy.

## Main Definitions

* `positions`, `Proxy.index` — the positions of bindings under the names of their methods
* `IsLast` — the last position of a name
* `Application.Dispatches` — the names, positions and bindings of a proxy are in step with the
  declarations, and its calls run what is declared

## Main Statements

* `find?_positions_iff` — an index has the last position of each name
* `Client.dispatches_as_declared` — every proxy within reach of a client dispatches as declared

## Design Notes

An index has no room for two methods of one name: the later one would hide the other.  That there
are no two is seen to by the check of the interface that is bound, once and for everything that it
leads to.  Entries of maps are built later and not checked again; they are of interfaces that the
first check has seen.
-/

namespace ConfigBinding

/-! ### Positions -/

section Positions

variable {n : Nat} {α : Type} {bindings earlier : List (Binding n α)} {last : Binding n α}
variable {name : String} {position : Nat}

/-- The positions of bindings under the names of their methods.  Of two bindings of one name the
later one counts. -/
def positions (bindings : List (Binding n α)) : Dictionary Nat :=
  .ofList (bindings.zipIdx.map fun entry => (entry.1.method, entry.2))

theorem positions_concat :
    positions (earlier ++ [last]) = (positions earlier).insert last.method earlier.length := by
  rw [positions, List.zipIdx_append, List.map_append, Nat.zero_add]
  exact Dictionary.ofList_concat _ _

theorem getElem?_concat_eq_some_iff {β : Type} {l : List β} {a b : β} :
    (l ++ [a])[position]? = some b ↔ l[position]? = some b ∨ (position = l.length ∧ a = b) := by
  grind

/-- **The last position of a name**: there is a binding of the name, and no later one. -/
structure IsLast (bindings : List (Binding n α)) (name : String) (position : Nat) : Prop where
  bound : ∃ binding, bindings[position]? = some binding ∧ binding.method = name
  later : ∀ (later : Nat) binding, position < later → bindings[later]? = some binding →
    binding.method ≠ name

/-- A binding at the end is the last one of its name. -/
theorem isLast_concat_self :
    IsLast (earlier ++ [last]) last.method position ↔ earlier.length = position := by
  constructor
  · rintro ⟨⟨binding, found, -⟩, isLast⟩
    rcases getElem?_concat_eq_some_iff.mp found with found | ⟨here, -⟩
    · obtain ⟨below, -⟩ := List.getElem?_eq_some_iff.mp found
      exact absurd rfl (isLast _ last below List.getElem?_concat_length)
    · exact here.symm
  · rintro rfl
    refine ⟨⟨last, List.getElem?_concat_length, rfl⟩, fun later binding behind found => ?_⟩
    rcases getElem?_concat_eq_some_iff.mp found with found | ⟨here, -⟩
    · obtain ⟨below, -⟩ := List.getElem?_eq_some_iff.mp found
      exact absurd below behind.asymm
    · exact absurd here behind.ne'

/-- A binding of another name at the end has no say. -/
theorem isLast_concat_of_ne (other : last.method ≠ name) :
    IsLast (earlier ++ [last]) name position ↔ IsLast earlier name position := by
  have stays (i : Nat) (binding : Binding n α) (named : binding.method = name) :
      (earlier ++ [last])[i]? = some binding ↔ earlier[i]? = some binding := by
    rw [getElem?_concat_eq_some_iff, or_iff_left]
    rintro ⟨-, rfl⟩
    exact other named
  constructor
  · rintro ⟨⟨binding, found, named⟩, isLast⟩
    refine ⟨⟨binding, (stays _ _ named).mp found, named⟩, fun later next behind found named => ?_⟩
    exact isLast later next behind ((stays _ _ named).mpr found) named
  · rintro ⟨⟨binding, found, named⟩, isLast⟩
    refine ⟨⟨binding, (stays _ _ named).mpr found, named⟩, fun later next behind found named => ?_⟩
    exact isLast later next behind ((stays _ _ named).mp found) named

/-- **An index has the last position of each name.** -/
theorem find?_positions_iff :
    (positions bindings).find? name = some position ↔ IsLast bindings name position := by
  induction bindings using List.reverseRecOn with
  | nil => exact iff_of_false nofun fun isLast => by simpa using isLast.bound
  | append_singleton earlier last ih =>
    rw [positions_concat, Dictionary.find?_insert]
    by_cases same : name = last.method
    · rw [if_pos same, Option.some_inj, same, isLast_concat_self]
    · rw [if_neg same, ih, isLast_concat_of_ne (Ne.symm same)]

/-- An index has no position for a name if and only if no binding is of that name. -/
theorem find?_positions_eq_none_iff :
    (positions bindings).find? name = none ↔ ∀ binding ∈ bindings, binding.method ≠ name := by
  induction bindings using List.reverseRecOn with
  | nil => exact iff_of_true rfl nofun
  | append_singleton earlier last ih =>
    rw [positions_concat, Dictionary.find?_insert]
    by_cases same : name = last.method
    · rw [if_pos same]
      exact iff_of_false nofun fun other => other last (by simp) same.symm
    · rw [if_neg same, ih, List.forall_mem_append, List.forall_mem_singleton]
      exact (and_iff_left (Ne.symm same)).symm

/-- Where no two bindings are of one name, an index has the position of each. -/
theorem find?_positions_iff_of_nodup (distinct : (bindings.map (·.method)).Nodup) :
    (positions bindings).find? name = some position ↔
      ∃ binding, bindings[position]? = some binding ∧ binding.method = name := by
  have named (i : Nat) (binding : Binding n α) (found : bindings[i]? = some binding) :
      (bindings.map (·.method))[i]? = some binding.method := by
    rw [List.getElem?_map, found]
    rfl
  rw [find?_positions_iff]
  constructor
  · exact IsLast.bound
  · rintro ⟨binding, found, rfl⟩
    refine ⟨⟨binding, found, rfl⟩, fun later other behind foundLater sameName => ?_⟩
    have here := named _ _ found
    have there := named _ _ foundLater
    rw [sameName, ← here] at there
    obtain ⟨below, -⟩ := List.getElem?_eq_some_iff.mp here
    exact behind.ne ((List.getElem?_inj below distinct).mp there.symm)

/-- The positions of the bindings of a proxy under the names of their methods. -/
def Proxy.index (p : Proxy n) : Dictionary Nat :=
  positions p.bindings

end Positions

variable {σ : Type} {app : Application σ}

namespace Application

variable {immutable : Bool} {p : app.Bound}

/-! ### Calls of methods that are declared, and of others -/

theorem exists_of_mapError_eq_error {ε ε' α : Type} {outcome : Except ε α} {f : ε → ε'} {e : ε'}
    (failed : outcome.mapError f = .error e) : ∃ cause, e = f cause := by
  cases outcome with
  | error cause => exact ⟨cause, (Except.error.inj failed).symm⟩
  | ok value => cases failed

/-- A leaf fails because of the property that it reads, or of the arguments for its template. -/
theorem cause_of_read_eq_error {n : Nat} {decoder : Decoder} {arguments : List String} {leaf : Leaf}
    {w : Session n σ} {e : AccessError} (failed : (leaf.read decoder arguments w).1 = .error e) :
    (∃ cause, e = .property cause) ∨ ∃ cause, e = .template cause := by
  cases leaf with
  | dynamic property => exact .inl (exists_of_mapError_eq_error failed)
  | immutable property serial =>
    cases kept : w.kept serial with
    | some value =>
      rw [Leaf.read_of_kept kept] at failed
      cases failed
    | none =>
      rw [Leaf.read_of_not_kept kept] at failed
      exact .inl (exists_of_mapError_eq_error failed)
  | parameterized template kind default? =>
    cases substituted : Template.substitute template arguments with
    | error cause =>
      simp only [Leaf.read, substituted] at failed
      exact .inr ⟨cause, (Except.error.inj failed).symm⟩
    | ok key =>
      simp only [Leaf.read, substituted] at failed
      exact .inl (exists_of_mapError_eq_error failed)

/-- What a binding answers is never that there is no such method. -/
theorem answer_ne_unsupportedMethod (arguments : List String)
    (resolver : Resolver app.schema.size app.Bound) (w : app.State) (interfaceName name : String) :
    (app.answer arguments resolver w).1 ≠ .error (.unsupportedMethod interfaceName name) := by
  cases resolver with
  | nested child => exact nofun
  | map m => exact nofun
  | leaf leaf =>
    intro refused
    rcases cause_of_read_eq_error (Placeholder.map_eq_error_iff.mp refused) with
      ⟨cause, ⟨⟩⟩ | ⟨cause, ⟨⟩⟩

/-- **A proxy dispatches as declared.**  Its bindings have the names of the methods of its
interface, in order and without a repetition; its index has the position of each; the index finds
what a search finds; a call of a method that is declared runs the binding of the method, at the
position of the declaration, whatever the arguments are; and any other call gives the summary or is
refused. -/
structure Dispatches (app : Application σ) (immutable : Bool) (p : app.Bound) : Prop where
  interfaceName : p.interfaceName = app.schema.name p.type
  names : p.bindings.map (·.method) = (app.schema.interface p.type).methods.map (·.name)
  distinct : (p.bindings.map (·.method)).Nodup
  index : ∀ name position, p.index.find? name = some position ↔
    ∃ binding, p.bindings[position]? = some binding ∧ binding.method = name
  binding? : ∀ name,
    p.binding? name = (p.index.find? name).bind fun position => p.bindings[position]?
  declared : ∀ (position : Nat) method,
    (app.schema.interface p.type).methods[position]? = some method →
      ∃ binding, p.bindings[position]? = some binding ∧
        method.BoundBy immutable p.keyPrefix binding ∧
        p.index.find? method.name = some position ∧
        ∀ arguments w,
          app.invoke p method.name arguments w = app.answer arguments binding.resolver w ∧
            ∀ interfaceName name, (app.invoke p method.name arguments w).1 ≠
              .error (.unsupportedMethod interfaceName name)
  undeclared : ∀ name, name ∉ (app.schema.interface p.type).methods.map (·.name) →
    p.index.find? name = none ∧
      ∀ arguments w, app.invoke p name arguments w =
        if name = summaryMethod then
          (.ok (.value (.string (app.summary p w).1)), (app.summary p w).2)
        else (.error (.unsupportedMethod p.interfaceName name), w)

/-- **The index finds what a search finds.** -/
theorem Built.binding?_eq_index (built : app.Built immutable p) (name : String) :
    p.binding? name = (p.index.find? name).bind fun position => p.bindings[position]? := by
  cases found : p.index.find? name with
  | none =>
    have unbound := find?_positions_eq_none_iff.mp found
    simpa [Proxy.binding?, List.find?_eq_none] using unbound
  | some position =>
    obtain ⟨binding, bound, rfl⟩ := (find?_positions_iff_of_nodup built.names_nodup).mp found
    rw [Option.bind_some, bound]
    exact built.binding?_eq (List.mem_of_getElem? bound)

/-- **A proxy that was built dispatches as declared.** -/
theorem Built.dispatches (built : app.Built immutable p) : app.Dispatches immutable p where
  interfaceName := built.follows.interfaceName
  names := built.names_eq
  distinct := built.names_nodup
  index _ _ := find?_positions_iff_of_nodup built.names_nodup
  binding? := built.binding?_eq_index
  declared position method declared := by
    obtain ⟨binding, bound, boundBy⟩ :=
      exists_getElem?_of_forall₂ built.follows.bindings declared
    refine ⟨binding, bound, boundBy, ?_, fun arguments w => ?_⟩
    · exact (find?_positions_iff_of_nodup built.names_nodup).mpr ⟨binding, bound, boundBy.name⟩
    · have runs :
          app.invoke p method.name arguments w = app.answer arguments binding.resolver w := by
        rw [← boundBy.name]
        exact built.invoke_eq (List.mem_of_getElem? bound) arguments w
      refine ⟨runs, ?_⟩
      rw [runs]
      exact answer_ne_unsupportedMethod arguments binding.resolver w
  undeclared name other := by
    have nowhere : p.index.find? name = none := by
      rw [← built.names_eq] at other
      refine find?_positions_eq_none_iff.mpr fun binding bound named => ?_
      exact other (named ▸ List.mem_map_of_mem bound)
    refine ⟨nowhere, fun arguments w => ?_⟩
    rw [invoke, built.binding?_eq_index, nowhere, Option.bind_none]

end Application

namespace Client

/-- **Every proxy within reach dispatches as declared**, whether it is that of a bind, nested in
another one at any depth, or an entry of a map that was built later, and whether or not the client
has asked for it yet. -/
theorem dispatches_as_declared (app : Application σ) (store : Store) (loader : σ)
    (actions : List (Action app.schema.size σ)) {origin : Origin} {p : app.Bound}
    (located : ((start app store loader).run actions).Located origin (.interface p)) :
    ∃ request : Request app.schema.size, (requests actions)[origin.bind]? = some request ∧
      app.Dispatches request.flag p := by
  obtain ⟨request, found, spot, -, fits⟩ := (run_coherent app store loader actions).made located
  obtain ⟨built, -⟩ := fits.of_interface
  exact ⟨request, found, built.dispatches⟩

/-- The thesis is an entry that was built after a first request had failed.  Its owner is the second
of its methods, and it has no colour. -/
theorem thesis_dispatches :
    let c := (start Application.lateArchive .empty false).run (thesisRequests 0)
    ∃ origin p, c.Located origin (.interface p) ∧ p.keyPrefix = "documents.thesis." ∧
      p.index.find? "getOwner" = some 1 ∧
      ∀ arguments w, Application.lateArchive.invoke p "getColour" arguments w =
        (.error (.unsupportedMethod "Document" "getColour"), w) := by
  intro c
  have located := located_of_held Application.lateArchive .empty false (thesisRequests 0)
    (List.mem_of_getElem? (i := 2) rfl) ⟨_, rfl⟩
  obtain ⟨request, -, dispatches⟩ := dispatches_as_declared Application.lateArchive .empty false
    (thesisRequests 0) located
  refine ⟨_, _, located, rfl, ?_, fun arguments w => ?_⟩
  · obtain ⟨-, -, -, found, -⟩ := dispatches.declared 1 _ rfl
    exact found
  · have refused := (dispatches.undeclared "getColour" (by decide)).2 arguments w
    rw [refused]
    rfl

end Client

end ConfigBinding
