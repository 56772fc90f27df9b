import ConfigBinding.Proofs.Binding.Outcome
import ConfigBinding.Proofs.Binding.Watching

/-!
# Demands for sources

Interfaces ask for sources, and those that nest in an interface ask together with it.  Building a
proxy comes to loading what is demanded in this way, in order, as far as nothing fails.

## Main Definitions

* `Demand` — an interface asks for sources
* `Schema.demands` — the demands of an interface and of all that nests in it
* `Application.loadAll`, `Application.callsFor` — loading demands in order, and the calls for it
* `Application.Heeds` — calls and an outcome are those of loading demands in order

## Main Statements

* `Schema.demands_eq` — an interface asks first, then what nests in it in the order of the methods
* `Schema.declared_of_mem_demandsWithin` — nothing is demanded that is not declared
* `Application.build_effect` — building is loading, as far as the store and the loader can tell
* `Application.loadAll_watched`, `Application.heeds_callsFor` — the calls, seen by watching

## Design Notes

The interfaces that nest in one form a tree, and the demands are listed as a walk over that tree
meets them, every interface before what nests in it.  The values of maps are not in the tree.  The
list is computed with a limit of the depth, which is never reached if interfaces do not nest in
themselves; `demands_eq` does not mention the limit.
-/

namespace ConfigBinding

/-! ### The demands of an interface -/

/-- An interface asks for sources.  The path leads to it: methods that return nested interfaces, the
outermost first, each with the interface that it belongs to. -/
structure Demand (n : Nat) where
  path : List (Fin n × String)
  interface : Fin n
  names : List String

/-- The demand as it is met from an interface around it. -/
def Demand.under {n : Nat} (i : Fin n) (methodName : String) (demand : Demand n) : Demand n :=
  { demand with path := (i, methodName) :: demand.path }

namespace Schema

variable (s : Schema)

/-- What an interface itself asks for. -/
def ownDemands (i : Fin s.size) : List (Demand s.size) :=
  match (s.interface i).sources? with
  | none => []
  | some names => [⟨[], i, names⟩]

/-- What is asked for below a method of an interface. -/
def demandsBelow (demands : Fin s.size → List (Demand s.size)) (i : Fin s.size)
    (method : Method s.size) : List (Demand s.size) :=
  match method.returns with
  | .interface j => (demands j).map (.under i method.name)
  | _ => []

/-- The demands of an interface and of what nests in it down to a depth. -/
def demandsWithin : Nat → Fin s.size → List (Demand s.size)
  | 0, _ => []
  | limit + 1, i =>
    s.ownDemands i ++ (s.interface i).methods.flatMap (s.demandsBelow (demandsWithin limit) i)

/-- **The demands of an interface**, and of all that nests in it. -/
def demands (i : Fin s.size) : List (Demand s.size) :=
  s.demandsWithin s.size i

/-- The error of a demand that could not be met, in one layer for each method on the path. -/
def demandError (demand : Demand s.size) (cause : PropertyError) : BindError :=
  demand.path.foldr (fun (i, methodName) e => .method (s.name i) methodName (.nested e))
    (.sources (s.name demand.interface) cause)

variable {s} {i j : Fin s.size}

theorem demandsBelow_congr {demands others : Fin s.size → List (Demand s.size)}
    {method : Method s.size} (declared : method ∈ (s.interface i).methods)
    (agree : ∀ j, s.Nests i j → demands j = others j) :
    s.demandsBelow demands i method = s.demandsBelow others i method := by
  unfold demandsBelow
  cases returns : method.returns with
  | interface j => simp only [agree j ⟨method, declared, returns⟩]
  | _ => rfl

/-- The limit does not matter once it is above the depth to which interfaces nest in this one. -/
theorem demandsWithin_of_nestedBelow_lt {limit more : Nat} (sound : s.Admissible i)
    (deep : (s.nestedBelow i).card < limit) (le : limit ≤ more) :
    s.demandsWithin more i = s.demandsWithin limit i := by
  induction limit generalizing i more with
  | zero => exact absurd deep (Nat.not_lt_zero _)
  | succ limit ih =>
    obtain ⟨more, rfl⟩ : ∃ fewer, more = fewer + 1 := ⟨more - 1, by omega⟩
    have agree : ∀ j, s.Nests i j → s.demandsWithin more j = s.demandsWithin limit j := by
      intro j nests
      have shallower := card_nestedBelow_lt nests (sound.acyclic j nests.leadsTo)
      exact ih (sound.of_leadsTo nests.leadsTo) (by omega) (by omega)
    rw [demandsWithin, demandsWithin]
    congr 1
    exact List.flatMap_congr fun method declared => demandsBelow_congr declared agree

/-- **An interface asks first**, and then what nests in it, in the order of the methods. -/
theorem demands_eq (sound : s.Admissible i) :
    s.demands i =
      s.ownDemands i ++ (s.interface i).methods.flatMap (s.demandsBelow s.demands i) := by
  have deep := card_nestedBelow_lt_size (sound.acyclic i .refl)
  have further := demandsWithin_of_nestedBelow_lt sound deep (Nat.le_succ s.size)
  rw [demands, ← further, demandsWithin]
  rfl

/-- **Every demand is that of an interface that this one leads to**, for the sources that are
declared there. -/
theorem declared_of_mem_demandsWithin {limit : Nat} {demand : Demand s.size}
    (demanded : demand ∈ s.demandsWithin limit i) :
    s.LeadsTo i demand.interface ∧
      (s.interface demand.interface).sources? = some demand.names := by
  induction limit generalizing i demand with
  | zero => cases demanded
  | succ limit ih =>
    rcases List.mem_append.mp demanded with own | below
    · unfold ownDemands at own
      cases sources : (s.interface i).sources? with
      | none =>
        rw [sources] at own
        cases own
      | some names =>
        rw [sources] at own
        obtain rfl := List.mem_singleton.mp own
        exact ⟨.refl, sources⟩
    · obtain ⟨method, declared, below⟩ := List.mem_flatMap.mp below
      unfold demandsBelow at below
      cases returns : method.returns with
      | interface j =>
        rw [returns] at below
        obtain ⟨inner, innerDemanded, rfl⟩ := List.mem_map.mp below
        have nests : s.Nests i j := ⟨method, declared, returns⟩
        obtain ⟨leads, sources⟩ := ih innerDemanded
        exact ⟨nests.leadsTo.trans leads, sources⟩
      | value kind | map j =>
        rw [returns] at below
        cases below

/-- Under its layers, the error of a demand names the interface and the cause. -/
theorem innermost_demandError (demand : Demand s.size) (cause : PropertyError) :
    (s.demandError demand cause).innermost = .sources (s.name demand.interface) cause := by
  unfold demandError
  induction demand.path with
  | nil => rfl
  | cons step path ih => exact ih

end Schema

/-! ### Loading demands in order -/

namespace Application

variable {σ : Type} (app : Application σ)

/-- Loads what is demanded, in order.  The first demand that cannot be met ends it. -/
def loadAll : List (Demand app.schema.size) → Store → σ → Except BindError Unit × Store × σ
  | [], store, state => (.ok (), store, state)
  | demand :: rest, store, state =>
    match app.loader.load demand.names store state with
    | (.error cause, after) => (.error (app.schema.demandError demand cause), after)
    | (.ok (), store, state) => loadAll rest store state

/-- The calls of the loader for demands in order. -/
def callsFor : List (Demand app.schema.size) → Store → σ → List (LoaderCall σ)
  | [], _, _ => []
  | demand :: rest, store, state =>
    ⟨demand.names, store, state⟩ ::
      match app.loader.load demand.names store state with
      | (.error _, _) => []
      | (.ok (), store, state) => callsFor rest store state

/-- **Calls and an outcome are those of loading demands in order.**  Either every demand was met by
a call, or the calls end with the first that failed, and the error is that of its demand. -/
inductive Heeds : List (Demand app.schema.size) → List (LoaderCall σ) → Except BindError Unit → Prop
  | all {demands : List (Demand app.schema.size)} {calls : List (LoaderCall σ)}
      (asked : calls.map (·.names) = demands.map (·.names))
      (met : ∀ call ∈ calls, app.loader.answer call = .ok ()) : Heeds demands calls (.ok ())
  | cut {earlier later : List (Demand app.schema.size)} {demand : Demand app.schema.size}
      {calls : List (LoaderCall σ)} {last : LoaderCall σ} {cause : PropertyError}
      (asked : calls.map (·.names) = earlier.map (·.names))
      (met : ∀ call ∈ calls, app.loader.answer call = .ok ())
      (askedLast : last.names = demand.names)
      (refused : app.loader.answer last = .error cause) :
      Heeds (earlier ++ demand :: later) (calls ++ [last])
        (.error (app.schema.demandError demand cause))

variable {app}
variable {demands others : List (Demand app.schema.size)} {store : Store} {state : σ}

theorem loadAll_append (demands others : List (Demand app.schema.size)) (store : Store)
    (state : σ) :
    app.loadAll (demands ++ others) store state =
      match app.loadAll demands store state with
      | (.error e, after) => (.error e, after)
      | (.ok (), store, state) => app.loadAll others store state := by
  induction demands generalizing store state with
  | nil => rfl
  | cons demand rest ih =>
    rw [List.cons_append, loadAll, loadAll]
    cases app.loader.load demand.names store state with
    | mk outcome after =>
      cases outcome with
      | error cause => rfl
      | ok => exact ih after.1 after.2

/-- Seen from an interface around them, demands fail in one more layer. -/
theorem loadAll_under (i : Fin app.schema.size) (methodName : String)
    (demands : List (Demand app.schema.size)) (store : Store) (state : σ) :
    app.loadAll (demands.map (.under i methodName)) store state =
      ((app.loadAll demands store state).1.mapError
        fun e => .method (app.schema.name i) methodName (.nested e),
        (app.loadAll demands store state).2) := by
  induction demands generalizing store state with
  | nil => rfl
  | cons demand rest ih =>
    rw [List.map_cons, loadAll, loadAll]
    simp only [Demand.under]
    cases app.loader.load demand.names store state with
    | mk outcome after =>
      cases outcome with
      | error cause => rfl
      | ok => exact ih after.1 after.2

/-- **Watching the loader shows the calls**, and changes nothing else. -/
theorem loadAll_watched (demands : List (Demand app.schema.size)) (store : Store) (state : σ)
    (calls : List (LoaderCall σ)) :
    app.watched.loadAll demands store (state, calls) =
      ((app.loadAll demands store state).1, (app.loadAll demands store state).2.1,
        (app.loadAll demands store state).2.2, calls ++ app.callsFor demands store state) := by
  induction demands generalizing store state calls with
  | nil => simp [loadAll, callsFor]
  | cons demand rest ih =>
    rw [loadAll, loadAll, callsFor]
    have seen : app.watched.loader.load demand.names store (state, calls) =
        ((app.loader.load demand.names store state).1,
          (app.loader.load demand.names store state).2.1,
          (app.loader.load demand.names store state).2.2,
          calls ++ [⟨demand.names, store, state⟩]) := rfl
    rw [seen]
    cases app.loader.load demand.names store state with
    | mk outcome after =>
      cases outcome with
      | error cause => rfl
      | ok =>
        simp only
        rw [ih, List.append_assoc, List.singleton_append]

/-- Calls for demands in order, when one more demand was met before. -/
theorem Heeds.cons {demand : Demand app.schema.size} {call : LoaderCall σ}
    {calls : List (LoaderCall σ)} {outcome : Except BindError Unit}
    (asked : call.names = demand.names) (met : app.loader.answer call = .ok ())
    (heeds : app.Heeds demands calls outcome) :
    app.Heeds (demand :: demands) (call :: calls) outcome := by
  cases heeds with
  | all askedRest metRest =>
    refine .all ?_ (List.forall_mem_cons.mpr ⟨met, metRest⟩)
    rw [List.map_cons, List.map_cons, asked, askedRest]
  | @cut earlier _ _ calls _ _ askedRest metRest askedLast refused =>
    have askedAll : (call :: calls).map (·.names) = (demand :: earlier).map (·.names) := by
      rw [List.map_cons, List.map_cons, asked, askedRest]
    exact .cut askedAll (List.forall_mem_cons.mpr ⟨met, metRest⟩) askedLast refused

/-- **The calls for demands are made in order**, up to the first that fails. -/
theorem heeds_callsFor (demands : List (Demand app.schema.size)) (store : Store) (state : σ) :
    app.Heeds demands (app.callsFor demands store state) (app.loadAll demands store state).1 := by
  induction demands generalizing store state with
  | nil => exact .all rfl nofun
  | cons demand rest ih =>
    rw [callsFor, loadAll]
    cases answer : app.loader.load demand.names store state with
    | mk outcome after =>
      have answers : app.loader.answer ⟨demand.names, store, state⟩ = outcome := by
        rw [Loader.answer, answer]
      cases outcome with
      | error cause =>
        -- nothing was met before
        have none : ([] : List (LoaderCall σ)).map (·.names) =
            ([] : List (Demand app.schema.size)).map (·.names) := rfl
        exact .cut none nofun rfl answers
      | ok => exact .cons rfl answers (ih after.1 after.2)

/-- The calls for demands are made in a row, and nothing else happens to the store. -/
theorem callsFor_inRow (demands : List (Demand app.schema.size)) (store : Store) (state : σ) :
    app.loader.InRow (store, state) (app.callsFor demands store state)
      (app.loadAll demands store state).2 := by
  induction demands generalizing store state with
  | nil => exact .nil
  | cons demand rest ih =>
    rw [callsFor, loadAll]
    refine .cons ?_
    cases app.loader.load demand.names store state with
    | mk outcome after =>
      cases outcome with
      | error cause => exact .nil
      | ok => exact ih after.1 after.2

/-- Every call is for a demand. -/
theorem Heeds.demanded {calls : List (LoaderCall σ)} {outcome : Except BindError Unit}
    (heeds : app.Heeds demands calls outcome) {call : LoaderCall σ} (made : call ∈ calls) :
    ∃ demand ∈ demands, call.names = demand.names := by
  have ofAsked {asked : List (LoaderCall σ)} {demands : List (Demand app.schema.size)}
      (same : asked.map (·.names) = demands.map (·.names)) (made : call ∈ asked) :
      ∃ demand ∈ demands, call.names = demand.names := by
    have listed : call.names ∈ demands.map (·.names) := same ▸ List.mem_map_of_mem made
    obtain ⟨demand, demanded, names⟩ := List.mem_map.mp listed
    exact ⟨demand, demanded, names.symm⟩
  cases heeds with
  | all asked met => exact ofAsked asked made
  | cut asked met askedLast refused =>
    rcases List.mem_append.mp made with before | last
    · obtain ⟨demand, demanded, names⟩ := ofAsked asked before
      exact ⟨demand, List.mem_append_left _ demanded, names⟩
    · obtain rfl := List.mem_singleton.mp last
      exact ⟨_, List.mem_append_right _ List.mem_cons_self, askedLast⟩

/-- If there is an error, it is that of a demand, whose call was the last one and failed. -/
theorem Heeds.of_error {calls : List (LoaderCall σ)} {e : BindError}
    (heeds : app.Heeds demands calls (.error e)) :
    ∃ met last demand cause, calls = met ++ [last] ∧ demand ∈ demands ∧
      (∀ call ∈ met, app.loader.answer call = .ok ()) ∧ last.names = demand.names ∧
      app.loader.answer last = .error cause ∧ e = app.schema.demandError demand cause := by
  cases heeds with
  | @cut earlier later demand calls last cause asked met askedLast refused =>
    have demanded := List.mem_append_right earlier (List.mem_cons_self : demand ∈ demand :: later)
    exact ⟨_, _, _, _, rfl, demanded, met, askedLast, refused, rfl⟩

/-! ### Building is loading -/

/-- What comes of an attempt, apart from what it makes: whether it fails, and what it does to the
store and to the state of the loader. -/
def effect {ε α : Type} (outcome : Except ε α) (after : app.State) : Except ε Unit × Store × σ :=
  (outcome.map fun _ => (), after.store, after.loader)

variable {child : Fin app.schema.size → String → app.Attempt BindError app.Bound}
variable {below : Fin app.schema.size → List (Demand app.schema.size)}
variable {immutable : Bool} {keyPrefix : String} {i : Fin app.schema.size}
variable {method : Method app.schema.size} {methods : List (Method app.schema.size)}
variable {w after : app.State}

theorem loadSources_effect (i : Fin app.schema.size) (w : app.State) :
    effect (app.loadSources i w).1 (app.loadSources i w).2 =
      app.loadAll (app.schema.ownDemands i) w.store w.loader := by
  unfold loadSources Schema.ownDemands
  cases (app.schema.interface i).sources? with
  | none => rfl
  | some names =>
    cases answer : app.loader.load names w.store w.loader with
    | mk outcome changed =>
      simp only [Session.load, loadAll, answer]
      cases outcome <;> rfl

/-- Binding a method loads what is demanded below it. -/
theorem Binds.effect {result : Except BindFault (Binding app.schema.size app.Bound)}
    (children : ∀ j keyPrefix (w : app.State), method.returns = .interface j →
      effect (child j keyPrefix w).1 (child j keyPrefix w).2 =
        app.loadAll (below j) w.store w.loader)
    (binds : app.Binds child immutable keyPrefix method w result after) :
    effect (result.mapError (.method (app.schema.name i) method.name)) after =
      app.loadAll (app.schema.demandsBelow below i method) w.store w.loader := by
  unfold Schema.demandsBelow
  cases binds with
  | kept returns _ _ | dynamic returns _ _ | parameterized returns _ _ | map returns =>
    rw [returns]
    rfl
  | nested returns built | nestedFailed returns built =>
    have comes := children _ (Key.dotted (method.keyUnder keyPrefix)) w returns
    rw [built] at comes
    rw [returns]
    show _ = app.loadAll (List.map _ _) w.store w.loader
    rw [loadAll_under, ← comes]
    rfl

/-- Binding the methods of an interface loads what is demanded below them, in order. -/
theorem BindsAll.effect {result : Except BindError (List (Binding app.schema.size app.Bound))}
    (children : ∀ method ∈ methods, ∀ j keyPrefix (w : app.State), method.returns = .interface j →
      effect (child j keyPrefix w).1 (child j keyPrefix w).2 =
        app.loadAll (below j) w.store w.loader)
    (all : app.BindsAll child immutable (app.schema.name i) keyPrefix methods w result after) :
    effect result after =
      app.loadAll (methods.flatMap (app.schema.demandsBelow below i)) w.store w.loader := by
  induction all with
  | nil => rfl
  | cons first _ ih | restFailed first _ ih =>
    have here := first.effect (i := i) (children _ List.mem_cons_self)
    have later := ih fun other declared => children other (List.mem_cons_of_mem _ declared)
    rw [List.flatMap_cons, loadAll_append, ← here]
    exact later
  | failed first =>
    have here := first.effect (i := i) (children _ List.mem_cons_self)
    rw [List.flatMap_cons, loadAll_append, ← here]
    rfl

theorem buildWithin_effect {limit : Nat} (sound : app.schema.Admissible i)
    (deep : (app.schema.nestedBelow i).card < limit) (w : app.State) :
    effect (app.buildWithin immutable limit i keyPrefix w).1
        (app.buildWithin immutable limit i keyPrefix w).2 =
      app.loadAll (app.schema.demandsWithin limit i) w.store w.loader := by
  induction limit generalizing i keyPrefix w with
  | zero => exact absurd deep (Nat.not_lt_zero _)
  | succ limit ih =>
    have children : ∀ method ∈ (app.schema.interface i).methods, ∀ j keyPrefix (w : app.State),
        method.returns = .interface j →
          effect (app.buildWithin immutable limit j keyPrefix w).1
              (app.buildWithin immutable limit j keyPrefix w).2 =
            app.loadAll (app.schema.demandsWithin limit j) w.store w.loader := by
      intro method declared j keyPrefix w returns
      have nests : app.schema.Nests i j := ⟨method, declared, returns⟩
      have shallower := Schema.card_nestedBelow_lt nests (sound.acyclic j nests.leadsTo)
      exact ih (sound.of_leadsTo nests.leadsTo) (by omega) w
    have own := loadSources_effect i w
    have goes := buildWithin_builds (sound.wellDeclared i .refl) immutable limit keyPrefix w
    generalize (app.buildWithin immutable (limit + 1) i keyPrefix w).1 = result at goes ⊢
    generalize (app.buildWithin immutable (limit + 1) i keyPrefix w).2 = after at goes ⊢
    rw [Schema.demandsWithin, loadAll_append]
    cases goes with
    | notLoaded load =>
      rw [load] at own
      rw [← own]
      rfl
    | notBound load all | built load all =>
      rw [load] at own
      rw [← own]
      exact all.effect children

/-- **Building is loading**, as far as the store and the loader can tell: it fails exactly if a
demand cannot be met, and with the error of that demand. -/
theorem build_effect (sound : app.schema.Admissible i) (immutable : Bool) (keyPrefix : String)
    (w : app.State) :
    effect (app.build immutable i keyPrefix w).1 (app.build immutable i keyPrefix w).2 =
      app.loadAll (app.schema.demands i) w.store w.loader :=
  buildWithin_effect sound (Schema.card_nestedBelow_lt_size (sound.acyclic i .refl)) w

end Application

end ConfigBinding
