import ConfigBinding.Proofs.Binding.Build

/-!
# What building leaves behind

Building a proxy changes little of a session, and what it makes is no more than the interface leads
to.  Neither depends on whether it succeeds.

## Main Definitions

* `Session.Grows` — nothing that proxies have left in a session is lost or changed
* `Proxy.Offers` — a map that is found in a proxy, through nested interfaces

## Main Statements

* `Application.build_grows` — building only adds to a session
* `Application.leadsTo_of_build` — a proxy offers maps only of what its interface leads to
* `Application.buildWithin_of_size_le` — a greater limit of the depth changes nothing
-/

namespace ConfigBinding

/-! ### The session -/

namespace Session

variable {n : Nat} {σ : Type} {w between after : Session n σ}

/-- What was kept and the entries of maps are as before, and numbers that were given out stay given
out.  Nothing is said of the store and of the loader. -/
structure Grows (w after : Session n σ) : Prop where
  kept : after.kept = w.kept
  entries : after.entries = w.entries
  nextSerial : w.nextSerial ≤ after.nextSerial

theorem Grows.refl (w : Session n σ) : w.Grows w :=
  ⟨rfl, rfl, le_rfl⟩

theorem Grows.trans (first : w.Grows between) (second : between.Grows after) : w.Grows after where
  kept := second.kept.trans first.kept
  entries := second.entries.trans first.entries
  nextSerial := first.nextSerial.trans second.nextSerial

theorem grows_issue (w : Session n σ) : w.Grows w.issue.2 :=
  ⟨rfl, rfl, Nat.le_succ _⟩

theorem grows_load (w : Session n σ) (loader : Loader σ) (names : List String) :
    w.Grows (w.load loader names).2 :=
  ⟨rfl, rfl, le_rfl⟩

end Session

namespace Application

variable {σ : Type} {app : Application σ}
variable {child : Fin app.schema.size → String → app.Attempt BindError app.Bound}
variable {immutable : Bool} {keyPrefix interfaceName : String}
variable {method : Method app.schema.size} {methods : List (Method app.schema.size)}
variable {i : Fin app.schema.size} {w after : app.State}

theorem loadSources_grows (i : Fin app.schema.size) (w : app.State) :
    w.Grows (app.loadSources i w).2 := by
  unfold loadSources
  cases (app.schema.interface i).sources? with
  | none => exact .refl w
  | some names =>
    have loads := w.grows_load app.loader names
    cases answer : w.load app.loader names with
    | mk outcome loaded =>
      rw [answer] at loads
      cases outcome with
      | error e => simpa only [answer] using loads
      | ok => simpa only [answer] using loads

theorem Binds.grows {result : Except BindFault (Binding app.schema.size app.Bound)}
    (nested : ∀ i keyPrefix (w : app.State), method.returns = .interface i →
      w.Grows (child i keyPrefix w).2)
    (binds : app.Binds child immutable keyPrefix method w result after) : w.Grows after := by
  cases binds with
  | kept _ _ _ => exact w.grows_issue
  | dynamic _ _ _ => exact .refl w
  | parameterized _ _ _ => exact .refl w
  | map _ => exact w.grows_issue
  | nested returns built =>
    have grows := nested _ (Key.dotted (method.keyUnder keyPrefix)) w returns
    rwa [built] at grows
  | nestedFailed returns failed =>
    have grows := nested _ (Key.dotted (method.keyUnder keyPrefix)) w returns
    rwa [failed] at grows

theorem BindsAll.grows {result : Except BindError (List (Binding app.schema.size app.Bound))}
    (nested : ∀ method ∈ methods, ∀ i keyPrefix (w : app.State), method.returns = .interface i →
      w.Grows (child i keyPrefix w).2)
    (all : app.BindsAll child immutable interfaceName keyPrefix methods w result after) :
    w.Grows after := by
  induction all with
  | nil => exact .refl _
  | cons first _ ih | restFailed first _ ih =>
    have grows := first.grows (nested _ List.mem_cons_self)
    exact grows.trans (ih fun other declared => nested other (List.mem_cons_of_mem _ declared))
  | failed first => exact first.grows (nested _ List.mem_cons_self)

theorem buildWithin_grows (sound : app.schema.Admissible i) (limit : Nat) (w : app.State) :
    w.Grows (app.buildWithin immutable limit i keyPrefix w).2 := by
  induction limit generalizing i keyPrefix w with
  | zero => exact .refl w
  | succ limit ih =>
    have nested : ∀ method ∈ (app.schema.interface i).methods, ∀ j keyPrefix (w : app.State),
        method.returns = .interface j →
          w.Grows (app.buildWithin immutable limit j keyPrefix w).2 := by
      intro method declared j keyPrefix w returns
      have nests : app.schema.Nests i j := ⟨method, declared, returns⟩
      exact ih (sound.of_leadsTo nests.leadsTo) w
    have loads := app.loadSources_grows i w
    have goes := buildWithin_builds (sound.wellDeclared i .refl) immutable limit keyPrefix w
    generalize (app.buildWithin immutable (limit + 1) i keyPrefix w).1 = result at goes
    generalize (app.buildWithin immutable (limit + 1) i keyPrefix w).2 = after at goes ⊢
    cases goes with
    | notLoaded load =>
      rwa [load] at loads
    | notBound load all | built load all =>
      rw [load] at loads
      exact loads.trans ((Session.grows_issue _).trans (all.grows nested))

/-- **Building only adds to a session**, whether or not it succeeds. -/
theorem build_grows (sound : app.schema.Admissible i) (immutable : Bool) (keyPrefix : String)
    (w : app.State) : w.Grows (app.build immutable i keyPrefix w).2 :=
  buildWithin_grows sound app.schema.size w

end Application

/-! ### The maps of a proxy -/

/-- A map that a method of the proxy answers with, or a method of a proxy nested in it. -/
inductive Proxy.Offers {n : Nat} : Proxy n → ProxyMap n → Prop
  | own {p : Proxy n} {binding : Binding n (Proxy n)} {m : ProxyMap n}
      (bound : binding ∈ p.bindings) (answers : binding.resolver = .map m) : Offers p m
  | nested {p child : Proxy n} {binding : Binding n (Proxy n)} {m : ProxyMap n}
      (bound : binding ∈ p.bindings) (answers : binding.resolver = .nested child)
      (within : child.Offers m) : Offers p m

namespace Application

variable {σ : Type} {app : Application σ} {immutable : Bool} {keyPrefix : String}
variable {i : Fin app.schema.size} {w : app.State} {p : app.Bound}
variable {m : ProxyMap app.schema.size}

theorem leadsTo_of_buildWithin {limit : Nat} (sound : app.schema.Admissible i)
    (built : (app.buildWithin immutable limit i keyPrefix w).1 = .ok p) (offers : p.Offers m) :
    app.schema.LeadsTo i m.valueType := by
  induction limit generalizing i keyPrefix w p with
  | zero => cases built
  | succ limit ih =>
    have goes := buildWithin_builds (sound.wellDeclared i .refl) immutable limit keyPrefix w
    rw [built] at goes
    obtain ⟨_, all⟩ := goes.of_ok
    -- a map of the proxy itself is one that a method returns, one of a nested proxy is below it
    cases offers with
    | own bound answers =>
      obtain ⟨method, declared, _, _, binds⟩ := all.of_mem bound
      cases binds with
      | map returns =>
        cases answers
        have maps : app.schema.Maps i _ := ⟨method, declared, returns⟩
        exact maps.leadsTo
      | _ => cases answers
    | nested bound answers within =>
      obtain ⟨method, declared, _, _, binds⟩ := all.of_mem bound
      cases binds with
      | nested returns childBuilt =>
        cases answers
        have nests : app.schema.Nests i _ := ⟨method, declared, returns⟩
        have further := ih (sound.of_leadsTo nests.leadsTo) (congrArg Prod.fst childBuilt) within
        exact nests.leadsTo.trans further
      | _ => cases answers

/-- **A proxy offers maps only of interfaces that its own leads to.** -/
theorem leadsTo_of_build (sound : app.schema.Admissible i)
    (built : (app.build immutable i keyPrefix w).1 = .ok p) (offers : p.Offers m) :
    app.schema.LeadsTo i m.valueType :=
  leadsTo_of_buildWithin sound built offers

/-! ### The limit of the depth -/

theorem buildMethods_congr {child other : Fin app.schema.size → String →
      app.Attempt BindError app.Bound} {methods : List (Method app.schema.size)}
    (agree : ∀ method ∈ methods, ∀ i, method.returns = .interface i → child i = other i)
    (interfaceName : String) (w : app.State) :
    app.buildMethods child immutable interfaceName keyPrefix methods w =
      app.buildMethods other immutable interfaceName keyPrefix methods w := by
  induction methods generalizing w with
  | nil => rfl
  | cons method rest ih =>
    have first : app.buildMethod child immutable keyPrefix method =
        app.buildMethod other immutable keyPrefix method := by
      unfold buildMethod resolve
      cases returns : method.returns with
      | interface i =>
        simp only [resolveNested, agree method List.mem_cons_self i returns]
      | _ => rfl
    have others := ih fun other declared => agree other (List.mem_cons_of_mem _ declared)
    simp only [buildMethods, first, others]

theorem buildWithin_of_nestedBelow_lt {limit more : Nat} (sound : app.schema.Admissible i)
    (deep : (app.schema.nestedBelow i).card < limit) (le : limit ≤ more) :
    app.buildWithin immutable more i = app.buildWithin immutable limit i := by
  induction limit generalizing i more with
  | zero => exact absurd deep (Nat.not_lt_zero _)
  | succ limit ih =>
    obtain ⟨more, rfl⟩ : ∃ fewer, more = fewer + 1 := ⟨more - 1, by omega⟩
    have agree : ∀ method ∈ (app.schema.interface i).methods, ∀ j,
        method.returns = .interface j →
          app.buildWithin immutable more j = app.buildWithin immutable limit j := by
      intro method declared j returns
      have nests : app.schema.Nests i j := ⟨method, declared, returns⟩
      have shallower := Schema.card_nestedBelow_lt nests (sound.acyclic j nests.leadsTo)
      exact ih (sound.of_leadsTo nests.leadsTo) (by omega) (by omega)
    funext keyPrefix w
    simp only [buildWithin, buildMethods_congr agree]

/-- **A greater limit of the depth changes nothing**: neither the result nor the session after. -/
theorem buildWithin_of_size_le (sound : app.schema.Admissible i) {limit : Nat}
    (le : app.schema.size ≤ limit) (immutable : Bool) :
    app.buildWithin immutable limit i = app.build immutable i := by
  have deep := Schema.card_nestedBelow_lt_size (sound.acyclic i .refl)
  funext keyPrefix
  exact congrFun (buildWithin_of_nestedBelow_lt sound deep le) keyPrefix

end Application

end ConfigBinding
