import ConfigBinding.Proofs.Binding.Outcome

/-!
# The instances in a proxy

A proxy comes with others: the proxies that its methods return, the proxies in those, and the maps
of all of them.  Every one has a number of its own, and is reached by a path of methods of its own.

## Main Definitions

* `Resolved.serial?` — the number of a proxy or a map
* `Proxy.Within` — what calls of nested methods, one after the other, lead to from a proxy
* `Numbered` — numbers from a range tell apart what different paths lead to

## Main Statements

* `Application.numbered_of_build` — building a proxy numbers the instances in it

## Design Notes

Building gives out numbers in ascending order, and what is built for one method is finished before
the next method is bound.  The numbers for two methods are therefore from ranges one after the
other, and `Numbered.or` puts two such ranges together.  The numbers of immutable leaves lie in
between and are passed over.
-/

namespace ConfigBinding

/-! ### Paths in a proxy -/

section Paths

variable {n : Nat}

/-- The number of a proxy or of a map.  Values have none. -/
def Resolved.serial? : Resolved n → Option Nat
  | .value _ => none
  | .interface p => some p.serial
  | .map m => some m.serial

/-- **What is within a proxy**, and by which methods it is reached: the proxy itself, the maps of
its methods, and what is within the proxies of its methods. -/
inductive Proxy.Within : Proxy n → List String → Resolved n → Prop
  | self {p : Proxy n} : Within p [] (.interface p)
  | map {p : Proxy n} {binding : Binding n (Proxy n)} {m : ProxyMap n}
      (bound : binding ∈ p.bindings) (answers : binding.resolver = .map m) :
      Within p [binding.method] (.map m)
  | nested {p child : Proxy n} {binding : Binding n (Proxy n)} {path : List String}
      {given : Resolved n} (bound : binding ∈ p.bindings)
      (answers : binding.resolver = .nested child) (inner : Within child path given) :
      Within p (binding.method :: path) given

/-- What is within the answer of a method. -/
def Resolver.Within : Resolver n (Proxy n) → List String → Resolved n → Prop
  | .leaf _, _, _ => False
  | .nested child, path, given => child.Within path given
  | .map m, path, given => path = [] ∧ given = .map m

/-- What is within the answers of several methods. -/
def WithinAny (bindings : List (Binding n (Proxy n))) (path : List String) (given : Resolved n) :
    Prop :=
  ∃ binding ∈ bindings, ∃ rest, path = binding.method :: rest ∧ binding.resolver.Within rest given

variable {p q : Proxy n} {binding : Binding n (Proxy n)} {path : List String} {given : Resolved n}

/-- Within a proxy there are the proxy itself and what its methods answer with. -/
theorem Proxy.Within.self_or (within : p.Within path given) :
    path = [] ∧ given = .interface p ∨ WithinAny p.bindings path given := by
  cases within with
  | self => exact .inl ⟨rfl, rfl⟩
  | map bound answers =>
    refine .inr ⟨_, bound, [], rfl, ?_⟩
    rw [answers]
    exact ⟨rfl, rfl⟩
  | nested bound answers inner =>
    refine .inr ⟨_, bound, _, rfl, ?_⟩
    rw [answers]
    exact inner

/-- A nested method of a proxy within leads on. -/
theorem Proxy.Within.snoc_nested (within : p.Within path (.interface q))
    (bound : binding ∈ q.bindings) {child : Proxy n} (answers : binding.resolver = .nested child) :
    p.Within (path ++ [binding.method]) (.interface child) := by
  generalize last : Resolved.interface q = reached at within
  induction within with
  | self =>
    cases last
    exact .nested bound answers .self
  | map _ _ => cases last
  | nested here answersHere _ ih => exact .nested here answersHere (ih last)

/-- A method of a proxy within that returns a map leads to the map. -/
theorem Proxy.Within.snoc_map (within : p.Within path (.interface q))
    (bound : binding ∈ q.bindings) {m : ProxyMap n} (answers : binding.resolver = .map m) :
    p.Within (path ++ [binding.method]) (.map m) := by
  generalize last : Resolved.interface q = reached at within
  induction within with
  | self =>
    cases last
    exact .map bound answers
  | map _ _ => cases last
  | nested here answersHere _ ih => exact .nested here answersHere (ih last)

end Paths

/-! ### Numbers that tell instances apart -/

/-- **What paths lead to is numbered**: every instance has a number from the range, and instances of
the same number are the same one, which is reached by one path only. -/
structure Numbered {n : Nat} (leads : List String → Resolved n → Prop) (low high : Nat) :
    Prop where
  range : ∀ path given, leads path given →
    ∃ serial, given.serial? = some serial ∧ low ≤ serial ∧ serial < high
  unique : ∀ path given path' given', leads path given → leads path' given' →
    given.serial? = given'.serial? → path = path' ∧ given = given'

namespace Numbered

variable {n low between high : Nat} {leads others : List String → Resolved n → Prop}

theorem of_forall_not (nothing : ∀ path given, ¬ leads path given) (low high : Nat) :
    Numbered leads low high where
  range path given led := absurd led (nothing path given)
  unique path given _ _ led := absurd led (nothing path given)

theorem mono (numbered : Numbered leads low high)
    (included : ∀ path given, others path given → leads path given) : Numbered others low high where
  range path given led := numbered.range path given (included path given led)
  unique path given path' given' led led' :=
    numbered.unique path given path' given' (included path given led) (included path' given' led')

theorem widen (numbered : Numbered leads between high) (le : low ≤ between) :
    Numbered leads low high where
  range path given led := by
    obtain ⟨serial, number, above, below⟩ := numbered.range path given led
    exact ⟨serial, number, le.trans above, below⟩
  unique := numbered.unique

/-- One instance alone. -/
theorem single {serial : Nat} {only : Resolved n} (number : only.serial? = some serial) :
    Numbered (fun path given => path = [] ∧ given = only) serial (serial + 1) where
  range := by
    rintro path given ⟨-, rfl⟩
    exact ⟨serial, number, le_rfl, Nat.lt_succ_self serial⟩
  unique := by
    rintro path given path' given' ⟨rfl, rfl⟩ ⟨rfl, rfl⟩ -
    exact ⟨rfl, rfl⟩

/-- The same instances, one step further away. -/
theorem step (numbered : Numbered leads low high) (name : String) :
    Numbered (fun path given => ∃ rest, path = name :: rest ∧ leads rest given) low high where
  range := by
    rintro path given ⟨rest, -, led⟩
    exact numbered.range rest given led
  unique := by
    rintro path given path' given' ⟨rest, rfl, led⟩ ⟨rest', rfl, led'⟩ same
    obtain ⟨rfl, rfl⟩ := numbered.unique rest given rest' given' led led' same
    exact ⟨rfl, rfl⟩

/-- **Instances from two ranges**, one of which ends where the other begins. -/
theorem or (first : Numbered leads low between) (second : Numbered others between high)
    (le : low ≤ between) (le' : between ≤ high) :
    Numbered (fun path given => leads path given ∨ others path given) low high where
  range := by
    rintro path given (led | led)
    · obtain ⟨serial, number, above, below⟩ := first.range path given led
      exact ⟨serial, number, above, by omega⟩
    · obtain ⟨serial, number, above, below⟩ := second.range path given led
      exact ⟨serial, number, by omega, below⟩
  unique := by
    have apart : ∀ path given path' given', leads path given → others path' given' →
        given.serial? ≠ given'.serial? := by
      intro path given path' given' led led' same
      obtain ⟨serial, number, -, below⟩ := first.range path given led
      obtain ⟨serial', number', above, -⟩ := second.range path' given' led'
      rw [number, number'] at same
      cases same
      omega
    rintro path given path' given' (led | led) (led' | led') same
    · exact first.unique path given path' given' led led' same
    · exact absurd same (apart path given path' given' led led')
    · exact absurd same.symm (apart path' given' path given led' led)
    · exact second.unique path given path' given' led led' same

end Numbered

/-! ### Building -/

namespace Application

variable {σ : Type} {app : Application σ}
variable {child : Fin app.schema.size → String → app.Attempt BindError app.Bound}
variable {immutable : Bool} {keyPrefix interfaceName : String}
variable {method : Method app.schema.size} {methods : List (Method app.schema.size)}
variable {binding : Binding app.schema.size app.Bound}
variable {bindings : List (Binding app.schema.size app.Bound)}
variable {i : Fin app.schema.size} {w after : app.State} {p : app.Bound}

theorem Binds.numbered
    (binds : app.Binds child immutable keyPrefix method w (.ok binding) after)
    (nested : ∀ i keyPrefix (w : app.State) p after, method.returns = .interface i →
      child i keyPrefix w = (.ok p, after) →
        Numbered p.Within w.nextSerial after.nextSerial) :
    Numbered binding.resolver.Within w.nextSerial after.nextSerial := by
  cases binds with
  | kept _ _ _ => exact .of_forall_not (fun _ _ => id) _ _
  | dynamic _ _ _ => exact .of_forall_not (fun _ _ => id) _ _
  | parameterized _ _ _ => exact .of_forall_not (fun _ _ => id) _ _
  | map _ => exact .single rfl
  | nested returns built => exact nested _ _ _ _ _ returns built

/-- The instances of several methods are numbered in the order of the methods. -/
theorem BindsAll.numbered
    (all : app.BindsAll child immutable interfaceName keyPrefix methods w (.ok bindings) after)
    (grows : ∀ method ∈ methods, ∀ i keyPrefix (w : app.State), method.returns = .interface i →
      w.Grows (child i keyPrefix w).2)
    (nested : ∀ method ∈ methods, ∀ i keyPrefix (w : app.State) p after,
      method.returns = .interface i → child i keyPrefix w = (.ok p, after) →
        Numbered p.Within w.nextSerial after.nextSerial) :
    Numbered (WithinAny bindings) w.nextSerial after.nextSerial := by
  generalize outcome : Except.ok bindings = result at all
  induction all generalizing bindings with
  | nil =>
    cases outcome
    refine .of_forall_not ?_ _ _
    rintro path given ⟨binding, bound, -⟩
    cases bound
  | @cons method rest _ binding _ bindings _ first others ih =>
    cases outcome
    have growsLater : ∀ method ∈ rest, ∀ i keyPrefix (w : app.State),
        method.returns = .interface i → w.Grows (child i keyPrefix w).2 :=
      fun method declared => grows method (List.mem_cons_of_mem _ declared)
    have here := first.numbered (nested method List.mem_cons_self)
    have later := ih growsLater
      (fun method declared => nested method (List.mem_cons_of_mem _ declared)) rfl
    have both := (here.step binding.method).or later
      (first.grows (grows method List.mem_cons_self)).nextSerial
      (others.grows growsLater).nextSerial
    refine both.mono ?_
    rintro path given ⟨other, bound, tail, rfl, within⟩
    rcases List.mem_cons.mp bound with rfl | bound
    · exact .inl ⟨tail, rfl, within⟩
    · exact .inr ⟨other, bound, tail, rfl, within⟩
  | restFailed _ _ _ => cases outcome
  | failed _ => cases outcome

theorem numbered_of_buildWithin {limit : Nat} (sound : app.schema.Admissible i)
    (built : app.buildWithin immutable limit i keyPrefix w = (.ok p, after)) :
    Numbered p.Within w.nextSerial after.nextSerial := by
  induction limit generalizing i keyPrefix w p after with
  | zero => cases built
  | succ limit ih =>
    have soundBelow : ∀ method ∈ (app.schema.interface i).methods, ∀ j,
        method.returns = .interface j → app.schema.Admissible j := by
      intro method declared j returns
      have nests : app.schema.Nests i j := ⟨method, declared, returns⟩
      exact sound.of_leadsTo nests.leadsTo
    have grows : ∀ method ∈ (app.schema.interface i).methods, ∀ j keyPrefix (w : app.State),
        method.returns = .interface j →
          w.Grows (app.buildWithin immutable limit j keyPrefix w).2 :=
      fun method declared j keyPrefix w returns =>
        buildWithin_grows (soundBelow method declared j returns) limit w
    have goes := buildWithin_builds (sound.wellDeclared i .refl) immutable limit keyPrefix w
    have loads := app.loadSources_grows i w
    rw [built] at goes
    cases goes with
    | @built loaded bindings _ load all =>
      rw [load] at loads
      have inside := all.numbered grows fun method declared j keyPrefix w p after returns inner =>
        ih (soundBelow method declared j returns) inner
      -- the proxy takes its own number before any of its methods is bound
      have own : Numbered (fun path given => path = [] ∧ given = Resolved.interface
          (⟨loaded.nextSerial, i, app.schema.name i, keyPrefix, bindings⟩ : app.Bound))
          loaded.nextSerial (loaded.nextSerial + 1) := .single rfl
      have both := own.or inside (Nat.le_succ _) (all.grows grows).nextSerial
      exact (both.widen loads.nextSerial).mono fun path given within => within.self_or

/-- **Building a proxy numbers the instances in it**, with numbers that were not given out
before. -/
theorem numbered_of_build (sound : app.schema.Admissible i)
    (built : app.build immutable i keyPrefix w = (.ok p, after)) :
    Numbered p.Within w.nextSerial after.nextSerial :=
  numbered_of_buildWithin sound built

end Application

end ConfigBinding
