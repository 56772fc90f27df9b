import ConfigBinding.Proofs.Binding.Description
import ConfigBinding.Proofs.Binding.Instances

/-!
# The leaves of a proxy

Methods that return values are the leaves of a proxy and of the proxies nested in it.  A leaf that
keeps its value keeps it under a number, and no two leaves of a proxy share one.

## Main Definitions

* `Method.Leaves` — which leaf a method has, by its declaration, the prefix and the flag
* `LeafSite`, `Proxy.leaves` — the leaves of a proxy, those of nested proxies among them
* `Ascends` — numbers from a range, in ascending order

## Main Statements

* `Application.Built.leaf_of_value` — a method that returns a value has the leaf of its declaration
* `Application.ascends_of_build` — building a proxy numbers its leaves in order
* `Ascends.site_eq` — leaves of one number are the same one, at the same place

## Design Notes

The numbers of proxies and maps were looked at before, as properties of what paths lead to.  The
leaves are listed instead, in the order of the methods, and their numbers are in ascending order as
they stand in the list.
-/

namespace ConfigBinding

/-! ### Leaves as declared -/

/-- **The leaf of a method**, by what the method returns, its parameters and the flag.  A leaf for a
method without parameters reads the property under the key of the method; any other makes its key of
the template alone, and the prefix has no part in it. -/
inductive Method.Leaves {n : Nat} (immutable : Bool) (keyPrefix : String) (method : Method n) :
    Kind → Leaf → Prop
  | kept {kind : Kind} {serial : Nat} (plain : method.params = 0) (keeps : immutable = true) :
      Leaves immutable keyPrefix method kind
        (.immutable (method.propertyUnder keyPrefix kind) serial)
  | dynamic {kind : Kind} (plain : method.params = 0) (forgets : immutable = false) :
      Leaves immutable keyPrefix method kind (.dynamic (method.propertyUnder keyPrefix kind))
  | parameterized {kind : Kind} {template : String} (parameters : method.params ≠ 0)
      (named : method.propertyName? = some template) :
      Leaves immutable keyPrefix method kind (.parameterized template kind method.default?)

/-! ### The leaves of a proxy -/

section Sites

variable {n : Nat}

/-- The number under which a leaf keeps its value.  Only immutable leaves keep one. -/
def Leaf.serial? : Leaf → Option Nat
  | .immutable _ serial => some serial
  | _ => none

/-- A leaf, and where it is: the methods that lead to the proxy, and the method of the leaf. -/
structure LeafSite where
  path : List String
  method : String
  leaf : Leaf

/-- The place of a leaf as it is seen from a proxy around it. -/
def LeafSite.under (name : String) (site : LeafSite) : LeafSite :=
  { site with path := name :: site.path }

/-- Two leaves have no number in common. -/
def LeafSite.Apart (site other : LeafSite) : Prop :=
  ∀ serial, site.leaf.serial? = some serial → other.leaf.serial? ≠ some serial

instance : Std.Symm LeafSite.Apart :=
  ⟨fun _ _ apart serial number number' => apart serial number' number⟩

mutual

/-- **The leaves of a proxy**, in the order of its methods and together with those of the proxies
that are nested in it. -/
def Proxy.leaves : Proxy n → List LeafSite
  | ⟨_, _, _, _, bindings⟩ => leavesOf bindings

/-- The leaves of several methods. -/
def leavesOf : List (Binding n (Proxy n)) → List LeafSite
  | [] => []
  | binding :: rest => leavesAt binding ++ leavesOf rest

/-- The leaf of a method, or the leaves behind it. -/
def leavesAt : Binding n (Proxy n) → List LeafSite
  | ⟨method, _, _, resolver⟩ => leavesBehind method resolver

/-- The leaves that a method of a name leads to. -/
def leavesBehind (name : String) : Resolver n (Proxy n) → List LeafSite
  | .leaf leaf => [⟨[], name, leaf⟩]
  | .nested child => child.leaves.map (.under name)
  | .map _ => []

end

/-- The numbers of leaves. -/
def leafSerials (sites : List LeafSite) : List Nat :=
  sites.filterMap (·.leaf.serial?)

variable {p q : Proxy n} {binding : Binding n (Proxy n)} {bindings : List (Binding n (Proxy n))}
variable {site : LeafSite} {sites others : List LeafSite} {path : List String} {leaf : Leaf}

theorem Proxy.leaves_eq (p : Proxy n) : p.leaves = leavesOf p.bindings := by
  obtain ⟨_, _, _, _, bindings⟩ := p
  rw [Proxy.leaves]

theorem leavesAt_eq (binding : Binding n (Proxy n)) :
    leavesAt binding = leavesBehind binding.method binding.resolver := by
  obtain ⟨_, _, _, resolver⟩ := binding
  rw [leavesAt]

theorem mem_leavesOf (bound : binding ∈ bindings) (at' : site ∈ leavesAt binding) :
    site ∈ leavesOf bindings := by
  induction bindings with
  | nil => cases bound
  | cons first rest ih =>
    rw [leavesOf, List.mem_append]
    rcases List.mem_cons.mp bound with rfl | later
    · exact .inl at'
    · exact .inr (ih later)

/-- A leaf of a proxy within is one of the leaves. -/
theorem Proxy.Within.mem_leaves (within : p.Within path (.interface q))
    (bound : binding ∈ q.bindings) (answers : binding.resolver = .leaf leaf) :
    ⟨path, binding.method, leaf⟩ ∈ p.leaves := by
  generalize last : Resolved.interface q = reached at within
  induction within with
  | self =>
    cases last
    rw [Proxy.leaves_eq]
    apply mem_leavesOf bound
    rw [leavesAt_eq, answers, leavesBehind]
    exact List.mem_singleton_self _
  | map _ _ => cases last
  | nested here answersHere _ ih =>
    rw [Proxy.leaves_eq]
    apply mem_leavesOf here
    rw [leavesAt_eq, answersHere, leavesBehind]
    exact List.mem_map.mpr ⟨_, ih last, rfl⟩

theorem leafSerials_append (sites others : List LeafSite) :
    leafSerials (sites ++ others) = leafSerials sites ++ leafSerials others :=
  List.filterMap_append

/-- Seen from a proxy around them, leaves have the numbers that they have. -/
theorem leafSerials_under (name : String) (sites : List LeafSite) :
    leafSerials (sites.map (.under name)) = leafSerials sites := by
  rw [leafSerials, List.filterMap_map]
  rfl

end Sites

/-! ### Ascending numbers -/

/-- **Numbers in ascending order**, all of them from a range. -/
structure Ascends (numbers : List Nat) (low high : Nat) : Prop where
  ascending : numbers.Pairwise (· < ·)
  range : ∀ number ∈ numbers, low ≤ number ∧ number < high

namespace Ascends

variable {numbers others : List Nat} {low between high : Nat}

theorem nil (low high : Nat) : Ascends [] low high :=
  ⟨.nil, nofun⟩

theorem single (number : Nat) : Ascends [number] number (number + 1) where
  ascending := List.pairwise_singleton _ _
  range := by simp

theorem widen (ascends : Ascends numbers between high) (le : low ≤ between) :
    Ascends numbers low high where
  ascending := ascends.ascending
  range number listed := by
    obtain ⟨above, below⟩ := ascends.range number listed
    exact ⟨le.trans above, below⟩

/-- Numbers from two ranges, one of which ends where the other begins. -/
theorem append (first : Ascends numbers low between) (second : Ascends others between high)
    (le : low ≤ between) (le' : between ≤ high) : Ascends (numbers ++ others) low high where
  ascending := by
    rw [List.pairwise_append]
    refine ⟨first.ascending, second.ascending, fun number listed other listed' => ?_⟩
    obtain ⟨-, below⟩ := first.range number listed
    obtain ⟨above, -⟩ := second.range other listed'
    omega
  range number listed := by
    rcases List.mem_append.mp listed with here | there
    · obtain ⟨above, below⟩ := first.range number here
      exact ⟨above, by omega⟩
    · obtain ⟨above, below⟩ := second.range number there
      exact ⟨by omega, below⟩

/-- **Leaves of one number are the same one**, at the same place. -/
theorem site_eq {sites : List LeafSite} (ascends : Ascends (leafSerials sites) low high)
    {site other : LeafSite} (listed : site ∈ sites) (listed' : other ∈ sites) {serial : Nat}
    (number : site.leaf.serial? = some serial) (number' : other.leaf.serial? = some serial) :
    site = other := by
  by_contra differ
  have apart : sites.Pairwise LeafSite.Apart :=
    (List.pairwise_filterMap.mp ascends.ascending).imp fun less s own own' =>
      absurd (less s own s own') (lt_irrefl s)
  exact apart.forall listed listed' differ serial number number'

end Ascends

/-! ### Building -/

namespace Application

variable {σ : Type} {app : Application σ}
variable {child : Fin app.schema.size → String → app.Attempt BindError app.Bound}
variable {immutable : Bool} {keyPrefix interfaceName : String}
variable {method : Method app.schema.size} {methods : List (Method app.schema.size)}
variable {binding : Binding app.schema.size app.Bound}
variable {bindings : List (Binding app.schema.size app.Bound)}
variable {i : Fin app.schema.size} {w after : app.State} {p : app.Bound}

theorem Binds.leaf_of_value
    (binds : app.Binds child immutable keyPrefix method w (.ok binding) after) {kind : Kind}
    (returns : method.returns = .value kind) :
    ∃ leaf, binding.resolver = .leaf leaf ∧ method.Leaves immutable keyPrefix kind leaf := by
  cases binds with
  | kept returnsHere plain keeps =>
    cases Returns.value.inj (returnsHere.symm.trans returns)
    exact ⟨_, rfl, .kept plain keeps⟩
  | dynamic returnsHere plain forgets =>
    cases Returns.value.inj (returnsHere.symm.trans returns)
    exact ⟨_, rfl, .dynamic plain forgets⟩
  | parameterized returnsHere parameters named =>
    cases Returns.value.inj (returnsHere.symm.trans returns)
    exact ⟨_, rfl, .parameterized parameters named⟩
  | map returnsHere | nested returnsHere _ => cases returnsHere.symm.trans returns

/-- **Every binding is that of a method**, and if the method returns a value, it has the leaf of the
method. -/
theorem Built.leaf_of_value (built : app.Built immutable p) (bound : binding ∈ p.bindings) :
    ∃ method ∈ (app.schema.interface p.type).methods, method.name = binding.method ∧
      ∀ kind, method.returns = .value kind →
        ∃ leaf, binding.resolver = .leaf leaf ∧ method.Leaves immutable p.keyPrefix kind leaf := by
  obtain ⟨child, _, _, _, all, nested⟩ := built.bindsAll
  obtain ⟨method, declared, before, between, binds⟩ := all.of_mem bound
  refine ⟨method, declared, ?_, fun kind returns => binds.leaf_of_value returns⟩
  cases binds <;> rfl

/-- A method that returns a value is found under its name, and has the leaf of its declaration. -/
theorem Built.exists_leaf (built : app.Built immutable p)
    (declared : method ∈ (app.schema.interface p.type).methods) {kind : Kind}
    (returns : method.returns = .value kind) :
    ∃ binding leaf, p.binding? method.name = some binding ∧ binding.resolver = .leaf leaf ∧
      method.Leaves immutable p.keyPrefix kind leaf := by
  obtain ⟨child, _, _, _, all, -⟩ := built.bindsAll
  have each := all.forall₂ (R := fun method binding => binding.method = method.name ∧
      ∀ kind, method.returns = .value kind →
        ∃ leaf, binding.resolver = .leaf leaf ∧ method.Leaves immutable p.keyPrefix kind leaf)
    fun method _ before binding between binds =>
      ⟨by cases binds <;> rfl, fun kind returns => binds.leaf_of_value returns⟩
  obtain ⟨binding, bound, named, leaves⟩ := exists_of_mem_forall₂ each declared
  obtain ⟨leaf, answers, isLeaf⟩ := leaves kind returns
  refine ⟨binding, leaf, ?_, answers, isLeaf⟩
  rw [← named, built.binding?_eq bound]

theorem Binds.ascends
    (binds : app.Binds child immutable keyPrefix method w (.ok binding) after)
    (nested : ∀ i keyPrefix (w : app.State) p after, method.returns = .interface i →
      child i keyPrefix w = (.ok p, after) →
        Ascends (leafSerials p.leaves) w.nextSerial after.nextSerial) :
    Ascends (leafSerials (leavesAt binding)) w.nextSerial after.nextSerial := by
  rw [leavesAt_eq]
  cases binds with
  | kept _ _ _ => exact .single _
  | dynamic _ _ _ => exact .nil _ _
  | parameterized _ _ _ => exact .nil _ _
  | map _ => exact .nil _ _
  | nested returns built =>
    rw [leavesBehind, leafSerials_under]
    exact nested _ _ _ _ _ returns built

/-- The leaves of several methods are numbered in the order of the methods. -/
theorem BindsAll.ascends
    (all : app.BindsAll child immutable interfaceName keyPrefix methods w (.ok bindings) after)
    (grows : ∀ method ∈ methods, ∀ i keyPrefix (w : app.State), method.returns = .interface i →
      w.Grows (child i keyPrefix w).2)
    (nested : ∀ method ∈ methods, ∀ i keyPrefix (w : app.State) p after,
      method.returns = .interface i → child i keyPrefix w = (.ok p, after) →
        Ascends (leafSerials p.leaves) w.nextSerial after.nextSerial) :
    Ascends (leafSerials (leavesOf bindings)) w.nextSerial after.nextSerial := by
  generalize outcome : Except.ok bindings = result at all
  induction all generalizing bindings with
  | nil =>
    cases outcome
    exact .nil _ _
  | @cons method rest _ binding _ bindings _ first others ih =>
    cases outcome
    have growsLater : ∀ method ∈ rest, ∀ i keyPrefix (w : app.State),
        method.returns = .interface i → w.Grows (child i keyPrefix w).2 :=
      fun method declared => grows method (List.mem_cons_of_mem _ declared)
    have here := first.ascends (nested method List.mem_cons_self)
    have later := ih growsLater
      (fun method declared => nested method (List.mem_cons_of_mem _ declared)) rfl
    rw [leavesOf, leafSerials_append]
    exact here.append later (first.grows (grows method List.mem_cons_self)).nextSerial
      (others.grows growsLater).nextSerial
  | restFailed _ _ _ => cases outcome
  | failed _ => cases outcome

theorem ascends_of_buildWithin {limit : Nat} (sound : app.schema.Admissible i)
    (built : app.buildWithin immutable limit i keyPrefix w = (.ok p, after)) :
    Ascends (leafSerials p.leaves) w.nextSerial after.nextSerial := by
  induction limit generalizing i keyPrefix w p after with
  | zero => cases built
  | succ limit ih =>
    have soundBelow : ∀ method ∈ (app.schema.interface i).methods, ∀ j,
        method.returns = .interface j → app.schema.Admissible j := by
      intro method declared j returns
      have nests : app.schema.Nests i j := ⟨method, declared, returns⟩
      exact sound.of_leadsTo nests.leadsTo
    have goes := buildWithin_builds (sound.wellDeclared i .refl) immutable limit keyPrefix w
    have loads := app.loadSources_grows i w
    rw [built] at goes
    cases goes with
    | @built loaded bindings _ load all =>
      rw [load] at loads
      rw [Proxy.leaves_eq]
      have inside := all.ascends
        (fun method declared j keyPrefix w returns =>
          buildWithin_grows (soundBelow method declared j returns) limit w)
        (fun method declared j keyPrefix w p after returns inner =>
          ih (soundBelow method declared j returns) inner)
      -- the proxy has taken a number of its own before
      exact inside.widen (loads.nextSerial.trans (Nat.le_succ _))

/-- **Building a proxy numbers its leaves in order**, with numbers that were not given out
before. -/
theorem ascends_of_build (sound : app.schema.Admissible i)
    (built : app.build immutable i keyPrefix w = (.ok p, after)) :
    Ascends (leafSerials p.leaves) w.nextSerial after.nextSerial :=
  ascends_of_buildWithin sound built

end Application

end ConfigBinding
