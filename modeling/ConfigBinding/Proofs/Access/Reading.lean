import ConfigBinding.Proofs.Binding.Leaves

/-!
# What calls leave behind

Calling a method, and showing a proxy as text, reads the session.  All that it may change is that an
immutable leaf keeps a value from then on, and what was kept before is never replaced.

## Main Definitions

* `Session.OnlyKeeps` — a session is as before, but for values that are newly kept
* `Session.Pins` — what is newly kept are the values of properties, by leaves of a list

## Main Statements

* `Leaf.kept_read` — what is kept after a leaf is read
* `Application.summary_pins`, `Application.invoke_pins` — summaries and calls pin leaves of the
  proxy
* `Application.summary_onlyKeeps`, `Application.invoke_onlyKeeps` — and change nothing else
* `Application.behind_of_invoke` — what a call answers with
-/

namespace ConfigBinding

/-! ### Leaves of a list -/

namespace LeafSite

variable {sites others : List LeafSite}

/-- Every leaf of the first list is one of the second, wherever it is seen from. -/
def Among (sites others : List LeafSite) : Prop :=
  ∀ site ∈ sites, ∃ other ∈ others, other.leaf = site.leaf

theorem Among.of_subset (subset : sites ⊆ others) : Among sites others :=
  fun site listed => ⟨site, subset listed, rfl⟩

theorem among_append_left (sites others : List LeafSite) : Among sites (sites ++ others) :=
  .of_subset (List.subset_append_left sites others)

theorem among_append_right (sites others : List LeafSite) : Among others (sites ++ others) :=
  .of_subset (List.subset_append_right sites others)

/-- From a proxy around them, the same leaves are seen. -/
theorem among_under (name : String) (sites : List LeafSite) :
    Among sites (sites.map (.under name)) :=
  fun site listed => ⟨site.under name, List.mem_map_of_mem listed, rfl⟩

end LeafSite

/-! ### Sessions that differ in kept values -/

namespace Session

variable {n : Nat} {σ : Type} {w between after : Session n σ}

/-- The second session is the first one, where more leaves may keep a value. -/
structure OnlyKeeps (w after : Session n σ) : Prop where
  store : after.store = w.store
  loader : after.loader = w.loader
  nextSerial : after.nextSerial = w.nextSerial
  entries : after.entries = w.entries
  kept : ∀ serial value, w.kept serial = some value → after.kept serial = some value

theorem OnlyKeeps.refl (w : Session n σ) : w.OnlyKeeps w :=
  ⟨rfl, rfl, rfl, rfl, fun _ _ kept => kept⟩

theorem OnlyKeeps.trans (first : w.OnlyKeeps between) (second : between.OnlyKeeps after) :
    w.OnlyKeeps after where
  store := second.store.trans first.store
  loader := second.loader.trans first.loader
  nextSerial := second.nextSerial.trans first.nextSerial
  entries := second.entries.trans first.entries
  kept := fun serial value kept => second.kept serial value (first.kept serial value kept)

/-- A leaf that keeps nothing yet may keep a value. -/
theorem onlyKeeps_keep {serial : Nat} (free : w.kept serial = none) (value : Value) :
    w.OnlyKeeps (w.keep serial value) := by
  refine ⟨rfl, rfl, rfl, rfl, fun other found kept => ?_⟩
  have differs : other ≠ serial := by
    rintro rfl
    rw [free] at kept
    cases kept
  show (if other = serial then some value else w.kept other) = some found
  rw [if_neg differs, kept]

/-- **Leaves are pinned**: a session is as before, but that leaves of a list which kept nothing may
keep a value, the one that their property has in the store. -/
structure Pins (decoder : Decoder) (sites : List LeafSite) (w after : Session n σ) : Prop
    extends w.OnlyKeeps after where
  pinned : ∀ serial value, w.kept serial = none → after.kept serial = some value →
    ∃ site ∈ sites, ∃ property, site.leaf = .immutable property serial ∧
      property.read decoder w.store = .ok value

variable {decoder : Decoder} {sites others : List LeafSite}

theorem Pins.refl (decoder : Decoder) (sites : List LeafSite) (w : Session n σ) :
    w.Pins decoder sites w where
  toOnlyKeeps := .refl w
  pinned serial value free kept := by
    rw [free] at kept
    cases kept

/-- Leaves that are pinned one after the other are read in the same store. -/
theorem Pins.trans (first : w.Pins decoder sites between)
    (second : between.Pins decoder sites after) : w.Pins decoder sites after where
  toOnlyKeeps := first.toOnlyKeeps.trans second.toOnlyKeeps
  pinned serial value free kept := by
    cases amid : between.kept serial with
    | some found =>
      have same := second.kept serial found amid
      obtain rfl : found = value := Option.some.inj (same.symm.trans kept)
      exact first.pinned serial found free amid
    | none =>
      rw [← first.store]
      exact second.pinned serial value amid kept

theorem Pins.mono (pins : w.Pins decoder sites after) (among : LeafSite.Among sites others) :
    w.Pins decoder others after where
  toOnlyKeeps := pins.toOnlyKeeps
  pinned serial value free kept := by
    obtain ⟨site, listed, property, isLeaf, read⟩ := pins.pinned serial value free kept
    obtain ⟨other, listed', same⟩ := among site listed
    exact ⟨other, listed', property, same.trans isLeaf, read⟩

end Session

/-! ### Reading a leaf -/

namespace Leaf

variable {n : Nat} {σ : Type} {decoder : Decoder} {arguments : List String} {w : Session n σ}
variable {property : Property} {serial : Nat} {value : Value}

theorem read_onlyKeeps (decoder : Decoder) (arguments : List String) (leaf : Leaf)
    (w : Session n σ) : w.OnlyKeeps (leaf.read decoder arguments w).2 := by
  cases leaf with
  | dynamic property => exact .refl w
  | immutable property serial =>
    unfold read
    cases kept : w.kept serial with
    | some value => simpa only [kept] using .refl w
    | none =>
      cases answer : property.read decoder w.store with
      | error e => simpa only [kept, answer] using .refl w
      | ok value => simpa only [kept, answer] using Session.onlyKeeps_keep kept value
  | parameterized template kind default? =>
    unfold read
    cases key : Template.substitute template arguments with
    | error e => simpa only [key] using .refl w
    | ok key' => simpa only [key] using .refl w

/-- A leaf that keeps a value answers with it. -/
theorem read_of_kept (kept : w.kept serial = some value) :
    ((immutable property serial).read decoder arguments w).1 = .ok value := by
  rw [read, kept]

/-- A leaf that keeps no value yet answers as one that never does. -/
theorem read_of_not_kept (free : w.kept serial = none) :
    ((immutable property serial).read decoder arguments w).1 =
      ((dynamic property).read decoder arguments w).1 := by
  simp only [read, free]
  cases property.read decoder w.store <;> rfl

/-- **What is kept after a leaf is read**: what was kept before, and what the leaf has answered if
it keeps values. -/
theorem kept_read (decoder : Decoder) (arguments : List String) (leaf : Leaf) (w : Session n σ)
    (serial : Nat) (value : Value) :
    (leaf.read decoder arguments w).2.kept serial = some value ↔
      w.kept serial = some value ∨
        leaf.serial? = some serial ∧ (leaf.read decoder arguments w).1 = .ok value := by
  cases leaf with
  | dynamic property => simp [read, serial?]
  | parameterized template kind default? =>
    rw [read]
    cases Template.substitute template arguments <;> simp [serial?]
  | immutable property own =>
    rw [read, serial?, Option.some_inj]
    cases kept : w.kept own with
    | some found =>
      constructor
      · exact .inl
      · rintro (before | ⟨rfl, answer⟩)
        · exact before
        · rw [kept, Except.ok.inj answer]
    | none =>
      cases property.read decoder w.store with
      | error e => simp
      | ok found =>
        show (if serial = own then some found else w.kept serial) = some value ↔ _
        by_cases here : serial = own
        · subst here
          simp [kept]
        · simp [here, Ne.symm here]

/-- A leaf reads the value of its property. -/
theorem read_dynamic_eq_ok_iff :
    ((dynamic property).read decoder arguments w).1 = .ok value ↔
      property.read decoder w.store = .ok value := by
  rw [read]
  cases property.read decoder w.store <;> simp [Except.mapError]

/-- **Reading a leaf** pins no other leaf. -/
theorem read_pins (decoder : Decoder) (arguments : List String) (path : List String)
    (name : String) (leaf : Leaf) (w : Session n σ) :
    w.Pins decoder [⟨path, name, leaf⟩] (leaf.read decoder arguments w).2 where
  toOnlyKeeps := leaf.read_onlyKeeps decoder arguments w
  pinned serial value free kept := by
    refine ⟨_, List.mem_singleton_self _, ?_⟩
    rcases (kept_read decoder arguments leaf w serial value).mp kept with before | ⟨own, answer⟩
    · rw [free] at before
      cases before
    · cases leaf with
      | immutable property number =>
        obtain rfl := Option.some.inj own
        rw [read_of_not_kept free, read_dynamic_eq_ok_iff] at answer
        exact ⟨property, rfl, answer⟩
      | _ => cases own

end Leaf

namespace Application

variable {σ : Type} (app : Application σ)

/-! ### Summaries -/

mutual

/-- **Showing a proxy as text** pins leaves of the proxy, and of the proxies nested in it. -/
theorem summary_pins : ∀ (p : app.Bound) (w : app.State),
    w.Pins app.decoder p.leaves (app.summary p w).2
  | ⟨_, _, _, keyPrefix, bindings⟩, w => by
    rw [Proxy.leaves]
    exact fieldTexts_pins keyPrefix bindings w

theorem fieldTexts_pins (keyPrefix : String) :
    ∀ (bindings : List (Binding app.schema.size app.Bound)) (w : app.State),
      w.Pins app.decoder (leavesOf bindings) (app.fieldTexts keyPrefix bindings w).2
  | [], w => .refl _ _ w
  | binding :: rest, w => by
    have here := bindingText_pins keyPrefix binding w
    have others := fieldTexts_pins keyPrefix rest (app.bindingText keyPrefix binding w).2
    rw [leavesOf, fieldTexts]
    exact (here.mono (LeafSite.among_append_left _ _)).trans
      (others.mono (LeafSite.among_append_right _ _))

theorem bindingText_pins (keyPrefix : String) :
    ∀ (binding : Binding app.schema.size app.Bound) (w : app.State),
      w.Pins app.decoder (leavesAt binding) (app.bindingText keyPrefix binding w).2
  | ⟨method, _, _, resolver⟩, w => by
    rw [leavesAt]
    exact resolverText_pins method resolver w

theorem resolverText_pins (name : String) :
    ∀ (resolver : Resolver app.schema.size app.Bound) (w : app.State),
      w.Pins app.decoder (leavesBehind name resolver) (app.resolverText resolver w).2
  | .leaf leaf, w => by
    rw [leavesBehind]
    exact leaf.read_pins app.decoder [] [] name w
  | .nested child, w => by
    rw [leavesBehind]
    exact (summary_pins child w).mono (LeafSite.among_under name _)
  | .map _, w => .refl _ _ w

end

/-- Showing a proxy as text changes a session in no other way. -/
theorem summary_onlyKeeps (p : app.Bound) (w : app.State) : w.OnlyKeeps (app.summary p w).2 :=
  (app.summary_pins p w).toOnlyKeeps

/-! ### Calls -/

variable {app}

/-- **A call of a method that the proxy has** pins no leaf but that of the method. -/
theorem answer_pins (arguments : List String) (name : String)
    (resolver : Resolver app.schema.size app.Bound) (w : app.State) :
    w.Pins app.decoder (leavesBehind name resolver) (app.answer arguments resolver w).2 := by
  cases resolver with
  | leaf leaf =>
    rw [leavesBehind]
    exact leaf.read_pins app.decoder arguments [] name w
  | nested child => exact .refl _ _ w
  | map m => exact .refl _ _ w

theorem invoke_pins_of_binding {p : app.Bound} {method : String}
    {binding : Binding app.schema.size app.Bound} (found : p.binding? method = some binding)
    (arguments : List String) (w : app.State) :
    w.Pins app.decoder (leavesAt binding) (app.invoke p method arguments w).2 := by
  rw [invoke, found, leavesAt_eq]
  exact answer_pins arguments binding.method binding.resolver w

/-- **A call** pins leaves of the proxy, and of the proxies nested in it, whether or not it
succeeds. -/
theorem invoke_pins (p : app.Bound) (method : String) (arguments : List String) (w : app.State) :
    w.Pins app.decoder p.leaves (app.invoke p method arguments w).2 := by
  cases found : p.binding? method with
  | some binding =>
    refine (invoke_pins_of_binding found arguments w).mono (.of_subset fun site listed => ?_)
    rw [Proxy.leaves_eq]
    exact mem_leavesOf (List.mem_of_find?_eq_some found) listed
  | none =>
    unfold invoke
    by_cases shown : method = summaryMethod
    · simpa only [found, if_pos shown] using app.summary_pins p w
    · simpa only [found, if_neg shown] using .refl _ _ w

/-- A call changes a session in no other way. -/
theorem invoke_onlyKeeps (p : app.Bound) (method : String) (arguments : List String)
    (w : app.State) : w.OnlyKeeps (app.invoke p method arguments w).2 :=
  (invoke_pins p method arguments w).toOnlyKeeps

/-- **A call that succeeds** answers with a value, or with what is behind the method. -/
theorem behind_of_invoke {p : app.Bound} {method : String} {arguments : List String}
    {w : app.State} {given : Resolved app.schema.size}
    (called : (app.invoke p method arguments w).1 = .ok given) :
    (∃ value, given = .value value) ∨
      ∃ binding ∈ p.bindings, binding.method = method ∧
        ((∃ child, binding.resolver = .nested child ∧ given = .interface child) ∨
          ∃ m, binding.resolver = .map m ∧ given = .map m) := by
  unfold invoke at called
  cases found : p.binding? method with
  | none =>
    simp only [found] at called
    split at called
    · cases called
      exact .inl ⟨_, rfl⟩
    · cases called
  | some binding =>
    have bound : binding ∈ p.bindings := List.mem_of_find?_eq_some found
    have named : binding.method = method := by simpa using List.find?_some found
    simp only [found] at called
    cases answers : binding.resolver with
    | leaf leaf =>
      rw [answers] at called
      cases read : (leaf.read app.decoder arguments w).1 with
      | error e => simp [answer, read, Except.map] at called
      | ok value =>
        refine .inl ⟨value, ?_⟩
        simpa [answer, read, Except.map] using called.symm
    | nested child =>
      rw [answers] at called
      cases called
      exact .inr ⟨binding, bound, named, .inl ⟨child, answers, rfl⟩⟩
    | map m =>
      rw [answers] at called
      cases called
      exact .inr ⟨binding, bound, named, .inr ⟨m, answers, rfl⟩⟩

end Application

end ConfigBinding
