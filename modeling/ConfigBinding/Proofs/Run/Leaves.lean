import ConfigBinding.Proofs.Binding.Leaves
import ConfigBinding.Proofs.Run.Requests

/-!
# Leaves within reach

All that a client can get at has leaves, and those that keep values have numbers.  However a run
goes, a number stands for one method of one proxy.

## Main Definitions

* `Client.Extends` — what is within reach has grown by one proxy at most
* `Client.HasLeaf` — a method of a proxy within reach answers with a leaf
* `Client.LeavesApart` — leaves of one number are the same one

## Main Statements

* `Client.Coherent.act_extends` — an action puts one new proxy within reach at most
* `Client.LeavesApart.act`, `Client.run_leavesApart` — steps and runs preserve that leaves are apart

## Design Notes

Numbers of leaves are given out together with those of proxies and maps.  A new proxy therefore
comes with leaves that have new numbers, and within the proxy they differ as they were built.
-/

namespace ConfigBinding

variable {σ : Type} {app : Application σ}

namespace Client

variable {c c' : Client app} {asked : List (Request app.schema.size)} {origin base : Origin}
variable {given : Resolved app.schema.size} {p : app.Bound} {path : List String}

/-! ### What is within reach -/

/-- What is within a proxy within reach is within reach as well. -/
theorem Located.within (located : c.Located origin (.interface p)) (within : p.Within path given) :
    c.Located (origin.follow path) given := by
  induction within generalizing origin with
  | self =>
    rw [Origin.follow_nil]
    exact located
  | map bound answers => exact .step located (.map bound answers)
  | nested bound answers _ ih =>
    have inner := ih (.step located (.nested bound answers))
    rw [Origin.follow_cons]
    exact inner

/-- What is within reach stays there. -/
theorem Located.act (located : c.Located origin given) (sound : c.Sound)
    (action : Action app.schema.size σ) : (c.act action).Located origin given := by
  apply located.mono
  · intro b p root
    exact (held_prefix_act c action).subset root
  · intro serial key p found
    exact found_act sound action found

theorem Located.run (located : c.Located origin given) (sound : c.Sound)
    (actions : List (Action app.schema.size σ)) : (c.run actions).Located origin given := by
  induction actions generalizing c with
  | nil => exact located
  | cons action rest ih => exact ih (located.act sound action) (sound.act action)

/-- Taking a result that lies further on puts nothing new within reach. -/
theorem located_of_take {ε : Type} {hop : Hop} {outcome : Except ε (Resolved app.schema.size)}
    {after : app.State} (entries : after.entries = c.session.entries)
    (located : (c.take (base.step hop) outcome after).Located origin given) :
    c.Located origin given := by
  apply located.mono
  · intro b p root
    cases outcome with
    | error e => exact root
    | ok result =>
      rcases List.mem_append.mp root with before | new
      · exact before
      · have at' := congrArg Holding.origin (List.mem_singleton.mp new)
        exact absurd at'.symm Origin.step_ne_bound
  · intro serial key p found
    rwa [take_session, entries] at found

/-- **How what is within reach may grow**: not at all, or by one proxy that was just built and whose
leaves have new numbers. -/
inductive Extends (c c' : Client app) : Prop
  | stays (further : c.session.nextSerial ≤ c'.session.nextSerial)
      (back : ∀ origin given, c'.Located origin given → c.Located origin given) : Extends c c'
  | attaches (base : Origin) (p : app.Bound) (attaches : c.Attaches c' base p)
      (ascends : Ascends (leafSerials p.leaves) c.session.nextSerial c'.session.nextSerial) :
      Extends c c'

theorem Coherent.bind_extends (coherent : c.Coherent asked) (i : Fin app.schema.size)
    (keyPrefix? : Option String) (immutable? : Option Bool) :
    c.Extends (c.act (.bind i keyPrefix? immutable?)) := by
  have grows := Application.bind_grows i keyPrefix? immutable? c.session
  rw [Client.act]
  cases bound : app.bind i keyPrefix? immutable? c.session with
  | mk outcome after =>
    rw [bound] at grows
    cases outcome with
    | error e =>
      refine .stays grows.nextSerial fun origin given located => ?_
      exact located.mono (fun _ _ => id) fun _ _ _ found => grows.entries ▸ found
    | ok p =>
      obtain ⟨sound, built⟩ := Application.build_of_bind bound
      exact .attaches _ p (coherent.attaches_bound sound built)
        (Application.ascends_of_build sound built)

theorem Coherent.entry_extends (coherent : c.Coherent asked) {m : ProxyMap app.schema.size}
    (located : c.Located base (.map m)) (key : String) :
    c.Extends (c.take (base.step (.entry key)) ((app.entry m key c.session).1.map .interface)
      (app.entry m key c.session).2) := by
  cases there : (c.session.entries m.serial).find? key with
  | some p =>
    rw [Application.entry_of_found there]
    exact .stays le_rfl fun _ _ located => located_of_take rfl located
  | none =>
    obtain ⟨_, _, _, _, fits⟩ := coherent.made located
    obtain ⟨sound, -, -⟩ := fits.of_map
    have grows := Application.build_grows sound m.immutable (Key.dotted (m.key ++ "." ++ key))
      c.session
    cases built : app.build m.immutable m.valueType (Key.dotted (m.key ++ "." ++ key))
        c.session with
    | mk outcome after =>
      rw [built] at grows
      cases outcome with
      | error e =>
        rw [Application.entry_of_failed there built]
        exact .stays grows.nextSerial fun _ _ located => located_of_take grows.entries located
      | ok p =>
        have ascends := Application.ascends_of_build sound built
        rw [Application.entry_of_built there built]
        exact .attaches _ p (coherent.attaches_entry located there sound built) ascends

/-- **An action extends what is within reach by one proxy at most.** -/
theorem Coherent.act_extends (coherent : c.Coherent asked) (action : Action app.schema.size σ) :
    c.Extends (c.act action) := by
  cases action with
  | bind i keyPrefix? immutable? => exact coherent.bind_extends i keyPrefix? immutable?
  | call position method arguments =>
    simp only [Client.act]
    split
    · next holder p holds =>
      have keeps := Application.invoke_onlyKeeps p method arguments c.session
      refine .stays ?_ fun _ _ located => located_of_take keeps.entries located
      rw [take_session]
      exact keeps.nextSerial.ge
    · exact .stays le_rfl fun _ _ => id
  | entry position key =>
    simp only [Client.act]
    split
    · next holder m holds =>
      have located := coherent.held _ (List.mem_of_getElem? holds) m.serial rfl
      exact coherent.entry_extends located key
    · exact .stays le_rfl fun _ _ => id
  | summary position =>
    simp only [Client.act]
    split
    · next holder p holds =>
      have keeps := app.summary_onlyKeeps p c.session
      refine .stays keeps.nextSerial.ge fun origin given located => ?_
      exact located.mono (fun _ _ => id) fun _ _ _ found => keeps.entries ▸ found
    · exact .stays le_rfl fun _ _ => id
  | outside change =>
    refine .stays le_rfl fun origin given located => ?_
    exact located.mono (fun _ _ => id) fun _ _ _ => id

/-! ### Leaves -/

/-- **A method of a proxy within reach answers with a leaf.** -/
def HasLeaf (c : Client app) (origin : Origin) (method : String) (leaf : Leaf) : Prop :=
  ∃ p, c.Located origin (.interface p) ∧
    ∃ binding ∈ p.bindings, binding.method = method ∧ binding.resolver = .leaf leaf

/-- **Leaves of one number are the same one**, and their numbers were given out. -/
structure LeavesApart (c : Client app) : Prop where
  issued : ∀ origin method leaf serial, c.HasLeaf origin method leaf →
    leaf.serial? = some serial → serial < c.session.nextSerial
  unique : ∀ origin method leaf origin' method' leaf' serial, c.HasLeaf origin method leaf →
    c.HasLeaf origin' method' leaf' → leaf.serial? = some serial →
      leaf'.serial? = some serial → origin = origin' ∧ method = method'

variable {method : String} {leaf : Leaf}

theorem start_leavesApart (store : Store) (loader : σ) : (start app store loader).LeavesApart := by
  have nowhere : ∀ origin given, ¬ (start app store loader).Located origin given := by
    intro origin given located
    obtain ⟨_, number, below⟩ := (start_coherent store loader).issued origin given located
    exact absurd below (Nat.not_lt_zero _)
  exact {
    issued := fun origin _ _ _ ⟨p, located, _⟩ => absurd located (nowhere origin _)
    unique := fun origin _ _ _ _ _ _ ⟨p, located, _⟩ => absurd located (nowhere origin _) }

/-- A leaf after a proxy was attached was there before, or is one of the leaves of the proxy. -/
theorem HasLeaf.of_attaches (attaches : c.Attaches c' base p)
    (has : c'.HasLeaf origin method leaf) :
    c.HasLeaf origin method leaf ∨
      ∃ path, origin = base.follow path ∧ ⟨path, method, leaf⟩ ∈ p.leaves := by
  obtain ⟨q, located, binding, bound, rfl, answers⟩ := has
  rcases attaches.located_or located with before | ⟨path, rfl, within⟩
  · exact .inl ⟨q, before, binding, bound, rfl, answers⟩
  · exact .inr ⟨path, rfl, within.mem_leaves bound answers⟩

/-- **One action preserves that leaves are apart.** -/
theorem LeavesApart.act (apart : c.LeavesApart) (coherent : c.Coherent asked)
    (action : Action app.schema.size σ) : (c.act action).LeavesApart := by
  cases coherent.act_extends action with
  | stays further back =>
    have before {origin method leaf} (has : (c.act action).HasLeaf origin method leaf) :
        c.HasLeaf origin method leaf := by
      obtain ⟨q, located, leafAt⟩ := has
      exact ⟨q, back _ _ located, leafAt⟩
    exact {
      issued := fun origin method leaf serial has number =>
        (apart.issued origin method leaf serial (before has) number).trans_le further
      unique := fun origin method leaf origin' method' leaf' serial has has' =>
        apart.unique origin method leaf origin' method' leaf' serial (before has) (before has') }
  | attaches base p attaches ascends =>
    have new {site serial} (listed : site ∈ p.leaves)
        (number : site.leaf.serial? = some serial) :
        c.session.nextSerial ≤ serial ∧ serial < (c.act action).session.nextSerial :=
      ascends.range serial (List.mem_filterMap.mpr ⟨site, listed, number⟩)
    constructor
    · intro origin method leaf serial has number
      rcases has.of_attaches attaches with old | ⟨path, rfl, listed⟩
      · exact (apart.issued _ _ _ _ old number).trans attaches.nextSerial_lt
      · exact (new listed number).2
    · intro origin method leaf origin' method' leaf' serial has has' number number'
      rcases has.of_attaches attaches with old | ⟨path, rfl, listed⟩
      · rcases has'.of_attaches attaches with old' | ⟨path', rfl, listed'⟩
        · exact apart.unique _ _ _ _ _ _ _ old old' number number'
        · have below := apart.issued _ _ _ _ old number
          have above := (new listed' number').1
          omega
      · rcases has'.of_attaches attaches with old' | ⟨path', rfl, listed'⟩
        · have below := apart.issued _ _ _ _ old' number'
          have above := (new listed number).1
          omega
        · -- within the new proxy the number tells the place
          have same := ascends.site_eq listed listed' number number'
          cases same
          exact ⟨rfl, rfl⟩

/-- **In a run a number stands for one leaf**, by induction on the actions. -/
theorem run_leavesApart (app : Application σ) (store : Store) (loader : σ)
    (actions : List (Action app.schema.size σ)) :
    ((start app store loader).run actions).LeavesApart := by
  induction actions using List.reverseRecOn with
  | nil => exact start_leavesApart store loader
  | append_singleton earlier action ih =>
    rw [run_concat]
    exact ih.act (run_coherent app store loader earlier) action

end Client

end ConfigBinding
