import ConfigBinding.Proofs.Access.Reading

/-!
# Reading once more

What calls and summaries leave behind makes no difference to those that follow: the value that a
leaf keeps from then on is the one that it would read again.

## Main Definitions

* `NumbersTell` — leaves of one number are the same one
* `Session.Alike` — two sessions in which leaves answer alike, and maps have the same entries

## Main Statements

* `Session.Pins.alike` — pinning leaves makes no difference to what they answer
* `Application.summary_congr` — a summary shows no more than leaves answer, and the keys of maps
* `Application.fieldTexts_eq` — every field is as it would be if it were shown first
* `Application.Built.summary_of_pins` — the text of a proxy is the same once leaves are pinned

## Design Notes

A summary hands the session on from field to field, and so does a client from call to call.  That no
field depends on the fields before it is a matter of the leaves alone, so two sessions are compared
by what leaves answer in them, and the sessions on the way are all alike.
-/

namespace ConfigBinding

/-! ### Sessions that look alike -/

/-- **A number tells the leaf**, among the leaves of a list. -/
def NumbersTell (sites : List LeafSite) : Prop :=
  ∀ site ∈ sites, ∀ other ∈ sites, ∀ serial, site.leaf.serial? = some serial →
    other.leaf.serial? = some serial → site.leaf = other.leaf

theorem NumbersTell.mono {sites others : List LeafSite} (tell : NumbersTell others)
    (among : LeafSite.Among sites others) : NumbersTell sites := by
  intro site listed site' listed' serial number number'
  obtain ⟨other, isOther, same⟩ := among site listed
  obtain ⟨other', isOther', same'⟩ := among site' listed'
  rw [← same] at number ⊢
  rw [← same'] at number' ⊢
  exact tell other isOther other' isOther' serial number number'

namespace Session

variable {n : Nat} {σ : Type} {w other further after : Session n σ}
variable {decoder : Decoder} {sites others : List LeafSite}

/-- **Two sessions look alike** to leaves of a list, which answer the same in both, and to all
maps. -/
structure Alike (decoder : Decoder) (sites : List LeafSite) (w other : Session n σ) : Prop where
  entries : other.entries = w.entries
  answers : ∀ site ∈ sites, ∀ arguments,
    (site.leaf.read decoder arguments other).1 = (site.leaf.read decoder arguments w).1

theorem Alike.refl (decoder : Decoder) (sites : List LeafSite) (w : Session n σ) :
    w.Alike decoder sites w :=
  ⟨rfl, fun _ _ _ => rfl⟩

theorem Alike.trans (alike : w.Alike decoder sites other)
    (further : other.Alike decoder sites after) : w.Alike decoder sites after where
  entries := further.entries.trans alike.entries
  answers site listed arguments :=
    (further.answers site listed arguments).trans (alike.answers site listed arguments)

theorem Alike.mono (alike : w.Alike decoder others other) (among : LeafSite.Among sites others) :
    w.Alike decoder sites other where
  entries := alike.entries
  answers site listed arguments := by
    obtain ⟨_, listed', same⟩ := among site listed
    rw [← same]
    exact alike.answers _ listed' arguments

/-- **Pinning leaves makes no difference to what they answer**: what a leaf keeps now is what it
would have read. -/
theorem Pins.alike (pins : w.Pins decoder sites after) (tell : NumbersTell sites) :
    w.Alike decoder sites after where
  entries := pins.entries
  answers site listed arguments := by
    cases is : site.leaf with
    | dynamic property => rw [Leaf.read, Leaf.read, pins.store]
    | parameterized template kind default? =>
      rw [Leaf.read, Leaf.read]
      cases Template.substitute template arguments with
      | error e => rfl
      | ok key => simp only [pins.store]
    | immutable property serial =>
      cases before : w.kept serial with
      | some value =>
        rw [Leaf.read_of_kept before, Leaf.read_of_kept (pins.kept serial value before)]
      | none =>
        rw [Leaf.read_of_not_kept before]
        cases now : after.kept serial with
        | none => rw [Leaf.read_of_not_kept now, Leaf.read, Leaf.read, pins.store]
        | some value =>
          obtain ⟨pinned, listed', property', isLeaf, read⟩ := pins.pinned serial value before now
          -- the leaf that keeps the value is this one, for it has the same number
          have same := tell site listed pinned listed' serial (by rw [is]; rfl)
            (by rw [isLeaf]; rfl)
          rw [is, isLeaf] at same
          cases same
          rw [Leaf.read_of_kept now, Leaf.read_dynamic_eq_ok_iff.mpr read]

end Session

/-! ### Summaries -/

namespace Application

variable {σ : Type} (app : Application σ)

theorem summary_fst (p : app.Bound) (w : app.State) :
    (app.summary p w).1 =
      p.interfaceName ++ "[" ++ ", ".intercalate (app.fieldTexts p.keyPrefix p.bindings w).1 ++
        "]" := by
  obtain ⟨_, _, _, _, _⟩ := p
  rw [summary]

theorem fieldTexts_cons_fst (keyPrefix : String)
    (binding : Binding app.schema.size app.Bound)
    (rest : List (Binding app.schema.size app.Bound)) (w : app.State) :
    (app.fieldTexts keyPrefix (binding :: rest) w).1 =
      (app.bindingText keyPrefix binding w).1 ::
        (app.fieldTexts keyPrefix rest (app.bindingText keyPrefix binding w).2).1 := by
  rw [fieldTexts]

theorem bindingText_fst (keyPrefix : String) (binding : Binding app.schema.size app.Bound)
    (w : app.State) :
    (app.bindingText keyPrefix binding w).1 =
      fieldText keyPrefix binding.key (app.resolverText binding.resolver w).1 := by
  obtain ⟨_, _, _, _⟩ := binding
  rw [bindingText]

theorem resolverText_leaf_fst (leaf : Leaf) (w : app.State) :
    (app.resolverText (.leaf leaf) w).1 = answerText (leaf.read app.decoder [] w).1 := by
  rw [resolverText]

mutual

/-- **A summary shows no more than leaves answer, and the keys of maps.** -/
theorem summary_congr : ∀ (p : app.Bound) (w other : app.State), NumbersTell p.leaves →
    w.Alike app.decoder p.leaves other → (app.summary p other).1 = (app.summary p w).1
  | ⟨_, _, name, keyPrefix, bindings⟩, w, other, tell, alike => by
    rw [Proxy.leaves] at tell alike
    have there := fieldTexts_eq keyPrefix bindings w other tell alike
    have here := fieldTexts_eq keyPrefix bindings w w tell (.refl _ _ w)
    rw [summary_fst, summary_fst, there, here]

/-- **Every field is as it would be if it were shown first**, by induction on the fields: the fields
before it leave a session that looks like the one at the start. -/
theorem fieldTexts_eq (keyPrefix : String) :
    ∀ (bindings : List (Binding app.schema.size app.Bound)) (w other : app.State),
      NumbersTell (leavesOf bindings) → w.Alike app.decoder (leavesOf bindings) other →
        (app.fieldTexts keyPrefix bindings other).1 =
          bindings.map fun binding => (app.bindingText keyPrefix binding w).1
  | [], _, _, _, _ => rfl
  | binding :: rest, w, other, tell, alike => by
    rw [leavesOf] at tell alike
    have isHere := LeafSite.among_append_left (leavesAt binding) (leavesOf rest)
    have isLater := LeafSite.among_append_right (leavesAt binding) (leavesOf rest)
    have here := bindingText_congr keyPrefix binding w other (tell.mono isHere) (alike.mono isHere)
    have onTheWay := (app.bindingText_pins keyPrefix binding other).mono isHere
    have later := fieldTexts_eq keyPrefix rest w (app.bindingText keyPrefix binding other).2
      (tell.mono isLater) ((alike.trans (onTheWay.alike tell)).mono isLater)
    rw [fieldTexts_cons_fst, List.map_cons, here, later]

theorem bindingText_congr (keyPrefix : String) :
    ∀ (binding : Binding app.schema.size app.Bound) (w other : app.State),
      NumbersTell (leavesAt binding) → w.Alike app.decoder (leavesAt binding) other →
        (app.bindingText keyPrefix binding other).1 = (app.bindingText keyPrefix binding w).1
  | ⟨method, key, _, resolver⟩, w, other, tell, alike => by
    rw [leavesAt] at tell alike
    rw [bindingText_fst, bindingText_fst, resolverText_congr method resolver w other tell alike]

theorem resolverText_congr (name : String) :
    ∀ (resolver : Resolver app.schema.size app.Bound) (w other : app.State),
      NumbersTell (leavesBehind name resolver) →
        w.Alike app.decoder (leavesBehind name resolver) other →
          (app.resolverText resolver other).1 = (app.resolverText resolver w).1
  | .leaf leaf, w, other, _, alike => by
    rw [leavesBehind] at alike
    rw [resolverText_leaf_fst, resolverText_leaf_fst,
      alike.answers _ (List.mem_singleton_self _) []]
  | .nested child, w, other, tell, alike => by
    rw [leavesBehind] at tell alike
    have within := LeafSite.among_under name child.leaves
    exact summary_congr child w other (tell.mono within) (alike.mono within)
  | .map m, w, other, _, alike => by
    rw [resolverText, resolverText, Session.mapText, Session.mapText, Session.keys, Session.keys,
      alike.entries]

end

/-! ### Proxies that were built -/

variable {app} {immutable : Bool} {p : app.Bound} {w after : app.State}

/-- A proxy that was built has its leaves numbered. -/
theorem Built.numbersTell (built : app.Built immutable p) : NumbersTell p.leaves := by
  obtain ⟨limit, w, made⟩ := built.built
  have ascends := ascends_of_buildWithin built.sound (Prod.ext made rfl)
  intro site listed other listed' serial number number'
  rw [ascends.site_eq listed listed' number number']

/-- **The text of a proxy is the same once leaves of it are pinned.** -/
theorem Built.summary_of_pins (built : app.Built immutable p)
    (pins : w.Pins app.decoder p.leaves after) : (app.summary p after).1 = (app.summary p w).1 :=
  app.summary_congr p w after built.numbersTell (pins.alike built.numbersTell)

end Application

end ConfigBinding
