import ConfigBinding.Proofs.Decoding.Kinds
import ConfigBinding.Proofs.Run.Keeping

/-!
# Kinds of answers

A method that returns a value answers with one of the kind that it declares.  A value that was kept
came from the same method, so it makes no difference when it was read.

## Main Definitions

* `Leaf.kind` — the kind of value that a leaf is declared for

## Main Statements

* `Leaf.admits_of_read` — a leaf answers with its kind, if it keeps nothing else
* `Client.admits_of_gets` — what calls of a run get from a leaf is of its kind
* `Client.answers_have_declared_kind` — and so is every answer in a run
-/

namespace ConfigBinding

/-! ### Leaves -/

namespace Leaf

variable {n : Nat} {σ : Type} {w : Session n σ} {arguments : List String} {value : Value}

/-- The kind of value that a leaf is declared for. -/
def kind : Leaf → Kind
  | .dynamic property => property.kind
  | .immutable property _ => property.kind
  | .parameterized _ kind _ => kind

theorem kind_eq_of_leaves {immutable : Bool} {keyPrefix : String} {method : Method n} {kind : Kind}
    {leaf : Leaf} (leaves : method.Leaves immutable keyPrefix kind leaf) : leaf.kind = kind := by
  cases leaves <;> rfl

theorem admits_of_read_dynamic {property : Property}
    (read : ((dynamic property).read .standard arguments w).1 = .ok value) :
    property.kind.admits value :=
  Property.admits_of_read (read_dynamic_eq_ok_iff.mp read)

/-- **A leaf answers with a value of its kind**, if what it keeps is of the kind. -/
theorem admits_of_read {leaf : Leaf}
    (kept : ∀ serial found, leaf.serial? = some serial → w.kept serial = some found →
      leaf.kind.admits found)
    (read : (leaf.read .standard arguments w).1 = .ok value) : leaf.kind.admits value := by
  cases leaf with
  | dynamic property => exact admits_of_read_dynamic read
  | immutable property serial =>
    cases now : w.kept serial with
    | some found =>
      rw [read_of_kept now] at read
      cases read
      exact kept serial value rfl now
    | none =>
      rw [read_of_not_kept now] at read
      exact admits_of_read_dynamic read
  | parameterized template kind default? =>
    rw [Leaf.read] at read
    cases key : Template.substitute template arguments with
    | error e =>
      rw [key] at read
      cases read
    | ok key' =>
      rw [key] at read
      have fresh : ((dynamic ⟨key', kind, default?⟩).read .standard arguments w).1 = .ok value :=
        read
      exact admits_of_read_dynamic fresh

end Leaf

/-! ### Answers in a run -/

namespace Client

variable {σ : Type} {app : Application σ} {store : Store} {loader : σ}
variable {actions : List (Action app.schema.size σ)} {leaf leaf' : Leaf} {serial : Nat}

/-- **A number stands for one leaf**, for it stands for one method of one proxy. -/
theorem hasLeaf_unique {origin origin' : Origin} {method method' : String}
    (has : ((start app store loader).run actions).HasLeaf origin method leaf)
    (has' : ((start app store loader).run actions).HasLeaf origin' method' leaf')
    (number : leaf.serial? = some serial) (number' : leaf'.serial? = some serial) :
    leaf = leaf' := by
  have coherent := run_coherent app store loader actions
  obtain ⟨rfl, rfl⟩ := (run_leavesApart app store loader actions).unique _ _ _ _ _ _ _ has has'
    number number'
  obtain ⟨p, located, binding, bound, rfl, answers⟩ := has
  obtain ⟨q, located', binding', bound', named, answers'⟩ := has'
  cases coherent.located_unique located located'
  obtain ⟨_, built⟩ := coherent.built_of_located located
  cases built.binding_eq bound bound' named.symm
  rw [answers] at answers'
  exact Resolver.leaf.inj answers'

variable (standard : app.decoder = .standard)
include standard

/-- **What calls of a run get from a leaf is of its kind**, by induction on the calls before: what
is kept at the time of a call was got by one of those. -/
theorem admits_of_gets {earlier : List (MethodCall app)} {call : MethodCall app}
    {later : List (MethodCall app)}
    (made : (start app store loader).methodCallsIn actions = earlier ++ call :: later)
    (asks : call.Asks (.leaf leaf)) {value : Value} (answer : call.answer = .ok (.value value)) :
    leaf.kind.admits value := by
  induction h : earlier.length using Nat.strong_induction_on
    generalizing earlier call later leaf value with
  | _ length ih =>
    obtain ⟨_, ⟨⟩, read⟩ := asks.answer_eq_ok_iff.mp answer
    rw [standard] at read
    refine Leaf.admits_of_read (fun serial found number kept => ?_) read
    obtain ⟨other, listed, leaf', asks', number', answer'⟩ :=
      ((kept_iff_gets made).2 serial found).mp kept
    have here := hasLeaf_of_asks (located_of_made made (List.mem_append_right _ List.mem_cons_self))
      asks
    have there := hasLeaf_of_asks (located_of_made made (List.mem_append_left _ listed)) asks'
    obtain rfl := hasLeaf_unique here there number number'
    obtain ⟨before, between, rfl⟩ := List.append_of_mem listed
    rw [List.append_assoc, List.cons_append] at made
    refine ih before.length ?_ made asks' answer' rfl
    rw [← h, List.length_append, List.length_cons]
    omega

/-- **What a leaf keeps after a run is of its kind.** -/
theorem admits_of_kept {origin : Origin} {method : String} {value : Value}
    (has : ((start app store loader).run actions).HasLeaf origin method leaf)
    (number : leaf.serial? = some serial)
    (kept : ((start app store loader).run actions).session.kept serial = some value) :
    leaf.kind.admits value := by
  have inRow := (start_coherent store loader).methodCallsIn_inRow actions
  rcases inRow.kept_iff.mp kept with before | ⟨call, listed, leaf', asks, number', answer⟩
  · cases before
  · have there := hasLeaf_of_asks (located_of_made rfl listed) asks
    obtain rfl := hasLeaf_unique has there number number'
    obtain ⟨earlier, later, made⟩ := List.append_of_mem listed
    exact admits_of_gets standard made asks answer

omit standard

/-- **Answers have the declared kind.**  With the literals that are written by hand, a method that
is declared to return a value of a kind answers with a value of that kind whenever it succeeds:
every method of every proxy within reach, with any arguments and at any time in a run, and every
call that the run itself makes, those within summaries included.  It does not matter whether the
value is stored, comes of references or of the default, or was kept from an earlier call. -/
theorem answers_have_declared_kind (app : Application σ) (standard : app.decoder = .standard)
    (store : Store) (loader : σ) (actions : List (Action app.schema.size σ)) :
    (∀ origin p, ((start app store loader).run actions).Located origin (.interface p) →
      ∀ method ∈ (app.schema.interface p.type).methods, ∀ kind, method.returns = .value kind →
        ∀ arguments given,
          (app.invoke p method.name arguments
            ((start app store loader).run actions).session).1 = .ok given →
          ∃ value, given = .value value ∧ kind.admits value) ∧
    (∀ call ∈ (start app store loader).methodCallsIn actions,
      ∀ method ∈ (app.schema.interface call.proxy.type).methods, method.name = call.method →
        ∀ kind, method.returns = .value kind → ∀ given, call.answer = .ok given →
          ∃ value, given = .value value ∧ kind.admits value) := by
  have coherent := run_coherent app store loader actions
  constructor
  · intro origin p located method declared kind returns arguments given answer
    obtain ⟨_, built⟩ := coherent.built_of_located located
    obtain ⟨binding, leaf, found, answers, leaves⟩ := built.exists_leaf declared returns
    have asks : (⟨origin, p, method.name, arguments,
        ((start app store loader).run actions).session⟩ : MethodCall app).Asks (.leaf leaf) :=
      ⟨binding, found, answers⟩
    obtain ⟨value, rfl, read⟩ := asks.answer_eq_ok_iff.mp answer
    rw [standard] at read
    rw [← Leaf.kind_eq_of_leaves leaves]
    exact ⟨value, rfl, Leaf.admits_of_read
      (fun serial found => admits_of_kept standard (hasLeaf_of_asks located asks)) read⟩
  · intro call listed method declared named kind returns given answer
    obtain ⟨_, built⟩ := coherent.built_of_located (located_of_made rfl listed)
    obtain ⟨binding, leaf, found, answers, leaves⟩ := built.exists_leaf declared returns
    have asks : call.Asks (.leaf leaf) := ⟨binding, named ▸ found, answers⟩
    obtain ⟨value, rfl, -⟩ := asks.answer_eq_ok_iff.mp answer
    obtain ⟨earlier, later, made⟩ := List.append_of_mem listed
    rw [← Leaf.kind_eq_of_leaves leaves]
    exact ⟨value, rfl, admits_of_gets standard made asks answer⟩

end Client

/-- A meter with a limit, a ratio and tags, whose values are kept, and a share for everybody. -/
def meters : Schema :=
  .ofVector #v[
    { name := "Meter", keyPrefix? := some "meter", immutable := true, sources? := none,
      methods := [⟨"getLimit", .value .integer, 0, none, some "1${meter.ratio}"⟩,
        ⟨"getRatio", .value .float, 0, none, none⟩, ⟨"getTags", .value .list, 0, none, none⟩,
        ⟨"getShare", .value .boolean, 1, some "shares.${0}", none⟩] }]

/-- The meter in an application that needs no sources. -/
def Application.metering : Application Unit :=
  ⟨meters, .standard, .idle⟩

namespace Client

/-- A store with a ratio, tags that refer to it, and somebody's share. -/
def measured : Store :=
  ⟨⟨[("meter", .table ⟨[("ratio", .integer 3), ("tags", .string "a, ${meter.ratio}")]⟩),
    ("shares", .table ⟨[("ann", .string " TRUE ")]⟩)]⟩⟩

/-- The meter is asked for its limit, tags and a share, and after all was removed, for its tags. -/
def meterRequests (meter : Fin 1) : List (Action Application.metering.schema.size Unit) :=
  [.bind meter none none, .call 0 "getLimit" [], .call 0 "getTags" [], .call 0 "getShare" ["ann"],
    .outside fun _ state => (.empty, state), .call 0 "getTags" []]

/-- The limit is read from a default that refers to a number, and the tags from a text that does;
the share is decoded.  The tags are kept, so that they are a list even when nothing is stored. -/
theorem meter_answers_of_kind :
    let calls := (start Application.metering measured ()).methodCallsIn (meterRequests 0)
    ∃ limit share tags, calls[0]? = some limit ∧ calls[2]? = some share ∧ calls[3]? = some tags ∧
      limit.answer = .ok (.value (.integer 13)) ∧ Kind.integer.admits (.integer 13) ∧
      share.answer = .ok (.value (.boolean true)) ∧ Kind.boolean.admits (.boolean true) ∧
      tags.answer = .ok (.value (.array [.string "a", .string "3"])) ∧
      Kind.list.admits (.array [.string "a", .string "3"]) := by
  intro calls
  have law := (answers_have_declared_kind Application.metering rfl measured () (meterRequests 0)).2
  have admits (position : Nat) {call : MethodCall Application.metering} {value : Value}
      (found : calls[position]? = some call) (answer : call.answer = .ok (.value value))
      (method : Method Application.metering.schema.size)
      (declared : method ∈ (Application.metering.schema.interface call.proxy.type).methods)
      (named : method.name = call.method) {kind : Kind} (returns : method.returns = .value kind) :
      kind.admits value := by
    obtain ⟨_, ⟨⟩, admits⟩ :=
      law call (List.mem_of_getElem? found) method declared named kind returns _ answer
    exact admits
  refine ⟨_, _, _, rfl, rfl, rfl, rfl, ?_, rfl, ?_, rfl, ?_⟩
  · exact admits 0 rfl rfl _ (.head _) rfl rfl
  · exact admits 2 rfl rfl _ (.tail _ (.tail _ (.tail _ (.head _)))) rfl rfl
  · exact admits 3 rfl rfl _ (.tail _ (.tail _ (.head _))) rfl rfl

end Client

end ConfigBinding
