import ConfigBinding.Proofs.Run.Identity
import ConfigBinding.Proofs.Run.Loading
import ConfigBinding.Proofs.Value.Ordered

/-!
# Requests to maps

A map has the entries that it was asked for with success, and no others.  A request that fails
leaves no entry in a map, and a request for an entry that is there does nothing at all.

## Main Definitions

* `Client.Obtains` — in a run, a request to a map for a key has given an entry
* `Client.Asked` — in a run, a map was asked for a key

## Main Statements

* `Client.act_entries` — only a first request that succeeds changes the entries of a map
* `Client.found_iff_obtains` — the entries of a map are what requests have given

## Design Notes

Entries are found under the number of their map.  In a run numbers tell maps apart, so what is found
there is what requests to this very map have given.
-/

namespace ConfigBinding

variable {σ : Type} {app : Application σ}

namespace Application

variable {m : ProxyMap app.schema.size} {key : String} {w : app.State} {p : app.Bound}

/-! ### One request -/

/-- A request changes the entries of maps only if it gives an entry that was not there. -/
theorem entries_of_entry (sound : app.schema.Admissible m.valueType) (key : String)
    (w : app.State) :
    (app.entry m key w).2.entries = w.entries ∨
      ∃ p, (app.entry m key w).1 = .ok p ∧ (w.entries m.serial).find? key = none ∧
        (app.entry m key w).2.entries = (w.addEntry m.serial key p).entries := by
  cases there : (w.entries m.serial).find? key with
  | some p =>
    rw [entry_of_found there]
    exact .inl rfl
  | none =>
    have grows := build_grows sound m.immutable (Key.dotted (m.key ++ "." ++ key)) w
    cases built : app.build m.immutable m.valueType (Key.dotted (m.key ++ "." ++ key)) w with
    | mk outcome after =>
      rw [built] at grows
      cases outcome with
      | error e =>
        rw [entry_of_failed there built]
        exact .inl grows.entries
      | ok p =>
        have same : after.entries = w.entries := grows.entries
        rw [entry_of_built there built]
        refine .inr ⟨p, rfl, rfl, ?_⟩
        simp only [Session.addEntry, same]

/-- A request changes nothing that leaves keep. -/
theorem kept_of_entry (sound : app.schema.Admissible m.valueType) (key : String) (w : app.State) :
    (app.entry m key w).2.kept = w.kept := by
  cases there : (w.entries m.serial).find? key with
  | some p => rw [entry_of_found there]
  | none =>
    have grows := build_grows sound m.immutable (Key.dotted (m.key ++ "." ++ key)) w
    cases built : app.build m.immutable m.valueType (Key.dotted (m.key ++ "." ++ key)) w with
    | mk outcome after =>
      rw [built] at grows
      cases outcome with
      | error e =>
        rw [entry_of_failed there built]
        exact grows.kept
      | ok p =>
        rw [entry_of_built there built]
        exact grows.kept

end Application

/-! ### Requests in a run -/

namespace Client

variable {c : Client app} {actions earlier : List (Action app.schema.size σ)}
variable {action : Action app.schema.size σ} {m : ProxyMap app.schema.size} {key : String}
variable {origin : Origin} {p : app.Bound}

theorem held_prefix_take {ε : Type} (c : Client app) (origin : Origin)
    (outcome : Except ε (Resolved app.schema.size)) (after : app.State) :
    c.held <+: (c.take origin outcome after).held := by
  cases outcome with
  | error e => exact List.prefix_rfl
  | ok given => exact List.prefix_append _ _

/-- What a client holds stays where it is. -/
theorem held_prefix_act (c : Client app) (action : Action app.schema.size σ) :
    c.held <+: (c.act action).held := by
  cases action with
  | bind i keyPrefix? immutable? => exact held_prefix_take { c with binds := c.binds + 1 } _ _ _
  | call position method arguments | entry position key =>
    simp only [act]
    split
    · exact held_prefix_take c _ _ _
    · exact List.prefix_rfl
  | summary position =>
    simp only [act]
    split <;> exact List.prefix_rfl
  | outside change => exact List.prefix_rfl

/-- What a client holds stays where it is during a run. -/
theorem held_prefix_run (c : Client app) (actions : List (Action app.schema.size σ)) :
    c.held <+: (c.run actions).held := by
  induction actions generalizing c with
  | nil => exact List.prefix_rfl
  | cons action rest ih => exact (held_prefix_act c action).trans (ih (c.act action))

/-- **In a run, a request to a map for a key has given an entry.**  The request is made where the
client holds the map. -/
def Obtains (c : Client app) (actions : List (Action app.schema.size σ))
    (m : ProxyMap app.schema.size) (key : String) (p : app.Bound) : Prop :=
  ∃ earlier position later origin, actions = earlier ++ .entry position key :: later ∧
    (c.run earlier).held[position]? = some ⟨origin, .map m⟩ ∧
    (app.entry m key (c.run earlier).session).1 = .ok p

/-- **In a run, a map was asked for a key**, whether or not that has given an entry. -/
def Asked (c : Client app) (actions : List (Action app.schema.size σ))
    (m : ProxyMap app.schema.size) (key : String) : Prop :=
  ∃ earlier position later origin, actions = earlier ++ .entry position key :: later ∧
    (c.run earlier).held[position]? = some ⟨origin, .map m⟩

/-- A request among actions of which there is one more is one of those before or the last. -/
theorem exists_entry_concat_iff {made : List (Action app.schema.size σ) → Nat → Prop} :
    (∃ earlier position later, actions ++ [action] = earlier ++ .entry position key :: later ∧
        made earlier position) ↔
      (∃ earlier position later, actions = earlier ++ .entry position key :: later ∧
        made earlier position) ∨
        ∃ position, action = .entry position key ∧ made actions position := by
  constructor
  · rintro ⟨earlier, position, later, split, isMade⟩
    rcases List.eq_nil_or_concat later with rfl | ⟨later, last, rfl⟩
    · obtain ⟨rfl, sameLast⟩ := List.append_inj' split rfl
      exact .inr ⟨position, List.singleton_inj.mp sameLast, isMade⟩
    · rw [List.concat_eq_append, ← List.cons_append, ← List.append_assoc] at split
      obtain ⟨rfl, -⟩ := List.append_inj' split rfl
      exact .inl ⟨earlier, position, later, rfl, isMade⟩
  · rintro (⟨earlier, position, later, rfl, isMade⟩ | ⟨position, rfl, isMade⟩)
    · refine ⟨earlier, position, later ++ [action], ?_, isMade⟩
      rw [List.append_assoc, List.cons_append]
    · exact ⟨actions, position, [], rfl, isMade⟩

/-- What was given before is given still, and a request at the end gives what it gives. -/
theorem obtains_concat_iff :
    c.Obtains (actions ++ [action]) m key p ↔
      c.Obtains actions m key p ∨
        ∃ position origin, action = .entry position key ∧
          (c.run actions).held[position]? = some ⟨origin, .map m⟩ ∧
          (app.entry m key (c.run actions).session).1 = .ok p := by
  simp only [Obtains, exists_and_left]
  exact exists_entry_concat_iff

/-- What a map was asked for before, and what it is asked for at the end. -/
theorem asked_concat_iff :
    c.Asked (actions ++ [action]) m key ↔
      c.Asked actions m key ∨
        ∃ position origin, action = .entry position key ∧
          (c.run actions).held[position]? = some ⟨origin, .map m⟩ := by
  simp only [Asked, exists_and_left]
  exact exists_entry_concat_iff

/-- The client holds the maps that it has asked. -/
theorem Asked.exists_held (asked : c.Asked actions m key) :
    ∃ origin, ⟨origin, .map m⟩ ∈ (c.run actions).held := by
  obtain ⟨earlier, position, later, origin, rfl, holds⟩ := asked
  rw [run_append]
  exact ⟨origin, (held_prefix_run _ _).subset (List.mem_of_getElem? holds)⟩

/-- **How an action changes the entries of maps**: not at all, or by a first request that gives an
entry. -/
theorem act_entries (sound : c.Sound) (action : Action app.schema.size σ) :
    (c.act action).session.entries = c.session.entries ∨
      ∃ position key origin m p, action = .entry position key ∧
        c.held[position]? = some ⟨origin, .map m⟩ ∧
        (app.entry m key c.session).1 = .ok p ∧
        (c.session.entries m.serial).find? key = none ∧
        (c.act action).session.entries = (c.session.addEntry m.serial key p).entries := by
  cases action with
  | bind i keyPrefix? immutable? =>
    rw [act, take_session]
    exact .inl (Application.bind_grows i keyPrefix? immutable? c.session).entries
  | call position method arguments =>
    simp only [act]
    split
    · next origin p holds =>
      rw [take_session]
      exact .inl (Application.invoke_onlyKeeps p method arguments c.session).entries
    · exact .inl rfl
  | entry position key =>
    simp only [act]
    split
    · next origin m holds =>
      rw [take_session]
      have admissible := sound.held _ (List.mem_of_getElem? holds) m .map
      rcases Application.entries_of_entry admissible key c.session with same | added
      · exact .inl same
      · obtain ⟨p, given, missing, entries⟩ := added
        exact .inr ⟨position, key, origin, m, p, rfl, holds, given, missing, entries⟩
    · exact .inl rfl
  | summary position =>
    simp only [act]
    split
    · next origin p holds => exact .inl (app.summary_onlyKeeps p c.session).entries
    · exact .inl rfl
  | outside change => exact .inl rfl

/-- Entries stay. -/
theorem found_act (sound : c.Sound) (action : Action app.schema.size σ) {serial : Nat}
    (found : (c.session.entries serial).find? key = some p) :
    ((c.act action).session.entries serial).find? key = some p := by
  rcases act_entries sound action with same | ⟨_, name, _, m, q, -, -, -, missing, entries⟩
  · rw [same, found]
  · rw [entries, Session.find?_addEntry, if_neg, found]
    rintro ⟨rfl, rfl⟩
    rw [missing] at found
    cases found

/-- A map lists its keys in ascending order. -/
theorem keys_ascending (app : Application σ) (store : Store) (loader : σ)
    (actions : List (Action app.schema.size σ)) (serial : Nat) :
    (((start app store loader).run actions).session.entries serial).keys.Pairwise (· < ·) := by
  induction actions using List.reverseRecOn with
  | nil => exact .nil
  | append_singleton earlier action ih =>
    rw [run_concat]
    have sound := (start_sound store loader : (start app store loader).Sound).run earlier
    rcases act_entries sound action with same | ⟨_, name, _, m, q, -, -, -, -, entries⟩
    · rw [same]
      exact ih
    · rw [entries]
      simp only [Session.addEntry]
      split
      · next here =>
        rw [here] at ih
        exact Dictionary.ascending_insert ih name q
      · exact ih

/-- **What requests have given is found**, under the number of the map. -/
theorem found_of_obtains {store : Store} {loader : σ}
    (obtains : (start app store loader).Obtains actions m key p) :
    (((start app store loader).run actions).session.entries m.serial).find? key = some p := by
  induction actions using List.reverseRecOn with
  | nil =>
    obtain ⟨_, _, _, _, split, -⟩ := obtains
    simp at split
  | append_singleton earlier action ih =>
    rw [run_concat]
    have sound := (start_sound store loader : (start app store loader).Sound).run earlier
    rcases obtains_concat_iff.mp obtains with before | ⟨position, origin, rfl, holds, given⟩
    · exact found_act sound action (ih before)
    · simp only [act, holds]
      rw [take_session]
      cases there : (((start app store loader).run earlier).session.entries m.serial).find? key with
      | some q =>
        rw [Application.entry_of_found there] at given ⊢
        rw [there, Except.ok.inj given]
      | none =>
        cases built : app.build m.immutable m.valueType (Key.dotted (m.key ++ "." ++ key))
            ((start app store loader).run earlier).session with
        | mk outcome after =>
          cases outcome with
          | error e =>
            rw [Application.entry_of_failed there built] at given
            cases given
          | ok q =>
            rw [Application.entry_of_built there built] at given ⊢
            obtain rfl := Except.ok.inj given
            rw [Session.find?_addEntry, if_pos ⟨rfl, rfl⟩]

/-- **What is found was given by a request**, to the map of that number. -/
theorem obtains_of_found {store : Store} {loader : σ} {serial : Nat}
    (found : (((start app store loader).run actions).session.entries serial).find? key = some p) :
    ∃ m origin, m.serial = serial ∧ ⟨origin, .map m⟩ ∈ ((start app store loader).run actions).held ∧
      (start app store loader).Obtains actions m key p := by
  induction actions using List.reverseRecOn with
  | nil => cases found
  | append_singleton earlier action ih =>
    rw [run_concat] at found ⊢
    have sound := (start_sound store loader : (start app store loader).Sound).run earlier
    have stays := (held_prefix_act ((start app store loader).run earlier) action).subset
    have before (found : (((start app store loader).run earlier).session.entries serial).find? key =
        some p) : ∃ m origin, m.serial = serial ∧
          ⟨origin, .map m⟩ ∈ (((start app store loader).run earlier).act action).held ∧
          (start app store loader).Obtains (earlier ++ [action]) m key p := by
      obtain ⟨m, origin, number, held, obtains⟩ := ih found
      exact ⟨m, origin, number, stays held, obtains_concat_iff.mpr (.inl obtains)⟩
    rcases act_entries sound action with same | ⟨position, name, origin, m, q, is, holds, given, -,
      entries⟩
    · rw [same] at found
      exact before found
    · rw [entries, Session.find?_addEntry] at found
      split at found
      · next here =>
        obtain ⟨rfl, rfl⟩ := here
        obtain rfl := Option.some.inj found
        refine ⟨m, origin, rfl, stays (List.mem_of_getElem? holds), ?_⟩
        exact obtains_concat_iff.mpr (.inr ⟨position, origin, is, holds, given⟩)
      · exact before found

/-- The number of a map within reach tells that it is this one. -/
theorem map_eq_of_serial_eq {store : Store} {loader : σ} {m' : ProxyMap app.schema.size}
    {origin' : Origin} (located : ((start app store loader).run actions).Located origin (.map m))
    (held' : ⟨origin', .map m'⟩ ∈ ((start app store loader).run actions).held)
    (number : m'.serial = m.serial) : m' = m := by
  have coherent := run_coherent app store loader actions
  have located' := located_of_held app store loader actions held' ⟨_, rfl⟩
  obtain ⟨-, same⟩ := coherent.unique _ _ _ _ located located' (congrArg some number.symm)
  exact (Resolved.map.inj same).symm

/-- **The entries of a map within reach are what requests to it have given.** -/
theorem found_iff_obtains_of_located {store : Store} {loader : σ}
    (located : ((start app store loader).run actions).Located origin (.map m)) :
    (((start app store loader).run actions).session.entries m.serial).find? key = some p ↔
      (start app store loader).Obtains actions m key p := by
  refine ⟨fun found => ?_, found_of_obtains⟩
  obtain ⟨other, origin', number, held', obtains⟩ := obtains_of_found found
  rwa [map_eq_of_serial_eq located held' number] at obtains

theorem found_iff_obtains {store : Store} {loader : σ}
    (held : ⟨origin, .map m⟩ ∈ ((start app store loader).run actions).held) :
    (((start app store loader).run actions).session.entries m.serial).find? key = some p ↔
      (start app store loader).Obtains actions m key p :=
  found_iff_obtains_of_located (located_of_held app store loader actions held ⟨_, rfl⟩)

end Client

end ConfigBinding
