import ConfigBinding.Proofs.Access.Reading
import ConfigBinding.Proofs.Binding.Outcome

/-!
# Runs

A client binds interfaces, calls methods of what it was given, asks maps for entries, and shows
proxies as text, in any order and as often as it likes.  Between two such steps anyone may change
the store and the state of the loader.

## Main Definitions

* `Client` — a session, and all that the client was given so far
* `Action`, `Client.act`, `Client.run` — one step, and a sequence of steps
* `Origin` — from which bind, and by which calls and requests, something was got
* `Client.Sound` — whatever maps the client can get at, their interfaces are sound

## Main Statements

* `Client.Sound.act`, `Client.Sound.run` — steps and runs preserve that
* `Client.admissible_of_held` — every map that is given out in a run is one of a sound interface

## Design Notes

A client acts on what it holds, by position; an action on nothing, or on something of another sort,
does nothing.  What was given stays where it is, so that later actions may come back to it.
-/

namespace ConfigBinding

/-! ### Actions -/

/-- A step from a proxy or from a map. -/
inductive Hop where
  | method (name : String)
  | entry (key : String)

/-- Where something comes from: the number of a bind, and the steps from there, in order. -/
structure Origin where
  bind : Nat
  hops : List Hop

/-- Something a client was given, and where from. -/
structure Holding (n : Nat) where
  origin : Origin
  given : Resolved n

/-- What a client, or somebody beside it, does. -/
inductive Action (n : Nat) (σ : Type) where
  | bind (i : Fin n) (keyPrefix? : Option String) (immutable? : Option Bool)
  | call (position : Nat) (method : String) (arguments : List String)
  | entry (position : Nat) (key : String)
  | summary (position : Nat)
  /-- The store and the state of the loader are changed in any way. -/
  | outside (change : Store → σ → Store × σ)

/-- One step further. -/
def Origin.step (origin : Origin) (hop : Hop) : Origin :=
  { origin with hops := origin.hops ++ [hop] }

variable {σ : Type} {app : Application σ}

/-- A session, how often the client has bound something, and what it was given. -/
structure Client (app : Application σ) where
  session : app.State
  binds : Nat
  held : List (Holding app.schema.size)

namespace Client

/-- A client that has done nothing yet. -/
def start (app : Application σ) (store : Store) (loader : σ) : Client app :=
  ⟨.start store loader, 0, []⟩

/-- The client after an attempt, of which it keeps the result. -/
def take {ε : Type} (c : Client app) (origin : Origin)
    (outcome : Except ε (Resolved app.schema.size)) (after : app.State) : Client app :=
  match outcome with
  | .ok given => { c with session := after, held := c.held ++ [⟨origin, given⟩] }
  | .error _ => { c with session := after }

/-- The client after an action. -/
def act (c : Client app) : Action app.schema.size σ → Client app
  | .bind i keyPrefix? immutable? =>
    let (outcome, after) := app.bind i keyPrefix? immutable? c.session
    { c with binds := c.binds + 1 }.take ⟨c.binds, []⟩ (outcome.map .interface) after
  | .call position method arguments =>
    match c.held[position]? with
    | some ⟨origin, .interface p⟩ =>
      let (outcome, after) := app.invoke p method arguments c.session
      c.take (origin.step (.method method)) outcome after
    | _ => c
  | .entry position key =>
    match c.held[position]? with
    | some ⟨origin, .map m⟩ =>
      let (outcome, after) := app.entry m key c.session
      c.take (origin.step (.entry key)) (outcome.map .interface) after
    | _ => c
  | .summary position =>
    match c.held[position]? with
    | some ⟨_, .interface p⟩ => { c with session := (app.summary p c.session).2 }
    | _ => c
  | .outside change =>
    let (store, loader) := change c.session.store c.session.loader
    { c with session := { c.session with store := store, loader := loader } }

/-- The client after a sequence of actions. -/
def run (c : Client app) (actions : List (Action app.schema.size σ)) : Client app :=
  actions.foldl act c

theorem run_append (c : Client app) (actions more : List (Action app.schema.size σ)) :
    c.run (actions ++ more) = (c.run actions).run more :=
  List.foldl_append

theorem run_concat (c : Client app) (actions : List (Action app.schema.size σ))
    (action : Action app.schema.size σ) :
    c.run (actions ++ [action]) = (c.run actions).act action :=
  run_append c actions [action]

theorem take_session {ε : Type} (c : Client app) (origin : Origin)
    (outcome : Except ε (Resolved app.schema.size)) (after : app.State) :
    (c.take origin outcome after).session = after := by
  cases outcome <;> rfl

end Client

/-! ### Maps within reach -/

/-- A map that a result is, or that a proxy offers. -/
inductive Resolved.Offers {n : Nat} : Resolved n → ProxyMap n → Prop
  | interface {p : Proxy n} {m : ProxyMap n} (within : p.Offers m) : Offers (.interface p) m
  | map {m : ProxyMap n} : Offers (.map m) m

namespace Application

/-- What a call hands out was within reach before the call. -/
theorem offers_of_invoke {p : app.Bound} {method : String} {arguments : List String}
    {w : app.State} {given : Resolved app.schema.size} {m : ProxyMap app.schema.size}
    (called : (app.invoke p method arguments w).1 = .ok given) (offers : given.Offers m) :
    p.Offers m := by
  rcases behind_of_invoke called with ⟨value, rfl⟩ | ⟨binding, bound, -, behind⟩
  · cases offers
  · rcases behind with ⟨child, answers, rfl⟩ | ⟨m, answers, rfl⟩
    · cases offers with
      | interface within => exact .nested bound answers within
    · cases offers
      exact .own bound answers

/-- All maps that entries of maps offer are maps of sound interfaces. -/
def EntriesSound (w : app.State) : Prop :=
  ∀ serial key p m, (w.entries serial).find? key = some p → p.Offers m →
    app.schema.Admissible m.valueType

variable {w after : app.State} {p : app.Bound} {m : ProxyMap app.schema.size} {key : String}

theorem EntriesSound.of_eq (sound : EntriesSound w) (same : after.entries = w.entries) :
    EntriesSound after := by
  intro serial key p m found
  rw [same] at found
  exact sound serial key p m found

theorem EntriesSound.addEntry (sound : EntriesSound w) {serial : Nat}
    (new : ∀ m, p.Offers m → app.schema.Admissible m.valueType) :
    EntriesSound (w.addEntry serial key p) := by
  intro other otherKey q m found offers
  simp only [Session.addEntry] at found
  by_cases here : other = serial
  · rw [if_pos here, Dictionary.find?_insert] at found
    by_cases same : otherKey = key
    · rw [if_pos same] at found
      cases found
      exact new m offers
    · rw [if_neg same] at found
      exact sound serial otherKey q m found offers
  · rw [if_neg here] at found
    exact sound other otherKey q m found offers

/-- Binding only adds to a session. -/
theorem bind_grows (i : Fin app.schema.size) (keyPrefix? : Option String)
    (immutable? : Option Bool) (w : app.State) :
    w.Grows (app.bind i keyPrefix? immutable? w).2 := by
  unfold bind
  cases accepted : app.schema.check i with
  | error e => exact .refl w
  | ok => exact build_grows (Schema.admissible_of_check accepted) _ _ w

/-- A bound proxy offers maps of sound interfaces. -/
theorem admissible_of_bind {i : Fin app.schema.size} {keyPrefix? : Option String}
    {immutable? : Option Bool} (bound : (app.bind i keyPrefix? immutable? w).1 = .ok p)
    (offers : p.Offers m) : app.schema.Admissible m.valueType := by
  unfold bind at bound
  cases accepted : app.schema.check i with
  | error e =>
    rw [accepted] at bound
    cases bound
  | ok =>
    rw [accepted] at bound
    have sound := Schema.admissible_of_check accepted
    exact sound.of_leadsTo (leadsTo_of_build sound bound offers)

/-- **A request for an entry** of a map of a sound interface gives a proxy that offers maps of such
interfaces only, and leaves none but these behind. -/
theorem entry_sound (sound : EntriesSound w) (known : app.schema.Admissible m.valueType)
    (key : String) :
    EntriesSound (app.entry m key w).2 ∧
      ∀ p, (app.entry m key w).1 = .ok p →
        ∀ m', p.Offers m' → app.schema.Admissible m'.valueType := by
  unfold entry
  cases found : (w.entries m.serial).find? key with
  | some p =>
    refine ⟨sound, ?_⟩
    rintro _ ⟨⟩ m' offers
    exact sound m.serial key p m' found offers
  | none =>
    -- building leaves all entries as they were, and only the new one is added
    have grows := build_grows known m.immutable (Key.dotted (m.key ++ "." ++ key)) w
    have leads : ∀ p, (app.build m.immutable m.valueType (Key.dotted (m.key ++ "." ++ key)) w).1 =
        .ok p → ∀ m', p.Offers m' → app.schema.Admissible m'.valueType := by
      intro p built m' offers
      exact known.of_leadsTo (leadsTo_of_build known built offers)
    cases built : app.build m.immutable m.valueType (Key.dotted (m.key ++ "." ++ key)) w with
    | mk result after =>
      rw [built] at grows leads
      have kept : EntriesSound after := sound.of_eq grows.entries
      cases result with
      | error e =>
        refine ⟨kept, ?_⟩
        rintro _ ⟨⟩
      | ok p =>
        refine ⟨kept.addEntry (leads p rfl), ?_⟩
        rintro _ ⟨⟩
        exact leads p rfl

end Application

/-! ### What every run preserves -/

namespace Client

/-- Every map within reach of the client is a map of a sound interface: those that it holds, and
those that it may still get from entries of maps. -/
structure Sound (c : Client app) : Prop where
  held : ∀ h ∈ c.held, ∀ m, h.given.Offers m → app.schema.Admissible m.valueType
  entries : Application.EntriesSound c.session

theorem start_sound (store : Store) (loader : σ) : (start app store loader).Sound where
  held := by
    intro h held
    cases held
  entries := by
    intro serial key p m found
    cases found

variable {c : Client app}

/-- Taking the result of an attempt, if it offers maps of sound interfaces only. -/
theorem Sound.take {ε : Type} (sound : c.Sound) (origin : Origin)
    {outcome : Except ε (Resolved app.schema.size)} {after : app.State}
    (entries : Application.EntriesSound after)
    (new : ∀ given, outcome = .ok given →
      ∀ m, given.Offers m → app.schema.Admissible m.valueType) :
    (c.take origin outcome after).Sound := by
  cases outcome with
  | error e => exact ⟨sound.held, entries⟩
  | ok given =>
    refine ⟨fun h held m offers => ?_, entries⟩
    rcases List.mem_append.mp held with before | taken
    · exact sound.held h before m offers
    · obtain rfl := List.mem_singleton.mp taken
      exact new given rfl m offers

/-- A proxy in place of a result offers what it offers. -/
theorem admissible_of_map_interface {ε : Type} {outcome : Except ε app.Bound}
    (new : ∀ p, outcome = .ok p → ∀ m, p.Offers m → app.schema.Admissible m.valueType) :
    ∀ given, outcome.map Resolved.interface = .ok given →
      ∀ m, given.Offers m → app.schema.Admissible m.valueType := by
  intro given mapped m offers
  cases outcome with
  | error e => cases mapped
  | ok p =>
    cases mapped
    cases offers with
    | interface within => exact new p rfl m within

/-- **One action preserves soundness.** -/
theorem Sound.act (sound : c.Sound) (action : Action app.schema.size σ) : (c.act action).Sound := by
  cases action with
  | bind i keyPrefix? immutable? =>
    have grows := Application.bind_grows i keyPrefix? immutable? c.session
    -- the check of this bind is what makes the new proxy sound
    have next : ({ c with binds := c.binds + 1 } : Client app).Sound := ⟨sound.held, sound.entries⟩
    exact next.take _ (sound.entries.of_eq grows.entries)
      (admissible_of_map_interface fun p bound m offers =>
        Application.admissible_of_bind bound offers)
  | call position method arguments =>
    simp only [Client.act]
    split
    · next origin p holds =>
      have held : ⟨origin, .interface p⟩ ∈ c.held := List.mem_of_getElem? holds
      have keeps := Application.invoke_onlyKeeps p method arguments c.session
      refine sound.take _ (sound.entries.of_eq keeps.entries) fun given called m offers => ?_
      have within := Application.offers_of_invoke called offers
      exact sound.held _ held m (.interface within)
    · exact sound
  | entry position key =>
    simp only [Client.act]
    split
    · next origin m holds =>
      have held : ⟨origin, .map m⟩ ∈ c.held := List.mem_of_getElem? holds
      -- nothing is checked here: the map that is held vouches for its interface
      obtain ⟨entries, new⟩ := Application.entry_sound sound.entries (sound.held _ held m .map) key
      exact sound.take _ entries (admissible_of_map_interface new)
    · exact sound
  | summary position =>
    simp only [Client.act]
    split
    · next origin p holds =>
      have keeps := app.summary_onlyKeeps p c.session
      exact ⟨sound.held, sound.entries.of_eq keeps.entries⟩
    · exact sound
  | outside change => exact ⟨sound.held, sound.entries⟩

/-- **A run preserves soundness**, by induction on its actions. -/
theorem Sound.run (sound : c.Sound) (actions : List (Action app.schema.size σ)) :
    (c.run actions).Sound := by
  induction actions generalizing c with
  | nil => exact sound
  | cons action rest ih => exact ih (sound.act action)

/-- **Every map that is given out in a run is a map of a sound interface.** -/
theorem admissible_of_held {store : Store} {loader : σ}
    {actions : List (Action app.schema.size σ)} {h : Holding app.schema.size}
    (held : h ∈ ((start app store loader).run actions).held) {m : ProxyMap app.schema.size}
    (given : h.given = .map m) : app.schema.Admissible m.valueType := by
  have sound := (start_sound store loader).run actions
  refine sound.held h held m ?_
  rw [given]
  exact .map

end Client

end ConfigBinding
