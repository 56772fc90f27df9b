import ConfigBinding.Proofs.Binding.Description
import ConfigBinding.Proofs.Binding.Instances
import ConfigBinding.Proofs.Run.Client

/-!
# Paths in a run

Everything that a client can be given lies at the end of a path: from the proxy of a bind through
methods and requests to maps.  A run lets the paths grow and changes nothing that lies on one.

## Main Definitions

* `Spot`, `Schema.Path` — where a path leads by the declarations alone
* `Session.Leads` — one step from a proxy or a map, by what it answers with at present
* `Client.Located` — a path from the proxy of a bind leads to a proxy or a map
* `Application.Fits` — a proxy or a map is as the declarations have it at a spot
* `Client.Coherent` — what a run preserves

## Main Statements

* `Application.Fits.step` — a step in a session is a step by the declarations
* `Client.Coherent.made` — where a path leads by the declarations, what lies there fits
* `Client.Coherent.located_unique` — a path leads to one instance only

## Design Notes

The invariant is about everything within reach, whether or not the client has asked for it, so that
it can be kept where a client is not looking: in what is nested, and in the entries of maps.

An entry is found under the number of its map.  That it was built for this very map and no other
rests on the numbers as well, and so the two parts of the invariant, that numbers tell instances
apart and that entries fit their maps, are carried through a run together.
-/

namespace ConfigBinding

/-! ### Declared paths -/

/-- Where a path leads by the declarations: to an interface under a prefix, or to a map with a
key. -/
inductive Spot (n : Nat) where
  | interface (i : Fin n) (keyPrefix : String)
  | map (i : Fin n) (key : String)

namespace Schema

variable (s : Schema)

/-- **One step by the declarations.**  The key of a method is its name, declared or derived, under
the prefix; a nested interface has that key for its prefix, and an entry that of the map with the
text of the request, both with a dot at the end.  What prefix the interface itself declares does not
matter. -/
inductive Step : Spot s.size → Hop → Spot s.size → Prop
  | nested {i j : Fin s.size} {keyPrefix : String} {method : Method s.size}
      (declared : method ∈ (s.interface i).methods) (returns : method.returns = .interface j) :
      Step (.interface i keyPrefix) (.method method.name)
        (.interface j (Key.dotted (keyPrefix ++ method.ownName)))
  | map {i j : Fin s.size} {keyPrefix : String} {method : Method s.size}
      (declared : method ∈ (s.interface i).methods) (returns : method.returns = .map j) :
      Step (.interface i keyPrefix) (.method method.name) (.map j (keyPrefix ++ method.ownName))
  | entry {i : Fin s.size} {mapKey key : String} :
      Step (.map i mapKey) (.entry key) (.interface i (Key.dotted (mapKey ++ "." ++ key)))

/-- Steps in a row. -/
inductive Path (start : Spot s.size) : List Hop → Spot s.size → Prop
  | nil : Path start [] start
  | snoc {hops : List Hop} {between last : Spot s.size} {hop : Hop}
      (path : Path start hops between) (step : s.Step between hop last) :
      Path start (hops ++ [hop]) last

end Schema

/-! ### Binds -/

/-- What a bind asks for. -/
structure Request (n : Nat) where
  root : Fin n
  keyPrefix? : Option String
  immutable? : Option Bool

/-- The flag of a bind: the given one, or else that of the interface. -/
def Request.flag {s : Schema} (request : Request s.size) : Bool :=
  request.immutable?.getD (s.interface request.root).immutable

/-- Where the paths of a bind begin: at the interface, with the given prefix or else its own. -/
def Request.spot {s : Schema} (request : Request s.size) : Spot s.size :=
  .interface request.root
    (Key.dotted ((request.keyPrefix?.or (s.interface request.root).keyPrefix?).getD ""))

/-- What an action asks to bind. -/
def Action.request? {n : Nat} {σ : Type} : Action n σ → Option (Request n)
  | .bind i keyPrefix? immutable? => some ⟨i, keyPrefix?, immutable?⟩
  | _ => none

/-- What actions ask to bind, in order. -/
def requests {n : Nat} {σ : Type} (actions : List (Action n σ)) : List (Request n) :=
  actions.filterMap Action.request?

/-- What was asked for stays at its position. -/
theorem getElem?_of_prefix {α : Type} {l l' : List α} {position : Nat} {a : α} (further : l <+: l')
    (found : l[position]? = some a) : l'[position]? = some a := by
  obtain ⟨more, rfl⟩ := further
  obtain ⟨below, -⟩ := List.getElem?_eq_some_iff.mp found
  rw [List.getElem?_append_left below, found]

/-! ### Paths in a session -/

/-- **One step in a session**: to what a method answers with, or to an entry of a map. -/
inductive Session.Leads {n : Nat} {σ : Type} (w : Session n σ) :
    Resolved n → Hop → Resolved n → Prop
  | nested {p child : Proxy n} {binding : Binding n (Proxy n)} (bound : binding ∈ p.bindings)
      (answers : binding.resolver = .nested child) :
      Leads w (.interface p) (.method binding.method) (.interface child)
  | map {p : Proxy n} {binding : Binding n (Proxy n)} {m : ProxyMap n}
      (bound : binding ∈ p.bindings) (answers : binding.resolver = .map m) :
      Leads w (.interface p) (.method binding.method) (.map m)
  | entry {m : ProxyMap n} {key : String} {p : Proxy n}
      (found : (w.entries m.serial).find? key = some p) :
      Leads w (.map m) (.entry key) (.interface p)

/-- The origin of what methods lead to. -/
def Origin.follow (origin : Origin) (path : List String) : Origin :=
  { origin with hops := origin.hops ++ path.map .method }

theorem Origin.follow_nil (origin : Origin) : origin.follow [] = origin := by
  simp [follow]

theorem Origin.follow_cons (origin : Origin) (name : String) (path : List String) :
    origin.follow (name :: path) = (origin.step (.method name)).follow path := by
  simp [follow, step]

theorem Origin.follow_snoc (origin : Origin) (path : List String) (name : String) :
    origin.follow (path ++ [name]) = (origin.follow path).step (.method name) := by
  simp [follow, step]

theorem Origin.step_inj {origin origin' : Origin} {hop hop' : Hop}
    (same : origin.step hop = origin'.step hop') : origin = origin' ∧ hop = hop' := by
  obtain ⟨sameBind, sameHops⟩ := Origin.mk.inj same
  obtain ⟨sameFirst, sameLast⟩ := List.append_inj' sameHops rfl
  cases origin
  cases origin'
  exact ⟨by congr, (List.cons.inj sameLast).1⟩

theorem Origin.step_ne_bound {origin : Origin} {hop : Hop} {b : Nat} :
    origin.step hop ≠ ⟨b, []⟩ := by
  intro same
  have nothing : origin.hops ++ [hop] = [] := congrArg Origin.hops same
  simp at nothing

variable {σ : Type} {app : Application σ}

namespace Client

/-- The client holds the proxy of the bind of a number. -/
def Root (c : Client app) (b : Nat) (p : app.Bound) : Prop :=
  ⟨⟨b, []⟩, .interface p⟩ ∈ c.held

/-- **A path leads from the proxy of a bind to a proxy or a map.**  The client may or may not have
followed it. -/
inductive Located (c : Client app) : Origin → Resolved app.schema.size → Prop
  | bound {b : Nat} {p : app.Bound} (root : c.Root b p) : Located c ⟨b, []⟩ (.interface p)
  | step {origin : Origin} {given next : Resolved app.schema.size} {hop : Hop}
      (located : Located c origin given) (leads : c.session.Leads given hop next) :
      Located c (origin.step hop) next

variable {c c' : Client app} {origin : Origin} {given next : Resolved app.schema.size}

/-- A path goes on leading where it led, as long as roots and entries stay. -/
theorem Located.mono (located : c.Located origin given)
    (roots : ∀ b p, c.Root b p → c'.Root b p)
    (entries : ∀ serial key p, (c.session.entries serial).find? key = some p →
      (c'.session.entries serial).find? key = some p) : c'.Located origin given := by
  induction located with
  | bound root => exact .bound (roots _ _ root)
  | step _ leads ih =>
    refine .step ih ?_
    cases leads with
    | nested bound answers => exact .nested bound answers
    | map bound answers => exact .map bound answers
    | entry found => exact .entry (entries _ _ _ found)

end Client

/-! ### What lies at a spot -/

namespace Application

/-- **A proxy or a map is as the declarations have it** at a spot, for a bind with a flag. -/
def Fits (app : Application σ) (immutable : Bool) :
    Spot app.schema.size → Resolved app.schema.size → Prop
  | .interface i keyPrefix, .interface p =>
    app.Built immutable p ∧ p.type = i ∧ p.keyPrefix = keyPrefix
  | .map i key, .map m =>
    app.schema.Admissible i ∧ m.valueType = i ∧ m.key = key ∧ m.immutable = immutable
  | _, _ => False

/-- The spot of an entry of a map. -/
def entrySpot (m : ProxyMap app.schema.size) (key : String) : Spot app.schema.size :=
  .interface m.valueType (Key.dotted (m.key ++ "." ++ key))

variable {immutable : Bool} {spot : Spot app.schema.size} {w after : app.State}
variable {given next : Resolved app.schema.size} {hop : Hop} {p : app.Bound}

theorem Fits.of_interface (fits : app.Fits immutable spot (.interface p)) :
    app.Built immutable p ∧ spot = .interface p.type p.keyPrefix := by
  cases spot with
  | interface i keyPrefix =>
    obtain ⟨built, rfl, rfl⟩ := fits
    exact ⟨built, rfl⟩
  | map i key => exact fits.elim

theorem Fits.of_map {m : ProxyMap app.schema.size} (fits : app.Fits immutable spot (.map m)) :
    app.schema.Admissible m.valueType ∧ m.immutable = immutable ∧
      spot = .map m.valueType m.key := by
  cases spot with
  | interface i keyPrefix => exact fits.elim
  | map i key =>
    obtain ⟨sound, rfl, rfl, flag⟩ := fits
    exact ⟨sound, flag, rfl⟩

/-- **A step in a session is a step by the declarations**, if entries fit their maps. -/
theorem Fits.step (fits : app.Fits immutable spot given) (leads : w.Leads given hop next)
    (entries : ∀ m key p, given = .map m → (w.entries m.serial).find? key = some p →
      app.Fits m.immutable (entrySpot m key) (.interface p)) :
    ∃ further, app.schema.Step spot hop further ∧ app.Fits immutable further next := by
  cases leads with
  | @nested p child binding bound answers =>
    obtain ⟨built, rfl⟩ := fits.of_interface
    obtain ⟨method, declared, boundBy⟩ := built.exists_boundBy bound
    obtain ⟨returns, inside⟩ := boundBy.nested child answers
    refine ⟨.interface child.type (Key.dotted (p.keyPrefix ++ method.ownName)), ?_,
      built.of_nested bound answers, rfl, ?_⟩
    · rw [boundBy.name]
      exact .nested declared returns
    · rw [inside, boundBy.key]
  | @map p binding m bound answers =>
    obtain ⟨built, rfl⟩ := fits.of_interface
    obtain ⟨method, declared, boundBy⟩ := built.exists_boundBy bound
    obtain ⟨returns, key, flag⟩ := boundBy.map m answers
    have maps : app.schema.Maps p.type m.valueType := ⟨method, declared, returns⟩
    refine ⟨.map m.valueType (p.keyPrefix ++ method.ownName), ?_,
      built.sound.of_leadsTo maps.leadsTo, rfl, ?_, flag⟩
    · rw [boundBy.name]
      exact .map declared returns
    · rw [key, boundBy.key]
  | @entry m key p found =>
    obtain ⟨-, flag, rfl⟩ := fits.of_map
    exact ⟨_, .entry, flag ▸ entries m key p rfl found⟩

/-- Different methods lead to different answers; the same step leads to the same. -/
theorem Fits.leads_unique (fits : app.Fits immutable spot given) (leads : w.Leads given hop next)
    {other : Resolved app.schema.size} (leads' : w.Leads given hop other) : next = other := by
  cases leads with
  | entry found =>
    cases leads' with
    | entry found' =>
      rw [found] at found'
      rw [Option.some.inj found']
  | nested bound answers =>
    obtain ⟨built, -⟩ := fits.of_interface
    generalize sameHop : Hop.method _ = hop at leads'
    cases leads' with
    | nested bound' answers' =>
      obtain rfl := built.binding_eq bound bound' (Hop.method.inj sameHop)
      rw [answers] at answers'
      rw [Resolver.nested.inj answers']
    | map bound' answers' =>
      obtain rfl := built.binding_eq bound bound' (Hop.method.inj sameHop)
      rw [answers] at answers'
      cases answers'
  | map bound answers =>
    obtain ⟨built, -⟩ := fits.of_interface
    generalize sameHop : Hop.method _ = hop at leads'
    cases leads' with
    | nested bound' answers' =>
      obtain rfl := built.binding_eq bound bound' (Hop.method.inj sameHop)
      rw [answers] at answers'
      cases answers'
    | map bound' answers' =>
      obtain rfl := built.binding_eq bound bound' (Hop.method.inj sameHop)
      rw [answers] at answers'
      rw [Resolver.map.inj answers']

end Application

/-! ### The invariant -/

namespace Client

/-- **What a run preserves.**  All that the client holds lies on a path; the proxies of binds and
the entries of maps fit; numbers that were given out are below the next one; and instances of the
same number are the same, at the end of one path only. -/
structure Coherent (c : Client app) (asked : List (Request app.schema.size)) : Prop where
  counted : c.binds = asked.length
  held : ∀ h ∈ c.held, ∀ serial, h.given.serial? = some serial → c.Located h.origin h.given
  roots : ∀ b p, c.Root b p → ∃ request, asked[b]? = some request ∧
    app.Fits request.flag request.spot (.interface p)
  roots_unique : ∀ b p q, c.Root b p → c.Root b q → p = q
  entries : ∀ origin m key p, c.Located origin (.map m) →
    (c.session.entries m.serial).find? key = some p →
      app.Fits m.immutable (Application.entrySpot m key) (.interface p)
  issued : ∀ origin given, c.Located origin given →
    ∃ serial, given.serial? = some serial ∧ serial < c.session.nextSerial
  filled : ∀ serial key p, (c.session.entries serial).find? key = some p →
    serial < c.session.nextSerial
  unique : ∀ origin given origin' given', c.Located origin given → c.Located origin' given' →
    given.serial? = given'.serial? → origin = origin' ∧ given = given'

theorem start_coherent (store : Store) (loader : σ) : (start app store loader).Coherent [] := by
  have nowhere : ∀ origin given, ¬ (start app store loader).Located origin given := by
    intro origin given located
    induction located with
    | bound root => cases root
    | step _ _ ih => exact ih
  exact {
    counted := rfl
    held := fun _ inNothing => nomatch inNothing
    roots := fun _ _ root => nomatch root
    roots_unique := fun _ _ _ root => nomatch root
    entries := fun _ _ _ _ _ found => nomatch found
    issued := fun origin given located => absurd located (nowhere origin given)
    filled := fun _ _ _ found => nomatch found
    unique := fun origin given _ _ located => absurd located (nowhere origin given) }

variable {c c' : Client app} {asked asked' : List (Request app.schema.size)}
variable {origin base : Origin} {given given' : Resolved app.schema.size} {p : app.Bound}

/-- **What lies on a path fits** where the path leads by the declarations, from where the bind of
the path begins and with the flag of that bind. -/
theorem Coherent.made (coherent : c.Coherent asked) (located : c.Located origin given) :
    ∃ request, asked[origin.bind]? = some request ∧
      ∃ spot, app.schema.Path request.spot origin.hops spot ∧
        app.Fits request.flag spot given := by
  induction located with
  | bound root =>
    obtain ⟨request, found, fits⟩ := coherent.roots _ _ root
    exact ⟨request, found, _, .nil, fits⟩
  | @step origin given next hop located leads ih =>
    obtain ⟨request, found, spot, path, fits⟩ := ih
    obtain ⟨further, step, fits⟩ := fits.step leads fun m key p is listed =>
      coherent.entries origin m key p (is ▸ located) listed
    exact ⟨request, found, further, .snoc path step, fits⟩

/-- A proxy within reach is built as declared, with the flag of its bind. -/
theorem Coherent.built_of_located (coherent : c.Coherent asked)
    (located : c.Located origin (.interface p)) : ∃ immutable, app.Built immutable p := by
  obtain ⟨request, _, _, _, fits⟩ := coherent.made located
  exact ⟨request.flag, fits.of_interface.1⟩

/-- **A path leads to one instance only.** -/
theorem Coherent.located_unique (coherent : c.Coherent asked) (located : c.Located origin given)
    (located' : c.Located origin given') : given = given' := by
  induction located generalizing given' with
  | @bound b p root =>
    generalize last : Origin.mk b [] = end' at located'
    cases located' with
    | bound root' =>
      cases last
      rw [coherent.roots_unique _ _ _ root root']
    | step _ _ => exact absurd last.symm Origin.step_ne_bound
  | @step origin given next hop located leads ih =>
    generalize last : origin.step hop = end' at located'
    cases located' with
    | bound _ => exact absurd last Origin.step_ne_bound
    | step located' leads' =>
      obtain ⟨rfl, rfl⟩ := Origin.step_inj last
      obtain rfl := ih located'
      obtain ⟨_, _, _, _, fits⟩ := coherent.made located
      exact fits.leads_unique leads leads'

/-- The bind of a root is one that was asked for. -/
theorem Coherent.root_lt (coherent : c.Coherent asked) {b : Nat} (root : c.Root b p) :
    b < c.binds := by
  obtain ⟨request, found, -⟩ := coherent.roots b p root
  rw [coherent.counted]
  exact (List.getElem?_eq_some_iff.mp found).1

/-- **Nothing new within reach**: the client may hold more of what lies on paths already, and
numbers may be given out that nobody holds. -/
theorem Coherent.of_unchanged (coherent : c.Coherent asked)
    (further : asked <+: asked') (counted : c'.binds = asked'.length)
    (roots : ∀ b p, c'.Root b p ↔ c.Root b p)
    (entries : c'.session.entries = c.session.entries)
    (nextSerial : c.session.nextSerial ≤ c'.session.nextSerial)
    (held : ∀ h ∈ c'.held, ∀ serial, h.given.serial? = some serial →
      c.Located h.origin h.given) : c'.Coherent asked' := by
  have forth : ∀ {origin given}, c.Located origin given → c'.Located origin given :=
    fun located => located.mono (fun b p => (roots b p).mpr) (fun _ _ _ => entries ▸ id)
  have back : ∀ {origin given}, c'.Located origin given → c.Located origin given :=
    fun located => located.mono (fun b p => (roots b p).mp) (fun _ _ _ => entries ▸ id)
  exact {
    counted := counted
    held := fun h holds serial number => forth (held h holds serial number)
    roots := by
      intro b p root
      obtain ⟨request, found, fits⟩ := coherent.roots b p ((roots b p).mp root)
      exact ⟨request, getElem?_of_prefix further found, fits⟩
    roots_unique := fun b p q root root' =>
      coherent.roots_unique b p q ((roots b p).mp root) ((roots b q).mp root')
    entries := fun origin m key p located found =>
      coherent.entries origin m key p (back located) (entries ▸ found)
    issued := by
      intro origin given located
      obtain ⟨serial, number, below⟩ := coherent.issued origin given (back located)
      exact ⟨serial, number, by omega⟩
    filled := fun serial key p found =>
      (coherent.filled serial key p (entries ▸ found)).trans_le nextSerial
    unique := fun origin given origin' given' located located' =>
      coherent.unique origin given origin' given' (back located) (back located') }

end Client

end ConfigBinding
