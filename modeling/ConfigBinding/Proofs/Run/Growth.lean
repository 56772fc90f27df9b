import ConfigBinding.Proofs.Run.Paths

/-!
# How a run grows

Only two actions put something new within reach, a bind and the first request for an entry, and both
of them attach one proxy that was just built at the end of a path where nothing was.

## Main Definitions

* `Client.Attaches` — a proxy that was just built comes within reach

## Main Statements

* `Client.Attaches.located_or` — whatever is within reach was so before, or is within the new proxy
* `Client.Coherent.attach` — a client stays coherent if the new proxy fits where it is attached
* `Client.Coherent.act`, `Client.Coherent.run` — steps and runs preserve that a client is coherent

## Design Notes

All numbers in the new proxy are new, and no map in it has entries yet.  Nothing within reach before
can therefore be confused with what is within the new proxy, and the paths into it end there.
-/

namespace ConfigBinding

variable {σ : Type} {app : Application σ}

/-- Under which names the maps have entries, once one of them has one more. -/
theorem Session.find?_addEntry {n : Nat} (w : Session n σ) (serial : Nat) (key : String)
    (p : Proxy n) (other : Nat) (name : String) :
    ((w.addEntry serial key p).entries other).find? name =
      if other = serial ∧ name = key then some p else (w.entries other).find? name := by
  by_cases here : other = serial
  · by_cases same : name = key <;> simp [addEntry, here, same, Dictionary.find?_insert]
  · simp [addEntry, here]

/-- A bind that succeeds has checked the interface and then built it. -/
theorem Application.build_of_bind {i : Fin app.schema.size} {keyPrefix? : Option String}
    {immutable? : Option Bool} {w after : app.State} {p : app.Bound}
    (bound : app.bind i keyPrefix? immutable? w = (.ok p, after)) :
    app.schema.Admissible i ∧
      app.build (immutable?.getD (app.schema.interface i).immutable) i
        (Key.dotted ((keyPrefix?.or (app.schema.interface i).keyPrefix?).getD "")) w =
          (.ok p, after) := by
  unfold bind at bound
  cases accepted : app.schema.check i with
  | error e =>
    rw [accepted] at bound
    cases bound
  | ok =>
    rw [accepted] at bound
    exact ⟨Schema.admissible_of_check accepted, bound⟩

namespace Client

variable {c c' : Client app} {asked asked' : List (Request app.schema.size)}
variable {origin base : Origin} {given given' : Resolved app.schema.size} {p : app.Bound}

/-! ### Attaching a proxy -/

/-- **A proxy that was just built comes within reach**, as the result of a bind or as the entry of a
map, and the client holds it from then on.  Everything else stays as it was. -/
structure Attaches (c c' : Client app) (base : Origin) (p : app.Bound) : Prop where
  numbered : Numbered p.Within c.session.nextSerial c'.session.nextSerial
  held : c'.held = c.held ++ [⟨base, .interface p⟩]
  entriesKept : ∀ serial key q, (c.session.entries serial).find? key = some q →
    (c'.session.entries serial).find? key = some q
  entriesNew : ∀ origin m key q, c.Located origin (.map m) →
    (c'.session.entries m.serial).find? key = some q →
      (c.session.entries m.serial).find? key = some q ∨ origin.step (.entry key) = base ∧ q = p
  /-- No map in the new proxy has entries yet. -/
  empty : ∀ serial key q, (c'.session.entries serial).find? key = some q →
    serial < c.session.nextSerial

namespace Attaches

variable (attaches : c.Attaches c' base p)

include attaches in
theorem root_or {b : Nat} {q : app.Bound} (root : c'.Root b q) :
    c.Root b q ∨ base = ⟨b, []⟩ ∧ q = p := by
  unfold Root at root
  rw [attaches.held] at root
  rcases List.mem_append.mp root with before | new
  · exact .inl before
  · cases List.mem_singleton.mp new
    exact .inr ⟨rfl, rfl⟩

include attaches in
theorem root_kept {b : Nat} {q : app.Bound} (root : c.Root b q) : c'.Root b q := by
  unfold Root
  rw [attaches.held]
  exact List.mem_append_left _ root

include attaches in
theorem located_kept (located : c.Located origin given) : c'.Located origin given :=
  located.mono (fun _ _ => attaches.root_kept) attaches.entriesKept

include attaches in
/-- The numbers within the new proxy are new. -/
theorem nextSerial_le {path : List String} (within : p.Within path given) :
    ∃ serial, given.serial? = some serial ∧ c.session.nextSerial ≤ serial ∧
      serial < c'.session.nextSerial :=
  attaches.numbered.range path given within

include attaches in
theorem not_found_within {path : List String} {m : ProxyMap app.schema.size}
    (within : p.Within path (.map m)) (key : String) (q : app.Bound) :
    (c'.session.entries m.serial).find? key ≠ some q := by
  intro found
  obtain ⟨serial, number, above, -⟩ := attaches.nextSerial_le within
  have below := attaches.empty _ _ _ found
  cases number
  omega

include attaches in
/-- What was within reach has another number than what is within the new proxy. -/
theorem serial?_ne (coherent : c.Coherent asked) {path : List String}
    (before : c.Located origin given) (within : p.Within path given') :
    given.serial? ≠ given'.serial? := by
  intro same
  obtain ⟨serial, number, below⟩ := coherent.issued origin given before
  obtain ⟨serial', number', above, -⟩ := attaches.nextSerial_le within
  rw [number, number'] at same
  cases same
  omega

include attaches in
theorem nextSerial_lt : c.session.nextSerial < c'.session.nextSerial := by
  obtain ⟨serial, -, above, below⟩ := attaches.nextSerial_le .self
  exact above.trans_lt below

include attaches in
/-- **Whatever is within reach** was so before, or is within the new proxy. -/
theorem located_or (located : c'.Located origin given) :
    c.Located origin given ∨ ∃ path, origin = base.follow path ∧ p.Within path given := by
  induction located with
  | bound root =>
    rcases attaches.root_or root with before | ⟨rfl, rfl⟩
    · exact .inl (.bound before)
    · exact .inr ⟨[], (Origin.follow_nil _).symm, .self⟩
  | step _ leads ih =>
    rcases ih with before | ⟨path, rfl, within⟩
    · cases leads with
      | nested bound answers => exact .inl (.step before (.nested bound answers))
      | map bound answers => exact .inl (.step before (.map bound answers))
      | entry found =>
        rcases attaches.entriesNew _ _ _ _ before found with old | ⟨rfl, rfl⟩
        · exact .inl (.step before (.entry old))
        · exact .inr ⟨[], (Origin.follow_nil _).symm, .self⟩
    · cases leads with
      | nested bound answers =>
        exact .inr ⟨_, (Origin.follow_snoc _ _ _).symm, within.snoc_nested bound answers⟩
      | map bound answers =>
        exact .inr ⟨_, (Origin.follow_snoc _ _ _).symm, within.snoc_map bound answers⟩
      | entry found => exact absurd found (attaches.not_found_within within _ _)

end Attaches

/-- **A client stays coherent when a proxy is attached**, if the path to it ends where nothing was,
and the proxy fits the bind or the map that it is attached to. -/
theorem Coherent.attach (coherent : c.Coherent asked) (attaches : c.Attaches c' base p)
    (further : asked <+: asked') (counted : c'.binds = asked'.length)
    (located : c'.Located base (.interface p)) (vacant : ∀ b q, base = ⟨b, []⟩ → ¬ c.Root b q)
    (ofBind : ∀ b, base = ⟨b, []⟩ → ∃ request, asked'[b]? = some request ∧
      app.Fits request.flag request.spot (.interface p))
    (ofMap : ∀ origin m key, c.Located origin (.map m) → origin.step (.entry key) = base →
      app.Fits m.immutable (Application.entrySpot m key) (.interface p)) :
    c'.Coherent asked' where
  counted := counted
  held := by
    intro h holds serial number
    rw [attaches.held] at holds
    rcases List.mem_append.mp holds with before | new
    · exact attaches.located_kept (coherent.held h before serial number)
    · obtain rfl := List.mem_singleton.mp new
      exact located
  roots := by
    intro b q root
    rcases attaches.root_or root with before | ⟨at', rfl⟩
    · obtain ⟨request, found, fits⟩ := coherent.roots b q before
      exact ⟨request, getElem?_of_prefix further found, fits⟩
    · exact ofBind b at'
  roots_unique := by
    intro b q r root root'
    rcases attaches.root_or root with before | ⟨at', rfl⟩
    · rcases attaches.root_or root' with before' | ⟨at', rfl⟩
      · exact coherent.roots_unique b q r before before'
      · exact absurd before (vacant b q at')
    · rcases attaches.root_or root' with before' | ⟨-, rfl⟩
      · exact absurd before' (vacant b r at')
      · rfl
  entries := by
    intro origin m key q reached found
    rcases attaches.located_or reached with before | ⟨path, -, within⟩
    · rcases attaches.entriesNew origin m key q before found with old | ⟨at', rfl⟩
      · exact coherent.entries origin m key q before old
      · exact ofMap origin m key before at'
    · exact absurd found (attaches.not_found_within within key q)
  issued := by
    intro origin given reached
    rcases attaches.located_or reached with before | ⟨path, -, within⟩
    · obtain ⟨serial, number, below⟩ := coherent.issued origin given before
      exact ⟨serial, number, below.trans attaches.nextSerial_lt⟩
    · obtain ⟨serial, number, -, below⟩ := attaches.nextSerial_le within
      exact ⟨serial, number, below⟩
  filled := fun serial key q found =>
    (attaches.empty serial key q found).trans attaches.nextSerial_lt
  unique := by
    intro origin given origin' given' reached reached' same
    rcases attaches.located_or reached with before | ⟨path, rfl, within⟩
    · rcases attaches.located_or reached' with before' | ⟨path', rfl, within'⟩
      · exact coherent.unique origin given origin' given' before before' same
      · exact absurd same (attaches.serial?_ne coherent before within')
    · rcases attaches.located_or reached' with before' | ⟨path', rfl, within'⟩
      · exact absurd same.symm (attaches.serial?_ne coherent before' within)
      · obtain ⟨rfl, rfl⟩ := attaches.numbered.unique path given path' given' within within' same
        exact ⟨rfl, rfl⟩

/-! ### Steps -/

/-- **Taking a result that was within reach already**, or none. -/
theorem Coherent.take {ε : Type} (coherent : c.Coherent asked) {hop : Hop}
    {outcome : Except ε (Resolved app.schema.size)} {after : app.State}
    (entries : after.entries = c.session.entries)
    (nextSerial : c.session.nextSerial ≤ after.nextSerial)
    (known : ∀ given, outcome = .ok given → ∀ serial, given.serial? = some serial →
      c.Located (origin.step hop) given) :
    (c.take (origin.step hop) outcome after).Coherent asked := by
  cases outcome with
  | error e =>
    exact coherent.of_unchanged List.prefix_rfl coherent.counted (fun _ _ => .rfl) entries
      nextSerial coherent.held
  | ok given =>
    refine coherent.of_unchanged List.prefix_rfl coherent.counted (fun b p => ?_) entries
      nextSerial fun h holds serial number => ?_
    · constructor
      · intro root
        rcases List.mem_append.mp root with before | new
        · exact before
        · have at' := congrArg Holding.origin (List.mem_singleton.mp new)
          exact absurd at'.symm Origin.step_ne_bound
      · exact fun root => List.mem_append_left _ root
    · rcases List.mem_append.mp holds with before | new
      · exact coherent.held h before serial number
      · obtain rfl := List.mem_singleton.mp new
        exact known given rfl serial number

/-- What was just built is attached as the result of a bind. -/
theorem Coherent.attaches_bound (coherent : c.Coherent asked) {i : Fin app.schema.size}
    (sound : app.schema.Admissible i) {immutable : Bool} {keyPrefix : String} {after : app.State}
    (built : app.build immutable i keyPrefix c.session = (.ok p, after)) :
    c.Attaches ⟨after, c.binds + 1, c.held ++ [⟨⟨c.binds, []⟩, .interface p⟩]⟩ ⟨c.binds, []⟩ p := by
  have grows := Application.build_grows sound immutable keyPrefix c.session
  rw [built] at grows
  exact {
    numbered := Application.numbered_of_build sound built
    held := rfl
    entriesKept := fun serial key q found => grows.entries ▸ found
    entriesNew := fun origin m key q _ found => .inl (grows.entries ▸ found)
    empty := fun serial key q found => coherent.filled serial key q (grows.entries ▸ found) }

/-- What was just built for a map is attached as an entry that the map did not have. -/
theorem Coherent.attaches_entry (coherent : c.Coherent asked) {m : ProxyMap app.schema.size}
    (located : c.Located origin (.map m)) {key : String}
    (missing : (c.session.entries m.serial).find? key = none)
    (sound : app.schema.Admissible m.valueType) {immutable : Bool} {keyPrefix : String}
    {after : app.State}
    (built : app.build immutable m.valueType keyPrefix c.session = (.ok p, after)) :
    c.Attaches ⟨after.addEntry m.serial key p, c.binds,
      c.held ++ [⟨origin.step (.entry key), .interface p⟩]⟩ (origin.step (.entry key)) p := by
  have grows := Application.build_grows sound immutable keyPrefix c.session
  rw [built] at grows
  have numbered := Application.numbered_of_build sound built
  obtain ⟨_, ⟨⟩, below⟩ := coherent.issued origin (.map m) located
  exact {
    numbered := numbered
    held := rfl
    entriesKept := by
      intro serial name q found
      rw [Session.find?_addEntry, grows.entries, if_neg, found]
      rintro ⟨rfl, rfl⟩
      rw [missing] at found
      cases found
    entriesNew := by
      intro origin' m' name q located' found
      rw [Session.find?_addEntry, grows.entries] at found
      split at found
      · next here =>
        -- the number tells that it is this very map, at the end of this very path
        obtain ⟨sameNumber, rfl⟩ := here
        obtain ⟨rfl, -⟩ := coherent.unique _ _ _ _ located' located (congrArg some sameNumber)
        exact .inr ⟨rfl, (Option.some.inj found).symm⟩
      · exact .inl found
    empty := by
      intro serial name q found
      rw [Session.find?_addEntry, grows.entries] at found
      split at found
      · next here => rwa [here.1]
      · exact coherent.filled serial name q found }

/-- What a bind has built is attached at the path of the bind. -/
theorem Coherent.act_bind (coherent : c.Coherent asked) (request : Request app.schema.size) :
    (c.act (.bind request.root request.keyPrefix? request.immutable?)).Coherent
      (asked ++ [request]) := by
  have grows := Application.bind_grows request.root request.keyPrefix? request.immutable? c.session
  have further := List.prefix_append asked [request]
  have counted : c.binds + 1 = (asked ++ [request]).length := by
    rw [List.length_append, List.length_singleton, coherent.counted]
  cases bound : app.bind request.root request.keyPrefix? request.immutable? c.session with
  | mk outcome after =>
    rw [bound] at grows
    cases outcome with
    | error e =>
      have comes : c.act (.bind request.root request.keyPrefix? request.immutable?) =
          ⟨after, c.binds + 1, c.held⟩ := by
        rw [act, bound]
        rfl
      rw [comes]
      refine coherent.of_unchanged further counted ?_ grows.entries grows.nextSerial coherent.held
      intro b p
      exact .rfl
    | ok p =>
      have comes : c.act (.bind request.root request.keyPrefix? request.immutable?) =
          ⟨after, c.binds + 1, c.held ++ [⟨⟨c.binds, []⟩, .interface p⟩]⟩ := by
        rw [act, bound]
        rfl
      rw [comes]
      obtain ⟨sound, built⟩ := Application.build_of_bind bound
      have made := congrArg Prod.fst built
      obtain ⟨type, inside, -⟩ := Application.type_of_buildWithin sound made
      refine coherent.attach (coherent.attaches_bound sound built) further counted (.bound ?_) ?_
        ?_ ?_
      · exact List.mem_append_right _ (List.mem_singleton_self _)
      · rintro b q ⟨⟩ root
        exact absurd (coherent.root_lt root) (lt_irrefl _)
      · rintro b ⟨⟩
        refine ⟨request, ?_, Application.built_of_buildWithin sound made, type, inside⟩
        rw [coherent.counted, List.getElem?_concat_length]
      · intro origin m key _ there
        exact absurd there Origin.step_ne_bound

/-- What a call answers with was within reach. -/
theorem located_of_invoke (located : c.Located origin (.interface p)) {method : String}
    {arguments : List String} (called : (app.invoke p method arguments c.session).1 = .ok given)
    {serial : Nat} (number : given.serial? = some serial) :
    c.Located (origin.step (.method method)) given := by
  rcases Application.behind_of_invoke called with ⟨value, rfl⟩ | ⟨binding, bound, rfl, behind⟩
  · cases number
  · rcases behind with ⟨child, answers, rfl⟩ | ⟨m, answers, rfl⟩
    · exact .step located (.nested bound answers)
    · exact .step located (.map bound answers)

/-- A request to a map gives the entry that is there, or attaches a new one. -/
theorem Coherent.take_entry (coherent : c.Coherent asked) {m : ProxyMap app.schema.size}
    (located : c.Located origin (.map m)) (key : String) :
    (c.take (origin.step (.entry key)) ((app.entry m key c.session).1.map .interface)
      (app.entry m key c.session).2).Coherent asked := by
  obtain ⟨_, _, _, _, fits⟩ := coherent.made located
  obtain ⟨sound, -, -⟩ := fits.of_map
  unfold Application.entry
  cases there : (c.session.entries m.serial).find? key with
  | some p =>
    refine coherent.take rfl le_rfl ?_
    rintro _ ⟨⟩ _ _
    exact .step located (.entry there)
  | none =>
    have grows := Application.build_grows sound m.immutable (Key.dotted (m.key ++ "." ++ key))
      c.session
    cases built : app.build m.immutable m.valueType (Key.dotted (m.key ++ "." ++ key))
        c.session with
    | mk outcome after =>
      rw [built] at grows
      cases outcome with
      | error e => exact coherent.take grows.entries grows.nextSerial nofun
      | ok p =>
        have comes : c.take (origin.step (.entry key)) (Except.map .interface (.ok p : Except
            BindError app.Bound)) (after.addEntry m.serial key p) =
              ⟨after.addEntry m.serial key p, c.binds,
                c.held ++ [⟨origin.step (.entry key), .interface p⟩]⟩ := rfl
        simp only [comes]
        have made := congrArg Prod.fst built
        obtain ⟨type, inside, -⟩ := Application.type_of_buildWithin sound made
        have attaches := coherent.attaches_entry located there sound built
        have fits : app.Fits m.immutable (Application.entrySpot m key) (.interface p) :=
          ⟨Application.built_of_buildWithin sound made, type, inside⟩
        refine coherent.attach attaches List.prefix_rfl coherent.counted ?_ ?_ ?_ ?_
        · have added : ((after.addEntry m.serial key p).entries m.serial).find? key = some p := by
            rw [Session.find?_addEntry, if_pos ⟨rfl, rfl⟩]
          exact .step (attaches.located_kept located) (.entry added)
        · intro b q there
          exact absurd there Origin.step_ne_bound
        · intro b there
          exact absurd there Origin.step_ne_bound
        · intro origin' m' name located' there
          obtain ⟨rfl, sameHop⟩ := Origin.step_inj there
          cases sameHop
          cases coherent.located_unique located located'
          exact fits

/-- **One action preserves that a client is coherent.** -/
theorem Coherent.act (coherent : c.Coherent asked) (action : Action app.schema.size σ) :
    (c.act action).Coherent (asked ++ action.request?.toList) := by
  cases action with
  | bind i keyPrefix? immutable? => exact coherent.act_bind ⟨i, keyPrefix?, immutable?⟩
  | call position method arguments =>
    simp only [Action.request?, Option.toList_none, List.append_nil, Client.act]
    split
    · next origin p holds =>
      have located := coherent.held _ (List.mem_of_getElem? holds) p.serial rfl
      have keeps := Application.invoke_onlyKeeps p method arguments c.session
      refine coherent.take keeps.entries keeps.nextSerial.ge fun given called serial number => ?_
      exact located_of_invoke located called number
    · exact coherent
  | entry position key =>
    simp only [Action.request?, Option.toList_none, List.append_nil, Client.act]
    split
    · next origin m holds =>
      have located := coherent.held _ (List.mem_of_getElem? holds) m.serial rfl
      exact coherent.take_entry located key
    · exact coherent
  | summary position =>
    simp only [Action.request?, Option.toList_none, List.append_nil, Client.act]
    split
    · next origin p holds =>
      have keeps := app.summary_onlyKeeps p c.session
      exact coherent.of_unchanged List.prefix_rfl coherent.counted (fun _ _ => .rfl) keeps.entries
        keeps.nextSerial.ge coherent.held
    · exact coherent
  | outside change =>
    simp only [Action.request?, Option.toList_none, List.append_nil]
    exact coherent.of_unchanged List.prefix_rfl coherent.counted (fun _ _ => .rfl) rfl le_rfl
      coherent.held

/-- **A run preserves that a client is coherent**, by induction on its actions. -/
theorem Coherent.run (coherent : c.Coherent asked) (actions : List (Action app.schema.size σ)) :
    (c.run actions).Coherent (asked ++ requests actions) := by
  induction actions generalizing c asked with
  | nil =>
    rw [requests, List.filterMap_nil, List.append_nil]
    exact coherent
  | cons action rest ih =>
    have next := ih (coherent.act action)
    rw [List.append_assoc] at next
    have split : requests (action :: rest) = action.request?.toList ++ requests rest := by
      unfold requests
      rw [List.filterMap_cons]
      cases action.request? <;> rfl
    rw [split]
    exact next

/-- Every client that has come this far is coherent. -/
theorem run_coherent (app : Application σ) (store : Store) (loader : σ)
    (actions : List (Action app.schema.size σ)) :
    ((start app store loader).run actions).Coherent (requests actions) :=
  (start_coherent store loader).run actions

end Client

end ConfigBinding
