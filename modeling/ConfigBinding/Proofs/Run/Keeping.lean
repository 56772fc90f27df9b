import ConfigBinding.Proofs.Run.MethodCalls

/-!
# Values that are kept

A method of an immutable proxy answers as any method does until it has a value, and from then on it
answers with that value.  It does not matter who has called it first, the client or a summary.

## Main Definitions

* `Application.freshAnswer` — what a method that keeps nothing would answer
* `MethodCall.KeepsFirst`, `MethodCall.ReadsAfresh` — the two ways in which calls answer

## Main Statements

* `Client.kept_iff_gets` — what a leaf keeps at the time of a call is what earlier calls of it got
* `Client.first_value_is_kept` — how the calls of a method answer in the course of a run

## Design Notes

Values are kept under the numbers of leaves, and calls tell of proxies and names of methods.  That a
number stands for one method of one proxy is what lets the answer to a call be put down to earlier
calls of the same method.
-/

namespace ConfigBinding

variable {σ : Type} {app : Application σ}

/-- What a method that keeps nothing would answer with at some time. -/
def Application.freshAnswer (app : Application σ) (property : Property) (w : app.State) :
    Except AccessError (Resolved app.schema.size) :=
  ((Leaf.dynamic property).read app.decoder [] w).1.map .value

namespace MethodCall

/-- **A call keeps to the first value**: it answers as an earlier call of the same method that has
got one; and if none has, with the value or the error of the property at the time of the call. -/
def KeepsFirst (property : Property) (earlier : List (MethodCall app)) (call : MethodCall app) :
    Prop :=
  (∀ other ∈ earlier, call.SameMethod other → ∀ given, other.answer = .ok given →
      call.answer = .ok given) ∧
    ((∀ other ∈ earlier, call.SameMethod other → ∀ given, other.answer ≠ .ok given) →
      call.answer = app.freshAnswer property call.session)

/-- **A call reads afresh**: it answers with the value or the error of the property whose key the
template makes of the arguments, at the time of the call, and leaves nothing behind. -/
def ReadsAfresh (template : String) (kind : Kind) (default? : Option String)
    (call : MethodCall app) : Prop :=
  call.after = call.session ∧
    call.answer = match Template.substitute template call.arguments with
      | .ok key => app.freshAnswer ⟨key, kind, default?⟩ call.session
      | .error e => .error (.template e)

end MethodCall

namespace Client

variable {store : Store} {loader : σ} {actions : List (Action app.schema.size σ)}
variable {earlier later : List (MethodCall app)} {call other : MethodCall app}
variable {leaf : Leaf} {property : Property} {serial : Nat} {value : Value}

/-! ### Calls of one method -/

/-- A call of a method with a leaf is one of a leaf within reach. -/
theorem hasLeaf_of_asks {c : Client app} (located : c.Located call.origin (.interface call.proxy))
    (asks : call.Asks (.leaf leaf)) : c.HasLeaf call.origin call.method leaf := by
  obtain ⟨binding, found, answers⟩ := asks
  have named : binding.method = call.method := by simpa using List.find?_some found
  exact ⟨call.proxy, located, binding, List.mem_of_find?_eq_some found, named, answers⟩

/-- The proxy of a call in a run is within reach. -/
theorem located_of_made (made : (start app store loader).methodCallsIn actions = earlier)
    (listed : call ∈ earlier) :
    ((start app store loader).run actions).Located call.origin (.interface call.proxy) := by
  rw [← made] at listed
  exact (start_coherent store loader).located_of_methodCallsIn (start_sound store loader) listed

variable (made : (start app store loader).methodCallsIn actions = earlier ++ call :: later)
include made

/-- A call asks what earlier calls of the same method have asked. -/
theorem asks_of_sameMethod (listed : other ∈ earlier) (same : call.SameMethod other)
    (asks : call.Asks (.leaf leaf)) : other.Asks (.leaf leaf) := by
  have coherent := run_coherent app store loader actions
  have here := located_of_made made (List.mem_append_right earlier List.mem_cons_self)
  have there := located_of_made made (List.mem_append_left _ listed)
  obtain ⟨sameOrigin, sameName⟩ := same
  rw [sameOrigin] at there
  have sameProxy := Resolved.interface.inj (coherent.located_unique here there)
  obtain ⟨binding, found, answers⟩ := asks
  refine ⟨binding, ?_, answers⟩
  rw [← sameProxy, sameName, found]

/-- **At the time of a call in a run**, what is kept is what earlier calls have got. -/
theorem kept_iff_gets :
    (∃ resolver, call.Asks resolver) ∧ ∀ serial value,
      call.session.kept serial = some value ↔ ∃ other ∈ earlier, other.Gets serial value := by
  have inRow := (start_coherent store loader).methodCallsIn_inRow actions
  rw [made] at inRow
  obtain ⟨between, before, there⟩ := inRow.of_append
  cases there with
  | cons asks rest =>
    refine ⟨⟨_, asks⟩, fun serial value => ?_⟩
    rw [before.kept_iff]
    simp [start, Session.start]

/-- **What a leaf keeps at the time of a call** is what an earlier call of the same method has got,
for nothing else has a leaf of that number. -/
theorem kept_iff_answered (asks : call.Asks (.leaf leaf)) (number : leaf.serial? = some serial)
    (value : Value) :
    call.session.kept serial = some value ↔
      ∃ other ∈ earlier, call.SameMethod other ∧ other.answer = .ok (.value value) := by
  rw [(kept_iff_gets made).2]
  constructor
  · rintro ⟨other, listed, leaf', asks', number', answer⟩
    have here := located_of_made made (List.mem_append_right earlier List.mem_cons_self)
    have there := located_of_made made (List.mem_append_left _ listed)
    have same := (run_leavesApart app store loader actions).unique _ _ _ _ _ _ _
      (hasLeaf_of_asks there asks') (hasLeaf_of_asks here asks) number' number
    exact ⟨other, listed, same, answer⟩
  · rintro ⟨other, listed, same, answer⟩
    exact ⟨other, listed, leaf, asks_of_sameMethod made listed same asks, number, answer⟩

/-- A call of a leaf that keeps its value keeps to the first one. -/
theorem keepsFirst_of_asks (asks : call.Asks (.leaf (.immutable property serial))) :
    call.KeepsFirst property earlier := by
  have kept := kept_iff_answered made asks rfl
  constructor
  · intro other listed same given answer
    have asksToo := asks_of_sameMethod made listed same asks
    obtain ⟨value, rfl, -⟩ := asksToo.answer_eq_ok_iff.mp answer
    have found := (kept value).mpr ⟨other, listed, same, answer⟩
    rw [asks.answer_eq, Leaf.read_of_kept found]
    rfl
  · intro never
    have free : call.session.kept serial = none := by
      rw [Option.eq_none_iff_forall_ne_some]
      intro value found
      obtain ⟨other, listed, same, answer⟩ := (kept value).mp found
      exact never other listed same _ answer
    rw [asks.answer_eq, Leaf.read_of_not_kept free]
    rfl

omit made

/-- A call of a method with parameters reads a property afresh. -/
theorem readsAfresh_of_asks {template : String} {kind : Kind} {default? : Option String}
    (asks : call.Asks (.leaf (.parameterized template kind default?))) :
    call.ReadsAfresh template kind default? := by
  unfold MethodCall.ReadsAfresh
  rw [asks.after_eq, asks.answer_eq, Leaf.read]
  cases Template.substitute template call.arguments with
  | error e => exact ⟨rfl, rfl⟩
  | ok key => exact ⟨rfl, rfl⟩

/-- **The first value is kept.**  In the course of a run a method that returns a value is called any
number of times, by the client or within summaries, and everything else may change in between.  If
it has no parameters and the flag of its bind is set, all calls before the first that succeeds, and
that call as well, answer as a method would that keeps nothing: with the value, or the error, of the
property under the key of the method in the store as it is then.  Every later call answers with the
value of the first.  A method with parameters always answers with the value, or the error, of the
property whose key its template makes of the arguments, and nothing is kept.  In summaries there
stands what the calls answer. -/
theorem first_value_is_kept (app : Application σ) (store : Store) (loader : σ)
    (actions : List (Action app.schema.size σ)) :
    (∀ earlier (call : MethodCall app) later,
      (start app store loader).methodCallsIn actions = earlier ++ call :: later →
      ∃ request : Request app.schema.size, (requests actions)[call.origin.bind]? = some request ∧
        app.schema.Path request.spot call.origin.hops
          (.interface call.proxy.type call.proxy.keyPrefix) ∧
        (∃ method ∈ (app.schema.interface call.proxy.type).methods, method.name = call.method) ∧
        ∀ method ∈ (app.schema.interface call.proxy.type).methods, method.name = call.method →
          ∀ kind, method.returns = .value kind →
            (method.params = 0 → request.flag = true → call.KeepsFirst
              ⟨call.proxy.keyPrefix ++ method.ownName, kind, method.default?⟩ earlier) ∧
            (method.params ≠ 0 → ∃ template, method.propertyName? = some template ∧
              call.ReadsAfresh template kind method.default?)) ∧
      (∀ origin p, ((start app store loader).run actions).Located origin (.interface p) →
        ∀ binding ∈ p.bindings, ∀ w, app.bindingText p.keyPrefix binding w =
          let (answer, after) := app.invoke p binding.method [] w
          let (text, after) := Application.answeredText answer after
          (fieldText p.keyPrefix binding.key text, after)) := by
  have coherent := run_coherent app store loader actions
  constructor
  · intro earlier call later made
    have located := located_of_made made (List.mem_append_right earlier List.mem_cons_self)
    obtain ⟨request, found, spot, path, fits⟩ := coherent.made located
    obtain ⟨built, rfl⟩ := fits.of_interface
    obtain ⟨⟨_, binding, asked, rfl⟩, -⟩ := kept_iff_gets made
    obtain ⟨bound, boundDeclared, named, leaves⟩ :=
      built.leaf_of_value (List.mem_of_find?_eq_some asked)
    have name : binding.method = call.method := by simpa using List.find?_some asked
    refine ⟨request, found, path, ⟨bound, boundDeclared, named.trans name⟩, ?_⟩
    intro method declared called kind returns
    -- names tell the methods of an interface apart
    have distinct := (built.sound.wellDeclared _ .refl).names_nodup
    obtain rfl : method = bound := List.inj_on_of_nodup_map distinct declared boundDeclared
      (called.trans (named.trans name).symm)
    obtain ⟨leaf, answers, leafOf⟩ := leaves kind returns
    have asks : call.Asks (.leaf leaf) := ⟨binding, asked, answers⟩
    cases leafOf with
    | kept plain keeps => exact ⟨fun _ _ => keepsFirst_of_asks made asks, absurd plain⟩
    | dynamic plain forgets =>
      refine ⟨fun _ keeps => ?_, absurd plain⟩
      rw [forgets] at keeps
      cases keeps
    | parameterized parameters isTemplate =>
      exact ⟨fun plain => absurd plain parameters,
        fun _ => ⟨_, isTemplate, readsAfresh_of_asks asks⟩⟩
  · intro origin p located binding bound w
    obtain ⟨_, built⟩ := coherent.built_of_located located
    exact built.bindingText_eq bound w

end Client

/-- A site with a server, which has a name and a port for every protocol. -/
def servers : Schema :=
  .ofVector #v[
    { name := "Site", keyPrefix? := none, immutable := true, sources? := none,
      methods := [⟨"getServer", .interface (Fin.last 1), 0, none, none⟩] },
    { name := "Server", keyPrefix? := none, immutable := false, sources? := none,
      methods := [⟨"getName", .value .string, 0, none, none⟩,
        ⟨"getPort", .value .string, 1, some "ports.$\x7b0\x7d", none⟩] }]

/-- The site in an application that needs no sources. -/
def Application.site : Application Unit :=
  ⟨servers, .standard, .idle⟩

namespace Client

/-- A store in which the server has a name. -/
def named (name : String) : Store :=
  ⟨⟨[("server", .table ⟨[("name", .string name)]⟩)]⟩⟩

/-- The server is asked for its name when it has none; then it gets one, the site is shown, the name
is changed, and the server is asked once more. -/
def serverRequests (site : Fin 2) : List (Action Application.site.schema.size Unit) :=
  [.bind site none none, .call 0 "getServer" [], .call 1 "getName" [],
    .outside fun _ state => (named "one", state), .summary 0,
    .outside fun _ state => (named "two", state), .call 1 "getName" []]

/-- The calls of methods that come of the requests. -/
def serverCalls (site : Fin 2) : List (MethodCall Application.site) :=
  (start Application.site .empty ()).methodCallsIn (serverRequests site)

/-- The first call of the name fails as any would.  The last one answers with the name that the
server had when the site was shown, and not with the one that it has now. -/
theorem server_keeps_name :
    let fresh := Application.site.freshAnswer ⟨"server.name", .string, none⟩
    ∃ first shown last, (serverCalls 0)[1]? = some first ∧ (serverCalls 0)[3]? = some shown ∧
      (serverCalls 0)[5]? = some last ∧
      first.answer = fresh first.session ∧
      first.answer = .error (.property (.missing "server.name")) ∧
      shown.answer = .ok (.value (.string "one")) ∧
      last.answer = .ok (.value (.string "one")) ∧
      fresh last.session = .ok (.value (.string "two")) := by
  have split (position : Nat) {call : MethodCall Application.site}
      (found : (serverCalls 0)[position]? = some call) :
      serverCalls 0 =
        (serverCalls 0).take position ++ call :: (serverCalls 0).drop (position + 1) := by
    obtain ⟨below, rfl⟩ := List.getElem?_eq_some_iff.mp found
    rw [← List.drop_eq_getElem_cons below, List.take_append_drop]
  have law := (first_value_is_kept Application.site .empty () (serverRequests 0)).1
  refine ⟨_, _, _, rfl, rfl, rfl, ?_, rfl, rfl, ?_, rfl⟩
  · obtain ⟨request, found, -, -, answers⟩ := law _ _ _ (split 1 rfl)
    cases found
    refine ((answers _ List.mem_cons_self rfl .string rfl).1 rfl rfl).2 ?_
    rintro other listed ⟨-, asks⟩
    obtain rfl := List.mem_singleton.mp listed
    exact absurd asks (by decide)
  · obtain ⟨request, found, -, -, answers⟩ := law _ _ _ (split 5 rfl)
    cases found
    have earlier : _ ∈ (serverCalls 0).take 5 := List.mem_of_getElem? (i := 3) rfl
    exact ((answers _ List.mem_cons_self rfl .string rfl).1 rfl rfl).1 _ earlier ⟨rfl, rfl⟩ _ rfl

end Client

end ConfigBinding
