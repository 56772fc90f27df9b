import ConfigBinding.Proofs.Access.Repeating
import ConfigBinding.Proofs.Run.Keeping
import ConfigBinding.Proofs.Run.MapKeys

/-!
# Reading in a run

A proxy within reach of a client may be called, and shown as text, at any time.  What is shown is
what its methods answer at that time, and nothing is changed by it but that leaves are pinned.

## Main Statements

* `Application.Built.summary_eq` — a summary has a field for every method of the declaration
* `Client.summary_shows_methods` — and every field shows what the method answers
* `Client.reading_only_pins` — calls and summaries only pin leaves, and can be repeated

## Design Notes

All answers are those in the session in which the summary begins, although a summary hands on the
session from one field to the next and pins leaves on its way.
-/

namespace ConfigBinding

/-- A key without its prefix is what follows the prefix. -/
theorem ownKey_append (keyPrefix name : String) : ownKey keyPrefix (keyPrefix ++ name) = name := by
  simp [ownKey, String.toList_append]

variable {σ : Type} {app : Application σ}

/-! ### What a summary shows -/

namespace Application

/-- What a summary shows of a method is shown as in the session before the answer. -/
theorem resolverText_fst (resolver : Resolver app.schema.size app.Bound) (w : app.State) :
    (app.resolverText resolver w).1 = (answeredText (app.answer [] resolver w).1 w).1 := by
  rw [resolverText_eq]
  cases resolver with
  | leaf leaf =>
    -- a value and an error have the same text in all sessions
    rw [answer]
    cases leaf.read app.decoder [] w with
    | mk outcome after => cases outcome <;> rfl
  | nested child => rfl
  | map m => rfl

variable {immutable : Bool} {p : app.Bound}

/-- **A summary has a field for every method of the declaration**, in order, and each shows what the
method answers in the session at the start. -/
theorem Built.summary_eq (built : app.Built immutable p) (w : app.State) :
    (app.summary p w).1 = app.schema.name p.type ++ "[" ++
      ", ".intercalate ((app.schema.interface p.type).methods.map fun method =>
        method.ownName ++ "='" ++ (answeredText (app.invoke p method.name [] w).1 w).1 ++ "'") ++
      "]" := by
  have each : ∀ binding ∈ p.bindings, (app.bindingText p.keyPrefix binding w).1 =
      fieldText p.keyPrefix binding.key
        (answeredText (app.invoke p binding.method [] w).1 w).1 := by
    intro binding bound
    rw [bindingText_fst, resolverText_fst, built.invoke_eq bound]
  have tell := built.numbersTell
  rw [Proxy.leaves_eq] at tell
  rw [summary_fst, fieldTexts_eq app p.keyPrefix p.bindings w w tell (.refl _ _ w),
    List.map_congr_left each, built.follows.interfaceName]
  congr 3
  refine map_eq_of_forall₂ built.follows.bindings fun method binding boundBy => ?_
  rw [fieldText, boundBy.key, ownKey_append, boundBy.name]

/-! ### Calls with an expected result -/

/-- A call that takes a value of a shape leaves what the bare call leaves. -/
theorem get_snd (p : app.Bound) (method : String) (arguments : List String) (shape : Shape)
    (w : app.State) :
    (app.get p method arguments shape w).2 = (app.invoke p method arguments w).2 := by
  unfold get
  split
  · next called => rw [called]
  · next called =>
    rw [called]
    split <;> rfl
  · next called => rw [called]

/-- So does a call that takes an interface. -/
theorem nested_snd (p : app.Bound) (method : String) (number : Nat) (w : app.State) :
    (app.nested p method number w).2 = (app.invoke p method [] w).2 := by
  unfold nested
  split
  · next called => rw [called]
  · next called =>
    rw [called]
    split <;> rfl
  · next called => rw [called]

/-- And so does a call that takes a map. -/
theorem map_snd (p : app.Bound) (method : String) (w : app.State) :
    (app.map p method w).2 = (app.invoke p method [] w).2 := by
  unfold map
  split <;> next called => rw [called]

end Application

/-! ### Reading in a run -/

namespace Client

/-- **A summary shows every method.**  At any time in a run a proxy within reach is shown by the
name of its interface and a field for every declared method, in the order of the declaration and
whether or not anything fails.  The field has the name that is declared, or else derived, for the
method, which is what the key of the method is without the prefix of the proxy; and it shows what
the method answers without arguments at that time, or the error.  A method that returns an interface
shows the summary of the proxy behind it, which is within reach as well, and a method that returns a
map shows the keys for which the map has been asked with success, in the order of their bytes. -/
theorem summary_shows_methods (app : Application σ) (store : Store) (loader : σ)
    (actions : List (Action app.schema.size σ)) {origin : Origin} {p : app.Bound}
    (located : ((start app store loader).run actions).Located origin (.interface p)) :
    let c := (start app store loader).run actions
    let methods := (app.schema.interface p.type).methods
    let answer (method : Method app.schema.size) := (app.invoke p method.name [] c.session).1
    (app.summary p c.session).1 = app.schema.name p.type ++ "[" ++
      ", ".intercalate (methods.map fun method =>
        method.ownName ++ "='" ++ (Application.answeredText (answer method) c.session).1 ++ "'") ++
          "]" ∧
    List.Forall₂ (fun method binding => binding.key = p.keyPrefix ++ method.ownName ∧
      ownKey p.keyPrefix binding.key = method.ownName) methods p.bindings ∧
    ∀ method ∈ methods,
      (∀ kind, method.returns = .value kind →
        (∃ value, answer method = .ok (.value value)) ∨ ∃ e, answer method = .error e) ∧
      (∀ i, method.returns = .interface i → ∃ child, answer method = .ok (.interface child) ∧
        child.type = i ∧ c.Located (origin.step (.method method.name)) (.interface child)) ∧
      (∀ i, method.returns = .map i → ∃ m, answer method = .ok (.map m) ∧ m.valueType = i ∧
        ((c.session.keys m).Pairwise fun key other => Text.bytes key < Text.bytes other) ∧
        ∀ key, key ∈ c.session.keys m ↔ ∃ q, (start app store loader).Obtains actions m key q) := by
  intro c methods answer
  obtain ⟨immutable, built⟩ := (run_coherent app store loader actions).built_of_located located
  refine ⟨built.summary_eq c.session, ?_, fun method declared => ?_⟩
  · refine built.follows.bindings.imp fun method binding boundBy => ⟨boundBy.key, ?_⟩
    rw [boundBy.key, ownKey_append]
  · obtain ⟨binding, bound, boundBy⟩ := built.exists_binding declared
    have answers : answer method = (app.answer [] binding.resolver c.session).1 := by
      rw [← built.invoke_eq bound, boundBy.name]
    refine ⟨fun kind returns => ?_, fun i returns => ?_, fun i returns => ?_⟩
    · obtain ⟨leaf, isLeaf⟩ := boundBy.exists_leaf returns
      rw [answers, isLeaf, Application.answer]
      cases leaf.read app.decoder [] c.session with
      | mk outcome after =>
        cases outcome with
        | ok value => exact .inl ⟨value, rfl⟩
        | error e => exact .inr ⟨e, rfl⟩
    · obtain ⟨child, isNested, type⟩ := boundBy.exists_nested returns
      refine ⟨child, by rw [answers, isNested]; rfl, type, ?_⟩
      rw [← boundBy.name]
      exact .step located (.nested bound isNested)
    · obtain ⟨m, isMap, type⟩ := boundBy.exists_map returns
      have within : c.Located (origin.step (.method binding.method)) (.map m) :=
        .step located (.map bound isMap)
      refine ⟨m, by rw [answers, isMap]; rfl, type, ?_, fun key => ?_⟩
      · exact (keys_ascending app store loader actions m.serial).imp Text.bytes_lt_of_lt
      · rw [Session.keys, Dictionary.mem_keys_iff]
        exact exists_congr fun q => found_iff_obtains_of_located within

/-- Once a report and an appendix were given, the folder shows them as the keys of its map, though
the thesis has failed.  The report shows its owner, and that the owner has no name. -/
theorem report_shows_owner :
    let c := (start Application.lateArchive .empty false).run (documentRequests 0)
    ∃ folder report, c.Located ⟨0, []⟩ (.interface folder) ∧
      c.Located ⟨0, [.method "getDocuments", .entry "report"]⟩ (.interface report) ∧
      (Application.lateArchive.summary folder c.session).1 =
        "Folder[documents='{appendix, report}']" ∧
      (Application.lateArchive.summary report c.session).1 =
        "Document[folders='{}', owner='Owner[name='configuration error: no value for " ++
          "property 'documents.report.owner.name' and no default']']" := by
  intro c
  have coherent := run_coherent Application.lateArchive .empty false (documentRequests 0)
  have folder := coherent.held _ (List.mem_of_getElem? (i := 0) rfl) _ rfl
  have report := coherent.held _ (List.mem_of_getElem? (i := 2) rfl) _ rfl
  refine ⟨_, _, folder, report, ?_, ?_⟩
  · obtain ⟨shown, -⟩ :=
      summary_shows_methods Application.lateArchive .empty false (documentRequests 0) folder
    rw [shown]
    rfl
  · obtain ⟨shown, -⟩ :=
      summary_shows_methods Application.lateArchive .empty false (documentRequests 0) report
    rw [shown]
    rfl

/-- **Reading only pins leaves.**  At any time in a run, a call of a proxy within reach leaves the
store, the state of the loader and the entries of all maps as they are, and what leaves keep; only
leaves of the proxy that kept nothing may keep a value from then on, that of their property, and if
the proxy has the method, no leaf but that of the method.  That goes for calls that expect a sort of
result, and for summaries.  A summary is therefore the same when repeated, or after any call. -/
theorem reading_only_pins (app : Application σ) (store : Store) (loader : σ)
    (actions : List (Action app.schema.size σ)) {origin : Origin} {p : app.Bound}
    (located : ((start app store loader).run actions).Located origin (.interface p)) :
    let w := ((start app store loader).run actions).session
    (∀ method arguments,
      w.Pins app.decoder p.leaves (app.invoke p method arguments w).2 ∧
      (∀ binding, p.binding? method = some binding →
        w.Pins app.decoder (leavesAt binding) (app.invoke p method arguments w).2) ∧
      (∀ shape, (app.get p method arguments shape w).2 = (app.invoke p method arguments w).2) ∧
      (app.summary p (app.invoke p method arguments w).2).1 = (app.summary p w).1) ∧
    (∀ method, (app.map p method w).2 = (app.invoke p method [] w).2 ∧
      ∀ number, (app.nested p method number w).2 = (app.invoke p method [] w).2) ∧
    w.Pins app.decoder p.leaves (app.summary p w).2 ∧
    (app.summary p (app.summary p w).2).1 = (app.summary p w).1 := by
  intro w
  obtain ⟨immutable, built⟩ := (run_coherent app store loader actions).built_of_located located
  have called := Application.invoke_pins (w := w) p
  have shown := app.summary_pins p w
  refine ⟨fun method arguments => ⟨called method arguments, ?_, ?_, ?_⟩, fun method => ⟨?_, ?_⟩,
    shown, built.summary_of_pins shown⟩
  · exact fun binding found => Application.invoke_pins_of_binding found arguments w
  · exact fun shape => Application.get_snd p method arguments shape w
  · exact built.summary_of_pins (called method arguments)
  · exact Application.map_snd p method w
  · exact fun number => Application.nested_snd p method number w

/-- The site is bound, and then its server gets a name. -/
def siteRequests (site : Fin 2) : List (Action Application.site.schema.size Unit) :=
  [.bind site none none, .outside fun _ state => (named "one", state)]

/-- Showing the site pins the name of its server, which is a proxy further down and had kept
nothing; and it changes nothing about what is shown. -/
theorem site_shown_twice :
    let c := (start Application.site .empty ()).run (siteRequests 0)
    ∃ site, c.Located ⟨0, []⟩ (.interface site) ∧
      let (text, after) := Application.site.summary site c.session
      c.session.Pins .standard site.leaves after ∧
      c.session.kept 2 = none ∧ after.kept 2 = some (.string "one") ∧
      text = "Site[server='Server[name='one', ports.${0}='missing argument index 0 for " ++
        "template 'ports.${0}' (0 provided)']']" ∧
      (Application.site.summary site after).1 = text := by
  intro c
  have coherent := run_coherent Application.site .empty () (siteRequests 0)
  have located := coherent.held _ (List.mem_of_getElem? (i := 0) rfl) _ rfl
  refine ⟨_, located, ?_⟩
  obtain ⟨-, -, pins, again⟩ :=
    reading_only_pins Application.site .empty () (siteRequests 0) located
  exact ⟨pins, rfl, rfl, rfl, again⟩

end Client

end ConfigBinding
