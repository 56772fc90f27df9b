import ConfigBinding.Proofs.Run.Failure

/-!
# What is loaded, and when

A loader is called only where something is bound: for a bind, after the check, and for the first
request for an entry of a map.  The calls are those that the declarations ask for.

## Main Statements

* `Application.binds_load_in_order` — what a bind and a request for an entry load

## Design Notes

Nothing is assumed of the loader.  Whether a call fails may depend on the store, on the loader's own
state and on the calls before, so the calls are those that are really made, not what could be
expected of them.
-/

namespace ConfigBinding

namespace Application

variable {σ : Type} {app : Application σ}

/-- **What is loaded, and when.**  A bind that the check refuses loads nothing, and leaves the whole
session as it is.  A bind that it accepts calls the loader for the demands of the interface in
order, and fails only by the first call that fails.  So does a request for an entry that a map does
not have yet, with the demands of the map's interface, for every map that is given out in a run.
The demands of an interface are its own, and then those of what nests in it in the order of its
methods; what maps lead to is not among them. -/
theorem binds_load_in_order (app : Application σ) :
    (∀ i keyPrefix? immutable? (w : app.State),
      (∀ e, app.schema.check i = .error e → app.bind i keyPrefix? immutable? w = (.error e, w) ∧
        ∀ calls, app.watched.bind i keyPrefix? immutable? (w.watched calls) =
          (.error e, w.watched calls)) ∧
      (app.schema.check i = .ok () → app.schema.Admissible i ∧
        app.LoadsInOrder (app.schema.demands i) (app.bind i keyPrefix? immutable?)
          (app.watched.bind i keyPrefix? immutable?) w)) ∧
    (∀ store loader actions, ∀ h ∈ ((Client.start app store loader).run actions).held,
      ∀ m, h.given = .map m → app.schema.Admissible m.valueType ∧
        ∀ key (w : app.State), (w.entries m.serial).find? key = none →
          app.LoadsInOrder (app.schema.demands m.valueType) (app.entry m key)
            (app.watched.entry m key) w) ∧
    (∀ i, app.schema.Admissible i → app.schema.demands i = app.schema.ownDemands i ++
      (app.schema.interface i).methods.flatMap
        (app.schema.demandsBelow app.schema.demands i)) := by
  refine ⟨fun i keyPrefix? immutable? w => ⟨?_, ?_⟩, ?_, fun i sound => Schema.demands_eq sound⟩
  · intro e refused
    exact ⟨bind_of_refused refused _ _ w, fun calls =>
      @bind_of_refused _ app.watched i e refused _ _ _⟩
  · intro accepted
    exact ⟨Schema.admissible_of_check accepted, bind_loadsInOrder accepted _ _ w⟩
  · intro store loader actions h held m given
    have sound := Client.admissible_of_held held given
    exact ⟨sound, fun key w missing => entry_loadsInOrder sound missing⟩

/-- An interface that asks for sources and nests in itself. -/
def selfNested : Application Unit where
  schema := .ofVector #v[
    { name := "Node", keyPrefix? := none, immutable := false, sources? := some ["nodes"],
      methods := [⟨"getNode", .interface 0, 0, none, none⟩] }]
  decoder := .standard
  loader := .idle

/-- A node is refused for its circle before its sources are loaded.  Folders are accepted and ask
for nothing; and a document asks for its owner's sources, by which its request fails. -/
theorem archive_documents_load :
    let c := (Client.start archive .empty []).run
      [.bind (0 : Fin 3) none none, .call 0 "getDocuments" []]
    let people : Demand 3 := ⟨[(1, "getOwner")], 2, ["people"]⟩
    let circle := BindError.method "Node" "getNode" (.cyclicInterface ["Node", "Node"])
    (∀ w : selfNested.State, ∀ calls,
      selfNested.watched.bind (0 : Fin 1) none none (w.watched calls) =
        (.error circle, w.watched calls)) ∧
    archive.LoadsInOrder [] (archive.bind (0 : Fin 3) none none)
      (archive.watched.bind (0 : Fin 3) none none) c.session ∧
    archive.LoadsInOrder [people] (archive.entry documents "thesis")
      (archive.watched.entry documents "thesis") c.session ∧
    (archive.entry documents "thesis" c.session).1 =
      .error (folders.demandError people (.unknownSource "people")) := by
  intro c people circle
  have held : ⟨⟨0, [.method "getDocuments"]⟩, .map documents⟩ ∈ c.held :=
    List.mem_of_getElem? (i := 1) rfl
  obtain ⟨binds, requests, -⟩ := binds_load_in_order archive
  obtain ⟨refusals, -, -⟩ := binds_load_in_order selfNested
  refine ⟨fun w => ?_, ?_, ?_, rfl⟩
  · exact ((refusals (0 : Fin 1) none none w).1 circle rfl).2
  · exact ((binds (0 : Fin 3) none none c.session).2 rfl).2
  · exact (requests .empty [] _ _ held documents rfl).2 "thesis" c.session rfl

end Application

end ConfigBinding
