import ConfigBinding.Proofs.Binding.Loads
import ConfigBinding.Proofs.Run.Client

/-!
# What can fail after a check

An interface is checked once, when it is bound.  Whatever is built afterwards, at once or much later
for the entry of a map, is not checked again; still no declaration can turn out to be at fault then,
and no limit of the depth is ever reached.

## Main Definitions

* `BindError.IsTooDeep` — a limit of the depth was reached
* `Application.LimitSuffices` — building an interface never comes to the limit of its depth
* `folders`, `Application.archive` — an example with a circle through maps

## Main Statements

* `Application.fails_only_by_loader` — what is built after a check fails only if the loader does
* `Application.limits_suffice` — the limits of the walk and of building are never reached

## Design Notes

A request to a map is looked at in every session, not only in the one that the run ended in: a map
that was once given out stays usable.
-/

namespace ConfigBinding

/-- The error of a walk, or of building, for which the limit of the depth was too small. -/
def BindError.IsTooDeep (e : BindError) : Prop :=
  ∃ interfaceName, e.innermost = .tooDeep interfaceName

/-! ### An example -/

/-- Folders of documents, each of which has an owner and is in folders; a circle through maps. -/
def folders : Schema :=
  .ofVector #v[
    { name := "Folder", keyPrefix? := none, immutable := false, sources? := none,
      methods := [⟨"getDocuments", .map 1, 0, none, none⟩] },
    { name := "Document", keyPrefix? := none, immutable := false, sources? := none,
      methods := [⟨"getFolders", .map 0, 0, none, none⟩,
        ⟨"getOwner", .interface 2, 0, none, none⟩] },
    { name := "Owner", keyPrefix? := none, immutable := false, sources? := some ["people"],
      methods := [⟨"getName", .value .string, 0, none, none⟩] }]

namespace Application

/-- An application that cannot find out about owners. -/
def archive : Application (List (List String)) :=
  ⟨folders, .standard, .recording ["people"]⟩

/-- The same application where every source is there already. -/
def openArchive : Application Unit :=
  ⟨folders, .standard, .idle⟩

/-- The map of documents that the first folder gives out. -/
def documents : ProxyMap archive.schema.size :=
  ⟨1, (1 : Fin 3), "documents", false⟩

/-- What a document without a known owner fails with. -/
def ownerUnknown : BindError :=
  .method "Document" "getOwner" (.nested (.sources "Owner" (.unknownSource "people")))

variable {σ : Type} {app : Application σ}

/-! ### Faults -/

/-- **After a check only the loader can fail.**  The first part is about building any interface that
the checked one leads to, the second about the requests to any map that is given out in a run.
Either fails only by a call of the loader that it makes itself. -/
theorem fails_only_by_loader {root : Fin app.schema.size}
    (accepted : app.schema.check root = .ok ()) :
    (∀ i, app.schema.LeadsTo root i → ∀ immutable keyPrefix w,
      (∀ e, (app.build immutable i keyPrefix w).1 = .error e →
        app.LoaderFault i (app.build immutable i keyPrefix)
          (app.watched.build immutable i keyPrefix) w e) ∧
      (app.loader.Unfailing → ∃ p, (app.build immutable i keyPrefix w).1 = .ok p)) ∧
    (∀ store loader actions, ∀ h ∈ ((Client.start app store loader).run actions).held,
      ∀ m, h.given = .map m → ∀ key w,
        (∀ e, (app.entry m key w).1 = .error e →
          app.LoaderFault m.valueType (app.entry m key) (app.watched.entry m key) w e) ∧
        (app.loader.Unfailing → ∃ p, (app.entry m key w).1 = .ok p)) := by
  have rootSound := Schema.admissible_of_check accepted
  constructor
  · intro i leads immutable keyPrefix w
    have faults : ∀ e, (app.build immutable i keyPrefix w).1 = .error e →
        app.LoaderFault i (app.build immutable i keyPrefix)
          (app.watched.build immutable i keyPrefix) w e :=
      fun e failed => loaderFault_of_build (rootSound.of_leadsTo leads) failed
    exact ⟨faults, exists_ok_of_unfailing faults⟩
  · intro store loader actions h held m given key w
    have faults : ∀ e, (app.entry m key w).1 = .error e →
        app.LoaderFault m.valueType (app.entry m key) (app.watched.entry m key) w e :=
      fun e failed => loaderFault_of_entry (Client.admissible_of_held held given) failed
    exact ⟨faults, exists_ok_of_unfailing faults⟩

/-- Folders are accepted, and a document that is requested later fails by the loader; where the
loader cannot fail, every document can be built. -/
theorem archive_documents_fail :
    let c := (Client.start archive .empty []).run
      [.bind (0 : Fin 3) none none, .call 0 "getDocuments" []]
    folders.check (0 : Fin 3) = .ok () ∧
      (archive.entry documents "thesis" c.session).1 = .error ownerUnknown ∧
      archive.LoaderFault (1 : Fin 3) (archive.entry documents "thesis")
        (archive.watched.entry documents "thesis") c.session ownerUnknown ∧
      ∀ keyPrefix w, ∃ p, (openArchive.build false (1 : Fin 3) keyPrefix w).1 = .ok p := by
  intro c
  have accepted : folders.check (0 : Fin 3) = .ok () := rfl
  have held : ⟨⟨0, [.method "getDocuments"]⟩, .map documents⟩ ∈ c.held :=
    List.mem_of_getElem? (i := 1) rfl
  have failed : (archive.entry documents "thesis" c.session).1 = .error ownerUnknown := rfl
  obtain ⟨-, ofMaps⟩ := @fails_only_by_loader _ archive (0 : Fin 3) accepted
  have maps : folders.Maps (0 : Fin 3) (1 : Fin 3) := ⟨_, List.mem_cons_self, rfl⟩
  obtain ⟨ofBuilding, -⟩ := @fails_only_by_loader _ openArchive (0 : Fin 3) accepted
  have refused := ofMaps .empty [] _ _ held documents rfl "thesis" c.session
  refine ⟨accepted, failed, refused.1 _ failed, fun keyPrefix w => ?_⟩
  exact (ofBuilding _ maps.leadsTo false keyPrefix w).2 fun _ _ _ => rfl

/-! ### Limits of the depth -/

variable (app) in
/-- Building an interface never reaches the limit of its depth: it does not fail for that, and with
a greater limit it would go the same way and leave the same session. -/
def LimitSuffices (immutable : Bool) (i : Fin app.schema.size) : Prop :=
  ∀ keyPrefix w,
    (∀ e, (app.build immutable i keyPrefix w).1 = .error e → ¬ e.IsTooDeep) ∧
    ∀ limit, app.schema.size ≤ limit →
      app.buildWithin immutable limit i keyPrefix w = app.build immutable i keyPrefix w

theorem LoaderFault.not_isTooDeep {i : Fin app.schema.size}
    {attempt : app.Attempt BindError app.Bound} {seen : app.watched.Attempt BindError app.Bound}
    {w : app.State} {e : BindError} (fault : app.LoaderFault i attempt seen w e) :
    ¬ e.IsTooDeep := by
  obtain ⟨_, _, _, _, _, _, _, _, _, innermost⟩ := fault []
  rintro ⟨interfaceName, deep⟩
  rw [innermost] at deep
  cases deep

theorem limitSuffices_of_admissible {i : Fin app.schema.size} (sound : app.schema.Admissible i)
    (immutable : Bool) : app.LimitSuffices immutable i := by
  intro keyPrefix w
  constructor
  · intro e failed
    exact (loaderFault_of_build sound failed).not_isTooDeep
  · intro limit le
    rw [buildWithin_of_size_le sound le immutable]

/-- **No limit of the depth is ever reached.**  The walk of a check is one that the relation without
a limit has, whatever the schema; and after a check neither building the interface nor a request to
any map that is given out in a run comes to its limit. -/
theorem limits_suffice (app : Application σ) (root : Fin app.schema.size) :
    app.schema.Walks (.interface root) .start (app.schema.check root)
      (app.schema.visit app.schema.walkLimit root .start).2 ∧
    (∀ e, app.schema.check root = .error e → ¬ e.IsTooDeep) ∧
    (∀ limit, app.schema.walkLimit ≤ limit →
      app.schema.visit limit root .start = app.schema.visit app.schema.walkLimit root .start) ∧
    (app.schema.check root = .ok () → ∀ immutable, app.LimitSuffices immutable root) ∧
    (∀ store loader actions, ∀ h ∈ ((Client.start app store loader).run actions).held,
      ∀ m, h.given = .map m →
        app.LimitSuffices m.immutable m.valueType ∧
        ∀ key w e, (app.entry m key w).1 = .error e → ¬ e.IsTooDeep) := by
  refine ⟨app.schema.check_walks root, ?_, ?_, ?_, ?_⟩
  · rintro e refused ⟨interfaceName, deep⟩
    exact (Schema.blames_of_check refused).innermost_ne_tooDeep interfaceName deep
  · intro limit le
    exact app.schema.visit_of_walkLimit_le root le
  · intro accepted immutable
    exact limitSuffices_of_admissible (Schema.admissible_of_check accepted) immutable
  · intro store loader actions h held m given
    have sound := Client.admissible_of_held held given
    refine ⟨limitSuffices_of_admissible sound m.immutable, fun key w e failed => ?_⟩
    exact (loaderFault_of_entry sound failed).not_isTooDeep

/-- Folders are accepted although they are in a circle with documents, and neither binding a folder
nor requesting a document comes to a limit. -/
theorem archive_limits_suffice :
    let c := (Client.start archive .empty []).run
      [.bind (0 : Fin 3) none none, .call 0 "getDocuments" []]
    archive.schema.check (0 : Fin 3) = .ok () ∧ archive.LimitSuffices false (0 : Fin 3) ∧
      (archive.entry documents "thesis" c.session).1 = .error ownerUnknown ∧
      ¬ ownerUnknown.IsTooDeep ∧ archive.LimitSuffices false (1 : Fin 3) := by
  intro c
  have accepted : archive.schema.check (0 : Fin 3) = .ok () := rfl
  have held : ⟨⟨0, [.method "getDocuments"]⟩, .map documents⟩ ∈ c.held :=
    List.mem_of_getElem? (i := 1) rfl
  have failed : (archive.entry documents "thesis" c.session).1 = .error ownerUnknown := rfl
  obtain ⟨-, -, -, built, requested⟩ := limits_suffice archive (0 : Fin 3)
  obtain ⟨enough, notDeep⟩ := requested .empty [] _ _ held documents rfl
  exact ⟨accepted, built accepted false, failed, notDeep "thesis" c.session _ failed, enough⟩

end Application

end ConfigBinding
