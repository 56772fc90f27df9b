import ConfigBinding.Proofs.Run.Identity

/-!
# Given as declared

What a client is given in a run is what the declarations say: those of the interface that was bound,
followed along the path of the result.

## Main Statements

* `Client.given_as_declared` — every proxy and every map that is given out is as declared

## Design Notes

Interfaces may declare a prefix and a flag of their own.  Neither is looked at anywhere but in the
request for a bind, where `Request.spot` and `Request.flag` say how.  The steps of `Schema.Path`
know no prefixes but those that they make themselves, and there is one flag for all that comes from
one bind.
-/

namespace ConfigBinding

variable {σ : Type} {app : Application σ}

namespace Client

/-- **What is given out is as declared.**  A proxy is one of the interface, and under the prefix, to
which its path leads by the declarations; its bindings are those of the methods of the interface, in
order and with the flag of the bind; and a call of a method that keeps nothing reads the property
under the key of the method, as the store is at that time.  A map is one of the interface, and has
the key, to which its path leads, and it has the flag of the bind. -/
theorem given_as_declared (app : Application σ) (store : Store) (loader : σ)
    (actions : List (Action app.schema.size σ)) {h : Holding app.schema.size}
    (held : h ∈ ((start app store loader).run actions).held) (isInstance : h.given.IsInstance) :
    ∃ request : Request app.schema.size, (requests actions)[h.origin.bind]? = some request ∧
      (∀ p, h.given = .interface p →
        app.schema.Path request.spot h.origin.hops (.interface p.type p.keyPrefix) ∧
        p.Follows app.schema request.flag ∧
        (request.flag = false → ∀ method ∈ (app.schema.interface p.type).methods, ∀ kind,
          method.returns = .value kind → method.params = 0 → ∀ arguments w,
            app.invoke p method.name arguments w =
              (((Property.read ⟨p.keyPrefix ++ method.ownName, kind, method.default?⟩ app.decoder
                w.store).mapError .property).map .value, w))) ∧
      (∀ m, h.given = .map m →
        app.schema.Path request.spot h.origin.hops (.map m.valueType m.key) ∧
        m.immutable = request.flag) := by
  have coherent := run_coherent app store loader actions
  obtain ⟨serial, number⟩ := isInstance
  have located := coherent.held h held serial number
  obtain ⟨request, found, spot, path, fits⟩ := coherent.made located
  refine ⟨request, found, ?_, ?_⟩
  · intro p given
    rw [given] at fits
    obtain ⟨built, rfl⟩ := fits.of_interface
    refine ⟨path, built.follows, ?_⟩
    intro forgets method declared kind returns plain arguments w
    rw [forgets] at built
    exact built.invoke_dynamic declared returns plain arguments w
  · intro m given
    rw [given] at fits
    obtain ⟨-, flag, rfl⟩ := fits.of_map
    exact ⟨path, flag⟩

/-- The owner of a document is found where the path leads, under the prefix that the path makes, and
tells the name that the store has there. -/
theorem thesis_owner_as_declared :
    let c := (start Application.lateArchive .empty false).run (thesisRequests 0)
    ∃ h p, c.held[4]? = some h ∧ h.given = .interface p ∧
      folders.Path (.interface (0 : Fin 3) "") h.origin.hops
        (.interface (2 : Fin 3) "documents.thesis.owner.") ∧
      p.Follows folders false ∧
      ∀ w, Application.lateArchive.invoke p "getName" [] w =
        (((Property.read ⟨"documents.thesis.owner.name", .string, none⟩ .standard
          w.store).mapError .property).map .value, w) := by
  intro c
  refine ⟨_, _, rfl, rfl, ?_⟩
  obtain ⟨request, found, ofProxy, -⟩ := given_as_declared Application.lateArchive .empty false
    (thesisRequests 0) (List.mem_of_getElem? (i := 4) rfl) ⟨_, rfl⟩
  cases found
  obtain ⟨path, follows, reads⟩ := ofProxy _ rfl
  refine ⟨path, follows, fun w => ?_⟩
  exact reads rfl _ List.mem_cons_self .string rfl rfl [] w

end Client

end ConfigBinding
