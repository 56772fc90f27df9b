import ConfigBinding.Proofs.Run.Failure
import ConfigBinding.Proofs.Run.Growth

/-!
# One instance for each path

Whether two results are the same instance is a matter of their numbers.  In a run it comes to where
they were got: by the same path of methods and requests, from the same bind.

## Main Definitions

* `Resolved.Same` — two results are the same instance
* `Client.Performs` — a client can bring about a session and a result by calls and requests

## Main Statements

* `Client.performs_nested`, `Client.performs_map`, `Client.performs_entryAs`,
  `Client.performs_mapEntry` — accesses with an expected result are calls and requests
* `Client.same_iff_same_origin` — instances are the same if and only if their paths are

## Design Notes

A request that fails builds what is given up again, and the numbers of that are never given to
anything else.  A later request for the same entry may succeed, and from then on the entry stays.
-/

namespace ConfigBinding

/-! ### Instances -/

namespace Resolved

variable {n : Nat}

/-- **Two results are the same instance**, as the numbers of proxies and of maps tell. -/
def Same : Resolved n → Resolved n → Prop
  | .interface p, .interface q => p.serial = q.serial
  | .map m, .map l => m.serial = l.serial
  | _, _ => False

/-- A result is a proxy or a map. -/
def IsInstance (given : Resolved n) : Prop :=
  ∃ serial, given.serial? = some serial

variable {given given' : Resolved n}

theorem Same.serial?_eq (same : given.Same given') : given.serial? = given'.serial? := by
  cases given with
  | value value => exact same.elim
  | interface p =>
    cases given' with
    | interface q => exact congrArg some same
    | _ => exact same.elim
  | map m =>
    cases given' with
    | map l => exact congrArg some same
    | _ => exact same.elim

theorem IsInstance.same_self (isInstance : given.IsInstance) : given.Same given := by
  cases given with
  | value value =>
    obtain ⟨_, ⟨⟩⟩ := isInstance
  | interface p => exact rfl
  | map m => exact rfl

end Resolved

variable {σ : Type} {app : Application σ}

namespace Client

/-! ### Accesses with an expected result -/

variable {c : Client app} {position : Nat} {origin : Origin} {p : app.Bound}
variable {m : ProxyMap app.schema.size}

/-- **A client can bring about a session by calls and requests**, and hold the result of an attempt
afterwards, if it succeeds. -/
def Performs {ε : Type} (c : Client app) (origin : Origin)
    (attempt : Except ε (Resolved app.schema.size) × app.State) : Prop :=
  ∃ actions, (c.run actions).session = attempt.2 ∧
    ∀ given, attempt.1 = .ok given → ⟨origin, given⟩ ∈ (c.run actions).held

/-- An access that changes a session in the same way, and has no other results. -/
theorem Performs.of_agree {ε ε' : Type} {attempt : Except ε (Resolved app.schema.size) × app.State}
    {attempt' : Except ε' (Resolved app.schema.size) × app.State}
    (performs : c.Performs origin attempt) (session : attempt'.2 = attempt.2)
    (results : ∀ given, attempt'.1 = .ok given → attempt.1 = .ok given) :
    c.Performs origin attempt' := by
  obtain ⟨actions, comes, holds⟩ := performs
  exact ⟨actions, comes.trans session.symm, fun given result => holds given (results given result)⟩

/-- What a client takes, it holds. -/
theorem performs_take {ε : Type} {action : Action app.schema.size σ}
    {attempt : Except ε (Resolved app.schema.size) × app.State}
    (takes : c.act action = c.take origin attempt.1 attempt.2) : c.Performs origin attempt := by
  refine ⟨[action], ?_⟩
  rw [run, List.foldl_cons, List.foldl_nil, takes]
  obtain ⟨outcome, after⟩ := attempt
  cases outcome with
  | error e => exact ⟨rfl, nofun⟩
  | ok given =>
    refine ⟨rfl, ?_⟩
    rintro _ ⟨⟩
    exact List.mem_append_right _ (List.mem_singleton_self _)

theorem performs_call (holds : c.held[position]? = some ⟨origin, .interface p⟩) (method : String)
    (arguments : List String) :
    c.Performs (origin.step (.method method)) (app.invoke p method arguments c.session) := by
  have takes : c.act (.call position method arguments) = c.take (origin.step (.method method))
      (app.invoke p method arguments c.session).1 (app.invoke p method arguments c.session).2 := by
    simp only [act, holds]
  exact performs_take takes

theorem performs_entry (holds : c.held[position]? = some ⟨origin, .map m⟩) (key : String) :
    c.Performs (origin.step (.entry key))
      ((app.entry m key c.session).1.map .interface, (app.entry m key c.session).2) := by
  have takes : c.act (.entry position key) = c.take (origin.step (.entry key))
      ((app.entry m key c.session).1.map .interface) (app.entry m key c.session).2 := by
    simp only [act, holds]
  exact performs_take takes

/-- A nested interface of an expected type. -/
theorem performs_nested (holds : c.held[position]? = some ⟨origin, .interface p⟩)
    (method : String) (number : Nat) :
    c.Performs (origin.step (.method method))
      ((app.nested p method number c.session).1.map .interface,
        (app.nested p method number c.session).2) := by
  refine (performs_call holds method []).of_agree ?_ ?_
  all_goals
    unfold Application.nested
    grind [Except.map, Application.unexpected]

/-- A map. -/
theorem performs_map (holds : c.held[position]? = some ⟨origin, .interface p⟩) (method : String) :
    c.Performs (origin.step (.method method))
      ((app.map p method c.session).1.map .map, (app.map p method c.session).2) := by
  refine (performs_call holds method []).of_agree ?_ ?_
  all_goals
    unfold Application.map
    grind [Except.map, Application.unexpected]

/-- An entry of an expected type.  One of another type is not the result, but it is there. -/
theorem performs_entryAs (holds : c.held[position]? = some ⟨origin, .map m⟩) (key : String)
    (number : Nat) :
    c.Performs (origin.step (.entry key))
      ((app.entryAs m key number c.session).1.map .interface,
        (app.entryAs m key number c.session).2) := by
  refine (performs_entry holds key).of_agree ?_ ?_
  all_goals
    unfold Application.entryAs
    grind [Except.map]

/-- An entry of a map that a method returns: a call, and then a request to the result. -/
theorem performs_mapEntry (holds : c.held[position]? = some ⟨origin, .interface p⟩)
    (method key : String) (number : Nat) :
    c.Performs ((origin.step (.method method)).step (.entry key))
      ((app.mapEntry p method key number c.session).1.map .interface,
        (app.mapEntry p method key number c.session).2) := by
  obtain ⟨actions, comes, found⟩ := performs_map holds method
  unfold Application.mapEntry
  cases called : app.map p method c.session with
  | mk outcome between =>
    rw [called] at comes found
    cases outcome with
    | error e => exact ⟨actions, comes, nofun⟩
    | ok m =>
      -- the client holds the map, and may ask it for the entry
      obtain ⟨next, holdsMap⟩ := List.getElem?_of_mem (found (.map m) rfl)
      obtain ⟨more, comesThen, foundThen⟩ := performs_entryAs holdsMap key number
      rw [comes] at comesThen foundThen
      have inARow : c.run (actions ++ more) = (c.run actions).run more := List.foldl_append
      refine ⟨actions ++ more, ?_, fun given result => ?_⟩
      · rw [inARow, comesThen]
        unfold Application.entryAs
        grind [Application.unexpected]
      · rw [inARow]
        refine foundThen given ?_
        rw [← result]
        unfold Application.entryAs
        grind [Except.map, Application.unexpected]

/-! ### Identity -/

/-- What a client holds lies at the end of the path that it was got by. -/
theorem located_of_held (app : Application σ) (store : Store) (loader : σ)
    (actions : List (Action app.schema.size σ)) {h : Holding app.schema.size}
    (held : h ∈ ((start app store loader).run actions).held) (isInstance : h.given.IsInstance) :
    ((start app store loader).run actions).Located h.origin h.given := by
  obtain ⟨serial, number⟩ := isInstance
  exact (run_coherent app store loader actions).held h held serial number

/-- **One instance for each path.**  Of all the proxies and maps that a client was given in a run,
two are the same if and only if they were got from the same bind and by the same methods and
requests from there.  In particular, nothing that comes from one bind is the same as anything that
comes from another. -/
theorem same_iff_same_origin (app : Application σ) (store : Store) (loader : σ)
    (actions : List (Action app.schema.size σ)) {h h' : Holding app.schema.size}
    (held : h ∈ ((start app store loader).run actions).held)
    (held' : h' ∈ ((start app store loader).run actions).held)
    (isInstance : h.given.IsInstance) (isInstance' : h'.given.IsInstance) :
    (h.given.Same h'.given ↔ h.origin = h'.origin) ∧
      (h.origin = h'.origin → h.given = h'.given) ∧
      (h.origin.bind ≠ h'.origin.bind → ¬ h.given.Same h'.given) := by
  have coherent := run_coherent app store loader actions
  have located := located_of_held app store loader actions held isInstance
  have located' := located_of_held app store loader actions held' isInstance'
  have ofSame : h.given.Same h'.given → h.origin = h'.origin := by
    intro same
    exact (coherent.unique _ _ _ _ located located' same.serial?_eq).1
  have ofOrigin : h.origin = h'.origin → h.given = h'.given := by
    intro sameOrigin
    rw [← sameOrigin] at located'
    exact coherent.located_unique located located'
  refine ⟨⟨ofSame, fun sameOrigin => ?_⟩, ofOrigin, fun otherBind same => ?_⟩
  · rw [← ofOrigin sameOrigin]
    exact isInstance.same_self
  · exact otherBind (congrArg Origin.bind (ofSame same))

end Client

/-! ### An example -/

namespace Application

/-- An application that may find out about owners only later. -/
def lateArchive : Application Bool :=
  ⟨folders, .standard, ⟨fun _ store known =>
    (if known then .ok () else .error (.unknownSource "people"), store, known)⟩⟩

end Application

namespace Client

/-- Requests for a document in a folder, of which the first one fails, and for its owner; and the
same once more after another bind. -/
def thesisRequests (folder : Fin 3) : List (Action Application.lateArchive.schema.size Bool) :=
  [.bind folder none none, .call 0 "getDocuments" [], .entry 1 "thesis",
    .outside fun store _ => (store, true),
    .entry 1 "thesis", .entry 1 "thesis", .call 2 "getOwner" [], .call 3 "getOwner" [],
    .bind folder none none, .call 6 "getDocuments" [], .entry 7 "thesis",
    .call 8 "getOwner" []]

/-- Both requests that succeed lead to the same owner, and the other bind leads to another. -/
theorem thesis_owner_same :
    let c := (start Application.lateArchive .empty false).run (thesisRequests 0)
    ∃ first second other, c.held[4]? = some first ∧ c.held[5]? = some second ∧
      c.held[9]? = some other ∧ first.given.Same second.given ∧
        ¬ first.given.Same other.given := by
  intro c
  refine ⟨_, _, _, rfl, rfl, rfl, ?_, ?_⟩
  · have identity := same_iff_same_origin Application.lateArchive .empty false (thesisRequests 0)
      (List.mem_of_getElem? (i := 4) rfl) (List.mem_of_getElem? (i := 5) rfl) ⟨_, rfl⟩ ⟨_, rfl⟩
    exact identity.1.mpr rfl
  · have identity := same_iff_same_origin Application.lateArchive .empty false (thesisRequests 0)
      (List.mem_of_getElem? (i := 4) rfl) (List.mem_of_getElem? (i := 9) rfl) ⟨_, rfl⟩ ⟨_, rfl⟩
    exact identity.2.2 Nat.zero_ne_one

end Client

end ConfigBinding
