import ConfigBinding.Proofs.Binding.Demands

/-!
# What an attempt loads

Whoever binds an interface, or asks a map for an entry that is not there yet, has the loader called
for what the interface demands.  So it is a call of that attempt by which the attempt can fail, and
nothing else.

## Main Definitions

* `Application.LoadsInOrder` — an attempt calls the loader for demands in order
* `Application.LoaderFault` — an attempt fails by a call of the loader that it makes
* `Loader.Unfailing` — a loader that never answers with an error

## Main Statements

* `Application.build_loadsInOrder`, `Application.bind_loadsInOrder`,
  `Application.entry_loadsInOrder` — building, binding and first requests load in order
* `Application.LoadsInOrder.loaderFault` — what loads in order fails only by a call that it makes
* `Application.loaderFault_of_build`, `Application.loaderFault_of_entry` — building and requests do

## Design Notes

The calls of an attempt are those that the watched loader writes down during it.  An error names the
cause but not the call; that the loader was called, and answered with this cause, is seen by
watching.
-/

namespace ConfigBinding

namespace Application

variable {σ : Type} {app : Application σ}

/-- **An attempt calls the loader for demands in order.**  Under watch it gives the same result and
leaves the same session, with some calls added to those before.  They are the calls for the demands,
one for each and in order, up to the first that fails; the attempt succeeds if none does, and
otherwise has the error of the demand that could not be met.  They are made in a row, and nothing
else is done to the store. -/
def LoadsInOrder (demands : List (Demand app.schema.size))
    (attempt : app.Attempt BindError app.Bound) (seen : app.watched.Attempt BindError app.Bound)
    (w : app.State) : Prop :=
  ∀ calls, ∃ made, seen (w.watched calls) = ((attempt w).1, (attempt w).2.watched (calls ++ made)) ∧
    app.Heeds demands made ((attempt w).1.map fun _ => ()) ∧
    app.loader.InRow (w.store, w.loader) made ((attempt w).2.store, (attempt w).2.loader)

variable {i : Fin app.schema.size} {w : app.State} {m : ProxyMap app.schema.size} {key : String}
variable {p : app.Bound}

/-! ### What is built, and when -/

/-- A bind that the check refuses does nothing. -/
theorem bind_of_refused {e : BindError} (refused : app.schema.check i = .error e)
    (keyPrefix? : Option String) (immutable? : Option Bool) (w : app.State) :
    app.bind i keyPrefix? immutable? w = (.error e, w) := by
  simp only [bind, refused]

/-- An entry that is there is given again, and nothing else happens. -/
theorem entry_of_found (found : (w.entries m.serial).find? key = some p) :
    app.entry m key w = (.ok p, w) := by
  simp only [entry, found]

/-- **An entry that is not there is built**, in the session as it is at the time of the request, and
added. -/
theorem entry_of_built {after : app.State} (missing : (w.entries m.serial).find? key = none)
    (built : app.build m.immutable m.valueType (Key.dotted (m.key ++ "." ++ key)) w =
      (.ok p, after)) :
    app.entry m key w = (.ok p, after.addEntry m.serial key p) := by
  simp only [entry, missing, built]

/-- If an entry cannot be built, the request fails with the same error. -/
theorem entry_of_failed {e : BindError} {after : app.State}
    (missing : (w.entries m.serial).find? key = none)
    (failed : app.build m.immutable m.valueType (Key.dotted (m.key ++ "." ++ key)) w =
      (.error e, after)) :
    app.entry m key w = (.error e, after) := by
  simp only [entry, missing, failed]

/-! ### What is loaded -/

/-- **Building calls the loader for the demands of the interface.** -/
theorem build_loadsInOrder (sound : app.schema.Admissible i) (immutable : Bool) (keyPrefix : String)
    (w : app.State) :
    app.LoadsInOrder (app.schema.demands i) (app.build immutable i keyPrefix)
      (app.watched.build immutable i keyPrefix) w := by
  intro calls
  have same := @build_unwatched _ app immutable i keyPrefix (w.watched calls)
  have loads := build_effect sound immutable keyPrefix w
  have loadsSeen := @build_effect _ app.watched i sound immutable keyPrefix (w.watched calls)
  have heeds := @heeds_callsFor _ app (app.schema.demands i) w.store w.loader
  have inRow := @callsFor_inRow _ app (app.schema.demands i) w.store w.loader
  have state := congrArg (fun effect => effect.2.2) (loadsSeen.trans (loadAll_watched ..))
  rw [w.unwatched_watched calls] at same
  rw [← loads] at heeds inRow
  refine ⟨_, ?_, heeds, inRow⟩
  -- the session under watch is the other one, together with the calls that it shows
  have shown : (app.watched.build immutable i keyPrefix (w.watched calls)).2.loader.2 =
      calls ++ app.callsFor (app.schema.demands i) w.store w.loader := congrArg Prod.snd state
  rw [same, ← shown, Session.watched_unwatched]

/-- A bind that the check accepts calls the loader as building the interface does. -/
theorem bind_loadsInOrder (accepted : app.schema.check i = .ok ()) (keyPrefix? : Option String)
    (immutable? : Option Bool) (w : app.State) :
    app.LoadsInOrder (app.schema.demands i) (app.bind i keyPrefix? immutable?)
      (app.watched.bind i keyPrefix? immutable?) w := by
  have loads := build_loadsInOrder (Schema.admissible_of_check accepted)
    (immutable?.getD (app.schema.interface i).immutable)
    (Key.dotted ((keyPrefix?.or (app.schema.interface i).keyPrefix?).getD "")) w
  unfold bind
  simp only [accepted]
  exact loads

/-- A request for an entry that is not there calls the loader as building the entry does. -/
theorem entry_loadsInOrder (sound : app.schema.Admissible m.valueType)
    (missing : (w.entries m.serial).find? key = none) :
    app.LoadsInOrder (app.schema.demands m.valueType) (app.entry m key) (app.watched.entry m key) w
    := by
  intro calls
  obtain ⟨made, seen, loads⟩ :=
    build_loadsInOrder sound m.immutable (Key.dotted (m.key ++ "." ++ key)) w calls
  have missingSeen : ((w.watched calls).entries m.serial).find? key = none := missing
  refine ⟨made, ?_⟩
  simp only [entry, missing, missingSeen, seen]
  cases built : app.build m.immutable m.valueType (Key.dotted (m.key ++ "." ++ key)) w with
  | mk outcome after =>
    rw [built] at loads
    cases outcome with
    | error e => exact ⟨rfl, loads⟩
    | ok p => exact ⟨rfl, loads⟩

/-! ### Only the loader can fail -/

/-- **An attempt fails by a call of the loader that it makes**, with an error that says so.  Under
watch it gives that error and leaves the same session, with some calls added to those before.  The
loader has answered the last of them with an error, and the others without.  The last call is for
the sources that are declared by an interface that `i` leads to, and the layers of the error lead to
that interface and to the cause. -/
def LoaderFault (i : Fin app.schema.size) (attempt : app.Attempt BindError app.Bound)
    (seen : app.watched.Attempt BindError app.Bound) (w : app.State) (e : BindError) : Prop :=
  ∀ calls, ∃ met last j cause,
    seen (w.watched calls) = (.error e, (attempt w).2.watched (calls ++ (met ++ [last]))) ∧
    (∀ call ∈ met, app.loader.answer call = .ok ()) ∧ app.loader.answer last = .error cause ∧
    app.schema.LeadsTo i j ∧ (app.schema.interface j).sources? = some last.names ∧
    e.innermost = .sources (app.schema.name j) cause

variable {attempt : app.Attempt BindError app.Bound}
variable {seen : app.watched.Attempt BindError app.Bound} {e : BindError}

/-- **What loads for an interface in order fails only by the last of its calls.** -/
theorem LoadsInOrder.loaderFault (loads : app.LoadsInOrder (app.schema.demands i) attempt seen w)
    (failed : (attempt w).1 = .error e) : app.LoaderFault i attempt seen w e := by
  intro calls
  obtain ⟨made, shown, heeds, -⟩ := loads calls
  rw [failed] at shown heeds
  obtain ⟨met, last, demand, cause, rfl, demanded, answered, asked, refused, rfl⟩ := heeds.of_error
  obtain ⟨leads, sources⟩ := Schema.declared_of_mem_demandsWithin demanded
  rw [← asked] at sources
  exact ⟨met, last, demand.interface, cause, shown, answered, refused, leads, sources,
    Schema.innermost_demandError demand cause⟩

theorem loaderFault_of_build (sound : app.schema.Admissible i) {immutable : Bool}
    {keyPrefix : String} (failed : (app.build immutable i keyPrefix w).1 = .error e) :
    app.LoaderFault i (app.build immutable i keyPrefix) (app.watched.build immutable i keyPrefix) w
      e :=
  (build_loadsInOrder sound immutable keyPrefix w).loaderFault failed

/-- A request for an entry that is there does not fail, and any other one is a first request. -/
theorem loaderFault_of_entry (sound : app.schema.Admissible m.valueType)
    (failed : (app.entry m key w).1 = .error e) :
    app.LoaderFault m.valueType (app.entry m key) (app.watched.entry m key) w e := by
  cases there : (w.entries m.serial).find? key with
  | some p =>
    rw [entry_of_found there] at failed
    cases failed
  | none => exact (entry_loadsInOrder sound there).loaderFault failed

end Application

/-! ### Loaders that never fail -/

/-- Every request is answered without an error. -/
def Loader.Unfailing {σ : Type} (loader : Loader σ) : Prop :=
  ∀ names store state, (loader.load names store state).1 = .ok ()

namespace Application

variable {σ : Type} {app : Application σ} {i : Fin app.schema.size} {w : app.State}
variable {attempt : app.Attempt BindError app.Bound}
variable {seen : app.watched.Attempt BindError app.Bound} {e : BindError}

theorem LoaderFault.not_unfailing (fault : app.LoaderFault i attempt seen w e) :
    ¬ app.loader.Unfailing := by
  obtain ⟨_, last, _, cause, _, _, refused, _⟩ := fault []
  intro unfailing
  rw [Loader.answer, unfailing last.names last.store last.state] at refused
  cases refused

/-- **What fails only by the loader succeeds with a loader that never fails.** -/
theorem exists_ok_of_unfailing
    (faults : ∀ e, (attempt w).1 = .error e → app.LoaderFault i attempt seen w e)
    (unfailing : app.loader.Unfailing) : ∃ p, (attempt w).1 = .ok p := by
  cases outcome : (attempt w).1 with
  | ok p => exact ⟨p, rfl⟩
  | error e => exact absurd unfailing (faults e outcome).not_unfailing

end Application

end ConfigBinding
