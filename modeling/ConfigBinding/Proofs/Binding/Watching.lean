import ConfigBinding.Proofs.Binding.Build

/-!
# Watching a loader

Which sources a loader is asked for while interfaces are bound is not to be seen from what comes of
it.  A loader can be watched, though: every call is written down, and everything else goes on as
before.

## Main Definitions

* `LoaderCall` — what a loader is asked for, and in which state
* `Loader.InRow` — calls one after the other, and nothing in between
* `Loader.watched`, `Application.watched` — the same loader, and application, under watch
* `Session.watched`, `Session.unwatched` — a session with the calls so far, and without

## Main Statements

* `Application.build_unwatched`, `Application.bind_unwatched`, `Application.entry_unwatched` —
  watching a loader changes nothing else

## Design Notes

A watched application is an application like any other, so all that holds of building and binding
holds of it too.  The calls are part of the state of its loader.
-/

namespace ConfigBinding

variable {σ : Type}

/-! ### Calls -/

/-- A call of a loader: the names of the sources, and the store and the state of the loader at the
time of the call. -/
structure LoaderCall (σ : Type) where
  names : List String
  store : Store
  state : σ

/-- What a loader answers to a call. -/
def Loader.answer (loader : Loader σ) (call : LoaderCall σ) : Except PropertyError Unit :=
  (loader.load call.names call.store call.state).1

/-- **Calls in a row**: each one in the store and the state that the one before has left.  The pairs
are what the store and the state of the loader are before the first call and after the last. -/
inductive Loader.InRow (loader : Loader σ) : Store × σ → List (LoaderCall σ) → Store × σ → Prop
  | nil {state : Store × σ} : InRow loader state [] state
  | cons {names : List String} {store : Store} {state : σ} {calls : List (LoaderCall σ)}
      {after : Store × σ} (rest : InRow loader (loader.load names store state).2 calls after) :
      InRow loader (store, state) (⟨names, store, state⟩ :: calls) after

/-- The same loader, which writes its calls down, the last one at the end. -/
def Loader.watched (loader : Loader σ) : Loader (σ × List (LoaderCall σ)) where
  load names store seen :=
    let (outcome, after, state) := loader.load names store seen.1
    (outcome, after, state, seen.2 ++ [⟨names, store, seen.1⟩])

/-- The same application, of which the loader is watched. -/
abbrev Application.watched (app : Application σ) : Application (σ × List (LoaderCall σ)) where
  schema := app.schema
  decoder := app.decoder
  loader := app.loader.watched

namespace Session

variable {n : Nat}

/-- A session under watch, after some calls. -/
def watched (w : Session n σ) (calls : List (LoaderCall σ)) :
    Session n (σ × List (LoaderCall σ)) where
  store := w.store
  loader := (w.loader, calls)
  nextSerial := w.nextSerial
  kept := w.kept
  entries := w.entries

/-- A session under watch without the calls. -/
def unwatched (w : Session n (σ × List (LoaderCall σ))) : Session n σ where
  store := w.store
  loader := w.loader.1
  nextSerial := w.nextSerial
  kept := w.kept
  entries := w.entries

@[simp] theorem unwatched_watched (w : Session n σ) (calls : List (LoaderCall σ)) :
    (w.watched calls).unwatched = w := rfl

@[simp] theorem watched_unwatched (w : Session n (σ × List (LoaderCall σ))) :
    w.unwatched.watched w.loader.2 = w := rfl

/-- A watched loader is asked for the same. -/
theorem load_unwatched (w : Session n (σ × List (LoaderCall σ))) (loader : Loader σ)
    (names : List String) :
    w.unwatched.load loader names =
      ((w.load loader.watched names).1, (w.load loader.watched names).2.unwatched) := rfl

end Session

/-! ### Attempts under watch -/

namespace Application

variable {app : Application σ}

/-- **Watching changes nothing**: an attempt under watch gives the same result and leaves the same
session, apart from the calls. -/
def Unwatched {ε α : Type} (attempt : app.Attempt ε α) (seen : app.watched.Attempt ε α) : Prop :=
  ∀ w, attempt w.unwatched = ((seen w).1, (seen w).2.unwatched)

variable {child : Fin app.schema.size → String → app.Attempt BindError app.Bound}
variable {childSeen : Fin app.schema.size → String → app.watched.Attempt BindError app.Bound}

theorem loadSources_unwatched (i : Fin app.schema.size) :
    Unwatched (app.loadSources i) (app.watched.loadSources i) := by
  intro w
  unfold loadSources
  cases (app.schema.interface i).sources? with
  | none => rfl
  | some names =>
    simp only [w.load_unwatched app.loader names]
    cases answer : w.load app.watched.loader names with
    | mk outcome after => cases outcome <;> rfl

theorem resolveValue_unwatched (immutable : Bool) (keyPrefix : String)
    (method : Method app.schema.size) (kind : Kind) :
    Unwatched (app.resolveValue immutable keyPrefix method kind)
      (app.watched.resolveValue immutable keyPrefix method kind) := by
  intro w
  unfold resolveValue
  by_cases plain : method.params = 0
  · simp only [if_pos plain]
    cases method.key keyPrefix with
    | error fault => rfl
    | ok key => cases immutable <;> rfl
  · simp only [if_neg plain]
    cases method.propertyName? <;> rfl

theorem resolve_unwatched (children : ∀ i keyPrefix, Unwatched (child i keyPrefix)
      (childSeen i keyPrefix)) (immutable : Bool) (keyPrefix : String)
    (method : Method app.schema.size) :
    Unwatched (app.resolve child immutable keyPrefix method)
      (app.watched.resolve childSeen immutable keyPrefix method) := by
  intro w
  unfold resolve
  cases method.returns with
  | value kind => exact resolveValue_unwatched immutable keyPrefix method kind w
  | interface i =>
    simp only [resolveNested]
    cases method.key keyPrefix with
    | error fault => rfl
    | ok key =>
      simp only [children i (Key.dotted key) w]
      cases childSeen i (Key.dotted key) w with
      | mk outcome after => cases outcome <;> rfl
  | map i =>
    simp only [resolveMap]
    cases method.key keyPrefix <;> rfl

theorem buildMethod_unwatched (children : ∀ i keyPrefix, Unwatched (child i keyPrefix)
      (childSeen i keyPrefix)) (immutable : Bool) (keyPrefix : String)
    (method : Method app.schema.size) :
    Unwatched (app.buildMethod child immutable keyPrefix method)
      (app.watched.buildMethod childSeen immutable keyPrefix method) := by
  intro w
  unfold buildMethod
  cases method.classify immutable with
  | error fault => rfl
  | ok strategy =>
    simp only [resolve_unwatched children immutable keyPrefix method w]
    cases app.watched.resolve childSeen immutable keyPrefix method w with
    | mk outcome after => cases outcome <;> rfl

theorem buildMethods_unwatched (children : ∀ i keyPrefix, Unwatched (child i keyPrefix)
      (childSeen i keyPrefix)) (immutable : Bool) (interfaceName keyPrefix : String)
    (methods : List (Method app.schema.size)) :
    Unwatched (app.buildMethods child immutable interfaceName keyPrefix methods)
      (app.watched.buildMethods childSeen immutable interfaceName keyPrefix methods) := by
  induction methods with
  | nil => exact fun w => rfl
  | cons method rest ih =>
    intro w
    unfold buildMethods
    simp only [buildMethod_unwatched children immutable keyPrefix method w]
    cases app.watched.buildMethod childSeen immutable keyPrefix method w with
    | mk outcome between =>
      cases outcome with
      | error fault => rfl
      | ok binding =>
        simp only [ih between]
        cases app.watched.buildMethods childSeen immutable interfaceName keyPrefix rest between with
        | mk outcome after => cases outcome <;> rfl

theorem buildWithin_unwatched (immutable : Bool) (limit : Nat) (i : Fin app.schema.size)
    (keyPrefix : String) :
    Unwatched (app.buildWithin immutable limit i keyPrefix)
      (app.watched.buildWithin immutable limit i keyPrefix) := by
  induction limit generalizing i keyPrefix with
  | zero => exact fun w => rfl
  | succ limit ih =>
    intro w
    unfold buildWithin
    simp only [loadSources_unwatched i w]
    cases app.watched.loadSources i w with
    | mk outcome loaded =>
      cases outcome with
      | error e => rfl
      | ok =>
        have methods := buildMethods_unwatched ih immutable (app.schema.name i) keyPrefix
          (app.schema.interface i).methods loaded.issue.2
        have issues : loaded.unwatched.issue = (loaded.issue.1, loaded.issue.2.unwatched) := rfl
        simp only [issues, methods]
        cases app.watched.buildMethods (app.watched.buildWithin immutable limit) immutable
            (app.schema.name i) keyPrefix (app.schema.interface i).methods loaded.issue.2 with
        | mk outcome after => cases outcome <;> rfl

/-- **Building under watch** gives the same proxy, or the same error. -/
theorem build_unwatched (immutable : Bool) (i : Fin app.schema.size) (keyPrefix : String) :
    Unwatched (app.build immutable i keyPrefix) (app.watched.build immutable i keyPrefix) :=
  buildWithin_unwatched immutable app.schema.size i keyPrefix

/-- **Binding under watch** gives the same proxy, or the same error. -/
theorem bind_unwatched (i : Fin app.schema.size) (keyPrefix? : Option String)
    (immutable? : Option Bool) :
    Unwatched (app.bind i keyPrefix? immutable?) (app.watched.bind i keyPrefix? immutable?) := by
  intro w
  unfold bind
  cases app.schema.check i with
  | error e => rfl
  | ok => exact build_unwatched _ _ _ w

/-- **A request for an entry under watch** gives the same entry, or the same error. -/
theorem entry_unwatched (map : ProxyMap app.schema.size) (key : String) :
    Unwatched (app.entry map key) (app.watched.entry map key) := by
  intro w
  unfold entry
  have same : w.unwatched.entries = w.entries := rfl
  rw [same]
  cases (w.entries map.serial).find? key with
  | some p => rfl
  | none =>
    simp only [build_unwatched map.immutable map.valueType (Key.dotted (map.key ++ "." ++ key)) w]
    cases app.watched.build map.immutable map.valueType (Key.dotted (map.key ++ "." ++ key)) w with
    | mk outcome after => cases outcome <;> rfl

end Application

end ConfigBinding
