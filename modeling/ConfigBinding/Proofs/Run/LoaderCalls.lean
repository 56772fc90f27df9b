import ConfigBinding.Proofs.Run.Loading

/-!
# Calls of the loader in a run

Here nobody touches the state of the loader but the loader itself.  It may be asked for sources
beside what is bound, and the store may change in any way between two steps.

## Main Definitions

* `Deed`, `Client.does`, `Client.doesAll` — steps in which the loader is only ever asked
* `Client.calls`, `Client.callsIn` — the calls of the loader that a step takes, and a run

## Main Statements

* `Client.calls_inRow` — a step does nothing to the store and to the loader but its calls

## Design Notes

Which calls a bind or a request takes is seen by watching it.  That there are no others, in calls of
methods for example, is not seen but proved.
-/

namespace ConfigBinding

/-- What a client does, or somebody beside it. -/
inductive Deed (n : Nat) where
  | bind (i : Fin n) (keyPrefix? : Option String) (immutable? : Option Bool)
  | call (position : Nat) (method : String) (arguments : List String)
  | entry (position : Nat) (key : String)
  | summary (position : Nat)
  /-- The store is changed: a property is set or removed, entries are merged, or anything else. -/
  | edit (change : Store → Store)
  /-- The loader is asked for sources. -/
  | load (names : List String)

namespace Deed

variable {n : Nat} {σ : Type}

/-- A deed as an action, with the loader that there is. -/
def action (loader : Loader σ) : Deed n → Action n σ
  | .bind i keyPrefix? immutable? => .bind i keyPrefix? immutable?
  | .call position method arguments => .call position method arguments
  | .entry position key => .entry position key
  | .summary position => .summary position
  | .edit change => .outside fun store state => (change store, state)
  | .load names => .outside fun store state => (loader.load names store state).2

/-- The store that the loader finds when it is called for a deed. -/
def changed (deed : Deed n) (store : Store) : Store :=
  match deed with
  | .edit change => change store
  | _ => store

end Deed

variable {σ : Type} {app : Application σ}

namespace Client

/-- The client after a deed. -/
def does (c : Client app) (deed : Deed app.schema.size) : Client app :=
  c.act (deed.action app.loader)

/-- The client after a sequence of deeds. -/
def doesAll (c : Client app) (deeds : List (Deed app.schema.size)) : Client app :=
  deeds.foldl does c

/-- The calls of the loader that a deed takes. -/
def calls (c : Client app) : Deed app.schema.size → List (LoaderCall σ)
  | .bind i keyPrefix? immutable? =>
    (app.watched.bind i keyPrefix? immutable? (c.session.watched [])).2.loader.2
  | .entry position key =>
    match c.held[position]? with
    | some ⟨_, .map m⟩ => (app.watched.entry m key (c.session.watched [])).2.loader.2
    | _ => []
  | .load names => [⟨names, c.session.store, c.session.loader⟩]
  | _ => []

/-- The calls of the loader in a run. -/
def callsIn (c : Client app) : List (Deed app.schema.size) → List (LoaderCall σ)
  | [] => []
  | deed :: rest => c.calls deed ++ (c.does deed).callsIn rest

variable {c : Client app}

theorem Sound.does (sound : c.Sound) (deed : Deed app.schema.size) : (c.does deed).Sound :=
  sound.act (deed.action app.loader)

theorem Sound.doesAll (sound : c.Sound) (deeds : List (Deed app.schema.size)) :
    (c.doesAll deeds).Sound := by
  induction deeds generalizing c with
  | nil => exact sound
  | cons deed rest ih => exact ih (sound.does deed)

/-- The calls that an attempt shows under watch are made in a row. -/
theorem inRow_of_loadsInOrder {demands : List (Demand app.schema.size)}
    {attempt : app.Attempt BindError app.Bound} {seen : app.watched.Attempt BindError app.Bound}
    {w : app.State} (loads : app.LoadsInOrder demands attempt seen w) :
    app.loader.InRow (w.store, w.loader) (seen (w.watched [])).2.loader.2
      ((attempt w).2.store, (attempt w).2.loader) := by
  obtain ⟨made, shown, -, inRow⟩ := loads []
  rw [shown]
  exact inRow

theorem bind_inRow (i : Fin app.schema.size) (keyPrefix? : Option String)
    (immutable? : Option Bool) (w : app.State) :
    app.loader.InRow (w.store, w.loader)
      (app.watched.bind i keyPrefix? immutable? (w.watched [])).2.loader.2
      ((app.bind i keyPrefix? immutable? w).2.store,
        (app.bind i keyPrefix? immutable? w).2.loader) := by
  cases accepted : app.schema.check i with
  | error e =>
    rw [Application.bind_of_refused accepted,
      @Application.bind_of_refused _ app.watched i e accepted]
    exact .nil
  | ok => exact inRow_of_loadsInOrder (Application.bind_loadsInOrder accepted _ _ w)

theorem entry_inRow {m : ProxyMap app.schema.size} (sound : app.schema.Admissible m.valueType)
    (key : String) (w : app.State) :
    app.loader.InRow (w.store, w.loader) (app.watched.entry m key (w.watched [])).2.loader.2
      ((app.entry m key w).2.store, (app.entry m key w).2.loader) := by
  cases found : (w.entries m.serial).find? key with
  | some p =>
    have foundSeen : ((w.watched []).entries m.serial).find? key = some p := found
    rw [Application.entry_of_found found,
      @Application.entry_of_found _ app.watched _ _ _ _ foundSeen]
    exact .nil
  | none => exact inRow_of_loadsInOrder (Application.entry_loadsInOrder sound found)

/-- **A deed does nothing to the store and to the loader but its calls**, which are in a row. -/
theorem calls_inRow (sound : c.Sound) (deed : Deed app.schema.size) :
    app.loader.InRow (deed.changed c.session.store, c.session.loader) (c.calls deed)
      ((c.does deed).session.store, (c.does deed).session.loader) := by
  cases deed with
  | bind i keyPrefix? immutable? =>
    rw [does, Deed.action, act, take_session]
    exact bind_inRow i keyPrefix? immutable? c.session
  | call position method arguments =>
    simp only [does, Deed.action, act]
    split
    · next origin p holds =>
      have keeps := Application.invoke_onlyKeeps p method arguments c.session
      rw [take_session, keeps.store, keeps.loader]
      exact .nil
    · exact .nil
  | entry position key =>
    cases holds : c.held[position]? with
    | none =>
      simp only [does, Deed.action, act, calls, holds]
      exact .nil
    | some h =>
      obtain ⟨origin, given⟩ := h
      cases given with
      | map m =>
        have admissible := sound.held _ (List.mem_of_getElem? holds) m .map
        simp only [does, Deed.action, act, calls, holds, take_session]
        exact entry_inRow admissible key c.session
      | _ =>
        simp only [does, Deed.action, act, calls, holds]
        exact .nil
  | summary position =>
    simp only [does, Deed.action, act]
    split
    · next origin p holds =>
      have keeps := app.summary_onlyKeeps p c.session
      rw [keeps.store, keeps.loader]
      exact .nil
    · exact .nil
  | edit change => exact .nil
  | load names => exact .cons .nil

end Client

end ConfigBinding
