import ConfigBinding.Proofs.Binding.Slots
import ConfigBinding.Proofs.Run.Requests
import ConfigBinding.Proofs.Text.ByteOrder

/-!
# The keys of a map

A map lists the keys that it was asked for with success.  It need not keep entries for that: in a
run with slots everything goes the same way, and the keys are got from the filled slots.

## Main Definitions

* `SlottedClient`, `SlottedClient.run` — a client of which the maps have slots, and its runs
* `SlottedClient.shown` — the client with the entries that the slots show

## Main Statements

* `SlottedClient.shown_act`, `SlottedClient.shown_run` — what steps and runs with slots show
* `SlottedClient.mem_keys_iff_asked` — a map has a slot for every key that it was asked for
* `Client.keys_are_obtained` — the keys of a map, and what a further request does
-/

namespace ConfigBinding

variable {σ : Type} {app : Application σ}

/-! ### Runs with slots -/

/-- A client of which the maps have slots. -/
structure SlottedClient (app : Application σ) where
  session : SlottedSession app.schema.size σ
  binds : Nat
  held : List (Holding app.schema.size)

namespace SlottedClient

/-- A client that has done nothing yet. -/
def start (app : Application σ) (store : Store) (loader : σ) : SlottedClient app :=
  ⟨.start store loader, 0, []⟩

/-- The client with the session that is shown. -/
def shown (c : SlottedClient app) : Client app :=
  ⟨c.session.shown, c.binds, c.held⟩

/-- The client with the slots that there are, when all else has changed. -/
def resume (c : SlottedClient app) (after : Client app) : SlottedClient app :=
  ⟨c.session.resume after.session, after.binds, after.held⟩

/-- The client after an action.  Only a request has to do with the slots themselves; whatever else
is done, it is done in the session that is shown. -/
def act (c : SlottedClient app) : Action app.schema.size σ → SlottedClient app
  | .entry position key =>
    match c.held[position]? with
    | some ⟨origin, .map m⟩ =>
      let (outcome, after) := app.slottedEntry m key c.session
      let taken := c.shown.take (origin.step (.entry key)) (outcome.map .interface) after.shown
      ⟨after, taken.binds, taken.held⟩
    | _ => c
  | action => c.resume (c.shown.act action)

/-- The client after a sequence of actions. -/
def run (c : SlottedClient app) (actions : List (Action app.schema.size σ)) : SlottedClient app :=
  actions.foldl act c

theorem run_concat (c : SlottedClient app) (actions : List (Action app.schema.size σ))
    (action : Action app.schema.size σ) :
    c.run (actions ++ [action]) = (c.run actions).act action :=
  List.foldl_append

variable {c : SlottedClient app} {actions : List (Action app.schema.size σ)}

theorem shown_resume {after : Client app} (same : after.session.entries = c.shown.session.entries) :
    (c.resume after).shown = after := by
  obtain ⟨session, binds, held⟩ := after
  exact congrArg (fun session => Client.mk session binds held) (SlottedSession.shown_resume same)

/-- **One action with slots shows as one with entries.** -/
theorem shown_act (sound : c.shown.Sound) (action : Action app.schema.size σ) :
    (c.act action).shown = c.shown.act action := by
  cases action with
  | entry position key =>
    have sameHeld : c.shown.held = c.held := rfl
    simp only [act, Client.act, sameHeld]
    cases holds : c.held[position]? with
    | none => rfl
    | some h =>
      obtain ⟨origin, given⟩ := h
      cases given with
      | map m =>
        have admissible := sound.held _ (List.mem_of_getElem? holds) m .map
        have requested := Application.entry_shown admissible key c.session
        simp only [shown, requested]
        cases (app.slottedEntry m key c.session).1 <;> rfl
      | _ => rfl
  | _ =>
    refine shown_resume ?_
    rcases Client.act_entries sound _ with same | ⟨_, _, _, _, _, isEntry, -⟩
    · exact same
    · cases isEntry

/-- **A run with slots shows as the run with entries.** -/
theorem shown_run (app : Application σ) (store : Store) (loader : σ)
    (actions : List (Action app.schema.size σ)) :
    ((start app store loader).run actions).shown =
      (Client.start app store loader).run actions := by
  induction actions using List.reverseRecOn with
  | nil => rfl
  | append_singleton earlier action ih =>
    have sound := (Client.start_sound store loader : (Client.start app store loader).Sound).run
      earlier
    rw [← ih] at sound
    rw [run_concat, Client.run_concat, shown_act sound, ih]

/-- An action makes the slot that it asks for, and no other one. -/
theorem mem_keys_act {action : Action app.schema.size σ} {serial : Nat} {key : String} :
    key ∈ ((c.act action).session.slots serial).keys ↔
      key ∈ (c.session.slots serial).keys ∨ ∃ position origin m, action = .entry position key ∧
        c.held[position]? = some ⟨origin, .map m⟩ ∧ m.serial = serial := by
  cases action with
  | entry position name =>
    simp only [act]
    split
    · next origin m holds =>
      rw [Application.mem_keys_slottedEntry]
      refine or_congr_right ⟨?_, ?_⟩
      · rintro ⟨rfl, rfl⟩
        exact ⟨position, origin, m, rfl, holds, rfl⟩
      · rintro ⟨_, origin', m', ⟨⟩, holds', rfl⟩
        cases holds.symm.trans holds'
        exact ⟨rfl, rfl⟩
    · next notHeld =>
      refine (or_iff_left ?_).symm
      rintro ⟨_, origin', m', ⟨⟩, holds', -⟩
      exact notHeld _ _ holds'
  | _ =>
    refine (or_iff_left ?_).symm
    rintro ⟨_, _, _, ⟨⟩, -⟩

/-- **A run makes a slot for every key that a map was asked for**, under the number of the map. -/
theorem mem_keys_run {store : Store} {loader : σ} {serial : Nat} {key : String} :
    key ∈ (((start app store loader).run actions).session.slots serial).keys ↔
      ∃ m, m.serial = serial ∧ (Client.start app store loader).Asked actions m key := by
  induction actions using List.reverseRecOn with
  | nil =>
    refine iff_of_false List.not_mem_nil ?_
    rintro ⟨m, -, _, _, _, _, split, -⟩
    simp at split
  | append_singleton earlier action ih =>
    have sameHeld : ((start app store loader).run earlier).held =
        ((Client.start app store loader).run earlier).held :=
      congrArg Client.held (shown_run app store loader earlier)
    rw [run_concat, mem_keys_act, ih, sameHeld]
    simp only [Client.asked_concat_iff, and_or_left, exists_or]
    refine or_congr_right ⟨?_, ?_⟩
    · rintro ⟨position, origin, m, is, holds, number⟩
      exact ⟨m, number, position, origin, is, holds⟩
    · rintro ⟨m, number, position, origin, is, holds⟩
      exact ⟨position, origin, m, is, holds, number⟩

/-- **A map has a slot for every key that it was asked for**, and no others. -/
theorem mem_keys_iff_asked {store : Store} {loader : σ} {origin : Origin}
    {m : ProxyMap app.schema.size} {key : String}
    (held : ⟨origin, .map m⟩ ∈ ((Client.start app store loader).run actions).held) :
    key ∈ (((start app store loader).run actions).session.slots m.serial).keys ↔
      (Client.start app store loader).Asked actions m key := by
  rw [mem_keys_run]
  constructor
  · rintro ⟨other, number, asked⟩
    obtain ⟨_, held'⟩ := asked.exists_held
    have located := Client.located_of_held app store loader actions held ⟨_, rfl⟩
    rwa [Client.map_eq_of_serial_eq located held' number] at asked
  · exact fun asked => ⟨m, rfl, asked⟩

end SlottedClient

namespace Client

/-! ### The keys of a map -/

/-- **The keys of a map are what it was asked for with success.**  At any time in a run the keys of
a map are listed in the order of their bytes, each once, and they are those for which a request to
the map has given an entry.  A further request for such a key gives the same entry and does nothing,
so the loader is not called.  A request for another key is answered by building an entry from the
beginning, with all calls of the loader that this takes, in the session as it is then; if that
fails, the request fails with the same error and the entries of all maps are as before.

A map may keep slots instead of entries; the run goes the same way with them.  The map has a slot
for every key that it was asked for, which holds what a request has given and is empty if none has.
The keys of the filled slots, sorted, are the keys of the map, in whatever order the slots come. -/
theorem keys_are_obtained (app : Application σ) (store : Store) (loader : σ)
    (actions : List (Action app.schema.size σ)) {origin : Origin} {m : ProxyMap app.schema.size}
    (held : ⟨origin, .map m⟩ ∈ ((start app store loader).run actions).held) :
    let w := ((start app store loader).run actions).session
    ((w.keys m).Pairwise fun key other => Text.bytes key < Text.bytes other) ∧
      (∀ key, key ∈ w.keys m ↔ ∃ p, (start app store loader).Obtains actions m key p) ∧
      (∀ key p, (start app store loader).Obtains actions m key p →
        app.entry m key w = (.ok p, w) ∧
          ∀ calls, app.watched.entry m key (w.watched calls) = (.ok p, w.watched calls)) ∧
      (∀ key, (∀ p, ¬ (start app store loader).Obtains actions m key p) →
        let built := app.build m.immutable m.valueType (Key.dotted (m.key ++ "." ++ key)) w
        app.LoadsInOrder (app.schema.demands m.valueType) (app.entry m key)
            (app.watched.entry m key) w ∧
          (∀ p, built.1 = .ok p →
            app.entry m key w = (.ok p, built.2.addEntry m.serial key p)) ∧
          (∀ e, built.1 = .error e → app.entry m key w = (.error e, built.2) ∧
            built.2.entries = w.entries ∧ ∀ other, built.2.keys other = w.keys other)) ∧
      let slotted := (SlottedClient.start app store loader).run actions
      let slots := slotted.session.slots m.serial
      slotted.shown = (start app store loader).run actions ∧
        (∀ key, key ∈ slots.keys ↔ (start app store loader).Asked actions m key) ∧
        (∀ key p, slots.find? key = some p ↔ (start app store loader).Obtains actions m key p) ∧
        ∀ listing, listing.Perm slots.toList → filledKeys listing = w.keys m := by
  intro w
  have admissible := admissible_of_held held rfl
  have entries {key p} : (w.entries m.serial).find? key = some p ↔
      (start app store loader).Obtains actions m key p := found_iff_obtains held
  refine ⟨?_, ?_, ?_, ?_, ?_⟩
  · exact (keys_ascending app store loader actions m.serial).imp Text.bytes_lt_of_lt
  · intro key
    rw [Session.keys, Dictionary.mem_keys_iff]
    exact exists_congr fun p => entries
  · intro key p obtains
    have found := entries.mpr obtains
    exact ⟨Application.entry_of_found found,
      fun calls => Application.entry_of_found found⟩
  · intro key never
    have missing : (w.entries m.serial).find? key = none := by
      cases found : (w.entries m.serial).find? key with
      | none => rfl
      | some p => exact absurd (entries.mp found) (never p)
    refine ⟨Application.entry_loadsInOrder admissible missing, ?_, ?_⟩
    · intro p gives
      exact Application.entry_of_built missing (Prod.ext gives rfl)
    · intro e fails
      have grows := Application.build_grows admissible m.immutable
        (Key.dotted (m.key ++ "." ++ key)) w
      refine ⟨Application.entry_of_failed missing (Prod.ext fails rfl), grows.entries, ?_⟩
      intro other
      rw [Session.keys, Session.keys, grows.entries]
  · have shown := SlottedClient.shown_run app store loader actions
    have shownEntries : (((SlottedClient.start app store loader).run actions).session.slots
        m.serial).entries = w.entries m.serial := congrFun (congrArg (·.session.entries) shown) _
    refine ⟨shown, fun key => ?_, fun key p => ?_, fun listing order => ?_⟩
    · exact SlottedClient.mem_keys_iff_asked held
    · rw [← Slots.find?_entries, shownEntries, entries]
    · rw [Slots.filledKeys_eq order, shownEntries, Session.keys]

/-- Requests for documents in a folder, of which the first one fails. -/
def documentRequests (folder : Fin 3) : List (Action Application.lateArchive.schema.size Bool) :=
  [.bind folder none none, .call 0 "getDocuments" [], .entry 1 "thesis",
    .outside fun store _ => (store, true), .entry 1 "report", .entry 1 "appendix"]

/-- The report and the appendix were given, in this order, and are listed in the other; the thesis
is not listed, and a further request builds it with a call of the loader.  Of the first request an
empty slot is left. -/
theorem documents_keys :
    let w := ((start Application.lateArchive .empty false).run (documentRequests 0)).session
    w.keys Application.documents = ["appendix", "report"] ∧
      (∃ p, (start Application.lateArchive .empty false).Obtains (documentRequests 0)
        Application.documents "report" p) ∧
      (∀ p, ¬ (start Application.lateArchive .empty false).Obtains (documentRequests 0)
        Application.documents "thesis" p) ∧
      Application.lateArchive.LoadsInOrder [⟨[((1 : Fin 3), "getOwner")], (2 : Fin 3), ["people"]⟩]
        (Application.lateArchive.entry Application.documents "thesis")
        (Application.lateArchive.watched.entry Application.documents "thesis") w ∧
      let slots := ((SlottedClient.start Application.lateArchive .empty false).run
        (documentRequests 0)).session.slots Application.documents.serial
      "thesis" ∈ slots.keys ∧ slots.find? "thesis" = none := by
  intro w
  have held : ⟨⟨0, [.method "getDocuments"]⟩, .map Application.documents⟩ ∈
      ((start Application.lateArchive .empty false).run (documentRequests 0)).held :=
    List.mem_of_getElem? (i := 1) rfl
  have keys : w.keys Application.documents = ["appendix", "report"] := rfl
  obtain ⟨-, obtained, -, missing, -, slot, filled, -⟩ :=
    keys_are_obtained Application.lateArchive .empty false (documentRequests 0) held
  have never : ∀ p, ¬ (start Application.lateArchive .empty false).Obtains (documentRequests 0)
      Application.documents "thesis" p := by
    intro p obtains
    have listed := (obtained "thesis").mpr ⟨p, obtains⟩
    rw [keys] at listed
    simp at listed
  refine ⟨keys, (obtained "report").mp ?_, never, (missing "thesis" never).1, ?_, ?_⟩
  · rw [keys]
    simp
  · refine (slot "thesis").mpr ⟨(documentRequests 0).take 2, 1, (documentRequests 0).drop 3, ?_⟩
    exact ⟨_, rfl, rfl⟩
  · exact Option.eq_none_iff_forall_ne_some.mpr fun p held => never p ((filled "thesis" p).mp held)

end Client

end ConfigBinding
