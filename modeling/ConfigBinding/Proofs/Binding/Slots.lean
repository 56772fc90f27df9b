import ConfigBinding.Proofs.Binding.Loads
import ConfigBinding.Proofs.Value.Ordered
import Mathlib.Data.List.Sort
import Mathlib.Data.String.Basic

/-!
# Slots

A map may keep a slot for every key that it was asked for.  The first request for a key makes the
slot, and it stays empty until a request for the key succeeds; so a request that fails leaves an
empty slot behind.  What a map shows are its filled slots.

## Main Definitions

* `Slot`, `Slots` — the slot for a key, and the slots of a map
* `filledKeys` — the keys of a map, got from its slots
* `Slots.entries` — the entries that slots show
* `SlottedSession`, `Application.slottedEntry` — a session with slots, and a request in it
* `SlottedSession.shown` — the session with the entries that the slots show

## Main Statements

* `Slots.find?_entries`, `Slots.filledKeys_eq` — entries and keys are those of the filled slots
* `Application.entry_shown` — a request to a map with slots is a request to a map with entries

## Design Notes

The slots come in no particular order, so the keys of the filled ones are sorted before they are
shown.  That the same keys come of it is proved for every order in which the slots are gone through.

An empty slot shows nothing: a request for its key is answered as if there were none.  So the
session that is shown says everything that can be found out, and what is proved of sessions with
entries holds of those with slots.
-/

namespace ConfigBinding

/-! ### Slots -/

/-- The slot of a map for a key.  It is empty until a request for the key succeeds. -/
structure Slot (n : Nat) where
  key : String
  proxy? : Option (Proxy n)

/-- The slots of a map, one for each key that it was asked for, in no particular order. -/
structure Slots (n : Nat) where
  toList : List (Slot n)
  distinct : (toList.map (·.key)).Nodup

section Slots

variable {n : Nat} {slots : Slots n} {slot : Slot n} {key other : String} {p : Proxy n}

namespace Slot

/-- The slot once a key has an entry.  Only an empty slot for that key is filled. -/
def fill (key : String) (p : Proxy n) (slot : Slot n) : Slot n :=
  if slot.key = key then { slot with proxy? := slot.proxy?.or (some p) } else slot

@[simp] theorem key_fill : (slot.fill key p).key = slot.key := by
  unfold fill
  split <;> rfl

theorem map_key_fill (listing : List (Slot n)) :
    (listing.map (fill key p)).map (·.key) = listing.map (·.key) := by
  rw [List.map_map]
  exact List.map_congr_left fun slot _ => key_fill

/-- The entry that a slot shows. -/
def shown? (slot : Slot n) : Option (String × Proxy n) :=
  slot.proxy?.map (slot.key, ·)

end Slot

/-- **The keys of a map**, as they are got from its slots: those of the filled ones, sorted. -/
def filledKeys (listing : List (Slot n)) : List String :=
  ((listing.filter (·.proxy?.isSome)).map (·.key)).mergeSort

namespace Slots

/-- No slots. -/
def empty : Slots n :=
  ⟨[], List.nodup_nil⟩

/-- The keys that there are slots for. -/
def keys (slots : Slots n) : List String :=
  slots.toList.map (·.key)

/-- The proxy in the slot for a key, if there is one and it is filled. -/
def find? (slots : Slots n) (key : String) : Option (Proxy n) :=
  (slots.toList.find? (·.key == key)).bind (·.proxy?)

/-- The slots once a map is asked for a key: with an empty one more, if there is none for it. -/
def touch (slots : Slots n) (key : String) : Slots n :=
  if known : key ∈ slots.keys then slots
  else ⟨⟨key, none⟩ :: slots.toList, List.nodup_cons.mpr ⟨known, slots.distinct⟩⟩

/-- The slots once a key has an entry. -/
def fill (slots : Slots n) (key : String) (p : Proxy n) : Slots n where
  toList := slots.toList.map (.fill key p)
  distinct := by
    rw [Slot.map_key_fill]
    exact slots.distinct

/-- The entries that the slots of a map show. -/
def entries (slots : Slots n) : Dictionary (Proxy n) :=
  .ofList (slots.toList.filterMap Slot.shown?)

theorem mem_keys_touch : other ∈ (slots.touch key).keys ↔ other ∈ slots.keys ∨ other = key := by
  unfold touch
  split
  · next known =>
    refine ⟨.inl, ?_⟩
    rintro (before | rfl)
    · exact before
    · exact known
  · exact List.mem_cons.trans or_comm

theorem keys_fill : (slots.fill key p).keys = slots.keys :=
  Slot.map_key_fill slots.toList

/-- A filled slot is found by its key, as no other slot is for that key. -/
theorem find?_eq_some_iff : slots.find? key = some p ↔ ⟨key, some p⟩ ∈ slots.toList := by
  rw [find?, Option.bind_eq_some_iff]
  constructor
  · rintro ⟨⟨name, _⟩, found, rfl⟩
    obtain rfl : name = key := by simpa using List.find?_some found
    exact List.mem_of_find?_eq_some found
  · intro listed
    cases found : slots.toList.find? (·.key == key) with
    | none =>
      have never := List.find?_eq_none.mp found _ listed
      simp at never
    | some slot =>
      have named : slot.key = key := by simpa using List.find?_some found
      have same := List.inj_on_of_nodup_map slots.distinct (List.mem_of_find?_eq_some found) listed
        named
      exact ⟨slot, rfl, congrArg Slot.proxy? same⟩

/-- Asking does not fill a slot, nor empty one. -/
theorem find?_touch : (slots.touch key).find? other = slots.find? other := by
  ext p
  rw [find?_eq_some_iff, find?_eq_some_iff, touch]
  split
  · rfl
  · simp

/-- Filling an empty slot gives its key an entry, and changes nothing for the other keys. -/
theorem find?_fill (known : key ∈ slots.keys) (unfilled : slots.find? key = none) :
    (slots.fill key p).find? other = if other = key then some p else slots.find? other := by
  have sameKeys : (fun slot : Slot n => (slot.fill key p).key == other) = (·.key == other) := by
    funext slot
    rw [Slot.key_fill]
  have searched : (slots.fill key p).find? other =
      ((slots.toList.find? (·.key == other)).map (Slot.fill key p)).bind (·.proxy?) := by
    rw [find?, fill, List.find?_map]
    exact congrArg (fun named => ((slots.toList.find? named).map _).bind _) sameKeys
  rw [searched]
  cases found : slots.toList.find? (·.key == other) with
  | none =>
    have absent : other ≠ key := by
      rintro rfl
      obtain ⟨slot, listed, named⟩ := List.mem_map.mp known
      simpa [named] using List.find?_eq_none.mp found slot listed
    rw [if_neg absent, find?, found]
    rfl
  | some slot =>
    have named : slot.key = other := by simpa using List.find?_some found
    have before : slots.find? other = slot.proxy? := by
      rw [find?, found]
      rfl
    by_cases here : other = key
    · subst here
      rw [before] at unfilled
      simp [Slot.fill, named, unfilled]
    · rw [if_neg here, before]
      simp [Slot.fill, named, here]

/-! ### The entries that slots show -/

theorem map_fst_filterMap_shown? (listing : List (Slot n)) :
    (listing.filterMap Slot.shown?).map (·.1) =
      (listing.filter (·.proxy?.isSome)).map (·.key) := by
  induction listing with
  | nil => rfl
  | cons slot rest ih =>
    cases filled : slot.proxy? <;> simp [Slot.shown?, filled, ih]

theorem mem_filterMap_shown? {listing : List (Slot n)} :
    (key, p) ∈ listing.filterMap Slot.shown? ↔ ⟨key, some p⟩ ∈ listing := by
  rw [List.mem_filterMap]
  constructor
  · rintro ⟨⟨name, proxy?⟩, listed, shown⟩
    obtain ⟨q, rfl, same⟩ := Option.map_eq_some_iff.mp shown
    obtain ⟨rfl, rfl⟩ := Prod.mk.inj same
    exact listed
  · exact fun listed => ⟨_, listed, rfl⟩

theorem nodup_filled (slots : Slots n) :
    ((slots.toList.filter (·.proxy?.isSome)).map (·.key)).Nodup :=
  slots.distinct.sublist (List.filter_sublist.map _)

/-- **The slots show their filled ones as entries.** -/
theorem find?_entries : slots.entries.find? key = slots.find? key := by
  ext p
  have distinct : ((slots.toList.filterMap Slot.shown?).map (·.1)).Nodup := by
    rw [map_fst_filterMap_shown?]
    exact slots.nodup_filled
  rw [entries, Dictionary.find?_ofList_eq_some_iff distinct, mem_filterMap_shown?,
    find?_eq_some_iff]

/-- Slots that are filled with the same show the same entries. -/
theorem entries_eq {d : Dictionary (Proxy n)} (ascending : d.keys.Pairwise (· < ·))
    (same : ∀ key, slots.find? key = d.find? key) : slots.entries = d :=
  Dictionary.eq_of_find?_eq (Dictionary.ascending_ofList _) ascending fun key => by
    rw [find?_entries, same]

theorem entries_touch : (slots.touch key).entries = slots.entries :=
  entries_eq (Dictionary.ascending_ofList _) fun other => by rw [find?_touch, find?_entries]

theorem entries_fill (known : key ∈ slots.keys) (unfilled : slots.find? key = none) :
    (slots.fill key p).entries = slots.entries.insert key p :=
  entries_eq (Dictionary.ascending_insert (Dictionary.ascending_ofList _) key p) fun other => by
    rw [find?_fill known unfilled, Dictionary.find?_insert, find?_entries]

/-- **The keys of the filled slots, sorted, are those of the entries**, in whatever order the slots
are gone through. -/
theorem filledKeys_eq {listing : List (Slot n)} (order : listing.Perm slots.toList) :
    filledKeys listing = slots.entries.keys := by
  have filled : ((listing.filter (·.proxy?.isSome)).map (·.key)).Perm
      ((slots.toList.filter (·.proxy?.isSome)).map (·.key)) := (order.filter _).map _
  have ascending : slots.entries.keys.Pairwise (· < ·) := Dictionary.ascending_ofList _
  have same : ((slots.toList.filter (·.proxy?.isSome)).map (·.key)).Perm slots.entries.keys := by
    refine (List.perm_ext_iff_of_nodup slots.nodup_filled (ascending.imp ne_of_lt)).mpr ?_
    intro key
    rw [Dictionary.mem_keys_iff, ← map_fst_filterMap_shown?, List.mem_map]
    simp only [find?_entries, find?_eq_some_iff, ← mem_filterMap_shown?, Prod.exists,
      exists_and_right, exists_eq_right]
  refine List.Perm.eq_of_pairwise (fun a b _ _ => le_antisymm) ?_ (ascending.imp le_of_lt)
    ((List.mergeSort_perm _ _).trans (filled.trans same))
  exact List.pairwise_mergeSort' (· ≤ ·) _

end Slots

end Slots

/-! ### Sessions with slots -/

/-- A session of which the maps have slots, by their numbers. -/
structure SlottedSession (n : Nat) (σ : Type) where
  store : Store
  loader : σ
  nextSerial : Nat
  kept : Nat → Option Value
  slots : Nat → Slots n

variable {n : Nat} {σ : Type}

namespace SlottedSession

/-- A session in which nothing has been bound. -/
def start (store : Store) (loader : σ) : SlottedSession n σ where
  store := store
  loader := loader
  nextSerial := 0
  kept := fun _ => none
  slots := fun _ => .empty

/-- **What a session shows**: every map has the entries of its filled slots. -/
def shown (w : SlottedSession n σ) : Session n σ where
  store := w.store
  loader := w.loader
  nextSerial := w.nextSerial
  kept := w.kept
  entries := fun serial => (w.slots serial).entries

/-- The session with the slots that there are, when all else has changed. -/
def resume (w : SlottedSession n σ) (after : Session n σ) : SlottedSession n σ where
  store := after.store
  loader := after.loader
  nextSerial := after.nextSerial
  kept := after.kept
  slots := w.slots

/-- Changes the slots of one map. -/
def modifySlots (w : SlottedSession n σ) (serial : Nat) (change : Slots n → Slots n) :
    SlottedSession n σ :=
  { w with slots := fun other => if other = serial then change (w.slots serial) else w.slots other }

theorem slots_modifySlots (w : SlottedSession n σ) (serial : Nat) (change : Slots n → Slots n)
    (other : Nat) : (w.modifySlots serial change).slots other =
      if other = serial then change (w.slots serial) else w.slots other := rfl

/-- What has changed beside the slots shows as it is, if the slots still show the entries. -/
theorem shown_resume {w : SlottedSession n σ} {after : Session n σ}
    (same : after.entries = w.shown.entries) : (w.resume after).shown = after := by
  obtain ⟨store, loader, nextSerial, kept, entries⟩ := after
  obtain rfl := same
  rfl

/-- A change to the slots of one map shows in the entries of that map. -/
theorem shown_modifySlots (w : SlottedSession n σ) {serial : Nat} {change : Slots n → Slots n}
    {entries : Nat → Dictionary (Proxy n)}
    (there : (change (w.slots serial)).entries = entries serial)
    (elsewhere : ∀ other, other ≠ serial → w.shown.entries other = entries other) :
    (w.modifySlots serial change).shown = { w.shown with entries := entries } := by
  have same : (w.modifySlots serial change).shown.entries = entries := by
    funext other
    show ((w.modifySlots serial change).slots other).entries = entries other
    rw [slots_modifySlots]
    split
    · next here => rw [here, there]
    · next away => exact elsewhere other away
  exact congrArg (fun entries => { w.shown with entries := entries }) same

/-- The session once a map is asked for a key: there is a slot for the key. -/
def ask (w : SlottedSession n σ) (serial : Nat) (key : String) : SlottedSession n σ :=
  w.modifySlots serial (.touch · key)

theorem mem_keys_ask {w : SlottedSession n σ} {serial other : Nat} {key name : String} :
    name ∈ ((w.ask serial key).slots other).keys ↔
      name ∈ (w.slots other).keys ∨ other = serial ∧ name = key := by
  rw [ask, slots_modifySlots]
  split
  · next here => simp [Slots.mem_keys_touch, here]
  · next elsewhere => simp [elsewhere]

/-- That a map was asked for a key does not show. -/
theorem shown_ask (w : SlottedSession n σ) (serial : Nat) (key : String) :
    (w.ask serial key).shown = w.shown :=
  w.shown_modifySlots Slots.entries_touch fun _ _ => rfl

/-- Filling an empty slot shows as an entry more. -/
theorem shown_fill (w : SlottedSession n σ) {serial : Nat} {key : String}
    (known : key ∈ (w.slots serial).keys) (unfilled : (w.slots serial).find? key = none)
    (p : Proxy n) :
    (w.modifySlots serial (.fill · key p)).shown = w.shown.addEntry serial key p := by
  refine w.shown_modifySlots ?_ fun other away => ?_
  · rw [if_pos rfl]
    exact Slots.entries_fill known unfilled
  · rw [if_neg away]

end SlottedSession

namespace Application

/-- **A request to a map that has slots.**  There is a slot for the key from then on.  If it is
filled, its proxy is given again; otherwise the entry is built, and the slot filled if that
succeeds. -/
def slottedEntry (app : Application σ) (m : ProxyMap app.schema.size) (key : String)
    (w : SlottedSession app.schema.size σ) :
    Except BindError app.Bound × SlottedSession app.schema.size σ :=
  let asked := w.ask m.serial key
  match (asked.slots m.serial).find? key with
  | some p => (.ok p, asked)
  | none =>
    match app.build m.immutable m.valueType (Key.dotted (m.key ++ "." ++ key)) asked.shown with
    | (.error e, after) => (.error e, asked.resume after)
    | (.ok p, after) => (.ok p, (asked.resume after).modifySlots m.serial (.fill · key p))

variable {app : Application σ} {m : ProxyMap app.schema.size} {key : String}
variable {w : SlottedSession app.schema.size σ} {p : app.Bound} {after : app.State}

theorem slottedEntry_of_filled
    (filled : ((w.ask m.serial key).slots m.serial).find? key = some p) :
    app.slottedEntry m key w = (.ok p, w.ask m.serial key) := by
  simp only [slottedEntry, filled]

theorem slottedEntry_of_failed {e : BindError}
    (unfilled : ((w.ask m.serial key).slots m.serial).find? key = none)
    (failed : app.build m.immutable m.valueType (Key.dotted (m.key ++ "." ++ key))
      (w.ask m.serial key).shown = (.error e, after)) :
    app.slottedEntry m key w = (.error e, (w.ask m.serial key).resume after) := by
  simp only [slottedEntry, unfilled, failed]

theorem slottedEntry_of_built
    (unfilled : ((w.ask m.serial key).slots m.serial).find? key = none)
    (built : app.build m.immutable m.valueType (Key.dotted (m.key ++ "." ++ key))
      (w.ask m.serial key).shown = (.ok p, after)) :
    app.slottedEntry m key w =
      (.ok p, ((w.ask m.serial key).resume after).modifySlots m.serial (.fill · key p)) := by
  simp only [slottedEntry, unfilled, built]

/-- **A request to a map with slots is a request to a map with entries**: the answer is the same,
and so is what the session shows afterwards. -/
theorem entry_shown (sound : app.schema.Admissible m.valueType) (key : String)
    (w : SlottedSession app.schema.size σ) :
    app.entry m key w.shown =
      ((app.slottedEntry m key w).1, (app.slottedEntry m key w).2.shown) := by
  have known : key ∈ ((w.ask m.serial key).slots m.serial).keys :=
    SlottedSession.mem_keys_ask.mpr (.inr ⟨rfl, rfl⟩)
  rw [← w.shown_ask m.serial key]
  cases there : ((w.ask m.serial key).slots m.serial).find? key with
  | some p =>
    rw [slottedEntry_of_filled there, entry_of_found (Slots.find?_entries.trans there)]
  | none =>
    have missing : ((w.ask m.serial key).shown.entries m.serial).find? key = none :=
      Slots.find?_entries.trans there
    have grows := build_grows sound m.immutable (Key.dotted (m.key ++ "." ++ key))
      (w.ask m.serial key).shown
    cases built : app.build m.immutable m.valueType (Key.dotted (m.key ++ "." ++ key))
        (w.ask m.serial key).shown with
    | mk outcome after =>
      -- building leaves the entries as they were, so the slots still show them
      rw [built] at grows
      have shown : ((w.ask m.serial key).resume after).shown = after :=
        SlottedSession.shown_resume grows.entries
      cases outcome with
      | error e => rw [slottedEntry_of_failed there built, entry_of_failed missing built, shown]
      | ok p =>
        have filled := ((w.ask m.serial key).resume after).shown_fill known there p
        rw [slottedEntry_of_built there built, entry_of_built missing built, filled, shown]

/-- **A request makes the slot that it asks for**, whether or not it succeeds, and no other one. -/
theorem mem_keys_slottedEntry (m : ProxyMap app.schema.size) (key : String)
    (w : SlottedSession app.schema.size σ) {serial : Nat} {name : String} :
    name ∈ ((app.slottedEntry m key w).2.slots serial).keys ↔
      name ∈ (w.slots serial).keys ∨ serial = m.serial ∧ name = key := by
  rw [← SlottedSession.mem_keys_ask]
  cases there : ((w.ask m.serial key).slots m.serial).find? key with
  | some p => rw [slottedEntry_of_filled there]
  | none =>
    cases built : app.build m.immutable m.valueType (Key.dotted (m.key ++ "." ++ key))
        (w.ask m.serial key).shown with
    | mk outcome after =>
      cases outcome with
      | error e =>
        rw [slottedEntry_of_failed there built]
        rfl
      | ok p =>
        rw [slottedEntry_of_built there built, SlottedSession.slots_modifySlots]
        split
        · next here =>
          rw [Slots.keys_fill, here]
          rfl
        · rfl

end Application

end ConfigBinding
