import ConfigBinding.Proofs.Analysis.Depth
import ConfigBinding.Proofs.Analysis.Faults

/-!
# The calls of an analysis

A check calls itself for the interfaces that methods return, and keeps account of where it is: by
the path, and by the open checks.  What holds of the account at one call holds at every call that is
made from there, and when a call ends the account is as it was.

## Main Definitions

* `Schema.Call` — a call, with what is remembered when it begins
* `Schema.Makes`, `Schema.MakesInCheck` — one call makes another, and the calls of a whole check
* `Schema.PathSound` — what the path is
* `Schema.InOrder` — what holds at every call

## Main Statements

* `Schema.visitMethods_congr` — a check depends on itself only by the calls that it makes
* `Schema.InOrder.makes`, `Schema.inOrder_of_makesInCheck` — at one call, and at all of them
* `Schema.check_keeps_account` — the account is sound whenever a call begins or ends, and what is
  finished once a call succeeds

## Design Notes

A call is one of three tasks, so that what is remembered is seen before and after every method, and
with the path that a map starts.  To open an interface and to put it on the path is one step, and so
is the way back; in between, the path is the shorter one and everything on it is open.

An interface may be open several times.  It is counted by how often it is among the open checks.
-/

namespace ConfigBinding.Schema

variable {s : Schema}

/-- A call: how many steps inwards are left, what is to be done, and what is remembered. -/
structure Call (s : Schema) where
  limit : Nat
  task : Task s.size
  memory : Walk s.size

/-- **One call makes another.**  An interface is entered for its methods.  They are done one after
the other, as long as there is no fault, and a method is followed by a call for the interface that
it returns, unless that is passed over.  For the value interface of a map the path is fresh. -/
inductive Makes : s.Call → s.Call → Prop
  | methods {limit i w} :
      Makes ⟨limit + 1, .interface i, w⟩ ⟨limit, .methods i [] (s.interface i).methods, w.enter i⟩
  | first {limit i earlier method rest w} :
      Makes ⟨limit, .methods i earlier (method :: rest), w⟩ ⟨limit, .method i earlier method, w⟩
  | others {limit i earlier method rest w between}
      (first : Performs limit w (.ok ()) between (.method i earlier method)) :
      Makes ⟨limit, .methods i earlier (method :: rest), w⟩
        ⟨limit, .methods i (method.name :: earlier) rest, between⟩
  | nested {limit i earlier method w child} (fresh : method.name ∉ earlier)
      (wellFormed : method.WellFormed) (returns : method.returns = .interface child)
      (offPath : child ∉ w.path) (unfinished : child ∉ w.finished) :
      Makes ⟨limit, .method i earlier method, w⟩ ⟨limit, .interface child, w⟩
  | mapped {limit i earlier method w child} (fresh : method.name ∉ earlier)
      (wellFormed : method.WellFormed) (returns : method.returns = .map child)
      (unfinished : child ∉ w.finished) (unopened : child ∉ w.opened) :
      Makes ⟨limit, .method i earlier method, w⟩ ⟨limit, .interface child, { w with path := [] }⟩

/-- A call is made, directly or not, when an interface is checked. -/
def MakesInCheck (s : Schema) (root : Fin s.size) : s.Call → Prop :=
  Relation.ReflTransGen Makes ⟨s.walkLimit, .interface root, .start⟩

variable {visit : Fin s.size → Visit s.size BindError} {limit : Nat}
variable {i : Fin s.size} {earlier : List String} {method : Method s.size}
variable {w after : Walk s.size} {root : Fin s.size}

/-! ### No call is left out -/

/-- A method is checked in the same way by whatever agrees with the check on the call it makes. -/
theorem visitMethod_congr
    (agree : ∀ child w', Makes ⟨limit, .method i earlier method, w⟩ ⟨limit, .interface child, w'⟩ →
      visit child w' = s.visit limit child w') :
    s.visitMethod visit earlier method w = s.visitMethod (s.visit limit) earlier method w := by
  cases methodCase w earlier method with
  | known known => rw [visitMethod_of_known known, visitMethod_of_known known]
  | refused fresh refused =>
    rw [visitMethod_of_refused fresh refused, visitMethod_of_refused fresh refused]
  | passed fresh wellFormed passes =>
    rw [visitMethod_of_wellFormed fresh wellFormed, visitMethod_of_wellFormed fresh wellFormed,
      visitReturned_of_passesOver passes, visitReturned_of_passesOver passes]
  | onPath fresh wellFormed returns onPath =>
    rw [visitMethod_of_wellFormed fresh wellFormed, visitMethod_of_wellFormed fresh wellFormed,
      returns, visitReturned_of_onPath onPath, visitReturned_of_onPath onPath]
  | nested fresh wellFormed returns offPath unfinished =>
    rw [visitMethod_of_wellFormed fresh wellFormed, visitMethod_of_wellFormed fresh wellFormed,
      returns, visitReturned_nested offPath unfinished, visitReturned_nested offPath unfinished,
      agree _ _ (.nested fresh wellFormed returns offPath unfinished)]
  | mapped fresh wellFormed returns unfinished unopened =>
    rw [visitMethod_of_wellFormed fresh wellFormed, visitMethod_of_wellFormed fresh wellFormed,
      returns, visitReturned_mapped unfinished unopened, visitReturned_mapped unfinished unopened,
      agree _ _ (.mapped fresh wellFormed returns unfinished unopened)]

/-- **The methods of an interface are checked in the same way** by whatever agrees with the check on
the calls that are made for them.  So there are no others. -/
theorem visitMethods_congr {rest : List (Method s.size)}
    (agree : ∀ child w', Relation.TransGen Makes ⟨limit, .methods i earlier rest, w⟩
      ⟨limit, .interface child, w'⟩ → visit child w' = s.visit limit child w') :
    s.visitMethods visit (s.name i) earlier rest w =
      s.visitMethods (s.visit limit) (s.name i) earlier rest w := by
  induction rest generalizing earlier w with
  | nil => rfl
  | cons method rest ih =>
    have here : s.visitMethod visit earlier method w =
        s.visitMethod (s.visit limit) earlier method w :=
      visitMethod_congr fun child w' makes => agree child w' (.head .first (.single makes))
    unfold visitMethods
    rw [here]
    cases visited : s.visitMethod (s.visit limit) earlier method w with
    | mk outcome between =>
      cases outcome with
      | error fault => rfl
      | ok =>
        have goesOn : Makes ⟨limit, .methods i earlier (method :: rest), w⟩
            ⟨limit, .methods i (method.name :: earlier) rest, between⟩ :=
          .others ⟨.ok (), visited, rfl⟩
        exact ih fun child w' later => agree child w' (.head goesOn later)

/-! ### The path -/

/-- **What the path is**: no interface is on it twice, they nest in one another, the innermost
first, and the check of each of them is open. -/
structure PathSound (s : Schema) (w : Walk s.size) : Prop where
  nodup : w.path.Nodup
  nested : s.Nested w.path
  opened : w.path ⊆ w.opened

/-- The path is a matter of the path and the open checks. -/
theorem PathSound.of_restores (sound : s.PathSound w) (kept : w.Restores after) :
    s.PathSound after := by
  refine ⟨?_, ?_, ?_⟩
  · rw [kept.path]; exact sound.nodup
  · rw [kept.path]; exact sound.nested
  · rw [kept.path, kept.opened]; exact sound.opened

/-- A fresh path is sound. -/
theorem pathSound_of_nil (empty : w.path = []) : s.PathSound w := by
  refine ⟨?_, ?_, ?_⟩ <;> rw [empty]
  · exact List.nodup_nil
  · exact List.isChain_nil
  · exact List.nil_subset _

/-- The path goes on to an interface that is not on it, and that the innermost one nests. -/
theorem PathSound.enter (sound : s.PathSound w) (offPath : i ∉ w.path)
    (nests : ∀ outer ∈ w.path.head?, s.Nests outer i) : s.PathSound (w.enter i) where
  nodup := List.nodup_cons.mpr ⟨offPath, sound.nodup⟩
  nested := List.isChain_cons.mpr ⟨nests, sound.nested⟩
  opened := List.cons_subset_cons i sound.opened

/-! ### What holds at every call -/

/-- Where a task stands: an interface can be entered, and methods are those of the innermost
interface on the path. -/
def Placed (w : Walk s.size) : Task s.size → Prop
  | .interface i => s.PathSound (w.enter i)
  | .method i _ method => w.path.head? = some i ∧ method ∈ (s.interface i).methods
  | .methods i _ rest => w.path.head? = some i ∧ rest ⊆ (s.interface i).methods

/-- The room that a call needs is below the limit. -/
def HasRoom (limit : Nat) (w : Walk s.size) : Task s.size → Prop
  | .interface i => (w.enter i).room < limit
  | .method _ _ _ | .methods _ _ _ => w.room ≤ limit

/-- **What holds at every call** of an analysis. -/
structure InOrder (call : s.Call) : Prop where
  room : HasRoom call.limit call.memory call.task
  path : s.PathSound call.memory
  placed : Placed call.memory call.task
  trusted : s.Trusted call.memory

/-- A call that is in order is a walk, and ends as it is computed. -/
theorem InOrder.walks {call : s.Call} (order : InOrder call) {result : Except BindError Unit}
    (performs : Performs call.limit call.memory result after call.task) :
    s.Walks call.task call.memory result after := by
  obtain ⟨limit, task, w⟩ := call
  have room := order.room
  cases task with
  | interface i =>
    have walk := visit_walks limit i w room
    rwa [show s.visit limit i w = (result, after) from performs] at walk
  | method i earlier method =>
    obtain ⟨outcome, visited, rfl⟩ := performs
    have walk := visitMethod_walks (visit_walks limit) i earlier method room
    rwa [visited] at walk
  | methods i earlier rest =>
    have walk := visitMethods_walks (visit_walks limit) (i := i) rest earlier w room
    rwa [show s.visitMethods (s.visit limit) (s.name i) earlier rest w = (result, after) from
      performs] at walk

/-- The first of several methods is in order as they are. -/
theorem InOrder.first {rest : List (Method s.size)}
    (order : InOrder ⟨limit, .methods i earlier (method :: rest), w⟩) :
    InOrder ⟨limit, .method i earlier method, w⟩ := by
  obtain ⟨innermost, declared⟩ := order.placed
  exact ⟨order.room, order.path, ⟨innermost, declared List.mem_cons_self⟩, order.trusted⟩

/-- **What a call in order makes is in order.** -/
theorem InOrder.makes {call next : s.Call} (order : InOrder call) (makes : Makes call next) :
    InOrder next := by
  cases makes with
  | @methods limit i w =>
    exact ⟨Nat.lt_succ_iff.mp order.room, order.placed, ⟨rfl, List.Subset.refl _⟩,
      order.trusted.of_opened rfl (List.subset_cons_self _ _)⟩
  | first => exact order.first
  | @others limit i earlier method rest w between first =>
    obtain ⟨innermost, declared⟩ := order.placed
    -- the method before is a call of its own, and leaves path and open checks as they were
    have walk := order.first.walks first
    have kept := walk.restores
    refine ⟨?_, order.path.of_restores kept, ⟨?_, ?_⟩, (walk.accomplishes rfl order.trusted).1⟩
    · show between.room ≤ limit
      rw [kept.room_eq]
      exact order.room
    · rw [kept.path]
      exact innermost
    · exact fun other later => declared (List.mem_cons_of_mem _ later)
  | @nested limit i earlier method w child _ _ returns offPath _ =>
    obtain ⟨innermost, declared⟩ := order.placed
    have nests : ∀ outer ∈ w.path.head?, s.Nests outer child := by
      intro outer isInnermost
      obtain rfl : i = outer := by simpa [innermost] using isInnermost
      exact ⟨method, declared, returns⟩
    exact ⟨lt_of_lt_of_le (Walk.room_enter_lt offPath) order.room, order.path,
      order.path.enter offPath nests, order.trusted⟩
  | @mapped limit i earlier method w child _ _ _ _ unopened =>
    have fresh : s.PathSound { w with path := [] } := pathSound_of_nil rfl
    exact ⟨lt_of_lt_of_le (Walk.room_enterMap_lt unopened) order.room, fresh,
      fresh.enter List.not_mem_nil nofun, order.trusted.of_opened rfl (List.Subset.refl _)⟩

/-- **Every call of a check is in order.** -/
theorem inOrder_of_makesInCheck {call : s.Call} (made : s.MakesInCheck root call) :
    InOrder call := by
  induction made with
  | refl =>
    have fresh : s.PathSound .start := pathSound_of_nil rfl
    exact ⟨Walk.room_enter_start_lt root, fresh, fresh.enter List.not_mem_nil nofun, trusted_start⟩
  | tail _ makes order => exact order.makes makes

/-- **A check keeps account of where it is.**  Whenever a call of it begins or ends, no interface is
twice on the path, those on it nest in one another, and all of them are open.  When a call for an
interface succeeds, path and open checks are as before, and what was finished still is.  The
interface itself is finished then, and so are those that its methods return and those of its maps,
other than the ones of which a check was open before. -/
theorem check_keeps_account (s : Schema) (root : Fin s.size) :
    (∀ call, s.MakesInCheck root call → s.PathSound call.memory ∧
      ∀ result after, Performs call.limit call.memory result after call.task →
        s.PathSound after) ∧
    ∀ limit i w after, s.MakesInCheck root ⟨limit, .interface i, w⟩ →
      s.visit limit i w = (.ok (), after) →
      w.Restores after ∧ i ∈ after.finished ∧ (∀ j, s.Nests i j → j ∈ after.finished) ∧
        ∀ j, s.Maps i j → j ∈ after.finished ∨ j ∈ w.opened := by
  constructor
  · intro call made
    have order := inOrder_of_makesInCheck made
    exact ⟨order.path, fun result after performs =>
      order.path.of_restores (order.walks performs).restores⟩
  · intro limit i w after made succeeds
    have order := inOrder_of_makesInCheck made
    have walk : s.Walks (.interface i) w (.ok ()) after := order.walks succeeds
    have kept := walk.restores
    obtain ⟨trusted, finished⟩ := walk.accomplishes rfl order.trusted
    refine ⟨kept, finished, trusted.nested i finished, fun j maps => ?_⟩
    rw [← kept.opened]
    exact trusted.mapped i finished j maps

/-- A library with shelves, each of which leads to libraries: a circle through maps. -/
def shelves (library : Fin 2) : Schema :=
  .ofVector #v[
    { name := "Library", keyPrefix? := none, immutable := false, sources? := none,
      methods := [⟨"getShelves", .map (Fin.last 1), 0, none, none⟩] },
    { name := "Shelf", keyPrefix? := none, immutable := false, sources? := none,
      methods := [⟨"getLibraries", .map library, 0, none, none⟩] }]

/-- The shelf is checked while the check of the library is open.  When that has succeeded, the shelf
is finished and the library is not. -/
theorem shelf_checked_within_library :
    let opened : Walk 2 := ⟨[], [0], []⟩
    let after : Walk 2 := ⟨[], [0], [1]⟩
    (shelves 0).MakesInCheck (0 : Fin 2) ⟨3, .interface (1 : Fin 2), opened⟩ ∧
      (shelves 0).visit 3 (1 : Fin 2) opened = (.ok (), after) ∧
      (shelves 0).PathSound after ∧ (0 ∈ after.finished ∨ 0 ∈ opened.opened) := by
  intro opened after
  have made : (shelves 0).MakesInCheck (0 : Fin 2) ⟨3, .interface (1 : Fin 2), opened⟩ := by
    refine ((Relation.ReflTransGen.single .methods).tail .first).tail (.mapped ?_ ?_ rfl ?_ ?_)
    · exact List.not_mem_nil
    · exact ⟨rfl, by decide⟩
    · exact List.not_mem_nil
    · show (1 : Fin 2) ∉ [(0 : Fin 2)]
      decide
  have succeeds : (shelves 0).visit 3 (1 : Fin 2) opened = (.ok (), after) := rfl
  obtain ⟨sound, account⟩ := check_keeps_account (shelves 0) (0 : Fin 2)
  have maps : (shelves 0).Maps (1 : Fin 2) (0 : Fin 2) :=
    ⟨⟨"getLibraries", .map (0 : Fin 2), 0, none, none⟩, List.mem_cons_self, rfl⟩
  exact ⟨made, succeeds, (sound _ made).2 _ _ succeeds,
    (account _ _ _ _ made succeeds).2.2.2 _ maps⟩

end ConfigBinding.Schema
