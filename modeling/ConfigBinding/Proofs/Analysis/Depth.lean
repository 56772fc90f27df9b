import ConfigBinding.Proofs.Analysis.Course
import Mathlib.Data.Fintype.Card
import Mathlib.Tactic.Ring

/-!
# The depth of a walk

A walk ends, and the limit of its depth is never reached.  Every step inwards leaves less room: a
nested interface is not on the path, and the value interface of a map is not open.

## Main Definitions

* `Walk.room` — a bound on the steps inwards that are left
* `Schema.MethodCase` — what may become of a method
* `Schema.Performs` — the walk with a limit does a task

## Main Statements

* `Walk.room_enter_lt`, `Walk.room_enterMap_lt` — a step inwards leaves less room
* `Schema.methodCase` — one of the cases is that of the method
* `Schema.visit_walks` — with a limit above the room, what is computed is a walk without a limit
* `Schema.Walks.performed` — every walk without a limit is computed, once the limit is large enough
* `Schema.visit_of_walkLimit_le` — a greater limit than that of a check changes nothing

## Design Notes

Neither the open checks nor the finished interfaces alone bound the depth: an interface that is open
but not on the path is opened once more.  A step to a nested interface shortens what is off the path
and opens nothing less; a step through a map starts a fresh path, but opens an interface for the
first time.  The room counts the unopened interfaces in front of those off the path, as the digits
of a number in base `n`.
-/

namespace ConfigBinding

namespace Walk

variable {n : Nat}

/-- The interfaces that no open check is about. -/
def unopened (w : Walk n) : Finset (Fin n) :=
  Finset.univ.filter (· ∉ w.opened)

/-- The interfaces that are not on the path. -/
def offPath (w : Walk n) : Finset (Fin n) :=
  Finset.univ.filter (· ∉ w.path)

/-- **The room of a walk**: a bound on the steps inwards that are left. -/
def room (w : Walk n) : Nat :=
  n * w.unopened.card + w.offPath.card

theorem unopened_enter (w : Walk n) (i : Fin n) : (w.enter i).unopened = w.unopened.erase i := by
  ext j
  simp [unopened, enter]

theorem offPath_enter (w : Walk n) (i : Fin n) : (w.enter i).offPath = w.offPath.erase i := by
  ext j
  simp [offPath, enter]

/-- A step to an interface that is not on the path leaves less room. -/
theorem room_enter_lt {w : Walk n} {i : Fin n} (off : i ∉ w.path) : (w.enter i).room < w.room := by
  have opens : (w.enter i).unopened.card ≤ w.unopened.card := by
    rw [unopened_enter]
    exact Finset.card_le_card (Finset.erase_subset _ _)
  have shortens : (w.enter i).offPath.card < w.offPath.card := by
    rw [offPath_enter]
    exact Finset.card_erase_lt_of_mem (by simp [offPath, off])
  unfold room
  have := Nat.mul_le_mul_left n opens
  omega

/-- A fresh path has room for all interfaces but the one that was entered. -/
theorem card_offPath_enter_fresh {w : Walk n} (i : Fin n) (fresh : w.path = []) :
    (w.enter i).offPath.card = n - 1 := by
  have all : w.offPath = Finset.univ := by
    ext j
    simp [offPath, fresh]
  rw [offPath_enter, all, Finset.card_erase_of_mem (Finset.mem_univ i), Finset.card_univ,
    Fintype.card_fin]

/-- A step through a map to an interface that is not open leaves less room, although the path is a
fresh one. -/
theorem room_enterMap_lt {w : Walk n} {i : Fin n} (unopened : i ∉ w.opened) :
    (enter { w with path := [] } i).room < w.room := by
  have opens : (enter { w with path := [] } i).unopened.card + 1 = w.unopened.card := by
    rw [unopened_enter]
    exact Finset.card_erase_add_one (by simp [Walk.unopened, unopened])
  have fresh : (enter { w with path := [] } i).offPath.card = n - 1 :=
    card_offPath_enter_fresh i rfl
  have positive : 0 < n := i.pos
  unfold room
  rw [fresh, ← opens, Nat.mul_add]
  omega

/-- The room is a matter of the path and the open checks. -/
theorem Restores.room_eq {w after : Walk n} (kept : w.Restores after) : after.room = w.room := by
  unfold room unopened offPath
  rw [kept.path, kept.opened]

/-- The room of a check that begins is below the limit of its depth. -/
theorem room_enter_start_lt (i : Fin n) : ((start : Walk n).enter i).room < n * n := by
  have opens : ((start : Walk n).enter i).unopened.card = n - 1 := by
    have all : (start : Walk n).unopened = Finset.univ := by
      ext j
      simp [unopened, start]
    rw [unopened_enter, all, Finset.card_erase_of_mem (Finset.mem_univ i), Finset.card_univ,
      Fintype.card_fin]
  obtain ⟨m, rfl⟩ : ∃ m, n = m + 1 := Nat.exists_eq_add_one.mpr i.pos
  unfold room
  rw [opens, card_offPath_enter_fresh i rfl, Nat.add_sub_cancel]
  have : (m + 1) * (m + 1) = (m + 1) * m + m + 1 := by ring
  omega

end Walk

namespace Schema

variable {s : Schema}

variable {visit : Fin s.size → Visit s.size BindError} {earlier : List String}
variable {method : Method s.size} {w : Walk s.size} {child : Fin s.size}

/-! ### One method, case by case -/

theorem visitMethod_of_known (known : method.name ∈ earlier) :
    s.visitMethod visit earlier method w = (.error .duplicateMethod, w) :=
  if_pos known

theorem visitMethod_of_refused {fault : BindFault} (fresh : method.name ∉ earlier)
    (refused : method.classify false = .error fault) :
    s.visitMethod visit earlier method w = (.error fault, w) := by
  simp [visitMethod, fresh, refused]

theorem visitMethod_of_wellFormed (fresh : method.name ∉ earlier)
    (wellFormed : method.WellFormed) :
    s.visitMethod visit earlier method w = s.visitReturned visit method.returns w := by
  obtain ⟨strategy, classified⟩ := (Method.exists_classify_iff false).mpr wellFormed
  simp [visitMethod, fresh, classified]

theorem visitReturned_of_onPath (onPath : child ∈ w.path) :
    s.visitReturned visit (.interface child) w =
      (.error (.cyclicInterface ((w.cycle child).map s.name)), w) :=
  if_pos onPath

theorem visitReturned_of_passesOver {returns : Returns s.size} (passes : w.PassesOver returns) :
    s.visitReturned visit returns w = (.ok (), w) := by
  cases returns with
  | value kind => rfl
  | interface child => exact (if_neg passes.1).trans (if_pos passes.2)
  | map child => exact if_pos passes

theorem visitReturned_nested (offPath : child ∉ w.path) (unfinished : child ∉ w.finished) :
    s.visitReturned visit (.interface child) w =
      (nestedFault (visit child w).1, (visit child w).2) :=
  (if_neg offPath).trans (if_neg unfinished)

theorem visitReturned_mapped (unfinished : child ∉ w.finished) (unopened : child ∉ w.opened) :
    s.visitReturned visit (.map child) w =
      (nestedFault (visit child { w with path := [] }).1,
        { (visit child { w with path := [] }).2 with path := w.path }) :=
  if_neg (not_or.mpr ⟨unfinished, unopened⟩)

/-- **What may become of a method** of which the names before are known: it is refused for its name
or its declaration, it is not walked further, it closes a circle, or it leads inwards, by nesting or
through a map. -/
inductive MethodCase (w : Walk s.size) (earlier : List String) (method : Method s.size) : Prop
  | known (known : method.name ∈ earlier)
  | refused {fault : BindFault} (fresh : method.name ∉ earlier)
      (refused : method.classify false = .error fault)
  | passed (fresh : method.name ∉ earlier) (wellFormed : method.WellFormed)
      (passes : w.PassesOver method.returns)
  | onPath {child : Fin s.size} (fresh : method.name ∉ earlier) (wellFormed : method.WellFormed)
      (returns : method.returns = .interface child) (onPath : child ∈ w.path)
  | nested {child : Fin s.size} (fresh : method.name ∉ earlier) (wellFormed : method.WellFormed)
      (returns : method.returns = .interface child) (offPath : child ∉ w.path)
      (unfinished : child ∉ w.finished)
  | mapped {child : Fin s.size} (fresh : method.name ∉ earlier) (wellFormed : method.WellFormed)
      (returns : method.returns = .map child) (unfinished : child ∉ w.finished)
      (unopened : child ∉ w.opened)

/-- One of the cases always applies. -/
theorem methodCase (w : Walk s.size) (earlier : List String) (method : Method s.size) :
    MethodCase w earlier method := by
  by_cases known : method.name ∈ earlier
  · exact .known known
  cases classified : method.classify false with
  | error fault => exact .refused known classified
  | ok strategy =>
    have wellFormed : method.WellFormed :=
      (Method.exists_classify_iff false).mp ⟨strategy, classified⟩
    by_cases passes : w.PassesOver method.returns
    · exact .passed known wellFormed passes
    cases returns : method.returns with
    | value kind =>
      rw [returns] at passes
      exact absurd trivial passes
    | interface child =>
      rw [returns] at passes
      by_cases onPath : child ∈ w.path
      · exact .onPath known wellFormed returns onPath
      · exact .nested known wellFormed returns onPath fun finished => passes ⟨onPath, finished⟩
    | map child =>
      rw [returns] at passes
      obtain ⟨unfinished, unopened⟩ := not_or.mp passes
      exact .mapped known wellFormed returns unfinished unopened

/-- The outcome for a method, whose fault becomes an error of the interface. -/
@[simp] theorem nestedFault_mapError (i : Fin s.size) (method : Method s.size)
    (result : Except BindError Unit) :
    (nestedFault result).mapError (.method (s.name i) method.name) =
      s.outcomeUnder i method result := by
  cases result <;> rfl

/-! ### What is computed is a walk -/

/-- The way into an interface ends in a walk, as long as the room there is below a bound. -/
def Reliable (visit : Fin s.size → Visit s.size BindError) (bound : Nat) : Prop :=
  ∀ child w, (w.enter child).room < bound →
    s.Walks (.interface child) w (visit child w).1 (visit child w).2

variable {bound : Nat} {i : Fin s.size}

theorem visitMethod_walks (reliable : Reliable visit bound) (i : Fin s.size)
    (earlier : List String) (method : Method s.size) (room : w.room ≤ bound) :
    s.Walks (.method i earlier method) w
      ((s.visitMethod visit earlier method w).1.mapError (.method (s.name i) method.name))
      (s.visitMethod visit earlier method w).2 := by
  cases methodCase w earlier method with
  | known known =>
    rw [visitMethod_of_known known]
    exact .duplicate known
  | refused fresh refused =>
    rw [visitMethod_of_refused fresh refused]
    exact .malformed fresh refused
  | passed fresh wellFormed passes =>
    rw [visitMethod_of_wellFormed fresh wellFormed, visitReturned_of_passesOver passes]
    exact .passed fresh wellFormed passes
  | onPath fresh wellFormed returns onPath =>
    rw [visitMethod_of_wellFormed fresh wellFormed, returns, visitReturned_of_onPath onPath]
    exact .cyclic fresh wellFormed returns onPath
  | @nested child fresh wellFormed returns offPath unfinished =>
    -- an open interface that is not on the path is walked again, with a longer path
    have inner := reliable child w (lt_of_lt_of_le (Walk.room_enter_lt offPath) room)
    rw [visitMethod_of_wellFormed fresh wellFormed, returns,
      visitReturned_nested offPath unfinished, nestedFault_mapError]
    exact .nested fresh wellFormed returns offPath unfinished inner
  | @mapped child fresh wellFormed returns unfinished unopened =>
    -- the path is a fresh one, but an interface is opened that was not open before
    have inner := reliable child { w with path := [] }
      (lt_of_lt_of_le (Walk.room_enterMap_lt unopened) room)
    rw [visitMethod_of_wellFormed fresh wellFormed, returns,
      visitReturned_mapped unfinished unopened, nestedFault_mapError]
    exact .mapped fresh wellFormed returns unfinished unopened inner

theorem visitMethods_walks (reliable : Reliable visit bound) :
    ∀ (rest : List (Method s.size)) (earlier : List String) (w : Walk s.size), w.room ≤ bound →
      s.Walks (.methods i earlier rest) w
        (s.visitMethods visit (s.name i) earlier rest w).1
        (s.visitMethods visit (s.name i) earlier rest w).2 := by
  intro rest
  induction rest with
  | nil => intro earlier w _; exact .nil
  | cons method rest ih =>
    intro earlier w room
    have first := visitMethod_walks reliable i earlier method room
    unfold visitMethods
    cases visited : s.visitMethod visit earlier method w with
    | mk outcome between =>
      rw [visited] at first
      cases outcome with
      | error fault => exact .consFailed first
      | ok =>
        -- the methods that are left find the room that this one found
        have same : between.room = w.room := first.restores.room_eq
        exact .cons first (ih (method.name :: earlier) between (same ▸ room))

/-- **What is computed is a walk without a limit**, if the limit is above the room. -/
theorem visit_walks (limit : Nat) : Reliable (s.visit limit) limit := by
  induction limit with
  | zero => intro i w room; exact absurd room (Nat.not_lt_zero _)
  | succ limit ih =>
    intro i w room
    have methods := visitMethods_walks ih (i := i) (s.interface i).methods [] (w.enter i)
      (Nat.lt_succ_iff.mp room)
    unfold visit
    cases visited : s.visitMethods (s.visit limit) (s.name i) [] (s.interface i).methods
        (w.enter i) with
    | mk result after =>
      rw [visited] at methods
      cases result with
      | ok => exact .interface methods
      | error e => exact .interfaceFailed methods

/-- **A check is a walk without a limit** from the beginning, and it ends. -/
theorem check_walks (s : Schema) (root : Fin s.size) :
    s.Walks (.interface root) .start (s.check root) (s.visit s.walkLimit root .start).2 :=
  visit_walks s.walkLimit root .start (Walk.room_enter_start_lt root)

/-! ### Every walk is computed -/

/-- The walk with a limit does a task with the given outcome. -/
def Performs (limit : Nat) (w : Walk s.size) (result : Except BindError Unit)
    (after : Walk s.size) : Task s.size → Prop
  | .interface i => s.visit limit i w = (result, after)
  | .method i earlier method => ∃ outcome,
      s.visitMethod (s.visit limit) earlier method w = (outcome, after) ∧
        outcome.mapError (.method (s.name i) method.name) = result
  | .methods i earlier rest =>
    s.visitMethods (s.visit limit) (s.name i) earlier rest w = (result, after)

/-- **Every walk without a limit is computed**, once the limit is large enough.  The induction is on
the walk; where two walks follow one another, the greater of their limits serves for both. -/
theorem Walks.performed {task : Task s.size} {w after : Walk s.size}
    {result : Except BindError Unit} (walk : s.Walks task w result after) :
    ∃ enough, ∀ limit, enough ≤ limit → Performs limit w result after task := by
  induction walk with
  | interface _ ih | interfaceFailed _ ih =>
    -- the way into an interface takes one of the steps inwards
    obtain ⟨enough, performs⟩ := ih
    refine ⟨enough + 1, fun limit le => ?_⟩
    cases limit with
    | zero => exact absurd le (Nat.not_succ_le_zero _)
    | succ limit =>
      have methods := performs limit (Nat.le_of_succ_le_succ le)
      simp only [Performs] at methods
      simp only [Performs, visit, methods]
  | nil => exact ⟨0, fun limit _ => rfl⟩
  | cons _ _ ihFirst ihOthers =>
    obtain ⟨enoughFirst, performsFirst⟩ := ihFirst
    obtain ⟨enoughOthers, performsOthers⟩ := ihOthers
    refine ⟨max enoughFirst enoughOthers, fun limit le => ?_⟩
    obtain ⟨outcome, visited, ok⟩ := performsFirst limit (le_trans (le_max_left _ _) le)
    have others := performsOthers limit (le_trans (le_max_right _ _) le)
    cases outcome with
    | error fault => simp [Except.mapError] at ok
    | ok =>
      simp only [Performs, visitMethods, visited]
      exact others
  | consFailed _ ih =>
    obtain ⟨enough, performs⟩ := ih
    refine ⟨enough, fun limit le => ?_⟩
    obtain ⟨outcome, visited, failed⟩ := performs limit le
    cases outcome with
    | error fault =>
      simp only [Performs, visitMethods, visited]
      exact congrArg (·, _) failed
    | ok => simp [Except.mapError] at failed
  | duplicate known => exact ⟨0, fun limit _ => ⟨_, visitMethod_of_known known, rfl⟩⟩
  | malformed fresh refused =>
    exact ⟨0, fun limit _ => ⟨_, visitMethod_of_refused fresh refused, rfl⟩⟩
  | cyclic fresh wellFormed returns onPath =>
    refine ⟨0, fun limit _ => ⟨.error (.cyclicInterface _), ?_, rfl⟩⟩
    rw [visitMethod_of_wellFormed fresh wellFormed, returns, visitReturned_of_onPath onPath]
  | passed fresh wellFormed passes =>
    refine ⟨0, fun limit _ => ⟨.ok (), ?_, rfl⟩⟩
    rw [visitMethod_of_wellFormed fresh wellFormed, visitReturned_of_passesOver passes]
  | nested fresh wellFormed returns offPath unfinished _ ih =>
    obtain ⟨enough, performs⟩ := ih
    refine ⟨enough, fun limit le => ⟨_, ?_, nestedFault_mapError _ _ _⟩⟩
    rw [visitMethod_of_wellFormed fresh wellFormed, returns,
      visitReturned_nested offPath unfinished, performs limit le]
  | mapped fresh wellFormed returns unfinished unopened _ ih =>
    obtain ⟨enough, performs⟩ := ih
    refine ⟨enough, fun limit le => ⟨_, ?_, nestedFault_mapError _ _ _⟩⟩
    rw [visitMethod_of_wellFormed fresh wellFormed, returns,
      visitReturned_mapped unfinished unopened, performs limit le]

theorem Performs.unique {limit : Nat} {task : Task s.size} {after after' : Walk s.size}
    {result result' : Except BindError Unit} (performs : Performs limit w result after task)
    (other : Performs limit w result' after' task) : result = result' ∧ after = after' := by
  cases task with
  | interface i => exact Prod.mk.inj (performs.symm.trans other)
  | method i earlier method =>
    obtain ⟨outcome, visited, rfl⟩ := performs
    obtain ⟨outcome', visited', rfl⟩ := other
    obtain ⟨rfl, rfl⟩ := Prod.mk.inj (visited.symm.trans visited')
    exact ⟨rfl, rfl⟩
  | methods i earlier rest => exact Prod.mk.inj (performs.symm.trans other)

/-- **The outcome of a walk is determined** by the task and by what is remembered before it. -/
theorem Walks.unique {task : Task s.size} {after after' : Walk s.size}
    {result result' : Except BindError Unit} (walk : s.Walks task w result after)
    (other : s.Walks task w result' after') : result = result' ∧ after = after' := by
  obtain ⟨enough, performs⟩ := walk.performed
  obtain ⟨enough', performs'⟩ := other.performed
  exact (performs _ (le_max_left enough enough')).unique (performs' _ (le_max_right enough enough'))

/-- **A greater limit than that of a check changes nothing**: the limit is not reached. -/
theorem visit_of_walkLimit_le (root : Fin s.size) {limit : Nat} (le : s.walkLimit ≤ limit) :
    s.visit limit root .start = s.visit s.walkLimit root .start := by
  have walk := visit_walks limit root .start (lt_of_lt_of_le (Walk.room_enter_start_lt root) le)
  obtain ⟨result, after⟩ := walk.unique (check_walks s root)
  exact Prod.ext result after

end Schema

end ConfigBinding
