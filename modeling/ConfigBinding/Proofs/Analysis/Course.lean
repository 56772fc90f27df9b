import ConfigBinding.Proofs.Analysis.Graph

/-!
# The course of a walk

The walk of the analysis as a relation without a limit of depth: what a walk may meet, and how it
goes on from there.  A derivation is a walk that ends.

## Main Definitions

* `Task` — what a walk has before it
* `Schema.Walks` — a task is walked from one memory to another, with an outcome
* `Walk.Restores` — path and open checks are as before, and nothing finished is lost
* `Schema.Trusted` — what a walk may rely on when it passes over a finished interface
* `Schema.Accomplished` — what is known once a task has succeeded

## Main Statements

* `Schema.Walks.restores` — every walk, also one that fails, restores path and open checks
* `Schema.Walks.accomplishes` — a walk that succeeds keeps the finished interfaces trustworthy

## Design Notes

An interface may be finished while an interface that its maps refer to is still open further out.
`Schema.Trusted` therefore asks less of maps than of nested interfaces: the value interface of a map
is finished or open.  When the outermost check ends nothing is open any more, and what is finished
is closed under both sorts of references.

Circles are excluded by accessibility: a nested interface is finished before the outer one is, so a
finished interface nests only finitely deep.
-/

namespace ConfigBinding

/-- What a walk has before it: an interface, one of its methods, or those of its methods that are
left.  The names are those of the methods before. -/
inductive Task (n : Nat) where
  | interface (i : Fin n)
  | method (i : Fin n) (earlier : List String) (method : Method n)
  | methods (i : Fin n) (earlier : List String) (rest : List (Method n))

namespace Walk

variable {n : Nat}

/-- What a method returns is not walked again. -/
def PassesOver (w : Walk n) : Returns n → Prop
  | .value _ => True
  | .interface child => child ∉ w.path ∧ child ∈ w.finished
  | .map child => child ∈ w.finished ∨ child ∈ w.opened

/-- What a method returns has been dealt with, or will be: for a map by a check that is open. -/
def Covers (w : Walk n) : Returns n → Prop
  | .value _ => True
  | .interface child => child ∈ w.finished
  | .map child => child ∈ w.finished ∨ child ∈ w.opened

/-- **A walk restores** its path and its open checks, and forgets nothing that was finished. -/
structure Restores (w after : Walk n) : Prop where
  path : after.path = w.path
  opened : after.opened = w.opened
  finished : w.finished ⊆ after.finished

variable {w between after : Walk n}

theorem Restores.refl (w : Walk n) : w.Restores w :=
  ⟨rfl, rfl, List.Subset.refl _⟩

theorem Restores.trans (first : w.Restores between) (second : between.Restores after) :
    w.Restores after :=
  ⟨second.path.trans first.path, second.opened.trans first.opened,
    List.Subset.trans first.finished second.finished⟩

/-- What is dealt with stays so. -/
theorem Covers.mono {returns : Returns n} (covers : w.Covers returns) (kept : w.Restores after) :
    after.Covers returns := by
  cases returns with
  | value kind => trivial
  | interface child => exact kept.finished covers
  | map child =>
    rcases covers with finished | opened
    · exact .inl (kept.finished finished)
    · exact .inr (kept.opened ▸ opened)

theorem PassesOver.covers {returns : Returns n} (passes : w.PassesOver returns) :
    w.Covers returns := by
  cases returns with
  | value kind => trivial
  | interface child => exact passes.2
  | map child => exact passes

end Walk

namespace Schema

variable (s : Schema)

/-- The outcome for a method that returns an interface, from that for the interface. -/
def outcomeUnder (i : Fin s.size) (method : Method s.size) :
    Except BindError Unit → Except BindError Unit
  | .ok () => .ok ()
  | .error e => .error (.method (s.name i) method.name (.nested e))

variable {s} in
theorem outcomeUnder_eq_ok {i : Fin s.size} {method : Method s.size}
    {result : Except BindError Unit} (ok : s.outcomeUnder i method result = .ok ()) :
    result = .ok () := by
  cases result with
  | ok => rfl
  | error e => simp [outcomeUnder] at ok

/-- **A walk without a limit.**  `s.Walks task w result after`: with the task before it and the
memory `w`, the walk ends with the result, and remembers `after`. -/
inductive Walks : Task s.size → Walk s.size → Except BindError Unit → Walk s.size → Prop
  | interface {i w after}
      (methods : Walks (.methods i [] (s.interface i).methods) (w.enter i) (.ok ()) after) :
      Walks (.interface i) w (.ok ()) (after.leave.finish i)
  | interfaceFailed {i w e after}
      (methods : Walks (.methods i [] (s.interface i).methods) (w.enter i) (.error e) after) :
      Walks (.interface i) w (.error e) after.leave
  | nil {i earlier w} : Walks (.methods i earlier []) w (.ok ()) w
  | cons {i earlier method rest w between result after}
      (first : Walks (.method i earlier method) w (.ok ()) between)
      (others : Walks (.methods i (method.name :: earlier) rest) between result after) :
      Walks (.methods i earlier (method :: rest)) w result after
  | consFailed {i earlier method rest w e after}
      (first : Walks (.method i earlier method) w (.error e) after) :
      Walks (.methods i earlier (method :: rest)) w (.error e) after
  | duplicate {i earlier method w} (known : method.name ∈ earlier) :
      Walks (.method i earlier method) w
        (.error (.method (s.name i) method.name .duplicateMethod)) w
  | malformed {i earlier method w fault} (fresh : method.name ∉ earlier)
      (refused : method.classify false = .error fault) :
      Walks (.method i earlier method) w (.error (.method (s.name i) method.name fault)) w
  | cyclic {i earlier method w child} (fresh : method.name ∉ earlier)
      (wellFormed : method.WellFormed) (returns : method.returns = .interface child)
      (onPath : child ∈ w.path) :
      Walks (.method i earlier method) w
        (.error (.method (s.name i) method.name
          (.cyclicInterface ((w.cycle child).map s.name)))) w
  | passed {i earlier method w} (fresh : method.name ∉ earlier)
      (wellFormed : method.WellFormed) (passes : w.PassesOver method.returns) :
      Walks (.method i earlier method) w (.ok ()) w
  | nested {i earlier method w child result after} (fresh : method.name ∉ earlier)
      (wellFormed : method.WellFormed) (returns : method.returns = .interface child)
      (offPath : child ∉ w.path) (unfinished : child ∉ w.finished)
      (inner : Walks (.interface child) w result after) :
      Walks (.method i earlier method) w (s.outcomeUnder i method result) after
  | mapped {i earlier method w child result after} (fresh : method.name ∉ earlier)
      (wellFormed : method.WellFormed) (returns : method.returns = .map child)
      (unfinished : child ∉ w.finished) (unopened : child ∉ w.opened)
      (inner : Walks (.interface child) { w with path := [] } result after) :
      Walks (.method i earlier method) w (s.outcomeUnder i method result)
        { after with path := w.path }

/-! ### What every walk leaves as it was -/

variable {s}

/-- **Path and open checks are restored** by every walk, and what was finished stays finished. -/
theorem Walks.restores {task : Task s.size} {w after : Walk s.size}
    {result : Except BindError Unit} (walk : s.Walks task w result after) : w.Restores after := by
  induction walk with
  | interface _ ih =>
    refine ⟨?_, ?_, fun j known => List.mem_cons_of_mem _ (ih.finished known)⟩
    · simp [Walk.finish, Walk.leave, ih.path, Walk.enter]
    · simp [Walk.finish, Walk.leave, ih.opened, Walk.enter]
  | interfaceFailed _ ih =>
    refine ⟨?_, ?_, ih.finished⟩
    · simp [Walk.leave, ih.path, Walk.enter]
    · simp [Walk.leave, ih.opened, Walk.enter]
  | nil => exact .refl _
  | cons _ _ ihFirst ihOthers => exact ihFirst.trans ihOthers
  | consFailed _ ih => exact ih
  | duplicate _ => exact .refl _
  | malformed _ _ => exact .refl _
  | cyclic _ _ _ _ => exact .refl _
  | passed _ _ _ => exact .refl _
  | nested _ _ _ _ _ _ ih => exact ih
  | mapped _ _ _ _ _ _ ih => exact ⟨rfl, ih.opened, ih.finished⟩

/-! ### What a walk that succeeds finds out -/

/-- **What a finished interface is trusted for**: it is well declared, what nests in it is finished
too, its maps lead to what is finished or open, and interfaces nest in it only finitely deep. -/
structure Trusted (w : Walk s.size) : Prop where
  wellDeclared : ∀ i ∈ w.finished, (s.interface i).WellDeclared
  nested : ∀ i ∈ w.finished, ∀ j, s.Nests i j → j ∈ w.finished
  mapped : ∀ i ∈ w.finished, ∀ j, s.Maps i j → j ∈ w.finished ∨ j ∈ w.opened
  grounded : ∀ i ∈ w.finished, Acc (fun inner outer => s.Nests outer inner) i

theorem trusted_start : s.Trusted .start :=
  ⟨by simp [Walk.start], by simp [Walk.start], by simp [Walk.start], by simp [Walk.start]⟩

/-- Trust does not depend on the path, and opening a check does not destroy it. -/
theorem Trusted.of_opened {w w' : Walk s.size} (trusted : s.Trusted w)
    (finished : w'.finished = w.finished) (opened : w.opened ⊆ w'.opened) : s.Trusted w' := by
  refine ⟨?_, ?_, ?_, ?_⟩
  · rw [finished]; exact trusted.wellDeclared
  · rw [finished]; exact trusted.nested
  · rw [finished]
    intro i known j maps
    exact (trusted.mapped i known j maps).imp_right fun still => opened still
  · rw [finished]; exact trusted.grounded

/-- An interface becomes trustworthy when its own check ends: its methods have been covered while it
was open, and what it maps to itself is finished from now on. -/
theorem Trusted.finish {w after : Walk s.size} {i : Fin s.size} (trusted : s.Trusted after)
    (kept : (w.enter i).Restores after) (declared : (s.interface i).WellDeclared)
    (covered : ∀ method ∈ (s.interface i).methods, after.Covers method.returns) :
    s.Trusted (after.leave.finish i) := by
  have opened : after.opened = i :: w.opened := kept.opened
  have nests : ∀ j, s.Nests i j → j ∈ after.finished := by
    rintro j ⟨method, declared, returns⟩
    have := covered method declared
    rwa [returns] at this
  have maps : ∀ j, s.Maps i j → j ∈ after.finished ∨ j ∈ after.opened := by
    rintro j ⟨method, declared, returns⟩
    have := covered method declared
    rwa [returns] at this
  -- the check that ends here was the innermost open one
  have closes : ∀ j, j ∈ after.finished ∨ j ∈ after.opened →
      j ∈ (after.leave.finish i).finished ∨ j ∈ (after.leave.finish i).opened := by
    intro j known
    rw [opened] at known
    simp only [Walk.finish, Walk.leave, opened, List.tail_cons, List.mem_cons] at known ⊢
    rcases known with finished | rfl | open_
    · exact .inl (.inr finished)
    · exact .inl (.inl rfl)
    · exact .inr open_
  refine ⟨?_, ?_, ?_, ?_⟩ <;> intro j finished <;>
    rcases List.mem_cons.mp finished with rfl | before
  · exact declared
  · exact trusted.wellDeclared j before
  · exact fun k nest => List.mem_cons_of_mem _ (nests k nest)
  · exact fun k nest => List.mem_cons_of_mem _ (trusted.nested j before k nest)
  · exact fun k map => closes k (maps k map)
  · exact fun k map => closes k (trusted.mapped j before k map)
  · exact Acc.intro _ fun k nest => trusted.grounded k (nests k nest)
  · exact trusted.grounded j before

/-- **What is known once a task has succeeded.** -/
def Accomplished (after : Walk s.size) : Task s.size → Prop
  | .interface i => i ∈ after.finished
  | .method _ earlier method =>
    method.name ∉ earlier ∧ method.WellFormed ∧ after.Covers method.returns
  | .methods _ earlier rest =>
    (rest.map (·.name)).Nodup ∧ (∀ method ∈ rest, method.name ∉ earlier) ∧
      ∀ method ∈ rest, method.WellFormed ∧ after.Covers method.returns

/-- **A walk that succeeds accomplishes its task**, and what is finished after it can be trusted if
that was so before.  The induction is on the walk; a nested interface and the value interface of a
map differ only in the path that they start from. -/
theorem Walks.accomplishes {task : Task s.size} {w after : Walk s.size}
    {result : Except BindError Unit} (walk : s.Walks task w result after)
    (ok : result = .ok ()) (trusted : s.Trusted w) :
    s.Trusted after ∧ Accomplished after task := by
  induction walk with
  | @interface i w after methods ih =>
    have opening : s.Trusted (w.enter i) :=
      trusted.of_opened rfl (List.subset_cons_self _ _)
    obtain ⟨trustedAfter, distinct, -, sound⟩ := ih rfl opening
    refine ⟨trustedAfter.finish methods.restores ⟨distinct, fun method declared =>
      (sound method declared).1⟩ fun method declared => (sound method declared).2, ?_⟩
    exact List.mem_cons_self
  | interfaceFailed _ _ => cases ok
  | nil => exact ⟨trusted, List.nodup_nil, by simp, by simp⟩
  | @cons i earlier method rest w between result after first others ihFirst ihOthers =>
    obtain ⟨trustedBetween, fresh, wellFormed, covered⟩ := ihFirst rfl trusted
    obtain ⟨trustedAfter, distinct, freshRest, sound⟩ := ihOthers ok trustedBetween
    refine ⟨trustedAfter, ?_, ?_, ?_⟩
    · refine List.nodup_cons.mpr ⟨fun repeated => ?_, distinct⟩
      obtain ⟨other, declared, same⟩ := List.mem_map.mp repeated
      exact freshRest other declared (same ▸ List.mem_cons_self)
    · intro other declared
      rcases List.mem_cons.mp declared with rfl | later
      · exact fresh
      · exact fun known => freshRest other later (List.mem_cons_of_mem _ known)
    · intro other declared
      rcases List.mem_cons.mp declared with rfl | later
      · exact ⟨wellFormed, covered.mono others.restores⟩
      · exact sound other later
  | consFailed _ _ => cases ok
  | duplicate _ => cases ok
  | malformed _ _ => cases ok
  | cyclic _ _ _ _ => cases ok
  | passed fresh wellFormed passes => exact ⟨trusted, fresh, wellFormed, passes.covers⟩
  | nested fresh wellFormed returns _ _ _ ih =>
    obtain ⟨trustedAfter, finished⟩ := ih (outcomeUnder_eq_ok ok) trusted
    refine ⟨trustedAfter, fresh, wellFormed, ?_⟩
    rw [returns]
    exact finished
  | mapped fresh wellFormed returns _ _ _ ih =>
    obtain ⟨trustedAfter, finished⟩ :=
      ih (outcomeUnder_eq_ok ok) (trusted.of_opened rfl (List.Subset.refl _))
    refine ⟨trustedAfter.of_opened rfl (List.Subset.refl _), fresh, wellFormed, ?_⟩
    rw [returns]
    exact .inl finished

end Schema

end ConfigBinding
