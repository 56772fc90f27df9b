import ConfigBinding.Interface

/-!
# Analysis of a schema

Before an interface is bound, everything that it can lead to is checked once: methods have distinct
names and sound declarations, and no interface nests in itself. Nested interfaces are bound
together with the outer one, so a circle of them would never end; the values of maps are bound on
demand, so a circle through a map is sound.

## Main Definitions

* `Walk` — what a depth-first walk over the interfaces remembers
* `Schema.visit` — the check of one interface and of all it leads to
* `Schema.check` — the check of an interface to be bound

## Design Notes

A walk keeps three things. Its *path* consists of the interfaces that nest in one another around the
current one; a map starts a fresh path. *Opened* are all interfaces whose check has not ended, on
the path or further out; an interface may be opened more than once. *Finished* are those whose
check has succeeded.

A nested interface is passed over only if it is finished. One that is still open, but not on the
path, is walked again, so that a circle back into the outer path is found. The value interface of a
map is passed over if it is open as well.

The walk recurses on a limit of its depth. A path has no interface twice, and every map on the way
opens an interface that was not open before, so the depth is at most the square of the number of
interfaces.
-/

namespace ConfigBinding

/-- What a walk over the interfaces remembers. Both the path and the open checks are listed from
the innermost outwards. -/
structure Walk (n : Nat) where
  path : List (Fin n)
  opened : List (Fin n)
  finished : List (Fin n)

namespace Walk

variable {n : Nat}

/-- Before anything is visited. -/
def start : Walk n :=
  ⟨[], [], []⟩

/-- The check of an interface begins. -/
def enter (w : Walk n) (i : Fin n) : Walk n :=
  { w with path := i :: w.path, opened := i :: w.opened }

/-- The innermost check ends. -/
def leave (w : Walk n) : Walk n :=
  { w with path := w.path.tail, opened := w.opened.tail }

/-- The check of an interface has succeeded. -/
def finish (w : Walk n) (i : Fin n) : Walk n :=
  { w with finished := i :: w.finished }

/-- The interfaces of the path from a given one inwards, and the given one again. -/
def cycle (w : Walk n) (i : Fin n) : List (Fin n) :=
  i :: (w.path.takeWhile (· ≠ i)).reverse ++ [i]

end Walk

/-- The outcome of a check, and what the walk remembers after it. -/
abbrev Visit (n : Nat) (ε : Type) :=
  Walk n → Except ε Unit × Walk n

/-- The fault of a method that returns a faulty interface. -/
def nestedFault : Except BindError Unit → Except BindFault Unit
  | .ok () => .ok ()
  | .error e => .error (.nested e)

namespace Schema

variable (s : Schema)

/-- The name of an interface. -/
def name (i : Fin s.size) : String :=
  (s.interface i).name

/-- Checks what a method leads to. -/
def visitReturned (visit : Fin s.size → Visit s.size BindError) :
    Returns s.size → Visit s.size BindFault
  | .value _, w => (.ok (), w)
  | .interface child, w =>
    if child ∈ w.path then (.error (.cyclicInterface ((w.cycle child).map s.name)), w)
    else if child ∈ w.finished then (.ok (), w)
    else
      let (result, after) := visit child w
      (nestedFault result, after)
  | .map child, w =>
    if child ∈ w.finished ∨ child ∈ w.opened then (.ok (), w)
    else
      let (result, after) := visit child { w with path := [] }
      (nestedFault result, { after with path := w.path })

/-- Checks a method that comes after methods with the given names. -/
def visitMethod (visit : Fin s.size → Visit s.size BindError) (earlier : List String)
    (method : Method s.size) : Visit s.size BindFault := fun w =>
  if method.name ∈ earlier then (.error .duplicateMethod, w)
  else
    match method.classify false with
    | .error fault => (.error fault, w)
    | .ok _ => s.visitReturned visit method.returns w

/-- Checks methods in order, after methods with the given names. The first fault ends the check. -/
def visitMethods (visit : Fin s.size → Visit s.size BindError) (interfaceName : String)
    (earlier : List String) : List (Method s.size) → Visit s.size BindError
  | [], w => (.ok (), w)
  | method :: rest, w =>
    match s.visitMethod visit earlier method w with
    | (.error fault, after) => (.error (.method interfaceName method.name fault), after)
    | (.ok (), after) => visitMethods visit interfaceName (method.name :: earlier) rest after

/-- Checks an interface and what it leads to, down to a depth. -/
def visit : Nat → Fin s.size → Visit s.size BindError
  | 0, i, w => (.error (.tooDeep (s.name i)), w)
  | limit + 1, i, w =>
    match s.visitMethods (visit limit) (s.name i) [] (s.interface i).methods (w.enter i) with
    | (.error e, after) => (.error e, after.leave)
    | (.ok (), after) => (.ok (), after.leave.finish i)

/-- A depth that no walk exceeds. -/
def walkLimit : Nat :=
  s.size * s.size

/-- Checks everything that binding an interface, and using what was bound, can lead to. -/
def check (root : Fin s.size) : Except BindError Unit :=
  (s.visit s.walkLimit root .start).1

end Schema

end ConfigBinding
