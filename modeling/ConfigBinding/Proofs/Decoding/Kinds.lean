import ConfigBinding.Property

/-!
# Kinds of what is read

Whatever way a value comes from, by the literals that are written by hand it is of the kind that it
was asked for: stored values that are of the kind are kept, integers are widened, and all other
scalars are decoded.

## Main Statements

* `Decoder.admits_of_decode` — a literal that is decoded
* `Decoder.admits_of_convert` — a stored value that is converted
* `Property.admits_of_read` — a property that is read
-/

namespace ConfigBinding

variable {kind : Kind} {value : Value}

/-- A literal of a kind stands for a value of the kind. -/
theorem Kind.admits_of_readLiteral? {literal : String}
    (read : readLiteral? kind literal = some value) : kind.admits value := by
  unfold readLiteral? at read
  cases kind with
  | string | any | list =>
    cases read
    rfl
  | integer | float | boolean | datetime =>
    obtain ⟨_, -, rfl⟩ := Option.map_eq_some_iff.mp read
    rfl

namespace Decoder

/-- Decoding reads the literal. -/
theorem readLiteral?_of_decode {literal : String}
    (decoded : standard.decode kind literal = .ok value) :
    readLiteral? kind literal = some value := by
  unfold standard at decoded
  cases read : readLiteral? kind literal with
  | none => simp [read] at decoded
  | some found =>
    simp only [read, Except.ok.injEq] at decoded
    rw [decoded]

/-- **A literal that is decoded** gives a value of the kind. -/
theorem admits_of_decode {literal : String} (decoded : standard.decode kind literal = .ok value) :
    kind.admits value :=
  Kind.admits_of_readLiteral? (readLiteral?_of_decode decoded)

/-- **A stored value that is converted** gives a value of the kind. -/
theorem admits_of_convert {stored : Value} (converted : standard.convert kind stored = .ok value) :
    kind.admits value := by
  unfold convert at converted
  split at converted
  · next admits =>
    cases converted
    exact admits
  · split at converted
    · -- an integer that is widened
      cases converted
      rfl
    · split at converted
      · exact admits_of_decode converted
      · cases converted

end Decoder

/-- **A property that is read** has a value of its kind, be it the stored one or the default. -/
theorem Property.admits_of_read {property : Property} {store : Store}
    (read : property.read .standard store = .ok value) : property.kind.admits value := by
  unfold Property.read at read
  split at read
  · cases read
  · exact Decoder.admits_of_convert read
  · split at read
    · cases read
    · split at read
      · cases read
      · exact Decoder.admits_of_decode read

end ConfigBinding
