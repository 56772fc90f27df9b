import ConfigBinding.Placeholder
import ConfigBinding.PropertyError
import ConfigBinding.Text.Split
import ConfigBinding.Value.Text

/-!
# References

A literal may refer to other properties: the hole `${a.b}` stands for the bare text of the value at
the path `a.b`.

## Main Definitions

* `Reference.isPath` — whether a text is the path of a reference
* `Reference.interpolate` — a literal with its references replaced
-/

namespace ConfigBinding.Reference

/-- A path has segments that are separated by dots, none of them empty. -/
def isPath (path : String) : Bool :=
  (Text.splitDots path).all (· != "")

/-- The bare text of the value that a reference leads to. -/
def resolve (lookup : String → Except PropertyError (Option Value)) (path : String) :
    Except PropertyError (Option String) :=
  if isPath path then
    match lookup path with
    | .error e => .error e
    | .ok none => .error (.referenceNotFound path)
    | .ok (some value) =>
      match value.plain? with
      | some text => .ok (some text)
      | none => .error (.nonScalarReference path)
  else .error (.invalidReferencePath path)

/-- A literal with its references replaced by what the lookup finds. -/
def interpolate (lookup : String → Except PropertyError (Option Value)) (literal : String) :
    Except PropertyError String :=
  Placeholder.expand (resolve lookup) (.unclosedReference literal) literal

end ConfigBinding.Reference
