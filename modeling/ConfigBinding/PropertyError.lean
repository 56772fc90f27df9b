import ConfigBinding.Kind

/-!
# Property errors

Why a property could not be read, or a source of properties not be loaded.

## Main Definitions

* `PropertyError` — the causes
* `PropertyError.message` — their texts
-/

namespace ConfigBinding

/-- Why a property could not be read or loaded. -/
inductive PropertyError where
  /-- Nothing is stored under the key, and there is no default. -/
  | missing (key : String)
  /-- The text of a source is malformed. -/
  | malformedSource (name : String)
  /-- A value is not of the shape that the caller asked for. -/
  | unexpectedShape
  /-- A literal does not denote a value of the kind. -/
  | undecodable (literal : String) (kind : Kind)
  /-- References lead too deep, as they do when they form a circle. -/
  | circularReference (key : String)
  /-- A reference leads to no value. -/
  | referenceNotFound (path : String)
  /-- A reference has no path, or one with an empty segment. -/
  | invalidReferencePath (path : String)
  /-- A reference leads to an array or a table, which have no bare text. -/
  | nonScalarReference (path : String)
  /-- A reference is opened and not closed. -/
  | unclosedReference (literal : String)
  /-- No source has the name. -/
  | unknownSource (name : String)
  deriving DecidableEq

/-- The text of an error. The two that are about the form of a text or value end where a
description of the fault would follow. -/
def PropertyError.message : PropertyError → String
  | missing key => "no value for property '" ++ key ++ "' and no default"
  | malformedSource name => "failed to parse config source '" ++ name ++ "': "
  | unexpectedShape => "failed to deserialize config value: "
  | undecodable literal kind => "cannot decode '" ++ literal ++ "' as " ++ kind.name
  | circularReference key => "circular reference detected while resolving '" ++ key ++ "'"
  | referenceNotFound path => "referenced path not found: " ++ path
  | invalidReferencePath path => "invalid reference path: " ++ path
  | nonScalarReference path => "cannot reference non-scalar value: " ++ path
  | unclosedReference literal => "unclosed reference (missing '\x7d') in '" ++ literal ++ "'"
  | unknownSource name => "unknown configuration source: " ++ name

end ConfigBinding
