import ConfigBinding.Environment
import ConfigBinding.Toml.Document

/-!
# Sources of properties

Where properties come from: a TOML text, the environment, or a list of entries.

## Main Definitions

* `Source` — the kinds of sources
* `Source.entries` — what a source contributes to a store
* `Store.ofSources` — a store from sources, of which later ones override earlier ones
-/

namespace ConfigBinding

/-- A source of properties. The name of a text appears only in messages. -/
inductive Source where
  | toml (name text : String)
  | environment (selection : VariableSelection)
  | fixed (entries : List Entry)

/-- The entries of a source. A text is read every time, so a malformed one is found only when its
entries are asked for. -/
def Source.entries (env : Environment) : Source → Except PropertyError (List Entry)
  | .toml name text =>
    match Toml.read? text with
    | some t => .ok [.root t]
    | none => .error (.malformedSource name)
  | .environment selection => .ok (selection.entries env)
  | .fixed entries => .ok entries

/-- Adds sources to a store in order. The first one that fails ends it. -/
def Store.addSources (env : Environment) (store : Store) :
    List Source → Except PropertyError Store
  | [] => .ok store
  | source :: rest =>
    match source.entries env with
    | .error e => .error e
    | .ok entries => Store.addSources env (store.merge entries) rest

/-- The store that a list of sources makes. -/
def Store.ofSources (env : Environment) (sources : List Source) : Except PropertyError Store :=
  Store.addSources env .empty sources

end ConfigBinding
