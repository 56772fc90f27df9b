import ConfigBinding.AccessError
import ConfigBinding.Bind
import ConfigBinding.Shape

/-!
# Access

Calling the methods of bound interfaces. A call reads the store as it is at that time; the only
thing it may leave behind is the value that an immutable leaf keeps from then on. Entries of maps
are not made by calls but by requests to the map.

## Main Definitions

* `Leaf.read` — the value that a leaf answers with
* `Application.summary` — a proxy as text, with all that its methods answer
* `Application.invoke` — a call
* `Application.get`, `nested`, `map`, `mapEntry` — calls with an expected sort of result
-/

namespace ConfigBinding

/-- The value of a leaf for the arguments of a call. Only a parameterized leaf looks at the
arguments. -/
def Leaf.read {n : Nat} {σ : Type} (decoder : Decoder) (arguments : List String) :
    Leaf → Session n σ → Except AccessError Value × Session n σ
  | .dynamic property, w => ((property.read decoder w.store).mapError .property, w)
  | .immutable property serial, w =>
    match w.kept serial with
    | some value => (.ok value, w)
    | none =>
      match property.read decoder w.store with
      | .error e => (.error (.property e), w)
      | .ok value => (.ok value, w.keep serial value)
  | .parameterized template kind default?, w =>
    match Template.substitute template arguments with
    | .error e => (.error (.template e), w)
    | .ok key =>
      let property : Property := ⟨key, kind, default?⟩
      ((property.read decoder w.store).mapError .property, w)

/-- The keys of a map's entries as text. -/
def Session.mapText {n : Nat} {σ : Type} (w : Session n σ) (map : ProxyMap n) : String :=
  "\x7b" ++ ", ".intercalate (w.keys map) ++ "\x7d"

/-- The text of an answer, or of the error in its place. -/
def answerText : Except AccessError Value → String
  | .ok value => value.shown
  | .error e => e.message

/-- A field of a summary. -/
def fieldText (keyPrefix key answer : String) : String :=
  ownKey keyPrefix key ++ "='" ++ answer ++ "'"

namespace Application

variable {σ : Type} (app : Application σ)

/-! ### Summaries -/

mutual

/-- A proxy as text: its name, and what each of its methods answers without arguments, under the key
without the prefix. A method that fails shows its error. -/
def summary : app.Bound → app.State → String × app.State
  | ⟨_, _, name, keyPrefix, bindings⟩, w =>
    let (fields, after) := fieldTexts keyPrefix bindings w
    (name ++ "[" ++ ", ".intercalate fields ++ "]", after)

/-- The fields of a summary, in order. -/
def fieldTexts (keyPrefix : String) :
    List (Binding app.schema.size app.Bound) → app.State → List String × app.State
  | [], w => ([], w)
  | binding :: rest, w =>
    let (field, after) := bindingText keyPrefix binding w
    let (fields, after) := fieldTexts keyPrefix rest after
    (field :: fields, after)

/-- The field of one binding. -/
def bindingText (keyPrefix : String) :
    Binding app.schema.size app.Bound → app.State → String × app.State
  | ⟨_, key, _, resolver⟩, w =>
    let (answer, after) := resolverText resolver w
    (fieldText keyPrefix key answer, after)

/-- What a method answers without arguments, as text. -/
def resolverText : Resolver app.schema.size app.Bound → app.State → String × app.State
  | .leaf l, w =>
    let (answer, after) := l.read app.decoder [] w
    (answerText answer, after)
  | .nested child, w => summary child w
  | .map m, w => (w.mapText m, w)

end

/-- A result as text. -/
def resolvedText : Resolved app.schema.size → app.State → String × app.State
  | .value value, w => (value.shown, w)
  | .interface p, w => app.summary p w
  | .map m, w => (w.mapText m, w)

/-! ### Calls -/

/-- What a resolver answers to a call. -/
def answer (arguments : List String) :
    Resolver app.schema.size app.Bound → app.Attempt AccessError (Resolved app.schema.size)
  | .leaf l, w =>
    let (answer, after) := l.read app.decoder arguments w
    (answer.map .value, after)
  | .nested child, w => (.ok (.interface child), w)
  | .map m, w => (.ok (.map m), w)

/-- The method that every proxy has, unless its interface declares a method of that name. -/
def summaryMethod : String :=
  "toString"

/-- Calls a method. -/
def invoke (p : app.Bound) (method : String) (arguments : List String) :
    app.Attempt AccessError (Resolved app.schema.size) := fun w =>
  match p.binding? method with
  | some binding => app.answer arguments binding.resolver w
  | none =>
    if method = summaryMethod then
      let (text, after) := app.summary p w
      (.ok (.value (.string text)), after)
    else (.error (.unsupportedMethod p.interfaceName method), w)

/-! ### Calls with an expected result -/

/-- The error of a method that returns something other than expected. -/
def unexpected {α : Type} (p : app.Bound) (method : String) (expected : Expected) :
    Except AccessError α :=
  .error (.unexpectedReturn p.interfaceName method expected)

/-- Calls a method and takes a value of a shape from it. -/
def get (p : app.Bound) (method : String) (arguments : List String) (shape : Shape) :
    app.Attempt AccessError Value := fun w =>
  match app.invoke p method arguments w with
  | (.error e, after) => (.error e, after)
  | (.ok (.value value), after) =>
    match shape.read? value with
    | some seen => (.ok seen, after)
    | none => (.error (.property .unexpectedShape), after)
  | (.ok _, after) => (app.unexpected p method .value, after)

/-- Calls a method and takes the interface of a number from it. -/
def nested (p : app.Bound) (method : String) (number : Nat) :
    app.Attempt AccessError app.Bound := fun w =>
  match app.invoke p method [] w with
  | (.error e, after) => (.error e, after)
  | (.ok (.interface child), after) =>
    if child.isOf number then (.ok child, after)
    else (app.unexpected p method (.interface number), after)
  | (.ok _, after) => (app.unexpected p method (.interface number), after)

/-- Calls a method and takes a map from it. -/
def map (p : app.Bound) (method : String) :
    app.Attempt AccessError (ProxyMap app.schema.size) := fun w =>
  match app.invoke p method [] w with
  | (.error e, after) => (.error e, after)
  | (.ok (.map m), after) => (.ok m, after)
  | (.ok _, after) => (app.unexpected p method .map, after)

/-- The entry of a map as the interface of a number. The entry is made even if it is another
interface. -/
def entryAs (m : ProxyMap app.schema.size) (key : String) (number : Nat) :
    app.Attempt AccessError app.Bound := fun w =>
  match app.entry m key w with
  | (.error e, after) => (.error (.bind e), after)
  | (.ok p, after) =>
    if p.isOf number then (.ok p, after)
    else
      (.error (.unexpectedReturn (app.schema.name m.valueType) key (.interface number)), after)

/-- Calls a method that returns a map, and takes an entry of the map as the interface of a
number. -/
def mapEntry (p : app.Bound) (method key : String) (number : Nat) :
    app.Attempt AccessError app.Bound := fun w =>
  match app.map p method w with
  | (.error e, after) => (.error e, after)
  | (.ok m, after) =>
    match app.entry m key after with
    | (.error e, after) => (.error (.bind e), after)
    | (.ok child, after) =>
      if child.isOf number then (.ok child, after)
      else (app.unexpected p method (.interface number), after)

end Application

end ConfigBinding
