import ConfigBinding.BindError
import ConfigBinding.Placeholder

/-!
# Key templates

Keys of methods with parameters. The hole `${0}` of a template stands for the first argument of a
call, `${1}` for the second, and so on. A hole whose name is not a number is not a hole of a
template and stays as it is written.

## Main Definitions

* `Template.index?` — the argument that a hole stands for
* `Template.substitute` — the key for the arguments of a call
* `Template.check` — whether a template suits a number of parameters
-/

namespace ConfigBinding

/-- Why a key could not be made from a template. -/
inductive TemplateError where
  | missingArgument (template : String) (index provided : Nat)
  | unclosed (template : String)
  deriving DecidableEq

/-- The text of a template error. -/
def TemplateError.message : TemplateError → String
  | missingArgument template index provided =>
    "missing argument index " ++ Decimal.natText index ++ " for template '" ++ template ++ "' (" ++
      Decimal.natText provided ++ " provided)"
  | unclosed template => "unclosed placeholder in template '" ++ template ++ "'"

namespace Template

/-- The argument that a hole stands for, if its name is a number. -/
def index? (name : String) : Option Nat :=
  Decimal.readIndex? name.toList

/-- The text of the argument that a hole stands for. -/
def argument (template : String) (arguments : List String) (name : String) :
    Except TemplateError (Option String) :=
  match index? name with
  | none => .ok none
  | some index =>
    match arguments[index]? with
    | some text => .ok (some text)
    | none => .error (.missingArgument template index arguments.length)

/-- The key that a template gives for the arguments of a call. -/
def substitute (template : String) (arguments : List String) : Except TemplateError String :=
  Placeholder.expand (argument template arguments) (.unclosed template) template

/-- Whether the argument that a hole stands for is one of the parameters. -/
def parameter (template : String) (params : Nat) (name : String) :
    Except BindFault (Option String) :=
  match index? name with
  | none => .ok none
  | some index =>
    if params ≤ index then .error (.templateArgumentOutOfRange template index params)
    else .ok none

/-- Whether a template suits a number of parameters: its holes are closed, and the arguments they
stand for exist. -/
def check (template : String) (params : Nat) : Except BindFault Unit :=
  (Placeholder.expand (parameter template params) (.malformedTemplate template) template).map
    fun _ => ()

end Template

end ConfigBinding
