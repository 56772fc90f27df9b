import ConfigBinding.Proofs.Placeholder.Filling
import ConfigBinding.Template

/-!
# Templates and the arguments of calls

A template is checked against the number of parameters when an interface is bound, and filled with
arguments at every call.  Both take the template piece by piece, and what is wrong with a piece for
the one is wrong with it for the other.

## Main Definitions

* `TemplateError.atBind` — the fault at a bind that an error of a call corresponds to

## Main Statements

* `Template.fault?_parameter` — a piece is at fault for a number of parameters exactly if it is for
  as many arguments
* `Template.check_eq_ok_iff`, `Template.check_eq_error_iff` — when a template is refused
* `Template.check_decides_substitute` — what a check says of the calls

## Design Notes

More arguments than parameters do no harm, and fewer make a difference only where one of the missing
ones is asked for.  That a hole is not closed has nothing to do with the arguments: it is found by
the check, and so never at a call.
-/

namespace ConfigBinding

open Placeholder

/-- The fault at a bind that an error of a call corresponds to. -/
def TemplateError.atBind : TemplateError → BindFault
  | missingArgument template index provided => .templateArgumentOutOfRange template index provided
  | unclosed template => .malformedTemplate template

namespace Template

variable {template name : String} {params : Nat} {arguments others : List String}

/-! ### One hole -/

/-- **A hole is at fault in a call** if the argument that it asks for is missing. -/
theorem argument_eq_error_iff {e : TemplateError} :
    argument template arguments name = .error e ↔
      ∃ index, index? name = some index ∧ arguments.length ≤ index ∧
        e = .missingArgument template index arguments.length := by
  unfold argument
  cases index? name with
  | none => simp
  | some index =>
    by_cases missing : arguments.length ≤ index
    · simp [missing, eq_comm]
    · simp [missing, List.getElem?_eq_getElem (Nat.not_le.mp missing)]

/-- **A hole is at fault at a bind** if there is no parameter for what it asks for. -/
theorem parameter_eq_error_iff {fault : BindFault} :
    parameter template params name = .error fault ↔
      ∃ index, index? name = some index ∧ params ≤ index ∧
        fault = .templateArgumentOutOfRange template index params := by
  unfold parameter
  cases index? name with
  | none => simp
  | some index =>
    by_cases outside : params ≤ index
    · simp [outside, eq_comm]
    · simp [outside]

/-- Arguments that agree as far as there are parameters fill a hole for a parameter alike. -/
theorem argument_congr (same : others.take params = arguments.take params)
    (inside : ∀ index, index? name = some index → index < params)
    (enough : params ≤ arguments.length) :
    argument template others name = argument template arguments name := by
  unfold argument
  cases named : index? name with
  | none => rfl
  | some index =>
    have among : index < params := inside index named
    have there : index < arguments.length := Nat.lt_of_lt_of_le among enough
    have given : others[index]? = arguments[index]? := by
      rw [← List.getElem?_take_of_lt among, same, List.getElem?_take_of_lt among]
    simp only [given, List.getElem?_eq_getElem there]

/-! ### One piece -/

/-- **A piece is at fault for a number of parameters exactly if it is for as many arguments.** -/
theorem fault?_parameter (template : String) (arguments : List String) (part : Piece) :
    part.fault? (parameter template arguments.length) (.malformedTemplate template) =
      (part.fault? (argument template arguments) (.unclosed template)).map
        TemplateError.atBind := by
  refine Option.ext fun fault => ?_
  rw [Option.map_eq_some_iff]
  simp only [Piece.fault?_eq_some_iff, parameter_eq_error_iff, argument_eq_error_iff]
  constructor
  · rintro (⟨name, rfl, index, named, outside, rfl⟩ | ⟨rfl, rfl⟩)
    · exact ⟨_, .inl ⟨name, rfl, index, named, outside, rfl⟩, rfl⟩
    · exact ⟨_, .inr ⟨rfl, rfl⟩, rfl⟩
  · rintro ⟨e, ⟨name, rfl, index, named, missing, rfl⟩ | ⟨rfl, rfl⟩, rfl⟩
    · exact .inl ⟨name, rfl, index, named, missing, rfl⟩
    · exact .inr ⟨rfl, rfl⟩

/-- Whether a piece is at fault at all is the same for parameters and for as many arguments. -/
theorem fault?_argument_eq_none_iff {part : Piece} :
    part.fault? (argument template arguments) (.unclosed template) = none ↔
      part.fault? (parameter template arguments.length) (.malformedTemplate template) = none := by
  rw [fault?_parameter, Option.map_eq_none_iff]

/-- What can be wrong with a piece at a call. -/
theorem eq_of_fault?_argument {part : Piece} {e : TemplateError}
    (fault : part.fault? (argument template arguments) (.unclosed template) = some e) :
    (∃ index, e = .missingArgument template index arguments.length) ∨ e = .unclosed template := by
  rcases Piece.fault?_eq_some_iff.mp fault with ⟨name, -, missing⟩ | ⟨-, rfl⟩
  · obtain ⟨index, -, -, rfl⟩ := argument_eq_error_iff.mp missing
    exact .inl ⟨index, rfl⟩
  · exact .inr rfl

/-! ### Whole templates -/

/-- A template is refused for the first of its pieces that is at fault. -/
theorem check_eq_error_iff {fault : BindFault} :
    check template params = .error fault ↔
      (pieces template.toList).findSome?
        (Piece.fault? (parameter template params) (.malformedTemplate template)) = some fault := by
  rw [check, map_eq_error_iff, expand_eq_error_iff]

/-- A template is accepted if none of its pieces is at fault. -/
theorem check_eq_ok_iff :
    check template params = .ok () ↔ ∀ part ∈ pieces template.toList,
      part.fault? (parameter template params) (.malformedTemplate template) = none := by
  rw [← exists_fill_eq_ok_iff, check, expand]
  cases fill (parameter template params) (.malformedTemplate template)
    (pieces template.toList) <;> simp [Except.map]

/-- No key comes of a template if one of its pieces is at fault; the first of them is reported. -/
theorem substitute_eq_error_iff {e : TemplateError} :
    substitute template arguments = .error e ↔
      (pieces template.toList).findSome?
        (Piece.fault? (argument template arguments) (.unclosed template)) = some e :=
  expand_eq_error_iff

/-- In an accepted template every hole is closed. -/
theorem not_unclosed_of_check (accepted : check template params = .ok ()) :
    .unclosed ∉ pieces template.toList := by
  intro listed
  have sound := check_eq_ok_iff.mp accepted _ listed
  rw [Piece.fault?] at sound
  cases sound

/-- In an accepted template every hole that asks for an argument asks for a parameter. -/
theorem index_lt_of_check (accepted : check template params = .ok ())
    (hole : .hole name ∈ pieces template.toList) {index : Nat} (named : index? name = some index) :
    index < params := by
  refine Nat.lt_of_not_le fun outside => ?_
  have sound := check_eq_ok_iff.mp accepted _ hole
  have fault : parameter template params name = _ :=
    parameter_eq_error_iff.mpr ⟨index, named, outside, rfl⟩
  rw [Piece.fault?_eq_some_iff.mpr (.inl ⟨name, rfl, fault⟩)] at sound
  cases sound

/-- **At the calls of an accepted template** nothing can be missing but an argument for one of its
parameters. -/
theorem missing_of_check (accepted : check template params = .ok ()) {e : TemplateError}
    (failed : substitute template arguments = .error e) :
    ∃ index, arguments.length ≤ index ∧ index < params ∧
      e = .missingArgument template index arguments.length := by
  obtain ⟨part, listed, found⟩ :=
    List.exists_of_findSome?_eq_some (substitute_eq_error_iff.mp failed)
  rcases Piece.fault?_eq_some_iff.mp found with ⟨name, rfl, fault⟩ | ⟨rfl, -⟩
  · obtain ⟨index, named, missing, rfl⟩ := argument_eq_error_iff.mp fault
    exact ⟨index, missing, index_lt_of_check accepted listed named, rfl⟩
  · exact absurd listed (not_unclosed_of_check accepted)

/-- With enough arguments there is a key. -/
theorem exists_key_of_check (accepted : check template params = .ok ())
    (enough : params ≤ arguments.length) : ∃ key, substitute template arguments = .ok key := by
  cases outcome : substitute template arguments with
  | ok key => exact ⟨key, rfl⟩
  | error e =>
    obtain ⟨index, missing, among, -⟩ := missing_of_check accepted outcome
    exact absurd (Nat.le_trans enough missing) (Nat.not_le.mpr among)

/-- What comes after the arguments for the parameters makes no difference to the key. -/
theorem substitute_congr (accepted : check template params = .ok ())
    (enough : params ≤ arguments.length) (same : others.take params = arguments.take params) :
    substitute template others = substitute template arguments := by
  rw [substitute, substitute, expand, expand]
  refine congrArg _ (fill_congr fun name hole => ?_)
  exact argument_congr same (fun index named => index_lt_of_check accepted hole named) enough

/-- **A check decides what calls come to.**  With arguments for all its parameters an accepted
template has a key, to which no further arguments matter; with fewer an argument may be missing, and
nothing else can be wrong.  A template that is refused has no key for as many arguments as
parameters: the piece at fault is the first one that is at fault for the call, with the error that
corresponds to the fault. -/
theorem check_decides_substitute (template : String) (params : Nat) :
    (check template params = .ok () →
      (∀ arguments, params ≤ arguments.length →
        ∃ key, substitute template arguments = .ok key ∧
          ∀ others, others.take params = arguments.take params →
            substitute template others = .ok key) ∧
      ∀ arguments e, substitute template arguments = .error e →
        ∃ index, arguments.length ≤ index ∧ index < params ∧
          e = .missingArgument template index arguments.length) ∧
    ∀ fault, check template params = .error fault → ∀ arguments, arguments.length = params →
      ∃ before part after e, pieces template.toList = before ++ part :: after ∧
        (∀ earlier ∈ before,
          earlier.fault? (parameter template params) (.malformedTemplate template) = none ∧
          earlier.fault? (argument template arguments) (.unclosed template) = none) ∧
        part.fault? (parameter template params) (.malformedTemplate template) = some fault ∧
        part.fault? (argument template arguments) (.unclosed template) = some e ∧
        substitute template arguments = .error e ∧
        ((∃ index, fault = .templateArgumentOutOfRange template index params ∧
            e = .missingArgument template index params) ∨
          fault = .malformedTemplate template ∧ e = .unclosed template) := by
  constructor
  · intro accepted
    refine ⟨fun arguments enough => ?_, fun arguments e failed => missing_of_check accepted failed⟩
    obtain ⟨key, made⟩ := exists_key_of_check accepted enough
    exact ⟨key, made, fun others same => (substitute_congr accepted enough same).trans made⟩
  · rintro fault refused arguments rfl
    obtain ⟨before, part, after, split, found, sound⟩ :=
      List.findSome?_eq_some_iff.mp (check_eq_error_iff.mp refused)
    -- the same piece is the first one at fault for the call
    obtain ⟨e, atCall, corresponds⟩ : ∃ e,
        part.fault? (argument template arguments) (.unclosed template) = some e ∧
          e.atBind = fault := by
      rw [← Option.map_eq_some_iff, ← fault?_parameter]
      exact found
    have soundAtCall : ∀ earlier ∈ before,
        earlier.fault? (argument template arguments) (.unclosed template) = none :=
      fun earlier inBefore => fault?_argument_eq_none_iff.mpr (sound earlier inBefore)
    have failed : substitute template arguments = .error e :=
      substitute_eq_error_iff.mpr
        (List.findSome?_eq_some_iff.mpr ⟨before, part, after, split, atCall, soundAtCall⟩)
    refine ⟨before, part, after, e, split, ?_, found, atCall, failed, ?_⟩
    · intro earlier inBefore
      exact ⟨sound earlier inBefore, soundAtCall earlier inBefore⟩
    · rcases eq_of_fault?_argument atCall with ⟨index, rfl⟩ | rfl
      · exact .inl ⟨index, corresponds.symm, rfl⟩
      · exact .inr ⟨corresponds.symm, rfl⟩

/-- A template for two parameters, and one that asks for a third. -/
theorem shards_checked :
    check "shards.${1}.${0}" 2 = .ok () ∧
      (∃ key, substitute "shards.${1}.${0}" ["eu", "7"] = .ok key ∧
        substitute "shards.${1}.${0}" ["eu", "7", "more"] = .ok key) ∧
      check "shards.${0}.${2}" 2 =
        .error (.templateArgumentOutOfRange "shards.${0}.${2}" 2 2) ∧
      substitute "shards.${0}.${2}" ["eu", "7"] =
        .error (.missingArgument "shards.${0}.${2}" 2 2) := by
  have accepted : check "shards.${1}.${0}" 2 = .ok () := rfl
  have refused : check "shards.${0}.${2}" 2 =
      .error (.templateArgumentOutOfRange "shards.${0}.${2}" 2 2) := rfl
  refine ⟨accepted, ?_, refused, ?_⟩
  · obtain ⟨key, made, further⟩ :=
      ((check_decides_substitute _ 2).1 accepted).1 ["eu", "7"] (by decide)
    exact ⟨key, made, further ["eu", "7", "more"] rfl⟩
  · obtain ⟨_, _, _, e, -, -, -, -, failed, ⟨index, same, rfl⟩ | ⟨same, -⟩⟩ :=
      (check_decides_substitute _ 2).2 _ refused ["eu", "7"] rfl
    · cases same
      exact failed
    · cases same

end Template

end ConfigBinding
