import ConfigBinding.Proofs.Datetime.Reading
import ConfigBinding.Proofs.Decoding.Kinds
import ConfigBinding.Proofs.Placeholder.Writing
import ConfigBinding.Proofs.Reference.Locality

/-!
# Conversion as decoding

To convert a stored scalar and to decode its bare text are the same thing.  A value that is of the
kind already is kept, and its text would be read back as that value; any other scalar is decoded
from its text anyway.  So it makes no difference whether a key holds a scalar or nothing but a
reference to it.

## Main Statements

* `readLiteral?_plain` — a scalar of a kind is read back from its bare text
* `Decoder.convert_eq_decode` — converting a scalar is decoding its bare text
* `Decoder.decode_plain_of_decode` — what was decoded is decoded again from its bare text
* `Store.lookupWithin_hole` — a key with nothing but a reference holds the bare text of its target
* `Store.reference_reads_as_target` — and is read as the target is

## Design Notes

Floats are left out: an integer is widened to a float without its text, and the shortest digits of a
float are not read here.  The kind `any` keeps what is there, which for a reference is a text.
-/

namespace ConfigBinding

open Decimal Text

variable {kind : Kind} {value : Value} {text : String}

/-! ### Scalars that are read back -/

/-- **A scalar of a kind is read back from its bare text.**  For datetimes that takes one that can
be read at all. -/
theorem readLiteral?_plain (admits : kind.admits value = true) (notFloat : kind ≠ .float)
    (notAny : kind ≠ .any) (scalar : value.plain? = some text)
    (readsBack : ∀ moment, value = .datetime moment →
      Datetime.read? moment.text.toList = some moment) :
    readLiteral? kind text = some value := by
  unfold Kind.admits at admits
  split at admits
  · exact absurd rfl notAny
  · obtain rfl := Option.some.inj scalar
    rfl
  · next number =>
    obtain rfl := Option.some.inj scalar
    have solid : trim (intText number.toInt).toList = (intText number.toInt).toList :=
      trim_eq_self fun _ => isBlank_of_mem_intText
    show (readInt64? (trim (intText number.toInt).toList)).map Value.integer = _
    rw [solid, readInt64?_intText]
    rfl
  · exact absurd rfl notFloat
  · next flag =>
    obtain rfl := Option.some.inj scalar
    cases flag <;> rfl
  · next moment =>
    obtain rfl := Option.some.inj scalar
    have solid : trim moment.text.toList = moment.text.toList :=
      trim_eq_self moment.isBlank_of_mem_text
    show (Datetime.read? (trim moment.text.toList)).map Value.datetime = _
    rw [solid, readsBack moment rfl]
    rfl
  · -- an array has no bare text
    cases scalar
  · cases admits

/-- Only well-formed datetimes are read from literals. -/
theorem wellFormed_of_readLiteral? {literal : String} {moment : Datetime}
    (read : readLiteral? kind literal = some (.datetime moment)) : moment.WellFormed := by
  unfold readLiteral? at read
  cases kind with
  | string | any | list => cases read
  | integer | float | boolean =>
    obtain ⟨_, -, same⟩ := Option.map_eq_some_iff.mp read
    cases same
  | datetime =>
    obtain ⟨_, found, ⟨⟩⟩ := Option.map_eq_some_iff.mp read
    exact Datetime.wellFormed_of_read? found

namespace Decoder

/-- A value of the kind is kept, whatever the decoder. -/
theorem convert_of_admits {decoder : Decoder} (admits : kind.admits value = true) :
    decoder.convert kind value = .ok value :=
  if_pos admits

/-- A scalar of another kind is decoded from its bare text, whatever the decoder. -/
theorem convert_of_not_admits {decoder : Decoder} (differs : kind.admits value = false)
    (notFloat : kind ≠ .float) (scalar : value.plain? = some text) :
    decoder.convert kind value = decoder.decode kind text := by
  unfold convert
  rw [if_neg (by simp [differs])]
  split
  · exact absurd rfl notFloat
  · rw [scalar]

/-- **Converting a scalar is decoding its bare text**, value or error. -/
theorem convert_eq_decode (notFloat : kind ≠ .float) (notAny : kind ≠ .any)
    (scalar : value.plain? = some text)
    (readsBack : ∀ moment, value = .datetime moment →
      Datetime.read? moment.text.toList = some moment) :
    standard.convert kind value = standard.decode kind text := by
  by_cases admits : kind.admits value = true
  · have read := readLiteral?_plain admits notFloat notAny scalar readsBack
    rw [convert_of_admits admits]
    simp only [standard, read]
  · exact convert_of_not_admits (by simpa using admits) notFloat scalar

/-- **What was decoded is decoded again from its bare text.**  A literal may be written in many
ways, with blanks, signs or zeros that do not matter, but its value has one text. -/
theorem decode_plain_of_decode {literal : String} (notFloat : kind ≠ .float) (notAny : kind ≠ .any)
    (decoded : standard.decode kind literal = .ok value) (scalar : value.plain? = some text) :
    standard.decode kind text = .ok value := by
  have read := readLiteral?_of_decode decoded
  have readsBack : ∀ moment, value = .datetime moment →
      Datetime.read? moment.text.toList = some moment := by
    rintro moment rfl
    exact Datetime.read?_text (wellFormed_of_readLiteral? read)
  rw [← convert_eq_decode notFloat notAny scalar readsBack,
    convert_of_admits (Kind.admits_of_readLiteral? read)]

end Decoder

/-! ### References alone -/

theorem Property.read_of_lookup {key : String} {default? : Option String} {decoder : Decoder}
    {store : Store} (found : store.lookup key = .ok (some value)) :
    Property.read ⟨key, kind, default?⟩ decoder store = decoder.convert kind value := by
  rw [Property.read, found]

namespace Store

open Placeholder

variable {store : Store} {k a : String}

/-- **A key with nothing but a reference** holds the bare text of what the reference leads to, or
has the error of the reference.  The reference takes one link. -/
theorem lookupWithin_hole (closes : '}' ∉ a.toList)
    (whole : store.raw? k = some (.string (.ofList (holeText a)))) (links : Nat) :
    store.lookupWithin (links + 1) k = (Reference.resolve (store.lookupWithin links) a).map
      fun text => some (.string (text.getD (.ofList (holeText a)))) := by
  rw [lookupWithin_eq_fill whole, String.toList_ofList, pieces_holeText closes]
  cases here : Reference.resolve (store.lookupWithin links) a with
  | error e =>
    rw [fill_hole_error here]
    rfl
  | ok text =>
    rw [fill, here]
    cases text <;> simp [fill, Except.map]

/-- **A scalar and its bare text are the same to a reader.**  For every kind but floats and `any`,
to convert a scalar is to decode its bare text, value or error, if the text of a datetime is read
back as the datetime, as it is exactly for the well-formed ones.  So a key with nothing but a
reference is read as its target is, whatever the defaults, if the target is a scalar that is found
with the links that are left after the reference. -/
theorem reference_reads_as_target (notFloat : kind ≠ .float) (notAny : kind ≠ .any)
    (scalar : value.plain? = some text)
    (readsBack : ∀ moment, value = .datetime moment →
      Datetime.read? moment.text.toList = some moment) :
    Decoder.standard.convert kind value = Decoder.standard.decode kind text ∧
    ∀ (store : Store) (k a : String) (default? default?' : Option String),
      Reference.isPath a = true → '}' ∉ a.toList →
      store.raw? k = some (.string (.ofList (holeText a))) →
      store.lookupWithin maxLinks a = .ok (some value) →
      Property.read ⟨k, kind, default?⟩ .standard store =
        Property.read ⟨a, kind, default?'⟩ .standard store := by
  have converted := Decoder.convert_eq_decode notFloat notAny scalar readsBack
  refine ⟨converted, fun store k a default? default?' path closes whole found => ?_⟩
  have through : store.lookup k = .ok (some (.string text)) := by
    rw [lookup, lookupWithin_hole closes whole, Reference.resolve_some path found scalar]
    rfl
  have itself : store.lookup a = .ok (some value) := by
    rw [lookup]
    exact lookupWithin_of_le found (Nat.le_succ maxLinks)
  rw [Property.read_of_lookup through, Property.read_of_lookup itself, converted,
    Decoder.convert_string_standard]

/-- The least number that can be stored and a date, each with a key that refers to it. -/
def quotas : Store :=
  ⟨⟨[("floor", .string "${quota.least}"),
    ("quota", .table ⟨[("least", .integer Int64.minValue),
      ("since", .datetime (.date ⟨1979, 5, 27⟩))]⟩),
    ("start", .string "${quota.since}")]⟩⟩

/-- Both are read through their references as they are. -/
theorem quotas_read_through_references :
    quotas.lookupWithin maxLinks "quota.least" = .ok (some (.integer Int64.minValue)) ∧
      Decoder.standard.decode .integer "-9223372036854775808" = .ok (.integer Int64.minValue) ∧
      Property.read ⟨"floor", .integer, none⟩ .standard quotas =
        Property.read ⟨"quota.least", .integer, none⟩ .standard quotas ∧
      Property.read ⟨"start", .datetime, none⟩ .standard quotas =
        Property.read ⟨"quota.since", .datetime, none⟩ .standard quotas := by
  have least : (Value.integer Int64.minValue).plain? = some "-9223372036854775808" := rfl
  have date : (Value.datetime (.date ⟨1979, 5, 27⟩)).plain? = some "1979-05-27" := rfl
  have dateReadsBack : ∀ moment, Value.datetime (.date ⟨1979, 5, 27⟩) = .datetime moment →
      Datetime.read? moment.text.toList = some moment := by
    rintro _ ⟨⟩
    rfl
  have ofLeast := reference_reads_as_target (show Kind.integer ≠ .float by decide) (by decide)
    least nofun
  have ofDate := reference_reads_as_target (show Kind.datetime ≠ .float by decide) (by decide)
    date dateReadsBack
  refine ⟨rfl, ofLeast.1.symm, ?_, ?_⟩
  · exact ofLeast.2 quotas "floor" "quota.least" none none rfl (by decide) rfl rfl
  · exact ofDate.2 quotas "start" "quota.since" none none rfl (by decide) rfl rfl

end Store

end ConfigBinding
