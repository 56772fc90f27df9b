import ConfigBinding.Proofs.Run.Requests

/-!
# Prefixes of entries

An entry of a map is bound under the key of the map, a dot, the text of the request and a dot.  The
last dot is left out if the text ends in one, or is empty.

## Main Definitions

* `Key.Undotted` — a text that takes a dot at its end to become a prefix

## Main Statements

* `Key.dotted_eq_dotted_iff` — which texts become the same prefix
* `Client.entry_prefixes` — the prefixes of entries in a run, and which entries share one

## Design Notes

A text and the same text with a dot at its end lead to two entries of a map, which have proxies of
their own but read the same properties.  These are the only ones: what stands in front of the text
is the same for all entries of a map and has no say in it.
-/

namespace ConfigBinding

namespace Key

/-- A text that takes a dot at its end to become a prefix: it is not empty and has none yet. -/
def Undotted (text : String) : Prop :=
  text ≠ "" ∧ text.toList.getLast? ≠ some '.'

instance (text : String) : Decidable (Undotted text) :=
  inferInstanceAs (Decidable (text ≠ "" ∧ text.toList.getLast? ≠ some '.'))

variable {text other : String}

theorem dotted_of_undotted (undotted : Undotted text) : dotted text = text ++ "." := by
  rw [Undotted, ne_eq, ne_eq, ← not_or] at undotted
  rw [dotted, if_neg]
  simpa only [Bool.or_eq_true, decide_eq_true_eq] using undotted

theorem dotted_of_not_undotted (ends : ¬ Undotted text) : dotted text = text := by
  rw [Undotted, not_and_or, not_not, not_not] at ends
  rw [dotted, if_pos]
  simpa only [Bool.or_eq_true, decide_eq_true_eq] using ends

/-- No text is the same with a dot at its end. -/
theorem ne_append_dot (text : String) : text ≠ text ++ "." := by
  intro same
  have longer := congrArg String.length same
  rw [String.length_append] at longer
  exact Nat.ne_of_lt (Nat.lt_add_of_pos_right Nat.zero_lt_one) longer

theorem not_undotted_append_dot (text : String) : ¬ Undotted (text ++ ".") := by
  rintro ⟨-, noDot⟩
  rw [String.toList_append, List.getLast?_append] at noDot
  exact noDot rfl

/-- What stands in front of a text, with a dot between, has no say in whether the text takes one. -/
theorem undotted_append_iff (front text : String) :
    Undotted (front ++ "." ++ text) ↔ Undotted text := by
  by_cases nothing : text = ""
  · subst nothing
    rw [String.append_empty]
    exact iff_of_false (not_undotted_append_dot front) fun undotted => undotted.1 rfl
  · obtain ⟨last, ends⟩ : ∃ last, text.toList.getLast? = some last :=
      Option.isSome_iff_exists.mp (by simpa [List.getLast?_isSome] using nothing)
    have longer : front ++ "." ++ text ≠ "" := by simp
    rw [Undotted, Undotted, String.toList_append, List.getLast?_append, ends, Option.some_or]
    simp only [longer, nothing, ne_eq, not_false_eq_true, true_and]

/-- **The prefix under a text in front** is the text in front, a dot and the prefix. -/
theorem dotted_append (front text : String) :
    dotted (front ++ "." ++ text) = front ++ "." ++ dotted text := by
  by_cases undotted : Undotted text
  · rw [dotted_of_undotted ((undotted_append_iff front text).mpr undotted),
      dotted_of_undotted undotted, String.append_assoc]
  · rw [dotted_of_not_undotted fun longer => undotted ((undotted_append_iff front text).mp longer),
      dotted_of_not_undotted undotted]

theorem dotted_eq_append_dot_iff : dotted text = text ++ "." ↔ Undotted text := by
  constructor
  · intro same
    by_contra ends
    rw [dotted_of_not_undotted ends] at same
    exact ne_append_dot text same
  · exact dotted_of_undotted

/-- **Which texts become the same prefix**: the same texts, and those of which one is the other with
the dot that it takes. -/
theorem dotted_eq_dotted_iff :
    dotted text = dotted other ↔
      text = other ∨ (Undotted text ∧ other = text ++ ".") ∨
        (Undotted other ∧ text = other ++ ".") := by
  constructor
  · intro same
    by_cases undotted : Undotted text
    · rw [dotted_of_undotted undotted] at same
      by_cases undottedOther : Undotted other
      · rw [dotted_of_undotted undottedOther] at same
        exact .inl ((String.append_left_inj ".").mp same)
      · rw [dotted_of_not_undotted undottedOther] at same
        exact .inr (.inl ⟨undotted, same.symm⟩)
    · rw [dotted_of_not_undotted undotted] at same
      by_cases undottedOther : Undotted other
      · rw [dotted_of_undotted undottedOther] at same
        exact .inr (.inr ⟨undottedOther, same⟩)
      · rw [dotted_of_not_undotted undottedOther] at same
        exact .inl same
  · rintro (rfl | ⟨undotted, rfl⟩ | ⟨undotted, rfl⟩)
    · rfl
    · rw [dotted_of_undotted undotted, dotted_of_not_undotted (not_undotted_append_dot text)]
    · rw [dotted_of_undotted undotted, dotted_of_not_undotted (not_undotted_append_dot other)]

end Key

variable {σ : Type} {app : Application σ}

namespace Application

/-- Proxies of one interface under one prefix read the same properties. -/
theorem Built.keys_eq {immutable : Bool} {p q : app.Bound} (built : app.Built immutable p)
    (built' : app.Built immutable q) (sameType : p.type = q.type)
    (samePrefix : p.keyPrefix = q.keyPrefix) :
    p.bindings.map (fun binding => (binding.method, binding.key)) =
      q.bindings.map fun binding => (binding.method, binding.key) := by
  have declared {p : app.Bound} (built : app.Built immutable p) :
      p.bindings.map (fun binding => (binding.method, binding.key)) =
        (app.schema.interface p.type).methods.map fun method =>
          (method.name, p.keyPrefix ++ method.ownName) :=
    map_eq_of_forall₂ built.follows.bindings fun _ _ boundBy => Prod.ext boundBy.name boundBy.key
  rw [declared built, declared built', sameType, samePrefix]

end Application

namespace Client

/-- What a request gives fits the entry of the map for its text. -/
theorem fits_of_obtains {store : Store} {loader : σ} {actions : List (Action app.schema.size σ)}
    {origin : Origin} {m : ProxyMap app.schema.size} {key : String} {p : app.Bound}
    (held : ⟨origin, .map m⟩ ∈ ((start app store loader).run actions).held)
    (obtains : (start app store loader).Obtains actions m key p) :
    app.Fits m.immutable (Application.entrySpot m key) (.interface p) := by
  have coherent := run_coherent app store loader actions
  have located := coherent.held _ held m.serial rfl
  exact coherent.entries origin m key p located (found_of_obtains obtains)

/-- **The prefixes of entries.**  What a request to a map gives in a run is bound under the key of
the map, a dot, the text of the request and one more dot, if and only if the text is not empty and
does not end in a dot; otherwise the last dot is left out.  Two requests to one map give proxies
under the same prefix if and only if their texts are the same, or one of them takes a dot at its end
and is the other one with it.  These read the same properties, method by method. -/
theorem entry_prefixes (app : Application σ) (store : Store) (loader : σ)
    (actions : List (Action app.schema.size σ)) {origin : Origin} {m : ProxyMap app.schema.size}
    (held : ⟨origin, .map m⟩ ∈ ((start app store loader).run actions).held) {key other : String}
    {p q : app.Bound} (obtains : (start app store loader).Obtains actions m key p)
    (obtains' : (start app store loader).Obtains actions m other q) :
    (p.keyPrefix = m.key ++ "." ++ key ++ "." ↔ Key.Undotted key) ∧
      (¬ Key.Undotted key → p.keyPrefix = m.key ++ "." ++ key) ∧
      (p.keyPrefix = q.keyPrefix ↔
        key = other ∨ (Key.Undotted key ∧ other = key ++ ".") ∨
          (Key.Undotted other ∧ key = other ++ ".")) ∧
      (p.keyPrefix = q.keyPrefix →
        p.bindings.map (fun binding => (binding.method, binding.key)) =
          q.bindings.map fun binding => (binding.method, binding.key)) := by
  obtain ⟨built, type, keyPrefix⟩ := fits_of_obtains held obtains
  obtain ⟨built', type', keyPrefix'⟩ := fits_of_obtains held obtains'
  refine ⟨?_, ?_, ?_, ?_⟩
  · rw [keyPrefix, Key.dotted_eq_append_dot_iff, Key.undotted_append_iff]
  · intro ends
    rw [keyPrefix, Key.dotted_append, Key.dotted_of_not_undotted ends]
  · rw [keyPrefix, keyPrefix', Key.dotted_append, Key.dotted_append, String.append_right_inj,
      Key.dotted_eq_dotted_iff]
  · exact built.keys_eq built' (type.trans type'.symm)

/-- Requests for documents of a folder. -/
def entryRequests (folder : Fin 3) (texts : List String) :
    List (Action Application.lateArchive.schema.size Bool) :=
  .bind folder none none :: .call 0 "getDocuments" [] :: texts.map (.entry 1)

/-- The report and the appendix are bound under prefixes of their own. -/
theorem report_apart_from_appendix :
    let begins := start Application.lateArchive .empty true
    let requests := entryRequests 0 ["report", "appendix"]
    ∃ p q, begins.Obtains requests Application.documents "report" p ∧
      begins.Obtains requests Application.documents "appendix" q ∧
      p.keyPrefix = "documents.report." ∧ q.keyPrefix = "documents.appendix." ∧
      p.keyPrefix ≠ q.keyPrefix := by
  intro begins requests
  have held : ⟨⟨0, [.method "getDocuments"]⟩, .map Application.documents⟩ ∈
      (begins.run requests).held := List.mem_of_getElem? (i := 1) rfl
  have report : begins.Obtains requests Application.documents "report" _ :=
    ⟨requests.take 2, 1, _, _, rfl, rfl, rfl⟩
  have appendix : begins.Obtains requests Application.documents "appendix" _ :=
    ⟨requests.take 3, 1, _, _, rfl, rfl, rfl⟩
  have reportFirst := entry_prefixes Application.lateArchive .empty true _ held report appendix
  have appendixFirst := entry_prefixes Application.lateArchive .empty true _ held appendix report
  refine ⟨_, _, report, appendix, ?_, ?_, ?_⟩
  · exact reportFirst.1.mpr (by decide)
  · exact appendixFirst.1.mpr (by decide)
  · rw [ne_eq, reportFirst.2.2.1]
    decide

/-- The report with a dot at its end is bound under the same prefix as the report. -/
theorem report_shares_prefix :
    let begins := start Application.lateArchive .empty true
    let requests := entryRequests 0 ["report", "report."]
    ∃ p q, begins.Obtains requests Application.documents "report" p ∧
      begins.Obtains requests Application.documents "report." q ∧
      p.serial ≠ q.serial ∧ p.keyPrefix = "documents.report." ∧
      q.keyPrefix = "documents.report." := by
  intro begins requests
  have report : begins.Obtains requests Application.documents "report" _ :=
    ⟨requests.take 2, 1, _, _, rfl, rfl, rfl⟩
  have dotted : begins.Obtains requests Application.documents "report." _ :=
    ⟨requests.take 3, 1, _, _, rfl, rfl, rfl⟩
  exact ⟨_, _, report, dotted, by decide, rfl, rfl⟩

end Client

end ConfigBinding
