import ConfigBinding.Proofs.Analysis.Check

/-!
# What a refusal reports

An error of the analysis names methods in a row.  Each of them returns the interface of the next,
and the last one has the fault that is named.  For a circle the names that are given are those of
nested interfaces which do form one, and it is the end of the row that forms it.

## Main Definitions

* `Schema.Site` — a method of an interface, by its place among the methods
* `Schema.Leads` — methods in a row, each of which returns the interface of the next
* `Schema.Closes` — the last of them closes a circle of nested interfaces
* `Schema.Holds` — the last of them has a fault
* `Schema.Report` — a row with a fault that holds, and the error that tells of it

## Main Statements

* `Schema.Blames.exists_row` — an error that holds of an interface is a row with a fault that holds
* `Schema.refusals_are_true` — every error of a check is a report

## Design Notes

The layers of an error come from both sorts of references, and the names of a circle from the path
of the walk, which begins afresh at a map.  The path is the end of the row: the methods since the
last one that returns a map.  So the circle lies wholly in the row, and can be followed there.

The same interface may be met twice on a row, behind a map, but not twice since the last map.
-/

namespace ConfigBinding

/-- The flag has no say in whether a method is refused, and for what. -/
theorem Method.classify_eq_error_iff {n : Nat} {method : Method n} {fault : BindFault}
    (immutable other : Bool) :
    method.classify immutable = .error fault ↔ method.classify other = .error fault := by
  unfold classify
  cases method.returns with
  | value kind =>
    by_cases plain : method.params = 0
    · simp only [if_pos plain, classifyPlain, Placeholder.map_eq_error_iff]
    · simp only [if_neg plain]
  | interface child => rfl
  | map child => rfl

namespace Schema

variable (s : Schema)

/-- A method of an interface, by its place among the methods. -/
structure Site where
  owner : Fin s.size
  index : Fin (s.interface owner).methods.length

namespace Site

variable {s}

/-- The declaration of the method. -/
def method (site : s.Site) : Method s.size :=
  (s.interface site.owner).methods[site.index]

/-- The methods that are declared before it. -/
def earlier (site : s.Site) : List (Method s.size) :=
  (s.interface site.owner).methods.take site.index

/-- The method returns the interface of another, which nests in its own. -/
def NestsInto (site next : s.Site) : Prop :=
  site.method.returns = .interface next.owner

end Site

/-- Methods in a row lead from an interface to a method.  Each of them returns the interface of the
next, as one that nests in its own or as the value of a map. -/
inductive Leads : Fin s.size → List s.Site → s.Site → Prop
  | here (last : s.Site) : Leads last.owner [] last
  | step {site : s.Site} {child : Fin s.size} {way : List s.Site} {last : s.Site}
      (returns : site.method.returns = .interface child ∨ site.method.returns = .map child)
      (further : Leads child way last) : Leads site.owner (site :: way) last

/-- **The last method of a row closes a circle**: it returns an interface that nests around its own
since some place of the row, and from there the walk goes along the row and back. -/
structure Closes (way : List s.Site) (last : s.Site) (child : Fin s.size)
    (walk : List (Fin s.size)) : Prop where
  returns : last.method.returns = .interface child
  along : ∃ front first rest, way ++ [last] = front ++ first :: rest ∧ first.owner = child ∧
    List.IsChain Site.NestsInto (first :: rest) ∧
    walk = (first :: rest).map (·.owner) ++ [child]
  nests : List.IsChain s.Nests walk

/-- **The last method of a row has a fault.** -/
def Holds (way : List s.Site) (last : s.Site) : BindFault → Prop
  | .duplicateMethod => ∃ other ∈ last.earlier, other.name = last.method.name
  | .cyclicInterface names => ∃ child walk, s.Closes way last child walk ∧ names = walk.map s.name
  | .nested _ => False
  | fault => ∀ immutable, last.method.classify immutable = .error fault

/-- The error about the last method of a row, with a layer for each method before. -/
def errorAt (fault : BindFault) : List s.Site → s.Site → BindError
  | [], last => .method (s.name last.owner) last.method.name fault
  | site :: way, last =>
    .method (s.name site.owner) site.method.name (.nested (errorAt fault way last))

/-- A row of methods from an interface to one at fault. -/
structure Report (root : Fin s.size) where
  way : List s.Site
  last : s.Site
  fault : BindFault
  leads : s.Leads root way last
  holds : s.Holds way last fault

/-- A report as an error. -/
def Report.error {s : Schema} {root : Fin s.size} (report : s.Report root) : BindError :=
  s.errorAt report.fault report.way report.last

variable {s}

/-! ### Places of methods -/

theorem Site.exists_of_append {i : Fin s.size} {before rest : List (Method s.size)}
    {method : Method s.size} (declared : (s.interface i).methods = before ++ method :: rest) :
    ∃ site : s.Site, site.owner = i ∧ site.method = method ∧ site.earlier = before := by
  have inside : before.length < (s.interface i).methods.length := by
    simp [declared]
  refine ⟨⟨i, ⟨before.length, inside⟩⟩, rfl, ?_, ?_⟩
  · simp [Site.method, declared]
  · simp [Site.earlier, declared]

theorem Site.exists_of_mem {i : Fin s.size} {method : Method s.size}
    (declared : method ∈ (s.interface i).methods) :
    ∃ site : s.Site, site.owner = i ∧ site.method = method := by
  obtain ⟨before, rest, split⟩ := List.append_of_mem declared
  obtain ⟨site, owner, same, -⟩ := Site.exists_of_append split
  exact ⟨site, owner, same⟩

theorem Site.method_mem (site : s.Site) : site.method ∈ (s.interface site.owner).methods :=
  List.getElem_mem _

theorem Site.NestsInto.nests {site next : s.Site} (nests : site.NestsInto next) :
    s.Nests site.owner next.owner :=
  ⟨site.method, site.method_mem, nests⟩

/-! ### Circles -/

/-- A row that comes by an interface can be cut where it does so for the last time.  The interfaces
after the cut are those of the row, from its end up to the first one that is the interface. -/
theorem exists_cut {sites : List s.Site} {child : Fin s.size}
    (around : child ∈ (sites.map (·.owner)).reverse) :
    ∃ front first rest, sites = front ++ first :: rest ∧ first.owner = child ∧
      ((sites.map (·.owner)).reverse.takeWhile (· ≠ child)).reverse = rest.map (·.owner) := by
  induction sites using List.reverseRecOn with
  | nil => cases around
  | append_singleton sites last ih =>
    have backwards : ((sites ++ [last]).map (·.owner)).reverse =
        last.owner :: (sites.map (·.owner)).reverse := by
      simp
    rw [backwards] at around ⊢
    by_cases here : last.owner = child
    · exact ⟨sites, last, [], rfl, here, by simp [here]⟩
    · have before := (List.mem_cons.mp around).resolve_left (Ne.symm here)
      obtain ⟨front, first, rest, rfl, owner, after⟩ := ih before
      refine ⟨front, first, rest ++ [last], by simp, owner, ?_⟩
      rw [List.takeWhile_cons_of_pos (by simpa using here), List.reverse_cons, after,
        List.map_append]
      rfl

/-- A method that returns an interface of the path closes a circle, if the path consists of the
interfaces of nested methods in a row up to that one. -/
theorem exists_closes {around : List s.Site} {last : s.Site} {child : Fin s.size}
    {w : Walk s.size} (nested : List.IsChain Site.NestsInto (around ++ [last]))
    (path : w.path = ((around ++ [last]).map (·.owner)).reverse)
    (returns : last.method.returns = .interface child) (onPath : child ∈ w.path) :
    s.Closes around last child (w.cycle child) := by
  rw [path] at onPath
  obtain ⟨front, first, rest, split, rfl, after⟩ := exists_cut onPath
  have nestedRest : List.IsChain Site.NestsInto (first :: rest) := by
    rw [split] at nested
    exact nested.right_of_append
  have walk : w.cycle first.owner = (first :: rest).map (·.owner) ++ [first.owner] := by
    rw [Walk.cycle, path, after]
    rfl
  have ends : (first :: rest).getLast? = some last := by
    have same := congrArg List.getLast? split
    rw [List.getLast?_append_of_ne_nil _ (List.cons_ne_nil first rest)] at same
    exact same.symm.trans List.getLast?_concat
  refine ⟨returns, ⟨front, first, rest, split, rfl, nestedRest, walk⟩, ?_⟩
  -- the walk goes along the nested methods, and by the last one back to the first interface
  rw [walk]
  refine List.isChain_append.mpr ⟨?_, List.isChain_singleton _, ?_⟩
  · exact (List.isChain_map _).mpr (nestedRest.imp fun _ _ nests => nests.nests)
  · rw [List.getLast?_map, ends]
    rintro _ ⟨⟩ _ ⟨⟩
    exact ⟨last.method, last.method_mem, returns⟩

/-! ### Rows -/

/-- What classification finds holds, whichever values are kept. -/
theorem holds_of_classify {site : s.Site} {fault : BindFault}
    (refused : site.method.classify false = .error fault) (way : List s.Site) :
    s.Holds way site fault := by
  have always : ∀ immutable, site.method.classify immutable = .error fault :=
    fun immutable => (Method.classify_eq_error_iff immutable false).mpr refused
  have local_ := Method.classify_ofDeclaration refused
  cases fault with
  | duplicateMethod => cases local_
  | cyclicInterface names => cases local_
  | nested e => cases local_
  | _ => exact always

/-- A longer row makes no difference to a fault that holds. -/
theorem Holds.longer {way : List s.Site} {last : s.Site} {fault : BindFault}
    (holds : s.Holds way last fault) (before : List s.Site) :
    s.Holds (before ++ way) last fault := by
  cases fault with
  | cyclicInterface names =>
    obtain ⟨child, walk, closes, named⟩ := holds
    obtain ⟨front, first, rest, split, along⟩ := closes.along
    refine ⟨child, walk, ⟨closes.returns, ⟨before ++ front, first, rest, ?_, along⟩, closes.nests⟩,
      named⟩
    rw [List.append_assoc, split, List.append_assoc]
  | _ => exact holds

/-- **An error that holds of an interface is a row with a fault that holds.**  The interfaces around
the first one are those of a row of nested methods, which is where a circle may begin. -/
theorem Blames.exists_row {outer : List (Fin s.size)} {i : Fin s.size} {e : BindError}
    (blamed : s.Blames outer i e) {around : List s.Site}
    (owners : outer = (around.map (·.owner)).reverse)
    (nested : ∀ site : s.Site, site.owner = i → List.IsChain Site.NestsInto (around ++ [site])) :
    ∃ way last fault, s.errorAt fault way last = e ∧ s.Leads i way last ∧
      s.Holds (around ++ way) last fault := by
  induction blamed generalizing around with
  | @duplicate outer i method before rest declared known =>
    obtain ⟨site, rfl, rfl, rfl⟩ := Site.exists_of_append declared
    exact ⟨[], site, .duplicateMethod, rfl, .here site, List.mem_map.mp known⟩
  | @malformed outer i method fault declared refused =>
    obtain ⟨site, rfl, rfl⟩ := Site.exists_of_mem declared
    exact ⟨[], site, fault, rfl, .here site, holds_of_classify refused _⟩
  | @cyclic outer i method child w declared returns path onPath =>
    obtain ⟨site, rfl, rfl⟩ := Site.exists_of_mem declared
    have owners' : w.path = ((around ++ [site]).map (·.owner)).reverse := by
      simp [path, owners]
    have closes := exists_closes (nested site rfl) owners' returns onPath
    refine ⟨[], site, _, rfl, .here site, child, w.cycle child, ?_, rfl⟩
    rw [List.append_nil]
    exact closes
  | @nested outer i method child e declared returns inner ih =>
    obtain ⟨site, rfl, rfl⟩ := Site.exists_of_mem declared
    have further : ∀ next : s.Site, next.owner = child →
        List.IsChain Site.NestsInto ((around ++ [site]) ++ [next]) := by
      rintro next rfl
      rw [List.append_assoc]
      exact List.isChain_append_cons_cons.mpr
        ⟨nested site rfl, returns, List.isChain_singleton next⟩
    obtain ⟨way, last, fault, rfl, leads, holds⟩ := ih (by simp [owners]) further
    refine ⟨site :: way, last, fault, rfl, .step (.inl returns) leads, ?_⟩
    simpa using holds
  | @mapped outer i method child e declared returns inner ih =>
    obtain ⟨site, rfl, rfl⟩ := Site.exists_of_mem declared
    -- the value interface of a map is the first of its own row
    have alone : ∀ next : s.Site, next.owner = child →
        List.IsChain Site.NestsInto ([] ++ [next]) := fun next _ => List.isChain_singleton next
    obtain ⟨way, last, fault, rfl, leads, holds⟩ := ih rfl alone
    refine ⟨site :: way, last, fault, rfl, .step (.inr returns) leads, ?_⟩
    simpa using holds.longer (around ++ [site])

/-- Below the layers of a row there is the error about its last method. -/
theorem innermost_errorAt {fault : BindFault} (notNested : ∀ e, fault ≠ .nested e)
    (way : List s.Site) (last : s.Site) :
    (s.errorAt fault way last).innermost = .method (s.name last.owner) last.method.name fault := by
  induction way with
  | nil =>
    cases fault with
    | nested e => exact absurd rfl (notNested e)
    | _ => rfl
  | cons site way ih => exact ih

/-- The innermost error of a report is the one about the method at fault. -/
theorem Report.innermost_error {root : Fin s.size} (report : s.Report root) :
    report.error.innermost =
      .method (s.name report.last.owner) report.last.method.name report.fault := by
  refine innermost_errorAt (fun e nested => ?_) report.way report.last
  have holds := report.holds
  rw [nested] at holds
  exact holds

/-- **Every error of a check is true.**  It is the error of a report: from the interface that was
checked on, each method that is named returns the interface of the next, and the last one has the
fault that is named.  If that is a circle, its text gives the names of nested interfaces which form
a closed walk along the end of the row. -/
theorem refusals_are_true {root : Fin s.size} {e : BindError} (refused : s.check root = .error e) :
    ∃ report : s.Report root, report.error = e ∧
      ∀ names, report.fault = .cyclicInterface names →
        (∃ child walk, s.Closes report.way report.last child walk ∧ names = walk.map s.name) ∧
        report.fault.message = "cyclic interface reference: " ++ " -> ".intercalate names := by
  have blamed := blames_of_check refused
  have alone : ∀ site : s.Site, site.owner = root → List.IsChain Site.NestsInto ([] ++ [site]) :=
    fun site _ => List.isChain_singleton site
  obtain ⟨way, last, fault, told, leads, holds⟩ := blamed.exists_row rfl alone
  refine ⟨⟨way, last, fault, leads, holds⟩, told, ?_⟩
  rintro names rfl
  exact ⟨holds, rfl⟩

/-- The circle behind a map is reported as that of a branch, which it is. -/
theorem circleBehindMap_reported :
    rootAndBranch.check (0 : Fin 2) = .error circleBehindMap ∧
      ∃ report : rootAndBranch.Report (0 : Fin 2), report.error = circleBehindMap ∧
        ∃ child walk, rootAndBranch.Closes report.way report.last child walk ∧
          walk.map rootAndBranch.name = ["Branch", "Root", "Branch"] := by
  have refused : rootAndBranch.check (0 : Fin 2) = .error circleBehindMap := rfl
  obtain ⟨report, told, circle⟩ := refusals_are_true refused
  have innermost := report.innermost_error
  rw [told] at innermost
  have fault : report.fault = .cyclicInterface ["Branch", "Root", "Branch"] := by
    injection innermost with _ _ same
    exact same.symm
  obtain ⟨child, walk, closes, named⟩ := (circle _ fault).1
  exact ⟨refused, report, told, child, walk, closes, named.symm⟩

end Schema

end ConfigBinding
