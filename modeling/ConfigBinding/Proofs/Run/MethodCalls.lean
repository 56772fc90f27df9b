import ConfigBinding.Proofs.Run.Leaves

/-!
# Calls of methods in a run

A client calls methods itself, and showing a proxy as text calls all methods of the proxy and of the
proxies nested in it.  What these calls leave behind are the values that leaves keep.

## Main Definitions

* `MethodCall` — a call of a method, and the session in which it is made
* `MethodCall.SameMethod` — two calls are calls of one method of one proxy
* `MethodCall.Gets` — a call gets a value from a leaf of a number
* `Application.summaryCalls` — the calls that showing a proxy makes
* `MethodCall.KeepsInRow` — calls one after the other, and what is kept before and after them
* `Client.methodCalls`, `Client.methodCallsIn` — the calls that an action makes, and a run

## Main Statements

* `MethodCall.KeepsInRow.kept_iff` — what is kept after calls is what they have got
* `Application.Built.bindingText_eq` — a summary shows what its calls answer
* `Client.Coherent.methodCallsIn_inRow` — nothing but the calls of a run changes what is kept

## Design Notes

A call within a summary has the session that the summary has reached by then.  Which values are kept
is followed from call to call; the store, the loader and the entries of maps may change in between.
-/

namespace ConfigBinding

variable {σ : Type} {app : Application σ}

/-! ### Calls -/

/-- A call of a method: of a proxy, of which it is known where it comes from, and in a session. -/
structure MethodCall (app : Application σ) where
  origin : Origin
  proxy : app.Bound
  method : String
  arguments : List String
  session : app.State

namespace MethodCall

/-- What a call answers with. -/
def answer (call : MethodCall app) : Except AccessError (Resolved app.schema.size) :=
  (app.invoke call.proxy call.method call.arguments call.session).1

/-- The session that a call leaves. -/
def after (call : MethodCall app) : app.State :=
  (app.invoke call.proxy call.method call.arguments call.session).2

/-- A call is one of a method that the proxy has. -/
def Asks (call : MethodCall app) (resolver : Resolver app.schema.size app.Bound) : Prop :=
  ∃ binding, call.proxy.binding? call.method = some binding ∧ binding.resolver = resolver

/-- Two calls are calls of one method of one proxy, as the paths of the proxies tell. -/
def SameMethod (call other : MethodCall app) : Prop :=
  other.origin = call.origin ∧ other.method = call.method

/-- **A call gets a value from the leaf of a number.** -/
def Gets (call : MethodCall app) (serial : Nat) (value : Value) : Prop :=
  ∃ leaf, call.Asks (.leaf leaf) ∧ leaf.serial? = some serial ∧ call.answer = .ok (.value value)

variable {call : MethodCall app} {resolver : Resolver app.schema.size app.Bound} {leaf : Leaf}
variable {serial : Nat} {value : Value}

theorem Asks.invoke_eq (asks : call.Asks resolver) :
    app.invoke call.proxy call.method call.arguments call.session =
      app.answer call.arguments resolver call.session := by
  obtain ⟨binding, found, rfl⟩ := asks
  rw [Application.invoke, found]

theorem Asks.unique {other : Resolver app.schema.size app.Bound} (asks : call.Asks resolver)
    (asks' : call.Asks other) : resolver = other := by
  obtain ⟨binding, found, rfl⟩ := asks
  obtain ⟨binding', found', rfl⟩ := asks'
  rw [Option.some.inj (found.symm.trans found')]

/-- A call of a method with a leaf answers with what the leaf reads. -/
theorem Asks.answer_eq (asks : call.Asks (.leaf leaf)) :
    call.answer = (leaf.read app.decoder call.arguments call.session).1.map .value := by
  rw [answer, asks.invoke_eq, Application.answer]

theorem Asks.after_eq (asks : call.Asks (.leaf leaf)) :
    call.after = (leaf.read app.decoder call.arguments call.session).2 := by
  rw [after, asks.invoke_eq, Application.answer]

/-- A call of a method with a leaf answers with a value exactly if the leaf reads it. -/
theorem Asks.answer_eq_ok_iff (asks : call.Asks (.leaf leaf))
    {given : Resolved app.schema.size} :
    call.answer = .ok given ↔ ∃ value, given = .value value ∧
      (leaf.read app.decoder call.arguments call.session).1 = .ok value := by
  rw [asks.answer_eq]
  cases (leaf.read app.decoder call.arguments call.session).1 with
  | error e => simp [Except.map]
  | ok value => simp [Except.map, eq_comm]

/-- **What is kept after a call**: what was kept before, and what the call has got. -/
theorem Asks.kept_after_iff (asks : call.Asks resolver) :
    call.after.kept serial = some value ↔
      call.session.kept serial = some value ∨ call.Gets serial value := by
  cases resolver with
  | leaf leaf =>
    rw [asks.after_eq, Leaf.kept_read]
    apply or_congr_right
    constructor
    · rintro ⟨number, answer⟩
      exact ⟨leaf, asks, number, asks.answer_eq_ok_iff.mpr ⟨value, rfl, answer⟩⟩
    · rintro ⟨other, asks', number, answer⟩
      cases asks.unique asks'
      obtain ⟨_, ⟨⟩, read⟩ := asks.answer_eq_ok_iff.mp answer
      exact ⟨number, read⟩
  | nested _ | map _ =>
    have same : call.after = call.session := by
      rw [after, asks.invoke_eq, Application.answer]
    rw [same]
    constructor
    · exact .inl
    · rintro (before | ⟨leaf, asks', -⟩)
      · exact before
      · cases asks.unique asks'

/-! ### Calls in a row -/

/-- **Calls in a row**, as far as kept values tell: each call finds kept what the one before has
left.  The functions are what is kept before the first call and after the last. -/
inductive KeepsInRow : (Nat → Option Value) → List (MethodCall app) → (Nat → Option Value) → Prop
  | nil {kept : Nat → Option Value} : KeepsInRow kept [] kept
  | cons {call : MethodCall app} {resolver : Resolver app.schema.size app.Bound}
      {calls : List (MethodCall app)} {after : Nat → Option Value} (asks : call.Asks resolver)
      (rest : KeepsInRow call.after.kept calls after) :
      KeepsInRow call.session.kept (call :: calls) after

namespace KeepsInRow

variable {before between after : Nat → Option Value} {calls later : List (MethodCall app)}

theorem append (first : KeepsInRow before calls between)
    (further : KeepsInRow between later after) :
    KeepsInRow before (calls ++ later) after := by
  induction first with
  | nil => exact further
  | cons asks _ ih => exact .cons asks (ih further)

theorem of_append (inRow : KeepsInRow before (calls ++ later) after) :
    ∃ between, KeepsInRow before calls between ∧ KeepsInRow between later after := by
  induction calls generalizing before with
  | nil => exact ⟨before, .nil, inRow⟩
  | cons call rest ih =>
    cases inRow with
    | cons asks others =>
      obtain ⟨between, here, there⟩ := ih others
      exact ⟨between, .cons asks here, there⟩

/-- **What is kept after calls is what they have got**, beside what was kept before. -/
theorem kept_iff (inRow : KeepsInRow before calls after) :
    after serial = some value ↔
      before serial = some value ∨ ∃ call ∈ calls, call.Gets serial value := by
  induction inRow with
  | nil => simp
  | cons asks _ ih => rw [ih, asks.kept_after_iff, List.exists_mem_cons_iff, or_assoc]

end KeepsInRow

end MethodCall

/-! ### The calls of a summary -/

namespace Application

mutual

/-- **The calls that showing a proxy makes**: one for each of its methods, and after a method that
returns a proxy the calls that showing that one makes. -/
def summaryCalls (origin : Origin) : app.Bound → app.State → List (MethodCall app)
  | ⟨serial, type, name, keyPrefix, bindings⟩, w =>
    fieldCalls origin ⟨serial, type, name, keyPrefix, bindings⟩ bindings w

/-- The calls for several fields of a proxy, in order. -/
def fieldCalls (origin : Origin) (p : app.Bound) :
    List (Binding app.schema.size app.Bound) → app.State → List (MethodCall app)
  | [], _ => []
  | binding :: rest, w =>
    bindingCalls origin p binding w ++
      fieldCalls origin p rest (app.bindingText p.keyPrefix binding w).2

/-- The calls for one field of a proxy. -/
def bindingCalls (origin : Origin) (p : app.Bound) :
    Binding app.schema.size app.Bound → app.State → List (MethodCall app)
  | ⟨method, _, _, resolver⟩, w =>
    ⟨origin, p, method, [], w⟩ :: callsBehind (origin.step (.method method)) resolver w

/-- The calls for what a method has returned. -/
def callsBehind (origin : Origin) :
    Resolver app.schema.size app.Bound → app.State → List (MethodCall app)
  | .leaf _, _ => []
  | .nested child, w => summaryCalls origin child w
  | .map _, _ => []

end

/-- The text of an answer, or of the error in its place, and the session once it is shown. -/
def answeredText (answer : Except AccessError (Resolved app.schema.size)) (w : app.State) :
    String × app.State :=
  match answer with
  | .ok given => app.resolvedText given w
  | .error e => (e.message, w)

variable {immutable : Bool} {p : app.Bound} {binding : Binding app.schema.size app.Bound}

/-- What a summary shows of a method is what the method answers. -/
theorem resolverText_eq (resolver : Resolver app.schema.size app.Bound) (w : app.State) :
    app.resolverText resolver w =
      answeredText (app.answer [] resolver w).1 (app.answer [] resolver w).2 := by
  cases resolver with
  | leaf leaf =>
    rw [resolverText, Application.answer]
    cases leaf.read app.decoder [] w with
    | mk outcome after => cases outcome <;> rfl
  | nested child => rfl
  | map m => rfl

/-- **A summary shows what its calls answer.** -/
theorem Built.bindingText_eq (built : app.Built immutable p) (bound : binding ∈ p.bindings)
    (w : app.State) :
    app.bindingText p.keyPrefix binding w =
      let (answer, after) := app.invoke p binding.method [] w
      let (text, after) := answeredText answer after
      (fieldText p.keyPrefix binding.key text, after) := by
  rw [built.invoke_eq bound]
  obtain ⟨method, key, default?, resolver⟩ := binding
  rw [bindingText, resolverText_eq]

mutual

/-- **Showing a proxy makes its calls in a row.** -/
theorem summaryCalls_inRow (origin : Origin) : ∀ (p : app.Bound) (w : app.State),
    app.Built immutable p →
      MethodCall.KeepsInRow w.kept (summaryCalls origin p w) (app.summary p w).2.kept
  | ⟨serial, type, name, keyPrefix, bindings⟩, w, built => by
    rw [summaryCalls, summary]
    exact fieldCalls_inRow origin ⟨serial, type, name, keyPrefix, bindings⟩ built bindings w
      fun _ => id

theorem fieldCalls_inRow (origin : Origin) (p : app.Bound) (built : app.Built immutable p) :
    ∀ (bindings : List (Binding app.schema.size app.Bound)) (w : app.State),
      (∀ binding ∈ bindings, binding ∈ p.bindings) →
        MethodCall.KeepsInRow w.kept (fieldCalls origin p bindings w)
          (app.fieldTexts p.keyPrefix bindings w).2.kept
  | [], w, _ => .nil
  | binding :: rest, w, bound => by
    have here := bindingCalls_inRow origin p built binding w (bound binding List.mem_cons_self)
    have others := fieldCalls_inRow origin p built rest (app.bindingText p.keyPrefix binding w).2
      fun other listed => bound other (List.mem_cons_of_mem _ listed)
    rw [fieldCalls, fieldTexts]
    exact here.append others

theorem bindingCalls_inRow (origin : Origin) (p : app.Bound) (built : app.Built immutable p) :
    ∀ (binding : Binding app.schema.size app.Bound) (w : app.State), binding ∈ p.bindings →
      MethodCall.KeepsInRow w.kept (bindingCalls origin p binding w)
        (app.bindingText p.keyPrefix binding w).2.kept
  | ⟨method, key, default?, .leaf leaf⟩, w, bound => by
    have asks : (⟨origin, p, method, [], w⟩ : MethodCall app).Asks (.leaf leaf) :=
      ⟨_, built.binding?_eq bound, rfl⟩
    rw [bindingCalls, callsBehind, bindingText, resolverText]
    have single := MethodCall.KeepsInRow.cons asks .nil
    rw [asks.after_eq] at single
    exact single
  | ⟨method, key, default?, .nested child⟩, w, bound => by
    have asks : (⟨origin, p, method, [], w⟩ : MethodCall app).Asks (.nested child) :=
      ⟨_, built.binding?_eq bound, rfl⟩
    have inner := summaryCalls_inRow (origin.step (.method method)) child w
      (built.of_nested bound rfl)
    rw [bindingCalls, callsBehind, bindingText, resolverText]
    refine .cons asks ?_
    rw [MethodCall.after, asks.invoke_eq]
    exact inner
  | ⟨method, key, default?, .map m⟩, w, bound => by
    have asks : (⟨origin, p, method, [], w⟩ : MethodCall app).Asks (.map m) :=
      ⟨_, built.binding?_eq bound, rfl⟩
    rw [bindingCalls, callsBehind, bindingText, resolverText]
    have single := MethodCall.KeepsInRow.cons asks .nil
    rw [MethodCall.after, asks.invoke_eq] at single
    exact single

end

mutual

/-- The calls that showing a proxy makes are calls of the proxy and of what is within it. -/
theorem within_of_summaryCalls (origin : Origin) : ∀ (p : app.Bound) (w : app.State),
    ∀ call ∈ summaryCalls origin p w,
      ∃ path, call.origin = origin.follow path ∧ p.Within path (.interface call.proxy)
  | ⟨serial, type, name, keyPrefix, bindings⟩, w => by
    rw [summaryCalls]
    exact within_of_fieldCalls origin ⟨serial, type, name, keyPrefix, bindings⟩ bindings w
      fun _ => id

theorem within_of_fieldCalls (origin : Origin) (p : app.Bound) :
    ∀ (bindings : List (Binding app.schema.size app.Bound)) (w : app.State),
      (∀ binding ∈ bindings, binding ∈ p.bindings) → ∀ call ∈ fieldCalls origin p bindings w,
        ∃ path, call.origin = origin.follow path ∧ p.Within path (.interface call.proxy)
  | [], w, _ => by
    rw [fieldCalls]
    exact nofun
  | binding :: rest, w, bound => by
    rw [fieldCalls]
    intro call called
    rcases List.mem_append.mp called with here | later
    · exact within_of_bindingCalls origin p binding w (bound binding List.mem_cons_self) call here
    · exact within_of_fieldCalls origin p rest (app.bindingText p.keyPrefix binding w).2
        (fun other listed => bound other (List.mem_cons_of_mem _ listed)) call later

theorem within_of_bindingCalls (origin : Origin) (p : app.Bound) :
    ∀ (binding : Binding app.schema.size app.Bound) (w : app.State), binding ∈ p.bindings →
      ∀ call ∈ bindingCalls origin p binding w,
        ∃ path, call.origin = origin.follow path ∧ p.Within path (.interface call.proxy)
  | ⟨method, key, default?, .leaf leaf⟩, w, bound => by
    rw [bindingCalls, callsBehind, List.forall_mem_singleton]
    exact ⟨[], (Origin.follow_nil origin).symm, .self⟩
  | ⟨method, key, default?, .map m⟩, w, bound => by
    rw [bindingCalls, callsBehind, List.forall_mem_singleton]
    exact ⟨[], (Origin.follow_nil origin).symm, .self⟩
  | ⟨method, key, default?, .nested child⟩, w, bound => by
    rw [bindingCalls, callsBehind, List.forall_mem_cons]
    refine ⟨⟨[], (Origin.follow_nil origin).symm, .self⟩, fun call called => ?_⟩
    obtain ⟨path, comes, within⟩ :=
      within_of_summaryCalls (origin.step (.method method)) child w call called
    exact ⟨method :: path, comes.trans (Origin.follow_cons origin method path).symm,
      .nested bound rfl within⟩

end

end Application

/-! ### The calls of a run -/

namespace Client

/-- The calls of methods that an action makes. -/
def methodCalls (c : Client app) : Action app.schema.size σ → List (MethodCall app)
  | .call position method arguments =>
    match c.held[position]? with
    | some ⟨origin, .interface p⟩ =>
      match p.binding? method with
      | some _ => [⟨origin, p, method, arguments, c.session⟩]
      | none =>
        if method = Application.summaryMethod then Application.summaryCalls origin p c.session
        else []
    | _ => []
  | .summary position =>
    match c.held[position]? with
    | some ⟨origin, .interface p⟩ => Application.summaryCalls origin p c.session
    | _ => []
  | _ => []

/-- **The calls of methods in a run**, in order. -/
def methodCallsIn (c : Client app) : List (Action app.schema.size σ) → List (MethodCall app)
  | [] => []
  | action :: rest => c.methodCalls action ++ (c.act action).methodCallsIn rest

variable {c : Client app} {asked : List (Request app.schema.size)} {call : MethodCall app}

/-- A call is one of a proxy within reach. -/
theorem Coherent.located_of_methodCalls (coherent : c.Coherent asked)
    {action : Action app.schema.size σ} (called : call ∈ c.methodCalls action) :
    c.Located call.origin (.interface call.proxy) := by
  have ofSummary {position : Nat} {origin : Origin} {p : app.Bound}
      (holds : c.held[position]? = some ⟨origin, .interface p⟩)
      (called : call ∈ Application.summaryCalls origin p c.session) :
      c.Located call.origin (.interface call.proxy) := by
    have located := coherent.held _ (List.mem_of_getElem? holds) p.serial rfl
    obtain ⟨path, comes, within⟩ :=
      Application.within_of_summaryCalls origin p c.session call called
    rw [comes]
    exact located.within within
  unfold methodCalls at called
  split at called
  · next position method arguments =>
    split at called
    · next origin p holds =>
      split at called
      · obtain rfl := List.mem_singleton.mp called
        exact coherent.held _ (List.mem_of_getElem? holds) p.serial rfl
      · split at called
        · exact ofSummary holds called
        · cases called
    · cases called
  · next position =>
    split at called
    · next origin p holds => exact ofSummary holds called
    · cases called
  · cases called

/-- **All calls of a run are calls of proxies within reach.** -/
theorem Coherent.located_of_methodCallsIn (coherent : c.Coherent asked) (sound : c.Sound)
    {actions : List (Action app.schema.size σ)} (called : call ∈ c.methodCallsIn actions) :
    (c.run actions).Located call.origin (.interface call.proxy) := by
  induction actions generalizing c asked with
  | nil => cases called
  | cons action rest ih =>
    rw [methodCallsIn] at called
    rcases List.mem_append.mp called with here | later
    · have located := coherent.located_of_methodCalls here
      exact (located.act sound action).run (sound.act action) rest
    · exact ih (coherent.act action) (sound.act action) later

/-- **What an action changes about kept values, its calls change in a row.** -/
theorem Coherent.methodCalls_inRow (coherent : c.Coherent asked)
    (action : Action app.schema.size σ) :
    MethodCall.KeepsInRow c.session.kept (c.methodCalls action) (c.act action).session.kept := by
  have built {position : Nat} {origin : Origin} {p : app.Bound}
      (holds : c.held[position]? = some ⟨origin, .interface p⟩) :
      ∃ immutable, app.Built immutable p :=
    coherent.built_of_located (coherent.held _ (List.mem_of_getElem? holds) p.serial rfl)
  cases action with
  | bind i keyPrefix? immutable? =>
    have grows := Application.bind_grows i keyPrefix? immutable? c.session
    rw [Client.act, take_session, grows.kept]
    exact .nil
  | call position method arguments =>
    cases holds : c.held[position]? with
    | none =>
      simp only [Client.act, methodCalls, holds]
      exact .nil
    | some h =>
      obtain ⟨origin, given⟩ := h
      cases given with
      | interface p =>
        obtain ⟨immutable, built⟩ := built holds
        simp only [Client.act, methodCalls, holds, take_session]
        cases found : p.binding? method with
        | some binding =>
          have asks : (⟨origin, p, method, arguments, c.session⟩ : MethodCall app).Asks
              binding.resolver := ⟨binding, found, rfl⟩
          exact .cons asks .nil
        | none =>
          simp only [Application.invoke, found]
          by_cases shown : method = Application.summaryMethod
          · simp only [if_pos shown]
            exact Application.summaryCalls_inRow origin p c.session built
          · simp only [if_neg shown]
            exact .nil
      | _ =>
        simp only [Client.act, methodCalls, holds]
        exact .nil
  | entry position key =>
    simp only [Client.act]
    split
    · next origin m holds =>
      have located := coherent.held _ (List.mem_of_getElem? holds) m.serial rfl
      obtain ⟨_, _, _, _, fits⟩ := coherent.made located
      obtain ⟨sound, -, -⟩ := fits.of_map
      rw [take_session, Application.kept_of_entry sound]
      exact .nil
    · exact .nil
  | summary position =>
    cases holds : c.held[position]? with
    | none =>
      simp only [Client.act, methodCalls, holds]
      exact .nil
    | some h =>
      obtain ⟨origin, given⟩ := h
      cases given with
      | interface p =>
        obtain ⟨immutable, built⟩ := built holds
        simp only [Client.act, methodCalls, holds]
        exact Application.summaryCalls_inRow origin p c.session built
      | _ =>
        simp only [Client.act, methodCalls, holds]
        exact .nil
  | outside change => exact .nil

/-- **Nothing but the calls of a run changes what is kept**, by induction on the actions. -/
theorem Coherent.methodCallsIn_inRow (coherent : c.Coherent asked)
    (actions : List (Action app.schema.size σ)) :
    MethodCall.KeepsInRow c.session.kept (c.methodCallsIn actions)
      (c.run actions).session.kept := by
  induction actions generalizing c asked with
  | nil => exact .nil
  | cons action rest ih =>
    rw [methodCallsIn]
    exact (coherent.methodCalls_inRow action).append (ih (coherent.act action))

end Client

end ConfigBinding
