import TypedClient.Emit.Client
import TypedClient.Proofs.Chains

/-!
# Runs are straight lines

A run asks for the types of schemas and for their names in comments, and may
fail at every question. What it asks, and in which order, never depends on an
answer: it is a list of actions that can be read off the document, and the run
performs them one after the other until one fails. `clientActions` is that list.

Two runs over one document that differ in nothing but their strictness have one
list, and everything that this development says of such runs is a relation
between them that follows the list. `Compatible` collects what a relation has to
respect, one condition for each thing that the generator is made of, and
`Compatible.client` is the walk through the generator, made here once for all
relations. The first of them is `Follows`: a run ends as the actions do.
-/

namespace TypedClient

/-! ## Actions -/

/-- One of the things that a run does one after the other. -/
inductive Action where
  /-- To go on only if this is a result. -/
  | check (result : Except Failure Unit)
  /-- To empty the registry. -/
  | reset
  /-- To ask for the type of a schema. -/
  | type (mode : ResolutionMode) (site : SchemaSite)
  /-- To ask for its name in comments. -/
  | name (site : SchemaSite)

namespace Action

/-- The check of a result, and the actions that the result calls for. -/
def after {α : Type} (result : Except Failure α) (next : α → List Action) : List Action :=
  .check (result.map fun _ => ()) :: match result with
    | .ok a => next a
    | .error _ => []

/-- To ask for the type of a schema and then for its name. -/
def both (mode : ResolutionMode) (site : SchemaSite) : List Action :=
  [.type mode site, .name site]

end Action

namespace Generation

open TypedClient.Action

/-- To perform one action. -/
def act (g : Generation) : Action → Run Unit
  | .check result => Run.ofResult result
  | .reset => modify Registry.reset
  | .type mode site => do
    let _ ← g.typeOf mode site
    return ()
  | .name site => do
    let _ ← g.docTypeOf site
    return ()

/-- To perform actions in order. -/
def perform (g : Generation) (actions : List Action) : Run Unit := actions.forM g.act

/-- The view of a parameter with its type and its name filled in. -/
def parameterWith (g : Generation) (p : Parameter) (type docType : String) : ParameterView where
  type := type
  docType := docType
  name := p.name
  key := Naming.propertyKey p.name
  binding := p.binding
  location := p.location
  required := p.required
  description := g.format.comment p.description

/-- What the question for a type comes to, by what `resolve` says. -/
def settle (r : Registry) :
    Except Failure Resolution → Except Failure String × Registry
  | .ok resolution => (.ok resolution.text, resolution.registry)
  | .error e => (.error e, r)

theorem typeOf_run (g : Generation) (mode : ResolutionMode) (site : SchemaSite) (r : Registry) :
    (g.typeOf mode site).run.run r = settle r (resolve g.store g.config mode r site) := by
  have hcall := Run.run_ofResult_bind (resolve g.store g.config mode r site)
    (fun resolution => do
      set resolution.registry
      return resolution.text) r
  refine Eq.trans hcall ?_
  cases resolve g.store g.config mode r site <;> rfl

/-- The actions for an operation. Its descriptor mentions no types, so they may be left open. -/
def operationActions (g : Generation) (op : Operation) : List Action :=
  op.parameters.flatMap (fun p => both .default p.schema)
    ++ op.response.toList.flatMap (both .default)
    ++ after (Failure.ofFault (g.format.objectLiteral
      (g.descriptorEntries op (op.parameters.map fun p => g.parameterWith p "" ""))))
      fun _ => []

/-- The actions for a property. -/
def propertyActions (g : Generation) (entry : Scalar × Value) : List Action :=
  let raw := match entry.2 with
    | .mapping id => g.store.get id "description"
    | _ => .null
  after (Failure.ofFault (g.format.description g.store raw)) fun _ =>
    both .typesModule (.value entry.2)

/-- The actions for a definition. -/
def definitionActions (g : Generation) (entry : Scalar × Value) : List Action :=
  match entry.2 with
  | .mapping id =>
    after (Failure.ofFault (g.format.description g.store (g.store.get id "description"))) fun _ =>
      match g.store.get id "properties" with
      | .mapping properties =>
        after (Failure.ofFault (g.requiredNames id)) fun _ =>
          (g.store.entries properties).flatMap g.propertyActions
      | _ => both .typesModule (.value entry.2)
  | schema => both .typesModule (.value schema)

/-- The actions for the module of all types. -/
def typesActions (g : Generation) (document : Value) : List Action :=
  after (Failure.ofFault (definitions g.store document)) fun entries =>
    entries.flatMap g.definitionActions

/-- The check that a document lists paths. -/
def pathsListed (g : Generation) (document : Value) : Except Failure Unit :=
  match Failure.ofFault (g.store.member document "paths") with
  | .ok (.mapping _) => .ok ()
  | .ok _ => .error pathsMissing
  | .error e => .error e

/-- The actions of a run. -/
def clientActions (g : Generation) (document : Value) : List Action :=
  after (g.pathsListed document) fun _ =>
    .reset :: after (Failure.ofFault (g.specModule document)) fun _ =>
      after (Operation.build g.store document) fun operations =>
        (Operation.groups operations).flatMap (fun m => m.2.flatMap g.operationActions)
          ++ g.typesActions document

/-- A generation with another value for the option to be strict. -/
def withStrict (g : Generation) (strict : Value) : Generation :=
  { g with options := { g.options with strict } }

/-! ## Relations along a run -/

/-- A relation between runs and the actions that they perform, which the generator
respects. The first run is made with another value for strictness. -/
structure Compatible (g : Generation) (strict : Value)
    (R : {α : Type} → Run α → Run α → List Action → Prop) : Prop where
  ends : ∀ {α : Type} (a : α), R (pure a) (pure a) []
  chains : ∀ {α β : Type} {x y : Run α} {f h : α → Run β} {first rest : List Action},
    R x y first → (∀ r a m, y.Yields r a m → R (f a) (h a) rest) →
    R (x >>= f) (y >>= h) (first ++ rest)
  looks : R get get []
  resets : R (modify Registry.reset) (modify Registry.reset) [.reset]
  faults : ∀ {α : Type} (x : Except Fault α),
    R (Run.ofFault x) (Run.ofFault x) [.check ((Failure.ofFault x).map fun _ => ())]
  misses : ∀ {α : Type}, R (α := α) (throw pathsMissing) (throw pathsMissing)
    [.check (.error pathsMissing)]
  builds : ∀ document, R (Run.ofResult (Operation.build g.store document))
    (Run.ofResult (Operation.build g.store document))
    [.check ((Operation.build g.store document).map fun _ => ())]
  types : ∀ mode site, R ((g.withStrict strict).typeOf mode site) (g.typeOf mode site)
    [.type mode site]
  names : ∀ site, R ((g.withStrict strict).docTypeOf site) (g.docTypeOf site) [.name site]

/-- The descriptor of an operation mentions nothing of its parameters that is asked for. -/
theorem descriptorEntries_views {g : Generation} {op : Operation} {views : List ParameterView}
    {r m : Registry} (h : (op.parameters.mapM g.parameterView).Yields r views m) :
    g.descriptorEntries op views =
      g.descriptorEntries op (op.parameters.map fun p => g.parameterWith p "" "") := by
  obtain ⟨pairs, hpairs, hin, rfl⟩ := Run.yields_mapM.1 h
  have hsame : ∀ pair ∈ pairs,
      pair.2.descriptor = (g.parameterWith pair.1 "" "").descriptor := by
    intro pair hpair
    obtain ⟨_, _, hview⟩ := hpairs.step_of_mem hpair
    simp only [parameterView, Run.yields_bind, Run.yields_pure] at hview
    obtain ⟨type, _, _, docType, _, _, hview, _⟩ := hview
    rw [← hview]
    rfl
  have hdescriptors : (pairs.map (·.2)).map ParameterView.descriptor =
      (op.parameters.map fun p => g.parameterWith p "" "").map ParameterView.descriptor := by
    rw [hin, List.map_map, List.map_map, List.map_map]
    exact List.map_congr_left hsame
  rw [descriptorEntries, descriptorEntries, hdescriptors]

namespace Compatible

variable {g : Generation} {strict : Value}
  {R : {α : Type} → Run α → Run α → List Action → Prop} {α β : Type}

open Run

theorem mapM (hR : Compatible g strict R) {f h : α → Run β} {actions : α → List Action}
    (hstep : ∀ a, R (f a) (h a) (actions a)) (as : List α) :
    R (as.mapM f) (as.mapM h) (as.flatMap actions) := by
  induction as with
  | nil => exact hR.ends []
  | cons a as ih =>
      rw [List.mapM_cons, List.mapM_cons, List.flatMap_cons]
      have hrest : ∀ b, R (as.mapM f >>= fun bs => pure (b :: bs))
          (as.mapM h >>= fun bs => pure (b :: bs)) (as.flatMap actions ++ []) :=
        fun b => hR.chains ih fun _ bs _ _ => hR.ends (b :: bs)
      simp only [List.append_nil] at hrest
      exact hR.chains (hstep a) fun _ b _ _ => hrest b

/-- A run that fails at a result or else goes on with it. -/
theorem checked (hR : Compatible g strict R) {x : Except Failure α} {f h : α → Run β}
    {next : α → List Action}
    (hx : R (ofResult x) (ofResult x) [.check (x.map fun _ => ())])
    (hnext : ∀ a, x = .ok a → R (f a) (h a) (next a)) :
    R (ofResult x >>= f) (ofResult x >>= h) (after x next) := by
  cases x with
  | error e => exact hR.chains hx fun _ _ _ hyields => by cases (yields_ofResult.1 hyields).1
  | ok a =>
      refine hR.chains hx fun _ b _ hyields => ?_
      cases (yields_ofResult.1 hyields).1
      exact hnext a rfl

theorem faulty (hR : Compatible g strict R) {x : Except Fault α} {f h : α → Run β}
    {next : α → List Action} (hnext : ∀ a, x = .ok a → R (f a) (h a) (next a)) :
    R (ofFault x >>= f) (ofFault x >>= h) (after (Failure.ofFault x) next) :=
  hR.checked (hR.faults x) fun a ha => hnext a (ofFault_eq_ok.1 ha)

/-- Both questions about a schema, and what is made of the answers. -/
theorem both (hR : Compatible g strict R) (mode : ResolutionMode) (site : SchemaSite)
    (f : String → String → α) :
    R (do
        let type ← (g.withStrict strict).typeOf mode site
        let docType ← (g.withStrict strict).docTypeOf site
        return f type docType)
      (do
        let type ← g.typeOf mode site
        let docType ← g.docTypeOf site
        return f type docType)
      (Action.both mode site) :=
  hR.chains (hR.types mode site) fun _ _ _ _ => hR.chains (hR.names site) fun _ _ _ _ => hR.ends _

/-! The walk through the generator: one lemma for each of its functions. -/

theorem parameterView (hR : Compatible g strict R) (p : Parameter) :
    R ((g.withStrict strict).parameterView p) (g.parameterView p)
      (Action.both .default p.schema) :=
  hR.both .default p.schema (g.parameterWith p)

theorem returnTypes (hR : Compatible g strict R) (response : Option SchemaSite) :
    R ((g.withStrict strict).returnTypes response) (g.returnTypes response)
      (response.toList.flatMap (Action.both .default)) := by
  cases response with
  | none => exact hR.ends _
  | some site => exact hR.both .default site Prod.mk

theorem operationView (hR : Compatible g strict R) (op : Operation) :
    R ((g.withStrict strict).operationView op) (g.operationView op) (g.operationActions op) := by
  rw [operationActions, List.append_assoc]
  refine hR.chains (hR.mapM hR.parameterView op.parameters) fun r views m hviews => ?_
  refine hR.chains (hR.returnTypes op.response) fun _ types _ _ => ?_
  -- The actions were listed with no types in the descriptor; the run has them filled in.
  rw [← descriptorEntries_views hviews]
  exact hR.faulty fun _ _ => hR.ends _

theorem operationsModule (hR : Compatible g strict R) (group : String)
    (operations : List Operation) :
    R ((g.withStrict strict).operationsModule group operations)
      (g.operationsModule group operations) (operations.flatMap g.operationActions) := by
  rw [← List.append_nil (operations.flatMap _)]
  exact hR.chains (hR.mapM hR.operationView operations) fun _ _ _ _ => hR.ends _

theorem operationFiles (hR : Compatible g strict R) (groups : List (String × List Operation)) :
    R ((g.withStrict strict).operationFiles groups) (g.operationFiles groups)
      (groups.flatMap fun m => m.2.flatMap g.operationActions) := by
  refine hR.mapM (fun m => ?_) groups
  rw [← List.append_nil (m.2.flatMap _)]
  exact hR.chains (hR.operationsModule m.1 m.2) fun _ _ _ _ => hR.ends _

theorem propertyView (hR : Compatible g strict R) (required : List Scalar)
    (entry : Scalar × Value) :
    R ((g.withStrict strict).propertyView required entry) (g.propertyView required entry)
      (g.propertyActions entry) :=
  hR.faulty fun _ _ => hR.both .typesModule (.value entry.2) _

theorem aliasView (hR : Compatible g strict R) (schema : Value) :
    R ((g.withStrict strict).aliasView schema) (g.aliasView schema)
      (Action.both .typesModule (.value schema)) :=
  hR.both .typesModule (.value schema) DefinitionBody.alias

theorem definitionView (hR : Compatible g strict R) (entry : Scalar × Value) :
    R ((g.withStrict strict).definitionView entry) (g.definitionView entry)
      (g.definitionActions entry) := by
  obtain ⟨key, schema⟩ := entry
  have halias : ∀ f : DefinitionBody → DefinitionView,
      R (do return f (← (g.withStrict strict).aliasView schema))
        (do return f (← g.aliasView schema)) (Action.both .typesModule (.value schema)) := by
    intro f
    rw [← List.append_nil (Action.both _ _)]
    exact hR.chains (hR.aliasView schema) fun _ _ _ _ => hR.ends _
  cases schema with
  | scalar s | sequence id | typed kind id => exact halias _
  | mapping id =>
      refine hR.faulty fun description _ => ?_
      have hstore : (g.withStrict strict).store = g.store := rfl
      rw [hstore]
      cases g.store.get id "properties" with
      | scalar s | sequence items | typed kind items => exact halias _
      | mapping properties =>
          refine hR.faulty fun required _ => ?_
          rw [← List.append_nil (List.flatMap _ _)]
          exact hR.chains (hR.mapM (hR.propertyView required) _) fun _ _ _ _ => hR.ends _

theorem typesModule (hR : Compatible g strict R) (document : Value) :
    R ((g.withStrict strict).typesModule document) (g.typesModule document)
      (g.typesActions document) := by
  refine hR.faulty fun entries _ => ?_
  rw [← List.append_nil (entries.flatMap _)]
  exact hR.chains (hR.mapM hR.definitionView entries) fun _ _ _ _ => hR.ends _

theorem sharedFiles (hR : Compatible g strict R) :
    R (g.withStrict strict).sharedFiles g.sharedFiles [] := by
  have htyped : (g.withStrict strict).isTyped = g.isTyped := rfl
  rw [Generation.sharedFiles, Generation.sharedFiles, htyped]
  split
  · exact hR.ends []
  · exact hR.chains hR.looks fun _ _ _ _ => hR.ends _

/-- What respects the parts of the generator holds of the whole. -/
theorem client (hR : Compatible g strict R) (document : Value) :
    R ((g.withStrict strict).client document) (g.client document) (g.clientActions document) := by
  have hstore : (g.withStrict strict).store = g.store := rfl
  rw [Generation.client, Generation.client, clientActions, pathsListed, hstore]
  cases g.store.member document "paths" with
  | error e =>
      refine hR.chains (hR.faults (.error e)) fun _ _ _ hpaths => ?_
      cases (yields_ofFault.1 hpaths).1
  | ok paths =>
      cases paths with
      | scalar s | sequence id | typed kind id => exact hR.misses
      | mapping id =>
          refine hR.chains (hR.faults (.ok (Value.mapping id))) fun _ v _ hpaths => ?_
          cases (yields_ofFault.1 hpaths).1
          refine hR.chains hR.resets fun _ _ _ _ => ?_
          refine hR.faulty fun spec _ => hR.checked (hR.builds document) fun operations _ => ?_
          refine hR.chains (hR.operationFiles _) fun _ modules _ _ => ?_
          rw [← List.append_nil (g.typesActions document)]
          refine hR.chains (hR.typesModule document) fun _ types _ _ => ?_
          exact hR.chains hR.sharedFiles fun _ shared _ _ => hR.ends _

end Compatible

/-! ## The actions of a run are what it does

A run ends as its actions do: it fails if and as one of them fails, and it leaves
the registry that they leave. -/

/-- How a run from a registry ends, its result apart. -/
def ending {α : Type} (x : Run α) (r : Registry) : Except Failure Unit × Registry :=
  ((x.run.run r).1.map fun _ => (), (x.run.run r).2)

/-- A run ends as actions do, from every registry. -/
def Follows (g : Generation) {α : Type} (x : Run α) (actions : List Action) : Prop :=
  ∀ r, ending x r = (g.perform actions).run.run r

theorem perform_cons (g : Generation) (a : Action) (rest : List Action) :
    g.perform (a :: rest) = g.act a >>= fun _ => g.perform rest :=
  List.forM_cons

theorem perform_append (g : Generation) (first rest : List Action) :
    g.perform (first ++ rest) = g.perform first >>= fun _ => g.perform rest :=
  List.forM_append

theorem perform_singleton (g : Generation) (a : Action) : g.perform [a] = g.act a := by
  rw [perform, List.forM_eq_forM, List.forM_cons, List.forM_nil]
  exact bind_pure_unit

section Following

variable {g : Generation} {α β : Type} {r m : Registry}

theorem Follows.yields {x : Run α} {actions : List Action} {a : α} (h : g.Follows x actions)
    (hx : x.Yields r a m) : (g.perform actions).Yields r () m := by
  have hend := h r
  rw [ending, hx] at hend
  exact hend.symm

theorem Follows.yields_of {x : Run α} {actions : List Action} (h : g.Follows x actions)
    (hactions : (g.perform actions).Yields r () m) : ∃ a, x.Yields r a m := by
  have hend := (h r).trans hactions
  rw [ending, Prod.mk.injEq] at hend
  obtain ⟨a, ha, _⟩ := map_eq_ok.1 hend.1
  exact ⟨a, Prod.ext ha hend.2⟩

theorem Follows.fails {x : Run α} {actions : List Action} {e : Failure} (h : g.Follows x actions)
    (hx : x.run.run r = (.error e, m)) : (g.perform actions).run.run r = (.error e, m) := by
  have hend := h r
  rw [ending, hx] at hend
  exact hend.symm

theorem Follows.bind {x : Run α} {f : α → Run β} {first rest : List Action}
    (hx : g.Follows x first) (hf : ∀ r a m, x.Yields r a m → g.Follows (f a) rest) :
    g.Follows (x >>= f) (first ++ rest) := by
  intro r
  rw [perform_append, ending, Run.run_bind, Run.run_bind]
  cases hrun : x.run.run r with
  | mk result m =>
      cases result with
      | error e => rw [hx.fails hrun]; rfl
      | ok a =>
          rw [show (g.perform first).run.run r = (.ok (), m) from hx.yields hrun]
          exact hf r a m hrun m

theorem follows_act {x : Run α} {a : Action} (h : ∀ r, ending x r = (g.act a).run.run r) :
    g.Follows x [a] := by
  intro r
  rw [perform_singleton]
  exact h r

/-- An answer is as good as none for how a run ends. -/
theorem ending_discarded (x : Run α) (r : Registry) :
    ending x r = (x >>= fun _ => pure () : Run Unit).run.run r := by
  rw [ending, Run.run_bind]
  cases x.run.run r with
  | mk result m => cases result <;> rfl

theorem follows_compatible (g : Generation) (strict : Value) :
    g.Compatible strict fun _ y actions => g.Follows y actions where
  ends _ := fun _ => rfl
  chains := Follows.bind
  looks := fun _ => rfl
  resets := follows_act fun _ => rfl
  faults _ := follows_act fun _ => rfl
  misses := follows_act fun _ => rfl
  builds _ := follows_act fun _ => rfl
  types _ _ := follows_act (ending_discarded _)
  names _ := follows_act (ending_discarded _)

/-- A run ends as its actions do. -/
theorem client_follows (g : Generation) (document : Value) :
    g.Follows (g.client document) (g.clientActions document) :=
  (follows_compatible g g.options.strict).client document

end Following

end Generation

end TypedClient
