import TypedClient.Emit.Client
import TypedClient.Proofs.Chains
import TypedClient.Proofs.OperationOrder

/-!
# What a run did

A run of the generator resolves schemas in three nested loops, over groups,
their operations and the definitions, and the types that it gets end up inside
texts. A `Transcript` of a successful run undoes this: it lists the operations
and the definitions with their views and the calls of `resolve` that were made
for each, and says how the files are put together from the views.

`transcript_of_runClient` says that every successful run has one. The calls of
a transcript are a chain from the registry at the start to the one at the end,
so whatever holds of one call holds along the run.
-/

namespace TypedClient

/-! ## Calls -/

/-- What a type is asked for: where it will stand, and the schema. -/
structure Request where
  mode : ResolutionMode
  site : SchemaSite
  deriving DecidableEq, Repr

/-- A call of `resolve`, and the type that it gave. -/
structure Call where
  request : Request
  text : String
  deriving DecidableEq, Repr

/-- The requests of an operation: its parameters and then its response. -/
def Operation.requests (op : Operation) : List Request :=
  (op.parameters.map (·.schema) ++ op.response.toList).map (Request.mk .default)

/-- The types in the view of an operation, in the order of its requests. -/
def OperationView.types (op : Operation) (view : OperationView) : List String :=
  view.parameters.map (·.type) ++ op.response.toList.map fun _ => view.returnType

/-- The types in the view of a definition. -/
def DefinitionView.types (view : DefinitionView) : List String :=
  match view.body with
  | .alias type _ => [type]
  | .interface properties => properties.map (·.type)

namespace Generation

def descriptionOf (g : Generation) : Value → Value
  | .mapping id => g.store.get id "description"
  | _ => .null

/-- The properties that a schema lists. A definition that lists none is another name for a type. -/
def listedProperties (g : Generation) : Value → Option (List (Scalar × Value))
  | .mapping id => match g.store.get id "properties" with
    | .mapping properties => some (g.store.entries properties)
    | _ => none
  | _ => none

/-- The requests of a definition: its properties, or itself if it lists none. -/
def definitionRequests (g : Generation) (entry : Scalar × Value) : List Request :=
  let schemas : List Value := match entry.2 with
    | .mapping id => match g.store.get id "properties" with
      | .mapping properties => (g.store.entries properties).map (·.2)
      | _ => [entry.2]
    | schema => [schema]
  schemas.map fun schema => ⟨.typesModule, .value schema⟩

/-- A call was made, from one registry to the next. -/
def Made (g : Generation) (r : Registry) (call : Call) (r' : Registry) : Prop :=
  ∃ collision, resolve g.store g.config call.request.mode r call.request.site =
    .ok ⟨call.text, r', collision⟩

variable {g : Generation} {r r' : Registry}

open Run

theorem typeOf_yields {mode : ResolutionMode} {site : SchemaSite} {text : String} :
    (g.typeOf mode site).Yields r text r' ↔ g.Made r ⟨⟨mode, site⟩, text⟩ r' := by
  simp only [typeOf, yields_bind, yields_get, yields_ofResult, yields_set, yields_pure, Made]
  constructor
  · intro h
    obtain ⟨_, _, ⟨rfl, rfl⟩, resolution, _, ⟨hresolve, rfl⟩, _, _, rfl, rfl, rfl⟩ := h
    exact ⟨resolution.collision, hresolve⟩
  · intro h
    obtain ⟨collision, hresolve⟩ := h
    exact ⟨r, r, ⟨rfl, rfl⟩, _, r, ⟨hresolve, rfl⟩, ⟨⟩, r', rfl, rfl, rfl⟩

theorem docTypeOf_yields {site : SchemaSite} {text : String} :
    (g.docTypeOf site).Yields r text r' ↔
      documentType g.store g.config site = .ok text ∧ r = r' := by
  rw [docTypeOf, yields_ofResult]

theorem parameterView_yields {p : Parameter} {view : ParameterView}
    (h : (g.parameterView p).Yields r view r') :
    g.Made r ⟨⟨.default, p.schema⟩, view.type⟩ r' := by
  simp only [parameterView, yields_bind, typeOf_yields, docTypeOf_yields, yields_pure] at h
  obtain ⟨type, m, htype, docType, _, ⟨_, rfl⟩, rfl, rfl⟩ := h
  exact htype

theorem returnTypes_yields {response : Option SchemaSite} {types : String × String}
    (h : (g.returnTypes response).Yields r types r') :
    Chain g.Made r (response.toList.map fun site => ⟨⟨.default, site⟩, types.1⟩) r' := by
  cases response with
  | none =>
      rw [returnTypes, yields_pure] at h
      obtain ⟨_, rfl⟩ := h
      exact .nil
  | some site =>
      simp only [returnTypes, yields_bind, typeOf_yields, docTypeOf_yields, yields_pure] at h
      obtain ⟨type, m, htype, docType, _, ⟨_, rfl⟩, rfl, rfl⟩ := h
      exact .cons htype .nil

theorem operationView_yields {op : Operation} {view : OperationView}
    (h : (g.operationView op).Yields r view r') :
    view.id = op.id ∧ ∃ calls, Chain g.Made r calls r' ∧
      calls.map (·.request) = op.requests ∧ calls.map (·.text) = view.types op := by
  simp only [operationView, yields_bind, yields_ofFault, yields_pure, yields_mapM] at h
  obtain ⟨parameters, m, ⟨pairs, hpairs, hin, rfl⟩, types, m', htypes, descriptor, _,
    ⟨_, rfl⟩, rfl, rfl⟩ := h
  have hcalls : Chain g.Made r (pairs.map fun p => ⟨⟨.default, p.1.schema⟩, p.2.type⟩) m :=
    hpairs.map fun _ _ _ => parameterView_yields
  refine ⟨rfl, _, hcalls.append (returnTypes_yields htypes), ?_, ?_⟩
  · simp [Operation.requests, hin, Function.comp_def]
  · simp [OperationView.types, Function.comp_def]

theorem propertyView_yields {required : List Scalar} {entry : Scalar × Value}
    {view : PropertyView} (h : (g.propertyView required entry).Yields r view r') :
    g.Made r ⟨⟨.typesModule, .value entry.2⟩, view.type⟩ r' := by
  simp only [propertyView, yields_bind, yields_ofFault, typeOf_yields, docTypeOf_yields,
    yields_pure] at h
  obtain ⟨description, _, ⟨_, rfl⟩, type, m, htype, docType, _, ⟨_, rfl⟩, rfl, rfl⟩ := h
  exact htype

theorem aliasView_yields {schema : Value} {body : DefinitionBody}
    (h : (g.aliasView schema).Yields r body r') :
    ∃ type docType, body = .alias type docType ∧
      g.Made r ⟨⟨.typesModule, .value schema⟩, type⟩ r' ∧
      documentType g.store g.config (.value schema) = .ok docType := by
  simp only [aliasView, yields_bind, typeOf_yields, docTypeOf_yields, yields_pure] at h
  obtain ⟨type, m, htype, docType, _, ⟨hdocType, rfl⟩, rfl, rfl⟩ := h
  exact ⟨type, docType, rfl, htype, hdocType⟩

/-- What a view of a definition is made of. There are three ways not to list properties, and in all
of them the definition is another name for a type. -/
theorem definitionView_cases {entry : Scalar × Value} {view : DefinitionView}
    (h : (g.definitionView entry).Yields r view r') :
    view.name = entry.1.plain ∧
      g.format.description g.store (g.descriptionOf entry.2) = .ok view.description ∧
      match g.listedProperties entry.2 with
      | none => (g.aliasView entry.2).Yields r view.body r'
      | some properties => ∃ required views, view.body = .interface views ∧
          (properties.mapM (g.propertyView required)).Yields r views r' := by
  obtain ⟨key, schema⟩ := entry
  have halias : ∀ {description : String},
      (do return ⟨key.plain, description, ← g.aliasView schema⟩ : Run DefinitionView).Yields r
        view r' →
      g.format.description g.store (g.descriptionOf schema) = .ok description →
      view.name = key.plain ∧
        g.format.description g.store (g.descriptionOf schema) = .ok view.description ∧
        (g.aliasView schema).Yields r view.body r' := by
    intro description h hdescription
    rw [yields_bind] at h
    obtain ⟨body, _, hbody, h⟩ := h
    obtain ⟨rfl, rfl⟩ := yields_pure.1 h
    exact ⟨rfl, hdescription, hbody⟩
  have hnull : g.format.description g.store .null = .ok "" := by
    unfold Formatting.description
    rfl
  cases schema with
  | scalar s | sequence id | typed kind id => exact halias h hnull
  | mapping id =>
      rw [definitionView, yields_bind] at h
      obtain ⟨description, _, hyields, h⟩ := h
      obtain ⟨hdescription, rfl⟩ := yields_ofFault.1 hyields
      rw [listedProperties]
      cases hproperties : g.store.get id "properties" with
      | scalar s | sequence properties | typed kind properties =>
          rw [hproperties] at h
          exact halias h hdescription
      | mapping properties =>
          rw [hproperties] at h
          simp only [yields_bind, yields_ofFault, yields_pure] at h
          obtain ⟨required, _, ⟨_, rfl⟩, views, _, hviews, rfl, rfl⟩ := h
          exact ⟨rfl, hdescription, required, views, rfl, hviews⟩

theorem definitionRequests_eq (entry : Scalar × Value) :
    g.definitionRequests entry = match g.listedProperties entry.2 with
      | none => [⟨.typesModule, .value entry.2⟩]
      | some properties => properties.map fun p => ⟨.typesModule, .value p.2⟩ := by
  obtain ⟨key, schema⟩ := entry
  cases schema with
  | scalar s | sequence id | typed kind id => rfl
  | mapping id =>
      simp only [definitionRequests, listedProperties]
      cases g.store.get id "properties" with
      | scalar s | sequence properties | typed kind properties => rfl
      | mapping properties => rw [List.map_map]; rfl

theorem definitionView_yields {entry : Scalar × Value} {view : DefinitionView}
    (h : (g.definitionView entry).Yields r view r') :
    ∃ calls, Chain g.Made r calls r' ∧
      calls.map (·.request) = g.definitionRequests entry ∧ calls.map (·.text) = view.types := by
  obtain ⟨_, _, hbody⟩ := definitionView_cases h
  rw [definitionRequests_eq, DefinitionView.types]
  cases hlisted : g.listedProperties entry.2 with
  | none =>
      rw [hlisted] at hbody
      obtain ⟨type, docType, hview, hmade, _⟩ := aliasView_yields hbody
      rw [hview]
      exact ⟨_, .cons hmade .nil, rfl, rfl⟩
  | some properties =>
      rw [hlisted] at hbody
      obtain ⟨required, views, hview, hyields⟩ := hbody
      obtain ⟨pairs, hpairs, hin, rfl⟩ := yields_mapM.1 hyields
      have hcalls : Chain g.Made r
          (pairs.map fun p => ⟨⟨.typesModule, .value p.1.2⟩, p.2.type⟩) r' :=
        hpairs.map fun _ _ _ => propertyView_yields
      refine ⟨_, hcalls, ?_, ?_⟩
      · simp [hin, Function.comp_def]
      · simp [hview, Function.comp_def]

end Generation

/-! ## Records -/

/-- An operation of a run: its view, and the calls that were made for it. -/
structure OperationRecord where
  operation : Operation
  view : OperationView
  calls : List Call

/-- A definition of a run: its view, and the calls that were made for it. -/
structure DefinitionRecord where
  entry : Scalar × Value
  view : DefinitionView
  calls : List Call

/-- A group of a run, with its operations. -/
structure GroupRecord where
  group : String
  operations : List OperationRecord

namespace Generation

variable {g : Generation} {r r' : Registry}

open Run

/-- What a record says of an operation happened, from one registry to the next. -/
structure Viewed (g : Generation) (r : Registry) (record : OperationRecord) (r' : Registry) :
    Prop where
  view : (g.operationView record.operation).Yields r record.view r'
  calls : Chain g.Made r record.calls r'
  requests : record.calls.map (·.request) = record.operation.requests
  types : record.calls.map (·.text) = record.view.types record.operation

/-- What a record says of a definition happened, from one registry to the next. -/
structure Defined (g : Generation) (r : Registry) (record : DefinitionRecord) (r' : Registry) :
    Prop where
  view : (g.definitionView record.entry).Yields r record.view r'
  calls : Chain g.Made r record.calls r'
  requests : record.calls.map (·.request) = g.definitionRequests record.entry
  types : record.calls.map (·.text) = record.view.types

/-- The text of the module of a group. -/
def moduleText (g : Generation) (group : String) (views : List OperationView) : String :=
  (if g.isTyped then typedOperations g.format group views
    else untypedOperations g.format group views)
    ++ String.join (views.map (·.descriptorConstant g.format))

/-- The file of a group. -/
def moduleFile (g : Generation) (m : GroupRecord) : GeneratedFile :=
  (g.fileName (Operation.moduleName m.group),
    g.moduleText m.group (m.operations.map (·.view)))

/-- The text of the module of all types. -/
def typesText (g : Generation) (views : List DefinitionView) : String :=
  if g.isTyped then typedDefinitions g.format views else untypedDefinitions views

/-- The files that only a typed client has, with the declarations of a registry. -/
def sharedWith (g : Generation) (r : Registry) : List GeneratedFile :=
  if g.isTyped then
    [("enums.ts", enumsModule g.format r.declarations), ("utils.ts", decoratorsModule g.format)]
  else []

theorem operationsModule_yields {group text : String} {operations : List Operation}
    (h : (g.operationsModule group operations).Yields r text r') :
    ∃ records : List OperationRecord, Chain g.Viewed r records r' ∧
      operations = records.map (·.operation) ∧
      text = g.moduleText group (records.map (·.view)) := by
  simp only [operationsModule, yields_bind, yields_pure, yields_mapM] at h
  obtain ⟨views, _, ⟨pairs, hpairs, rfl, rfl⟩, rfl, rfl⟩ := h
  have hrecord : ∀ (r : Registry) (p : Operation × OperationView) (r' : Registry),
      (g.operationView p.1).Yields r p.2 r' →
      ∃ record : OperationRecord, g.Viewed r record r' ∧
        p = (record.operation, record.view) := by
    intro r p r' hview
    obtain ⟨_, calls, hcalls, hrequests, htypes⟩ := operationView_yields hview
    exact ⟨⟨p.1, p.2, calls⟩, ⟨hview, hcalls, hrequests, htypes⟩, rfl⟩
  obtain ⟨records, hrecords, hpaired⟩ := hpairs.exchange hrecord
  refine ⟨records, hrecords, ?_, ?_⟩
  · simp [forall₂_eq_map hpaired, Function.comp_def]
  · simp only [forall₂_eq_map hpaired, List.map_map, Function.comp_def, moduleText]

theorem operationFiles_yields {groups : List (String × List Operation)}
    {files : List GeneratedFile} (h : (g.operationFiles groups).Yields r files r') :
    ∃ modules : List GroupRecord, Chain g.Viewed r (modules.flatMap (·.operations)) r' ∧
      groups = modules.map (fun m => (m.group, m.operations.map (·.operation))) ∧
      files = modules.map g.moduleFile := by
  rw [operationFiles, yields_mapM] at h
  obtain ⟨pairs, hpairs, rfl, rfl⟩ := h
  have hmodule : ∀ (r : Registry) (p : (String × List Operation) × GeneratedFile)
      (r' : Registry),
      (do let contents ← g.operationsModule p.1.1 p.1.2
          return (g.fileName (Operation.moduleName p.1.1), contents) : Run _).Yields r p.2 r' →
      ∃ m : GroupRecord, Chain g.Viewed r m.operations r' ∧
        p = ((m.group, m.operations.map (·.operation)), g.moduleFile m) := by
    rintro r ⟨⟨group, operations⟩, file⟩ r' hfile
    simp only [yields_bind, yields_pure] at hfile
    obtain ⟨text, _, htext, rfl, rfl⟩ := hfile
    obtain ⟨records, hrecords, rfl, rfl⟩ := operationsModule_yields htext
    exact ⟨⟨group, records⟩, hrecords, rfl⟩
  obtain ⟨modules, hmodules, hpaired⟩ := hpairs.exchange hmodule
  refine ⟨modules, hmodules.flatMap, ?_, ?_⟩
  · rw [forall₂_eq_map hpaired, List.map_map]
    rfl
  · rw [forall₂_eq_map hpaired, List.map_map]
    rfl

theorem typesModule_yields {document : Value} {text : String}
    (h : (g.typesModule document).Yields r text r') :
    ∃ records : List DefinitionRecord, Chain g.Defined r records r' ∧
      definitions g.store document = .ok (records.map (·.entry)) ∧
      text = g.typesText (records.map (·.view)) := by
  simp only [typesModule, yields_bind, yields_ofFault, yields_pure, yields_mapM] at h
  obtain ⟨entries, _, ⟨hentries, rfl⟩, views, _, ⟨pairs, hpairs, rfl, rfl⟩, rfl, rfl⟩ := h
  have hrecord : ∀ (r : Registry) (p : (Scalar × Value) × DefinitionView) (r' : Registry),
      (g.definitionView p.1).Yields r p.2 r' →
      ∃ record : DefinitionRecord, g.Defined r record r' ∧
        p = (record.entry, record.view) := by
    intro r p r' hview
    obtain ⟨calls, hcalls, hrequests, htypes⟩ := definitionView_yields hview
    exact ⟨⟨p.1, p.2, calls⟩, ⟨hview, hcalls, hrequests, htypes⟩, rfl⟩
  obtain ⟨records, hrecords, hpaired⟩ := hpairs.exchange hrecord
  rw [forall₂_eq_map hpaired, List.map_map] at hentries ⊢
  exact ⟨records, hrecords, hentries, rfl⟩

theorem sharedFiles_yields {files : List GeneratedFile} :
    g.sharedFiles.Yields r files r' ↔ files = g.sharedWith r ∧ r = r' := by
  rw [sharedFiles, sharedWith]
  cases g.isTyped with
  | false =>
      simp only [Bool.not_false, if_true, Bool.false_eq_true, if_false, yields_pure]
      rw [eq_comm]
  | true =>
      simp only [Bool.not_true, Bool.false_eq_true, if_false, if_true, yields_bind, yields_get,
        yields_pure]
      constructor
      · intro h
        obtain ⟨_, _, ⟨rfl, rfl⟩, rfl, rfl⟩ := h
        exact ⟨rfl, rfl⟩
      · intro h
        obtain ⟨rfl, rfl⟩ := h
        exact ⟨r, r, ⟨rfl, rfl⟩, rfl, rfl⟩

/-! ## Transcripts -/

/-- The files of a run as they are put out, each with its name. -/
def assigned (g : Generation) (spec : String) (modules : List GroupRecord)
    (types : List DefinitionRecord) (after : Registry) : List GeneratedFile :=
  [(g.fileName "gateway/spec", spec)] ++ modules.map g.moduleFile
    ++ [(g.fileName "types", g.typesText (types.map (·.view)))] ++ g.sharedWith after

end Generation

/-- What happened in a successful run, from a registry without entries to the
one that it left. -/
structure Transcript (g : Generation) (document : Value) (start after : Registry)
    (files : List GeneratedFile) where
  spec : String
  modules : List GroupRecord
  types : List DefinitionRecord
  described : g.specModule document = .ok spec
  built : Operation.build g.store document =
    .ok ((modules.flatMap (·.operations)).map (·.operation))
  grouped : Operation.groups ((modules.flatMap (·.operations)).map (·.operation)) =
    modules.map fun m => (m.group, m.operations.map (·.operation))
  defined : definitions g.store document = .ok (types.map (·.entry))
  happened : ∃ between, Chain g.Viewed start (modules.flatMap (·.operations)) between ∧
    Chain g.Defined between types after
  emitted : files = putFiles (g.assigned spec modules types after)

namespace Transcript

variable {g : Generation} {document : Value} {start after : Registry}
  {files : List GeneratedFile}

/-- The operations of a run, in order. -/
def records (t : Transcript g document start after files) : List OperationRecord :=
  t.modules.flatMap (·.operations)

/-- The operations of the document, in order. -/
def operations (t : Transcript g document start after files) : List Operation :=
  t.records.map (·.operation)

/-- The files of a run as they were put out. -/
def assigned (t : Transcript g document start after files) : List GeneratedFile :=
  g.assigned t.spec t.modules t.types after

/-- The calls of a run, in order. -/
def calls (t : Transcript g document start after files) : List Call :=
  t.records.flatMap (·.calls) ++ t.types.flatMap (·.calls)

theorem made (t : Transcript g document start after files) :
    Chain g.Made start t.calls after := by
  obtain ⟨between, hviewed, hdefined⟩ := t.happened
  have hoperations : Chain g.Made start (t.records.flatMap (·.calls)) between :=
    (hviewed.mono fun _ _ _ hview => hview.calls).flatMap
  have htypes : Chain g.Made between (t.types.flatMap (·.calls)) after :=
    (hdefined.mono fun _ _ _ hdefinition => hdefinition.calls).flatMap
  exact hoperations.append htypes

theorem viewed_of_mem (t : Transcript g document start after files) :
    ∀ record ∈ t.records, ∃ r r', g.Viewed r record r' := by
  obtain ⟨_, hviewed, _⟩ := t.happened
  exact fun _ hrecord => hviewed.step_of_mem hrecord

theorem defined_of_mem (t : Transcript g document start after files) :
    ∀ record ∈ t.types, ∃ r r', g.Defined r record r' := by
  obtain ⟨_, _, hdefined⟩ := t.happened
  exact fun _ hrecord => hdefined.step_of_mem hrecord

/-- The operations of a run asked for their types in order, and then the
definitions did. -/
theorem calls_requests (t : Transcript g document start after files) :
    t.calls.map (·.request) = t.operations.flatMap Operation.requests ++
      (t.types.map (·.entry)).flatMap g.definitionRequests := by
  have hoperations : ∀ record ∈ t.records,
      record.calls.map (·.request) = record.operation.requests := by
    intro record hrecord
    obtain ⟨_, _, hview⟩ := t.viewed_of_mem record hrecord
    exact hview.requests
  have htypes : ∀ record ∈ t.types,
      record.calls.map (·.request) = g.definitionRequests record.entry := by
    intro record hrecord
    obtain ⟨_, _, hdefinition⟩ := t.defined_of_mem record hrecord
    exact hdefinition.requests
  rw [calls, List.map_append, List.map_flatMap, List.map_flatMap,
    List.flatMap_congr hoperations, List.flatMap_congr htypes, operations, List.flatMap_map,
    List.flatMap_map]

/-- The types that were given stand in the views, in the same order. -/
theorem calls_texts (t : Transcript g document start after files) :
    t.calls.map (·.text) = t.records.flatMap (fun record => record.view.types record.operation) ++
      t.types.flatMap (·.view.types) := by
  have hoperations : ∀ record ∈ t.records,
      record.calls.map (·.text) = record.view.types record.operation := by
    intro record hrecord
    obtain ⟨_, _, hview⟩ := t.viewed_of_mem record hrecord
    exact hview.types
  have htypes : ∀ record ∈ t.types, record.calls.map (·.text) = record.view.types := by
    intro record hrecord
    obtain ⟨_, _, hdefinition⟩ := t.defined_of_mem record hrecord
    exact hdefinition.types
  rw [calls, List.map_append, List.map_flatMap, List.map_flatMap,
    List.flatMap_congr hoperations, List.flatMap_congr htypes]

end Transcript

open Run Generation in
/-- Every successful run has a transcript. -/
theorem transcript_of_runClient {g : Generation} {document : Value} {registry after : Registry}
    {files : List GeneratedFile} (h : g.runClient document registry = (.ok files, after)) :
    Nonempty (Transcript g document registry.reset after files) := by
  have hrun : (g.client document).Yields registry files after := h
  rw [Generation.client, yields_bind] at hrun
  obtain ⟨paths, _, hpaths, hrun⟩ := hrun
  obtain ⟨_, rfl⟩ := yields_ofFault.1 hpaths
  cases paths with
  | scalar s | sequence id | typed kind id => exact absurd hrun (by simp [not_yields_throw])
  | mapping id =>
      simp only [yields_bind, yields_pure, yields_modify, yields_ofFault, yields_ofResult,
        sharedFiles_yields] at hrun
      obtain ⟨_, _, rfl, spec, _, ⟨hspec, rfl⟩, operations, _, ⟨hbuilt, rfl⟩, _, between,
        hmodules, _, _, htypes, _, _, ⟨rfl, rfl⟩, rfl, rfl⟩ := hrun
      obtain ⟨modules, hviewed, hgroups, rfl⟩ := operationFiles_yields hmodules
      obtain ⟨types, hdefined, hentries, rfl⟩ := typesModule_yields htypes
      have hflat : (modules.flatMap (·.operations)).map (·.operation) = operations := by
        rw [← (Operation.groups_spec (Operation.build_sorted hbuilt)).2, hgroups,
          List.flatMap_map, List.map_flatMap]
      exact ⟨{
        spec, modules, types
        described := hspec
        built := by rw [hflat, hbuilt]
        grouped := by rw [hflat, hgroups]
        defined := hentries
        happened := ⟨between, hviewed, hdefined⟩
        emitted := rfl }⟩

end TypedClient
