import TypedClient.Proofs.CamelWords
import TypedClient.Proofs.ClientRuns
import TypedClient.Proofs.OperationOrder
import TypedClient.Proofs.ParameterLists
import TypedClient.Proofs.PropertyKeys

/-!
# Parameters that the generated code confuses

The method of an operation has a binding for each parameter and passes it on
under a key. What comes out of the merge of parameters differs in name or
location, yet binding and key are both made from the name alone, and both
forget something about it. `Confusable` says which names have one binding,
without a look at how a binding is written: names of the same words, and on the
fringe some names without words. Fewer names have one key, those that are equal
up to a line break at the end of a plain one. Whichever way parameters came
into the list of an operation, their names alone decide.
-/

namespace TypedClient

open Naming Script

namespace Parameter

/-- What the method of an operation writes for a parameter: the key and the
binding. -/
def passed (p : Parameter) : String × String := (propertyKey p.name, p.binding)

/-- Two names whose bindings are one. -/
inductive Confusable (a b : String) : Prop where
  /-- The words are the same in small letters, a word that starts with a digit counting as the end
  of the one before it. -/
  | words (hwords : smallWords a ≠ []) (hsame : joined (smallWords a) = joined (smallWords b))
  /-- There are no words, and the signs make the same name. -/
  | signs (ha : smallWords a = []) (hb : smallWords b = [])
      (hsame : safeIdentifier (camelCase a) = safeIdentifier (camelCase b))

theorem binding_eq_iff {p q : Parameter} :
    p.binding = q.binding ↔ Confusable p.name q.name := by
  have hbinding : ∀ p : Parameter, p.binding = bindingOf p.name := fun p => by
    rw [Parameter.binding, bindingOf]
  rw [hbinding, hbinding, bindingOf_eq_iff]
  constructor
  · rintro (⟨hwords, hsame⟩ | ⟨ha, hb, hsame⟩)
    · exact .words hwords hsame
    · exact .signs ha hb hsame
  · rintro (⟨hwords, hsame⟩ | ⟨ha, hb, hsame⟩)
    · exact .inl ⟨hwords, hsame⟩
    · exact .inr ⟨ha, hb, hsame⟩

theorem bindings_nodup_iff {ps : List Parameter} :
    (ps.map binding).Nodup ↔ ps.Pairwise fun p q => ¬Confusable p.name q.name := by
  simp only [List.Nodup, List.pairwise_map, ne_eq, binding_eq_iff]

theorem keys_apart_iff {ps : List Parameter} :
    (ps.Pairwise fun p q => ¬SameKey (propertyKey p.name) (propertyKey q.name)) ↔
      (ps.map fun p => propertyName p.name).Nodup := by
  simp only [List.Nodup, List.pairwise_map, ne_eq, sameKey_iff]

end Parameter

/-! ## Operations -/

/-- What the method of an operation writes for its parameters. -/
theorem Generation.operationView_passed {g : Generation} {r r' : Registry} {op : Operation}
    {view : OperationView} (h : (g.operationView op).Yields r view r') :
    view.parameters.map (fun p => (p.key, p.binding)) = op.parameters.map Parameter.passed := by
  have hview : ∀ {p : Parameter} {written : ParameterView} {s s' : Registry},
      (g.parameterView p).Yields s written s' → (written.key, written.binding) = p.passed := by
    intro p written s s' hwritten
    simp only [parameterView, Run.yields_bind, Run.yields_pure] at hwritten
    obtain ⟨_, _, _, _, _, _, rfl, _⟩ := hwritten
    rw [Parameter.passed]
  simp only [operationView, Run.yields_bind, Run.yields_ofFault, Run.yields_pure,
    Run.yields_mapM] at h
  obtain ⟨parameters, _, ⟨pairs, hpairs, hin, rfl⟩, _, _, _, _, _, _, rfl, _⟩ := h
  rw [hin, List.map_map, List.map_map]
  refine List.map_congr_left fun pair hpair => ?_
  obtain ⟨s, s', hwritten⟩ := hpairs.step_of_mem hpair
  exact hview hwritten

namespace Operation

open Parameter

variable {store : Store} {document : Value} {operations : List Operation} {op : Operation}

/-- The parameters of an operation are those of a path and its own, with the
request body. -/
theorem build_parameters (h : build store document = .ok operations) (hop : op ∈ operations) :
    ∃ pathItem details,
      collect store (.mapping pathItem) (.mapping details) document = .ok op.parameters := by
  obtain ⟨shared, paths, unsorted, -, -, hbuilt, rfl⟩ := build_eq_ok.1 h
  rw [List.mem_mergeSort] at hop
  obtain ⟨found, -, hfound⟩ := built_of_mem hbuilt hop
  obtain ⟨_, parameters, _, _, -, hparameters, -, -, rfl⟩ := ofDetails_eq_ok.1 hfound
  exact ⟨found.1.pathItem, found.1.details, hparameters⟩

/-- The parameters of an operation are those with different names or locations,
and perhaps a body. Their keys and bindings, which are what a method passes on,
are different exactly as far as their names tell. -/
theorem build_bindings_distinct_iff (h : build store document = .ok operations)
    (hop : op ∈ operations) :
    (∃ (listed : List Parameter) (body : Option Parameter),
      op.parameters = requiredFirst (listed ++ body.toList) ∧
      (listed.map Parameter.key).Nodup ∧ ∀ p ∈ body, p.key = ("body", "body")) ∧
    (∀ (g : Generation) (r r' : Registry) (view : OperationView),
      (g.operationView op).Yields r view r' →
        view.parameters.map (fun p => (p.key, p.binding)) = op.parameters.map passed) ∧
    ((op.parameters.map binding).Nodup ↔
      op.parameters.Pairwise fun p q => ¬Confusable p.name q.name) ∧
    ((op.parameters.Pairwise fun p q => ¬SameKey (propertyKey p.name) (propertyKey q.name)) ↔
      (op.parameters.map fun p => propertyName p.name).Nodup) := by
  refine ⟨?_, fun g r r' view hview => Generation.operationView_passed hview, bindings_nodup_iff,
    keys_apart_iff⟩
  obtain ⟨pathItem, details, hcollect⟩ := build_parameters h hop
  obtain ⟨shared, own, listed, body, -, -, hlisted, hbody, hparameters⟩ := collect_eq_ok.1 hcollect
  refine ⟨listed, body, hparameters, mergeAll_keys_nodup hlisted, ?_⟩
  rintro p hp
  obtain rfl := Option.mem_def.1 hp
  exact ofBody_key hbody

/-- The document of an operation with a header `X-Id` and one more parameter, in
the query. -/
def petStore (name : String) : Store where
  sequences := #[[.mapping 0, .mapping 1]]
  mappings := #[
    [(.text "name", .text "X-Id"), (.text "in", .text "header")],
    [(.text "name", .text name), (.text "in", .text "query")],
    [(.text "operationId", .text "getPet"), (.text "parameters", .sequence 0)],
    [(.text "get", .mapping 2)],
    [(.text "/pets/\x7bid\x7d", .mapping 3)],
    [(.text "paths", .mapping 4)]]

/-- The operation of that document. -/
def getPet (name : String) : Operation where
  id := "getPet"
  path := "/pets/\x7bid\x7d"
  method := "get"
  group := "default"
  summary := ""
  description := ""
  parameters := [⟨"X-Id", "header", false, "", .value (.mapping 0)⟩,
    ⟨name, "query", false, "", .value (.mapping 1)⟩]
  response := none
  security := []

theorem getPet_build {name : String} (h : name ∈ ["limit", "x_id"]) :
    build (petStore name) (.mapping 5) = .ok [getPet name] := by
  refine build_eq_ok.2 ⟨[], [(.text "/pets/\x7bid\x7d", .mapping 3)], [getPet name], rfl, rfl, ?_,
    (List.mergeSort_singleton (getPet name)).symm⟩
  simp only [List.mem_cons, List.not_mem_nil, or_false] at h
  rcases h with rfl | rfl <;> exact .cons (by rfl) .nil

/-- A header and a limit have different words. -/
theorem build_bindings_distinct_of_limit :
    ∃ store document operations op, build store document = .ok operations ∧ op ∈ operations ∧
      op.parameters.length = 2 ∧ (op.parameters.map binding).Nodup := by
  have hbuild := @getPet_build "limit" (by decide)
  have hmem : getPet "limit" ∈ [getPet "limit"] := List.mem_singleton.2 rfl
  obtain ⟨-, -, hbindings, -⟩ := build_bindings_distinct_iff hbuild hmem
  refine ⟨_, _, _, _, hbuild, hmem, rfl, hbindings.2 ?_⟩
  refine List.pairwise_pair.2 ?_
  rintro (⟨-, hsame⟩ | ⟨hwords, -, -⟩)
  · exact absurd hsame (by decide +kernel)
  · exact absurd hwords (by decide +kernel)

/-- The header `X-Id` and the `x_id` of the query are both bound to `xId`. -/
theorem build_bindings_repeated :
    ∃ store document operations op, build store document = .ok operations ∧ op ∈ operations ∧
      op.parameters.map Parameter.key = [("X-Id", "header"), ("x_id", "query")] ∧
      op.parameters.map binding = ["xId", "xId"] ∧ ¬(op.parameters.map binding).Nodup := by
  have hbindings : (getPet "x_id").parameters.map binding = ["xId", "xId"] := by decide +kernel
  refine ⟨_, _, _, getPet "x_id", @getPet_build "x_id" (by decide),
    List.mem_singleton.2 rfl, rfl, hbindings, ?_⟩
  rw [hbindings]
  decide

end Operation

end TypedClient
