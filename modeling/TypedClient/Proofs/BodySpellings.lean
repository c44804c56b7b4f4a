import TypedClient.Proofs.OperationOrder
import TypedClient.Proofs.OperationsAlike
import TypedClient.Proofs.ParameterLists

/-!
# Two spellings of a request body

An operation can list its request body among its parameters, under the name
`body` and in the location `body`, or have it apart with a schema for a media
type. In the same way a response has its schema itself or in a media type. What
is read from the two spellings differs in one respect: the schema of the first
is the mapping of the parameter or of the response, which the document contains
and which wraps the schema, and the schema of the second is a wrapper that is
made for it.

Nothing leads to a wrapper that is made, but a schema may contain the parameter
in which it stands. Then both spellings are cyclic schemas, and the second is
found out one level later, since the made wrapper is passed before the mapping
is entered for the first time. Apart from that, the operations are resolved and
written alike: `spellings_agree`.
-/

namespace TypedClient

variable {store : Store}

/-! ## Spellings -/

/-- A mapping that is nothing but a wrapper for its schema. -/
structure Wrapper (store : Store) (id : Nat) : Prop where
  enum : SchemaNode.elements store (store.get id "enum") = []
  reference : store.get id "$ref" = .null
  type : store.get id "schema" = .null → store.get id "type" = .null

/-- The content of one media type, with a schema. -/
def Content (store : Store) (content schema : Value) : Prop :=
  ∃ id key media, content = .mapping id ∧ store.entries id = [(key, .mapping media)] ∧
    store.get media "schema" = schema

/-- A response with a schema of its own, and one with that schema for a media type. -/
structure ResponseRespelled (store : Store) (id id' : Nat) : Prop where
  wrapper : Wrapper store id
  schema : store.get id "schema" ≠ .null
  reference : store.get id' "$ref" = .null
  moved : store.get id' "schema" = .null
  content : Content store (store.get id' "content") (store.get id "schema")

/-- Responses that are the same or respelled. -/
def EitherResponse (store : Store) (response response' : Value) : Prop :=
  response = response' ∨
    ∃ id id', response = .mapping id ∧ response' = .mapping id' ∧ ResponseRespelled store id id'

/-- Responses under one code. -/
def EitherEntry {κ : Type} (store : Store) (entry entry' : κ × Value) : Prop :=
  entry.1 = entry'.1 ∧ EitherResponse store entry.2 entry'.2

/-- The responses of an operation, of which any may be respelled. -/
def ResponsesRespelled (store : Store) (responses responses' : Value) : Prop :=
  responses = responses' ∨ ∃ id id', responses = .mapping id ∧ responses' = .mapping id' ∧
    List.Forall₂ (EitherEntry store) (store.entries id) (store.entries id')

/-- The details of an operation whose last own parameter is the body, and those of one with a
request body in its place. -/
structure Respelled (store : Store) (document : Value) (pathItem details details' : Nat)
    (rest : List Value) (parameter body : Nat) : Prop where
  own : store.iterateOrNone (store.get details "parameters") = .ok (rest ++ [.mapping parameter])
  own' : store.iterateOrNone (store.get details' "parameters") = .ok rest
  requestBody : store.get details "requestBody" = .null
  requestBody' : store.get details' "requestBody" = .mapping body
  name : store.find? parameter "name" = some (.text "body")
  location : store.find? parameter "in" = some (.text "body")
  wrapper : Wrapper store parameter
  reference : store.get body "$ref" = .null
  required : store.get body "required" = store.get parameter "required"
  description : store.get body "description" = store.get parameter "description"
  content : Content store (store.get body "content") (store.get parameter "schema")
  alone : ∀ shared, store.iterateOrNone (store.get pathItem "parameters") = .ok shared →
    ∀ raw ∈ shared ++ rest, ∀ id, Parameter.named store document raw = .ok (id, "body") →
      Parameter.locationOf store id ≠ "body"
  responses : ResponsesRespelled store (store.get details "responses")
    (store.get details' "responses")
  others : ∀ key, key ∉ ["parameters", "requestBody", "responses"] →
    store.get details key = store.get details' key

/-- Sites of which the first is the second, or a mapping that wraps the schema for which the
second is made. -/
def Rewrapped (store : Store) (site other : SchemaSite) : Prop :=
  site = other ∨ ∃ id, Wrapper store id ∧ site = .value (.mapping id) ∧
    other = .content (store.get id "schema")

theorem Rewrapped.refl (site : SchemaSite) : Rewrapped store site site := .inl rfl

/-! ## Parameters -/

theorem firstSchema_of_content {content schema : Value} (h : Content store content schema) :
    ∃ entries, store.entriesOrNone content = .ok entries ∧
      Parameter.firstSchema store entries = schema := by
  obtain ⟨id, key, media, rfl, hentries, hschema⟩ := h
  refine ⟨store.entries id, rfl, ?_⟩
  by_cases hnull : schema = .null
  · subst hnull
    simp [hentries, Parameter.firstSchema, hschema, Value.isNull]
  · simp [hentries, Parameter.firstSchema, hschema, Value.isNull, hnull]

section Spelled

variable {document : Value} {pathItem details details' parameter body : Nat} {rest : List Value}

/-- The parameter that the request body of the second spelling is. -/
def Respelled.apart (store : Store) (parameter : Nat) : Parameter where
  name := "body"
  location := "body"
  required := store.truthy (store.get parameter "required")
  description := store.plainOrEmpty (store.get parameter "description")
  schema := .content (store.get parameter "schema")

namespace Respelled

theorem named (h : Respelled store document pathItem details details' rest parameter body) :
    Parameter.named store document (.mapping parameter) = .ok (parameter, "body") := by
  have hself : dereference store (.mapping parameter) document = .mapping parameter := by
    rw [dereference, h.wrapper.reference]
    rfl
  simp only [Parameter.named, hself, h.name]
  rfl

theorem locationOf (h : Respelled store document pathItem details details' rest parameter body) :
    Parameter.locationOf store parameter = "body" := by
  rw [Parameter.locationOf, h.location]
  rfl

theorem ofBody_details
    (h : Respelled store document pathItem details details' rest parameter body) :
    Parameter.ofBody store (.mapping details) document = .ok none := by
  simp only [Parameter.ofBody, Store.member, bind, Except.bind, h.requestBody]
  rfl

theorem ofBody_details'
    (h : Respelled store document pathItem details details' rest parameter body) :
    Parameter.ofBody store (.mapping details') document = .ok (some (apart store parameter)) := by
  obtain ⟨entries, hentries, hschema⟩ := firstSchema_of_content h.content
  have hself : dereference store (.mapping body) document = .mapping body := by
    rw [dereference, h.reference]
    rfl
  simp only [Parameter.ofBody, Store.member, bind, Except.bind, h.requestBody', hself, hentries,
    hschema, h.required, h.description]
  rfl

theorem apart_like (h : Respelled store document pathItem details details' rest parameter body) :
    (Parameter.ofMapping store "body" "body" parameter).Like (Rewrapped store)
      (apart store parameter) := by
  constructor
  · rfl
  · rfl
  · exact Bool.or_false _
  · rfl
  · exact .inr ⟨parameter, h.wrapper, rfl, rfl⟩

/-- The parameter that is the body comes last, since it is the only one of its kind. -/
theorem mergeAll_own (h : Respelled store document pathItem details details' rest parameter body)
    {shared : List Value}
    (hshared : store.iterateOrNone (store.get pathItem "parameters") = .ok shared) :
    Parameter.mergeAll store document (shared ++ (rest ++ [.mapping parameter])) [] =
      (Parameter.mergeAll store document (shared ++ rest) []).map
        (· ++ [Parameter.ofMapping store "body" "body" parameter]) := by
  rw [← List.append_assoc, Parameter.mergeAll_append]
  cases hmerged : Parameter.mergeAll store document (shared ++ rest) [] with
  | error e => rfl
  | ok merged =>
      have hnew : (Parameter.ofMapping store "body" "body" parameter).key ∉
          merged.map Parameter.key := by
        intro hmem
        obtain ⟨q, hq, hkey⟩ := List.mem_map.1 hmem
        obtain ⟨hname, hlocation⟩ := Prod.mk.inj hkey
        obtain ⟨raw, hraw, id, hnamed, hself⟩ := Parameter.mem_mergeAll hmerged hq
        rw [hname] at hnamed
        rw [hself] at hlocation
        exact h.alone shared hshared raw hraw id hnamed hlocation
      have hlast : Parameter.mergeAll store document [.mapping parameter] merged =
          .ok (Parameter.merge (Parameter.ofMapping store "body" "body" parameter) merged) := by
        rw [Parameter.mergeAll, h.named]
        change Parameter.mergeAll store document [] (Parameter.merge (Parameter.ofMapping store
          "body" (Parameter.locationOf store parameter) parameter) merged) = _
        rw [h.locationOf]
        rfl
      rw [Except.bind, hlast, Parameter.merge_of_new hnew]
      rfl

theorem collect_agree (h : Respelled store document pathItem details details' rest parameter body) :
    Agree (List.Forall₂ (Parameter.Like (Rewrapped store)))
      (Parameter.collect store (.mapping pathItem) (.mapping details) document)
      (Parameter.collect store (.mapping pathItem) (.mapping details') document) := by
  have hread : ∀ id, (store.member (.mapping id) "parameters" >>= store.iterateOrNone) =
      store.iterateOrNone (store.get id "parameters") := fun _ => rfl
  rw [Parameter.collect_eq, Parameter.collect_eq, hread, hread, hread, h.own, h.own',
    h.ofBody_details, h.ofBody_details']
  cases hshared : store.iterateOrNone (store.get pathItem "parameters") with
  | error e => rfl
  | ok shared =>
      simp only [Failure.ofFault, bind, Except.bind, h.mergeAll_own hshared]
      cases Parameter.mergeAll store document (shared ++ rest) [] with
      | error e => rfl
      | ok merged =>
          refine Parameter.requiredFirst_like ?_
          simp only [Option.toList_none, List.append_nil, Option.toList_some]
          exact List.rel_append (List.forall₂_same.2 fun p _ => Parameter.Like.refl Rewrapped.refl p)
            (.cons h.apart_like .nil)

end Respelled

end Spelled

/-! ## Responses -/

section Responses

variable {document : Value}

theorem schema?_agree {response response' : Value} (h : EitherResponse store response response') :
    Agree (Option.Rel (Rewrapped store)) (Response.schema? store document response)
      (Response.schema? store document response') := by
  have hrefl : ∀ site : Option SchemaSite, Option.Rel (Rewrapped store) site site := by
    intro site
    cases site with
    | none => exact .none
    | some site => exact .some (Rewrapped.refl site)
  rcases h with rfl | ⟨id, id', rfl, rfl, hmoved⟩
  · exact Agree.refl hrefl _
  · obtain ⟨entries, hentries, hschema⟩ := firstSchema_of_content hmoved.content
    have hself : ∀ {id : Nat}, store.get id "$ref" = .null →
        dereference store (.mapping id) document = .mapping id := by
      intro id href
      rw [dereference, href]
      rfl
    have hsome : (store.get id "schema").isNull = false := by
      simpa [Value.isNull] using hmoved.schema
    have hfirst : Response.schema? store document (.mapping id) =
        .ok (some (.value (.mapping id))) := by
      simp [Response.schema?, hself hmoved.wrapper.reference, hsome]
    have hsecond : Response.schema? store document (.mapping id') =
        .ok (some (.content (store.get id "schema"))) := by
      have hnull : (store.get id' "schema").isNull = true := by rw [hmoved.moved]; rfl
      simp only [Response.schema?, hself hmoved.reference, hnull, bind, Except.bind, hentries,
        hschema, hsome]
      rfl
    rw [hfirst, hsecond]
    exact Option.Rel.some (.inr ⟨id, hmoved.wrapper, rfl, rfl⟩)

theorem firstSchema_agree {responses responses' : List Value}
    (h : List.Forall₂ (EitherResponse store) responses responses') :
    Agree (Option.Rel (Rewrapped store)) (Response.firstSchema store document responses)
      (Response.firstSchema store document responses') := by
  induction h with
  | nil => exact Option.Rel.none
  | cons hfirst _ ih =>
      refine (schema?_agree hfirst).bind fun site site' hsites => ?_
      cases hsites with
      | none => exact ih
      | some hsite => exact Option.Rel.some hsite

theorem successful_either {entries entries' : Entries}
    (h : List.Forall₂ (EitherEntry store) entries entries') :
    List.Forall₂ (EitherEntry store) (Response.successful entries)
      (Response.successful entries') := by
  rw [Response.successful, Response.successful]
  refine forall₂_mergeSort (fun a b a' b' hab hab' => by rw [hab.1, hab'.1]) ?_
  refine List.rel_filter (fun a b hab => ?_) ?_
  · change (a.1.toList.head? == some '2') = true ↔ (b.1.toList.head? == some '2') = true
    rw [hab.1]
  · rw [List.forall₂_map_left_iff, List.forall₂_map_right_iff]
    exact h.imp fun a b hab => ⟨congrArg Scalar.plain hab.1, hab.2⟩

theorem value?_either {entries entries' : Entries}
    (h : List.Forall₂ (EitherEntry store) entries entries') (key : String) :
    Option.Rel (EitherResponse store) (entries.value? key) (entries'.value? key) := by
  induction h with
  | nil => exact .none
  | @cons entry entry' rest rest' hentry _ ih =>
      obtain ⟨k, v⟩ := entry
      obtain ⟨k', v'⟩ := entry'
      obtain ⟨rfl, hresponse⟩ := hentry
      rw [Entries.value?_cons, Entries.value?_cons]
      split
      · exact .some hresponse
      · exact ih

theorem candidates_either {entries entries' : Entries}
    (h : List.Forall₂ (EitherEntry store) entries entries') :
    List.Forall₂ (EitherResponse store) (Response.candidates entries)
      (Response.candidates entries') := by
  refine List.rel_append ?_ ?_
  · rw [List.forall₂_map_left_iff, List.forall₂_map_right_iff]
    exact (successful_either h).imp fun a b hab => hab.2
  · have hdefault := value?_either h "default"
    generalize entries.value? "default" = x at hdefault
    generalize entries'.value? "default" = y at hdefault
    cases hdefault with
    | none => exact .nil
    | some hresponse => exact .cons hresponse .nil

theorem success_agree {details details' : Nat}
    (h : ResponsesRespelled store (store.get details "responses")
      (store.get details' "responses")) :
    Agree (Option.Rel (Rewrapped store)) (Response.success store (.mapping details) document)
      (Response.success store (.mapping details') document) := by
  have hrefl : ∀ response, EitherResponse store response response := fun _ => .inl rfl
  simp only [Response.success, Store.member, bind, Except.bind]
  rcases h with heq | ⟨id, id', hid, hid', hentries⟩
  · rw [heq]
    cases store.get details' "responses" with
    | scalar s | sequence id | typed kind id => exact Option.Rel.none
    | mapping id => exact firstSchema_agree (List.forall₂_same.2 fun v _ => hrefl v)
  · rw [hid, hid']
    exact firstSchema_agree (candidates_either hentries)

end Responses

/-! ## Operations -/

namespace Rewrapped

variable {site other : SchemaSite}

theorem alike (h : Rewrapped store site other) : Alike store site other := by
  rcases h with rfl | ⟨id, hwrapper, rfl, rfl⟩
  · exact Alike.refl store site
  · exact alike_of_wrapper hwrapper.enum hwrapper.reference hwrapper.type

/-- The two descents are one, unless the first comes back to where it started. -/
theorem descendSite_eq (h : Rewrapped store site other) (enterMaps : Bool) (config : ResolverConfig) :
    descendSite store enterMaps config.budget site =
        descendSite store enterMaps config.budget other ∨
      Returns store enterMaps site ∧ ∃ depth : Nat,
        descendSite store enterMaps config.budget site = .error (.cyclic depth none) ∧
        descendSite store enterMaps config.budget other =
          .error (.cyclic (min (depth + 1) config.budget : Nat) none) := by
  have halike := h.alike
  rcases h with rfl | ⟨id, _, rfl, rfl⟩
  · exact .inl rfl
  · by_cases hreturns : Returns store enterMaps (.value (.mapping id))
    · exact .inr ⟨hreturns, descendSite_returning halike hreturns
        (not_returns_content _) config.maxDepth⟩
    · exact .inl (descendSite_alike halike hreturns (not_returns_content _) config.maxDepth)

end Rewrapped

/-- Depths at which a cycle may be reported for the two spellings of an operation: the second is
one more, up to the limit, and only where a descent comes back to where it started. -/
def Deeper (store : Store) (config : ResolverConfig) (sites : List SchemaSite)
    (depth depth' : Nat) : Prop :=
  depth' = min (depth + 1) config.budget ∧
    ∃ site ∈ sites, ∃ enterMaps, Returns store enterMaps site

theorem Rewrapped.interchangeable {config : ResolverConfig} {site other : SchemaSite}
    (h : Rewrapped store site other) {sites : List SchemaSite} (hsite : site ∈ sites) :
    Interchangeable store config (Deeper store config sites) site other := by
  refine interchangeable_of_descents fun enterMaps => ?_
  rcases h.descendSite_eq enterMaps config with heq | ⟨hreturns, depth, hfirst, hsecond⟩
  · exact .inl heq
  · exact .inr ⟨depth, _, ⟨rfl, site, hsite, enterMaps, hreturns⟩, hfirst, hsecond⟩

/-- The schemas of two operations, side by side. -/
def Operation.sitePairs (op op' : Operation) : List (SchemaSite × SchemaSite) :=
  (op.parameters.zip op'.parameters).map (fun pair => (pair.1.schema, pair.2.schema)) ++
    op.response.toList.zip op'.response.toList

/-- The schemas of an operation that are others in a second one. -/
def Operation.movedSites (op op' : Operation) : List SchemaSite :=
  ((op.sitePairs op').filter fun pair => pair.1 ≠ pair.2).map (·.1)

theorem Operation.Like.paired {S : SchemaSite → SchemaSite → Prop} {op op' : Operation}
    (h : op.Like S op') :
    op.Like (fun site other => (site, other) ∈ op.sitePairs op' ∧ S site other) op' := by
  have hparameters : List.Forall₂
      (Parameter.Like fun site other => (site, other) ∈ op.sitePairs op' ∧ S site other)
      op.parameters op'.parameters := by
    rw [List.forall₂_iff_zip]
    refine ⟨h.parameters.length_eq, fun {p q} hpair => ?_⟩
    have hlike : p.Like S q := List.forall₂_zip h.parameters hpair
    refine ⟨hlike.name, hlike.location, hlike.required, hlike.description, ?_, hlike.schema⟩
    exact List.mem_append_left _ (List.mem_map_of_mem
      (f := fun pair : Parameter × Parameter => (pair.1.schema, pair.2.schema)) hpair)
  have hresponse : ∀ {x y : Option SchemaSite}, Option.Rel S x y →
      (∀ pair ∈ x.toList.zip y.toList, pair ∈ op.sitePairs op') →
      Option.Rel (fun site other => (site, other) ∈ op.sitePairs op' ∧ S site other) x y := by
    intro x y hrel hpairs
    cases hrel with
    | none => exact .none
    | some hS => exact .some ⟨hpairs _ List.mem_cons_self, hS⟩
  exact {
    id := h.id, path := h.path, method := h.method, group := h.group, summary := h.summary
    description := h.description, security := h.security, parameters := hparameters
    response := hresponse h.response fun _ hpair => List.mem_append_right _ hpair }

theorem operationView_rewrapped {g : Generation} {op op' : Operation}
    (h : op.Like (Rewrapped g.store) op') :
    Run.Near (Deeper g.store g.config (op.movedSites op')) (g.operationView op)
      (g.operationView op') := by
  refine Generation.operationView_near (fun site other hsites => ?_) h.paired
  by_cases hsame : site = other
  · subst hsame
    exact ⟨fun _ _ => .inl rfl, .inl rfl⟩
  · refine hsites.2.interchangeable (List.mem_map.2 ⟨(site, other), ?_, rfl⟩)
    exact List.mem_filter.2 ⟨hsites.1, decide_eq_true hsame⟩

theorem Respelled.ofDetails_agree {document : Value} {pathItem details details' parameter body : Nat}
    {rest : List Value}
    (h : Respelled store document pathItem details details' rest parameter body)
    (shared : List Value) (path : Scalar) (method id : String) :
    Agree (Operation.Like (Rewrapped store))
      (Operation.ofDetails store document shared path pathItem method details id)
      (Operation.ofDetails store document shared path pathItem method details' id) := by
  have hsame : ∀ key, key ∉ ["parameters", "requestBody", "responses"] →
      store.get details key = store.get details' key := h.others
  have hgroup : Operation.groupOf store details = Operation.groupOf store details' := by
    rw [Operation.groupOf, Operation.groupOf, hsame "tags" (by decide)]
  have hsecurity : Operation.securityOf store shared details =
      Operation.securityOf store shared details' := by
    rw [Operation.securityOf, Operation.securityOf, hsame "security" (by decide)]
  have hsummary : Operation.textOf store details "summary" =
      Operation.textOf store details' "summary" := by
    rw [Operation.textOf, Operation.textOf, hsame "summary" (by decide)]
  have hdescription : Operation.textOf store details "description" =
      Operation.textOf store details' "description" := by
    rw [Operation.textOf, Operation.textOf, hsame "description" (by decide)]
  rw [Operation.ofDetails_eq, Operation.ofDetails_eq, hgroup, hsecurity, hsummary, hdescription]
  refine (Agree.refl (fun _ => rfl) _).bind fun group _ hgroups => ?_
  refine h.collect_agree.bind fun parameters parameters' hparameters => ?_
  refine (success_agree h.responses).ofFault.bind fun response response' hresponse => ?_
  refine (Agree.refl (fun _ => rfl) _).bind fun security _ hsecurities => ?_
  subst hgroups hsecurities
  exact ⟨rfl, rfl, rfl, rfl, rfl, rfl, hparameters, hresponse, rfl⟩

/-- The two spellings of an operation are read alike, and where one is written
so is the other. What may differ is the depth at which a schema is found to
contain the parameter or the response in which it stands. -/
theorem spellings_agree {document : Value} {pathItem details details' parameter body : Nat}
    {rest : List Value}
    (h : Respelled store document pathItem details details' rest parameter body) :
    Agree (List.Forall₂ (Parameter.Like (Rewrapped store)))
      (Parameter.collect store (.mapping pathItem) (.mapping details) document)
      (Parameter.collect store (.mapping pathItem) (.mapping details') document) ∧
    Agree (Option.Rel (Rewrapped store)) (Response.success store (.mapping details) document)
      (Response.success store (.mapping details') document) ∧
    (∀ site other, Rewrapped store site other →
      ∀ config, Interchangeable store config (Deeper store config [site]) site other) ∧
    (∀ path method, Operation.baseId store path method details =
      Operation.baseId store path method details') ∧
    ∀ shared path method id,
      Agree (fun op op' => op.Like (Rewrapped store) op' ∧ ∀ g : Generation, g.store = store →
          Run.Near (Deeper store g.config (op.movedSites op'))
            (g.operationView op) (g.operationView op'))
        (Operation.ofDetails store document shared path pathItem method details id)
        (Operation.ofDetails store document shared path pathItem method details' id) := by
  refine ⟨h.collect_agree, success_agree h.responses,
    fun _ _ hsites _ => hsites.interchangeable List.mem_cons_self, ?_, ?_⟩
  · intro path method
    rw [Operation.baseId, Operation.baseId, h.others "operationId" (by decide)]
  intro shared path method id
  refine (h.ofDetails_agree shared path method id).imp fun op op' hlike => ⟨hlike, ?_⟩
  intro g hg
  subst hg
  exact operationView_rewrapped hlike

/-! Two operations in both spellings. The first posts a pet and returns one. -/

/-- The details 2 and 11 are two spellings of one operation. -/
def petBodies : Store where
  sequences := #[[.mapping 1]]
  mappings := #[
    [(.text "type", .text "string")],
    [(.text "name", .text "body"), (.text "in", .text "body"), (.text "required", .bool true),
      (.text "description", .text "A pet"), (.text "schema", .mapping 0)],
    [(.text "parameters", .sequence 0), (.text "responses", .mapping 5)],
    [],
    [(.text "description", .text ""), (.text "schema", .mapping 0)],
    [(.text "200", .mapping 4)],
    [(.text "schema", .mapping 0)],
    [(.text "application/json", .mapping 6)],
    [(.text "required", .bool true), (.text "description", .text "A pet"),
      (.text "content", .mapping 7)],
    [(.text "description", .text ""), (.text "content", .mapping 7)],
    [(.text "200", .mapping 9)],
    [(.text "requestBody", .mapping 8), (.text "responses", .mapping 10)]]

theorem get_of_no_key {store : Store} {id : Nat} {keys : List String} {key : String}
    (hkeys : (store.entries id).map (·.1) = keys.map .text) (h : key ∉ keys) :
    store.get id key = .null := by
  have hnone : (store.entries id).value? key = none := by
    rw [Entries.value?, Option.map_eq_none_iff, List.find?_eq_none]
    intro entry hentry hsame
    have hmem : entry.1 ∈ keys.map Scalar.text := hkeys ▸ List.mem_map_of_mem hentry
    obtain ⟨other, hother, htext⟩ := List.mem_map.1 hmem
    rw [eq_of_beq hsame] at htext
    cases htext
    exact h hother
  rw [Store.get, Entries.get, hnone]
  rfl

theorem petBodies_respelled :
    Respelled petBodies .null 3 2 11 [] 1 8 where
  own := rfl
  own' := rfl
  requestBody := rfl
  requestBody' := rfl
  name := rfl
  location := rfl
  wrapper := ⟨rfl, rfl, fun _ => rfl⟩
  reference := rfl
  required := rfl
  description := rfl
  content := ⟨7, _, 6, rfl, rfl, rfl⟩
  alone := by
    intro shared hshared raw hraw
    cases hshared
    cases hraw
  responses := by
    refine .inr ⟨5, 10, rfl, rfl, .cons ⟨rfl, .inr ⟨4, 9, rfl, rfl, ?_⟩⟩ .nil⟩
    exact ⟨⟨rfl, rfl, fun _ => rfl⟩, by decide, rfl, rfl, 7, _, 6, rfl, rfl, rfl⟩
  others := by
    intro key hkey
    have hfirst : key ∉ ["parameters", "responses"] := fun h => hkey (by simp at h ⊢; tauto)
    have hsecond : key ∉ ["requestBody", "responses"] := fun h => hkey (by simp at h ⊢; tauto)
    rw [get_of_no_key rfl hfirst, get_of_no_key rfl hsecond]

/-- Both spellings have one parameter, of which only the site differs. -/
theorem spellings_agree_of_pet :
    ∃ p p', Parameter.collect petBodies (.mapping 3) (.mapping 2) .null = .ok [p] ∧
      Parameter.collect petBodies (.mapping 3) (.mapping 11) .null = .ok [p'] ∧
      p.Like (Rewrapped petBodies) p' ∧ p.schema ≠ p'.schema := by
  have hagree := (spellings_agree petBodies_respelled).1
  have hfirst : Parameter.collect petBodies (.mapping 3) (.mapping 2) .null =
      .ok [Parameter.ofMapping petBodies "body" "body" 1] := rfl
  have hsecond : Parameter.collect petBodies (.mapping 3) (.mapping 11) .null =
      .ok [Respelled.apart petBodies 1] := rfl
  rw [hfirst, hsecond] at hagree
  refine ⟨_, _, hfirst, hsecond, ?_, by decide⟩
  cases hagree with
  | cons hlike _ => exact hlike

/-- The details 1 and 2 are two spellings of one operation, whose body is the
schema of the parameter that it is. -/
def endlessBodies : Store where
  sequences := #[[.mapping 0]]
  mappings := #[
    [(.text "name", .text "body"), (.text "in", .text "body"), (.text "required", .bool true),
      (.text "description", .text ""), (.text "schema", .mapping 0)],
    [(.text "parameters", .sequence 0)],
    [(.text "requestBody", .mapping 3)],
    [(.text "required", .bool true), (.text "description", .text ""),
      (.text "content", .mapping 4)],
    [(.text "m", .mapping 5)],
    [(.text "schema", .mapping 0)],
    []]

theorem endlessBodies_respelled : Respelled endlessBodies .null 6 1 2 [] 0 3 where
  own := rfl
  own' := rfl
  requestBody := rfl
  requestBody' := rfl
  name := rfl
  location := rfl
  wrapper := ⟨rfl, rfl, fun _ => rfl⟩
  reference := rfl
  required := rfl
  description := rfl
  content := ⟨4, _, 5, rfl, rfl, rfl⟩
  alone := by
    intro shared hshared raw hraw
    cases hshared
    cases hraw
  responses := .inl rfl
  others := by
    intro key hkey
    have hfirst : key ∉ ["parameters"] := fun h => hkey (by simp at h ⊢; tauto)
    have hsecond : key ∉ ["requestBody"] := fun h => hkey (by simp at h ⊢; tauto)
    rw [get_of_no_key rfl hfirst, get_of_no_key rfl hsecond]

/-- A parameter that is its own schema is found out at the first level, and at
the second if it is the schema of a request body. -/
theorem spellings_differ_in_depth :
    ∃ (store : Store) (document : Value) (pathItem details details' parameter body : Nat)
      (p p' : Parameter),
      Respelled store document pathItem details details' [] parameter body ∧
      Parameter.collect store (.mapping pathItem) (.mapping details) document = .ok [p] ∧
      Parameter.collect store (.mapping pathItem) (.mapping details') document = .ok [p'] ∧
      resolve store {} .default {} p.schema = .error (.schema (.cyclic 1 none)) ∧
      resolve store {} .default {} p'.schema = .error (.schema (.cyclic 2 none)) :=
  ⟨endlessBodies, .null, 6, 1, 2, 0, 3, Parameter.ofMapping endlessBodies "body" "body" 0,
    Respelled.apart endlessBodies 0, endlessBodies_respelled, rfl, rfl, rfl, rfl⟩

end TypedClient
