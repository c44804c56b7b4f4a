import TypedClient.Proofs.DocumentTypes
import TypedClient.Proofs.Unfoldings

/-!
# The keys that resolution reads

A schema may carry anything beside what says its type: the name and location of
a parameter, a description, an example. This file says that resolution reads
seven keys of each mapping that it comes to and nothing else, so that a
parameter, a response and a bare schema that agree in the seven are resolved to
the same, and one enum serves all three.

`SameSchema` is the agreement. Four of the keys tell what a schema is, and under
them the two mappings have values of the same tree. Under the other three there
may be a schema again, and there it is enough that the two agree in turn.
Nothing is asked of other keys or of the order of entries. The step that a
descent takes at a mapping is then the same on both sides (`step_alike`), so the
two descents go on in step until both stop. The relation is inductive, which
keeps the guard against cycles out: a chain that comes back to a mapping would
come back below it, too (`SameSchema.not_returns`).
-/

namespace TypedClient

open SchemaSite

variable {store store' : Store} {enterMaps : Bool}

/-- The keys that tell what a schema is. -/
def tellingKeys : List String := ["type", "format", "enum", "$ref"]

/-- Values that agree in the keys that resolution reads: values of the same tree,
and mappings that have values of the same tree under the keys that tell what
they are, and agree in turn under those where a schema may lie. A key that is
not there counts as null. -/
inductive SameSchema (store store' : Store) : Value → Value → Prop
  | same {v v' : Value} (h : SameTree store store' v v') : SameSchema store store' v v'
  | mapping {id id' : Nat}
      (told : ∀ key ∈ tellingKeys, SameTree store store' (store.get id key) (store'.get id' key))
      (nested : ∀ key ∈ nestingKeys,
        SameSchema store store' (store.get id key) (store'.get id' key)) :
      SameSchema store store' (.mapping id) (.mapping id')

namespace SameSchema

variable {v v' : Value}

theorem of_keys {id id' : Nat}
    (htype : SameTree store store' (store.get id "type") (store'.get id' "type"))
    (hformat : SameTree store store' (store.get id "format") (store'.get id' "format"))
    (henum : SameTree store store' (store.get id "enum") (store'.get id' "enum"))
    (href : SameTree store store' (store.get id "$ref") (store'.get id' "$ref"))
    (hschema : SameSchema store store' (store.get id "schema") (store'.get id' "schema"))
    (hitems : SameSchema store store' (store.get id "items") (store'.get id' "items"))
    (hvalues : SameSchema store store' (store.get id "additionalProperties")
      (store'.get id' "additionalProperties")) :
    SameSchema store store' (.mapping id) (.mapping id') := by
  refine .mapping (fun key hkey => ?_) fun key hkey => ?_
  · simp only [tellingKeys, List.mem_cons, List.not_mem_nil, or_false] at hkey
    rcases hkey with rfl | rfl | rfl | rfl
    · exact htype
    · exact hformat
    · exact henum
    · exact href
  · simp only [nestingKeys, List.mem_cons, List.not_mem_nil, or_false] at hkey
    rcases hkey with rfl | rfl | rfl
    · exact hschema
    · exact hitems
    · exact hvalues

theorem symm (h : SameSchema store store' v v') : SameSchema store' store v' v := by
  induction h with
  | same h => exact .same h.symm
  | mapping told _ ih => exact .mapping (fun key hkey => (told key hkey).symm) ih

theorem cases (h : SameSchema store store' v v') :
    (∃ s, v = .scalar s ∧ v' = .scalar s) ∨ (∃ id id', v = .sequence id ∧ v' = .sequence id') ∨
      (∃ id id', v = .mapping id ∧ v' = .mapping id' ∧
        (∀ key ∈ tellingKeys, SameTree store store' (store.get id key) (store'.get id' key)) ∧
        ∀ key ∈ nestingKeys, SameSchema store store' (store.get id key) (store'.get id' key)) ∨
      ∃ kind id id', v = .typed kind id ∧ v' = .typed kind id' := by
  cases h with
  | same h =>
      rcases h.cases with ⟨s, rfl, rfl⟩ | ⟨id, id', rfl, rfl, _⟩ | ⟨id, id', rfl, rfl, _⟩ |
        ⟨kind, id, id', rfl, rfl, _⟩
      · exact .inl ⟨s, rfl, rfl⟩
      · exact .inr (.inl ⟨id, id', rfl, rfl⟩)
      · exact .inr (.inr (.inl ⟨id, id', rfl, rfl, fun key _ => h.get key,
          fun key _ => .same (h.get key)⟩))
      · exact .inr (.inr (.inr ⟨kind, id, id', rfl, rfl⟩))
  | @mapping id id' told nested =>
      exact .inr (.inr (.inl ⟨id, id', rfl, rfl, told, nested⟩))

theorem beq_scalar (h : SameSchema store store' v v') (s : Scalar) :
    (v == .scalar s) = (v' == .scalar s) := by
  rcases h.cases with ⟨s', rfl, rfl⟩ | ⟨id, id', rfl, rfl⟩ | ⟨id, id', rfl, rfl, _⟩ |
    ⟨kind, id, id', rfl, rfl⟩
  · rfl
  all_goals rw [beq_false_of_ne (by simp), beq_false_of_ne (by simp)]

/-- The chain of a schema that agrees with some schema does not come back to it. -/
theorem not_returns (h : SameSchema store store' v v') :
    ¬ Returns store enterMaps (.value v) := by
  induction h with
  | same h => exact h.shaped.not_returns
  | @mapping id id' told nested ih =>
      intro hreturns
      obtain ⟨layer, w, hbelow, hback⟩ := hreturns.below
      obtain ⟨id, key, hkey, hid, rfl⟩ := below?_get hbelow
      cases hid
      exact ih key hkey hback

end SameSchema

/-! ## Leaves

What a leaf is written as depends on the trees of its values. -/

/-- Two leaves that are written alike. -/
structure LeavesAlike (store store' : Store) (leaf leaf' : Leaf) : Prop where
  resolve : ∀ config mode r,
    leaf.resolve store config mode r = leaf'.resolve store' config mode r
  documentType : ∀ config, leaf.documentType config = leaf'.documentType config

/-- Two enums with literals and formats of the same trees. -/
structure EnumsAlike (store store' : Store) (schema schema' : EnumSchema) : Prop where
  literals : List.Forall₂ (SameTree store store') schema.literals schema'.literals
  kind : schema.kind = schema'.kind
  type : schema.type = schema'.type
  format : SameTree store store' schema.format schema'.format

namespace SameTree

variable {v v' : Value}

theorem json (h : SameTree store store' v v') : store.json v = store'.json v' :=
  congrArg Tree.json h.tree

theorem literalText (h : SameTree store store' v v') :
    Naming.literalText store v = Naming.literalText store' v' := by
  have hjson := h.json
  rcases h.cases with ⟨s, rfl, rfl⟩ | ⟨_, _, rfl, rfl, _⟩ | ⟨_, _, rfl, rfl, _⟩ |
    ⟨_, _, _, rfl, rfl, _⟩
  · cases s <;> rfl
  all_goals exact hjson

theorem literal (h : SameTree store store' v v') (kind : EnumKind) :
    kind.literal store v = kind.literal store' v' := by
  have hjson := h.json
  rcases h.cases with ⟨s, rfl, rfl⟩ | ⟨_, _, rfl, rfl, _⟩ | ⟨_, _, rfl, rfl, _⟩ |
    ⟨_, _, _, rfl, rfl, _⟩
  · cases s <;> rfl
  all_goals simp only [EnumKind.literal, hjson]

theorem stringType (h : SameTree store store' v v') :
    TypedClient.stringType v = TypedClient.stringType v' := by
  rcases h.cases with ⟨s, rfl, rfl⟩ | ⟨_, _, rfl, rfl, _⟩ | ⟨_, _, rfl, rfl, _⟩ |
    ⟨kind, _, _, rfl, rfl, _⟩
  · rfl
  · rfl
  · rfl
  · cases kind <;> rfl

end SameTree

theorem EnumsAlike.leaves {schema schema' : EnumSchema}
    (h : EnumsAlike store store' schema schema') :
    LeavesAlike store store' (.enumeration schema) (.enumeration schema') where
  resolve config mode r := by
    have hname : Naming.enumName store schema.literals =
        Naming.enumName store' schema'.literals := by
      rw [Naming.enumName, Naming.enumName,
        mapM_congr₂ (h.literals.imp fun _ _ hsame => hsame.literalText)]
    have hdeclaration : ∀ name, schema.declaration store name =
        schema'.declaration store' name := by
      intro name
      rw [EnumSchema.declaration, EnumSchema.declaration, ← h.kind,
        mapM_congr₂ (h.literals.imp fun _ _ hsame => hsame.literal schema.kind)]
    simp only [Leaf.resolve, EnumSchema.resolve, hname, hdeclaration]
  documentType config := by
    simp only [Leaf.documentType, h.type, primitiveDocType, h.format.stringType]

theorem leavesAlike_primitive (type : String) {format format' : Value}
    (h : SameTree store store' format format') :
    LeavesAlike store store' (.primitive type format) (.primitive type format') where
  resolve config mode r := by simp only [Leaf.resolve, primitiveType, h.stringType]
  documentType config := by simp only [Leaf.documentType, primitiveDocType, h.stringType]

/-! ## Steps -/

/-- Two steps to schemas that agree, through the same layer, or to leaves that
are written alike. -/
inductive StepsAlike (store store' : Store) : Step → Step → Prop
  | enter (layer : Layer) {next next' : Value} (h : SameSchema store store' next next') :
      StepsAlike store store' (.enter layer next) (.enter layer next')
  | stop {leaf leaf' : Leaf} (h : LeavesAlike store store' leaf leaf') :
      StepsAlike store store' (.stop leaf) (.stop leaf')

theorem stepsAlike_stop {leaf : Leaf}
    (hresolve : ∀ config mode r,
      leaf.resolve store config mode r = leaf.resolve store' config mode r) :
    StepsAlike store store' (.stop leaf) (.stop leaf) :=
  .stop ⟨hresolve, fun _ => rfl⟩

section Classification

variable {id id' : Nat}

theorem declaredType_alike (h : SameTree store store' (store.get id "type") (store'.get id' "type")) :
    SchemaNode.declaredType store (store.entries id) =
      SchemaNode.declaredType store' (store'.entries id') := by
  have hdecide : ∀ {v v' : Value}, SameTree store store' v v' →
      (if v == .null || v == .text "" then none else some (store.plain v)) =
        (if v' == .null || v' == .text "" then none else some (store'.plain v')) := by
    intro v v' hsame
    rw [Value.null, Value.text, hsame.beq_scalar, hsame.beq_scalar, hsame.plain]
  -- Of a sequence of types the first other than null counts, and it has one place in both.
  have hfind : ∀ {vs vs' : List Value}, List.Forall₂ (SameTree store store') vs vs' →
      SameTree store store' ((vs.find? (· != .text "null")).getD .null)
        ((vs'.find? (· != .text "null")).getD .null) := by
    intro vs vs' hall
    induction hall with
    | nil => exact .scalar .null
    | cons hfirst _ ih =>
        rw [List.find?_cons, List.find?_cons, bne, bne, Value.text, hfirst.beq_scalar]
        split
        · exact hfirst
        · exact ih
  rw [Store.get, Store.get] at h
  rw [SchemaNode.declaredType, SchemaNode.declaredType]
  rcases h.cases with ⟨s, hv, hv'⟩ | ⟨_, _, hv, hv', hitems⟩ | ⟨_, _, hv, hv', _⟩ |
    ⟨kind, _, _, hv, hv', hitems⟩
  · rw [hv, hv'] at h ⊢
    exact hdecide h
  · rw [hv, hv']
    exact hdecide (hfind hitems)
  · rw [hv, hv'] at h ⊢
    exact hdecide h
  · rw [hv, hv'] at h ⊢
    cases kind with
    | pair => exact hdecide (hfind hitems)
    | set => exact hdecide h

theorem elements_alike {v v' : Value} (h : SameTree store store' v v') :
    List.Forall₂ (SameTree store store') (SchemaNode.elements store v)
      (SchemaNode.elements store' v') := by
  rcases h.cases with ⟨_, rfl, rfl⟩ | ⟨_, _, rfl, rfl, hitems⟩ | ⟨_, _, rfl, rfl, _⟩ |
    ⟨kind, _, _, rfl, rfl, hitems⟩
  · exact .nil
  · exact hitems
  · exact .nil
  · cases kind with
    | pair => exact hitems
    | set => exact .nil

theorem areItemsTyped_alike {v v' : Value} (h : SameSchema store store' v v') :
    SchemaNode.areItemsTyped store v = SchemaNode.areItemsTyped store' v' := by
  rcases h.cases with ⟨_, rfl, rfl⟩ | ⟨_, _, rfl, rfl⟩ | ⟨_, _, rfl, rfl, told, _⟩ |
    ⟨_, _, _, rfl, rfl⟩
  · rfl
  · rfl
  · rw [SchemaNode.areItemsTyped, SchemaNode.areItemsTyped,
      (told "type" (by decide)).truthy, (told "$ref" (by decide)).truthy]
  · rfl

theorem arrayStep_alike {items items' : Value} (h : SameSchema store store' items items') :
    StepsAlike store store' ((SchemaNode.array items).step store enterMaps)
      ((SchemaNode.array items').step store' enterMaps) := by
  rw [SchemaNode.step, SchemaNode.step, areItemsTyped_alike h]
  split
  · exact .enter .array h
  · exact stepsAlike_stop fun _ _ _ => rfl

theorem objectStep_alike {values values' : Value} (h : SameSchema store store' values values') :
    StepsAlike store store'
      ((if values == .null || values == .bool false then .object
        else SchemaNode.map values).step store enterMaps)
      ((if values' == .null || values' == .bool false then .object
        else SchemaNode.map values').step store' enterMaps) := by
  rw [Value.null, Value.bool, h.beq_scalar, h.beq_scalar]
  split
  · exact stepsAlike_stop fun _ _ _ => rfl
  · cases enterMaps with
    | true => exact .enter .map h
    | false => exact stepsAlike_stop fun _ _ _ => rfl

/-- The step at a mapping without an enum. -/
theorem plainStep_alike
    (told : ∀ key ∈ tellingKeys, SameTree store store' (store.get id key) (store'.get id' key))
    (nested : ∀ key ∈ nestingKeys,
      SameSchema store store' (store.get id key) (store'.get id' key)) (type : Option String) :
    StepsAlike store store'
      ((SchemaNode.classifyPlain (store.entries id) type).step store enterMaps)
      ((SchemaNode.classifyPlain (store'.entries id') type).step store' enterMaps) := by
  have href : ((store.entries id).get "$ref").text? = ((store'.entries id').get "$ref").text? :=
    (told "$ref" (by decide)).text?
  have hschema : SameSchema store store' ((store.entries id).get "schema")
      ((store'.entries id').get "schema") := nested "schema" (by decide)
  have hitems : SameSchema store store' ((store.entries id).get "items")
      ((store'.entries id').get "items") := nested "items" (by decide)
  have hvalues : SameSchema store store' ((store.entries id).get "additionalProperties")
      ((store'.entries id').get "additionalProperties") :=
    nested "additionalProperties" (by decide)
  have hformat : SameTree store store' ((store.entries id).get "format")
      ((store'.entries id').get "format") := told "format" (by decide)
  unfold SchemaNode.classifyPlain
  rw [href, Value.isNull, Value.isNull, Value.null, hschema.beq_scalar]
  cases Option.filter (· != "") ((store'.entries id').get "$ref").text? with
  | some target => exact stepsAlike_stop fun _ _ _ => rfl
  | none =>
      cases (store'.entries id').get "schema" == .scalar .null with
      | false => exact .enter .wrapper hschema
      | true =>
          cases type with
          | none => exact stepsAlike_stop fun _ _ _ => rfl
          | some name =>
              by_cases harray : name = "array"
              · subst harray
                exact arrayStep_alike hitems
              by_cases hobject : name = "object"
              · subst hobject
                exact objectStep_alike hvalues
              · simp only [Bool.not_true, Bool.false_eq_true, if_false]
                exact .stop (leavesAlike_primitive name hformat)

end Classification

theorem step_alike {v v' : Value} (h : SameSchema store store' v v') :
    StepsAlike store store' ((SchemaNode.classify store v).step store enterMaps)
      ((SchemaNode.classify store' v').step store' enterMaps) := by
  rcases h.cases with ⟨s, rfl, rfl⟩ | ⟨_, _, rfl, rfl⟩ | ⟨id, id', rfl, rfl, told, nested⟩ |
    ⟨_, _, _, rfl, rfl⟩
  · have hscalar : SchemaNode.classify store (.scalar s) = .absent ∧
        SchemaNode.classify store' (.scalar s) = .absent ∨
        SchemaNode.classify store (.scalar s) = .untyped ∧
        SchemaNode.classify store' (.scalar s) = .untyped := by
      cases s with
      | null => exact .inl ⟨rfl, rfl⟩
      | bool b => cases b <;> simp [SchemaNode.classify]
      | _ => exact .inr ⟨rfl, rfl⟩
    rcases hscalar with ⟨hnode, hnode'⟩ | ⟨hnode, hnode'⟩ <;>
      · rw [hnode, hnode']
        exact stepsAlike_stop fun _ _ _ => rfl
  · exact stepsAlike_stop fun _ _ _ => rfl
  · have hdeclared := declaredType_alike (told "type" (by decide))
    have hliterals := elements_alike (told "enum" (by decide))
    rw [Store.get, Store.get] at hliterals
    simp only [SchemaNode.classify, SchemaNode.classifyEntries, hdeclared]
    generalize SchemaNode.elements store _ = literals,
      SchemaNode.elements store' _ = literals' at hliterals ⊢
    cases hliterals with
    | nil => exact plainStep_alike told nested _
    | cons hfirst hrest =>
        exact .stop (EnumsAlike.leaves
          ⟨.cons hfirst hrest, rfl, rfl, told "format" (by decide)⟩)
  · exact stepsAlike_stop fun _ _ _ => rfl

/-! ## Descents -/

/-- Two descents through the same layers to leaves that are written alike. -/
structure DescentsAlike (store store' : Store) (d d' : Descent) : Prop where
  layers : d.layers = d'.layers
  leaf : LeavesAlike store store' d.leaf d'.leaf

/-- Whether the chain of a value comes to none of some mappings. -/
def Avoids (store : Store) (enterMaps : Bool) (v : Value) (active : List Nat) : Prop :=
  ∀ i id, chain store enterMaps (.value v) i = some (.value (.mapping id)) → id ∉ active

theorem Avoids.not_blocked {v : Value} {active : List Nat} (h : Avoids store enterMaps v active) :
    v.mapping?.any active.contains = false := by
  cases v with
  | mapping id =>
      rw [Value.mapping?, Option.any_some, ← Bool.not_eq_true, List.contains_iff_mem]
      exact h 0 id rfl
  | scalar s | sequence id | typed kind id => rfl

/-- What lies below a value avoids the value, as long as the chain does not return. -/
theorem Avoids.below {v next : Value} {layer : Layer} {active : List Nat}
    (h : Avoids store enterMaps v active) (hreturns : ¬ Returns store enterMaps (.value v))
    (hbelow : below? store enterMaps (.value v) = some (layer, next)) :
    Avoids store enterMaps next (v.mapping?.toList ++ active) := by
  intro i id hi hmem
  rw [← chain_of_below hbelow] at hi
  rcases List.mem_append.1 hmem with hself | hactive
  · obtain ⟨id', _, rfl⟩ := mapping_of_below hbelow
    rw [Value.mapping?, Option.toList_some, List.mem_singleton] at hself
    exact hreturns ⟨i, hself ▸ hi⟩
  · exact h (i + 1) id hi hactive

/-- Descents from schemas that agree go on in step. The induction is on the
levels that are left; neither chain comes to a mapping that it is inside. -/
theorem descend_alike {budget depth : Nat} {active active' : List Nat} {v v' : Value}
    (h : SameSchema store store' v v') (hfree : Avoids store enterMaps v active)
    (hfree' : Avoids store' enterMaps v' active') :
    Agree (DescentsAlike store store') (descend store enterMaps budget active depth v)
      (descend store' enterMaps budget active' depth v') := by
  induction budget generalizing active active' depth v v' with
  | zero => rfl
  | succ budget ih =>
      have hstep : StepsAlike store store' ((SchemaNode.classify store v).step store enterMaps)
          ((SchemaNode.classify store' v').step store' enterMaps) := step_alike h
      -- The guard against cycles holds neither side up, so both take their step.
      rw [descend, descend, hfree.not_blocked, hfree'.not_blocked]
      simp only [Bool.false_eq_true, if_false]
      cases hnode : (SchemaNode.classify store v).step store enterMaps with
      | stop leaf =>
          rw [hnode] at hstep
          cases hnode' : (SchemaNode.classify store' v').step store' enterMaps with
          | stop leaf' =>
              rw [hnode'] at hstep
              cases hstep with
              | stop hleaf => exact ⟨rfl, hleaf⟩
          | enter layer next =>
              rw [hnode'] at hstep
              cases hstep
      | enter layer next =>
          rw [hnode] at hstep
          cases hnode' : (SchemaNode.classify store' v').step store' enterMaps with
          | stop leaf' =>
              rw [hnode'] at hstep
              cases hstep
          | enter layer' next' =>
              rw [hnode'] at hstep
              cases hstep with
              | enter _ hnext =>
                  have hagree : Agree (DescentsAlike store store')
                      (descend store enterMaps budget (v.mapping?.toList ++ active) (depth + 1) next)
                      (descend store' enterMaps budget (v'.mapping?.toList ++ active') (depth + 1)
                        next') :=
                    ih hnext (hfree.below h.not_returns (below?_of_enter hnode))
                      (hfree'.below h.symm.not_returns (below?_of_enter hnode'))
                  exact hagree.bind fun d d' hd => ⟨congrArg (layer :: ·) hd.layers, hd.leaf⟩

/-- Schemas that agree in the seven keys are resolved to the same, with the same
effect on the registry, and have the same name in comments, or both are refused
for the same reason. -/
theorem resolution_ignores_other_keys {v v' : Value} (h : SameSchema store store' v v')
    (config : ResolverConfig) (mode : ResolutionMode) (r : Registry) :
    resolve store config mode r (.value v) = resolve store' config mode r (.value v') ∧
      documentType store config (.value v) = documentType store' config (.value v') := by
  have hdescents : ∀ enterMaps, Agree (DescentsAlike store store')
      (descendSite store enterMaps config.budget (.value v))
      (descendSite store' enterMaps config.budget (.value v')) :=
    fun enterMaps => descend_alike h (by simp [Avoids]) (by simp [Avoids])
  constructor
  · rcases (hdescents true).cases with ⟨e, hd, hd'⟩ | ⟨d, d', hd, hd', hlayers, hleaf⟩
    · rw [resolve_of_error hd, resolve_of_error hd']
    · rw [resolve_of_ok hd, resolve_of_ok hd', hlayers, hleaf.resolve]
  · rcases (hdescents false).cases with ⟨e, hd, hd'⟩ | ⟨d, d', hd, hd', hlayers, hleaf⟩
    · rw [documentType_of_error hd, documentType_of_error hd']
    · rw [documentType_of_ok hd, documentType_of_ok hd', hlayers, hleaf.documentType]

/-- A parameter with an array of switches, which has itself for an example. -/
def switchParameter : Store where
  sequences := #[[.text "on", .text "off"]]
  mappings := #[
    [(.text "enum", .sequence 0), (.text "type", .text "string")],
    [(.text "name", .text "switches"), (.text "in", .text "query"), (.text "type", .text "array"),
      (.text "items", .mapping 0), (.text "example", .mapping 1)]]

/-- A schema of an array of switches. -/
def switchSchema : Store where
  sequences := #[[], [.text "on", .text "off"]]
  mappings := #[
    [(.text "items", .mapping 1), (.text "type", .text "array")],
    [(.text "description", .text "a switch"), (.text "type", .text "string"),
      (.text "enum", .sequence 1)]]

/-- The parameter and the schema have one type, and share one enum. -/
theorem resolution_ignores_other_keys_of_switches :
    SameSchema switchParameter switchSchema (.mapping 1) (.mapping 0) ∧
      resolve switchParameter {} .default {} (.value (.mapping 1)) =
        .ok ⟨"enums.onoff[]", { entries := [("onoff", "export type onoff = 'on' | 'off'")] }, none⟩ ∧
      documentType switchParameter {} (.value (.mapping 1)) = .ok "String[]" := by
  have hswitches : SameTree switchParameter switchSchema (.sequence 0) (.sequence 1) := by
    have hshaped : ∀ {store : Store} {v : Value}, v ∈ [Value.text "on", .text "off"] →
        TreeShaped store v := by
      intro store v hv
      simp only [List.mem_cons, List.not_mem_nil, or_false] at hv
      rcases hv with rfl | rfl <;> exact .scalar _
    exact ⟨.sequence fun _ => hshaped, .sequence fun _ => hshaped, rfl⟩
  have hnull : SameTree switchParameter switchSchema .null .null := .scalar .null
  have hitems : SameSchema switchParameter switchSchema (.mapping 0) (.mapping 1) :=
    .of_keys (.scalar _) hnull hswitches hnull (.same hnull) (.same hnull) (.same hnull)
  have hsame : SameSchema switchParameter switchSchema (.mapping 1) (.mapping 0) :=
    .of_keys (.scalar _) hnull hnull hnull (.same hnull) hitems (.same hnull)
  obtain ⟨htype, hname⟩ := resolution_ignores_other_keys hsame {} .default {}
  refine ⟨hsame, htype.trans ?_, hname.trans ?_⟩
  · decide +kernel
  · decide +kernel

end TypedClient
