import TypedClient.Proofs.ResolutionModes

/-!
# Names in comments follow types

A schema has a type, which the code is written with, and a coarser name, which
stands in comments. The two are written by different rules from different
descents: the one for names stops at a map, the one for types goes on into its
values. Still they go together.

The descents agree until the first map, which is `descend_opened`, the one
induction of this file. Up to there only wrappers and arrays have been passed,
and those are written alike. So the name fails only where the type fails in the
same way, and otherwise both are the same number of brackets after two words,
which stand beside each other in a row of `Counterparts`.

The formats of enums need a word. The name of an enum comes from the type that
it declares, and so looks into its format; the type of an enum does not. An enum
whose format is a container therefore has a type and no name, and is left out.
-/

namespace TypedClient

/-! ## Two descents -/

/-- What a descent into maps comes to where the one that ends at maps comes to a
descent: to the same, unless that ended at a map. -/
inductive Deepens (d : Descent) : Except SchemaError Descent → Prop where
  | same (h : d.leaf ≠ .closedMap) : Deepens d (.ok d)
  | refused (h : d.leaf = .closedMap) (e : SchemaError) : Deepens d (.error e)
  | entered (h : d.leaf = .closedMap) (inner : Descent) :
      Deepens d (.ok ⟨d.layers ++ .map :: inner.layers, inner.leaf⟩)

theorem Deepens.below {d : Descent} {result : Except SchemaError Descent} (layer : Layer)
    (h : Deepens d result) : Deepens (d.below layer) (result.map (.below layer)) := by
  cases h with
  | same h => exact Deepens.same (d := d.below layer) h
  | refused h e => exact Deepens.refused (d := d.below layer) h e
  | entered h inner => exact Deepens.entered (d := d.below layer) h inner

/-- The result of a descent that ends at maps, and of the one that enters them. -/
def Opened (closed opened : Except SchemaError Descent) : Prop :=
  match closed with
  | .error e => opened = .error e
  | .ok d => .map ∉ d.layers ∧ Deepens d opened

theorem Opened.below {closed opened : Except SchemaError Descent} {layer : Layer}
    (hlayer : layer ≠ .map) (h : Opened closed opened) :
    Opened (closed.map (.below layer)) (opened.map (.below layer)) := by
  cases closed with
  | error e =>
      rw [show opened = .error e from h]
      rfl
  | ok d =>
      refine ⟨?_, h.2.below layer⟩
      intro hmem
      rcases List.mem_cons.1 hmem with hmap | hmem
      · exact hlayer hmap.symm
      · exact h.1 hmem

theorem Opened.same {d : Descent} {opened : Except SchemaError Descent}
    (h : Opened (.ok d) opened) (hleaf : d.leaf ≠ .closedMap) : opened = .ok d := by
  cases h.2 with
  | same _ => rfl
  | refused hmap _ => exact absurd hmap hleaf
  | entered hmap _ => exact absurd hmap hleaf

variable {store : Store}

/-- At a map the two descents part, and any other step is a step of both. -/
theorem step_closed (node : SchemaNode) :
    (∃ values, node.step store false = .stop .closedMap ∧
        node.step store true = .enter .map values) ∨
      (node.step store true = node.step store false ∧
        node.step store false ≠ .stop .closedMap ∧
        ∀ next, node.step store false ≠ .enter .map next) := by
  cases node with
  | map values => exact .inl ⟨values, rfl, rfl⟩
  | array items =>
      refine .inr ⟨rfl, ?_, ?_⟩
      · simp only [SchemaNode.step]
        split <;> simp
      · intro next
        simp only [SchemaNode.step]
        split <;> simp
  | _ => exact .inr ⟨rfl, by simp [SchemaNode.step], by simp [SchemaNode.step]⟩

theorem descend_opened (store : Store) :
    ∀ (budget : Nat) (active : List Nat) (depth : Nat) (v : Value),
      Opened (descend store false budget active depth v)
        (descend store true budget active depth v) := by
  intro budget
  induction budget with
  | zero => intro active depth v; rfl
  | succ budget ih =>
      intro active depth v
      rw [descend, descend]
      by_cases hinside : v.mapping?.any active.contains = true
      · rw [if_pos hinside, if_pos hinside]
        rfl
      · rw [if_neg hinside, if_neg hinside]
        rcases step_closed (SchemaNode.classify store v) with
          ⟨values, hclosed, hopened⟩ | ⟨hsame, hleaf, hlayer⟩
        · rw [hclosed, hopened]
          refine ⟨List.not_mem_nil, ?_⟩
          simp only []
          cases descend store true budget (v.mapping?.toList ++ active) (depth + 1) values with
          | error e => exact .refused rfl e
          | ok inner => exact .entered rfl inner
        · rw [hsame]
          cases hstep : (SchemaNode.classify store v).step store false with
          | stop leaf =>
              refine ⟨List.not_mem_nil, .same ?_⟩
              rintro rfl
              exact hleaf hstep
          | enter layer next =>
              have hpassed : layer ≠ .map := by
                rintro rfl
                exact hlayer next hstep
              exact (ih _ _ _).below hpassed

theorem descendSite_opened (store : Store) (budget : Nat) (site : SchemaSite) :
    Opened (descendSite store false budget site) (descendSite store true budget site) := by
  cases site with
  | value v => exact descend_opened store budget [] 0 v
  | content schema =>
      cases budget with
      | zero => rfl
      | succ budget =>
          simp only [descendSite]
          split
          · exact ⟨List.not_mem_nil, .same (by simp)⟩
          · exact (descend_opened store budget [] 1 schema).below (by simp)

/-! ## Brackets -/

/-- The brackets of nested arrays. -/
def brackets (k : Nat) : String := String.join (List.replicate k "[]")

theorem brackets_succ (k : Nat) : brackets (k + 1) = brackets k ++ "[]" := by
  rw [brackets, List.replicate_succ', String.join_append, ← brackets]
  rfl

theorem aroundAll_append (outer inner : List Layer) (type : String) :
    Layer.aroundAll (outer ++ inner) type = Layer.aroundAll outer (Layer.aroundAll inner type) :=
  List.foldr_append

theorem aroundAll_closed {layers : List Layer} (h : .map ∉ layers) (type : String) :
    Layer.aroundAll layers type = type ++ brackets (layers.count .array) := by
  induction layers with
  | nil => exact String.append_empty.symm
  | cons layer rest ih =>
      have hrest := ih fun hmem => h (List.mem_cons_of_mem layer hmem)
      rw [Layer.aroundAll_cons, hrest]
      cases layer with
      | wrapper =>
          have hcount : (Layer.wrapper :: rest).count .array = rest.count .array :=
            List.count_cons_of_ne (by decide)
          rw [hcount]
          rfl
      | array =>
          rw [List.count_cons_self, brackets_succ, ← String.append_assoc]
          rfl
      | map => exact absurd List.mem_cons_self h

/-! ## Words -/

/-- The type of a primitive with this declared type and format, and its name in
comments. -/
inductive PrimitiveWords (format : Value) : String → String → String → Prop where
  | integer : PrimitiveWords format "integer" "Number" "Number"
  | date (h : format = .text "date" ∨ format = .text "date-time") :
      PrimitiveWords format "string" "Date" "Date"
  | text (hdate : format ≠ .text "date") (hmoment : format ≠ .text "date-time") :
      PrimitiveWords format "string" "String" "String"
  | number : PrimitiveWords format "number" "Number" "number"
  | boolean : PrimitiveWords format "boolean" "Boolean" "boolean"
  | other {declared : String} (h : declared ∉ ["integer", "string", "number", "boolean"]) :
      PrimitiveWords format declared declared declared

/-- The type of what a descent that ends at maps comes to, and its name in
comments. -/
inductive Counterparts (store : Store) (config : ResolverConfig) (mode : ResolutionMode) :
    Leaf → String → String → Prop where
  | absent : Counterparts store config mode .absent "Object" "Object"
  | reference {target : String} :
      Counterparts store config mode (.reference target) (referenceType config mode target)
        (qualify config.docTypesNamespace (Naming.referenceName target))
  | enumeration {schema : EnumSchema} {name : String}
      (hname : Naming.enumName store schema.literals = .ok name) (hdeclared : schema.type = none) :
      Counterparts store config mode (.enumeration schema) (qualify config.enumsNamespace name)
        "object"
  | typedEnumeration {schema : EnumSchema} {name declared type word : String}
      (hname : Naming.enumName store schema.literals = .ok name)
      (hdeclared : schema.type = some declared)
      (hword : PrimitiveWords schema.format declared type word) :
      Counterparts store config mode (.enumeration schema) (qualify config.enumsNamespace name)
        word
  | map {values : String} :
      Counterparts store config mode .closedMap ("\x7b[key: string]: " ++ values ++ "\x7d")
        "object"
  | object : Counterparts store config mode .object "Object" "object"
  | untypedArray : Counterparts store config mode .untypedArray "Object[]" "object[]"
  | untyped : Counterparts store config mode .untyped "any" "object"
  | primitive {declared type word : String} {format : Value}
      (hword : PrimitiveWords format declared type word) :
      Counterparts store config mode (.primitive declared format) type word

theorem stringType_words {format : Value} {word : String} (h : stringType format = .ok word) :
    PrimitiveWords format "string" word word := by
  cases format with
  | sequence id => cases h
  | mapping id => cases h
  | typed kind id =>
      cases kind <;> cases h
      exact .text nofun nofun
  | scalar s =>
      by_cases hdate : s = .text "date" ∨ s = .text "date-time"
      · have hword : word = "Date" := by
          rcases hdate with rfl | rfl <;> cases h <;> rfl
        subst hword
        exact .date (hdate.imp (congrArg _) (congrArg _))
      · obtain ⟨hday, hmoment⟩ := not_or.1 hdate
        have hplain : SchemaNode.isDate "string" (.scalar s) = .ok false := by
          simp [SchemaNode.isDate, hday, hmoment]
        rw [stringType, hplain] at h
        cases h
        exact .text (by simpa [Value.text] using hday) (by simpa [Value.text] using hmoment)

theorem primitive_words {declared : String} {format : Value} {word : String}
    (h : primitiveDocType declared format = .ok word) :
    ∃ type, primitiveType declared format = .ok type ∧
      PrimitiveWords format declared type word := by
  by_cases hinteger : declared = "integer"
  · subst hinteger
    cases h
    exact ⟨"Number", rfl, .integer⟩
  by_cases hstring : declared = "string"
  · subst hstring
    exact ⟨word, h, stringType_words h⟩
  rw [primitiveDocType, if_neg hinteger, if_neg hstring] at h
  cases h
  by_cases hnumber : declared = "number"
  · subst hnumber
    exact ⟨"Number", rfl, .number⟩
  by_cases hboolean : declared = "boolean"
  · subst hboolean
    exact ⟨"Boolean", rfl, .boolean⟩
  refine ⟨declared, ?_, .other (by simp [hinteger, hstring, hnumber, hboolean])⟩
  simp [primitiveType, isNumericType, hinteger, hstring, hnumber, hboolean]

theorem stringType_scalar (s : Scalar) : ∃ word, stringType (.scalar s) = .ok word :=
  ⟨_, rfl⟩

/-- Naming a primitive fails only at the format of a text, where its type fails too. -/
theorem primitive_fault {declared : String} {format : Value} {fault : Fault}
    (h : primitiveDocType declared format = .error fault) :
    stringType format = .error fault ∧ primitiveType declared format = .error fault := by
  rw [primitiveDocType] at h
  split at h
  · cases h
  · split at h
    · next hstring =>
        subst hstring
        exact ⟨h, h⟩
    · cases h

/-! ## Leaves -/

variable {config : ResolverConfig} {mode : ResolutionMode} {r : Registry} {resolution : Resolution}
  {leaf : Leaf}

/-- A leaf that has no name has no type either, for the same reason. -/
theorem leaf_documentType_error {f : Failure}
    (hformat : ∀ schema, leaf = .enumeration schema → ∃ s, schema.format = .scalar s)
    (h : leaf.documentType config = .error f) :
    leaf.resolve store config mode r = .error f := by
  cases leaf with
  | enumeration schema =>
      obtain ⟨s, hs⟩ := hformat schema rfl
      obtain ⟨word, hword⟩ := stringType_scalar s
      simp only [Leaf.documentType, hs] at h
      split at h
      · cases h
      · obtain ⟨fault, hfault, -⟩ := ofFault_eq_error.1 h
        rw [(primitive_fault hfault).1] at hword
        cases hword
  | untypedArray =>
      simp only [Leaf.documentType, Leaf.resolve] at h ⊢
      split at h
      · next hstrict =>
          rw [if_pos hstrict]
          cases h
          rfl
      · cases h
  | primitive declared format =>
      obtain ⟨fault, hfault, rfl⟩ := ofFault_eq_error.1 h
      rw [Leaf.resolve, (primitive_fault hfault).2]
      rfl
  | _ => cases h

/-- The type and the name of a leaf at which neither descent goes on. -/
theorem leaf_counterparts {word : String} (hopen : leaf ≠ .closedMap)
    (hresolve : leaf.resolve store config mode r = .ok resolution)
    (hname : leaf.documentType config = .ok word) :
    Counterparts store config mode leaf resolution.text word := by
  cases leaf with
  | enumeration schema =>
      obtain ⟨name, _, hderived, _, htext, _⟩ := enum_resolve_inserts hresolve
      rw [htext]
      rw [Leaf.documentType] at hname
      split at hname
      · next hdeclared =>
          cases hname
          exact .enumeration hderived hdeclared
      · next declared hdeclared =>
          obtain ⟨type, _, hwords⟩ := primitive_words (ofFault_eq_ok.1 hname)
          exact .typedEnumeration hderived hdeclared hwords
  | untypedArray =>
      rw [Leaf.resolve] at hresolve
      rw [Leaf.documentType] at hname
      split at hresolve
      · cases hresolve
      · next hlenient =>
          rw [if_neg hlenient] at hname
          cases hresolve
          cases hname
          exact .untypedArray
  | primitive declared format =>
      obtain ⟨type, htype, hwords⟩ := primitive_words (ofFault_eq_ok.1 hname)
      rw [Leaf.resolve, htype] at hresolve
      cases hresolve
      exact .primitive hwords
  | closedMap => exact absurd rfl hopen
  | absent => cases hresolve; cases hname; exact .absent
  | reference target => cases hresolve; cases hname; exact .reference
  | object => cases hresolve; cases hname; exact .object
  | untyped => cases hresolve; cases hname; exact .untyped

/-! ## Schemas -/

theorem documentType_of_error {site : SchemaSite} {e : SchemaError}
    (h : descendSite store false config.budget site = .error e) :
    documentType store config site = .error (.schema e) := by
  rw [documentType, h]

theorem documentType_of_ok {site : SchemaSite} {d : Descent}
    (h : descendSite store false config.budget site = .ok d) :
    documentType store config site =
      (d.leaf.documentType config).map (Layer.aroundAll d.layers) := by
  rw [documentType, h]
  cases hleaf : d.leaf.documentType config <;> simp only [hleaf] <;> rfl

/-- Where the descent for names comes to a leaf that has no name, the schema has
no type, for the same reason. -/
theorem resolve_error_of_leaf {site : SchemaSite} {d : Descent} {f : Failure}
    (hformat : ∀ schema, d.leaf = .enumeration schema → ∃ s, schema.format = .scalar s)
    (hclosed : descendSite store false config.budget site = .ok d)
    (hname : d.leaf.documentType config = .error f) :
    resolve store config mode r site = .error f := by
  have hleaf : d.leaf ≠ .closedMap := by
    intro h
    rw [h] at hname
    cases hname
  have hopened := descendSite_opened store config.budget site
  rw [hclosed] at hopened
  rw [resolve_of_ok (hopened.same hleaf), leaf_documentType_error hformat hname]
  rfl

/-- Where the descent for names comes to a leaf, the type and the name of the
schema are two words with the same brackets after them. -/
theorem resolve_counterparts {site : SchemaSite} {d : Descent} {word : String}
    (hclosed : descendSite store false config.budget site = .ok d)
    (hresolve : resolve store config mode r site = .ok resolution)
    (hname : d.leaf.documentType config = .ok word) :
    ∃ type, Counterparts store config mode d.leaf type word ∧
      resolution.text = Layer.aroundAll d.layers type := by
  obtain ⟨opened, written, hopened, hleaf, rfl⟩ := resolve_eq_ok.1 hresolve
  have hdeepens := descendSite_opened store config.budget site
  rw [hclosed, hopened] at hdeepens
  cases hdeepens.2 with
  | same h => exact ⟨written.text, leaf_counterparts h hleaf hname, rfl⟩
  | entered h inner =>
      rw [h] at hname ⊢
      cases hname
      have hmap : Counterparts store config mode .closedMap
          (Layer.map.around (Layer.aroundAll inner.layers written.text)) "object" := .map
      exact ⟨_, hmap, aroundAll_append d.layers (.map :: inner.layers) written.text⟩

/-- Names in comments follow types, for every schema, configuration and registry.
A schema that has no name has no type, for the same reason. A schema that has
both has them from one row of `Counterparts`, with the brackets of the arrays
that stand before the first map or leaf. -/
theorem documentType_follows_resolve (store : Store) (config : ResolverConfig)
    (mode : ResolutionMode) (r : Registry) (site : SchemaSite)
    (hformat : ∀ layers schema,
      descendSite store false config.budget site = .ok ⟨layers, .enumeration schema⟩ →
      ∃ s, schema.format = .scalar s) :
    (∀ f, documentType store config site = .error f →
      resolve store config mode r site = .error f) ∧
    ∀ resolution name, resolve store config mode r site = .ok resolution →
      documentType store config site = .ok name →
      ∃ d type word, descendSite store false config.budget site = .ok d ∧
        Counterparts store config mode d.leaf type word ∧
        resolution.text = type ++ brackets (d.layers.count .array) ∧
        name = word ++ brackets (d.layers.count .array) := by
  have hopened := descendSite_opened store config.budget site
  cases hclosed : descendSite store false config.budget site with
  | error e =>
      rw [documentType_of_error hclosed]
      rw [hclosed] at hopened
      refine ⟨?_, fun _ _ _ hname => by cases hname⟩
      intro f hname
      cases hname
      exact resolve_of_error hopened
  | ok d =>
      rw [documentType_of_ok hclosed]
      rw [hclosed] at hopened hformat
      refine ⟨?_, ?_⟩
      · intro f hname
        refine resolve_error_of_leaf (fun schema h => ?_) hclosed (map_eq_error.1 hname)
        exact hformat d.layers schema (by rw [← h])
      · intro resolution name hresolve hname
        obtain ⟨word, hword, rfl⟩ := map_eq_ok.1 hname
        obtain ⟨type, hcounterparts, htext⟩ := resolve_counterparts hclosed hresolve hword
        refine ⟨d, type, word, rfl, hcounterparts, ?_, aroundAll_closed hopened.1 word⟩
        rw [htext, aroundAll_closed hopened.1]

/-- The parts of a document with an array of days. -/
def dayStore : Store where
  sequences := #[[.text "2020-01-31"]]
  mappings := #[
    [(.text "type", .text "array"), (.text "items", .mapping 1)],
    [(.text "type", .text "string"), (.text "format", .text "date"), (.text "enum", .sequence 0)]]

/-- The array of days is written with the enum and named by what the enum declares. -/
theorem documentType_follows_resolve_of_days :
    ∃ d type word, descendSite dayStore false 65 (.value (.mapping 0)) = .ok d ∧
      Counterparts dayStore {} .default d.leaf type word ∧
      "enums._20200131[]" = type ++ brackets (d.layers.count .array) ∧
      "Date[]" = word ++ brackets (d.layers.count .array) := by
  have hdescent : descendSite dayStore false 65 (.value (.mapping 0)) =
      .ok ⟨[.array], .enumeration ⟨[.text "2020-01-31"], .string, some "string", .text "date"⟩⟩ := by
    rfl
  have hformat : ∀ layers schema, descendSite dayStore false 65 (.value (.mapping 0)) =
      .ok ⟨layers, .enumeration schema⟩ → ∃ s, schema.format = .scalar s := by
    intro layers schema h
    rw [hdescent] at h
    cases h
    exact ⟨_, rfl⟩
  have hresolve : (resolve dayStore {} .default {} (.value (.mapping 0))).map (·.text) =
      .ok "enums._20200131[]" := by
    decide +kernel
  obtain ⟨resolution, hresolution, htext⟩ := map_eq_ok.1 hresolve
  have hname : documentType dayStore {} (.value (.mapping 0)) = .ok "Date[]" := by
    decide +kernel
  have h := (documentType_follows_resolve dayStore {} .default {} (.value (.mapping 0)) hformat).2
    resolution _ hresolution hname
  rwa [htext] at h

/-- An enum is written in the namespace that a configuration has for enums, which
need not be called so. -/
theorem enum_in_another_namespace :
    ∃ resolution schema,
      resolve dayStore { enumsNamespace := "kinds" } .default {} (.value (.mapping 1)) =
        .ok resolution ∧
      documentType dayStore { enumsNamespace := "kinds" } (.value (.mapping 1)) = .ok "Date" ∧
      descendSite dayStore false 65 (.value (.mapping 1)) = .ok ⟨[], .enumeration schema⟩ ∧
      schema.format = .text "date" ∧
      Naming.enumName dayStore schema.literals = .ok "_20200131" ∧
      ∀ k, resolution.text ≠ "enums._20200131" ++ brackets k := by
  have hresolve : (resolve dayStore { enumsNamespace := "kinds" } .default {}
      (.value (.mapping 1))).map (·.text) = .ok "kinds._20200131" := by
    decide +kernel
  obtain ⟨resolution, hresolution, htext⟩ := map_eq_ok.1 hresolve
  refine ⟨resolution, _, hresolution, by decide +kernel, rfl, rfl, by decide +kernel, ?_⟩
  intro k h
  rw [htext] at h
  have hfirst := congrArg String.toList h
  rw [String.toList_append] at hfirst
  exact absurd (List.cons.inj hfirst).1 (by decide)

end TypedClient
