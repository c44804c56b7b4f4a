import TypedClient.Proofs.ClientFiles
import TypedClient.Proofs.EnumRegistry

/-!
# References to enums and their declarations

A typed client refers to an enum by a name and declares it in a file of its own,
and the two are written at different ends of a run: the reference when the
schema is resolved, the declaration from the registry after the last schema. Any
schema on the way may derive a name that is taken.

What keeps them together is `Recorded`, which says of a registry and the calls
made so far that each enum met is declared as its own schema declares it, and
that the names stand in the order in which the calls first derived them. One call
preserves it, because a strict registry takes no second declaration of a name;
so does a chain of calls, and the calls of a run are a chain.
-/

namespace TypedClient

namespace Generation

/-- The descent from a site ends at an enum. -/
def EndsAtEnum (g : Generation) (site : SchemaSite) (layers : List Layer)
    (schema : EnumSchema) : Prop :=
  descendSite g.store true g.config.budget site = .ok ⟨layers, .enumeration schema⟩

/-- The name of the enum that a call met, if it met one. -/
def enumName? (g : Generation) (call : Call) : Option String :=
  match descendSite g.store true g.config.budget call.request.site with
  | .ok ⟨_, .enumeration schema⟩ => (Naming.enumName g.store schema.literals).toOption
  | _ => none

/-- What a call that ends at an enum gives: the name that the enum's literals
derive, within the layers of the descent, and the declaration of that name. -/
structure Refers (g : Generation) (call : Call) (layers : List Layer) (schema : EnumSchema)
    (name declaration : String) : Prop where
  named : Naming.enumName g.store schema.literals = .ok name
  declared : schema.declaration g.store name = .ok declaration
  written : call.text = Layer.aroundAll layers ("enums." ++ name)

variable {g : Generation} {r r' : Registry} {call : Call} {layers : List Layer}
  {schema : EnumSchema}

theorem enumName?_eq (hends : g.EndsAtEnum call.request.site layers schema) :
    g.enumName? call = (Naming.enumName g.store schema.literals).toOption := by
  rw [EndsAtEnum] at hends
  rw [enumName?, hends]

theorem enumName?_eq_none (hplain : ∀ layers schema,
    ¬ g.EndsAtEnum call.request.site layers schema) : g.enumName? call = none := by
  rw [enumName?]
  split
  · next layers schema hends => exact absurd hends (hplain layers schema)
  · rfl

theorem enumName?_eq_some {name : String} (h : g.enumName? call = some name) :
    ∃ layers schema, g.EndsAtEnum call.request.site layers schema ∧
      Naming.enumName g.store schema.literals = .ok name := by
  rw [enumName?] at h
  split at h
  · next layers schema hends =>
      refine ⟨layers, schema, hends, ?_⟩
      cases hname : Naming.enumName g.store schema.literals with
      | error e =>
          rw [hname] at h
          cases h
      | ok derived =>
          rw [hname] at h
          cases h
          rfl
  · cases h

/-- What one call does to a strict registry. -/
theorem made_cases (hstrict : r.strict = true) (h : g.Made r call r') :
    (∃ layers schema name declaration, g.EndsAtEnum call.request.site layers schema ∧
      g.Refers call layers schema name declaration ∧ r.Takes name declaration r') ∨
    ((∀ layers schema, ¬ g.EndsAtEnum call.request.site layers schema) ∧ r' = r) := by
  obtain ⟨collision, hresolve⟩ := h
  obtain ⟨d, leaf, hdescent, hleaf, hcall⟩ := resolve_eq_ok.1 hresolve
  rw [Resolution.mk.injEq] at hcall
  obtain ⟨htext, rfl, _⟩ := hcall
  obtain ⟨layers, reached⟩ := d
  by_cases hkind : ∃ schema, reached = .enumeration schema
  · obtain ⟨schema, rfl⟩ := hkind
    obtain ⟨name, declaration, hname, hdeclaration, hwritten, htakes⟩ :=
      enum_resolve_eq_ok hstrict hleaf
    refine .inl ⟨layers, schema, name, declaration, hdescent, ⟨hname, hdeclaration, ?_⟩, htakes⟩
    rw [htext, hwritten]
    rfl
  · refine .inr ⟨fun layers' schema hends => ?_, ?_⟩
    · rw [EndsAtEnum, hdescent, Except.ok.injEq, Descent.mk.injEq] at hends
      exact hkind ⟨schema, hends.2⟩
    · exact leaf_resolve_registry (fun schema hschema => hkind ⟨schema, hschema⟩) hleaf

end Generation

/-! ## The invariant -/

/-- A registry holds what the calls made so far call for. -/
structure Recorded (g : Generation) (r : Registry) (seen : List Call) : Prop where
  strict : r.strict = true
  names : r.names = (seen.filterMap g.enumName?).eraseDups
  sound : ∀ call ∈ seen, ∀ layers schema, g.EndsAtEnum call.request.site layers schema →
    ∃ name declaration, g.Refers call layers schema name declaration ∧
      r.lookup name = some declaration

namespace Recorded

variable {g : Generation} {r r' : Registry} {seen calls : List Call} {call : Call}

theorem empty : Recorded g {} [] :=
  ⟨rfl, rfl, fun _ hcall => absurd hcall List.not_mem_nil⟩

theorem step (h : Recorded g r seen) (hmade : g.Made r call r') :
    Recorded g r' (seen ++ [call]) := by
  rcases Generation.made_cases h.strict hmade with
    ⟨layers, schema, name, declaration, hends, hrefers, htakes⟩ | ⟨hplain, rfl⟩
  · have hname : g.enumName? call = some name := by
      rw [Generation.enumName?_eq hends, hrefers.named]
      rfl
    refine ⟨htakes.strict.trans h.strict, ?_, ?_⟩
    · rw [htakes.names, h.names, List.filterMap_append, List.filterMap_cons_some hname,
        List.filterMap_nil, eraseDups_concat]
      simp only [List.mem_eraseDups]
    · intro other hother layers' schema' hends'
      -- An earlier call keeps its declaration, since taking one never replaces another.
      rcases List.mem_append.1 hother with hbefore | hlast
      · obtain ⟨n, d, hold, hlookup⟩ := h.sound other hbefore layers' schema' hends'
        exact ⟨n, d, hold, htakes.lookup_mono hlookup⟩
      · rw [List.mem_singleton] at hlast
        subst hlast
        rw [Generation.EndsAtEnum, hends, Except.ok.injEq, Descent.mk.injEq,
          Leaf.enumeration.injEq] at hends'
        obtain ⟨rfl, rfl⟩ := hends'
        exact ⟨name, declaration, hrefers, htakes.lookup_self⟩
  · refine ⟨h.strict, ?_, ?_⟩
    · rw [h.names, List.filterMap_append,
        List.filterMap_cons_none (Generation.enumName?_eq_none hplain), List.filterMap_nil,
        List.append_nil]
    · intro other hother layers' schema' hends'
      rcases List.mem_append.1 hother with hbefore | hlast
      · exact h.sound other hbefore layers' schema' hends'
      · rw [List.mem_singleton.1 hlast] at hends'
        exact absurd hends' (hplain layers' schema')

/-- Along a chain of calls the registry keeps up with the calls. -/
theorem run (h : Recorded g r seen) (hcalls : Chain g.Made r calls r') :
    Recorded g r' (seen ++ calls) := by
  induction hcalls generalizing seen with
  | nil => rwa [List.append_nil]
  | cons first _ ih =>
      rw [List.append_cons]
      exact ih (h.step first)

theorem names_nodup (h : Recorded g r seen) : (r.entries.map (·.1)).Nodup := by
  have hnames : r.entries.map (·.1) = (seen.filterMap g.enumName?).eraseDups := h.names
  rw [hnames]
  exact nodup_eraseDups _

end Recorded

/-! ## Whole runs -/

namespace Transcript

variable {g : Generation} {document : Value} {start after : Registry}
  {files : List GeneratedFile}

theorem recorded (t : Transcript g document {} after files) : Recorded g after t.calls :=
  Recorded.empty.run t.made

/-- No module takes the place of the one with the enums. -/
theorem enums_file (t : Transcript g document start after files) (htyped : g.isTyped = true) :
    files.lookup "enums.ts" = some (enumsModule g.format after.declarations) := by
  have hshared : g.sharedWith after =
      [("enums.ts", enumsModule g.format after.declarations),
        ("utils.ts", decoratorsModule g.format)] := by
    rw [Generation.sharedWith, if_pos htyped]
  have hlast : (puts t.assigned).lookup "enums.ts" =
      some (enumsModule g.format after.declarations) := by
    rw [lookup_puts, assigned, Generation.assigned, hshared, List.reverse_append]
    rfl
  rwa [← t.files_eq] at hlast

end Transcript

/-- In a typed client, references to enums and declarations of enums match. A
call that ends at an enum refers to a name that has one declaration, which is the
one of that enum. Every declared name is an identifier and was referred to. The
names stand in the order in which the calls first derived them, and so they do in
the file of enums. -/
theorem enums_referred_iff_declared {g : Generation} {document : Value} {after : Registry}
    {files : List GeneratedFile} {earlier : List (String × String)} (htyped : g.isTyped = true)
    (hrun : g.runClient document { strict := true, entries := earlier } = (.ok files, after)) :
    ∃ t : Transcript g document {} after files,
      t.calls.map (·.request) = t.operations.flatMap Operation.requests ++
        (t.types.map (·.entry)).flatMap g.definitionRequests ∧
      t.calls.map (·.text) =
        t.records.flatMap (fun record => record.view.types record.operation) ++
          t.types.flatMap (·.view.types) ∧
      (∀ call ∈ t.calls, ∀ layers schema, g.EndsAtEnum call.request.site layers schema →
        ∃ name declaration, g.Refers call layers schema name declaration ∧
          after.entries.filter (·.1 = name) = [(name, declaration)]) ∧
      (∀ name ∈ after.names, Naming.isIdentifier name.toList = true ∧
        ∃ call ∈ t.calls, ∃ layers schema declaration,
          g.EndsAtEnum call.request.site layers schema ∧
            g.Refers call layers schema name declaration) ∧
      after.names = (t.calls.filterMap g.enumName?).eraseDups ∧
      files.lookup "enums.ts" = some (enumsModule g.format after.declarations) := by
  have htranscript : Nonempty (Transcript g document {} after files) :=
    transcript_of_runClient hrun
  obtain ⟨t⟩ := htranscript
  have hrecorded := t.recorded
  refine ⟨t, t.calls_requests, t.calls_texts, ?_, ?_, hrecorded.names, t.enums_file htyped⟩
  · intro call hcall layers schema hends
    obtain ⟨name, declaration, hrefers, hlookup⟩ := hrecorded.sound call hcall layers schema hends
    exact ⟨name, declaration, hrefers, filter_key hrecorded.names_nodup (mem_of_lookup hlookup)⟩
  · intro name hname
    rw [hrecorded.names, List.mem_eraseDups, List.mem_filterMap] at hname
    obtain ⟨call, hcall, hsome⟩ := hname
    obtain ⟨layers, schema, hends, hderived⟩ := Generation.enumName?_eq_some hsome
    obtain ⟨derived, declaration, hrefers, _⟩ := hrecorded.sound call hcall layers schema hends
    have hsame : derived = name := Except.ok.inj (hrefers.named.symm.trans hderived)
    subst hsame
    exact ⟨Naming.enumName_isIdentifier hderived, call, hcall, layers, schema, declaration,
      hends, hrefers⟩

/-- The parts of a document with one operation, whose parameter is an enum. -/
def toggleStore : Store where
  sequences := #[[.text "on", .text "off"], [.mapping 0]]
  mappings := #[
    [(.text "name", .text "state"), (.text "type", .text "string"), (.text "enum", .sequence 0)],
    [(.text "operationId", .text "toggle"), (.text "parameters", .sequence 1)],
    [(.text "get", .mapping 1)],
    [(.text "/toggle", .mapping 2)],
    [(.text "paths", .mapping 3)]]

/-- The operation of that document. -/
def toggle : Operation where
  id := "toggle"
  path := "/toggle"
  method := "get"
  group := "default"
  summary := ""
  description := ""
  parameters := [⟨"state", "query", false, "", .value (.mapping 0)⟩]
  response := none
  security := []

theorem toggle_build : Operation.build toggleStore (.mapping 4) = .ok [toggle] := by
  refine Operation.build_eq_ok.2 ⟨[], [(.text "/toggle", .mapping 2)], [toggle], rfl, rfl, ?_,
    (List.mergeSort_singleton toggle).symm⟩
  exact .cons (by rfl) .nil

/-- The parameter of that document is written with a declared name. -/
theorem enums_referred_of_toggle :
    ∃ (files : List GeneratedFile) (after : Registry)
      (t : Transcript { store := toggleStore, options := {} } (.mapping 4) {} after files),
      t.calls.map (·.text) = ["enums.onoff"] ∧ after.names = ["onoff"] := by
  have hsome : (Generation.runClient { store := toggleStore, options := {} } (.mapping 4)
      {}).1.toOption.any (fun _ => true) = true := by
    rw [Generation.runClient, Generation.client, toggle_build]
    decide +kernel
  obtain ⟨files, after, hrun, _⟩ := ok_of_any hsome
  obtain ⟨t, hrequests, _, hsound, _, hnames, _⟩ := enums_referred_iff_declared rfl hrun
  have hoperations : t.operations = [toggle] := Except.ok.inj (t.built.symm.trans toggle_build)
  have htypes : t.types.map (·.entry) = [] := Except.ok.inj (t.defined.symm.trans rfl)
  rw [hoperations, htypes] at hrequests
  obtain ⟨call, hcalls, hrequest⟩ := List.map_eq_singleton_iff.1 hrequests
  have hends : Generation.EndsAtEnum { store := toggleStore, options := {} } call.request.site []
      ⟨[.text "on", .text "off"], .string, some "string", .null⟩ := by
    rw [hrequest]
    rfl
  obtain ⟨name, declaration, hrefers, _⟩ :=
    hsound call (hcalls ▸ List.mem_singleton.2 rfl) _ _ hends
  have hname : name = "onoff" := by
    have hderived : Naming.enumName toggleStore [.text "on", .text "off"] = .ok "onoff" := by
      decide +kernel
    exact Except.ok.inj (hrefers.named.symm.trans hderived)
  subst hname
  refine ⟨files, after, t, ?_, ?_⟩
  · rw [hcalls, List.map_singleton, hrefers.written]
    rfl
  · rw [hnames, hcalls, List.filterMap_cons, Generation.enumName?_eq hends, hrefers.named]
    rfl

end TypedClient
