import Mathlib.Data.List.Infix
import TypedClient.Proofs.Catalogue
import TypedClient.Proofs.ClientRuns
import TypedClient.Proofs.NameCharacters
import TypedClient.Proofs.Tables

/-!
# Which files a client has

The files of a run are put into a table by their names, so a file can take the
place of another. The names come from two sources that know nothing of each
other: a module of a group is named by the camel case of the group's slug, and
the modules that every client has are named as they are. Groups are told apart
by their tags, and many tags have one slug.

`ModulesApart` is the condition that nothing is lost: the groups have different
module names, and none of them is one of the fixed modules. The description of
the API is never lost, since its name has a slash and those of modules have none.
-/

namespace TypedClient

/-! ## Parts of texts -/

/-- A text has another one in it. -/
def Contains (s text : String) : Prop := text.toList <:+: s.toList

namespace Contains

variable {s t text : String} {parts : List String}

theorem refl (s : String) : Contains s s := List.infix_rfl

theorem append_left (h : Contains s text) : Contains (s ++ t) text := by
  rw [Contains, String.toList_append]
  exact h.trans (List.prefix_append _ _).isInfix

theorem append_right (h : Contains t text) : Contains (s ++ t) text := by
  rw [Contains, String.toList_append]
  exact h.trans (List.suffix_append _ _).isInfix

theorem join {part : String} (hpart : part ∈ parts) (h : Contains part text) :
    Contains (String.join parts) text := by
  induction parts with
  | nil => cases hpart
  | cons first rest ih =>
      rw [String.join_cons]
      rcases List.mem_cons.1 hpart with rfl | hrest
      · exact h.append_left
      · exact (ih hrest).append_right

theorem intercalate {part : String} (hpart : part ∈ parts) (h : Contains part text) :
    Contains (t.intercalate parts) text := by
  induction parts with
  | nil => cases hpart
  | cons first rest ih =>
      cases rest with
      | nil =>
          rw [List.mem_singleton.1 hpart] at h
          rwa [String.intercalate_singleton]
      | cons second more =>
          rw [String.intercalate_cons_cons]
          rcases List.mem_cons.1 hpart with rfl | hrest
          · exact h.append_left.append_left
          · exact (ih hrest).append_right

end Contains

namespace Generation

variable {g : Generation}

/-- The code of an operation: a method of a class, or a function. -/
def codeOf (g : Generation) (view : OperationView) : String :=
  if g.isTyped then view.method g.format else view.function g.format

theorem moduleText_contains {group : String} {views : List OperationView} {view : OperationView}
    (h : view ∈ views) :
    Contains (g.moduleText group views) (g.codeOf view) ∧
      Contains (g.moduleText group views) (view.descriptorConstant g.format) := by
  constructor
  · refine Contains.append_left ?_
    rw [codeOf]
    split
    · rw [typedOperations]
      exact ((Contains.refl _).intercalate (List.mem_map_of_mem h)).append_right.append_left
    · rw [untypedOperations]
      exact ((Contains.refl _).append_right.join (List.mem_map_of_mem h)).append_right
  · exact ((Contains.refl _).join (List.mem_map_of_mem h)).append_right

/-! ## Names of files -/

/-- The modules of a client that no group stands behind. -/
def fixedModules (g : Generation) : List String :=
  if g.isTyped then ["types", "enums", "utils"] else ["types"]

/-- The names of the modules of groups meet neither each other nor a fixed module. -/
def ModulesApart (g : Generation) (groups : List String) : Prop :=
  (groups.map Operation.moduleName).Nodup ∧
    ∀ group ∈ groups, Operation.moduleName group ∉ g.fixedModules

instance (g : Generation) (groups : List String) : Decidable (g.ModulesApart groups) :=
  inferInstanceAs (Decidable (_ ∧ _))

theorem fileName_injective : Function.Injective g.fileName := by
  intro s t h
  rw [fileName, fileName, String.append_left_inj, String.append_left_inj] at h
  exact h

theorem assigned_names {spec : String} {modules : List GroupRecord}
    {types : List DefinitionRecord} {after : Registry} :
    (g.assigned spec modules types after).map (·.1) =
      ("gateway/spec" :: ((modules.map (·.group)).map Operation.moduleName ++
        g.fixedModules)).map g.fileName := by
  cases htyped : g.isTyped with
  | false => simp [assigned, moduleFile, fixedModules, sharedWith, htyped, Function.comp_def]
  | true =>
      have hlanguage : g.options.language = .ts := by simpa [isTyped] using htyped
      have henums : g.fileName "enums" = "enums.ts" := by
        rw [fileName, hlanguage]
        rfl
      have hutils : g.fileName "utils" = "utils.ts" := by
        rw [fileName, hlanguage]
        rfl
      simp [assigned, moduleFile, fixedModules, sharedWith, htyped, henums, hutils,
        Function.comp_def]

theorem gateway_not_mem (groups : List String) :
    "gateway/spec" ∉ groups.map Operation.moduleName ++ g.fixedModules := by
  rw [List.mem_append, not_or]
  constructor
  · intro hmem
    obtain ⟨group, _, hname⟩ := List.mem_map.1 hmem
    have hslash : '/' ∈ (Operation.moduleName group).toList := by
      rw [hname]
      decide
    exact absurd (Naming.moduleName_alphanum group '/' hslash) (by decide)
  · rw [fixedModules]
    split <;> decide

theorem stems_nodup_iff (groups : List String) :
    ("gateway/spec" :: (groups.map Operation.moduleName ++ g.fixedModules)).Nodup ↔
      g.ModulesApart groups := by
  have hfixed : g.fixedModules.Nodup := by
    rw [fixedModules]
    split <;> decide
  rw [List.nodup_cons, List.nodup_append, ModulesApart]
  constructor
  · intro h
    obtain ⟨_, hgroups, _, happart⟩ := h
    exact ⟨hgroups, fun group hgroup hmem =>
      happart _ (List.mem_map_of_mem hgroup) _ hmem rfl⟩
  · intro h
    obtain ⟨hgroups, happart⟩ := h
    refine ⟨gateway_not_mem groups, hgroups, hfixed, ?_⟩
    rintro name hname other hother rfl
    obtain ⟨group, hgroup, rfl⟩ := List.mem_map.1 hname
    exact happart group hgroup hother

end Generation

/-! ## The table of files -/

theorem putFile_eq_put (path contents : String) (files : List GeneratedFile) :
    putFile path contents files = put path contents files := by
  induction files with
  | nil => rfl
  | cons file rest ih => rw [putFile, put, ih]

/-- The files of a client are a table filled in order. -/
theorem putFiles_eq_puts (files : List GeneratedFile) : putFiles files = puts files := by
  rw [putFiles, puts]
  congr
  funext found file
  exact putFile_eq_put file.1 file.2 found

/-! ## Runs without loss -/

namespace Transcript

variable {g : Generation} {document : Value} {start after : Registry}
  {files : List GeneratedFile}

/-- The tags of the groups that a run was made for. -/
def groups (t : Transcript g document start after files) : List String :=
  (Operation.groups t.operations).map (·.1)

/-- No file of a run takes the place of another, and the code and the
descriptor of every operation are in some file. -/
structure Complete (t : Transcript g document start after files) : Prop where
  distinct : (t.assigned.map (·.1)).Nodup
  kept : ∀ record ∈ t.records, record.view.id = record.operation.id ∧
    ∃ file ∈ files, Contains file.2 (g.codeOf record.view) ∧
      Contains file.2 (record.view.descriptorConstant g.format)

variable (t : Transcript g document start after files)

theorem files_eq : files = puts t.assigned := t.emitted.trans (putFiles_eq_puts _)

theorem groups_eq : t.groups = t.modules.map (·.group) := by
  rw [groups, operations, records, t.grouped, List.map_map]
  rfl

theorem names_nodup_iff : (t.assigned.map (·.1)).Nodup ↔ g.ModulesApart t.groups := by
  rw [assigned, Generation.assigned_names, List.nodup_map_iff Generation.fileName_injective,
    Generation.stems_nodup_iff, t.groups_eq]

theorem view_id : ∀ record ∈ t.records, record.view.id = record.operation.id := by
  intro record hrecord
  obtain ⟨_, _, hview⟩ := t.viewed_of_mem record hrecord
  exact (Generation.operationView_yields hview.view).1

/-- Where names differ, every file stays, and with it what it was made of. -/
theorem complete_of_nodup (h : (t.assigned.map (·.1)).Nodup) : t.Complete := by
  refine ⟨h, fun record hrecord => ⟨t.view_id record hrecord, ?_⟩⟩
  obtain ⟨m, hm, hmember⟩ := List.mem_flatMap.1 hrecord
  have hassigned : g.moduleFile m ∈ t.assigned :=
    List.mem_append_left _ (List.mem_append_left _
      (List.mem_append_right _ (List.mem_map_of_mem hm)))
  have hfile : g.moduleFile m ∈ puts t.assigned := by rwa [puts_eq_self h]
  rw [← t.files_eq] at hfile
  exact ⟨_, hfile, Generation.moduleText_contains (List.mem_map_of_mem hmember)⟩

end Transcript

/-- A run loses no operation if and only if its modules are apart. In any case
its files have the names that were put out, each where it came up first and with
the contents that it was given last. -/
theorem client_complete_iff {g : Generation} {document : Value} {registry after : Registry}
    {files : List GeneratedFile} (hrun : g.runClient document registry = (.ok files, after)) :
    ∃ t : Transcript g document registry.reset after files,
      Operation.build g.store document = .ok t.operations ∧
      files.map (·.1) = (t.assigned.map (·.1)).eraseDups ∧
      (∀ path, files.lookup path = t.assigned.reverse.lookup path) ∧
      (t.Complete ↔ g.ModulesApart t.groups) := by
  obtain ⟨t⟩ := transcript_of_runClient hrun
  have hfiles : puts t.assigned = files := t.files_eq.symm
  refine ⟨t, t.built, ?_, fun path => ?_, ?_⟩
  · rw [← keys_puts, hfiles]
  · rw [← lookup_puts, hfiles]
  · rw [← t.names_nodup_iff]
    exact ⟨fun h => h.distinct, t.complete_of_nodup⟩

/-! Whether a run on a catalogue succeeds is found by running it, once its
operations are known. -/

/-- The untyped client of a catalogue. -/
def catalogueRun (items : List CatalogueItem) : Generation :=
  { store := Catalogue.store items, options := { language := .js } }

theorem catalogue_build (items : List CatalogueItem) (hnames : ∀ item ∈ items, item.name ≠ "")
    (hsorted : (Catalogue.operations items).Pairwise fun a b => Operation.precedes a b = true) :
    Operation.build (catalogueRun items).store (Catalogue.document items) =
      .ok (Catalogue.operations items) := by
  rw [← List.mergeSort_of_pairwise hsorted]
  exact Catalogue.build_eq hnames

/-- With one tag, the modules are apart and nothing is lost. -/
theorem client_complete_of_one_tag :
    ∃ files after, ∃ t : Transcript (catalogueRun [⟨"a", "Pet Store"⟩])
      (Catalogue.document [⟨"a", "Pet Store"⟩]) (Registry.reset {}) after files,
      t.operations.length = 1 ∧ t.Complete := by
  have hbuild := catalogue_build [⟨"a", "Pet Store"⟩] (by simp) (by decide +kernel)
  have hsome : ((catalogueRun [⟨"a", "Pet Store"⟩]).runClient
      (Catalogue.document [⟨"a", "Pet Store"⟩]) {}).1.toOption.any (fun _ => true) = true := by
    rw [Generation.runClient, Generation.client, hbuild]
    decide +kernel
  obtain ⟨files, after, hrun, _⟩ := ok_of_any hsome
  obtain ⟨t, hoperations, _, _, hcomplete⟩ := client_complete_iff hrun
  have hsame : t.operations = Catalogue.operations [⟨"a", "Pet Store"⟩] :=
    Except.ok.inj (hoperations.symm.trans hbuild)
  refine ⟨files, after, t, by rw [hsame]; decide +kernel, hcomplete.2 ?_⟩
  rw [Transcript.groups, hsame]
  decide +kernel

/-- The module of an operation `b` alone. -/
def laterModule : String :=
  "/** @module petStore */\n// Auto-generated, edits will be overwritten\n"
    ++ "import * as gateway from './gateway'\n\n"
    ++ "/**\n * @return \x7bPromise<void>\x7d\n */\nexport function b() \x7b\n"
    ++ "  return gateway.request(bOperation, \x7b\x7d)\n\x7d\n\nconst bOperation = \x7b\n"
    ++ "  'path': '/1',\n  'method': 'get',\n  'parameters': []\n\x7d\n"

/-- Two tags of one slug have one file, which holds the operation of the second. -/
theorem client_loses_operation :
    ∃ (g : Generation) (document : Value) (operations : List Operation)
      (files : List GeneratedFile) (after : Registry),
      Operation.build g.store document = .ok operations ∧ operations.map (·.id) = ["a", "b"] ∧
      g.runClient document {} = (.ok files, after) ∧
      (∀ t : Transcript g document (Registry.reset {}) after files,
        ¬ (t.assigned.map (·.1)).Nodup) ∧
      files.map (·.1) = ["gateway/spec.js", "petStore.js", "types.js"] ∧
      files.lookup "petStore.js" = some laterModule := by
  have hbuild := catalogue_build [⟨"a", "Pet Store"⟩, ⟨"b", "pet_store"⟩] (by simp)
    (by decide +kernel)
  have hsome : ((catalogueRun [⟨"a", "Pet Store"⟩, ⟨"b", "pet_store"⟩]).runClient
      (Catalogue.document [⟨"a", "Pet Store"⟩, ⟨"b", "pet_store"⟩]) {}).1.toOption.any
      (fun files => decide (files.map (·.1) = ["gateway/spec.js", "petStore.js", "types.js"] ∧
        files.lookup "petStore.js" = some laterModule)) = true := by
    rw [Generation.runClient, Generation.client, hbuild]
    decide +kernel
  obtain ⟨files, after, hrun, hfiles⟩ := ok_of_any hsome
  obtain ⟨hnames, htext⟩ := of_decide_eq_true hfiles
  refine ⟨_, _, _, files, after, hbuild, by decide +kernel, hrun, fun t => ?_, hnames, htext⟩
  have hsame := Except.ok.inj (t.built.symm.trans hbuild)
  have hgroups : t.groups = ["Pet Store", "pet_store"] := by
    rw [Transcript.groups, Transcript.operations, Transcript.records, hsame]
    decide +kernel
  rw [t.names_nodup_iff, hgroups]
  decide +kernel

end TypedClient
