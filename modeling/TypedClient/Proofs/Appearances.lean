import TypedClient.Proofs.ClientFiles
import TypedClient.Proofs.Layout

/-!
# Appearances

Three options say what a client looks like and nothing else: the language, what
one level of indentation is, and whether statements end with a semicolon. Two
runs that differ in them ask the same questions in the same order, so they get
the same answers, fail alike and leave the same registry. What they write down
of the answers differs in layout if their languages are the same, and otherwise
by which template it is written into; the names of files are in both languages
those of the same groups.

The walk through the generator is made once for all three options, from the
views of parameters up to the table of files: `client_agrees`. The two theorems
at the end read off it what the language and what the layout cannot change.
-/

namespace TypedClient

open Text

/-- What a client looks like: its language, its indentation, and whether
statements are ended. -/
structure Look where
  language : Language
  indent : Indent
  semicolon : Value

namespace Generation

open Run Formatting

/-- A generation of what looks otherwise. -/
def withLook (g : Generation) (look : Look) : Generation :=
  { g with options := { g.options with
      language := look.language, indent := look.indent, semicolon := look.semicolon } }

theorem isTyped_withLook {g : Generation} {look : Look}
    (hlanguage : look.language = g.options.language) :
    (g.withLook look).isTyped = g.isTyped := by
  rw [isTyped, isTyped, ← hlanguage]
  rfl

variable (g : Generation) (look : Look)

theorem format_plain : g.format.Plain := formatting_plain g.store g.options

theorem parameterView_agrees (p : Parameter) :
    Agrees ParameterView.Same (g.parameterView p) ((g.withLook look).parameterView p) := by
  refine (Agrees.refl (fun _ => rfl) (g.typeOf .default p.schema)).bind fun type _ htype => ?_
  refine (Agrees.refl (fun _ => rfl) (g.docTypeOf p.schema)).bind fun docType _ hdocType => ?_
  subst htype hdocType
  have hwords := comment_same g.format_plain (g.withLook look).format_plain p.description
  exact .pure ⟨(g.withLook look).format.comment p.description, by dsimp only, hwords⟩

theorem operationView_agrees (op : Operation) :
    Agrees OperationView.Same (g.operationView op) ((g.withLook look).operationView op) := by
  have hformat := g.format_plain
  have hformat' := (g.withLook look).format_plain
  refine (Agrees.mapM (parameterView_agrees g look) op.parameters).bind
    fun views views' hviews => ?_
  refine (Agrees.refl (fun _ => rfl) (g.returnTypes op.response)).bind fun types _ htypes => ?_
  subst htypes
  obtain ⟨returnType, docReturnType⟩ := types
  have hentries : (g.withLook look).descriptorEntries op views' = g.descriptorEntries op views := by
    rw [descriptorEntries, descriptorEntries,
      ParameterView.map_same ParameterView.descriptor (fun _ _ => rfl) hviews]
    rfl
  rw [hentries]
  refine (Agrees.ofFault (objectLiteral_bare hformat hformat' _)).bind fun _ _ hdescriptor => ?_
  exact .pure {
    id := rfl
    summary := comment_same hformat hformat' op.summary
    description := comment_same hformat hformat' op.description
    parameters := hviews
    returnType := rfl
    docReturnType := rfl
    descriptor := hdescriptor }

/-- The text of the module of a group, where the language is the same. -/
theorem moduleText_bare (hlanguage : look.language = g.options.language) (group : String)
    {views views' : List OperationView} (h : List.Forall₂ OperationView.Same views views') :
    bare (g.moduleText group views) = bare ((g.withLook look).moduleText group views') := by
  have hformat := g.format_plain
  have hformat' := (g.withLook look).format_plain
  have htyped := isTyped_withLook hlanguage
  rw [moduleText, moduleText, htyped, bare_append, bare_append, bare_join, bare_join,
    bare_map (OperationView.descriptorConstant_bare hformat hformat') h]
  split
  · rw [typedOperations_bare hformat hformat' group h]
  · rw [untypedOperations_bare hformat hformat' group h]

theorem typesText_bare (hlanguage : look.language = g.options.language)
    {views views' : List DefinitionView} (h : List.Forall₂ DefinitionView.Same views views') :
    bare (g.typesText views) = bare ((g.withLook look).typesText views') := by
  have htyped := isTyped_withLook hlanguage
  rw [typesText, typesText, htyped]
  split
  · exact typedDefinitions_bare g.format_plain (g.withLook look).format_plain h
  · rw [untypedDefinitions, untypedDefinitions, bare_unlines, bare_unlines, List.map_append,
      List.map_append, bare_flatMap DefinitionView.untyped_bare h]

/-- Texts that say the same if the languages are the same. -/
def Reworded (s t : String) : Prop := look.language = g.options.language → bare s = bare t

theorem operationsModule_agrees (group : String) (operations : List Operation) :
    Agrees (g.Reworded look) (g.operationsModule group operations)
      ((g.withLook look).operationsModule group operations) :=
  (Agrees.mapM (operationView_agrees g look) operations).bind fun _ _ hviews =>
    .pure fun hlanguage => moduleText_bare g look hlanguage group hviews

theorem propertyView_agrees (required : List Scalar) (entry : Scalar × Value) :
    Agrees PropertyView.Same (g.propertyView required entry)
      ((g.withLook look).propertyView required entry) := by
  refine (Agrees.ofFault (description_same g.format_plain (g.withLook look).format_plain _ _)).bind
    fun description description' hdescription => ?_
  refine (Agrees.refl (fun _ => rfl) (g.typeOf .typesModule (.value entry.2))).bind
    fun type _ htype => ?_
  refine (Agrees.refl (fun _ => rfl) (g.docTypeOf (.value entry.2))).bind
    fun docType _ hdocType => ?_
  subst htype hdocType
  exact .pure ⟨description', by dsimp only, hdescription⟩

theorem aliasView_agrees (schema : Value) :
    Agrees DefinitionBody.Same (g.aliasView schema) ((g.withLook look).aliasView schema) := by
  refine (Agrees.refl (fun _ => rfl) (g.typeOf .typesModule (.value schema))).bind
    fun type _ htype => ?_
  refine (Agrees.refl (fun _ => rfl) (g.docTypeOf (.value schema))).bind
    fun docType _ hdocType => ?_
  subst htype hdocType
  exact .pure (.name type docType)

theorem definitionView_agrees (entry : Scalar × Value) :
    Agrees DefinitionView.Same (g.definitionView entry)
      ((g.withLook look).definitionView entry) := by
  obtain ⟨key, schema⟩ := entry
  have halias : ∀ description description', SameWords description description' →
      Agrees DefinitionView.Same (do return ⟨key.plain, description, ← g.aliasView schema⟩)
        (do return ⟨key.plain, description', ← (g.withLook look).aliasView schema⟩) :=
    fun _ _ hdescription => (aliasView_agrees g look schema).bind fun _ _ hbody =>
      .pure ⟨rfl, hdescription, hbody⟩
  cases schema with
  | scalar s | sequence id | typed kind id => exact halias _ _ (.refl "")
  | mapping id =>
      refine (Agrees.ofFault (description_same g.format_plain (g.withLook look).format_plain _
        _)).bind fun description description' hdescription => ?_
      have hstore : (g.withLook look).store = g.store := rfl
      rw [hstore]
      cases g.store.get id "properties" with
      | scalar s | sequence items | typed kind items => exact halias _ _ hdescription
      | mapping properties =>
          refine (Agrees.refl (fun _ => rfl) (ofFault (g.requiredNames id))).bind
            fun required _ hrequired => ?_
          subst hrequired
          exact (Agrees.mapM (propertyView_agrees g look required) _).bind fun _ _ hviews =>
            .pure ⟨rfl, hdescription, .properties hviews⟩

theorem typesModule_agrees (document : Value) :
    Agrees (g.Reworded look) (g.typesModule document) ((g.withLook look).typesModule document) := by
  refine (Agrees.refl (fun _ => rfl) (ofFault (definitions g.store document))).bind
    fun entries _ hentries => ?_
  subst hentries
  exact (Agrees.mapM (definitionView_agrees g look) entries).bind fun _ _ hviews =>
    .pure fun hlanguage => typesText_bare g look hlanguage hviews

theorem specModule_agree (document : Value) :
    Agree (g.Reworded look) (g.specModule document) ((g.withLook look).specModule document) := by
  have hformat := g.format_plain
  have hformat' := (g.withLook look).format_plain
  refine (Agree.refl (fun _ => rfl) (g.apiEntries document)).bind fun entries _ hentries => ?_
  subst hentries
  refine (objectLiteral_bare hformat hformat' entries).bind fun view view' hview => ?_
  intro hlanguage
  have htyped := isTyped_withLook hlanguage
  have hstore : (g.withLook look).store = g.store := rfl
  have hget : (g.withLook look).options.getAuthorization = g.options.getAuthorization := rfl
  have happly : (g.withLook look).options.applyAuthorization = g.options.applyAuthorization := rfl
  simp only [htyped, hstore, hget, happly, bare_unlines, List.map_append, List.map_cons,
    List.map_nil, bare_append, hview, hformat.terminator, hformat'.terminator]

/-! ## Files -/

/-- Files of one stem, which say the same if the languages are the same. -/
def Restyled (file file' : GeneratedFile) : Prop :=
  ∃ stem, file.1 = g.fileName stem ∧ file'.1 = (g.withLook look).fileName stem ∧
    g.Reworded look file.2 file'.2

theorem operationFiles_agrees (groups : List (String × List Operation)) :
    Agrees (List.Forall₂ (g.Restyled look)) (g.operationFiles groups)
      ((g.withLook look).operationFiles groups) := by
  refine Agrees.mapM (fun m => ?_) groups
  obtain ⟨group, operations⟩ := m
  refine (operationsModule_agrees g look group operations).bind fun text text' hwords => ?_
  refine .pure ⟨Operation.moduleName group, ?_⟩
  dsimp only
  exact ⟨rfl, rfl, hwords⟩

/-- What the files of one run have in common with those of another: all but
their layout, if they are in one language, and in any case their stems, as far
as the second client is untyped. -/
structure FilesAlike (files files' : List GeneratedFile) : Prop where
  layout : look.language = g.options.language →
    files.map (Prod.map id bare) = files'.map (Prod.map id bare)
  stems : look.language = .js → ∀ file' ∈ files', ∃ stem,
    file'.1 = (g.withLook look).fileName stem ∧ ∃ file ∈ files, file.1 = g.fileName stem

variable {g look}

theorem Restyled.bare_eq (hlanguage : look.language = g.options.language)
    {files files' : List GeneratedFile} (h : List.Forall₂ (g.Restyled look) files files') :
    files.map (Prod.map id bare) = files'.map (Prod.map id bare) := by
  have hname : ∀ stem, (g.withLook look).fileName stem = g.fileName stem := by
    intro stem
    rw [fileName, fileName, ← hlanguage]
    rfl
  induction h with
  | nil => rfl
  | @cons file file' _ _ hfile _ ih =>
      obtain ⟨stem, hstem, hstem', hwords⟩ := hfile
      have hsame : file.1 = file'.1 := by rw [hstem, hstem', hname]
      rw [List.map_cons, List.map_cons, ih]
      exact congrArg (· :: _) (Prod.ext hsame (hwords hlanguage))

theorem Restyled.names {files files' : List GeneratedFile}
    (h : List.Forall₂ (g.Restyled look) files files') :
    ∃ stems : List String, files.map (·.1) = stems.map g.fileName ∧
      files'.map (·.1) = stems.map (g.withLook look).fileName := by
  induction h with
  | nil => exact ⟨[], rfl, rfl⟩
  | cons hfile _ ih =>
      obtain ⟨stem, hstem, hstem', _⟩ := hfile
      obtain ⟨stems, hstems, hstems'⟩ := ih
      exact ⟨stem :: stems, by rw [List.map_cons, hstem, hstems, List.map_cons],
        by rw [List.map_cons, hstem', hstems', List.map_cons]⟩

theorem mem_putFiles_names {path : String} {files : List GeneratedFile} :
    path ∈ (putFiles files).map (·.1) ↔ path ∈ files.map (·.1) := by
  rw [putFiles_eq_puts, keys_puts, List.mem_eraseDups]

/-- The table of files keeps what the files that are put into it have in common. -/
theorem filesAlike_put {files files' shared shared' : List GeneratedFile}
    (h : List.Forall₂ (g.Restyled look) files files')
    (hshared : look.language = g.options.language →
      shared.map (Prod.map id bare) = shared'.map (Prod.map id bare))
    (huntyped : look.language = .js → shared' = []) :
    g.FilesAlike look (putFiles (files ++ shared)) (putFiles (files' ++ shared')) where
  layout hlanguage := by
    rw [putFiles_eq_puts, putFiles_eq_puts, ← puts_map, ← puts_map, List.map_append,
      List.map_append, Restyled.bare_eq hlanguage h, hshared hlanguage]
  stems hjs file' hfile' := by
    obtain ⟨stems, hstems, hstems'⟩ := Restyled.names h
    have hpath := mem_putFiles_names.1 (List.mem_map_of_mem (f := (·.1)) hfile')
    rw [huntyped hjs, List.append_nil, hstems'] at hpath
    obtain ⟨stem, hstem, hname⟩ := List.mem_map.1 hpath
    have hkept : g.fileName stem ∈ (putFiles (files ++ shared)).map (·.1) := by
      rw [mem_putFiles_names, List.map_append, hstems]
      exact List.mem_append_left _ (List.mem_map_of_mem hstem)
    exact ⟨stem, hname.symm, List.mem_map.1 hkept⟩

theorem sharedFiles_agrees (g : Generation) (look : Look) :
    Agrees (fun shared shared' =>
        (look.language = g.options.language →
          shared.map (Prod.map id bare) = shared'.map (Prod.map id bare)) ∧
        (look.language = .js → shared' = []))
      g.sharedFiles (g.withLook look).sharedFiles := by
  intro r
  have hshared : ∀ h : Generation, h.sharedFiles.run.run r = (.ok (h.sharedWith r), r) :=
    fun h => sharedFiles_yields.2 ⟨rfl, rfl⟩
  rw [hshared, hshared]
  refine ⟨⟨fun hlanguage => ?_, fun hjs => ?_⟩, rfl⟩
  · have htyped := isTyped_withLook hlanguage
    have henums := enumsModule_bare g.format_plain (g.withLook look).format_plain r.declarations
    have hutils := decoratorsModule_bare g.format_plain (g.withLook look).format_plain
    rw [sharedWith, sharedWith, htyped]
    split
    · simp only [List.map_cons, List.map_nil, Prod.map_apply, henums, hutils]
    · rfl
  · have htyped : (g.withLook look).isTyped = false := by
      change (look.language == .ts) = false
      rw [hjs]
      rfl
    rw [sharedWith, htyped]
    rfl

theorem client_agrees (g : Generation) (look : Look) (document : Value) :
    Agrees (g.FilesAlike look) (g.client document) ((g.withLook look).client document) := by
  have hstore : (g.withLook look).store = g.store := rfl
  rw [client, client, hstore]
  refine (Agrees.refl (fun _ => rfl) (ofFault (g.store.member document "paths"))).bind
    fun paths _ hpaths => ?_
  subst hpaths
  cases paths with
  | scalar s | sequence id | typed kind id => exact .refl (fun _ => rfl) (throw pathsMissing)
  | mapping id =>
      refine (Agrees.refl (fun _ => rfl) (modify Registry.reset)).bind fun _ _ _ => ?_
      refine (Agrees.ofFault (specModule_agree g look document)).bind fun spec spec' hspec => ?_
      refine (Agrees.refl (fun _ => rfl) (ofResult (Operation.build g.store document))).bind
        fun operations _ hoperations => ?_
      subst hoperations
      refine (operationFiles_agrees g look _).bind fun modules modules' hmodules => ?_
      refine (typesModule_agrees g look document).bind fun types types' htypes => ?_
      refine (sharedFiles_agrees g look).bind fun shared shared' hshared => ?_
      refine .pure (filesAlike_put (List.rel_append (.cons ?_ hmodules) (.cons ?_ .nil))
        hshared.1 hshared.2)
      · exact ⟨"gateway/spec", rfl, rfl, hspec⟩
      · exact ⟨"types", rfl, rfl, htypes⟩

/-- A generation of a client in a language. -/
def inLanguage (g : Generation) (language : Language) : Generation :=
  { g with options := { g.options with language } }

/-- A generation of code that is indented and ended in some way. -/
def laidOut (g : Generation) (indent : Indent) (semicolon : Value) : Generation :=
  { g with options := { g.options with indent, semicolon } }

end Generation

/-- What is accepted does not depend on the language. A typed and an untyped run
fail for one reason or succeed together, and leave the same registry; and the
typed client has a file of the stem of every file of the untyped one. -/
theorem client_language (g : Generation) (document : Value) (registry : Registry) :
    Agree (fun files files' => ∀ file' ∈ files', ∃ stem,
        file'.1 = stem ++ ".js" ∧ ∃ file ∈ files, file.1 = stem ++ ".ts")
      ((g.inLanguage .ts).runClient document registry).1
      ((g.inLanguage .js).runClient document registry).1 ∧
    ((g.inLanguage .ts).runClient document registry).2 =
      ((g.inLanguage .js).runClient document registry).2 := by
  have hruns := Generation.client_agrees (g.inLanguage .ts)
    ⟨.js, g.options.indent, g.options.semicolon⟩ document registry
  refine ⟨hruns.1.imp fun files files' hfiles file' hfile' => ?_, hruns.2⟩
  obtain ⟨stem, hstem, file, hfile, hname⟩ := hfiles.stems rfl file' hfile'
  have hjs : "." ++ Language.js.name = ".js" := by decide
  have hts : "." ++ Language.ts.name = ".ts" := by decide
  rw [Generation.fileName, String.append_assoc] at hstem hname
  exact ⟨stem, hstem.trans (congrArg (stem ++ ·) hjs), file, hfile,
    hname.trans (congrArg (stem ++ ·) hts)⟩

/-- Indentation and the ends of statements are nothing but layout: whatever they
are, a run fails for the same reason or gives files of the same names in the
same order, and what each of them holds is the same but for spaces, tabs and
semicolons. -/
theorem client_layout (g : Generation) (indent : Indent) (semicolon : Value) (document : Value)
    (registry : Registry) :
    Agree (fun files files' => files.map (·.1) = files'.map (·.1) ∧
        files.map (fun file => bare file.2) = files'.map (fun file => bare file.2))
      (g.runClient document registry).1
      ((g.laidOut indent semicolon).runClient document registry).1 ∧
    (g.runClient document registry).2 =
      ((g.laidOut indent semicolon).runClient document registry).2 := by
  have hruns := Generation.client_agrees g ⟨g.options.language, indent, semicolon⟩ document
    registry
  refine ⟨hruns.1.imp fun files files' hfiles => ?_, hruns.2⟩
  have hlayout := hfiles.layout rfl
  have hnames := congrArg (List.map Prod.fst) hlayout
  have hcontents := congrArg (List.map Prod.snd) hlayout
  simp only [List.map_map] at hnames hcontents
  exact ⟨hnames, hcontents⟩

end TypedClient
