import TypedClient.Emit.OperationsModule
import TypedClient.Emit.SharedModules
import TypedClient.Emit.TypesModule
import TypedClient.Proofs.Outcomes

/-!
# Layout

The texts of a client have their layout from two options: what one level of
indentation is, and whether statements end with a semicolon. Here two texts are
compared after deleting what lays code out (`Text.bare`), and every text that the
generator puts together is followed down to the places where layout is put in.

A description is not only written but also tested for being empty, so it matters
too that no formatting makes it empty (`SameWords`). Object literals are the one
place where layout replaces something: pairs of spaces, which are layout
themselves. The views of parameters, operations, properties and definitions are
related field by field, and the texts of related views are the same when bare.
-/

namespace TypedClient

/-! ## Texts without layout -/

namespace Text

/-- Whether a character only lays code out or ends a statement. -/
def isLayout (c : Char) : Bool := c == ' ' || c == '\t' || c == ';'

/-- A text without the spaces, tabs and semicolons in it. -/
def bare (s : String) : String := String.ofList (s.toList.filter fun c => !isLayout c)

theorem bare_append (s t : String) : bare (s ++ t) = bare s ++ bare t := by
  rw [bare, String.toList_append, List.filter_append, String.ofList_append, bare, bare]

theorem bare_join (parts : List String) :
    bare (String.join parts) = String.join (parts.map bare) := by
  induction parts with
  | nil => rfl
  | cons part rest ih =>
      rw [String.join_cons, bare_append, ih, List.map_cons, String.join_cons]

theorem bare_intercalate (separator : String) (parts : List String) :
    bare (separator.intercalate parts) = (bare separator).intercalate (parts.map bare) := by
  induction parts with
  | nil => rfl
  | cons part rest ih =>
      cases rest with
      | nil => rw [List.map_singleton, String.intercalate_singleton, String.intercalate_singleton]
      | cons next more =>
          rw [String.intercalate_cons_cons, bare_append, bare_append, ih]
          exact String.intercalate_cons_cons.symm

theorem bare_unlines (lines : List String) : bare (unlines lines) = unlines (lines.map bare) := by
  have hbreak : bare "\n" = "\n" := by decide
  rw [unlines, bare_join, unlines, List.map_map, List.map_map]
  simp only [Function.comp_def, bare_append, hbreak]

/-- Replacing pairs of spaces by layout changes nothing but layout. -/
theorem filter_replacePair {new : List Char} (hnew : (new.filter fun c => !isLayout c) = [])
    (cs : List Char) :
    ((replacePair ' ' ' ' new cs).filter fun c => !isLayout c) =
      cs.filter fun c => !isLayout c := by
  have hspace : isLayout ' ' = true := by decide
  fun_induction replacePair ' ' ' ' new cs with
  | case1 c d rest hpair ih =>
      simp only [Bool.and_eq_true, decide_eq_true_eq] at hpair
      obtain ⟨rfl, rfl⟩ := hpair
      rw [List.filter_append, hnew, ih]
      simp [hspace]
  | case2 c d rest _ ih => simp only [List.filter_cons, ih]
  | case3 => rfl

/-- Texts of related things say the same where those of each thing do. -/
theorem bare_map {α : Type} {R : α → α → Prop} {f f' : α → String}
    (hf : ∀ a b, R a b → bare (f a) = bare (f' b)) {as bs : List α} (h : List.Forall₂ R as bs) :
    (as.map f).map bare = (bs.map f').map bare := by
  induction h with
  | nil => rfl
  | cons hab _ ih =>
      rw [List.map_cons, List.map_cons, List.map_cons, List.map_cons, hf _ _ hab, ih]

theorem bare_flatMap {α : Type} {R : α → α → Prop} {f f' : α → List String}
    (hf : ∀ a b, R a b → (f a).map bare = (f' b).map bare) {as bs : List α}
    (h : List.Forall₂ R as bs) : (as.flatMap f).map bare = (bs.flatMap f').map bare := by
  induction h with
  | nil => rfl
  | cons hab _ ih =>
      rw [List.flatMap_cons, List.flatMap_cons, List.map_append, List.map_append, hf _ _ hab, ih]

end Text

open Text

/-- Two texts that differ in layout alone, and of which none is empty alone. -/
structure SameWords (s t : String) : Prop where
  bare : bare s = bare t
  empty : s = "" ↔ t = ""

theorem SameWords.refl (s : String) : SameWords s s := ⟨rfl, Iff.rfl⟩

theorem trailing_bare {d d' : String} (h : SameWords d d') :
    bare (trailing d) = bare (trailing d') := by
  rw [trailing, trailing]
  by_cases hempty : d = ""
  · rw [if_pos hempty, if_pos (h.empty.1 hempty)]
  · rw [if_neg hempty, if_neg (mt h.empty.2 hempty), bare_append, bare_append, h.bare]

/-! ## Formattings -/

/-- A formatting that puts in nothing but layout. -/
structure Formatting.Plain (format : Formatting) : Prop where
  unit : bare format.unit = ""
  terminator : bare format.terminator = ""

theorem formatting_plain (store : Store) (options : ClientOptions) :
    (options.formatting store).Plain where
  unit := by
    change bare options.indent.unit = ""
    cases options.indent <;> decide
  terminator := by
    change bare (if store.truthy options.semicolon then ";" else "") = ""
    split <;> decide

namespace Formatting

variable {format format' : Formatting}

theorem comment_empty (format : Formatting) (s : String) :
    format.comment s = "" ↔ trimBlanks s.toList = [] := by
  rw [comment, ← String.toList_inj, String.toList_ofList, String.toList_empty, replaceChar,
    List.flatMap_eq_nil_iff]
  constructor
  · intro h
    refine List.eq_nil_iff_forall_not_mem.2 fun c hc => ?_
    have hnone := h c hc
    split at hnone <;> simp at hnone
  · intro h c hc
    rw [h] at hc
    cases hc

theorem comment_same (h : format.Plain) (h' : format'.Plain) (s : String) :
    SameWords (format.comment s) (format'.comment s) where
  bare := by
    have hmark : (("\n * " ++ format.unit).toList.filter fun c => !isLayout c) =
        ("\n * " ++ format'.unit).toList.filter fun c => !isLayout c := by
      have hunits : bare ("\n * " ++ format.unit) = bare ("\n * " ++ format'.unit) := by
        rw [bare_append, bare_append, h.unit, h'.unit]
      exact String.ofList_inj.1 hunits
    rw [Text.bare, Text.bare, comment, comment, String.toList_ofList, String.toList_ofList,
      replaceChar, replaceChar, List.filter_flatMap, List.filter_flatMap]
    congr 2
    funext c
    split
    · exact hmark
    · rfl
  empty := by rw [comment_empty, comment_empty]

theorem description_same (h : format.Plain) (h' : format'.Plain) (store : Store) (v : Value) :
    Agree SameWords (description store format v) (description store format' v) := by
  unfold description
  split
  · exact SameWords.refl ""
  · cases v with
    | sequence id | typed kind id => rfl
    | mapping id => rfl
    | scalar s =>
        cases s with
        | text s => exact comment_same h h' s
        | _ => rfl

theorem restyle_bare (h : format.Plain) (h' : format'.Plain) (json : String) :
    bare (format.restyle json) = bare (format'.restyle json) := by
  have hnew : ∀ f : Formatting, f.Plain → (f.unit.toList.filter fun c => !isLayout c) = [] :=
    fun f hf => String.ofList_inj.1 hf.unit
  rw [bare, bare, restyle, restyle, String.toList_ofList, String.toList_ofList,
    filter_replacePair (hnew _ h), filter_replacePair (hnew _ h')]

theorem objectLiteral_bare (h : format.Plain) (h' : format'.Plain)
    (entries : List (Scalar × Tree)) :
    Agree (fun s t => bare s = bare t) (format.objectLiteral entries)
      (format'.objectLiteral entries) :=
  (Agree.refl (fun _ => rfl) _).bind fun json _ hjson => by
    subst hjson
    exact restyle_bare h h' json

end Formatting

/-! ## Views -/

/-- Views of one parameter whose descriptions differ in layout at most. -/
def ParameterView.Same (p q : ParameterView) : Prop :=
  ∃ description, q = { p with description } ∧ SameWords p.description description

namespace ParameterView

theorem docLine_bare (p q : ParameterView) (h : p.Same q) : bare p.docLine = bare q.docLine := by
  obtain ⟨description, rfl, hwords⟩ := h
  unfold docLine
  simp only [bare_append, trailing_bare hwords]

/-- Whatever does not mention descriptions is the same for both views. -/
theorem map_same {α : Type} (f : ParameterView → α)
    (hf : ∀ p description, f { p with description } = f p) {ps qs : List ParameterView}
    (h : List.Forall₂ Same ps qs) : ps.map f = qs.map f := by
  induction h with
  | nil => rfl
  | @cons p _ _ _ hpq _ ih =>
      obtain ⟨description, rfl, _⟩ := hpq
      rw [List.map_cons, List.map_cons, ih, hf p description]

end ParameterView

/-- Views of one operation that differ in layout at most. -/
structure OperationView.Same (op op' : OperationView) : Prop where
  id : op.id = op'.id
  summary : SameWords op.summary op'.summary
  description : SameWords op.description op'.description
  parameters : List.Forall₂ ParameterView.Same op.parameters op'.parameters
  returnType : op.returnType = op'.returnType
  docReturnType : op.docReturnType = op'.docReturnType
  descriptor : bare op.descriptor = bare op'.descriptor

namespace OperationView

variable {op op' : OperationView} {format format' : Formatting}

theorem Same.isEmpty (h : op.Same op') : op.parameters.isEmpty = op'.parameters.isEmpty := by
  rw [Bool.eq_iff_iff, List.isEmpty_iff_length_eq_zero, List.isEmpty_iff_length_eq_zero,
    h.parameters.length_eq]

/-- A comment says the same at every indentation. -/
theorem docComment_bare (h : op.Same op') {indent indent' : String} (hindent : bare indent = "")
    (hindent' : bare indent' = "") :
    bare (op.docComment indent) = bare (op'.docComment indent') := by
  have hlines : ∀ {outer : String}, bare outer = "" → ∀ lines : List String,
      (lines.map (outer ++ ·)).map bare = lines.map bare := by
    intro outer houter lines
    rw [List.map_map]
    refine List.map_congr_left fun line _ => ?_
    rw [Function.comp_apply, bare_append, houter, String.empty_append]
  have hsummary : (if op.summary = "" then [] else [" * " ++ op.summary]).map bare =
      (if op'.summary = "" then [] else [" * " ++ op'.summary]).map bare := by
    simp only [h.summary.empty]
    split
    · rfl
    · rw [List.map_singleton, List.map_singleton, bare_append, bare_append, h.summary.bare]
  have hdescription :
      (if op.description = "" then [] else [" *", " * " ++ op.description]).map bare =
      (if op'.description = "" then [] else [" *", " * " ++ op'.description]).map bare := by
    simp only [h.description.empty]
    split
    · rfl
    · simp only [List.map_cons, bare_append, h.description.bare]
  have hparameters :
      (if op.parameters.isEmpty then [] else " *" :: op.parameters.map ParameterView.docLine).map
        bare =
      (if op'.parameters.isEmpty then [] else " *" :: op'.parameters.map ParameterView.docLine).map
        bare := by
    rw [h.isEmpty]
    split
    · rfl
    · rw [List.map_cons, List.map_cons, bare_map ParameterView.docLine_bare h.parameters]
  rw [docComment, docComment, bare_unlines, bare_unlines, hlines hindent, hlines hindent']
  simp only [List.map_append, hsummary, hdescription, hparameters, h.docReturnType]

theorem arguments_same (h : op.Same op') : op.arguments = op'.arguments := by
  rw [arguments, arguments, h.isEmpty,
    ParameterView.map_same (fun p => p.key ++ ": " ++ p.binding) (fun _ _ => rfl) h.parameters]

theorem request_bare (h : op.Same op') (hformat : format.Plain) (hformat' : format'.Plain) :
    bare (op.request format) = bare (op'.request format') := by
  unfold request
  simp only [bare_append, hformat.terminator, hformat'.terminator, h.id, arguments_same h]

theorem method_bare (hformat : format.Plain) (hformat' : format'.Plain)
    (op op' : OperationView) (h : op.Same op') :
    bare (op.method format) = bare (op'.method format') := by
  have hdoc := docComment_bare h hformat.unit hformat'.unit
  have htyped := ParameterView.map_same ParameterView.typed (fun _ _ => rfl) h.parameters
  unfold method
  simp only [bare_append, bare_unlines, List.map_cons, List.map_nil, hdoc, hformat.unit,
    hformat'.unit, request_bare h hformat hformat', h.id, h.returnType, htyped]

theorem function_bare (hformat : format.Plain) (hformat' : format'.Plain)
    (op op' : OperationView) (h : op.Same op') :
    bare (op.function format) = bare (op'.function format') := by
  have hdoc : bare (op.docComment "") = bare (op'.docComment "") := docComment_bare h rfl rfl
  have hbindings := ParameterView.map_same (·.binding) (fun _ _ => rfl) h.parameters
  unfold function
  simp only [bare_append, bare_unlines, List.map_cons, List.map_nil, hdoc, hformat.unit,
    hformat'.unit, request_bare h hformat hformat', h.id, hbindings]

theorem descriptorConstant_bare (hformat : format.Plain) (hformat' : format'.Plain)
    (op op' : OperationView) (h : op.Same op') :
    bare (op.descriptorConstant format) = bare (op'.descriptorConstant format') := by
  unfold descriptorConstant
  simp only [bare_append, h.id, h.descriptor, hformat.terminator,
    hformat'.terminator]

end OperationView

/-- Views of one property whose descriptions differ in layout at most. -/
def PropertyView.Same (p q : PropertyView) : Prop :=
  ∃ description, q = { p with description } ∧ SameWords p.description description

/-- Bodies of one definition whose properties differ in layout at most. -/
inductive DefinitionBody.Same : DefinitionBody → DefinitionBody → Prop where
  | name (type docType : String) : Same (.alias type docType) (.alias type docType)
  | properties {ps qs : List PropertyView} (h : List.Forall₂ PropertyView.Same ps qs) :
      Same (.interface ps) (.interface qs)

/-- Views of one definition that differ in layout at most. -/
structure DefinitionView.Same (d d' : DefinitionView) : Prop where
  name : d.name = d'.name
  description : SameWords d.description d'.description
  body : d.body.Same d'.body

section Definitions

variable {format format' : Formatting}

theorem describedBy_bare {indent indent' : String} (hindent : bare indent = "")
    (hindent' : bare indent' = "") {d d' : String} (h : SameWords d d') :
    (describedBy indent d).map bare = (describedBy indent' d').map bare := by
  simp only [describedBy, h.empty]
  split
  · rfl
  · simp only [List.map_cons, List.map_nil, bare_append, hindent, hindent', h.bare]

theorem PropertyView.typed_bare (hformat : format.Plain) (hformat' : format'.Plain)
    (p q : PropertyView) (h : p.Same q) :
    (p.typed format).map bare = (q.typed format').map bare := by
  obtain ⟨description, rfl, hwords⟩ := h
  have hindent : ∀ f : Formatting, f.Plain → bare (f.unit ++ f.unit) = "" := by
    intro f hf
    rw [bare_append, hf.unit, String.empty_append]
  simp only [typed, List.map_append,
    describedBy_bare (hindent _ hformat) (hindent _ hformat') hwords, List.map_cons, List.map_nil,
    bare_append, hformat.unit, hformat'.unit, hformat.terminator, hformat'.terminator]

theorem PropertyView.docLine_bare (p q : PropertyView) (h : p.Same q) :
    bare p.docLine = bare q.docLine := by
  obtain ⟨description, rfl, hwords⟩ := h
  unfold docLine
  simp only [bare_append, trailing_bare hwords]

theorem DefinitionView.typed_bare (hformat : format.Plain) (hformat' : format'.Plain)
    (d d' : DefinitionView) (h : d.Same d') :
    (d.typed format).map bare = (d'.typed format').map bare := by
  obtain ⟨name, description, body⟩ := d
  obtain ⟨name', description', body'⟩ := d'
  obtain ⟨rfl, hdescription, hbody⟩ := h
  have hcomment := describedBy_bare hformat.unit hformat'.unit hdescription
  cases hbody with
  | name type docType =>
      simp only [typed, List.map_append, hcomment, List.map_cons, List.map_nil, bare_append,
        hformat.unit, hformat'.unit, hformat.terminator, hformat'.terminator]
  | properties hproperties =>
      simp only [typed, List.map_append, hcomment,
        bare_flatMap (PropertyView.typed_bare hformat hformat') hproperties, List.map_cons,
        List.map_nil, bare_append, hformat.unit, hformat'.unit]

theorem DefinitionView.untyped_bare (d d' : DefinitionView) (h : d.Same d') :
    d.untyped.map bare = d'.untyped.map bare := by
  obtain ⟨name, description, body⟩ := d
  obtain ⟨name', description', body'⟩ := d'
  obtain ⟨rfl, hdescription, hbody⟩ := h
  have hcomment : (if description = "" then [] else [" * " ++ description, " *"]).map bare =
      (if description' = "" then [] else [" * " ++ description', " *"]).map bare := by
    simp only [hdescription.empty]
    split
    · rfl
    · simp only [List.map_cons, bare_append, hdescription.bare]
  cases hbody with
  | name type docType => simp only [untyped, List.map_append, hcomment]
  | properties hproperties =>
      simp only [untyped, List.map_append, hcomment,
        bare_map PropertyView.docLine_bare hproperties]

end Definitions

/-! ## Modules -/

section Modules

variable {format format' : Formatting} (hformat : format.Plain) (hformat' : format'.Plain)

include hformat hformat'

theorem typedOperations_bare (group : String) {views views' : List OperationView}
    (h : List.Forall₂ OperationView.Same views views') :
    bare (Generation.typedOperations format group views) =
      bare (Generation.typedOperations format' group views') := by
  simp only [Generation.typedOperations, bare_append, bare_unlines, bare_intercalate,
    List.map_cons, List.map_nil, bare_map (OperationView.method_bare hformat hformat') h,
    hformat.terminator, hformat'.terminator]

theorem untypedOperations_bare (group : String) {views views' : List OperationView}
    (h : List.Forall₂ OperationView.Same views views') :
    bare (Generation.untypedOperations format group views) =
      bare (Generation.untypedOperations format' group views') := by
  have hfunctions : ∀ op op' : OperationView, op.Same op' →
      bare ("\n" ++ op.function format) = bare ("\n" ++ op'.function format') := by
    intro op op' hop
    rw [bare_append, bare_append, OperationView.function_bare hformat hformat' op op' hop]
  simp only [Generation.untypedOperations, bare_append, bare_unlines, bare_join,
    List.map_cons, List.map_nil, bare_map hfunctions h, hformat.terminator, hformat'.terminator]

theorem typedDefinitions_bare {views views' : List DefinitionView}
    (h : List.Forall₂ DefinitionView.Same views views') :
    bare (Generation.typedDefinitions format views) =
      bare (Generation.typedDefinitions format' views') := by
  have hmembers : (specInterface.map fun line =>
        format.unit ++ format.unit ++ line ++ format.terminator).map bare =
      (specInterface.map fun line =>
        format'.unit ++ format'.unit ++ line ++ format'.terminator).map bare := by
    refine bare_map (R := Eq) (fun a b hab => ?_) (List.forall₂_same.2 fun _ _ => rfl)
    rw [hab]
    simp only [bare_append, hformat.unit, hformat'.unit, hformat.terminator, hformat'.terminator]
  simp only [Generation.typedDefinitions, bare_unlines, List.map_append, List.map_cons,
    List.map_nil, hmembers, bare_flatMap (DefinitionView.typed_bare hformat hformat') h,
    bare_append, hformat.unit, hformat'.unit]

theorem enumsModule_bare (declarations : List String) :
    bare (enumsModule format declarations) = bare (enumsModule format' declarations) := by
  have hlines : (declarations.map fun d => format.unit ++ d ++ format.terminator).map bare =
      (declarations.map fun d => format'.unit ++ d ++ format'.terminator).map bare := by
    refine bare_map (R := Eq) (fun d e hde => ?_) (List.forall₂_same.2 fun _ _ => rfl)
    rw [hde]
    simp only [bare_append, hformat.unit, hformat'.unit, hformat.terminator, hformat'.terminator]
  simp only [enumsModule, bare_unlines, List.map_append, hlines]

theorem decoratorsModule_bare :
    bare (decoratorsModule format) = bare (decoratorsModule format') := by
  have hlevels : ∀ f : Formatting, f.Plain → ∀ level,
      bare (String.join (List.replicate level f.unit)) = "" := by
    intro f hf level
    rw [bare_join, List.map_replicate, hf.unit]
    induction level with
    | zero => rfl
    | succ n ih => rw [List.replicate_succ, String.join_cons, ih, String.empty_append]
  rw [decoratorsModule, decoratorsModule, bare_unlines, bare_unlines]
  refine congrArg unlines (bare_map (R := Eq) (fun a b hab => ?_)
    (List.forall₂_same.2 fun _ _ => rfl))
  rw [hab, bare_append, bare_append, hlevels _ hformat, hlevels _ hformat']

end Modules

end TypedClient
