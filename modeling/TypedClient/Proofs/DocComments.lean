import TypedClient.Proofs.ClientFiles
import TypedClient.Proofs.CommentTexts

/-!
# Comments of a client

The modules of operations and of types describe in comments what they declare, in words that come
from the document. These words are laid out, but what ends a comment is left in them as it is. So a
comment ends where it was meant to end if and only if no text of the document that goes into it has
a star followed by a slash (`comments_end_iff`).
-/

namespace TypedClient

/-! ## Operations -/

/-- The lines of the comment of an operation between the first and the last. -/
def OperationView.commentLines (op : OperationView) : List String :=
  (if op.summary = "" then [] else [" * " ++ op.summary])
    ++ (if op.description = "" then [] else [" *", " * " ++ op.description])
    ++ (if op.parameters.isEmpty then [] else " *" :: op.parameters.map ParameterView.docLine)
    ++ [" * @return \x7bPromise<" ++ op.docReturnType ++ ">\x7d"]

theorem OperationView.docComment_eq (op : OperationView) (indent : String) :
    op.docComment indent = indent ++ blockComment indent op.commentLines ++ "\n" := by
  rw [← unlines_comment, docComment, commentLines]
  simp only [List.append_assoc, List.cons_append, List.nil_append]

theorem ParameterView.hasEnd_docLine (p : ParameterView) :
    HasEnd p.docLine ↔ HasEnd p.docType ∨ HasEnd p.binding ∨ HasEnd p.description := by
  have hopening : isFrame " * @param \x7b" = true := by decide +kernel
  unfold docLine
  exact TypedClient.hasEnd_docLine hopening p.required

theorem OperationView.hasEnd_lines (op : OperationView) :
    (∃ line ∈ op.commentLines, HasEnd line) ↔
      HasEnd op.summary ∨ HasEnd op.description ∨
        (∃ p ∈ op.parameters, HasEnd p.docType ∨ HasEnd p.binding ∨ HasEnd p.description) ∨
        HasEnd op.docReturnType := by
  have hstar : ¬ HasEnd " *" := by decide +kernel
  have hsummary : (∃ line ∈ if op.summary = "" then [] else [" * " ++ op.summary],
      HasEnd line) ↔ HasEnd op.summary := by
    split
    · next hempty => simp [hempty, HasEnd.not_empty]
    · simp [HasEnd.prefix_iff (show isFrame " * " = true by decide +kernel)]
  have hdescription : (∃ line ∈ if op.description = "" then [] else
      [" *", " * " ++ op.description], HasEnd line) ↔ HasEnd op.description := by
    split
    · next hempty => simp [hempty, HasEnd.not_empty]
    · simp [HasEnd.prefix_iff (show isFrame " * " = true by decide +kernel), hstar]
  have hparameters : (∃ line ∈ if op.parameters.isEmpty then [] else
      " *" :: op.parameters.map ParameterView.docLine, HasEnd line) ↔
      ∃ p ∈ op.parameters, HasEnd p.docType ∨ HasEnd p.binding ∨ HasEnd p.description := by
    split
    · next hempty => simp [List.isEmpty_iff.1 hempty]
    · simp [hstar, ParameterView.hasEnd_docLine]
  have hreturn : HasEnd (" * @return \x7bPromise<" ++ op.docReturnType ++ ">\x7d") ↔
      HasEnd op.docReturnType := by
    rw [HasEnd.suffix_iff (by decide), HasEnd.prefix_iff (by decide +kernel)]
  simp only [commentLines, List.mem_append, List.mem_singleton, or_and_right, exists_or,
    exists_eq_left, hsummary, hdescription, hparameters, hreturn, or_assoc]

namespace Generation

variable {g : Generation} {r r' : Registry}

open Run

structure DescribesParameter (g : Generation) (p : Parameter) (view : ParameterView) : Prop where
  binding : view.binding = p.binding
  description : view.description = g.format.comment p.description
  docType : documentType g.store g.config p.schema = .ok view.docType

theorem parameterView_describes {p : Parameter} {view : ParameterView}
    (h : (g.parameterView p).Yields r view r') : g.DescribesParameter p view := by
  simp only [parameterView, yields_bind, typeOf_yields, docTypeOf_yields, yields_pure] at h
  obtain ⟨type, m, _, docType, _, ⟨hdocType, rfl⟩, rfl, rfl⟩ := h
  exact ⟨by dsimp only, by dsimp only, hdocType⟩

/-- What a view says of its operation in comments: the texts of the document, laid out, and the types
that schemas have there. Parameters, properties and definitions are described likewise. -/
structure DescribesOperation (g : Generation) (op : Operation) (view : OperationView) : Prop where
  summary : view.summary = g.format.comment op.summary
  description : view.description = g.format.comment op.description
  parameters : List.Forall₂ g.DescribesParameter op.parameters view.parameters
  returned : match op.response with
    | none => view.docReturnType = "void"
    | some site => documentType g.store g.config site = .ok view.docReturnType

theorem operationView_describes {op : Operation} {view : OperationView}
    (h : (g.operationView op).Yields r view r') : g.DescribesOperation op view := by
  simp only [operationView, yields_bind, yields_ofFault, yields_pure, yields_mapM] at h
  obtain ⟨parameters, m, ⟨pairs, hpairs, hin, rfl⟩, types, m', htypes, descriptor, _,
    ⟨_, rfl⟩, rfl, rfl⟩ := h
  refine ⟨by dsimp only, by dsimp only, ?_, ?_⟩
  · rw [hin]
    exact hpairs.related fun _ _ _ => parameterView_describes
  · cases hresponse : op.response with
    | none =>
        rw [hresponse, returnTypes, yields_pure] at htypes
        rw [← htypes.1]
    | some site =>
        simp only [hresponse, returnTypes, yields_bind, typeOf_yields, docTypeOf_yields,
          yields_pure] at htypes
        obtain ⟨_, _, _, docType, _, ⟨hdocType, _⟩, rfl, _⟩ := htypes
        exact hdocType

/-- The texts of the document that go into the comment of an operation and may end it. -/
def operationWords (g : Generation) (op : Operation) : List String :=
  [op.summary, op.description]
    ++ op.parameters.flatMap (fun p => p.description :: declaredWords g.store g.config p.schema)
    ++ op.response.toList.flatMap (declaredWords g.store g.config)

theorem DescribesOperation.hasEnd_iff {op : Operation} {view : OperationView}
    (h : g.DescribesOperation op view) :
    (∃ line ∈ view.commentLines, HasEnd line) ↔ ∃ word ∈ g.operationWords op, HasEnd word := by
  have hparameters : (∃ p ∈ view.parameters,
        HasEnd p.docType ∨ HasEnd p.binding ∨ HasEnd p.description) ↔
      ∃ p ∈ op.parameters, ∃ word ∈ p.description :: declaredWords g.store g.config p.schema,
        HasEnd word := by
    refine (exists_related_iff h.parameters fun p written hp => ?_).symm
    have hbinding : ¬ HasEnd p.binding := fun hend =>
      Naming.slash_not_mem_safeIdentifier _ hend.mem.2
    rw [hp.description, Formatting.hasEnd_comment g.unit_isIndent, hp.binding,
      hasEnd_documentType rfl hp.docType, or_iff_right hbinding, List.exists_mem_cons_iff, or_comm]
  have hreturned : HasEnd view.docReturnType ↔
      ∃ site ∈ op.response.toList, ∃ word ∈ declaredWords g.store g.config site, HasEnd word := by
    have hresponse := h.returned
    split at hresponse
    · next hnone =>
        have hvoid : ¬ HasEnd "void" := by decide +kernel
        rw [hresponse, hnone]
        simp [hvoid]
    · next site hsite =>
        rw [hasEnd_documentType rfl hresponse, hsite]
        simp
  rw [OperationView.hasEnd_lines, h.summary, h.description,
    Formatting.hasEnd_comment g.unit_isIndent, Formatting.hasEnd_comment g.unit_isIndent,
    hparameters, hreturned, operationWords]
  simp only [List.mem_append, or_and_right, exists_or, exists_flatMap_iff,
    List.exists_mem_cons_iff, List.not_mem_nil, false_and, exists_false, or_false, or_assoc]

def operationComment (g : Generation) (view : OperationView) : String :=
  blockComment (if g.isTyped then g.format.unit else "") view.commentLines

theorem DescribesOperation.isComment_iff {op : Operation} {view : OperationView}
    (h : g.DescribesOperation op view) :
    IsComment (g.operationComment view) ↔ ∀ word ∈ g.operationWords op, ¬ HasEnd word := by
  have hindent : IsIndent (if g.isTyped then g.format.unit else "") := by
    split
    · exact g.unit_isIndent
    · exact ⟨by decide, by decide⟩
  rw [operationComment, blockComment_isComment_iff hindent]
  simpa using not_congr h.hasEnd_iff

end Generation

/-! ## Definitions -/

theorem PropertyView.hasEnd_docLine (p : PropertyView) :
    HasEnd p.docLine ↔ HasEnd p.docType ∨ HasEnd p.name ∨ HasEnd p.description := by
  have hopening : isFrame " * @property \x7b" = true := by decide +kernel
  unfold docLine
  exact TypedClient.hasEnd_docLine hopening p.required

def describingComment (indent description : String) : List String :=
  if description = "" then [] else [blockComment indent [" * " ++ description]]

theorem describingComment_iff {indent : String} (h : IsIndent indent) (description : String) :
    (∃ comment ∈ describingComment indent description, ¬ IsComment comment) ↔
      HasEnd description := by
  have hstar : isFrame " * " = true := by decide +kernel
  rw [describingComment]
  split
  · next hempty => simp [hempty, HasEnd.not_empty]
  · simp [blockComment_isComment_iff h, HasEnd.prefix_iff hstar]

namespace DefinitionView

/-- The properties of a definition, of which another name for a type has none. -/
def properties (d : DefinitionView) : List PropertyView :=
  match d.body with
  | .alias _ _ => []
  | .interface properties => properties

/-- The types that a definition is another name for in comments. -/
def docAliases (d : DefinitionView) : List String :=
  match d.body with
  | .alias _ docType => [docType]
  | .interface _ => []

def typedComments (format : Formatting) (d : DefinitionView) : List String :=
  describingComment format.unit d.description ++
    d.properties.flatMap fun p => describingComment (format.unit ++ format.unit) p.description

/-- The lines between the first and the last of the comment of a definition in an untyped client. -/
def commentLines (d : DefinitionView) : List String :=
  (if d.description = "" then [] else [" * " ++ d.description, " *"])
    ++ [" * @typedef " ++ String.join (d.docAliases.map fun type => "\x7b" ++ type ++ "\x7d ")
      ++ d.name, " * @memberof module:types"]
    ++ d.properties.map PropertyView.docLine

theorem typedComments_iff {format : Formatting} (h : IsIndent format.unit) (d : DefinitionView) :
    (∃ comment ∈ d.typedComments format, ¬ IsComment comment) ↔
      HasEnd d.description ∨ ∃ p ∈ d.properties, HasEnd p.description := by
  have hdouble : IsIndent (format.unit ++ format.unit) := by
    constructor <;> rw [String.toList_append, List.mem_append, or_self]
    · exact h.star
    · exact h.slash
  have hproperties : (∃ comment ∈ d.properties.flatMap fun p =>
      describingComment (format.unit ++ format.unit) p.description, ¬ IsComment comment) ↔
      ∃ p ∈ d.properties, HasEnd p.description := by
    rw [exists_flatMap_iff]
    simp only [describingComment_iff hdouble]
  simp only [typedComments, List.mem_append, or_and_right, exists_or, describingComment_iff h,
    hproperties]

theorem hasEnd_lines (d : DefinitionView) :
    (∃ line ∈ d.commentLines, HasEnd line) ↔
      HasEnd d.description ∨ (HasEnd d.name ∨ ∃ type ∈ d.docAliases, HasEnd type) ∨
        ∃ p ∈ d.properties, HasEnd p.docType ∨ HasEnd p.name ∨ HasEnd p.description := by
  have hdescription : (∃ line ∈ if d.description = "" then [] else
      [" * " ++ d.description, " *"], HasEnd line) ↔ HasEnd d.description := by
    have hstar : ¬ HasEnd " *" := by decide +kernel
    split
    · next hempty => simp [hempty, HasEnd.not_empty]
    · simp [HasEnd.prefix_iff (show isFrame " * " = true by decide +kernel), hstar]
  have htypedef : isFrame " * @typedef " = true := by decide +kernel
  have hname : HasEnd (" * @typedef " ++
      String.join (d.docAliases.map fun type => "\x7b" ++ type ++ "\x7d ") ++ d.name) ↔
      HasEnd d.name ∨ ∃ type ∈ d.docAliases, HasEnd type := by
    rw [docAliases]
    match d.body with
    | .interface _ =>
        rw [List.map_nil, String.join_nil, String.append_empty, HasEnd.prefix_iff htypedef]
        simp
    | .alias _ docType =>
        have hparts : " * @typedef " ++ String.join ([docType].map fun type =>
            "\x7b" ++ type ++ "\x7d ") ++ d.name =
            " * @typedef \x7b" ++ docType ++ "\x7d " ++ d.name := by
          rw [← String.toList_inj]
          simp
        have hopening : isFrame " * @typedef \x7b" = true := by decide +kernel
        rw [hparts, HasEnd.between_iff (by decide), HasEnd.prefix_iff hopening, or_comm]
        simp
  have hproperties : (∃ line ∈ d.properties.map PropertyView.docLine, HasEnd line) ↔
      ∃ p ∈ d.properties, HasEnd p.docType ∨ HasEnd p.name ∨ HasEnd p.description := by
    simp [PropertyView.hasEnd_docLine]
  have hmember : ¬ HasEnd " * @memberof module:types" := by decide +kernel
  simp only [commentLines, List.mem_append, List.mem_cons, List.not_mem_nil, or_false,
    or_and_right, exists_or, exists_eq_left, hdescription, hname, hproperties, hmember, or_assoc,
    false_or]

end DefinitionView

namespace Generation

variable {g : Generation} {r r' : Registry}

open Run

structure DescribesProperty (g : Generation) (entry : Scalar × Value) (view : PropertyView) :
    Prop where
  name : view.name = entry.1.plain
  description : g.format.description g.store (g.descriptionOf entry.2) = .ok view.description
  docType : documentType g.store g.config (.value entry.2) = .ok view.docType

theorem propertyView_describes {required : List Scalar} {entry : Scalar × Value}
    {view : PropertyView} (h : (g.propertyView required entry).Yields r view r') :
    g.DescribesProperty entry view := by
  simp only [propertyView, yields_bind, yields_ofFault, typeOf_yields, docTypeOf_yields,
    yields_pure] at h
  obtain ⟨description, _, ⟨hdescription, rfl⟩, type, m, _, docType, _, ⟨hdocType, rfl⟩, rfl, rfl⟩ :=
    h
  exact ⟨by dsimp only, hdescription, hdocType⟩

structure DescribesDefinition (g : Generation) (entry : Scalar × Value) (view : DefinitionView) :
    Prop where
  name : view.name = entry.1.plain
  description : g.format.description g.store (g.descriptionOf entry.2) = .ok view.description
  body : match g.listedProperties entry.2 with
    | none => view.properties = [] ∧ ∃ docType, view.docAliases = [docType] ∧
        documentType g.store g.config (.value entry.2) = .ok docType
    | some properties => view.docAliases = [] ∧
        List.Forall₂ g.DescribesProperty properties view.properties

theorem definitionView_describes {entry : Scalar × Value} {view : DefinitionView}
    (h : (g.definitionView entry).Yields r view r') : g.DescribesDefinition entry view := by
  obtain ⟨hname, hdescription, hbody⟩ := definitionView_cases h
  refine ⟨hname, hdescription, ?_⟩
  rw [DefinitionView.properties, DefinitionView.docAliases]
  cases hlisted : g.listedProperties entry.2 with
  | none =>
      rw [hlisted] at hbody
      obtain ⟨type, docType, hview, _, hdocType⟩ := aliasView_yields hbody
      rw [hview]
      exact ⟨rfl, docType, rfl, hdocType⟩
  | some properties =>
      rw [hlisted] at hbody
      obtain ⟨required, views, hview, hyields⟩ := hbody
      obtain ⟨pairs, hpairs, rfl, rfl⟩ := yields_mapM.1 hyields
      rw [hview]
      exact ⟨rfl, hpairs.related fun _ _ _ => propertyView_describes⟩

/-- The texts of an entry of the document that may end the comment that it is shown in: what
describes it and, in an untyped client, its name. -/
def entryWords (g : Generation) (entry : Scalar × Value) : List String :=
  Formatting.described (g.descriptionOf entry.2) :: (if g.isTyped then [] else [entry.1.plain])

/-- The texts by which a schema may end the comment that its type is shown in. A typed client shows
none, since it has the types of definitions and properties in its code. -/
def typeWords (g : Generation) (schema : Value) : List String :=
  if g.isTyped then [] else declaredWords g.store g.config (.value schema)

/-- The texts of the document that go into the comments of a definition and may end them. -/
def definitionWords (g : Generation) (entry : Scalar × Value) : List String :=
  g.entryWords entry ++ match g.listedProperties entry.2 with
    | none => g.typeWords entry.2
    | some properties => properties.flatMap fun p => g.entryWords p ++ g.typeWords p.2

def definitionComments (g : Generation) (view : DefinitionView) : List String :=
  if g.isTyped then view.typedComments g.format else [blockComment "" view.commentLines]

theorem definitionComments_iff (view : DefinitionView) :
    (∃ comment ∈ g.definitionComments view, ¬ IsComment comment) ↔
      (HasEnd view.description ∨ g.isTyped = false ∧ HasEnd view.name) ∨
        (g.isTyped = false ∧ ∃ type ∈ view.docAliases, HasEnd type) ∨
        ∃ p ∈ view.properties, (HasEnd p.description ∨ g.isTyped = false ∧ HasEnd p.name) ∨
          g.isTyped = false ∧ HasEnd p.docType := by
  have hflush : IsIndent "" := ⟨by decide, by decide⟩
  rw [definitionComments]
  cases g.isTyped with
  | true => simp [DefinitionView.typedComments_iff g.unit_isIndent]
  | false =>
      have hproperty : ∀ p : PropertyView, (HasEnd p.docType ∨ HasEnd p.name ∨
          HasEnd p.description) ↔ (HasEnd p.description ∨ HasEnd p.name) ∨ HasEnd p.docType :=
        fun p => by tauto
      simp only [Bool.false_eq_true, if_false, List.mem_singleton, exists_eq_left,
        blockComment_isComment_iff hflush, not_forall, not_not, exists_prop,
        DefinitionView.hasEnd_lines, hproperty, true_and]
      rw [or_assoc, or_assoc]

theorem exists_untyped_iff (words : List String) :
    (∃ word ∈ if g.isTyped then [] else words, HasEnd word) ↔
      g.isTyped = false ∧ ∃ word ∈ words, HasEnd word := by
  cases g.isTyped <;> simp

theorem entryWords_iff {entry : Scalar × Value} {name description : String}
    (hname : name = entry.1.plain)
    (hdescription : g.format.description g.store (g.descriptionOf entry.2) = .ok description) :
    (HasEnd description ∨ g.isTyped = false ∧ HasEnd name) ↔
      ∃ word ∈ g.entryWords entry, HasEnd word := by
  rw [entryWords, List.exists_mem_cons_iff, exists_untyped_iff, hname,
    Formatting.hasEnd_description g.unit_isIndent hdescription]
  simp

theorem typeWords_iff {schema : Value} {docType : String}
    (h : documentType g.store g.config (.value schema) = .ok docType) :
    (g.isTyped = false ∧ HasEnd docType) ↔ ∃ word ∈ g.typeWords schema, HasEnd word := by
  rw [typeWords, exists_untyped_iff, hasEnd_documentType rfl h]

theorem DescribesDefinition.hasEnd_iff {entry : Scalar × Value} {view : DefinitionView}
    (h : g.DescribesDefinition entry view) :
    (∃ comment ∈ g.definitionComments view, ¬ IsComment comment) ↔
      ∃ word ∈ g.definitionWords entry, HasEnd word := by
  have hbody := h.body
  rw [definitionComments_iff, entryWords_iff h.name h.description, definitionWords]
  simp only [List.mem_append, or_and_right, exists_or]
  apply or_congr_right
  split at hbody
  · next hnone =>
      obtain ⟨hproperties, docType, haliases, hdocType⟩ := hbody
      rw [hproperties, haliases, ← typeWords_iff hdocType]
      simp
  · next properties hlisted =>
      obtain ⟨haliases, hproperties⟩ := hbody
      have hentries : (∃ p ∈ view.properties, (HasEnd p.description ∨ g.isTyped = false ∧
          HasEnd p.name) ∨ g.isTyped = false ∧ HasEnd p.docType) ↔
          ∃ p ∈ properties, ∃ word ∈ g.entryWords p ++ g.typeWords p.2, HasEnd word := by
        refine (exists_related_iff hproperties fun p written hp => ?_).symm
        rw [entryWords_iff hp.name hp.description, typeWords_iff hp.docType]
        simp only [List.mem_append, or_and_right, exists_or]
      rw [haliases, hentries, exists_flatMap_iff]
      simp

end Generation

/-! ## Modules -/

/-- A text has others in it, one after the other. -/
inductive Carries : String → List String → Prop
  | nothing (text : String) : Carries text []
  | part (before text : String) {rest : String} {parts : List String} (h : Carries rest parts) :
    Carries (before ++ text ++ rest) (text :: parts)

namespace Carries

variable {s t : String} {parts others : List String}

theorem self (s : String) : Carries s [s] := by
  have h := part "" s (nothing "")
  rwa [String.empty_append, String.append_empty] at h

theorem after (s : String) (h : Carries t parts) : Carries (s ++ t) parts := by
  cases h with
  | nothing => exact nothing _
  | part before text h =>
      rw [← String.append_assoc, ← String.append_assoc]
      exact part _ _ h

theorem append (hs : Carries s parts) (ht : Carries t others) :
    Carries (s ++ t) (parts ++ others) := by
  induction hs with
  | nothing s => exact ht.after s
  | part before text _ ih =>
      rw [String.append_assoc]
      exact part _ _ ih

theorem before (h : Carries s parts) (t : String) : Carries (s ++ t) parts := by
  have hboth := h.append (nothing t)
  rwa [List.append_nil] at hboth

variable {α : Type} {f : α → String} {carried : α → List String}

theorem join (h : ∀ a, Carries (f a) (carried a)) (as : List α) :
    Carries (String.join (as.map f)) (as.flatMap carried) := by
  induction as with
  | nil => exact nothing _
  | cons a rest ih =>
      rw [List.map_cons, String.join_cons, List.flatMap_cons]
      exact (h a).append ih

theorem intercalate (h : ∀ a, Carries (f a) (carried a)) (as : List α) :
    Carries (t.intercalate (as.map f)) (as.flatMap carried) := by
  induction as with
  | nil => exact nothing _
  | cons a rest ih =>
      cases rest with
      | nil =>
          rw [List.map_singleton, String.intercalate_singleton, List.flatMap_singleton]
          exact h a
      | cons b more =>
          rw [List.map_cons, List.map_cons, String.intercalate_cons_cons, List.flatMap_cons,
            ← List.map_cons]
          exact ((h a).before t).append ih

theorem unlines {lines : α → List String}
    (h : ∀ a, Carries (TypedClient.unlines (lines a)) (carried a)) (as : List α) :
    Carries (TypedClient.unlines (as.flatMap lines)) (as.flatMap carried) := by
  induction as with
  | nil => exact nothing _
  | cons a rest ih =>
      rw [List.flatMap_cons, List.flatMap_cons, unlines_append]
      exact (h a).append ih

theorem comment (indent : String) (lines : List String) :
    Carries (TypedClient.unlines ((["/**"] ++ lines ++ [" */"]).map (indent ++ ·)))
      [blockComment indent lines] := by
  rw [unlines_comment]
  exact ((self _).after _).before _

theorem line (lines more : List String) (text : String) :
    Carries (TypedClient.unlines (lines ++ [text] ++ more)) [text] := by
  rw [unlines_append, unlines_append]
  refine Carries.before (Carries.after _ ?_) _
  have hline : TypedClient.unlines [text] = text ++ "\n" := by simp [TypedClient.unlines]
  rw [hline]
  exact (self text).before _

theorem description (indent description : String) :
    Carries (TypedClient.unlines (describedBy indent description))
      (describingComment indent description) := by
  rw [describedBy, describingComment]
  split
  · exact nothing _
  · rw [String.append_assoc]
    exact comment indent [" * " ++ description]

end Carries

theorem PropertyView.typed_carries (format : Formatting) (p : PropertyView) :
    Carries (unlines (p.typed format))
      (describingComment (format.unit ++ format.unit) p.description) := by
  rw [typed, unlines_append]
  exact (Carries.description _ _).before _

namespace DefinitionView

theorem typed_carries (format : Formatting) (d : DefinitionView) :
    Carries (unlines (d.typed format)) (d.typedComments format) := by
  rw [typed, typedComments, unlines_append, unlines_append]
  refine ((Carries.description _ _).after _).append ?_
  rw [properties]
  match d.body with
  | .alias _ _ => exact .nothing _
  | .interface properties =>
      rw [unlines_append, unlines_append]
      exact ((Carries.unlines (PropertyView.typed_carries format) properties).after _).before _

theorem untyped_carries (d : DefinitionView) :
    Carries (unlines d.untyped) [blockComment "" d.commentLines] := by
  have hlines : d.untyped =
      [""] ++ (["/**"] ++ d.commentLines ++ [" */"]).map ("" ++ ·) := by
    rw [untyped, commentLines, properties, docAliases]
    match d.body with
    | .alias _ _ => simp
    | .interface _ => simp
  rw [hlines, unlines_append]
  exact (Carries.comment _ _).after _

end DefinitionView

namespace Generation

variable (g : Generation)

/-- The comments in the module of a group, in order. -/
def moduleComments (group : String) (views : List OperationView) : List String :=
  moduleComment (Operation.moduleName group) :: views.map g.operationComment

/-- The comments in the module of all types, in order. -/
def typesComments (views : List DefinitionView) : List String :=
  (if g.isTyped then [] else [moduleComment "types"]) ++ views.flatMap g.definitionComments

theorem codeOf_carries (view : OperationView) :
    Carries (g.codeOf view) [g.operationComment view] := by
  rw [codeOf, operationComment]
  split
  · rw [OperationView.method, OperationView.docComment_eq]
    exact (((Carries.self _).after _).before _).before _
  · rw [OperationView.function, OperationView.docComment_eq]
    exact (((Carries.self _).after _).before _).before _

theorem moduleText_carries (group : String) (views : List OperationView) :
    Carries (g.moduleText group views) (g.moduleComments group views) := by
  have hcode := g.codeOf_carries
  have hviews : g.moduleComments group views =
      [moduleComment (Operation.moduleName group)] ++
        views.flatMap fun view => [g.operationComment view] := by
    rw [moduleComments, List.map_eq_flatMap]
    rfl
  rw [moduleText, hviews]
  refine Carries.before ?_ _
  simp only [codeOf] at hcode
  cases htyped : g.isTyped with
  | true =>
      simp only [htyped, if_true] at hcode ⊢
      rw [typedOperations]
      exact ((Carries.line [_] _ _).append (.intercalate hcode views)).before _
  | false =>
      simp only [htyped, Bool.false_eq_true, if_false] at hcode ⊢
      rw [untypedOperations]
      exact (Carries.line [] _ _).append (.join (fun view => (hcode view).after _) views)

theorem typesText_carries (views : List DefinitionView) :
    Carries (g.typesText views) (g.typesComments views) := by
  have hdefinition : ∀ view, Carries
      (unlines (if g.isTyped then view.typed g.format else view.untyped))
      (g.definitionComments view) := by
    intro view
    rw [definitionComments]
    split
    · exact view.typed_carries g.format
    · exact view.untyped_carries
  rw [typesText, typesComments]
  cases htyped : g.isTyped with
  | true =>
      simp only [htyped, if_true] at hdefinition ⊢
      rw [typedDefinitions, unlines_append, unlines_append]
      exact ((Carries.unlines hdefinition views).after _).before _
  | false =>
      simp only [htyped, Bool.false_eq_true, if_false] at hdefinition ⊢
      rw [untypedDefinitions, unlines_append]
      exact (Carries.line [] [_] _).append (.unlines hdefinition views)

end Generation

/-! ## Runs -/

namespace Transcript

variable {g : Generation} {document : Value} {start after : Registry}
  {files : List GeneratedFile}

/-- The comments that were put out in a run, in order. -/
def comments (t : Transcript g document start after files) : List String :=
  t.modules.flatMap (fun m => g.moduleComments m.group (m.operations.map (·.view)))
    ++ g.typesComments (t.types.map (·.view))

/-- The texts of the document that went into the comments of a run and may end them. -/
def words (t : Transcript g document start after files) : List String :=
  t.operations.flatMap g.operationWords ++ (t.types.map (·.entry)).flatMap g.definitionWords

/-- The files of a run are some of those put out, and these have the comments of the run in them. -/
structure Commented (t : Transcript g document start after files) : Prop where
  assigned : ∀ file ∈ files, file ∈ t.assigned
  modules : ∀ m ∈ t.modules, Carries (g.moduleFile m).2
    (g.moduleComments m.group (m.operations.map (·.view)))
  types : Carries (g.typesText (t.types.map (·.view))) (g.typesComments (t.types.map (·.view)))

variable (t : Transcript g document start after files)

theorem commented : t.Commented where
  assigned := by
    intro file hfile
    rw [t.files_eq] at hfile
    exact mem_of_mem_puts hfile
  modules := fun m _ => g.moduleText_carries m.group _
  types := g.typesText_carries _

theorem operation_isComment_iff : ∀ record ∈ t.records,
    IsComment (g.operationComment record.view) ↔
      ∀ word ∈ g.operationWords record.operation, ¬ HasEnd word := by
  intro record hrecord
  obtain ⟨_, _, hviewed⟩ := t.viewed_of_mem record hrecord
  exact (Generation.operationView_describes hviewed.view).isComment_iff

theorem definition_isComment_iff : ∀ record ∈ t.types,
    (∀ comment ∈ g.definitionComments record.view, IsComment comment) ↔
      ∀ word ∈ g.definitionWords record.entry, ¬ HasEnd word := by
  intro record hrecord
  obtain ⟨_, _, hdefined⟩ := t.defined_of_mem record hrecord
  simpa using not_congr (Generation.definitionView_describes hdefined.view).hasEnd_iff

theorem comments_isComment_iff :
    (∀ comment ∈ t.comments, IsComment comment) ↔ ∀ word ∈ t.words, ¬ HasEnd word := by
  -- The comments that name modules end where they should in any case.
  have hgroups (group : String) : IsComment (moduleComment (Operation.moduleName group)) :=
    moduleComment_isComment fun hslash =>
      absurd (Naming.moduleName_alphanum group '/' hslash) (by decide)
  have htypes : ∀ comment ∈ if g.isTyped then [] else [moduleComment "types"],
      IsComment comment := by
    split
    · simp
    · rw [List.forall_mem_singleton]
      exact moduleComment_isComment (by decide)
  have hrecords : ∀ m ∈ t.modules, ∀ record ∈ m.operations, record ∈ t.records :=
    fun m hm record hrecord => List.mem_flatMap.2 ⟨m, hm, hrecord⟩
  have hviews := t.operation_isComment_iff
  have hdefinitions := t.definition_isComment_iff
  simp only [comments, words, operations, records, Generation.moduleComments,
    Generation.typesComments, List.forall_mem_append, List.forall_mem_flatMap, List.forall_mem_map,
    List.forall_mem_cons]
  constructor
  · rintro ⟨hmodules, _, htypes⟩
    exact ⟨fun m hm record hrecord =>
        (hviews record (hrecords m hm record hrecord)).1 ((hmodules m hm).2 record hrecord),
      fun record hrecord => (hdefinitions record hrecord).1 (htypes record hrecord)⟩
  · rintro ⟨hoperations, hentries⟩
    exact ⟨fun m hm => ⟨hgroups m.group, fun record hrecord =>
        (hviews record (hrecords m hm record hrecord)).2 (hoperations m hm record hrecord)⟩,
      htypes, fun record hrecord => (hdefinitions record hrecord).2 (hentries record hrecord)⟩

end Transcript

/-- The comments of a client end where they were meant to if and only if no text of the document
that goes into them has the end of a comment in it. This holds of each operation and each definition
by itself. -/
theorem comments_end_iff {g : Generation} {document : Value} {registry after : Registry}
    {files : List GeneratedFile} (hrun : g.runClient document registry = (.ok files, after)) :
    ∃ t : Transcript g document registry.reset after files, t.Commented ∧
      (∀ record ∈ t.records, IsComment (g.operationComment record.view) ↔
        ∀ word ∈ g.operationWords record.operation, ¬ HasEnd word) ∧
      (∀ record ∈ t.types, (∀ comment ∈ g.definitionComments record.view, IsComment comment) ↔
        ∀ word ∈ g.definitionWords record.entry, ¬ HasEnd word) ∧
      ((∀ comment ∈ t.comments, IsComment comment) ↔ ∀ word ∈ t.words, ¬ HasEnd word) := by
  obtain ⟨t⟩ := transcript_of_runClient hrun
  exact ⟨t, t.commented, t.operation_isComment_iff, t.definition_isComment_iff,
    t.comments_isComment_iff⟩

/-- A document with one operation, which has a summary. -/
def summarized (summary : String) : Generation where
  store := { mappings := #[
    [(.text "operationId", .text "a"), (.text "summary", .text summary)],
    [(.text "get", .mapping 0)], [(.text "/a", .mapping 1)], [(.text "paths", .mapping 2)]] }
  options := { language := .js }

def summarizedOperation (summary : String) : Operation where
  id := "a"
  path := "/a"
  method := "get"
  group := "default"
  summary := Operation.textOf (summarized summary).store 0 "summary"
  description := ""
  parameters := []
  response := none
  security := []

theorem summarized_build (summary : String) :
    Operation.build (summarized summary).store (.mapping 3) =
      .ok [summarizedOperation summary] := by
  have hname : Naming.camelCase (Naming.operationSlug "a") = "a" := by decide +kernel
  have hbase : Operation.baseId (summarized summary).store (.text "/a") "get" 0 = "a" := hname
  have hbuilt : Operation.Built (summarized summary).store (.mapping 3) []
      (⟨.text "/a", 1, "get", 0⟩, Operation.baseId (summarized summary).store (.text "/a") "get" 0)
      (summarizedOperation summary) := by
    rw [hbase]
    rfl
  exact Operation.build_eq_ok.2 ⟨[], [(.text "/a", .mapping 1)], [summarizedOperation summary],
    rfl, rfl, .cons hbuilt .nil, (List.mergeSort_singleton _).symm⟩

/-- The comment of an operation with a plain summary ends where it was meant to. -/
theorem comments_end_of_plain_summary :
    ∃ files after, ∃ t : Transcript (summarized "lists pets") (.mapping 3) (Registry.reset {})
      after files, t.words = ["lists pets", ""] ∧ ∀ comment ∈ t.comments, IsComment comment := by
  have hsome : ((summarized "lists pets").runClient (.mapping 3) {}).1.toOption.any
      (fun _ => true) = true := by
    rw [Generation.runClient, Generation.client, summarized_build]
    decide +kernel
  obtain ⟨files, after, hrun, _⟩ := ok_of_any hsome
  obtain ⟨t, _, _, _, hcomments⟩ := comments_end_iff hrun
  have hoperations : t.operations = [summarizedOperation "lists pets"] :=
    Except.ok.inj (t.built.symm.trans (summarized_build _))
  have htypes : t.types.map (·.entry) = [] := Except.ok.inj (t.defined.symm.trans rfl)
  have hwords : t.words = ["lists pets", ""] := by
    rw [Transcript.words, hoperations, htypes]
    decide +kernel
  refine ⟨files, after, t, hwords, hcomments.2 ?_⟩
  rw [hwords]
  decide +kernel

/-- The comment of an operation whose summary has a star and a slash in it. -/
def brokenComment : String := "/**\n * x */ y\n * @return \x7bPromise<void>\x7d\n */"

/-- The summary ends the comment that it is in, and what was to be the rest of it is code. -/
theorem comment_ended_by_summary :
    ∃ files after opening rest,
      (summarized "x */ y").runClient (.mapping 3) {} = (.ok files, after) ∧
      files.lookup "default.js" = some (opening ++ brokenComment ++ rest) ∧
      ¬ IsComment brokenComment ∧
      (Script.comment? brokenComment.toList).map (·.1) = some "/**\n * x */".toList := by
  let opening := "/** @module default */\n// Auto-generated, edits will be overwritten\n"
    ++ "import * as gateway from './gateway'\n\n"
  let rest := "\nexport function a() \x7b\n  return gateway.request(aOperation, \x7b\x7d)\n\x7d\n\n"
    ++ "const aOperation = \x7b\n  'path': '/a',\n  'method': 'get',\n  'parameters': []\n\x7d\n"
  have hsome : ((summarized "x */ y").runClient (.mapping 3) {}).1.toOption.any (fun files =>
      decide (files.lookup "default.js" = some (opening ++ brokenComment ++ rest))) = true := by
    rw [Generation.runClient, Generation.client, summarized_build]
    decide +kernel
  obtain ⟨files, after, hrun, hfile⟩ := ok_of_any hsome
  have hread : (Script.comment? brokenComment.toList).map (·.1) = some "/**\n * x */".toList := by
    decide +kernel
  refine ⟨files, after, opening, rest, hrun, of_decide_eq_true hfile, fun hcomment => ?_, hread⟩
  have hwhole := hcomment []
  rw [List.append_nil] at hwhole
  rw [hwhole] at hread
  exact absurd hread (by decide +kernel)

end TypedClient
