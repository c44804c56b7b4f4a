import TypedClient.Emit.OperationsModule
import TypedClient.Proofs.CommentEnds
import TypedClient.Proofs.DocumentTypes

/-!
# What goes into comments

The comments of a client are put together from texts of the document: descriptions, which are laid
out first, names, and types. Laying a text out changes neither whether it has the end of a comment
in it nor how often, and the lines of a comment keep the texts in them apart. So for each of them it
comes down to the document.

Not every text can end a comment. The names of operations, parameters and modules are made of
letters, digits, underscores and dollar signs, the name of a reference has no slash, and a type is
in the generator's words unless the document declares it by a word of its own.
-/

namespace TypedClient

/-! ## Names without slashes -/

namespace Naming

theorem slash_not_mem_referenceName (target : String) : '/' ∉ (referenceName target).toList := by
  rw [referenceName, String.toList_ofList, List.mem_reverse]
  intro hslash
  have hne := List.all_eq_true.1 List.all_takeWhile _ hslash
  simp at hne

theorem slash_not_mem_safeIdentifier (s : String) : '/' ∉ (safeIdentifier s).toList := by
  have hmapped : '/' ∉ s.toList.map fun c => if isNamePart c then c else '_' := by
    rw [List.mem_map]
    rintro ⟨c, _, hc⟩
    split at hc
    · next hpart =>
        subst hc
        exact absurd hpart (by decide)
    · exact absurd hc (by decide)
  have hstarted : ∀ cs, '/' ∉ cs → '/' ∉ withNameStart cs := by
    intro cs hcs
    cases cs with
    | nil => decide
    | cons c rest =>
        rw [withNameStart]
        split
        · rw [List.mem_cons, not_or]
          exact ⟨by decide, hcs⟩
        · exact hcs
  rw [safeIdentifier]
  split
  · rw [String.toList_append, List.mem_append, not_or, String.toList_ofList]
    exact ⟨hstarted _ hmapped, by decide⟩
  · rw [String.toList_ofList]
    exact hstarted _ hmapped

end Naming

/-! ## Texts from documents -/

/-- An indentation has nothing in it that could be part of the end of a comment. -/
structure IsIndent (s : String) : Prop where
  star : '*' ∉ s.toList
  slash : '/' ∉ s.toList

namespace Formatting

variable {format : Formatting} {store : Store} {s : String}

/-- Laying a text out puts no end of a comment in, and takes none away. -/
theorem hasEnd_comment (h : IsIndent format.unit) (s : String) :
    HasEnd (format.comment s) ↔ HasEnd s := by
  -- A line break becomes a line break with a star after it, which a blank keeps from what follows.
  have hmark : ("\n * " ++ format.unit).toList = "\n * ".toList ++ format.unit.toList :=
    String.toList_append
  have hlast : ("\n * " ++ format.unit).toList.getLast? ≠ some '*' := by
    rw [hmark]
    by_cases hempty : format.unit.toList = []
    · rw [hempty]
      decide
    · rw [List.getLast?_append_of_ne_nil _ hempty]
      exact fun hstar => h.star (List.mem_of_getLast? hstar)
  have hnone : ¬ Adjacent '*' '/' ("\n * " ++ format.unit).toList := by
    intro hend
    have hslash := hend.mem.2
    rw [hmark, List.mem_append] at hslash
    exact hslash.elim (by decide) h.slash
  rw [HasEnd, comment, String.toList_ofList,
    Adjacent.replaceChar_iff (by decide) hnone hlast (by simp [hmark]) (by simp [hmark]),
    Adjacent.trimBlanks_iff (by decide) (by decide), HasEnd]

/-- The text that a description is, if it is one. -/
def described : Value → String
  | .scalar (.text s) => s
  | _ => ""

theorem hasEnd_description (h : IsIndent format.unit) {v : Value} {d : String}
    (hd : format.description store v = .ok d) : HasEnd d ↔ HasEnd (described v) := by
  cases v with
  | sequence id | typed kind id =>
      unfold description at hd
      split at hd <;> cases hd
      rfl
  | mapping id =>
      unfold description at hd
      split at hd <;> cases hd
      rfl
  | scalar s =>
      cases s with
      | text s =>
          unfold description at hd
          split at hd
          · next hfalse =>
              have hempty : s = "" := by simpa [Store.truthy, Scalar.truthy] using hfalse
              cases hd
              rw [described, hempty]
          · cases hd
            exact hasEnd_comment h s
      | _ =>
          unfold description at hd
          split at hd <;> cases hd
          rfl

end Formatting

theorem Generation.unit_isIndent (g : Generation) : IsIndent g.format.unit := by
  have hunit : g.format.unit = g.options.indent.unit := rfl
  rw [hunit]
  cases g.options.indent <;> exact ⟨by decide, by decide⟩

/-! ## Types in comments -/

section Types

variable {store : Store} {config : ResolverConfig} {site : SchemaSite} {leaf : Leaf} {text : String}

/-- The word by which a leaf declares its type. -/
def Leaf.declared? : Leaf → Option String
  | .primitive type _ => some type
  | .enumeration schema => schema.type
  | _ => none

/-- The word by which a schema declares the type that it has in comments, if that is a word of its
own. -/
def declaredWords (store : Store) (config : ResolverConfig) (site : SchemaSite) : List String :=
  match descendSite store false config.budget site with
  | .ok d => d.leaf.declared?.toList
  | .error _ => []

theorem hasEnd_primitive {declared : String} {format : Value}
    (h : primitiveDocType declared format = .ok text) : HasEnd text ↔ HasEnd declared := by
  rw [primitiveDocType] at h
  split at h
  · next hinteger =>
      cases h
      rw [hinteger]
      decide +kernel
  · split at h
    · next hstring =>
        obtain ⟨isDate, _, rfl⟩ := map_eq_ok.1 h
        rw [hstring]
        cases isDate <;> decide +kernel
    · cases h
      rfl

theorem hasEnd_brackets (s : String) (k : Nat) : HasEnd (s ++ brackets k) ↔ HasEnd s := by
  induction k with
  | zero => rw [show brackets 0 = "" from rfl, String.append_empty]
  | succ k ih => rw [brackets_succ, ← String.append_assoc, HasEnd.suffix_iff (by decide), ih]

theorem hasEnd_leaf (hspace : config.docTypesNamespace = "module:types")
    (h : leaf.documentType config = .ok text) :
    HasEnd text ↔ ∃ word ∈ leaf.declared?.toList, HasEnd word := by
  cases leaf with
  | enumeration schema =>
      rw [Leaf.documentType] at h
      split at h
      · next hnone =>
          cases h
          rw [Leaf.declared?, hnone]
          decide +kernel
      · next type htype =>
          rw [hasEnd_primitive (ofFault_eq_ok.1 h), Leaf.declared?, htype]
          simp
  | primitive type format =>
      rw [hasEnd_primitive (ofFault_eq_ok.1 h), Leaf.declared?]
      simp
  | reference target =>
      cases h
      have hname : ¬ HasEnd (Naming.referenceName target) := fun hend =>
        Naming.slash_not_mem_referenceName target hend.mem.2
      have hqualified : qualify config.docTypesNamespace (Naming.referenceName target) =
          "module:types." ++ Naming.referenceName target := by
        rw [hspace]
        rfl
      rw [hqualified, HasEnd.prefix_iff (by decide +kernel)]
      simpa [Leaf.declared?] using hname
  | untypedArray =>
      rw [Leaf.documentType] at h
      split at h
      · cases h
      · cases h
        decide +kernel
  | absent | closedMap | object | untyped =>
      cases h
      decide +kernel

/-- A type ends a comment only if the document declares it by a word that does. -/
theorem hasEnd_documentType (hspace : config.docTypesNamespace = "module:types")
    (h : documentType store config site = .ok text) :
    HasEnd text ↔ ∃ word ∈ declaredWords store config site, HasEnd word := by
  cases hdescent : descendSite store false config.budget site with
  | error e =>
      rw [documentType_of_error hdescent] at h
      cases h
  | ok d =>
      rw [documentType_of_ok hdescent] at h
      obtain ⟨word, hword, rfl⟩ := map_eq_ok.1 h
      have hopened := descendSite_opened store config.budget site
      rw [hdescent] at hopened
      rw [declaredWords, hdescent, ← hasEnd_leaf hspace hword, aroundAll_closed hopened.1]
      exact hasEnd_brackets _ _

end Types

/-! ## Comments -/

/-- A comment over several lines, each of which is indented. -/
def blockComment (indent : String) (lines : List String) : String :=
  "/**\n" ++ unlines (lines.map (indent ++ ·)) ++ indent ++ " */"

def moduleComment (name : String) : String := "/** @module " ++ name ++ " */"

section Comments

variable {indent name : String} {lines : List String}

theorem unlines_append (lines more : List String) :
    unlines (lines ++ more) = unlines lines ++ unlines more := by
  rw [unlines, List.map_append, String.join_append, unlines, unlines]

theorem unlines_comment (indent : String) (lines : List String) :
    unlines ((["/**"] ++ lines ++ [" */"]).map (indent ++ ·)) =
      indent ++ blockComment indent lines ++ "\n" := by
  rw [List.map_append, List.map_append, unlines_append, unlines_append, blockComment]
  simp [unlines, String.append_assoc]

theorem blockComment_isComment_iff (h : IsIndent indent) :
    IsComment (blockComment indent lines) ↔ ∀ line ∈ lines, ¬ HasEnd line := by
  have hbody : blockComment indent lines =
      "/*" ++ ("*\n" ++ unlines (lines.map (indent ++ ·)) ++ indent ++ " ") ++ "*/" := by
    rw [blockComment, ← String.toList_inj]
    simp
  -- The star of the comment's own end is read with what is before it.
  have hinner : "*\n" ++ unlines (lines.map (indent ++ ·)) ++ indent ++ " " ++ "*" =
      "*\n" ++ (unlines (lines.map (indent ++ ·)) ++ (indent ++ " *")) := by
    rw [← String.toList_inj]
    simp
  have hclosing : '/' ∉ (indent ++ " *").toList := by
    rw [String.toList_append, List.mem_append, not_or]
    exact ⟨h.slash, by decide⟩
  have hline : ∀ line, HasEnd (indent ++ line) ↔ HasEnd line := by
    intro line
    rw [HasEnd.append_iff (.inl fun hlast => h.star (List.mem_of_getLast? hlast))]
    exact or_iff_right fun hend => h.slash hend.mem.2
  rw [hbody, isComment_iff, hinner, HasEnd.prefix_iff (by decide),
    HasEnd.append_iff (.inr fun hhead => hclosing (List.mem_of_head? hhead)),
    HasEnd.unlines_iff, or_iff_left fun hend => hclosing hend.mem.2]
  simp [hline]

theorem moduleComment_isComment (h : '/' ∉ name.toList) : IsComment (moduleComment name) := by
  have hbody : moduleComment name = "/*" ++ ("* @module " ++ name ++ " ") ++ "*/" := by
    rw [moduleComment, ← String.toList_inj]
    simp
  rw [hbody, isComment_iff]
  intro hend
  have hslash := hend.mem.2
  simp only [String.toList_append, List.mem_append] at hslash
  rcases hslash with ((hslash | hslash) | hslash) | hslash
  · exact absurd hslash (by decide)
  · exact h hslash
  · exact absurd hslash (by decide)
  · exact absurd hslash (by decide)

/-- A line about something that has a type and a name, and perhaps a description. -/
theorem hasEnd_docLine {opening type description : String} (h : isFrame opening = true)
    (required : Bool) :
    HasEnd (opening ++ type ++ "\x7d " ++ optionalName required name ++ trailing description) ↔
      HasEnd type ∨ HasEnd name ∨ HasEnd description := by
  have hname : HasEnd (opening ++ type ++ "\x7d " ++ optionalName required name) ↔
      HasEnd type ∨ HasEnd name := by
    rw [HasEnd.between_iff (by decide), HasEnd.prefix_iff h, optionalName]
    split
    · rfl
    · rw [HasEnd.suffix_iff (by decide), HasEnd.prefix_iff (by decide)]
  rw [trailing]
  split
  · next hempty =>
      rw [String.append_empty, hname, hempty]
      simp [HasEnd.not_empty]
  · rw [← String.append_assoc, HasEnd.between_iff (by decide), hname, or_assoc]

end Comments

theorem exists_related_iff {α β : Type} {R : α → β → Prop} {P : α → Prop} {Q : β → Prop}
    {as : List α} {bs : List β} (h : List.Forall₂ R as bs) (hiff : ∀ a b, R a b → (P a ↔ Q b)) :
    (∃ a ∈ as, P a) ↔ ∃ b ∈ bs, Q b := by
  induction h with
  | nil => simp
  | cons hab _ ih => rw [List.exists_mem_cons_iff, List.exists_mem_cons_iff, hiff _ _ hab, ih]

theorem exists_flatMap_iff {α β : Type} {P : β → Prop} {f : α → List β} {as : List α} :
    (∃ b ∈ as.flatMap f, P b) ↔ ∃ a ∈ as, ∃ b ∈ f a, P b := by
  simp only [List.mem_flatMap]
  constructor
  · rintro ⟨b, ⟨a, ha, hb⟩, hP⟩
    exact ⟨a, ha, b, hb, hP⟩
  · rintro ⟨a, ha, b, hb, hP⟩
    exact ⟨b, ⟨a, ha, hb⟩, hP⟩

end TypedClient
