import TypedClient.Proofs.DocComments
import TypedClient.Proofs.Pointers

/-!
# Whether references name what is declared

A reference to a definition is read twice. What follows it as a pointer decodes
the name of the definition; what renders it as a type takes the name as it is
written. The module of all types declares the definition under the name that it
has in the document. So a rendered reference means the definition it leads to
just when writing the name changes nothing, which is when the name has neither a
tilde nor a slash. An empty name is the other exception: what is rendered is the
last part of a reference that is not empty.
-/

namespace TypedClient

/-! ## The name in a reference -/

namespace Text

variable {old : Char} {new cs : List Char}

theorem length_replaceChar (old : Char) (new cs : List Char) :
    (replaceChar old new cs).length + cs.count old = cs.length + cs.count old * new.length := by
  induction cs with
  | nil => rw [List.count_nil, Nat.zero_mul]; rfl
  | cons c rest ih =>
      by_cases hc : c = old
      · rw [hc, replaceChar_cons_self, List.length_append, List.count_cons_self, List.length_cons,
          Nat.add_mul]
        omega
      · rw [replaceChar_cons_ne hc, List.count_cons_of_ne hc, List.length_cons, List.length_cons]
        omega

theorem length_le_replaceChar (hnew : new ≠ []) :
    cs.length ≤ (replaceChar old new cs).length := by
  have hlength := length_replaceChar old new cs
  have hcount := Nat.le_mul_of_pos_right (cs.count old) (List.length_pos_iff.2 hnew)
  omega

theorem replaceChar_of_not_mem (h : old ∉ cs) : replaceChar old new cs = cs := by
  induction cs with
  | nil => rfl
  | cons c rest ih =>
      rw [List.mem_cons, not_or] at h
      rw [replaceChar_cons_ne (Ne.symm h.1), ih h.2]

end Text

namespace Pointer

variable {key : String}

/-- Every tilde and every slash makes the way a key is written longer. -/
theorem encode_eq_self_iff : encode key = key ↔ '~' ∉ key.toList ∧ '/' ∉ key.toList := by
  constructor
  · intro h
    have hslash : '/' ∉ key.toList := h ▸ slash_not_mem_encode key
    refine ⟨fun htilde => ?_, hslash⟩
    have hlength := congrArg (·.toList.length) h
    let tildes := Text.replaceChar '~' ['~', '0'] key.toList
    have hslashes : tildes.length ≤ (Text.replaceChar '/' ['~', '1'] tildes).length :=
      Text.length_le_replaceChar (by decide)
    have htildes : tildes.length + key.toList.count '~' =
        key.toList.length + key.toList.count '~' * 2 :=
      Text.length_replaceChar '~' ['~', '0'] key.toList
    have hcount := List.count_pos_iff.2 htilde
    have hlonger : (Text.replaceChar '/' ['~', '1'] tildes).length = key.toList.length := by
      simpa only [encode, String.toList_ofList] using hlength
    omega
  · rintro ⟨htilde, hslash⟩
    rw [encode, Text.replaceChar_of_not_mem htilde, Text.replaceChar_of_not_mem hslash,
      String.ofList_toList]

theorem encode_eq_empty_iff : encode key = "" ↔ key = "" := by
  constructor
  · intro h
    rw [← decode_encode key, h]
    rfl
  · rintro rfl
    rfl

end Pointer

/-- The reference to a definition. -/
def definitionReference (name : String) : String := "#/definitions/" ++ Pointer.encode name

theorem definitionReference_eq (name : String) :
    definitionReference name = Pointer.text ⟨["definitions", name]⟩ := by
  have hencode : Pointer.encode "definitions" = "definitions" := by decide +kernel
  rw [definitionReference, Pointer.text, List.map_cons, List.map_singleton, hencode,
    String.intercalate_cons_cons, String.intercalate_singleton, ← String.append_assoc,
    ← String.append_assoc]
  rfl

namespace Naming

/-- Of a reference that does not end with a slash, what follows the last one. -/
theorem referenceName_append {front last : String} (hlast : last ≠ "")
    (hslash : '/' ∉ last.toList) : referenceName (front ++ "/" ++ last) = last := by
  have hends : ∃ c rest, last.toList.reverse = c :: rest ∧ c ≠ '/' := by
    cases hreverse : last.toList.reverse with
    | nil => exact absurd (by simpa using hreverse) hlast
    | cons c rest =>
        refine ⟨c, rest, rfl, ?_⟩
        rintro rfl
        exact hslash (List.mem_reverse.1 (hreverse ▸ List.mem_cons_self))
  obtain ⟨c, rest, hreverse, hc⟩ := hends
  have hwhole : (front ++ "/" ++ last).toList.reverse =
      last.toList.reverse ++ '/' :: front.toList.reverse := by
    simp [String.toList_append]
  have hkept : ∀ x ∈ last.toList.reverse, (x != '/') = true := by
    intro x hx
    rw [bne_iff_ne]
    rintro rfl
    exact hslash (List.mem_reverse.1 hx)
  have hdropped : (last.toList.reverse ++ '/' :: front.toList.reverse).dropWhile (· = '/') =
      last.toList.reverse ++ '/' :: front.toList.reverse := by
    rw [hreverse, List.cons_append, List.dropWhile_cons_of_neg (by simpa using hc)]
  rw [referenceName, hwhole, hdropped, List.takeWhile_append_of_pos hkept,
    List.takeWhile_cons_of_neg (by simp), List.append_nil, List.reverse_reverse,
    String.ofList_toList]

/-- The name of a reference to a definition is the name as the reference writes
it, or what is before it if it is empty. -/
theorem referenceName_definition (name : String) :
    referenceName (definitionReference name) =
      if name = "" then "definitions" else Pointer.encode name := by
  split
  · next hempty =>
      rw [hempty]
      decide +kernel
  · next hname =>
      have hfront : "#/definitions/" = "#/definitions" ++ "/" := by decide +kernel
      rw [definitionReference, hfront]
      exact referenceName_append (Pointer.encode_eq_empty_iff.not.2 hname)
        (Pointer.slash_not_mem_encode name)

theorem referenceName_definition_eq_iff (name : String) :
    referenceName (definitionReference name) = name ↔
      name ≠ "" ∧ '~' ∉ name.toList ∧ '/' ∉ name.toList := by
  rw [referenceName_definition]
  split
  · next hempty => simp [hempty]
  · next hname => rw [Pointer.encode_eq_self_iff, ne_eq, and_iff_right hname]

end Naming

/-- A reference ends the descent at once, if one may descend at all. -/
theorem resolve_reference {store : Store} {config : ResolverConfig} {mode : ResolutionMode}
    {r : Registry} {v : Value} {target : String}
    (hnode : SchemaNode.classify store v = .reference target) :
    resolve store config mode r (.value v) =
      if config.maxDepth < 0 then .error (.schema (.cyclic 0 none))
      else .ok ⟨referenceType config mode target, r, none⟩ := by
  by_cases hdepth : config.maxDepth < 0
  · have hbudget : config.budget = 0 := by
      rw [ResolverConfig.budget]
      omega
    rw [if_pos hdepth]
    exact resolve_of_error (by rw [descendSite, hbudget, descend]; rfl)
  · have hbudget : config.budget = config.maxDepth.toNat + 1 := by
      rw [ResolverConfig.budget]
      omega
    have hdescent : descendSite store true config.budget (.value v) =
        .ok ⟨[], .reference target⟩ := by
      rw [descendSite, hbudget, descend, hnode, if_neg]
      · rfl
      · cases v <;> simp [Value.mapping?]
    rw [if_neg hdepth, resolve_of_ok hdescent]
    rfl

/-! ## The name of a declaration -/

namespace Generation

variable {g : Generation}

/-- The line that declares the type of a definition. -/
def heading (g : Generation) (view : DefinitionView) : String :=
  match g.isTyped, view.body with
  | true, .alias type _ =>
    g.format.unit ++ "export type " ++ view.name ++ " = " ++ type ++ g.format.terminator
  | true, .interface _ => g.format.unit ++ "export interface " ++ view.name ++ " \x7b"
  | false, .alias _ docType => " * @typedef " ++ ("\x7b" ++ docType ++ "\x7d ") ++ view.name
  | false, .interface _ => " * @typedef " ++ view.name

/-- A text has a line that declares a definition under a name. -/
def Declares (g : Generation) (text name : String) (entry : Scalar × Value) : Prop :=
  ∃ r view r' lines, (g.definitionView entry).Yields r view r' ∧ view.name = name ∧
    text = unlines lines ∧ g.heading view ∈ lines

theorem heading_mem_lines (view : DefinitionView) :
    g.heading view ∈ if g.isTyped then view.typed g.format else view.untyped := by
  obtain ⟨name, description, body⟩ := view
  rw [heading]
  cases g.isTyped with
  | true => cases body <;> simp [DefinitionView.typed]
  | false => cases body <;> simp [DefinitionView.untyped]

theorem typesText_eq_unlines (views : List DefinitionView) :
    ∃ lines, g.typesText views = unlines lines ∧ ∀ view ∈ views, g.heading view ∈ lines := by
  have hheading := g.heading_mem_lines
  rw [typesText]
  cases htyped : g.isTyped with
  | true =>
      simp only [htyped, if_true] at hheading
      refine ⟨_, rfl, fun view hview => ?_⟩
      exact List.mem_append_left _
        (List.mem_append_right _ (List.mem_flatMap.2 ⟨view, hview, hheading view⟩))
  | false =>
      simp only [htyped, Bool.false_eq_true, if_false] at hheading
      refine ⟨_, rfl, fun view hview => ?_⟩
      exact List.mem_append_right _ (List.mem_flatMap.2 ⟨view, hview, hheading view⟩)

/-- The module of all types declares each definition under its key. -/
theorem typesModule_declares {document : Value} {entries : Entries} {r r' : Registry}
    {text : String} (hentries : definitions g.store document = .ok entries)
    (h : (g.typesModule document).Yields r text r') :
    ∀ entry ∈ entries, g.Declares text entry.1.plain entry := by
  intro entry hentry
  obtain ⟨records, hrecords, hdefined, rfl⟩ := typesModule_yields h
  obtain rfl : records.map (·.entry) = entries := Except.ok.inj (hdefined.symm.trans hentries)
  obtain ⟨record, hrecord, rfl⟩ := List.mem_map.1 hentry
  obtain ⟨m, m', hviewed⟩ := hrecords.step_of_mem hrecord
  obtain ⟨lines, hlines, hheading⟩ := g.typesText_eq_unlines (records.map (·.view))
  exact ⟨m, record.view, m', lines, hviewed.view, (definitionView_describes hviewed.view).name,
    hlines, hheading _ (List.mem_map_of_mem hrecord)⟩

end Generation

/-! ## The two names -/

/-- A reference to a definition leads to it, and the module of all types
declares it under its name. What the reference is rendered as, if a schema may
be entered at all, is the name as the reference writes it. That is the name
which is declared just when it is not empty and has neither a tilde nor a slash
in it. -/
theorem definition_named_iff {g : Generation} {d ds : Nat} {name : String} {v : Value}
    (hdefinitions : g.store.get d "definitions" = .mapping ds)
    (hname : g.store.find? ds name = some v) :
    resolvePointer g.store (definitionReference name) (.mapping d) = v ∧
    (∀ r text r', (g.typesModule (.mapping d)).Yields r text r' →
      g.Declares text name (.text name, v)) ∧
    ∀ (config : ResolverConfig) (r : Registry) (node : Value),
      SchemaNode.classify g.store node = .reference (definitionReference name) →
      resolve g.store config .typesModule r (.value node) =
        (if config.maxDepth < 0 then .error (.schema (.cyclic 0 none))
          else .ok ⟨if name = "" then "definitions" else Pointer.encode name, r, none⟩) ∧
      (resolve g.store config .typesModule r (.value node) = .ok ⟨name, r, none⟩ ↔
        0 ≤ config.maxDepth ∧ name ≠ "" ∧ '~' ∉ name.toList ∧ '/' ∉ name.toList) := by
  refine ⟨?_, fun r text r' htext => ?_, fun config r node hnode => ?_⟩
  · have hreaches : Reaches g.store (.mapping d) ["definitions", name] v :=
      .enter (Store.find_of_get hdefinitions (by simp [Value.null])) (.enter hname (.here v))
    rw [definitionReference_eq, resolvePointer_text (by simp), follow_eq_some.2 hreaches]
    rfl
  · have hentries : definitions g.store (.mapping d) = .ok (g.store.entries ds) := by
      simp only [definitions, Store.member, bind, Except.bind, hdefinitions]
      rfl
    exact Generation.typesModule_declares hentries htext _ (Entries.mem_of_value? hname)
  · rw [resolve_reference hnode, referenceType]
    refine ⟨by rw [Naming.referenceName_definition], ?_⟩
    rw [← Naming.referenceName_definition_eq_iff]
    split
    · next hdepth => simp [Int.not_le.2 hdepth]
    · next hdepth => simp [Int.not_lt.1 hdepth]

/-- A document with a definition under some name, and another definition with a
property that refers to it. -/
def referring (name : String) : Generation where
  store := { mappings := #[
    [(.text "type", .text "string")],
    [(.text "$ref", .text (definitionReference name))],
    [(.text "status", .mapping 1)],
    [(.text "properties", .mapping 2)],
    [(.text name, .mapping 0), (.text "Pet", .mapping 3)],
    [(.text "definitions", .mapping 4)]] }
  options := {}

/-- A reference to `Status` means what is declared under this name. -/
theorem definition_named_of_status :
    resolvePointer (referring "Status").store "#/definitions/Status" (.mapping 5) = .mapping 0 ∧
      resolve (referring "Status").store {} .typesModule {} (.value (.mapping 1)) =
        .ok ⟨"Status", {}, none⟩ ∧
      ∃ text r', (referring "Status").Declares text "Status" (.text "Status", .mapping 0) ∧
        ((referring "Status").typesModule (.mapping 5)).Yields {} text r' := by
  have hreference : definitionReference "Status" = "#/definitions/Status" := by decide +kernel
  have hname : (referring "Status").store.find? 4 "Status" = some (.mapping 0) := by
    decide +kernel
  have hdefinitions : (referring "Status").store.get 5 "definitions" = .mapping 4 := by
    decide +kernel
  obtain ⟨hleads, hdeclared, hrendered⟩ := definition_named_iff hdefinitions hname
  have hplain : (0 : Int) ≤ 64 ∧ "Status" ≠ "" ∧ '~' ∉ "Status".toList ∧ '/' ∉ "Status".toList := by
    decide +kernel
  have hsome : (((referring "Status").typesModule (.mapping 5)).run.run {}).1.toOption.any
      (fun _ => true) = true := by decide +kernel
  obtain ⟨text, r', htext, -⟩ := ok_of_any hsome
  refine ⟨hreference ▸ hleads, (hrendered {} {} (.mapping 1) (by decide +kernel)).2.2 hplain,
    text, r', hdeclared {} text r' htext, htext⟩

/-- The end of the module of all types for a definition under the name
`Pet/Status`. -/
def statusLines : String := unlines
  ["", "  export type Pet/Status = String", "", "  export interface Pet \x7b",
    "    status?: Pet~1Status", "  \x7d", "\x7d"]

/-- A reference to `Pet/Status` leads to what is declared under this name, and
is rendered as another one, under which nothing is declared. -/
theorem definition_named_otherwise :
    resolvePointer (referring "Pet/Status").store "#/definitions/Pet~1Status" (.mapping 5) =
        .mapping 0 ∧
      resolve (referring "Pet/Status").store {} .typesModule {} (.value (.mapping 1)) =
        .ok ⟨"Pet~1Status", {}, none⟩ ∧
      ∃ before r', ((referring "Pet/Status").typesModule (.mapping 5)).Yields {}
        (before ++ statusLines) r' := by
  let opening := unlines
    (["/// <reference path=\"enums.ts\"/>", generatedMarker, "namespace api \x7b",
      "  export interface OpenApiSpec \x7b"] ++ specInterface.map ("    " ++ ·) ++ ["  \x7d"])
  have hsome : (((referring "Pet/Status").typesModule (.mapping 5)).run.run {}).1.toOption.any
      (fun text => decide (text = opening ++ statusLines)) = true := by decide +kernel
  obtain ⟨text, r', htext, hwhole⟩ := ok_of_any hsome
  rw [of_decide_eq_true hwhole] at htext
  exact ⟨by decide +kernel, by decide +kernel, opening, r', htext⟩

end TypedClient
