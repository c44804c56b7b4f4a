import TypedClient.Emit.OperationsModule
import TypedClient.Proofs.CamelWords
import TypedClient.Proofs.OperationIds

/-!
# Which names of functions and classes are legal

An identifier becomes the name of a function and part of the name of a constant,
and a group gives its name to a class. Neither goes through `safeIdentifier`, as
the binding of a parameter does. Slugs and camel case leave letters and digits
of ASCII only, which is nearly what a name has to be. Two things can still be
wrong with it: it starts with a digit, or it is a reserved word.

What a name starts with is not changed on the way. `leadsWithDigit` looks at the
first letter or digit of any text, and slugs, camel case, Pascal case and what is
added at the end keep it as it is. So a document can be told by the names it
gives: one that leads with a digit makes an illegal name.

Reserved words are in small letters. Camel case of more than one word has a
capital or a digit, a number at the end is a digit, and the class of a group has
the capital of `Api`. That leaves a single word at the first use of its base,
and to delete the root of an API is enough for that.
-/

namespace TypedClient.Naming

/-! ## What a name starts with -/

/-- Whether the first letter or digit of a text is a digit. -/
def leadsWithDigit (s : String) : Bool := (s.toList.find? Char.isAlphanum).any Char.isDigit

theorem flatten_nonempty (parts : List (List Char)) :
    (parts.filter fun part => !part.isEmpty).flatten = parts.flatten := by
  induction parts with
  | nil => rfl
  | cons part rest ih => cases part <;> simp [ih]

/-- What separates words is lost, and nothing else. -/
theorem words_flatten (cut : CutRule) (cs : List Char) :
    (words cut cs).flatten = cs.filter Char.isAlphanum := by
  rw [words, flatten_nonempty]
  induction cs with
  | nil => rfl
  | cons c rest ih =>
    rw [pieces.eq_def]
    dsimp only
    split
    · next hc =>
        rw [List.flatten_cons, List.nil_append, ih,
          List.filter_cons_of_neg (by simpa using hc)]
    · next hc =>
        rw [List.filter_cons_of_pos (by simpa using hc), ← ih]
        split
        · next hnone => simp [hnone]
        · next word more hpieces =>
            have heither : ∀ isCut : Bool,
                (if isCut then [c] :: word :: more else (c :: word) :: more).flatten =
                  c :: (word :: more).flatten := by
              intro isCut
              cases isCut <;> rfl
            rw [hpieces]
            exact heither _

/-- A change of case neither makes nor loses a digit, and a letter or digit can
start a name unless it is a digit. -/
theorem alphanum_spec {c : Char} (h : c.isAlphanum = true) :
    c.toLower.isDigit = c.isDigit ∧ c.toUpper.isDigit = c.isDigit ∧
      c.toUpper.isLower = false ∧ (c.isDigit = true → c.isLower = false) ∧
      isNameStart c = !c.isDigit :=
  ascii_forall (P := fun c => c.isAlphanum = true → c.toLower.isDigit = c.isDigit ∧
      c.toUpper.isDigit = c.isDigit ∧ c.toUpper.isLower = false ∧
      (c.isDigit = true → c.isLower = false) ∧ isNameStart c = !c.isDigit)
    (by decide +kernel) (alphanum_ascii h) h

theorem leadsWithDigit_of_alphanum {cs : List Char} (h : ∀ c ∈ cs, c.isAlphanum = true) :
    leadsWithDigit (String.ofList cs) = cs.head?.any Char.isDigit := by
  rw [leadsWithDigit, String.toList_ofList]
  cases cs with
  | nil => rfl
  | cons c rest => rw [List.find?_cons_of_pos (h c List.mem_cons_self), List.head?_cons]

/-- A text leads with what its words lead with, by whatever rule it is cut. -/
theorem leadsWithDigit_eq_words (cut : CutRule) (s : String) :
    leadsWithDigit s = (words cut s.toList).flatten.head?.any Char.isDigit := by
  rw [leadsWithDigit, words_flatten, List.head?_filter]

theorem head_smallWords (name : String) :
    (smallWords name).flatten.head?.any Char.isDigit = leadsWithDigit name := by
  rw [leadsWithDigit_eq_words slugCut, smallWords, ← List.map_flatten, List.head?_map]
  cases hhead : (words slugCut name.toList).flatten.head? with
  | none => rfl
  | some c =>
    have hmem := List.mem_of_mem_head? hhead
    rw [words_flatten] at hmem
    exact (alphanum_spec (List.mem_filter.1 hmem).2).1

theorem head_camel {ws : List (List Char)} (h : ∀ word ∈ ws, Small word) :
    (camel ws).head? = ws.flatten.head? := by
  cases ws with
  | nil => rfl
  | cons word rest =>
    obtain ⟨c, cs, rfl⟩ := List.exists_cons_of_ne_nil (h word List.mem_cons_self).nonempty
    rfl

/-- What may stand for a name without words. -/
structure Fallback (s : String) : Prop where
  chars : ∀ c ∈ s.toList, c.isAlphanum = true
  nonempty : camelCase s ≠ ""
  letter : leadsWithDigit (camelCase s) = false

theorem fallbacks : Fallback "operation" ∧ Fallback defaultGroup := by
  have hboth : ∀ s ∈ ["operation", defaultGroup], s.toList.all Char.isAlphanum = true ∧
      camelCase s ≠ "" ∧ leadsWithDigit (camelCase s) = false := by
    decide +kernel
  have hfallback : ∀ s ∈ ["operation", defaultGroup], Fallback s := by
    intro s hs
    obtain ⟨hchars, hnonempty, hletter⟩ := hboth s hs
    exact ⟨List.all_eq_true.1 hchars, hnonempty, hletter⟩
  exact ⟨hfallback _ (by simp), hfallback _ (by simp)⟩

theorem camelCase_slug_chars {name fallback : String} (h : Fallback fallback) :
    ∀ c ∈ (camelCase (slug name fallback)).toList, c.isAlphanum = true :=
  camelCase_alphanum (slug_chars fun c hc => .inl (h.chars c hc))

theorem camelCase_slug_ne_empty {name fallback : String} (h : Fallback fallback) :
    camelCase (slug name fallback) ≠ "" := by
  by_cases hwords : smallWords name = []
  · rw [(wordless hwords).2]
    exact h.nonempty
  · obtain ⟨word, rest, hcons⟩ := List.exists_cons_of_ne_nil hwords
    have hword := smallWords_small name word (by rw [hcons]; exact List.mem_cons_self)
    rw [camelCase_slug hwords, hcons, camel]
    simp [hword.nonempty]

theorem leadsWithDigit_camelCase_slug {name fallback : String} (h : Fallback fallback) :
    leadsWithDigit (camelCase (slug name fallback)) = leadsWithDigit name := by
  by_cases hwords : smallWords name = []
  · rw [(wordless hwords).2, h.letter, ← head_smallWords, hwords]
    rfl
  · have hsmall := smallWords_small name
    rw [camelCase_slug hwords, leadsWithDigit_of_alphanum (camel_small hsmall),
      head_camel hsmall, head_smallWords]

theorem capitalizedWord_chars {word : List Char} (h : ∀ c ∈ word, c.isAlphanum = true) :
    ∀ c ∈ capitalizedWord word, c.isAlphanum = true := by
  cases word with
  | nil => exact nofun
  | cons c rest =>
    obtain ⟨hc, hrest⟩ := List.forall_mem_cons.1 h
    refine List.forall_mem_cons.2 ⟨alphanum_toUpper hc, fun d hd => ?_⟩
    obtain ⟨e, he, rfl⟩ := List.mem_map.1 hd
    exact alphanum_toLower (hrest e he)

theorem pascalCase_chars (s : String) :
    ∀ c ∈ ((words pascalCut s.toList).map capitalizedWord).flatten, c.isAlphanum = true := by
  intro c hc
  obtain ⟨part, hpart, hc⟩ := List.mem_flatten.1 hc
  obtain ⟨word, hword, rfl⟩ := List.mem_map.1 hpart
  exact capitalizedWord_chars (words_alphanum word hword) c hc

theorem head_capitalized {ws : List (List Char)} (h : ∀ word ∈ ws, word ≠ []) :
    (ws.map capitalizedWord).flatten.head? = ws.flatten.head?.map Char.toUpper := by
  cases ws with
  | nil => rfl
  | cons word rest =>
    obtain ⟨c, cs, rfl⟩ := List.exists_cons_of_ne_nil (h word List.mem_cons_self)
    rfl

theorem leadsWithDigit_pascalCase (s : String) :
    leadsWithDigit (pascalCase s) = leadsWithDigit s := by
  have hnonempty : ∀ word ∈ words pascalCut s.toList, word ≠ [] := by
    intro word hword
    simpa using (List.mem_filter.1 hword).2
  rw [pascalCase, leadsWithDigit_of_alphanum (pascalCase_chars s), head_capitalized hnonempty,
    leadsWithDigit_eq_words pascalCut]
  cases hhead : (words pascalCut s.toList).flatten.head? with
  | none => rfl
  | some c =>
    have hmem := List.mem_of_mem_head? hhead
    rw [words_flatten] at hmem
    exact (alphanum_spec (List.mem_filter.1 hmem).2).2.1

/-- What follows a letter or digit, or does not lead with a digit itself, does
not change what a text leads with. -/
theorem leadsWithDigit_append {s t : String}
    (h : (∃ c ∈ s.toList, c.isAlphanum = true) ∨ leadsWithDigit t = false) :
    leadsWithDigit (s ++ t) = leadsWithDigit s := by
  rw [leadsWithDigit, String.toList_append, List.find?_append, leadsWithDigit]
  cases hfound : s.toList.find? Char.isAlphanum with
  | some c => rfl
  | none =>
    rcases h with ⟨c, hc, hletter⟩ | ht
    · exact absurd hletter (List.find?_eq_none.1 hfound c hc)
    · exact ht

/-! ## Legal names of letters and digits -/

theorem isIdentifier_alphanum {s : String} (h : ∀ c ∈ s.toList, c.isAlphanum = true)
    (hs : s ≠ "") : isIdentifier s.toList = !leadsWithDigit s := by
  rw [← String.ofList_toList (s := s), leadsWithDigit_of_alphanum h, String.toList_ofList]
  have hcs : s.toList ≠ [] := by simpa using hs
  obtain ⟨c, rest, hcons⟩ := List.exists_cons_of_ne_nil hcs
  rw [hcons] at h ⊢
  obtain ⟨hc, hrest⟩ := List.forall_mem_cons.1 h
  have hparts : rest.all isNamePart = true :=
    List.all_eq_true.2 fun d hd => by simp [isNamePart, hrest d hd]
  rw [isIdentifier, (alphanum_spec hc).2.2.2.2, hparts, Bool.and_true]
  rfl

theorem reservedWords_spec : (∀ word ∈ reservedWords, word.toList.all Char.isLower = true) ∧
    reservedWords.contains (camelCase "operation") = false := by
  decide +kernel

/-- A text with a character other than a small letter is no reserved word. -/
theorem not_reserved {s : String} (h : ∃ c ∈ s.toList, c.isLower = false) :
    reservedWords.contains s = false := by
  obtain ⟨c, hc, hother⟩ := h
  by_contra hreserved
  have hmem : s ∈ reservedWords := by simpa using hreserved
  have hlower := List.all_eq_true.1 (reservedWords_spec.1 s hmem) c hc
  rw [hother] at hlower
  cases hlower

/-- Whether a text has one word, and that a reserved one. -/
def isReservedWord (s : String) : Bool :=
  match smallWords s with
  | [word] => reservedWords.contains (String.ofList word)
  | _ => false

/-- Every word but the first one shows in camel case. -/
theorem camel_not_lower {first next : List Char} {rest : List (List Char)}
    (h : ∀ word ∈ first :: next :: rest, Small word) :
    ∃ c ∈ camel (first :: next :: rest), c.isLower = false := by
  have hnext := h next (by simp)
  obtain ⟨c, cs, rfl⟩ := List.exists_cons_of_ne_nil hnext.nonempty
  have hc := isSmall_alphanum (hnext.chars c List.mem_cons_self)
  exact ⟨c.toUpper, by simp [camel, capitalizedWord], (alphanum_spec hc).2.2.1⟩

theorem reserved_camelCase_slug (name : String) :
    reservedWords.contains (camelCase (operationSlug name)) = isReservedWord name := by
  rw [isReservedWord, operationSlug]
  cases hwords : smallWords name with
  | nil =>
    rw [(wordless hwords).2]
    exact reservedWords_spec.2
  | cons first rest =>
    have hsmall := smallWords_small name
    rw [camelCase_slug (by simp [hwords]), hwords]
    rw [hwords] at hsmall
    cases rest with
    | nil => rw [camel, List.flatMap_nil, List.append_nil]
    | cons next rest => exact not_reserved (by simpa using camel_not_lower hsmall)

end TypedClient.Naming

namespace TypedClient.Operation

open Naming

/-! ## Identifiers and classes -/

/-- What the identifier of an operation is made from. -/
def givenName (store : Store) (e : Endpoint) : String :=
  let given := store.get e.details "operationId"
  if store.truthy given then store.plain given else e.method ++ "_" ++ e.path.plain

theorem baseId_eq (store : Store) (e : Endpoint) :
    baseId store e.path e.method e.details = camelCase (operationSlug (givenName store e)) := rfl

theorem exists_alphanum {s : String} (h : ∀ c ∈ s.toList, c.isAlphanum = true) (hs : s ≠ "") :
    ∃ c ∈ s.toList, c.isAlphanum = true := by
  have hcs : s.toList ≠ [] := by simpa using hs
  obtain ⟨c, hc⟩ := List.exists_mem_of_ne_nil _ hcs
  exact ⟨c, hc, h c hc⟩

theorem alphanum_of_digit {c : Char} (h : c.isDigit = true) : c.isAlphanum = true := by
  rw [isAlphanum_eq, h, Bool.or_true]

theorem serial_digits (k : Nat) : ∀ c ∈ (serial k).toList, c.isDigit = true := by
  unfold serial
  split
  · exact nofun
  · intro c hc
    rw [Decimal.digitString, String.toList_ofList] at hc
    exact Nat.isDigit_of_mem_toDigits (by decide) (by decide) hc

/-- A reserved word is one only as long as no number follows it. -/
theorem reserved_numbered (name : String) (k : Nat) :
    reservedWords.contains (numbered (camelCase (operationSlug name)) k) =
      (decide (k ≤ 1) && isReservedWord name) := by
  by_cases hk : k ≤ 1
  · rw [numbered, serial, if_pos hk, String.append_empty, reserved_camelCase_slug]
    simp [hk]
  · have hserial : (serial k).toList ≠ [] := by
      rw [serial, if_neg hk]
      simpa using digitString_ne_empty k
    obtain ⟨c, hc⟩ := List.exists_mem_of_ne_nil _ hserial
    have hdigit := serial_digits k c hc
    have hlower := (alphanum_spec (alphanum_of_digit hdigit)).2.2.2.1 hdigit
    rw [numbered, not_reserved ⟨c, by simp [hc], hlower⟩]
    simp [hk]

/-- What is legal at a use of a base: any name that does not lead with a digit,
but a reserved word only with a number. -/
theorem isLegalName_numbered (name : String) (k : Nat) :
    isLegalName (numbered (camelCase (operationSlug name)) k) =
      (!leadsWithDigit name && !(decide (k ≤ 1) && isReservedWord name)) := by
  have hbase : ∀ c ∈ (camelCase (operationSlug name)).toList, c.isAlphanum = true :=
    camelCase_slug_chars fallbacks.1
  have hne : camelCase (operationSlug name) ≠ "" := camelCase_slug_ne_empty fallbacks.1
  have hleads : leadsWithDigit (numbered (camelCase (operationSlug name)) k) =
      leadsWithDigit name := by
    rw [numbered, leadsWithDigit_append (.inl (exists_alphanum hbase hne)), operationSlug,
      leadsWithDigit_camelCase_slug fallbacks.1]
  have hchars : ∀ c ∈ (numbered (camelCase (operationSlug name)) k).toList,
      c.isAlphanum = true := by
    intro c hc
    rw [numbered, String.toList_append, List.mem_append] at hc
    rcases hc with hc | hc
    · exact hbase c hc
    · exact alphanum_of_digit (serial_digits k c hc)
  have hempty : numbered (camelCase (operationSlug name)) k ≠ "" := by
    rw [numbered, Ne, String.append_eq_empty_iff]
    exact fun hboth => hne hboth.1
  rw [isLegalName, isIdentifier_alphanum hchars hempty, hleads, reserved_numbered]

/-- The class of a group has a legal name unless the group leads with a digit. -/
theorem isLegalName_className (group : String) :
    isLegalName (Generation.className group) = !leadsWithDigit group := by
  have hapi : leadsWithDigit "Api" = false ∧ "Api".toList.all Char.isAlphanum = true := by
    decide +kernel
  have hleads : leadsWithDigit (Generation.className group) = leadsWithDigit group := by
    rw [Generation.className, leadsWithDigit_append (.inr hapi.1), leadsWithDigit_pascalCase,
      moduleName, leadsWithDigit_camelCase_slug fallbacks.2]
  have hchars : ∀ c ∈ (Generation.className group).toList, c.isAlphanum = true := by
    intro c hc
    rw [Generation.className, String.toList_append, List.mem_append, pascalCase,
      String.toList_ofList] at hc
    rcases hc with hc | hc
    · exact pascalCase_chars (moduleName group) c hc
    · exact List.all_eq_true.1 hapi.2 c hc
  have hcapital : 'A' ∈ (Generation.className group).toList := by simp [Generation.className]
  have hempty : Generation.className group ≠ "" := by
    intro hnone
    rw [hnone] at hcapital
    cases hcapital
  rw [isLegalName, isIdentifier_alphanum hchars hempty, hleads,
    not_reserved ⟨'A', hcapital, by decide⟩, Bool.not_false, Bool.and_true]

example : Generation.className "3d models" = "3dModelsApi" := by decide +kernel

/-! ## Documents -/

/-- What goes with an element is made from one of the uses of its name. -/
theorem mem_zip_uses {α β : Type} {name : α → String} {f : String → Nat → β}
    {found : List α} {earlier : List String} {e : α} {x : β}
    (h : (e, x) ∈ found.zip ((uses earlier (found.map name)).map fun use => f use.1 use.2)) :
    e ∈ found ∧ ∃ k, (name e, k) ∈ uses earlier (found.map name) ∧ x = f (name e) k := by
  induction found generalizing earlier with
  | nil => cases h
  | cons first rest ih =>
    rw [List.map_cons, uses, List.map_cons, List.zip_cons_cons, List.mem_cons] at h
    rw [List.map_cons, uses]
    rcases h with hfirst | hrest
    · obtain ⟨rfl, rfl⟩ := Prod.mk.inj hfirst
      exact ⟨List.mem_cons_self, _, List.mem_cons_self, rfl⟩
    · obtain ⟨he, k, hk, hx⟩ := ih hrest
      exact ⟨List.mem_cons_of_mem _ he, k, List.mem_cons_of_mem _ hk, hx⟩

variable {store : Store} {document : Value} {operations : List Operation}

/-- An operation has the identifier of a use of the base of its endpoint. -/
theorem id_of_use (h : build store document = .ok operations) :
    ∃ paths, (store.member document "paths" >>= store.entriesOrNone) = .ok paths ∧
      (∀ op ∈ operations, ∃ e ∈ endpoints store paths, ∃ k,
        op.path = e.path.plain ∧ op.method = e.method ∧
        (baseId store e.path e.method e.details, k) ∈ uses [] (bases store paths) ∧
        op.id = numbered (baseId store e.path e.method e.details) k) ∧
      ∀ base k, (base, k) ∈ uses [] (bases store paths) →
        ∃ op ∈ operations, op.id = numbered base k := by
  obtain ⟨shared, paths, unsorted, -, hpaths, hbuilt, rfl⟩ := build_eq_ok.1 h
  have hids : idsOf store (endpoints store paths) =
      (uses [] (bases store paths)).map fun use => numbered use.1 use.2 :=
    uniqueIds_eq _ fun base => rfl
  have hlength : (idsOf store (endpoints store paths)).length =
      (endpoints store paths).length := by
    rw [idsOf, uniqueIds_length, List.length_map]
  have hmap := built_ids hbuilt
  rw [List.map_snd_zip (Nat.le_of_eq hlength), hids] at hmap
  refine ⟨paths, hpaths, fun op hop => ?_, fun base k huse => ?_⟩
  · rw [List.mem_mergeSort] at hop
    obtain ⟨⟨e, id⟩, he, hop⟩ := built_of_mem hbuilt hop
    rw [hids, bases] at he
    obtain ⟨hmem, k, hk, hid⟩ := mem_zip_uses he
    obtain ⟨hop, hpath, hmethod⟩ := ofDetails_fields hop
    exact ⟨e, hmem, k, hpath, hmethod, hk, hop.trans hid⟩
  · have hmem : numbered base k ∈ unsorted.map (·.id) := by
      rw [hmap]
      exact List.mem_map.2 ⟨(base, k), huse, rfl⟩
    obtain ⟨op, hop, hid⟩ := List.mem_map.1 hmem
    exact ⟨op, List.mem_mergeSort.2 hop, hid⟩

/-- Which names are legal, identifier by identifier. All identifiers are, if and
only if the document has no name that leads with a digit or is a reserved word,
and all classes if and only if it has no group that leads with a digit. -/
theorem build_names_legal_iff (h : build store document = .ok operations) :
    ∃ paths, (store.member document "paths" >>= store.entriesOrNone) = .ok paths ∧
      (∀ op ∈ operations, ∃ e ∈ endpoints store paths, ∃ k,
        op.path = e.path.plain ∧ op.method = e.method ∧
        (baseId store e.path e.method e.details, k) ∈ uses [] (bases store paths) ∧
        op.id = numbered (baseId store e.path e.method e.details) k ∧
        isLegalName op.id = (!leadsWithDigit (givenName store e) &&
          !(decide (k ≤ 1) && isReservedWord (givenName store e)))) ∧
      ((∀ op ∈ operations, isLegalName op.id = true) ↔
        ∀ e ∈ endpoints store paths, leadsWithDigit (givenName store e) = false ∧
          isReservedWord (givenName store e) = false) ∧
      ((∀ op ∈ operations, isLegalName (Generation.className op.group) = true) ↔
        ∀ op ∈ operations, leadsWithDigit op.group = false) := by
  obtain ⟨paths, hpaths, hop, huse⟩ := id_of_use h
  refine ⟨paths, hpaths, ?_, ⟨fun hlegal e he => ?_, fun hnames op hmem => ?_⟩, ?_⟩
  · intro op hmem
    obtain ⟨e, he, k, hpath, hmethod, hk, hid⟩ := hop op hmem
    refine ⟨e, he, k, hpath, hmethod, hk, hid, ?_⟩
    rw [hid, baseId_eq, isLegalName_numbered]
  · -- The first use of a base has no number that could save a reserved word.
    have hfirst : (baseId store e.path e.method e.details, 1) ∈ uses [] (bases store paths) := by
      rw [mem_uses, List.count_nil, Nat.zero_add]
      exact ⟨Nat.one_pos, List.one_le_count_iff.2 (List.mem_map_of_mem he)⟩
    obtain ⟨op, hmem, hid⟩ := huse _ 1 hfirst
    rw [baseId_eq] at hid
    have hnamed := hlegal op hmem
    rw [hid, isLegalName_numbered] at hnamed
    simpa using hnamed
  · obtain ⟨e, he, k, -, -, -, hid⟩ := hop op hmem
    obtain ⟨hdigit, hreserved⟩ := hnames e he
    rw [hid, baseId_eq, isLegalName_numbered, hdigit, hreserved, Bool.and_false]
    rfl
  · simp only [isLegalName_className, Bool.not_eq_true']

/-- A document whose only path is the root, with one method. -/
def rootOnly (method : String) : Store where
  mappings := #[[], [(.text method, .mapping 0)], [(.text "/", .mapping 1)],
    [(.text "paths", .mapping 2)]]

/-- The operation of the root. -/
def rootOperation (method : String) : Operation where
  id := method
  path := "/"
  method := method
  group := defaultGroup
  summary := ""
  description := ""
  parameters := []
  response := none
  security := []

/-- The slash of the root is lost in the slug, and the method is left. Only one
method is a reserved word. -/
theorem build_rootOnly : ∀ method ∈ httpMethods,
    build (rootOnly method) (.mapping 3) = .ok [rootOperation method] ∧
      isLegalName method = (method != "delete") := by
  decide +kernel

/-- To read the root is a function with a legal name. -/
theorem build_names_legal_of_get :
    build (rootOnly "get") (.mapping 3) = .ok [rootOperation "get"] ∧
      (∀ op ∈ [rootOperation "get"], isLegalName op.id = true) ∧
      ∀ op ∈ [rootOperation "get"], isLegalName (Generation.className op.group) = true := by
  obtain ⟨hbuild, -⟩ := build_rootOnly "get" (by decide)
  obtain ⟨paths, hpaths, -, hids, hclasses⟩ := build_names_legal_iff hbuild
  have hroot : paths = [(.text "/", .mapping 1)] := (Except.ok.inj hpaths).symm
  have hnames : (∀ e ∈ endpoints (rootOnly "get") [(.text "/", .mapping 1)],
        leadsWithDigit (givenName (rootOnly "get") e) = false ∧
          isReservedWord (givenName (rootOnly "get") e) = false) ∧
      ∀ op ∈ [rootOperation "get"], leadsWithDigit op.group = false := by
    decide +kernel
  exact ⟨hbuild, hids.2 (hroot ▸ hnames.1), hclasses.2 hnames.2⟩

/-- To delete it is not. -/
theorem build_delete_reserved :
    ∃ store document operations, build store document = .ok operations ∧
      ∃ op ∈ operations, isLegalName op.id = false := by
  obtain ⟨hbuild, hreserved⟩ := build_rootOnly "delete" (by decide)
  exact ⟨_, _, _, hbuild, rootOperation "delete", List.mem_cons_self, hreserved⟩

end TypedClient.Operation
