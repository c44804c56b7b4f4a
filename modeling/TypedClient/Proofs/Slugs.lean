import TypedClient.Proofs.EmittedNames

/-!
# What a slug keeps

A slug forgets what stands between the letters and digits of a text and the case
of the letters, and nothing else: the underscores apart it is the letters and
digits of the text, in order and in small letters. Its form is that of words
with one underscore between two.

The words of a slug are the words that it was made of, since no capital is left
that could cut them (`words_intercalate`). So a slug is its own slug. Camel case
takes the underscores out and puts capitals in, which the lower case of the
whole takes back.
-/

namespace TypedClient.Naming

/-- The letters and digits of a text, in small letters. -/
def alphanumerics (s : String) : List Char := (s.toList.filter Char.isAlphanum).map Char.toLower

/-- Words of small letters and digits with one underscore between two:
`[a-z0-9]+(_[a-z0-9]+)*`. -/
inductive SlugForm : List Char → Prop
  | last {c : Char} (hc : isSmall c = true) : SlugForm [c]
  | within {c : Char} {rest : List Char} (hc : isSmall c = true) (h : SlugForm rest) :
      SlugForm (c :: rest)
  | between {c : Char} {rest : List Char} (hc : isSmall c = true) (h : SlugForm rest) :
      SlugForm (c :: '_' :: rest)

/-! ## The form of a slug -/

theorem slugForm_word {word : List Char} (h : Small word) : SlugForm word := by
  obtain ⟨hnonempty, hchars⟩ := h
  induction word with
  | nil => exact absurd rfl hnonempty
  | cons c rest ih =>
    obtain ⟨hc, hrest⟩ := List.forall_mem_cons.1 hchars
    cases rest with
    | nil => exact .last hc
    | cons d more => exact .within hc (ih (List.cons_ne_nil d more) hrest)

theorem slugForm_word_append {word rest : List Char} (hword : Small word) (hrest : SlugForm rest) :
    SlugForm (word ++ '_' :: rest) := by
  obtain ⟨hnonempty, hchars⟩ := hword
  induction word with
  | nil => exact absurd rfl hnonempty
  | cons c word ih =>
    obtain ⟨hc, hword⟩ := List.forall_mem_cons.1 hchars
    cases word with
    | nil => exact .between hc hrest
    | cons d more => exact .within hc (ih (List.cons_ne_nil d more) hword)

theorem slugForm_intercalate {ws : List (List Char)} (h : ∀ word ∈ ws, Small word) (hws : ws ≠ []) :
    SlugForm (['_'].intercalate ws) := by
  induction ws with
  | nil => exact absurd rfl hws
  | cons word rest ih =>
    obtain ⟨hword, hrest⟩ := List.forall_mem_cons.1 h
    cases rest with
    | nil =>
      rw [List.intercalate_singleton]
      exact slugForm_word hword
    | cons next more =>
      rw [List.intercalate_cons_cons, List.append_assoc, List.singleton_append]
      exact slugForm_word_append hword (ih hrest (List.cons_ne_nil next more))

/-! ## Without the underscores -/

theorem not_mem_small {word : List Char} (h : Small word) : '_' ∉ word := fun hmem =>
  absurd (h.chars _ hmem) (by decide)

theorem filter_intercalate {mark : Char} {parts : List (List Char)}
    (h : ∀ part ∈ parts, mark ∉ part) :
    ([mark].intercalate parts).filter (· != mark) = parts.flatten := by
  have hkept : ∀ part ∈ parts, part.filter (· != mark) = part := fun part hpart =>
    List.filter_eq_self.2 fun c hc => bne_iff_ne.2 fun hmark => h part hpart (hmark ▸ hc)
  induction parts with
  | nil => rfl
  | cons part rest ih =>
    obtain ⟨hpart, hrest⟩ := List.forall_mem_cons.1 hkept
    cases rest with
    | nil => rw [List.intercalate_singleton, hpart, List.flatten_singleton]
    | cons next more =>
      rw [List.intercalate_cons_cons, List.filter_append, List.filter_append, hpart,
        ih (List.forall_mem_cons.1 h).2 hrest, List.flatten_cons (l := part)]
      simp

theorem flatten_smallWords (s : String) : (smallWords s).flatten = alphanumerics s := by
  rw [smallWords, ← List.map_flatten, words_flatten, alphanumerics]

theorem smallWords_eq_nil {s : String} : smallWords s = [] ↔ alphanumerics s = [] := by
  rw [← flatten_smallWords, List.flatten_eq_nil_iff]
  constructor
  · intro h
    rw [h]
    exact nofun
  · intro h
    rw [List.eq_nil_iff_forall_not_mem]
    exact fun word hword => (smallWords_small s word hword).nonempty (h word hword)

/-! ## The words of a slug -/

/-- A character from which nothing is cut belongs to the word that follows. -/
theorem pieces_keep {cut : CutRule} {c : Char} {rest word : List Char} {words : List (List Char)}
    (hc : c.isAlphanum = true) (hkeep : ∀ d more, rest = d :: more → cut c d more.head? = false)
    (h : pieces cut rest = word :: words) : pieces cut (c :: rest) = (c :: word) :: words := by
  cases rest with
  | nil =>
    obtain ⟨rfl, rfl⟩ := List.cons.inj h
    simp [pieces, hc]
  | cons d more =>
    rw [pieces.eq_def]
    simp [hc, h, hkeep d more rfl]

/-- Nothing is cut before a character that is no capital. -/
theorem pieces_cons {c : Char} {rest word : List Char} {words : List (List Char)}
    (hc : c.isAlphanum = true) (hrest : ∀ d ∈ rest.head?, d.isUpper = false)
    (h : pieces slugCut rest = word :: words) :
    pieces slugCut (c :: rest) = (c :: word) :: words := by
  refine pieces_keep hc ?_ h
  rintro d more rfl
  rw [slugCut, hrest d rfl, Bool.false_and]

theorem pieces_word_append {word : List Char} (rest : List Char)
    (h : ∀ c ∈ word, isSmall c = true) :
    pieces slugCut (word ++ '_' :: rest) = word :: pieces slugCut rest := by
  induction word with
  | nil => rfl
  | cons c word ih =>
    obtain ⟨hc, hword⟩ := List.forall_mem_cons.1 h
    have hhead : ∀ d ∈ (word ++ '_' :: rest).head?, d.isUpper = false := by
      cases word with
      | nil =>
        rintro _ ⟨⟩
        rfl
      | cons e more =>
        rintro _ ⟨⟩
        exact (isSmall_cases (hword e List.mem_cons_self)).2.1
    exact pieces_cons (isSmall_alphanum hc) hhead (ih hword)

theorem pieces_word {word : List Char} (h : ∀ c ∈ word, isSmall c = true) :
    pieces slugCut word = [word] := by
  induction word with
  | nil => rfl
  | cons c word ih =>
    obtain ⟨hc, hword⟩ := List.forall_mem_cons.1 h
    have hhead : ∀ d ∈ word.head?, d.isUpper = false := fun d hd =>
      (isSmall_cases (hword d (List.mem_of_mem_head? hd))).2.1
    exact pieces_cons (isSmall_alphanum hc) hhead (ih hword)

theorem pieces_intercalate {ws : List (List Char)} (h : ∀ word ∈ ws, Small word) (hws : ws ≠ []) :
    pieces slugCut (['_'].intercalate ws) = ws := by
  induction ws with
  | nil => exact absurd rfl hws
  | cons word rest ih =>
    obtain ⟨hword, hrest⟩ := List.forall_mem_cons.1 h
    cases rest with
    | nil => rw [List.intercalate_singleton, pieces_word hword.chars]
    | cons next more =>
      rw [List.intercalate_cons_cons, List.append_assoc, List.singleton_append,
        pieces_word_append _ hword.chars, ih hrest (List.cons_ne_nil next more)]

/-- A slug is cut into the words that it was made of. -/
theorem words_intercalate {ws : List (List Char)} (h : ∀ word ∈ ws, Small word) (hws : ws ≠ []) :
    words slugCut (['_'].intercalate ws) = ws := by
  rw [words, pieces_intercalate h hws, List.filter_eq_self]
  intro word hword
  simpa using (h word hword).nonempty

theorem smallWords_slug {s fallback : String} (h : smallWords s ≠ []) :
    smallWords (slug s fallback) = smallWords s := by
  have hsmall := smallWords_small s
  have hsame : ∀ word ∈ smallWords s, word.map Char.toLower = id word := fun word hword =>
    map_toLower_small (hsmall word hword).chars
  rw [slug_eq h, smallWords.eq_def (String.ofList _), String.toList_ofList,
    words_intercalate hsmall h, List.map_congr_left hsame, List.map_id]

/-! ## Camel case in small letters -/

theorem lower_capitalizedWord {word : List Char} (h : Small word) :
    (capitalizedWord word).map Char.toLower = word := by
  obtain ⟨c, rest, rfl⟩ := List.exists_cons_of_ne_nil h.nonempty
  obtain ⟨hc, hrest⟩ := List.forall_mem_cons.1 h.chars
  have hfirst : c.toUpper.toLower = c := by
    obtain ⟨hlower, -, ⟨-, hupper⟩ | ⟨-, -, hback⟩⟩ := isSmall_cases hc
    · rw [hupper, hlower]
    · exact hback
  rw [capitalizedWord, List.map_cons, hfirst, map_toLower_small hrest, map_toLower_small hrest]

theorem lower_camel {ws : List (List Char)} (h : ∀ word ∈ ws, Small word) :
    (camel ws).map Char.toLower = ws.flatten := by
  cases ws with
  | nil => rfl
  | cons word rest =>
    obtain ⟨hword, hrest⟩ := List.forall_mem_cons.1 h
    have hcapitals : ∀ next ∈ rest, (capitalizedWord next).map Char.toLower = id next :=
      fun next hnext => lower_capitalizedWord (hrest next hnext)
    rw [camel, List.map_append, map_toLower_small hword.chars, List.map_flatMap,
      List.flatMap_def, List.map_congr_left hcapitals, List.map_id, List.flatten_cons]

/-- A text without letters and digits has no slug but the fallback. The slug of
any other text is words in small letters, and it keeps all letters and digits of
the text, as does its camel case. A slug is left alone by being made again. -/
theorem slug_keeps (s fallback : String) :
    if alphanumerics s = [] then slug s fallback = fallback
    else
      SlugForm (slug s fallback).toList ∧
      (slug s fallback).toList.filter (· != '_') = alphanumerics s ∧
      (∀ other, slug (slug s fallback) other = slug s fallback) ∧
      (∀ c ∈ (camelCase (slug s fallback)).toList, c.isAlphanum = true) ∧
      (Text.lowered (camelCase (slug s fallback))).toList = alphanumerics s := by
  split
  · next hnone => exact (wordless (smallWords_eq_nil.2 hnone)).2 fallback
  · next hsome =>
      have hws : smallWords s ≠ [] := fun hnil => hsome (smallWords_eq_nil.1 hnil)
      have hsmall := smallWords_small s
      have hchars := camel_small hsmall
      refine ⟨?_, ?_, fun other => ?_, ?_, ?_⟩
      · rw [slug_eq hws, String.toList_ofList]
        exact slugForm_intercalate hsmall hws
      · rw [slug_eq hws, String.toList_ofList,
          filter_intercalate fun word hword => not_mem_small (hsmall word hword),
          flatten_smallWords]
      · have hagain : smallWords (slug s fallback) = smallWords s := smallWords_slug hws
        rw [slug_eq (hagain ▸ hws), hagain, slug_eq hws]
      · rw [camelCase_slug hws, String.toList_ofList]
        exact hchars
      · rw [camelCase_slug hws, Text.lowered, String.toList_ofList, String.toList_ofList,
          lowerAfter_eq_map fun c hc => alphanum_ascii (hchars c hc), lower_camel hsmall,
          flatten_smallWords]

end TypedClient.Naming
