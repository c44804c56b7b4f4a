import Mathlib.Data.Bool.AllAny
import TypedClient.Proofs.NameCharacters

/-!
# Which names have one camel case

The binding of a name is its slug in camel case, made a legal name. Each of the
three steps forgets something. The slug forgets what stands between words and
the case of letters. Camel case marks the start of a word by a capital, which a
digit does not have, so a word that starts with a digit is lost in the one
before it. That is all: `camel_injective` takes joined words apart again at the
capitals, and the underscores that make a name legal are recognised as what
they are.

A name without a letter or a digit of ASCII has no words and is its own slug.
Changing the case of its characters can bring letters about, but no digit and
no small letter in the first place, and one of the two is what the binding of a
name with words has.
-/

namespace TypedClient.Naming

/-! ## Words and camel case -/

/-- The words of a name in small letters. -/
def smallWords (name : String) : List (List Char) :=
  (words slugCut name.toList).map (·.map Char.toLower)

/-- Whether a word starts with a digit. -/
def startsWithDigit (word : List Char) : Bool := word.head?.any Char.isDigit

/-- Words with each that starts with a digit joined to the one before it. -/
def joined : List (List Char) → List (List Char)
  | [] => []
  | word :: rest =>
    match joined rest with
    | [] => [word]
    | next :: more =>
      if startsWithDigit next then (word ++ next) :: more else word :: next :: more

/-- Words put together, each but the first with a capital. -/
def camel : List (List Char) → List Char
  | [] => []
  | word :: rest => word ++ rest.flatMap capitalizedWord

/-- A character of a word in small letters. -/
def isSmall (c : Char) : Bool := c.isLower || c.isDigit

/-- A word in small letters. -/
structure Small (word : List Char) : Prop where
  nonempty : word ≠ []
  chars : ∀ c ∈ word, isSmall c = true

theorem isSmall_toLower {c : Char} (h : c.isAlphanum = true) : isSmall c.toLower = true :=
  ascii_forall (P := fun c => c.isAlphanum = true → isSmall c.toLower = true)
    (by decide +kernel) (alphanum_ascii h) h

theorem isAlphanum_eq (c : Char) : c.isAlphanum = (c.isUpper || c.isLower || c.isDigit) := rfl

theorem isSmall_alphanum {c : Char} (h : isSmall c = true) : c.isAlphanum = true := by
  rw [isSmall] at h
  rw [isAlphanum_eq, Bool.or_assoc, h, Bool.or_true]

theorem of_not_alphanum {c : Char} (h : c.isAlphanum = false) :
    c.isUpper = false ∧ c.isLower = false ∧ c.isDigit = false := by
  simp only [isAlphanum_eq, Bool.or_eq_false_iff] at h
  exact ⟨h.1.1, h.1.2, h.2⟩

/-- Small characters are not changed to small ones, and only letters to
capitals. -/
theorem isSmall_cases {c : Char} (h : isSmall c = true) :
    c.toLower = c ∧ c.isUpper = false ∧ (c.isDigit = true ∧ c.toUpper = c ∨
      c.isDigit = false ∧ c.toUpper.isUpper = true ∧ c.toUpper.toLower = c) :=
  ascii_forall (P := fun c => isSmall c = true → c.toLower = c ∧ c.isUpper = false ∧
      (c.isDigit = true ∧ c.toUpper = c ∨
        c.isDigit = false ∧ c.toUpper.isUpper = true ∧ c.toUpper.toLower = c))
    (by decide +kernel) (alphanum_ascii (isSmall_alphanum h)) h

theorem smallWords_small (name : String) : ∀ word ∈ smallWords name, Small word := by
  intro word hword
  obtain ⟨found, hfound, rfl⟩ := List.mem_map.1 hword
  refine ⟨?_, fun c hc => ?_⟩
  · have hnonempty := (List.mem_filter.1 hfound).2
    simpa using hnonempty
  · obtain ⟨d, hd, rfl⟩ := List.mem_map.1 hc
    exact isSmall_toLower (words_alphanum found hfound d hd)

theorem joined_cons (word : List Char) (rest : List (List Char)) :
    joined (word :: rest) = match joined rest with
      | [] => [word]
      | next :: more => if startsWithDigit next then (word ++ next) :: more else word :: next :: more :=
  rfl

theorem Small.append {word next : List Char} (hword : Small word) (hnext : Small next) :
    Small (word ++ next) where
  nonempty := List.append_ne_nil_of_left_ne_nil hword.nonempty _
  chars c hc := (List.mem_append.1 hc).elim (hword.chars c) (hnext.chars c)

theorem map_toLower_small {cs : List Char} (h : ∀ c ∈ cs, isSmall c = true) :
    cs.map Char.toLower = cs := by
  have hsame : ∀ c ∈ cs, c.toLower = id c := fun c hc => (isSmall_cases (h c hc)).1
  rw [List.map_congr_left hsame, List.map_id]

theorem capitalizedWord_append {word next : List Char} (hword : Small word) (hnext : Small next) :
    capitalizedWord (word ++ next) = capitalizedWord word ++ next := by
  obtain ⟨c, cs, rfl⟩ := List.exists_cons_of_ne_nil hword.nonempty
  rw [List.cons_append, capitalizedWord, capitalizedWord, List.map_append,
    map_toLower_small hnext.chars, List.cons_append]

theorem capitalizedWord_of_digit {word : List Char} (h : Small word)
    (hdigit : startsWithDigit word = true) : capitalizedWord word = word := by
  obtain ⟨c, cs, rfl⟩ := List.exists_cons_of_ne_nil h.nonempty
  have hchars := List.forall_mem_cons.1 h.chars
  have hc : c.isDigit = true := hdigit
  rw [capitalizedWord, map_toLower_small hchars.2]
  rcases (isSmall_cases hchars.1).2.2 with ⟨-, hsame⟩ | ⟨hletter, -⟩
  · rw [hsame]
  · rw [hc] at hletter
    cases hletter

theorem joined_small {ws : List (List Char)} (h : ∀ word ∈ ws, Small word) :
    ∀ word ∈ joined ws, Small word := by
  induction ws with
  | nil => exact h
  | cons word rest ih =>
    obtain ⟨hword, hrest⟩ := List.forall_mem_cons.1 h
    have hjoined := ih hrest
    rw [joined_cons]
    split
    · exact List.forall_mem_singleton.2 hword
    · next next more hnext =>
        rw [hnext] at hjoined
        obtain ⟨hfirst, hmore⟩ := List.forall_mem_cons.1 hjoined
        split
        · exact List.forall_mem_cons.2 ⟨hword.append hfirst, hmore⟩
        · exact List.forall_mem_cons.2 ⟨hword, hjoined⟩

/-- After the first one, no joined word starts with a digit. -/
theorem joined_tail (ws : List (List Char)) :
    ∀ word ∈ (joined ws).tail, startsWithDigit word = false := by
  induction ws with
  | nil => exact nofun
  | cons word rest ih =>
    rw [joined_cons]
    split
    · exact nofun
    · next next more hnext =>
        rw [hnext] at ih
        split
        · exact ih
        · next hletter => exact List.forall_mem_cons.2 ⟨by simpa using hletter, ih⟩

/-- Joining changes nothing where every word has a capital. -/
theorem capitals_joined {ws : List (List Char)} (h : ∀ word ∈ ws, Small word) :
    (joined ws).flatMap capitalizedWord = ws.flatMap capitalizedWord := by
  induction ws with
  | nil => rfl
  | cons word rest ih =>
    obtain ⟨hword, hrest⟩ := List.forall_mem_cons.1 h
    have hsmall := joined_small hrest
    rw [List.flatMap_cons, ← ih hrest, joined_cons]
    split
    · next hnone => rw [hnone]; rfl
    · next next more hnext =>
        rw [hnext] at hsmall ⊢
        have hfirst := (List.forall_mem_cons.1 hsmall).1
        split
        · next hdigit =>
            rw [List.flatMap_cons, List.flatMap_cons, capitalizedWord_append hword hfirst,
              capitalizedWord_of_digit hfirst hdigit, List.append_assoc]
        · rfl

theorem camel_joined {ws : List (List Char)} (h : ∀ word ∈ ws, Small word) :
    camel (joined ws) = camel ws := by
  cases ws with
  | nil => rfl
  | cons word rest =>
    have hrest := (List.forall_mem_cons.1 h).2
    have hsmall := joined_small hrest
    rw [camel, ← capitals_joined hrest, joined_cons]
    split
    · next hnone => rw [hnone]; rfl
    · next next more hnext =>
        rw [hnext] at hsmall ⊢
        have hfirst := (List.forall_mem_cons.1 hsmall).1
        split
        · next hdigit =>
            rw [camel, List.flatMap_cons, capitalizedWord_of_digit hfirst hdigit, List.append_assoc]
        · rfl

/-! ## Taking camel case apart -/

theorem split_at_capital {front front' rest rest' : List Char}
    (hfront : ∀ c ∈ front, c.isUpper = false) (hfront' : ∀ c ∈ front', c.isUpper = false)
    (hrest : ∀ c ∈ rest.head?, c.isUpper = true) (hrest' : ∀ c ∈ rest'.head?, c.isUpper = true)
    (h : front ++ rest = front' ++ rest') : front = front' ∧ rest = rest' := by
  induction front generalizing front' with
  | nil =>
    cases front' with
    | nil => exact ⟨rfl, h⟩
    | cons d front' =>
      have hd := hfront' d List.mem_cons_self
      rw [hrest d (by rw [← List.nil_append rest, h]; rfl)] at hd
      cases hd
  | cons c front ih =>
    cases front' with
    | nil =>
      have hc := hfront c List.mem_cons_self
      rw [hrest' c (by rw [← List.nil_append rest', ← h]; rfl)] at hc
      cases hc
    | cons d front' =>
      obtain ⟨rfl, hsame⟩ := List.cons.inj h
      obtain ⟨rfl, rfl⟩ := ih (fun c hc => hfront c (List.mem_cons_of_mem _ hc))
        (fun c hc => hfront' c (List.mem_cons_of_mem _ hc)) hsame
      exact ⟨rfl, rfl⟩

/-- A word that starts with a small letter. -/
def Lettered (word : List Char) : Prop := Small word ∧ startsWithDigit word = false

/-- A word that starts with a letter shows where it starts. -/
theorem Lettered.capital {word : List Char} (h : Lettered word) :
    ∃ c rest, word = c :: rest ∧ capitalizedWord word = c.toUpper :: rest ∧
      c.toUpper.isUpper = true ∧ c.toUpper.toLower = c ∧ ∀ d ∈ rest, isSmall d = true := by
  obtain ⟨c, cs, rfl⟩ := List.exists_cons_of_ne_nil h.1.nonempty
  obtain ⟨hc, hcs⟩ := List.forall_mem_cons.1 h.1.chars
  have hletter : c.isDigit = false := h.2
  refine ⟨c, cs, rfl, by rw [capitalizedWord, map_toLower_small hcs], ?_⟩
  rcases (isSmall_cases hc).2.2 with ⟨hdigit, -⟩ | ⟨-, hupper, hlower⟩
  · rw [hletter] at hdigit
    cases hdigit
  · exact ⟨hupper, hlower, hcs⟩

theorem head_capitals {ws : List (List Char)} (h : ∀ word ∈ ws, Lettered word) :
    ∀ c ∈ (ws.flatMap capitalizedWord).head?, c.isUpper = true := by
  cases ws with
  | nil => exact nofun
  | cons word rest =>
    obtain ⟨c, cs, -, hcapital, hupper, -⟩ := (List.forall_mem_cons.1 h).1.capital
    rw [List.flatMap_cons, hcapital]
    rintro d ⟨⟩
    exact hupper

theorem capitals_injective {ws vs : List (List Char)} (hws : ∀ word ∈ ws, Lettered word)
    (hvs : ∀ word ∈ vs, Lettered word) {front front' : List Char}
    (hfront : ∀ c ∈ front, isSmall c = true) (hfront' : ∀ c ∈ front', isSmall c = true)
    (h : front ++ ws.flatMap capitalizedWord = front' ++ vs.flatMap capitalizedWord) :
    front = front' ∧ ws = vs := by
  induction ws generalizing vs front front' with
  | nil =>
    obtain ⟨rfl, hnone⟩ := split_at_capital (fun c hc => (isSmall_cases (hfront c hc)).2.1)
      (fun c hc => (isSmall_cases (hfront' c hc)).2.1) (head_capitals hws) (head_capitals hvs) h
    cases vs with
    | nil => exact ⟨rfl, rfl⟩
    | cons v vs =>
      obtain ⟨d, ds, -, hcapital, -⟩ := (List.forall_mem_cons.1 hvs).1.capital
      rw [List.flatMap_cons, hcapital] at hnone
      cases hnone
  | cons w ws ih =>
    obtain ⟨rfl, hsame⟩ := split_at_capital (fun c hc => (isSmall_cases (hfront c hc)).2.1)
      (fun c hc => (isSmall_cases (hfront' c hc)).2.1) (head_capitals hws) (head_capitals hvs) h
    obtain ⟨c, cs, rfl, hcapital, -, hlower, hcs⟩ := (List.forall_mem_cons.1 hws).1.capital
    cases vs with
    | nil =>
      rw [List.flatMap_cons, hcapital] at hsame
      cases hsame
    | cons v vs =>
      obtain ⟨d, ds, rfl, hcapital', -, hlower', hds⟩ := (List.forall_mem_cons.1 hvs).1.capital
      rw [List.flatMap_cons, List.flatMap_cons, hcapital, hcapital'] at hsame
      obtain ⟨hhead, htail⟩ := List.cons.inj hsame
      obtain ⟨rfl, rfl⟩ := ih (List.forall_mem_cons.1 hws).2 (List.forall_mem_cons.1 hvs).2 hcs hds htail
      rw [← hlower, hhead, hlower']
      exact ⟨rfl, rfl⟩

/-- Joined words can be told from their camel case. -/
theorem camel_injective {ws vs : List (List Char)} (hws : ∀ word ∈ ws, Small word)
    (hvs : ∀ word ∈ vs, Small word) (h : camel ws = camel vs) : joined ws = joined vs := by
  rw [← camel_joined hws, ← camel_joined hvs] at h
  have hlettered : ∀ {ws : List (List Char)}, (∀ word ∈ ws, Small word) →
      ∀ word ∈ (joined ws).tail, Lettered word := fun hsmall word hword =>
    ⟨joined_small hsmall word (List.mem_of_mem_tail hword), joined_tail _ word hword⟩
  have hw := hlettered hws
  have hv := hlettered hvs
  have hw' := joined_small hws
  have hv' := joined_small hvs
  generalize joined ws = ws at *
  generalize joined vs = vs at *
  cases ws with
  | nil =>
    cases vs with
    | nil => rfl
    | cons v vs =>
      have hnone := (List.append_eq_nil_iff.1 h.symm).1
      exact absurd hnone (hv' v List.mem_cons_self).nonempty
  | cons w ws =>
    cases vs with
    | nil =>
      have hnone := (List.append_eq_nil_iff.1 h).1
      exact absurd hnone (hw' w List.mem_cons_self).nonempty
    | cons v vs =>
      obtain ⟨rfl, rfl⟩ := capitals_injective hw hv (hw' w List.mem_cons_self).chars
        (hv' v List.mem_cons_self).chars h
      rfl

/-! ## Names with words -/

theorem piecesAt_of_not_mem {mark : Char} {cs : List Char} (h : mark ∉ cs) :
    Text.piecesAt mark cs = [cs] := by
  induction cs with
  | nil => rfl
  | cons c cs ih =>
    rw [List.mem_cons, not_or] at h
    rw [Text.piecesAt, if_neg (Ne.symm h.1), ih h.2]

theorem piecesAt_append_mark {mark : Char} {front : List Char} (rest : List Char)
    (h : mark ∉ front) :
    Text.piecesAt mark (front ++ mark :: rest) = front :: Text.piecesAt mark rest := by
  induction front with
  | nil => exact if_pos rfl
  | cons c front ih =>
    rw [List.mem_cons, not_or] at h
    rw [List.cons_append, Text.piecesAt, if_neg (Ne.symm h.1), ih h.2]

/-- Texts put together around a mark are cut apart there again. -/
theorem piecesAt_intercalate {mark : Char} {parts : List (List Char)}
    (h : ∀ part ∈ parts, mark ∉ part) (hparts : parts ≠ []) :
    Text.piecesAt mark ([mark].intercalate parts) = parts := by
  induction parts with
  | nil => exact absurd rfl hparts
  | cons part rest ih =>
    obtain ⟨hpart, hrest⟩ := List.forall_mem_cons.1 h
    cases rest with
    | nil => rw [List.intercalate_singleton, piecesAt_of_not_mem hpart]
    | cons next more =>
      rw [List.intercalate_cons_cons, List.append_assoc, List.singleton_append,
        piecesAt_append_mark _ hpart, ih hrest (List.cons_ne_nil _ _)]

theorem lowerAfter_small {before cs : List Char} (h : ∀ c ∈ cs, isSmall c = true) :
    Text.lowerAfter before cs = cs := by
  rw [lowerAfter_eq_map fun c hc => alphanum_ascii (isSmall_alphanum (h c hc)),
    map_toLower_small h]

theorem capitalized_small {word : List Char} (h : Small word) :
    Text.capitalized (String.ofList word) = String.ofList (capitalizedWord word) := by
  obtain ⟨c, cs, rfl⟩ := List.exists_cons_of_ne_nil h.nonempty
  obtain ⟨hc, hcs⟩ := List.forall_mem_cons.1 h.chars
  have himage : Text.titleChar c = [c.toUpper] := by
    rw [Text.titleChar, if_pos (alphanum_ascii (isSmall_alphanum hc))]
  rw [Text.capitalized, String.toList_ofList]
  dsimp only
  rw [himage, lowerAfter_small hcs, capitalizedWord, map_toLower_small hcs, List.singleton_append]

theorem join_capitalized {ws : List (List Char)} (h : ∀ word ∈ ws, Small word) :
    String.join ((ws.map String.ofList).map Text.capitalized) =
      String.ofList (ws.flatMap capitalizedWord) := by
  induction ws with
  | nil => rfl
  | cons word rest ih =>
    obtain ⟨hword, hrest⟩ := List.forall_mem_cons.1 h
    rw [List.map_cons, List.map_cons, String.join_cons, ih hrest, capitalized_small hword,
      List.flatMap_cons, String.ofList_append]

theorem slug_eq {name fallback : String} (h : smallWords name ≠ []) :
    slug name fallback = String.ofList (['_'].intercalate (smallWords name)) := by
  unfold slug
  split
  · next hnone => exact absurd (congrArg (·.map (·.map Char.toLower)) hnone) h
  · rfl

/-- The camel case of a name with words. -/
theorem camelCase_slug {name fallback : String} (h : smallWords name ≠ []) :
    camelCase (slug name fallback) = String.ofList (camel (smallWords name)) := by
  have hsmall := smallWords_small name
  have hmark : ∀ word ∈ smallWords name, '_' ∉ word := fun word hword hmem =>
    absurd ((hsmall word hword).chars _ hmem) (by decide)
  rw [slug_eq h, camelCase, Text.splitAt, String.toList_ofList, piecesAt_intercalate hmark h]
  generalize smallWords name = ws at *
  cases ws with
  | nil => exact absurd rfl h
  | cons word rest =>
    have hrest := (List.forall_mem_cons.1 hsmall).2
    rw [List.map_cons]
    dsimp only
    rw [join_capitalized hrest, camel, String.ofList_append]

/-- The binding of a parameter with this name. -/
def bindingOf (name : String) : String := safeIdentifier (camelCase (slug name name))

/-- A text that starts with a small letter or has a digit. -/
def Marked (cs : List Char) : Prop :=
  (∃ c, cs.head? = some c ∧ c.isLower = true) ∨ ∃ c ∈ cs, c.isDigit = true

/-- A character of a legal name. -/
def legalChar (c : Char) : Char := if isNamePart c then c else '_'

/-- A legal name is the text with underscores, one perhaps at the end. -/
theorem safeIdentifier_eq (s : String) : ∃ suffix, (∀ c ∈ suffix, c = '_') ∧
    (safeIdentifier s).toList = withNameStart (s.toList.map legalChar) ++ suffix := by
  unfold safeIdentifier
  dsimp only
  split
  · refine ⟨['_'], List.forall_mem_singleton.2 rfl, ?_⟩
    rw [String.toList_append, String.toList_ofList]
    rfl
  · refine ⟨[], nofun, ?_⟩
    rw [String.toList_ofList, List.append_nil]
    rfl

/-- What makes a text of letters and digits a legal name are underscores. -/
theorem safeIdentifier_letters {s : String} (h : ∀ c ∈ s.toList, c.isAlphanum = true) :
    (safeIdentifier s).toList.filter Char.isAlphanum = s.toList := by
  obtain ⟨suffix, hsuffix, hname⟩ := safeIdentifier_eq s
  have hsame : ∀ c ∈ s.toList, legalChar c = id c := fun c hc => by
    rw [legalChar, isNamePart, h c hc]
    rfl
  have hnone : suffix.filter Char.isAlphanum = [] := by
    rw [List.filter_eq_nil_iff]
    intro c hc
    rw [hsuffix c hc]
    decide
  rw [hname, List.filter_append, hnone, List.append_nil, List.map_congr_left hsame, List.map_id]
  clear hname hsame
  generalize s.toList = cs at h
  unfold withNameStart
  split
  · rfl
  · split
    · rw [List.filter_cons_of_neg (by decide), List.filter_eq_self.2 h]
    · exact List.filter_eq_self.2 h

theorem camel_small {ws : List (List Char)} (h : ∀ word ∈ ws, Small word) :
    ∀ c ∈ camel ws, c.isAlphanum = true := by
  cases ws with
  | nil => exact nofun
  | cons word rest =>
    obtain ⟨hword, hrest⟩ := List.forall_mem_cons.1 h
    intro c hc
    rcases List.mem_append.1 hc with hc | hc
    · exact isSmall_alphanum (hword.chars c hc)
    · obtain ⟨next, hnext, hc⟩ := List.mem_flatMap.1 hc
      obtain ⟨d, ds, rfl⟩ := List.exists_cons_of_ne_nil (hrest next hnext).nonempty
      obtain ⟨hd, hds⟩ := List.forall_mem_cons.1 (hrest _ hnext).chars
      rw [capitalizedWord, map_toLower_small hds] at hc
      rcases List.mem_cons.1 hc with rfl | hc
      · exact alphanum_toUpper (isSmall_alphanum hd)
      · exact isSmall_alphanum (hds c hc)

/-- The words of a name are in its binding, whatever underscores there are. -/
theorem bindingOf_words {name : String} (h : smallWords name ≠ []) :
    (bindingOf name).toList.filter Char.isAlphanum = camel (smallWords name) := by
  have hcamel := camel_small (smallWords_small name)
  rw [← String.toList_ofList (l := camel (smallWords name))] at hcamel
  rw [bindingOf, camelCase_slug h, safeIdentifier_letters hcamel, String.toList_ofList]

theorem marked_bindingOf {name : String} (h : smallWords name ≠ []) :
    Marked (bindingOf name).toList := by
  obtain ⟨word, rest, hws⟩ := List.exists_cons_of_ne_nil h
  have hword := smallWords_small name word (by rw [hws]; exact List.mem_cons_self)
  obtain ⟨c, cs, rfl⟩ := List.exists_cons_of_ne_nil hword.nonempty
  have hc := (List.forall_mem_cons.1 hword.chars).1
  obtain ⟨more, hcamel⟩ : ∃ more, (camelCase (slug name name)).toList = c :: more := by
    rw [camelCase_slug h, hws, String.toList_ofList]
    exact ⟨_, rfl⟩
  have hlegal : legalChar c = c := by
    rw [legalChar, isNamePart, isSmall_alphanum hc]
    rfl
  obtain ⟨suffix, -, hname⟩ := safeIdentifier_eq (camelCase (slug name name))
  rw [bindingOf, hname, hcamel, List.map_cons, hlegal, withNameStart]
  split
  · next hdigit => exact .inr ⟨c, by simp, hdigit⟩
  · next hletter =>
      simp only [isSmall, Bool.or_eq_true] at hc
      exact .inl ⟨c, rfl, hc.resolve_right hletter⟩

/-! ## Names without words -/

/-- A name without words has no letter and no digit of ASCII. -/
theorem not_alphanum_of_words {cut : CutRule} {cs : List Char} (h : words cut cs = []) :
    ∀ c ∈ cs, c.isAlphanum = false := by
  have hempty : ∀ word ∈ pieces cut cs, word = [] := by
    intro word hword
    have := List.filter_eq_nil_iff.1 h word hword
    simpa using this
  clear h
  induction cs with
  | nil => exact nofun
  | cons c cs ih =>
    rw [pieces.eq_def] at hempty
    dsimp only at hempty
    split at hempty
    · next hc => exact List.forall_mem_cons.2 ⟨by simpa using hc, ih (List.forall_mem_cons.1 hempty).2⟩
    · exfalso
      split at hempty
      · exact List.cons_ne_nil _ _ (hempty [c] List.mem_cons_self)
      · next word words _ =>
          have hletter : ∀ isCut : Bool, ∃ piece ∈
              (if isCut then [c] :: word :: words else (c :: word) :: words), piece ≠ [] := by
            intro isCut
            cases isCut with
            | false => exact ⟨_, List.mem_cons_self, List.cons_ne_nil _ _⟩
            | true => exact ⟨_, List.mem_cons_self, List.cons_ne_nil _ _⟩
          obtain ⟨piece, hpiece, hnonempty⟩ := hletter _
          exact hnonempty (hempty piece hpiece)

theorem wordless {name : String} (h : smallWords name = []) :
    (∀ c ∈ name.toList, c.isAlphanum = false) ∧ ∀ fallback, slug name fallback = fallback := by
  have hwords : words slugCut name.toList = [] := List.map_eq_nil_iff.1 h
  refine ⟨not_alphanum_of_words hwords, fun fallback => ?_⟩
  rw [slug, hwords]

/-- Whether a character lies outside of a range of codes. -/
def Outside (low high : Nat) (c : Char) : Prop := ¬(low ≤ c.toNat ∧ c.toNat ≤ high)

theorem outside_digit {c : Char} : Outside 0x30 0x39 c ↔ c.isDigit = false := by
  have hcode : c.val.toNat = c.toNat := rfl
  simp only [Outside, Char.isDigit, Bool.and_eq_false_iff, decide_eq_false_iff_not, ge_iff_le,
    UInt32.le_iff_toNat_le, hcode]
  have h0 : '0'.val.toNat = 48 := rfl
  have h9 : '9'.val.toNat = 57 := rfl
  omega

theorem outside_lower {c : Char} : Outside 0x61 0x7a c ↔ c.isLower = false := by
  have hcode : c.val.toNat = c.toNat := rfl
  have hlower : c.isLower = (decide (c.val ≥ 'a'.val) && decide (c.val ≤ 'z'.val)) := rfl
  simp only [Outside, hlower, Bool.and_eq_false_iff, decide_eq_false_iff_not, ge_iff_le,
    UInt32.le_iff_toNat_le, hcode]
  have ha : 'a'.val.toNat = 97 := rfl
  have hz : 'z'.val.toNat = 122 := rfl
  omega

theorem toNat_ofNat (n : Nat) : (Char.ofNat n).toNat = n ∨ (Char.ofNat n).toNat = 0 := by
  by_cases h : n.isValidChar
  · have hchar : Char.ofNat n = Char.ofNatAux n h := dif_pos h
    rw [hchar]
    exact .inl rfl
  · have hchar : Char.ofNat n = ⟨0, by decide⟩ := dif_neg h
    rw [hchar]
    exact .inr rfl

/-- The images of a character stay outside of a range if no run leads into it. -/
theorem mapByRuns_outside {runs : List Text.CaseRun} {low high : Nat} (hlow : 0 < low)
    (hruns : ∀ run ∈ runs, high < run.target ∨ run.target + (run.last - run.first) < low) {c : Char}
    (hc : Outside low high c) : Outside low high (Text.mapByRuns runs c) := by
  unfold Text.mapByRuns
  split
  · next code hcode =>
      obtain ⟨run, hrun, himage⟩ := List.exists_of_findSome?_eq_some hcode
      have hside := hruns run hrun
      unfold Text.CaseRun.image? at himage
      split at himage
      · next hin =>
          simp only [Bool.and_eq_true, decide_eq_true_eq] at hin
          obtain rfl := Option.some.inj himage
          unfold Outside
          rcases toNat_ofNat (run.target + (c.toNat - run.first)) with hsame | hzero <;> omega
      · cases himage
  · exact hc

/-- No change of case leads to a digit. -/
theorem lowerChar_digit {c : Char} (h : c.isDigit = false) :
    ∀ d ∈ Text.lowerChar c, d.isDigit = false := by
  unfold Text.lowerChar
  split
  · next hascii =>
      exact List.forall_mem_singleton.2 (ascii_forall (P := fun c =>
        c.isDigit = false → c.toLower.isDigit = false) (by decide +kernel) hascii h)
  · split
    · exact List.all_iff_forall_prop.1 (by decide)
    · exact List.forall_mem_singleton.2 (outside_digit.1
        (mapByRuns_outside (by decide) (by decide +kernel) (outside_digit.2 h)))

/-- What a character other than a letter or digit becomes in title case: there
is no digit, and the first character is no small letter. -/
theorem titleChar_spec {c : Char} (h : c.isAlphanum = false) :
    (∀ d ∈ Text.titleChar c, d.isDigit = false) ∧
      ∃ d rest, Text.titleChar c = d :: rest ∧ d.isLower = false := by
  obtain ⟨-, hlower, hdigit⟩ := of_not_alphanum h
  unfold Text.titleChar
  split
  · next hascii =>
      have hspec := ascii_forall (P := fun c => c.isLower = false → c.isDigit = false →
        c.toUpper.isDigit = false ∧ c.toUpper.isLower = false) (by decide +kernel) hascii hlower hdigit
      exact ⟨List.forall_mem_singleton.2 hspec.1, _, [], rfl, hspec.2⟩
  · split
    · next codes hcodes =>
        have hspecials : ∀ special ∈ Text.titleSpecials,
            (special.2.map Char.ofNat).all (fun d => !d.isDigit) = true ∧
              ((special.2.map Char.ofNat).head?.any fun d => !d.isLower) = true := by
          decide +kernel
        obtain ⟨before, rest, htable, -⟩ := List.lookup_eq_some_iff.1 hcodes
        obtain ⟨hnone, hhead⟩ := hspecials (c.toNat, codes) (by rw [htable]; simp)
        refine ⟨by simpa using hnone, ?_⟩
        dsimp only at hhead
        generalize codes.map Char.ofNat = chars at hhead
        cases chars with
        | nil => cases hhead
        | cons d more => exact ⟨d, more, rfl, by simpa using hhead⟩
    · refine ⟨List.forall_mem_singleton.2 (outside_digit.1
        (mapByRuns_outside (by decide) (by decide +kernel) (outside_digit.2 hdigit))), _, [], rfl, ?_⟩
      exact outside_lower.1 (mapByRuns_outside (by decide) (by decide +kernel) (outside_lower.2 hlower))

theorem lowerAfter_digit {before cs : List Char} (h : ∀ c ∈ cs, c.isDigit = false) :
    ∀ d ∈ Text.lowerAfter before cs, d.isDigit = false := by
  induction cs generalizing before with
  | nil => exact nofun
  | cons c cs ih =>
    obtain ⟨hc, hcs⟩ := List.forall_mem_cons.1 h
    rw [Text.lowerAfter]
    refine List.forall_mem_append.2 ⟨?_, ih hcs⟩
    split
    · split <;> exact List.forall_mem_singleton.2 rfl
    · exact lowerChar_digit hc

/-- A piece of a name without words, with a capital. -/
theorem capitalized_spec {s : String} (h : ∀ c ∈ s.toList, c.isAlphanum = false) :
    (∀ d ∈ (Text.capitalized s).toList, d.isDigit = false) ∧
      ∀ d ∈ (Text.capitalized s).toList.head?, d.isLower = false := by
  unfold Text.capitalized
  split
  · exact ⟨by simp, by simp⟩
  · next c rest hs =>
      rw [hs] at h
      obtain ⟨hc, hrest⟩ := List.forall_mem_cons.1 h
      obtain ⟨hdigits, d, more, htitle, hlower⟩ := titleChar_spec hc
      have hnone : ∀ c ∈ rest, c.isDigit = false := fun c hc => (of_not_alphanum (hrest c hc)).2.2
      rw [String.toList_ofList]
      refine ⟨List.forall_mem_append.2 ⟨hdigits, lowerAfter_digit hnone⟩, ?_⟩
      rw [htitle]
      rintro _ ⟨⟩
      exact hlower

theorem head?_join {parts : List String} {c : Char} (h : c ∈ (String.join parts).toList.head?) :
    ∃ part ∈ parts, c ∈ part.toList.head? := by
  induction parts with
  | nil => cases h
  | cons part rest ih =>
    rw [String.join_cons, String.toList_append] at h
    cases hpart : part.toList with
    | nil =>
      rw [hpart] at h
      obtain ⟨other, hother, hc⟩ := ih h
      exact ⟨other, List.mem_cons_of_mem _ hother, hc⟩
    | cons d ds =>
      rw [hpart] at h
      exact ⟨part, List.mem_cons_self, by rw [hpart]; exact h⟩

/-- The camel case of a name without words has no digit and does not start with
a small letter. -/
theorem camelCase_wordless {s : String} (h : ∀ c ∈ s.toList, c.isAlphanum = false) :
    (∀ c ∈ (camelCase s).toList, c.isDigit = false) ∧
      ∀ c ∈ (camelCase s).toList.head?, c.isLower = false := by
  have hpieces : ∀ piece ∈ Text.splitAt '_' s, ∀ c ∈ piece.toList, c.isAlphanum = false := by
    intro piece hpiece c hc
    obtain ⟨cs, hcs, rfl⟩ := List.mem_map.1 hpiece
    rw [String.toList_ofList] at hc
    exact h c (piecesAt_chars cs hcs c hc).1
  unfold camelCase
  split
  · exact ⟨fun c hc => (of_not_alphanum (h c hc)).2.2,
      fun c hc => (of_not_alphanum (h c (List.mem_of_mem_head? hc))).2.1⟩
  · next first others hsplit =>
      rw [hsplit] at hpieces
      obtain ⟨hfirst, hothers⟩ := List.forall_mem_cons.1 hpieces
      rw [String.toList_append]
      constructor
      · refine List.forall_mem_append.2 ⟨fun c hc => (of_not_alphanum (hfirst c hc)).2.2, fun c hc => ?_⟩
        obtain ⟨part, hpart, hc⟩ := mem_join.1 hc
        obtain ⟨other, hother, rfl⟩ := List.mem_map.1 hpart
        exact (capitalized_spec (hothers other hother)).1 c hc
      · intro c hc
        cases hchars : first.toList with
        | nil =>
          rw [hchars] at hc
          obtain ⟨part, hpart, hc⟩ := head?_join hc
          obtain ⟨other, hother, rfl⟩ := List.mem_map.1 hpart
          exact (capitalized_spec (hothers other hother)).2 c hc
        | cons d ds =>
          rw [hchars] at hc
          obtain rfl := Option.some.inj hc
          exact (of_not_alphanum (hfirst d (by rw [hchars]; exact List.mem_cons_self))).2.1

theorem not_marked_safeIdentifier {s : String} (hdigits : ∀ c ∈ s.toList, c.isDigit = false)
    (hhead : ∀ c ∈ s.toList.head?, c.isLower = false) : ¬Marked (safeIdentifier s).toList := by
  have hlegal : ∀ {p : Char → Bool}, p '_' = false → ∀ {c : Char}, p c = false →
      p (legalChar c) = false := by
    intro p hscore c hc
    unfold legalChar
    split
    · exact hc
    · exact hscore
  obtain ⟨suffix, hsuffix, hname⟩ := safeIdentifier_eq s
  have hscores : ∀ c ∈ suffix, c.isDigit = false := fun c hc => by
    rw [hsuffix c hc]
    rfl
  suffices hstart : (∀ c ∈ withNameStart (s.toList.map legalChar), c.isDigit = false) ∧
      ∃ c rest, withNameStart (s.toList.map legalChar) = c :: rest ∧ c.isLower = false by
    obtain ⟨hnone, c, rest, hcons, hlower⟩ := hstart
    rw [hname]
    rintro (⟨d, hd, hmark⟩ | ⟨d, hd, hmark⟩)
    · rw [hcons] at hd
      obtain rfl := Option.some.inj hd
      rw [hlower] at hmark
      cases hmark
    · rw [List.forall_mem_append.2 ⟨hnone, hscores⟩ d hd] at hmark
      cases hmark
  cases hchars : s.toList with
  | nil => exact ⟨List.forall_mem_singleton.2 rfl, '_', [], rfl, rfl⟩
  | cons c cs =>
    rw [hchars] at hdigits hhead
    have hmapped : ∀ d ∈ (c :: cs).map legalChar, d.isDigit = false := fun d hd => by
      obtain ⟨e, he, rfl⟩ := List.mem_map.1 hd
      exact hlegal rfl (hdigits e he)
    have hsame : withNameStart ((c :: cs).map legalChar) = (c :: cs).map legalChar :=
      if_neg (by rw [hmapped _ List.mem_cons_self]; exact Bool.false_ne_true)
    rw [hsame]
    exact ⟨hmapped, _, _, rfl, hlegal rfl (hhead c rfl)⟩

theorem not_marked_bindingOf {name : String} (h : smallWords name = []) :
    ¬Marked (bindingOf name).toList := by
  obtain ⟨hchars, hslug⟩ := wordless h
  obtain ⟨hdigits, hhead⟩ := camelCase_wordless hchars
  rw [bindingOf, hslug]
  exact not_marked_safeIdentifier hdigits hhead

/-! ## Names with one binding -/

theorem bindingOf_wordless {name : String} (h : smallWords name = []) :
    bindingOf name = safeIdentifier (camelCase name) := by
  rw [bindingOf, (wordless h).2]

theorem joined_eq_nil {ws : List (List Char)} (h : joined ws = []) : ws = [] := by
  cases ws with
  | nil => rfl
  | cons word rest =>
    rw [joined_cons] at h
    split at h
    · cases h
    · split at h <;> cases h

/-- A name with words never shares its binding with a name without. -/
theorem bindingOf_ne_of_wordless {a b : String} (ha : smallWords a ≠ [])
    (hb : smallWords b = []) : bindingOf a ≠ bindingOf b := by
  intro h
  have hmarked := marked_bindingOf ha
  rw [h] at hmarked
  exact not_marked_bindingOf hb hmarked

/-- Two names have one binding exactly if they have the same joined words, or if
both have no words and are the same once their camel case is a legal name. -/
theorem bindingOf_eq_iff {a b : String} :
    bindingOf a = bindingOf b ↔
      (smallWords a ≠ [] ∧ joined (smallWords a) = joined (smallWords b)) ∨
      (smallWords a = [] ∧ smallWords b = [] ∧
        safeIdentifier (camelCase a) = safeIdentifier (camelCase b)) := by
  by_cases ha : smallWords a = [] <;> by_cases hb : smallWords b = []
  · rw [bindingOf_wordless ha, bindingOf_wordless hb]
    constructor
    · exact fun h => .inr ⟨ha, hb, h⟩
    · rintro (⟨hwords, -⟩ | ⟨-, -, h⟩)
      · exact absurd ha hwords
      · exact h
  · constructor
    · exact fun h => absurd h.symm (bindingOf_ne_of_wordless hb ha)
    · rintro (⟨hwords, -⟩ | ⟨-, hwords, -⟩)
      · exact absurd ha hwords
      · exact absurd hwords hb
  · constructor
    · exact fun h => absurd h (bindingOf_ne_of_wordless ha hb)
    · rintro (⟨-, h⟩ | ⟨hwords, -, -⟩)
      · rw [hb] at h
        exact absurd (joined_eq_nil h) ha
      · exact absurd hwords ha
  · constructor
    · intro h
      refine .inl ⟨ha, camel_injective (smallWords_small a) (smallWords_small b) ?_⟩
      rw [← bindingOf_words ha, ← bindingOf_words hb, h]
    · rintro (⟨-, h⟩ | ⟨hwords, -, -⟩)
      · rw [bindingOf, bindingOf, camelCase_slug ha, camelCase_slug hb,
          ← camel_joined (smallWords_small a), h, camel_joined (smallWords_small b)]
      · exact absurd hwords ha

end TypedClient.Naming
