import TypedClient.Proofs.Slugs

/-!
# A slug in four substitutions

A slug is made of words, which `words` cuts from the text in one go. The usual
way to make it is another one: underscores are put in by two substitutions, one
for each kind of change of case, a third replaces everything that is no ASCII
letter or digit, and a fourth makes runs of underscores into single ones. What
is left loses the underscores at its ends and its capitals. `slug_eq_bySubstitution`
says that both ways lead to one slug, for every text.

A substitution replaces what a pattern matches from the left and goes on after
the match. That matches do not overlap could lose an underscore, but the first
two patterns end with a character that starts no further match, so all they do
is put in the underscores of a rule (`marked`). The rule of the second is about
capitals, between which the first puts nothing, and so both together make up
`slugCut`. The other two substitutions are followed character by character
(`cleaned`), and of the last one it turns out that it has nothing to do.
-/

namespace TypedClient.Naming

/-! ## Substitutions -/

/-- What a pattern finds at the start of a text: what stands in its place, and
how many characters it takes, at least one. -/
abbrev Pattern := List Char → Option (List Char × Nat)

/-- Everything that a pattern finds replaced, from the left and without overlaps,
after some characters that have been taken. -/
def substitute (find : Pattern) : (taken : Nat) → List Char → List Char
  | _, [] => []
  | taken + 1, _ :: rest => substitute find taken rest
  | 0, c :: rest =>
    match find (c :: rest) with
    | some (found, size) => found ++ substitute find (size - 1) rest
    | none => c :: substitute find 0 rest

/-- `([a-z0-9])([A-Z])`, with an underscore between the two groups. -/
def smallThenCapital : Pattern
  | c :: d :: _ =>
    if isSmall c && d.isUpper then some ([c, '_', d], 2) else none
  | _ => none

/-- The first group of `([A-Z]+)([A-Z][a-z])`, which takes as much as it can. -/
def capitalsBeforeWord : List Char → Option (List Char)
  | [] => none
  | c :: rest =>
    if c.isUpper then
      match capitalsBeforeWord rest with
      | some capitals => some (c :: capitals)
      | none =>
        match rest with
        | d :: e :: _ => if d.isUpper && e.isLower then some [c] else none
        | _ => none
    else none

/-- `([A-Z]+)([A-Z][a-z])`, with an underscore between the two groups. -/
def capitalsThenWord : Pattern := fun cs =>
  (capitalsBeforeWord cs).map fun capitals =>
    (capitals ++ '_' :: (cs.drop capitals.length).take 2, capitals.length + 2)

/-- Whether a character is no ASCII letter or digit. -/
def isOther (c : Char) : Bool := !c.isAlphanum

/-- One or more characters of a kind, with an underscore in their place. -/
def runOf (p : Char → Bool) : Pattern := fun cs =>
  match cs.takeWhile p with
  | [] => none
  | found => some (['_'], found.length)

/-- A text without the underscores at its ends. -/
def stripped (cs : List Char) : List Char :=
  ((cs.dropWhile (· = '_')).reverse.dropWhile (· = '_')).reverse

/-- A slug in four substitutions, one after the other. -/
def slugBySubstitution (s fallback : String) : String :=
  let cased := substitute smallThenCapital 0 s.toList
  let cased := substitute capitalsThenWord 0 cased
  let cleaned := substitute (runOf isOther) 0 cased
  let cleaned := substitute (runOf (· = '_')) 0 cleaned
  let found := Text.lowered (String.ofList (stripped cleaned))
  if found = "" then fallback else found

/-! ## Changes of case -/

/-- A text with an underscore wherever a rule cuts. -/
def marked (cut : CutRule) : List Char → List Char
  | [] => []
  | [c] => [c]
  | c :: d :: rest =>
    if cut c d rest.head? then c :: '_' :: marked cut (d :: rest) else c :: marked cut (d :: rest)

/-- A capital after a small letter or digit is cut off. -/
def smallCut : CutRule := fun c d _ => isSmall c && d.isUpper

/-- A capital between a capital and a small letter is cut off. -/
def wordCut : CutRule := fun c d next => c.isUpper && d.isUpper && next.any Char.isLower

variable {cut : CutRule} {c d : Char} {rest cs : List Char}

theorem marked_cut (h : cut c d rest.head? = true) :
    marked cut (c :: d :: rest) = c :: '_' :: marked cut (d :: rest) := by
  rw [marked, if_pos h]

theorem marked_keep (h : cut c d rest.head? = false) :
    marked cut (c :: d :: rest) = c :: marked cut (d :: rest) := by
  rw [marked, h, if_neg Bool.false_ne_true]

/-- Nothing is cut off after a character that no rule cuts after. -/
theorem marked_cons (h : ∀ d next, cut c d next = false) :
    marked cut (c :: rest) = c :: marked cut rest := by
  cases rest with
  | nil => rfl
  | cons d more => exact marked_keep (h d _)

theorem head?_marked (cut : CutRule) (cs : List Char) : (marked cut cs).head? = cs.head? := by
  match cs with
  | [] => rfl
  | [c] => rfl
  | c :: d :: rest =>
    rw [marked]
    split <;> rfl

section Substitute

variable {find : Pattern} {found : List Char} {size : Nat}

theorem substitute_taken (taken : Nat) (cs : List Char) :
    substitute find taken cs = substitute find 0 (cs.drop taken) := by
  induction taken generalizing cs with
  | zero => rfl
  | succ taken ih =>
    cases cs with
    | nil => rfl
    | cons c rest => exact ih rest

theorem substitute_found (h : find (c :: rest) = some (found, size)) :
    substitute find 0 (c :: rest) = found ++ substitute find 0 (rest.drop (size - 1)) := by
  rw [substitute, h, ← substitute_taken]

theorem substitute_none (h : find (c :: rest) = none) :
    substitute find 0 (c :: rest) = c :: substitute find 0 rest := by
  rw [substitute, h]

end Substitute

theorem small_of_upper (h : c.isUpper = true) : isSmall c = false := by
  rw [Bool.eq_false_iff]
  intro hsmall
  rw [(isSmall_cases hsmall).2.1] at h
  cases h

theorem lower_of_upper (h : c.isUpper = true) : c.isLower = false :=
  (Bool.or_eq_false_iff.1 (small_of_upper h)).1

theorem upper_of_lower (h : c.isLower = true) : c.isUpper = false := by
  rw [Bool.eq_false_iff]
  intro hupper
  rw [lower_of_upper hupper] at h
  cases h

theorem substitute_smallThenCapital (cs : List Char) :
    substitute smallThenCapital 0 cs = marked smallCut cs := by
  match cs with
  | [] => rfl
  | [c] => rfl
  | c :: d :: rest =>
    by_cases hcut : smallCut c d rest.head? = true
    · have hd : d.isUpper = true := (Bool.and_eq_true_iff.1 hcut).2
      have hnext : marked smallCut (d :: rest) = d :: marked smallCut rest :=
        marked_cons fun e _ => by rw [smallCut, small_of_upper hd]; rfl
      rw [marked_cut hcut, hnext, substitute_found (if_pos hcut),
        ← substitute_smallThenCapital rest]
      rfl
    · have hkeep := Bool.not_eq_true _ ▸ hcut
      rw [marked_keep hkeep, substitute_none (if_neg hcut), substitute_smallThenCapital (d :: rest)]

/-! ## Capitals before a word -/

theorem capitalsBeforeWord_spec {capitals : List Char} (h : capitalsBeforeWord cs = some capitals) :
    ∃ d e more, cs = capitals ++ d :: e :: more ∧ capitals ≠ [] ∧
      (∀ c ∈ capitals, c.isUpper = true) ∧ d.isUpper = true ∧ e.isLower = true := by
  induction cs generalizing capitals with
  | nil => cases h
  | cons c rest ih =>
    unfold capitalsBeforeWord at h
    split at h
    · next hc =>
      split at h
      · next inner hinner =>
        obtain ⟨d, e, more, rfl, -, hupper, hd, he⟩ := ih hinner
        cases h
        have hall : ∀ c' ∈ c :: inner, c'.isUpper = true := List.forall_mem_cons.2 ⟨hc, hupper⟩
        exact ⟨d, e, more, rfl, List.cons_ne_nil c inner, hall, hd, he⟩
      · split at h
        · next d e more _ =>
          split at h
          · next hword =>
            cases h
            obtain ⟨hd, he⟩ := Bool.and_eq_true_iff.1 hword
            exact ⟨d, e, more, rfl, List.cons_ne_nil c [], List.forall_mem_singleton.2 hc, hd, he⟩
          · cases h
        · cases h
    · cases h

/-- Where no group is found, no capital is cut off. -/
theorem wordCut_of_none (h : capitalsBeforeWord (c :: d :: rest) = none) :
    wordCut c d rest.head? = false := by
  rw [Bool.eq_false_iff]
  intro hcut
  obtain ⟨hcapitals, hnext⟩ := Bool.and_eq_true_iff.1 hcut
  obtain ⟨hc, hd⟩ := Bool.and_eq_true_iff.1 hcapitals
  cases rest with
  | nil => cases hnext
  | cons e more =>
    have he : e.isLower = true := hnext
    unfold capitalsBeforeWord at h
    rw [if_pos hc] at h
    split at h
    · cases h
    · dsimp only at h
      rw [hd, he] at h
      cases h

/-- Of capitals before a word only the last is cut off. -/
theorem marked_capitals {capitals more : List Char} {e : Char} (hnonempty : capitals ≠ [])
    (hupper : ∀ c ∈ capitals, c.isUpper = true) (hd : d.isUpper = true) (he : e.isLower = true) :
    marked wordCut (capitals ++ d :: e :: more) =
      capitals ++ '_' :: d :: e :: marked wordCut more := by
  induction capitals with
  | nil => exact absurd rfl hnonempty
  | cons c inner ih =>
    obtain ⟨hc, hinner⟩ := List.forall_mem_cons.1 hupper
    cases inner with
    | nil =>
      have hcut : wordCut c d (e :: more).head? = true := by
        rw [wordCut, hc, hd]
        exact he
      have hword : marked wordCut (d :: e :: more) = d :: e :: marked wordCut more := by
        have hkeep : wordCut d e more.head? = false := by
          rw [wordCut, upper_of_lower he, Bool.and_false, Bool.false_and]
        rw [marked_keep hkeep, marked_cons fun f next => ?_]
        rw [wordCut, upper_of_lower he, Bool.false_and, Bool.false_and]
      rw [List.singleton_append, marked_cut hcut, hword]
      rfl
    | cons c' inner =>
      -- the capital after the next one, or the one before the small letter
      have hnext : ((inner ++ d :: e :: more).head?.any Char.isLower) = false := by
        cases inner with
        | nil => exact lower_of_upper hd
        | cons c'' _ => exact lower_of_upper (hinner c'' (by simp))
      have hkeep : wordCut c c' (inner ++ d :: e :: more).head? = false := by
        rw [wordCut, hnext, Bool.and_false]
      rw [List.cons_append, List.cons_append, marked_keep hkeep, ← List.cons_append,
        ih (List.cons_ne_nil c' inner) hinner]
      rfl

theorem substitute_capitalsThenWord (cs : List Char) :
    substitute capitalsThenWord 0 cs = marked wordCut cs := by
  induction hn : cs.length using Nat.strongRecOn generalizing cs with
  | ind n ih =>
  subst hn
  cases cs with
  | nil => rfl
  | cons c rest =>
    cases hfound : capitalsBeforeWord (c :: rest) with
    | none =>
      have hnone : capitalsThenWord (c :: rest) = none := by rw [capitalsThenWord, hfound]; rfl
      rw [substitute_none hnone, ih rest.length (Nat.lt_succ_self _) rest rfl]
      cases rest with
      | nil => rfl
      | cons d more => rw [marked_keep (wordCut_of_none hfound)]
    | some capitals =>
      obtain ⟨d, e, more, htext, hnonempty, hupper, hd, he⟩ := capitalsBeforeWord_spec hfound
      have hsome : capitalsThenWord (c :: rest) =
          some (capitals ++ ['_', d, e], capitals.length + 2) := by
        rw [capitalsThenWord, hfound, htext]
        simp
      have hdrop : rest.drop (capitals.length + 2 - 1) = more := by
        have hall : (c :: rest).drop (capitals.length + 2) = more := by
          rw [htext]
          simp
        exact hall
      have hshort : more.length < (c :: rest).length := by
        rw [htext]
        simp
        omega
      rw [substitute_found hsome, hdrop, ih more.length hshort more rfl, htext,
        marked_capitals hnonempty hupper hd he]
      simp

/-! ## Both changes of case -/

theorem slugCut_eq (c d : Char) (next : Option Char) :
    slugCut c d next = (smallCut c d next || wordCut c d next) := by
  rw [slugCut, smallCut, wordCut, isSmall]
  cases d.isUpper <;> simp

/-- Underscores between small letters and capitals do not stand in the way of the
other rule, which is about capitals. -/
theorem marked_marked (cs : List Char) :
    marked wordCut (marked smallCut cs) = marked slugCut cs := by
  match cs with
  | [] => rfl
  | [c] => rfl
  | c :: d :: rest =>
    have ih := marked_marked (d :: rest)
    have hslug := slugCut_eq c d rest.head?
    by_cases hsmall : smallCut c d rest.head? = true
    · rw [hsmall, Bool.true_or] at hslug
      have hc : c.isUpper = false := (isSmall_cases (Bool.and_eq_true_iff.1 hsmall).1).2.1
      rw [marked_cut hsmall, marked_cut hslug, ← ih]
      rw [marked_cons fun f next => by rw [wordCut, hc, Bool.false_and, Bool.false_and]]
      rw [marked_cons fun f next => by rfl]
    · rw [Bool.not_eq_true] at hsmall
      rw [hsmall, Bool.false_or] at hslug
      rw [marked_keep hsmall]
      by_cases hd : d.isUpper = true
      · have hinner : marked smallCut (d :: rest) = d :: marked smallCut rest :=
          marked_cons fun e _ => by rw [smallCut, small_of_upper hd, Bool.false_and]
        have hword : wordCut c d (marked smallCut rest).head? = wordCut c d rest.head? := by
          rw [head?_marked]
        rw [hinner] at ih ⊢
        by_cases hcut : wordCut c d rest.head? = true
        · rw [marked_cut (hword.trans hcut), marked_cut (hslug.trans hcut), ih]
        · rw [Bool.not_eq_true] at hcut
          rw [marked_keep (hword.trans hcut), marked_keep (hslug.trans hcut), ih]
      · have hnever (next : Option Char) : wordCut c d next = false := by
          rw [Bool.not_eq_true] at hd
          rw [wordCut, hd, Bool.and_false, Bool.false_and]
        obtain ⟨more, hmore⟩ : ∃ more, marked smallCut (d :: rest) = d :: more :=
          List.head?_eq_some_iff.1 (head?_marked smallCut (d :: rest))
        rw [marked_keep (hslug.trans (hnever _)), ← ih, hmore, marked_keep (hnever _)]

/-! ## Everything else -/

/-- A text with an underscore in place of every run of other characters, one of
which may have been met already. -/
def cleaned : (inRun : Bool) → List Char → List Char
  | _, [] => []
  | inRun, c :: rest =>
    if c.isAlphanum then c :: cleaned false rest
    else if inRun then cleaned true rest
    else '_' :: cleaned true rest

/-- No word is cut off. -/
def noCut : CutRule := fun _ _ _ => false

theorem pieces_ne_nil (cut : CutRule) (cs : List Char) : pieces cut cs ≠ [] := by
  cases cs with
  | nil => exact List.cons_ne_nil [] []
  | cons c rest =>
    unfold pieces
    dsimp only
    repeat' split
    all_goals exact List.cons_ne_nil _ _

theorem pieces_other (hc : c.isAlphanum = false) :
    pieces cut (c :: rest) = [] :: pieces cut rest := by
  simp [pieces, hc]

theorem pieces_cut (hc : c.isAlphanum = true)
    (hcut : cut c d rest.head? = true) :
    pieces cut (c :: d :: rest) = [c] :: pieces cut (d :: rest) := by
  obtain ⟨word, words, hpieces⟩ := List.exists_cons_of_ne_nil (pieces_ne_nil cut (d :: rest))
  rw [pieces.eq_def]
  simp [hc, hpieces, hcut]

theorem alphanum_of_slugCut {next : Option Char} (h : slugCut c d next = true) :
    c.isAlphanum = true := by
  rw [isAlphanum_eq]
  rw [slugCut] at h
  cases hupper : c.isUpper with
  | true => rfl
  | false =>
    rw [hupper, Bool.false_and, Bool.or_false] at h
    rw [Bool.false_or]
    exact (Bool.and_eq_true_iff.1 h).2

/-- The words of a text with the underscores of a rule in it are those that the rule cuts. -/
theorem pieces_marked (cs : List Char) : pieces noCut (marked slugCut cs) = pieces slugCut cs := by
  match cs with
  | [] => rfl
  | [c] => rfl
  | c :: d :: rest =>
    have ih := pieces_marked (d :: rest)
    by_cases hcut : slugCut c d rest.head? = true
    · have hc : c.isAlphanum = true := alphanum_of_slugCut hcut
      have hmark : pieces noCut ('_' :: marked slugCut (d :: rest)) =
          [] :: pieces noCut (marked slugCut (d :: rest)) := pieces_other rfl
      rw [marked_cut hcut, pieces_cut hc hcut, pieces_keep hc (fun _ _ _ => rfl) hmark, ih]
    · rw [Bool.not_eq_true] at hcut
      rw [marked_keep hcut]
      cases hc : c.isAlphanum with
      | false => rw [pieces_other hc, pieces_other hc, ih]
      | true =>
        have hnonempty : pieces slugCut (d :: rest) ≠ [] := pieces_ne_nil slugCut (d :: rest)
        obtain ⟨word, words, hpieces⟩ := List.exists_cons_of_ne_nil hnonempty
        rw [pieces_keep hc (fun _ _ _ => rfl) (ih.trans hpieces), pieces_keep hc _ hpieces]
        rintro _ _ ⟨⟩
        exact hcut

/-! ## Runs -/

theorem runOf_none {p : Char → Bool} (hc : p c = false) : runOf p (c :: rest) = none := by
  rw [runOf, List.takeWhile_cons_of_neg (by rw [hc]; exact Bool.false_ne_true)]

/-- A run is taken as a whole. -/
theorem substitute_runOf {p : Char → Bool} (hc : p c = true) :
    substitute (runOf p) 0 (c :: rest) = '_' :: substitute (runOf p) 0 (rest.dropWhile p) := by
  have hfound : runOf p (c :: rest) = some (['_'], (rest.takeWhile p).length + 1) := by
    rw [runOf, List.takeWhile_cons_of_pos hc]
    rfl
  have hrest : rest.drop (rest.takeWhile p).length = rest.dropWhile p := by
    have hsplit : rest.takeWhile p ++ rest.dropWhile p = rest := List.takeWhile_append_dropWhile
    have hdrop := congrArg (List.drop (rest.takeWhile p).length) hsplit
    rw [List.drop_left] at hdrop
    exact hdrop.symm
  rw [substitute_found hfound, Nat.add_sub_cancel, hrest]
  rfl

theorem substitute_run_other (cs : List Char) :
    substitute (runOf isOther) 0 cs = cleaned false cs ∧
      substitute (runOf isOther) 0 (cs.dropWhile isOther) = cleaned true cs := by
  induction cs with
  | nil => exact ⟨rfl, rfl⟩
  | cons c rest ih =>
    obtain ⟨ihFalse, ihTrue⟩ := ih
    cases hc : c.isAlphanum with
    | true =>
      have hother : isOther c = false := by rw [isOther, hc]; rfl
      have hword : substitute (runOf isOther) 0 (c :: rest) = c :: cleaned false rest := by
        rw [substitute_none (runOf_none hother), ihFalse]
      rw [List.dropWhile_cons_of_neg (by rw [hother]; exact Bool.false_ne_true), hword]
      simp [cleaned, hc]
    | false =>
      have hother : isOther c = true := by rw [isOther, hc]; rfl
      rw [substitute_runOf hother, List.dropWhile_cons_of_pos hother, ihTrue]
      simp [cleaned, hc]

/-- After other characters there is no underscore in front. -/
theorem dropWhile_cleaned_true (cs : List Char) :
    (cleaned true cs).dropWhile (· = '_') = cleaned true cs := by
  induction cs with
  | nil => rfl
  | cons c rest ih =>
    cases hc : c.isAlphanum with
    | true =>
      have hne : c ≠ '_' := by
        rintro rfl
        cases hc
      simp [cleaned, hc, hne]
    | false => simpa [cleaned, hc] using ih

theorem dropWhile_cleaned_false (cs : List Char) :
    (cleaned false cs).dropWhile (· = '_') = cleaned true cs := by
  cases cs with
  | nil => rfl
  | cons c rest =>
    cases hc : c.isAlphanum with
    | true =>
      have hne : c ≠ '_' := by
        rintro rfl
        cases hc
      simp [cleaned, hc, hne]
    | false => simpa [cleaned, hc] using dropWhile_cleaned_true rest

theorem substitute_run_underscore (inRun : Bool) (cs : List Char) :
    substitute (runOf (· = '_')) 0 (cleaned inRun cs) = cleaned inRun cs := by
  induction cs generalizing inRun with
  | nil => rfl
  | cons c rest ih =>
    cases hc : c.isAlphanum with
    | true =>
      have hne : c ≠ '_' := by
        rintro rfl
        cases hc
      have hword : cleaned inRun (c :: rest) = c :: cleaned false rest := by simp [cleaned, hc]
      rw [hword, substitute_none (runOf_none (decide_eq_false hne)), ih]
    | false =>
      cases inRun with
      | true =>
        have hrun : cleaned true (c :: rest) = cleaned true rest := by simp [cleaned, hc]
        rw [hrun, ih]
      | false =>
        have hrun : cleaned false (c :: rest) = '_' :: cleaned true rest := by simp [cleaned, hc]
        rw [hrun, substitute_runOf (decide_eq_true rfl), dropWhile_cleaned_true, ih]

/-! ## Words -/

/-- A text without the underscores at its end. -/
def withoutEnd (cs : List Char) : List Char := (cs.reverse.dropWhile (· = '_')).reverse

theorem withoutEnd_cons (c : Char) (cs : List Char) :
    withoutEnd (c :: cs) = if withoutEnd cs = [] ∧ c = '_' then [] else c :: withoutEnd cs := by
  rw [withoutEnd, withoutEnd, List.reverse_cons, List.dropWhile_append]
  cases hcs : cs.reverse.dropWhile (· = '_') with
  | nil => by_cases hc : c = '_' <;> simp [hc]
  | cons d more => simp

theorem withoutEnd_word (hc : c.isAlphanum = true) (cs : List Char) :
    withoutEnd (c :: cs) = c :: withoutEnd cs := by
  rw [withoutEnd_cons, if_neg]
  rintro ⟨-, rfl⟩
  cases hc

/-- Words joined, after another one. -/
def joinedAfter (words : List (List Char)) : List Char :=
  if words = [] then [] else '_' :: ['_'].intercalate words

theorem intercalate_cons (word : List Char) (words : List (List Char)) :
    ['_'].intercalate (word :: words) = word ++ joinedAfter words := by
  cases words with
  | nil => simp [joinedAfter]
  | cons next more => simp [joinedAfter, List.intercalate_cons_cons]

theorem intercalate_eq_nil {words : List (List Char)} (h : ∀ word ∈ words, word ≠ []) :
    ['_'].intercalate words = [] ↔ words = [] := by
  cases words with
  | nil => simp
  | cons word rest =>
    rw [intercalate_cons]
    simp [h word List.mem_cons_self]

theorem map_intercalate (words : List (List Char)) :
    (['_'].intercalate words).map Char.toLower =
      ['_'].intercalate (words.map (·.map Char.toLower)) := by
  induction words with
  | nil => rfl
  | cons word rest ih =>
    rw [intercalate_cons, List.map_append, List.map_cons, intercalate_cons, joinedAfter,
      joinedAfter, ← ih]
    split
    · next hrest => simp [hrest]
    · next hrest => simp [hrest]

/-- What is left of a text are its words, whether it starts within a run of other
characters or with a word. -/
theorem withoutEnd_cleaned (cs : List Char) :
    withoutEnd (cleaned true cs) = ['_'].intercalate (words noCut cs) ∧
    ∀ word rest, pieces noCut cs = word :: rest →
      withoutEnd (cleaned false cs) =
        word ++ joinedAfter (rest.filter fun word => !word.isEmpty) := by
  induction cs with
  | nil =>
    refine ⟨rfl, ?_⟩
    rintro word rest ⟨⟩
    rfl
  | cons c cs ih =>
    obtain ⟨ihTrue, ihFalse⟩ := ih
    cases hc : c.isAlphanum with
    | true =>
      obtain ⟨word, rest, hpieces⟩ := List.exists_cons_of_ne_nil (pieces_ne_nil noCut cs)
      have hall : pieces noCut (c :: cs) = (c :: word) :: rest :=
        pieces_keep hc (fun _ _ _ => rfl) hpieces
      have hend : withoutEnd (c :: cleaned false cs) =
          (c :: word) ++ joinedAfter (rest.filter fun word => !word.isEmpty) := by
        rw [withoutEnd_word hc, ihFalse word rest hpieces, List.cons_append]
      have hcleaned (inRun : Bool) : cleaned inRun (c :: cs) = c :: cleaned false cs := by
        simp [cleaned, hc]
      rw [hcleaned, hcleaned, hend, hall, words, hall]
      refine ⟨?_, ?_⟩
      · rw [List.filter_cons_of_pos rfl, intercalate_cons]
      · rintro _ _ ⟨⟩
        rfl
    | false =>
      have hall : pieces noCut (c :: cs) = [] :: pieces noCut cs := pieces_other hc
      have hwords : words noCut (c :: cs) = words noCut cs := by
        rw [words, hall, List.filter_cons_of_neg (by simp), words]
      have hrun : cleaned true (c :: cs) = cleaned true cs := by simp [cleaned, hc]
      have hmark : cleaned false (c :: cs) = '_' :: cleaned true cs := by simp [cleaned, hc]
      refine ⟨by rw [hrun, hwords, ihTrue], ?_⟩
      rw [hall]
      rintro _ _ ⟨⟩
      have hnil : ['_'].intercalate (words noCut cs) = [] ↔ words noCut cs = [] :=
        intercalate_eq_nil fun word hword => by simpa using (List.mem_filter.1 hword).2
      rw [hmark, withoutEnd_cons, ihTrue, List.nil_append, joinedAfter]
      simp only [hnil, and_true]
      rfl

theorem stripped_cleaned (cs : List Char) :
    stripped (cleaned false cs) = ['_'].intercalate (words noCut cs) := by
  rw [stripped, dropWhile_cleaned_false]
  exact (withoutEnd_cleaned cs).1

/-- A slug is what the four substitutions leave of a text. -/
theorem slug_eq_bySubstitution (s fallback : String) :
    slug s fallback = slugBySubstitution s fallback := by
  have hwords : words noCut (marked slugCut s.toList) = words slugCut s.toList := by
    rw [words, pieces_marked, words]
  have hcleaned : stripped (substitute (runOf (· = '_')) 0 (substitute (runOf isOther) 0
      (substitute capitalsThenWord 0 (substitute smallThenCapital 0 s.toList)))) =
      ['_'].intercalate (words slugCut s.toList) := by
    rw [substitute_smallThenCapital, substitute_capitalsThenWord, marked_marked,
      (substitute_run_other _).1, substitute_run_underscore, stripped_cleaned, hwords]
  have hascii : ∀ c ∈ ['_'].intercalate (words slugCut s.toList), c.toNat < 128 := by
    intro c hc
    rcases mem_intercalate hc with rfl | ⟨word, hword, hc⟩
    · decide
    · exact alphanum_ascii (words_alphanum word hword c hc)
  have hlowered : Text.lowered (String.ofList (['_'].intercalate (words slugCut s.toList))) =
      String.ofList (['_'].intercalate (smallWords s)) := by
    rw [Text.lowered, String.toList_ofList, lowerAfter_eq_map hascii, map_intercalate, smallWords]
  unfold slugBySubstitution
  dsimp only
  rw [hcleaned, hlowered]
  by_cases hnone : smallWords s = []
  · rw [(wordless hnone).2 fallback, hnone]
    rfl
  · rw [slug_eq hnone, if_neg]
    intro hempty
    have hnil : ['_'].intercalate (smallWords s) = [] := by
      rw [← String.toList_ofList (l := ['_'].intercalate (smallWords s)), hempty]
      rfl
    refine hnone ((intercalate_eq_nil fun word hword => ?_).1 hnil)
    exact (smallWords_small s word hword).nonempty

example : slugBySubstitution "getHTTPServers - v2" "operation" = "get_http_servers_v2" := by
  decide +kernel

end TypedClient.Naming
