import Mathlib.Data.List.Infix
import TypedClient.Emit.ObjectLiteral
import TypedClient.Script.Literal

/-!
# Restyled text as tokens

Restyling edits finished JSON with no regard to what is text and what is not.
What it does to a JSON string is the same edit, made within the string: outside
of strings no two blanks meet across a border of tokens, so the search for
pairs of blanks starts anew at each.

Inside a string every character but one stands for itself in quotes of either
kind. A double quote becomes a single one, which the backslash before it still
protects. A single quote has no backslash and ends the text. So `scan_text`
reads a text without single quotes as `restyle` of it, and `scan_broken` says
where a text with one ends.
-/

namespace TypedClient

namespace Text

/-! ## Pairs of blanks -/

/-- Every pair of blanks replaced by a level of indentation. -/
abbrev reindent (unit : List Char) : List Char → List Char := replacePair ' ' ' ' unit

theorem reindent_pair (unit rest : List Char) :
    reindent unit (' ' :: ' ' :: rest) = unit ++ reindent unit rest := rfl

theorem reindent_cons (unit : List Char) {c : Char} {rest : List Char}
    (h : c = ' ' → rest.head? ≠ some ' ') :
    reindent unit (c :: rest) = c :: reindent unit rest := by
  cases rest with
  | nil => rfl
  | cons d rest =>
    refine if_neg fun hpair => ?_
    simp only [Bool.and_eq_true, decide_eq_true_eq] at hpair
    exact h hpair.1 (congrArg some hpair.2)

/-- A text is taken apart as the search for pairs of blanks does it. -/
theorem reindent_induction {motive : List Char → Prop} (nil : motive [])
    (pair : ∀ rest, motive rest → motive (' ' :: ' ' :: rest))
    (cons : ∀ c rest, (c = ' ' → rest.head? ≠ some ' ') → motive rest → motive (c :: rest))
    (cs : List Char) : motive cs := by
  induction cs using replacePair.induct ' ' ' ' with
  | case1 c d rest hpair ih =>
    simp only [Bool.and_eq_true, decide_eq_true_eq] at hpair
    obtain ⟨rfl, rfl⟩ := hpair
    exact pair rest ih
  | case2 c d rest hpair ih =>
    refine cons c (d :: rest) (fun hc hd => ?_) ih
    simp [hc, Option.some.inj hd] at hpair
  | case3 cs hcs =>
    match cs, hcs with
    | [], _ => exact nil
    | [c], _ => exact cons c [] (by simp) nil
    | c :: d :: rest, h => exact absurd rfl (h c d rest)

/-- The search does not look across a border that has no blank behind it. -/
theorem reindent_append (unit front : List Char) {rest : List Char} (h : rest.head? ≠ some ' ') :
    reindent unit (front ++ rest) = reindent unit front ++ reindent unit rest := by
  induction front using reindent_induction with
  | nil => rfl
  | pair front ih => rw [List.cons_append, List.cons_append, reindent_pair, ih, reindent_pair,
      List.append_assoc]
  | cons c front hc ih =>
    have hborder : c = ' ' → (front ++ rest).head? ≠ some ' ' := by
      intro hblank
      cases front with
      | nil => exact h
      | cons d front => exact hc hblank
    rw [List.cons_append, reindent_cons unit hborder, ih, reindent_cons unit hc, List.cons_append]

theorem reindent_append_of_not_mem (unit : List Char) {front : List Char} (rest : List Char)
    (h : ' ' ∉ front) : reindent unit (front ++ rest) = front ++ reindent unit rest := by
  induction front with
  | nil => rfl
  | cons c front ih =>
    rw [List.mem_cons, not_or] at h
    rw [List.cons_append, reindent_cons unit fun hc => absurd hc.symm h.1, ih h.2, List.cons_append]

/-- What is neither a blank nor in a level of indentation keeps its number. -/
theorem countP_reindent {unit : List Char} {p : Char → Bool} (hblank : p ' ' = false)
    (hunit : ∀ c ∈ unit, p c = false) (cs : List Char) :
    (reindent unit cs).countP p = cs.countP p := by
  induction cs using reindent_induction with
  | nil => rfl
  | pair rest ih =>
    have hnone : unit.countP p = 0 := List.countP_eq_zero.2 fun c hc => by simp [hunit c hc]
    rw [reindent_pair, List.countP_append, hnone, ih, List.countP_cons, List.countP_cons, hblank]
    simp
  | cons c rest hc ih => rw [reindent_cons unit hc, List.countP_cons, ih, List.countP_cons]

/-- Nothing changes where no two blanks are adjacent, or where a level of
indentation is two blanks. -/
theorem reindent_eq_self {unit cs : List Char}
    (h : unit = [' ', ' '] ∨ ¬[' ', ' '] <:+: cs) : reindent unit cs = cs := by
  induction cs using reindent_induction with
  | nil => rfl
  | pair rest ih =>
    rcases h with rfl | h
    · rw [reindent_pair, ih (.inl rfl)]
      rfl
    · exact absurd ⟨[], rest, rfl⟩ h
  | cons c rest hc ih =>
    rw [reindent_cons unit hc, ih (h.imp_right fun hno hin => hno (hin.trans (List.suffix_cons c rest).isInfix))]

/-- A level of indentation as options give it. -/
def levels : List (List Char) := [['\t'], [' ', ' ', ' ', ' '], [' ', ' ']]

end Text

namespace Script

open Text (apostrophe doubleQuote levels reindent reindent_cons reindent_append_of_not_mem)

theorem scan_cons (scanner : Scanner) (c : Char) (rest : List Char) :
    scanner.scan (c :: rest) =
      (scanner.step c).bind fun (next, tokens) => (next.scan rest).map (tokens ++ ·) := by
  cases scanner <;> rfl

/-- A step that ends no token. -/
theorem scan_of_step {scanner next : Scanner} {c : Char} (h : scanner.step c = some (next, []))
    (rest : List Char) : scanner.scan (c :: rest) = next.scan rest := by
  rw [scan_cons, h]
  exact Option.map_id'

/-! ## Characters of a JSON string -/

/-- A character of a JSON string in the other quotes. -/
def requote (c : Char) : Char := if c = doubleQuote then apostrophe else c

theorem replaceChar_requote (cs : List Char) :
    Text.replaceChar doubleQuote [apostrophe] cs = cs.map requote := by
  induction cs with
  | nil => rfl
  | cons c cs ih =>
    rw [List.map_cons, ← ih, requote]
    simp only [Text.replaceChar, List.flatMap_cons]
    split <;> rfl

/-- The characters that a character of a JSON string becomes. -/
def restyledChar (c : Char) : List Char := (JsonText.escapedChar c).map requote

theorem hexValue?_digitChar : ∀ d < 16, Json.hexValue? (Nat.digitChar d) = some d := by
  decide

theorem requote_digitChar : ∀ d < 16, requote (Nat.digitChar d) = Nat.digitChar d ∧
    Nat.digitChar d ≠ ' ' := by
  decide

theorem step_coded (earlier : List Nat) (digits code : Nat) {d : Nat} (hd : d < 16) :
    (Scanner.coded earlier (digits + 2) code).step (requote (Nat.digitChar d)) =
      some (.coded earlier (digits + 1) (16 * code + d), []) := by
  rw [(requote_digitChar d hd).1, Scanner.step, Scanner.codedStep, hexValue?_digitChar d hd]
  rfl

theorem step_coded_last (earlier : List Nat) (code : Nat) {d : Nat} (hd : d < 16) :
    (Scanner.coded earlier 1 code).step (requote (Nat.digitChar d)) =
      some (.quoted (earlier ++ [16 * code + d]), []) := by
  rw [(requote_digitChar d hd).1, Scanner.step, Scanner.codedStep, hexValue?_digitChar d hd]
  rfl

theorem unitEscape_eq (n : Nat) :
    JsonText.unitEscape n = ['\\', 'u', Nat.digitChar (n / 0x1000 % 16),
      Nat.digitChar (n / 0x100 % 16), Nat.digitChar (n / 0x10 % 16), Nat.digitChar (n / 1 % 16)] := rfl

/-- A code of four digits stands for its unit. -/
theorem scan_unitEscape (earlier : List Nat) {n : Nat} (hn : n < 0x10000) (rest : List Char) :
    (Scanner.quoted earlier).scan ((JsonText.unitEscape n).map requote ++ rest) =
      (Scanner.quoted (earlier ++ [n])).scan rest := by
  have hdigit : ∀ k, n / k % 16 < 16 := fun k => Nat.mod_lt _ (by omega)
  have hvalue : 16 * (16 * (16 * (16 * 0 + n / 0x1000 % 16) + n / 0x100 % 16) + n / 0x10 % 16)
      + n / 1 % 16 = n := by
    omega
  have hbackslash : (Scanner.quoted earlier).step (requote '\\') = some (.escaped earlier, []) := rfl
  have hletter : (Scanner.escaped earlier).step (requote 'u') = some (.coded earlier 4 0, []) := rfl
  rw [unitEscape_eq]
  simp only [List.map_cons, List.map_nil, List.cons_append, List.nil_append]
  rw [scan_of_step hbackslash, scan_of_step hletter, scan_of_step (step_coded _ _ _ (hdigit _)),
    scan_of_step (step_coded _ _ _ (hdigit _)), scan_of_step (step_coded _ _ _ (hdigit _)),
    scan_of_step (step_coded_last _ _ (hdigit _)), hvalue]

/-- A character with a backslash before it. -/
theorem scan_escape {earlier later : List Nat} {c : Char}
    (h : (Scanner.escaped earlier).step c = some (.quoted later, [])) (rest : List Char) :
    (Scanner.quoted earlier).scan ('\\' :: c :: rest) = (Scanner.quoted later).scan rest := by
  have hbackslash : (Scanner.quoted earlier).step '\\' = some (.escaped earlier, []) := rfl
  rw [scan_of_step hbackslash, scan_of_step h]

/-- A character that stands for itself as it is. -/
theorem step_quoted (earlier : List Nat) {c : Char} (hquote : c ≠ apostrophe) (hslash : c ≠ '\\')
    (hline : c ≠ '\n' ∧ c ≠ '\r') :
    (Scanner.quoted earlier).step c = some (.quoted (earlier ++ unitsOf c), []) := by
  rw [Scanner.step, if_neg hquote, Scanner.quotedStep, if_neg hslash, if_neg (by simp [hline])]
  rfl

theorem codeOf_lt (c : Char) : Text.codeOf c < 0x110000 := by
  have h : c.toNat < 0x110000 := by
    rcases c.valid with h | h
    · exact Nat.lt_trans h (by decide)
    · exact h.2
  unfold Text.codeOf
  split
  · exact Nat.lt_of_le_of_lt (Nat.sub_le _ _) h
  · exact h

/-- A code below those of the halves tells the character. -/
theorem toNat_of_codeOf {c : Char} (h : Text.codeOf c < 0xd800) : c.toNat = Text.codeOf c := by
  have hhalf := Text.isHalfCode_codeOf c
  have hno : Text.isHalfCode (Text.codeOf c) = false :=
    Bool.and_eq_false_iff.2 (.inl (decide_eq_false (Nat.not_le.2 h)))
  rw [hno] at hhalf
  rw [Text.codeOf, if_neg (Bool.eq_false_iff.1 hhalf.symm)]

theorem codeOf_of_toNat {c : Char} (h : c.toNat < 0xdf800) : Text.codeOf c = c.toNat :=
  if_neg fun hhalf => Nat.not_le.2 h (Text.toNat_of_isHalf hhalf).1

theorem eq_of_codeOf {c : Char} {n : Nat} (h : Text.codeOf c = n) (hn : n < 0xd800) :
    c = Char.ofNat n := by
  rw [← h, ← toNat_of_codeOf (h ▸ hn), Char.ofNat_toNat]

/-- A character that its quotes do not end stands for itself. -/
theorem scan_restyledChar (earlier : List Nat) {c : Char} (hc : c ≠ apostrophe) (rest : List Char) :
    (Scanner.quoted earlier).scan (restyledChar c ++ rest) =
      (Scanner.quoted (earlier ++ unitsOf (requote c))).scan rest := by
  unfold restyledChar JsonText.escapedChar
  dsimp only
  split
  · next h => subst h; exact scan_escape rfl rest
  split
  · next h => subst h; exact scan_escape rfl rest
  split
  · next h => subst h; exact scan_escape rfl rest
  split
  · next h => subst h; exact scan_escape rfl rest
  split
  · next h => subst h; exact scan_escape rfl rest
  split
  · next h => rw [eq_of_codeOf h (by decide)]; exact scan_escape rfl rest
  split
  · next h => rw [eq_of_codeOf h (by decide)]; exact scan_escape rfl rest
  next hdouble hslash hnewline hreturn _ _ _ =>
  have hsame : requote c = c := if_neg hdouble
  rw [hsame]
  split
  · rw [List.map_singleton, hsame]
    exact scan_of_step (step_quoted earlier hc hslash ⟨hnewline, hreturn⟩) rest
  split
  · next hsmall =>
      rw [scan_unitEscape earlier hsmall, unitsOf, if_pos hsmall]
  · next hlarge =>
      have hvalid := codeOf_lt c
      rw [List.map_append, List.append_assoc, scan_unitEscape _ (by omega),
        scan_unitEscape _ (by omega), unitsOf, if_neg hlarge, List.append_assoc]
      rfl

theorem restyledChar_blank : restyledChar ' ' = [' '] := by decide

/-- Only a blank becomes a blank. -/
theorem not_mem_restyledChar {c : Char} (hc : c ≠ ' ') : ' ' ∉ restyledChar c := by
  have hcode : ∀ n, ' ' ∉ (JsonText.unitEscape n).map requote := by
    intro n
    have hdigit : ∀ k, requote (Nat.digitChar (n / k % 16)) ≠ ' ' := fun k =>
      ne_of_eq_of_ne (requote_digitChar _ (Nat.mod_lt _ (by omega))).1
        (requote_digitChar _ (Nat.mod_lt _ (by omega))).2
    rw [unitEscape_eq]
    simp only [List.map_cons, List.map_nil, List.mem_cons, List.not_mem_nil, or_false, not_or]
    exact ⟨by decide, by decide, (hdigit _).symm, (hdigit _).symm, (hdigit _).symm,
      (hdigit _).symm⟩
  have hplain : ' ' ∉ [c].map requote := by
    rw [List.map_singleton, List.mem_singleton, requote]
    split
    · decide
    · exact hc.symm
  unfold restyledChar JsonText.escapedChar
  dsimp only
  split
  · decide
  split
  · decide
  split
  · decide
  split
  · decide
  split
  · decide
  split
  · decide
  split
  · decide
  split
  · exact hplain
  split
  · exact hcode _
  · rw [List.map_append, List.mem_append, not_or]
    exact ⟨hcode _, hcode _⟩

/-! ## Texts -/

/-- The characters within the quotes of a restyled string. -/
def restyledBody (unit cs : List Char) : List Char := reindent unit (cs.flatMap restyledChar)

/-- A text as restyling leaves it, were there no syntax around it. -/
def restyledText (unit cs : List Char) : List Char := reindent unit (cs.map requote)

theorem restyledChar_ne_nil (c : Char) : restyledChar c ≠ [] := by
  unfold restyledChar JsonText.escapedChar
  rw [ne_eq, List.map_eq_nil_iff]
  dsimp only
  repeat' split
  all_goals exact List.cons_ne_nil _ _

theorem restyledBody_cons (unit : List Char) {c : Char} {cs : List Char}
    (h : c = ' ' → cs.head? ≠ some ' ') :
    restyledBody unit (c :: cs) = restyledChar c ++ restyledBody unit cs := by
  unfold restyledBody
  rw [List.flatMap_cons]
  by_cases hc : c = ' '
  · have hnext : (cs.flatMap restyledChar).head? ≠ some ' ' := by
      cases cs with
      | nil => simp
      | cons d cs =>
        have hd : d ≠ ' ' := fun heq => h hc (congrArg some heq)
        rw [List.flatMap_cons, List.head?_append_of_ne_nil _ (restyledChar_ne_nil d)]
        exact fun hhead => not_mem_restyledChar hd (List.mem_of_mem_head? hhead)
    rw [hc, restyledChar_blank, List.singleton_append, reindent_cons unit fun _ => hnext]
    rfl
  · exact reindent_append_of_not_mem unit _ (not_mem_restyledChar hc)

theorem restyledText_cons (unit : List Char) {c : Char} {cs : List Char}
    (h : c = ' ' → cs.head? ≠ some ' ') :
    restyledText unit (c :: cs) = requote c :: restyledText unit cs := by
  have hblank : ∀ {d : Char}, requote d = ' ' → d = ' ' := by
    intro d hd
    unfold requote at hd
    split at hd
    · exact absurd hd (by decide)
    · exact hd
  unfold restyledText
  rw [List.map_cons, reindent_cons]
  intro hc hhead
  cases cs with
  | nil => cases hhead
  | cons d cs => exact h (hblank hc) (congrArg some (hblank (Option.some.inj hhead)))

/-- A single quote is left as it is, and nothing that is done to a text reaches
over it. -/
theorem restyledBody_quote (unit front rest : List Char) :
    restyledBody unit (front ++ apostrophe :: rest) =
      restyledBody unit front ++ apostrophe :: restyledBody unit rest := by
  have hquote : restyledChar apostrophe = [apostrophe] := by decide
  have hblank : (apostrophe :: rest.flatMap restyledChar).head? ≠ some ' ' := by
    rw [List.head?_cons]
    decide
  unfold restyledBody
  rw [List.flatMap_append, List.flatMap_cons, hquote, List.singleton_append,
    Text.reindent_append unit _ hblank, reindent_cons unit fun h => absurd h (by decide)]

theorem units_cons (c : Char) (cs : List Char) : units (c :: cs) = unitsOf c ++ units cs :=
  List.flatMap_cons

theorem units_append (cs ds : List Char) : units (cs ++ ds) = units cs ++ units ds :=
  List.flatMap_append

/-- The characters that indent stand for themselves in a text. -/
theorem scan_indentation (earlier : List Nat) {unit : List Char}
    (hunit : ∀ c ∈ unit, c = ' ' ∨ c = '\t') (rest : List Char) :
    (Scanner.quoted earlier).scan (unit ++ rest) =
      (Scanner.quoted (earlier ++ units unit)).scan rest := by
  induction unit generalizing earlier with
  | nil => rw [units, List.flatMap_nil, List.append_nil, List.nil_append]
  | cons c unit ih =>
    have hstep : (Scanner.quoted earlier).step c = some (.quoted (earlier ++ unitsOf c), []) := by
      rcases hunit c (List.mem_cons_self ..) with rfl | rfl <;> rfl
    rw [List.cons_append, scan_of_step hstep,
      ih _ fun d hd => hunit d (List.mem_cons_of_mem _ hd), units_cons, List.append_assoc]

/-- Within its quotes a text without single quotes is read as restyling leaves
it. -/
theorem scan_body {unit cs : List Char} (hunit : ∀ c ∈ unit, c = ' ' ∨ c = '\t')
    (hcs : apostrophe ∉ cs) (earlier : List Nat) (rest : List Char) :
    (Scanner.quoted earlier).scan (restyledBody unit cs ++ rest) =
      (Scanner.quoted (earlier ++ units (restyledText unit cs))).scan rest := by
  induction cs using Text.reindent_induction generalizing earlier with
  | nil => exact congrArg (fun e => (Scanner.quoted e).scan rest) (List.append_nil _).symm
  | pair cs ih =>
    have hbody : restyledBody unit (' ' :: ' ' :: cs) = unit ++ restyledBody unit cs := rfl
    have htext : restyledText unit (' ' :: ' ' :: cs) = unit ++ restyledText unit cs := rfl
    rw [List.mem_cons, List.mem_cons, not_or, not_or] at hcs
    rw [hbody, htext, List.append_assoc, scan_indentation earlier hunit, ih hcs.2.2, units_append,
      List.append_assoc]
  | cons c cs hc ih =>
    rw [List.mem_cons, not_or] at hcs
    rw [restyledBody_cons unit hc, restyledText_cons unit hc, List.append_assoc,
      scan_restyledChar earlier (Ne.symm hcs.1), ih hcs.2, units_cons, List.append_assoc]

/-- A text in single quotes, up to the first quote within it. -/
theorem scan_text {unit cs : List Char} (hunit : ∀ c ∈ unit, c = ' ' ∨ c = '\t')
    (hcs : apostrophe ∉ cs) (rest : List Char) :
    Scanner.between.scan (apostrophe :: restyledBody unit cs ++ apostrophe :: rest) =
      (Scanner.between.scan rest).map (.text (units (restyledText unit cs)) :: ·) := by
  have hopen : Scanner.between.step apostrophe = some (.quoted [], []) := by decide
  rw [List.cons_append, scan_of_step hopen, scan_body hunit hcs, scan_cons, Scanner.step,
    if_pos rfl]
  rfl

/-! ## Texts that stay as they are -/

/-- The units of a character are its code, or a pair that is made for it. -/
theorem unitsOf_cases (c : Char) : unitsOf c = [Text.codeOf c] ∨
    0x10000 ≤ Text.codeOf c ∧ ∃ high low, 0xd800 ≤ high ∧ 0xd800 ≤ low ∧ unitsOf c = [high, low] := by
  unfold unitsOf
  dsimp only
  split
  · exact .inl rfl
  · next h => exact .inr ⟨Nat.not_lt.1 h, _, _, Nat.le_add_right _ _, by omega, rfl⟩

/-- A text without large units is told by its units. -/
theorem eq_of_units {cs ds : List Char} (hcs : ∀ c ∈ cs, c.toNat < 0xd800)
    (h : units cs = units ds) : cs = ds := by
  induction cs generalizing ds with
  | nil =>
    cases ds with
    | nil => rfl
    | cons d ds => rcases unitsOf_cases d with hd | ⟨-, high, low, -, -, hd⟩ <;>
        rw [units_cons, hd] at h <;> cases h
  | cons c cs ih =>
    rw [List.forall_mem_cons] at hcs
    have hcode := codeOf_of_toNat (Nat.lt_trans hcs.1 (by decide))
    have hc : unitsOf c = [c.toNat] := by
      rcases unitsOf_cases c with hc | ⟨hlarge, -⟩
      · rwa [hcode] at hc
      · omega
    cases ds with
    | nil =>
      rw [units_cons, hc] at h
      cases h
    | cons d ds =>
      rw [units_cons, units_cons, hc] at h
      rcases unitsOf_cases d with hd | ⟨-, high, low, hhigh, -, hd⟩
      · obtain ⟨hsame, hrest⟩ := List.cons.inj (hd ▸ h)
        have heq : c = d := Text.codeOf_inj.1 (hcode.trans hsame)
        rw [heq, ih hcs.2 hrest]
      · have hsame := (List.cons.inj (hd ▸ h)).1
        omega

/-- Of units that are not large, a text has as many as it has characters for
them. -/
theorem countP_units {p : Nat → Bool} (hp : ∀ n, 0xd800 ≤ n → p n = false) (cs : List Char) :
    (units cs).countP p = cs.countP fun c => p c.toNat := by
  have hlarge : ∀ c : Char, 0xd800 ≤ Text.codeOf c → p c.toNat = false := by
    intro c hc
    refine hp _ (Nat.not_lt.1 fun hsmall => ?_)
    rw [codeOf_of_toNat (Nat.lt_trans hsmall (by decide))] at hc
    omega
  induction cs with
  | nil => rfl
  | cons c cs ih =>
    rw [units_cons, List.countP_append, ih, List.countP_cons, Nat.add_comm]
    congr 1
    rcases unitsOf_cases c with hc | ⟨hcode, high, low, hhigh, hlow, hc⟩
    · rw [hc, List.countP_singleton]
      rcases Nat.lt_or_ge (Text.codeOf c) 0xd800 with hsmall | hcode
      · rw [toNat_of_codeOf hsmall]
      · rw [hp _ hcode, hlarge c hcode]
    · rw [hc, hlarge c (Nat.le_trans (by decide) hcode)]
      simp [hp _ hhigh, hp _ hlow]

theorem length_units_le_reindent (cs : List Char) :
    (units cs).length ≤ (units (reindent [' ', ' ', ' ', ' '] cs)).length := by
  induction cs using Text.reindent_induction with
  | nil => exact le_rfl
  | pair rest ih =>
    have hunits : (units [' ', ' ', ' ', ' ']).length = 4 ∧ (unitsOf ' ').length = 1 := by decide
    rw [Text.reindent_pair, units_append, units_cons, units_cons]
    simp only [List.length_append, hunits]
    omega
  | cons c rest hc ih =>
    rw [reindent_cons _ hc, units_cons, units_cons, List.length_append, List.length_append]
    exact Nat.add_le_add_left ih _

/-- A text that stays as it is has no two adjacent blanks, unless a level of
indentation is two blanks. -/
theorem blanks_of_reindent {unit cs : List Char} (hunit : unit ∈ levels)
    (h : units (reindent unit cs) = units cs) : unit = [' ', ' '] ∨ ¬[' ', ' '] <:+: cs := by
  induction cs using Text.reindent_induction with
  | nil => exact .inr (by decide)
  | pair rest ih =>
    rw [Text.reindent_pair, units_append] at h
    simp only [levels, List.mem_cons, List.not_mem_nil, or_false] at hunit
    rcases hunit with rfl | rfl | rfl
    · cases h
    · have hlonger := length_units_le_reindent rest
      have hunits : (units [' ', ' ', ' ', ' ']).length = 4 ∧ (unitsOf ' ').length = 1 := by decide
      rw [units_cons ' ' (' ' :: rest), units_cons ' ' rest] at h
      have hlength := congrArg List.length h
      simp only [List.length_append, hunits] at hlength
      omega
    · exact .inl rfl
  | cons c rest hc ih =>
    rw [reindent_cons unit hc, units_cons, units_cons, List.append_cancel_left_eq] at h
    refine (ih h).imp_right fun hno hin => ?_
    rcases List.infix_cons_iff.1 hin with ⟨more, hmore⟩ | hin
    · obtain ⟨rfl, hrest⟩ := List.cons.inj hmore
      exact hc rfl (by rw [← hrest]; rfl)
    · exact hno hin

theorem blank_of_mem_level {unit : List Char} (hunit : unit ∈ levels) :
    ∀ c ∈ unit, c = ' ' ∨ c = '\t' := by
  have hlevels : levels.all (·.all fun c => c = ' ' || c = '\t') = true := by decide
  intro c hc
  simpa using List.all_eq_true.1 (List.all_eq_true.1 hlevels unit hunit) c hc

/-- No level of indentation has a character that is neither a blank nor a tab. -/
theorem countP_restyledText {unit : List Char} (hunit : unit ∈ levels) {p : Char → Bool}
    (hblank : p ' ' = false) (htab : p '\t' = false) (cs : List Char) :
    (restyledText unit cs).countP p = (cs.map requote).countP p := by
  refine Text.countP_reindent hblank (fun c hc => ?_) _
  rcases blank_of_mem_level hunit c hc with rfl | rfl
  · exact hblank
  · exact htab

/-- A text that restyling leaves as it is: it has no quotes, and no two adjacent
blanks unless a level of indentation is two blanks. -/
structure Plain (unit cs : List Char) : Prop where
  single : apostrophe ∉ cs
  double : doubleQuote ∉ cs
  blanks : unit = [' ', ' '] ∨ ¬[' ', ' '] <:+: cs

theorem map_requote {cs : List Char} (h : doubleQuote ∉ cs) : cs.map requote = cs := by
  have hsame : ∀ c ∈ cs, requote c = id c := fun c hc => if_neg (ne_of_mem_of_not_mem hc h)
  rw [List.map_congr_left hsame, List.map_id]

theorem Plain.restyledText_eq {unit cs : List Char} (h : Plain unit cs) :
    restyledText unit cs = cs := by
  rw [restyledText, map_requote h.double, Text.reindent_eq_self h.blanks]

/-- How many units that are not large, nor a blank nor a tab, restyling makes. -/
theorem countP_units_restyledText {unit : List Char} (hunit : unit ∈ levels) {p : Nat → Bool}
    (hp : ∀ n, 0xd800 ≤ n → p n = false) (hblank : p 0x20 = false) (htab : p 0x9 = false)
    (cs : List Char) :
    (units (restyledText unit cs)).countP p = cs.countP fun c => p (requote c).toNat := by
  rw [countP_units hp, countP_restyledText hunit hblank htab, List.countP_map]
  rfl

theorem plain_of_restyledText {unit cs : List Char} (hunit : unit ∈ levels)
    (hcs : apostrophe ∉ cs) (h : units (restyledText unit cs) = units cs) : Plain unit cs := by
  let isDouble : Nat → Bool := (· == doubleQuote.toNat)
  have hlarge : ∀ n, 0xd800 ≤ n → isDouble n = false := fun n hn =>
    beq_eq_false_iff_ne.2 fun hsame => absurd (hsame ▸ hn) (by decide)
  have hnone : ∀ c ∈ cs, ¬isDouble (requote c).toNat = true := by
    intro c _ hdouble
    have hsame : requote c = doubleQuote := Char.toNat_inj.1 (beq_iff_eq.1 hdouble)
    unfold requote at hsame
    split at hsame
    · exact absurd hsame (by decide)
    · next hother => exact hother hsame
  have hcount := countP_units_restyledText hunit hlarge rfl rfl cs
  rw [h, List.countP_eq_zero.2 hnone, countP_units hlarge, List.countP_eq_zero] at hcount
  have hdouble : doubleQuote ∉ cs := fun hmem => hcount _ hmem (by decide)
  refine ⟨hcs, hdouble, blanks_of_reindent hunit ?_⟩
  rwa [restyledText, map_requote hdouble] at h

/-- What ends at a quote within a text is not the text, which has one quote
more. -/
theorem units_restyledText_ne {unit : List Char} (hunit : unit ∈ levels) (front rest : List Char) :
    units (restyledText unit front) ≠ units (front ++ apostrophe :: rest) := by
  intro h
  let isQuote : Nat → Bool := fun n => n == apostrophe.toNat || n == doubleQuote.toNat
  have hlarge : ∀ n, 0xd800 ≤ n → isQuote n = false := by
    intro n hn
    have hne : ∀ m < 0xd800, (n == m) = false := fun m hm => beq_eq_false_iff_ne.2 (by omega)
    exact Bool.or_eq_false_iff.2 ⟨hne _ (by decide), hne _ (by decide)⟩
  have hsame : ∀ c : Char, isQuote (requote c).toNat = isQuote c.toNat := by
    intro c
    unfold requote
    split
    · next hc => rw [hc]; rfl
    · rfl
  have hcount := countP_units_restyledText hunit hlarge rfl rfl front
  rw [h, countP_units hlarge, List.countP_append, List.countP_cons_of_pos (by decide)] at hcount
  simp only [hsame] at hcount
  omega

end Script

end TypedClient
