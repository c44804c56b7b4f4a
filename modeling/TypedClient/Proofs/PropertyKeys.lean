import TypedClient.Proofs.JsonLexemes

/-!
# What a key of an object literal denotes

`propertyKey` writes a name as the key of an object literal: as it is, if it
looks like a name, and between single quotes otherwise. Quotes and backslashes
within the quotes are escaped, so what is read is the name that was written, and
two things only can go wrong. A line break within the quotes makes the key
unreadable. A line break after a plain name is taken for a part of that name
when it is written, and for the blank after it when it is read: `propertyName`
is the name that comes out.
-/

namespace TypedClient

open Text (apostrophe)

namespace Text

/-- An element, with a mark before it if it is that mark or what ends a text. -/
def marked {α : Type} [DecidableEq α] (close mark x : α) : List α :=
  if x = close ∨ x = mark then [mark, x] else [x]

theorem escapedChar_eq (c : Char) : escapedChar c = marked apostrophe '\\' c := by
  simp only [escapedChar, marked, Bool.or_eq_true, decide_eq_true_eq, or_comm]

section Marked

variable {α : Type} [DecidableEq α] {close mark : α}

/-- No element is marked to something that starts like the end. -/
theorem marked_append_ne (h : close ≠ mark) (x : α) (xs rest : List α) :
    marked close mark x ++ xs ≠ close :: rest := by
  intro hsame
  unfold marked at hsame
  split at hsame
  · exact h (List.cons.inj hsame).1.symm
  · next hplain => exact hplain (.inl (List.cons.inj hsame).1)

/-- What is marked tells what it was, and the first end that has no mark is the
one that ends it. -/
theorem marked_append_inj (hclose : close ≠ mark) {xs ys rest rest' : List α}
    (h : xs.flatMap (marked close mark) ++ close :: rest =
      ys.flatMap (marked close mark) ++ close :: rest') : xs = ys ∧ rest = rest' := by
  induction xs generalizing ys with
  | nil =>
    cases ys with
    | nil => exact ⟨rfl, (List.cons.inj h).2⟩
    | cons y ys =>
      rw [List.flatMap_cons, List.append_assoc] at h
      exact absurd h.symm (marked_append_ne hclose y _ _)
  | cons x xs ih =>
    rw [List.flatMap_cons, List.append_assoc] at h
    cases ys with
    | nil => exact absurd h (marked_append_ne hclose x _ _)
    | cons y ys =>
      have hsame : x = y ∧ xs.flatMap (marked close mark) ++ close :: rest =
          ys.flatMap (marked close mark) ++ close :: rest' := by
        rw [List.flatMap_cons, List.append_assoc] at h
        unfold marked at h
        split at h <;> split at h <;>
          simp only [List.cons_append, List.nil_append, List.cons.injEq, true_and] at h
        · exact h
        · next _ hplain => exact absurd (.inr h.1.symm) hplain
        · next hplain _ => exact absurd (.inr h.1) hplain
        · exact h
      obtain ⟨rfl, hrest⟩ := ih hsame.2
      exact ⟨by rw [hsame.1], hrest⟩

end Marked

theorem escapedChars_append_inj {cs ds rest rest' : List Char}
    (h : cs.flatMap escapedChar ++ apostrophe :: rest =
      ds.flatMap escapedChar ++ apostrophe :: rest') : cs = ds ∧ rest = rest' := by
  simp only [funext escapedChar_eq] at h
  exact marked_append_inj (by decide) h

theorem singleQuoted_toList (s : String) :
    (singleQuoted s).toList = apostrophe :: (s.toList.flatMap escapedChar ++ [apostrophe]) := by
  simp only [singleQuoted, escapeQuotes, String.toList_append, String.toList_ofList]
  rfl

theorem singleQuoted_injective {s t : String} (h : singleQuoted s = singleQuoted t) : s = t := by
  have hchars := congrArg String.toList h
  rw [singleQuoted_toList, singleQuoted_toList, List.cons.injEq] at hchars
  exact String.toList_inj.1 (escapedChars_append_inj hchars.2).1

end Text

open Naming

namespace Script

/-! ## Keys without quotes -/

/-- A name is a token. -/
theorem scan_name {cs : List Char} (h : isIdentifier cs = true) (rest : List Char)
    (hrest : ∀ c ∈ rest.head?, isBareChar c = false) :
    Scanner.between.scan (cs ++ rest) = (Scanner.between.scan rest).map (.bare cs :: ·) := by
  have hbare : ∀ c ∈ cs, isBareChar c = true := fun c hc => by
    have hpart := chars_of_isIdentifier h c hc
    simp only [isNamePart, Bool.or_eq_true] at hpart
    simp only [isBareChar, Bool.or_eq_true]
    exact .inl (.inl (.inl hpart))
  have hsome : cs ≠ [] := by
    rintro rfl
    cases h
  exact JsonText.Lexeme.scan_bareToken hsome hbare hrest

theorem readKey_of_scan_name {s : String} {cs : List Char} (h : isIdentifier cs = true)
    (hscan : Scanner.between.scan s.toList = some [.bare cs]) : readKey s = some (units cs) := by
  rw [readKey, hscan]
  exact if_pos h

/-! ## Keys between quotes -/

/-- Whether a character breaks a text off. -/
def isBreak (c : Char) : Bool := c = '\n' || c = '\r'

theorem scan_escapedChar (earlier : List Nat) {c : Char} (h : isBreak c = false)
    (rest : List Char) :
    (Scanner.quoted earlier).scan (Text.escapedChar c ++ rest) =
      (Scanner.quoted (earlier ++ unitsOf c)).scan rest := by
  unfold Text.escapedChar
  split
  · next hspecial =>
      have hstep : (Scanner.escaped earlier).step c =
          some (.quoted (earlier ++ unitsOf c), []) := by
        simp only [Bool.or_eq_true, decide_eq_true_eq] at hspecial
        rcases hspecial with rfl | rfl <;> rfl
      exact scan_escape hstep rest
  · next hplain =>
      simp only [Bool.or_eq_true, decide_eq_true_eq, not_or] at hplain
      simp only [isBreak, Bool.or_eq_false_iff, decide_eq_false_iff_not] at h
      exact scan_of_step (step_quoted earlier hplain.2 hplain.1 h) rest

/-- An escaped text is read as it was, unless a line break breaks it off. -/
theorem scan_escapedChars (earlier : List Nat) (cs rest : List Char) :
    (Scanner.quoted earlier).scan (cs.flatMap Text.escapedChar ++ rest) =
      if cs.any isBreak then none else (Scanner.quoted (earlier ++ units cs)).scan rest := by
  induction cs generalizing earlier with
  | nil => exact congrArg (fun e => (Scanner.quoted e).scan rest) (List.append_nil _).symm
  | cons c cs ih =>
    rw [List.flatMap_cons, List.append_assoc, List.any_cons, units_cons]
    cases hbreak : isBreak c with
    | false =>
      rw [scan_escapedChar earlier hbreak, ih, Bool.false_or, List.append_assoc]
    | true =>
      have hstep : ∀ d, isBreak d = true → (Scanner.quoted earlier).step d = none ∧
          Text.escapedChar d = [d] := by
        intro d hd
        simp only [isBreak, Bool.or_eq_true, decide_eq_true_eq] at hd
        rcases hd with rfl | rfl <;> exact ⟨rfl, rfl⟩
      rw [(hstep c hbreak).2, List.cons_append, scan_cons, (hstep c hbreak).1]
      rfl

/-- A text between quotes is one token, unless a line break breaks it off. -/
theorem scan_singleQuoted (s : String) :
    Scanner.between.scan (Text.singleQuoted s).toList =
      if s.toList.any isBreak then none else some [.text (units s.toList)] := by
  have hopen : Scanner.between.step apostrophe = some (.quoted [], []) := by decide
  have hclose : (Scanner.quoted (units s.toList)).scan [apostrophe] =
      some [.text (units s.toList)] := by
    rw [scan_cons, Scanner.step, if_pos rfl]
    rfl
  rw [Text.singleQuoted_toList, scan_of_step hopen, scan_escapedChars, List.nil_append, hclose]

theorem readKey_singleQuoted (s : String) :
    readKey (Text.singleQuoted s) =
      if s.toList.any isBreak then none else some (units s.toList) := by
  rw [readKey, scan_singleQuoted]
  cases s.toList.any isBreak <;> rfl

/-! ## Keys of properties -/

/-- A plain key is a name, or a name and a line feed. -/
theorem isPlainKey_iff {cs : List Char} :
    isPlainKey cs = true ↔
      isIdentifier cs = true ∨ ∃ name, isIdentifier name = true ∧ cs = name ++ ['\n'] := by
  rw [isPlainKey, Bool.or_eq_true, Bool.and_eq_true, beq_iff_eq]
  refine or_congr_right ⟨fun ⟨hlast, hname⟩ => ⟨_, hname, ?_⟩, ?_⟩
  · exact (List.dropLast_append_getLast? _ hlast).symm
  · rintro ⟨name, hname, rfl⟩
    rw [List.getLast?_concat, List.dropLast_concat]
    exact ⟨rfl, hname⟩

/-- The name that a key was made for, less the line break that a plain key may
have at its end. -/
def unbrokenName (s : String) : List Char :=
  if isIdentifier s.toList || !isPlainKey s.toList then s.toList else s.toList.dropLast

/-- The name that a key denotes. -/
def propertyName (s : String) : List Nat := units (unbrokenName s)

/-- Keys denote names, and only a line break between quotes makes them denote
nothing. -/
theorem readKey_propertyKey (s : String) :
    readKey (propertyKey s) =
      if isPlainKey s.toList || !s.toList.any isBreak then some (propertyName s)
      else none := by
  rw [propertyKey, propertyName, unbrokenName]
  cases hplain : isPlainKey s.toList with
  | true =>
    rw [if_pos rfl, Bool.true_or, if_pos rfl, Bool.not_true, Bool.or_false]
    cases hidentifier : isIdentifier s.toList with
    | true =>
      have hscan := scan_name hidentifier [] nofun
      rw [List.append_nil] at hscan
      exact readKey_of_scan_name hidentifier hscan
    | false =>
      obtain ⟨name, hname, hs⟩ :=
        (isPlainKey_iff.1 hplain).resolve_left (Bool.eq_false_iff.1 hidentifier)
      have hblank : ∀ c ∈ ['\n'], blankRanges.holds c = true :=
        List.forall_mem_singleton.2 (by decide)
      have hend : Scanner.between.scan ['\n'] = some [] := JsonText.Lexeme.scan_blanks hblank []
      have hscan := scan_name hname ['\n'] (by rintro c ⟨⟩; decide)
      rw [hend, ← hs] at hscan
      rw [if_neg Bool.false_ne_true, hs, List.dropLast_concat]
      exact readKey_of_scan_name hname hscan
  | false =>
    rw [if_neg Bool.false_ne_true, readKey_singleQuoted, Bool.not_false, Bool.or_true, if_pos rfl]
    cases s.toList.any isBreak <;> rfl

/-- Whether two keys of an object literal are one: they are written alike or
denote one name. -/
def SameKey (a b : String) : Prop :=
  units a.toList = units b.toList ∨ ∃ name, readKey a = some name ∧ readKey b = some name

theorem unbrokenName_of_not_plain {s : String} (h : isPlainKey s.toList = false) :
    unbrokenName s = s.toList := by
  rw [unbrokenName, h, Bool.not_false, Bool.or_true, if_pos rfl]

/-- The name that a plain key denotes is plain. -/
theorem unbrokenName_plain {s : String} (h : isPlainKey s.toList = true) :
    isIdentifier (unbrokenName s) = true := by
  rw [unbrokenName, h, Bool.not_true, Bool.or_false]
  cases hidentifier : isIdentifier s.toList with
  | true => exact hidentifier
  | false =>
    obtain ⟨name, hname, hs⟩ :=
      (isPlainKey_iff.1 h).resolve_left (Bool.eq_false_iff.1 hidentifier)
    rw [if_neg Bool.false_ne_true, hs, List.dropLast_concat]
    exact hname

theorem isPlainKey_unbrokenName (s : String) :
    isIdentifier (unbrokenName s) = isPlainKey s.toList := by
  cases h : isPlainKey s.toList with
  | true => exact unbrokenName_plain h
  | false =>
    rw [unbrokenName_of_not_plain h]
    exact (Bool.or_eq_false_iff.1 h).1

/-- No plain key stands between quotes. -/
theorem not_isPlainKey_quoted (body : List Char) :
    isPlainKey (apostrophe :: (body ++ [apostrophe])) = false := by
  have hquote : ∀ cs, isIdentifier (apostrophe :: cs) = false := fun _ => rfl
  rw [isPlainKey, List.dropLast_cons_of_ne_nil (by simp), hquote, hquote, Bool.and_false]
  rfl

/-! ## Keys by their units -/

/-- Names are ASCII. -/
theorem toNat_lt_of_isNamePart {c : Char} (h : isNamePart c = true) : c.toNat < 128 := by
  simp only [isNamePart, Bool.or_eq_true, decide_eq_true_eq] at h
  rcases h with (halnum | rfl) | rfl
  · exact alphanum_ascii halnum
  · decide
  · decide

theorem toNat_lt_of_isIdentifier {cs : List Char} (h : isIdentifier cs = true) :
    ∀ c ∈ cs, c.toNat < 0xd800 := fun c hc =>
  Nat.lt_trans (toNat_lt_of_isNamePart (chars_of_isIdentifier h c hc)) (by decide)

theorem toNat_lt_of_isPlainKey {cs : List Char} (h : isPlainKey cs = true) :
    ∀ c ∈ cs, c.toNat < 0xd800 := by
  rcases isPlainKey_iff.1 h with hname | ⟨name, hname, rfl⟩
  · exact toNat_lt_of_isIdentifier hname
  · rw [List.forall_mem_append]
    exact ⟨toNat_lt_of_isIdentifier hname, List.forall_mem_singleton.2 (by decide)⟩

/-- Neither a quote nor a backslash is a part of another character. -/
theorem units_escapedChar (c : Char) :
    units (Text.escapedChar c) = (unitsOf c).flatMap (Text.marked 0x27 0x5c) := by
  unfold Text.escapedChar
  split
  · next hspecial =>
      simp only [Bool.or_eq_true, decide_eq_true_eq] at hspecial
      rcases hspecial with rfl | rfl <;> decide
  · next hplain =>
      simp only [Bool.or_eq_true, decide_eq_true_eq, not_or] at hplain
      have hself : ∀ n ∈ unitsOf c, Text.marked 0x27 0x5c n = [n] := by
        intro n hn
        refine if_neg (not_or.2 ?_)
        rcases unitsOf_cases c with hc | ⟨-, high, low, hhigh, hlow, hc⟩
        · obtain rfl := List.mem_singleton.1 (hc ▸ hn)
          exact ⟨fun h => hplain.2 (eq_of_codeOf h (by decide)),
            fun h => hplain.1 (eq_of_codeOf h (by decide))⟩
        · rw [hc] at hn
          simp only [List.mem_cons, List.not_mem_nil, or_false] at hn
          omega
      rw [List.flatMap_congr hself, List.flatMap_singleton']
      exact List.append_nil _

theorem units_singleQuoted (s : String) :
    units (Text.singleQuoted s).toList =
      0x27 :: ((units s.toList).flatMap (Text.marked 0x27 0x5c) ++ [0x27]) := by
  have hbody : ∀ cs : List Char, units (cs.flatMap Text.escapedChar) =
      (units cs).flatMap (Text.marked 0x27 0x5c) := by
    intro cs
    induction cs with
    | nil => rfl
    | cons c cs ih =>
      rw [List.flatMap_cons, units_append, units_escapedChar, ih, units_cons, List.flatMap_append]
  have hquote : unitsOf apostrophe = [0x27] := by decide
  rw [Text.singleQuoted_toList, units_cons, units_append, hbody, units_cons, hquote]
  rfl

/-- Keys that are written alike are made for one name. -/
theorem propertyName_of_units {a b : String}
    (h : units (propertyKey a).toList = units (propertyKey b).toList) :
    propertyName a = propertyName b := by
  have hmixed : ∀ {s t : String}, isPlainKey s.toList = true →
      units s.toList ≠ units (Text.singleQuoted t).toList := by
    intro s t hplain heq
    have hsame := eq_of_units (toNat_lt_of_isPlainKey hplain) heq
    rw [hsame, Text.singleQuoted_toList, not_isPlainKey_quoted] at hplain
    cases hplain
  unfold propertyKey at h
  split at h <;> split at h
  · next hplain _ =>
      rw [String.toList_inj.1 (eq_of_units (toNat_lt_of_isPlainKey hplain) h)]
  · next hplain _ => exact absurd h (hmixed hplain)
  · next _ hplain => exact absurd h.symm (hmixed hplain)
  · next ha hb =>
      rw [units_singleQuoted, units_singleQuoted, List.cons.injEq] at h
      rw [propertyName, propertyName, unbrokenName_of_not_plain (Bool.eq_false_iff.2 ha),
        unbrokenName_of_not_plain (Bool.eq_false_iff.2 hb)]
      exact (Text.marked_append_inj (by decide) h.2).1

theorem isPlainKey_of_propertyName {a b : String} (h : propertyName a = propertyName b)
    (hplain : isPlainKey a.toList = true) : isPlainKey b.toList = true := by
  have hname := unbrokenName_plain hplain
  rw [eq_of_units (toNat_lt_of_isIdentifier hname) h, isPlainKey_unbrokenName] at hname
  exact hname

/-- Two names have one key exactly if the keys denote one name. -/
theorem sameKey_iff {a b : String} :
    SameKey (propertyKey a) (propertyKey b) ↔ propertyName a = propertyName b := by
  constructor
  · rintro (htext | ⟨name, ha, hb⟩)
    · exact propertyName_of_units htext
    · rw [readKey_propertyKey] at ha hb
      split at ha
      · split at hb
        · exact Option.some.inj (ha.trans hb.symm)
        · cases hb
      · cases ha
  · intro h
    cases ha : isPlainKey a.toList with
    | true =>
      have hb := isPlainKey_of_propertyName h ha
      refine .inr ⟨propertyName b, ?_, ?_⟩
      · rw [readKey_propertyKey, ha, h, Bool.true_or, if_pos rfl]
      · rw [readKey_propertyKey, hb, Bool.true_or, if_pos rfl]
    | false =>
      have hb : isPlainKey b.toList = false := Bool.eq_false_iff.2 fun hb =>
        Bool.eq_false_iff.1 ha (isPlainKey_of_propertyName h.symm hb)
      rw [propertyName, propertyName, unbrokenName_of_not_plain ha,
        unbrokenName_of_not_plain hb] at h
      refine .inl ?_
      rw [propertyKey, propertyKey, if_neg (Bool.eq_false_iff.1 ha),
        if_neg (Bool.eq_false_iff.1 hb), units_singleQuoted, units_singleQuoted, h]

end Script

end TypedClient
