import TypedClient.Proofs.PropertyKeys

/-!
# Keys that read back

A key is right for a name in two ways. It is the name as it is, and then the
name has the shape of one, or it is a literal between single quotes that stands
on one line, ends at no quote of the name and denotes the name.

The quotes are in order for every name. A backslash of the name is written as a
pair and a quote of it with a backslash before it, so what is written for one
character escapes nothing of the next (`escapesNext_escapedChar`). Line breaks
are not escaped, and they are all that can go wrong: a name with one between
quotes is no literal, and a name with one at its end passes for a name without
it. Which characters break a line depends on who asks. A literal cannot have two
of them, and two more end a line elsewhere in a script, so the condition is
stated for both.
-/

namespace TypedClient

open Text (apostrophe)

namespace Text

/-! ## Quotes that are escaped -/

/-- Whether the character after a text is escaped: the text ends with a backslash
that is not escaped itself. -/
def escapesNext (before : List Char) : Bool :=
  before.foldl (fun escaped c => !escaped && c = '\\') false

/-- Whether quotes stand around a text and every quote within it is escaped. -/
structure IsQuoted (cs : List Char) : Prop where
  around : ∃ body, cs = apostrophe :: (body ++ [apostrophe])
  open_iff : ∀ {before after}, cs = before ++ apostrophe :: after →
    (escapesNext before = false ↔ before = [] ∨ after = [])

theorem mem_escapedChar {c d : Char} (h : d ∈ escapedChar c) : d = '\\' ∨ d = c := by
  unfold escapedChar at h
  split at h
  · simpa using h
  · exact .inr (List.mem_singleton.1 h)

theorem self_mem_escapedChar (c : Char) : c ∈ escapedChar c := by
  unfold escapedChar
  split <;> simp

/-- A quote that was escaped has a backslash before it. -/
theorem before_quote {c : Char} {before after : List Char}
    (h : escapedChar c = before ++ apostrophe :: after) : before = ['\\'] := by
  unfold escapedChar at h
  split at h
  · cases before with
    | nil => exact absurd (List.cons.inj h).1 (by decide)
    | cons b before =>
      obtain ⟨rfl, hrest⟩ := List.cons.inj h
      obtain ⟨rfl, -⟩ := (List.singleton_eq_append_iff.1 hrest).resolve_right (by simp)
      rfl
  · next hplain =>
    obtain ⟨rfl, hc⟩ := (List.singleton_eq_append_iff.1 h).resolve_right (by simp)
    obtain ⟨rfl, -⟩ := List.cons.inj hc
    exact absurd rfl hplain

/-- What is escaped leaves nothing escaped behind it. -/
theorem escapesNext_escapedChar (c : Char) (cs : List Char) :
    escapesNext (escapedChar c ++ cs) = escapesNext cs := by
  unfold escapedChar
  split
  · rfl
  · next hplain =>
    have hslash : ¬c = '\\' := fun hc => hplain (by rw [hc]; rfl)
    rw [List.singleton_append, escapesNext, List.foldl_cons, decide_eq_false hslash,
      Bool.and_false, escapesNext]

theorem escapesNext_escapedChars (cs : List Char) :
    escapesNext (cs.flatMap escapedChar) = false := by
  induction cs with
  | nil => rfl
  | cons c cs ih => rw [List.flatMap_cons, escapesNext_escapedChar, ih]

theorem escapesNext_of_quote {cs before after : List Char}
    (h : cs.flatMap escapedChar = before ++ apostrophe :: after) : escapesNext before = true := by
  induction cs generalizing before with
  | nil => simp at h
  | cons c cs ih =>
    rw [List.flatMap_cons, List.append_eq_append_iff] at h
    -- The quote is in what follows the first character or among what is written for it.
    rcases h with ⟨more, rfl, hrest⟩ | ⟨rest, hchar, hafter⟩
    · rw [escapesNext_escapedChar]
      exact ih hrest
    · cases rest with
      | nil => exact absurd (@ih [] hafter.symm) Bool.false_ne_true
      | cons d rest =>
        obtain ⟨rfl, -⟩ := List.cons.inj hafter
        rw [before_quote hchar]
        rfl

theorem isQuoted_singleQuoted (s : String) : IsQuoted (singleQuoted s).toList := by
  rw [singleQuoted_toList]
  refine ⟨⟨_, rfl⟩, fun {before after} h => ?_⟩
  cases before with
  | nil => exact iff_of_true rfl (.inl rfl)
  | cons b before =>
    obtain ⟨rfl, hrest⟩ := List.cons.inj h
    have hbody : s.toList.flatMap escapedChar ++ [apostrophe] =
        before ++ apostrophe :: after := hrest
    have hfirst : escapesNext (apostrophe :: before) = escapesNext before := rfl
    rw [hfirst]
    rcases List.eq_nil_or_concat' after with rfl | ⟨more, last, rfl⟩
    · rw [← List.append_cancel_right hbody]
      exact iff_of_true (escapesNext_escapedChars _) (.inr rfl)
    · rw [← List.cons_append, ← List.append_assoc] at hbody
      rw [escapesNext_of_quote (List.append_inj' hbody rfl).1]
      exact iff_of_false (by simp) (by simp)

/-- Quotes and backslashes are all that is added to a text to put it between
quotes. -/
theorem forall_mem_singleQuoted {P : Char → Prop} (hquote : P apostrophe) (hslash : P '\\')
    (s : String) : (∀ c ∈ (singleQuoted s).toList, P c) ↔ ∀ c ∈ s.toList, P c := by
  rw [singleQuoted_toList]
  simp only [List.forall_mem_cons, List.forall_mem_append, List.mem_flatMap]
  constructor
  · rintro ⟨-, hbody, -⟩ c hc
    exact hbody c ⟨c, hc, self_mem_escapedChar c⟩
  · intro h
    refine ⟨hquote, ?_, hquote, nofun⟩
    rintro d ⟨c, hc, hd⟩
    rcases mem_escapedChar hd with rfl | rfl
    · exact hslash
    · exact h d hc

end Text

open Naming

namespace Script

/-! ## Keys that are right -/

/-- Whether a text is a literal between single quotes that denotes a name. It
is on one line, and only its first and its last quote are not escaped. -/
structure IsLiteralOf (isEnd : Char → Bool) (text name : String) : Prop where
  reads : Scanner.between.scan text.toList = some [.text (units name.toList)]
  unbroken : ∀ c ∈ text.toList, isEnd c = false
  quoted : Text.IsQuoted text.toList

/-- Whether a text is right as the key for a name. -/
def IsKeyOf (isEnd : Char → Bool) (text name : String) : Prop :=
  text = name ∧ isIdentifier name.toList = true ∨ IsLiteralOf isEnd text name

/-- Whether a test tells line breaks. Those that a literal cannot have are among
them, and all of them end a line somewhere in a script. -/
structure TellsBreaks (isEnd : Char → Bool) : Prop where
  of_isBreak : ∀ {c}, isBreak c = true → isEnd c = true
  isLineEnd : ∀ {c}, isEnd c = true → isLineEnd c = true

theorem tellsBreaks_isBreak : TellsBreaks isBreak where
  of_isBreak := id
  isLineEnd := fun {c} h => by rw [isLineEnd, ← isBreak, h, Bool.true_or, Bool.true_or]

theorem tellsBreaks_isLineEnd : TellsBreaks isLineEnd where
  of_isBreak := tellsBreaks_isBreak.isLineEnd
  isLineEnd := id

theorem not_isLineEnd_of_isNamePart {c : Char} (h : isNamePart c = true) : isLineEnd c = false := by
  refine Bool.eq_false_iff.2 fun hend => ?_
  simp only [isLineEnd, Bool.or_eq_true, decide_eq_true_eq] at hend
  rcases hend with ((rfl | rfl) | hc) | hc
  · exact absurd h (by decide)
  · exact absurd h (by decide)
  · exact absurd (hc ▸ toNat_lt_of_isNamePart h) (by decide)
  · exact absurd (hc ▸ toNat_lt_of_isNamePart h) (by decide)

section

variable {isEnd : Char → Bool}

theorem TellsBreaks.not_of_lineEnd (h : TellsBreaks isEnd) {c : Char}
    (hc : Script.isLineEnd c = false) : isEnd c = false := by
  refine Bool.eq_false_iff.2 fun hend => ?_
  rw [h.isLineEnd hend] at hc
  cases hc

/-- Between quotes a name is written right exactly if it has no line break. -/
theorem isLiteralOf_singleQuoted (h : TellsBreaks isEnd) (s : String) :
    IsLiteralOf isEnd (Text.singleQuoted s) s ↔ ∀ c ∈ s.toList, isEnd c = false := by
  have hunbroken := Text.forall_mem_singleQuoted (P := fun c => isEnd c = false)
    (h.not_of_lineEnd (by decide)) (h.not_of_lineEnd (by decide)) s
  refine ⟨fun hliteral => hunbroken.1 hliteral.unbroken,
    fun hnone => ⟨?_, hunbroken.2 hnone, Text.isQuoted_singleQuoted s⟩⟩
  have hreadable : s.toList.any isBreak = false := List.any_eq_false.2 fun c hc hbreak =>
    Bool.eq_false_iff.1 (hnone c hc) (h.of_isBreak hbreak)
  rw [scan_singleQuoted, hreadable, if_neg Bool.false_ne_true]

/-- Keys are right for the names without a line break and for no others. -/
theorem isKeyOf_propertyKey (h : TellsBreaks isEnd) (s : String) :
    IsKeyOf isEnd (propertyKey s) s ↔ ∀ c ∈ s.toList, isEnd c = false := by
  rw [IsKeyOf, propertyKey]
  cases hplain : isPlainKey s.toList with
  | true =>
    rw [if_pos rfl]
    rcases isPlainKey_iff.1 hplain with hname | ⟨name, -, hs⟩
    · refine iff_of_true (.inl ⟨rfl, hname⟩) fun c hc => ?_
      exact h.not_of_lineEnd (not_isLineEnd_of_isNamePart (chars_of_isIdentifier hname c hc))
    · -- A line feed follows the name, and there are no quotes.
      have hfeed : '\n' ∈ s.toList := by simp [hs]
      refine iff_of_false ?_ fun hnone => ?_
      · rintro (⟨-, hname⟩ | hliteral)
        · exact absurd (chars_of_isIdentifier hname _ hfeed) (by decide)
        · obtain ⟨body, hbody⟩ := hliteral.quoted.around
          rw [hbody, not_isPlainKey_quoted] at hplain
          cases hplain
      · exact Bool.eq_false_iff.1 (hnone _ hfeed) (h.of_isBreak rfl)
  | false =>
    have hname : isIdentifier s.toList = false := (Bool.or_eq_false_iff.1 hplain).1
    rw [if_neg Bool.false_ne_true, hname, or_iff_right fun hboth => Bool.false_ne_true hboth.2]
    exact isLiteralOf_singleQuoted h s

end

/-- No key is right for a name with a line break. -/
theorem not_isKeyOf {s : String} (h : s.toList.any isBreak = true) :
    ¬IsKeyOf isBreak (propertyKey s) s := fun hkey => by
  obtain ⟨c, hc, hbreak⟩ := List.any_eq_true.1 h
  exact Bool.eq_false_iff.1 ((isKeyOf_propertyKey tellsBreaks_isBreak s).1 hkey c hc) hbreak

/-- Keys read back unless their names have line breaks. A key is its name, or it
stands between quotes of which only the outer ones are not escaped. It is right
for its name exactly if the name has no line feed and no carriage return. Where
the other line ends of a script count as well, the name must not have these
either, and that is all. -/
theorem propertyKey_reads_back_iff (s : String) :
    (propertyKey s = s ∧ (isIdentifier s.toList = true ∨
        ∃ name, isIdentifier name = true ∧ s.toList = name ++ ['\n']) ∨
      Text.IsQuoted (propertyKey s).toList) ∧
    (IsKeyOf isBreak (propertyKey s) s ↔ ∀ c ∈ s.toList, isBreak c = false) ∧
    (IsKeyOf isLineEnd (propertyKey s) s ↔ ∀ c ∈ s.toList, isLineEnd c = false) := by
  refine ⟨?_, isKeyOf_propertyKey tellsBreaks_isBreak s,
    isKeyOf_propertyKey tellsBreaks_isLineEnd s⟩
  rw [propertyKey]
  split
  · next hplain => exact .inl ⟨rfl, isPlainKey_iff.1 hplain⟩
  · exact .inr (Text.isQuoted_singleQuoted s)

/-- A line feed after a name passes for a part of it, and between quotes it
leaves no literal. -/
theorem propertyKey_broken_by_line_feed :
    (propertyKey "id\n" = "id\n" ∧ readKey "id\n" = some (units "id".toList) ∧
      ¬IsKeyOf isBreak (propertyKey "id\n") "id\n") ∧
    (propertyKey "a\nb" = "'a\nb'" ∧ readKey "'a\nb'" = none ∧
      ¬IsKeyOf isBreak (propertyKey "a\nb") "a\nb") :=
  ⟨⟨by decide +kernel, by decide +kernel, not_isKeyOf (by decide)⟩,
    ⟨by decide +kernel, by decide +kernel, not_isKeyOf (by decide)⟩⟩

end Script

end TypedClient
