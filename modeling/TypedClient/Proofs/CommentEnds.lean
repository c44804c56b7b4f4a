import TypedClient.Emit.Generation
import TypedClient.Proofs.NameCharacters
import TypedClient.Script.Comment

/-!
# Where comments end

A comment is read as it was written if what ends comments is nowhere in it but at its end. Whether
it is, is a question about pairs of adjacent characters, so for a text that is put together it comes
down to its parts, as long as no part ends with a star where the next one starts with a slash. The
texts that the generator puts between others (`isFrame`) take care of that.
-/

namespace TypedClient

/-- Whether two characters are next to each other in a text, in this order. -/
def Adjacent (a b : Char) (cs : List Char) : Prop := [a, b] <:+: cs

/-- A text has something in it that ends comments. -/
def HasEnd (s : String) : Prop := Adjacent '*' '/' s.toList

instance (a b : Char) (cs : List Char) : Decidable (Adjacent a b cs) :=
  inferInstanceAs (Decidable ([a, b] <:+: cs))

instance (s : String) : Decidable (HasEnd s) := inferInstanceAs (Decidable (Adjacent _ _ _))

/-! ## Adjacent characters -/

namespace Adjacent

variable {a b c : Char} {xs ys cs : List Char}

theorem not_nil : ¬ Adjacent a b [] := by simp [Adjacent]

theorem cons_iff : Adjacent a b (c :: cs) ↔ c = a ∧ cs.head? = some b ∨ Adjacent a b cs := by
  have hhead : [b] <+: cs ↔ cs.head? = some b := by
    cases cs <;> simp [List.cons_prefix_cons, eq_comm]
  rw [Adjacent, List.infix_cons_iff, List.cons_prefix_cons, hhead, eq_comm, Adjacent]

theorem mem (h : Adjacent a b cs) : a ∈ cs ∧ b ∈ cs :=
  ⟨h.subset (by simp), h.subset (by simp)⟩

/-- Putting texts together brings characters next to each other at one place only. -/
theorem append_iff (hjoin : xs.getLast? ≠ some a ∨ ys.head? ≠ some b) :
    Adjacent a b (xs ++ ys) ↔ Adjacent a b xs ∨ Adjacent a b ys := by
  induction xs with
  | nil => simp [not_nil]
  | cons c rest ih =>
      cases rest with
      | nil =>
          have hnone : ¬ (c = a ∧ ys.head? = some b) := fun h =>
            hjoin.elim (fun hlast => hlast (by simp [h.1])) fun hhead => hhead h.2
          rw [List.cons_append, List.nil_append, cons_iff, cons_iff]
          simp [hnone, not_nil]
      | cons d more =>
          have hlast : (c :: d :: more).getLast? = (d :: more).getLast? :=
            List.getLast?_cons_cons
          rw [List.cons_append, cons_iff, ih (hlast ▸ hjoin), cons_iff (c := c), or_assoc]
          rfl

theorem reverse_iff : Adjacent a b cs.reverse ↔ Adjacent b a cs := by
  rw [Adjacent, Adjacent, ← List.reverse_infix, List.reverse_reverse]
  rfl

theorem dropWhile_iff {p : Char → Bool} (ha : p a = false) :
    Adjacent a b (cs.dropWhile p) ↔ Adjacent a b cs := by
  induction cs with
  | nil => rfl
  | cons c rest ih =>
      rw [List.dropWhile_cons]
      split
      · next hdropped =>
          have hne : c ≠ a := by
            rintro rfl
            rw [ha] at hdropped
            cases hdropped
          rw [ih, cons_iff]
          simp [hne]
      · rfl

/-- Blanks at the ends of a text do not matter. -/
theorem trimBlanks_iff (ha : Text.isBlank a = false) (hb : Text.isBlank b = false) :
    Adjacent a b (Text.trimBlanks cs) ↔ Adjacent a b cs := by
  rw [Text.trimBlanks, reverse_iff, dropWhile_iff hb, reverse_iff, dropWhile_iff ha]

/-- Nor do texts that take the place of a character, if they keep others apart as it does. -/
theorem replaceChar_iff {old : Char} {new : List Char} (hold : old ≠ a ∧ old ≠ b)
    (hnew : ¬ Adjacent a b new) (hlast : new.getLast? ≠ some a) (hhead : new.head? ≠ some b)
    (hempty : new ≠ []) :
    Adjacent a b (Text.replaceChar old new cs) ↔ Adjacent a b cs := by
  induction cs with
  | nil => rfl
  | cons c rest ih =>
      have hstep : Text.replaceChar old new (c :: rest) =
          (if c = old then new else [c]) ++ Text.replaceChar old new rest := rfl
      have hfirst : (Text.replaceChar old new rest).head? = some b ↔ rest.head? = some b := by
        cases rest with
        | nil => rfl
        | cons d more =>
            have hnext : Text.replaceChar old new (d :: more) =
                (if d = old then new else [d]) ++ Text.replaceChar old new more := rfl
            rw [hnext]
            split
            · next hsame =>
                rw [List.head?_append_of_ne_nil _ hempty]
                simp [hhead, hsame, hold.2]
            · rfl
      rw [hstep, cons_iff]
      split
      · next hsame =>
          rw [append_iff (.inl hlast), ih]
          simp [hnew, hsame, hold.1]
      · rw [List.singleton_append, cons_iff, ih, hfirst]

end Adjacent

/-! ## Texts put together -/

/-- A text that keeps its neighbours apart, and does not end a comment itself. -/
def isFrame (s : String) : Bool :=
  s.toList.head?.any (· != '/') && s.toList.getLast?.any (· != '*') && !decide (HasEnd s)

namespace HasEnd

variable {s t frame : String}

theorem append_iff (hjoin : s.toList.getLast? ≠ some '*' ∨ t.toList.head? ≠ some '/') :
    HasEnd (s ++ t) ↔ HasEnd s ∨ HasEnd t := by
  rw [HasEnd, String.toList_append]
  exact Adjacent.append_iff hjoin

theorem of_frame (h : isFrame frame = true) :
    frame.toList.head? ≠ some '/' ∧ frame.toList.getLast? ≠ some '*' ∧ ¬ HasEnd frame := by
  rw [isFrame, Bool.and_eq_true, Bool.and_eq_true, Bool.not_eq_true', decide_eq_false_iff_not]
    at h
  obtain ⟨⟨hhead, hlast⟩, hnone⟩ := h
  refine ⟨fun hslash => ?_, fun hstar => ?_, hnone⟩
  · rw [hslash] at hhead
    cases hhead
  · rw [hstar] at hlast
    cases hlast

theorem prefix_iff (h : isFrame frame = true) : HasEnd (frame ++ t) ↔ HasEnd t := by
  obtain ⟨_, hlast, hnone⟩ := of_frame h
  rw [append_iff (.inl hlast), or_iff_right hnone]

theorem suffix_iff (h : isFrame frame = true) : HasEnd (s ++ frame) ↔ HasEnd s := by
  obtain ⟨hhead, _, hnone⟩ := of_frame h
  rw [append_iff (.inr hhead), or_iff_left hnone]

theorem between_iff (h : isFrame frame = true) :
    HasEnd (s ++ frame ++ t) ↔ HasEnd s ∨ HasEnd t := by
  have hne : frame.toList ≠ [] := by
    intro hnil
    rw [isFrame, hnil] at h
    cases h
  have hlast : (s ++ frame).toList.getLast? ≠ some '*' := by
    rw [String.toList_append, List.getLast?_append_of_ne_nil _ hne]
    exact (of_frame h).2.1
  rw [append_iff (.inl hlast), suffix_iff h]

theorem not_empty : ¬ HasEnd "" := Adjacent.not_nil

theorem unlines_iff {lines : List String} :
    HasEnd (unlines lines) ↔ ∃ line ∈ lines, HasEnd line := by
  induction lines with
  | nil => simp [unlines, not_empty]
  | cons line rest ih =>
      have hcons : unlines (line :: rest) = line ++ "\n" ++ unlines rest := by
        rw [unlines, List.map_cons, String.join_cons]
        rfl
      rw [hcons, between_iff (by decide), ih, List.exists_mem_cons_iff]

end HasEnd

/-! ## Comments -/

/-- A text is read as one comment, up to its own end, wherever it stands. -/
def IsComment (s : String) : Prop :=
  ∀ after, Script.comment? (s.toList ++ after) = some (s.toList, after)

theorem upToEnd_iff {cs after : List Char} :
    Script.upToEnd (cs ++ '*' :: '/' :: after) = some (cs ++ ['*', '/'], after) ↔
      ¬ Adjacent '*' '/' (cs ++ ['*']) := by
  induction cs with
  | nil =>
      rw [List.nil_append, List.nil_append, Script.upToEnd]
      simp [Adjacent.cons_iff, Adjacent.not_nil, Script.commentEnd]
  | cons c rest ih =>
      have hnext : (rest ++ '*' :: '/' :: after).head? = some '/' ↔
          (rest ++ ['*']).head? = some '/' := by
        cases rest <;> simp
      rw [List.cons_append, List.cons_append, List.cons_append, Adjacent.cons_iff, ← hnext,
        Script.upToEnd]
      by_cases hend : c = '*' ∧ (rest ++ '*' :: '/' :: after).head? = some '/'
      · -- The comment ends here, before the end that is asked about.
        rw [if_pos (by simpa using hend)]
        constructor
        · intro h
          have hshort := congrArg (·.1.length) (Option.some.inj h)
          simp [Script.commentEnd] at hshort
        · intro h
          exact absurd (.inl hend) h
      · rw [if_neg (by simpa using hend), or_iff_right hend, ← ih, Option.map_eq_some_iff]
        constructor
        · rintro ⟨⟨inner, later⟩, hrest, hsame⟩
          cases hsame
          exact hrest
        · intro hrest
          exact ⟨_, hrest, rfl⟩

/-- What stands between the two ends of a comment decides whether it is one. -/
theorem isComment_iff {body : String} :
    IsComment ("/*" ++ body ++ "*/") ↔ ¬ HasEnd (body ++ "*") := by
  have hstart (after : List Char) : Script.comment? (("/*" ++ body ++ "*/").toList ++ after) =
      (Script.upToEnd (body.toList ++ '*' :: '/' :: after)).map fun read =>
        ('/' :: '*' :: read.1, read.2) := by
    simp [Script.comment?]
  rw [HasEnd, String.toList_append]
  constructor
  · intro h
    have hread := h []
    rw [hstart, Option.map_eq_some_iff] at hread
    obtain ⟨⟨inner, later⟩, hinner, hsame⟩ := hread
    refine upToEnd_iff.1 (hinner.trans ?_)
    simpa using hsame
  · intro h after
    rw [hstart, upToEnd_iff.2 h]
    simp

end TypedClient
