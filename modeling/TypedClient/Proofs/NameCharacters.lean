import TypedClient.Api.Operation
import TypedClient.Naming.EnumName
import TypedClient.Proofs.Outcomes

/-!
# The characters of names

Whatever a tag or an identifier looks like in a document, what remains of it in
a slug are letters, digits and underscores of ASCII, and in camel case not even
underscores. That is why names of modules stay clear of anything with a slash,
a dot or a blank in it.

The name of an enum keeps dollar signs too, and takes an underscore before a
digit, which makes it an identifier whatever its literals are.

Changing the case of a character is a table for characters at large, but within
ASCII it is an offset, and there a property can be checked value by value.
-/

namespace TypedClient.Naming

/-! ## ASCII -/

theorem ascii_forall {P : Char → Prop} (h : ∀ n < 128, P (Char.ofNat n)) {c : Char}
    (hc : c.toNat < 128) : P c := by
  rw [← Char.ofNat_toNat c]
  exact h c.toNat hc

theorem alphanum_ascii {c : Char} (h : c.isAlphanum = true) : c.toNat < 128 := by
  change (decide (c.val ≥ 'A'.val ∧ c.val ≤ 'Z'.val) || c.val ≥ 'a'.val && c.val ≤ 'z'.val
    || c.val ≥ '0'.val && c.val ≤ '9'.val) = true at h
  simp only [Bool.or_eq_true, Bool.and_eq_true, decide_eq_true_eq, UInt32.le_iff_toNat_le,
    ge_iff_le] at h
  have hz : 'z'.val.toNat = 122 := rfl
  have hZ : 'Z'.val.toNat = 90 := rfl
  have h9 : '9'.val.toNat = 57 := rfl
  have hc : c.toNat = c.val.toNat := rfl
  omega

theorem alphanum_toUpper {c : Char} (h : c.isAlphanum = true) : c.toUpper.isAlphanum = true :=
  ascii_forall (P := fun c => c.isAlphanum = true → c.toUpper.isAlphanum = true)
    (by decide +kernel) (alphanum_ascii h) h

theorem alphanum_toLower {c : Char} (h : c.isAlphanum = true) : c.toLower.isAlphanum = true :=
  ascii_forall (P := fun c => c.isAlphanum = true → c.toLower.isAlphanum = true)
    (by decide +kernel) (alphanum_ascii h) h

/-! ## The shape of a name -/

theorem isNamePart_of_isNameStart {c : Char} (h : isNameStart c = true) : isNamePart c = true := by
  simp only [isNameStart, isNamePart, Char.isAlphanum, Bool.or_eq_true] at h ⊢
  rcases h with (h | h) | h
  · exact .inl (.inl (.inl h))
  · exact .inl (.inr h)
  · exact .inr h

/-- Of the characters of a name only digits cannot start one. -/
theorem isNameStart_of_isNamePart {c : Char} (h : isNamePart c = true)
    (hdigit : c.isDigit = false) : isNameStart c = true := by
  simp only [isNamePart, Char.isAlphanum, hdigit, Bool.or_false] at h
  exact h

theorem isIdentifier_withNameStart {cs : List Char} (h : ∀ c ∈ cs, isNamePart c = true) :
    isIdentifier (withNameStart cs) = true := by
  cases cs with
  | nil => rfl
  | cons c rest =>
    obtain ⟨hc, hrest⟩ := List.forall_mem_cons.1 h
    rw [withNameStart]
    split
    · exact List.all_eq_true.2 h
    · next hdigit =>
        rw [isIdentifier, isNameStart_of_isNamePart hc (by simpa using hdigit),
          List.all_eq_true.2 hrest]
        rfl

theorem chars_of_isIdentifier {cs : List Char} (h : isIdentifier cs = true) :
    ∀ c ∈ cs, isNamePart c = true := by
  cases cs with
  | nil => cases h
  | cons c rest =>
    obtain ⟨hstart, hrest⟩ := Bool.and_eq_true_iff.1 h
    exact List.forall_mem_cons.2 ⟨isNamePart_of_isNameStart hstart, List.all_eq_true.1 hrest⟩

/-! ## Words -/

theorem pieces_alphanum {cut : CutRule} {cs : List Char} :
    ∀ piece ∈ pieces cut cs, ∀ c ∈ piece, c.isAlphanum = true := by
  induction cs with
  | nil => simp [pieces]
  | cons c rest ih =>
      rw [pieces.eq_def]
      dsimp only
      split
      · intro piece hpiece
        rcases List.mem_cons.1 hpiece with rfl | hrest
        · simp
        · exact ih piece hrest
      · next hc =>
          have hletter : c.isAlphanum = true := by simpa using hc
          split
          · simp [hletter]
          · next word words hwords =>
              rw [hwords] at ih
              obtain ⟨hword, hrest⟩ := List.forall_mem_cons.1 ih
              have heither : ∀ isCut : Bool, ∀ piece ∈
                  (if isCut then [c] :: word :: words else (c :: word) :: words),
                  ∀ d ∈ piece, d.isAlphanum = true := by
                intro isCut
                cases isCut with
                | false =>
                    exact List.forall_mem_cons.2 ⟨List.forall_mem_cons.2 ⟨hletter, hword⟩, hrest⟩
                | true =>
                    refine List.forall_mem_cons.2 ⟨?_, ih⟩
                    exact List.forall_mem_cons.2 ⟨hletter, fun d hd => absurd hd (by simp)⟩
              exact heither _

theorem words_alphanum {cut : CutRule} {cs : List Char} :
    ∀ word ∈ words cut cs, ∀ c ∈ word, c.isAlphanum = true := by
  intro word hword
  exact pieces_alphanum word (List.mem_filter.1 hword).1

theorem mem_intercalate {mark c : Char} {parts : List (List Char)}
    (h : c ∈ [mark].intercalate parts) : c = mark ∨ ∃ part ∈ parts, c ∈ part := by
  induction parts with
  | nil => simp at h
  | cons part rest ih =>
      cases rest with
      | nil => exact .inr ⟨part, List.mem_cons_self, by simpa using h⟩
      | cons next more =>
          rw [List.intercalate_cons_cons, List.mem_append, List.mem_append,
            List.mem_singleton] at h
          rcases h with (hpart | hmark) | hmore
          · exact .inr ⟨part, List.mem_cons_self, hpart⟩
          · exact .inl hmark
          · rcases ih hmore with hmark | ⟨other, hother, hc⟩
            · exact .inl hmark
            · exact .inr ⟨other, List.mem_cons_of_mem _ hother, hc⟩

/-- A slug has letters, digits and underscores, if its fallback has. -/
theorem slug_chars {s fallback : String}
    (h : ∀ c ∈ fallback.toList, c.isAlphanum = true ∨ c = '_') :
    ∀ c ∈ (slug s fallback).toList, c.isAlphanum = true ∨ c = '_' := by
  rw [slug]
  split
  · exact h
  · intro c hc
    rw [String.toList_ofList] at hc
    rcases mem_intercalate hc with hmark | ⟨part, hpart, hc⟩
    · exact .inr hmark
    · obtain ⟨word, hword, rfl⟩ := List.mem_map.1 hpart
      obtain ⟨d, hd, rfl⟩ := List.mem_map.1 hc
      exact .inl (alphanum_toLower (words_alphanum word hword d hd))

/-! ## Camel case -/

/-- Of ASCII characters the lower case is that of each on its own. -/
theorem lowerAfter_eq_map {before cs : List Char} (h : ∀ c ∈ cs, c.toNat < 128) :
    Text.lowerAfter before cs = cs.map Char.toLower := by
  induction cs generalizing before with
  | nil => rfl
  | cons c rest ih =>
      obtain ⟨hc, hrest⟩ := List.forall_mem_cons.1 h
      have hsigma : c ≠ 'Σ' := by
        rintro rfl
        exact absurd hc (by decide)
      have himage : Text.lowerChar c = [c.toLower] := by
        rw [Text.lowerChar, if_pos hc]
      rw [Text.lowerAfter, ih hrest]
      simp only [if_neg hsigma, himage, List.singleton_append, List.map_cons]

theorem lowerAfter_alphanum {before cs : List Char} (h : ∀ c ∈ cs, c.isAlphanum = true) :
    ∀ c ∈ Text.lowerAfter before cs, c.isAlphanum = true := by
  rw [lowerAfter_eq_map fun c hc => alphanum_ascii (h c hc)]
  intro c hc
  obtain ⟨d, hd, rfl⟩ := List.mem_map.1 hc
  exact alphanum_toLower (h d hd)

theorem capitalized_alphanum {s : String} (h : ∀ c ∈ s.toList, c.isAlphanum = true) :
    ∀ c ∈ (Text.capitalized s).toList, c.isAlphanum = true := by
  rw [Text.capitalized]
  split
  · simp
  · next c rest hs =>
      rw [hs] at h
      have hc := h c List.mem_cons_self
      have himage : Text.titleChar c = [c.toUpper] := by
        rw [Text.titleChar, if_pos (alphanum_ascii hc)]
      intro d hd
      rw [String.toList_ofList, himage] at hd
      rcases List.mem_append.1 hd with hd | hd
      · rw [List.mem_singleton.1 hd]
        exact alphanum_toUpper hc
      · exact lowerAfter_alphanum (fun c hc => h c (List.mem_cons_of_mem _ hc)) d hd

theorem piecesAt_chars {mark : Char} {cs : List Char} :
    ∀ piece ∈ Text.piecesAt mark cs, ∀ c ∈ piece, c ∈ cs ∧ c ≠ mark := by
  induction cs with
  | nil => simp [Text.piecesAt]
  | cons c rest ih =>
      rw [Text.piecesAt]
      split
      · intro piece hpiece d hd
        rcases List.mem_cons.1 hpiece with rfl | hrest
        · cases hd
        · exact ⟨List.mem_cons_of_mem _ (ih piece hrest d hd).1, (ih piece hrest d hd).2⟩
      · next hc =>
          split
          · simp [hc]
          · next piece more hpieces =>
              rw [hpieces] at ih
              intro other hother d hd
              rcases List.mem_cons.1 hother with rfl | hmore
              · rcases List.mem_cons.1 hd with rfl | hd
                · exact ⟨List.mem_cons_self, hc⟩
                · have hold := ih piece List.mem_cons_self d hd
                  exact ⟨List.mem_cons_of_mem _ hold.1, hold.2⟩
              · have hold := ih other (List.mem_cons_of_mem _ hmore) d hd
                exact ⟨List.mem_cons_of_mem _ hold.1, hold.2⟩

theorem mem_join {c : Char} {parts : List String} :
    c ∈ (String.join parts).toList ↔ ∃ part ∈ parts, c ∈ part.toList := by
  induction parts with
  | nil => simp
  | cons part rest ih => simp [String.join_cons]

/-- Camel case of letters, digits and underscores has letters and digits. -/
theorem camelCase_alphanum {s : String}
    (h : ∀ c ∈ s.toList, c.isAlphanum = true ∨ c = '_') :
    ∀ c ∈ (camelCase s).toList, c.isAlphanum = true := by
  have hpieces : ∀ piece ∈ Text.splitAt '_' s, ∀ c ∈ piece.toList, c.isAlphanum = true := by
    intro piece hpiece c hc
    obtain ⟨cs, hcs, rfl⟩ := List.mem_map.1 hpiece
    rw [String.toList_ofList] at hc
    obtain ⟨hmem, hmark⟩ := piecesAt_chars cs hcs c hc
    exact (h c hmem).resolve_right hmark
  rw [camelCase]
  split
  · next hnone =>
      rw [Text.splitAt, List.map_eq_nil_iff] at hnone
      exact absurd hnone (Text.piecesAt_ne_nil _ _)
  · next first others hsplit =>
      rw [hsplit] at hpieces
      intro c hc
      rw [String.toList_append, List.mem_append, mem_join] at hc
      rcases hc with hc | ⟨part, hpart, hc⟩
      · exact hpieces first List.mem_cons_self c hc
      · obtain ⟨other, hother, rfl⟩ := List.mem_map.1 hpart
        exact capitalized_alphanum (hpieces other (List.mem_cons_of_mem _ hother)) c hc

/-- The name of a module has letters and digits only. -/
theorem moduleName_alphanum (group : String) :
    ∀ c ∈ (Operation.moduleName group).toList, c.isAlphanum = true := by
  have hfallback : defaultGroup.toList.all Char.isAlphanum = true := by decide +kernel
  exact camelCase_alphanum (slug_chars fun c hc => .inl (List.all_eq_true.1 hfallback c hc))

/-! ## Names of enums -/

theorem enumNameOfTexts_isIdentifier (texts : List String) :
    isIdentifier (enumNameOfTexts texts).toList = true := by
  rw [enumNameOfTexts]
  split
  · decide +kernel
  · next c rest hfiltered =>
      rw [String.toList_ofList]
      refine @isIdentifier_withNameStart (c :: rest) ?_
      rw [← hfiltered]
      exact fun d hd => (List.mem_filter.1 hd).2

/-- The name of an enum has the shape of an identifier. -/
theorem enumName_isIdentifier {store : Store} {literals : List Value} {name : String}
    (h : enumName store literals = .ok name) : isIdentifier name.toList = true := by
  obtain ⟨texts, _, htexts⟩ := bind_eq_ok.1 h
  rw [pure_eq_ok] at htexts
  rw [← htexts]
  exact enumNameOfTexts_isIdentifier texts

end TypedClient.Naming
