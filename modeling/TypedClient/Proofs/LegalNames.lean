import TypedClient.Proofs.EmittedNames

/-!
# Bindings are legal names

Slugs and camel case can do what they like to the name of a parameter: with
letters beyond ASCII its length may change, and a name without letters comes
through as it is. None of this matters for the binding to be legal, since
`safeIdentifier` is the last step and makes a legal name of any text. It writes
three things, a name character for each character, an underscore before a digit
and an underscore after a reserved word, and each of them keeps what the ones
before it have done.

A legal name needs none of the three. So legal names are the texts that are left
alone, and to make a name legal twice is to make it legal once.
-/

namespace TypedClient.Naming

/-! ## The shape of a name -/

theorem isNamePart_legalChar (c : Char) : isNamePart (legalChar c) = true := by
  unfold legalChar
  split
  · next hc => exact hc
  · rfl

theorem legalChar_of_isNamePart {c : Char} (h : isNamePart c = true) : legalChar c = c := if_pos h

theorem not_isDigit_of_isNameStart {c : Char} (h : isNameStart c = true) : c.isDigit = false := by
  cases hdigit : c.isDigit with
  | false => rfl
  | true =>
    have hletter : c.isAlphanum = true := by rw [isAlphanum_eq, hdigit, Bool.or_true]
    have hstart := (alphanum_spec hletter).2.2.2.2
    rw [h, hdigit] at hstart
    exact hstart

theorem withNameStart_of_isIdentifier {cs : List Char} (h : isIdentifier cs = true) :
    withNameStart cs = cs := by
  cases cs with
  | nil => cases h
  | cons c rest =>
    have hstart := (Bool.and_eq_true_iff.1 h).1
    rw [withNameStart, not_isDigit_of_isNameStart hstart, if_neg Bool.false_ne_true]

/-- More characters of names at the end do no harm. -/
theorem isIdentifier_append {cs ds : List Char} (h : isIdentifier cs = true)
    (hds : ∀ d ∈ ds, isNamePart d = true) : isIdentifier (cs ++ ds) = true := by
  cases cs with
  | nil => cases h
  | cons c rest =>
    obtain ⟨hstart, hrest⟩ := Bool.and_eq_true_iff.1 h
    rw [List.cons_append, isIdentifier, hstart, List.all_append, hrest, List.all_eq_true.2 hds]
    rfl

/-! ## Legal names -/

theorem isLegalName_iff {s : String} :
    isLegalName s = true ↔ isIdentifier s.toList = true ∧ reservedWords.contains s = false := by
  rw [isLegalName, Bool.and_eq_true, Bool.not_eq_true']

/-- Whatever a text is, the name made of it is legal. -/
theorem isLegalName_safeIdentifier (s : String) : isLegalName (safeIdentifier s) = true := by
  have hparts : ∀ c ∈ s.toList.map legalChar, isNamePart c = true := fun c hc => by
    obtain ⟨d, -, rfl⟩ := List.mem_map.1 hc
    exact isNamePart_legalChar d
  have hshape := isIdentifier_withNameStart hparts
  rw [isLegalName_iff]
  unfold safeIdentifier
  dsimp only
  split
  · refine ⟨?_, not_reserved ⟨'_', by simp, by decide⟩⟩
    rw [String.toList_append, String.toList_ofList]
    exact isIdentifier_append hshape (List.forall_mem_singleton.2 rfl)
  · next hfree =>
      refine ⟨?_, by simpa using hfree⟩
      rw [String.toList_ofList]
      exact hshape

theorem safeIdentifier_of_isLegalName {s : String} (h : isLegalName s = true) :
    safeIdentifier s = s := by
  obtain ⟨hshape, hfree⟩ := isLegalName_iff.1 h
  have hsame : ∀ c ∈ s.toList, legalChar c = id c := fun c hc =>
    legalChar_of_isNamePart (chars_of_isIdentifier hshape c hc)
  have hcleaned : withNameStart (s.toList.map legalChar) = s.toList := by
    rw [List.map_congr_left hsame, List.map_id, withNameStart_of_isIdentifier hshape]
  unfold legalChar at hcleaned
  rw [safeIdentifier, hcleaned, String.ofList_toList, hfree]
  exact if_neg Bool.false_ne_true

/-- The binding of a parameter is legal whatever its name is. A text is left
alone exactly if it is a legal name already, so nothing changes the second
time. -/
theorem binding_legal (p : Parameter) (s : String) :
    isLegalName p.binding = true ∧
      safeIdentifier (safeIdentifier s) = safeIdentifier s ∧
      (safeIdentifier s = s ↔ isLegalName s = true) := by
  refine ⟨isLegalName_safeIdentifier _,
    safeIdentifier_of_isLegalName (isLegalName_safeIdentifier s), fun h => ?_,
    safeIdentifier_of_isLegalName⟩
  rw [← h]
  exact isLegalName_safeIdentifier s

end TypedClient.Naming
