/-!
# Surrogates

A text of a document is a sequence of code points, and an escape can write one that is no character:
half of a surrogate pair that stands alone. `Char` has no such value, so the halves have stand-ins,
the characters from U+DF800 to U+DFFFF. These are not assigned and, like the halves, neither letters
nor digits, blanks or printable, and they have no case. What depends on the code of a character has
to tell them apart: its escapes and UTF-16 units, its place in an order, and its bytes, as a half
has none.
-/

namespace TypedClient.Text

/-- How far the stand-in of a half lies behind the half. -/
def standInDistance : Nat := 0xd2000

/-- Whether a code is that of half of a surrogate pair. -/
def isHalfCode (n : Nat) : Bool := 0xd800 ≤ n && n ≤ 0xdfff

/-- Whether a character stands for half of a surrogate pair. -/
def isHalf (c : Char) : Bool := 0xdf800 ≤ c.toNat && c.toNat ≤ 0xdffff

/-- The code of a character, or of the half that it stands for. -/
def codeOf (c : Char) : Nat := if isHalf c then c.toNat - standInDistance else c.toNat

/-- The character of a code, or what stands for it. -/
def charOf (n : Nat) : Char := Char.ofNat (if isHalfCode n then n + standInDistance else n)

/-- Whether a text comes before another one, code by code. -/
def before (s t : String) : Bool := decide (s.toList.map codeOf < t.toList.map codeOf)

/-- The UTF-8 form of a text, which has one if no half stands alone in it. -/
def utf8Of (s : String) : Option ByteArray :=
  if s.toList.any isHalf then none else some s.toUTF8

/-! ## Codes -/

theorem toNat_of_isHalf {c : Char} (h : isHalf c = true) : 0xdf800 ≤ c.toNat ∧ c.toNat ≤ 0xdffff := by
  rw [isHalf, Bool.and_eq_true] at h
  exact ⟨of_decide_eq_true h.1, of_decide_eq_true h.2⟩

/-- No character has the code of a half. -/
theorem isHalfCode_toNat (c : Char) : isHalfCode c.toNat = false := by
  have hvalid : c.toNat < 0xd800 ∨ 0xdfff < c.toNat ∧ c.toNat < 0x110000 := c.valid
  simp only [isHalfCode, Bool.and_eq_false_iff, decide_eq_false_iff_not]
  omega

theorem isHalfCode_codeOf (c : Char) : isHalfCode (codeOf c) = isHalf c := by
  rw [codeOf]
  split
  · next h =>
      obtain ⟨hlow, hhigh⟩ := toNat_of_isHalf h
      rw [h, isHalfCode, standInDistance, Bool.and_eq_true, decide_eq_true_iff, decide_eq_true_iff]
      omega
  · next h => rw [isHalfCode_toNat, Bool.eq_false_iff.2 h]

theorem codeOf_inj {c d : Char} : codeOf c = codeOf d ↔ c = d := by
  refine ⟨fun h => ?_, fun h => congrArg codeOf h⟩
  have hhalf : isHalf c = isHalf d := by rw [← isHalfCode_codeOf, h, isHalfCode_codeOf]
  rw [codeOf, codeOf, hhalf, standInDistance] at h
  split at h
  · next hd =>
      have hc := toNat_of_isHalf (hhalf.trans hd)
      have hd := toNat_of_isHalf hd
      exact Char.toNat_inj.1 (by omega)
  · exact Char.toNat_inj.1 h

/-! ## Order -/

variable {s t u : String} {bytes : ByteArray}

theorem before_iff : before s t = true ↔ s.toList.map codeOf < t.toList.map codeOf :=
  decide_eq_true_iff

theorem before_irrefl (s : String) : before s s = false :=
  decide_eq_false (List.lt_irrefl _)

theorem before_trans (hst : before s t = true) (htu : before t u = true) : before s u = true :=
  before_iff.2 (List.lt_trans (before_iff.1 hst) (before_iff.1 htu))

theorem not_before_of_before (h : before s t = true) : before t s = false :=
  decide_eq_false (List.lt_asymm (before_iff.1 h))

/-- Texts of which neither comes before the other one are the same. -/
theorem eq_of_not_before (hst : before s t = false) (hts : before t s = false) : s = t := by
  have hcodes : s.toList.map codeOf = t.toList.map codeOf :=
    List.le_antisymm (of_decide_eq_false hts) (of_decide_eq_false hst)
  exact String.toList_inj.1 ((List.map_inj_right fun _ _ => codeOf_inj.1).1 hcodes)

theorem before_or_eq_or_after (s t : String) : before s t = true ∨ s = t ∨ before t s = true := by
  cases hst : before s t with
  | true => exact .inl rfl
  | false =>
      cases hts : before t s with
      | true => exact .inr (.inr rfl)
      | false => exact .inr (.inl (eq_of_not_before hst hts))

theorem not_before_trans (hst : before t s = false) (htu : before u t = false) :
    before u s = false := by
  rcases before_or_eq_or_after t u with hbefore | rfl | hafter
  · cases hus : before u s with
    | false => rfl
    | true => exact (before_trans hbefore hus).symm.trans hst
  · exact hst
  · exact absurd hafter (Bool.eq_false_iff.1 htu)

/-! ## Bytes -/

end TypedClient.Text
