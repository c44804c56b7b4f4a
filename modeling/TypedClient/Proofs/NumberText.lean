import Mathlib.Algebra.Order.Field.Power
import Mathlib.Data.List.TakeWhile
import Mathlib.Data.Rat.Cast.Order
import Mathlib.Tactic.FieldSimp
import Mathlib.Tactic.Linarith
import Mathlib.Tactic.NormNum
import Mathlib.Tactic.Positivity
import Mathlib.Tactic.Ring
import TypedClient.Number.Decimal
import TypedClient.Proofs.Rounding
import TypedClient.Script.Literal

/-!
# The text of a number reads back

A text of a finite number is written from the decimal that `Decimal.shortest`
finds, and read by putting its digits together and rounding the decimal to the
nearest number.

The search for the decimal needs no trust: a candidate is returned only if
`readsBack` accepts it, and what that accepts lies among the rationals nearest
to the number. So the shortest decimal is rounded to the number again, whatever
the grids looked at. What remains is that the layout keeps the value, for each
of its four forms.
-/

namespace TypedClient

open Binary64

theorem tenTo_cast (k : Nat) : (tenTo k : ℚ) = 10 ^ k := by
  rw [tenTo, Nat.pow_eq, Nat.cast_pow, Nat.cast_ofNat]

theorem tenTo_toNat (e : Int) : (tenTo e.toNat : ℚ) = 10 ^ e * tenTo (-e).toNat := by
  rw [tenTo_cast, tenTo_cast]
  exact pow_toNat (by norm_num) e

theorem tenTo_pos (k : Nat) : (0 : ℚ) < tenTo k := by
  rw [tenTo_cast]
  positivity

namespace Decimal

/-- The rational that a decimal denotes. -/
def value (d : Decimal) : ℚ := d.digits * 10 ^ d.exponent

/-! ## Decimals that read back -/

/-- The two naturals that are compared are the two numbers, over one
denominator. -/
theorem compareBinary_eq (d : Decimal) (n : Nat) (q : Int) :
    d.compareBinary n q = cmp d.value (n * 2 ^ q) := by
  have hscale : (0 : ℚ) < tenTo (-d.exponent).toNat * twoTo (-q).toNat :=
    mul_pos (tenTo_pos _) (twoTo_pos _)
  have hleft : ((d.digits * tenTo d.exponent.toNat * twoTo (-q).toNat : Nat) : ℚ) =
      d.value * (tenTo (-d.exponent).toNat * twoTo (-q).toNat) := by
    push_cast
    rw [tenTo_toNat d.exponent, value]
    ring
  have hright : ((n * twoTo q.toNat * tenTo (-d.exponent).toNat : Nat) : ℚ) =
      n * 2 ^ q * (tenTo (-d.exponent).toNat * twoTo (-q).toNat) := by
    push_cast
    rw [twoTo_toNat q]
    ring
  rw [compareBinary, ← cmp_eq_compare, ← Nat.strictMono_cast.cmp_map_eq (β := ℚ), hleft, hright]
  exact (strictMono_mul_right_of_pos hscale).cmp_map_eq _ _

theorem quarter_zpow (q : Int) : (2 : ℚ) ^ (q - 2) = 2 ^ q / 4 := by
  rw [zpow_sub₀ two_ne_zero]
  norm_num

/-- What is accepted lies among the rationals that are nearest to the number. -/
theorem nearest_of_readsBack {m : Nat} {q : Int} {d : Decimal} (hm : 0 < m)
    (h : readsBack m q d = true) : Nearest m q d.value := by
  have hquarters : (if m == twoTo 52 && q > leastExponent then 1 else 2) = quartersBelow m q := by
    simp only [quartersBelow, twoTo, Nat.pow_eq, Bool.and_eq_true, beq_iff_eq, decide_eq_true_eq,
      gt_iff_lt]
  have hle : quartersBelow m q ≤ 4 * m := by
    unfold quartersBelow
    split <;> omega
  have hlow : ((4 * m - quartersBelow m q : Nat) : ℚ) * 2 ^ (q - 2) =
      (m - quartersBelow m q / 4) * 2 ^ q := by
    rw [quarter_zpow, Nat.cast_sub hle]
    push_cast
    ring
  have hhigh : ((4 * m + 2 : Nat) : ℚ) * 2 ^ (q - 2) = (m + 1 / 2) * 2 ^ q := by
    rw [quarter_zpow]
    push_cast
    ring
  unfold readsBack at h
  dsimp only at h
  rw [hquarters] at h
  rw [compareBinary_eq, compareBinary_eq, hlow, hhigh] at h
  rw [Bool.and_eq_true, Bool.or_eq_true, Bool.or_eq_true, Bool.and_eq_true, Bool.and_eq_true,
    beq_iff_eq, beq_iff_eq, beq_iff_eq, beq_iff_eq, beq_iff_eq, cmp_eq_gt_iff, cmp_eq_eq_iff,
    cmp_eq_lt_iff, cmp_eq_eq_iff] at h
  obtain ⟨hbelow, habove⟩ := h
  refine ⟨?_, ?_, ?_⟩
  · rcases hbelow with hbelow | ⟨-, hbelow⟩
    · exact hbelow.le
    · exact hbelow.ge
  · rcases habove with habove | ⟨-, habove⟩
    · exact habove.le
    · exact habove.le
  · rintro (hend | hend)
    · rcases hbelow with hbelow | ⟨heven, -⟩
      · exact absurd hend hbelow.ne
      · exact heven
    · rcases habove with habove | ⟨heven, -⟩
      · exact absurd hend habove.ne
      · exact heven

theorem nearest_self {m : Nat} {q : Int} : Nearest m q (m * 2 ^ q) := by
  have hunit : (0 : ℚ) < 2 ^ q := by positivity
  have hquarters : (0 : ℚ) < quartersBelow m q := by
    unfold quartersBelow
    split <;> norm_num
  have hlow : ((m : ℚ) - quartersBelow m q / 4) * 2 ^ q < m * 2 ^ q :=
    mul_lt_mul_of_pos_right (by linarith) hunit
  have hhigh : (m : ℚ) * 2 ^ q < (m + 1 / 2) * 2 ^ q :=
    mul_lt_mul_of_pos_right (by linarith) hunit
  refine ⟨hlow.le, hhigh.le, ?_⟩
  rintro (hend | hend)
  · exact absurd hend hlow.ne
  · exact absurd hend hhigh.ne

/-! ## The shortest decimal -/

theorem onGrid_readsBack {m : Nat} {q k : Int} {d : Decimal} (h : onGrid m q k = some d) :
    readsBack m q d = true := by
  unfold onGrid at h
  dsimp only at h
  split at h
  · next hlow hhigh =>
      split at h <;> obtain rfl := Option.some.inj h
      · exact hhigh
      · exact hlow
      · split <;> assumption
  · next hlow _ => exact Option.some.inj h ▸ hlow
  · next _ hhigh => exact Option.some.inj h ▸ hhigh
  · cases h

/-- Zeros at the end of the digits say nothing. -/
theorem trim_value (d : Decimal) (n : Nat) : (trim d n).value = d.value := by
  induction n generalizing d with
  | zero => rfl
  | succ n ih =>
    unfold trim
    split
    · next hzero =>
        have hdigits : d.digits = 10 * (d.digits / 10) := by omega
        rw [ih, value, value, zpow_add_one₀ (by norm_num)]
        conv_rhs => rw [hdigits]
        push_cast
        ring
    · rfl

/-- The shortest decimal is rounded to the number it is written for. -/
theorem shortest_nearest {m : Nat} (q : Int) (hm : 0 < m) : Nearest m q (shortest m q).value := by
  unfold shortest
  dsimp only
  split
  · next d hfound =>
      rw [trim_value]
      obtain ⟨n, -, hn⟩ := List.exists_of_findSome?_eq_some hfound
      exact nearest_of_readsBack hm (onGrid_readsBack hn)
  · have hexact : value ⟨m * twoTo q.toNat * Nat.pow 5 (-q).toNat, -((-q).toNat : Int)⟩ =
        m * 2 ^ q := by
      simp only [value, Nat.pow_eq, zpow_neg, zpow_natCast]
      push_cast
      rw [twoTo_toNat, twoTo_cast, show (10 : ℚ) = 2 * 5 by norm_num, mul_pow]
      field_simp
    rw [hexact]
    exact nearest_self

/-- The place of the leading digit gives a decimal up to a factor of ten. -/
theorem value_between {d : Decimal} (hdigits : 0 < d.digits) :
    (10 : ℚ) ^ ((Nat.toDigits 10 d.digits).length + d.exponent - 1) ≤ d.value ∧
      d.value < 10 ^ ((Nat.toDigits 10 d.digits).length + d.exponent) := by
  have hten : (10 : ℚ) ≠ 0 := by norm_num
  have hunit : (0 : ℚ) < 10 ^ d.exponent := by positivity
  obtain ⟨n, hn⟩ := Nat.exists_eq_succ_of_ne_zero (Nat.length_toDigits_pos (b := 10) (n := d.digits)).ne'
  have hhigh : d.digits < 10 ^ (n + 1) :=
    (Nat.length_toDigits_le_iff (by norm_num) n.succ_pos).1 hn.le
  have hlow : 10 ^ n ≤ d.digits := by
    rcases Nat.eq_zero_or_pos n with rfl | hpos
    · exact hdigits
    · by_contra hless
      have := (Nat.length_toDigits_le_iff (by norm_num) hpos).2 (not_le.1 hless)
      omega
  have hhigh : (d.digits : ℚ) < 10 ^ (n + 1) := by exact_mod_cast hhigh
  have hlow : (10 : ℚ) ^ n ≤ d.digits := by exact_mod_cast hlow
  rw [hn, value]
  constructor
  · have hplace : ((n.succ : Nat) : Int) + d.exponent - 1 = (n : Int) + d.exponent := by
      push_cast
      ring
    rw [hplace, zpow_add₀ hten, zpow_natCast]
    exact mul_le_mul_of_nonneg_right hlow hunit.le
  · rw [zpow_add₀ hten, zpow_natCast]
    exact mul_lt_mul_of_pos_right hhigh hunit

theorem ratio_eq_value (d : Decimal) :
    ((d.digits * tenTo d.exponent.toNat : Nat) : ℚ) / tenTo (-d.exponent).toNat = d.value := by
  push_cast
  rw [tenTo_toNat d.exponent, value, ← mul_assoc, mul_div_cancel_right₀ _ (tenTo_pos _).ne']

theorem greatest_lt_ten_pow : (2 : ℚ) ^ 53 * 2 ^ greatestExponent < 10 ^ (310 : Int) := by
  have hbound : (2 : ℚ) ^ 1024 < 10 ^ 310 := by
    exact_mod_cast (by decide +kernel : 2 ^ 1024 < 10 ^ 310)
  have hleft : (2 : ℚ) ^ 53 * 2 ^ greatestExponent = 2 ^ 1024 := by
    rw [← zpow_natCast, ← zpow_natCast, ← zpow_add₀ two_ne_zero]
    rfl
  rw [hleft]
  exact_mod_cast hbound

theorem ten_pow_lt_least : (10 : ℚ) ^ (-330 : Int) < 1 / 2 * 2 ^ leastExponent := by
  have hbound : (2 : ℚ) ^ 1075 < 10 ^ 330 := by
    exact_mod_cast (by decide +kernel : 2 ^ 1075 < 10 ^ 330)
  have hright : (1 / 2 : ℚ) * 2 ^ leastExponent = (2 ^ 1075)⁻¹ := by
    rw [one_div, ← zpow_neg_one, ← zpow_add₀ two_ne_zero, ← zpow_natCast, ← zpow_neg]
    rfl
  rw [hright, zpow_neg]
  exact inv_strictAnti₀ (by positivity) (by exact_mod_cast hbound)

theorem value_pos {m : Nat} {e : Int} {x : ℚ} (hm : 0 < m) (h : Nearest m e x) : 0 < x := by
  have hmantissa : (1 : ℚ) ≤ m := by exact_mod_cast hm
  have hlow : (0 : ℚ) < (m - 1 / 2) * 2 ^ e := mul_pos (by linarith) (by positivity)
  linarith [half_le_low m e, h.low]

theorem digits_pos {m : Nat} {e : Int} {d : Decimal} (hm : 0 < m) (h : Nearest m e d.value) :
    0 < d.digits := by
  have hpositive := value_pos hm h
  by_contra hzero
  rw [value, Nat.eq_zero_of_not_pos hzero] at hpositive
  simp at hpositive

/-- A decimal is read as the number that is nearest to it. Its leading digit
stands where powers of ten are still formed. -/
theorem ofDecimal_eq {m : Nat} {e : Int} {d : Decimal} (negative : Bool) (hm : 0 < m)
    (hcanonical : Canonical m e) (hnearest : Nearest m e d.value) :
    ofDecimal negative d.digits d.exponent = .finite negative m e := by
  have hmantissa : (1 : ℚ) ≤ m := by exact_mod_cast hm
  have hleast : (1 / 2 : ℚ) * 2 ^ leastExponent ≤ d.value := by
    have hunit : (2 : ℚ) ^ leastExponent ≤ 2 ^ e :=
      zpow_le_zpow_right₀ one_le_two hcanonical.least
    have hlow : (1 / 2 : ℚ) * 2 ^ e ≤ (m - 1 / 2) * 2 ^ e :=
      mul_le_mul_of_nonneg_right (by linarith) (by positivity)
    linarith [half_le_low m e, hnearest.low]
  have hgreatest : d.value < 2 ^ 53 * 2 ^ greatestExponent := by
    have hunit : (2 : ℚ) ^ e ≤ 2 ^ greatestExponent :=
      zpow_le_zpow_right₀ one_le_two hcanonical.greatest
    have hsmall : (m : ℚ) + 1 ≤ 2 ^ 53 := by exact_mod_cast hcanonical.small
    have hhigh : ((m : ℚ) + 1 / 2) * 2 ^ e < 2 ^ 53 * 2 ^ e :=
      mul_lt_mul_of_pos_right (by linarith) (by positivity)
    linarith [hnearest.high]
  have hdigits := digits_pos hm hnearest
  obtain ⟨hlow, hhigh⟩ := value_between hdigits
  have hnotLarge : ¬(Nat.toDigits 10 d.digits).length + d.exponent > 310 := by
    intro hlarge
    have hfar : (10 : ℚ) ^ (310 : Int) ≤ 10 ^ ((Nat.toDigits 10 d.digits).length + d.exponent - 1) :=
      zpow_le_zpow_right₀ (by norm_num) (by omega)
    linarith [greatest_lt_ten_pow]
  have hnotSmall : ¬(Nat.toDigits 10 d.digits).length + d.exponent < -330 := by
    intro hsmall
    have hnear : (10 : ℚ) ^ ((Nat.toDigits 10 d.digits).length + d.exponent) ≤ 10 ^ (-330 : Int) :=
      zpow_le_zpow_right₀ (by norm_num) (by omega)
    linarith [ten_pow_lt_least]
  unfold ofDecimal
  dsimp only
  rw [if_neg hdigits.ne', if_neg hnotLarge, if_neg hnotSmall]
  have hten : ∀ k, 0 < tenTo k := fun k => Nat.pow_pos (by norm_num)
  apply ofRatio_eq negative (Nat.mul_pos hdigits (hten _)) (hten _) hcanonical
  rwa [ratio_eq_value]

end Decimal

/-! ## Numerals -/

namespace Script

/-- A run of digits ends where the first other character stands. -/
theorem span_digits {run rest : List Char} (hrun : ∀ c ∈ run, c.isDigit = true)
    (hrest : ∀ c ∈ rest.head?, c.isDigit = false) :
    (run ++ rest).span Char.isDigit = (run, rest) := by
  rw [List.span_eq_takeWhile_dropWhile, List.takeWhile_append_of_pos hrun,
    List.dropWhile_append_of_pos hrun]
  cases rest with
  | nil => simp
  | cons c rest =>
    have hc : c.isDigit = false := hrest c rfl
    simp [hc]

/-- The digits before the point of a numeral. -/
structure IsWhole (cs : List Char) : Prop where
  digit : ∀ c ∈ cs, c.isDigit = true
  nonempty : cs ≠ []
  leading : cs.head? = some '0' → cs.length = 1

theorem IsWhole.accepted {cs : List Char} (h : IsWhole cs) :
    ¬(cs.isEmpty || decide (cs.head? = some '0') && cs.length != 1) = true := by
  have hempty : cs.isEmpty = false := by simpa using h.nonempty
  rw [hempty, Bool.false_or, Bool.and_eq_true, decide_eq_true_eq]
  rintro ⟨hzero, hlength⟩
  rw [h.leading hzero] at hlength
  cases hlength

theorem magnitude?_point {whole places rest : List Char} (negative : Bool) (hwhole : IsWhole whole)
    (hplaces : ∀ c ∈ places, c.isDigit = true) (hrest : ∀ c ∈ rest.head?, c.isDigit = false) :
    magnitude? negative (whole ++ '.' :: (places ++ rest)) =
      (exponent? rest).map fun exponent =>
        ofDecimal negative (natural (whole ++ places)) (exponent - places.length) := by
  have hpoint : ∀ c ∈ ('.' :: (places ++ rest)).head?, c.isDigit = false := by
    rintro c ⟨⟩
    decide
  unfold magnitude?
  rw [span_digits hwhole.digit hpoint]
  dsimp only
  rw [fraction, span_digits hplaces hrest]
  exact if_neg hwhole.accepted

theorem magnitude?_whole {whole rest : List Char} (negative : Bool) (hwhole : IsWhole whole)
    (hrest : ∀ c ∈ rest.head?, c.isDigit = false ∧ c ≠ '.') :
    magnitude? negative (whole ++ rest) =
      (exponent? rest).map fun exponent => ofDecimal negative (natural whole) exponent := by
  have hplaces : fraction rest = ([], rest) := by
    unfold fraction
    split
    · exact absurd rfl (hrest '.' rfl).2
    · rfl
  unfold magnitude?
  rw [span_digits hwhole.digit fun c hc => (hrest c hc).1]
  dsimp only
  rw [hplaces]
  dsimp only
  rw [List.append_nil, List.length_nil, Nat.cast_zero, if_neg hwhole.accepted]
  simp only [sub_zero]

theorem natural_append_zeros (cs : List Char) (n : Nat) :
    natural (cs ++ List.replicate n '0') = natural cs * 10 ^ n := by
  rw [natural, Nat.ofDigitChars_append, Nat.ofDigitChars_replicate_zero, natural, mul_comm]

theorem natural_zeros_append (n : Nat) (cs : List Char) :
    natural (List.replicate n '0' ++ cs) = natural cs := by
  rw [natural, Nat.ofDigitChars_append, Nat.ofDigitChars_replicate_zero, mul_zero, natural]

theorem natural_toDigits (n : Nat) : natural (Nat.toDigits 10 n) = n :=
  Nat.ofDigitChars_ten_toDigits

theorem isDigit_toDigits {n : Nat} {c : Char} (h : c ∈ Nat.toDigits 10 n) : c.isDigit = true :=
  Nat.isDigit_of_mem_toDigits (by norm_num) (by norm_num) h

theorem isDigit_replicate_zero {n : Nat} {c : Char} (h : c ∈ List.replicate n '0') :
    c.isDigit = true := by
  rw [List.eq_of_mem_replicate h]
  decide

/-- Positive numbers are not written with a zero at the front. -/
theorem head?_toDigits {n : Nat} (h : 0 < n) : (Nat.toDigits 10 n).head? ≠ some '0' := by
  induction n using Nat.strong_induction_on with
  | _ n ih =>
    rw [Nat.toDigits_eq_if (by norm_num)]
    split
    · next hsmall =>
        have : ∀ d < 10, 0 < d → some d.digitChar ≠ some '0' := by decide
        exact this n hsmall h
    · next hlarge =>
        rw [List.head?_append_of_ne_nil _ Nat.toDigits_ne_nil]
        exact ih (n / 10) (by omega) (by omega)

theorem isWhole_toDigits (n : Nat) : IsWhole (Nat.toDigits 10 n) where
  digit _ := isDigit_toDigits
  nonempty := Nat.toDigits_ne_nil
  leading hzero := by
    rcases Nat.eq_zero_or_pos n with rfl | hpos
    · rfl
    · exact absurd hzero (head?_toDigits hpos)

/-- The front of a numeral is the start of one, if the numeral is not zero. -/
theorem IsWhole.of_append {front rest : List Char} (hdigits : ∀ c ∈ front, c.isDigit = true)
    (hnonempty : front ≠ []) (hzero : (front ++ rest).head? ≠ some '0') : IsWhole front where
  digit := hdigits
  nonempty := hnonempty
  leading h := by
    rw [List.head?_append_of_ne_nil _ hnonempty] at hzero
    exact absurd h hzero

/-- The exponent after its letter, with its sign and at least two digits. -/
theorem exponent?_written (e : Int) :
    let size := Decimal.digitString e.natAbs
    exponent? ('e' :: ((if e < 0 then "-" else "+") ++
      (if size.length < 2 then "0" ++ size else size) : String).toList) = some e := by
  intro size
  obtain ⟨digits, hpadded, hdigits, hnonempty, hvalue⟩ :
      ∃ digits, (if size.length < 2 then "0" ++ size else size).toList = digits ∧
        digits.all Char.isDigit = true ∧ digits.isEmpty = false ∧ natural digits = e.natAbs := by
    have hsize : size.toList = Nat.toDigits 10 e.natAbs := String.toList_ofList
    have hall : (Nat.toDigits 10 e.natAbs).all Char.isDigit = true :=
      List.all_eq_true.2 fun _ => isDigit_toDigits
    refine ⟨_, rfl, ?_⟩
    split
    · rw [String.toList_append, hsize]
      refine ⟨by simpa using hall, rfl, ?_⟩
      exact (natural_zeros_append 1 _).trans (natural_toDigits _)
    · rw [hsize]
      exact ⟨hall, by simp, natural_toDigits _⟩
  rw [String.toList_append, hpadded]
  split
  · next hnegative =>
      have hvalue : -(natural digits : Int) = e := by omega
      simp [exponent?, sign, hdigits, hnonempty, hvalue]
  · next hpositive =>
      have hvalue : (natural digits : Int) = e := by omega
      simp [exponent?, sign, hdigits, hnonempty, hvalue]

section Layouts

variable {ds : List Char} (negative : Bool)

theorem magnitude?_below_one (hds : ∀ c ∈ ds, c.isDigit = true) (k : Nat) :
    magnitude? negative ("0." ++ Decimal.zeros k ++ String.ofList ds).toList =
      some (ofDecimal negative (natural ds) (-(k + ds.length : Nat))) := by
  have htext : ("0." ++ Decimal.zeros k ++ String.ofList ds).toList =
      ['0'] ++ '.' :: ((List.replicate k '0' ++ ds) ++ []) := by
    simp [Decimal.zeros]
  have hwhole : IsWhole ['0'] := isWhole_toDigits 0
  have hplaces : ∀ c ∈ List.replicate k '0' ++ ds, c.isDigit = true := by
    intro c hc
    rcases List.mem_append.1 hc with hc | hc
    · exact isDigit_replicate_zero hc
    · exact hds c hc
  have hvalue : natural (['0'] ++ (List.replicate k '0' ++ ds)) = natural ds := by
    rw [← List.append_assoc]
    exact natural_zeros_append (k + 1) ds
  rw [htext, magnitude?_point negative hwhole hplaces (by simp), hvalue]
  simp [exponent?]

theorem magnitude?_integer (hds : IsWhole ds) (hzero : ds.head? ≠ some '0') (k : Nat) :
    magnitude? negative (String.ofList ds ++ Decimal.zeros k ++ ".0").toList =
      some (ofDecimal negative (natural ds * 10 ^ (k + 1)) (-1)) := by
  have htext : (String.ofList ds ++ Decimal.zeros k ++ ".0").toList =
      (ds ++ List.replicate k '0') ++ '.' :: (['0'] ++ []) := by
    simp [Decimal.zeros]
  have hwhole : IsWhole (ds ++ List.replicate k '0') := by
    refine ⟨fun c hc => ?_, by simp [hds.nonempty], fun h => ?_⟩
    · rcases List.mem_append.1 hc with hc | hc
      · exact hds.digit c hc
      · exact isDigit_replicate_zero hc
    · rw [List.head?_append_of_ne_nil _ hds.nonempty] at h
      exact absurd h hzero
  have hvalue : natural (ds ++ List.replicate k '0' ++ ['0']) = natural ds * 10 ^ (k + 1) := by
    rw [List.append_assoc, ← natural_append_zeros, List.replicate_succ']
  rw [htext, magnitude?_point negative hwhole (List.forall_mem_singleton.2 rfl) (by simp), hvalue]
  simp [exponent?]

theorem magnitude?_split (hds : ∀ c ∈ ds, c.isDigit = true) (hzero : ds.head? ≠ some '0') {n : Nat}
    (hfirst : ds.take n ≠ []) :
    magnitude? negative (String.ofList (ds.take n) ++ "." ++ String.ofList (ds.drop n)).toList =
      some (ofDecimal negative (natural ds) (-(ds.drop n).length)) := by
  have htext : (String.ofList (ds.take n) ++ "." ++ String.ofList (ds.drop n)).toList =
      ds.take n ++ '.' :: (ds.drop n ++ []) := by
    simp
  have hwhole : IsWhole (ds.take n) :=
    .of_append (fun c hc => hds c (List.mem_of_mem_take hc)) hfirst
      (by rwa [List.take_append_drop n])
  have hplaces : ∀ c ∈ ds.drop n, c.isDigit = true := fun c hc => hds c (List.mem_of_mem_drop hc)
  rw [htext, magnitude?_point negative hwhole hplaces (by simp), List.take_append_drop]
  simp [exponent?]

theorem magnitude?_scientific (hds : ∀ c ∈ ds, c.isDigit = true) (hzero : ds.head? ≠ some '0')
    (hfirst : ds ≠ []) (e : Int) {rest : String} (hexponent : exponent? ('e' :: rest.toList) = some e) :
    magnitude? negative (String.ofList (ds.take 1) ++
        (if ds.length ≤ 1 then "" else "." ++ String.ofList (ds.drop 1)) ++ "e" ++ rest).toList =
      some (ofDecimal negative (natural ds) (e - (ds.drop 1).length)) := by
  have hwhole : IsWhole (ds.take 1) :=
    .of_append (fun c hc => hds c (List.mem_of_mem_take hc)) (by simpa using hfirst)
      (by rwa [List.take_append_drop 1])
  have hplaces : ∀ c ∈ ds.drop 1, c.isDigit = true := fun c hc => hds c (List.mem_of_mem_drop hc)
  have hletter : ∀ c ∈ ('e' :: rest.toList).head?, c.isDigit = false ∧ c ≠ '.' := by
    rintro c ⟨⟩
    decide
  split
  · next hone =>
      have htake : ds.take 1 = ds := List.take_of_length_le hone
      have hdrop : ds.drop 1 = [] := List.drop_eq_nil_of_le hone
      rw [htake] at hwhole ⊢
      have htext : (String.ofList ds ++ "" ++ "e" ++ rest).toList = ds ++ 'e' :: rest.toList := by
        simp
      rw [htext, magnitude?_whole negative hwhole hletter, hexponent, hdrop]
      simp
  · have htext : (String.ofList (ds.take 1) ++ ("." ++ String.ofList (ds.drop 1)) ++ "e" ++
        rest).toList = ds.take 1 ++ '.' :: (ds.drop 1 ++ 'e' :: rest.toList) := by
      simp
    rw [htext, magnitude?_point negative hwhole hplaces fun c hc => (hletter c hc).1, hexponent,
      List.take_append_drop]
    rfl

end Layouts

/-- A layout is a numeral for the value of its decimal. -/
theorem magnitude?_layout {d : Decimal} (negative : Bool) (hdigits : 0 < d.digits) :
    ∃ r : Decimal, r.value = d.value ∧
      magnitude? negative d.layout.toList = some (ofDecimal negative r.digits r.exponent) := by
  have hwhole := isWhole_toDigits d.digits
  have hzero := head?_toDigits hdigits
  have hvalue := natural_toDigits d.digits
  unfold Decimal.layout
  dsimp only
  generalize Nat.toDigits 10 d.digits = ds at *
  have hlength : 0 < ds.length := List.length_pos_iff.2 hwhole.nonempty
  split
  · split
    · next hpoint =>
        refine ⟨d, rfl, ?_⟩
        rw [magnitude?_below_one negative hwhole.digit, hvalue]
        congr 2
        omega
    · split
      · next hpoint =>
          obtain ⟨k, hk⟩ : ∃ k : Nat, d.exponent = k := Int.eq_ofNat_of_zero_le (by omega)
          have hzeros : ((ds.length : Int) + d.exponent).toNat - ds.length = k := by omega
          refine ⟨⟨d.digits * 10 ^ (k + 1), -1⟩, ?_, ?_⟩
          · rw [Decimal.value, Decimal.value, hk]
            push_cast
            rw [zpow_neg_one, zpow_natCast, pow_succ]
            field_simp
          · rw [magnitude?_integer negative hwhole hzero, hvalue, hzeros]
      · next hpoint =>
          refine ⟨d, rfl, ?_⟩
          rw [magnitude?_split negative hwhole.digit hzero, hvalue, List.length_drop]
          · congr 2
            omega
          · rw [← List.length_pos_iff, List.length_take]
            omega
  · refine ⟨d, rfl, ?_⟩
    rw [String.append_assoc, magnitude?_scientific negative hwhole.digit hzero hwhole.nonempty _
      (exponent?_written _), hvalue, List.length_drop]
    congr 2
    omega

theorem number?_of_digit {c : Char} {rest : List Char} (h : c.isDigit = true) :
    number? (c :: rest) = magnitude? false (c :: rest) := by
  unfold number?
  split
  · next heq =>
      obtain ⟨rfl, -⟩ := List.cons.inj heq
      cases h
  · rfl

/-- A numeral without a sign starts with a digit. -/
theorem head_of_magnitude? {negative : Bool} {cs : List Char} {x : Binary64}
    (h : magnitude? negative cs = some x) : ∃ c rest, cs = c :: rest ∧ c.isDigit = true := by
  cases cs with
  | nil => cases h
  | cons c rest =>
    refine ⟨c, rest, rfl, ?_⟩
    by_contra hc
    rw [magnitude?, List.span_eq_takeWhile_dropWhile, List.takeWhile_cons_of_neg hc] at h
    cases h

/-- A numeral with a sign in front of its digits. -/
theorem number?_signed {negative : Bool} {cs : List Char} {x : Binary64}
    (h : magnitude? negative cs = some x) :
    number? ((if negative then "-" else "" : String).toList ++ cs) = some x := by
  cases negative with
  | true => exact h
  | false =>
    obtain ⟨c, rest, rfl, hc⟩ := head_of_magnitude? h
    exact (number?_of_digit hc).trans h

/-- The text of a finite number is read as the number. -/
theorem number?_finiteText (negative : Bool) {m : Nat} {e : Int} (hcanonical : Canonical m e) :
    number? (finiteText negative m e).toList = some (.finite negative m e) := by
  have hmagnitude : magnitude? negative
      (if m = 0 then "0.0" else (Decimal.shortest m e).layout).toList =
        some (.finite negative m e) := by
    split
    · next hzero =>
        have hleast : e = leastExponent := hcanonical.full.resolve_right (by omega)
        rw [hzero, hleast]
        cases negative <;> rfl
    · next hzero =>
        have hm : 0 < m := Nat.pos_of_ne_zero hzero
        have hnearest := Decimal.shortest_nearest e hm
        obtain ⟨r, hr, hread⟩ := magnitude?_layout negative (Decimal.digits_pos hm hnearest)
        rw [hread, Decimal.ofDecimal_eq negative hm hcanonical (hr ▸ hnearest)]
  rw [finiteText, String.toList_append]
  exact number?_signed hmagnitude

/-- Reading a natural number as a decimal rounds it like any other quotient:
what is too long for the powers of ten is beyond the largest number. -/
theorem ofDecimal_natural (negative : Bool) (n : Nat) :
    ofDecimal negative n 0 = ofRatio negative n 1 := by
  unfold ofDecimal
  dsimp only
  split
  · next hzero => exact (if_pos hzero).symm
  · next hnonzero =>
      have hpos : 0 < n := Nat.pos_of_ne_zero hnonzero
      split
      · next hlarge =>
          have hvalue := (Decimal.value_between (d := ⟨n, 0⟩) hpos).1
          have hfar : (10 : ℚ) ^ (310 : Int) ≤ 10 ^ ((Nat.toDigits 10 n).length + (0 : Int) - 1) :=
            zpow_le_zpow_right₀ (by norm_num) (by omega)
          rw [Decimal.value, zpow_zero, mul_one] at hvalue
          refine (ofRatio_infinite negative hpos one_pos ?_).symm
          rw [Nat.cast_one, div_one]
          exact (Decimal.greatest_lt_ten_pow.le.trans hfar).trans hvalue
      · rw [if_neg (by omega), Int.toNat_zero, neg_zero, Int.toNat_zero, tenTo, Nat.pow_eq,
          pow_zero, mul_one]

/-- The text of an integer is read as the number nearest to it. -/
theorem number?_signedString (n : Int) :
    number? (Decimal.signedString n).toList = some (Binary64.ofInt n) := by
  have hmagnitude : magnitude? (decide (n < 0)) (Nat.toDigits 10 n.natAbs) =
      some (Binary64.ofInt n) := by
    have hread := @magnitude?_whole _ [] (decide (n < 0)) (isWhole_toDigits n.natAbs) (by simp)
    rw [List.append_nil, natural_toDigits] at hread
    rw [hread, exponent?, Option.map_some, ofDecimal_natural, ofInt]
  have hsigned := number?_signed hmagnitude
  rw [Decimal.signedString, String.toList_append, Decimal.digitString, String.toList_ofList]
  simpa using hsigned

/-! ## Numerals as tokens -/

theorem isBareChar_of_isDigit {c : Char} (h : c.isDigit = true) : isBareChar c = true := by
  simp [isBareChar, Char.isAlphanum, h]

/-- The characters of a numeral outside of its digits. -/
theorem isBareChar_mark {c : Char} (h : c ∈ ['-', '+', '.', 'e', 'E']) : isBareChar c = true :=
  List.all_eq_true.1 (by decide) c h

theorem bare_of_sign {cs : List Char} (h : ∀ c ∈ (sign cs).2, isBareChar c = true) :
    ∀ c ∈ cs, isBareChar c = true := by
  unfold sign at h
  split at h
  · exact List.forall_mem_cons.2 ⟨isBareChar_mark (by simp), h⟩
  · exact List.forall_mem_cons.2 ⟨isBareChar_mark (by simp), h⟩
  · exact h

theorem bare_of_exponent? {cs : List Char} {e : Int} (h : exponent? cs = some e) :
    ∀ c ∈ cs, isBareChar c = true := by
  unfold exponent? at h
  split at h
  · simp
  · next mark rest =>
      split at h
      · cases h
      · next hmark =>
          dsimp only at h
          split at h
          · cases h
          · next hdigits =>
              refine List.forall_mem_cons.2 ⟨isBareChar_mark ?_, bare_of_sign fun c hc => ?_⟩
              · by_cases hlower : mark = 'e' <;> simp_all
              · simp only [Bool.or_eq_true, not_or, Bool.not_eq_true, Bool.not_eq_false',
                  List.all_eq_true] at hdigits
                exact isBareChar_of_isDigit (hdigits.2 c hc)

theorem bare_of_fraction {cs : List Char} (h : ∀ c ∈ (fraction cs).2, isBareChar c = true) :
    ∀ c ∈ cs, isBareChar c = true := by
  unfold fraction at h
  split at h
  · next more =>
      refine List.forall_mem_cons.2 ⟨isBareChar_mark (by simp), fun c hc => ?_⟩
      rw [List.span_eq_takeWhile_dropWhile] at h
      rw [← List.takeWhile_append_dropWhile (p := Char.isDigit) (l := more)] at hc
      rcases List.mem_append.1 hc with hc | hc
      · exact isBareChar_of_isDigit (List.mem_takeWhile_imp hc)
      · exact h c hc
  · exact h

theorem bare_of_magnitude? {negative : Bool} {cs : List Char} {x : Binary64}
    (h : magnitude? negative cs = some x) : ∀ c ∈ cs, isBareChar c = true := by
  unfold magnitude? at h
  rw [List.span_eq_takeWhile_dropWhile] at h
  dsimp only at h
  split at h
  · cases h
  · obtain ⟨e, he, -⟩ := Option.map_eq_some_iff.1 h
    have hrest := bare_of_fraction (bare_of_exponent? he)
    intro c hc
    rw [← List.takeWhile_append_dropWhile (p := Char.isDigit) (l := cs)] at hc
    rcases List.mem_append.1 hc with hc | hc
    · exact isBareChar_of_isDigit (List.mem_takeWhile_imp hc)
    · exact hrest c hc

/-- A numeral has only characters that belong to one token. -/
theorem bare_of_number? {cs : List Char} {x : Binary64} (h : number? cs = some x) :
    ∀ c ∈ cs, isBareChar c = true := by
  unfold number? at h
  split at h
  · exact List.forall_mem_cons.2 ⟨isBareChar_mark (by simp), bare_of_magnitude? h⟩
  · exact bare_of_magnitude? h

/-- A numeral is none of the words that are values. -/
theorem scalar?_of_number? {cs : List Char} {x : Binary64} (h : number? cs = some x) :
    scalar? cs = some (.number x) := by
  have hnone : ∀ word ∈ ["null", "true", "false"], number? word.toList = none := by decide
  have hword : ∀ word ∈ ["null", "true", "false"], cs ≠ word.toList := by
    intro word hmem heq
    rw [heq, hnone word hmem] at h
    cases h
  rw [scalar?, if_neg (hword "null" (by simp)), if_neg (hword "true" (by simp)),
    if_neg (hword "false" (by simp)), h]
  rfl

end Script

end TypedClient
