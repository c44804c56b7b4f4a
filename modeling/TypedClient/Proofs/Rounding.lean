import Mathlib.Algebra.Order.Field.Power
import Mathlib.Data.Rat.Cast.Order
import Mathlib.Tactic.FieldSimp
import Mathlib.Tactic.Linarith
import Mathlib.Tactic.NormNum
import Mathlib.Tactic.Positivity
import Mathlib.Tactic.Ring
import TypedClient.Number.Binary64

/-!
# Rounding to the nearest number

`ofRatio` computes with naturals throughout, shifting numerator or denominator
so that no fraction is ever formed. What it computes is said with rational
numbers: `exponentOfRatio` finds the one exponent at which the quotient has a
mantissa of 53 bits, or the least exponent, and `roundQuotient` the one natural
within a half of the quotient.

`ofRatio_eq` puts the two together. Around each number of the format lies the
interval of the rationals that are nearer to it than to its neighbours, and
every quotient in the interval is rounded to the number. There is one awkward
place: below a power of two the neighbour is nearer, and a quotient there is
rounded at the smaller exponent, up to a mantissa that does not fit any more.
-/

namespace TypedClient

/-! ## Shifts -/

theorem twoTo_cast (k : Nat) : (twoTo k : ℚ) = 2 ^ k := by
  rw [twoTo, Nat.pow_eq, Nat.cast_pow, Nat.cast_ofNat]

theorem pow_toNat {b : ℚ} (hb : b ≠ 0) (e : Int) : b ^ e.toNat = b ^ e * b ^ (-e).toNat := by
  have hsplit : (e.toNat : Int) = e + ((-e).toNat : Int) := by omega
  rw [← zpow_natCast, ← zpow_natCast, hsplit, zpow_add₀ hb]

theorem twoTo_toNat (e : Int) : (twoTo e.toNat : ℚ) = 2 ^ e * twoTo (-e).toNat := by
  rw [twoTo_cast, twoTo_cast]
  exact pow_toNat two_ne_zero e

theorem twoTo_pos (k : Nat) : (0 : ℚ) < twoTo k := by
  rw [twoTo_cast]
  positivity

theorem two_zpow_succ (e : Int) : (2 : ℚ) ^ (e + 1) = 2 * 2 ^ e := by
  rw [zpow_add_one₀ two_ne_zero, mul_comm]

/-! ## Quotients -/

/-- What rounding gives lies within a half of the quotient, and in the middle
between two naturals it is the even one. -/
theorem roundQuotient_spec (num : Nat) {den : Nat} (hden : 0 < den) :
    (num : ℚ) / den - 1 / 2 ≤ roundQuotient num den ∧
      (roundQuotient num den : ℚ) ≤ num / den + 1 / 2 ∧
      ((num : ℚ) / den = roundQuotient num den - 1 / 2 ∨
        (num : ℚ) / den = roundQuotient num den + 1 / 2 → roundQuotient num den % 2 = 0) := by
  have hpos : (0 : ℚ) < den := by exact_mod_cast hden
  have hsplit : (num : ℚ) = den * (num / den : Nat) + (num % den : Nat) := by
    exact_mod_cast (Nat.div_add_mod num den).symm
  have hrest : (num % den : Nat) < den := Nat.mod_lt num hden
  unfold roundQuotient
  generalize num / den = q at hsplit ⊢
  generalize num % den = r at hsplit hrest ⊢
  have hquotient : (num : ℚ) / den = q + r / den := by
    rw [hsplit, add_div, mul_div_cancel_left₀ _ hpos.ne']
  rw [hquotient]
  rcases Nat.lt_trichotomy (2 * r) den with hlt | heq | hgt
  · have hless : (r : ℚ) / den < 1 / 2 := by
      rw [div_lt_div_iff₀ hpos two_pos, one_mul, mul_comm]
      exact_mod_cast hlt
    have hpart : 0 ≤ (r : ℚ) / den := by positivity
    simp only [Nat.compare_eq_lt.2 hlt]
    refine ⟨by linarith, by linarith, fun htie => ?_⟩
    rcases htie with htie | htie <;> linarith
  · have hsame : (r : ℚ) / den = 1 / 2 := by
      rw [div_eq_div_iff hpos.ne' two_ne_zero, one_mul, mul_comm]
      exact_mod_cast heq
    simp only [Nat.compare_eq_eq.2 heq]
    split
    · next heven => exact ⟨by linarith, by linarith, fun _ => heven⟩
    · next hodd =>
        refine ⟨by push_cast; linarith, by push_cast; linarith, fun _ => by omega⟩
  · have hmore : 1 / 2 < (r : ℚ) / den := by
      rw [div_lt_div_iff₀ two_pos hpos, one_mul, mul_comm (r : ℚ)]
      exact_mod_cast hgt
    have hpart : (r : ℚ) / den < 1 := by
      rw [div_lt_one hpos]
      exact_mod_cast hrest
    simp only [Nat.compare_eq_gt.2 hgt]
    push_cast
    refine ⟨by linarith, by linarith, fun htie => ?_⟩
    rcases htie with htie | htie <;> linarith

/-- Rounding gives the natural that lies within a half of the quotient, if in
the middle between two naturals that is the even one. -/
theorem roundQuotient_eq {num den m : Nat} (hden : 0 < den)
    (hlow : (m : ℚ) - 1 / 2 ≤ num / den) (hhigh : (num : ℚ) / den ≤ m + 1 / 2)
    (htie : (num : ℚ) / den = m - 1 / 2 ∨ (num : ℚ) / den = m + 1 / 2 → m % 2 = 0) :
    roundQuotient num den = m := by
  obtain ⟨hbelow, habove, heven⟩ := roundQuotient_spec num hden
  generalize roundQuotient num den = rounded at hbelow habove heven
  generalize (num : ℚ) / den = x at *
  by_contra hne
  rcases Nat.lt_or_gt_of_ne hne with hlt | hgt
  · have hstep : (rounded : ℚ) + 1 ≤ m := by exact_mod_cast hlt
    have hmiddle : x = rounded + 1 / 2 := by linarith
    have hnext : m = rounded + 1 := by
      have hcast : (m : ℚ) = rounded + 1 := by linarith
      exact_mod_cast hcast
    have hfirst := heven (.inr hmiddle)
    have hsecond := htie (.inl (by rw [hmiddle, hnext]; push_cast; ring))
    omega
  · have hstep : (m : ℚ) + 1 ≤ rounded := by exact_mod_cast hgt
    have hmiddle : x = m + 1 / 2 := by linarith
    have hnext : rounded = m + 1 := by
      have hcast : (rounded : ℚ) = m + 1 := by linarith
      exact_mod_cast hcast
    have hfirst := heven (.inl (by rw [hmiddle, hnext]; push_cast; ring))
    have hsecond := htie (.inr hmiddle)
    omega

namespace Binary64

/-! ## Exponents -/

/-- A quotient lies between the powers of two that the logarithms of its parts
give. -/
theorem quotient_between {num den : Nat} (hnum : 0 < num) (hden : 0 < den) :
    (2 : ℚ) ^ ((num.log2 : Int) - den.log2 - 1) < num / den ∧
      (num : ℚ) / den < 2 ^ ((num.log2 : Int) - den.log2 + 1) := by
  have hnumLow : (2 : ℚ) ^ (num.log2 : Int) ≤ num := by
    rw [zpow_natCast]
    exact_mod_cast Nat.log2_self_le hnum.ne'
  have hnumHigh : (num : ℚ) < 2 ^ ((num.log2 : Int) + 1) := by
    exact_mod_cast (Nat.lt_log2_self : num < 2 ^ (num.log2 + 1))
  have hdenLow : (2 : ℚ) ^ (den.log2 : Int) ≤ den := by
    rw [zpow_natCast]
    exact_mod_cast Nat.log2_self_le hden.ne'
  have hdenHigh : (den : ℚ) < 2 ^ ((den.log2 : Int) + 1) := by
    exact_mod_cast (Nat.lt_log2_self : den < 2 ^ (den.log2 + 1))
  have hpos : (0 : ℚ) < den := by exact_mod_cast hden
  constructor
  · rw [lt_div_iff₀ hpos]
    calc (2 : ℚ) ^ ((num.log2 : Int) - den.log2 - 1) * den
        < 2 ^ ((num.log2 : Int) - den.log2 - 1) * 2 ^ ((den.log2 : Int) + 1) := by gcongr
      _ = 2 ^ (num.log2 : Int) := by rw [← zpow_add₀ two_ne_zero]; congr 1; ring
      _ ≤ num := hnumLow
  · rw [div_lt_iff₀ hpos]
    calc (num : ℚ) < 2 ^ ((num.log2 : Int) + 1) := hnumHigh
      _ = 2 ^ ((num.log2 : Int) - den.log2 + 1) * 2 ^ (den.log2 : Int) := by
          rw [← zpow_add₀ two_ne_zero]; congr 1; ring
      _ ≤ 2 ^ ((num.log2 : Int) - den.log2 + 1) * den := by gcongr

/-- The test for 53 bits compares the quotient with the least such number. -/
theorem fits_iff {num den : Nat} (hden : 0 < den) (e : Int) :
    den * twoTo e.toNat * twoTo 52 ≤ num * twoTo (-e).toNat ↔
      (2 : ℚ) ^ 52 * 2 ^ e ≤ num / den := by
  have hpos : (0 : ℚ) < den := by exact_mod_cast hden
  rw [le_div_iff₀ hpos, ← Nat.cast_le (α := ℚ)]
  push_cast
  rw [twoTo_toNat e, twoTo_cast 52]
  constructor
  · intro h
    refine le_of_mul_le_mul_right ?_ (twoTo_pos (-e).toNat)
    linarith
  · intro h
    have := mul_le_mul_of_nonneg_right h (twoTo_pos (-e).toNat).le
    linarith

theorem exponentOfRatio_spec {num den : Nat} (hnum : 0 < num) (hden : 0 < den) :
    leastExponent ≤ exponentOfRatio num den ∧
      (num : ℚ) / den < 2 ^ 53 * 2 ^ exponentOfRatio num den ∧
      (exponentOfRatio num den = leastExponent ∨
        2 ^ 52 * 2 ^ exponentOfRatio num den ≤ (num : ℚ) / den) := by
  obtain ⟨hlow, hhigh⟩ := quotient_between hnum hden
  obtain ⟨e, he, hbelow, habove⟩ : ∃ e, exponentOfRatio num den = max leastExponent e ∧
      (num : ℚ) / den < 2 ^ 53 * 2 ^ e ∧ 2 ^ 52 * 2 ^ e ≤ (num : ℚ) / den := by
    refine ⟨_, rfl, ?_⟩
    simp only [fits_iff hden]
    split
    · next hfits =>
        refine ⟨lt_of_lt_of_eq hhigh ?_, hfits⟩
        rw [← zpow_natCast, ← zpow_add₀ two_ne_zero]
        congr 1
        push_cast
        ring
    · next hfits =>
        refine ⟨lt_of_lt_of_eq (lt_of_not_ge hfits) ?_, le_of_eq_of_le ?_ hlow.le⟩
        · rw [zpow_sub_one₀ two_ne_zero]
          ring
        · rw [← zpow_natCast, ← zpow_add₀ two_ne_zero]
          congr 1
          push_cast
          ring
  rw [he]
  refine ⟨le_max_left _ _, ?_, ?_⟩
  · refine lt_of_lt_of_le hbelow ?_
    have : (2 : ℚ) ^ e ≤ 2 ^ max leastExponent e :=
      zpow_le_zpow_right₀ one_le_two (le_max_right _ _)
    linarith
  · rcases le_total e leastExponent with hle | hle
    · exact .inl (max_eq_left hle)
    · rw [max_eq_right hle]
      exact .inr habove

/-! ## The number nearest to a quotient -/

/-- The one representation of a number has 53 bits, or the least exponent. -/
structure Canonical (m : Nat) (e : Int) : Prop where
  small : m < 2 ^ 53
  least : leastExponent ≤ e
  greatest : e ≤ greatestExponent
  full : e = leastExponent ∨ 2 ^ 52 ≤ m

/-- The way down from `m * 2 ^ e` to the middle between it and its neighbour,
in quarters of `2 ^ e`. -/
def quartersBelow (m : Nat) (e : Int) : Nat :=
  if m = 2 ^ 52 ∧ leastExponent < e then 1 else 2

/-- The rationals for which `m * 2 ^ e` is the nearest number, the middle
between two numbers belonging to the even mantissa. -/
structure Nearest (m : Nat) (e : Int) (x : ℚ) : Prop where
  low : (m - quartersBelow m e / 4) * 2 ^ e ≤ x
  high : x ≤ (m + 1 / 2) * 2 ^ e
  even : (m - quartersBelow m e / 4) * 2 ^ e = x ∨ x = (m + 1 / 2) * 2 ^ e → m % 2 = 0

theorem quartersBelow_le (m : Nat) (e : Int) : (quartersBelow m e : ℚ) / 4 ≤ 1 / 2 := by
  unfold quartersBelow
  split <;> norm_num

/-- No rational in the interval is further below the number than a half. -/
theorem half_le_low (m : Nat) (e : Int) :
    ((m : ℚ) - 1 / 2) * 2 ^ e ≤ (m - quartersBelow m e / 4) * 2 ^ e :=
  mul_le_mul_of_nonneg_right (sub_le_sub_left (quartersBelow_le m e) _) (by positivity)

/-- The exponent found for a quotient is that of the nearest number, except
below a power of two. -/
theorem exponent_of_nearest {num den m : Nat} {e : Int} (hnum : 0 < num) (hden : 0 < den)
    (hcanonical : Canonical m e) (hnearest : Nearest m e (num / den)) :
    exponentOfRatio num den = e ∨
      exponentOfRatio num den = e - 1 ∧ m = 2 ^ 52 ∧ leastExponent < e := by
  obtain ⟨hleast, hbelow, habove⟩ := exponentOfRatio_spec hnum hden
  have hunit : (0 : ℚ) < 2 ^ e := by positivity
  have hlow := (half_le_low m e).trans hnearest.low
  generalize exponentOfRatio num den = found at *
  rcases lt_trichotomy found e with hlt | heq | hgt
  · right
    have hfull : 2 ^ 52 ≤ m := hcanonical.full.resolve_left (by omega)
    have hfound : (2 : ℚ) * 2 ^ found ≤ 2 ^ e := by
      rw [← two_zpow_succ]
      exact zpow_le_zpow_right₀ one_le_two (by omega)
    have hmantissa : m = 2 ^ 52 := by
      have hless : ((m : ℚ) - 1 / 2) * 2 ^ e < 2 ^ 52 * 2 ^ e := by linarith
      have hless := lt_of_mul_lt_mul_right hless hunit.le
      have : (m : ℚ) < (2 ^ 52 + 1 : Nat) := by push_cast; linarith
      have : m < 2 ^ 52 + 1 := by exact_mod_cast this
      omega
    refine ⟨?_, hmantissa, by omega⟩
    by_contra hne
    have hfar : (2 : ℚ) * (2 * 2 ^ found) ≤ 2 ^ e := by
      rw [← two_zpow_succ, ← two_zpow_succ]
      exact zpow_le_zpow_right₀ one_le_two (by omega)
    have hcast : (m : ℚ) = 2 ^ 52 := by exact_mod_cast hmantissa
    rw [hcast] at hlow
    linarith
  · exact .inl heq
  · exfalso
    have hfar : (2 : ℚ) * 2 ^ e ≤ 2 ^ found := by
      rw [← two_zpow_succ]
      exact zpow_le_zpow_right₀ one_le_two (by omega)
    have habove := habove.resolve_left (by have := hcanonical.least; omega)
    have hm : (m : ℚ) ≤ 2 ^ 53 - 1 := by
      have : m + 1 ≤ 2 ^ 53 := hcanonical.small
      have : (m : ℚ) + 1 ≤ 2 ^ 53 := by exact_mod_cast this
      linarith
    have : ((m : ℚ) + 1 / 2) * 2 ^ e ≤ (2 ^ 53 - 1 / 2) * 2 ^ e := by
      gcongr
      linarith
    linarith [hnearest.high]

theorem scaled_quotient (num den : Nat) (e : Int) :
    ((num * twoTo (-e).toNat : Nat) : ℚ) / (den * twoTo e.toNat : Nat) = num / den / 2 ^ e := by
  have := (twoTo_pos (-e).toNat).ne'
  push_cast
  rw [twoTo_toNat e, ← mul_assoc, mul_div_mul_right _ _ this, div_div]

theorem ofRatio_of_fits {num den m : Nat} {e : Int} (negative : Bool) (hnum : 0 < num)
    (hfound : exponentOfRatio num den = e)
    (hround : roundQuotient (num * twoTo (-e).toNat) (den * twoTo e.toNat) = m)
    (hsmall : m < twoTo 53) (hgreatest : e ≤ greatestExponent) :
    ofRatio negative num den = .finite negative m e := by
  have hne : m ≠ twoTo 53 := hsmall.ne
  unfold ofRatio
  rw [if_neg hnum.ne', hfound]
  dsimp only
  rw [hround, if_neg hne]
  exact if_neg (not_lt.2 hgreatest)

/-- A mantissa that rounding up has given one bit too many is halved. -/
theorem ofRatio_of_carry {num den : Nat} {e : Int} (negative : Bool) (hnum : 0 < num)
    (hfound : exponentOfRatio num den = e)
    (hround : roundQuotient (num * twoTo (-e).toNat) (den * twoTo e.toNat) = twoTo 53)
    (hgreatest : e + 1 ≤ greatestExponent) :
    ofRatio negative num den = .finite negative (twoTo 52) (e + 1) := by
  unfold ofRatio
  rw [if_neg hnum.ne', hfound]
  dsimp only
  rw [hround, if_pos rfl]
  exact if_neg (not_lt.2 hgreatest)

/-- A quotient is rounded to the number that is nearest to it. -/
theorem ofRatio_eq {num den m : Nat} {e : Int} (negative : Bool) (hnum : 0 < num)
    (hden : 0 < den) (hcanonical : Canonical m e) (hnearest : Nearest m e (num / den)) :
    ofRatio negative num den = .finite negative m e := by
  have hden' : ∀ k : Int, 0 < den * twoTo k.toNat := fun k =>
    Nat.mul_pos hden (Nat.pow_pos two_pos)
  have hunit : ∀ k : Int, (0 : ℚ) < 2 ^ k := fun k => by positivity
  rcases exponent_of_nearest hnum hden hcanonical hnearest with
    hfound | ⟨hfound, hmantissa, hleast⟩
  · refine ofRatio_of_fits negative hnum hfound ?_ hcanonical.small hcanonical.greatest
    apply roundQuotient_eq (hden' e) <;> rw [scaled_quotient]
    · rw [le_div_iff₀ (hunit e)]
      exact (half_le_low m e).trans hnearest.low
    · rw [div_le_iff₀ (hunit e)]
      exact hnearest.high
    · rw [div_eq_iff (hunit e).ne', div_eq_iff (hunit e).ne']
      rintro (htie | htie)
      · exact hnearest.even
          (.inl (le_antisymm hnearest.low (htie.trans_le (half_le_low m e))))
      · exact hnearest.even (.inr htie)
  · have hcarry : (twoTo 53 : ℚ) = 2 * m := by
      rw [twoTo_cast, hmantissa]
      norm_num
    have hquarter : quartersBelow m e = 1 := if_pos ⟨hmantissa, hleast⟩
    have hhalf : (2 : ℚ) ^ e = 2 * 2 ^ (e - 1) := by
      rw [← two_zpow_succ, sub_add_cancel]
    have hlow := hnearest.low
    have hbelow := (exponentOfRatio_spec hnum hden).2.1
    rw [hquarter, hhalf] at hlow
    rw [hfound, ← twoTo_cast, hcarry] at hbelow
    have hresult := @ofRatio_of_carry num den _ negative hnum hfound
      (roundQuotient_eq (hden' _) ?_ ?_ ?_) (by simpa using hcanonical.greatest)
    · rw [hresult, sub_add_cancel, hmantissa]
      rfl
    · rw [scaled_quotient, hcarry, le_div_iff₀ (hunit _)]
      push_cast at hlow
      linarith
    · rw [scaled_quotient, hcarry, div_le_iff₀ (hunit _)]
      linarith [hunit (e - 1)]
    · intro _
      rw [twoTo]

/-- Beyond the largest number there are only the infinities. -/
theorem ofRatio_infinite {num den : Nat} (negative : Bool) (hnum : 0 < num) (hden : 0 < den)
    (hlarge : (2 : ℚ) ^ 53 * 2 ^ greatestExponent ≤ num / den) :
    ofRatio negative num den = .infinite negative := by
  obtain ⟨-, hbelow, -⟩ := exponentOfRatio_spec hnum hden
  have hexponent : greatestExponent < exponentOfRatio num den := by
    by_contra hle
    have : (2 : ℚ) ^ exponentOfRatio num den ≤ 2 ^ greatestExponent :=
      zpow_le_zpow_right₀ one_le_two (not_lt.1 hle)
    linarith
  obtain ⟨e, hfound⟩ : ∃ e, exponentOfRatio num den = e := ⟨_, rfl⟩
  obtain ⟨m, hround⟩ :
      ∃ m, roundQuotient (num * twoTo (-e).toNat) (den * twoTo e.toNat) = m := ⟨_, rfl⟩
  rw [hfound] at hexponent
  unfold ofRatio
  rw [if_neg hnum.ne', hfound]
  dsimp only
  rw [hround]
  by_cases hcarry : m = twoTo 53
  · rw [if_pos hcarry]
    exact if_pos (hexponent.trans (lt_add_one _))
  · rw [if_neg hcarry]
    exact if_pos hexponent

end Binary64

end TypedClient
