-- Rounding to double precision: it depends on the quotient alone, it leaves every
-- magnitude where it is, and the bounds that keep a decimal far out of range from
-- large powers lose nothing.
import Mathlib.Tactic.Ring
import Mathlib.Tactic.SplitIfs
import PipelineBoard.Number.Decimal

namespace PipelineBoard

namespace Binary64

theorem ofPlace_val (negative : Bool) (place : Fin (infinityPlace + 1)) :
    ofPlace negative place.val = .signed negative place := by
  have hmin : min place.val infinityPlace = place.val := by omega
  exact congrArg (Binary64.signed negative) (Fin.ext hmin)

/-! ## Quotients -/

theorem roundQuotient_mul {k : Nat} (hk : 0 < k) (num den : Nat) :
    roundQuotient (k * num) (k * den) = roundQuotient num den := by
  have hless : k * den < 2 * (k * (num % den)) ↔ den < 2 * (num % den) := by
    rw [Nat.mul_left_comm]
    exact Nat.mul_lt_mul_left hk
  have hequal : k * den = 2 * (k * (num % den)) ↔ den = 2 * (num % den) := by
    rw [Nat.mul_left_comm]
    exact Nat.mul_right_inj (Nat.ne_of_gt hk)
  unfold roundQuotient
  simp only [Nat.mul_div_mul_left _ _ hk, Nat.mul_mod_mul_left, hless, hequal, Bool.or_eq_true,
    decide_eq_true_eq, Bool.and_eq_true, beq_iff_eq]

/-- A whole quotient needs no rounding. -/
theorem roundQuotient_of_dvd {den : Nat} (h : 0 < den) (q : Nat) :
    roundQuotient (q * den) den = q := by
  have hr : q * den % den = 0 := Nat.mul_mod_left q den
  have hq : q * den / den = q := Nat.mul_div_cancel q h
  unfold roundQuotient
  rw [hr, hq]
  simp only [Bool.or_eq_true, decide_eq_true_eq, Bool.and_eq_true, beq_iff_eq]
  rw [if_neg (by omega)]

theorem roundQuotient_of_lt_half {num den : Nat} (h : 2 * num < den) :
    roundQuotient num den = 0 := by
  have hlt : num < den := by omega
  unfold roundQuotient
  rw [Nat.div_eq_of_lt hlt, Nat.mod_eq_of_lt hlt]
  simp only [Bool.or_eq_true, decide_eq_true_eq, Bool.and_eq_true, beq_iff_eq]
  rw [if_neg (by omega)]

/-! ## Places -/

theorem nearestPlace_mul {k : Nat} (hk : 0 < k) (num den : Nat) :
    nearestPlace (k * num) (k * den) = nearestPlace num den := by
  unfold nearestPlace
  simp only [Nat.mul_div_mul_left _ _ hk, Nat.mul_assoc k den, roundQuotient_mul hk]

/-- Two fractions of one number have one nearest place. -/
theorem nearestPlace_congr {num den num' den' : Nat} (h : 0 < den) (h' : 0 < den')
    (heq : num * den' = num' * den) : nearestPlace num den = nearestPlace num' den' := by
  rw [← nearestPlace_mul h' num den, ← nearestPlace_mul h num' den', Nat.mul_comm den' num, heq,
    Nat.mul_comm num' den, Nat.mul_comm den' den]

/-- The units of the first binade count its places. -/
theorem nearestPlace_of_lt_binade {n : Nat} (h : n < binade) : nearestPlace n 1 = n := by
  have hshift : n.log2 - 52 = 0 := by
    by_cases hzero : n = 0
    · rw [hzero]
      rfl
    · have hlog : n.log2 < 52 := (Nat.log2_lt hzero).mpr h
      omega
  have hround : roundQuotient n 1 = n := by
    have hdvd := roundQuotient_of_dvd Nat.one_pos n
    rwa [Nat.mul_one] at hdvd
  have hfinite : n < infinityPlace := Nat.lt_of_lt_of_le h (by decide)
  unfold nearestPlace
  rw [Nat.div_one, hshift]
  change min (0 * binade + roundQuotient n 1) infinityPlace = n
  rw [hround]
  omega

/-- A magnitude with a leading bit is at the place of its binade and fraction. -/
theorem nearestPlace_of_leading {exponent fraction : Nat} (h : fraction < binade)
    (hfinite : (exponent + 1) * binade + fraction ≤ infinityPlace) :
    nearestPlace ((binade + fraction) * 2 ^ exponent) 1 = (exponent + 1) * binade + fraction := by
  have hbinade : binade = 2 ^ 52 := rfl
  have hpower : 0 < 2 ^ exponent := Nat.two_pow_pos exponent
  have hne : (binade + fraction) * 2 ^ exponent ≠ 0 :=
    Nat.ne_of_gt (Nat.mul_pos (Nat.lt_of_lt_of_le (by decide) (Nat.le_add_right _ _)) hpower)
  have hlog : ((binade + fraction) * 2 ^ exponent).log2 = 52 + exponent := by
    rw [Nat.log2_eq_iff hne]
    constructor
    · rw [pow_add, ← hbinade]
      exact Nat.mul_le_mul_right _ (Nat.le_add_right _ _)
    · have hdouble : 2 ^ (52 + exponent + 1) = (2 * binade) * 2 ^ exponent := by
        rw [hbinade]
        ring
      rw [hdouble]
      exact Nat.mul_lt_mul_of_pos_right (by omega) hpower
  have hround : roundQuotient ((binade + fraction) * 2 ^ exponent) (1 * Nat.pow 2 exponent) =
      binade + fraction := by
    rw [Nat.one_mul]
    exact roundQuotient_of_dvd hpower _
  have hsum : exponent * binade + (binade + fraction) = (exponent + 1) * binade + fraction := by
    ring
  unfold nearestPlace
  rw [Nat.div_one, hlog, Nat.add_sub_cancel_left]
  simp only [hround, hsum]
  omega

/-- Every magnitude is nearest to itself. -/
theorem nearestPlace_unitsAt {place : Nat} (h : place < infinityPlace) :
    nearestPlace (unitsAt place) 1 = place := by
  have hplace : place / binade * binade + place % binade = place := Nat.div_add_mod' _ _
  have hfraction : place % binade < binade := Nat.mod_lt _ (by decide)
  by_cases hzero : place / binade = 0
  · have hsmall : place < binade := by
      rw [hzero] at hplace
      omega
    have hunits : unitsAt place = place := unitsAt_small (by omega)
    rw [hunits]
    exact nearestPlace_of_lt_binade hsmall
  · obtain ⟨exponent, hexponent⟩ := Nat.exists_eq_succ_of_ne_zero hzero
    have hunits : unitsAt place = (binade + place % binade) * 2 ^ exponent := by
      unfold unitsAt
      simp only [hzero, if_false]
      rw [hexponent]
      rfl
    rw [hexponent] at hplace
    have hbound : (exponent + 1) * binade + place % binade ≤ infinityPlace := by
      rw [hplace]
      exact Nat.le_of_lt h
    rw [hunits, nearestPlace_of_leading hfraction hbound]
    exact hplace

/-- Far above the largest magnitude there is only infinity. -/
theorem nearestPlace_of_huge {num den exponent : Nat} (hden : 0 < den) (hexponent : 2099 ≤ exponent)
    (h : 2 ^ exponent * den ≤ num) : nearestPlace num den = infinityPlace := by
  have hquotient : 2 ^ exponent ≤ num / den := (Nat.le_div_iff_mul_le hden).mpr h
  have hpos : num / den ≠ 0 := Nat.ne_of_gt (Nat.lt_of_lt_of_le (Nat.two_pow_pos _) hquotient)
  have hlog : exponent ≤ (num / den).log2 := (Nat.le_log2 hpos).mpr hquotient
  have hshift : infinityPlace ≤ ((num / den).log2 - 52) * binade :=
    Nat.mul_le_mul_right binade (by omega : 2047 ≤ (num / den).log2 - 52)
  unfold nearestPlace
  exact Nat.min_eq_right (Nat.le_trans hshift (Nat.le_add_right _ _))

/-- Below half a unit there is only zero. -/
theorem nearestPlace_of_lt_half {num den : Nat} (h : 2 * num < den) : nearestPlace num den = 0 := by
  have hquotient : num / den = 0 := Nat.div_eq_of_lt (by omega)
  have hround : roundQuotient num (den * Nat.pow 2 0) = 0 := by
    apply roundQuotient_of_lt_half
    simpa using h
  unfold nearestPlace
  rw [hquotient]
  change min (0 * binade + roundQuotient num (den * Nat.pow 2 0)) infinityPlace = 0
  rw [hround]
  omega

end Binary64

/-! ## Decimals -/

namespace Decimal

open Binary64

theorem lt_pow_width (n : Nat) : n < 10 ^ width n :=
  (Nat.length_toDigits_le_iff (by decide) Nat.length_toDigits_pos).mp (Nat.le_refl _)

theorem pow_width_le {n : Nat} (h : n ≠ 0) : 10 ^ (width n - 1) ≤ n := by
  by_cases hone : width n = 1
  · rw [hone]
    exact Nat.pos_of_ne_zero h
  · have hwidth : 0 < width n := Nat.length_toDigits_pos
    apply Nat.le_of_not_lt
    intro hlt
    have hle : width n ≤ width n - 1 :=
      (Nat.length_toDigits_le_iff (by decide) (by omega)).mpr hlt
    omega

theorem pow_ten_pos (n : Nat) : 0 < 10 ^ n := Nat.pow_pos (by decide)

/-- A power of ten may stand in the digits or in the exponent. -/
theorem placeOf_mul_pow (digits count : Nat) (exponent : Int) :
    placeOf (digits * 10 ^ count) exponent = placeOf digits (exponent + count) := by
  have hcount : count + exponent.toNat + (-(exponent + count)).toNat =
      (exponent + count).toNat + (-exponent).toNat := by omega
  have hpowers : 10 ^ count * 10 ^ exponent.toNat * 10 ^ (-(exponent + count)).toNat =
      10 ^ (exponent + count).toNat * 10 ^ (-exponent).toNat := by
    rw [← pow_add, ← pow_add, ← pow_add, hcount]
  apply nearestPlace_congr (pow_ten_pos _) (pow_ten_pos _)
  calc digits * 10 ^ count * 10 ^ exponent.toNat * unitsPerOne * 10 ^ (-(exponent + count)).toNat
      = digits * unitsPerOne *
          (10 ^ count * 10 ^ exponent.toNat * 10 ^ (-(exponent + count)).toNat) := by ring
    _ = digits * unitsPerOne * (10 ^ (exponent + count).toNat * 10 ^ (-exponent).toNat) := by
        rw [hpowers]
    _ = digits * 10 ^ (exponent + count).toNat * unitsPerOne * 10 ^ (-exponent).toNat := by ring

/-- A magnitude has an exact decimal, with so many places as a unit has halvings. -/
theorem placeOf_exact {place count : Nat} (h : place < infinityPlace)
    (hcount : unitsPerOne = Nat.pow 2 count) :
    placeOf (unitsAt place * Nat.pow 5 count) (-count) = place := by
  have hpowers : Nat.pow 5 count * unitsPerOne = Nat.pow 10 count := by
    rw [hcount]
    exact (Nat.mul_pow 5 2 count).symm
  have hzero : Nat.pow 10 (-count : Int).toNat = 1 := by
    have hnone : (-count : Int).toNat = 0 := by omega
    rw [hnone]
  have hsame : (- -count : Int).toNat = count := by omega
  have hcross : unitsAt place * Nat.pow 5 count * Nat.pow 10 (-count : Int).toNat * unitsPerOne * 1 =
      unitsAt place * Nat.pow 10 (- -count : Int).toNat := by
    rw [hzero, hsame, ← hpowers]
    ring
  unfold placeOf
  exact (nearestPlace_congr (pow_ten_pos _) Nat.one_pos hcross).trans (nearestPlace_unitsAt h)

theorem placeOf_of_large {digits : Nat} {exponent : Int} (hdigits : digits ≠ 0)
    (h : 310 < exponent + width digits) : placeOf digits exponent = infinityPlace := by
  have hpowers : ∀ count, count + (-exponent).toNat ≤ width digits - 1 + exponent.toNat →
      10 ^ count * 10 ^ (-exponent).toNat ≤ digits * 10 ^ exponent.toNat := by
    intro count hcount
    calc 10 ^ count * 10 ^ (-exponent).toNat = 10 ^ (count + (-exponent).toNat) :=
          (pow_add _ _ _).symm
      _ ≤ 10 ^ (width digits - 1 + exponent.toNat) := Nat.pow_le_pow_right (by decide) hcount
      _ = 10 ^ (width digits - 1) * 10 ^ exponent.toNat := pow_add _ _ _
      _ ≤ digits * 10 ^ exponent.toNat := Nat.mul_le_mul_right _ (pow_width_le hdigits)
  have hlarge := hpowers 310 (by omega)
  have hunits : 2 ^ 2099 ≤ 10 ^ 310 * unitsPerOne := by decide +kernel
  apply nearestPlace_of_huge (pow_ten_pos _) (Nat.le_refl 2099)
  calc 2 ^ 2099 * 10 ^ (-exponent).toNat
      ≤ 10 ^ 310 * unitsPerOne * 10 ^ (-exponent).toNat := Nat.mul_le_mul_right _ hunits
    _ = 10 ^ 310 * 10 ^ (-exponent).toNat * unitsPerOne := Nat.mul_right_comm _ _ _
    _ ≤ digits * 10 ^ exponent.toNat * unitsPerOne := Nat.mul_le_mul_right _ hlarge

theorem placeOf_of_small {digits : Nat} {exponent : Int}
    (h : exponent + width digits < -330) : placeOf digits exponent = 0 := by
  have hcount : width digits + 331 ≤ (-exponent).toNat := by omega
  have hpositive : exponent.toNat = 0 := by omega
  have hunits : 2 * unitsPerOne ≤ 10 ^ 331 := by decide +kernel
  apply nearestPlace_of_lt_half
  rw [hpositive]
  calc 2 * (digits * 10 ^ 0 * unitsPerOne) = digits * (2 * unitsPerOne) := by ring
    _ < 10 ^ width digits * (2 * unitsPerOne) :=
        Nat.mul_lt_mul_of_pos_right (lt_pow_width digits) (by decide +kernel)
    _ ≤ 10 ^ width digits * 10 ^ 331 := Nat.mul_le_mul_left _ hunits
    _ = 10 ^ (width digits + 331) := (pow_add _ _ _).symm
    _ ≤ 10 ^ (-exponent).toNat := Nat.pow_le_pow_right (by decide) hcount

theorem placeOf_zero (exponent : Int) : placeOf 0 exponent = 0 := by
  apply nearestPlace_of_lt_half
  rw [Nat.zero_mul, Nat.zero_mul]
  exact pow_ten_pos _

/-- The bounds on a decimal out of range change no place. -/
theorem place_eq_placeOf (digits : Nat) (exponent : Int) :
    place digits exponent = placeOf digits exponent := by
  unfold place
  split_ifs with hzero hlarge hsmall
  · rw [hzero, placeOf_zero]
  · exact (placeOf_of_large hzero hlarge).symm
  · exact (placeOf_of_small hsmall).symm
  · rfl

end Decimal

end PipelineBoard
