import Mathlib.Algebra.Ring.Nat
import Reflash.Single

/-!
# Reflash.Proofs.Fractions — fractions in single precision keep their order

Rounding to single precision is monotone: the nearest single of a larger quotient has the larger pattern
(`Single.nearestBits_mono`), and a larger pattern is a larger number (`Single.units_mono`).  So the fraction `a
/ b` grows with `a` up to one (`Single.quotient_mono`), and its portion of a span grows from nothing to the
whole span (`Single.portion_mono`).  Counts are words of 64 bits here, for which no pattern leaves its 31 bits.
-/

namespace Reflash

section RoundHalfEven

variable {m n d : Nat}

theorem div_le_roundHalfEven (n d : Nat) : n / d ≤ roundHalfEven n d := by
  simp only [roundHalfEven]
  split <;> omega

theorem roundHalfEven_le (n d : Nat) : roundHalfEven n d ≤ n / d + 1 := by
  simp only [roundHalfEven]
  split <;> omega

theorem roundHalfEven_mono (hmn : m ≤ n) : roundHalfEven m d ≤ roundHalfEven n d := by
  have hdiv : m / d ≤ n / d := Nat.div_le_div_right hmn
  rcases Nat.lt_or_eq_of_le hdiv with hlt | heq
  · calc roundHalfEven m d ≤ m / d + 1 := roundHalfEven_le m d
      _ ≤ n / d := hlt
      _ ≤ roundHalfEven n d := div_le_roundHalfEven n d
  · -- The same whole part, and a remainder that is no smaller.
    have hm := Nat.div_add_mod m d
    have hn := Nat.div_add_mod n d
    rw [heq] at hm
    simp only [roundHalfEven, heq]
    split <;> split <;> omega

/-- What is whole is not rounded. -/
theorem roundHalfEven_mul (m : Nat) (hd : 0 < d) : roundHalfEven (m * d) d = m := by
  simp only [roundHalfEven, Nat.mul_div_cancel m hd, Nat.mul_mod_left]
  split <;> omega

end RoundHalfEven

namespace Single

/-! ## Rounding -/

section Scale

variable {u v : Nat}

theorem lt_pow_scale (v : Nat) : v < 2 ^ (scale v + 24) := by
  have hlog : v < 2 ^ (Nat.log2 v + 1) := Nat.lt_log2_self
  exact Nat.lt_of_lt_of_le hlog (Nat.pow_le_pow_right (by decide) (by unfold scale; omega))

/-- A number that is scaled down fills its 24 bits. -/
theorem pow_scale_le (hv : 0 < scale v) : 2 ^ (scale v + 23) ≤ v := by
  have hlog : scale v + 23 = Nat.log2 v := by
    unfold scale at *
    omega
  have hne : v ≠ 0 := by
    rintro rfl
    simp [scale] at hv
  rw [hlog]
  exact Nat.log2_self_le hne

theorem scale_mono (huv : u ≤ v) : scale u ≤ scale v := by
  refine Nat.le_of_not_lt fun hlt => ?_
  have hu : 2 ^ (scale u + 23) ≤ u := pow_scale_le (by omega)
  have hv : v < 2 ^ (scale v + 24) := lt_pow_scale v
  have hpow : 2 ^ (scale v + 24) ≤ 2 ^ (scale u + 23) := Nat.pow_le_pow_right (by decide) (by omega)
  omega

end Scale

section Nearest

variable {m n d u v : Nat}

/-- The significand that a quotient of units is rounded to, with as many bits as the scale leaves. -/
def significand (u d : Nat) : Nat := roundHalfEven u (d * 2 ^ scale (u / d))

/-- The pattern of the single nearest to a quotient of units. -/
def pattern (u d : Nat) : Nat := scale (u / d) * 2 ^ 23 + significand u d

theorem nearestBits_eq (n d : Nat) : nearestBits n d = pattern (n * Nat.pow 2 149) d := rfl

/-- A significand may be rounded up to the next power of two, but not beyond. -/
theorem significand_le (u : Nat) (hd : 0 < d) : significand u d ≤ 2 ^ 24 := by
  have hu : u < 2 ^ (scale (u / d) + 24) * d := (Nat.div_lt_iff_lt_mul hd).mp (lt_pow_scale (u / d))
  have hle : u ≤ 2 ^ 24 * (d * 2 ^ scale (u / d)) := by
    rw [Nat.pow_add] at hu
    calc u ≤ 2 ^ scale (u / d) * 2 ^ 24 * d := Nat.le_of_lt hu
      _ = 2 ^ 24 * (d * 2 ^ scale (u / d)) := by ac_rfl
  calc significand u d ≤ roundHalfEven (2 ^ 24 * (d * 2 ^ scale (u / d))) (d * 2 ^ scale (u / d)) :=
        roundHalfEven_mono hle
    _ = 2 ^ 24 := roundHalfEven_mul _ (Nat.mul_pos hd (Nat.two_pow_pos _))

theorem le_significand (hd : 0 < d) (hscale : 0 < scale (u / d)) : 2 ^ 23 ≤ significand u d := by
  have hu : 2 ^ (scale (u / d) + 23) * d ≤ u := (Nat.le_div_iff_mul_le hd).mp (pow_scale_le hscale)
  have hle : 2 ^ 23 * (d * 2 ^ scale (u / d)) ≤ u := by
    rw [Nat.pow_add] at hu
    calc 2 ^ 23 * (d * 2 ^ scale (u / d)) = 2 ^ scale (u / d) * 2 ^ 23 * d := by ac_rfl
      _ ≤ u := hu
  calc 2 ^ 23 = roundHalfEven (2 ^ 23 * (d * 2 ^ scale (u / d))) (d * 2 ^ scale (u / d)) :=
        (roundHalfEven_mul _ (Nat.mul_pos hd (Nat.two_pow_pos _))).symm
    _ ≤ significand u d := roundHalfEven_mono hle

/-- Rounding keeps the order: within a scale significands do, and a larger scale has larger patterns. -/
theorem pattern_mono (hd : 0 < d) (huv : u ≤ v) : pattern u d ≤ pattern v d := by
  unfold pattern
  rcases Nat.lt_or_eq_of_le (scale_mono (Nat.div_le_div_right huv : u / d ≤ v / d)) with hlt | heq
  · have hsmall : significand u d ≤ 2 ^ 24 := significand_le u hd
    have hlarge : 2 ^ 23 ≤ significand v d := le_significand hd (by omega)
    omega
  · have hle : significand u d ≤ significand v d := by
      unfold significand
      rw [heq]
      exact roundHalfEven_mono huv
    omega

theorem nearestBits_mono (hd : 0 < d) (hmn : m ≤ n) : nearestBits m d ≤ nearestBits n d :=
  pattern_mono hd (Nat.mul_le_mul_right _ hmn)

theorem nearestBits_self (hn : 0 < n) : nearestBits n n = one.bits.toNat := by
  rw [nearestBits_eq, pattern, significand, Nat.mul_comm n, Nat.mul_div_cancel _ hn]
  have hscale : scale (Nat.pow 2 149) = 126 := by decide +kernel
  have hpow : Nat.pow 2 149 = 2 ^ 23 * 2 ^ 126 := by decide +kernel
  rw [hscale, hpow, Nat.mul_assoc, Nat.mul_comm _ n, roundHalfEven_mul _ (Nat.mul_pos hn (Nat.two_pow_pos _))]
  decide +kernel

end Nearest

/-! ## Patterns -/

section Units

variable {x y : Single}

theorem mantissa_lt (x : Single) : x.mantissa < 2 ^ 23 := Nat.mod_lt _ (by decide)

theorem exponent_eq (hx : x.bits.toNat < 2 ^ 31) : x.exponent = x.bits.toNat / 2 ^ 23 := by
  have hlt : x.bits.toNat / 2 ^ 23 < 2 ^ 8 := by omega
  exact Nat.mod_eq_of_lt hlt

theorem units_lt (x : Single) : x.units < 2 ^ 23 * 2 ^ x.exponent := by
  have hm : x.mantissa < 2 ^ 23 := mantissa_lt x
  unfold units
  split
  · rename_i he
    rwa [he]
  · rename_i he
    have hpow : 2 ^ x.exponent = 2 * 2 ^ (x.exponent - 1) := by
      rw [← Nat.pow_succ', Nat.succ_eq_add_one, Nat.sub_add_cancel (by omega)]
    calc (2 ^ 23 + x.mantissa) * 2 ^ (x.exponent - 1) < (2 ^ 23 + 2 ^ 23) * 2 ^ (x.exponent - 1) :=
          Nat.mul_lt_mul_of_pos_right (by omega) (Nat.two_pow_pos _)
      _ = 2 ^ 23 * 2 ^ x.exponent := by omega

theorem le_units (hx : 0 < x.exponent) : 2 ^ 23 * 2 ^ (x.exponent - 1) ≤ x.units := by
  rw [units, if_neg (by omega)]
  exact Nat.mul_le_mul_right _ (Nat.le_add_right _ _)

/-- Below the sign bit a larger pattern is a larger number. -/
theorem units_mono (hy : y.bits.toNat < 2 ^ 31) (hxy : x.bits ≤ y.bits) : x.units ≤ y.units := by
  have hle : x.bits.toNat ≤ y.bits.toNat := UInt32.le_iff_toNat_le.mp hxy
  have hex : x.exponent = x.bits.toNat / 2 ^ 23 := exponent_eq (by omega)
  have hey : y.exponent = y.bits.toNat / 2 ^ 23 := exponent_eq hy
  rcases Nat.lt_or_eq_of_le (hex ▸ hey ▸ Nat.div_le_div_right hle : x.exponent ≤ y.exponent) with hlt | heq
  · calc x.units ≤ 2 ^ 23 * 2 ^ x.exponent := Nat.le_of_lt (units_lt x)
      _ ≤ 2 ^ 23 * 2 ^ (y.exponent - 1) := Nat.mul_le_mul_left _ (Nat.pow_le_pow_right (by decide) (by omega))
      _ ≤ y.units := le_units (by omega)
  · have hm : x.mantissa ≤ y.mantissa := by
      show x.bits.toNat % 2 ^ 23 ≤ y.bits.toNat % 2 ^ 23
      omega
    unfold units
    rw [heq]
    split
    · exact hm
    · exact Nat.mul_le_mul_right _ (Nat.add_le_add_left hm _)

end Units

/-! ## Fractions -/

section Quotient

variable {a b c m n d : Nat}

theorem toNat_nearest (hbits : nearestBits n d < 2 ^ 32) : (nearest n d).bits.toNat = nearestBits n d :=
  UInt32.toNat_ofNat_of_lt hbits

/-- No count leaves the range of single precision. -/
theorem nearestBits_count_lt (hn : n < 2 ^ 64) : nearestBits n 1 < 2 ^ 31 :=
  calc nearestBits n 1 ≤ nearestBits (2 ^ 64) 1 := nearestBits_mono Nat.one_pos (Nat.le_of_lt hn)
    _ < 2 ^ 31 := by decide +kernel

theorem units_ofNat_mono (hab : a ≤ b) (hb : b < 2 ^ 64) : (ofNat a).units ≤ (ofNat b).units := by
  have hbits := nearestBits_count_lt hb
  have hle : nearestBits a 1 ≤ nearestBits b 1 := nearestBits_mono Nat.one_pos hab
  refine units_mono ?_ (UInt32.le_iff_toNat_le.mpr ?_)
  · rw [ofNat, toNat_nearest (by omega)]
    exact hbits
  · rw [ofNat, ofNat, toNat_nearest (by omega), toNat_nearest (by omega)]
    exact hle

theorem units_ofNat_pos (hb : 0 < b) (hlt : b < 2 ^ 64) : 0 < (ofNat b).units :=
  calc 0 < (ofNat 1).units := by decide +kernel
    _ ≤ (ofNat b).units := units_ofNat_mono hb hlt

/-- The fraction of a count by one that is no smaller, and positive. -/
theorem toNat_quotient (hab : a ≤ b) (hb : 0 < b) (hlt : b < 2 ^ 64) : (quotient a b).bits.toNat =
    nearestBits (ofNat a).units (ofNat b).units ∧ (quotient a b).bits.toNat ≤ one.bits.toNat := by
  have hpos : 0 < (ofNat b).units := units_ofNat_pos hb hlt
  have hone : nearestBits (ofNat a).units (ofNat b).units ≤ one.bits.toNat := by
    rw [← nearestBits_self hpos]
    exact nearestBits_mono hpos (units_ofNat_mono hab hlt)
  have heq : (quotient a b).bits.toNat = nearestBits (ofNat a).units (ofNat b).units :=
    toNat_nearest (Nat.lt_of_le_of_lt hone one.bits.toNat_lt)
  exact ⟨heq, heq ▸ hone⟩

theorem quotient_le_one (hab : a ≤ b) (hb : 0 < b) (hlt : b < 2 ^ 64) : (quotient a b).bits ≤ one.bits :=
  UInt32.le_iff_toNat_le.mpr (toNat_quotient hab hb hlt).2

/-- A fraction grows with its numerator. -/
theorem quotient_mono (hab : a ≤ b) (hbc : b ≤ c) (hc : 0 < c) (hlt : c < 2 ^ 64) :
    (quotient a c).bits ≤ (quotient b c).bits := by
  rw [UInt32.le_iff_toNat_le, (toNat_quotient (Nat.le_trans hab hbc) hc hlt).1, (toNat_quotient hbc hc hlt).1]
  exact nearestBits_mono (units_ofNat_pos hc hlt) (units_ofNat_mono hab (Nat.lt_of_le_of_lt hbc hlt))

end Quotient

section Portion

variable {x y : Single} {span : Nat}

@[simp] theorem portion_one (span : Nat) : portion span one = span := by
  have hnumber : (one.isNaN || one.isNegative) = false := by decide +kernel
  rw [portion, hnumber, if_neg Bool.false_ne_true, if_pos (UInt32.le_refl _)]

/-- A whole number of a byte is a single. -/
theorem units_nearest_whole (hspan : span < 256) :
    (nearest (span * Nat.pow 2 149) (Nat.pow 2 149)).units = span * Nat.pow 2 149 := by
  have hall : ∀ n < 256, (nearest (n * Nat.pow 2 149) (Nat.pow 2 149)).units =
      n * Nat.pow 2 149 := by decide +kernel
  exact hall span hspan

theorem toNat_lt_one (hx : x.bits < one.bits) : x.bits.toNat < 127 * 2 ^ 23 := UInt32.lt_iff_toNat_lt.mp hx

theorem portion_of_lt_one (hx : x.bits < one.bits) :
    portion span x = (nearest (span * x.units) (Nat.pow 2 149)).units / Nat.pow 2 149 := by
  have hlt := toNat_lt_one hx
  have hexponent : x.exponent ≠ 255 := by
    rw [exponent_eq (by omega)]
    omega
  have hsign : x.isNegative = false := decide_eq_false (by simp only [Nat.pow_eq]; omega)
  rw [portion, if_neg (by simp [isNaN, hexponent, hsign]), if_neg (UInt32.not_le.mpr hx)]

theorem units_le_one (hx : x.bits ≤ one.bits) : x.units ≤ Nat.pow 2 149 :=
  calc x.units ≤ one.units := units_mono (by decide) hx
    _ = Nat.pow 2 149 := by decide +kernel

/-- Products of a byte and a fraction keep their order when they are rounded. -/
theorem units_product_mono {u v : Nat} (huv : u ≤ v) (hv : v ≤ 255 * Nat.pow 2 149) :
    (nearest u (Nat.pow 2 149)).units ≤ (nearest v (Nat.pow 2 149)).units := by
  have hpos : 0 < Nat.pow 2 149 := Nat.two_pow_pos 149
  have hle : nearestBits u (Nat.pow 2 149) ≤ nearestBits v (Nat.pow 2 149) := nearestBits_mono hpos huv
  have hlt : nearestBits v (Nat.pow 2 149) < 2 ^ 31 :=
    calc nearestBits v (Nat.pow 2 149) ≤ nearestBits (255 * Nat.pow 2 149) (Nat.pow 2 149) :=
          nearestBits_mono hpos hv
      _ < 2 ^ 31 := by decide +kernel
  refine units_mono ?_ (UInt32.le_iff_toNat_le.mpr ?_)
  · rwa [toNat_nearest (by omega)]
  · rwa [toNat_nearest (by omega), toNat_nearest (by omega)]

/-- A portion is at most the span, whatever it is a portion by. -/
theorem portion_le (hspan : span < 256) (x : Single) : portion span x ≤ span := by
  by_cases hlt : x.bits < one.bits
  · have hproduct : span * x.units ≤ span * Nat.pow 2 149 :=
      Nat.mul_le_mul_left span (units_le_one (UInt32.le_of_lt hlt))
    have hwhole : span * Nat.pow 2 149 ≤ 255 * Nat.pow 2 149 := Nat.mul_le_mul_right _ (by omega)
    have hunits := units_product_mono hproduct hwhole
    rw [units_nearest_whole hspan, Nat.mul_comm span (Nat.pow 2 149)] at hunits
    rw [portion_of_lt_one hlt]
    exact Nat.div_le_of_le_mul hunits
  · unfold portion
    split
    · exact Nat.zero_le _
    · exact Nat.le_of_eq (if_pos (UInt32.not_lt.mp hlt))

/-- The portion of a span grows with the fraction. -/
theorem portion_mono (hspan : span < 256) (hy : y.bits ≤ one.bits) (hxy : x.bits ≤ y.bits) :
    portion span x ≤ portion span y := by
  rcases UInt32.lt_or_eq_of_le hy with hlt | heq
  · rw [portion_of_lt_one hlt, portion_of_lt_one (UInt32.lt_of_le_of_lt hxy hlt)]
    refine Nat.div_le_div_right (units_product_mono ?_ ?_)
    · exact Nat.mul_le_mul_left span (units_mono (Nat.lt_trans (toNat_lt_one hlt) (by decide)) hxy)
    · exact Nat.mul_le_mul (by omega) (units_le_one hy)
  · obtain rfl : y = one := congrArg Single.mk heq
    rw [portion_one]
    exact portion_le hspan x

end Portion

end Single

end Reflash
