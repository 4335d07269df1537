import Mathlib
import Tabletop.Number.Scaled

/-!
# The nearest double

What `nearestBits` does to the value of a fraction, with values as rational numbers. A fraction that
is the value of a double gives the bits of that double back (`nearestBits_of_value`); and the bits
of powers of two bound the bits of what is below or above them, which is all that is needed to see
that a reading is finite.
-/

namespace Tabletop

/-! ## Fractions and powers of two -/

theorem leadingBit_eq : leadingBit = 2 ^ 52 := rfl

theorem shiftLeft_pos {den : Nat} (hden : 0 < den) (k : Nat) : 0 < den <<< k := by
  rw [Nat.shiftLeft_eq]
  positivity

/-- Shifting one side or the other divides a fraction by a power of two. -/
theorem shiftLeft_div_shiftLeft (num den : Nat) (e : Int) :
    ((num <<< (-e).toNat : Nat) : ℚ) / (den <<< e.toNat : Nat) = num / den / 2 ^ e := by
  rw [Nat.shiftLeft_eq, Nat.shiftLeft_eq]
  rcases Int.le_total 0 e with he | he
  · obtain ⟨k, rfl⟩ := Int.eq_ofNat_of_zero_le he
    have hneg : (-(k : Int)).toNat = 0 := by omega
    rw [hneg, Int.toNat_natCast, zpow_natCast, pow_zero, mul_one, div_div]
    push_cast
    rfl
  · obtain ⟨k, hk⟩ := Int.eq_ofNat_of_zero_le (Int.neg_nonneg_of_nonpos he)
    obtain rfl : e = -(k : Int) := by omega
    have hneg : (-(k : Int)).toNat = 0 := by omega
    rw [neg_neg, hneg, Int.toNat_natCast, zpow_neg, zpow_natCast, pow_zero, mul_one, div_inv_eq_mul]
    push_cast
    ring

/-- Comparing with a power of two is comparing naturals, shifted to one side or the other. -/
theorem shiftLeft_lt_iff {num den : Nat} (hden : 0 < den) (e : Int) :
    num <<< (-e).toNat < den <<< e.toNat ↔ (num : ℚ) / den < 2 ^ e := by
  have hden' : (0 : ℚ) < (den <<< e.toNat : Nat) := by exact_mod_cast shiftLeft_pos hden _
  have hpow : (0 : ℚ) < 2 ^ e := by positivity
  rw [← div_lt_one hpow, ← shiftLeft_div_shiftLeft, div_lt_one hden', Nat.cast_lt]

/-- **The binary logarithm of a fraction.** -/
theorem ratioLog2_spec {num den : Nat} (hnum : 0 < num) (hden : 0 < den) :
    (2 : ℚ) ^ ratioLog2 num den ≤ num / den ∧ (num : ℚ) / den < 2 ^ (ratioLog2 num den + 1) := by
  have hden' : (0 : ℚ) < den := by exact_mod_cast hden
  have hnum₁ : ((2 : ℚ) ^ num.log2) ≤ num := by exact_mod_cast Nat.log2_self_le hnum.ne'
  have hnum₂ : (num : ℚ) < 2 ^ (num.log2 + 1) := by exact_mod_cast Nat.lt_log2_self
  have hden₁ : ((2 : ℚ) ^ den.log2) ≤ den := by exact_mod_cast Nat.log2_self_le hden.ne'
  have hden₂ : (den : ℚ) < 2 ^ (den.log2 + 1) := by exact_mod_cast Nat.lt_log2_self
  -- the logarithms of the two sides leave two powers of two to choose from
  have hlow : (2 : ℚ) ^ ((num.log2 : Int) - den.log2 - 1) ≤ num / den := by
    rw [le_div_iff₀ hden']
    calc (2 : ℚ) ^ ((num.log2 : Int) - den.log2 - 1) * den
        ≤ 2 ^ ((num.log2 : Int) - den.log2 - 1) * 2 ^ (den.log2 + 1) := by gcongr
      _ = 2 ^ num.log2 := by
        rw [← zpow_natCast, ← zpow_natCast, ← zpow_add₀ two_ne_zero]
        congr 1
        push_cast
        ring
      _ ≤ num := hnum₁
  have hhigh : (num : ℚ) / den < 2 ^ ((num.log2 : Int) - den.log2 + 1) := by
    rw [div_lt_iff₀ hden']
    calc (num : ℚ) < 2 ^ (num.log2 + 1) := hnum₂
      _ = 2 ^ ((num.log2 : Int) - den.log2 + 1) * 2 ^ den.log2 := by
        rw [← zpow_natCast, ← zpow_natCast, ← zpow_add₀ two_ne_zero]
        congr 1
        push_cast
        ring
      _ ≤ 2 ^ ((num.log2 : Int) - den.log2 + 1) * den := by gcongr
  rw [ratioLog2]
  -- and one comparison decides between them
  by_cases hlt : num <<< (-((num.log2 : Int) - den.log2)).toNat <
      den <<< ((num.log2 : Int) - den.log2).toNat
  · simp only [if_pos hlt]
    refine ⟨hlow, ?_⟩
    rw [sub_add_cancel]
    exact (shiftLeft_lt_iff hden _).mp hlt
  · simp only [if_neg hlt]
    exact ⟨not_lt.mp fun hc ↦ hlt ((shiftLeft_lt_iff hden _).mpr hc), hhigh⟩

theorem ratioLog2_eq {num den : Nat} (hnum : 0 < num) (hden : 0 < den) {e : Int}
    (hle : (2 : ℚ) ^ e ≤ num / den) (hlt : (num : ℚ) / den < 2 ^ (e + 1)) :
    ratioLog2 num den = e := by
  obtain ⟨hle', hlt'⟩ := ratioLog2_spec hnum hden
  have h₁ := (zpow_lt_zpow_iff_right₀ (one_lt_two (α := ℚ))).mp (hle.trans_lt hlt')
  have h₂ := (zpow_lt_zpow_iff_right₀ (one_lt_two (α := ℚ))).mp (hle'.trans_lt hlt)
  omega

/-! ## The value of a double -/

namespace Magnitude

/-- The value as a rational number. -/
def value (v : Magnitude) : ℚ := v.significand * 2 ^ v.exponent

theorem den_pos (v : Magnitude) : 0 < v.den := by
  rw [den, Nat.shiftLeft_eq]
  positivity

theorem num_div_den (v : Magnitude) : (v.num : ℚ) / v.den = v.value := by
  rw [num, den, value, Nat.shiftLeft_eq, Nat.shiftLeft_eq]
  rcases Int.le_total 0 v.exponent with he | he
  · obtain ⟨k, hk⟩ := Int.eq_ofNat_of_zero_le he
    have hneg : (-(k : Int)).toNat = 0 := by omega
    rw [hk, hneg, Int.toNat_natCast, zpow_natCast]
    push_cast
    ring
  · obtain ⟨k, hk⟩ := Int.eq_ofNat_of_zero_le (Int.neg_nonneg_of_nonpos he)
    have he' : v.exponent = -(k : Int) := by omega
    have hneg : (-(k : Int)).toNat = 0 := by omega
    rw [he', neg_neg, hneg, Int.toNat_natCast, zpow_neg, zpow_natCast]
    push_cast
    ring

theorem value_lt (v : Magnitude) {k : Nat} (h : v.significand < 2 ^ k) :
    v.value < 2 ^ (v.exponent + k) := by
  have h' : (v.significand : ℚ) < 2 ^ k := by exact_mod_cast h
  rw [value, add_comm, zpow_add₀ two_ne_zero, zpow_natCast]
  gcongr

theorem le_value (v : Magnitude) {k : Nat} (h : 2 ^ k ≤ v.significand) :
    2 ^ (v.exponent + k) ≤ v.value := by
  have h' : (2 : ℚ) ^ k ≤ v.significand := by exact_mod_cast h
  rw [value, add_comm, zpow_add₀ two_ne_zero, zpow_natCast]
  gcongr

variable {b m : Nat}

theorem significand_lt (b : Nat) : (ofBits b).significand < 2 ^ 53 := by
  rw [ofBits]
  split
  · rename_i h
    rw [leadingBit_eq] at h
    exact h.trans (by norm_num)
  · simp only [leadingBit_eq]
    omega

/-- The bits of normal numbers: the significand has all its digits. -/
theorem ofBits_of_le (h : leadingBit ≤ b) :
    ∃ f, f < 2 ^ 52 ∧ b = (b / 2 ^ 52) * 2 ^ 52 + f ∧ 1 ≤ b / 2 ^ 52 ∧
      ofBits b = ⟨2 ^ 52 + f, (b / 2 ^ 52 : Nat) - 1075⟩ := by
  refine ⟨b % 2 ^ 52, Nat.mod_lt _ (by norm_num), (Nat.div_add_mod' b _).symm, ?_, ?_⟩
  · rw [leadingBit_eq] at h
    omega
  · rw [ofBits, if_neg (not_lt.mpr h)]
    rfl

/-- The bits of subnormal numbers are their significand. -/
theorem ofBits_of_lt (h : b < leadingBit) : ofBits b = ⟨b, -1074⟩ := if_pos h

theorem significand_pos (h : 0 < b) : 0 < (ofBits b).significand := by
  rw [ofBits]
  split
  · exact h
  · simp only [leadingBit_eq]
    omega

theorem value_pos (h : 0 < b) : 0 < (ofBits b).value := by
  have hsignificand : (0 : ℚ) < (ofBits b).significand := by exact_mod_cast significand_pos h
  rw [value]
  positivity

theorem value_zero : (ofBits 0).value = 0 := by
  rw [ofBits_of_lt (by decide), value, Nat.cast_zero, zero_mul]

/-- Bits are put together from the exponent and the significand. -/
theorem bits_eq (b : Nat) :
    ((ofBits b).exponent + 1074).toNat * leadingBit + (ofBits b).significand = b := by
  rcases lt_or_ge b leadingBit with hsub | hnormal
  · rw [ofBits_of_lt hsub]
    simp
  · obtain ⟨f, hf, hbits, hone, hof⟩ := ofBits_of_le hnormal
    rw [hof, leadingBit_eq]
    have hplace : ((b / 2 ^ 52 : Nat) - 1075 + 1074 : Int).toNat = b / 2 ^ 52 - 1 := by omega
    dsimp only
    rw [hplace]
    omega

end Magnitude

/-! ## Rounding -/

theorem roundHalfEven_mul (n : Nat) {den : Nat} (hden : 0 < den) :
    roundHalfEven (n * den) den = n := by
  rw [roundHalfEven]
  simp only [Nat.mul_mod_left, Nat.mul_div_cancel _ hden]
  rw [if_pos (by omega)]

theorem roundHalfEven_le (num den : Nat) : roundHalfEven num den ≤ num / den + 1 := by
  rw [roundHalfEven]
  split
  · exact Nat.le_succ _
  · split
    · exact le_refl _
    · have : num / den % 2 < 2 := Nat.mod_lt _ two_pos
      omega

theorem le_roundHalfEven (num den : Nat) : num / den ≤ roundHalfEven num den := by
  rw [roundHalfEven]
  split
  · exact le_refl _
  · split
    · exact Nat.le_succ _
    · exact Nat.le_add_right _ _

/-- The unit in the last place of what a fraction is rounded to. -/
def lastPlace (num den : Nat) : Int := max (ratioLog2 num den - 52) (-1074)

/-- The digits of a fraction that are kept, in units of the last place. -/
def keptDigits (num den : Nat) : Nat :=
  roundHalfEven (num <<< (-lastPlace num den).toNat) (den <<< (lastPlace num den).toNat)

theorem nearestBits_of_pos {num den : Nat} (hnum : 0 < num) :
    nearestBits num den =
      min ((lastPlace num den + 1074).toNat * leadingBit + keptDigits num den) infinityBits := by
  rw [nearestBits, if_neg hnum.ne']
  rfl

/-- A fraction that is a multiple of its last place is not rounded. -/
theorem keptDigits_eq {num den n : Nat} (hden : 0 < den)
    (h : (num : ℚ) / den = n * 2 ^ lastPlace num den) : keptDigits num den = n := by
  rw [keptDigits]
  generalize lastPlace num den = u at h ⊢
  have hpow : (2 : ℚ) ^ u ≠ 0 := by positivity
  have hden' : ((den <<< u.toNat : Nat) : ℚ) ≠ 0 := by exact_mod_cast (shiftLeft_pos hden _).ne'
  have hshift : num <<< (-u).toNat = n * den <<< u.toNat := by
    have hquotient := shiftLeft_div_shiftLeft num den u
    rw [h, mul_div_cancel_right₀ _ hpow, div_eq_iff hden'] at hquotient
    exact_mod_cast hquotient
  rw [hshift]
  exact roundHalfEven_mul n (shiftLeft_pos hden _)

/-- The last place of the value of a double is its exponent. -/
theorem lastPlace_of_value {num den b : Nat} (hnum : 0 < num) (hden : 0 < den)
    (h : (num : ℚ) / den = (Magnitude.ofBits b).value) :
    lastPlace num den = (Magnitude.ofBits b).exponent := by
  rw [lastPlace]
  rcases lt_or_ge b leadingBit with hsub | hnormal
  · -- subnormal numbers: the place cannot be lower
    rw [Magnitude.ofBits_of_lt hsub] at h ⊢
    have hlt : (num : ℚ) / den < 2 ^ (-1074 + (52 : Nat) : Int) :=
      h ▸ Magnitude.value_lt ⟨b, -1074⟩ hsub
    have hlog := (zpow_lt_zpow_iff_right₀ (one_lt_two (α := ℚ))).mp
      ((ratioLog2_spec hnum hden).1.trans_lt hlt)
    exact max_eq_right (by omega)
  · -- normal numbers: the leading bit tells the logarithm
    obtain ⟨f, hf, hbits, hone, hof⟩ := Magnitude.ofBits_of_le hnormal
    rw [hof] at h ⊢
    have hlow : (2 : ℚ) ^ ((b / 2 ^ 52 : Nat) - 1075 + (52 : Nat) : Int) ≤ num / den :=
      h ▸ Magnitude.le_value ⟨2 ^ 52 + f, _⟩ (Nat.le_add_right _ _)
    have hhigh : (num : ℚ) / den < 2 ^ ((b / 2 ^ 52 : Nat) - 1075 + (53 : Nat) : Int) :=
      h ▸ Magnitude.value_lt ⟨2 ^ 52 + f, _⟩ (by dsimp only; omega)
    have hlog : ratioLog2 num den = (b / 2 ^ 52 : Nat) - 1075 + (52 : Nat) :=
      ratioLog2_eq hnum hden hlow (hhigh.trans_eq (congrArg (2 ^ ·) (by omega)))
    rw [hlog]
    dsimp only
    omega

/-- **Doubles are not rounded.** A fraction that is the value of a finite double gives its bits. -/
theorem nearestBits_of_value {num den b : Nat} (hden : 0 < den) (hb : b < infinityBits)
    (h : (num : ℚ) / den = (Magnitude.ofBits b).value) : nearestBits num den = b := by
  have hden' : (den : ℚ) ≠ 0 := by exact_mod_cast hden.ne'
  rcases Nat.eq_zero_or_pos b with rfl | hpos
  · rw [Magnitude.value_zero, div_eq_zero_iff, or_iff_left hden', Nat.cast_eq_zero] at h
    rw [nearestBits, if_pos h]
  · have hvalue : 0 < (num : ℚ) / den := h ▸ Magnitude.value_pos hpos
    have hnum : 0 < num := Nat.pos_of_ne_zero fun hzero ↦ by simp [hzero] at hvalue
    have hplace := lastPlace_of_value hnum hden h
    have hkept : keptDigits num den = (Magnitude.ofBits b).significand :=
      keptDigits_eq hden (by rw [hplace, h, Magnitude.value])
    rw [nearestBits_of_pos hnum, hkept, hplace, Magnitude.bits_eq, min_eq_left hb.le]

/-! ## Bounds -/

section Bounds

variable {num den b m : Nat}

/-- A fraction below a power of two is not rounded beyond it. -/
theorem nearestBits_le (hden : 0 < den) (h : (num : ℚ) / den < 2 ^ m) :
    nearestBits num den ≤ (m + 1023) * leadingBit := by
  rcases Nat.eq_zero_or_pos num with rfl | hnum
  · rw [nearestBits, if_pos rfl]
    exact Nat.zero_le _
  obtain ⟨hlow, hhigh⟩ := ratioLog2_spec hnum hden
  have hlog : ratioLog2 num den < m := by
    rw [← zpow_natCast] at h
    exact (zpow_lt_zpow_iff_right₀ (one_lt_two (α := ℚ))).mp (hlow.trans_lt h)
  -- rounding may carry into one more digit, but no further
  have hkept : keptDigits num den ≤ 2 ^ 53 := by
    have hlt : num <<< (-lastPlace num den).toNat / den <<< (lastPlace num den).toNat < 2 ^ 53 := by
      rw [Nat.div_lt_iff_lt_mul (shiftLeft_pos hden _)]
      have hden' : (0 : ℚ) < (den <<< (lastPlace num den).toNat : Nat) := by
        exact_mod_cast shiftLeft_pos hden _
      have hquotient := shiftLeft_div_shiftLeft num den (lastPlace num den)
      have hsmall : (num : ℚ) / den / 2 ^ lastPlace num den < 2 ^ 53 := by
        rw [div_lt_iff₀ (by positivity), ← zpow_natCast, ← zpow_add₀ two_ne_zero]
        refine hhigh.trans_le (zpow_le_zpow_right₀ one_le_two ?_)
        rw [lastPlace]
        omega
      rw [← hquotient, div_lt_iff₀ hden'] at hsmall
      exact_mod_cast hsmall
    exact (roundHalfEven_le _ _).trans hlt
  rw [nearestBits_of_pos hnum]
  refine (min_le_left _ _).trans ?_
  -- with that digit it is still the bits of the power of two at most
  have hplace : (lastPlace num den + 1074).toNat ≤ m + 1021 := by
    rw [lastPlace]
    omega
  rw [leadingBit_eq]
  omega

/-- A fraction that is not below a power of two is not rounded below it. -/
theorem le_nearestBits_of_pow_le (hden : 0 < den) (hm : m ≤ 1024) (h : 2 ^ m ≤ (num : ℚ) / den) :
    (m + 1023) * leadingBit ≤ nearestBits num den := by
  have hnum : 0 < num := Nat.pos_of_ne_zero fun hzero ↦ by
    rw [hzero, Nat.cast_zero, zero_div] at h
    exact absurd h (not_le.mpr (by positivity))
  obtain ⟨hlow, hhigh⟩ := ratioLog2_spec hnum hden
  have hlog : (m : Int) ≤ ratioLog2 num den := by
    have hlt := h.trans_lt hhigh
    rw [← zpow_natCast] at hlt
    have := (zpow_lt_zpow_iff_right₀ (one_lt_two (α := ℚ))).mp hlt
    omega
  have hplace : lastPlace num den = ratioLog2 num den - 52 := max_eq_left (by omega)
  have hkept : 2 ^ 52 ≤ keptDigits num den := by
    have hle : 2 ^ 52 ≤ num <<< (-lastPlace num den).toNat / den <<< (lastPlace num den).toNat := by
      rw [Nat.le_div_iff_mul_le (shiftLeft_pos hden _)]
      have hden' : (0 : ℚ) < (den <<< (lastPlace num den).toNat : Nat) := by
        exact_mod_cast shiftLeft_pos hden _
      have hquotient := shiftLeft_div_shiftLeft num den (lastPlace num den)
      have hlarge : (2 : ℚ) ^ 52 ≤ num / den / 2 ^ lastPlace num den := by
        rw [le_div_iff₀ (by positivity), ← zpow_natCast, ← zpow_add₀ two_ne_zero, hplace]
        exact hlow.trans_eq' (by congr 1; push_cast; ring)
      rw [← hquotient, le_div_iff₀ hden'] at hlarge
      exact_mod_cast hlarge
    exact hle.trans (le_roundHalfEven _ _)
  have hexponent : m + 1022 ≤ (lastPlace num den + 1074).toNat := by omega
  rw [nearestBits_of_pos hnum]
  refine le_min ?_ (Nat.mul_le_mul_right _ (by omega))
  calc (m + 1023) * leadingBit = (m + 1022) * leadingBit + 2 ^ 52 := by rw [leadingBit_eq]; ring
    _ ≤ (lastPlace num den + 1074).toNat * leadingBit + keptDigits num den :=
      Nat.add_le_add (Nat.mul_le_mul_right _ hexponent) hkept

/-- A fraction of one or more is not rounded below one. -/
theorem le_nearestBits (hden : 0 < den) (h : den ≤ num) :
    1023 * leadingBit ≤ nearestBits num den := by
  have hden' : (0 : ℚ) < den := by exact_mod_cast hden
  have hone : (2 : ℚ) ^ 0 ≤ num / den := by
    rw [pow_zero, one_le_div hden']
    exact_mod_cast h
  have hle := le_nearestBits_of_pow_le hden (Nat.zero_le _) hone
  rwa [Nat.zero_add] at hle

/-- The bits of a power of two bound the values of the bits below. -/
theorem value_lt_of_le (h : b ≤ (m + 1023) * leadingBit) :
    (Magnitude.ofBits b).value < 2 ^ (m + 1) := by
  refine (Magnitude.value_lt _ (Magnitude.significand_lt b)).trans_le ?_
  rw [← zpow_natCast]
  refine zpow_le_zpow_right₀ one_le_two ?_
  rw [Magnitude.ofBits]
  rw [leadingBit_eq] at h ⊢
  split
  · dsimp only
    omega
  · dsimp only
    omega

theorem one_le_value (h : 1023 * leadingBit ≤ b) : 1 ≤ (Magnitude.ofBits b).value := by
  have hnormal : leadingBit ≤ b := by
    rw [leadingBit_eq] at h ⊢
    omega
  obtain ⟨f, hf, hbits, hone, hof⟩ := Magnitude.ofBits_of_le hnormal
  rw [hof]
  have hlow := Magnitude.le_value ⟨2 ^ 52 + f, ((b / 2 ^ 52 : Nat) : Int) - 1075⟩ (k := 52)
    (Nat.le_add_right _ _)
  refine le_trans ?_ hlow
  rw [leadingBit_eq] at h
  exact one_le_zpow₀ one_le_two (by dsimp only; omega)

end Bounds

end Tabletop
