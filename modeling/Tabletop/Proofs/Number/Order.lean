import Tabletop.Condition
import Tabletop.Event
import Tabletop.Proofs.Number.Bits
import Tabletop.Proofs.Number.Nearest

/-!
# The order of doubles

The bits of doubles that are not negative are ordered as the doubles are (`compare_unpack`). The
exponent comes before the significand in both, and where the exponent is the same the significands
decide; the subnormal numbers share the exponent of the smallest normal ones and lie below them,
since they lack the leading bit.

Natural numbers up to `2 ^ 53` are doubles, and beyond that they are rounded, but never below
`2 ^ 53`. So a natural number compares with one below `2 ^ 53` as the doubles nearest to them do
(`Comparator.compare_ofInt`): whoever counts in doubles counts right, as long as one side is small.
-/

namespace Tabletop

open Float.Model (Format)
open Float.Model.UnpackedFloat

/-! ## Bits without a sign -/

section Unpack

variable {a b : BitVec Format.binary64.numBits}

theorem unpackSign_of_lt (h : b.toNat < 2 ^ 63) : Sign.ofBitVec (unpackSign b) = .positive := by
  have hzero : unpackSign b = 0#1 := BitVec.eq_of_toNat_eq (by
    rw [toNat_unpackSign, Nat.div_eq_of_lt h]
    rfl)
  rw [hzero]
  rfl

theorem unpack_zero (h : b.toNat = 0) : unpack Format.binary64 b = .zero .positive := by
  obtain rfl : b = 0 := BitVec.eq_of_toNat_eq h
  rfl

theorem unpack_infinity (h : b.toNat = infinityBits) :
    unpack Format.binary64 b = .infinity .positive := by
  obtain rfl : b = BitVec.ofNat 64 infinityBits := BitVec.eq_of_toNat_eq h
  rfl

/-- What is read off the bits of a positive double are the parts of its magnitude. -/
theorem unpack_finite (hpos : 0 < b.toNat) (h : b.toNat < infinityBits) :
    unpack Format.binary64 b = .finite .positive (Magnitude.ofBits b.toNat).significand
      (Magnitude.ofBits b.toNat).exponent (Magnitude.significand_pos hpos) := by
  have hlt : b.toNat < 2 ^ 63 := h.trans (by decide)
  have hexponent : (unpackExponent b).toNat = b.toNat / 2 ^ 52 := by
    rw [toNat_unpackExponent]
    omega
  have hmantissa := toNat_unpackMantissa b
  have hnotFull : unpackExponent b ≠ -1#11 := by
    intro hfull
    have hfull := unpackExponent_eq_full_iff.mp hfull
    rw [Number.infinityBits_eq] at h
    omega
  rw [unpack]
  simp only [if_neg hnotFull, unpackSign_of_lt hlt]
  rcases lt_or_ge b.toNat leadingBit with hsub | hnormal
  · -- subnormal numbers
    rw [leadingBit_eq] at hsub
    have hempty : unpackExponent b = 0#11 := BitVec.eq_of_toNat_eq (by
      rw [hexponent, Nat.div_eq_of_lt hsub]
      rfl)
    have hnonzero : unpackMantissa b ≠ 0#52 := by
      intro hzero
      rw [hzero, Nat.mod_eq_of_lt hsub] at hmantissa
      exact hpos.ne hmantissa
    have hof := Magnitude.ofBits_of_lt (b := b.toNat) hsub
    simp only [dif_neg hnonzero, hof, hmantissa, Nat.mod_eq_of_lt hsub, hempty]
    rfl
  · -- normal numbers
    obtain ⟨f, hf, hbits, hone, hof⟩ := Magnitude.ofBits_of_le hnormal
    have hnotEmpty : unpackExponent b ≠ 0#11 := by
      intro hempty
      rw [hempty] at hexponent
      exact absurd (hexponent ▸ hone) (by decide)
    have hsignificand : (1#1 ++ unpackMantissa b).toNat = 2 ^ 52 + f := by
      have hsmall : (unpackMantissa b).toNat < 2 ^ 52 := (unpackMantissa b).isLt
      rw [BitVec.toNat_append, ← Nat.shiftLeft_add_eq_or_of_lt hsmall]
      change 2 ^ 52 + (unpackMantissa b).toNat = 2 ^ 52 + f
      omega
    simp only [if_neg hnotEmpty, hof, hsignificand, hexponent]
    rfl

/-- Bits without a sign, up to those of infinity, are those of zero, of a positive double or of
infinity. -/
theorem unpack_cases (h : b.toNat ≤ infinityBits) :
    (b.toNat = 0 ∧ unpack Format.binary64 b = .zero .positive) ∨
      (∃ hpos : 0 < b.toNat, b.toNat < infinityBits ∧
        unpack Format.binary64 b = .finite .positive (Magnitude.ofBits b.toNat).significand
          (Magnitude.ofBits b.toNat).exponent (Magnitude.significand_pos hpos)) ∨
      (b.toNat = infinityBits ∧ unpack Format.binary64 b = .infinity .positive) := by
  rcases Nat.eq_zero_or_pos b.toNat with hzero | hpos
  · exact .inl ⟨hzero, unpack_zero hzero⟩
  · rcases h.lt_or_eq with hlt | heq
    · exact .inr (.inl ⟨hpos, hlt, unpack_finite hpos hlt⟩)
    · exact .inr (.inr ⟨heq, unpack_infinity heq⟩)

/-- The exponents decide, and where they are the same, the significands. -/
theorem magnitude_lt_of_lt {m n : Nat} (h : m < n) :
    (Magnitude.ofBits m).exponent < (Magnitude.ofBits n).exponent ∨
      (Magnitude.ofBits m).exponent = (Magnitude.ofBits n).exponent ∧
        (Magnitude.ofBits m).significand < (Magnitude.ofBits n).significand := by
  rcases lt_or_ge n leadingBit with hn | hn
  · rw [Magnitude.ofBits_of_lt hn, Magnitude.ofBits_of_lt (h.trans hn)]
    exact .inr ⟨rfl, h⟩
  · obtain ⟨f, hf, hbits, hone, hof⟩ := Magnitude.ofBits_of_le hn
    rcases lt_or_ge m leadingBit with hm | hm
    · rw [Magnitude.ofBits_of_lt hm, hof]
      rw [leadingBit_eq] at hm
      dsimp only
      omega
    · obtain ⟨g, hg, hbits', hone', hof'⟩ := Magnitude.ofBits_of_le hm
      rw [hof, hof']
      dsimp only
      omega

theorem compare_magnitudes (m n : Nat) :
    (compare (Magnitude.ofBits m).exponent (Magnitude.ofBits n).exponent).then
        (compare (Magnitude.ofBits m).significand (Magnitude.ofBits n).significand) =
      compare m n := by
  rcases lt_trichotomy m n with h | rfl | h
  · rw [compare_lt_iff_lt.mpr h]
    obtain hlt | ⟨heq, hlt⟩ := magnitude_lt_of_lt h
    · rw [compare_lt_iff_lt.mpr hlt]
      rfl
    · rw [compare_eq_iff_eq.mpr heq, compare_lt_iff_lt.mpr hlt]
      rfl
  · simp
  · rw [compare_gt_iff_gt.mpr h]
    obtain hlt | ⟨heq, hlt⟩ := magnitude_lt_of_lt h
    · rw [compare_gt_iff_gt.mpr hlt]
      rfl
    · rw [compare_eq_iff_eq.mpr heq.symm, compare_gt_iff_gt.mpr hlt]
      rfl

/-- **Bits order the doubles that are not negative.** -/
theorem compare_unpack (ha : a.toNat ≤ infinityBits) (hb : b.toNat ≤ infinityBits) :
    (unpack Format.binary64 a).compare (unpack Format.binary64 b) =
      some (compare a.toNat b.toNat) := by
  obtain ⟨ha, hua⟩ | ⟨ha₀, ha, hua⟩ | ⟨ha, hua⟩ := unpack_cases ha <;>
    obtain ⟨hb, hub⟩ | ⟨hb₀, hb, hub⟩ | ⟨hb, hub⟩ := unpack_cases hb <;>
      rw [hua, hub]
  · rw [ha, hb]
    rfl
  · rw [ha, compare_lt_iff_lt.mpr hb₀]
    rfl
  · rw [ha, hb]
    rfl
  · rw [hb, compare_gt_iff_gt.mpr ha₀]
    rfl
  · rw [← compare_magnitudes]
    rfl
  · rw [hb, compare_lt_iff_lt.mpr ha]
    rfl
  · rw [ha, hb]
    rfl
  · rw [ha, compare_gt_iff_gt.mpr hb]
    rfl
  · rw [ha, hb]
    rfl

end Unpack

/-! ## Natural numbers -/

section Natural

variable {m n : Nat}

theorem lastPlace_natural (hn : 0 < n) : lastPlace n 1 = (n.log2 : Int) - 52 := by
  have hlow : ((2 : ℚ) ^ (n.log2 : Int)) ≤ (n : ℚ) / (1 : Nat) := by
    rw [Nat.cast_one, div_one, zpow_natCast]
    exact_mod_cast Nat.log2_self_le hn.ne'
  have hhigh : (n : ℚ) / (1 : Nat) < 2 ^ ((n.log2 : Int) + 1) := by
    rw [Nat.cast_one, div_one]
    exact_mod_cast Nat.lt_log2_self
  rw [lastPlace, ratioLog2_eq hn one_pos hlow hhigh]
  omega

/-- A natural number is moved up until it has fifty-three binary digits. -/
theorem mul_pow_lt (h : n.log2 ≤ 52) : n * 2 ^ (52 - n.log2) < 2 ^ 53 := by
  calc n * 2 ^ (52 - n.log2) < 2 ^ (n.log2 + 1) * 2 ^ (52 - n.log2) := by
        gcongr
        exact Nat.lt_log2_self
    _ = 2 ^ 53 := by
        rw [← pow_add]
        congr 1
        omega

theorem le_mul_pow (hn : 0 < n) (h : n.log2 ≤ 52) : 2 ^ 52 ≤ n * 2 ^ (52 - n.log2) := by
  calc 2 ^ 52 = 2 ^ n.log2 * 2 ^ (52 - n.log2) := by
        rw [← pow_add]
        congr 1
        omega
    _ ≤ n * 2 ^ (52 - n.log2) := by
        gcongr
        exact Nat.log2_self_le hn.ne'

/-- Natural numbers up to `2 ^ 53` are not rounded. -/
theorem nearestBits_natural (hn : 0 < n) (h : n < 2 ^ 53) :
    nearestBits n 1 = (n.log2 + 1022) * 2 ^ 52 + n * 2 ^ (52 - n.log2) := by
  have hlog : n.log2 ≤ 52 := Nat.lt_succ_iff.mp ((Nat.log2_lt hn.ne').mpr h)
  have hkept : keptDigits n 1 = n * 2 ^ (52 - n.log2) := by
    refine keptDigits_eq one_pos ?_
    have hpow : (2 : ℚ) ^ (52 - n.log2) * 2 ^ ((n.log2 : Int) - 52) = 1 := by
      rw [← zpow_natCast, ← zpow_add₀ two_ne_zero, Nat.cast_sub hlog]
      norm_num
    rw [lastPlace_natural hn, Nat.cast_mul, Nat.cast_pow, mul_assoc]
    push_cast
    rw [hpow, mul_one, div_one]
  have hplace : (lastPlace n 1 + 1074).toNat = n.log2 + 1022 := by
    rw [lastPlace_natural hn]
    omega
  have hfinite : (n.log2 + 1022) * 2 ^ 52 + n * 2 ^ (52 - n.log2) ≤ infinityBits := by
    have hsmall := mul_pow_lt hlog
    rw [Number.infinityBits_eq]
    omega
  rw [nearestBits_of_pos hn, hkept, hplace, leadingBit_eq, min_eq_left hfinite]

/-- **Rounding keeps natural numbers apart** and in order, as long as the smaller one is not
rounded. -/
theorem nearestBits_lt (h : m < n) (hm : m < 2 ^ 53) : nearestBits m 1 < nearestBits n 1 := by
  have hn : 0 < n := Nat.zero_lt_of_lt h
  rcases Nat.eq_zero_or_pos m with rfl | hm₀
  · rw [nearestBits, if_pos rfl]
    have hle := le_nearestBits one_pos hn
    rw [leadingBit_eq] at hle
    omega
  have hlogm : m.log2 ≤ 52 := Nat.lt_succ_iff.mp ((Nat.log2_lt hm₀.ne').mpr hm)
  have hsmall := mul_pow_lt hlogm
  rw [nearestBits_natural hm₀ hm]
  rcases lt_or_ge n (2 ^ 53) with hn' | hn'
  · have hlogn : n.log2 ≤ 52 := Nat.lt_succ_iff.mp ((Nat.log2_lt hn.ne').mpr hn')
    have hlarge := le_mul_pow hn hlogn
    rw [nearestBits_natural hn hn']
    have hlog : m.log2 ≤ n.log2 :=
      (Nat.le_log2 hn.ne').mpr ((Nat.log2_self_le hm₀.ne').trans h.le)
    rcases hlog.lt_or_eq with hlt | heq
    · omega
    · rw [heq]
      gcongr
  · -- the larger one may be rounded, but not below `2 ^ 53`
    have hpow : (2 : ℚ) ^ 53 ≤ (n : ℚ) / (1 : Nat) := by
      rw [Nat.cast_one, div_one]
      exact_mod_cast hn'
    have hle := le_nearestBits_of_pow_le one_pos (by omega) hpow
    rw [leadingBit_eq] at hle
    omega

theorem compare_nearestBits (h : min m n < 2 ^ 53) :
    compare (nearestBits m 1) (nearestBits n 1) = compare m n := by
  rcases lt_trichotomy m n with hlt | rfl | hgt
  · rw [min_eq_left hlt.le] at h
    rw [compare_lt_iff_lt.mpr hlt, compare_lt_iff_lt.mpr (nearestBits_lt hlt h)]
  · rw [compare_eq_iff_eq.mpr rfl, compare_eq_iff_eq.mpr rfl]
  · rw [min_eq_right hgt.le] at h
    rw [compare_gt_iff_gt.mpr hgt, compare_gt_iff_gt.mpr (nearestBits_lt hgt h)]

end Natural

/-! ## Counting in doubles -/

theorem nearestBits_le_infinityBits (num den : Nat) : nearestBits num den ≤ infinityBits := by
  rcases Nat.eq_zero_or_pos num with rfl | hnum
  · rw [nearestBits, if_pos rfl]
    exact Nat.zero_le _
  · rw [nearestBits_of_pos hnum]
    exact min_le_right _ _

namespace Number

variable {m n : Nat}

theorem toNat_toBits_natural (n : Nat) :
    (ofInt n).toModel.toBits.toBitVec.toNat = nearestBits n 1 := by
  have hsign : decide ((n : Int) < 0) = false := decide_eq_false (by omega)
  have hbits : (ofMagnitudeBits false (nearestBits n 1)).toBits.toNat = nearestBits n 1 := by
    rw [toNat_ofMagnitudeBits (nearestBits_le_infinityBits n 1), if_neg Bool.false_ne_true]
  rw [ofInt, hsign, Int.natAbs_natCast]
  exact hbits

theorem compare_ofInt (h : min m n < 2 ^ 53) :
    (ofInt m).toModel.unpack.compare (ofInt n).toModel.unpack = some (compare m n) := by
  have hle (k : Nat) : (ofInt k).toModel.toBits.toBitVec.toNat ≤ infinityBits := by
    rw [toNat_toBits_natural]
    exact nearestBits_le_infinityBits k 1
  have hbits := compare_unpack (hle m) (hle n)
  rw [toNat_toBits_natural, toNat_toBits_natural, compare_nearestBits h] at hbits
  exact hbits

theorem lt_ofInt (h : min m n < 2 ^ 53) : decide (ofInt m < ofInt n) = decide (m < n) := by
  have hcompare : decide (ofInt m < ofInt n) =
      ((ofInt m).toModel.unpack.compare (ofInt n).toModel.unpack == some .lt) := by
    change decide (decide _ = true) = _
    rw [Bool.decide_eq_true]
    exact Bool.decide_eq_true
  rw [hcompare, compare_ofInt h, Bool.eq_iff_iff, beq_iff_eq, decide_eq_true_iff, Option.some.injEq,
    compare_lt_iff_lt]

theorem le_ofInt (h : min m n < 2 ^ 53) : decide (ofInt m ≤ ofInt n) = decide (m ≤ n) := by
  have hcompare : decide (ofInt m ≤ ofInt n) =
      ((ofInt m).toModel.unpack.compare (ofInt n).toModel.unpack).any Ordering.isLE := by
    change decide (decide _ = true) = _
    rw [Bool.decide_eq_true]
    exact Bool.decide_eq_true
  rw [hcompare, compare_ofInt h, Bool.eq_iff_iff, decide_eq_true_iff, Option.any_some,
    Nat.isLE_compare]

theorem beq_ofInt (h : min m n < 2 ^ 53) : (ofInt m == ofInt n) = (m == n) := by
  change ((ofInt m).toModel.unpack.compare (ofInt n).toModel.unpack == some .eq) = _
  rw [compare_ofInt h, Bool.eq_iff_iff, beq_iff_eq, beq_iff_eq, Option.some.injEq,
    compare_eq_iff_eq]

end Number

/-- **Counts compare as numbers do.** A count that is compared with one below `2 ^ 53` may be
rounded to a double before, and so may the other. -/
theorem Comparator.compare_ofInt (c : Comparator) {m n : Nat} (h : n < 2 ^ 53) :
    c.compare (.number (.ofInt m)) (.number (.ofInt n)) = .ok (c.compareCounts m n) := by
  have hmin : min m n < 2 ^ 53 := (min_le_right m n).trans_lt h
  have hmin' : min n m < 2 ^ 53 := min_comm m n ▸ hmin
  cases c with
  | eq => exact congrArg Except.ok (Number.beq_ofInt hmin)
  | ne => exact congrArg (fun b ↦ Except.ok !b) (Number.beq_ofInt hmin)
  | gt => exact congrArg Except.ok (Number.lt_ofInt hmin')
  | ge => exact congrArg Except.ok (Number.le_ofInt hmin')
  | lt => exact congrArg Except.ok (Number.lt_ofInt hmin)
  | le => exact congrArg Except.ok (Number.le_ofInt hmin)

end Tabletop
