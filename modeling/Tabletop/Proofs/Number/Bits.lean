import Mathlib
import Tabletop.Number.Binary

/-!
# Numbers and their bits

A number that is not NaN is its bits: packing what was unpacked gives the bits back. So a finite
number is put together again from its sign and its magnitude bits, and a sign and magnitude bits up
to those of infinity are what can be read off the number that they make. A number is NaN or an
infinity when its exponent field is full, so magnitude bits below those of infinity are the finite
numbers (`Number.isFinite_iff`).
-/

namespace Tabletop

open Float.Model (Format)
open Float.Model.UnpackedFloat

/-! ## The fields of a word -/

section Fields

variable (b : BitVec Format.binary64.numBits)

theorem toNat_unpackMantissa : (unpackMantissa b).toNat = b.toNat % 2 ^ 52 := by
  simp [unpackMantissa, BitVec.extractLsb]

theorem toNat_unpackExponent : (unpackExponent b).toNat = b.toNat / 2 ^ 52 % 2 ^ 11 := by
  simp [unpackExponent, BitVec.extractLsb, Nat.shiftRight_eq_div_pow]

theorem unpackExponent_eq_full_iff {b : BitVec Format.binary64.numBits} :
    unpackExponent b = -1#11 ↔ b.toNat / 2 ^ 52 % 2 ^ 11 = 2047 := by
  rw [← toNat_unpackExponent]
  exact BitVec.toNat_inj.symm

theorem toBitVec_ofBitVec (s : BitVec 1) : (Sign.ofBitVec s).toBitVec = s := by
  revert s
  decide

theorem toNat_unpackSign : (unpackSign b).toNat = b.toNat / 2 ^ 63 := by
  have hlt : b.toNat < 2 ^ 64 := b.isLt
  have hone : b.toNat / 2 ^ 63 ≤ 1 := by omega
  simpa [unpackSign, BitVec.extractLsb, Nat.shiftRight_eq_div_pow] using hone

theorem toNat_packComponents (s : Sign) (e : BitVec 11) (m : BitVec 52) :
    (packComponents Format.binary64 s e m).toNat =
      s.toBitVec.toNat * 2 ^ 63 + e.toNat * 2 ^ 52 + m.toNat := by
  have hm : m.toNat < 2 ^ 52 := m.isLt
  have he : e.toNat < 2 ^ 11 := e.isLt
  change (s.toBitVec ++ e ++ m).toNat = _
  rw [BitVec.toNat_append, BitVec.toNat_append, ← Nat.shiftLeft_add_eq_or_of_lt hm,
    ← Nat.shiftLeft_add_eq_or_of_lt he, Nat.shiftLeft_eq, Nat.shiftLeft_eq]
  ring

end Fields

/-! ## Packing what was unpacked -/

/-- Bits are put together again from their fields. -/
theorem packComponents_of_fields {b : BitVec Format.binary64.numBits} {e : BitVec 11}
    {m : BitVec 52} (he : unpackExponent b = e) (hm : unpackMantissa b = m) :
    packComponents Format.binary64 (Sign.ofBitVec (unpackSign b)) e m = b := by
  have hlt : b.toNat < 2 ^ 64 := b.isLt
  apply BitVec.eq_of_toNat_eq
  rw [toNat_packComponents, toBitVec_ofBitVec, ← he, ← hm, toNat_unpackSign,
    toNat_unpackExponent, toNat_unpackMantissa]
  omega

theorem pack_subnormal {s : Sign} {m : Nat} (hm : 0 < m) (hlt : m < 2 ^ 52) :
    pack Format.binary64 (.finite s m (-1074) hm) =
      packComponents Format.binary64 s 0#11 (BitVec.ofNat 52 m) := by
  have hlog : m.log2 < 52 := (Nat.log2_lt hm.ne').mpr hlt
  have hmantissa : ¬m.log2 + 1 = Format.binary64.mantissaBits := by
    change ¬m.log2 + 1 = 53
    omega
  rw [pack]
  simp only [if_neg hmantissa]
  rfl

theorem pack_normal {s : Sign} {m : Nat} {e : BitVec 11} (hm : 0 < m) (hle : 2 ^ 52 ≤ m)
    (hlt : m < 2 ^ 53) (he : e ≠ -1#11) :
    pack Format.binary64 (.finite s m ((e.toNat : Int) - 1075) hm) =
      packComponents Format.binary64 s e (BitVec.ofNat 52 m) := by
  have hlog : m.log2 = 52 := (Nat.log2_eq_iff hm.ne').mpr ⟨hle, hlt⟩
  have hbiased : ((e.toNat : Int) - 1075 + Format.binary64.exponentBias +
      Format.binary64.mantissaBitsWithoutImplicit).toNat = e.toNat := by
    change ((e.toNat : Int) - 1075 + 1023 + 52).toNat = e.toNat
    omega
  have hfull : e.toNat ≠ 2047 := fun hc ↦ he (BitVec.eq_of_toNat_eq hc)
  have hroom : ¬2 ^ Format.binary64.exponentBits ≤ e.toNat + 1 := by
    change ¬2048 ≤ e.toNat + 1
    have := e.isLt
    omega
  rw [pack]
  simp only [hbiased, if_neg hroom, hlog]
  have hmantissa : 52 + 1 = Format.binary64.mantissaBits := rfl
  rw [if_pos hmantissa, BitVec.ofNat_toNat, BitVec.setWidth_eq]

theorem pack_unpack {b : BitVec Format.binary64.numBits}
    (h : unpackExponent b = -1#11 → unpackMantissa b = 0#52) :
    pack Format.binary64 (unpack Format.binary64 b) = b := by
  rw [unpack]
  by_cases hfull : unpackExponent b = -1#11
  · -- infinity
    simp only [if_pos hfull, if_pos (h hfull)]
    exact packComponents_of_fields hfull (h hfull)
  · simp only [if_neg hfull]
    have hlt : (unpackMantissa b).toNat < 2 ^ 52 := (unpackMantissa b).isLt
    by_cases hempty : unpackExponent b = 0#11
    · simp only [if_pos hempty]
      by_cases hzero : unpackMantissa b = 0#52
      · -- zero
        simp only [dif_pos hzero]
        exact packComponents_of_fields hempty hzero
      · -- subnormal numbers
        simp only [dif_neg hzero, hempty]
        refine (pack_subnormal _ hlt).trans (packComponents_of_fields hempty ?_)
        rw [BitVec.ofNat_toNat, BitVec.setWidth_eq]
    · -- normal numbers
      simp only [if_neg hempty]
      have hm : (1#1 ++ unpackMantissa b).toNat = 2 ^ 52 + (unpackMantissa b).toNat := by
        rw [BitVec.toNat_append, ← Nat.shiftLeft_add_eq_or_of_lt hlt]
        rfl
      refine (pack_normal _ (by omega) (by omega) hfull).trans
        (packComponents_of_fields rfl (BitVec.eq_of_toNat_eq ?_))
      rw [BitVec.toNat_ofNat, hm]
      change (unpackMantissa b).toNat = (2 ^ 52 + (unpackMantissa b).toNat) % 2 ^ 52
      rw [Nat.add_mod_left, Nat.mod_eq_of_lt hlt]

/-- Bits stand for NaN or an infinity when their exponent field is full, and only then. -/
theorem unpack_isNaN_or_isInf_iff {b : BitVec Format.binary64.numBits} :
    (unpack Format.binary64 b).isNaN = true ∨ (unpack Format.binary64 b).isInf = true ↔
      unpackExponent b = -1#11 := by
  rw [unpack]
  by_cases hfull : unpackExponent b = -1#11
  · simp only [if_pos hfull]
    refine iff_of_true ?_ hfull
    by_cases hempty : unpackMantissa b = 0#52
    · exact .inr (by rw [if_pos hempty]; rfl)
    · exact .inl (by rw [if_neg hempty]; rfl)
  · -- zero, subnormal numbers and normal ones
    simp only [if_neg hfull]
    refine iff_of_false ?_ hfull
    split_ifs <;> simp [isNaN, isInf]

/-! ## Numbers -/

namespace Number

theorem signBit_eq : signBit = 2 ^ 63 := rfl

theorem infinityBits_eq : infinityBits = 2047 * 2 ^ 52 := rfl

/-- Bits that do not stand for NaN are the bits of a number. -/
theorem toBits_ofBits {b : UInt64} (h : b.toNat % signBit ≤ infinityBits) :
    (Float.ofBits b).toBits = b := by
  have hvalid : @unpackExponent Format.binary64 b.toBitVec = -1#11 →
      @unpackMantissa Format.binary64 b.toBitVec = 0#52 := by
    intro hfull
    have hexponent := unpackExponent_eq_full_iff.mp hfull
    apply BitVec.eq_of_toNat_eq
    rw [toNat_unpackMantissa]
    rw [signBit_eq, infinityBits_eq] at h
    change b.toNat / 2 ^ 52 % 2 ^ 11 = 2047 at hexponent
    change b.toNat % 2 ^ 52 = 0
    omega
  exact congrArg UInt64.ofBitVec (pack_unpack hvalid)

theorem ofBits_toBits {x : Number} (h : x.magnitudeBits ≤ infinityBits) :
    Float.ofBits x.toBits = x := by
  obtain ⟨⟨b, hb⟩⟩ := x
  have hbits : (Float.ofBits b).toBits = b := toBits_ofBits h
  exact congrArg Float.ofModel (Float.Model.mk.injEq _ _ _ _ ▸ hbits)

variable {negative : Bool} {b : Nat}

theorem toNat_ofMagnitudeBits (hb : b ≤ infinityBits) :
    (ofMagnitudeBits negative b).toBits.toNat = if negative then signBit + b else b := by
  have hlt : (if negative then signBit + b else b) < 2 ^ 64 := by
    rw [signBit_eq]
    rw [infinityBits_eq] at hb
    split <;> omega
  have hnat : (UInt64.ofNat (if negative then signBit + b else b)).toNat =
      if negative then signBit + b else b := by
    rw [UInt64.toNat_ofNat', Nat.mod_eq_of_lt hlt]
  rw [ofMagnitudeBits, toBits_ofBits, hnat]
  rw [hnat]
  rw [signBit_eq]
  rw [infinityBits_eq] at hb ⊢
  split <;> omega

theorem magnitudeBits_ofMagnitudeBits (hb : b ≤ infinityBits) :
    (ofMagnitudeBits negative b).magnitudeBits = b := by
  rw [magnitudeBits, toNat_ofMagnitudeBits hb, signBit_eq]
  rw [infinityBits_eq] at hb
  split <;> omega

theorem isFinite_ofMagnitudeBits (hb : b < infinityBits) :
    (ofMagnitudeBits negative b).isFinite = true := by
  rw [isFinite, magnitudeBits_ofMagnitudeBits hb.le]
  exact decide_eq_true hb

/-- A number is finite when it is neither NaN nor an infinity. -/
theorem isFinite_iff {x : Number} :
    x.isFinite = true ↔ Float.isNaN x = false ∧ Float.isInf x = false := by
  have hfull : Float.isNaN x = true ∨ Float.isInf x = true ↔
      x.toBits.toNat / 2 ^ 52 % 2 ^ 11 = 2047 :=
    unpack_isNaN_or_isInf_iff.trans unpackExponent_eq_full_iff
  have hfinite : x.isFinite = true ↔ ¬x.toBits.toNat / 2 ^ 52 % 2 ^ 11 = 2047 := by
    have hlt : x.toBits.toNat < 2 ^ 64 := x.toBits.toNat_lt
    rw [isFinite, decide_eq_true_iff, magnitudeBits, signBit_eq, infinityBits_eq]
    omega
  rw [hfinite, ← hfull, not_or, Bool.not_eq_true, Bool.not_eq_true]

/-- A number is put together again from its sign and its magnitude. -/
theorem ofMagnitudeBits_magnitudeBits {x : Number} (h : x.isFinite = true) :
    ofMagnitudeBits x.isNegative x.magnitudeBits = x := by
  have hfinite : x.magnitudeBits < infinityBits := of_decide_eq_true h
  have hlt : x.toBits.toNat < 2 ^ 64 := x.toBits.toNat_lt
  have hbits : (if x.isNegative then signBit + x.magnitudeBits else x.magnitudeBits) =
      x.toBits.toNat := by
    by_cases hneg : signBit ≤ x.toBits.toNat
    · rw [isNegative, decide_eq_true hneg, if_pos rfl, magnitudeBits]
      rw [signBit_eq] at hneg ⊢
      omega
    · rw [isNegative, decide_eq_false hneg, if_neg Bool.false_ne_true, magnitudeBits]
      rw [signBit_eq] at hneg ⊢
      omega
  rw [ofMagnitudeBits, hbits, UInt64.ofNat_toNat, ofBits_toBits hfinite.le]

end Number

end Tabletop
